import Mathlib.Algebra.Order.Ring.Int
import Mathlib.Data.List.Basic

/-!
The fair queue of a processor (`kernel/proc/sched.c`, level 1).

Runnable normal tasks are in a randomised search tree, ordered by virtual deadline. Each node
stores the least virtual run time below it, by which the pick skips subtrees without an eligible
task. The way from a node to the root is a list of frames, and `plug` puts the tree together again.
Insertion hangs a task in as a leaf and lets it rise, removal lets it sink and cuts it off. Both
recompute the minima of the nodes they rotate, and neither those of the nodes above.
-/

namespace A20OS.Proc

open List

/-- The fields of a task that the fair queue uses. -/
structure EevdfTask where
  vruntime : Nat := 0
  deadline : Nat := 0
  cfsWeight : Nat := 0
  piBoostWeight : Nat := 0
deriving DecidableEq

/-- The slice in ticks, by default or as set through `/proc`, and `EEVDF_MAX_LAG`. -/
structure EevdfConfig where
  slice : Nat
  maxLag : Nat
deriving DecidableEq

/-- `EEVDF_NICE0_LOAD` -/
def eevdfNice0Load : Nat := 1024

namespace EevdfTask

/-- `eevdf_weight` -/
def weight (t : EevdfTask) : Nat :=
  let base := if t.cfsWeight ≠ 0 then t.cfsWeight else eevdfNice0Load
  if t.piBoostWeight > base then t.piBoostWeight else base

/-- `eevdf_vslice` -/
def vslice (cfg : EevdfConfig) (t : EevdfTask) : Nat :=
  cfg.slice * eevdfNice0Load % 2 ^ 64 / t.weight

/-- `eevdf_reset_deadline` -/
def resetDeadline (cfg : EevdfConfig) (t : EevdfTask) : EevdfTask :=
  { t with deadline := (t.vruntime + t.vslice cfg) % 2 ^ 64 }

end EevdfTask

/-- `eevdf_node_t`, with its task. -/
structure EevdfNode where
  task : Nat
  heapPrio : Nat
  minVruntime : Nat
deriving DecidableEq

inductive EevdfTree where
  | nil
  | node (left : EevdfTree) (n : EevdfNode) (right : EevdfTree)
deriving DecidableEq

/-- A node on the way to the root: the subtree we come from is its left or its right one. -/
inductive EevdfFrame where
  | left (n : EevdfNode) (right : EevdfTree)
  | right (left : EevdfTree) (n : EevdfNode)
deriving DecidableEq

abbrev EevdfPath := List EevdfFrame

/-- The tasks by their addresses. -/
abbrev EevdfTasks := Nat → EevdfTask

/-- The fair part of `proc_runq_t`. -/
structure EevdfRunq where
  root : EevdfTree := .nil
  first : Option Nat := none
  last : Option Nat := none
  vtime : Nat := 0
  weight : Nat := 0
deriving DecidableEq

/-- `eevdf_key_less` -/
def eevdfKeyLess (ts : EevdfTasks) (a b : Nat) : Prop :=
  if (ts a).deadline ≠ (ts b).deadline then (ts a).deadline < (ts b).deadline
  else if (ts a).vruntime ≠ (ts b).vruntime then (ts a).vruntime < (ts b).vruntime
  else a < b

instance (ts : EevdfTasks) (a b : Nat) : Decidable (eevdfKeyLess ts a b) := by
  unfold eevdfKeyLess
  infer_instance

namespace EevdfTree

/-- The number of nodes. -/
def size : EevdfTree → Nat
  | nil => 0
  | node l _ r => l.size + 1 + r.size

/-- The tasks of a tree from left to right. -/
def inorder : EevdfTree → List Nat
  | nil => []
  | node l n r => l.inorder ++ n.task :: r.inorder

/-- Lower a minimum to that of a subtree. -/
def lower (m : Nat) : EevdfTree → Nat
  | nil => m
  | node _ n _ => if n.minVruntime < m then n.minVruntime else m

/-- `eevdf_augment` -/
def augment (ts : EevdfTasks) (l : EevdfTree) (n : EevdfNode) (r : EevdfTree) : EevdfNode :=
  { n with minVruntime := r.lower (l.lower (ts n.task).vruntime) }

/-- A node with its minimum recomputed. -/
def augmented (ts : EevdfTasks) (l : EevdfTree) (n : EevdfNode) (r : EevdfTree) : EevdfTree :=
  node l (augment ts l n r) r

/-- Put a subtree back under the nodes on its way to the root. -/
def plug (t : EevdfTree) : EevdfPath → EevdfTree
  | [] => t
  | .left n r :: path => (node t n r).plug path
  | .right l n :: path => (node l n t).plug path

/-- The place of a new task: the way down to an empty subtree. -/
def descend (ts : EevdfTasks) (t : Nat) : EevdfTree → EevdfPath → EevdfPath
  | nil, path => path
  | node l n r, path =>
      if eevdfKeyLess ts t n.task then l.descend ts t (.left n r :: path)
      else r.descend ts t (.right l n :: path)

/-- Rotate a node above its parents as long as they have greater heap keys. -/
def rise (ts : EevdfTasks) (l : EevdfTree) (n : EevdfNode) (r : EevdfTree) :
    EevdfPath → EevdfTree × EevdfPath
  | [] => (node l n r, [])
  | .left p pr :: path =>
      if p.heapPrio > n.heapPrio then
        -- `eevdf_rot_right`
        let x := augmented ts r p pr
        rise ts l (augment ts l n x) x path
      else (node l n r, .left p pr :: path)
  | .right pl p :: path =>
      if p.heapPrio > n.heapPrio then
        -- `eevdf_rot_left`
        let x := augmented ts pl p l
        rise ts x (augment ts x n r) r path
      else (node l n r, .right pl p :: path)

/-- The node of a task, with its subtrees and its way to the root. -/
def find (t : Nat) : EevdfTree → EevdfPath → Option (EevdfTree × EevdfNode × EevdfTree × EevdfPath)
  | nil, _ => none
  | node l n r, path =>
      if n.task = t then some (l, n, r, path)
      else (l.find t (.left n r :: path)).or (r.find t (.right l n :: path))

/-- Rotate a node below its children until one of them is missing; the result is the subtree
left when the node is cut off, and its way to the root. -/
def sink (ts : EevdfTasks) :
    Nat → EevdfTree → EevdfNode → EevdfTree → EevdfPath → EevdfTree × EevdfPath
  | fuel + 1, node a y b, n, node c z d, path =>
      if y.heapPrio < z.heapPrio then
        -- `eevdf_rot_right`
        let r := node c z d
        sink ts fuel b (augment ts b n r) r
          (.right a (augment ts a y (augmented ts b n r)) :: path)
      else
        -- `eevdf_rot_left`
        let l := node a y b
        sink ts fuel l (augment ts l n c) c
          (.left (augment ts (augmented ts l n c) z d) d :: path)
  | _, nil, _, r, path => (r, path)
  | _, l, _, _, path => (l, path)

/-- The first or the last task. -/
def leftmost : EevdfTree → Option Nat
  | nil => none
  | node nil n _ => some n.task
  | node l _ _ => l.leftmost

def rightmost : EevdfTree → Option Nat
  | nil => none
  | node _ n nil => some n.task
  | node _ _ r => r.rightmost

/-- The minimum of a subtree lets it hold a task eligible at `vtime`. -/
def reaches (vtime : Nat) : EevdfTree → Bool
  | nil => false
  | node _ n _ => n.minVruntime ≤ vtime

/-- The loop of `eevdf_pick_eligible_locked`. -/
def pick (ts : EevdfTasks) (vtime : Nat) : EevdfTree → Option Nat
  | nil => none
  | node l n r =>
      if l.reaches vtime then l.pick ts vtime
      else if (ts n.task).vruntime ≤ vtime then some n.task
      else if r.reaches vtime then r.pick ts vtime
      else none

end EevdfTree

namespace EevdfRunq

open EevdfTree

/-- The fields of a task when it is inserted: a missing deadline is set, and the bonus of a
long sleep is limited. -/
def onEntry (cfg : EevdfConfig) (rq : EevdfRunq) (task : EevdfTask) : EevdfTask :=
  let task := if task.deadline = 0 then task.resetDeadline cfg else task
  if rq.root ≠ .nil ∧ (task.vruntime + cfg.maxLag) % 2 ^ 64 < rq.vtime then
    { task with vruntime := (rq.vtime + 2 ^ 64 - cfg.maxLag) % 2 ^ 64 }.resetDeadline cfg
  else task

/-- The subtree of a new task when it has risen, and its way to the root. -/
def place (ts : EevdfTasks) (rq : EevdfRunq) (t heapPrio : Nat) : EevdfTree × EevdfPath :=
  rise ts .nil (augment ts .nil ⟨t, heapPrio, 0⟩ .nil) .nil (rq.root.descend ts t [])

/-- `eevdf_insert_locked`, with the heap key that the generator gives. -/
def insert (cfg : EevdfConfig) (rq : EevdfRunq) (ts : EevdfTasks) (t heapPrio : Nat) :
    EevdfRunq × EevdfTasks :=
  let ts := Function.update ts t (rq.onEntry cfg (ts t))
  let placed := rq.place ts t heapPrio
  ({ root := placed.1.plug placed.2
     vtime := if rq.root = .nil then (ts t).vruntime else rq.vtime
     first := if rq.first.all (fun u => eevdfKeyLess ts t u) then some t else rq.first
     last := if rq.last.all (fun u => eevdfKeyLess ts u t) then some t else rq.last
     weight := (rq.weight + (ts t).weight) % 2 ^ 64 }, ts)

/-- What is left of the subtree of a task when it was cut off, and its way to the root. -/
def cut (ts : EevdfTasks) (rq : EevdfRunq) (t : Nat) : Option (EevdfTree × EevdfPath) :=
  (rq.root.find t []).map fun found =>
    sink ts (found.1.size + found.2.2.1.size) found.1 found.2.1 found.2.2.1 found.2.2.2

/-- `eevdf_remove_locked`; `none` when the task is not in the tree. -/
def remove (ts : EevdfTasks) (rq : EevdfRunq) (t : Nat) : Option EevdfRunq :=
  (rq.cut ts t).map fun rest =>
    let root := rest.1.plug rest.2
    { rq with
      root
      first := if rq.first = some t then root.leftmost else rq.first
      last := if rq.last = some t then root.rightmost else rq.last }

/-- `eevdf_pick_eligible_locked` -/
def pickEligible (ts : EevdfTasks) (rq : EevdfRunq) : Option Nat :=
  if rq.root.reaches rq.vtime then rq.root.pick ts rq.vtime else none

end EevdfRunq

/-! ### The order of the tasks -/

section Order

variable {ts : EevdfTasks} {a b c : Nat}

theorem eevdfKeyLess_trans (first : eevdfKeyLess ts a b) (second : eevdfKeyLess ts b c) :
    eevdfKeyLess ts a c := by
  unfold eevdfKeyLess at *
  grind

theorem eevdfKeyLess_of_not (other : a ≠ b) (not : ¬ eevdfKeyLess ts a b) :
    eevdfKeyLess ts b a := by
  unfold eevdfKeyLess at *
  grind

theorem eevdfKeyLess_congr {ts' : EevdfTasks} (first : ts' a = ts a) (second : ts' b = ts b) :
    eevdfKeyLess ts' a b ↔ eevdfKeyLess ts a b := by
  unfold eevdfKeyLess
  rw [first, second]

end Order

namespace EevdfTree

/-! ### What is where in a tree -/

/-- The tasks to the left of a path's hole. -/
def lefts : EevdfPath → List Nat
  | [] => []
  | .left _ _ :: path => lefts path
  | .right l n :: path => lefts path ++ (l.inorder ++ [n.task])

/-- The tasks to the right of a path's hole. -/
def rights : EevdfPath → List Nat
  | [] => []
  | .left n r :: path => (n.task :: r.inorder) ++ rights path
  | .right _ _ :: path => rights path

variable {ts : EevdfTasks} {t : Nat} {l r : EevdfTree} {n : EevdfNode} {path : EevdfPath}

theorem inorder_plug (t : EevdfTree) :
    (t.plug path).inorder = lefts path ++ t.inorder ++ rights path := by
  induction path generalizing t with
  | nil => simp [plug, lefts, rights]
  | cons frame path ih =>
    cases frame with
    | left n r => simp [plug, ih, inorder, lefts, rights]
    | right l n => simp [plug, ih, inorder, lefts, rights]

@[simp] theorem inorder_augmented :
    (augmented ts l n r).inorder = l.inorder ++ n.task :: r.inorder := rfl

theorem mem_inorder_node {u : Nat} :
    u ∈ (node l n r).inorder ↔ u ∈ l.inorder ∨ u = n.task ∨ u ∈ r.inorder := by
  rw [inorder, mem_append, mem_cons]

@[simp] theorem task_augment : (augment ts l n r).task = n.task := rfl

/-- The way down for a new task ends where nothing is. -/
theorem plug_descend (ts : EevdfTasks) (t : Nat) : ∀ (tree : EevdfTree) (path : EevdfPath),
    nil.plug (tree.descend ts t path) = tree.plug path
  | nil, _ => rfl
  | node l n r, path => by
      rw [descend]
      split
      · exact plug_descend ts t l _
      · exact plug_descend ts t r _

/-- The tasks beside a path are before or behind a task. -/
def Around (ts : EevdfTasks) (t : Nat) (path : EevdfPath) : Prop :=
  (∀ u ∈ lefts path, eevdfKeyLess ts u t) ∧ ∀ u ∈ rights path, eevdfKeyLess ts t u

/-- A new task comes to hang between those before and those behind it. -/
theorem around_descend : ∀ {tree : EevdfTree} {path : EevdfPath},
    tree.inorder.Pairwise (eevdfKeyLess ts) → t ∉ tree.inorder → Around ts t path →
    Around ts t (tree.descend ts t path)
  | nil, _, _, _, around => around
  | node l n r, path, sorted, fresh, around => by
      obtain ⟨left, right, between⟩ := pairwise_append.mp sorted
      obtain ⟨behind, right⟩ := pairwise_cons.mp right
      rw [mem_inorder_node, not_or, not_or] at fresh
      rw [descend]
      split
      · next less =>
        refine around_descend left fresh.1 ⟨around.1, forall_mem_append.mpr
          ⟨forall_mem_cons.mpr ⟨less, fun u inRight => ?_⟩, around.2⟩⟩
        exact eevdfKeyLess_trans less (behind u inRight)
      · next notLess =>
        have more := eevdfKeyLess_of_not fresh.2.1 notLess
        refine around_descend right fresh.2.2 ⟨forall_mem_append.mpr ⟨around.1,
          forall_mem_append.mpr ⟨fun u inLeft => ?_, forall_mem_singleton.mpr more⟩⟩,
          around.2⟩
        exact eevdfKeyLess_trans (between u inLeft n.task (.head _)) more

theorem inorder_rise :
    ((rise ts l n r path).1.plug (rise ts l n r path).2).inorder =
      ((node l n r).plug path).inorder := by
  induction path generalizing l n r with
  | nil => rfl
  | cons frame path ih =>
    cases frame with
    | left p pr =>
      rw [rise]
      split
      · rw [ih, plug, inorder_plug, inorder_plug]
        simp [inorder]
      · rfl
    | right pl p =>
      rw [rise]
      split
      · rw [ih, plug, inorder_plug, inorder_plug]
        simp [inorder]
      · rfl

/-- Sinking and cutting off takes the task out and keeps the others in their order. -/
theorem inorder_sink (ts : EevdfTasks) (fuel : Nat) : ∀ (l : EevdfTree) (n : EevdfNode)
    (r : EevdfTree) (path : EevdfPath), l.size + r.size ≤ fuel →
    ((sink ts fuel l n r path).1.plug (sink ts fuel l n r path).2).inorder =
      lefts path ++ (l.inorder ++ r.inorder) ++ rights path := by
  induction fuel with
  | zero =>
    intro l n r path enough
    cases l with
    | nil => simp [sink, inorder_plug, inorder]
    | node a y b =>
      rw [size] at enough
      omega
  | succ fuel ih =>
    intro l n r path enough
    cases l with
    | nil => simp [sink, inorder_plug, inorder]
    | node a y b =>
      cases r with
      | nil => simp [sink, inorder_plug, inorder]
      | node c z d =>
        rw [size, size] at enough
        rw [sink]
        split
        all_goals
          rw [ih _ _ _ _ (by rw [size]; omega)]
          simp [lefts, rights, inorder]

/-- The way found to a task leads from the root to it. -/
theorem plug_find : ∀ {tree l r : EevdfTree} {n : EevdfNode} {path path' : EevdfPath},
    tree.find t path = some (l, n, r, path') →
    n.task = t ∧ (node l n r).plug path' = tree.plug path
  | nil, _, _, _, _, _, found => nomatch found
  | node l n r, l', r', n', path, path', found => by
      rw [find] at found
      split at found
      · next here =>
        cases found
        exact ⟨here, rfl⟩
      · rcases Option.or_eq_some_iff.mp found with inLeft | ⟨-, inRight⟩
        · have below := plug_find inLeft
          exact below
        · have below := plug_find inRight
          exact below

/-- Every task of the tree is found. -/
theorem find_isSome : ∀ {tree : EevdfTree} (path : EevdfPath), t ∈ tree.inorder →
    (tree.find t path).isSome
  | nil, _, member => nomatch member
  | node l n r, path, member => by
      rw [find]
      split
      · rfl
      · next other =>
        rw [Option.isSome_or, Bool.or_eq_true]
        rcases List.mem_append.mp member with inLeft | rest
        · exact .inl (find_isSome _ inLeft)
        · rcases List.mem_cons.mp rest with here | inRight
          · exact absurd here.symm other
          · exact .inr (find_isSome _ inRight)

end EevdfTree

end A20OS.Proc
