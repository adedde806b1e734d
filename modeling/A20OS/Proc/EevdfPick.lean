import A20OS.Lib.Machine
import A20OS.Proc.Eevdf
import Mathlib.Data.List.Nodup
import Mathlib.Data.List.Perm.Basic

/-!
The pick of the fair queue.

In a tree whose minima are exact, `eevdf_pick_eligible_locked` finds the first eligible task from
left to right (`Exact.pick_eq`), which in a search tree has the earliest deadline. Insertion and
removal always keep the order. They keep the minima exact when the lowest node whose minimum is not
recomputed has another task below it whose virtual run time is not greater (`Covers`).
-/

namespace A20OS.Proc

open Lib EevdfTree List Function

variable {path : EevdfPath}

/-! ### Exact minima -/

/-- The least virtual run time of some tasks. -/
def IsMinVruntime (ts : EevdfTasks) (m : Nat) (tasks : List Nat) : Prop :=
  (∃ u ∈ tasks, (ts u).vruntime = m) ∧ ∀ u ∈ tasks, m ≤ (ts u).vruntime

namespace EevdfTree

/-- Every node stores the least virtual run time below it. -/
def Exact (ts : EevdfTasks) : EevdfTree → Prop
  | nil => True
  | node l n r =>
      IsMinVruntime ts n.minVruntime (node l n r).inorder ∧ l.Exact ts ∧ r.Exact ts

end EevdfTree

namespace EevdfFrame

/-- The node of a frame. -/
def node : EevdfFrame → EevdfNode
  | left n _ => n
  | right _ n => n

/-- The other subtree of a frame. -/
def other : EevdfFrame → EevdfTree
  | left _ r => r
  | right l _ => l

/-- The tasks below a frame's node when those in the hole are given. -/
def span (hole : List Nat) : EevdfFrame → List Nat
  | left n r => hole ++ n.task :: r.inorder
  | right l n => l.inorder ++ n.task :: hole

end EevdfFrame

/-- The nodes on a path store the least virtual run times for the given tasks in the hole. -/
def PathExact (ts : EevdfTasks) : EevdfPath → List Nat → Prop
  | [], _ => True
  | f :: path, hole =>
      IsMinVruntime ts f.node.minVruntime (f.span hole) ∧ f.other.Exact ts ∧
        PathExact ts path (f.span hole)

/-- The tasks below the lowest node of a path. -/
def belowLowest (path : EevdfPath) (hole : List Nat) : Option (List Nat) :=
  path.head?.map (·.span hole)

/-- The tasks below the lowest node of a path whose heap key is not greater. -/
def belowKey (heapPrio : Nat) : EevdfPath → List Nat → Option (List Nat)
  | [], _ => none
  | f :: path, hole =>
      if heapPrio < f.node.heapPrio then belowKey heapPrio path (f.span hole)
      else some (f.span hole)

/-- The other tasks below the node to which a task sinks; at first they are those given. -/
def belowSunk : Nat → EevdfTree → EevdfTree → Option (List Nat) → Option (List Nat)
  | fuel + 1, node a y b, node c z d, _ =>
      let both := some ((node a y b).inorder ++ (node c z d).inorder)
      if y.heapPrio < z.heapPrio then belowSunk fuel b (node c z d) both
      else belowSunk fuel (node a y b) c both
  | _, _, _, tasks => tasks

/-- The other tasks below the node above the place where a task is cut off. -/
def belowCut (root : EevdfTree) (t : Nat) : Option (List Nat) :=
  (root.find t []).bind fun (l, _, r, path) =>
    belowSunk (l.size + r.size) l r (belowLowest path (l.inorder ++ r.inorder))

/-- One of the tasks, if any are given, is not `t` and has no greater virtual run time. -/
def Covered (ts : EevdfTasks) (t : Nat) (below : Option (List Nat)) : Prop :=
  ∀ tasks ∈ below, ∃ u ∈ tasks, u ≠ t ∧ (ts u).vruntime ≤ (ts t).vruntime

instance (ts : EevdfTasks) (t : Nat) (below : Option (List Nat)) :
    Decidable (Covered ts t below) := by
  unfold Covered
  infer_instance

variable {ts : EevdfTasks} {tree : EevdfTree}

theorem exact_plug :
    (tree.plug path).Exact ts ↔ tree.Exact ts ∧ PathExact ts path tree.inorder := by
  induction path generalizing tree with
  | nil => exact ⟨fun h => ⟨h, trivial⟩, And.left⟩
  | cons f path ih =>
    cases f with
    | left n r =>
      rw [plug, ih]
      constructor
      · rintro ⟨⟨least, left, right⟩, rest⟩
        exact ⟨left, least, right, rest⟩
      · rintro ⟨left, least, right, rest⟩
        exact ⟨⟨least, left, right⟩, rest⟩
    | right l n =>
      rw [plug, ih]
      constructor
      · rintro ⟨⟨least, left, right⟩, rest⟩
        exact ⟨right, least, left, rest⟩
      · rintro ⟨right, least, left, rest⟩
        exact ⟨⟨least, left, right⟩, rest⟩

/-- Lowering a minimum to that of an exact subtree. -/
theorem IsMinVruntime.lower {m : Nat} {tasks : List Nat} (least : IsMinVruntime ts m tasks)
    (exact_ : tree.Exact ts) {both : List Nat}
    (members : ∀ u, u ∈ both ↔ u ∈ tasks ∨ u ∈ tree.inorder) :
    IsMinVruntime ts (tree.lower m) both := by
  obtain ⟨⟨u, member, value⟩, bound⟩ := least
  cases tree with
  | nil =>
    refine ⟨⟨u, (members u).mpr (.inl member), value⟩, fun w at_ => ?_⟩
    exact bound w (((members w).mp at_).resolve_right not_mem_nil)
  | node l n r =>
    obtain ⟨⟨⟨w, there, stored⟩, below⟩, -, -⟩ := exact_
    by_cases less : n.minVruntime < m
    · rw [EevdfTree.lower, if_pos less]
      refine ⟨⟨w, (members w).mpr (.inr there), stored⟩, fun x at_ => ?_⟩
      rcases (members x).mp at_ with inside | inside
      · have := bound x inside
        omega
      · exact below x inside
    · rw [EevdfTree.lower, if_neg less]
      refine ⟨⟨u, (members u).mpr (.inl member), value⟩, fun x at_ => ?_⟩
      rcases (members x).mp at_ with inside | inside
      · exact bound x inside
      · have := below x inside
        omega

/-- A node whose minimum was recomputed is exact. -/
theorem exact_augmented {l r : EevdfTree} (left : l.Exact ts) (right : r.Exact ts)
    (n : EevdfNode) : (augmented ts l n r).Exact ts := by
  refine ⟨?_, left, right⟩
  have own : IsMinVruntime ts (ts n.task).vruntime [n.task] :=
    ⟨⟨n.task, mem_singleton_self _, rfl⟩, forall_mem_singleton.mpr (Nat.le_refl _)⟩
  have withLeft : IsMinVruntime ts (l.lower (ts n.task).vruntime) (l.inorder ++ [n.task]) :=
    own.lower left fun u => by simp [or_comm]
  exact withLeft.lower right fun u => by simp [augment, inorder, or_assoc]

variable {t : Nat} {hole : List Nat}

/-- A path is exact for two sets of tasks that differ in a covered task only. -/
theorem PathExact.change {hole' : List Nat} (exact_ : PathExact ts path hole)
    (covered : Covered ts t (belowLowest path hole')) (same : ∀ u, u ≠ t → (u ∈ hole ↔ u ∈ hole')) :
    PathExact ts path hole' := by
  induction path generalizing hole hole' with
  | nil => trivial
  | cons f path ih =>
    obtain ⟨⟨⟨w, there, stored⟩, bound⟩, other, rest⟩ := exact_
    obtain ⟨u, member, ne, notMore⟩ := covered _ rfl
    have covered : Covered ts t (belowLowest path (f.span hole')) := by
      intro tasks below
      obtain ⟨g, -, rfl⟩ := Option.map_eq_some_iff.mp below
      refine ⟨u, ?_, ne, notMore⟩
      cases g with
      | left => exact mem_append_left _ member
      | right => exact mem_append_right _ (.tail _ member)
    have spans : ∀ x, x ≠ t → (x ∈ f.span hole ↔ x ∈ f.span hole') := by
      intro x apart
      cases f <;> simp [EevdfFrame.span, same x apart]
    have least := bound u ((spans u ne).mpr member)
    refine ⟨⟨?_, fun x at_ => ?_⟩, other, ih rest covered spans⟩
    · by_cases here : w = t
      · -- the minimum was that of `t`, and the covering task has it too
        subst here
        exact ⟨u, member, by omega⟩
      · exact ⟨w, (spans w here).mp there, stored⟩
    · by_cases here : x = t
      · subst here
        omega
      · exact bound x ((spans x here).mpr at_)

/-- The minima depend on the virtual run times of the tasks in the tree only. -/
theorem EevdfTree.Exact.congr {ts' : EevdfTasks} : ∀ {tree : EevdfTree}, tree.Exact ts →
    (∀ u ∈ tree.inorder, ts' u = ts u) → tree.Exact ts'
  | .nil, _, _ => trivial
  | .node l n r, ⟨⟨⟨w, there, stored⟩, bound⟩, left, right⟩, same => by
      refine ⟨⟨⟨w, there, ?_⟩, fun u member => ?_⟩, left.congr fun u member => ?_,
        right.congr fun u member => ?_⟩
      · rw [same w there, stored]
      · rw [same u member]
        exact bound u member
      · exact same u (mem_inorder_node.mpr (.inl member))
      · exact same u (mem_inorder_node.mpr (.inr (.inr member)))

/-! ### The pick -/

/-- A subtree reaches a virtual time exactly when it holds an eligible task. -/
theorem EevdfTree.Exact.reaches_iff (exact_ : tree.Exact ts) (vtime : Nat) :
    tree.reaches vtime = true ↔ ∃ u ∈ tree.inorder, (ts u).vruntime ≤ vtime := by
  cases tree with
  | nil => simp [reaches, inorder]
  | node l n r =>
    obtain ⟨⟨⟨w, there, stored⟩, bound⟩, -, -⟩ := exact_
    rw [reaches, decide_eq_true_iff]
    constructor
    · exact fun reached => ⟨w, there, by omega⟩
    · rintro ⟨u, member, eligible⟩
      exact Nat.le_trans (bound u member) eligible

/-- In an exact tree the pick finds the first eligible task from left to right. -/
theorem EevdfTree.Exact.pick_eq : ∀ {tree : EevdfTree}, tree.Exact ts → ∀ vtime,
    tree.pick ts vtime = tree.inorder.find? fun u => (ts u).vruntime ≤ vtime
  | .nil, _, _ => rfl
  | .node l n r, exact_, vtime => by
      obtain ⟨-, left, right⟩ := exact_
      have none_ : ∀ {tree : EevdfTree}, tree.Exact ts → ¬ tree.reaches vtime = true →
          tree.inorder.find? (fun u => (ts u).vruntime ≤ vtime) = none := by
        intro tree here not
        refine find?_eq_none.mpr fun u member => ?_
        intro eligible
        exact not ((here.reaches_iff vtime).mpr ⟨u, member, of_decide_eq_true eligible⟩)
      rw [pick, inorder, find?_append]
      by_cases inLeft : l.reaches vtime = true
      · rw [if_pos inLeft, left.pick_eq vtime]
        obtain ⟨u, member, eligible⟩ := (left.reaches_iff vtime).mp inLeft
        have found : (l.inorder.find? fun u => (ts u).vruntime ≤ vtime).isSome :=
          find?_isSome.mpr ⟨u, member, decide_eq_true eligible⟩
        rw [Option.or_of_isSome found]
      rw [if_neg inLeft, none_ left inLeft, Option.none_or, find?_cons]
      by_cases own : (ts n.task).vruntime ≤ vtime
      · rw [if_pos own, decide_eq_true own]
      · rw [if_neg own, decide_eq_false own]
        by_cases inRight : r.reaches vtime = true
        · rw [if_pos inRight, right.pick_eq vtime]
        · rw [if_neg inRight, none_ right inRight]

/-! ### Insertion and removal -/

/-- A rising task leaves exact minima below it, and the path above it as it was. -/
theorem exact_rise {l r : EevdfTree} {n : EevdfNode} (tree : (node l n r).Exact ts)
    (above : PathExact ts path hole)
    (same : ∀ u, u ≠ n.task → (u ∈ hole ↔ u ∈ (node l n r).inorder)) :
    (rise ts l n r path).1.Exact ts ∧
      ∃ hole', PathExact ts (rise ts l n r path).2 hole' ∧
        ∀ u, u ≠ n.task → (u ∈ hole' ↔ u ∈ (rise ts l n r path).1.inorder) := by
  induction path generalizing l n r hole with
  | nil => exact ⟨tree, hole, above, same⟩
  | cons f path ih =>
    have ⟨_, left, right⟩ := tree
    have ⟨_, other, rest⟩ := above
    -- the rotation keeps the order of the tasks
    have wider : ∀ u, u ≠ n.task → (u ∈ f.span hole ↔ u ∈ f.span (node l n r).inorder) := by
      intro u apart
      cases f <;> simp [EevdfFrame.span, same u apart]
    cases f <;> rw [rise] <;> split
    · refine ih (exact_augmented left (exact_augmented right other _) n) rest ?_
      simpa [inorder, EevdfFrame.span] using wider
    · exact ⟨tree, hole, above, same⟩
    · refine ih (exact_augmented (exact_augmented other left _) right n) rest ?_
      simpa [inorder, EevdfFrame.span] using wider
    · exact ⟨tree, hole, above, same⟩

/-- Where a rising task stops. -/
theorem below_rise (ts : EevdfTasks) (l : EevdfTree) (n : EevdfNode) (r : EevdfTree) :
    belowLowest (rise ts l n r path).2 (rise ts l n r path).1.inorder =
      belowKey n.heapPrio path (node l n r).inorder := by
  induction path generalizing l n r with
  | nil => rfl
  | cons f path ih =>
    cases f <;> rw [rise, belowKey, EevdfFrame.node] <;> split
    · simp [ih, inorder, EevdfFrame.span, augmented, augment]
    · rfl
    · simp [ih, inorder, EevdfFrame.span, augmented, augment]
    · rfl

/-- Where a sinking task is cut off. -/
theorem below_sink (fuel : Nat) : ∀ {l r : EevdfTree} {n : EevdfNode} {path : EevdfPath},
    l.size + r.size ≤ fuel →
    belowLowest (sink ts fuel l n r path).2 (sink ts fuel l n r path).1.inorder =
      belowSunk fuel l r (belowLowest path (l.inorder ++ r.inorder)) := by
  induction fuel with
  | zero =>
    intro l r n path enough
    cases l with
    | nil => rfl
    | node => simp [size] at enough
  | succ fuel ih =>
    intro l r n path enough
    cases l with
    | nil => rfl
    | node a y b =>
      cases r with
      | nil => simp [sink, belowSunk, inorder]
      | node c z d =>
        rw [size, size] at enough
        rw [sink, belowSunk]
        split
        all_goals
          rw [ih (by rw [size]; omega)]
          simp [belowLowest, EevdfFrame.span, inorder, augment]

/-- A sinking task leaves exact minima below it, and on its path exact ones with itself. -/
theorem exact_sink (fuel : Nat) : ∀ {l r : EevdfTree} {n : EevdfNode} {path : EevdfPath},
    l.size + r.size ≤ fuel → l.Exact ts → r.Exact ts → PathExact ts path (node l n r).inorder →
    (sink ts fuel l n r path).1.Exact ts ∧
      ∃ hole, PathExact ts (sink ts fuel l n r path).2 hole ∧
        ∀ u, u ≠ n.task → (u ∈ hole ↔ u ∈ (sink ts fuel l n r path).1.inorder) := by
  induction fuel with
  | zero =>
    intro l r n path enough left right above
    cases l with
    | nil =>
      refine ⟨right, _, above, fun u apart => ?_⟩
      simp [inorder, apart, sink]
    | node a y b =>
      rw [size] at enough
      omega
  | succ fuel ih =>
    intro l r n path enough left right above
    cases l with
    | nil =>
      refine ⟨right, _, above, fun u apart => ?_⟩
      simp [inorder, apart, sink]
    | node a y b =>
      cases r with
      | nil =>
        refine ⟨left, _, above, fun u apart => ?_⟩
        simp [inorder, apart, sink]
      | node c z d =>
        rw [size, size] at enough
        obtain ⟨-, outerLeft, innerLeft⟩ := id left
        obtain ⟨-, innerRight, outerRight⟩ := id right
        rw [sink]
        split
        · refine ih (by rw [size]; omega) innerLeft right ?_
          have lifted := exact_augmented outerLeft (exact_augmented innerLeft right n) y
          refine ⟨lifted.1, outerLeft, ?_⟩
          have same : (node (node a y b) n (node c z d)).inorder =
              EevdfFrame.span (node b (augment ts b n (node c z d)) (node c z d)).inorder
                (.right a (augment ts a y (augmented ts b n (node c z d)))) := by
            simp [inorder, EevdfFrame.span]
          exact same ▸ above
        · refine ih (by rw [size]; omega) left innerRight ?_
          have lifted := exact_augmented (exact_augmented left innerRight n) outerRight z
          refine ⟨lifted.1, outerRight, ?_⟩
          have same : (node (node a y b) n (node c z d)).inorder =
              EevdfFrame.span (node (node a y b) (augment ts (node a y b) n c) c).inorder
                (.left (augment ts (augmented ts (node a y b) n c) z d) d) := by
            simp [inorder, EevdfFrame.span]
          exact same ▸ above

namespace EevdfRunq

variable {rq : EevdfRunq} {heapPrio : Nat} {child : EevdfTree}

theorem exact_single (ts : EevdfTasks) (n : EevdfNode) : (augmented ts nil n nil).Exact ts :=
  have empty : nil.Exact ts := trivial
  exact_augmented empty empty n

/-- A covered insertion keeps the minima exact. -/
theorem exact_place (exact_ : rq.root.Exact ts)
    (covered : Covered ts t (belowKey heapPrio (rq.root.descend ts t []) [t])) :
    ((rq.place ts t heapPrio).1.plug (rq.place ts t heapPrio).2).Exact ts := by
  have above : PathExact ts (rq.root.descend ts t []) [] := by
    have whole : (nil.plug (rq.root.descend ts t [])).Exact ts := by
      rw [plug_descend]
      exact exact_
    exact (exact_plug.mp whole).2
  obtain ⟨below, hole, path, same⟩ :=
    exact_rise (exact_single ts ⟨t, heapPrio, 0⟩) above fun u apart => by
      have other : u ≠ t := apart
      simp [inorder, other]
  have stops : Covered ts t
      (belowLowest (rq.place ts t heapPrio).2 (rq.place ts t heapPrio).1.inorder) := by
    rw [place, below_rise]
    exact covered
  exact exact_plug.mpr ⟨below, path.change stops same⟩

/-- The tasks after an insertion, from left to right. -/
theorem inorder_place (rq : EevdfRunq) (ts : EevdfTasks) (t heapPrio : Nat) :
    ((rq.place ts t heapPrio).1.plug (rq.place ts t heapPrio).2).inorder =
      lefts (rq.root.descend ts t []) ++ t :: rights (rq.root.descend ts t []) ∧
    rq.root.inorder = lefts (rq.root.descend ts t []) ++ rights (rq.root.descend ts t []) := by
  constructor
  · unfold place
    rw [inorder_rise, inorder_plug]
    simp [inorder]
  · have whole : (nil.plug (rq.root.descend ts t [])).inorder = rq.root.inorder := by
      rw [plug_descend]
      rfl
    rw [← whole, inorder_plug]
    simp [inorder]

/-- Insertion keeps the search order. -/
theorem sorted_place (sorted : rq.root.inorder.Pairwise (eevdfKeyLess ts))
    (fresh : t ∉ rq.root.inorder) :
    ((rq.place ts t heapPrio).1.plug (rq.place ts t heapPrio).2).inorder.Pairwise
      (eevdfKeyLess ts) := by
  have outside : Around ts t [] := ⟨fun _ => (nomatch ·), fun _ => (nomatch ·)⟩
  obtain ⟨before, behind⟩ := around_descend sorted fresh outside
  obtain ⟨new, old⟩ := rq.inorder_place ts t heapPrio
  rw [old] at sorted
  obtain ⟨left, right, between⟩ := pairwise_append.mp sorted
  rw [new]
  refine pairwise_append.mpr ⟨left, pairwise_cons.mpr ⟨behind, right⟩, ?_⟩
  exact fun u inLeft => forall_mem_cons.mpr ⟨before u inLeft, between u inLeft⟩

theorem perm_place (rq : EevdfRunq) (ts : EevdfTasks) (t heapPrio : Nat) :
    ((rq.place ts t heapPrio).1.plug (rq.place ts t heapPrio).2).inorder.Perm
      (t :: rq.root.inorder) := by
  obtain ⟨new, old⟩ := rq.inorder_place ts t heapPrio
  rw [new, old]
  exact perm_middle

/-- What a removal leaves: the other tasks, from left to right. -/
theorem inorder_cut (cut : rq.cut ts t = some (child, path)) :
    ∃ before behind, rq.root.inorder = before ++ t :: behind ∧
      (child.plug path).inorder = before ++ behind := by
  obtain ⟨⟨l, n, r, path'⟩, found, sunk⟩ := Option.map_eq_some_iff.mp cut
  obtain ⟨here, whole⟩ := plug_find found
  refine ⟨lefts path' ++ l.inorder, r.inorder ++ rights path', ?_, ?_⟩
  · rw [← show (node l n r).plug path' = rq.root from whole, inorder_plug, inorder, here]
    simp
  · have rest := inorder_sink ts (l.size + r.size) l n r path' (Nat.le_refl _)
    rw [sunk] at rest
    rw [rest]
    simp

/-- A covered removal keeps the minima exact. -/
theorem exact_cut (exact_ : rq.root.Exact ts) (cut : rq.cut ts t = some (child, path))
    (covered : Covered ts t (belowCut rq.root t)) : (child.plug path).Exact ts := by
  obtain ⟨⟨l, n, r, path'⟩, found, sunk⟩ := Option.map_eq_some_iff.mp cut
  obtain ⟨here, whole⟩ := plug_find found
  have whole : (node l n r).plug path' = rq.root := whole
  rw [belowCut, found, Option.bind_some] at covered
  have stops := @below_sink ts _ l r n path' (Nat.le_refl _)
  rw [sunk] at stops
  rw [← whole] at exact_
  obtain ⟨⟨-, left, right⟩, above⟩ := exact_plug.mp exact_
  have sinks := exact_sink (l.size + r.size) (Nat.le_refl _) left right above
  rw [sunk] at sinks
  obtain ⟨below, hole, path, same⟩ := sinks
  exact exact_plug.mpr ⟨below, path.change (stops ▸ covered) (here ▸ same)⟩

end EevdfRunq

/-! ### Runs -/

/-- The queue, the tasks, and the tasks that were inserted and not removed. -/
structure EevdfSys where
  rq : EevdfRunq := {}
  tasks : EevdfTasks := fun _ => {}
  queued : List Nat := []

inductive EevdfLabel where
  /-- A task with the given fields is inserted, with the given heap key. -/
  | insert (t : Nat) (task : EevdfTask) (heapPrio : Nat)
  | remove (t : Nat)
  /-- The virtual time of the queue increases. -/
  | advance (vtime : Nat)
deriving DecidableEq

namespace EevdfSys

def step (cfg : EevdfConfig) (s : EevdfSys) : EevdfLabel → Option EevdfSys
  | .insert t task heapPrio =>
      if t ∈ s.queued then none
      else
        let next := s.rq.insert cfg (Function.update s.tasks t task) t heapPrio
        some { rq := next.1, tasks := next.2, queued := t :: s.queued }
  | .remove t =>
      if t ∈ s.queued then
        (s.rq.remove s.tasks t).map fun rq => { s with rq, queued := s.queued.erase t }
      else none
  | .advance vtime => if s.rq.vtime ≤ vtime then some { s with rq.vtime := vtime } else none

/-- The tasks when `t` is inserted with the given fields. -/
def admitted (cfg : EevdfConfig) (s : EevdfSys) (t : Nat) (task : EevdfTask) : EevdfTasks :=
  Function.update (Function.update s.tasks t task) t (s.rq.onEntry cfg task)

/-- In the tree before the step, the task that is inserted or removed is covered at the lowest
node that keeps its minimum. -/
def Covers (cfg : EevdfConfig) (s : EevdfSys) : EevdfLabel → Prop
  | .insert t task heapPrio => Covered (s.admitted cfg t task) t
      (belowKey heapPrio (s.rq.root.descend (s.admitted cfg t task) t []) [t])
  | .remove t => Covered s.tasks t (belowCut s.rq.root t)
  | .advance _ => True

instance (cfg : EevdfConfig) (s : EevdfSys) (label : EevdfLabel) :
    Decidable (s.Covers cfg label) := by
  unfold Covers
  split <;> infer_instance

/-- The tree is a search tree with exact minima and holds the queued tasks. -/
structure Inv (s : EevdfSys) : Prop where
  sorted : s.rq.root.inorder.Pairwise (eevdfKeyLess s.tasks)
  minima : s.rq.root.Exact s.tasks
  members : s.rq.root.inorder.Perm s.queued

variable {cfg : EevdfConfig} {s s' : EevdfSys}

theorem inv_boot : Inv {} := ⟨.nil, trivial, .nil⟩

theorem admitted_eq (s : EevdfSys) {u : Nat} (task : EevdfTask) (other : u ≠ t) :
    s.admitted cfg t task u = s.tasks u := by
  rw [admitted, update_of_ne other, update_of_ne other]

theorem Inv.insert (inv : s.Inv) {heapPrio : Nat} {task : EevdfTask}
    (covers : s.Covers cfg (.insert t task heapPrio))
    (taken : s.step cfg (.insert t task heapPrio) = some s') : s'.Inv := by
  obtain ⟨-, ⟨⟩⟩ | ⟨fresh, taken⟩ := ite_eq_iff.mp taken
  have here : (update s.tasks t task) t = task := update_self ..
  have fresh : t ∉ s.rq.root.inorder := fun member => fresh (inv.members.mem_iff.mp member)
  have same : ∀ u ∈ s.rq.root.inorder, s.admitted cfg t task u = s.tasks u :=
    fun u member => s.admitted_eq task (ne_of_mem_of_not_mem member fresh)
  have sorted : s.rq.root.inorder.Pairwise (eevdfKeyLess (s.admitted cfg t task)) := by
    refine inv.sorted.imp_of_mem fun first second less => ?_
    exact (eevdfKeyLess_congr (same _ first) (same _ second)).mpr less
  simp only [EevdfRunq.insert, here] at taken
  obtain rfl := Option.some.inj taken
  exact {
    sorted := EevdfRunq.sorted_place sorted fresh
    minima := EevdfRunq.exact_place (inv.minima.congr same) covers
    members := (EevdfRunq.perm_place ..).trans (inv.members.cons t) }

theorem Inv.remove (inv : s.Inv) (covers : s.Covers cfg (.remove t))
    (taken : s.step cfg (.remove t) = some s') : s'.Inv := by
  obtain ⟨queued, taken⟩ | ⟨-, ⟨⟩⟩ := ite_eq_iff.mp taken
  obtain ⟨rq, removed, rfl⟩ := Option.map_eq_some_iff.mp taken
  obtain ⟨⟨child, path⟩, cut, rfl⟩ := Option.map_eq_some_iff.mp removed
  obtain ⟨before, behind, old, new⟩ := EevdfRunq.inorder_cut cut
  refine ⟨?_, EevdfRunq.exact_cut inv.minima cut covers, ?_⟩
  · have sorted := inv.sorted
    rw [old] at sorted
    rw [new]
    exact sorted.sublist ((List.Sublist.refl before).append (sublist_cons_self t behind))
  · have members := inv.members
    rw [old] at members
    have rest : (t :: (before ++ behind)).Perm (t :: s.queued.erase t) :=
      (perm_middle.symm.trans members).trans (perm_cons_erase queued)
    rw [new]
    exact rest.cons_inv

theorem Inv.step (inv : s.Inv) {label : EevdfLabel} (covers : s.Covers cfg label)
    (taken : s.step cfg label = some s') : s'.Inv := by
  cases label with
  | insert t task heapPrio => exact inv.insert covers taken
  | remove t => exact inv.remove covers taken
  | advance vtime =>
    rw [EevdfSys.step] at taken
    split at taken
    · cases taken
      exact { inv with }
    · cases taken

/-- A queued task that may run: its virtual run time is not ahead of the queue's. -/
def Eligible (s : EevdfSys) (t : Nat) : Prop :=
  t ∈ s.queued ∧ (s.tasks t).vruntime ≤ s.rq.vtime

theorem Inv.pickEligible_eq (inv : s.Inv) : s.rq.pickEligible s.tasks =
    s.rq.root.inorder.find? fun u => (s.tasks u).vruntime ≤ s.rq.vtime := by
  unfold EevdfRunq.pickEligible
  by_cases some_ : s.rq.root.reaches s.rq.vtime = true
  · rw [if_pos some_, inv.minima.pick_eq]
  · rw [if_neg some_, eq_comm, find?_eq_none]
    intro u member eligible
    exact some_ ((inv.minima.reaches_iff _).mpr ⟨u, member, of_decide_eq_true eligible⟩)

/-- **The pick of the fair queue.** In every run in which each inserted or removed task is
covered at the nodes above it, the pick returns the eligible task that is first in the order
of deadlines, and none only when no queued task is eligible. -/
theorem run_pick_eligible (run : RunsTo (step cfg) (Covers cfg) {} s) :
    (∀ t, s.rq.pickEligible s.tasks = some t →
      s.Eligible t ∧ ∀ u, s.Eligible u → u = t ∨ eevdfKeyLess s.tasks t u) ∧
    (s.rq.pickEligible s.tasks = none → ∀ u, ¬ s.Eligible u) := by
  have inv : s.Inv := run.invariant (fun inv covers taken => Inv.step inv covers taken) inv_boot
  rw [inv.pickEligible_eq]
  constructor
  · intro t found
    obtain ⟨eligible, before, behind, split, earlier⟩ := find?_eq_some_iff_append.mp found
    have sorted := inv.sorted
    rw [split] at sorted
    refine ⟨⟨?_, of_decide_eq_true eligible⟩, fun u may => ?_⟩
    · rw [← inv.members.mem_iff, split]
      exact mem_append_right _ (.head _)
    · have member := inv.members.mem_iff.mpr may.1
      rw [split] at member
      rcases mem_append.mp member with inFront | rest
      · have not := earlier u inFront
        rw [decide_eq_true may.2] at not
        cases not
      · rcases mem_cons.mp rest with rfl | later
        · exact .inl rfl
        · have ⟨_, ordered, _⟩ := pairwise_append.mp sorted
          exact .inr ((pairwise_cons.mp ordered).1 u later)
  · intro none_ u may
    refine find?_eq_none.mp none_ u (inv.members.mem_iff.mpr may.1) ?_
    exact decide_eq_true may.2

/-- Three tasks are inserted, the first is removed, and the one with the earlier deadline of
the others is picked. -/
theorem run_pick_eligible_three : ∃ s, RunsTo (step ⟨100, 100⟩) (Covers ⟨100, 100⟩) {} s ∧
    s.rq.pickEligible s.tasks = some 3 ∧ s.Eligible 3 ∧
    ∀ u, s.Eligible u → u = 3 ∨ eevdfKeyLess s.tasks 3 u := by
  obtain ⟨s, run, picked⟩ : ∃ s, RunsTo (step ⟨100, 100⟩) (Covers ⟨100, 100⟩) {} s ∧
      s.rq.pickEligible s.tasks = some 3 :=
    runsTo_of_execWhile [.insert 1 ⟨10, 20, 0, 0⟩ 1, .insert 2 ⟨12, 30, 0, 0⟩ 2,
      .insert 3 ⟨13, 25, 0, 0⟩ 3, .advance 15, .remove 1] (by decide)
  exact ⟨s, run, picked, (run_pick_eligible run).1 3 picked⟩

/-- Without the condition the pick misses eligible tasks. First, a task is inserted below a
node with a greater minimum, and that node becomes the root. Second, a task with the least
virtual run time is removed below a node that keeps its minimum, and the pick looks for an
eligible task there in vain. -/
theorem run_pick_eligible_stale :
    (∃ s, exec (step ⟨100, 100⟩) {}
        [.insert 1 ⟨10, 20, 0, 0⟩ 1, .insert 2 ⟨12, 30, 0, 0⟩ 2, .insert 3 ⟨5, 40, 0, 0⟩ 3,
          .remove 1] = some s ∧
      s.rq.pickEligible s.tasks = none ∧ s.Eligible 3) ∧
    ∃ s, exec (step ⟨100, 100⟩) {}
        [.insert 1 ⟨5, 20, 0, 0⟩ 1, .insert 2 ⟨5, 5, 0, 0⟩ 3, .insert 3 ⟨100, 10, 0, 0⟩ 2,
          .remove 2] = some s ∧
      s.rq.pickEligible s.tasks = none ∧ s.Eligible 1 :=
  ⟨⟨_, rfl, by decide, by decide, by decide⟩, ⟨_, rfl, by decide, by decide, by decide⟩⟩

end EevdfSys

end A20OS.Proc
