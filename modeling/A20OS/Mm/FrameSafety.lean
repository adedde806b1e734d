import A20OS.Lib.Machine
import A20OS.Mm.FrameInit

/-!
The frame allocator in use.

Callers on any CPU allocate blocks, give them back whole, and add and drop references to frames of
blocks they hold, one call at a time: under `pfa.lock`, or with interrupts disabled. The state
records the blocks given out (`live`) and a panic. `pfa_free` panics when somebody else still
refers to the block, and `frame_get` when nobody refers to the frame; callers that stay clear of
both (`Careful`) find every state in order (`Safe`).
-/

namespace A20OS.Mm

open Lib List Option

/-! ### The system -/

/-- The allocator, the reserves of the CPUs, the blocks given out, and the panic that stopped
the machine. -/
structure PfaSys where
  pfa : Pfa
  batches : Nat → List Pfn
  live : List Block
  panic : Option Panic

inductive PfaCall where
  | alloc (order : Int) (cpu : Nat)
  | free (b : Block)
  | get (pfn : Pfn)
  | put (pfn : Pfn)
deriving DecidableEq

/-- The reserve that a CPU uses. -/
def PfaConfig.batchOf (cfg : PfaConfig) (cpu : Nat) : Nat := if cpu < cfg.nrCpus then cpu else 0

/-- The pages in the reserves. -/
def PfaConfig.cached (cfg : PfaConfig) (batches : Nat → List Pfn) : List Block :=
  (List.range cfg.nrCpus).flatMap fun cpu => Pfa.pageBlocks (batches cpu)

namespace PfaSys

def boot (pfa : Pfa) : PfaSys := ⟨pfa, fun _ => [], [], none⟩

/-- The frame belongs to a block that was given out. -/
def LiveFrame (s : PfaSys) (pfn : Pfn) : Prop := ∃ b ∈ s.live, b.Has pfn

instance (s : PfaSys) (pfn : Pfn) : Decidable (s.LiveFrame pfn) :=
  inferInstanceAs (Decidable (∃ b ∈ s.live, b.Has pfn))

/-- A call returns, or it panics and nothing moves any more. -/
def settle (s : PfaSys) {α : Type} (call : Except Panic α) (next : α → PfaSys) : PfaSys :=
  match call with
  | .ok result => next result
  | .error panic => { s with panic := some panic }

/-- One call. A block is given back by its holder, and references are added to and dropped
from frames of blocks that are held. The last reference that is dropped takes the block along. -/
def perform (cfg : PfaConfig) (s : PfaSys) : PfaCall → Option PfaSys
  | .alloc order cpu =>
      let cpu := cfg.batchOf cpu
      some (s.settle (s.pfa.allocFlags cfg order (s.batches cpu)) fun (result, batch, pfa) =>
        { s with
          pfa
          batches := Function.update s.batches cpu batch
          live := (result.map fun p => ⟨p, order.toNat⟩).toList ++ s.live })
  | .free b =>
      if b ∈ s.live then
        some (s.settle (s.pfa.free cfg b.start b.order) fun pfa =>
          { s with pfa, live := s.live.erase b })
      else none
  | .get pfn =>
      if s.LiveFrame pfn then some (s.settle (s.pfa.get pfn) fun pfa => { s with pfa }) else none
  | .put pfn =>
      if s.LiveFrame pfn then
        some (s.settle (s.pfa.put cfg pfn) fun pfa =>
          { s with
            pfa
            live :=
              if (s.pfa.metaOf pfn).refcount = 1 then s.live.eraseP (·.start = pfn)
              else s.live })
      else none

def step (cfg : PfaConfig) (s : PfaSys) (call : PfaCall) : Option PfaSys :=
  if s.panic ≠ none then none else s.perform cfg call

/-- Nobody gives back a block that others refer to, refers to a frame without references, or
overflows the 16 bits of a reference count. -/
def Careful (s : PfaSys) : PfaCall → Prop
  | .alloc .. => True
  | .free b => (s.pfa.metaOf b.start).refcount = 1
  | .get pfn => 0 < (s.pfa.metaOf pfn).refcount ∧ (s.pfa.metaOf pfn).refcount + 1 < 2 ^ 16
  | .put _ => True

instance (s : PfaSys) (call : PfaCall) : Decidable (s.Careful call) := by
  cases call <;> unfold Careful <;> infer_instance

/-- What holds in every state: there is no panic; the blocks given out, the pages in the
reserves and the listed blocks do not overlap; the list of each order is what its links say;
a listed block is aligned and lies in one range; and the free frames are counted. -/
structure Safe (cfg : PfaConfig) (rs : List PfaRange) (free : Nat → List Pfn) (s : PfaSys) :
    Prop where
  running : s.panic = none
  held : (s.live ++ cfg.cached s.batches).Pairwise Block.Apart
  unlisted : ∀ b ∈ s.live ++ cfg.cached s.batches, ∀ c ∈ freeBlocks free, b.Apart c
  lists : ∀ o ≤ maxOrder, DList (fun i => (s.pfa.metaOf i).prev) (fun i => (s.pfa.metaOf i).next)
    (s.pfa.freeLists o).head (free o)
  once : (freeBlocks free).Pairwise Block.Apart
  inside : ∀ o ≤ maxOrder, ∀ p ∈ free o, 2 ^ o ∣ p ∧
    ∃ r ∈ rs, r.startPfn ≤ p ∧ p + 2 ^ o ≤ r.endPfn
  ledger : s.pfa.freeFrames =
    ∑ o ∈ Finset.range (maxOrder + 1), (s.pfa.freeLists o).count * 2 ^ o

/-! ### Steps -/

variable {cfg : PfaConfig} {rs : List PfaRange} {s t : PfaSys} {call : PfaCall}

/-- The invariant of the allocator, for what was given out and what is in the reserves. -/
structure Good (cfg : PfaConfig) (rs : List PfaRange) (s : PfaSys) : Prop where
  running : s.panic = none
  inv : ∃ free, Pfa.Inv rs s.pfa free (s.live ++ cfg.cached s.batches) 0

theorem batchOf_lt (cfg : PfaConfig) (cpu : Nat) : cfg.batchOf cpu < cfg.nrCpus := by
  unfold PfaConfig.batchOf
  split
  · assumption
  · exact cfg.pos

/-- The reserve of one CPU apart from the others. -/
theorem exists_cached_update (batches : Nat → List Pfn) {cpu : Nat} (below : cpu < cfg.nrCpus) :
    ∃ others, ∀ batch, (cfg.cached (Function.update batches cpu batch)).Perm
      (Pfa.pageBlocks batch ++ others) :=
  ⟨_, Block.flatMap_update batches (fun _ batch => Pfa.pageBlocks batch) below⟩

section
variable (good : Good cfg rs s)
include good

theorem Good.alloc {order : Int} {cpu : Nat}
    (taken : s.perform cfg (.alloc order cpu) = some t) : Good cfg rs t := by
  obtain ⟨free, inv⟩ := good.inv
  obtain ⟨others, split⟩ := exists_cached_update s.batches (batchOf_lt cfg cpu)
  have here := split (s.batches (cfg.batchOf cpu))
  rw [Function.update_eq_self] at here
  have owned : (s.live ++ cfg.cached s.batches).Perm
      (Pfa.pageBlocks (s.batches (cfg.batchOf cpu)) ++ (others ++ s.live)) := by
    rw [← append_assoc]
    exact perm_append_comm.trans (here.append_right _)
  obtain ⟨result, batch, pfa, free', ok, inv'⟩ := (inv.perm owned).allocFlags cfg order
  simp only [perform, settle, ok] at taken
  obtain rfl := some.inj taken
  refine ⟨good.running, free', inv'.perm ?_⟩
  rw [append_assoc]
  refine List.Perm.append_left _ ?_
  rw [← append_assoc]
  exact ((split batch).symm.append_right _).trans perm_append_comm

theorem Good.free {b : Block} (careful : s.Careful (.free b))
    (taken : s.perform cfg (.free b) = some t) : Good cfg rs t := by
  obtain ⟨free, inv⟩ := good.inv
  obtain ⟨mem, taken⟩ := ite_none_right_eq_some.mp taken
  have owned := (perm_cons_erase mem).append_right (cfg.cached s.batches)
  obtain ⟨pfa, free', ok, inv'⟩ := (inv.perm owned).pfaFree cfg careful
  simp only [settle, ok] at taken
  obtain rfl := some.inj taken
  exact ⟨good.running, free', inv'⟩

variable {pfn : Pfn}

omit good in
/-- A frame with references is the first one of its block. -/
theorem eq_start {free : Nat → List Pfn} {owned : List Block} {b : Block}
    (inv : Pfa.Inv rs s.pfa free owned 0) (mem : b ∈ owned) (has : b.Has pfn)
    (referenced : 0 < (s.pfa.metaOf pfn).refcount) : pfn = b.start := by
  by_contra other
  rw [(inv.ownedBlock b mem).rest pfn has other] at referenced
  exact Nat.lt_irrefl 0 referenced

theorem Good.get (careful : s.Careful (.get pfn)) (taken : s.perform cfg (.get pfn) = some t) :
    Good cfg rs t := by
  obtain ⟨free, inv⟩ := good.inv
  obtain ⟨⟨b, mem, has⟩, taken⟩ := ite_none_right_eq_some.mp taken
  obtain rfl := eq_start inv (mem_append_left _ mem) has careful.1
  obtain ⟨pfa, ok, inv'⟩ := inv.get (mem_append_left _ mem) careful.2
  simp only [settle, ok] at taken
  obtain rfl := some.inj taken
  exact ⟨good.running, free, inv'⟩

theorem Good.put (taken : s.perform cfg (.put pfn) = some t) : Good cfg rs t := by
  obtain ⟨free, inv⟩ := good.inv
  obtain ⟨⟨b, mem, has⟩, taken⟩ := ite_none_right_eq_some.mp taken
  by_cases first : pfn = b.start
  · obtain ⟨c, front, back, -, start, split, erased⟩ :=
      exists_of_eraseP (p := (·.start = pfn)) mem (decide_eq_true first.symm)
    replace start := of_decide_eq_true start
    subst start
    have owned : (s.live ++ cfg.cached s.batches).Perm
        (c :: (s.live.eraseP (·.start = c.start) ++ cfg.cached s.batches)) := by
      rw [erased, ← cons_append]
      refine List.Perm.append_right _ ?_
      rw [split]
      exact perm_middle
    obtain ⟨pfa, free', ok, inv'⟩ := (inv.perm owned).put cfg
    simp only [settle, ok] at taken
    obtain rfl := some.inj taken
    refine ⟨good.running, free', ?_⟩
    split at inv'
    case isTrue last =>
      simp only [if_pos last]
      exact inv'
    case isFalse more =>
      simp only [if_neg more]
      exact inv'.perm owned.symm
  · -- the other frames have no references, and dropping one does nothing
    have ok := inv.put_rest cfg (mem_append_left _ mem) has first
    have none_left := (inv.ownedBlock b (mem_append_left _ mem)).rest pfn has first
    simp only [settle, ok, none_left] at taken
    obtain rfl := some.inj taken
    exact ⟨good.running, free, inv⟩

theorem Good.step (careful : s.Careful call)
    (taken : step cfg s call = some t) : Good cfg rs t := by
  rw [PfaSys.step, if_neg (not_not.mpr good.running)] at taken
  cases call with
  | alloc order cpu => exact good.alloc taken
  | free b => exact good.free careful taken
  | get pfn => exact good.get careful taken
  | put pfn => exact good.put taken

theorem Good.safe : ∃ free, s.Safe cfg rs free := by
  obtain ⟨free, inv⟩ := good.inv
  obtain ⟨once, held, apart⟩ := pairwise_append.mp inv.apart
  refine ⟨free, good.running, held, ?_, inv.lists, once, ?_, ?_⟩
  · exact fun b mem c listed => (apart c listed b mem).symm
  · intro o ho p mem
    have fits := (inv.freeBlock ⟨p, o⟩ (Pfa.mem_freeBlocks.mpr ⟨ho, mem⟩)).fits
    exact ⟨fits.aligned, inv.layout.ranges ▸ fits.range⟩
  · rw [inv.ledger, freeBlocks, Block.sum_size_ofLists, Nat.add_zero]
    refine Finset.sum_congr rfl ?_
    intro o mem
    rw [inv.count o (Nat.lt_succ_iff.mp (Finset.mem_range.mp mem))]

end

/-! ### Runs -/

theorem good_boot {pfa : Pfa} {free : Nat → List Pfn} (inv : Pfa.Inv rs pfa free [] 0) :
    Good cfg rs (boot pfa) := by
  have none_cached : cfg.cached (fun _ => []) = [] := by
    simp [PfaConfig.cached, Pfa.pageBlocks]
  refine ⟨rfl, free, ?_⟩
  simp only [boot, none_cached, append_nil]
  exact inv

/-- `pfa_init` panics for its own checks only, and from the state it leaves no careful call
goes wrong. -/
theorem run_frames (cfg : PfaConfig) (layout : List Pfa.RamRange) (kernelEnd : Nat)
    (small : Pfa.frames layout ≤ 2 ^ 32 - 2 ^ maxOrder) :
    match Pfa.init layout kernelEnd with
    | .error panic => panic ∈ [.invalidRangeCount, .invalidRange, .metadataDoesNotFit]
    | .ok pfa => ∀ s, RunsTo (step cfg) Careful (boot pfa) s →
        ∃ free, s.Safe cfg (Pfa.numberFrames 0 layout).1 free := by
  rcases Pfa.init_inv kernelEnd small with stopped | stopped | stopped | ⟨pfa, free, booted, inv⟩
  · simp [stopped]
  · simp [stopped]
  · simp [stopped]
  · rw [booted]
    intro s run
    exact (run.invariant Good.step (good_boot inv)).safe

/-- Four frames, the first one of which holds the kernel. -/
def fourFrames : List Pfa.RamRange := [⟨0x80000000, 0x80004000⟩]

def twoCpus : PfaConfig := ⟨2, true, by decide⟩

/-- What is seen of a run from the state that `pfa_init` leaves. -/
theorem exists_run {α : Type} {layout : List Pfa.RamRange} {kernelEnd : Nat}
    {f : PfaSys → Option PfaSys} {view : PfaSys → α} {seen : α}
    (evaluated : ((Pfa.init layout kernelEnd).toOption.bind fun pfa =>
      (f (boot pfa)).map view) = some seen) :
    ∃ pfa s, Pfa.init layout kernelEnd = .ok pfa ∧ f (boot pfa) = some s ∧ view s = seen := by
  cases booted : Pfa.init layout kernelEnd with
  | error panic =>
    rw [booted] at evaluated
    cases evaluated
  | ok pfa =>
    rw [booted] at evaluated
    obtain ⟨s, ran, viewed⟩ := map_eq_some_iff.mp evaluated
    exact ⟨pfa, s, rfl, ran, viewed⟩

/-- Three frames are taken, two of them given back and joined, taken as a pair, and given back
with the last reference. -/
theorem run_frames_joined :
    ∃ pfa s free, Pfa.init fourFrames 0x80000064 = .ok pfa ∧
      RunsTo (step twoCpus) Careful (boot pfa) s ∧ s.live = [⟨1, 0⟩] ∧
      (s.pfa.freeLists 1).head = some 2 ∧
      s.Safe twoCpus (Pfa.numberFrames 0 fourFrames).1 free := by
  have evaluated : ((Pfa.init fourFrames 0x80000064).toOption.bind fun pfa =>
      (execWhile (step twoCpus) Careful (boot pfa)
        [.alloc 0 0, .alloc 0 0, .alloc 0 0, .free ⟨3, 0⟩, .free ⟨2, 0⟩, .alloc 1 1, .get 2,
          .put 2, .put 3, .put 2]).map fun s => (s.live, (s.pfa.freeLists 1).head)) =
      some ([⟨1, 0⟩], some 2) := by
    decide +kernel
  obtain ⟨pfa, s, booted, ran, seen⟩ :=
    exists_run (f := fun s => execWhile (step twoCpus) Careful s _) evaluated
  have run := execWhile_runsTo ran
  have safe := run_frames twoCpus fourFrames 0x80000064 (by decide)
  rw [booted] at safe
  obtain ⟨free, safe⟩ := safe s run
  exact ⟨pfa, s, free, booted, run, congrArg Prod.fst seen, congrArg Prod.snd seen, safe⟩

/-- A block that somebody else refers to is given back, and a reference is added to the second
frame of a pair: both panic. -/
theorem free_referenced_get_second :
    (∃ pfa s, Pfa.init fourFrames 0x80000064 = .ok pfa ∧
      exec (step twoCpus) (boot pfa) [.alloc 0 0, .get 3, .free ⟨3, 0⟩] = some s ∧
      s.panic = some .prematureFree) ∧
    ∃ pfa s, Pfa.init fourFrames 0x80000064 = .ok pfa ∧
      exec (step twoCpus) (boot pfa)
        [.alloc 0 0, .alloc 0 0, .alloc 0 0, .free ⟨3, 0⟩, .free ⟨2, 0⟩, .alloc 1 0, .get 3] =
        some s ∧
      s.panic = some .getUnreferenced := by
  constructor <;> exact exists_run (f := fun s => exec (step twoCpus) s _) (by decide +kernel)

end PfaSys

end A20OS.Mm
