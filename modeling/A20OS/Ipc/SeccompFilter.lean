import A20OS.Ipc.Seccomp
import Mathlib.Data.List.Perm.Subperm

/-!
Seccomp filters: that they return, and what a further filter does to a decision.

The counter moves forward over every instruction but an unconditional jump, whose offset is
added to the 32-bit counter as it is; the verifier reads it as a signed number and accepts a
jump to a lower index. As long as none is taken (`Onward`) the counter strictly increases.

The chain answers with the first answer that is not ALLOW, from the newest filter on, so a
further filter can put its answer in front of a more restrictive one. The interpreter is the
classic machine except that LDX writes the accumulator, and that it goes on, or gives an answer
of its own, where the classic machine ends.
-/

namespace A20OS.Ipc

open Lib List

/-! ### Filters return -/

/-- The instruction at the counter is no unconditional jump that leads the 32-bit counter to it
again or to one before it. -/
def BpfState.Onward (insns : List SockFilter) (s : BpfState) : Prop :=
  ∀ f ∈ insns[s.pc]?, f.cls = .jmp → f.jmpOp = .ja → s.pc < (s.pc + 1 + f.k.toNat) % 2 ^ 32

instance (insns : List SockFilter) (s : BpfState) : Decidable (s.Onward insns) := by
  unfold BpfState.Onward
  infer_instance

variable {data : List Byte} {s : BpfState} {insns : List SockFilter} {stray : Nat → SockFilter}

/-- An instruction leaves the counter, adds a byte to it, or jumps without a condition. -/
theorem bpfExec_pc {f : SockFilter} {s' : BpfState} (next : bpfExec data f s = .inl s') :
    s'.pc = s.pc ∨ (∃ n < 256, s'.pc = (s.pc + n) % 2 ^ 32) ∨
      f.cls = .jmp ∧ f.jmpOp = .ja ∧ s'.pc = (s.pc + f.k.toNat) % 2 ^ 32 := by
  cases cls : f.cls with
  | jmp =>
    right
    cases op : f.jmpOp with
    | ja =>
      simp only [bpfExec, cls, op] at next
      cases next
      exact .inr ⟨rfl, rfl, rfl⟩
    | _ =>
      simp only [bpfExec, cls, op] at next
      cases next
      refine .inl ⟨_, ?_, rfl⟩
      split <;> omega
  | ret =>
    simp only [bpfExec, cls] at next
    split at next
    · cases next
    · split at next <;> cases next
  | _ =>
    left
    simp only [bpfExec, cls, BpfState.load] at next
    repeat' split at next
    all_goals cases next
    all_goals rfl

theorem skip_eq {n : Nat} (small : s.pc + n < 2 ^ 32) : s.skip n = { s with pc := s.pc + n } := by
  rw [BpfState.skip, Nat.mod_eq_of_lt small]

theorem bpfIter_inside (inside : s.pc < insns.length) :
    bpfIter insns stray data s = bpfExec data insns[s.pc] (s.skip 1) := by
  rw [bpfIter, bpfFetch, if_pos inside]
  simp [insnAt, inside]

theorem bpfIter_outside (outside : ¬s.pc < insns.length) :
    bpfIter insns stray data s = .inr retEperm := by
  rw [bpfIter, bpfFetch, if_neg outside]

/-- Inside a filter of at most 4096 instructions the counter increases. -/
theorem bpfIter_pc (bounded : insns.length ≤ bpfMaxInsns) (onward : s.Onward insns)
    {s' : BpfState} (next : bpfIter insns stray data s = .inl s') :
    s.pc < insns.length ∧ s.pc < s'.pc := by
  by_cases inside : s.pc < insns.length
  · rw [bpfIter_inside inside] at next
    have small : s.pc < 4096 := lt_of_lt_of_le inside bounded
    have stepped : (s.skip 1).pc = s.pc + 1 := by rw [skip_eq (by omega)]
    refine ⟨inside, ?_⟩
    rcases bpfExec_pc next with same | ⟨n, low, moved⟩ | ⟨cls, op, moved⟩
    · omega
    · omega
    · rw [moved, stepped]
      exact onward _ (getElem?_eq_getElem inside) cls op
  · rw [bpfIter_outside inside] at next
    cases next

theorem bpfVerify_ok {fp : List SockFilter} (accepted : bpfVerify fp = .ok ()) :
    fp.length ≤ bpfMaxInsns ∧
      ∀ (i : Nat) (inside : i < fp.length), bpfCheck fp.length i fp[i] = true := by
  obtain ⟨-, ⟨⟩⟩ | ⟨sized, accepted⟩ := ite_eq_iff.mp accepted
  obtain ⟨-, ⟨⟩⟩ | ⟨-, accepted⟩ := ite_eq_iff.mp accepted
  obtain ⟨all, -⟩ | ⟨-, ⟨⟩⟩ := ite_eq_iff.mp accepted
  refine ⟨by omega, fun i inside => all_eq_true.mp all (fp[i], i) ?_⟩
  exact mk_mem_zipIdx_iff_getElem?.mpr (getElem?_eq_getElem inside)

/-- A strictly increasing list of numbers below `n` has at most `n` of them. -/
theorem length_le_of_increasing {l : List Nat} {n : Nat} (increasing : l.Pairwise (· < ·))
    (below : ∀ i ∈ l, i < n) : l.length ≤ n := by
  have distinct : l.Nodup := increasing.imp Nat.ne_of_lt
  have inside : l ⊆ range n := fun i member => mem_range.mpr (below i member)
  simpa using (subperm_of_subset distinct inside).length_le

theorem fetched_inside {budget i : Nat} (member : i ∈ fetched insns stray data budget) :
    i < insns.length := by
  obtain ⟨s, -, fetch⟩ := mem_filterMap.mp member
  obtain ⟨inside, ⟨⟩⟩ := Option.ite_none_right_eq_some.mp fetch
  exact inside

section Run

variable {budget : Nat} (bounded : insns.length ≤ bpfMaxInsns)
  (onward : ∀ s ∈ (bpfRun insns stray data budget).1, s.Onward insns)
include bounded onward

theorem length_fetched_le : (fetched insns stray data budget).length ≤ insns.length := by
  have raises : ∀ s s' : BpfState, s.Onward insns → bpfIter insns stray data s = .inl s' →
      s.pc < s'.pc := fun _ _ onward next => (bpfIter_pc bounded onward next).2
  have increasing := (loop_increasing _ BpfState.pc raises budget .init onward).1
  apply length_le_of_increasing
  · refine pairwise_filterMap.mpr (increasing.imp ?_)
    intro s t less i here j there
    obtain ⟨-, ⟨⟩⟩ := Option.ite_none_right_eq_some.mp here
    obtain ⟨-, ⟨⟩⟩ := Option.ite_none_right_eq_some.mp there
    exact less
  · exact fun i => fetched_inside

/-- A budget of one iteration more than the filter has instructions is enough. -/
theorem bpfRun_result (enough : insns.length < budget) :
    ∃ act, (bpfRun insns stray data budget).2 = some act := by
  have lowers : ∀ s s' : BpfState, True → s.Onward insns → bpfIter insns stray data s = .inl s' →
      True ∧ insns.length - s'.pc < insns.length - s.pc := by
    intro s s' _ onward next
    have moved := bpfIter_pc bounded onward next
    exact ⟨trivial, by omega⟩
  obtain ⟨-, -, t, r, -, result, -⟩ := loop_stops (fun _ => True) (·.Onward insns)
    (fun s : BpfState => insns.length - s.pc) lowers budget .init enough trivial onward
  exact ⟨r, result⟩

end Run

/-- **Accepted filters return.** If the run of an accepted filter takes no unconditional jump
backwards, the interpreter returns, has executed at most as many instructions as the filter has,
and has fetched only the filter's own instructions. -/
theorem accepted_filter_returns (insns : List SockFilter) (stray : Nat → SockFilter)
    (data : List Byte) (accepted : bpfVerify insns = .ok ()) (budget : Nat)
    (onward : ∀ s ∈ (bpfRun insns stray data budget).1, s.Onward insns) :
    (insns.length < budget → ∃ act, (bpfRun insns stray data budget).2 = some act) ∧
      (fetched insns stray data budget).length ≤ insns.length ∧
      ∀ i ∈ fetched insns stray data budget, i < insns.length := by
  have bounded := (bpfVerify_ok accepted).1
  exact ⟨bpfRun_result bounded onward, length_fetched_le bounded onward, fun i => fetched_inside⟩

/-- Zeros behind a filter. -/
def zeros (_ : Nat) : SockFilter := ⟨0, 0, 0, 0⟩

/-- Fail the call with EPERM unless its number is 64, by a jump over the failing return. -/
def onlyWrite : List SockFilter :=
  [⟨0x20, 0, 0, 0⟩, ⟨0x15, 1, 0, 64⟩, ⟨0x06, 0, 0, retEperm⟩, ⟨0x05, 0, 0, 0⟩,
    ⟨0x06, 0, 0, retAllow⟩]

theorem accepted_filter_returns_onlyWrite :
    bpfVerify onlyWrite = .ok () ∧
      ∃ act, (bpfRun onlyWrite zeros (leBytes 64 64) 6).2 = some act := by
  have accepted : bpfVerify onlyWrite = .ok () := by decide +kernel
  exact ⟨accepted, (accepted_filter_returns onlyWrite _ _ accepted 6 (by decide +kernel)).1
    (by decide)⟩

/-- A jump by `2 ^ 32 - 1`. -/
def spinJump : SockFilter := ⟨0x05, 0, 0, 0xffffffff⟩

def spin : List SockFilter := [spinJump, ⟨0x06, 0, 0, retAllow⟩]

theorem bpfIter_spin (stray : Nat → SockFilter) (data : List Byte) :
    bpfIter spin stray data .init = .inl .init := by
  have cls : spinJump.cls = .jmp := by decide
  have op : spinJump.jmpOp = .ja := by decide
  have back : (BpfState.init.skip 1).skip spinJump.k.toNat = .init := by decide +kernel
  rw [bpfIter_inside (by decide), show spin[BpfState.init.pc] = spinJump from rfl]
  simp only [bpfExec, cls, op, back]

/-- The verifier accepts a filter on which the interpreter does not return. -/
theorem accepted_filter_spins :
    bpfVerify spin = .ok () ∧
      ∀ stray data budget, (bpfRun spin stray data budget).2 = none := by
  refine ⟨by decide +kernel, ?_⟩
  intro stray data budget
  induction budget with
  | zero => rfl
  | succ budget ih =>
    rw [bpfRun, loop_succ_inl (bpfIter_spin stray data)]
    exact ih

/-! ### Further filters -/

/-- How much an answer lets the call do: kill, trap, errno, trace, log, allow. An answer that is
none of these is handled like trace. -/
def laxity (act : BitVec 32) : Nat :=
  let action := act &&& retActionFull
  if action = retAllow then 5
  else if action = retLog then 4
  else if action = retErrno then 2
  else if action = retKillProcess ∨ action = retKillThread then 0
  else if action = retTrap then 1
  else 3

/-- The gate lets a call through on the two laxest answers. -/
theorem gateEnd_proceeds_iff {act : BitVec 32} : gateEnd act = .proceeds ↔ 4 ≤ laxity act := by
  simp only [gateEnd, laxity]
  repeat' split
  all_goals simp

section Install

variable {stray : Nat → SockFilter} {arch : BitVec 32} {budget : Nat} {t t' : SeccompTask}
  {insns : List SockFilter} {room : Bool} {call : Call}

theorem seccompInstallFilter_chain (installed : seccompInstallFilter t insns room = .ok t') :
    t' = ⟨.filter, insns :: t.chain⟩ := by
  unfold seccompInstallFilter at installed
  repeat' split at installed
  all_goals cases installed
  rfl

section
variable (free : t.chain = [] → t.mode ≠ .strict)
include free

/-- The decision is the chain's, with or without filters. -/
theorem seccompEvaluate_eq_chain : seccompEvaluate stray arch budget t call =
    evaluateChain stray (call.wire arch) budget t.chain := by
  by_cases empty : t.chain = []
  · rw [seccompEvaluate, if_pos empty, if_neg (free empty), empty, evaluateChain]
  · rw [seccompEvaluate, if_neg empty]

theorem seccompGate_eq_chain : seccompGate stray arch budget t call =
    (evaluateChain stray (call.wire arch) budget t.chain).map gateEnd := by
  unfold seccompGate
  split
  · next idle =>
    rw [idle.1, evaluateChain]
    rfl
  · rw [seccompEvaluate_eq_chain free]

end

/-- A task in strict mode without filters does not get through the gate to install one. -/
theorem free_of_installing {installing : Call}
    (number : installing.nr.toNat = sysPrctl ∨ installing.nr.toNat = sysSeccomp)
    (passed : seccompGate stray arch budget t installing = some .proceeds) (empty : t.chain = []) :
    t.mode ≠ .strict := by
  intro strict
  have unknown : installing.nr.toNat ∉
    [sysRead, sysWrite, sysExit, sysExitGroup, sysSigreturn] := by
    rcases number with number | number <;> rw [number] <;> decide
  rw [seccompGate, if_neg fun idle => idle.2 strict, seccompEvaluate, if_pos empty, if_pos strict,
    if_neg unknown] at passed
  exact absurd passed (by decide)

/-- The decision with one filter more is the filter's own answer unless that is ALLOW. -/
theorem evaluateChain_cons {chain : List (List SockFilter)} {own : BitVec 32}
    (answer : (bpfRun insns stray data budget).2 = some own) :
    evaluateChain stray data budget (insns :: chain) =
      if own &&& retActionFull ≠ retAllow then some own
      else evaluateChain stray data budget chain := by
  rw [evaluateChain, answer]

/-- The answer of the newest filter that does not allow the call. -/
def FirstDenial (stray : Nat → SockFilter) (data : List Byte) (budget : Nat)
    (chain : List (List SockFilter)) (act : BitVec 32) : Prop :=
  ∃ newer f older, chain = newer ++ f :: older ∧
    (∀ g ∈ newer, ∃ answer, (bpfRun g stray data budget).2 = some answer ∧
      answer &&& retActionFull = retAllow) ∧
    (bpfRun f stray data budget).2 = some act ∧ act &&& retActionFull ≠ retAllow

theorem evaluateChain_of_denial {chain : List (List SockFilter)} {act : BitVec 32}
    (denial : FirstDenial stray data budget chain act) :
    evaluateChain stray data budget chain = some act := by
  obtain ⟨newer, f, older, rfl, allow, answer, denies⟩ := denial
  induction newer with
  | nil => rw [nil_append, evaluateChain_cons answer, if_pos denies]
  | cons g newer ih =>
    obtain ⟨⟨own, answer, allows⟩, rest⟩ := forall_mem_cons.mp allow
    rw [cons_append, evaluateChain_cons answer, if_neg (not_not_intro allows)]
    exact ih rest

theorem denial_of_evaluateChain {chain : List (List SockFilter)} {act : BitVec 32}
    (decided : evaluateChain stray data budget chain = some act) :
    act = retAllow ∨ FirstDenial stray data budget chain act := by
  induction chain with
  | nil =>
    cases decided
    exact .inl rfl
  | cons f older ih =>
    cases answer : (bpfRun f stray data budget).2 with
    | none =>
      rw [evaluateChain, answer] at decided
      cases decided
    | some own =>
      rw [evaluateChain_cons answer] at decided
      split at decided
      · next denies =>
        cases decided
        exact .inr ⟨[], f, older, rfl, nofun, answer, denies⟩
      · next allows =>
        refine (ih decided).imp_right ?_
        rintro ⟨newer, g, rest, rfl, allow, denial⟩
        exact ⟨f :: newer, g, rest, rfl,
          forall_mem_cons.mpr ⟨⟨own, answer, not_not.mp allows⟩, allow⟩,
          denial⟩

theorem laxity_le (act : BitVec 32) : laxity act ≤ laxity retAllow := by
  have most : laxity retAllow = 5 := by decide
  rw [most]
  unfold laxity
  dsimp only
  repeat' split
  all_goals decide

end Install

/-- **A further filter.** A task installs a filter by a call that the gate lets through. The
decision on another call is then at least as restrictive as before, and the gate stops it if it
did, exactly if the filter returns and its answer is ALLOW or at least as restrictive as that of
the newest older filter that does not allow the call. -/
theorem further_filter_restricts (stray : Nat → SockFilter) (arch : BitVec 32) (budget : Nat)
    (t t' : SeccompTask) (insns : List SockFilter) (room : Bool) (installing call : Call)
    (before : BitVec 32)
    (number : installing.nr.toNat = sysPrctl ∨ installing.nr.toNat = sysSeccomp)
    (passed : seccompGate stray arch budget t installing = some .proceeds)
    (installed : seccompInstallFilter t insns room = .ok t')
    (decided : seccompEvaluate stray arch budget t call = some before) :
    (∃ after, seccompEvaluate stray arch budget t' call = some after ∧
      laxity after ≤ laxity before ∧
      (seccompGate stray arch budget t call ≠ some .proceeds →
        seccompGate stray arch budget t' call ≠ some .proceeds)) ↔
    ∃ own, (bpfRun insns stray (call.wire arch) budget).2 = some own ∧
      (own &&& retActionFull = retAllow ∨
        ∀ act, FirstDenial stray (call.wire arch) budget t.chain act →
          laxity own ≤ laxity act) := by
  have free := free_of_installing number passed
  obtain rfl := seccompInstallFilter_chain installed
  have still : (⟨.filter, insns :: t.chain⟩ : SeccompTask).chain = [] →
      (⟨.filter, insns :: t.chain⟩ : SeccompTask).mode ≠ .strict := nofun
  rw [seccompEvaluate_eq_chain free] at decided
  rw [seccompGate_eq_chain free, seccompEvaluate_eq_chain still, seccompGate_eq_chain still,
    decided]
  cases answer : (bpfRun insns stray (call.wire arch) budget).2 with
  | none =>
    rw [evaluateChain, answer]
    exact iff_of_false nofun nofun
  | some own =>
    rw [evaluateChain_cons answer, decided]
    simp only [Option.some.injEq, exists_eq_left']
    by_cases allows : own &&& retActionFull = retAllow
    · rw [if_neg (not_not_intro allows)]
      exact iff_of_true ⟨before, rfl, le_rfl, id⟩ (.inl allows)
    rw [if_pos allows, or_iff_right allows]
    constructor
    · rintro ⟨after, ⟨⟩, stricter, -⟩ act denial
      cases decided.symm.trans (evaluateChain_of_denial denial)
      exact stricter
    · intro meets
      have stricter : laxity own ≤ laxity before := by
        rcases denial_of_evaluateChain decided with rfl | denial
        · exact laxity_le own
        · exact meets before denial
      refine ⟨own, rfl, stricter, fun stopped proceeds => stopped ?_⟩
      have lax := gateEnd_proceeds_iff.mp (Option.some.inj proceeds)
      rw [Option.map_some, gateEnd_proceeds_iff.mpr (le_trans lax stricter)]

/-- A filter that gives the same answer to every call. -/
def constantly (act : BitVec 32) : List SockFilter := [⟨0x06, 0, 0, act⟩]

/-- A filter that gives its answer to the calls with one number, and allows the others. -/
def only (nr act : BitVec 32) : List SockFilter :=
  [⟨0x20, 0, 0, 0⟩, ⟨0x15, 0, 1, nr⟩, ⟨0x06, 0, 0, act⟩, ⟨0x06, 0, 0, retAllow⟩]

def plainCall (nr : BitVec 64) : Call := ⟨nr, 0x1000, [3, 0, 0, 0, 0, 0]⟩

theorem further_filter_restricts_kill :
    ∃ after, seccompEvaluate zeros 0xc00000f3 5
        ⟨.filter, [constantly retKillProcess, only 57 retEperm]⟩ (plainCall 57) = some after ∧
      laxity after ≤ laxity retEperm := by
  have own : (bpfRun (constantly retKillProcess) zeros
      ((plainCall 57).wire 0xc00000f3) 5).2 = some retKillProcess := by decide +kernel
  obtain ⟨after, decided, stricter, -⟩ := (further_filter_restricts zeros
    0xc00000f3 5 ⟨.filter, [only 57 retEperm]⟩
    ⟨.filter, [constantly retKillProcess, only 57 retEperm]⟩ (constantly retKillProcess) true
    (plainCall 277) (plainCall 57) retEperm (.inr rfl) (by decide +kernel) (by decide +kernel)
    (by decide +kernel)).mpr ⟨_, own, .inr fun act _ => Nat.zero_le _⟩
  exact ⟨after, decided, stricter⟩

/-- A filter that logs every call lets through what an older filter kills. -/
theorem further_filter_restricts_log :
    ∃ t', seccompGate zeros 0xc00000f3 5 ⟨.filter, [only 57 retKillProcess]⟩
        (plainCall 277) = some .proceeds ∧
      seccompInstallFilter ⟨.filter, [only 57 retKillProcess]⟩ (constantly retLog) true = .ok t' ∧
      seccompGate zeros 0xc00000f3 5 ⟨.filter, [only 57 retKillProcess]⟩
        (plainCall 57) = some .kills ∧
      seccompGate zeros 0xc00000f3 5 t' (plainCall 57) = some .proceeds := by
  exact ⟨⟨.filter, [constantly retLog, only 57 retKillProcess]⟩, by decide +kernel,
    by decide +kernel, by decide +kernel, by decide +kernel⟩

/-! ### The classic machine

The machine the filters are written for: LD writes the accumulator, LDX the index register, the
registers hold numbers below `2 ^ 32`, and jumps move the counter forward. A division by zero, a
load outside the call's description and a counter outside the program end it with 0. -/

/-- Arithmetic; the result is taken modulo `2 ^ 32`. -/
def classicAlu (op : BpfAlu) (a v : Nat) : Nat :=
  match op with
  | .add => a + v
  | .sub => a + (2 ^ 32 - v)
  | .mul => a * v
  | .div => a / v
  | .mod => a % v
  | .or => a ||| v
  | .and => a &&& v
  | .xor => a ^^^ v
  | .lsh => a * 2 ^ v
  | .rsh => a / 2 ^ v
  | .neg => 2 ^ 32 - a
  | .other => a

def classicCond (op : BpfJmp) (a v : Nat) : Prop :=
  match op with
  | .jeq => a = v
  | .jgt => v < a
  | .jge => v ≤ a
  | .jset => a &&& v ≠ 0
  | _ => False

instance (op : BpfJmp) (a v : Nat) : Decidable (classicCond op a v) := by
  cases op <;> unfold classicCond <;> infer_instance

/-- What an instruction of the classic machine does; `s.pc` is the next instruction's index. -/
def classicExec (data : List Byte) (f : SockFilter) (s : BpfState) : BpfState ⊕ BitVec 32 :=
  let loaded (v : BitVec 32) : BpfState :=
    if f.cls = .ldx then { s with x := v } else { s with a := v }
  let word (n : Nat) : BpfState ⊕ BitVec 32 :=
    if n + 4 ≤ sdSize then .inl (loaded (BitVec.ofNat 32 (loadLE 4 data n))) else .inr 0
  let k := f.k.toNat
  let operand := if f.src = 0x08 then s.x.toNat else k
  match f.cls with
  | .ld | .ldx =>
      match f.mode with
      | .imm => .inl (loaded f.k)
      | .abs => word k
      | .ind => word (s.x.toNat + k)
      | .mem => .inl (loaded (s.m.getD k 0))
      | .len => .inl (loaded (BitVec.ofNat 32 sdSize))
      | .other => .inr 0
  | .st => .inl { s with m := s.m.set k s.a }
  | .stx => .inl { s with m := s.m.set k s.x }
  | .alu =>
      if (f.aluOp = .div ∨ f.aluOp = .mod) ∧ operand = 0 then .inr 0
      else .inl { s with a := BitVec.ofNat 32 (classicAlu f.aluOp s.a.toNat operand) }
  | .jmp =>
      let offset := if f.jmpOp = .ja then k
        else if classicCond f.jmpOp s.a.toNat operand then f.jt.toNat else f.jf.toNat
      .inl { s with pc := s.pc + offset }
  | .ret => .inr (if f.rval = 0x10 then s.a else if f.rval = 0x18 then s.x else f.k)
  | .misc => .inl (if f.miscOp = .tax then { s with x := s.a } else { s with a := s.x })

def classicIter (insns : List SockFilter) (data : List Byte) (s : BpfState) :
    BpfState ⊕ BitVec 32 :=
  match insns[s.pc]? with
  | some f => classicExec data f { s with pc := s.pc + 1 }
  | none => .inr 0

def classicRun (insns : List SockFilter) (data : List Byte) (budget : Nat) : Option (BitVec 32) :=
  (loop (classicIter insns data) budget .init).2

/-- The instruction is no LDX, and in this state no division by zero and no load outside the
call's description. -/
def BpfState.Plain (s : BpfState) (f : SockFilter) : Prop :=
  f.cls ≠ .ldx ∧ (f.cls = .ld → f.mode = .ind → s.x.toNat + f.k.toNat + 4 ≤ sdSize) ∧
    (f.cls = .alu → f.aluOp = .div ∨ f.aluOp = .mod → s.operand f ≠ 0)

instance (s : BpfState) (f : SockFilter) : Decidable (s.Plain f) := by
  unfold BpfState.Plain
  infer_instance

/-- The counter is inside the filter, at a plain instruction that leads it onward. -/
def BpfState.Classic (insns : List SockFilter) (s : BpfState) : Prop :=
  s.pc < insns.length ∧ s.Onward insns ∧ ∀ f ∈ insns[s.pc]?, s.Plain f

instance (insns : List SockFilter) (s : BpfState) : Decidable (s.Classic insns) := by
  unfold BpfState.Classic
  infer_instance

variable {f : SockFilter}

theorem loadInside_iff {n : BitVec 32} : loadInside n = true ↔ n.toNat + 4 ≤ sdSize := by
  rw [loadInside, Bool.not_eq_true', Bool.or_eq_false_iff, decide_eq_false_iff_not,
    decide_eq_false_iff_not, sdSize]
  omega

theorem load_eq {n : BitVec 32} {v : Nat} (same : n.toNat = v) (inside : v + 4 ≤ sdSize) :
    s.load data n = .inl { s with a := BitVec.ofNat 32 (loadLE 4 data v) } := by
  subst same
  rw [BpfState.load, if_pos (loadInside_iff.mpr inside)]

theorem bpfAlu_eq {op : BpfAlu} {a v : BitVec 32} (divides : op = .div ∨ op = .mod → v ≠ 0) :
    bpfAlu op a v = BitVec.ofNat 32 (classicAlu op a.toNat v.toNat) := by
  apply BitVec.eq_of_toNat_eq
  cases op with
  | div | mod =>
    have nonzero : v ≠ 0 := divides (by simp)
    simp only [bpfAlu, classicAlu, if_pos nonzero, BitVec.toNat_udiv, BitVec.toNat_umod,
      BitVec.toNat_ofNat]
    exact (Nat.mod_eq_of_lt (lt_of_le_of_lt (by simp [Nat.div_le_self, Nat.mod_le]) a.isLt)).symm
  | lsh =>
    simp only [bpfAlu, classicAlu, BitVec.toNat_ofNat]
    split
    · rw [BitVec.toNat_shiftLeft, Nat.shiftLeft_eq]
    · next far =>
      have wide : 2 ^ 32 ∣ 2 ^ v.toNat := Nat.pow_dvd_pow 2 (Nat.le_of_not_lt far)
      exact (Nat.mod_eq_zero_of_dvd (wide.mul_left _)).symm
  | rsh =>
    simp only [bpfAlu, classicAlu, BitVec.toNat_ofNat]
    split
    · rw [BitVec.toNat_ushiftRight, Nat.shiftRight_eq_div_pow]
      exact (Nat.mod_eq_of_lt (lt_of_le_of_lt (Nat.div_le_self ..) a.isLt)).symm
    · next far =>
      have wide : 2 ^ 32 ≤ 2 ^ v.toNat := Nat.pow_le_pow_right (by decide) (Nat.le_of_not_lt far)
      rw [Nat.div_eq_of_lt (a.isLt.trans_le wide)]
      rfl
  | or | and | xor =>
    simp [bpfAlu, classicAlu, ← BitVec.toNat_or, ← BitVec.toNat_and, ← BitVec.toNat_xor]
  | sub => simp [bpfAlu, classicAlu, BitVec.toNat_sub, Nat.add_comm]
  | _ => simp [bpfAlu, classicAlu]

theorem bpfCond_eq {op : BpfJmp} {a v : BitVec 32} :
    bpfCond op a v = true ↔ classicCond op a.toNat v.toNat := by
  cases op <;> simp [bpfCond, classicCond, ← BitVec.toNat_inj, BitVec.toNat_and]

theorem operand_toNat : (s.operand f).toNat = if f.src = 0x08 then s.x.toNat else f.k.toNat :=
  apply_ite BitVec.toNat ..

/-- One instruction of an accepted filter, if it is plain and no jump wraps. -/
theorem bpfExec_eq {len i : Nat} (checked : bpfCheck len i f = true) (plain : s.Plain f)
    (jumps : f.cls = .jmp → f.jmpOp = .ja → s.pc + f.k.toNat < 2 ^ 32)
    (low : s.pc ≤ bpfMaxInsns) : bpfExec data f s = classicExec data f s := by
  have index (small : f.k.toNat < bpfMemWords) : memIndex f.k = f.k.toNat :=
    (BitVec.toNat_and ..).trans (Nat.and_two_pow_sub_one_of_lt_two_pow (n := 4) small)
  have near (c : Prop) [Decidable c] : s.pc + (if c then f.jt.toNat else f.jf.toNat) < 2 ^ 32 := by
    unfold bpfMaxInsns at low
    split <;> omega
  obtain ⟨noLdx, inside, divides⟩ := plain
  cases cls : f.cls with
  | ldx => exact absurd cls noLdx
  | ld =>
    cases mode : f.mode with
    | abs =>
      have near : f.k.toNat + 4 ≤ sdSize := by
        simp only [bpfCheck, cls, mode, Bool.and_eq_true] at checked
        exact loadInside_iff.mp checked.2
      simp [bpfExec, classicExec, cls, mode, load_eq rfl near, near]
    | ind =>
      have near := inside cls mode
      have sum : (s.x + f.k).toNat = s.x.toNat + f.k.toNat := by
        rw [BitVec.toNat_add]
        unfold sdSize at near
        omega
      simp only [bpfExec, classicExec, cls, mode, load_eq sum near, if_pos near]
      rw [if_neg (by omega)]
      rfl
    | mem =>
      have small : f.k.toNat < bpfMemWords := by simp_all [bpfCheck]
      simp [bpfExec, classicExec, cls, mode, index small]
    | other => simp [bpfCheck, cls, mode] at checked
    | _ => simp [bpfExec, classicExec, cls, mode]
  | st | stx =>
    have small : f.k.toNat < bpfMemWords := by simp_all [bpfCheck]
    simp [bpfExec, classicExec, cls, index small]
  | jmp =>
    cases op : f.jmpOp with
    | ja => simp [bpfExec, classicExec, cls, op, skip_eq (jumps cls op)]
    | _ =>
      simp only [bpfExec, classicExec, cls, op, reduceCtorEq, if_false, bpfCond_eq, operand_toNat]
      rw [skip_eq (near _)]
  | ret =>
    simp only [bpfExec, classicExec, cls]
    repeat' split
    all_goals rfl
  | misc =>
    cases op : f.miscOp <;> simp [bpfExec, classicExec, cls, op]
  | alu =>
    have nonzero (op : f.aluOp = .div ∨ f.aluOp = .mod) : (s.operand f).toNat ≠ 0 := by
      exact fun zero => divides cls op (BitVec.eq_of_toNat_eq zero)
    simp only [bpfExec, classicExec, cls, ← operand_toNat]
    rw [if_neg fun bad => nonzero bad.1 bad.2, bpfAlu_eq (divides cls)]

/-- The two machines agree on what they do next. -/
theorem bpfIter_eq (accepted : bpfVerify insns = .ok ()) (classic : s.Classic insns) :
    bpfIter insns stray data s = classicIter insns data s := by
  obtain ⟨bounded, checked⟩ := bpfVerify_ok accepted
  obtain ⟨inside, onward, plain⟩ := classic
  have small : s.pc < 4096 := lt_of_lt_of_le inside bounded
  have here := getElem?_eq_getElem inside
  rw [bpfIter_inside inside, skip_eq (by omega), classicIter, here]
  refine bpfExec_eq (checked _ inside) (plain _ here) (fun cls op => ?_) (by dsimp only; omega)
  have forward := onward _ here cls op
  dsimp only
  omega

/-- **Classic BPF.** If the run of an accepted filter stays inside it and takes no LDX, no jump
backwards, no division by zero and no load outside the call's description, the filter returns,
and what it returns is the classic machine's answer. -/
theorem bpfRun_classic (insns : List SockFilter) (stray : Nat → SockFilter) (data : List Byte)
    (accepted : bpfVerify insns = .ok ()) {budget : Nat} (enough : insns.length < budget)
    (classic : ∀ s ∈ (bpfRun insns stray data budget).1, s.Classic insns) :
    ∃ act, (bpfRun insns stray data budget).2 = some act ∧
      classicRun insns data budget = some act := by
  obtain ⟨act, ran⟩ := bpfRun_result (bpfVerify_ok accepted).1
    (fun s member => (classic s member).2.1) enough
  refine ⟨act, ran, ?_⟩
  have same : bpfRun insns stray data budget = loop (classicIter insns data) budget .init := by
    refine loop_congr budget _ fun s member => ?_
    exact bpfIter_eq accepted (classic s member)
  rw [← ran, same, classicRun]

theorem bpfRun_classic_onlyWrite :
    ∃ act, (bpfRun onlyWrite zeros (leBytes 64 64) 6).2 = some act ∧
      classicRun onlyWrite (leBytes 64 64) 6 = some act :=
  bpfRun_classic onlyWrite _ _ (by decide +kernel) (by decide) (by decide +kernel)

/-- Load 7 into the index register, and return it by way of the accumulator. -/
def viaIndex : List SockFilter := [⟨0x01, 0, 0, 7⟩, ⟨0x87, 0, 0, 0⟩, ⟨0x16, 0, 0, 0⟩]

/-- The interpreter loads the accumulator, and the index register is still 0. -/
theorem ldx_writes_accumulator : bpfVerify viaIndex = .ok () ∧
    (bpfRun viaIndex zeros (leBytes 64 64) 4).2 = some 0 ∧
    classicRun viaIndex (leBytes 64 64) 4 = some 7 := by
  decide +kernel

end A20OS.Ipc
