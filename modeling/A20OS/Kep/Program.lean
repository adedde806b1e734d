import Mathlib.Data.List.Basic
import A20OS.Errno

/-!
Kernel extension programs: the instruction encoding (`kernel/include/ext/kep.h`) and the
load-time verifier (`kernel/ext/kep.c`, `kep_verify`).

An instruction is the five raw fields of `bpf_insn_t`. `kepVerify` is one pass over the array
that skips the second slot of every 64-bit immediate load it accepts, followed by two
whole-program checks. It does not keep a jump from landing on a slot it skipped
(`mem_checkedSlots_or_imm64Tail`).
-/

namespace A20OS.Kep

/-! ### Encoding -/

/-- `bpf_insn_t`. -/
structure Insn where
  code : BitVec 8
  dstReg : BitVec 8
  srcReg : BitVec 8
  off : BitVec 16
  imm : BitVec 32
deriving DecidableEq

variable {insn : Insn} {maxOff ninsns pc : Nat} {insns : List Insn}

/-- `BPF_CLASS(code)`: the low three bits name one of eight classes. -/
inductive Class where
  | ld | ldx | st | stx | alu | jmp | jmp32 | alu64
deriving DecidableEq, Repr

def kepRegs : Nat := 11
def kepMaxProgInsns : Nat := 256
def kepMaxContextWords : Nat := 64
def kepMaxContextBytes : Nat := kepMaxContextWords * 8

def bpfDW : BitVec 8 := 0x18
def bpfIMM : BitVec 8 := 0x00
def bpfABS : BitVec 8 := 0x20
def bpfIND : BitVec 8 := 0x40
def bpfMEM : BitVec 8 := 0x60
def bpfK : BitVec 8 := 0x00
def bpfX : BitVec 8 := 0x08

def bpfADD : BitVec 8 := 0x00
def bpfSUB : BitVec 8 := 0x10
def bpfMUL : BitVec 8 := 0x20
def bpfDIV : BitVec 8 := 0x30
def bpfOR : BitVec 8 := 0x40
def bpfAND : BitVec 8 := 0x50
def bpfLSH : BitVec 8 := 0x60
def bpfRSH : BitVec 8 := 0x70
def bpfNEG : BitVec 8 := 0x80
def bpfMOD : BitVec 8 := 0x90
def bpfXOR : BitVec 8 := 0xa0
def bpfMOV : BitVec 8 := 0xb0
def bpfARSH : BitVec 8 := 0xc0

def bpfJA : BitVec 8 := 0x00
def bpfJEQ : BitVec 8 := 0x10
def bpfJGT : BitVec 8 := 0x20
def bpfJGE : BitVec 8 := 0x30
def bpfJSET : BitVec 8 := 0x40
def bpfJNE : BitVec 8 := 0x50
def bpfJSGT : BitVec 8 := 0x60
def bpfJSGE : BitVec 8 := 0x70
def bpfCALL : BitVec 8 := 0x80
def bpfEXIT : BitVec 8 := 0x90
def bpfJLT : BitVec 8 := 0xa0
def bpfJLE : BitVec 8 := 0xb0
def bpfJSLT : BitVec 8 := 0xc0
def bpfJSLE : BitVec 8 := 0xd0

/-- `BPF_REG_CTX`: R1 carries the context pointer. -/
def bpfRegCtx : Nat := 1

def bpfClass (code : BitVec 8) : Class :=
  match (code &&& 0x07).toNat with
  | 0 => .ld
  | 1 => .ldx
  | 2 => .st
  | 3 => .stx
  | 4 => .alu
  | 5 => .jmp
  | 6 => .jmp32
  | _ => .alu64

def bpfSize (code : BitVec 8) : BitVec 8 := code &&& 0x18
def bpfMode (code : BitVec 8) : BitVec 8 := code &&& 0xe0
def bpfOp (code : BitVec 8) : BitVec 8 := code &&& 0xf0
def bpfSrc (code : BitVec 8) : BitVec 8 := code &&& 0x08

def Insn.cls (insn : Insn) : Class := bpfClass insn.code

/-- `(uint32_t)off + 8`: the end of the eight-byte access at `off`. -/
def Insn.accessEnd (insn : Insn) : Nat := (insn.off.signExtend 32 + 8#32).toNat

/-- `insn->off < 0` on the signed sixteen-bit field. -/
def Insn.offNegative (insn : Insn) : Prop := insn.off.toInt < 0

instance (insn : Insn) : Decidable insn.offNegative := by
  unfold Insn.offNegative; infer_instance

theorem Insn.accessEnd_of_nonneg (h : ¬ insn.offNegative) :
    insn.accessEnd = insn.off.toNat + 8 := by
  have hmsb : insn.off.msb = false := by
    rw [Bool.eq_false_iff]
    exact fun hm => h (BitVec.toInt_neg_of_msb_true hm)
  unfold accessEnd
  rw [BitVec.signExtend_eq_setWidth_of_msb_false hmsb, BitVec.toNat_add, BitVec.toNat_setWidth]
  simp only [BitVec.toNat_ofNat]
  omega

/-! ### Verifier -/

/-- The `switch` of the verifier loop for the slot at `pc`: the checks of its
class, and the new `max_off`. -/
def kepCheckSlot (ninsns pc : Nat) (insn : Insn) (maxOff : Nat) : Except Errno Nat :=
  let code := insn.code
  let dst := insn.dstReg.toNat
  let src := insn.srcReg.toNat
  let grown := if insn.accessEnd > maxOff then insn.accessEnd else maxOff
  match insn.cls with
  | .ld =>
      if bpfSize code ≠ bpfDW ∨ bpfMode code ≠ bpfIMM ∨ dst > 10 then
        -- absolute and indirect packet loads are not supported
        if bpfMode code = bpfABS ∨ bpfMode code = bpfIND then .error .EOPNOTSUPP
        else .error .EINVAL
      else if pc + 1 ≥ ninsns then .error .EINVAL
      else .ok maxOff
  | .ldx =>
      if src ≠ bpfRegCtx ∨ dst > 10 ∨ bpfSize code ≠ bpfDW ∨ bpfMode code ≠ bpfMEM ∨
          insn.offNegative ∨ insn.accessEnd > kepMaxContextBytes then .error .EINVAL
      else .ok grown
  | .st =>
      if bpfSize code ≠ bpfDW ∨ bpfMode code ≠ bpfMEM ∨ insn.offNegative ∨
          insn.accessEnd > kepMaxContextBytes then .error .EINVAL
      else if src ≠ bpfK.toNat then .error .EINVAL
      else .ok grown
  | .stx =>
      -- only the target is checked: `src` may name any register
      if bpfSize code ≠ bpfDW ∨ bpfMode code ≠ bpfMEM ∨ insn.offNegative ∨
          insn.accessEnd > kepMaxContextBytes then .error .EINVAL
      else if dst ≠ bpfRegCtx then .error .EINVAL
      else .ok grown
  | .alu | .alu64 =>
      if bpfOp code > bpfARSH ∨ (bpfOp code = bpfNEG ∧ bpfSrc code ≠ bpfK) ∨ dst > 10 ∨
          (bpfSrc code = bpfX ∧ src > 10) then .error .EINVAL
      else .ok maxOff
  | .jmp | .jmp32 =>
      if bpfOp code = bpfCALL then .error .EOPNOTSUPP
      else if bpfOp code = bpfEXIT then .ok maxOff
      else if bpfOp code > bpfJSLE ∨ dst > 10 ∨ (bpfSrc code = bpfX ∧ src > 10) then
        .error .EINVAL
      else if insn.off.toInt ≤ 0 then .error .EINVAL
      else if pc + 1 + insn.off.toNat ≥ ninsns then .error .EINVAL
      else .ok maxOff

/-- The verifier's loop from slot `pc` on; `insns` is the rest of the array. -/
def kepVerifyLoop (ninsns : Nat) : Nat → List Insn → Nat → Except Errno Nat
  | _, [], maxOff => .ok maxOff
  | pc, insn :: rest, maxOff =>
      match kepCheckSlot ninsns pc insn maxOff with
      | .error e => .error e
      | .ok maxOff' =>
          -- `pc++` inside the LD case steps over the second half of the immediate
          match insn.cls, rest with
          | .ld, _ :: rest' => kepVerifyLoop ninsns (pc + 2) rest' maxOff'
          | _, rest => kepVerifyLoop ninsns (pc + 1) rest maxOff'

/-- The final check: the last slot, read on its own, is `JMP|EXIT`. -/
def endsWithExit (insns : List Insn) : Prop :=
  ∃ last ∈ insns.getLast?, last.cls = .jmp ∧ bpfOp last.code = bpfEXIT

instance (insns : List Insn) : Decidable (endsWithExit insns) :=
  match h : insns.getLast? with
  | none => .isFalse (by simp [endsWithExit, h])
  | some last =>
      decidable_of_iff (last.cls = .jmp ∧ bpfOp last.code = bpfEXIT) (by simp [endsWithExit, h])

/-- `kep_verify`: `max_off` of an accepted program, or the errno. -/
def kepVerify (insns : List Insn) : Except Errno Nat :=
  if insns.length = 0 ∨ insns.length > kepMaxProgInsns then .error .EINVAL
  else
    match kepVerifyLoop insns.length 0 insns 0 with
    | .error e => .error e
    | .ok maxOff =>
        if ¬ endsWithExit insns then .error .EINVAL
        else if maxOff = 0 then .error .EINVAL
        else .ok maxOff

/-! ### What acceptance says about a slot -/

/-- The slots the verifier's loop looks at, from `pc` on. -/
def checkedSlots : Nat → List Insn → List Nat
  | _, [] => []
  | pc, insn :: rest =>
      match insn.cls, rest with
      | .ld, _ :: rest' => pc :: checkedSlots (pc + 2) rest'
      | _, rest => pc :: checkedSlots (pc + 1) rest

theorem checkedSlots_cons_ld (hcls : insn.cls = .ld) (pc : Nat) (snd : Insn) (rest : List Insn) :
    checkedSlots pc (insn :: snd :: rest) = pc :: checkedSlots (pc + 2) rest := by
  simp [checkedSlots, hcls]

theorem checkedSlots_cons_other {rest : List Insn}
    (hcls : ∀ snd rest', insn.cls = .ld → rest = snd :: rest' → False) (pc : Nat) :
    checkedSlots pc (insn :: rest) = pc :: checkedSlots (pc + 1) rest := by
  rw [checkedSlots]
  exact hcls

/-- `pc` is the second slot of a 64-bit immediate load. -/
def imm64Tail (insns : List Insn) (pc : Nat) : Prop :=
  ∃ q ∈ checkedSlots 0 insns, pc = q + 1 ∧ pc < insns.length ∧ ∃ insn ∈ insns[q]?, insn.cls = .ld

instance (insns : List Insn) (pc : Nat) : Decidable (imm64Tail insns pc) := by
  unfold imm64Tail; infer_instance

/-- What a slot that passed its check satisfies, class by class. The source
register of an `STX` is missing because the verifier does not look at it. -/
def SlotOk (ninsns maxOff pc : Nat) (insn : Insn) : Prop :=
  match insn.cls with
  | .ld => bpfSize insn.code = bpfDW ∧ bpfMode insn.code = bpfIMM ∧ insn.dstReg.toNat ≤ 10 ∧
      pc + 1 < ninsns
  | .ldx => insn.dstReg.toNat ≤ 10 ∧ ¬ insn.offNegative ∧ insn.accessEnd ≤ maxOff
  | .st => insn.srcReg.toNat = 0 ∧ ¬ insn.offNegative ∧ insn.accessEnd ≤ maxOff
  | .stx => insn.dstReg.toNat = bpfRegCtx ∧ ¬ insn.offNegative ∧ insn.accessEnd ≤ maxOff
  | .alu | .alu64 =>
      insn.dstReg.toNat ≤ 10 ∧ (bpfSrc insn.code = bpfX → insn.srcReg.toNat ≤ 10)
  | .jmp | .jmp32 => bpfOp insn.code = bpfEXIT ∨
      (insn.dstReg.toNat ≤ 10 ∧ (bpfSrc insn.code = bpfX → insn.srcReg.toNat ≤ 10) ∧
        0 < insn.off.toInt ∧ pc + 1 + insn.off.toNat < ninsns)

theorem SlotOk.mono {maxOff' : Nat} (hle : maxOff ≤ maxOff')
    (h : SlotOk ninsns maxOff pc insn) : SlotOk ninsns maxOff' pc insn := by
  unfold SlotOk at h ⊢
  cases hcls : insn.cls <;> simp only [hcls] at h ⊢
  case ldx => exact ⟨h.1, h.2.1, Nat.le_trans h.2.2 hle⟩
  case st => exact ⟨h.1, h.2.1, Nat.le_trans h.2.2 hle⟩
  case stx => exact ⟨h.1, h.2.1, Nat.le_trans h.2.2 hle⟩
  all_goals exact h

/-- A passed check never lowers `max_off`, and bounds the slot's own access by it. -/
theorem kepCheckSlot_ok {maxOff' : Nat} (h : kepCheckSlot ninsns pc insn maxOff = .ok maxOff') :
    maxOff ≤ maxOff' ∧ SlotOk ninsns maxOff' pc insn := by
  have hK : bpfK.toNat = 0 := rfl
  unfold kepCheckSlot at h
  unfold SlotOk
  cases hcls : insn.cls <;> simp only [hcls, hK] at h ⊢ <;> grind

/-- Acceptance of the rest of the array: `max_off` only grows, and every slot
looked at satisfies `SlotOk` for the final value. -/
theorem kepVerifyLoop_ok (pc : Nat) (insns : List Insn) (maxOff maxOff' : Nat)
    (h : kepVerifyLoop ninsns pc insns maxOff = .ok maxOff') :
    maxOff ≤ maxOff' ∧ ∀ q ∈ checkedSlots pc insns, pc ≤ q ∧
      ∃ insn ∈ insns[q - pc]?, SlotOk ninsns maxOff' q insn := by
  fun_induction kepVerifyLoop ninsns pc insns maxOff with
  | case1 => simp_all [checkedSlots]
  | case2 => simp_all
  | case3 pc insn maxOff maxOff₁ hslot snd rest hcls ih =>
    obtain ⟨grow, slot⟩ := kepCheckSlot_ok hslot
    obtain ⟨grow', all⟩ := ih h
    refine ⟨Nat.le_trans grow grow', ?_⟩
    intro q hq
    rw [checkedSlots_cons_ld hcls, List.mem_cons] at hq
    rcases hq with rfl | hq
    · exact ⟨Nat.le_refl _, insn, by simp, slot.mono grow'⟩
    · obtain ⟨hle, found, hfound, ok⟩ := all q hq
      refine ⟨by omega, found, ?_, ok⟩
      have hidx : q - pc = (q - (pc + 2)) + 2 := by omega
      simpa [hidx] using hfound
  | case4 pc insn maxOff maxOff₁ hslot rest hcls ih =>
    obtain ⟨grow, slot⟩ := kepCheckSlot_ok hslot
    obtain ⟨grow', all⟩ := ih h
    refine ⟨Nat.le_trans grow grow', ?_⟩
    intro q hq
    rw [checkedSlots_cons_other hcls, List.mem_cons] at hq
    rcases hq with rfl | hq
    · exact ⟨Nat.le_refl _, insn, by simp, slot.mono grow'⟩
    · obtain ⟨hle, found, hfound, ok⟩ := all q hq
      refine ⟨by omega, found, ?_, ok⟩
      have hidx : q - pc = (q - (pc + 1)) + 1 := by omega
      simpa [hidx] using hfound

/-- Every slot was looked at or is the second slot of a load that was. -/
theorem mem_checkedSlots_or_tail (pc : Nat) (insns : List Insn) (i : Nat) (hi : i < insns.length) :
    pc + i ∈ checkedSlots pc insns ∨
      ∃ j, i = j + 1 ∧ pc + j ∈ checkedSlots pc insns ∧ ∃ insn ∈ insns[j]?, insn.cls = .ld := by
  fun_induction checkedSlots pc insns generalizing i with
  | case1 => simp at hi
  | case2 pc insn snd rest hcls ih =>
    match i with
    | 0 => simp
    | 1 => exact .inr ⟨0, rfl, by simp, insn, by simp, hcls⟩
    | i + 2 =>
      have hshift : pc + (i + 2) = pc + 2 + i := by omega
      rcases ih i (by simpa using hi) with hmem | ⟨j, rfl, hmem, found, hfound, hld⟩
      · exact .inl (by simp [hshift, hmem])
      · refine .inr ⟨j + 2, rfl, ?_, found, by simpa using hfound, hld⟩
        have hshift' : pc + (j + 2) = pc + 2 + j := by omega
        simp [hshift', hmem]
  | case3 pc insn rest hcls ih =>
    match i with
    | 0 => simp
    | i + 1 =>
      have hshift : pc + (i + 1) = pc + 1 + i := by omega
      rcases ih i (by simpa using hi) with hmem | ⟨j, rfl, hmem, found, hfound, hld⟩
      · exact .inl (by simp [hshift, hmem])
      · refine .inr ⟨j + 1, rfl, ?_, found, by simpa using hfound, hld⟩
        have hshift' : pc + (j + 1) = pc + 1 + j := by omega
        simp [hshift', hmem]

/-- A slot that was looked at is not the second slot of a load that was. -/
theorem checkedSlots_apart (pc : Nat) (insns : List Insn) :
    ∀ q ∈ checkedSlots pc insns, pc ≤ q ∧
      (q + 1 ∈ checkedSlots pc insns → ∀ insn ∈ insns[q - pc]?, insn.cls ≠ .ld) := by
  fun_induction checkedSlots pc insns with
  | case1 => exact nofun
  | case2 pc insn snd rest hcls ih =>
    intro q hq
    rcases List.mem_cons.mp hq with rfl | hq
    · refine ⟨Nat.le_refl _, fun hsucc => ?_⟩
      have := (ih _ ((List.mem_cons.mp hsucc).resolve_left (by omega))).1
      omega
    · obtain ⟨hle, hld⟩ := ih q hq
      refine ⟨by omega, fun hsucc => ?_⟩
      have hidx : q - pc = q - (pc + 2) + 2 := by omega
      rw [hidx]
      exact hld ((List.mem_cons.mp hsucc).resolve_left (by omega))
  | case3 pc insn rest hcls ih =>
    intro q hq
    rcases List.mem_cons.mp hq with rfl | hq
    · refine ⟨Nat.le_refl _, fun hsucc found hfound hld => ?_⟩
      cases rest with
      | nil => simp [checkedSlots] at hsucc
      | cons snd rest =>
        have hsame : insn = found := by simpa using hfound
        exact hcls snd rest (hsame ▸ hld) rfl
    · obtain ⟨hle, hld⟩ := ih q hq
      refine ⟨by omega, fun hsucc => ?_⟩
      have hidx : q - pc = q - (pc + 1) + 1 := by omega
      rw [hidx]
      exact hld ((List.mem_cons.mp hsucc).resolve_left (by omega))

theorem mem_checkedSlots_or_imm64Tail (hpc : pc < insns.length) :
    pc ∈ checkedSlots 0 insns ∨ imm64Tail insns pc := by
  rcases mem_checkedSlots_or_tail 0 insns pc hpc with hmem | ⟨j, rfl, hmem, found, hfound, hld⟩
  · exact .inl (by simpa using hmem)
  · exact .inr ⟨j, by simpa using hmem, rfl, hpc, found, hfound, hld⟩

/-- What acceptance of a whole program gives. -/
structure Accepted (insns : List Insn) (maxOff : Nat) : Prop where
  nonempty : 0 < insns.length
  bounded : insns.length ≤ kepMaxProgInsns
  slots : ∀ pc ∈ checkedSlots 0 insns, ∃ insn ∈ insns[pc]?, SlotOk insns.length maxOff pc insn
  endsExit : endsWithExit insns

theorem kepVerify_ok (h : kepVerify insns = .ok maxOff) : Accepted insns maxOff := by
  unfold kepVerify at h
  split at h
  · cases h
  rename_i hlen
  cases hloop : kepVerifyLoop insns.length 0 insns 0 with
  | error e => simp [hloop] at h
  | ok maxOff' =>
    obtain ⟨hexit, hmax⟩ : endsWithExit insns ∧ maxOff' = maxOff := by grind
    subst hmax
    refine ⟨by omega, by omega, ?_, hexit⟩
    intro pc hpc
    exact ((kepVerifyLoop_ok 0 insns 0 maxOff' hloop).2 pc hpc).2

end A20OS.Kep
