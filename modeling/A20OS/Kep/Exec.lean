import A20OS.Kep.Program
import A20OS.Lib.Bytes
import A20OS.Lib.Loop
import Mathlib.Tactic.Simps.Basic

/-!
The interpreter of kernel extension programs (`kernel/ext/kep.c`, `kep_exec`).

`kepStep` is one iteration of the `while` loop and records every array access the C code
performs, in order. What the C code would read past the end of an array is a parameter: `Image`
carries an arbitrary memory image behind the instruction array and the register array. A write
past the register array is visible as an access only.
-/

namespace A20OS.Kep

open Lib

/-! ### Machine -/

/-- `kep_ctx_t`: the window an extension point publishes. `base` is the address of
`words`, and the window is kept as bytes because accesses need not be aligned. -/
structure Ctx where
  base : BitVec 64
  nwords : BitVec 32
  bytes : List Byte
  size : bytes.length = nwords.toNat * 8

/-- The loaded program, and what memory holds behind the two arrays. -/
structure Image where
  insns : List Insn
  strayInsn : Nat → Insn
  strayReg : Nat → BitVec 64

/-- The locals of `kep_exec`; the context is the only memory it changes. -/
structure State where
  pc : Nat
  regs : Vector (BitVec 64) kepRegs
  ctx : Ctx

/-- One array access of the C code. Context accesses are eight bytes wide. -/
inductive Access where
  | fetch (index : Nat)
  | regRead (index : Nat)
  | regWrite (index : Nat)
  | ctxRead (off : Nat)
  | ctxWrite (off : Nat)
deriving DecidableEq

/-- One iteration: the accesses made, and the next state or the returned verdict. -/
structure StepResult where
  accesses : List Access
  next : State ⊕ BitVec 32

/-- `&p->insns[i]`. The slots from `ninsns` to the end of the array are the zeros
`kep_prog_load` leaves there. -/
def Image.insnAt (img : Image) (i : Nat) : Insn :=
  if i < kepMaxProgInsns then img.insns.getD i ⟨0, 0, 0, 0, 0⟩ else img.strayInsn i

/-- `insn->dst_reg & 0xf`. -/
def Insn.dst (insn : Insn) : Nat := (insn.dstReg &&& 0xf).toNat

/-- `insn->src_reg & 0xf`. -/
def Insn.src (insn : Insn) : Nat := (insn.srcReg &&& 0xf).toNat

/-- `bpf_reg_read`. -/
def State.regRead (s : State) (img : Image) (r : Nat) : BitVec 64 :=
  if h : r < kepRegs then s.regs[r] else img.strayReg r

/-- `bpf_reg_write`. -/
def State.regWrite (s : State) (r : Nat) (v : BitVec 64) : State :=
  if h : r < kepRegs then { s with regs := s.regs.set r v } else s

/-- `off >= 0 && (uint32_t)off + 8 <= ctx->nwords * 8`. -/
def Ctx.admits (ctx : Ctx) (insn : Insn) : Prop :=
  ¬ insn.offNegative ∧ insn.accessEnd ≤ (ctx.nwords * 8#32).toNat

instance (ctx : Ctx) (insn : Insn) : Decidable (ctx.admits insn) := by
  unfold Ctx.admits; infer_instance

def Ctx.load (ctx : Ctx) (off : Nat) : BitVec 64 := BitVec.ofNat 64 (loadLE 8 ctx.bytes off)

def Ctx.store (ctx : Ctx) (off : Nat) (v : BitVec 64) : Ctx :=
  if h : off + 8 ≤ ctx.bytes.length then
    { ctx with
      bytes := storeLE 8 ctx.bytes off v.toNat
      size := (length_storeLE h _).trans ctx.size }
  else ctx

/-- `pc += k` on the 32-bit counter. -/
@[simps]
def State.advance (s : State) (k : Nat) : State := { s with pc := (s.pc + k) % 2 ^ 32 }

@[simp] theorem State.regWrite_frame (s : State) (r : Nat) (v : BitVec 64) :
    (s.regWrite r v).pc = s.pc ∧ (s.regWrite r v).ctx = s.ctx := by
  unfold regWrite; split <;> exact ⟨rfl, rfl⟩

@[simp] theorem Ctx.store_nwords (ctx : Ctx) (off : Nat) (v : BitVec 64) :
    (ctx.store off v).nwords = ctx.nwords := by
  unfold store; split <;> rfl

variable {insn : Insn}

theorem Ctx.admits_window {ctx : Ctx} (h : ctx.admits insn) :
    insn.off.toNat + 8 ≤ ctx.nwords.toNat * 8 := by
  obtain ⟨nonneg, bound⟩ := h
  rw [Insn.accessEnd_of_nonneg nonneg, BitVec.toNat_mul] at bound
  exact le_trans bound (Nat.mod_le _ _)

theorem Insn.dst_le {n : Nat} (h : insn.dstReg.toNat ≤ n) : insn.dst ≤ n := by
  unfold dst
  exact le_trans Nat.and_le_left h

theorem Insn.src_le {n : Nat} (h : insn.srcReg.toNat ≤ n) : insn.src ≤ n := by
  unfold src
  exact le_trans Nat.and_le_left h

/-! ### Instructions -/

/-- The `switch (BPF_OP(code))` of the arithmetic classes. -/
def aluOp (op : BitVec 8) (a b : BitVec 64) : BitVec 64 :=
  if op = bpfADD then a + b
  else if op = bpfSUB then a - b
  else if op = bpfMUL then a * b
  else if op = bpfDIV then (if b ≠ 0 then a / b else 0)
  else if op = bpfOR then a ||| b
  else if op = bpfAND then a &&& b
  else if op = bpfLSH then a <<< (b &&& 63).toNat
  else if op = bpfRSH then a >>> (b &&& 63).toNat
  else if op = bpfNEG then ~~~ a + 1
  else if op = bpfMOD then (if b ≠ 0 then a % b else 0)
  else if op = bpfXOR then a ^^^ b
  else if op = bpfMOV then b
  else if op = bpfARSH then a.sshiftRight (b &&& 63).toNat
  else a

/-- The `switch (op)` of the jump classes: is the jump taken? -/
def jmpTaken (op : BitVec 8) (a b : BitVec 64) : Bool :=
  if op = bpfJA then true
  else if op = bpfJEQ then a == b
  else if op = bpfJGT then b < a
  else if op = bpfJGE then b ≤ a
  else if op = bpfJSET then (a &&& b) != 0
  else if op = bpfJNE then a != b
  else if op = bpfJSGT then b.slt a
  else if op = bpfJSGE then b.sle a
  else if op = bpfJLT then a < b
  else if op = bpfJLE then a ≤ b
  else if op = bpfJSLT then a.slt b
  else if op = bpfJSLE then a.sle b
  else false

/-- `(uint64_t)(uint32_t)v`. -/
def low32 (v : BitVec 64) : BitVec 64 := (v.setWidth 32).setWidth 64

/-- The second operand of the arithmetic and jump classes. -/
def State.operand (s : State) (img : Image) (insn : Insn) : BitVec 64 :=
  if bpfSrc insn.code = bpfX then s.regRead img insn.src else insn.imm.setWidth 64

def operandAccesses (insn : Insn) : List Access :=
  if bpfSrc insn.code = bpfX then [.regRead insn.src] else []

/-- `taken`: a `JMP32` compares the low halves of its operands. -/
def State.taken (s : State) (img : Image) (insn : Insn) : Bool :=
  let a := s.regRead img insn.dst
  let b := s.operand img insn
  if insn.cls = .jmp32 then jmpTaken (bpfOp insn.code) (low32 a) (low32 b)
  else jmpTaken (bpfOp insn.code) a b

/-- `BPF_LD|BPF_DW|BPF_IMM`, the load that takes two slots. -/
def Insn.isImm64 (insn : Insn) : Prop :=
  insn.cls = .ld ∧ bpfMode insn.code = bpfIMM ∧ bpfSize insn.code = bpfDW

instance (insn : Insn) : Decidable insn.isImm64 := by
  unfold Insn.isImm64; infer_instance

/-- One iteration of the loop of `kep_exec`. -/
def kepStep (img : Image) (s : State) : StepResult :=
  let insn := img.insnAt s.pc
  let code := insn.code
  let off := insn.off.toNat
  match insn.cls with
  | .ld =>
      let v := insn.imm.setWidth 64
      if insn.isImm64 then
        let second := (s.pc + 1) % 2 ^ 32
        let hi : BitVec 64 := (img.insnAt second).imm.setWidth 64
        { accesses := [.fetch s.pc, .fetch second, .regWrite insn.dst]
          next := .inl ((s.advance 2).regWrite insn.dst (low32 v ||| hi <<< 32)) }
      else
        { accesses := [.fetch s.pc, .regWrite insn.dst]
          next := .inl ((s.advance 1).regWrite insn.dst v) }
  | .ldx =>
      if s.ctx.admits insn then
        { accesses := [.fetch s.pc, .ctxRead off, .regWrite insn.dst]
          next := .inl ((s.regWrite insn.dst (s.ctx.load off)).advance 1) }
      else
        { accesses := [.fetch s.pc, .regWrite insn.dst]
          next := .inl ((s.regWrite insn.dst 0).advance 1) }
  | .st =>
      -- `BPF_DW` has the `BPF_X` bit set, so a store of a whole word reads `src`
      let v := s.operand img insn
      if s.ctx.admits insn then
        { accesses := .fetch s.pc :: operandAccesses insn ++ [.ctxWrite off]
          next := .inl ({ s with ctx := s.ctx.store off v }.advance 1) }
      else
        { accesses := .fetch s.pc :: operandAccesses insn
          next := .inl (s.advance 1) }
  | .stx =>
      if insn.dst = bpfRegCtx ∧ s.ctx.admits insn then
        { accesses := [.fetch s.pc, .regRead insn.src, .ctxWrite off]
          next := .inl ({ s with ctx := s.ctx.store off (s.regRead img insn.src) }.advance 1) }
      else
        { accesses := [.fetch s.pc], next := .inl (s.advance 1) }
  | .alu | .alu64 =>
      let r := aluOp (bpfOp code) (s.regRead img insn.dst) (s.operand img insn)
      let r := if insn.cls = .alu then low32 r else r
      { accesses := .fetch s.pc :: .regRead insn.dst :: operandAccesses insn ++ [.regWrite insn.dst]
        next := .inl ((s.regWrite insn.dst r).advance 1) }
  | .jmp | .jmp32 =>
      if bpfOp code = bpfEXIT then
        { accesses := [.fetch s.pc, .regRead 0], next := .inr ((s.regRead img 0).setWidth 32) }
      else
        let k := if s.taken img insn then 1 + (insn.off.signExtend 32).toNat else 1
        { accesses := .fetch s.pc :: .regRead insn.dst :: operandAccesses insn
          next := .inl (s.advance k) }

/-! ### What one iteration can do -/

/-- The instruction returns from the program. -/
def Insn.isExit (insn : Insn) : Prop :=
  (insn.cls = .jmp ∨ insn.cls = .jmp32) ∧ bpfOp insn.code = bpfEXIT

instance (insn : Insn) : Decidable insn.isExit := by
  unfold Insn.isExit; infer_instance

theorem kepStep_stop {img : Image} {s : State} {v : BitVec 32}
    (h : (kepStep img s).next = .inr v) : (img.insnAt s.pc).isExit := by
  unfold kepStep at h
  unfold Insn.isExit
  cases hcls : (img.insnAt s.pc).cls <;> simp only [hcls] at h ⊢ <;> grind

/-- An iteration that goes on is not at an `EXIT`, keeps the size of the window,
and moves `pc` by one slot, over the second half of a load, or by a taken jump. -/
theorem kepStep_next {img : Image} {s s' : State} (h : (kepStep img s).next = .inl s') :
    ¬ (img.insnAt s.pc).isExit ∧ s'.ctx.nwords = s.ctx.nwords ∧
      ((¬ (img.insnAt s.pc).isImm64 ∧ s'.pc = (s.pc + 1) % 2 ^ 32) ∨
        ((img.insnAt s.pc).isImm64 ∧ s'.pc = (s.pc + 2) % 2 ^ 32) ∨
        (((img.insnAt s.pc).cls = .jmp ∨ (img.insnAt s.pc).cls = .jmp32) ∧
          s'.pc = (s.pc + (1 + ((img.insnAt s.pc).off.signExtend 32).toNat)) % 2 ^ 32)) := by
  have single (hcls : (img.insnAt s.pc).cls ≠ .ld) : ¬ (img.insnAt s.pc).isImm64 :=
    fun himm => hcls himm.1
  unfold kepStep at h
  unfold Insn.isExit
  cases hcls : (img.insnAt s.pc).cls <;> simp only [hcls] at h ⊢
  case ld => split at h <;> rename_i himm <;> cases h <;> simp [himm]
  all_goals replace single := single (by simp [hcls])
  case ldx => split at h <;> cases h <;> simp [single]
  case st => split at h <;> cases h <;> simp [single]
  case stx => split at h <;> cases h <;> simp [single]
  case alu => cases h; simp [single]
  case alu64 => cases h; simp [single]
  all_goals
    split at h
    · cases h
    · rename_i going
      cases h
      refine ⟨by simp [going], rfl, ?_⟩
      cases s.taken img (img.insnAt s.pc) <;> simp [single]

/-! ### Runs -/

/-- The registers `kep_exec` starts with: zero, and the window's address in R1. -/
def State.start (ctx : Ctx) : State :=
  { pc := 0, regs := (Vector.replicate kepRegs 0).set bpfRegCtx ctx.base (by decide), ctx := ctx }

/-- The budget of the `while` loop. -/
def kepBudget : Nat := kepMaxProgInsns * 8

/-- The run of `kep_exec`: the state before each iteration, and the verdict an
`EXIT` returned; `none` is an exhausted budget. -/
def kepRun (img : Image) (ctx : Ctx) : List State × Option (BitVec 32) :=
  loop (fun s => (kepStep img s).next) kepBudget (.start ctx)

/-- `kep_exec`. -/
def kepExec (img : Image) (ctx : Ctx) : BitVec 32 := (kepRun img ctx).2.getD 0

end A20OS.Kep
