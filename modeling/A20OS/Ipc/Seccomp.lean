import A20OS.Errno
import A20OS.Lib.Bytes
import A20OS.Lib.Loop

/-!
Seccomp filters (`kernel/ipc/seccomp.c`).

A filter is a classic BPF program over the words of the call's description. `bpfVerify` is the
check at installation, `bpfIter` one iteration of the interpreter, and `bpfRun` the loop with a
budget; `none` is an interpreter still running when it is spent. The filters of a task form a
chain, the newest first; `seccompEvaluate` asks them in that order and `seccompGate` turns the
answer into what happens to the call. The verifier's additions on `int` wrap around.
-/

namespace A20OS.Ipc

open Lib

/-! ### Instructions -/

/-- `sock_filter_t` -/
structure SockFilter where
  code : BitVec 16
  jt : BitVec 8
  jf : BitVec 8
  k : BitVec 32
deriving DecidableEq

inductive BpfClass where
  | ld | ldx | st | stx | alu | jmp | ret | misc
deriving DecidableEq, Repr

inductive BpfMode where
  | imm | abs | ind | mem | len | other
deriving DecidableEq, Repr

inductive BpfAlu where
  | add | sub | mul | div | or | and | lsh | rsh | neg | mod | xor | other
deriving DecidableEq, Repr

inductive BpfJmp where
  | ja | jeq | jgt | jge | jset | other
deriving DecidableEq, Repr

inductive BpfMisc where
  | tax | txa | other
deriving DecidableEq, Repr

namespace SockFilter

/-- `BPF_CLASS`: three bits, all eight classes are used. -/
def cls (f : SockFilter) : BpfClass :=
  match (f.code &&& 0x07).toNat with
  | 0 => .ld
  | 1 => .ldx
  | 2 => .st
  | 3 => .stx
  | 4 => .alu
  | 5 => .jmp
  | 6 => .ret
  | _ => .misc

/-- `BPF_MODE` -/
def mode (f : SockFilter) : BpfMode :=
  match (f.code &&& 0xe0).toNat with
  | 0x00 => .imm
  | 0x20 => .abs
  | 0x40 => .ind
  | 0x60 => .mem
  | 0x80 => .len
  | _ => .other

/-- `BPF_OP` of an arithmetic instruction -/
def aluOp (f : SockFilter) : BpfAlu :=
  match (f.code &&& 0xf0).toNat with
  | 0x00 => .add
  | 0x10 => .sub
  | 0x20 => .mul
  | 0x30 => .div
  | 0x40 => .or
  | 0x50 => .and
  | 0x60 => .lsh
  | 0x70 => .rsh
  | 0x80 => .neg
  | 0x90 => .mod
  | 0xa0 => .xor
  | _ => .other

/-- `BPF_OP` of a jump -/
def jmpOp (f : SockFilter) : BpfJmp :=
  match (f.code &&& 0xf0).toNat with
  | 0x00 => .ja
  | 0x10 => .jeq
  | 0x20 => .jgt
  | 0x30 => .jge
  | 0x40 => .jset
  | _ => .other

/-- `BPF_MISCOP` -/
def miscOp (f : SockFilter) : BpfMisc :=
  match (f.code &&& 0xf0).toNat with
  | 0x00 => .tax
  | 0x80 => .txa
  | _ => .other

/-- `BPF_SIZE(code) == BPF_W` -/
def isWord (f : SockFilter) : Bool := f.code &&& 0x18 == 0x00

/-- `BPF_SRC(code)`; `BPF_K` is 0 and `BPF_X` is 8. -/
def src (f : SockFilter) : BitVec 16 := f.code &&& 0x08

/-- `BPF_RVAL(code)`; `BPF_RVAL_A` is 0x10 and `BPF_RVAL_X` is 0x18. -/
def rval (f : SockFilter) : BitVec 16 := f.code &&& 0x18

end SockFilter

/-! ### The verifier -/

def bpfMaxInsns : Nat := 4096
def bpfMemWords : Nat := 16

/-- `SD_SIZE`: the size of `seccomp_data_wire_t` -/
def sdSize : Nat := 64

/-- Four bytes at offset `n` are inside the call's description. -/
def loadInside (n : BitVec 32) : Bool :=
  !(decide (sdSize < n.toNat) || decide (sdSize - n.toNat < 4))

/-- `BPF_SRC(code) != BPF_K && BPF_SRC(code) != BPF_X` does not hold. -/
def SockFilter.srcKnown (f : SockFilter) : Bool := f.src == 0x00 || f.src == 0x08

/-- `(int)i + 1 + offset >= len` does not hold. -/
def jumpInside (len i : Nat) (offset : BitVec 32) : Bool :=
  decide ((BitVec.ofNat 32 i + 1 + offset).toInt < len)

/-- The body of the verifier's loop; false is `return -EINVAL`. -/
def bpfCheck (len i : Nat) (f : SockFilter) : Bool :=
  match f.cls with
  | .ld | .ldx =>
      match f.mode with
      | .imm => true
      | .abs => f.isWord && loadInside f.k
      | .ind => f.isWord
      | .mem => f.isWord && decide (f.k.toNat < bpfMemWords)
      | .len => f.isWord
      | .other => false
  | .st | .stx => f.isWord && f.mode == .mem && decide (f.k.toNat < bpfMemWords)
  | .alu =>
      match f.aluOp with
      | .neg => true
      | .other => false
      | _ => f.srcKnown
  | .jmp =>
      match f.jmpOp with
      | .ja => jumpInside len i f.k
      | .other => false
      | _ => f.srcKnown && jumpInside len i (f.jt.setWidth 32) &&
          jumpInside len i (f.jf.setWidth 32)
  | .ret => f.rval == 0x00 || f.rval == 0x10 || f.rval == 0x18
  | .misc =>
      match f.miscOp with
      | .tax | .txa => true
      | .other => false

/-- `bpf_verify` -/
def bpfVerify (fp : List SockFilter) : Except Errno Unit :=
  if fp.length < 1 ∨ bpfMaxInsns < fp.length then .error .EINVAL
  else if fp.getLast?.map SockFilter.cls ≠ some .ret then .error .EINVAL
  else if fp.zipIdx.all (fun x => bpfCheck fp.length x.2 x.1) then .ok ()
  else .error .EINVAL

/-! ### Answers -/

def retKillProcess : BitVec 32 := 0x80000000
def retKillThread : BitVec 32 := 0x00000000
def retTrap : BitVec 32 := 0x00030000
def retErrno : BitVec 32 := 0x00050000
def retLog : BitVec 32 := 0x7ffc0000
def retAllow : BitVec 32 := 0x7fff0000
def retActionFull : BitVec 32 := 0xffff0000
def retData : BitVec 32 := 0x0000ffff

/-- `SECCOMP_RET_ERRNO | (EPERM & SECCOMP_RET_DATA)` -/
def retEperm : BitVec 32 := retErrno ||| 1

/-! ### The interpreter -/

/-- The locals of `bpf_run`. -/
structure BpfState where
  pc : Nat
  a : BitVec 32
  x : BitVec 32
  m : List (BitVec 32)
deriving DecidableEq

def BpfState.init : BpfState := ⟨0, 0, 0, List.replicate bpfMemWords 0⟩

/-- `pc += n` on the 32-bit counter. -/
def BpfState.skip (s : BpfState) (n : Nat) : BpfState := { s with pc := (s.pc + n) % 2 ^ 32 }

/-- The word `k & (BPF_MEMWORDS - 1)` of the scratch memory. -/
def memIndex (k : BitVec 32) : Nat := (k &&& 0x0f).toNat

/-- The second operand of an instruction. -/
def BpfState.operand (s : BpfState) (f : SockFilter) : BitVec 32 :=
  if f.src = 0x08 then s.x else f.k

/-- The arithmetic of `A`. -/
def bpfAlu (op : BpfAlu) (a src : BitVec 32) : BitVec 32 :=
  match op with
  | .add => a + src
  | .sub => a - src
  | .mul => a * src
  | .div => if src ≠ 0 then a / src else 0
  | .mod => if src ≠ 0 then a % src else 0
  | .or => a ||| src
  | .and => a &&& src
  | .lsh => if src.toNat < 32 then a <<< src.toNat else 0
  | .rsh => if src.toNat < 32 then a >>> src.toNat else 0
  | .neg => -a
  | .xor => a ^^^ src
  | .other => a

/-- The condition of a jump. -/
def bpfCond (op : BpfJmp) (a operand : BitVec 32) : Bool :=
  match op with
  | .jeq => a == operand
  | .jgt => decide (operand.toNat < a.toNat)
  | .jge => decide (operand.toNat ≤ a.toNat)
  | .jset => a &&& operand != 0
  | _ => false

/-- A load of four bytes at `n`; outside the description the filter returns. -/
def BpfState.load (s : BpfState) (data : List Byte) (n : BitVec 32) : BpfState ⊕ BitVec 32 :=
  if loadInside n then .inl { s with a := BitVec.ofNat 32 (loadLE 4 data n.toNat) }
  else .inr retEperm

/-- What an instruction does after `pc++`. -/
def bpfExec (data : List Byte) (f : SockFilter) (s : BpfState) : BpfState ⊕ BitVec 32 :=
  match f.cls with
  | .ld | .ldx =>
      match f.mode with
      | .imm => .inl { s with a := f.k }
      | .abs => s.load data f.k
      | .ind => if (s.x + f.k).toNat < s.x.toNat then .inr retEperm else s.load data (s.x + f.k)
      | .mem => .inl { s with a := s.m.getD (memIndex f.k) 0 }
      | .len => .inl { s with a := BitVec.ofNat 32 sdSize }
      | .other => .inr retEperm
  | .st => .inl { s with m := s.m.set (memIndex f.k) s.a }
  | .stx => .inl { s with m := s.m.set (memIndex f.k) s.x }
  | .alu => .inl { s with a := bpfAlu f.aluOp s.a (s.operand f) }
  | .jmp =>
      match f.jmpOp with
      | .ja => .inl (s.skip f.k.toNat)
      | op => .inl (s.skip (if bpfCond op s.a (s.operand f) then f.jt.toNat else f.jf.toNat))
  | .ret =>
      if f.rval = 0x10 then .inr s.a
      else if f.rval = 0x18 then .inr s.x
      else .inr f.k
  | .misc =>
      match f.miscOp with
      | .tax => .inl { s with x := s.a }
      | _ => .inl { s with a := s.x }

/-- `&insns[pc]`; behind the filter's instructions the memory holds something else. -/
def insnAt (insns : List SockFilter) (stray : Nat → SockFilter) (pc : Nat) : SockFilter :=
  insns.getD pc (stray pc)

/-- The loop's condition, and the index of the instruction that is fetched if it holds. -/
def bpfFetch (insns : List SockFilter) (s : BpfState) : Option Nat :=
  if s.pc < insns.length then some s.pc else none

/-- One iteration of the interpreter's loop. -/
def bpfIter (insns : List SockFilter) (stray : Nat → SockFilter) (data : List Byte)
    (s : BpfState) : BpfState ⊕ BitVec 32 :=
  match bpfFetch insns s with
  | some i => bpfExec data (insnAt insns stray i) (s.skip 1)
  | none => .inr retEperm

/-- `bpf_run` with a budget of iterations. -/
def bpfRun (insns : List SockFilter) (stray : Nat → SockFilter) (data : List Byte)
    (budget : Nat) : List BpfState × Option (BitVec 32) :=
  loop (bpfIter insns stray data) budget .init

/-- The indices of the instructions the interpreter fetches, in order. -/
def fetched (insns : List SockFilter) (stray : Nat → SockFilter) (data : List Byte)
    (budget : Nat) : List Nat :=
  (bpfRun insns stray data budget).1.filterMap (bpfFetch insns)

/-! ### Tasks -/

inductive SeccompMode where
  | disabled
  | strict
  | filter
deriving DecidableEq, Repr

/-- The seccomp state of a task: the chain's instructions, newest filter first. -/
structure SeccompTask where
  mode : SeccompMode
  chain : List (List SockFilter)
deriving DecidableEq

/-- A system call as the gate sees it. -/
structure Call where
  nr : BitVec 64
  ip : BitVec 64
  args : List (BitVec 64)
deriving DecidableEq

def sysRead : Nat := 63
def sysWrite : Nat := 64
def sysExit : Nat := 93
def sysExitGroup : Nat := 94
def sysSigreturn : Nat := 139
def sysPrctl : Nat := 167
def sysSeccomp : Nat := 277

/-- `seccomp_data_wire_t` as bytes; `arch` is `SECCOMP_ARCH_TOKEN`. -/
def Call.wire (arch : BitVec 32) (call : Call) : List Byte :=
  leBytes 4 (call.nr.toNat % 2 ^ 32) ++ leBytes 4 arch.toNat ++ leBytes 8 call.ip.toNat ++
    call.args.flatMap fun arg => leBytes 8 arg.toNat

/-- `seccomp_install_filter`, after the copies from user space; `room` tells whether the two
allocations succeed. -/
def seccompInstallFilter (t : SeccompTask) (insns : List SockFilter) (room : Bool) :
    Except Errno SeccompTask :=
  if insns.length < 1 ∨ bpfMaxInsns < insns.length then .error .EINVAL
  else if !room then .error .ENOMEM
  else
    match bpfVerify insns with
    | .error e => .error e
    | .ok () => .ok ⟨.filter, insns :: t.chain⟩

/-- The loop of `seccomp_evaluate` over the chain; `none` is a filter that does not return. -/
def evaluateChain (stray : Nat → SockFilter) (data : List Byte) (budget : Nat) :
    List (List SockFilter) → Option (BitVec 32)
  | [] => some retAllow
  | f :: older =>
      match (bpfRun f stray data budget).2 with
      | none => none
      | some act =>
          if act &&& retActionFull ≠ retAllow then some act
          else evaluateChain stray data budget older

/-- `seccomp_evaluate` -/
def seccompEvaluate (stray : Nat → SockFilter) (arch : BitVec 32) (budget : Nat)
    (t : SeccompTask) (call : Call) : Option (BitVec 32) :=
  if t.chain = [] then
    if t.mode = .strict then
      if call.nr.toNat ∈ [sysRead, sysWrite, sysExit, sysExitGroup, sysSigreturn] then
        some retAllow
      else some retKillThread
    else some retAllow
  else evaluateChain stray (call.wire arch) budget t.chain

/-- What the gate does with a call. -/
inductive GateEnd where
  | proceeds
  | fails (data : BitVec 32)
  | kills
  | traps (data : BitVec 32)
  | unsupported
deriving DecidableEq

/-- The switch of `seccomp_gate`. -/
def gateEnd (act : BitVec 32) : GateEnd :=
  let action := act &&& retActionFull
  let data := act &&& retData
  if action = retAllow then .proceeds
  else if action = retLog then .proceeds
  else if action = retErrno then .fails data
  else if action = retKillProcess ∨ action = retKillThread then .kills
  else if action = retTrap then .traps data
  else .unsupported

/-- `seccomp_gate`: a task without filters outside strict mode is not looked at. -/
def seccompGate (stray : Nat → SockFilter) (arch : BitVec 32) (budget : Nat) (t : SeccompTask)
    (call : Call) : Option GateEnd :=
  if t.chain = [] ∧ t.mode ≠ .strict then some .proceeds
  else (seccompEvaluate stray arch budget t call).map gateEnd

end A20OS.Ipc
