import A20OS.Kep.Program
import A20OS.Lib.Machine
import Mathlib.Data.List.FinRange

/-!
The registry of extension programs (`kernel/ext/kep.c`): sixty-four program slots and up to
sixteen extension points with the programs attached to them.

A program has one reference of its owner and one for each attachment. Every function runs under
the registry lock and is one step; `pid` is the calling process. An attach or a detach looks its
program up in a section of its own, but only its caller can take the program away in between.
-/

namespace A20OS.Kep

open Lib

/-! ### Data -/

def kepMaxProgs : Nat := 64
def kepMaxPoints : Nat := 16

abbrev Slot := Fin kepMaxProgs

/-- `kep_prog_t`. -/
structure Prog where
  used : Bool := false
  id : Int := 0
  ownerPid : Int := 0
  ownerFd : Int := 0
  insns : List Insn := []
  maxCtxOff : Nat := 0
  refs : Int := 0
deriving DecidableEq

/-- `kep_point_t`; `attached` starts with the program attached last. -/
structure Point where
  id : Nat
  nwords : Nat
  attached : List Slot := []
deriving DecidableEq

structure Registry where
  progs : Slot → Prog := fun _ => {}
  points : List Point := []
  nextId : Int := 1

namespace Registry

variable (r : Registry)

def setProg (slot : Slot) (p : Prog) : Registry :=
  { r with progs := Function.update r.progs slot p }

/-- `kep_next_id++`, back to one after the last positive number. -/
def nextProgId (id : Int) : Int := if id + 1 < 2 ^ 31 then id + 1 else 1

/-! ### Points -/

def registerPoint (id nwords : Nat) : Registry × Except Errno Unit :=
  if nwords = 0 ∨ kepMaxContextWords < nwords then (r, .error .EINVAL)
  else if r.points.any fun pt => pt.id = id then (r, .error .EEXIST)
  else if r.points.length < kepMaxPoints then
    ({ r with points := r.points ++ [{ id, nwords }] }, .ok ())
  else (r, .error .ENOSPC)

/-- How often the program is attached to the points that meet `sel`. -/
def attachmentsIn (sel : Point → Bool) (slot : Slot) : Nat :=
  ((r.points.filter sel).map fun pt => pt.attached.count slot).sum

/-- How often the program is attached. -/
def attachments (slot : Slot) : Nat :=
  (r.points.map fun pt => pt.attached.count slot).sum

/-! ### Programs -/

/-- The first unused slot. -/
def freeSlot : Option Slot :=
  (List.finRange kepMaxProgs).find? fun i => !(r.progs i).used

/-- `copied` says whether the instructions could be read from user memory. -/
def progLoad (pid : Int) (copied : Bool) (insns : List Insn) : Registry × Except Errno Int :=
  if kepMaxProgInsns < insns.length then (r, .error .E2BIG)
  else if ¬copied then (r, .error .EFAULT)
  else
    match kepVerify insns with
    | .error e => (r, .error e)
    | .ok maxOff =>
        match r.freeSlot with
        | none => (r, .error .ENOSPC)
        | some slot =>
            ({ r.setProg slot
                { used := true, id := r.nextId, ownerPid := pid, ownerFd := -1, insns
                  maxCtxOff := maxOff, refs := 1 } with nextId := nextProgId r.nextId },
              .ok r.nextId)

def progById (progId : Int) : Option Slot :=
  if progId ≤ 0 then none
  else (List.finRange kepMaxProgs).find? fun i => (r.progs i).used ∧ (r.progs i).id = progId

def progOwned (pid progId : Int) : Option Slot :=
  (r.progById progId).filter fun i => (r.progs i).ownerPid = pid

/-- Put the program at the front of the list of the first point with the number. -/
def pushAttached (slot : Slot) (pointId : Nat) : List Point → List Point
  | [] => []
  | pt :: pts =>
      if pt.id = pointId then { pt with attached := slot :: pt.attached } :: pts
      else pt :: pushAttached slot pointId pts

/-- `kep_point_find`. -/
def pointFind (pointId : Nat) : Option Point :=
  r.points.find? fun pt => pt.id = pointId

def progAttach (pid progId : Int) (pointId : Nat) (mem : Bool) : Registry × Except Errno Unit :=
  match r.progOwned pid progId with
  | none => (r, .error .ENOENT)
  | some slot =>
      match r.pointFind pointId with
      | none => (r, .error .EINVAL)
      | some pt =>
          if pt.nwords * 8 < (r.progs slot).maxCtxOff then (r, .error .EINVAL)
          else if ¬mem then (r, .error .ENOMEM)
          else
            ({ r.setProg slot { r.progs slot with refs := (r.progs slot).refs + 1 } with
                points := pushAttached slot pointId r.points }, .ok ())

/-- The loop over the points that detach, sweep and exit share: every attachment of the
program to a point that meets `sel` goes, and its reference with it. -/
def unlink (sel : Point → Bool) (slot : Slot) : Registry :=
  { r.setProg slot
      { r.progs slot with refs := (r.progs slot).refs - r.attachmentsIn sel slot } with
    points := r.points.map fun pt =>
      if sel pt then { pt with attached := pt.attached.filter fun j => j ≠ slot } else pt }

/-- Point number zero stands for all points. -/
def progDetach (pid progId : Int) (pointId : Nat) : Registry × Except Errno Unit :=
  match r.progOwned pid progId with
  | none => (r, .error .ENOENT)
  | some slot => (r.unlink (fun pt => pointId = 0 ∨ pt.id = pointId) slot, .ok ())

def progSetFd (pid progId fd : Int) : Registry × Except Errno Unit :=
  match r.progById progId with
  | none => (r, .error .ENOENT)
  | some slot =>
      if (r.progs slot).ownerPid ≠ pid then (r, .error .EPERM)
      else (r.setProg slot { r.progs slot with ownerFd := fd }, .ok ())

/-- `if (p->refs <= 0) p->used = 0`. -/
def retire (slot : Slot) : Registry :=
  if (r.progs slot).refs ≤ 0 then r.setProg slot { r.progs slot with used := false } else r

/-- One slot of `kep_sweep_fds`; the owner's reference is not dropped. -/
def sweepSlot (pid : Int) (fdOpen : Int → Bool) (r : Registry) (slot : Slot) : Registry :=
  if ¬(r.progs slot).used ∨ (r.progs slot).ownerPid ≠ pid ∨ (r.progs slot).ownerFd < 0 then r
  else if fdOpen (r.progs slot).ownerFd then r
  else
    let r := r.unlink (fun _ => true) slot
    (r.setProg slot { r.progs slot with ownerFd := -1 }).retire slot

def sweepFds (pid : Int) (fdOpen : Int → Bool) : Registry :=
  (List.finRange kepMaxProgs).foldl (sweepSlot pid fdOpen) r

def progRelease (pid progId : Int) : Registry × Except Errno Unit :=
  match r.progById progId with
  | none => (r, .error .ENOENT)
  | some slot =>
      if (r.progs slot).ownerPid ≠ pid then (r, .error .EPERM)
      else
        let p := r.progs slot
        let refs := if 0 < p.refs then p.refs - 1 else p.refs
        (r.setProg slot { p with refs, used := p.used && refs ≠ 0 }, .ok ())

/-- One slot of `kep_release_process`; the owner's reference is not dropped. -/
def releaseSlot (pid : Int) (r : Registry) (slot : Slot) : Registry :=
  if ¬(r.progs slot).used ∨ (r.progs slot).ownerPid ≠ pid then r
  else (r.unlink (fun _ => true) slot).retire slot

def releaseProcess (pid : Int) : Registry :=
  if pid ≤ 0 then r else (List.finRange kepMaxProgs).foldl (releaseSlot pid) r

/-! ### Steps -/

inductive Label where
  | registerPoint (id nwords : Nat)
  | load (pid : Int) (copied : Bool) (insns : List Insn)
  | attach (pid progId : Int) (pointId : Nat) (mem : Bool)
  | detach (pid progId : Int) (pointId : Nat)
  | setFd (pid progId fd : Int)
  | sweep (pid : Int) (fdOpen : Int → Bool)
  | release (pid progId : Int)
  | exit (pid : Int)

def step : Label → Option Registry
  | .registerPoint id nwords => some (r.registerPoint id nwords).1
  | .load pid copied insns => some (r.progLoad pid copied insns).1
  | .attach pid progId pointId mem => some (r.progAttach pid progId pointId mem).1
  | .detach pid progId pointId => some (r.progDetach pid progId pointId).1
  | .setFd pid progId fd => some (r.progSetFd pid progId fd).1
  | .sweep pid fdOpen => some (r.sweepFds pid fdOpen)
  | .release pid progId => some (r.progRelease pid progId).1
  | .exit pid => some (r.releaseProcess pid)

end Registry

end A20OS.Kep
