import A20OS.Lib.Bitmap

/-!
The object model shared by native handles and Linux envelopes
(`kernel/include/ipc/ipc.h`): object types and rights masks.
-/

namespace A20OS

/-- `a20_object_type_t`. -/
inductive ObjType where
  | invalid | task | thread | file | directory | socket | pipeEndpoint | channelEndpoint
  | eventQueue | timer | memory | device | ns | debug | extProg | pager | monitor | vmar
deriving DecidableEq, Repr

/-- The value of the enumerator. -/
def ObjType.code : ObjType → Nat
  | .invalid => 0
  | .task => 1
  | .thread => 2
  | .file => 3
  | .directory => 4
  | .socket => 5
  | .pipeEndpoint => 6
  | .channelEndpoint => 7
  | .eventQueue => 8
  | .timer => 9
  | .memory => 10
  | .device => 11
  | .ns => 12
  | .debug => 13
  | .extProg => 14
  | .pager => 15
  | .monitor => 16
  | .vmar => 17

/-- `mask & (1u << type)`. -/
def ObjType.inMask (type : ObjType) (mask : BitVec 32) : Bool := mask.getLsbD type.code

/-! ### Rights -/

/-- `a20_rights_t`. -/
abbrev Rights := BitVec 64

namespace Rights

def read : Rights := 1 <<< 0
def write : Rights := 1 <<< 1
def exec : Rights := 1 <<< 2
def stat : Rights := 1 <<< 3
def seek : Rights := 1 <<< 4
def dup : Rights := 1 <<< 5
def transfer : Rights := 1 <<< 6
def map : Rights := 1 <<< 7
def wait : Rights := 1 <<< 8
def connect : Rights := 1 <<< 9
def accept : Rights := 1 <<< 10
def control : Rights := 1 <<< 11
def admin : Rights := 1 <<< 12
def signal : Rights := 1 <<< 13

/-- Every bit of `r` is a bit of `s`. -/
def Within (r s : Rights) : Prop := r &&& ~~~s = 0

instance (r s : Rights) : Decidable (Within r s) := by
  unfold Within; infer_instance

theorem within_iff {r s : Rights} : Within r s ↔ ∀ i, r.getLsbD i = true → s.getLsbD i = true :=
  Lib.and_not_eq_zero_iff

theorem within_refl (r : Rights) : Within r r := within_iff.mpr fun _ h => h

theorem Within.trans {r s t : Rights} (hrs : Within r s) (hst : Within s t) : Within r t :=
  within_iff.mpr fun i h => within_iff.mp hst i (within_iff.mp hrs i h)

theorem and_within_left (r s : Rights) : Within (r &&& s) r := by
  rw [within_iff]
  intro i h
  rw [BitVec.getLsbD_and, Bool.and_eq_true] at h
  exact h.1

theorem and_within_right (r s : Rights) : Within (r &&& s) s := by
  rw [within_iff]
  intro i h
  rw [BitVec.getLsbD_and, Bool.and_eq_true] at h
  exact h.2

theorem zero_within (s : Rights) : Within 0 s := BitVec.zero_and

end Rights

end A20OS
