import A20OS.Envelope.System
import A20OS.Lib.Ledger

/-!
What the mediator of an envelope is for, and how far it does it.

The specification has the budgets and a set of shadows. A call that the policy, the shadows and
the budgets allow is granted: it costs one operation and its bytes, and an acquisition replaces
the shadow of its descriptor. Any other call is denied and leaves everything as it was.
`mediated_refines` is the refinement: the locked section of a call is a step of the specification
exactly when it is not a charged denial.
-/

namespace A20OS.Envelope

open List Lib

/-! ### Specification -/

namespace Spec

structure State where
  ops : Nat
  data : Nat
  shadows : Set Shadow

variable (p : Policy) (kind : ObjType) (s : State)

/-- What the policy and the shadows allow. A transfer asks for what it can get; a use of a
descriptor without a shadow is one that was there before the envelope. -/
def Allows : Call → Prop
  | .acquire objType rights _ =>
      objType.inMask p.allowedTypes ∧ rights.Within (p.rightsByClass objType)
  | .acquireGfd _ =>
      kind.inMask p.allowedTypes ∧ transferWant kind &&& p.rightsByClass kind ≠ 0
  | .sendFd _ => kind.inMask p.propagationTypes
  | .ofClass objType => objType.inMask p.allowedTypes
  | .useDir gfd _ wantWrite =>
      ∀ new ∈ s.shadows, new.gfd = gfd → 0 ≤ wantWrite → new.rights &&& directionNeed wantWrite ≠ 0

/-- The shadow that a call leaves. -/
def acquired : Call → Option Shadow
  | .acquire objType rights gfd => some ⟨gfd, objType, rights &&& p.rightsByClass objType⟩
  | .acquireGfd gfd => some ⟨gfd, kind, transferWant kind &&& p.rightsByClass kind⟩
  | _ => none

def bytes : Call → Nat
  | .useDir _ bytes _ => bytes
  | _ => 0

def replaceShadow (live : Set Shadow) (new : Shadow) : Set Shadow :=
  {s | (s ∈ live ∧ s.gfd ≠ new.gfd) ∨ s = new}

/-- The state after a call was granted. -/
def State.granted (c : Call) : State where
  ops := s.ops - 1
  data := s.data - bytes c
  shadows := (acquired p kind c).elim s.shadows (replaceShadow s.shadows)

/-- A mediated call with its answer. -/
inductive Step (c : Call) : Except Errno Unit → State → Prop
  | grant (allowed : Allows p kind s c) (ops : 0 < s.ops) (data : bytes c ≤ s.data) :
      Step c (.ok ()) (s.granted p kind c)
  | deny (errno : Errno) (refused : ¬ (Allows p kind s c ∧ 0 < s.ops ∧ bytes c ≤ s.data)) :
      Step c (.error errno) s

end Spec

/-- The specification state an envelope stands for. -/
def Env.abs (e : Env) : Spec.State where
  ops := e.remainingOps
  data := e.remainingData
  shadows := {s | s ∈ e.shadows ∧ 0 ≤ s.gfd}

/-- A call about a descriptor names one. -/
def Call.Named : Call → Prop
  | .ofClass _ => True
  | c => 0 ≤ c.gfd

/-! ### Refinement of one call -/

variable {shadows : List Shadow} {e : Env} {now : BitVec 64} {c : Call} {kind : ObjType} {gfd : Int}
  {errno : Errno}

section
variable (unique : UniqueGfds shadows)
include unique

/-- What is live after the slot that the search found was overwritten. -/
theorem live_set {slot : Nat} {new s : Shadow} (live : 0 ≤ new.gfd)
    (found : findSlot new.gfd shadows 0 none = some slot) :
    s ∈ shadows.set slot new ∧ 0 ≤ s.gfd ↔
      (s ∈ shadows ∧ 0 ≤ s.gfd) ∧ s.gfd ≠ new.gfd ∨ s = new := by
  obtain ⟨old, hold, hcase⟩ := findSlot_spec found
  constructor
  · rintro ⟨hs, hgfd⟩
    obtain ⟨j, hj⟩ := getElem?_of_mem hs
    rcases getElem?_set_cases hj with ⟨-, rfl⟩ | ⟨hne, hj⟩
    · exact .inr rfl
    · refine .inl ⟨⟨mem_of_getElem? hj, hgfd⟩, fun hsame => ?_⟩
      rcases hcase with hold' | ⟨-, hnone⟩
      · exact hne (unique j slot s old hj hold hgfd (hsame.trans hold'.symm))
      · exact hnone s (mem_of_getElem? hj) hsame
  · rintro (⟨⟨hs, hgfd⟩, hother⟩ | rfl)
    · obtain ⟨j, hj⟩ := getElem?_of_mem hs
      have hne : slot ≠ j := by grind
      exact ⟨mem_of_getElem? ((getElem?_set_ne hne).trans hj), hgfd⟩
    · exact ⟨mem_set (List.getElem?_eq_some_iff.mp hold).1 _, live⟩

/-- The first shadow of a descriptor is the only one. -/
theorem mem_shadowRights (live : 0 ≤ gfd) {rights : Rights} :
    rights ∈ shadowRights gfd shadows ↔ ∃ s ∈ shadows, s.gfd = gfd ∧ s.rights = rights := by
  constructor
  · intro known
    obtain ⟨s, found, rfl⟩ := Option.map_eq_some_iff.mp known
    exact ⟨s, mem_of_find?_eq_some found, by simpa using find?_some found, rfl⟩
  · rintro ⟨s, member, rfl, rfl⟩
    cases found : shadows.find? (·.gfd = s.gfd) with
    | none => simpa using find?_eq_none.mp found s member
    | some first =>
      have same : first.gfd = s.gfd := by simpa using find?_some found
      obtain ⟨i, at_i⟩ := getElem?_of_mem (mem_of_find?_eq_some found)
      obtain ⟨j, at_j⟩ := getElem?_of_mem member
      obtain rfl := unique i j first s at_i at_j (same ▸ live) same
      obtain rfl : first = s := Option.some.inj (at_i.symm.trans at_j)
      rw [shadowRights, found]
      rfl

end

/-- The code's answer and state are a step exactly if the denial is not charged. -/
def Refines (kind : ObjType) (e : Env) (c : Call) (r : Except Errno Unit × Env) : Prop :=
  Spec.Step e.policy kind e.abs c r.1 r.2.abs ↔ ¬ ChargedDenial kind e c

theorem Refines.denied (clean : ¬ ChargedDenial kind e c)
    (refused : ¬ (Spec.Allows e.policy kind e.abs c ∧ 0 < e.remainingOps ∧
      Spec.bytes c ≤ e.remainingData)) : Refines kind e c (.error errno, e) :=
  iff_of_true (.deny errno refused) clean

theorem Refines.charged (late : ChargedDenial kind e c) (ops : 0 < e.remainingOps) :
    Refines kind e c (.error errno, e.spend 0) := by
  refine iff_of_false ?_ (not_not.mpr late)
  generalize same : (e.spend 0).abs = after
  rintro ⟨-⟩
  have fewer := congrArg Spec.State.ops same
  simp only [Env.abs, Env.spend] at fewer
  omega

section
variable (allowed : Spec.Allows e.policy kind e.abs c)
include allowed

theorem Refines.spent (clean : ¬ ChargedDenial kind e c) (ops : 0 < e.remainingOps)
    (data : Spec.bytes c ≤ e.remainingData) (keeps : Spec.acquired e.policy kind c = none) :
    Refines kind e c (.ok (), e.spend (Spec.bytes c)) := by
  refine iff_of_true ?_ clean
  have same : (e.spend (Spec.bytes c)).abs = e.abs.granted e.policy kind c := by
    rw [Spec.State.granted, keeps]
    rfl
  rw [same]
  exact .grant allowed ops data

theorem Refines.chargeInstall (sound : Sound e) {objType : ObjType} {rights : Rights}
    (new : Spec.acquired e.policy kind c = some ⟨gfd, objType, rights⟩) (free : Spec.bytes c = 0)
    (live : 0 ≤ gfd)
    (charged : ChargedDenial kind e c ↔ 0 < e.remainingOps ∧ findSlot gfd e.shadows 0 none = none) :
    Refines kind e c (e.chargeInstall objType rights gfd) := by
  unfold Env.chargeInstall
  split
  · next zero =>
    exact .denied (fun late => (charged.mp late).1.ne' zero) fun fits => fits.2.1.ne' zero
  · next some_ =>
    have ops := Nat.pos_of_ne_zero some_
    dsimp only
    cases slot : findSlot gfd e.shadows 0 none with
    | none => exact .charged (charged.mpr ⟨ops, slot⟩) ops
    | some slot_ =>
      have clean : ¬ ChargedDenial kind e c := fun late =>
        nomatch slot.symm.trans (charged.mp late).2
      refine iff_of_true ?_ clean
      have set := fun s => @live_set _ sound.uniqueGfds slot_ ⟨gfd, objType, rights⟩ s live slot
      have same : (e.install slot_ ⟨gfd, objType, rights⟩).abs =
          e.abs.granted e.policy kind c := by
        rw [Spec.State.granted, new, free]
        simp [Env.abs, Env.install, Env.spend, Spec.replaceShadow, set]
      exact same ▸ .grant allowed ops (free ▸ Nat.zero_le _)

theorem Refines.chargeOp (clean : ¬ ChargedDenial kind e c) (free : Spec.bytes c = 0)
    (keeps : Spec.acquired e.policy kind c = none) : Refines kind e c e.chargeOp := by
  unfold Env.chargeOp
  split
  · next zero => exact .denied clean fun fits => fits.2.1.ne' zero
  · next some_ =>
    have ops := Nat.pos_of_ne_zero some_
    have spent := Refines.spent allowed clean ops (free ▸ Nat.zero_le _) keeps
    rw [free] at spent
    exact spent

end

section
variable {bytes : Nat} {wantWrite : Int}

/-- The shadows allow a use exactly if none denies its direction. -/
theorem allows_useDir (sound : Sound e) (live : 0 ≤ gfd) :
    Spec.Allows e.policy kind e.abs (.useDir gfd bytes wantWrite) ↔
      ¬ e.deniesDirection gfd wantWrite := by
  simp only [Env.deniesDirection, mem_shadowRights sound.uniqueGfds live]
  constructor
  · rintro allowed ⟨_, ⟨s, member, same, rfl⟩, directed, lacks⟩
    exact allowed s ⟨member, same ▸ live⟩ same directed lacks
  · rintro passes s ⟨member, -⟩ same directed lacks
    exact passes ⟨_, ⟨s, member, same, rfl⟩, directed, lacks⟩

theorem Refines.chargeUse (passes : ¬ e.deniesDirection gfd wantWrite)
    (allowed : Spec.Allows e.policy kind e.abs (.useDir gfd bytes wantWrite)) :
    Refines kind e (.useDir gfd bytes wantWrite) (e.chargeUse bytes) := by
  unfold Env.chargeUse
  split
  · next zero => exact .denied (·.2.1.ne' zero) fun fits => fits.2.1.ne' zero
  next some_ =>
  have ops := Nat.pos_of_ne_zero some_
  dsimp only
  by_cases short : e.remainingData < bytes
  · rw [if_pos (Nat.zero_lt_of_lt short), if_pos short]
    exact .charged ⟨passes, ops, short⟩ ops
  have spent := Refines.spent allowed (fun late => short late.2.2) ops (Nat.le_of_not_lt short) rfl
  split
  · exact spent
  · next none =>
    obtain rfl := Nat.eq_zero_of_not_pos none
    exact spent

end

theorem Call.locked_refines (sound : Sound e) (kind : ObjType) (named : c.Named) :
    Refines kind e c (c.locked kind e) := by
  cases c with
  | acquire objType rights gfd =>
    rw [Call.locked]
    split
    · next outside => exact .denied (outside ·.1) (outside ·.1.1)
    split
    · next wide => exact .denied (wide ·.2.1) (wide ·.1.2)
    · next outside wide =>
      have allowed : Spec.Allows e.policy kind e.abs (.acquire objType rights gfd) :=
        ⟨not_not.mp outside, not_not.mp wide⟩
      refine .chargeInstall allowed sound rfl rfl named ?_
      simp only [ChargedDenial, allowed.1, allowed.2, true_and]
  | acquireGfd gfd =>
    rw [Call.locked]
    split
    · next outside => exact .denied (outside ·.1) (outside ·.1.1)
    split
    · next none => exact .denied (·.2.1 none) (·.1.2 none)
    · next outside grants =>
      have allowed : Spec.Allows e.policy kind e.abs (.acquireGfd gfd) :=
        ⟨not_not.mp outside, grants⟩
      refine .chargeInstall allowed sound rfl rfl named ?_
      simp only [ChargedDenial, allowed.1, ne_eq, grants, not_false_eq_true, true_and]
  | sendFd | ofClass =>
    rw [Call.locked]
    split
    · next outside => exact .denied id (outside ·.1)
    · next inside => exact .chargeOp (not_not.mp inside) id rfl rfl
  | useDir gfd bytes wantWrite =>
    rw [Call.locked]
    split
    · next denies =>
      exact .denied (·.1 denies) fun fits => (allows_useDir sound named).mp fits.1 denies
    · next passes => exact .chargeUse passes ((allows_useDir sound named).mpr passes)

/-- **Refinement.** In every state a run reaches, the second locked section of any call on any
envelope is a step of the specification if and only if the call is not charged before it is
denied. -/
theorem mediated_refines {s₀ s : Sys} (boot : s₀.boot) (run : RunsTo step always s₀ s) (id : Nat)
    (found : s.envs[id]? = some e) (kind : ObjType) (named : c.Named) :
    Spec.Step e.policy kind e.abs c (c.locked kind e).1 (c.locked kind e).2.abs ↔
      ¬ ChargedDenial kind e c := by
  have sound : s.AllSound := by
    refine run.invariant (fun sound _ h => step_allSound sound h) ?_
    intro id e none
    rw [boot.1] at none
    cases none
  exact c.locked_refines (sound id e found) kind named

/-- A second file is opened, for writing. -/
theorem mediated_refines_opened : ∃ e ∈ openedSys.envs[0]?, e.expired = false ∧
    Spec.Step e.policy .file e.abs (.acquire .file Rights.write 4) (.ok ())
      ((Call.acquire .file Rights.write 4).locked .file e).2.abs := by
  have executed : exec step Sys.empty enterAndOpen = some openedSys := rfl
  have state : (openedSys.envs[0]?).any (fun e => decide (e.expired = false ∧
      ((Call.acquire .file Rights.write 4).locked .file e).1 = .ok () ∧
      ¬ ChargedDenial .file e (.acquire .file Rights.write 4))) = true := by decide +kernel
  obtain ⟨e, found, live, granted, clean⟩ := eq_some_of_any state
  have named : (Call.acquire .file Rights.write 4).Named := show (0 : Int) ≤ 4 by decide
  have refines := (mediated_refines ⟨rfl, fun _ => rfl⟩ (exec_runsTo executed) 0 found .file
    named).mpr clean
  exact ⟨e, found, live, granted ▸ refines⟩

/-! ### Denials -/

theorem checkExpired_of_live (live : (e.checkExpired now).1 = false) :
    e.checkExpired now = (false, e) := by
  unfold Env.checkExpired Env.markExpired at live ⊢
  grind

theorem Call.run_of_live (live : (e.checkExpired now).1 = false) (kind : ObjType) (c : Call) :
    c.run now kind e = c.locked kind e := by
  rw [Call.run, checkExpired_of_live live]

/-- A call that is denied although the envelope has not expired leaves the shadow
table and both budgets as they were exactly when it is not a charged denial. -/
theorem mediate_denied_unchanged_iff (e : Env) (now : BitVec 64) (kind : ObjType) (c : Call)
    (errno : Errno) (live : (e.checkExpired now).1 = false)
    (denied : (c.run now kind e).1 = .error errno) :
    ((c.run now kind e).2.shadows = e.shadows ∧
        (c.run now kind e).2.remainingOps = e.remainingOps ∧
        (c.run now kind e).2.remainingData = e.remainingData) ↔
      ¬ ChargedDenial kind e c := by
  rw [Call.run_of_live live] at denied ⊢
  have outcome := c.locked_outcome kind e
  generalize (c.locked kind e).1 = r at *
  generalize (c.locked kind e).2 = e' at *
  cases outcome with
  | denied errno clean => exact iff_of_true ⟨rfl, rfl, rfl⟩ clean
  | charged errno late ops =>
    refine iff_of_false ?_ (not_not.mpr late)
    rintro ⟨-, hops, -⟩
    simp only [Env.spend] at hops
    omega
  | spent | acquired => cases denied

theorem mediate_denied_unchanged_iff_socket :
    ((Call.acquireSocket Rights.read 7).run 0 .socket fileEnv).2.remainingOps = 5 :=
  ((mediate_denied_unchanged_iff fileEnv 0 .socket (.acquireSocket Rights.read 7) .EPERM
    (by decide) (by decide)).mpr (by decide)).2.1

/-- A use of two bytes on a new envelope that has one byte left is denied and
charged an operation all the same. -/
theorem mediate_charges_denied_use :
    envInit 100 0 1 filePolicy = .ok fileEnv ∧
      ((Call.use 3 2).run 0 .file fileEnv).1 = .error .EACCES ∧
      ((Call.use 3 2).run 0 .file fileEnv).2.remainingOps = 4 := by
  have untracked : ¬ fileEnv.deniesDirection 3 (-1) := by
    rintro ⟨rights, -, hdir, -⟩
    cases hdir
  have charged : (Call.use 3 2).run 0 .file fileEnv = (.error .EACCES, fileEnv.spend 0) := by
    rw [Call.run_of_live rfl, Call.use, Call.locked, if_neg untracked]
    rfl
  rw [charged]
  exact ⟨by simp [envInit, filePolicy, fileEnv, deadline, nsToTicks], rfl, rfl⟩

end A20OS.Envelope
