import A20OS.Errno
import A20OS.Object

/-!
The capability envelope of a Linux task (`kernel/ipc/envelope.c`).

A mediated call has two locked sections. `checkExpired` latches an elapsed deadline and denies
when the envelope is expired; `Call.locked` checks the policy, charges the budgets and installs
the shadow. `Call.run` is the call when nothing comes between the two.

`Sound` is the invariant of one envelope and `Decays` compares it with its own past. In two
places a call is charged before it is denied (`ChargedDenial`). The counters of
`a20_env_stats_t` are left out: nothing reads them back.
-/

namespace A20OS.Envelope

open List

/-! ### The envelope object -/

def maxShadows : Nat := 128
def maxInstances : Nat := 1024

/-- `a20_env_policy_t`. -/
structure Policy where
  allowedTypes : BitVec 32
  rightsByClass : ObjType → Rights
  timeBudgetNs : BitVec 64
  opBudget : BitVec 64
  dataBudget : BitVec 64
  propagationTypes : BitVec 32
  flags : BitVec 32

/-- `A20_ENV_F_KILL_ON_EXPIRE`. -/
def Policy.killOnExpire (p : Policy) : Bool := p.flags.getLsbD 0

/-- `env_shadow_t`: a negative `gfd` marks a free slot. -/
structure Shadow where
  gfd : Int
  objType : ObjType
  rights : Rights
deriving DecidableEq

/-- `a20_envelope_t`. The budgets are only ever decremented, under a check. -/
structure Env where
  policy : Policy
  expireTick : BitVec 64
  remainingOps : Nat
  remainingData : Nat
  expired : Bool
  killSent : Bool
  ownerPid : Nat
  shadows : List Shadow

/-- `env_ns_to_ticks` at `hz` ticks per second; the quotient is cut to an `int`. -/
def nsToTicks (hz ns : BitVec 64) : BitVec 32 :=
  if ns = 0 then 0 else (ns / (1000000000 / hz) + 1).setWidth 32

/-- The `expire_tick` of a new envelope: zero is no time limit. -/
def deadline (hz now ns : BitVec 64) : BitVec 64 :=
  if nsToTicks hz ns ≠ 0 then now + (nsToTicks hz ns).signExtend 64 else 0

/-- The object `env_create` fills in, or its rejection of unknown type bits. -/
def envInit (hz now : BitVec 64) (pid : Nat) (p : Policy) : Except Errno Env :=
  if p.allowedTypes >>> 17 ≠ 0 then .error .EINVAL
  else
    .ok
      { policy := p
        expireTick := deadline hz now p.timeBudgetNs
        remainingOps := p.opBudget.toNat
        remainingData := p.dataBudget.toNat
        expired := false
        killSent := false
        ownerPid := pid
        shadows := List.replicate maxShadows ⟨-1, .invalid, 0⟩ }

/-! ### Locked sections -/

/-- `env_mark_expired_locked`. -/
def Env.markExpired (e : Env) : Env := { e with expired := true }

/-- The `kill_sent` exchange that follows an expiry; the signals themselves are not
state of the envelope. -/
def Env.noteKill (e : Env) : Env :=
  if e.policy.killOnExpire then { e with killSent := true } else e

/-- `env_check_expired`: does the envelope deny, and its new state. -/
def Env.checkExpired (now : BitVec 64) (e : Env) : Bool × Env :=
  let e := if ¬ e.expired ∧ e.expireTick ≠ 0 ∧ e.expireTick ≤ now then e.markExpired else e
  if e.expired then (true, e.noteKill) else (false, e)

/-- The slot search of `env_acquire_charge_install_locked`: the slot that already
holds `gfd`, else the first free one. -/
def findSlot (gfd : Int) : List Shadow → Nat → Option Nat → Option Nat
  | [], _, slot => slot
  | s :: rest, i, slot =>
      if s.gfd = gfd then some i
      else findSlot gfd rest (i + 1) (if slot = none ∧ s.gfd < 0 then some i else slot)

/-- `env_acquire_charge_install_locked`. -/
def Env.chargeInstall (e : Env) (objType : ObjType) (rights : Rights) (gfd : Int) :
    Except Errno Unit × Env :=
  if e.remainingOps = 0 then (.error .EACCES, e)
  else
    let e := { e with remainingOps := e.remainingOps - 1 }
    match findSlot gfd e.shadows 0 none with
    | none => (.error .EMFILE, e)
    | some slot => (.ok (), { e with shadows := e.shadows.set slot ⟨gfd, objType, rights⟩ })

/-- The rights of the first shadow for `gfd`. -/
def shadowRights (gfd : Int) (shadows : List Shadow) : Option Rights :=
  (shadows.find? (·.gfd = gfd)).map (·.rights)

/-- The calls of the mediator that reach the second locked section. -/
inductive Call where
  | acquire (objType : ObjType) (rights : Rights) (gfd : Int)
  | acquireGfd (gfd : Int)
  | sendFd (gfd : Int)
  | ofClass (objType : ObjType)
  | useDir (gfd : Int) (bytes : Nat) (wantWrite : Int)
deriving DecidableEq

variable {c : Call} {e e' : Env} {gfd : Int} {shadows : List Shadow} {slot : Nat}

/-- `env_mediate_acquire_socket`. -/
def Call.acquireSocket (rights : Rights) (gfd : Int) : Call := .acquire .socket rights gfd

/-- `env_mediate_use`. -/
def Call.use (gfd : Int) (bytes : Nat) : Call := .useDir gfd bytes (-1)

/-- The rights a transferred descriptor asks for. -/
def transferWant (kind : ObjType) : Rights :=
  let want := Rights.read ||| Rights.write ||| Rights.stat ||| Rights.seek
  if kind = .socket then want ||| Rights.connect ||| Rights.accept else want

/-- `want_write == 1 ? A20_RIGHT_WRITE : A20_RIGHT_READ`. -/
def directionNeed (wantWrite : Int) : Rights :=
  if wantWrite = 1 then Rights.write else Rights.read

/-- A tracked descriptor lacks the direction bit of the use. -/
def Env.deniesDirection (e : Env) (gfd wantWrite : Int) : Prop :=
  ∃ rights ∈ shadowRights gfd e.shadows, 0 ≤ wantWrite ∧ rights &&& directionNeed wantWrite = 0

instance (e : Env) (gfd wantWrite : Int) : Decidable (e.deniesDirection gfd wantWrite) := by
  unfold Env.deniesDirection; infer_instance

/-- The charge of `env_mediate_use_dir`: one operation, then the bytes. -/
def Env.chargeUse (e : Env) (bytes : Nat) : Except Errno Unit × Env :=
  if e.remainingOps = 0 then (.error .EACCES, e)
  else
    let e := { e with remainingOps := e.remainingOps - 1 }
    if bytes > 0 then
      if e.remainingData < bytes then (.error .EACCES, e)
      else (.ok (), { e with remainingData := e.remainingData - bytes })
    else (.ok (), e)

/-- The charge of `env_mediate_send_fd` and `env_mediate_class`. -/
def Env.chargeOp (e : Env) : Except Errno Unit × Env :=
  if e.remainingOps = 0 then (.error .EACCES, e)
  else (.ok (), { e with remainingOps := e.remainingOps - 1 })

/-- The second locked section of each call; `kind` is what `env_kind_of` answered
for the descriptor. -/
def Call.locked (kind : ObjType) (e : Env) : Call → Except Errno Unit × Env
  | .acquire objType rights gfd =>
      if ¬ objType.inMask e.policy.allowedTypes then (.error .EPERM, e)
      else if ¬ rights.Within (e.policy.rightsByClass objType) then (.error .EACCES, e)
      else e.chargeInstall objType (rights &&& e.policy.rightsByClass objType) gfd
  | .acquireGfd gfd =>
      if ¬ kind.inMask e.policy.allowedTypes then (.error .EPERM, e)
      else if transferWant kind &&& e.policy.rightsByClass kind = 0 then (.error .EACCES, e)
      else e.chargeInstall kind (transferWant kind &&& e.policy.rightsByClass kind) gfd
  | .sendFd _ =>
      if ¬ kind.inMask e.policy.propagationTypes then (.error .EPERM, e) else e.chargeOp
  | .ofClass objType =>
      if ¬ objType.inMask e.policy.allowedTypes then (.error .EPERM, e) else e.chargeOp
  | .useDir gfd bytes wantWrite =>
      if e.deniesDirection gfd wantWrite then (.error .EACCES, e) else e.chargeUse bytes

/-- A whole `env_mediate_*` call of an enveloped task. -/
def Call.run (now : BitVec 64) (kind : ObjType) (e : Env) (c : Call) :
    Except Errno Unit × Env :=
  match e.checkExpired now with
  | (true, e) => (.error .EACCES, e)
  | (false, e) => c.locked kind e

/-! ### The slot search -/

/-- Where the search ends: on the slot of `gfd` itself, on the slot it had in hand,
or on a free slot when no slot holds `gfd`. -/
theorem findSlot_eq_some {base : Nat}
    {held : Option Nat} (h : findSlot gfd shadows base held = some slot) :
    (∃ i s, slot = base + i ∧ shadows[i]? = some s ∧ s.gfd = gfd) ∨
      ((∀ s ∈ shadows, s.gfd ≠ gfd) ∧
        (held = some slot ∨ ∃ i s, slot = base + i ∧ shadows[i]? = some s ∧ s.gfd < 0)) := by
  induction shadows generalizing base held with
  | nil =>
    exact .inr ⟨by simp, .inl h⟩
  | cons s rest ih =>
    rw [findSlot] at h
    split at h
    · rename_i hgfd
      refine .inl ⟨0, s, ?_, rfl, hgfd⟩
      exact (Option.some_inj.mp h).symm
    rename_i hgfd
    rcases ih h with ⟨i, s', rfl, hs', hsame⟩ | ⟨hnone, hheld⟩
    · exact .inl ⟨i + 1, s', by omega, by simpa using hs', hsame⟩
    refine .inr ⟨forall_mem_cons.mpr ⟨hgfd, hnone⟩, ?_⟩
    · rcases hheld with hheld | ⟨i, s', rfl, hs', hfree⟩
      · split at hheld
        · rename_i hfree
          refine .inr ⟨0, s, ?_, rfl, hfree.2⟩
          exact (Option.some_inj.mp hheld).symm
        · exact .inl hheld
      · exact .inr ⟨i + 1, s', by omega, by simpa using hs', hfree⟩

/-- The slot an installation overwrites: the one of `gfd`, or a free one when no
shadow is for `gfd`. -/
theorem findSlot_spec (h : findSlot gfd shadows 0 none = some slot) :
    ∃ old, shadows[slot]? = some old ∧
      (old.gfd = gfd ∨ (old.gfd < 0 ∧ ∀ s ∈ shadows, s.gfd ≠ gfd)) := by
  rcases findSlot_eq_some h with ⟨i, s, rfl, hs, hsame⟩ | ⟨hnone, hheld | ⟨i, s, rfl, hs, hfree⟩⟩
  · exact ⟨s, by simpa using hs, .inl hsame⟩
  · cases hheld
  · exact ⟨s, by simpa using hs, .inr ⟨hfree, hnone⟩⟩

/-! ### Invariant of one envelope -/

/-- At most one live shadow for a global descriptor. -/
def UniqueGfds (shadows : List Shadow) : Prop :=
  ∀ (i j : Nat) (s t : Shadow), shadows[i]? = some s → shadows[j]? = some t →
    0 ≤ s.gfd → s.gfd = t.gfd → i = j

/-- What holds of an envelope at any time. -/
structure Sound (e : Env) : Prop where
  typeAllowed : ∀ s ∈ e.shadows, 0 ≤ s.gfd → s.objType.inMask e.policy.allowedTypes
  rightsSubCap : ∀ s ∈ e.shadows, 0 ≤ s.gfd → s.rights.Within (e.policy.rightsByClass s.objType)
  uniqueGfds : UniqueGfds e.shadows
  opsBounded : e.remainingOps ≤ e.policy.opBudget.toNat
  dataBounded : e.remainingData ≤ e.policy.dataBudget.toNat

/-- `later` is a later state of `earlier`: same policy, no budget grew, and expiry
is final. -/
structure Decays (earlier later : Env) : Prop where
  policy : later.policy = earlier.policy
  ops : later.remainingOps ≤ earlier.remainingOps
  data : later.remainingData ≤ earlier.remainingData
  expired : earlier.expired = true → later.expired = true

theorem Decays.refl (e : Env) : Decays e e := ⟨rfl, Nat.le_refl _, Nat.le_refl _, id⟩

theorem Decays.trans {a b c : Env} (hab : Decays a b) (hbc : Decays b c) : Decays a c :=
  ⟨hbc.policy.trans hab.policy, Nat.le_trans hbc.ops hab.ops, Nat.le_trans hbc.data hab.data,
    fun h => hbc.expired (hab.expired h)⟩

/-- Soundness does not depend on the expiry flags, and survives spending. -/
theorem Sound.of_spent (sound : Sound e) (decays : Decays e e')
    (shadows : e'.shadows = e.shadows) : Sound e' := by
  refine ⟨?_, ?_, ?_, ?_, ?_⟩
  · rw [decays.policy, shadows]
    exact sound.typeAllowed
  · rw [decays.policy, shadows]
    exact sound.rightsSubCap
  · rw [shadows]
    exact sound.uniqueGfds
  · rw [decays.policy]
    exact Nat.le_trans decays.ops sound.opsBounded
  · rw [decays.policy]
    exact Nat.le_trans decays.data sound.dataBounded

theorem UniqueGfds.set (unique : UniqueGfds shadows) {new : Shadow}
    (h : findSlot new.gfd shadows 0 none = some slot) : UniqueGfds (shadows.set slot new) := by
  obtain ⟨old, hold, hcase⟩ := findSlot_spec h
  -- a shadow elsewhere for the new descriptor would have been found by the search
  have other (j : Nat) (t : Shadow) (ht : shadows[j]? = some t) (hlive : 0 ≤ new.gfd)
      (hsame : t.gfd = new.gfd) : j = slot := by
    rcases hcase with hgfd | ⟨-, hnone⟩
    · exact unique j slot t old ht hold (by omega) (by omega)
    · exact absurd hsame (hnone t (mem_of_getElem? ht))
  intro i j s t hs ht hlive hsame
  rw [getElem?_set] at hs ht
  split at hs <;> split at ht
  · omega
  · rename_i hi hj
    split at hs
    · cases hs
      have := other j t ht hlive hsame.symm
      omega
    · cases hs
  · rename_i hi hj
    split at ht
    · cases ht
      have := other i s hs (by omega) hsame
      omega
    · cases ht
  · exact unique i j s t hs ht hlive hsame

/-! ### What the locked sections can do -/

theorem checkExpired_fields (now : BitVec 64) (e : Env) :
    (e.checkExpired now).2.policy = e.policy ∧ (e.checkExpired now).2.shadows = e.shadows ∧
      (e.checkExpired now).2.remainingOps = e.remainingOps ∧
      (e.checkExpired now).2.remainingData = e.remainingData ∧
      (e.checkExpired now).1 = (e.checkExpired now).2.expired ∧
      (e.expired = true → (e.checkExpired now).1 = true) := by
  unfold Env.checkExpired Env.noteKill Env.markExpired
  cases hexp : e.expired <;> grind

theorem checkExpired_decays (now : BitVec 64) (e : Env) : Decays e (e.checkExpired now).2 := by
  obtain ⟨policy, -, ops, data, result, stays⟩ := checkExpired_fields now e
  exact ⟨policy, Nat.le_of_eq ops, Nat.le_of_eq data, fun h => result ▸ stays h⟩

theorem checkExpired_sound (now : BitVec 64) (sound : Sound e) : Sound (e.checkExpired now).2 :=
  sound.of_spent (checkExpired_decays now e) (checkExpired_fields now e).2.1

/-- The situations in which a call is charged one operation and then denied: an
acquisition that passes the policy with no slot left, and a use with more bytes
than the data budget holds. -/
def ChargedDenial (kind : ObjType) (e : Env) : Call → Prop
  | .acquire objType rights gfd =>
      objType.inMask e.policy.allowedTypes ∧ rights.Within (e.policy.rightsByClass objType) ∧
        0 < e.remainingOps ∧ findSlot gfd e.shadows 0 none = none
  | .acquireGfd gfd =>
      kind.inMask e.policy.allowedTypes ∧ transferWant kind &&& e.policy.rightsByClass kind ≠ 0 ∧
        0 < e.remainingOps ∧ findSlot gfd e.shadows 0 none = none
  | .sendFd _ | .ofClass _ => False
  | .useDir gfd bytes wantWrite =>
      ¬ e.deniesDirection gfd wantWrite ∧ 0 < e.remainingOps ∧ e.remainingData < bytes

instance (kind : ObjType) (e : Env) (c : Call) : Decidable (ChargedDenial kind e c) := by
  cases c <;> unfold ChargedDenial <;> infer_instance

/-- The envelope after one operation and `bytes` were charged. -/
def Env.spend (e : Env) (bytes : Nat) : Env :=
  { e with remainingOps := e.remainingOps - 1, remainingData := e.remainingData - bytes }

/-- The envelope after an acquisition filled `slot`. -/
def Env.install (e : Env) (slot : Nat) (new : Shadow) : Env :=
  { e.spend 0 with shadows := e.shadows.set slot new }

/-- The outcomes of the second locked section: a denial that changes nothing, a
charged denial, a grant that spends, and an acquisition. -/
inductive Outcome (kind : ObjType) (e : Env) (c : Call) : Except Errno Unit → Env → Prop
  | denied (errno : Errno) (clean : ¬ ChargedDenial kind e c) : Outcome kind e c (.error errno) e
  | charged (errno : Errno) (late : ChargedDenial kind e c) (ops : 0 < e.remainingOps) :
      Outcome kind e c (.error errno) (e.spend 0)
  | spent (bytes : Nat) (clean : ¬ ChargedDenial kind e c) (ops : 0 < e.remainingOps)
      (data : bytes ≤ e.remainingData) : Outcome kind e c (.ok ()) (e.spend bytes)
  | acquired (slot : Nat) (new : Shadow) (clean : ¬ ChargedDenial kind e c)
      (ops : 0 < e.remainingOps) (allowed : new.objType.inMask e.policy.allowedTypes)
      (within : new.rights.Within (e.policy.rightsByClass new.objType))
      (found : findSlot new.gfd e.shadows 0 none = some slot) :
      Outcome kind e c (.ok ()) (e.install slot new)

variable {kind : ObjType} {r : Except Errno Unit}

/-- A check that denies does so before anything is charged. -/
theorem Outcome.check {P : Prop} [Decidable P] {errno : Errno} {r : Except Errno Unit × Env}
    (clean : P → ¬ ChargedDenial kind e c) (passed : ¬ P → Outcome kind e c r.1 r.2) :
    Outcome kind e c (if P then (.error errno, e) else r).1
      (if P then (.error errno, e) else r).2 := by
  by_cases denies : P
  · simp only [if_pos denies]
    exact .denied _ (clean denies)
  · simp only [if_neg denies]
    exact passed denies

theorem chargeInstall_outcome {objType : ObjType} {rights : Rights}
    (allowed : objType.inMask e.policy.allowedTypes)
    (within : rights.Within (e.policy.rightsByClass objType))
    (charged : ChargedDenial kind e c ↔ 0 < e.remainingOps ∧ findSlot gfd e.shadows 0 none = none) :
    Outcome kind e c (e.chargeInstall objType rights gfd).1
      (e.chargeInstall objType rights gfd).2 := by
  refine .check (fun zero late => absurd (charged.mp late).1 (by omega)) fun hops => ?_
  have pos : 0 < e.remainingOps := Nat.pos_of_ne_zero hops
  dsimp only
  cases hslot : findSlot gfd e.shadows 0 none with
  | none => exact .charged _ (charged.mpr ⟨pos, hslot⟩) pos
  | some slot =>
    have clean : ¬ ChargedDenial kind e c := fun late => by
      have := (charged.mp late).2
      rw [hslot] at this
      cases this
    exact .acquired slot ⟨gfd, objType, rights⟩ clean pos allowed within hslot

theorem chargeOp_outcome (clean : ¬ ChargedDenial kind e c) :
    Outcome kind e c e.chargeOp.1 e.chargeOp.2 :=
  .check (fun _ => clean) fun hops => .spent 0 clean (Nat.pos_of_ne_zero hops) (Nat.zero_le _)

theorem chargeUse_outcome {bytes : Nat}
    (charged : ChargedDenial kind e c ↔ 0 < e.remainingOps ∧ e.remainingData < bytes) :
    Outcome kind e c (e.chargeUse bytes).1 (e.chargeUse bytes).2 := by
  refine .check (fun zero late => absurd (charged.mp late).1 (by omega)) fun hops => ?_
  have pos : 0 < e.remainingOps := Nat.pos_of_ne_zero hops
  dsimp only
  by_cases hdata : e.remainingData < bytes
  · rw [if_pos (by omega), if_pos hdata]
    exact .charged _ (charged.mpr ⟨pos, hdata⟩) pos
  have clean : ¬ ChargedDenial kind e c := fun late => hdata (charged.mp late).2
  have spent := Outcome.spent bytes clean pos (Nat.le_of_not_lt hdata)
  by_cases hbytes : bytes > 0
  · rw [if_pos hbytes, if_neg hdata]
    exact spent
  · rw [if_neg hbytes]
    rw [Nat.eq_zero_of_not_pos hbytes] at spent
    exact spent

theorem Call.locked_outcome (kind : ObjType) (e : Env) (c : Call) :
    Outcome kind e c (c.locked kind e).1 (c.locked kind e).2 := by
  cases c with
  | acquire objType rights gfd =>
    refine .check (fun outside late => outside late.1) fun allowed => ?_
    refine .check (fun wide late => wide late.2.1) fun within => ?_
    rw [not_not] at allowed within
    refine chargeInstall_outcome allowed (Rights.and_within_right _ _) ?_
    simp only [ChargedDenial, allowed, within, true_and]
  | acquireGfd gfd =>
    refine .check (fun outside late => outside late.1) fun allowed => ?_
    refine .check (fun none late => late.2.1 none) fun grants => ?_
    rw [not_not] at allowed
    refine chargeInstall_outcome allowed (Rights.and_within_right _ _) ?_
    simp only [ChargedDenial, allowed, ne_eq, grants, not_false_eq_true, true_and]
  | sendFd | ofClass => exact .check (fun _ => id) fun _ => chargeOp_outcome id
  | useDir gfd bytes wantWrite =>
    rw [Call.locked]
    refine .check (fun denies late => late.1 denies) fun passes => chargeUse_outcome ?_
    simp only [ChargedDenial, passes, not_false_eq_true, true_and]

theorem Env.spend_decays (e : Env) (bytes : Nat) : Decays e (e.spend bytes) :=
  ⟨rfl, Nat.sub_le _ _, Nat.sub_le _ _, id⟩

theorem Outcome.decays (h : Outcome kind e c r e') : Decays e e' := by
  cases h with
  | denied errno clean => exact Decays.refl e
  | charged errno late ops => exact e.spend_decays 0
  | spent bytes clean ops data => exact e.spend_decays bytes
  | acquired slot new clean ops allowed within found =>
      exact ⟨rfl, Nat.sub_le _ _, Nat.sub_le _ _, id⟩

theorem Outcome.sound (h : Outcome kind e c r e') (sound : Sound e) : Sound e' := by
  have decays := h.decays
  cases h with
  | denied errno clean => exact sound
  | charged | spent => exact sound.of_spent decays rfl
  | acquired slot new clean ops allowed within found =>
    refine ⟨?_, ?_, sound.uniqueGfds.set found, ?_, ?_⟩
    · intro s hs hlive
      rcases mem_or_eq_of_mem_set hs with hs | rfl
      · exact sound.typeAllowed s hs hlive
      · exact allowed
    · intro s hs hlive
      rcases mem_or_eq_of_mem_set hs with hs | rfl
      · exact sound.rightsSubCap s hs hlive
      · exact within
    · exact Nat.le_trans decays.ops sound.opsBounded
    · exact Nat.le_trans decays.data sound.dataBounded

theorem envInit_sound {hz now : BitVec 64} {pid : Nat} {p : Policy}
    (h : envInit hz now pid p = .ok e) : Sound e := by
  unfold envInit at h
  split at h
  · cases h
  cases h
  have free (s : Shadow) (hs : s ∈ replicate maxShadows (⟨-1, .invalid, 0⟩ : Shadow)) :
      ¬ 0 ≤ s.gfd := by
    rw [eq_of_mem_replicate hs]
    decide
  refine ⟨?_, ?_, ?_, Nat.le_refl _, Nat.le_refl _⟩
  · exact fun s hs hlive => absurd hlive (free s hs)
  · exact fun s hs hlive => absurd hlive (free s hs)
  · exact fun i j s t hs _ hlive _ => absurd hlive (free s (mem_of_getElem? hs))

/-! ### A small policy -/

/-- Files only, read and write, five operations, one byte, no deadline. -/
def filePolicy : Policy where
  allowedTypes := 1 <<< 3
  rightsByClass := fun t => if t = .file then Rights.read ||| Rights.write else 0
  timeBudgetNs := 0
  opBudget := 5
  dataBudget := 1
  propagationTypes := 0
  flags := 0

/-- The envelope `env_create` makes for that policy. -/
def fileEnv : Env :=
  { policy := filePolicy, expireTick := 0, remainingOps := 5, remainingData := 1
    expired := false, killSent := false, ownerPid := 1
    shadows := List.replicate maxShadows ⟨-1, .invalid, 0⟩ }

end A20OS.Envelope
