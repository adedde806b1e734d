import A20OS.Envelope.Mediator
import A20OS.Lib.Machine

/-!
Envelopes shared by many tasks (`kernel/ipc/envelope.c`).

A step is a section under one lock or one atomic access: a mediated call is the pointer load
with the expiry check, then the locked section; entering is the registry lookup, the first
check, the exchange of the task's pointer, and the second check. Time passes in steps of its own.

`env_create` keeps a reference that nothing drops, so no envelope is destroyed, reference
counts are left out, and an envelope's registry slot is its place in the order of creation.
-/

namespace A20OS.Envelope

open Lib Option

/-! ### State -/

/-- `MAX_FILES`. -/
def maxFiles : Nat := 4096

/-- Where a task stands inside `env_mediate_*` or `env_enter`. -/
inductive Phase where
  | idle
  /-- The expiry check has passed; the locked section of the call is next. -/
  | mediating (id : Nat) (call : Call)
  /-- Looked up in the registry; the first check is next. -/
  | looked (id : Nat)
  /-- The first check has passed; the pointer exchange is next. -/
  | checked (id : Nat)
  /-- Attached; the second check is next. -/
  | attached (id : Nat)
deriving DecidableEq

/-- A task: its `->envelope` pointer and what it is doing. -/
structure Task where
  envelope : Option Nat
  phase : Phase
deriving DecidableEq

structure Sys where
  now : BitVec 64
  envs : List Env
  tasks : Nat → Task
  /-- `env_gfd_kind`; `none` is the zero byte of an unregistered descriptor. -/
  kinds : Nat → Option ObjType

def Sys.setTask (s : Sys) (t : Nat) (task : Task) : Sys :=
  { s with tasks := fun u => if u = t then task else s.tasks u }

def Sys.setPhase (s : Sys) (t : Nat) (phase : Phase) : Sys :=
  s.setTask t { s.tasks t with phase }

def Sys.setEnv (s : Sys) (id : Nat) (e : Env) : Sys := { s with envs := s.envs.set id e }

/-- `env_kind_of`; `isSocket` is the answer of the socket table. -/
def Sys.kindOf (s : Sys) (isSocket : Bool) (gfd : Int) : ObjType :=
  let registered := if 0 ≤ gfd ∧ gfd < maxFiles then s.kinds gfd.toNat else none
  match registered with
  | some kind => kind
  | none => if 0 ≤ gfd ∧ isSocket then .socket else .file

/-- The descriptor whose kind a call asks for. -/
def Call.gfd : Call → Int
  | .acquire _ _ gfd | .acquireGfd gfd | .sendFd gfd | .useDir gfd _ _ => gfd
  | .ofClass _ => -1

/-! ### Sections of the calls -/

/-- `env_create` by the task with this pid: the envelope id, or the errno. -/
def Sys.create (s : Sys) (hz : BitVec 64) (pid : Nat) (p : Policy) : Except Errno Nat × Sys :=
  match envInit hz s.now pid p with
  | .error e => (.error e, s)
  | .ok e =>
      if s.envs.length < maxInstances then (.ok s.envs.length, { s with envs := s.envs ++ [e] })
      else (.error .EBUSY, s)

/-- Entry of `env_mediate_*`: the answer if the call ends here, `none` if it goes
on to its locked section. -/
def Sys.mediate (s : Sys) (t : Nat) (call : Call) : Option (Except Errno Unit) × Sys :=
  match (s.tasks t).envelope with
  | none => (some (.ok ()), s)
  | some id =>
      match s.envs[id]? with
      | none => (none, s)
      | some e =>
          let s' := s.setEnv id (e.checkExpired s.now).2
          if (e.checkExpired s.now).1 then (some (.error .EACCES), s')
          else (none, s'.setPhase t (.mediating id call))

/-- The locked section of `env_mediate_*` and its answer. -/
def Sys.mediateLocked (s : Sys) (t id : Nat) (call : Call) (isSocket : Bool) :
    Option (Except Errno Unit × Sys) :=
  match s.envs[id]? with
  | none => none
  | some e =>
      let result := call.locked (s.kindOf isSocket call.gfd) e
      some (result.1, (s.setEnv id result.2).setPhase t .idle)

/-- A check of `env_enter`: `next` when the envelope is still live, `stop` otherwise. -/
def Sys.enterCheck (s : Sys) (t id : Nat) (next stop : Task) : Option Sys :=
  match s.envs[id]? with
  | none => none
  | some e =>
      let s' := s.setEnv id (e.checkExpired s.now).2
      some (s'.setTask t (if (e.checkExpired s.now).1 then stop else next))

/-- The locked section of `env_revoke` by a caller that may revoke. -/
def Sys.revoke (s : Sys) (pid uid id : Nat) : Except Errno Unit × Sys :=
  match s.envs[id]? with
  | none => (.error .ENOENT, s)
  | some e =>
      if e.ownerPid ≠ pid ∧ uid ≠ 0 then (.error .EPERM, s)
      else (.ok (), s.setEnv id e.markExpired.noteKill)

/-! ### Steps -/

inductive Event where
  | elapse (ticks : BitVec 64)
  | create (hz : BitVec 64) (pid : Nat) (p : Policy)
  | enterLookup (t id : Nat)
  | enterFirstCheck (t : Nat)
  | enterAttach (t : Nat)
  | enterSecondCheck (t : Nat)
  | mediate (t : Nat) (call : Call)
  | mediateLocked (t : Nat) (isSocket : Bool)
  | revoke (pid uid id : Nat)
  | fork (parent child : Nat)
  | release (t : Nat)
  | kindRegister (gfd : Nat) (kind : Option ObjType)

variable {ev : Event} {id t : Nat} {s s' : Sys}

/-- One step of the system; `none` when the task is not at that point. -/
def step (s : Sys) : Event → Option Sys
  | .elapse ticks => some { s with now := s.now + ticks }
  | .create hz pid p => some (s.create hz pid p).2
  | .enterLookup t id =>
      if (s.tasks t).phase = .idle ∧ id < maxInstances ∧ id < s.envs.length then
        some (s.setPhase t (.looked id))
      else none
  | .enterFirstCheck t =>
      match (s.tasks t).phase with
      | .looked id =>
          s.enterCheck t id { s.tasks t with phase := .checked id }
            { s.tasks t with phase := .idle }
      | _ => none
  | .enterAttach t =>
      match (s.tasks t).phase with
      | .checked id =>
          -- the exchange fails when the task is already enveloped
          if (s.tasks t).envelope = none then some (s.setTask t ⟨some id, .attached id⟩)
          else some (s.setPhase t .idle)
      | _ => none
  | .enterSecondCheck t =>
      match (s.tasks t).phase with
      | .attached id => s.enterCheck t id { s.tasks t with phase := .idle } ⟨none, .idle⟩
      | _ => none
  | .mediate t call => if (s.tasks t).phase = .idle then some (s.mediate t call).2 else none
  | .mediateLocked t isSocket =>
      match (s.tasks t).phase with
      | .mediating id call => (s.mediateLocked t id call isSocket).map (·.2)
      | _ => none
  | .revoke pid uid id => some (s.revoke pid uid id).2
  | .fork parent child =>
      if (s.tasks parent).phase = .idle ∧ s.tasks child = ⟨none, .idle⟩ then
        some (s.setTask child ⟨(s.tasks parent).envelope, .idle⟩)
      else none
  | .release t => if (s.tasks t).phase = .idle then some (s.setTask t ⟨none, .idle⟩) else none
  | .kindRegister gfd kind =>
      some { s with kinds := fun g => if g = gfd ∧ g < maxFiles then kind else s.kinds g }

/-- The system at boot: no envelope, no task attached. -/
def Sys.boot (s : Sys) : Prop := s.envs = [] ∧ ∀ t, s.tasks t = ⟨none, .idle⟩

def Sys.empty : Sys := ⟨0, [], fun _ => ⟨none, .idle⟩, fun _ => none⟩

/-! ### What a step does to the envelopes -/

/-- A step leaves the envelopes alone, adds a new one, or takes one of them through
a locked section. -/
inductive EnvChange (before after : List Env) : Prop
  | same (h : after = before)
  | created (e : Env) (sound : Sound e) (h : after = before ++ [e])
  | updated (id : Nat) (e e' : Env) (found : before[id]? = some e) (decays : Decays e e')
      (sound : Sound e → Sound e') (h : after = before.set id e')

theorem markExpired_decays (e : Env) : Decays e e.markExpired.noteKill := by
  unfold Env.markExpired Env.noteKill
  split <;> exact ⟨rfl, Nat.le_refl _, Nat.le_refl _, fun _ => rfl⟩

theorem markExpired_shadows (e : Env) : e.markExpired.noteKill.shadows = e.shadows := by
  unfold Env.markExpired Env.noteKill
  split <;> rfl

theorem EnvChange.checked {e : Env} (found : s.envs[id]? = some e) :
    EnvChange s.envs (s.setEnv id (e.checkExpired s.now).2).envs :=
  .updated id e _ found (checkExpired_decays _ _) (checkExpired_sound _) rfl

theorem enterCheck_change {next stop : Task}
    (h : s.enterCheck t id next stop = some s') : EnvChange s.envs s'.envs := by
  unfold Sys.enterCheck at h
  cases found : s.envs[id]? with
  | none => simp [found] at h
  | some e =>
    simp only [found, some_inj] at h
    rw [← h]
    exact .checked found

theorem mediate_change (s : Sys) (t : Nat) (call : Call) :
    EnvChange s.envs (s.mediate t call).2.envs := by
  unfold Sys.mediate
  cases (s.tasks t).envelope with
  | none => exact .same rfl
  | some id =>
    cases found : s.envs[id]? with
    | none => simp only [found]; exact .same rfl
    | some e =>
      simp only [found]
      split <;> exact .checked found

theorem mediateLocked_change {call : Call} {isSocket : Bool} {result : Except Errno Unit × Sys}
    (h : s.mediateLocked t id call isSocket = some result) : EnvChange s.envs result.2.envs := by
  unfold Sys.mediateLocked at h
  cases found : s.envs[id]? with
  | none => simp [found] at h
  | some e =>
    simp only [found, some_inj] at h
    rw [← h]
    have outcome := call.locked_outcome (s.kindOf isSocket call.gfd) e
    exact .updated id e _ found outcome.decays outcome.sound rfl

theorem create_change (s : Sys) (hz : BitVec 64) (pid : Nat) (p : Policy) :
    EnvChange s.envs (s.create hz pid p).2.envs := by
  unfold Sys.create
  cases hinit : envInit hz s.now pid p with
  | error e => exact .same rfl
  | ok e =>
    simp only
    split
    · exact .created e (envInit_sound hinit) rfl
    · exact .same rfl

theorem revoke_change (s : Sys) (pid uid id : Nat) :
    EnvChange s.envs (s.revoke pid uid id).2.envs := by
  unfold Sys.revoke
  cases found : s.envs[id]? with
  | none => exact .same rfl
  | some e =>
    simp only
    split
    · exact .same rfl
    · have decays := markExpired_decays e
      exact .updated id e _ found decays
        (fun sound => sound.of_spent decays (markExpired_shadows e)) rfl

theorem step_change (h : step s ev = some s') : EnvChange s.envs s'.envs := by
  cases ev with
  | elapse | kindRegister =>
    cases h
    exact .same rfl
  | create hz pid p =>
    cases h
    exact create_change s hz pid p
  | enterLookup | fork | release =>
    simp only [step, ite_none_right_eq_some] at h
    rw [← some_inj.mp h.2]
    exact .same rfl
  | enterFirstCheck | enterSecondCheck =>
    simp only [step] at h
    split at h
    · exact enterCheck_change h
    · cases h
  | enterAttach t =>
    simp only [step] at h
    split at h
    · split at h <;> cases h <;> exact .same rfl
    · cases h
  | mediate t call =>
    simp only [step, ite_none_right_eq_some] at h
    rw [← some_inj.mp h.2]
    exact mediate_change s t call
  | mediateLocked t isSocket =>
    simp only [step] at h
    split at h
    · rw [map_eq_some_iff] at h
      obtain ⟨result, hresult, rfl⟩ := h
      exact mediateLocked_change hresult
    · cases h
  | revoke pid uid id =>
    cases h
    exact revoke_change s pid uid id

/-! ### Runs -/

/-- Every envelope is sound. -/
def Sys.AllSound (s : Sys) : Prop := ∀ (id : Nat) (e : Env), s.envs[id]? = some e → Sound e

/-- Every envelope of `s` is still there in `t`, with the same policy and no more
budget. -/
def Sys.DecaysTo (s t : Sys) : Prop :=
  ∀ (id : Nat) (e : Env), s.envs[id]? = some e → ∃ e', t.envs[id]? = some e' ∧ Decays e e'

theorem step_allSound (sound : s.AllSound) (h : step s ev = some s') : s'.AllSound := by
  intro id e found
  cases step_change h with
  | same same =>
    rw [same] at found
    exact sound id e found
  | created new newSound grown =>
    rw [grown] at found
    rcases Nat.lt_or_ge id s.envs.length with hlt | hge
    · rw [List.getElem?_append_left hlt] at found
      exact sound id e found
    · rw [List.getElem?_append_right hge] at found
      rw [List.mem_singleton.mp (List.mem_of_getElem? found)]
      exact newSound
  | updated id' old new foundOld decays keeps changed =>
    rw [changed, List.getElem?_set] at found
    split at found
    · split at found
      · cases found
        exact keeps (sound id' old foundOld)
      · cases found
    · exact sound id e found

theorem step_decaysTo (h : step s ev = some s') : s.DecaysTo s' := by
  intro id e found
  cases step_change h with
  | same same => exact ⟨e, by rw [same]; exact found, Decays.refl e⟩
  | created new newSound grown =>
    have hlt : id < s.envs.length := (List.getElem?_eq_some_iff.mp found).1
    refine ⟨e, ?_, Decays.refl e⟩
    rw [grown, List.getElem?_append_left hlt]
    exact found
  | updated id' old new foundOld decays keeps changed =>
    have hlt : id < s.envs.length := (List.getElem?_eq_some_iff.mp found).1
    by_cases hid : id' = id
    · subst hid
      rw [found, some_inj] at foundOld
      subst foundOld
      exact ⟨new, by rw [changed, List.getElem?_set_self hlt], decays⟩
    · exact ⟨e, by rw [changed, List.getElem?_set_ne hid]; exact found, Decays.refl e⟩

theorem Sys.DecaysTo.refl (s : Sys) : s.DecaysTo s := fun _ e found => ⟨e, found, Decays.refl e⟩

theorem Sys.DecaysTo.trans {a b c : Sys} (hab : a.DecaysTo b) (hbc : b.DecaysTo c) :
    a.DecaysTo c := by
  intro id e found
  obtain ⟨e', found', decays⟩ := hab id e found
  obtain ⟨e'', found'', decays'⟩ := hbc id e' found'
  exact ⟨e'', found'', decays.trans decays'⟩

/-- An expired envelope denies every call that starts. -/
theorem mediate_expired {e : Env} (attached : (s.tasks t).envelope = some id)
    (found : s.envs[id]? = some e) (expired : e.expired = true) (call : Call) :
    (s.mediate t call).1 = some (.error .EACCES) := by
  have deny : (e.checkExpired s.now).1 = true := (checkExpired_fields s.now e).2.2.2.2.2 expired
  simp only [Sys.mediate, attached, found, deny, if_true]

/-- **The mediator invariant.** In every state a run reaches, every envelope is
sound: the types and rights of its live shadows are within the policy, no two are
for one descriptor, and the budgets are within their initial values. Along every
further run no budget grows, and once an envelope is marked expired every call an
attached task starts is denied. -/
theorem envelope_invariant {s₀ s : Sys} (boot : s₀.boot) (run : RunsTo step always s₀ s) :
    s.AllSound ∧
      ∀ t, RunsTo step always s t → ∀ (id : Nat) (e : Env), s.envs[id]? = some e →
        ∃ e', t.envs[id]? = some e' ∧ Decays e e' ∧
          (e.expired = true → ∀ (u : Nat) (call : Call), (t.tasks u).envelope = some id →
            (t.mediate u call).1 = some (.error .EACCES)) := by
  constructor
  · refine run.invariant (fun sound _ h => step_allSound sound h) ?_
    intro id e found
    rw [boot.1] at found
    cases found
  · intro t later id e found
    obtain ⟨e', found', decays⟩ := later.relates Sys.DecaysTo.refl Sys.DecaysTo.trans
      (fun _ h => step_decaysTo h) id e found
    refine ⟨e', found', decays, ?_⟩
    intro expired u call attached
    exact mediate_expired attached found' (decays.expired expired) call

/-- Task 7 enters a new envelope and opens a file as descriptor 3. -/
def enterAndOpen : List Event :=
  [.create 100 1 filePolicy, .enterLookup 7 0, .enterFirstCheck 7, .enterAttach 7,
    .enterSecondCheck 7, .mediate 7 (.acquire .file Rights.read 3), .mediateLocked 7 false]

def openedSys : Sys := (exec step Sys.empty enterAndOpen).getD Sys.empty

/-- The supervisor revokes the envelope. -/
theorem envelope_invariant_revoked :
    ∃ s, exec step Sys.empty (enterAndOpen ++ [.revoke 1 1000 0]) = some s ∧
      (∃ e ∈ s.envs[0]?, (⟨3, .file, Rights.read⟩ : Shadow) ∈ e.shadows ∧ Sound e) ∧
      (s.mediate 7 (.use 3 1)).1 = some (.error .EACCES) := by
  have executed : exec step Sys.empty (enterAndOpen ++ [.revoke 1 1000 0]) =
      some (openedSys.revoke 1 1000 0).2 := rfl
  have reached := envelope_invariant ⟨rfl, fun _ => rfl⟩ (exec_runsTo executed)
  have attached : ((openedSys.revoke 1 1000 0).2.tasks 7).envelope = some 0 := by decide +kernel
  have state : ((openedSys.revoke 1 1000 0).2.envs[0]?).any (fun e => decide
      ((⟨3, .file, Rights.read⟩ : Shadow) ∈ e.shadows ∧ e.expired = true)) = true := by
    decide +kernel
  obtain ⟨e, found, shadow, expired⟩ := eq_some_of_any state
  obtain ⟨e', -, -, deny⟩ := reached.2 _ .refl 0 e found
  exact ⟨_, executed, ⟨e, found, shadow, reached.1 0 e found⟩, deny expired 7 (.use 3 1) attached⟩

end A20OS.Envelope
