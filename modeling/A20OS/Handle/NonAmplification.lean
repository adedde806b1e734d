import A20OS.Handle.Derive

/-!
Which ways of making a handle out of another one can make it more permissive.

`Made` says what each path writes: the object and a part of the effective rights with or
without the limits of the source, or fixed rights for the directories of a new task. Every
derivation of a syscall is of that form in the table it leaves behind.
-/

namespace A20OS.Handle

open Lib List Table

variable {copyOut : Bool} {pid : Nat} {b : Birth} {src : Entry} {now : Nat} {path : Path}
  {d : Derivation} {new : Entry} {infos : List HandleInfo} {channel : Nat} {parent : Table}

/-! ### Permissiveness -/

/-- At tick `now`, handle `new` is no more permissive than `src`. An expiry of 0 never
comes. -/
structure NonAmplified (now : Nat) (src new : Entry) : Prop where
  rights : new.rights.Within (effectiveRights now src)
  expiry : src.expiryTick = 0 ∨ (0 < new.expiryTick ∧ new.expiryTick ≤ src.expiryTick)
  ops : src.opLimited = true → new.remainingOps ≤ src.remainingOps
  flags : src.temporalFlags &&& ~~~new.temporalFlags = 0
  label : src.securityLabel ≤ new.securityLabel

/-- No expiry, no temporal flag and the lowest label. -/
def Limits.Unlimited (l : Limits) : Prop :=
  l.expiryTick = 0 ∧ l.temporalFlags = 0 ∧ l.securityLabel = 0

/-- The paths that pass the limits of the source on. -/
def Path.keepsLimits : Path → Bool
  | .dup | .replace | .channel | .spawnArray => true
  | .spawnRoot | .spawnCwd | .spawnStdio | .cloneRoot | .cloneCwd | .cloneManifest => false

/-- The rights a path grants whatever the source has, beyond those its lookup asks for. -/
def Path.extraRights : Path → Rights
  | .spawnRoot | .cloneRoot => Rights.dup ||| Rights.transfer
  | .spawnCwd | .cloneCwd => Rights.dup
  | .dup | .replace | .channel | .spawnStdio | .spawnArray | .cloneManifest => 0

/-- The sources for which the path makes no more permissive handle. -/
def Path.Preserves (path : Path) (now : Nat) (src : Entry) : Prop :=
  (path.keepsLimits = true ∨ src.Unlimited) ∧
    path.extraRights.Within (effectiveRights now src)

/-- The path makes a directory handle with fixed rights. -/
def Path.fixedRights : Path → Option Rights
  | .spawnRoot | .cloneRoot => some Birth.rootRights
  | .spawnCwd | .cloneCwd => some Birth.cwdRights
  | .dup | .replace | .channel | .spawnStdio | .spawnArray | .cloneManifest => none

/-- The limits a path gives the new handle. -/
def Path.limitsOf (path : Path) (out : Entry) : Limits :=
  if path.keepsLimits then out.toLimits else {}

/-- `new` is what the path writes for the source `src` at tick `now`. -/
def Made (now : Nat) (path : Path) (src new : Entry) : Prop :=
  ∃ (out : Entry) (rights : Rights), Copied now src out ∧
    new = .opened out.object out.type rights (path.limitsOf out) ∧
    match path.fixedRights with
    | none => rights.Within out.rights
    | some fixed =>
        rights = fixed ∧ out.type = .directory ∧
          (Rights.read ||| Rights.stat).Within out.rights

theorem or_within_iff {r s t : Rights} : (r ||| s).Within t ↔ r.Within t ∧ s.Within t := by
  simp only [Rights.within_iff, BitVec.getLsbD_or, Bool.or_eq_true, or_imp, forall_and]

variable {rights required : Rights} {reserved : List Nat} {c : Ctx}

/-- Limits that are passed on satisfy every condition but the one on rights. -/
theorem nonAmplified_of_copied {out : Entry} (copied : Copied now src out)
    (within : rights.Within out.rights) :
    NonAmplified now src (.opened out.object out.type rights out.toLimits) := by
  refine ⟨?_, ?_, ?_, ?_, ?_⟩
  · rw [← copied.rights]
    exact (maskRights_within _ _).trans within
  · change _ ∨ (0 < out.expiryTick ∧ out.expiryTick ≤ _)
    rw [copied.expiryTick]
    rcases Nat.eq_zero_or_pos src.expiryTick with never | pos
    · exact .inl never
    · exact .inr ⟨pos, Nat.le_refl _⟩
  · exact fun _ => copied.remainingOps
  · change _ &&& ~~~out.temporalFlags = 0
    rw [copied.temporalFlags]
    simp
  · exact Nat.le_of_eq copied.securityLabel.symm

/-- A handle without limits is no more permissive when its source has none either. -/
theorem nonAmplified_plain_iff {object : Nat} {type : ObjType} :
    NonAmplified now src (.opened object type rights {}) ↔
      src.Unlimited ∧ (maskRights type rights).Within (effectiveRights now src) := by
  constructor
  · rintro ⟨within, expiry, -, flags, label⟩
    refine ⟨⟨?_, ?_, Nat.le_zero.mp label⟩, within⟩
    · rcases expiry with never | ⟨pos, -⟩
      · exact never
      · cases pos
    · change src.temporalFlags &&& ~~~(0#32) = 0 at flags
      rwa [BitVec.not_zero, BitVec.and_allOnes] at flags
  · rintro ⟨⟨never, noFlags, low⟩, within⟩
    refine ⟨within, .inl never, fun _ => Nat.zero_le _, ?_, ?_⟩
    · rw [noFlags]
      simp
    · rw [low]
      exact Nat.zero_le _

section Paths

variable {out : Entry}

/-- A handle made on the path is no more permissive exactly if the path preserves the limits. -/
def Path.Judged (now : Nat) (path : Path) (src out : Entry) (rights : Rights) : Prop :=
  NonAmplified now src (.opened out.object out.type rights (path.limitsOf out)) ↔
    path.Preserves now src

/-- The paths that pass the limits on never amplify. -/
theorem keeping_nonAmplified_iff (keeps : path.keepsLimits = true) (noExtra : path.extraRights = 0)
    (copied : Copied now src out) (within : rights.Within out.rights) :
    path.Judged now src out rights := by
  rw [Path.Judged, Path.limitsOf, if_pos keeps]
  constructor
  · exact fun _ => ⟨.inl keeps, noExtra ▸ Rights.zero_within _⟩
  · exact fun _ => nonAmplified_of_copied copied within

section
variable (drops : path.keepsLimits = false)
include drops

/-- A plain install amplifies when the source has limits, or lacks rights that it grants. -/
theorem dropping_nonAmplified_iff
    (grants : (maskRights out.type rights).Within (effectiveRights now src) ↔
      path.extraRights.Within (effectiveRights now src)) : path.Judged now src out rights := by
  rw [Path.Judged, Path.limitsOf, drops, if_neg Bool.false_ne_true, nonAmplified_plain_iff, grants,
    Path.Preserves, drops]
  simp only [Bool.false_eq_true, false_or]

theorem plain_nonAmplified_iff (noExtra : path.extraRights = 0) (copied : Copied now src out)
    (within : rights.Within out.rights) : path.Judged now src out rights := by
  refine dropping_nonAmplified_iff drops (iff_of_true ?_ (noExtra ▸ Rights.zero_within _))
  exact copied.rights ▸ (maskRights_within _ _).trans within

/-- The rights that the lookup asks for are not amplified. -/
theorem fixed_nonAmplified_iff {all : Rights}
    (fixed : maskRights .directory all = (Rights.read ||| Rights.stat) ||| path.extraRights)
    (copied : Copied now src out) (bound : rights = all ∧ out.type = .directory ∧
      (Rights.read ||| Rights.stat).Within out.rights) : path.Judged now src out rights := by
  obtain ⟨rfl, isDirectory, looked⟩ := bound
  rw [copied.rights] at looked
  refine dropping_nonAmplified_iff drops ?_
  rw [isDirectory, fixed, or_within_iff]
  exact and_iff_right looked

end

end Paths

theorem not_nonAmplified_of_expiry (expires : src.expiryTick ≠ 0)
    (never : new.expiryTick = 0) : ¬NonAmplified now src new := by
  intro same
  rcases same.expiry with none | ⟨pos, -⟩
  · exact expires none
  · exact Nat.ne_of_gt pos never

theorem made_nonAmplified_iff
    (made : Made now path src new) : NonAmplified now src new ↔ path.Preserves now src := by
  obtain ⟨out, rights, copied, rfl, bound⟩ := made
  cases path with
  | dup | replace | channel | spawnArray => exact keeping_nonAmplified_iff rfl rfl copied bound
  | spawnStdio | cloneManifest => exact plain_nonAmplified_iff rfl rfl copied bound
  | spawnRoot | cloneRoot | spawnCwd | cloneCwd =>
    exact fixed_nonAmplified_iff rfl (by decide) copied bound

/-! ### Handles of a new task -/

/-- Every recorded derivation is an open entry of the child, written as its path says. -/
structure Birth.Sound (now : Nat) (b : Birth) : Prop where
  parent : b.parent.WF
  child : b.child.WF
  made : ∀ d ∈ b.made, Used (b.child.entry d.handle) = true ∧
    Made now d.path d.source (b.child.entry d.handle)

/-- What an install in the child has to guarantee: for the copy `out` of an entry `e`
that the lookup let pass, it writes what the path says into a free slot. -/
structure Installs (c : Ctx) (path : Path) (type : ObjType) (required : Rights)
    (install : Table → Entry → Table × Except Status Nat) : Prop where
  ok : ∀ {child child' : Table} {e out : Entry} {slot : Nat}, child.WF → e.object ≠ 0 →
    (type ≠ .invalid → e.type = type) → required.Within (effectiveRights c.now e) →
    Copied c.now e out → install child out = (child', .ok slot) →
      ∃ new, Installed child child' slot new ∧ Used new = true ∧
        Made c.now path e new
  error : ∀ {child child' : Table} {out : Entry} {s : Status}, child.WF →
    install child out = (child', .error s) → Grown child child'

namespace Birth.Sound

variable {c : Ctx}

section
variable (sound : b.Sound c.now)
include sound

/-- The derivations survive an install in the child. -/
theorem made_installed {child : Table} {slot : Nat}
    (installed : Installed b.child child slot new) (hd : d ∈ b.made) :
    Used (child.entry d.handle) = true ∧
      Made c.now d.path d.source (child.entry d.handle) := by
  obtain ⟨used, made⟩ := sound.made d hd
  have apart : d.handle ≠ slot := by
    intro same
    have fresh := installed.fresh
    rw [← same, used] at fresh
    cases fresh
  rw [installed.entry, if_neg apart]
  exact ⟨used, made⟩

theorem made_grown {child : Table} (grown : Grown b.child child) (hd : d ∈ b.made) :
    Used (child.entry d.handle) = true ∧
      Made c.now d.path d.source (child.entry d.handle) := by
  rw [grown.entry]
  exact sound.made d hd

theorem inherit {type : ObjType} {install : Table → Entry → Table × Except Status Nat}
    (installs : Installs c path type required install) (h : Nat) :
    (b.inherit c path h type required install).1.Sound c.now := by
  unfold Birth.inherit
  split
  · next parent e looked =>
    have same := handleLookup_error looked
    exact ⟨same ▸ sound.parent, sound.child, sound.made⟩
  · next parent src looked =>
    have found := handleLookup_ok sound.parent looked
    split
    · next child slot result =>
      obtain ⟨new, installed, used, made⟩ :=
        installs.ok sound.child found.live found.typed found.allowed found.copied result
      refine ⟨found.wf, installed.wf, forall_mem_append.mpr
        ⟨fun d hd => sound.made_installed installed hd, forall_mem_singleton.mpr ?_⟩⟩
      rw [installed.entry, if_pos rfl]
      exact ⟨used, made⟩
    · next child e result =>
      have grown := installs.error sound.child result
      exact ⟨found.wf, grown.wf, fun d hd => sound.made_grown grown hd⟩

end

/-- Inheriting a list is sound when inheriting one handle is. -/
theorem inheritAll {α : Type} {inheritOne : Birth → α → Birth × Option Nat}
    (one : ∀ {b : Birth}, b.Sound c.now → ∀ a, (inheritOne b a).1.Sound c.now) (as : List α) :
    ∀ {b : Birth}, b.Sound c.now → (Birth.inheritAll inheritOne b as).1.Sound c.now := by
  induction as with
  | nil => exact fun sound => sound
  | cons a as ih => exact fun sound => ih (one sound a)

end Birth.Sound

section Installers

variable {c : Ctx}

theorem installs_directory (drops : path.keepsLimits = false)
    (fixed : path.fixedRights = some rights) :
    Installs c path .directory (Rights.read ||| Rights.stat) fun child src =>
      child.handleInstall c.mem src.object .directory rights := by
  constructor
  · intro child child' e out slot wf live typed allowed copied result
    have isDirectory : out.type = .directory := copied.type.trans (typed (by decide))
    have installed := handleInstallTemporal_ok wf (copied.object.symm ▸ live) result
    refine ⟨_, installed, rfl, out, rights, copied, ?_, ?_⟩
    · rw [Path.limitsOf, drops, isDirectory]
      rfl
    · rw [fixed]
      exact ⟨rfl, isDirectory, copied.rights.symm ▸ allowed⟩
  · intro child child' out s wf result
    exact handleInstallTemporal_error wf result

theorem installs_plain {rightsOf : Entry → Rights} (drops : path.keepsLimits = false)
    (free : path.fixedRights = none) (within : ∀ out, (rightsOf out).Within out.rights) :
    Installs c path .invalid required fun child src =>
      child.handleInstall c.mem src.object src.type (rightsOf src) := by
  constructor
  · intro child child' e out slot wf live _ _ copied result
    have installed := handleInstallTemporal_ok wf (copied.object.symm ▸ live) result
    refine ⟨_, installed, rfl, out, rightsOf out, copied, ?_, ?_⟩
    · rw [Path.limitsOf, drops]
      rfl
    · rw [free]
      exact within out
  · intro child child' out s wf result
    exact handleInstallTemporal_error wf result

theorem masked_within (mask : Rights) (src : Entry) :
    (Birth.masked mask src).Within src.rights := by
  unfold Birth.masked
  split
  · exact Rights.and_within_right _ _
  · exact Rights.within_refl _

theorem installs_array (sh : SpawnHandle) :
    Installs c .spawnArray .invalid Rights.dup fun child src =>
      if Birth.masked sh.rights src = 0 then (child, .error .access)
      else if sh.targetsFd then
        child.handleInstallAtTemporal c.mem sh.targetSlot src.object src.type
          (Birth.masked sh.rights src) src.toLimits
      else
        child.handleInstallTemporal c.mem src.object src.type (Birth.masked sh.rights src)
          src.toLimits := by
  constructor
  · intro child child' e out slot wf live _ _ copied result
    have hobject : out.object ≠ 0 := copied.object.symm ▸ live
    have made : Made c.now .spawnArray e
        (.opened out.object out.type (Birth.masked sh.rights out) out.toLimits) :=
      ⟨out, _, copied, rfl, masked_within _ _⟩
    obtain ⟨-, ⟨⟩⟩ | ⟨-, result⟩ := ite_eq_iff.mp result
    obtain ⟨-, result⟩ | ⟨-, result⟩ := ite_eq_iff.mp result
    · exact ⟨_, (handleInstallAtTemporal_ok wf hobject result).2, rfl, made⟩
    · exact ⟨_, handleInstallTemporal_ok wf hobject result, rfl, made⟩
  · intro child child' out s wf result
    obtain ⟨-, ⟨⟩⟩ | ⟨-, result⟩ := ite_eq_iff.mp result
    · exact .refl wf
    obtain ⟨-, result⟩ | ⟨-, result⟩ := ite_eq_iff.mp result
    · exact handleInstallAtTemporal_error wf result
    · exact handleInstallTemporal_error wf result

end Installers

namespace Birth.Sound

variable {c : Ctx}

section
variable (sound : b.Sound c.now)
include sound

theorem inheritRoot (path : Path) (drops : path.keepsLimits = false)
    (fixed : path.fixedRights = some rootRights) (h : Nat) :
    (b.inheritRoot c path h).1.Sound c.now :=
  sound.inherit (installs_directory drops fixed) h

theorem inheritCwd (path : Path) (drops : path.keepsLimits = false)
    (fixed : path.fixedRights = some cwdRights) (h : Nat) :
    (b.inheritCwd c path h).1.Sound c.now := by
  unfold Birth.inheritCwd
  split
  · exact sound
  · exact sound.inherit (installs_directory drops fixed) h

theorem inheritStdio (h : Nat) : (b.inheritStdio c h).1.Sound c.now := by
  unfold Birth.inheritStdio
  split
  · exact sound
  · exact sound.inherit (installs_plain rfl rfl fun _ => Rights.within_refl _) h

theorem inheritArray (sh : SpawnHandle) : (b.inheritArray c sh).1.Sound c.now :=
  sound.inherit (installs_array sh) sh.handle

theorem inheritManifest (ch : CloneHandle) : (b.inheritManifest c ch).1.Sound c.now :=
  sound.inherit (installs_plain rfl rfl (masked_within _)) ch.parentHandle

theorem grant {object : Nat} (hobject : object ≠ 0) (type : ObjType)
    (rights : Rights) : (b.grant c object type rights).1.Sound c.now := by
  unfold Birth.grant
  split
  · next child h result =>
    have installed := handleInstallTemporal_ok sound.child hobject result
    exact ⟨sound.parent, installed.wf, fun d hd => sound.made_installed installed hd⟩
  · next child e result =>
    have grown := handleInstallTemporal_error sound.child result
    exact ⟨sound.parent, grown.wf, fun d hd => sound.made_grown grown hd⟩

theorem grantRegistry {client : Option Nat}
    (hclient : ∀ object, client = some object → object ≠ 0) :
    (b.grantRegistry c client).1.Sound c.now := by
  cases client with
  | none => exact sound
  | some object => exact sound.grant (hclient object rfl) _ _

theorem readCwd (h : Nat) : (b.readCwd c h).Sound c.now := by
  unfold Birth.readCwd
  split
  · exact sound
  · refine ⟨?_, sound.child, sound.made⟩
    exact of_result (fun failed => handleLookup_error failed ▸ sound.parent)
      fun looked => (handleLookup_ok sound.parent looked).wf

theorem parentTask (hpid : pid ≠ 0) (rights : Rights) :
    (b.parentTask c pid rights).1.Sound c.now := by
  refine ⟨?_, sound.child, sound.made⟩
  exact of_result (fun failed => (handleInstallTemporal_error sound.parent failed).wf)
    fun installed => (handleInstallTemporal_ok sound.parent hpid installed).wf

end

end Birth.Sound

/-- Task and endpoint objects are never null. -/
structure Outside.Real (o : Outside) : Prop where
  pid : ∀ pid, o.task = .ok pid → pid ≠ 0
  client : ∀ object, o.registryClient = some object → object ≠ 0

section Calls

variable {c : Ctx} {o : Outside}

theorem birth_sound (wf : parent.WF) : (⟨parent, .create, []⟩ : Birth).Sound c.now :=
  ⟨wf, create_wf, fun d hd => by cases hd⟩

theorem spawnStandard_sound (sound : b.Sound c.now) (args : SpawnArgs) :
    (spawnStandard c b args).1.Sound c.now := by
  have root := sound.inheritRoot .spawnRoot rfl rfl args.rootDir
  have cwd := root.inheritCwd .spawnCwd rfl rfl args.cwdDir
  have read := cwd.readCwd (if args.cwdDir ≠ handleNull then args.cwdDir else args.rootDir)
  exact Birth.Sound.inheritAll Birth.Sound.inheritStdio
    [args.stdinHandle, args.stdoutHandle, args.stderrHandle] read

theorem spawnFinish_sound (real : o.Real) (hpid : pid ≠ 0)
    (sound : b.Sound c.now) (info : StartInfo) : (spawnFinish c o pid b info).1.Sound c.now := by
  have granted := sound.grant hpid .task selfRights
  have tasked := granted.parentTask hpid
    (selfRights ||| Rights.admin ||| Rights.read ||| Rights.write)
  unfold spawnFinish
  simp only
  cases result : (b.grant c pid .task selfRights).1.parentTask c pid
      (selfRights ||| Rights.admin ||| Rights.read ||| Rights.write) with
  | mk b' r =>
    rw [result] at tasked
    cases r with
    | error e => exact tasked
    | ok taskH =>
      simp only
      by_cases copied : o.copyOut = true
      · rw [if_pos copied]
        have registered := tasked.grantRegistry real.client
        split <;> exact registered
      · rw [if_neg copied]
        refine ⟨?_, tasked.child, tasked.made⟩
        exact of_result (fun failed => handleRemove_error failed ▸ tasked.parent)
          fun removed => (handleRemove_ok tasked.parent removed).wf

theorem spawnHandles_sound (real : o.Real) (hpid : pid ≠ 0)
    (sound : b.Sound c.now) (args : SpawnArgs) : (spawnHandles c o pid b args).1.Sound c.now := by
  have standard := spawnStandard_sound sound args
  unfold spawnHandles
  cases args.handles with
  | none => exact standard
  | some handles =>
    have array := Birth.Sound.inheritAll Birth.Sound.inheritArray (handles.take manifestMax)
      standard
    exact spawnFinish_sound real hpid array _

theorem sysTaskSpawn_sound (real : o.Real) (wf : parent.WF) (args : SpawnArgs) :
    (sysTaskSpawn c o parent args).1.Sound c.now := by
  unfold sysTaskSpawn
  split
  · next parent' e looked => exact birth_sound (handleLookup_error looked ▸ wf)
  · next parent' img looked =>
    have wf' := (handleLookup_ok wf looked).wf
    cases made : o.task with
    | error e => exact birth_sound wf'
    | ok pid => exact spawnHandles_sound real (real.pid pid made) (birth_sound wf') args

theorem cloneHandles_sound (hpid : pid ≠ 0) (sound : b.Sound c.now) (args : CloneArgs)
    (manifest : List CloneHandle) : (cloneHandles c pid b args manifest).1.Sound c.now := by
  have self := sound.grant hpid .task selfRights
  have root := self.inheritRoot .cloneRoot rfl rfl args.rootDir
  have cwd := root.inheritCwd .cloneCwd rfl rfl args.cwdDir
  exact Birth.Sound.inheritAll Birth.Sound.inheritManifest manifest cwd

theorem sysTaskClone_sound (real : o.Real) (wf : parent.WF) (args : CloneArgs) :
    (sysTaskClone c o parent args).1.Sound c.now := by
  unfold sysTaskClone
  by_cases many : manifestMax < args.handleCount
  · rw [if_pos many]
    exact birth_sound wf
  rw [if_neg many]
  cases read : (if args.handleCount = 0 then some [] else args.handles) with
  | none => exact birth_sound wf
  | some manifest =>
    cases made : o.task with
    | error e => exact birth_sound wf
    | ok pid =>
      have hpid := real.pid pid made
      exact (cloneHandles_sound hpid (birth_sound wf) args _).parentTask hpid _

end Calls

/-! ### Dup, replace and transfer -/

section Dup

variable {c : Ctx} {t t' : Table} {source newH : Nat}

/-- The handle that dup and replace install, and the source they found. -/
theorem dupInstall_ok (wf : t.WF) (made : dupInstall c t source rights = (t', .ok newH)) :
    t'.WF ∧ newH ≠ source ∧ ∃ out : Entry, Copied c.now (t.entry source) out ∧
      ∃ r : Rights, r.Within out.rights ∧
        t'.entry newH = .opened out.object out.type r out.toLimits := by
  unfold dupInstall at made
  split at made
  · cases made
  next t₁ src looked =>
  have found := handleLookup_ok wf looked
  obtain ⟨-, ⟨⟩⟩ | ⟨exceeds, made⟩ := ite_eq_iff.mp made
  have live : src.object ≠ 0 := found.copied.object.symm ▸ found.live
  have installed := handleInstallTemporal_ok found.wf live made
  refine ⟨installed.wf, ?_, src, found.copied, _, ?_, by rw [installed.entry, if_pos rfl]⟩
  · -- The source is still open after the lookup, the new slot was free.
    rintro rfl
    have fresh := installed.fresh
    rw [found.used] at fresh
    cases fresh
  · split
    · next given => exact not_not.mp fun outside => exceeds ⟨given, outside⟩
    · exact Rights.within_refl _

theorem entry_handleRemove {h : Nat} (wf : t.WF) (apart : newH ≠ h) :
    (t.handleRemove h).1.entry newH = t.entry newH :=
  of_result (P := fun t' => t'.entry newH = t.entry newH)
    (fun failed => by rw [handleRemove_error failed])
    fun removed => (handleRemove_ok wf removed).others newH apart

theorem sysHandleDup_made (wf : t.WF)
    (ok : sysHandleDup c t source rights copyOut = (t', .ok newH)) :
    Made c.now .dup (t.entry source) (t'.entry newH) := by
  unfold sysHandleDup at ok
  split at ok
  · cases ok
  next t₁ h made =>
  obtain ⟨-, ⟨⟩⟩ | ⟨-, ⟨⟩⟩ := ite_eq_iff.mp ok
  obtain ⟨-, -, out, copied, r, within, written⟩ := dupInstall_ok wf made
  exact ⟨out, r, copied, written, within⟩

theorem sysHandleReplace_made (wf : t.WF)
    (ok : sysHandleReplace c t source rights copyOut = (t', .ok newH)) :
    Made c.now .replace (t.entry source) (t'.entry newH) := by
  unfold sysHandleReplace at ok
  split at ok
  · cases ok
  next t₁ h made =>
  obtain ⟨-, ⟨⟩⟩ | ⟨-, ⟨⟩⟩ := ite_eq_iff.mp ok
  obtain ⟨wf₁, apart, out, copied, r, within, written⟩ := dupInstall_ok wf made
  exact ⟨out, r, copied, (entry_handleRemove wf₁ apart).trans written, within⟩

end Dup

/-- What a message says about a handle that was looked up in `src`. -/
def Carried (now : Nat) (src : Entry) (info : HandleInfo) : Prop :=
  info.object ≠ 0 ∧ ∃ out : Entry, Copied now src out ∧ info.object = out.object ∧
    info.type = out.type ∧ info.toLimits = out.toLimits ∧ info.transferRights.Within out.rights

theorem gatherHandles_carried (handles : List (Nat × Option Rights)) :
    ∀ {t t' : Table} {infos : List HandleInfo}, t.WF →
      gatherHandles now t handles = (t', .ok infos) →
        List.Forall₂ (Carried now) (gatherSources now t handles) infos := by
  induction handles with
  | nil =>
    intro t t' infos _ gathered
    cases gathered
    exact .nil
  | cons request rest ih =>
    obtain ⟨h, userRights⟩ := request
    intro t t' infos wf gathered
    rw [gatherHandles] at gathered
    rw [gatherSources]
    split at gathered
    · cases gathered
    next t₁ he looked =>
    have found := handleLookup_ok wf looked
    obtain ⟨-, ⟨⟩⟩ | ⟨-, gathered⟩ := ite_eq_iff.mp gathered
    rw [looked]
    split at gathered
    · next t₂ infos later =>
      cases gathered
      have live : he.object ≠ 0 := found.copied.object.symm ▸ found.live
      exact .cons ⟨live, he, found.copied, rfl, rfl, rfl,
        Rights.and_within_left _ _⟩ (ih found.wf later)
    · cases gathered

/-- After a successful commit every slot holds the handle it was reserved for. -/
theorem commitReceived_ok (slots : List (Nat × HandleInfo)) :
    ∀ {t t' : Table} {installed : List Nat} {u : Unit}, t.WF → (slots.map Prod.fst).Nodup →
      (∀ s ∈ slots, s.2.object ≠ 0) → commitReceived t installed slots = (t', .ok u) →
        (∀ s ∈ slots, t'.entry s.1 =
          .opened s.2.object s.2.type s.2.transferRights s.2.toLimits) ∧
        ∀ j, j ∉ slots.map Prod.fst → t'.entry j = t.entry j := by
  induction slots with
  | nil =>
    intro t t' installed u _ _ _ committed
    cases committed
    exact ⟨nofun, fun _ _ => rfl⟩
  | cons slot rest ih =>
    obtain ⟨h, info⟩ := slot
    intro t t' installed u wf distinct live committed
    rw [commitReceived] at committed
    rw [map_cons, nodup_cons] at distinct
    split at committed
    · cases committed
    next t₁ u' one =>
    have first := handleCommitReservedTemporal_ok wf (live _ (.head _)) one
    obtain ⟨written, others⟩ :=
      ih first.wf distinct.2 (fun s hs => live s (.tail _ hs)) committed
    constructor
    · refine forall_mem_cons.mpr ⟨?_, written⟩
      rw [others h distinct.1, first.entry, if_pos rfl]
    · intro j hj
      rw [map_cons, mem_cons, not_or] at hj
      rw [others j hj.2, first.entry, if_neg hj.1]

/-- Lists related element by element stay so when both are paired with a third. -/
theorem exists_mem_zip_of_forall₂ {α β γ : Type} {R : α → β → Prop} {as : List α} {bs : List β}
    (related : List.Forall₂ R as bs) (cs : List γ) :
    (∀ p ∈ as.zip cs, ∃ b, (p.2, b) ∈ cs.zip bs ∧ R p.1 b) ∧
      ∀ p ∈ cs.zip bs, ∃ a, R a p.2 := by
  induction related generalizing cs with
  | nil => simp
  | @cons a b as bs hab _ ih =>
    cases cs with
    | nil => simp
    | cons c cs =>
      obtain ⟨left, right⟩ := ih cs
      constructor
      · refine forall_mem_cons.mpr ⟨⟨b, .head _, hab⟩, fun p later => ?_⟩
        obtain ⟨b', mem, h⟩ := left p later
        exact ⟨b', .tail _ mem, h⟩
      · exact forall_mem_cons.mpr ⟨⟨a, hab⟩, right⟩

/-- A successful receive: reserved slots, all committed. -/
theorem recvHandles_ok {t t' : Table} (wf : t.WF)
    (ok : recvHandles c t channel infos copyOut = (t', .ok reserved)) :
    ∃ (t₁ t₂ : Table) (u : Unit), Reserved t₁ t₂ reserved ∧
      reserved.length = infos.length ∧
      commitReceived t₂ [] (reserved.zip infos) = (t', .ok u) := by
  unfold recvHandles at ok
  split at ok
  · cases ok
  next t₁ ep looked =>
  have wf₁ := (handleLookup_ok wf looked).wf
  obtain ⟨-, ⟨⟩⟩ | ⟨-, ok⟩ := ite_eq_iff.mp ok
  split at ok
  · cases ok
  next t₂ hs slots =>
  obtain ⟨taken, length⟩ := handleReserveMany_ok wf₁ slots
  split at ok
  · cases ok
  next t₃ u committed =>
  obtain ⟨-, ⟨⟩⟩ | ⟨-, ⟨⟩⟩ := ite_eq_iff.mp ok
  exact ⟨t₁, t₂, u, taken, length, committed⟩

/-- The handles of a receive, paired with the sources of the send, are made from them. -/
theorem recvHandles_made {t t' : Table} {sources : List Entry} (wf : t.WF)
    (carried : List.Forall₂ (Carried now) sources infos)
    (ok : recvHandles c t channel infos copyOut = (t', .ok reserved)) :
    ∀ p ∈ sources.zip reserved, Made now .channel p.1 (t'.entry p.2) := by
  obtain ⟨t₁, t₂, u, taken, length, committed⟩ := recvHandles_ok wf ok
  obtain ⟨paired, sourced⟩ := exists_mem_zip_of_forall₂ carried reserved
  have distinct : ((reserved.zip infos).map Prod.fst).Nodup := by
    rw [map_fst_zip (Nat.le_of_eq length)]
    exact taken.distinct
  have live : ∀ s ∈ reserved.zip infos, s.2.object ≠ 0 := by
    intro s hs
    obtain ⟨src, nonnull, -⟩ := sourced s hs
    exact nonnull
  obtain ⟨written, -⟩ := commitReceived_ok _ taken.wf distinct live committed
  intro p hp
  obtain ⟨info, mem, -, out, copied, object, type, limits, within⟩ := paired p hp
  refine ⟨out, info.transferRights, copied, ?_, within⟩
  rw [written _ mem, object, type, limits]
  rfl

/-! ### Every derivation -/

/-- A syscall that makes handles out of others, with the tables it runs on. A transfer
is a send and a later receive of its message, in any table as it is by then. -/
inductive Call where
  | dup (t : Table) (source : Nat) (rightsMask : Rights) (copyOut : Bool)
  | replace (t : Table) (h : Nat) (rights : Rights) (copyOut : Bool)
  | transfer (sender : Table) (channel : Nat) (handles : List (Nat × Option Rights))
      (later : Ctx) (receiver : Table) (channel' : Nat) (copyOut : Bool)
  | spawn (o : Outside) (parent : Table) (args : SpawnArgs)
  | clone (o : Outside) (parent : Table) (args : CloneArgs)

/-- The source entries of a send. -/
def sendSources (now : Nat) (t : Table) (channel : Nat) (handles : List (Nat × Option Rights)) :
    List Entry :=
  gatherSources now (t.handleLookup now channel .channelEndpoint Rights.write).1 handles

/-- The table the new handles are in when the call returns, and their derivations. -/
def Call.run (c : Ctx) : Call → Table × List Derivation
  | .dup t source rightsMask copyOut =>
      match sysHandleDup c t source rightsMask copyOut with
      | (t', .ok newH) => (t', [⟨.dup, t.entry source, newH⟩])
      | (t', .error _) => (t', [])
  | .replace t h rights copyOut =>
      match sysHandleReplace c t h rights copyOut with
      | (t', .ok newH) => (t', [⟨.replace, t.entry h, newH⟩])
      | (t', .error _) => (t', [])
  | .transfer sender channel handles later receiver channel' copyOut =>
      match sendHandles c.now sender channel handles with
      | (_, .error _) => (receiver, [])
      | (_, .ok infos) =>
          match recvHandles later receiver channel' infos copyOut with
          | (t', .ok reserved) =>
              (t', ((sendSources c.now sender channel handles).zip reserved).map fun p =>
                ⟨.channel, p.1, p.2⟩)
          | (t', .error _) => (t', [])
  | .spawn o parent args =>
      let born := (sysTaskSpawn c o parent args).1
      (born.child, born.made)
  | .clone o parent args =>
      let born := (sysTaskClone c o parent args).1
      (born.child, born.made)

/-- The tables of the call satisfy the representation invariant. -/
def Call.WF : Call → Prop
  | .dup t _ _ _ => t.WF
  | .replace t _ _ _ => t.WF
  | .transfer sender _ _ _ receiver _ _ => sender.WF ∧ receiver.WF
  | .spawn o parent _ => o.Real ∧ parent.WF
  | .clone o parent _ => o.Real ∧ parent.WF

theorem sendHandles_carried {t t' : Table} {handles : List (Nat × Option Rights)} (wf : t.WF)
    (sent : sendHandles now t channel handles = (t', .ok infos)) :
    List.Forall₂ (Carried now) (sendSources now t channel handles) infos := by
  unfold sendHandles at sent
  split at sent
  · cases sent
  next t₁ ep looked =>
  obtain ⟨-, ⟨⟩⟩ | ⟨-, sent⟩ := ite_eq_iff.mp sent
  obtain ⟨-, ⟨⟩⟩ | ⟨-, sent⟩ := ite_eq_iff.mp sent
  rw [sendSources, looked]
  exact gatherHandles_carried handles (handleLookup_ok wf looked).wf sent

/-- Every derivation of a call is made as its path says. -/
theorem Call.run_made {call : Call} (wf : call.WF) (made : d ∈ (call.run c).2) :
    Made c.now d.path d.source ((call.run c).1.entry d.handle) := by
  cases call with
  | dup t source rightsMask copyOut =>
    rw [Call.run] at made ⊢
    split at made
    · next t' newH result =>
      rw [mem_singleton] at made
      subst made
      exact sysHandleDup_made wf result
    · cases made
  | replace t h rights copyOut =>
    rw [Call.run] at made ⊢
    split at made
    · next t' newH result =>
      rw [mem_singleton] at made
      subst made
      exact sysHandleReplace_made wf result
    · cases made
  | transfer sender channel handles later receiver channel' copyOut =>
    rw [Call.run] at made ⊢
    split at made
    · cases made
    next sender' infos sent =>
    have carried := sendHandles_carried wf.1 sent
    split at made
    · next t' reserved result =>
      obtain ⟨p, hp, rfl⟩ := mem_map.mp made
      exact recvHandles_made wf.2 carried result p hp
    · cases made
  | spawn o parent args => exact ((sysTaskSpawn_sound wf.1 wf.2 args).made d made).2
  | clone o parent args => exact ((sysTaskClone_sound wf.1 wf.2 args).made d made).2

/-- A handle made by a syscall is no more permissive than its source exactly when the
path preserves the source: always on the paths that pass the limits on; on the others
only from a source without limits, and for the directories of a new task only from one
that has the rights the path adds. -/
theorem derivation_nonAmplified_iff (c : Ctx) (call : Call) (wf : call.WF) (d : Derivation)
    (made : d ∈ (call.run c).2) :
    NonAmplified c.now d.source ((call.run c).1.entry d.handle) ↔
      d.path.Preserves c.now d.source :=
  made_nonAmplified_iff (call.run_made wf made)

/-- A table with one handle, to a directory, that expires at tick 10. -/
def expiringDirectory (rights : Rights) : Table :=
  (create.handleInstallTemporal (fun _ => true) 7 .directory rights
    { expiryTick := 10, temporalFlags := expiryAbsolute }).1

theorem expiringDirectory_wf (rights : Rights) : (expiringDirectory rights).WF :=
  of_result (fun failed => (handleInstallTemporal_error create_wf failed).wf)
    fun installed => (handleInstallTemporal_ok create_wf (by decide) installed).wf

/-- Tick 3, with memory for every table. -/
def tick3 : Ctx := ⟨3, fun _ => true⟩

def dupExpiring : Call := .dup (expiringDirectory (Rights.read ||| Rights.dup)) 0 Rights.read true

/-- Dup passes the expiry on. -/
theorem derivation_nonAmplified_iff_dup :
    ∃ d ∈ (dupExpiring.run tick3).2,
      NonAmplified tick3.now d.source ((dupExpiring.run tick3).1.entry d.handle) := by
  have wf : dupExpiring.WF := expiringDirectory_wf (Rights.read ||| Rights.dup)
  have made : ⟨.dup, (expiringDirectory (Rights.read ||| Rights.dup)).entry 0, 1⟩ ∈
      (dupExpiring.run tick3).2 := by decide +kernel
  exact ⟨_, made, (derivation_nonAmplified_iff tick3 dupExpiring wf _ made).mpr
    ⟨.inl rfl, Rights.zero_within _⟩⟩

/-- A clone with an empty manifest whose root directory is handle 0 of the parent. -/
def cloneExpiring : Call :=
  .clone ⟨.ok 2, none, true, true⟩ (expiringDirectory (Rights.read ||| Rights.stat))
    ⟨0, handleNull, 0, none⟩

/-- The child's root handle never expires and can be duplicated and sent on, although
the parent's expires at tick 10 and can only be read. -/
theorem clone_amplifies_root :
    cloneExpiring.WF ∧ ∃ d ∈ (cloneExpiring.run tick3).2,
      ¬NonAmplified tick3.now d.source ((cloneExpiring.run tick3).1.entry d.handle) := by
  constructor
  · refine ⟨⟨?_, ?_⟩, expiringDirectory_wf _⟩
    · intro pid made
      cases made
      decide
    · intro object none
      cases none
  · refine ⟨⟨.cloneRoot, (expiringDirectory (Rights.read ||| Rights.stat)).entry 0, 1⟩, ?_, ?_⟩
    · decide +kernel
    · exact not_nonAmplified_of_expiry (by decide +kernel) (by decide +kernel)

end A20OS.Handle
