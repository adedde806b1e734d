import A20OS.Handle.Reserve

/-!
The syscalls that make a handle out of another one (`sys_core.c`, `sys_native_ipc.c`).

Each looks the source up, which yields a copy with the effective rights, and installs an entry
made from the copy, possibly in another table. A `Derivation` records the source entry and the
new handle. Dup, replace, transfer and the handle array of spawn pass the limits on, the others
use the plain install, which sets no limit (`Path.keepsLimits`). `NonAmplified` says that a
handle is no more permissive than its source.
-/

namespace A20OS.Handle

open Lib

/-! ### Derivations -/

inductive Path where
  | dup | replace | channel
  | spawnRoot | spawnCwd | spawnStdio | spawnArray
  | cloneRoot | cloneCwd | cloneManifest
deriving DecidableEq, Repr

/-- A handle made out of another one. -/
structure Derivation where
  path : Path
  source : Entry
  handle : Nat
deriving DecidableEq

/-- The environment of a syscall: the tick, and which table sizes can be allocated. -/
structure Ctx where
  now : Nat
  mem : Nat → Bool

/-- `A20_HANDLE_NULL`. -/
def handleNull : Nat := 0xFFFFFFFF

/-! ### Dup and replace -/

/-- The common part of dup and replace: the new handle and the table it is in. -/
def dupInstall (c : Ctx) (t : Table) (source : Nat) (rights : Rights) :
    Table × Except Status Nat :=
  match t.handleLookup c.now source .invalid Rights.dup with
  | (t, .error e) => (t, .error e)
  | (t, .ok src) =>
      if rights ≠ 0 ∧ rights &&& ~~~src.rights ≠ 0 then (t, .error .access)
      else
        t.handleInstallTemporal c.mem src.object src.type
          (if rights ≠ 0 then rights else src.rights) src.toLimits

/-- `copyOut` says whether the result can be written to user memory. -/
def sysHandleDup (c : Ctx) (t : Table) (source : Nat) (rightsMask : Rights) (copyOut : Bool) :
    Table × Except Status Nat :=
  match dupInstall c t source rightsMask with
  | (t, .error e) => (t, .error e)
  | (t, .ok newH) =>
      if copyOut then (t, .ok newH) else ((t.handleRemove newH).1, .error .fault)

/-- Replace installs the new handle before it removes the old one. -/
def sysHandleReplace (c : Ctx) (t : Table) (h : Nat) (rights : Rights) (copyOut : Bool) :
    Table × Except Status Nat :=
  match dupInstall c t h rights with
  | (t, .error e) => (t, .error e)
  | (t, .ok newH) =>
      let t := (t.handleRemove h).1
      if copyOut then (t, .ok newH) else ((t.handleRemove newH).1, .error .fault)

/-! ### Transfer over a channel -/

/-- The description of a looked-up handle that travels in the message; without a
rights array the handle is sent with all its rights. -/
def handleInfo (he : Entry) (userRights : Option Rights) : HandleInfo :=
  { he.toLimits with
    object := he.object, type := he.type
    transferRights := he.rights &&& userRights.getD he.rights }

/-- The lookup loop of a send. -/
def gatherHandles (now : Nat) : Table → List (Nat × Option Rights) →
    Table × Except Status (List HandleInfo)
  | t, [] => (t, .ok [])
  | t, (h, userRights) :: rest =>
      match t.handleLookup now h .invalid Rights.transfer with
      | (t, .error e) => (t, .error e)
      | (t, .ok he) =>
          if (handleInfo he userRights).transferRights = 0 then (t, .error .access)
          else
            match gatherHandles now t rest with
            | (t, .ok infos) => (t, .ok (handleInfo he userRights :: infos))
            | (t, .error e) => (t, .error e)

/-- The handle part of `sys_a20_channel_send`: what the message will carry. -/
def sendHandles (now : Nat) (t : Table) (channel : Nat) (handles : List (Nat × Option Rights)) :
    Table × Except Status (List HandleInfo) :=
  match t.handleLookup now channel .channelEndpoint Rights.write with
  | (t, .error e) => (t, .error e)
  | (t, .ok ep) =>
      if ep.securityLabel < t.securityLabel then (t, .error .access)
      else if maxChannelHandles < handles.length then (t, .error .invalidArgument)
      else gatherHandles now t handles

/-- Drop a list of handles. -/
def removeAll (t : Table) (handles : List Nat) : Table :=
  handles.foldl (fun t h => (t.handleRemove h).1) t

/-- Install the received handles into the reserved slots. On a failure the handles
installed so far are removed and the remaining slots given back. -/
def commitReceived : Table → List Nat → List (Nat × HandleInfo) → Table × Except Status Unit
  | t, _, [] => (t, .ok ())
  | t, installed, (h, info) :: rest =>
      match t.handleCommitReservedTemporal h info.object info.type info.transferRights
          info.toLimits with
      | (t, .error e) =>
          ((removeAll t installed).handleAbortReserved (h :: rest.map Prod.fst), .error e)
      | (t, .ok _) => commitReceived t (installed ++ [h]) rest

/-- The handle part of `sys_a20_channel_recv` for a message that carries `infos`. -/
def recvHandles (c : Ctx) (t : Table) (channel : Nat) (infos : List HandleInfo)
    (copyOut : Bool) : Table × Except Status (List Nat) :=
  match t.handleLookup c.now channel .channelEndpoint Rights.read with
  | (t, .error e) => (t, .error e)
  | (t, .ok ep) =>
      if t.securityLabel < ep.securityLabel then (t, .error .access)
      else
        match t.handleReserveMany c.mem infos.length with
        | (t, .error e) => (t, .error e)
        | (t, .ok reserved) =>
            match commitReceived t [] (reserved.zip infos) with
            | (t, .error e) => (t, .error e)
            | (t, .ok _) =>
                if copyOut then (t, .ok reserved) else (removeAll t reserved, .error .fault)

/-- The source entries of a gather, as its lookups found them. -/
def gatherSources (now : Nat) : Table → List (Nat × Option Rights) → List Entry
  | _, [] => []
  | t, (h, _) :: rest =>
      t.entry h :: gatherSources now (t.handleLookup now h .invalid Rights.transfer).1 rest

/-! ### The handles a task is born with -/

/-- The tables of a parent and of the child it is creating, and the handles the child
was given. -/
structure Birth where
  parent : Table
  child : Table
  made : List Derivation

namespace Birth

/-- Look `h` up in the parent and install what `install` makes of the copy in the
child. A failure of either is skipped over. -/
def inherit (c : Ctx) (b : Birth) (path : Path) (h : Nat) (type : ObjType) (required : Rights)
    (install : Table → Entry → Table × Except Status Nat) : Birth × Option Nat :=
  match b.parent.handleLookup c.now h type required with
  | (parent, .error _) => ({ b with parent }, none)
  | (parent, .ok src) =>
      match install b.child src with
      | (child, .ok slot) =>
          (⟨parent, child, b.made ++ [⟨path, b.parent.entry h, slot⟩]⟩, some slot)
      | (child, .error _) => ({ b with parent, child }, none)

/-- The directory handles: fixed rights, whatever the parent's handle had. -/
def inheritDirectory (c : Ctx) (b : Birth) (path : Path) (rights : Rights) (h : Nat) :
    Birth × Option Nat :=
  b.inherit c path h .directory (Rights.read ||| Rights.stat) fun child src =>
    child.handleInstall c.mem src.object .directory rights

def rootRights : Rights := Rights.read ||| Rights.stat ||| Rights.dup ||| Rights.transfer

def cwdRights : Rights := Rights.read ||| Rights.stat ||| Rights.dup

def inheritRoot (c : Ctx) (b : Birth) (path : Path) (h : Nat) : Birth × Option Nat :=
  b.inheritDirectory c path rootRights h

/-- The null handle means that the parent passes no working directory. -/
def inheritCwd (c : Ctx) (b : Birth) (path : Path) (h : Nat) : Birth × Option Nat :=
  if h = handleNull then (b, none) else b.inheritDirectory c path cwdRights h

def inheritStdio (c : Ctx) (b : Birth) (h : Nat) : Birth × Option Nat :=
  if h = handleNull then (b, none)
  else
    b.inherit c .spawnStdio h .invalid Rights.dup fun child src =>
      child.handleInstall c.mem src.object src.type src.rights

/-- A mask over the rights of the copy; the empty mask asks for all of them. -/
def masked (mask : Rights) (src : Entry) : Rights :=
  if mask ≠ 0 then mask &&& src.rights else src.rights

end Birth

/-- `a20_spawn_handle_t`. -/
structure SpawnHandle where
  handle : Nat
  rights : Rights
  targetSlot : Nat
deriving DecidableEq

/-- `a20_clone_handle_t`, its two inputs. -/
structure CloneHandle where
  parentHandle : Nat
  childRights : Rights
deriving DecidableEq

/-- `A20_NATIVE_FD_HANDLE_BASE`. -/
def nativeFdHandleBase : Nat := 64

/-- The slots that a spawn may choose for the child. -/
def SpawnHandle.targetsFd (sh : SpawnHandle) : Bool :=
  nativeFdHandleBase ≤ sh.targetSlot ∧ sh.targetSlot - nativeFdHandleBase < 1024

namespace Birth

def inheritArray (c : Ctx) (b : Birth) (sh : SpawnHandle) : Birth × Option Nat :=
  b.inherit c .spawnArray sh.handle .invalid Rights.dup fun child src =>
    if masked sh.rights src = 0 then (child, .error .access)
    else if sh.targetsFd then
      child.handleInstallAtTemporal c.mem sh.targetSlot src.object src.type
        (masked sh.rights src) src.toLimits
    else
      child.handleInstallTemporal c.mem src.object src.type (masked sh.rights src) src.toLimits

def inheritManifest (c : Ctx) (b : Birth) (ch : CloneHandle) : Birth × Option Nat :=
  b.inherit c .cloneManifest ch.parentHandle .invalid 0 fun child src =>
    child.handleInstall c.mem src.object src.type (masked ch.childRights src)

/-- Inherit a list of handles in order. -/
def inheritAll {α : Type} (inheritOne : Birth → α → Birth × Option Nat) :
    Birth → List α → Birth × List (Option Nat)
  | b, [] => (b, [])
  | b, a :: as =>
      let first := inheritOne b a
      let rest := inheritAll inheritOne first.1 as
      (rest.1, first.2 :: rest.2)

end Birth

/-! ### Spawn -/

/-- `a20_task_spawn_args_t`, its handles; `handles` is `none` when the array in user
memory cannot be read. -/
structure SpawnArgs where
  image : Nat
  rootDir : Nat
  cwdDir : Nat
  stdinHandle : Nat
  stdoutHandle : Nat
  stderrHandle : Nat
  handles : Option (List SpawnHandle)

/-- What a spawn or clone meets outside the handle tables: whether the image loads and
a task can be made (its pid, or the error), the registry endpoint, and whether the
results and the child's stack can be written. -/
structure Outside where
  task : Except Status Nat
  registryClient : Option Nat
  copyOut : Bool
  stack : Bool

/-- The handles the child finds in its start info. -/
structure StartInfo where
  stdio : List (Option Nat)
  selfTask : Option Nat
  rootDir : Option Nat
  cwdDir : Option Nat
  fdLimit : Nat
  registry : Option Nat

/-- `A20_CLONE_MANIFEST_MAX`, and the cap on the handle array of spawn. -/
def manifestMax : Nat := 64

open Rights in
def selfRights : Rights := wait ||| signal ||| stat ||| control ||| dup ||| transfer

namespace Birth

/-- An install in the child that is not derived from a handle of the parent. -/
def grant (c : Ctx) (b : Birth) (object : Nat) (type : ObjType) (rights : Rights) :
    Birth × Option Nat :=
  match b.child.handleInstall c.mem object type rights with
  | (child, .ok h) => ({ b with child }, some h)
  | (child, .error _) => ({ b with child }, none)

/-- The third directory lookup of spawn, made to copy the path of the directory. -/
def readCwd (c : Ctx) (b : Birth) (h : Nat) : Birth :=
  if h = handleNull then b
  else
    { b with
      parent := (b.parent.handleLookup c.now h .directory (Rights.read ||| Rights.stat)).1 }

/-- The parent's handle to the new task. -/
def parentTask (c : Ctx) (b : Birth) (pid : Nat) (rights : Rights) : Birth × Except Status Nat :=
  let (parent, result) := b.parent.handleInstall c.mem pid .task rights
  ({ b with parent }, result)

/-- The registry endpoint, when there is one. -/
def grantRegistry (c : Ctx) (b : Birth) (client : Option Nat) : Birth × Option Nat :=
  match client with
  | none => (b, none)
  | some object => b.grant c object .channelEndpoint (Rights.read ||| Rights.write)

end Birth

/-- One more than the largest descriptor that an array entry was installed for. -/
def fdLimit (handles : List SpawnHandle) (installed : List (Option Nat)) : Nat :=
  (handles.zip installed).foldl
    (fun limit p =>
      if p.1.targetsFd ∧ p.2.isSome then max limit (p.1.targetSlot - nativeFdHandleBase + 1)
      else limit) 0

/-- The directories and standard streams of a spawn. -/
def spawnStandard (c : Ctx) (b : Birth) (args : SpawnArgs) : Birth × StartInfo :=
  let root := b.inheritRoot c .spawnRoot args.rootDir
  let cwd := root.1.inheritCwd c .spawnCwd args.cwdDir
  let b := cwd.1.readCwd c (if args.cwdDir ≠ handleNull then args.cwdDir else args.rootDir)
  let stdio := Birth.inheritAll (Birth.inheritStdio c) b
    [args.stdinHandle, args.stdoutHandle, args.stderrHandle]
  (stdio.1,
    { stdio := stdio.2, selfTask := none, rootDir := root.2, cwdDir := cwd.2.or root.2
      fdLimit := 0, registry := none })

/-- The handles that do not come from the parent, and the results. -/
def spawnFinish (c : Ctx) (o : Outside) (pid : Nat) (b : Birth) (info : StartInfo) :
    Birth × Except Status (Nat × StartInfo) :=
  let self := b.grant c pid .task selfRights
  match self.1.parentTask c pid (selfRights ||| Rights.admin ||| Rights.read ||| Rights.write) with
  | (b, .error e) => (b, .error e)
  | (b, .ok taskH) =>
      if o.copyOut then
        let registry := b.grantRegistry c o.registryClient
        if o.stack then
          (registry.1, .ok (taskH, { info with selfTask := self.2, registry := registry.2 }))
        else (registry.1, .error .noMemory)
      else ({ b with parent := (b.parent.handleRemove taskH).1 }, .error .fault)

/-- The inherited handles of a spawn, in order; a handle array longer than the cap is
cut off without an error. -/
def spawnHandles (c : Ctx) (o : Outside) (pid : Nat) (b : Birth) (args : SpawnArgs) :
    Birth × Except Status (Nat × StartInfo) :=
  let standard := spawnStandard c b args
  match args.handles with
  | none => (standard.1, .error .fault)
  | some handles =>
      let array := Birth.inheritAll (Birth.inheritArray c) standard.1 (handles.take manifestMax)
      spawnFinish c o pid array.1
        { standard.2 with fdLimit := fdLimit (handles.take manifestMax) array.2 }

def sysTaskSpawn (c : Ctx) (o : Outside) (parent : Table) (args : SpawnArgs) :
    Birth × Except Status (Nat × StartInfo) :=
  match parent.handleLookup c.now args.image .file (Rights.read ||| Rights.exec) with
  | (parent, .error e) => (⟨parent, .create, []⟩, .error e)
  | (parent, .ok _) =>
      match o.task with
      | .error e => (⟨parent, .create, []⟩, .error e)
      | .ok pid => spawnHandles c o pid ⟨parent, .create, []⟩ args

/-! ### Clone -/

/-- `a20_clone_args_t`, its handles; `handles` is `none` when the manifest cannot be
read. -/
structure CloneArgs where
  rootDir : Nat
  cwdDir : Nat
  handleCount : Nat
  handles : Option (List CloneHandle)

/-- The handles a clone reports to the child, the last of them the manifest's. -/
structure CloneInfo where
  outSelf : Option Nat
  outRoot : Option Nat
  outCwd : Option Nat
  childHandles : List (Option Nat)

def cloneHandles (c : Ctx) (pid : Nat) (b : Birth) (args : CloneArgs)
    (manifest : List CloneHandle) : Birth × CloneInfo :=
  let self := b.grant c pid .task selfRights
  let root := self.1.inheritRoot c .cloneRoot args.rootDir
  let cwd := root.1.inheritCwd c .cloneCwd args.cwdDir
  let children := Birth.inheritAll (Birth.inheritManifest c) cwd.1 manifest
  (children.1,
    { outSelf := self.2, outRoot := root.2, outCwd := cwd.2.or root.2
      childHandles := children.2 })

/-- A manifest longer than the cap is refused; one of length 0 is not read. -/
def sysTaskClone (c : Ctx) (o : Outside) (parent : Table) (args : CloneArgs) :
    Birth × Except Status (Nat × CloneInfo) :=
  if manifestMax < args.handleCount then (⟨parent, .create, []⟩, .error .invalidArgument)
  else
    match (if args.handleCount = 0 then some [] else args.handles), o.task with
    | none, _ => (⟨parent, .create, []⟩, .error .fault)
    | some _, .error e => (⟨parent, .create, []⟩, .error e)
    | some manifest, .ok pid =>
        let born := cloneHandles c pid ⟨parent, .create, []⟩ args
          (manifest.take args.handleCount)
        ((born.1.parentTask c pid (selfRights ||| Rights.admin)).1, .ok (pid, born.2))

end A20OS.Handle
