import A20OS.Errno
import A20OS.Lib.Machine
import A20OS.Object

/-!
Event queues and their watches (`kernel/ipc/a20_event.c`).

The entry of a watch is on the list of its queue, and a node in a global hash table leads from
the watched object to it. Every operation changes both under two locks and is one step. The
release of a queue is not: it removes the watches on the queue, takes the queue's own list, and
then removes the nodes of that list one by one, with other operations in between.

Entries and queues are named by numbers that are never used again. Ring buffers and waiters are
left out.
-/

namespace A20OS.Event

open Lib Function

/-! ### Data -/

/-- `a20_obj_watch_node_t`. -/
structure Node where
  object : Nat
  entry : Nat
deriving DecidableEq

/-- `a20_watch_entry_t`. -/
structure WatchEntry where
  targetHandle : Nat := 0
  targetObject : Nat := 0
  targetType : ObjType := .invalid
  flags : BitVec 16 := 0
  eventMask : BitVec 64 := 0
  userData : BitVec 64 := 0
  ownerQueue : Nat := 0
deriving DecidableEq

/-- How far the release of a queue has come: not begun, the watches on the queue are
gone, and the queue's own watches are taken from it, with those still to detach. -/
inductive Phase where
  | live | purged | stolen (rest : List Nat)
deriving DecidableEq

/-- The watches of `a20_eventq_t`. -/
structure EventQueue where
  watches : List Nat := []
  watchCount : Nat := 0
  phase : Phase := .live
deriving DecidableEq

/-- The entries that a release still has to detach. -/
def EventQueue.stolen (qu : EventQueue) : List Nat :=
  match qu.phase with
  | .stolen rest => rest
  | .live | .purged => []

/-- The hash table, the watch entries, the queues, and what has been destroyed: objects
with the type they are watched under, and queues. -/
structure EventSys where
  buckets : Nat → List Node := fun _ => []
  entry : Nat → WatchEntry := fun _ => {}
  nextEntry : Nat := 0
  queues : Nat → Option EventQueue := fun _ => none
  destroyed : List (Nat × ObjType) := []
  freed : List Nat := []

/-- `evq_hash_ptr`. -/
def evqHashPtr (object : Nat) : Nat := ((object >>> 4) ^^^ (object >>> 16)) &&& 255

/-- The arguments of a watch. -/
structure WatchArgs where
  handle : Nat
  object : Nat
  type : ObjType
  eventMask : BitVec 64
  userData : BitVec 64
  flags : BitVec 16

namespace EventSys

/-! ### The hash table and the lists -/

/-- `evq_hash_insert_locked`. -/
def hashInsert (s : EventSys) (object e : Nat) : EventSys :=
  { s with
    buckets := update s.buckets (evqHashPtr object)
      (⟨object, e⟩ :: s.buckets (evqHashPtr object)) }

/-- `evq_hash_remove_locked`: the first node of the entry in the object's bucket. -/
def hashRemove (s : EventSys) (object e : Nat) : EventSys :=
  { s with
    buckets := update s.buckets (evqHashPtr object)
      ((s.buckets (evqHashPtr object)).eraseP fun n => n.entry = e) }

def setQueue (s : EventSys) (q : Nat) (qu : EventQueue) : EventSys :=
  { s with queues := update s.queues q (some qu) }

end EventSys

/-- Take an entry off the list, if it is there. -/
def EventQueue.unlink (qu : EventQueue) (e : Nat) : EventQueue :=
  if e ∈ qu.watches then
    { qu with watches := qu.watches.erase e, watchCount := qu.watchCount - 1 }
  else qu

namespace EventSys

variable (s : EventSys)

/-- A new entry goes into the table and to the front of the list. -/
def link (q : Nat) (qu : EventQueue) (entry : WatchEntry) : EventSys :=
  (({ s with
    nextEntry := s.nextEntry + 1
    entry := update s.entry s.nextEntry entry } : EventSys).hashInsert
      entry.targetObject s.nextEntry).setQueue q
        { qu with watches := s.nextEntry :: qu.watches, watchCount := qu.watchCount + 1 }

/-! ### Operations -/

def eventqWatch (mem : Bool) (q : Nat) (qu : EventQueue) (a : WatchArgs) :
    EventSys × Except Status Unit :=
  if a.object = 0 then (s, .error .invalidArgument)
  else if ¬mem then (s, .error .noMemory)
  else
    match qu.watches.find? fun e =>
        (s.entry e).targetObject = a.object ∧ (s.entry e).targetType = a.type with
    | some old =>
        -- The object is watched already: the entry keeps its handle and its flags.
        ({ s with
          entry := update s.entry old
            { s.entry old with eventMask := a.eventMask, userData := a.userData } }, .ok ())
    | none =>
        (s.link q qu
          { targetHandle := a.handle, targetObject := a.object, targetType := a.type
            flags := a.flags, eventMask := a.eventMask, userData := a.userData
            ownerQueue := q }, .ok ())

def eventqCancel (q : Nat) (qu : EventQueue) (h : Nat) : EventSys × Except Status Unit :=
  match qu.watches.find? fun e => (s.entry e).targetHandle = h with
  | some e => ((s.setQueue q (qu.unlink e)).hashRemove (s.entry e).targetObject e, .ok ())
  | none => (s, .error .notFound)

/-- The node leads to a watch of the object under the type. -/
def watchesObject (object : Nat) (type : ObjType) (n : Node) : Bool :=
  n.object = object ∧ (s.entry n.entry).targetType = type

/-- The body of the loop in `a20_eventq_on_object_destroy`: the node goes, and its entry
leaves the list of its owner. -/
def dropNode (n : Node) : EventSys :=
  match s.queues (s.entry n.entry).ownerQueue with
  | some qu =>
      (s.hashRemove n.object n.entry).setQueue (s.entry n.entry).ownerQueue (qu.unlink n.entry)
  | none => s.hashRemove n.object n.entry

def eventqOnObjectDestroy (object : Nat) (type : ObjType) : EventSys :=
  ((s.buckets (evqHashPtr object)).filter (s.watchesObject object type)).foldl dropNode s

/-- The types of objects whose destruction calls `a20_eventq_on_object_destroy`. -/
def purges : ObjType → Bool
  | .task | .file | .directory | .socket | .pipeEndpoint | .channelEndpoint | .eventQueue
  | .timer | .memory | .device | .ns => true
  | .invalid | .thread | .debug | .extProg | .pager | .monitor | .vmar => false

/-! ### Steps -/

inductive Label where
  | create (q : Nat)
  | watch (mem : Bool) (q : Nat) (a : WatchArgs)
  | cancel (q h : Nat)
  | destroy (object : Nat) (type : ObjType)
  | release (q : Nat)
  | steal (q : Nat)
  | detach (q : Nat)
  | free (q : Nat)

/-- Watches and cancels are made by holders of a reference to the queue; `release` is the
end of the last reference. -/
def step : Label → Option EventSys
  | .create q =>
      if s.queues q = none ∧ q ∉ s.freed then some (s.setQueue q {}) else none
  | .watch mem q a =>
      match s.queues q with
      | some qu => if qu.phase = .live then some (s.eventqWatch mem q qu a).1 else none
      | none => none
  | .cancel q h =>
      match s.queues q with
      | some qu => if qu.phase = .live then some (s.eventqCancel q qu h).1 else none
      | none => none
  | .destroy object type =>
      let s := if purges type then s.eventqOnObjectDestroy object type else s
      some { s with destroyed := (object, type) :: s.destroyed }
  | .release q =>
      match s.queues q with
      | some qu =>
          if qu.phase = .live then
            let s := (s.setQueue q { qu with phase := .purged }).eventqOnObjectDestroy q .eventQueue
            some { s with destroyed := (q, .eventQueue) :: s.destroyed }
          else none
      | none => none
  | .steal q =>
      match s.queues q with
      | some qu =>
          if qu.phase = .purged then
            some (s.setQueue q { watches := [], watchCount := 0, phase := .stolen qu.watches })
          else none
      | none => none
  | .detach q =>
      match s.queues q with
      | some qu =>
          match qu.phase with
          | .stolen (e :: rest) =>
              some ((s.setQueue q { qu with phase := .stolen rest }).hashRemove
                (s.entry e).targetObject e)
          | _ => none
      | none => none
  | .free q =>
      match s.queues q with
      | some qu =>
          if qu.phase = .stolen [] then
            some { s with queues := update s.queues q none, freed := q :: s.freed }
          else none
      | none => none

end EventSys

end A20OS.Event
