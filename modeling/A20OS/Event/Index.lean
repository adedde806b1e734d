import A20OS.Event.Queue
import Mathlib.Data.List.Nodup

/-!
The hash table and the queues' lists agree.

A node leads to an entry on the list of its owner, under the object the entry is for, and every
listed entry has its one node (`Inv`). A fresh entry is linked into both structures, an entry
is unlinked from both, or the entries of a dying queue are handed to its release.

A node outlives its object when the destruction does not call `a20_eventq_on_object_destroy`
(pagers, address regions, monitors, threads, debug handles and extension programs), and when a
watch is made through a handle of a task that is gone. Other runs keep every node on a live object.
-/

namespace A20OS.Event

open Lib Function List

/-- All entries of the queue: on its list, or still to be detached by its release. -/
def EventQueue.holds (qu : EventQueue) : List Nat := qu.watches ++ qu.stolen

namespace EventSys

variable {qu : EventQueue} {s s' : EventSys} {e q object i : Nat} {n : Node} {a : Label}

/-- The owner of a watch entry. -/
abbrev owner (s : EventSys) (e : Nat) : Nat := (s.entry e).ownerQueue

/-- The object of a watch entry. -/
abbrev target (s : EventSys) (e : Nat) : Nat := (s.entry e).targetObject

/-- What holds of one queue: the entries on its list have their nodes and are its own, and
they are counted. -/
structure QueueOk (s : EventSys) (q : Nat) (qu : EventQueue) : Prop where
  listed : ∀ e ∈ qu.watches, ⟨s.target e, e⟩ ∈ s.buckets (evqHashPtr (s.target e))
  held : ∀ e ∈ qu.holds, s.owner e = q ∧ e < s.nextEntry
  distinct : qu.watches.Nodup
  counted : qu.watchCount = qu.watches.length
  emptied : ∀ rest, qu.phase = .stolen rest → qu.watches = []

/-- Every node is in its bucket and leads to an entry that its owner holds, no entry has
two nodes, and every queue is in order. -/
structure Inv (s : EventSys) : Prop where
  placed : ∀ {i n}, n ∈ s.buckets i → i = evqHashPtr n.object ∧ n.object = s.target n.entry
  once : ∀ i, ((s.buckets i).map Node.entry).Nodup
  owned : ∀ {i n}, n ∈ s.buckets i → ∃ qu, s.queues (s.owner n.entry) = some qu ∧ n.entry ∈ qu.holds
  queue : ∀ {q qu}, s.queues q = some qu → QueueOk s q qu
  gone : ∀ q ∈ s.freed, s.queues q = none

theorem init_inv : Inv {} := ⟨nofun, fun _ => nodup_nil, nofun, nofun, nofun⟩

/-! ### Looking things up after a change -/

theorem queues_setQueue (p : Nat) :
    (s.setQueue q qu).queues p = if p = q then some qu else s.queues p :=
  update_apply ..

theorem mem_eraseP_entry {l : List Node} (once : (l.map Node.entry).Nodup) (e : Nat) (n : Node) :
    n ∈ l.eraseP (fun m => m.entry = e) ↔ n ∈ l ∧ n.entry ≠ e := by
  constructor
  · intro kept
    have member := mem_of_mem_eraseP kept
    refine ⟨member, fun here => ?_⟩
    obtain ⟨m, before, after, -, first, rfl, erased⟩ :=
      exists_of_eraseP (p := fun m : Node => m.entry = e) member (decide_eq_true here)
    -- No other node is for the entry.
    rw [map_append, map_cons, nodup_middle, ← map_append] at once
    rw [erased] at kept
    exact (nodup_cons.mp once).1
      (mem_map.mpr ⟨n, kept, here.trans (of_decide_eq_true first).symm⟩)
  · rintro ⟨member, other⟩
    exact (mem_eraseP_of_neg (by simpa using other)).mpr member

theorem Inv.mem_hashRemove (inv : s.Inv) (e : Nat) (i : Nat) (n : Node) :
    n ∈ (s.hashRemove (s.target e) e).buckets i ↔ n ∈ s.buckets i ∧ n.entry ≠ e := by
  unfold hashRemove
  by_cases here : i = evqHashPtr (s.target e)
  · subst here
    dsimp only
    rw [update_self]
    exact mem_eraseP_entry (inv.once _) e n
  dsimp only
  rw [update_of_ne here]
  constructor
  · intro member
    refine ⟨member, fun same => here ?_⟩
    obtain ⟨place, object⟩ := inv.placed member
    rw [place, object, same]
  · exact And.left

theorem Inv.once_hashRemove (inv : s.Inv) (object e i : Nat) :
    (((s.hashRemove object e).buckets i).map Node.entry).Nodup :=
  (forall_update_iff s.buckets fun _ l => (l.map Node.entry).Nodup).mpr
    ⟨(inv.once _).sublist (eraseP_sublist.map _), fun i _ => inv.once i⟩ i

theorem mem_unlink (distinct : qu.watches.Nodup) (e j : Nat) :
    j ∈ (qu.unlink e).watches ↔ j ∈ qu.watches ∧ j ≠ e := by
  unfold EventQueue.unlink
  by_cases listed : e ∈ qu.watches
  · rw [if_pos listed]
    exact distinct.mem_erase_iff.trans and_comm
  · rw [if_neg listed]
    exact ⟨fun member => ⟨member, fun same => listed (same ▸ member)⟩, And.left⟩

theorem stolen_unlink : (qu.unlink e).stolen = qu.stolen := by
  unfold EventQueue.unlink
  split <;> rfl

theorem phase_unlink : (qu.unlink e).phase = qu.phase := by
  unfold EventQueue.unlink
  split <;> rfl

/-! ### The moves -/

/-- A queue is not affected by a change that leaves its entries and their nodes alone. -/
theorem QueueOk.frame (ok : QueueOk s q qu)
    (entry : ∀ e ∈ qu.holds, s'.target e = s.target e ∧ s'.owner e = s.owner e)
    (later : s.nextEntry ≤ s'.nextEntry)
    (nodes : ∀ e ∈ qu.watches, ∀ {i n}, n.entry = e → n ∈ s.buckets i → n ∈ s'.buckets i) :
    QueueOk s' q qu := by
  refine { ok with listed := fun e listed => ?_, held := fun e holding => ?_ }
  · rw [(entry e (mem_append_left _ listed)).1]
    exact nodes e listed rfl (ok.listed e listed)
  · obtain ⟨owner, below⟩ := ok.held e holding
    exact ⟨(entry e holding).2.trans owner, lt_of_lt_of_le below later⟩

section
variable (inv : s.Inv)
include inv

/-- A queue is replaced. The other queues keep their entries, so that what is left to show
is about this one and about the nodes. -/
theorem Inv.setQueue
    (live : q ∉ s.freed) (ok : QueueOk (s'.setQueue q qu) q qu)
    (others : ∀ {p qu'}, p ≠ q → s.queues p = some qu' → QueueOk (s'.setQueue q qu) p qu')
    (placed : ∀ {i n}, n ∈ s'.buckets i → i = evqHashPtr n.object ∧ n.object = s'.target n.entry)
    (once : ∀ i, ((s'.buckets i).map Node.entry).Nodup)
    (mine : ∀ {i n}, n ∈ s'.buckets i → s'.owner n.entry = q → n.entry ∈ qu.holds)
    (theirs : ∀ {i n}, n ∈ s'.buckets i → s'.owner n.entry ≠ q →
      ∃ qu', s.queues (s'.owner n.entry) = some qu' ∧ n.entry ∈ qu'.holds)
    (queues : s'.queues = s.queues) (freed : s'.freed = s.freed) :
    Inv (s'.setQueue q qu) := by
  refine ⟨placed, once, ?_, ?_, ?_⟩
  · intro i n member
    rw [queues_setQueue, queues]
    by_cases same : s'.owner n.entry = q
    · exact ⟨qu, if_pos same, mine member same⟩
    · obtain ⟨qu', found, holding⟩ := theirs member same
      exact ⟨qu', (if_neg same).trans found, holding⟩
  · intro p qu' found
    rw [queues_setQueue, queues] at found
    obtain ⟨same, ⟨⟩⟩ | ⟨same, found⟩ := ite_eq_iff.mp found
    · exact same ▸ ok
    · exact others same found
  · intro p member
    change p ∈ s'.freed at member
    rw [freed] at member
    have other : p ≠ q := fun same => live (same ▸ member)
    rw [queues_setQueue, queues, if_neg other]
    exact inv.gone p member

section
variable (found : s.queues q = some qu)
include found

theorem Inv.not_freed : q ∉ s.freed := by
  intro member
  rw [inv.gone q member] at found
  cases found

theorem Inv.holding (member : n ∈ s.buckets i) (same : s.owner n.entry = q) :
    n.entry ∈ qu.holds := by
  obtain ⟨pu, found', holding⟩ := inv.owned member
  rw [same, found] at found'
  cases found'
  exact holding

variable {qu' : EventQueue}

/-- An entry of the queue loses its node, and the queue holds the others. -/
theorem Inv.dropEntry (owner : s.owner e = q)
    (watches : ∀ j, j ∈ qu'.watches ↔ j ∈ qu.watches ∧ j ≠ e)
    (kept : ∀ j ∈ qu.holds, j ≠ e → j ∈ qu'.holds) (fewer : ∀ j ∈ qu'.holds, j ∈ qu.holds)
    (distinct : qu'.watches.Nodup) (counted : qu'.watchCount = qu'.watches.length)
    (emptied : ∀ rest, qu'.phase = .stolen rest → qu'.watches = []) :
    Inv ((s.hashRemove (s.target e) e).setQueue q qu') := by
  have nodes := inv.mem_hashRemove e
  have ok := inv.queue found
  refine inv.setQueue (inv.not_freed found) ⟨?_, fun j holding => ok.held j (fewer j holding),
    distinct, counted, emptied⟩ ?_ ?_ (inv.once_hashRemove _ _) ?_ ?_ rfl rfl
  · intro j listed
    obtain ⟨listed, other⟩ := (watches j).mp listed
    exact (nodes _ _).mpr ⟨ok.listed j listed, other⟩
  · intro p pu other found'
    refine (inv.queue found').frame (fun _ _ => ⟨rfl, rfl⟩) le_rfl ?_
    intro j listed i n same member
    refine (nodes i n).mpr ⟨member, fun here => other ?_⟩
    rw [← ((inv.queue found').held j (mem_append_left _ listed)).1, ← same, here, owner]
  · exact fun member => inv.placed ((nodes _ _).mp member).1
  · intro i n member same
    obtain ⟨member, other⟩ := (nodes i n).mp member
    exact kept _ (inv.holding found member same) other
  · exact fun member _ => inv.owned ((nodes _ _).mp member).1

theorem Inv.unlink (owner : s.owner e = q) :
    Inv ((s.hashRemove (s.target e) e).setQueue q (qu.unlink e)) := by
  have ok := inv.queue found
  have watches := mem_unlink ok.distinct e
  have holds (j : Nat) : j ∈ (qu.unlink e).holds ↔ j ∈ qu.watches ∧ j ≠ e ∨ j ∈ qu.stolen := by
    rw [EventQueue.holds, stolen_unlink, mem_append, watches]
  refine inv.dropEntry found owner watches ?_ ?_ ?_ ?_ ?_
  · intro j holding other
    rw [EventQueue.holds, mem_append] at holding
    exact (holds j).mpr (holding.imp (fun listed => ⟨listed, other⟩) id)
  · intro j holding
    rw [EventQueue.holds, mem_append]
    exact ((holds j).mp holding).imp And.left id
  · unfold EventQueue.unlink
    split
    · exact ok.distinct.erase e
    · exact ok.distinct
  · unfold EventQueue.unlink
    split
    · next listed =>
      rw [ok.counted, length_erase_of_mem listed]
    · exact ok.counted
  · intro rest phase
    have none : qu.watches = [] := ok.emptied rest (by rw [← phase_unlink (e := e)]; exact phase)
    rw [eq_nil_iff_forall_not_mem]
    intro j listed
    have old := ((watches j).mp listed).1
    rw [none] at old
    cases old

/-- Steps that change no node and no entry replace one queue. -/
theorem Inv.requeue (fewer : ∀ e ∈ qu'.watches, e ∈ qu.watches)
    (holds : ∀ e, e ∈ qu'.holds ↔ e ∈ qu.holds) (distinct : qu'.watches.Nodup)
    (counted : qu'.watchCount = qu'.watches.length)
    (emptied : ∀ rest, qu'.phase = .stolen rest → qu'.watches = []) : Inv (s.setQueue q qu') := by
  have ok := inv.queue found
  refine inv.setQueue (inv.not_freed found) ⟨fun e listed => ok.listed e (fewer e listed),
    fun e holding => ok.held e ((holds e).mp holding), distinct, counted, emptied⟩ ?_ inv.placed
      inv.once ?_
    (fun member _ => inv.owned member) rfl rfl
  · exact fun _ found' => { inv.queue found' with }
  · exact fun member same => (holds _).mpr (inv.holding found member same)

end

/-! ### The steps -/

theorem Inv.create (unused : s.queues q = none) (fresh : q ∉ s.freed) : Inv (s.setQueue q {}) := by
  refine inv.setQueue fresh ⟨nofun, nofun, nodup_nil, rfl, fun _ _ => rfl⟩ ?_ inv.placed inv.once ?_
    (fun member _ => inv.owned member) rfl rfl
  · exact fun _ found => { inv.queue found with }
  · intro i n member same
    obtain ⟨qu', found, -⟩ := inv.owned member
    rw [same, unused] at found
    cases found

/-- Entries are written that no queue holds, or only in what they ask for. -/
theorem Inv.rewatch {entry : Nat → WatchEntry} {nextEntry : Nat}
    (same : ∀ {q qu}, s.queues q = some qu → ∀ e ∈ qu.holds,
      (entry e).targetObject = s.target e ∧ (entry e).ownerQueue = s.owner e)
    (later : s.nextEntry ≤ nextEntry) : Inv { s with entry, nextEntry } := by
  have atNode {i : Nat} {n : Node} (member : n ∈ s.buckets i) :
      (entry n.entry).targetObject = s.target n.entry ∧
        (entry n.entry).ownerQueue = s.owner n.entry := by
    obtain ⟨qu, found, holding⟩ := inv.owned member
    exact same found _ holding
  refine ⟨?_, inv.once, ?_, ?_, inv.gone⟩
  · intro i n member
    obtain ⟨place, object⟩ := inv.placed member
    exact ⟨place, object.trans (atNode member).1.symm⟩
  · intro i n member
    obtain ⟨qu, found, holding⟩ := inv.owned member
    exact ⟨qu, by rw [← found]; exact congrArg s.queues (atNode member).2, holding⟩
  · intro q qu found
    exact (inv.queue found).frame (same found) later fun _ _ _ _ _ member => member

omit inv in
theorem mem_hashInsert (s : EventSys) (object e i : Nat) (n : Node) :
    n ∈ (s.hashInsert object e).buckets i ↔
      (n = ⟨object, e⟩ ∧ i = evqHashPtr object) ∨ n ∈ s.buckets i := by
  unfold hashInsert
  by_cases here : i = evqHashPtr object
  · subst here
    dsimp only
    simp
  · dsimp only
    simp [here]

theorem Inv.once_hashInsert (fresh : ∀ {i n}, n ∈ s.buckets i → n.entry ≠ e) (i : Nat) :
    (((s.hashInsert object e).buckets i).map Node.entry).Nodup := by
  refine (forall_update_iff s.buckets fun _ l => (l.map Node.entry).Nodup).mpr
    ⟨?_, fun i _ => inv.once i⟩ i
  rw [map_cons, nodup_cons]
  refine ⟨fun again => ?_, inv.once _⟩
  obtain ⟨n, member, same⟩ := mem_map.mp again
  exact fresh member same

/-- An entry that nobody holds gets its node, and its owner gets the entry. -/
theorem Inv.insert (found : s.queues q = some qu) (live : qu.phase = .live) (owner : s.owner e = q)
    (below : e < s.nextEntry) (unheld : ∀ {p pu}, s.queues p = some pu → e ∉ pu.holds) :
    Inv ((s.hashInsert (s.target e) e).setQueue q
      { qu with watches := e :: qu.watches, watchCount := qu.watchCount + 1 }) := by
  have ok := inv.queue found
  have nodes := mem_hashInsert s (s.target e) e
  have fresh {i : Nat} {n : Node} (member : n ∈ s.buckets i) : n.entry ≠ e := by
    obtain ⟨pu, found', holding⟩ := inv.owned member
    rintro rfl
    exact unheld found' holding
  refine inv.setQueue (inv.not_freed found) ⟨?_, ?_, ?_, congrArg (· + 1) ok.counted, ?_⟩ ?_ ?_
    (inv.once_hashInsert fresh) ?_ ?_ rfl rfl
  · exact forall_mem_cons.mpr ⟨(nodes _ _).mpr (.inl ⟨rfl, rfl⟩),
      fun j listed => (nodes _ _).mpr (.inr (ok.listed j listed))⟩
  · exact forall_mem_cons.mpr ⟨⟨owner, below⟩, ok.held⟩
  · refine nodup_cons.mpr ⟨fun again => ?_, ok.distinct⟩
    exact unheld found (mem_append_left _ again)
  · intro rest phase
    rw [live] at phase
    cases phase
  · intro p pu other found'
    refine (inv.queue found').frame (fun _ _ => ⟨rfl, rfl⟩) le_rfl ?_
    exact fun _ _ _ _ _ member => (nodes _ _).mpr (.inr member)
  · intro i n member
    rcases (nodes i n).mp member with ⟨rfl, here⟩ | old
    · exact ⟨here, rfl⟩
    · exact inv.placed old
  · intro i n member same
    rcases (nodes i n).mp member with ⟨rfl, -⟩ | old
    · exact .head _
    · exact .tail _ (inv.holding found old same)
  · intro i n member other
    rcases (nodes i n).mp member with ⟨rfl, -⟩ | old
    · exact absurd owner other
    · exact inv.owned old

/-- A fresh entry is linked into the list of its owner and into the table. -/
theorem Inv.link (found : s.queues q = some qu) (live : qu.phase = .live) {entry : WatchEntry}
    (owner : entry.ownerQueue = q) : Inv (s.link q qu entry) := by
  have newest : update s.entry s.nextEntry entry s.nextEntry = entry :=
    update_self _ _ _
  -- whatever is held has an older number than the new entry
  have allocated : Inv { s with
      entry := update s.entry s.nextEntry entry
      nextEntry := s.nextEntry + 1 } := by
    refine inv.rewatch (fun found' e holding => ?_) (Nat.le_succ _)
    rw [update_of_ne (Nat.ne_of_lt ((inv.queue found').held e holding).2)]
    exact ⟨rfl, rfl⟩
  have linked := allocated.insert (e := s.nextEntry) found live
    ((congrArg WatchEntry.ownerQueue newest).trans owner) (Nat.lt_succ_self _)
    fun found' holding => lt_irrefl _ ((inv.queue found').held _ holding).2
  rw [show target _ s.nextEntry = entry.targetObject from
    congrArg WatchEntry.targetObject newest] at linked
  exact linked

end

/-! ### Destroying an object -/

/-- The nodes of a list are in order: their objects are those of their entries, and their
owners exist. -/
def Rooted (s : EventSys) (ns : List Node) : Prop :=
  ∀ n ∈ ns, n.object = s.target n.entry ∧ ∃ qu, s.queues (s.owner n.entry) = some qu

/-- What dropping nodes changes: entries stay as they are, and the table loses the nodes. -/
structure Dropped (s s' : EventSys) (ns : List Node) : Prop where
  inv : s'.Inv
  entry : s'.entry = s.entry
  destroyed : s'.destroyed = s.destroyed
  nodes : ∀ i n, n ∈ s'.buckets i ↔ n ∈ s.buckets i ∧ n.entry ∉ ns.map Node.entry

section
variable (inv : s.Inv)
include inv

theorem dropNode_dropped (object : n.object = s.target n.entry)
    (found : s.queues (s.owner n.entry) = some qu) :
    Dropped s (s.dropNode n) [n] ∧
      ∀ p, (s.queues p).isSome → ((s.dropNode n).queues p).isSome := by
  have dropped : s.dropNode n =
      (s.hashRemove (s.target n.entry) n.entry).setQueue (s.owner n.entry) (qu.unlink n.entry) := by
    unfold dropNode
    rw [found, object]
  rw [dropped]
  refine ⟨⟨inv.unlink found rfl, rfl, rfl, fun i m => ?_⟩, fun p some => ?_⟩
  · rw [map_singleton, mem_singleton]
    exact inv.mem_hashRemove n.entry i m
  · rw [queues_setQueue]
    split
    · rfl
    · exact some

omit inv in
theorem foldl_dropNode (ns : List Node) : ∀ {s : EventSys}, s.Inv → Rooted s ns →
    Dropped s (ns.foldl dropNode s) ns := by
  induction ns with
  | nil => exact fun inv _ => ⟨inv, rfl, rfl, fun i n => by simp⟩
  | cons n ns ih =>
    intro s inv rooted
    obtain ⟨object, qu, found⟩ := rooted n (.head _)
    obtain ⟨first, kept⟩ := dropNode_dropped inv object found
    have rest := ih first.inv (fun m member => by
      obtain ⟨object', qu', found'⟩ := rooted m (.tail _ member)
      unfold target owner
      rw [first.entry]
      exact ⟨object', Option.isSome_iff_exists.mp (kept _ (by rw [found']; rfl))⟩)
    refine ⟨rest.inv, rest.entry.trans first.entry, rest.destroyed.trans first.destroyed,
      fun i m => ?_⟩
    rw [foldl_cons, rest.nodes, first.nodes]
    simp only [map_cons, map_nil, mem_cons, not_mem_nil, or_false, not_or]
    exact and_assoc

theorem Inv.onObjectDestroy (object : Nat) (type : ObjType) :
    Dropped s (s.eventqOnObjectDestroy object type)
      ((s.buckets (evqHashPtr object)).filter (s.watchesObject object type)) := by
  refine foldl_dropNode _ inv fun n member => ?_
  have inside := (mem_filter.mp member).1
  obtain ⟨qu, found, -⟩ := inv.owned inside
  exact ⟨(inv.placed inside).2, qu, found⟩

/-- The table has no node for the object left. -/
theorem Inv.onObjectDestroy_gone (object : Nat) (type : ObjType)
    (member : n ∈ (s.eventqOnObjectDestroy object type).buckets i) :
    s.watchesObject object type n = false := by
  obtain ⟨inside, kept⟩ := ((inv.onObjectDestroy object type).nodes i n).mp member
  rw [Bool.eq_false_iff]
  intro watched
  refine kept (mem_map.mpr ⟨n, mem_filter.mpr ⟨?_, watched⟩, rfl⟩)
  have here : n.object = object := (of_decide_eq_true watched).1
  rw [← here, ← (inv.placed inside).1]
  exact inside

/-! ### Runs -/

section
variable (found : s.queues q = some qu)
include found

theorem Inv.watch (live : qu.phase = .live) (mem : Bool) (a : WatchArgs) :
    Inv (s.eventqWatch mem q qu a).1 := by
  unfold eventqWatch
  by_cases null : a.object = 0
  · rw [if_pos null]
    exact inv
  rw [if_neg null]
  by_cases failed : ¬mem = true
  · rw [if_pos failed]
    exact inv
  rw [if_neg failed]
  split
  · next old _ =>
    refine inv.rewatch (fun _ e _ => ?_) le_rfl
    by_cases here : e = old
    · subst here
      rw [update_self]
      exact ⟨rfl, rfl⟩
    · rw [update_of_ne here]
      exact ⟨rfl, rfl⟩
  · exact inv.link found live rfl

theorem Inv.cancel (h : Nat) : Inv (s.eventqCancel q qu h).1 := by
  unfold eventqCancel
  split
  · next e hit =>
    have listed := mem_of_find?_eq_some hit
    exact inv.unlink found ((inv.queue found).held e (mem_append_left _ listed)).1
  · exact inv

omit found in
theorem Inv.setDestroyed (destroyed : List (Nat × ObjType)) : Inv { s with destroyed } :=
  { inv with queue := fun found => { inv.queue found with } }

/-- The release of a queue begins: its phase changes and nothing else does. -/
theorem Inv.purged (live : qu.phase = .live) : Inv (s.setQueue q { qu with phase := .purged }) := by
  have ok := inv.queue found
  refine inv.requeue found (fun _ listed => listed) (fun e => ?_) ok.distinct ok.counted
    nofun
  unfold EventQueue.holds EventQueue.stolen
  rw [live]

theorem Inv.steal (purged : qu.phase = .purged) :
    Inv (s.setQueue q { watches := [], watchCount := 0, phase := .stolen qu.watches }) := by
  refine inv.requeue found nofun (fun e => ?_) nodup_nil rfl
    fun _ _ => rfl
  unfold EventQueue.holds EventQueue.stolen
  rw [purged, append_nil]
  rfl

theorem Inv.detach {rest : List Nat} (stolen : qu.phase = .stolen (e :: rest)) :
    Inv ((s.setQueue q { qu with phase := .stolen rest }).hashRemove (s.target e) e) := by
  have ok := inv.queue found
  have none := ok.emptied _ stolen
  have holds : qu.holds = e :: rest := by
    unfold EventQueue.holds EventQueue.stolen
    rw [none, stolen]
    rfl
  have holds' : ({ qu with phase := .stolen rest } : EventQueue).holds = rest := by
    rw [none]
    rfl
  refine inv.dropEntry found (ok.held e (by rw [holds]; exact .head _)).1 ?_ ?_ ?_
    ok.distinct ok.counted fun _ _ => none
  · intro j
    rw [none]
    simp
  · intro j holding other
    rw [holds] at holding
    rw [holds']
    exact (mem_cons.mp holding).resolve_left other
  · intro j holding
    rw [holds'] at holding
    rw [holds]
    exact .tail _ holding

theorem Inv.free (done : qu.phase = .stolen []) :
    Inv { s with queues := update s.queues q none, freed := q :: s.freed } := by
  have queues := update_apply s.queues q none
  refine ⟨inv.placed, inv.once, ?_, ?_, ?_⟩
  · intro i n member
    obtain ⟨pu, found', holding⟩ := inv.owned member
    refine ⟨pu, (queues _).trans ?_, holding⟩
    rw [if_neg, found']
    -- The queue holds no entry any more.
    intro same
    have holding := inv.holding found member same
    rw [EventQueue.holds, (inv.queue found).emptied _ done, EventQueue.stolen, done] at holding
    cases holding
  · intro p pu found'
    change update s.queues q none p = some pu at found'
    rw [queues] at found'
    by_cases same : p = q
    · rw [if_pos same] at found'
      cases found'
    · rw [if_neg same] at found'
      exact { inv.queue found' with }
  · intro p member
    refine (queues p).trans ?_
    rcases mem_cons.mp member with same | earlier
    · exact if_pos same
    · split
      · rfl
      · exact inv.gone p earlier

end

end

/-- What the steps find, and what they do. -/
inductive Stepped (s : EventSys) : Label → EventSys → Prop
  | create {q : Nat} (unused : s.queues q = none) (fresh : q ∉ s.freed) :
      Stepped s (.create q) (s.setQueue q {})
  | watch {mem : Bool} {q : Nat} {a : WatchArgs} {qu : EventQueue}
      (found : s.queues q = some qu) (live : qu.phase = .live) :
      Stepped s (.watch mem q a) (s.eventqWatch mem q qu a).1
  | cancel {q h : Nat} {qu : EventQueue} (found : s.queues q = some qu) :
      Stepped s (.cancel q h) (s.eventqCancel q qu h).1
  | purge {object : Nat} {type : ObjType} (purged : purges type = true) :
      Stepped s (.destroy object type)
        { s.eventqOnObjectDestroy object type with
          destroyed := (object, type) :: (s.eventqOnObjectDestroy object type).destroyed }
  | destroy {object : Nat} {type : ObjType} (silent : purges type = false) :
      Stepped s (.destroy object type) { s with destroyed := (object, type) :: s.destroyed }
  | release {q : Nat} {qu : EventQueue} {t : EventSys} (found : s.queues q = some qu)
      (live : qu.phase = .live) (closing : t = s.setQueue q { qu with phase := .purged }) :
      Stepped s (.release q)
        { t.eventqOnObjectDestroy q .eventQueue with
          destroyed := (q, .eventQueue) :: (t.eventqOnObjectDestroy q .eventQueue).destroyed }
  | steal {q : Nat} {qu : EventQueue} (found : s.queues q = some qu)
      (purged : qu.phase = .purged) :
      Stepped s (.steal q)
        (s.setQueue q { watches := [], watchCount := 0, phase := .stolen qu.watches })
  | detach {q e : Nat} {rest : List Nat} {qu : EventQueue} (found : s.queues q = some qu)
      (stolen : qu.phase = .stolen (e :: rest)) :
      Stepped s (.detach q)
        ((s.setQueue q { qu with phase := .stolen rest }).hashRemove (s.target e) e)
  | free {q : Nat} {qu : EventQueue} (found : s.queues q = some qu)
      (done : qu.phase = .stolen []) :
      Stepped s (.free q)
        { s with queues := Function.update s.queues q none, freed := q :: s.freed }

theorem step_stepped (taken : s.step a = some s') : Stepped s a s' := by
  cases a
  case create q =>
    rw [EventSys.step] at taken
    split at taken
    · next fresh => cases taken; exact .create fresh.1 fresh.2
    · cases taken
  case destroy object type =>
    cases taken
    cases purged : purges type with
    | true => exact .purge purged
    | false => exact .destroy purged
  -- the other steps are those of a queue that exists, in the phase they start from
  all_goals
    rw [EventSys.step] at taken
    split at taken
    case h_2 => cases taken
  all_goals
    rename_i qu found
    split at taken
  any_goals (cases taken; done)
  all_goals cases taken
  · next live => exact .watch found live
  · exact .cancel found
  · next live => exact .release found live rfl
  · next purged => exact .steal found purged
  · next e rest stolen => exact .detach found stolen
  · next done => exact .free found done

theorem Inv.step (inv : s.Inv) (taken : s.step a = some s') : s'.Inv := by
  cases step_stepped taken with
  | create unused fresh => exact inv.create unused fresh
  | watch found live => exact inv.watch found live _ _
  | cancel found => exact inv.cancel found _
  | purge => exact (inv.onObjectDestroy _ _).inv.setDestroyed _
  | destroy => exact inv.setDestroyed _
  | release found live closing =>
    subst closing
    exact ((inv.purged found live).onObjectDestroy _ .eventQueue).inv.setDestroyed _
  | steal found purged => exact inv.steal found purged
  | detach found stolen => exact inv.detach found stolen
  | free found done => exact inv.free found done

theorem run_inv {ok : EventSys → Label → Prop} (run : RunsTo step ok {} s) : s.Inv :=
  run.invariant (fun inv _ taken => inv.step taken) init_inv

/-! ### Live targets -/

/-- Watches are made on objects that exist, and an object whose destruction does not clear
its watches has none when it is destroyed. -/
def targetsLive (s : EventSys) : Label → Prop
  | .watch _ _ a => (a.object, a.type) ∉ s.destroyed
  | .destroy object type =>
      purges type = true ∨
        ∀ n ∈ s.buckets (evqHashPtr object), s.watchesObject object type n = false
  | _ => True

instance (s : EventSys) (a : Label) : Decidable (targetsLive s a) := by
  cases a <;> unfold targetsLive <;> infer_instance

/-- No node is for an object that was destroyed. -/
def Clean (s : EventSys) : Prop :=
  ∀ i n, n ∈ s.buckets i → (n.object, (s.entry n.entry).targetType) ∉ s.destroyed

theorem Clean.fewer (clean : s.Clean)
    (nodes : ∀ {i n}, n ∈ s'.buckets i → n ∈ s.buckets i)
    (types : ∀ {i n}, n ∈ s'.buckets i →
      (s'.entry n.entry).targetType = (s.entry n.entry).targetType)
    (destroyed : s'.destroyed = s.destroyed) : s'.Clean := by
  intro i n member
  rw [types member, destroyed]
  exact clean i n (nodes member)

theorem mem_of_mem_hashRemove (member : n ∈ (s.hashRemove object e).buckets i) : n ∈ s.buckets i :=
  (forall_update_iff s.buckets fun i l => n ∈ l → n ∈ s.buckets i).mpr
    ⟨mem_of_mem_eraseP, fun _ _ => id⟩ i member

theorem Clean.watch (inv : s.Inv) (clean : s.Clean)
    {a : WatchArgs} (live : (a.object, a.type) ∉ s.destroyed) (mem : Bool) :
    Clean (s.eventqWatch mem q qu a).1 := by
  unfold eventqWatch
  by_cases null : a.object = 0
  · rw [if_pos null]
    exact clean
  rw [if_neg null]
  by_cases failed : ¬mem = true
  · rw [if_pos failed]
    exact clean
  rw [if_neg failed]
  split
  · next old _ =>
    refine Clean.fewer clean (fun member => member) (fun {i n} _ => ?_) rfl
    by_cases here : n.entry = old
    · rw [← here]
      dsimp only
      rw [update_self]
    · dsimp only
      rw [update_of_ne here]
  · intro i n member
    change (n.object, (update s.entry s.nextEntry _ n.entry).targetType) ∉ s.destroyed
    rcases (mem_hashInsert _ _ _ i n).mp member with ⟨rfl, -⟩ | old
    · rw [update_self]
      exact live
    · obtain ⟨pu, found, holding⟩ := inv.owned old
      rw [update_of_ne (Nat.ne_of_lt ((inv.queue found).held _ holding).2)]
      exact clean i n old

/-- After the watches of an object are cleared, it may go. -/
theorem Clean.destroyed (clean : s.Clean) {type : ObjType}
    (unwatched : ∀ {i n}, n ∈ s.buckets i → s.watchesObject object type n = false) :
    Clean { s with destroyed := (object, type) :: s.destroyed } := by
  intro i n member gone
  rcases mem_cons.mp gone with same | earlier
  · have watched := unwatched member
    exact of_decide_eq_false watched (Prod.mk.inj same)
  · exact clean i n member earlier

theorem Clean.onObjectDestroy (inv : s.Inv) (clean : s.Clean) (object : Nat) (type : ObjType) :
    Clean { s.eventqOnObjectDestroy object type with
      destroyed := (object, type) :: (s.eventqOnObjectDestroy object type).destroyed } := by
  have dropped := inv.onObjectDestroy object type
  refine Clean.destroyed (clean.fewer (fun member => ((dropped.nodes _ _).mp member).1)
    (fun _ => by rw [dropped.entry]) dropped.destroyed) fun {i n} member => ?_
  have unwatched := inv.onObjectDestroy_gone object type member
  unfold watchesObject at unwatched ⊢
  rw [dropped.entry]
  exact unwatched

theorem Clean.step (inv : s.Inv) (clean : s.Clean) (meets : targetsLive s a)
    (taken : s.step a = some s') : s'.Clean := by
  cases step_stepped taken with
  | create | steal | free => exact clean
  | watch => exact Clean.watch inv clean meets _
  | cancel =>
    unfold eventqCancel
    split
    · exact clean.fewer (fun member => mem_of_mem_hashRemove member) (fun _ => rfl) rfl
    · exact clean
  | purge => exact Clean.onObjectDestroy inv clean _ _
  | @destroy object type silent =>
    refine clean.destroyed fun {i n} member => ?_
    have unwatched := meets.resolve_left (by rw [silent]; decide)
    cases watched : s.watchesObject object type n with
    | false => rfl
    | true =>
      -- A watching node would be in the object's bucket.
      have here : n.object = object := (of_decide_eq_true watched).1
      rw [(inv.placed member).1, here] at member
      rw [unwatched n member] at watched
      cases watched
  | release found live closing =>
    subst closing
    exact Clean.onObjectDestroy (inv.purged found live) clean _ .eventQueue
  | detach => exact clean.fewer (fun member => mem_of_mem_hashRemove member) (fun _ => rfl) rfl

/-! ### The index -/

/-- All nodes of the table. -/
def nodes (s : EventSys) : List Node := (List.range 256).flatMap s.buckets

/-- No release of a queue is under way. -/
def Quiet (s : EventSys) : Prop := ∀ {q qu}, s.queues q = some qu → qu.stolen = []

/-- The watch entries on the lists of the queues. -/
def entries (s : EventSys) : Set Nat := { e | ∃ q qu, s.queues q = some qu ∧ e ∈ qu.watches }

/-- A watch of an object through handle 3, for one kind of event. -/
def watchOf (object : Nat) (type : ObjType) : WatchArgs :=
  { handle := 3, object, type, eventMask := 1, userData := 0, flags := 0 }

/-- The entry is for the object of the watch, with all that the watch asked for. -/
def WatchEntry.carries (w : WatchEntry) (a : WatchArgs) : Prop :=
  w.targetObject = a.object ∧ w.targetHandle = a.handle ∧ w.eventMask = a.eventMask ∧
    w.userData = a.userData ∧ w.flags = a.flags

/-- The queue has one entry for the object, of the type, handle and flags of the watch, and no
earlier entry with that handle. -/
def watchedAlike (s : EventSys) (qu : EventQueue) (a : WatchArgs) : Prop :=
  ∃ e, (∀ j ∈ qu.watches, s.target j = a.object ↔ j = e) ∧ (s.entry e).targetType = a.type ∧
    (s.entry e).flags = a.flags ∧
    qu.watches.find? (fun j => (s.entry j).targetHandle = a.handle) = some e

/-- What a watch is for: one entry for the object, with all that the watch asked for, which a
cancel by the handle takes away. -/
def Watched (s : EventSys) (q : Nat) (a : WatchArgs) : Prop :=
  ∃ qu e, s.queues q = some qu ∧ WatchEntry.carries (s.entry e) a ∧
    (∀ j ∈ qu.watches, s.target j = a.object ↔ j = e) ∧ e ∈ qu.watches ∧
    ∃ s' qu', s.eventqCancel q qu a.handle = (s', .ok ()) ∧ s'.queues q = some qu' ∧
      e ∉ qu'.watches

/-- A new entry is the first of the list, so that the cancel finds it also where others carry
the same handle. -/
theorem watched_of_link {w : WatchEntry} {a : WatchArgs} (ok : QueueOk s q qu)
    (carried : WatchEntry.carries w a) :
    (s.link q qu w).Watched q a ↔ ∀ e ∈ qu.watches, s.target e ≠ a.object := by
  have old : ∀ j ∈ qu.watches, j ≠ s.nextEntry := fun j member =>
    Nat.ne_of_lt (ok.held j (mem_append_left _ member)).2
  have new : (s.link q qu w).entry s.nextEntry = w := update_self ..
  have same {j : Nat} (member : j ∈ qu.watches) : (s.link q qu w).target j = s.target j := by
    exact congrArg WatchEntry.targetObject (update_of_ne (old j member) ..)
  constructor
  · rintro ⟨qu', e, found, -, only, -⟩ j member aims
    cases (update_self ..).symm.trans found
    have first := (only s.nextEntry (.head _)).mp (by rw [target, new, carried.1])
    have second := (only j (.tail _ member)).mp ((same member).trans aims)
    exact old j member (second.trans first.symm)
  · intro unwatched
    refine ⟨_, s.nextEntry, update_self .., by rwa [new], ?_, .head _, ?_⟩
    · intro j member
      rcases mem_cons.mp member with rfl | member
      · exact iff_of_true (by rw [target, new, carried.1]) rfl
      · exact iff_of_false (by rw [same member]; exact unwatched j member) (old j member)
    · unfold eventqCancel
      rw [find?_cons_of_pos (by rw [new]; exact decide_eq_true carried.2.1)]
      refine ⟨_, _, rfl, update_self .., ?_⟩
      rw [EventQueue.unlink, if_pos (.head _), erase_cons_head]
      exact fun member => old _ member rfl

/-- The entry that a watch finds already there keeps its handle and its flags. -/
theorem watched_of_update {w : WatchEntry} {old : Nat} {a : WatchArgs}
    (ok : QueueOk s q qu) (found : s.queues q = some qu) (member : old ∈ qu.watches)
    (aims : s.target old = a.object) (type : (s.entry old).targetType = a.type)
    (same : w = { s.entry old with eventMask := a.eventMask, userData := a.userData }) :
    ({ s with entry := update s.entry old w } : EventSys).Watched q a ↔ s.watchedAlike qu a := by
  have targets (j : Nat) : (update s.entry old w j).targetObject = s.target j := by
    rw [update_apply]
    split <;> simp_all
  have handles (j : Nat) : (update s.entry old w j).targetHandle = (s.entry j).targetHandle := by
    rw [update_apply]
    split <;> simp_all
  unfold Watched eventqCancel
  simp only [target, targets, handles]
  constructor
  · rintro ⟨qu', e, found', ⟨-, handle, -, -, flags⟩, only, inside, s', qu'', cancelled, left, gone⟩
    cases found.symm.trans found'
    obtain rfl := (only old member).mp aims
    rw [update_self, same] at flags
    refine ⟨old, only, type, flags, ?_⟩
    cases first : qu.watches.find? (fun j => (s.entry j).targetHandle = a.handle) with
    | none =>
      rw [first] at cancelled
      cases cancelled
    | some e =>
      rw [first] at cancelled
      cases cancelled
      cases (update_self ..).symm.trans left
      by_contra other
      exact gone ((mem_unlink ok.distinct e old).mpr ⟨inside, fun same => other (same ▸ rfl)⟩)
  · rintro ⟨e, only, -, flags, first⟩
    obtain rfl := (only old member).mp aims
    have handle : (s.entry old).targetHandle = a.handle := by
      simpa using find?_some first
    refine ⟨qu, old, found, ?_, only, member, ?_⟩
    · rw [update_self, same]
      exact ⟨aims, handle, rfl, rfl, flags⟩
    · rw [first]
      refine ⟨_, _, rfl, update_self .., fun inside => ?_⟩
      exact ((mem_unlink ok.distinct old old).mp inside).2 rfl

/-- A watch that succeeds makes the one entry for the object that a cancel by the handle takes
away exactly if the object was not watched, or watched alike. -/
theorem watch_then_cancel {ok : EventSys → Label → Prop} (run : RunsTo step ok {} s)
    (found : s.queues q = some qu) {mem : Bool} {a : WatchArgs}
    (watched : s.eventqWatch mem q qu a = (s', .ok ())) :
    s'.Watched q a ↔ (∀ e ∈ qu.watches, s.target e ≠ a.object) ∨ s.watchedAlike qu a := by
  have ok := (run_inv run).queue found
  obtain ⟨-, ⟨⟩⟩ | ⟨-, watched⟩ := ite_eq_iff.mp watched
  obtain ⟨-, ⟨⟩⟩ | ⟨-, watched⟩ := ite_eq_iff.mp watched
  cases first : qu.watches.find? (fun e =>
      (s.entry e).targetObject = a.object ∧ (s.entry e).targetType = a.type) with
  | none =>
    rw [first] at watched
    cases watched
    rw [watched_of_link ok ⟨rfl, rfl, rfl, rfl, rfl⟩, iff_self_or]
    rintro ⟨e, only, type, -, handle⟩
    have member := mem_of_find?_eq_some handle
    exact absurd (decide_eq_true ⟨(only e member).mpr rfl, type⟩) (find?_eq_none.mp first e member)
  | some old =>
    rw [first] at watched
    cases watched
    have member := mem_of_find?_eq_some first
    obtain ⟨aims, type⟩ : s.target old = a.object ∧ (s.entry old).targetType = a.type := by
      simpa using find?_some first
    rw [watched_of_update ok found member aims type rfl, iff_or_self]
    exact fun unwatched => absurd aims (unwatched old member)

theorem watch_then_cancel_new :
    ∃ s, RunsTo step always {} s ∧ s.Watched 64 (watchOf 4096 .timer) := by
  have run : RunsTo step always {} (({} : EventSys).setQueue 64 {}) :=
    .tail (a := .create 64) .refl trivial rfl
  have watched : (({} : EventSys).setQueue 64 {}).eventqWatch true 64 {} (watchOf 4096 .timer) =
    (_, .ok ()) := rfl
  refine ⟨_, .tail (a := .watch true 64 (watchOf 4096 .timer)) run trivial rfl, ?_⟩
  exact (watch_then_cancel run rfl watched).mpr (.inl fun _ member => by cases member)

/-- A second watch of an object through another handle leaves the entry with the first: the
cancel by the second handle does not find it. -/
theorem rewatch_keeps_handle :
    ∃ s, RunsTo step always {} s ∧ (s.queues 64).any (fun qu => decide (qu.watches = [0])) = true ∧
      (s.entry 0).targetHandle = 3 ∧
      (s.queues 64).any (fun qu => (s.eventqCancel 64 qu 9).2.toOption.isNone) = true :=
  runsTo_of_exec [.create 64, .watch true 64 (watchOf 4096 .timer),
    .watch true 64 { watchOf 4096 .timer with handle := 9 }] (by decide +kernel)

end EventSys

end A20OS.Event
