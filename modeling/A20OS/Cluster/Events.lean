import A20OS.Event.Queue
import A20OS.Lib.Loop

/-!
Cluster events (`a20_clx_event_subscribe`, `a20_clx_event_push` of `kernel/cluster/transport.c`).

A subscriber is a queue that watches one token object, with the mask of the kinds it selects.
For each subscriber that selects the kind, the push notifies the token object; but
`a20_event_notify` goes through all its watches, so two selecting subscribers get two records each.
-/

namespace A20OS.Cluster

open Event Lib List Function

/-- `a20_pending_event_t`. -/
structure PendingEvent where
  source : Nat
  type : Nat
  events : BitVec 64
  userData : BitVec 64
  data0 : BitVec 64
  data1 : BitVec 64
deriving DecidableEq

/-- The ring of a queue, the oldest record first. -/
structure EventRing where
  records : List PendingEvent
  cap : Nat
deriving DecidableEq

def evqRingPut (r : EventRing) (ev : PendingEvent) : EventRing :=
  if r.records.length < r.cap then { r with records := r.records ++ [ev] } else r

/-- The watches of an object, in the order of its bucket. -/
def watchesOf (s : EventSys) (object : Nat) (type : ObjType) : List WatchEntry :=
  ((s.buckets (evqHashPtr object)).map fun n => s.entry n.entry).filter fun we =>
    we.targetObject = object ∧ we.targetType = type

def eventNotify (s : EventSys) (object : Nat) (type : ObjType) (eventType : Nat)
    (data0 data1 : BitVec 64) (rings : Nat → EventRing) : Nat → EventRing :=
  ((watchesOf s object type).filter fun we => we.eventMask.getLsbD eventType).foldl
    (fun rings we => update rings we.ownerQueue (evqRingPut (rings we.ownerQueue)
      ⟨we.targetHandle, eventType, 1 <<< eventType, we.userData, data0, data1⟩)) rings

/-- An entry of `g_clx_subs` that is in use. -/
structure ClxSub where
  mask : BitVec 64
  eq : Nat
deriving DecidableEq

/-- `A20_CLX_EV_BASE`. -/
def clxEvBase : Nat := 32

def ClxSub.selects (kind : Nat) (sub : ClxSub) : Bool := sub.mask.getLsbD (clxEvBase + kind)

/-- The mask of a subscriber to these kinds. -/
def clxWant (mask : BitVec 32) : BitVec 64 :=
  (range 4).foldl
    (fun want k => if mask.getLsbD k then want ||| 1 <<< (clxEvBase + k) else want) 0

/-- `a20_clx_event_subscribe` with a mask and the address of its new queue; `src` is the token
object. Where it returns `NULL` it has released the queue again. -/
def clxEventSubscribe (src : Nat) (state : EventSys × List ClxSub) (call : BitVec 32 × Nat) :
    Option (EventSys × List ClxSub) :=
  let (mask, q) := call
  if state.1.queues q = none ∧ q ∉ state.1.freed ∧ state.2.length < 8 then
    some (((state.1.setQueue q {}).eventqWatch true q {}
      ⟨0, src, .debug, clxWant mask, 0, 0⟩).1, state.2 ++ [⟨clxWant mask, q⟩])
  else none

/-- `a20_clx_event_push`, on the rings and the count of overflows. -/
def clxEventPush (s : EventSys) (src : Nat) (subs : List ClxSub) (kind : Nat)
    (nodeHash transportId reason : BitVec 32) (state : (Nat → EventRing) × Nat) :
    (Nat → EventRing) × Nat :=
  (subs.filter (ClxSub.selects kind)).foldl (fun state sub =>
    let ring := state.1 sub.eq
    (eventNotify s src .debug (clxEvBase + kind) (nodeHash.setWidth 64)
      (transportId.setWidth 64 ||| reason.setWidth 64 <<< 8) state.1,
      if ring.cap ≤ ring.records.length then state.2 + 1 else state.2)) state

/-! ### Subscribers -/

/-- The watch of a subscriber. -/
def ClxSub.watch (src : Nat) (sub : ClxSub) : WatchEntry :=
  { targetObject := src, targetType := .debug, eventMask := sub.mask, ownerQueue := sub.eq }

/-- The watches of the token object are those of the subscribers, the last one first, and these
are different queues. -/
structure Subscribed (src : Nat) (s : EventSys) (subs : List ClxSub) : Prop where
  watches : watchesOf s src .debug = (subs.map (ClxSub.watch src)).reverse
  below : ∀ n ∈ s.buckets (evqHashPtr src), n.entry < s.nextEntry
  known : ∀ sub ∈ subs, s.queues sub.eq ≠ none
  distinct : (subs.map ClxSub.eq).Nodup

variable {s s₀ : EventSys} {src : Nat} {subs : List ClxSub}

theorem Subscribed.step {call : BitVec 32 × Nat} {state : EventSys × List ClxSub}
    (token : src ≠ 0) (subscribed : Subscribed src s subs)
    (taken : clxEventSubscribe src (s, subs) call = some state) :
    Subscribed src state.1 state.2 := by
  obtain ⟨⟨new, -⟩, ⟨⟩⟩ := Option.ite_none_right_eq_some.mp taken
  have linked : ((s.setQueue call.2 {}).eventqWatch true call.2 {}
      ⟨0, src, .debug, clxWant call.1, 0, 0⟩).1 =
        (s.setQueue call.2 {}).link call.2 {} (ClxSub.watch src ⟨clxWant call.1, call.2⟩) := by
    rw [EventSys.eventqWatch, if_neg token, if_neg (by simp)]
    rfl
  dsimp only
  rw [linked]
  have front : (EventSys.link (s.setQueue call.2 {}) call.2 {}
      (ClxSub.watch src ⟨clxWant call.1, call.2⟩)).buckets (evqHashPtr src) =
        ⟨src, s.nextEntry⟩ :: s.buckets (evqHashPtr src) := update_self ..
  refine ⟨?_, ?_, ?_, ?_⟩
  · rw [watchesOf, front, map_cons, filter_cons_of_pos, map_append, reverse_append,
      ← subscribed.watches, watchesOf]
    · refine congrArg₂ cons (update_self ..) (congrArg _ (map_congr_left ?_))
      exact fun n member => update_of_ne (Nat.ne_of_lt (subscribed.below n member)) ..
    · simp [EventSys.link, EventSys.setQueue, EventSys.hashInsert, ClxSub.watch]
  · rw [front]
    exact forall_mem_cons.mpr ⟨Nat.lt_succ_self _, fun n member =>
      Nat.lt_succ_of_lt (subscribed.below n member)⟩
  · intro sub member
    simp only [EventSys.link, EventSys.setQueue, EventSys.hashInsert, update_apply]
    rcases mem_append.mp member with old | new
    · split_ifs
      · simp
      · exact subscribed.known sub old
    · simp [mem_singleton.mp new]
  · rw [map_append, nodup_append]
    refine ⟨subscribed.distinct, by simp, ?_⟩
    rintro q member _ here rfl
    obtain ⟨sub, old, rfl⟩ := mem_map.mp member
    exact subscribed.known sub old ((congrArg s.queues (mem_singleton.mp here)).trans new)

/-! ### Records -/

/-- The record of a push. -/
def clxRecord (kind : Nat) (nodeHash transportId reason : BitVec 32) : PendingEvent :=
  ⟨0, clxEvBase + kind, 1 <<< (clxEvBase + kind), 0, nodeHash.setWidth 64,
    transportId.setWidth 64 ||| reason.setWidth 64 <<< 8⟩

/-- The queues of the subscribers that select the kind. -/
def selecting (subs : List ClxSub) (kind : Nat) : List Nat :=
  (subs.filter (ClxSub.selects kind)).map ClxSub.eq

variable {kind : Nat} {nodeHash transportId reason : BitVec 32}

/-- A notification puts the record into the ring of each of them. -/
theorem eventNotify_apply (subscribed : Subscribed src s subs) (rings : Nat → EventRing) (q : Nat) :
    eventNotify s src .debug (clxEvBase + kind) (nodeHash.setWidth 64)
        (transportId.setWidth 64 ||| reason.setWidth 64 <<< 8) rings q =
      if q ∈ selecting subs kind then
        evqRingPut (rings q) (clxRecord kind nodeHash transportId reason)
      else rings q := by
  have distinct : (selecting subs kind).reverse.Nodup := by
    exact pairwise_reverse.mpr ((subscribed.distinct.sublist (filter_sublist.map _)).imp Ne.symm)
  have pass := foldl_pointwise (fun rings q => rings q)
    (fun (rings : Nat → EventRing) q => update rings q
      (evqRingPut (rings q) (clxRecord kind nodeHash transportId reason)))
    (fun _ ring => evqRingPut ring (clxRecord kind nodeHash transportId reason))
    (fun _ _ => update_self ..) (fun _ _ _ other => update_of_ne other ..)
    distinct rings q
  simp only [mem_reverse] at pass
  rw [← pass, eventNotify, subscribed.watches, filter_reverse, filter_map, selecting, ← map_reverse,
    ← map_reverse, foldl_map, foldl_map]
  rfl

/-- Every selecting subscriber is one more notification of all of them. -/
theorem clxEventPush_iterate (subscribed : Subscribed src s subs) (rings : Nat → EventRing)
    (overflows q : Nat) :
    (clxEventPush s src subs kind nodeHash transportId reason (rings, overflows)).1 q =
      if q ∈ selecting subs kind then
        (evqRingPut · (clxRecord kind nodeHash transportId reason))^[(selecting subs kind).length]
          (rings q)
      else rings q := by
  have notify := @eventNotify_apply s src subs kind nodeHash transportId reason subscribed
  rw [clxEventPush]
  rw [show (selecting subs kind).length =
    (subs.filter (ClxSub.selects kind)).length from length_map ..]
  generalize subs.filter (ClxSub.selects kind) = chosen
  induction chosen generalizing rings overflows with
  | nil => simp
  | cons sub rest ih =>
    rw [foldl_cons, ih, length_cons, iterate_succ_apply, notify]
    split
    · rfl
    · rfl

theorem evqRingPut_iterate (ev : PendingEvent) (n : Nat) (r : EventRing) :
    (evqRingPut · ev)^[n] r =
      { r with records := r.records ++ replicate (min n (r.cap - r.records.length)) ev } := by
  induction n generalizing r with
  | zero => simp
  | succ n ih =>
    rw [iterate_succ_apply, ih, evqRingPut]
    split
    · next room =>
      have more : min (n + 1) (r.cap - r.records.length) =
          min n (r.cap - (r.records.length + 1)) + 1 := by omega
      simp [more, replicate_succ]
    · next full =>
      rw [Nat.sub_eq_zero_of_le (Nat.le_of_not_lt full), Nat.min_zero, Nat.min_zero]

/-- A ring tells one record from several unless it has room for one at most. -/
theorem evqRingPut_iterate_eq_iff {ev : PendingEvent} {n : Nat} {r : EventRing} (some : 0 < n) :
    (evqRingPut · ev)^[n] r = evqRingPut r ev ↔ n ≤ 1 ∨ r.cap ≤ r.records.length + 1 := by
  rw [evqRingPut_iterate, show evqRingPut r ev = (evqRingPut · ev)^[1] r from rfl,
    evqRingPut_iterate]
  constructor
  · intro same
    have lengths := congrArg (fun r => r.records.length) same
    simp only [length_append, length_replicate] at lengths
    omega
  · intro few
    rw [show min n (r.cap - r.records.length) = min 1 (r.cap - r.records.length) by omega]

/-- **Fan-out of a push.** After any subscriptions a push puts one record into the ring of each
subscriber that selects the kind, if there is room, and leaves all other rings alone, exactly if
there is at most one such subscriber or none of them has room for two. -/
theorem clxEventPush_once (token : src ≠ 0) (start : Subscribed src s₀ [])
    (run : RunsTo (clxEventSubscribe src) always (s₀, []) (s, subs)) (kind : Nat)
    (nodeHash transportId reason : BitVec 32) (rings : Nat → EventRing) (overflows : Nat) :
    let rings' := (clxEventPush s src subs kind nodeHash transportId reason (rings, overflows)).1
    ((∀ sub ∈ subs, sub.selects kind → rings' sub.eq =
        evqRingPut (rings sub.eq) (clxRecord kind nodeHash transportId reason)) ∧
      ∀ q, (∀ sub ∈ subs, sub.selects kind → sub.eq ≠ q) → rings' q = rings q) ↔
    (subs.filter (ClxSub.selects kind)).length ≤ 1 ∨
      ∀ sub ∈ subs, sub.selects kind → (rings sub.eq).cap ≤ (rings sub.eq).records.length + 1 := by
  have subscribed : Subscribed src s subs := by
    refine RunsTo.invariant
      (P := fun state : EventSys × List ClxSub => Subscribed src state.1 state.2) ?_ run start
    exact fun old _ taken => old.step token taken
  have chosen {q : Nat} :
      q ∈ selecting subs kind ↔ ∃ sub ∈ subs, sub.selects kind ∧ sub.eq = q := by
    simp [selecting, and_assoc]
  have pushed {sub : ClxSub} (member : sub ∈ subs) (selects : sub.selects kind = true) :
      (clxEventPush s src subs kind nodeHash transportId reason (rings, overflows)).1 sub.eq =
          evqRingPut (rings sub.eq) (clxRecord kind nodeHash transportId reason) ↔
        (subs.filter (ClxSub.selects kind)).length ≤ 1 ∨
          (rings sub.eq).cap ≤ (rings sub.eq).records.length + 1 := by
    have inside : sub.eq ∈ selecting subs kind := chosen.mpr ⟨sub, member, selects, rfl⟩
    have count : (selecting subs kind).length = (subs.filter (ClxSub.selects kind)).length :=
      length_map ..
    rw [clxEventPush_iterate subscribed, if_pos inside,
      evqRingPut_iterate_eq_iff (length_pos_of_mem inside), count]
  dsimp only
  constructor
  · rintro ⟨once, -⟩
    by_cases single : (subs.filter (ClxSub.selects kind)).length ≤ 1
    · exact .inl single
    · exact .inr fun sub member selects =>
        ((pushed member selects).mp (once sub member selects)).resolve_left single
  · intro few
    refine ⟨fun sub member selects => (pushed member selects).mpr ?_, fun q other => ?_⟩
    · exact few.imp_right fun full => full sub member selects
    · have outside : q ∉ selecting subs kind := fun inside => by
        obtain ⟨sub, member, selects, same⟩ := chosen.mp inside
        exact other sub member selects same
      rw [clxEventPush_iterate subscribed, if_neg outside]

/-- Two queues subscribe, each to a mask. -/
def twoSubscribers (first second : BitVec 32) : Option (EventSys × List ClxSub) :=
  exec (clxEventSubscribe 16) ({}, []) [(first, 1), (second, 2)]

theorem clxEventPush_once_second : ∃ s subs, twoSubscribers 1 2 = some (s, subs) ∧
    (clxEventPush s 16 subs 1 7 1 0 (fun _ => ⟨[], 256⟩, 0)).1 2 = ⟨[clxRecord 1 7 1 0], 256⟩ := by
  obtain ⟨⟨s, subs⟩, made, subscribed⟩ : ∃ state, twoSubscribers 1 2 = some state ∧
      state.2 = [⟨1 <<< 32, 1⟩, ⟨2 <<< 32, 2⟩] := eq_some_of_any (by decide +kernel)
  obtain rfl : subs = _ := subscribed
  have start : Subscribed 16 {} [] := ⟨rfl, nofun, nofun, .nil⟩
  have result := clxEventPush_once (by decide) start (exec_runsTo made) 1 7 1 0
    (fun _ => ⟨[], 256⟩) 0
  exact ⟨s, _, made, (result.mpr (.inl (by decide))).1 ⟨2 <<< 32, 2⟩ (by decide) (by decide)⟩

/-- Both select the kind, and each gets its record twice. -/
theorem push_delivers_twice : ∃ state, twoSubscribers 1 1 = some state ∧
    ∀ q ∈ [1, 2], ((clxEventPush state.1 16 state.2 0 7 1 0
      (fun _ => ⟨[], 256⟩, 0)).1 q).records = [clxRecord 0 7 1 0, clxRecord 0 7 1 0] :=
  eq_some_of_any (by decide +kernel)

end A20OS.Cluster
