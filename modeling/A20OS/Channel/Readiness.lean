import A20OS.Channel.Fifo

/-!
When a channel endpoint counts as writable.

A send on an endpoint goes into the queue of its peer. `a20_channel_writable` looks there;
the level bits of the event queue look at the endpoint's own queue.
-/

namespace A20OS.Channel

open Lib

/-- `A20_EVENT_READABLE`, `A20_EVENT_WRITABLE`, `A20_EVENT_CLOSED`, `A20_EVENT_MESSAGE_READY`. -/
def eventReadable : Nat := 0
def eventWritable : Nat := 1
def eventClosed : Nat := 3
def eventMessageReady : Nat := 8

namespace Pair

variable {s : Pair} {e : Bool}

/-- `a20_eventq_level_bits` of a channel endpoint. -/
def levelBits (ep : Endpoint) : BitVec 64 :=
  (if 0 < ep.msgCount then 1#64 <<< eventReadable ||| 1#64 <<< eventMessageReady else 0) |||
    if ep.peerClosed then 1#64 <<< eventClosed
    else if ep.msgCount < ep.msgCap then 1#64 <<< eventWritable else 0

/-- `a20_channel_writable`. -/
def channelWritable (s : Pair) (e : Bool) : Bool :=
  s.live !e && !(s.ep !e).peerClosed && !(s.ep !e).full

/-- The WRITABLE level bit of an endpoint. -/
def levelWritable (s : Pair) (e : Bool) : Bool := (levelBits (s.ep e)).getLsbD eventWritable

theorem levelWritable_eq : s.levelWritable e = (!(s.ep e).peerClosed && !(s.ep e).full) := by
  have inbound : (if 0 < (s.ep e).msgCount
      then 1#64 <<< eventReadable ||| 1#64 <<< eventMessageReady
      else 0).getLsbD eventWritable = false := by
    split <;> rfl
  rw [levelWritable, levelBits, BitVec.getLsbD_or, inbound, Bool.false_or, Endpoint.full]
  cases (s.ep e).peerClosed with
  | true =>
    rw [if_pos rfl]
    rfl
  | false =>
    by_cases room : (s.ep e).msgCount < (s.ep e).msgCap
    · rw [if_neg (by decide), if_pos room, decide_eq_false (Nat.not_le_of_lt room)]
      rfl
    · rw [if_neg (by decide), if_neg room, decide_eq_true (not_lt.mp room)]
      rfl

theorem sendDenied_empty (ct : Option ChannelType) : sendDenied ct ⟨[], []⟩ nonblock = none := by
  cases ct <;> simp [sendDenied, checkSendTypes, typesAllowed, nonblock]

/-- A send that finds the queue of the peer open and not full does not block. -/
theorem send_of_channelWritable {p : Nat} {mem : Bool} {s' : Pair} {r : Result}
    (writable : s.channelWritable e = true)
    (sent : s.act (.send e p ⟨[], []⟩ nonblock mem) = some (s', r)) : r ≠ .failed .wouldBlock := by
  rw [channelWritable, Bool.and_eq_true, Bool.and_eq_true, Bool.not_eq_true',
    Bool.not_eq_true'] at writable
  obtain ⟨⟨live, opened⟩, room⟩ := writable
  rintro rfl
  simp only [act, sendDenied_empty, tryEnqueue, live, opened, room, if_true] at sent
  repeat' split at sent
  all_goals cases sent

/-- The level bit is what `a20_channel_writable` says, and no send on an endpoint that has it
set would block, exactly if a queue that is closed or full stands against a peer that is gone or
whose queue is closed or full, and an open queue with room against another one. -/
theorem levelWritable_agrees (s : Pair) (e : Bool) :
    (s.levelWritable e = s.channelWritable e ∧ (s.levelWritable e = true → ∀ {p mem s' r},
      s.act (.send e p ⟨[], []⟩ nonblock mem) = some (s', r) → r ≠ .failed .wouldBlock)) ↔
    (((s.ep e).peerClosed = true ∨ (s.ep e).full = true) ∧
        (s.live (!e) = false ∨ (s.ep !e).peerClosed = true ∨ (s.ep !e).full = true)) ∨
      ((s.ep e).peerClosed = false ∧ (s.ep e).full = false ∧
        s.live (!e) = true ∧ (s.ep !e).peerClosed = false ∧ (s.ep !e).full = false) := by
  rw [and_iff_left_of_imp fun same writable _ _ _ _ => send_of_channelWritable (same ▸ writable),
    levelWritable_eq, channelWritable]
  generalize (s.ep e).peerClosed = closed, (s.ep e).full = full, s.live (!e) = live,
    (s.ep !e).peerClosed = closed', (s.ep !e).full = full'
  revert closed full live closed' full'
  decide

/-- A message was sent into a queue for one: its sender counts as writable to the event
queue, and blocks. -/
theorem full_peer_counts_writable :
    ∃ s, RunsTo step always (create 1 none) s ∧ s.levelWritable false = true ∧
      s.channelWritable false = false ∧
      (s.act (.send false 1 ⟨[], []⟩ nonblock true)).map Prod.snd = some (.failed .wouldBlock) :=
  runsTo_of_exec [.send false 0 ⟨[], []⟩ 0 true] (by decide +kernel)

end Pair

end A20OS.Channel
