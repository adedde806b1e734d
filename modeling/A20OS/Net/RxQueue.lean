import A20OS.Lib.Machine
import Mathlib.Algebra.BigOperators.Group.List.Basic

/-!
The byte count of a socket's receive queue (`kernel/net/socket_queue.c`).

The count is a cache of a number of messages and a number of bytes, believed when the first is the
length of the queue. Appending or removing a message leaves that number as it is, so the next
reader adds the queue up again. Closing the read side empties the queue without a word to the
cache: if no reader came since the first message, bytes that are gone are reported. At most 1024
messages of at most 65535 bytes need no 32-bit arithmetic.
-/

namespace A20OS.Net

open Lib List

structure NetMsg where
  len : Nat
  off : Nat := 0
deriving DecidableEq

/-- The receive queue of a socket; `tallyCount` and `tallyBytes` are the halves of `rxq_tally`. -/
structure NetSock where
  stream : Bool
  queue : List NetMsg := []
  rxCount : Nat := 0
  tallyCount : Nat := 0
  tallyBytes : Nat := 0

namespace NetSock

variable (s : NetSock)

/-- The bytes of a message that can still be read. -/
def readable (stream : Bool) (m : NetMsg) : Nat := if stream then m.len - m.off else m.len

def netRxqSumLocked : Nat := (s.queue.map (readable s.stream)).sum

/-- The cache as the updates see it: the sum, if its first half is not `count`. -/
def tally (count : Nat) : Nat × Nat :=
  if s.tallyCount ≠ count then (0, s.netRxqSumLocked) else (s.tallyCount, s.tallyBytes)

def netRxqBytesAddedLocked (bytes : Nat) : NetSock :=
  let t := s.tally (s.rxCount - 1)
  { s with tallyCount := t.1, tallyBytes := t.2 + bytes }

/-- To take nothing off is to take everything off. -/
def netRxqBytesRemovedLocked (bytes : Nat) : NetSock :=
  let t := s.tally s.rxCount
  { s with tallyCount := t.1, tallyBytes := if t.2 - bytes < t.2 then t.2 - bytes else 0 }

def netRxqBytesLocked : Nat × NetSock :=
  if s.tallyCount ≠ s.rxCount then
    let bytes := s.netRxqSumLocked
    (bytes, { s with tallyCount := s.rxCount, tallyBytes := bytes })
  else (s.tallyBytes, s)

def netMsgLinkLocked (m : NetMsg) : NetSock :=
  { s with queue := s.queue ++ [m], rxCount := s.rxCount + 1 }.netRxqBytesAddedLocked m.len

/-- The bytes taken; nothing changes when there is no message. -/
def netDequeueMsgLockedMeta (len : Nat) : Option (Nat × NetSock) :=
  match s.queue with
  | [] => none
  | m :: rest =>
      let avail := m.len - m.off
      let n := min avail len
      if s.stream ∧ n < avail then
        some (n, { s with queue := ⟨m.len, m.off + n⟩ :: rest }.netRxqBytesRemovedLocked n)
      else
        let s := s.netRxqBytesRemovedLocked avail
        some (n, { s with queue := rest, rxCount := s.rxCount - 1 })

/-- What `net_shutdown_sock` does to the queue for `SHUT_RD`. -/
def netShutdownSock : NetSock := { s with queue := [], rxCount := 0 }

inductive Label where
  | enqueue (len : Nat)
  | dequeue (len : Nat)
  | bytes
  | shutdown

/-- An enqueue that is refused changes nothing; one that first asks for room in the buffer is a
`bytes` before it. -/
def step : Label → Option NetSock
  | .enqueue len => some (s.netMsgLinkLocked { len })
  | .dequeue len => (s.netDequeueMsgLockedMeta len).map Prod.snd
  | .bytes => some s.netRxqBytesLocked.2
  | .shutdown => some s.netShutdownSock

/-- Reads of a stream ask for something, and the read side is not closed while the cache is at zero
messages with bytes. -/
def Tame : Label → Prop
  | .dequeue len => s.stream = true → 0 < len
  | .shutdown => s.tallyCount = 0 → s.tallyBytes = 0
  | _ => True

instance (s : NetSock) : (l : Label) → Decidable (Tame s l)
  | .dequeue len => inferInstanceAs (Decidable (s.stream = true → 0 < len))
  | .shutdown => inferInstanceAs (Decidable (s.tallyCount = 0 → s.tallyBytes = 0))
  | .enqueue _ | .bytes => .isTrue trivial

variable {s s' : NetSock} {len : Nat} {l : Label}

structure Inv (s : NetSock) : Prop where
  count : s.rxCount = s.queue.length
  whole : s.stream = false → ∀ m ∈ s.queue, m.off = 0
  exact : s.tallyCount = s.rxCount → s.tallyBytes = s.netRxqSumLocked

namespace Inv

variable (h : Inv s)
include h

theorem bytes_eq : s.netRxqBytesLocked.1 = s.netRxqSumLocked := by
  unfold netRxqBytesLocked
  split
  · rfl
  · next same => exact h.exact (not_not.mp same)

theorem bytes : Inv s.netRxqBytesLocked.2 := by
  unfold netRxqBytesLocked
  split
  · exact { h with exact := fun _ => rfl }
  · exact h

/-- With a message more, the first half of the cache is not the length of the queue. -/
theorem link (len : Nat) : Inv (s.netMsgLinkLocked { len }) where
  count := by
    rw [netMsgLinkLocked, netRxqBytesAddedLocked, length_append, h.count]
    rfl
  whole other := forall_mem_append.mpr ⟨h.whole other, forall_mem_singleton.mpr rfl⟩
  exact same := by
    simp only [netMsgLinkLocked, netRxqBytesAddedLocked, tally, Nat.add_sub_cancel] at same
    split at same <;> omega

theorem dequeue {n : Nat} (some_ : s.stream = true → 0 < len)
    (taken : s.netDequeueMsgLockedMeta len = some (n, s')) : Inv s' := by
  obtain ⟨count, whole, exact_⟩ := id h
  unfold netDequeueMsgLockedMeta at taken
  split at taken
  · cases taken
  next m rest queue =>
  rw [netRxqSumLocked, queue, map_cons, sum_cons] at exact_
  rw [queue] at count whole
  rw [length_cons] at count
  obtain ⟨first, whole⟩ := forall_mem_cons.mp fun m member other => whole other m member
  obtain ⟨part, ⟨⟩⟩ | ⟨all, ⟨⟩⟩ := ite_eq_iff.mp taken
  · refine ⟨count, fun other => absurd part.1 (Bool.eq_false_iff.mp other), fun same => ?_⟩
    -- the cache was right, or else its first half would be zero now
    by_cases right : s.tallyCount = s.rxCount
    · have bytes := exact_ right
      have asked := some_ part.1
      rw [netRxqSumLocked, netRxqBytesRemovedLocked, tally, if_neg (not_not.mpr right)]
      simp only [part.1, map_cons, sum_cons, readable, if_true] at bytes ⊢
      split <;> omega
    · simp only [netRxqBytesRemovedLocked, tally, if_pos right] at same
      omega
  · refine ⟨Nat.sub_eq_of_eq_add count, fun other m member => whole m member other, fun same => ?_⟩
    -- only when this was the last message
    by_cases right : s.tallyCount = s.rxCount
    · simp only [netRxqBytesRemovedLocked, tally, right, ne_eq, not_true_eq_false, if_false] at same
      omega
    · have alone : rest = [] := by
        rw [netRxqBytesRemovedLocked, tally, if_pos right] at same
        exact length_eq_zero_iff.mp (by dsimp only at same; omega)
      have last : s.netRxqSumLocked = m.len - m.off := by
        rw [netRxqSumLocked, queue, alone, map_singleton, sum_singleton, readable]
        split
        · rfl
        · next other => rw [first (Bool.eq_false_of_not_eq_true other), Nat.sub_zero]
      rw [netRxqSumLocked, netRxqBytesRemovedLocked, tally, if_pos right, last, alone]
      simp

end Inv

theorem Inv.step (h : Inv s) (meets : Tame s l) (taken : s.step l = some s') : Inv s' := by
  cases l with
  | enqueue len => cases taken; exact h.link len
  | dequeue len =>
    obtain ⟨⟨n, t⟩, took, rfl⟩ := Option.map_eq_some_iff.mp taken
    exact h.dequeue meets took
  | bytes => cases taken; exact h.bytes
  | shutdown =>
    cases taken
    exact ⟨rfl, nofun, meets⟩

/-- **The byte count is exact**, from a new socket on, if reads of a stream ask for at least a byte
and the read side is closed only after a count or when no bytes are cached. -/
theorem bytes_exact (stream : Bool) (s : NetSock) (run : RunsTo step Tame { stream } s) :
    s.netRxqBytesLocked.1 = s.netRxqSumLocked :=
  (run.invariant Inv.step ⟨rfl, nofun, fun _ => rfl⟩).bytes_eq

theorem bytes_exact_part : ∃ s, RunsTo step Tame { stream := true } s ∧ s.queue = [⟨5, 2⟩, ⟨4, 0⟩] ∧
    s.netRxqBytesLocked.1 = s.netRxqSumLocked := by
  obtain ⟨s, run, queue⟩ :
      ∃ s, RunsTo step Tame { stream := true } s ∧ s.queue = [⟨5, 2⟩, ⟨4, 0⟩] :=
    runsTo_of_execWhile
      [.enqueue 7, .bytes, .shutdown, .enqueue 5, .bytes, .dequeue 2, .enqueue 4] (by decide)
  exact ⟨s, run, queue, bytes_exact _ s run⟩

/-- Five bytes are queued and the read side is closed: five bytes are reported. Or they are counted,
and a read asks for none: no byte is reported. -/
theorem bytes_lost : (∃ s, RunsTo step always { stream := true } s ∧ s.queue = [] ∧
      s.netRxqBytesLocked.1 = 5) ∧
    ∃ s, RunsTo step always { stream := true } s ∧ s.queue = [⟨5, 0⟩] ∧ s.netRxqBytesLocked.1 = 0 :=
  ⟨runsTo_of_exec [.enqueue 5, .shutdown] (by decide),
    runsTo_of_exec [.enqueue 5, .bytes, .dequeue 0] (by decide)⟩

end NetSock

end A20OS.Net
