import A20OS.Lib.Machine

/-!
The overruns of a POSIX timer (`kernel/proc/timer_posix.c`).

An expiration that finds the timer's signal pending is an overrun of that notification. The timer
has a counter for the notification in the making and one for the last that was delivered. Both a
tick and a read move the first into the second when the signal is not pending, and neither knows
of the other: after a read that found nothing pending, the next one reports 0. The signal of a
timer for a thread is queued to the process and looked for in the thread, where it never is.
-/

namespace A20OS.Proc

open Lib

/-- `posix_timer_t` of a timer in use that has a signal; its interval is in ticks. -/
structure PosixTimer where
  /-- `target_tid > 0` -/
  thread : Bool
  intervalTicks : Nat
  expireTick : Nat
  overrunCur : Nat := 0
  overrunLast : Nat := 0

/-- Where the timer's signal is pending: in `ss->pending` of the process or in
`t->thread_pending`. -/
structure SignalBits where
  process : Bool := false
  thread : Bool := false

namespace SignalBits

/-- `signal_send` and `signal_send_task`: neither is directed to a thread. -/
def send (bits : SignalBits) : SignalBits := { bits with process := true }

/-- `signal_clear_pending_locked` -/
def clear (_ : SignalBits) : SignalBits := {}

def any (bits : SignalBits) : Bool := bits.process || bits.thread

end SignalBits

namespace PosixTimer

/-- `posix_timer_signal_pending` -/
def signalPending (tmr : PosixTimer) (bits : SignalBits) : Bool :=
  if tmr.thread then bits.thread else bits.process

def due (tmr : PosixTimer) (now : Nat) : Bool := tmr.expireTick ≠ 0 ∧ tmr.expireTick ≤ now

def expirations (tmr : PosixTimer) (now : Nat) : Nat :=
  if tmr.intervalTicks ≠ 0 then 1 + (now - tmr.expireTick) / tmr.intervalTicks else 1

/-- The deadline after the expirations up to `now`. -/
def rearm (tmr : PosixTimer) (now : Nat) : Nat :=
  if tmr.intervalTicks = 0 then 0
  else
    let expireTick := (tmr.expireTick + tmr.expirations now * tmr.intervalTicks) % 2 ^ 64
    if expireTick ≤ now then (now + tmr.intervalTicks) % 2 ^ 64 else expireTick

/-- `posix_timer_tick` for one timer that is due. -/
def tick (tmr : PosixTimer) (bits : SignalBits) (now : Nat) : PosixTimer × SignalBits :=
  if tmr.signalPending bits then
    ({ tmr with overrunCur := tmr.overrunCur + tmr.expirations now, expireTick := tmr.rearm now },
      bits)
  else
    ({ tmr with
        overrunLast := tmr.overrunCur, overrunCur := tmr.expirations now - 1
        expireTick := tmr.rearm now },
      bits.send)

/-- What `posix_timer_getoverrun` does to the counters. -/
def latch (tmr : PosixTimer) (bits : SignalBits) : PosixTimer :=
  if tmr.signalPending bits then tmr
  else { tmr with overrunLast := tmr.overrunCur, overrunCur := 0 }

def getoverrun (tmr : PosixTimer) (bits : SignalBits) : Nat :=
  min (tmr.latch bits).overrunLast 0x7fffffff

end PosixTimer

/-! ### The schedule -/

/-- How often a timer that is armed for `first` has expired by `now`: at `first`, and at every
interval from then on if it has one. -/
def expired (first interval now : Nat) : Nat :=
  if now < first then 0 else (now - first) / interval + 1

section
variable {first interval now : Nat}

theorem expired_before (before : now < first) : expired first interval now = 0 := if_pos before

theorem expired_add (d : Nat) : expired first interval (first + d) = d / interval + 1 := by
  simp [expired]

/-- With an interval the next expiration is after `now`. -/
theorem lt_next (interval_ : 0 < interval) :
    now < first + expired first interval now * interval := by
  rcases Nat.lt_or_ge now first with before | after
  · exact Nat.lt_add_right _ before
  · obtain ⟨d, rfl⟩ := Nat.exists_eq_add_of_le after
    rw [expired_add]
    exact Nat.add_lt_add_left (Nat.lt_mul_of_div_lt (Nat.lt_succ_self _) interval_) first

theorem expired_le {k : Nat} (before : now < first + k * interval) :
    expired first interval now ≤ k := by
  rcases Nat.lt_or_ge now first with early | after
  · rw [expired_before early]
    exact Nat.zero_le k
  · obtain ⟨d, rfl⟩ := Nat.exists_eq_add_of_le after
    rw [expired_add]
    exact Nat.div_lt_of_lt_mul (Nat.mul_comm k _ ▸ Nat.lt_of_add_lt_add_left before)

theorem expired_mono {now' : Nat} (later : now ≤ now') :
    expired first interval now ≤ expired first interval now' := by
  unfold expired
  have more : (now - first) / interval ≤ (now' - first) / interval :=
    Nat.div_le_div_right (Nat.sub_le_sub_right later first)
  generalize (now - first) / interval = a at more ⊢
  generalize (now' - first) / interval = b at more ⊢
  split_ifs <;> omega

end

/-! ### Runs -/

/-- A timer with its signal. For the statements: the first deadline, the time of the last tick,
the number of the expiration that the last notification was queued for, how often the timer
expired after it until the last notification was delivered, and whether a read has found nothing
pending since. -/
structure TimerSys where
  tmr : PosixTimer
  bits : SignalBits := {}
  first : Nat
  now : Nat := 0
  announced : Nat := 0
  overruns : Nat := 0
  latched : Bool := false

inductive TimerLabel where
  | tick (now : Nat)
  | deliver
  | getoverrun

namespace TimerSys

/-- How often the timer has expired by now. -/
def fired (s : TimerSys) : Nat := expired s.first s.tmr.intervalTicks s.now

def step (s : TimerSys) : TimerLabel → Option TimerSys
  | .tick now =>
      if s.now ≤ now then
        if s.tmr.due now then
          some { s with
            tmr := (s.tmr.tick s.bits now).1, bits := (s.tmr.tick s.bits now).2, now
            announced := if s.bits.any then s.announced else s.fired + 1 }
        else some { s with now }
      else none
  | .deliver =>
      if s.bits.any then
        some { s with
          bits := s.bits.clear, overruns := s.fired - s.announced, latched := false }
      else none
  | .getoverrun => some
      { s with
        tmr := s.tmr.latch s.bits, latched := s.latched || !s.tmr.signalPending s.bits }

/-- What a `timer_getoverrun` call returns. -/
def reads (s : TimerSys) : Nat := s.tmr.getoverrun s.bits

/-- A timer for a thread is neither due nor read while its signal is pending. After a read that
found nothing pending, nothing is read before the next delivery unless there was no overrun. Times
are below `2 ^ 64`. -/
def Orderly (s : TimerSys) : TimerLabel → Prop
  | .tick now => now + s.tmr.intervalTicks < 2 ^ 64 ∧
      (s.tmr.thread = true → s.tmr.due now = true → s.bits.any = false)
  | .deliver => True
  | .getoverrun => (s.tmr.thread = true → s.bits.any = false) ∧
      (s.latched = true → s.overruns = 0)

instance (s : TimerSys) (l : TimerLabel) : Decidable (s.Orderly l) := by
  cases l <;> unfold Orderly <;> infer_instance

/-- The deadline is the next expiration, nothing is pending for the thread alone, and the counters
are those of the pending notification and of the delivered one. -/
structure Counted (s : TimerSys) : Prop where
  armed : 0 < s.first
  deadline : s.tmr.expireTick =
    if s.tmr.intervalTicks = 0 ∧ s.fired ≠ 0 then 0 else s.first + s.fired * s.tmr.intervalTicks
  bits : s.bits.thread = false
  queued : s.bits.process = true → s.announced ≤ s.fired ∧
    s.tmr.overrunCur = s.fired - s.announced
  delivered : (s.latched = true → s.overruns = 0) →
    (if s.bits.process then s.tmr.overrunLast else s.tmr.overrunCur) = s.overruns

variable {s s' : TimerSys} {l : TimerLabel} {now : Nat}

section
variable (h : s.Counted)
include h

theorem Counted.any : s.bits.any = s.bits.process := by
  rw [SignalBits.any, h.bits, Bool.or_false]

theorem Counted.signalPending (seen : s.tmr.thread = true → s.bits.any = false) :
    s.tmr.signalPending s.bits = s.bits.process := by
  unfold PosixTimer.signalPending
  split
  · next thread => rw [h.bits, ← h.any, seen thread]
  · rfl

/-- The code's count is the number of expirations since the last tick. -/
theorem Counted.expirations (due : s.tmr.due now = true) :
    0 < s.tmr.expirations now ∧
      expired s.first s.tmr.intervalTicks now = s.fired + s.tmr.expirations now := by
  obtain ⟨armed, reached⟩ := of_decide_eq_true due
  have deadline := h.deadline
  unfold PosixTimer.expirations
  by_cases single : s.tmr.intervalTicks = 0
  · have fresh : s.fired = 0 := by
      by_contra again
      exact armed (deadline.trans (if_pos ⟨single, again⟩))
    rw [if_neg fun both => both.2 fresh, fresh, Nat.zero_mul, Nat.add_zero] at deadline
    obtain ⟨d, rfl⟩ := Nat.exists_eq_add_of_le (deadline ▸ reached)
    rw [if_neg (not_not.mpr single), fresh, expired_add, single, Nat.div_zero]
    exact ⟨Nat.one_pos, rfl⟩
  · rw [if_neg fun both => single both.1] at deadline
    obtain ⟨d, rfl⟩ := Nat.exists_eq_add_of_le reached
    rw [if_pos single, Nat.add_sub_cancel_left, deadline, Nat.add_assoc, expired_add,
      Nat.add_comm (s.fired * _), Nat.add_mul_div_right _ _ (Nat.pos_of_ne_zero single)]
    generalize d / s.tmr.intervalTicks = more
    omega

/-- The deadline moves to the next expiration. -/
theorem Counted.rearm (due : s.tmr.due now = true) (small : now + s.tmr.intervalTicks < 2 ^ 64) :
    s.tmr.rearm now = if s.tmr.intervalTicks = 0 then 0
      else s.first + expired s.first s.tmr.intervalTicks now * s.tmr.intervalTicks := by
  unfold PosixTimer.rearm
  split
  · rfl
  · next periodic =>
    have after := @lt_next s.first _ now (Nat.pos_of_ne_zero periodic)
    have deadline := h.deadline
    rw [if_neg fun both => periodic both.1] at deadline
    have next : s.tmr.expireTick + s.tmr.expirations now * s.tmr.intervalTicks =
        s.first + expired s.first s.tmr.intervalTicks now * s.tmr.intervalTicks := by
      rw [(h.expirations due).2, Nat.add_mul, deadline, Nat.add_assoc]
    have bound : s.tmr.expireTick + s.tmr.expirations now * s.tmr.intervalTicks ≤
        now + s.tmr.intervalTicks := by
      have reached := (of_decide_eq_true due).2
      have whole := Nat.div_mul_le_self (now - s.tmr.expireTick) s.tmr.intervalTicks
      rw [PosixTimer.expirations, if_pos periodic, Nat.add_mul]
      omega
    rw [Nat.mod_eq_of_lt (bound.trans_lt small), next]
    exact if_neg (Nat.not_le.mpr after)

/-- A timer that is not due has not expired since the last tick. -/
theorem Counted.fired_eq (later : s.now ≤ now) (idle : ¬ s.tmr.due now = true) :
    expired s.first s.tmr.intervalTicks now = s.fired := by
  refine Nat.le_antisymm ?_ (expired_mono later)
  have deadline := h.deadline
  by_cases spent : s.tmr.intervalTicks = 0 ∧ s.fired ≠ 0
  -- a timer without an interval expires once
  · rcases Nat.lt_or_ge now s.first with early | after
    · exact (expired_before early).trans_le (Nat.zero_le _)
    · obtain ⟨d, rfl⟩ := Nat.exists_eq_add_of_le after
      rw [expired_add, spent.1, Nat.div_zero]
      exact Nat.pos_of_ne_zero spent.2
  · rw [if_neg spent] at deadline
    refine expired_le (Nat.lt_of_not_le fun reached => ?_)
    refine idle (decide_eq_true ⟨?_, deadline ▸ reached⟩)
    have armed := h.armed
    omega

theorem Counted.tick (orderly : s.Orderly (.tick now)) (taken : s.step (.tick now) = some s') :
    s'.Counted := by
  obtain ⟨later, taken⟩ := Option.ite_none_right_eq_some.mp taken
  by_cases due : s.tmr.due now = true
  · rw [if_pos due] at taken
    cases taken
    have pending := h.signalPending fun thread => orderly.2 thread due
    have rearm := h.rearm due orderly.1
    obtain ⟨some_, fired⟩ := h.expirations due
    have deadline : s.tmr.rearm now = if s.tmr.intervalTicks = 0 ∧
        expired s.first s.tmr.intervalTicks now ≠ 0 then 0
        else s.first + expired s.first s.tmr.intervalTicks now * s.tmr.intervalTicks := by
      rw [rearm]
      refine if_congr (iff_self_and.mpr fun _ => ?_) rfl rfl
      omega
    cases process : s.bits.process with
    | true =>
      obtain ⟨before, count⟩ := h.queued process
      have delivered := h.delivered
      rw [process, if_pos rfl] at delivered
      simp only [PosixTimer.tick, pending, process, if_true, h.any]
      refine ⟨h.armed, deadline, h.bits, fun _ => ⟨?_, ?_⟩, fun unread => ?_⟩
      · exact before.trans (expired_mono later)
      · change s.tmr.overrunCur + _ = expired _ _ _ - s.announced
        rw [fired, count]
        omega
      · rw [process, if_pos rfl]
        exact delivered unread
    | false =>
      have delivered := h.delivered
      rw [process] at delivered
      simp only [PosixTimer.tick, pending, process, h.any, Bool.false_eq_true, if_false]
      refine ⟨h.armed, deadline, h.bits, fun _ => ⟨?_, ?_⟩, delivered⟩
      · change s.fired + 1 ≤ expired s.first s.tmr.intervalTicks now
        omega
      · change s.tmr.expirations now - 1 =
          expired s.first s.tmr.intervalTicks now - (s.fired + 1)
        omega
  · rw [if_neg due] at taken
    cases taken
    have same : fired { s with now } = s.fired := h.fired_eq later due
    refine ⟨h.armed, ?_, h.bits, ?_, h.delivered⟩
    · rw [same]
      exact h.deadline
    · rw [same]
      exact h.queued

theorem Counted.step (orderly : s.Orderly l) (taken : s.step l = some s') : s'.Counted := by
  cases l with
  | tick now => exact h.tick orderly taken
  | deliver =>
    obtain ⟨queued, ⟨⟩⟩ := Option.ite_none_right_eq_some.mp taken
    rw [h.any] at queued
    exact ⟨h.armed, h.deadline, rfl, nofun, fun _ => (h.queued queued).2⟩
  | getoverrun =>
    cases taken
    have pending := h.signalPending orderly.1
    cases process : s.bits.process with
    | true =>
      rw [process] at pending
      simp only [PosixTimer.latch, pending, if_true, Bool.not_true, Bool.or_false]
      exact h
    | false =>
      rw [process] at pending
      simp only [PosixTimer.latch, pending, Bool.not_false, Bool.or_true]
      refine ⟨h.armed, h.deadline, h.bits, fun set => ?_, fun unread => ?_⟩
      · rw [process] at set
        cases set
      · rw [process]
        exact (unread rfl).symm

theorem Counted.reads (orderly : s.Orderly .getoverrun) :
    s.reads = min s.overruns 0x7fffffff := by
  have pending := h.signalPending orderly.1
  rw [← h.delivered orderly.2, TimerSys.reads, PosixTimer.getoverrun, PosixTimer.latch, pending]
  cases s.bits.process <;> rfl

end

/-- A timer that is armed for a deadline. -/
def start (thread : Bool) (interval first : Nat) : TimerSys :=
  { tmr := { thread, intervalTicks := interval, expireTick := first }, first }

/-- In an orderly run a read reports how often the timer expired after the expiration that
queued the last delivered notification and until it was delivered, and so does a second one
right after it. -/
theorem getoverrun_counts {thread : Bool} {interval first : Nat} (armed : 0 < first)
    (run : RunsTo step Orderly (start thread interval first) s) (orderly : s.Orderly .getoverrun) :
    s.reads = min s.overruns 0x7fffffff ∧
      ∀ s', s.step .getoverrun = some s' → s'.Orderly .getoverrun → s'.reads = s.reads := by
  have fresh : (start thread interval first).Counted := by
    have none : (start thread interval first).fired = 0 := expired_before armed
    refine ⟨armed, ?_, rfl, nofun, fun _ => rfl⟩
    rw [none, if_neg fun both => both.2 rfl, Nat.zero_mul]
    rfl
  have counted : s.Counted := run.invariant (fun h orderly => h.step orderly) fresh
  refine ⟨counted.reads orderly, fun s' taken again => ?_⟩
  rw [counted.reads orderly, (counted.step orderly taken).reads again]
  cases taken
  rfl

/-- A timer expires twice at one late tick and once more before the signal is delivered. -/
theorem getoverrun_counts_late :
    ∃ s, RunsTo step Orderly (start false 5 5) s ∧ s.overruns = 2 ∧ s.reads = 2 := by
  obtain ⟨s, run, two, orderly⟩ : ∃ s, RunsTo step Orderly (start false 5 5) s ∧
      s.overruns = 2 ∧ s.Orderly .getoverrun :=
    runsTo_of_execWhile [.tick 12, .tick 15, .deliver] (by decide)
  refine ⟨s, run, two, ?_⟩
  rw [(getoverrun_counts (by decide) run orderly).1, two]
  rfl

/-- The second of two reads in a row reports 0; and the timer of a thread reports 0 at once. -/
theorem overruns_forgotten :
    (∃ s, RunsTo step always (start false 5 5) s ∧
      s.overruns = 1 ∧ s.reads = 1 ∧ (s.step .getoverrun).map reads = some 0) ∧
    ∃ s, RunsTo step always (start true 5 5) s ∧ s.overruns = 1 ∧ s.reads = 0 :=
  ⟨runsTo_of_exec [.tick 5, .tick 10, .deliver] (by decide),
    runsTo_of_exec [.tick 5, .tick 10, .deliver] (by decide)⟩

end TimerSys

end A20OS.Proc
