import A20OS.Errno
import A20OS.Lib.Bytes
import A20OS.Lib.Circular

/-!
Pipes (`kernel/fs/pipe.c`).

A pipe is a circular buffer with a lock. A call is a sequence of critical sections, each up to
where it returns, waits, or has copied a chunk and wakes the other side. `pipeRead`,
`pipePeek`, `pipeWrite` and the two parts of `pipe_resize` are one section each; what a section
does is stated by its effect on the unread bytes.
-/

namespace A20OS.Fs

open Lib List

/-- `PIPE_BUF_SIZE` -/
def pipeBufSize : Nat := 4096

/-- `PIPE_DEFAULT_SIZE` -/
def pipeDefaultSize : Nat := 16 * pipeBufSize

/-- `pipe_buf_t`, without the lock, the wait queues and the ends' descriptors. -/
structure PipeBuf where
  data : List Byte
  capacity : Nat
  head : Nat
  tail : Nat
  used : Nat
  logicalSize : Nat
  writerClosed : Bool
  readerClosed : Bool
deriving DecidableEq

/-- The buffer `pipe_create` makes of the memory it was given. -/
def pipeCreate (data : List Byte) : PipeBuf :=
  { data, capacity := pipeDefaultSize, head := 0, tail := 0, used := 0,
    logicalSize := pipeDefaultSize, writerClosed := false, readerClosed := false }

/-- How a section of a call that transfers bytes to its caller ends; `none` is a wait. -/
abbrev ReadEnd := Option (Except Errno (List Byte))

/-- How a section of `pipe_write` ends, after `n` bytes of the call in the last case. -/
inductive WriteEnd where
  | returned (r : Except Errno Nat)
  | waits
  | copied (n : Nat)
deriving DecidableEq

namespace PipeBuf

/-- The number of bytes a read of `count` bytes transfers. -/
def readable (pb : PipeBuf) (count : Nat) : Nat := if pb.used < count then pb.used else count

/-- The end of a reading section that finds the buffer empty. -/
def emptyEnd (pb : PipeBuf) (nonblock : Bool) : ReadEnd :=
  if pb.writerClosed then some (.ok [])
  else if nonblock then some (.error .EAGAIN)
  else none

/-- The end of a writing section that finds too little space. -/
def fullEnd (pb : PipeBuf) (nonblock : Bool) (n : Nat) : WriteEnd :=
  if pb.readerClosed then .returned (if n > 0 then .ok n else .error .EPIPE)
  else if nonblock then .returned (if n ≠ 0 then .ok n else .error .EAGAIN)
  else .waits

/-- Copy a chunk in at the head. -/
def put (pb : PipeBuf) (chunk : List Byte) : PipeBuf :=
  { pb with
    data := copyIn pb.data pb.capacity pb.head chunk
    head := (pb.head + chunk.length) % pb.capacity
    used := pb.used + chunk.length }

end PipeBuf

/-- A section of `pipe_peek`. -/
def pipePeek (pb : PipeBuf) (nonblock : Bool) (count : Nat) : ReadEnd :=
  if pb.used = 0 then pb.emptyEnd nonblock
  else some (.ok (copyOut pb.data pb.capacity pb.tail (pb.readable count)))

/-- A section of `pipe_read`. -/
def pipeRead (pb : PipeBuf) (nonblock : Bool) (count : Nat) : PipeBuf × ReadEnd :=
  if pb.used = 0 then (pb, pb.emptyEnd nonblock)
  else
    let n := pb.readable count
    ({ pb with tail := (pb.tail + n) % pb.capacity, used := pb.used - n },
      some (.ok (copyOut pb.data pb.capacity pb.tail n)))

/-- A section of `pipe_write` that finds `n` bytes of the call written. -/
def pipeWrite (pb : PipeBuf) (nonblock : Bool) (buf : List Byte) (n : Nat) :
    PipeBuf × WriteEnd :=
  if n < buf.length then
    let remaining := buf.length - n
    let space := pb.capacity - pb.used
    if remaining ≤ pipeBufSize then
      if space < remaining then (pb, pb.fullEnd nonblock n)
      else (pb.put ((buf.drop n).take remaining), .copied (n + remaining))
    else if space = 0 then (pb, pb.fullEnd nonblock n)
    else
      let chunk := if remaining < space then remaining else space
      (pb.put ((buf.drop n).take chunk), .copied (n + chunk))
  else (pb, .returned (.ok n))

/-- The check that `pipe_resize` makes in both of its sections; `none` is to go on. -/
def pipeResizeCheck (pb : PipeBuf) (newCapacity : Nat) : PipeBuf × Option (Except Errno Nat) :=
  if newCapacity < pb.used then (pb, some (.error .EBUSY))
  else if newCapacity = pb.capacity then
    ({ pb with logicalSize := newCapacity }, some (.ok newCapacity))
  else (pb, none)

/-- The second section of `pipe_resize`, with the memory allocated in between. -/
def pipeResizeCommit (pb : PipeBuf) (newCapacity : Nat) (newData : List Byte) :
    PipeBuf × Except Errno Nat :=
  match pipeResizeCheck pb newCapacity with
  | (checked, some r) => (checked, r)
  | (_, none) =>
      ({ pb with
          data := gather newData pb.data pb.capacity pb.tail pb.used
          capacity := newCapacity
          logicalSize := newCapacity
          tail := 0
          head := pb.used % newCapacity },
        .ok newCapacity)

/-! ### What the sections do to the unread bytes -/

namespace PipeBuf

/-- The bytes written and not read yet. -/
def unread (pb : PipeBuf) : List Byte := contents pb.data pb.tail pb.used

/-- The ring is in order. -/
structure Wf (pb : PipeBuf) : Prop where
  length : pb.data.length = pb.capacity
  large : pipeBufSize ≤ pb.capacity
  tail : pb.tail < pb.capacity
  used : pb.used ≤ pb.capacity
  head : pb.head = (pb.tail + pb.used) % pb.capacity

variable {pb : PipeBuf}

theorem Wf.pos (wf : pb.Wf) : 0 < pb.capacity :=
  lt_of_lt_of_le (by decide) wf.large

theorem Wf.length_unread (wf : pb.Wf) : pb.unread.length = pb.used :=
  length_contents (wf.length.symm ▸ wf.used)

theorem readable_le (pb : PipeBuf) (count : Nat) : pb.readable count ≤ pb.used := by
  unfold readable
  split <;> omega

theorem Wf.copyOut_readable (wf : pb.Wf) (count : Nat) :
    copyOut pb.data pb.capacity pb.tail (pb.readable count) = pb.unread.take count := by
  have le := pb.readable_le count
  have fits : pb.used ≤ pb.data.length := wf.length.symm ▸ wf.used
  rw [← wf.length, copyOut_eq (wf.length.symm ▸ wf.tail.le) (le.trans fits), contents_take le]
  change pb.unread.take _ = _
  unfold readable
  split
  · next short =>
    rw [take_of_length_le wf.length_unread.le,
      take_of_length_le (wf.length_unread.le.trans short.le)]
  · rfl

theorem unread_eq_nil (empty : pb.used = 0) : pb.unread = [] := by
  rw [unread, empty]
  rfl

/-- A chunk that fits is appended to the unread bytes. -/
theorem Wf.put (wf : pb.Wf) {chunk : List Byte} (fits : chunk.length ≤ pb.capacity - pb.used) :
    (pb.put chunk).Wf ∧ (pb.put chunk).unread = pb.unread ++ chunk := by
  have capacity := wf.pos
  obtain ⟨length, large, tail, used, head⟩ := wf
  have pos : 0 < pb.data.length := by omega
  have inside : pb.head ≤ pb.data.length := by
    rw [length, head]
    exact (Nat.mod_lt _ capacity).le
  constructor
  · refine ⟨?_, large, tail, ?_, ?_⟩
    · change (copyIn pb.data pb.capacity pb.head chunk).length = pb.capacity
      rw [← length, length_copyIn inside (by omega)]
    · change pb.used + chunk.length ≤ pb.capacity
      omega
    · change (pb.head + chunk.length) % pb.capacity =
        (pb.tail + (pb.used + chunk.length)) % pb.capacity
      rw [head, Nat.mod_add_mod, Nat.add_assoc]
  · change contents (copyIn pb.data pb.capacity pb.head chunk) pb.tail (pb.used + chunk.length) = _
    rw [head, ← length, contents_copyIn pos (by omega)]
    rfl

end PipeBuf

variable {pb : PipeBuf} {nonblock : Bool} {count : Nat} {bytes : List Byte}

theorem pipePeek_ok (wf : pb.Wf) (ended : pipePeek pb nonblock count = some (.ok bytes)) :
    bytes = pb.unread.take count := by
  obtain ⟨empty, ended⟩ | ⟨-, ⟨⟩⟩ := ite_eq_iff.mp ended
  · rw [PipeBuf.unread_eq_nil empty, take_nil]
    unfold PipeBuf.emptyEnd at ended
    split at ended
    · cases ended
      rfl
    · split at ended <;> cases ended
  · exact wf.copyOut_readable count

/-- A read ends as a peek at the same time does. -/
theorem pipeRead_end (pb : PipeBuf) (nonblock : Bool) (count : Nat) :
    (pipeRead pb nonblock count).2 = pipePeek pb nonblock count := by
  unfold pipeRead pipePeek
  split <;> rfl

/-- What a read returns it has taken from the front of the unread bytes. -/
theorem pipeRead_ok (wf : pb.Wf) {pb' : PipeBuf}
    (ended : pipeRead pb nonblock count = (pb', some (.ok bytes))) :
    pb'.Wf ∧ bytes = pb.unread.take count ∧ pb'.unread = pb.unread.drop count := by
  have taken : bytes = pb.unread.take count :=
    pipePeek_ok wf (by rw [← pipeRead_end, ended])
  obtain ⟨empty, ended⟩ | ⟨-, ⟨⟩⟩ := ite_eq_iff.mp ended
  · obtain rfl := (Prod.mk.inj ended).1
    exact ⟨wf, taken, by rw [PipeBuf.unread_eq_nil empty, drop_nil]⟩
  have le := pb.readable_le count
  have fits : pb.used ≤ pb.data.length := wf.length.symm ▸ wf.used
  refine ⟨⟨wf.length, wf.large, Nat.mod_lt _ wf.pos, ?_, ?_⟩, taken, ?_⟩
  · exact (Nat.sub_le _ _).trans wf.used
  · rw [wf.head, Nat.mod_add_mod, Nat.add_assoc, Nat.add_sub_cancel' le]
  · change contents pb.data ((pb.tail + pb.readable count) % pb.capacity) _ = _
    rw [← wf.length, contents_advance le fits]
    change pb.unread.drop _ = _
    unfold PipeBuf.readable
    split
    · next short =>
      rw [drop_of_length_le wf.length_unread.le,
        drop_of_length_le (wf.length_unread.le.trans short.le)]
    · rfl

theorem pipeRead_other (ended : ∀ bytes, (pipeRead pb nonblock count).2 ≠ some (.ok bytes)) :
    (pipeRead pb nonblock count).1 = pb := by
  unfold pipeRead at ended ⊢
  by_cases empty : pb.used = 0
  · rw [if_pos empty]
  · rw [if_neg empty] at ended
    exact absurd rfl (ended _)

/-- What a section of a write copied: a non-empty chunk of the rest of the call's bytes, and
all of them if they are at most `PIPE_BUF_SIZE`. -/
structure Copied (pb pb' : PipeBuf) (buf : List Byte) (n m : Nat) : Prop where
  wf : pb'.Wf
  more : n < m
  bound : m ≤ buf.length
  appended : pb'.unread = pb.unread ++ (buf.drop n).take (m - n)
  whole : buf.length - n ≤ pipeBufSize → m = buf.length

theorem Copied.put (wf : pb.Wf) {buf : List Byte} {n chunk : Nat} (pos : 0 < chunk)
    (rest : n + chunk ≤ buf.length) (fits : chunk ≤ pb.capacity - pb.used)
    (whole : buf.length - n ≤ pipeBufSize → n + chunk = buf.length) :
    Copied pb (pb.put ((buf.drop n).take chunk)) buf n (n + chunk) := by
  have len : ((buf.drop n).take chunk).length = chunk := by
    rw [length_take, length_drop]
    omega
  obtain ⟨wf', appended⟩ := wf.put (len.symm ▸ fits)
  refine ⟨wf', by omega, rest, ?_, whole⟩
  rw [appended, Nat.add_sub_cancel_left]

/-- A section of a write copies a chunk, or it leaves the buffer as it was. -/
theorem pipeWrite_cases (wf : pb.Wf) (nonblock : Bool) (buf : List Byte) (n : Nat) :
    (∃ pb' m, pipeWrite pb nonblock buf n = (pb', .copied m) ∧ Copied pb pb' buf n m) ∨
    ((pipeWrite pb nonblock buf n).1 = pb ∧ ∀ m, (pipeWrite pb nonblock buf n).2 ≠ .copied m) := by
  have full : ∀ m, pb.fullEnd nonblock n ≠ .copied m := by
    intro m
    unfold PipeBuf.fullEnd
    split
    · nofun
    · split <;> nofun
  unfold pipeWrite
  by_cases unfinished : n < buf.length
  · rw [if_pos unfinished]
    by_cases small : buf.length - n ≤ pipeBufSize
    · rw [if_pos small]
      by_cases short : pb.capacity - pb.used < buf.length - n
      · rw [if_pos short]
        exact .inr ⟨rfl, full⟩
      · rw [if_neg short]
        exact .inl ⟨_, _, rfl, .put wf (by omega) (by omega) (by omega) (by omega)⟩
    · rw [if_neg small]
      by_cases none_ : pb.capacity - pb.used = 0
      · rw [if_pos none_]
        exact .inr ⟨rfl, full⟩
      · rw [if_neg none_]
        refine .inl ⟨_, _, rfl, .put wf ?_ ?_ ?_ (fun le => absurd le small)⟩ <;>
          split <;> omega
  · rw [if_neg unfinished]
    exact .inr ⟨rfl, nofun⟩

theorem pipeResizeCheck_unread (wf : pb.Wf) (newCapacity : Nat) :
    (pipeResizeCheck pb newCapacity).1.Wf ∧
      (pipeResizeCheck pb newCapacity).1.unread = pb.unread := by
  unfold pipeResizeCheck
  split
  · exact ⟨wf, rfl⟩
  · split
    · exact ⟨{ wf with }, rfl⟩
    · exact ⟨wf, rfl⟩

/-- A resize changes no unread byte. -/
theorem pipeResizeCommit_unread (wf : pb.Wf) {newCapacity : Nat} {newData : List Byte}
    (large : pipeBufSize ≤ newCapacity) (allocated : newData.length = newCapacity) :
    (pipeResizeCommit pb newCapacity newData).1.Wf ∧
      (pipeResizeCommit pb newCapacity newData).1.unread = pb.unread := by
  have checked := pipeResizeCheck_unread wf newCapacity
  unfold pipeResizeCommit
  cases result : pipeResizeCheck pb newCapacity with
  | mk pb' ended =>
    rw [result] at checked
    cases ended with
    | some r => exact checked
    | none =>
      have room : pb.used ≤ newCapacity := by
        obtain ⟨-, ⟨⟩⟩ | ⟨enough, -⟩ := ite_eq_iff.mp result
        exact Nat.le_of_not_lt enough
      have fits : pb.used ≤ pb.data.length := wf.length.symm ▸ wf.used
      have pos : 0 < newCapacity := lt_of_lt_of_le (by decide) large
      have gathered : gather newData pb.data pb.capacity pb.tail pb.used =
          pb.unread ++ newData.drop pb.used := by
        rw [← wf.length, gather_eq fits (by omega)]
        rfl
      have length : (gather newData pb.data pb.capacity pb.tail pb.used).length =
          newCapacity := by
        rw [gathered, length_append, wf.length_unread, length_drop]
        omega
      refine ⟨⟨length, large, pos, room, (congrArg (· % newCapacity) (Nat.zero_add _)).symm⟩, ?_⟩
      change contents (gather newData pb.data pb.capacity pb.tail pb.used) 0 pb.used = _
      rw [gathered, contents, rotate_zero, take_append_of_le_length
        wf.length_unread.ge, take_of_length_le wf.length_unread.le]

theorem wf_pipeCreate {data : List Byte} (allocated : data.length = pipeDefaultSize) :
    (pipeCreate data).Wf :=
  ⟨allocated, Nat.le_mul_of_pos_left _ (by decide), Nat.succ_pos _, Nat.zero_le _, rfl⟩

/-! ### Polling -/

def pollIn : BitVec 16 := 0x001
def pollOut : BitVec 16 := 0x004
def pollErr : BitVec 16 := 0x008
def pollHup : BitVec 16 := 0x010

/-- `pipe_poll_events` at the reading or the writing end. -/
def pipePollEvents (pb : PipeBuf) (reader : Bool) (events : BitVec 16) : BitVec 16 :=
  if reader then
    (if events &&& pollIn ≠ 0 ∧ pb.used > 0 then pollIn else 0) |||
      (if pb.writerClosed then pollHup else 0)
  else
    (if events &&& pollOut ≠ 0 ∧ pb.used < pb.capacity ∧ !pb.readerClosed then pollOut else 0) |||
      (if pb.readerClosed then pollErr else 0)

/-- The end of the first section of a `pipe_write` of some bytes. -/
def pipeWriteStart (pb : PipeBuf) (nonblock : Bool) (buf : List Byte) : WriteEnd :=
  if pb.readerClosed then .returned (.error .EPIPE) else (pipeWrite pb nonblock buf 0).2

theorem pollOut_iff {pb : PipeBuf} {events : BitVec 16} :
    pipePollEvents pb false events &&& pollOut ≠ 0 ↔
      events &&& pollOut ≠ 0 ∧ pb.used < pb.capacity ∧ !pb.readerClosed := by
  unfold pipePollEvents
  rw [if_neg Bool.false_ne_true]
  split
  · next asked =>
    refine iff_of_true ?_ asked
    split <;> decide
  · next asked =>
    refine iff_of_false ?_ asked
    split <;> decide

theorem pipeWriteStart_eq {pb : PipeBuf} {buf : List Byte} (some_ : 0 < buf.length)
    (small : buf.length ≤ pipeBufSize) (opened : pb.readerClosed = false) :
    pipeWriteStart pb true buf =
      if buf.length ≤ pb.capacity - pb.used then .copied buf.length
      else .returned (.error .EAGAIN) := by
  by_cases fits : buf.length ≤ pb.capacity - pb.used
  · simp [pipeWriteStart, pipeWrite, opened, some_, small, fits, fits.not_gt]
  · simp [pipeWriteStart, pipeWrite, PipeBuf.fullEnd, opened, some_, small, fits,
      Nat.lt_of_not_le fits]

/-- **Polling against writing.** That the writing end is reported writable keeps a nonblocking
write of at most `PIPE_BUF_SIZE` bytes from being refused exactly when the end is not reported
so, or the bytes fit into the free space. A write that is not refused copies all its bytes, and
returns their number in whatever state its second section finds the pipe. -/
theorem pipePollEvents_writable (pb : PipeBuf) (events : BitVec 16) (buf : List Byte)
    (some_ : 0 < buf.length) (small : buf.length ≤ pipeBufSize) :
    ((pipePollEvents pb false events &&& pollOut ≠ 0 →
        pipeWriteStart pb true buf ≠ .returned (.error .EAGAIN)) ↔
      events &&& pollOut = 0 ∨ pb.capacity ≤ pb.used ∨ pb.readerClosed = true ∨
        buf.length ≤ pb.capacity - pb.used) ∧
      ∀ pb', pipeWrite pb' true buf buf.length = (pb', .returned (.ok buf.length)) := by
  refine ⟨?_, fun pb' => if_neg (Nat.lt_irrefl _)⟩
  rw [pollOut_iff]
  by_cases reported : events &&& pollOut ≠ 0 ∧ pb.used < pb.capacity ∧ !pb.readerClosed
  · obtain ⟨asked, room, opened⟩ := reported
    rw [Bool.not_eq_true'] at opened
    rw [pipeWriteStart_eq some_ small opened]
    by_cases fits : buf.length ≤ pb.capacity - pb.used
    · simp [fits]
    · simp [fits, room, opened]
  · refine iff_of_true (fun now => absurd now reported) ?_
    by_contra none_
    simp only [not_or, not_le, Bool.not_eq_true] at none_
    exact reported ⟨none_.1, none_.2.1, by rw [none_.2.2.1]; rfl⟩

/-- One free byte is enough to be reported writable, and a write of one byte succeeds. -/
theorem pipePollEvents_writable_byte :
    ∃ pb : PipeBuf, pb.capacity - pb.used = 1 ∧ pipePollEvents pb false pollOut = pollOut ∧
      pipeWriteStart pb true [7] ≠ .returned (.error .EAGAIN) := by
  refine ⟨{ pipeCreate [] with used := pipeDefaultSize - 1 }, by decide, by decide, ?_⟩
  exact (pipePollEvents_writable _ pollOut [7] (by decide) (by decide)).1.mpr
    (.inr (.inr (.inr (by decide)))) (by decide)

/-- A full ring but for one byte is reported writable, and a write of two bytes is refused. -/
theorem writable_refuses_pair :
    ∃ pb : PipeBuf, pb.Wf ∧ pipePollEvents pb false pollOut = pollOut ∧
      pipeWriteStart pb true [7, 8] = .returned (.error .EAGAIN) := by
  refine ⟨{ pipeCreate (replicate pipeDefaultSize 0) with
    used := pipeDefaultSize - 1, head := pipeDefaultSize - 1 }, ?_, by decide, by decide⟩
  exact { wf_pipeCreate length_replicate with used := by decide, head := by decide }

end A20OS.Fs
