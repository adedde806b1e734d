import A20OS.Lib.Bytes

/-!
The framing of the UART transport (`kernel/cluster/uart.h`): SLIP encoder and decoder.

The encoder puts an END before and after the frame and escapes END and ESC inside. To the
decoder an END opens a frame or closes it, so after garbage the first END of a frame may close
the garbage, and that frame is skipped. From then on the two are in step: a ready decoder
delivers the frame it is fed (`feed_image`), and any image makes it ready (`resync_image`).
-/

namespace A20OS.Cluster

open Lib List

def slipEnd : Byte := 0xC0
def slipEsc : Byte := 0xDB
def slipEscEnd : Byte := 0xDC
def slipEscEsc : Byte := 0xDD

/-! ### Encoder -/

/-- The loop body of `a20_clx_slip_encode`. -/
def slipEscape (b : Byte) : List Byte :=
  if b = slipEnd then [slipEsc, slipEscEnd]
  else if b = slipEsc then [slipEsc, slipEscEsc]
  else [b]

/-- `A20_CLX_SLIP_ENCODED_LEN`, in the 32 bits of its type. -/
def slipEncodedLen (len : Nat) : Nat := (len * 2 + 2) % 2 ^ 32

/-- `a20_clx_slip_encode`: what is written to a buffer of `outCap` bytes. -/
def slipEncode (frame : List Byte) (outCap : Nat) : Option (List Byte) :=
  if slipEncodedLen frame.length > outCap then none
  else some (slipEnd :: (frame.flatMap slipEscape ++ [slipEnd]))

/-! ### Decoder -/

abbrev Ticks := BitVec 64

/-- `a20_clx_slip_rx_t`; `buf` is the part of the buffer below `len`. -/
structure SlipRx where
  buf : List Byte
  cap : Nat
  interbyteTicks : Ticks
  lastByteTicks : Ticks
  inFrame : Bool
  inEscape : Bool
  overflow : Bool
deriving DecidableEq

/-- The return codes `1`, `0` and `-1` of `a20_clx_slip_rx_byte`. -/
inductive SlipResult where
  | frame | consumed | discarded
deriving DecidableEq, Repr

namespace SlipRx

/-- `a20_clx_slip_rx_init`. -/
def init (cap : Nat) (interbyteTicks : Ticks) : SlipRx where
  buf := []
  cap
  interbyteTicks
  lastByteTicks := 0
  inFrame := false
  inEscape := false
  overflow := false

/-- `a20_clx_slip_rx_reset`. -/
def reset (rx : SlipRx) : SlipRx :=
  { rx with buf := [], inFrame := false, inEscape := false, overflow := false }

/-- A data byte of an open frame. -/
def store (rx : SlipRx) (b : Byte) : SlipRx × SlipResult :=
  if rx.overflow then (rx, .consumed)
  else if rx.cap ≤ rx.buf.length then ({ rx with overflow := true }, .discarded)
  else ({ rx with buf := rx.buf ++ [b] }, .consumed)

/-- The byte after an ESC. -/
def unescape (rx : SlipRx) (b : Byte) : SlipRx × SlipResult :=
  let rx := { rx with inEscape := false }
  if b = slipEscEnd then if rx.inFrame then rx.store slipEnd else (rx, .consumed)
  else if b = slipEscEsc then if rx.inFrame then rx.store slipEsc else (rx, .consumed)
  else (rx, .consumed)

/-- An END outside of an escape. -/
def delimiter (rx : SlipRx) : SlipRx × SlipResult :=
  if rx.inFrame = false then ({ rx with inFrame := true, buf := [], overflow := false }, .consumed)
  else if rx.overflow then (rx.reset, .consumed)
  else if rx.buf = [] then (rx, .consumed)
  else ({ rx with inFrame := false }, .frame)

/-- `a20_clx_slip_rx_byte`. -/
def rxByte (rx : SlipRx) (b : Byte) (now : Ticks) : SlipRx × SlipResult :=
  let rx := { rx with lastByteTicks := now }
  if rx.inEscape then rx.unescape b
  else if b = slipEnd then rx.delimiter
  else if rx.inFrame = false then (rx, .consumed)
  else if b = slipEsc then ({ rx with inEscape := true }, .consumed)
  else rx.store b

/-- `a20_clx_slip_rx_timeout`. -/
def timeout (rx : SlipRx) (now : Ticks) : SlipRx × Bool :=
  if rx.inFrame = false then (rx, false)
  else if now - rx.lastByteTicks ≤ rx.interbyteTicks then (rx, false)
  else (rx.reset, true)

/-- Feed bytes with the ticks they come at; the frames delivered on the way. -/
def feed (rx : SlipRx) : List (Byte × Ticks) → SlipRx × List (List Byte)
  | [] => (rx, [])
  | (b, now) :: rest =>
      let next := rx.rxByte b now
      let later := next.1.feed rest
      (later.1, if next.2 = .frame then next.1.buf :: later.2 else later.2)

variable {rx : SlipRx} {stream : List (Byte × Ticks)} {b : Byte} {frame : List Byte}

theorem feed_append (front back : List (Byte × Ticks)) :
    rx.feed (front ++ back) =
      (((rx.feed front).1.feed back).1, (rx.feed front).2 ++ ((rx.feed front).1.feed back).2) := by
  induction front generalizing rx with
  | nil => rfl
  | cons byte rest ih =>
    simp only [cons_append, feed, ih]
    split <;> rfl

/-! ### States -/

/-- The decoder waits for an END. -/
structure Hunting (rx : SlipRx) : Prop where
  outside : rx.inFrame = false
  plain : rx.inEscape = false

/-- A frame is open, and no escape is. -/
structure Within (rx : SlipRx) : Prop where
  inside : rx.inFrame = true
  plain : rx.inEscape = false

/-- The open frame has the given bytes so far. -/
structure Holds (rx : SlipRx) (data : List Byte) : Prop extends Within rx where
  fits : rx.overflow = false
  bytes : rx.buf = data

/-- The next END opens a frame or changes nothing. -/
def Ready (rx : SlipRx) : Prop := rx.Hunting ∨ rx.Holds []

/-- An escape is open only inside a frame. -/
def Coherent (rx : SlipRx) : Prop := rx.inEscape = true → rx.inFrame = true

theorem store_fields (rx : SlipRx) (b : Byte) :
    (rx.store b).1.inFrame = rx.inFrame ∧ (rx.store b).1.inEscape = rx.inEscape ∧
      (rx.store b).1.cap = rx.cap ∧ (rx.store b).2 ≠ .frame := by
  unfold store
  by_cases full : rx.overflow = true
  · rw [if_pos full]
    exact ⟨rfl, rfl, rfl, nofun⟩
  rw [if_neg full]
  by_cases full : rx.cap ≤ rx.buf.length
  · rw [if_pos full]
    exact ⟨rfl, rfl, rfl, nofun⟩
  · rw [if_neg full]
    exact ⟨rfl, rfl, rfl, nofun⟩

theorem rxByte_cap (rx : SlipRx) (b : Byte) (now : Ticks) : (rx.rxByte b now).1.cap = rx.cap := by
  unfold rxByte unescape delimiter
  dsimp only
  repeat' split
  all_goals first
    | rfl
    | exact (store_fields _ _).2.2.1

@[simp] theorem feed_cap : (rx.feed stream).1.cap = rx.cap := by
  induction stream generalizing rx with
  | nil => rfl
  | cons byte rest ih => exact ih.trans (rxByte_cap rx byte.1 byte.2)

theorem unescape_plain : (rx.unescape b).1.inEscape = false := by
  unfold unescape
  dsimp only
  repeat' split
  all_goals first
    | rfl
    | exact (store_fields _ _).2.1

theorem delimiter_plain (rx : SlipRx) (plain : rx.inEscape = false) :
    rx.delimiter.1.inEscape = false := by
  unfold delimiter
  repeat' split
  all_goals first
    | exact plain
    | rfl

theorem rxByte_coherent (rx : SlipRx) (b : Byte) (now : Ticks) : (rx.rxByte b now).1.Coherent := by
  intro escape
  unfold rxByte at escape ⊢
  by_cases escaped : rx.inEscape = true
  · rw [if_pos escaped, unescape_plain] at escape
    cases escape
  have plain := Bool.eq_false_of_not_eq_true escaped
  rw [if_neg escaped] at escape ⊢
  by_cases isEnd : b = slipEnd
  · rw [if_pos isEnd, delimiter_plain { rx with lastByteTicks := now } plain] at escape
    cases escape
  rw [if_neg isEnd] at escape ⊢
  by_cases outside : rx.inFrame = false
  · rw [if_pos outside] at escape
    exact absurd escape escaped
  rw [if_neg outside] at escape ⊢
  have inside := Bool.eq_true_of_not_eq_false outside
  by_cases isEsc : b = slipEsc
  · rw [if_pos isEsc]
    exact inside
  · rw [if_neg isEsc]
    exact (store_fields _ _).1.trans inside

theorem feed_coherent (coherent : rx.Coherent) (stream : List (Byte × Ticks)) :
    (rx.feed stream).1.Coherent := by
  induction stream generalizing rx with
  | nil => exact coherent
  | cons byte rest ih => exact ih (rxByte_coherent rx byte.1 byte.2)

/-! ### Single bytes -/

theorem rxByte_hunting (hunting : rx.Hunting) (other : b ≠ slipEnd) (now : Ticks) :
    rx.rxByte b now = ({ rx with lastByteTicks := now }, .consumed) := by
  simp [rxByte, hunting.plain, hunting.outside, other]

theorem rxByte_end_hunting (hunting : rx.Hunting) (now : Ticks) :
    rx.rxByte slipEnd now =
      ({ rx with lastByteTicks := now, inFrame := true, buf := [], overflow := false },
        .consumed) := by
  simp [rxByte, delimiter, hunting.plain, hunting.outside]

theorem rxByte_esc (within : rx.Within) (now : Ticks) :
    rx.rxByte slipEsc now = ({ rx with lastByteTicks := now, inEscape := true }, .consumed) := by
  have other : slipEsc ≠ slipEnd := by decide
  simp [rxByte, within.plain, within.inside, other]

theorem rxByte_data (within : rx.Within) (noEnd : b ≠ slipEnd) (noEsc : b ≠ slipEsc)
    (now : Ticks) : rx.rxByte b now = { rx with lastByteTicks := now }.store b := by
  simp [rxByte, within.plain, within.inside, noEnd, noEsc]

/-! ### Escaped bytes -/

/-- Outside of a frame an escaped byte is noise. -/
theorem feed_escape_hunting (hunting : rx.Hunting) (image : stream.map Prod.fst = slipEscape b) :
    (rx.feed stream).2 = [] ∧ (rx.feed stream).1.Hunting := by
  have noEnd : slipEnd ∉ slipEscape b := by
    unfold slipEscape
    repeat' split
    all_goals simp_all [slipEnd, slipEsc, slipEscEnd, slipEscEsc, eq_comm]
  rw [← image] at noEnd
  clear image
  induction stream generalizing rx with
  | nil => exact ⟨rfl, hunting⟩
  | cons byte rest ih =>
    rw [map_cons, mem_cons, not_or] at noEnd
    have noise := rxByte_hunting hunting (Ne.symm noEnd.1) byte.2
    simp only [feed, noise]
    exact ih ⟨hunting.outside, hunting.plain⟩ noEnd.2

/-- Inside of a frame it is one data byte. -/
theorem feed_escape_within (within : rx.Within) (image : stream.map Prod.fst = slipEscape b) :
    ∃ now, rx.feed stream = (({ rx with lastByteTicks := now }.store b).1, []) := by
  unfold slipEscape at image
  -- An escape pair: the first byte opens the escape, the second stores `c`.
  have pair {first second : Byte × Ticks} {c : Byte} (esc : first.1 = slipEsc)
      (stored : ∀ rx : SlipRx, rx.inFrame = true →
        rx.unescape second.1 = { rx with inEscape := false }.store c) :
      rx.feed [first, second] = (({ rx with lastByteTicks := second.2 }.store c).1, []) := by
    have opened : rx.rxByte first.1 first.2 =
        ({ rx with lastByteTicks := first.2, inEscape := true }, .consumed) := by
      rw [esc]
      exact rxByte_esc within first.2
    have closed : { rx with lastByteTicks := first.2, inEscape := true }.rxByte second.1 second.2 =
        { rx with lastByteTicks := second.2 }.store c := by
      simp only [rxByte, if_true]
      rw [stored { rx with lastByteTicks := second.2, inEscape := true } within.inside,
        ← within.plain]
    simp only [feed, opened, closed, reduceCtorEq, if_false]
    rw [if_neg (store_fields _ _).2.2.2]
  by_cases isEnd : b = slipEnd
  · simp only [if_pos isEnd, map_eq_cons_iff, map_eq_nil_iff] at image
    obtain ⟨first, _, rfl, esc, second, _, rfl, escEnd, rfl⟩ := image
    refine ⟨second.2, pair esc fun rx inside => ?_⟩
    simp [unescape, escEnd, inside, isEnd]
  rw [if_neg isEnd] at image
  by_cases isEsc : b = slipEsc
  · simp only [if_pos isEsc, map_eq_cons_iff, map_eq_nil_iff] at image
    obtain ⟨first, _, rfl, esc, second, _, rfl, escEsc, rfl⟩ := image
    have other : slipEscEsc ≠ slipEscEnd := by decide
    refine ⟨second.2, pair esc fun rx inside => ?_⟩
    simp [unescape, escEsc, inside, isEsc, other]
  · rw [if_neg isEsc, map_eq_cons_iff] at image
    obtain ⟨only, last, rfl, plain, image⟩ := image
    obtain rfl := map_eq_nil_iff.mp image
    refine ⟨only.2, ?_⟩
    have data := rxByte_data within isEnd isEsc only.2
    simp only [feed, plain, data]
    rw [if_neg (store_fields _ _).2.2.2]

/-! ### Images of frames -/

/-- What no byte of a frame ends, the bytes between the two ENDs do not end. -/
theorem feed_body {P : SlipRx → Prop}
    (one : ∀ {rx : SlipRx} {stream : List (Byte × Ticks)} {b : Byte}, P rx →
      stream.map Prod.fst = slipEscape b → (rx.feed stream).2 = [] ∧ P (rx.feed stream).1)
    (start : P rx) (image : stream.map Prod.fst = frame.flatMap slipEscape) :
    (rx.feed stream).2 = [] ∧ P (rx.feed stream).1 := by
  induction frame generalizing rx stream with
  | nil =>
    obtain rfl := map_eq_nil_iff.mp image
    exact ⟨rfl, start⟩
  | cons b rest ih =>
    rw [flatMap_cons, map_eq_append_iff] at image
    obtain ⟨front, back, rfl, first, later⟩ := image
    obtain ⟨quiet, still⟩ := one start first
    obtain ⟨quiet', still'⟩ := ih still later
    rw [feed_append, quiet, quiet']
    exact ⟨rfl, still'⟩

/-- Inside of a frame, whatever it holds. -/
theorem feed_body_within (within : rx.Within)
    (image : stream.map Prod.fst = frame.flatMap slipEscape) :
    (rx.feed stream).2 = [] ∧ (rx.feed stream).1.Within := by
  refine feed_body (fun {rx _ b} within first => ?_) within image
  obtain ⟨now, stored⟩ := feed_escape_within within first
  obtain ⟨inside, plain, -, -⟩ := store_fields { rx with lastByteTicks := now } b
  rw [stored]
  exact ⟨rfl, inside.trans within.inside, plain.trans within.plain⟩

/-- A frame that fits is kept byte by byte. -/
theorem feed_body_holds {data : List Byte} (holds : rx.Holds data)
    (room : data.length + frame.length ≤ rx.cap)
    (image : stream.map Prod.fst = frame.flatMap slipEscape) :
    (rx.feed stream).1.Holds (data ++ frame) := by
  induction frame generalizing rx stream data with
  | nil =>
    obtain rfl := map_eq_nil_iff.mp image
    rw [append_nil]
    exact holds
  | cons b rest ih =>
    rw [flatMap_cons, map_eq_append_iff] at image
    obtain ⟨front, back, rfl, first, later⟩ := image
    obtain ⟨now, stored⟩ := feed_escape_within holds.toWithin first
    have below : ¬rx.cap ≤ rx.buf.length := by
      rw [holds.bytes]
      simp only [length_cons] at room
      omega
    have kept : (rx.feed front).1.Holds (data ++ [b]) := by
      rw [stored]
      simp only [store, holds.fits, Bool.false_eq_true, if_false, if_neg below]
      exact ⟨⟨holds.inside, holds.plain⟩, rfl, by rw [holds.bytes]⟩
    rw [feed_append, append_cons]
    refine ih kept ?_ later
    rw [feed_cap, length_append, length_singleton]
    simp only [length_cons] at room
    omega

theorem rxByte_end (plain : rx.inEscape = false) (now : Ticks) :
    rx.rxByte slipEnd now = { rx with lastByteTicks := now }.delimiter := by
  simp [rxByte, plain]

theorem feed_single (byte : Byte × Ticks) : rx.feed [byte] = ((rx.rxByte byte.1 byte.2).1,
      if (rx.rxByte byte.1 byte.2).2 = .frame then [(rx.rxByte byte.1 byte.2).1.buf] else []) :=
  rfl

variable {byte : Byte × Ticks}

theorem feed_head (ready : rx.Ready) (isEnd : byte.1 = slipEnd) :
    (rx.feed [byte]).2 = [] ∧ (rx.feed [byte]).1.Holds [] := by
  rw [feed_single, isEnd]
  rcases ready with hunting | empty
  · rw [rxByte_end_hunting hunting]
    exact ⟨rfl, ⟨rfl, hunting.plain⟩, rfl, rfl⟩
  · have idle : rx.rxByte slipEnd byte.2 = ({ rx with lastByteTicks := byte.2 }, .consumed) := by
      simp [rxByte_end empty.plain, delimiter, empty.inside, empty.fits, empty.bytes]
    rw [idle]
    exact ⟨rfl, ⟨empty.inside, empty.plain⟩, empty.fits, empty.bytes⟩

/-- The END that closes a frame. -/
theorem feed_tail (holds : rx.Holds frame) (nonempty : frame ≠ []) (isEnd : byte.1 = slipEnd) :
    (rx.feed [byte]).2 = [frame] ∧ (rx.feed [byte]).1.Hunting := by
  have closes : rx.rxByte slipEnd byte.2 =
      ({ rx with lastByteTicks := byte.2, inFrame := false }, .frame) := by
    simp [rxByte_end holds.plain, delimiter, holds.inside, holds.fits, holds.bytes, nonempty]
  rw [feed_single, isEnd, closes]
  exact ⟨congrArg (fun data => [data]) holds.bytes, rfl, holds.plain⟩

/-- After the END of any frame the next one can come. -/
theorem feed_end_within (within : rx.Within) (isEnd : byte.1 = slipEnd) :
    (rx.feed [byte]).1.Ready := by
  rw [feed_single, isEnd, rxByte_end within.plain]
  unfold delimiter
  have inside : ¬rx.inFrame = false := by
    rw [within.inside]
    exact Bool.true_eq_false_eq_False
  rw [if_neg inside]
  by_cases full : rx.overflow = true
  · rw [if_pos full]
    exact .inl ⟨rfl, rfl⟩
  rw [if_neg full]
  by_cases empty : rx.buf = []
  · rw [if_pos empty]
    exact .inr ⟨⟨within.inside, within.plain⟩, Bool.eq_false_of_not_eq_true full, empty⟩
  · rw [if_neg empty]
    exact .inl ⟨rfl, within.plain⟩

section
variable (image : stream.map Prod.fst = slipEnd :: (frame.flatMap slipEscape ++ [slipEnd]))
include image

/-- The image of a frame, cut at its two ENDs. -/
theorem image_split :
    ∃ first body last, stream = [first] ++ (body ++ [last]) ∧ first.1 = slipEnd ∧
      body.map Prod.fst = frame.flatMap slipEscape ∧ last.1 = slipEnd := by
  obtain ⟨first, rest, rfl, opens, image⟩ := map_eq_cons_iff.mp image
  obtain ⟨body, back, rfl, escaped, image⟩ := map_eq_append_iff.mp image
  obtain ⟨last, none_, rfl, closes, image⟩ := map_eq_cons_iff.mp image
  obtain rfl := map_eq_nil_iff.mp image
  exact ⟨first, body, last, rfl, opens, escaped, closes⟩

/-- A decoder that is ready delivers exactly the frame, and is ready for the next. -/
theorem feed_image (ready : rx.Ready) (nonempty : frame ≠ []) (fits : frame.length ≤ rx.cap) :
    (rx.feed stream).2 = [frame] ∧ (rx.feed stream).1.Ready := by
  obtain ⟨first, body, last, rfl, opens, escaped, closes⟩ := image_split image
  obtain ⟨quietHead, opened⟩ := feed_head ready opens
  have kept := feed_body_holds opened (by simpa using fits) escaped
  obtain ⟨quietBody, -⟩ := feed_body_within opened.toWithin escaped
  obtain ⟨delivered, hunting⟩ := feed_tail kept nonempty closes
  rw [feed_append, feed_append, quietHead, quietBody, delivered]
  exact ⟨rfl, .inl hunting⟩

/-- The image of a frame makes any decoder ready. -/
theorem resync_image (coherent : rx.Coherent) : (rx.feed stream).1.Ready := by
  obtain ⟨first, body, last, rfl, opens, escaped, closes⟩ := image_split image
  rw [feed_append, feed_append]
  -- The second END finds the decoder waiting for it or inside of some frame.
  have settled (middle : SlipRx) (split : middle.Hunting ∨ middle.Within) :
      ((middle.feed body).1.feed [last]).1.Ready := by
    rcases split with hunting | within
    · have still := (feed_body feed_escape_hunting hunting escaped).2
      exact .inr (feed_head (.inl still) closes).2
    · exact feed_end_within (feed_body_within within escaped).2 closes
  refine settled _ ?_
  by_cases escaping : rx.inEscape = true
  · have eaten : rx.rxByte slipEnd first.2 =
        ({ rx with lastByteTicks := first.2, inEscape := false }, .consumed) := by
      have noEnd : slipEnd ≠ slipEscEnd := by decide
      have noEsc : slipEnd ≠ slipEscEsc := by decide
      simp [rxByte, escaping, unescape, noEnd, noEsc]
    rw [feed_single, opens, eaten]
    exact .inr ⟨coherent escaping, rfl⟩
  have plain := Bool.eq_false_of_not_eq_true escaping
  by_cases outside : rx.inFrame = false
  · exact .inr (feed_head (.inl ⟨outside, plain⟩) opens).2.toWithin
  · have within : rx.Within := ⟨Bool.eq_true_of_not_eq_false outside, plain⟩
    rcases feed_end_within within opens with hunting | holds
    · exact .inl hunting
    · exact .inr holds.toWithin

end

/-! ### Streams of frames -/

/-- The bytes of `piece` are what the encoder makes of the frame. -/
def Carries (frame : List Byte) (piece : List (Byte × Ticks)) : Prop :=
  ∃ outCap, slipEncode frame outCap = some (piece.map Prod.fst)

theorem Carries.image {piece : List (Byte × Ticks)} (carries : Carries frame piece) :
    piece.map Prod.fst = slipEnd :: (frame.flatMap slipEscape ++ [slipEnd]) := by
  obtain ⟨outCap, encoded⟩ := carries
  unfold slipEncode at encoded
  split at encoded
  · cases encoded
  · exact (Option.some_inj.mp encoded).symm

theorem feed_images {frames : List (List Byte)} {pieces : List (List (Byte × Ticks))}
    (ready : rx.Ready) (carried : List.Forall₂ Carries frames pieces)
    (sized : ∀ frame ∈ frames, frame ≠ [] ∧ frame.length ≤ rx.cap) :
    (rx.feed pieces.flatten).2 = frames := by
  induction carried generalizing rx with
  | nil => rfl
  | cons carries _ ih =>
    obtain ⟨nonempty, fits⟩ := sized _ (.head _)
    obtain ⟨delivered, again⟩ := feed_image carries.image ready nonempty fits
    rw [flatten_cons, feed_append, delivered,
      ih again fun frame member => by simpa using sized frame (.tail _ member)]
    rfl

/-- Whatever the decoder was fed before, from the second frame on it delivers what is
sent, frame by frame; without anything before, it delivers the first frame too. -/
theorem slip_resync (cap : Nat) (interbyteTicks : Ticks) (garbage : List (Byte × Ticks))
    (frames : List (List Byte)) (pieces : List (List (Byte × Ticks)))
    (carried : List.Forall₂ Carries frames pieces)
    (sized : ∀ frame ∈ frames, frame ≠ [] ∧ frame.length ≤ cap) :
    ((init cap interbyteTicks).feed (garbage ++ pieces.flatten)).2 =
        ((init cap interbyteTicks).feed (garbage ++ (pieces.take 1).flatten)).2 ++ frames.drop 1 ∧
      (garbage = [] → ((init cap interbyteTicks).feed pieces.flatten).2 = frames) := by
  have ready : (init cap interbyteTicks).Ready := .inl ⟨rfl, rfl⟩
  refine ⟨?_, fun _ => feed_images ready carried sized⟩
  cases carried with
  | nil => exact (append_nil _).symm
  | @cons frame piece frames pieces carries later =>
    have fresh : (init cap interbyteTicks).Coherent := fun escape => Bool.noConfusion escape
    have synced : ((init cap interbyteTicks).feed (garbage ++ piece)).1.Ready := by
      rw [feed_append]
      exact resync_image carries.image (feed_coherent fresh garbage)
    rw [flatten_cons, ← append_assoc, feed_append]
    have inStep := feed_images synced later fun frame member => by
      simpa [init] using sized frame (.tail _ member)
    simp only [take_succ_cons, take_zero, flatten_cons, flatten_nil,
      append_nil, drop_succ_cons, drop_zero, inStep]

/-- Half a frame, then two frames: the second one comes through. -/
theorem slip_resync_half_frame :
    ((init 4 0).feed ([(slipEnd, 0), (7, 0)] ++
        [[(slipEnd, 0), (1, 0), (slipEnd, 0)], [(slipEnd, 0), (slipEsc, 0), (slipEscEnd, 0),
          (slipEnd, 0)]].flatten)).2 =
      ((init 4 0).feed ([(slipEnd, 0), (7, 0)] ++ [(slipEnd, 0), (1, 0), (slipEnd, 0)])).2 ++
        [[slipEnd]] :=
  (slip_resync 4 0 [(slipEnd, 0), (7, 0)] [[1], [slipEnd]]
    [[(slipEnd, 0), (1, 0), (slipEnd, 0)], [(slipEnd, 0), (slipEsc, 0), (slipEscEnd, 0),
      (slipEnd, 0)]]
    (.cons ⟨4, rfl⟩ (.cons ⟨4, rfl⟩ .nil)) (by decide)).1

end SlipRx

end A20OS.Cluster
