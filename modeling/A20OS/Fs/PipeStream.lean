import A20OS.Fs.Pipe
import A20OS.Lib.Machine

/-!
A pipe is a byte stream.

Any number of threads read, write, peek and resize one pipe, one critical section a step. The
log keeps what the sections transferred, and every write has a number.

The unread bytes are those accepted and not returned so far (`Inv.flow`), and every read and
peek returned the bytes next in line (`Inv.served`); so a peek shows what the next read will
return (`peek_next`). A write of at most `PIPE_BUF_SIZE` bytes is in the log at most once, with
all its bytes (`WriteOk.small`).
-/

namespace A20OS.Fs

open Lib List Option

variable {buf chunk : List Byte} {id n t : Nat} {pb : PipeBuf}

/-- What a critical section transferred. -/
inductive PipeEvent where
  | wrote (id : Nat) (chunk : List Byte)
  | took (count : Nat) (bytes : List Byte)
  | peeked (count : Nat) (bytes : List Byte)
deriving DecidableEq

namespace PipeEvent

def accepted : PipeEvent → List Byte
  | wrote _ chunk => chunk
  | took .. | peeked .. => []

def returned : PipeEvent → List Byte
  | took _ bytes => bytes
  | wrote .. | peeked .. => []

def chunkOf (id : Nat) : PipeEvent → Option (List Byte)
  | wrote i chunk => if i = id then some chunk else none
  | took .. | peeked .. => none

end PipeEvent

/-- The bytes that writes put into the pipe, in order. -/
def accepted (log : List PipeEvent) : List Byte := log.flatMap PipeEvent.accepted

/-- The bytes that reads took out of the pipe, in order. -/
def returned (log : List PipeEvent) : List Byte := log.flatMap PipeEvent.returned

/-- The bytes accepted and not returned. -/
def pending (log : List PipeEvent) : List Byte := (accepted log).drop (returned log).length

/-- The chunks in which a write's bytes were accepted. -/
def chunksOf (id : Nat) (log : List PipeEvent) : List (List Byte) :=
  log.filterMap (PipeEvent.chunkOf id)

/-- A call between two of its critical sections. -/
inductive PipeCall where
  | read (nonblock : Bool) (count : Nat)
  | peek (nonblock : Bool) (count : Nat)
  | write (id : Nat) (nonblock : Bool) (buf : List Byte) (n : Nat) (waiting : Bool)
  | resize (newCapacity : Nat)
deriving DecidableEq

structure PipeSys where
  pb : PipeBuf
  /-- The call each thread is in. -/
  calls : Nat → Option PipeCall := fun _ => none
  /-- The bytes of the writes begun so far, by their numbers. -/
  begun : List (List Byte) := []
  log : List PipeEvent := []

inductive PipeLabel where
  | read (t : Nat) (nonblock : Bool) (count : Nat)
  | peek (t : Nat) (nonblock : Bool) (count : Nat)
  | write (t : Nat) (nonblock : Bool) (buf : List Byte)
  | resize (t : Nat) (size : Nat)
  /-- A thread takes the lock again, after a wait that a signal may have ended. -/
  | resume (t : Nat) (interrupted : Bool)
  /-- The allocation of a resize succeeds or fails; the second section follows. -/
  | alloc (t : Nat) (memory : Option (List Byte))
  | closeRead (last : Bool)
  | closeWrite (last : Bool)

namespace PipeSys

def setCall (s : PipeSys) (t : Nat) (call : Option PipeCall) : PipeSys :=
  { s with calls := Function.update s.calls t call }

/-- A section of a read, by thread `t`. -/
def readSection (s : PipeSys) (t : Nat) (nonblock : Bool) (count : Nat) : PipeSys :=
  match pipeRead s.pb nonblock count with
  | (pb, some (.ok bytes)) => { s.setCall t none with pb, log := s.log ++ [.took count bytes] }
  | (pb, some (.error _)) => { s.setCall t none with pb }
  | (pb, none) => { s.setCall t (some (.read nonblock count)) with pb }

/-- A section of a peek, by thread `t`. -/
def peekSection (s : PipeSys) (t : Nat) (nonblock : Bool) (count : Nat) : PipeSys :=
  match pipePeek s.pb nonblock count with
  | some (.ok bytes) => { s.setCall t none with log := s.log ++ [.peeked count bytes] }
  | some (.error _) => s.setCall t none
  | none => s.setCall t (some (.peek nonblock count))

/-- A section of a write that finds `n` bytes written, by thread `t`. -/
def writeSection (s : PipeSys) (t id : Nat) (nonblock : Bool) (buf : List Byte) (n : Nat) :
    PipeSys :=
  match pipeWrite s.pb nonblock buf n with
  | (pb, .copied m) =>
      { s.setCall t (some (.write id nonblock buf m false)) with
        pb, log := s.log ++ [.wrote id ((buf.drop n).take (m - n))] }
  | (pb, .waits) => { s.setCall t (some (.write id nonblock buf n true)) with pb }
  | (pb, .returned _) => { s.setCall t none with pb }

/-- The first section of a write: the reader must not be gone. -/
def writeEnter (s : PipeSys) (t : Nat) (nonblock : Bool) (buf : List Byte) : PipeSys :=
  if s.pb.readerClosed then s
  else { s with begun := s.begun ++ [buf] }.writeSection t s.begun.length nonblock buf 0

/-- The first section of a resize. -/
def resizeEnter (s : PipeSys) (t size : Nat) : PipeSys :=
  let newCapacity := if size < pipeBufSize then pipeBufSize else size
  match pipeResizeCheck s.pb newCapacity with
  | (pb, some _) => { s with pb }
  | (pb, none) => { s.setCall t (some (.resize newCapacity)) with pb }

/-- Begin a call in a thread that is in none. -/
def begin (s : PipeSys) (t : Nat) (section_ : PipeSys) : Option PipeSys :=
  match s.calls t with
  | none => some section_
  | some _ => none

/-- The next section of the call that a thread is in. -/
def resume (s : PipeSys) (t : Nat) (interrupted : Bool) : Option PipeSys :=
  match s.calls t, interrupted with
  | some (.read nonblock count), false => some (s.readSection t nonblock count)
  | some (.peek nonblock count), false => some (s.peekSection t nonblock count)
  | some (.write id nonblock buf n _), false => some (s.writeSection t id nonblock buf n)
  | some (.read ..), true | some (.peek ..), true | some (.write _ _ _ _ true), true =>
      some (s.setCall t none)
  | _, _ => none

/-- The second section of a resize, or its failure to allocate. -/
def alloc (s : PipeSys) (t : Nat) (memory : Option (List Byte)) : Option PipeSys :=
  match s.calls t, memory with
  | some (.resize _), none => some (s.setCall t none)
  | some (.resize newCapacity), some newData =>
      if newData.length = newCapacity then
        some { s.setCall t none with pb := (pipeResizeCommit s.pb newCapacity newData).1 }
      else none
  | _, _ => none

/-- One critical section. -/
def step (s : PipeSys) : PipeLabel → Option PipeSys
  | .read t nonblock count =>
      s.begin t (if count = 0 then s else s.readSection t nonblock count)
  | .peek t nonblock count =>
      s.begin t (if count = 0 then s else s.peekSection t nonblock count)
  | .write t nonblock buf =>
      s.begin t (if buf.length = 0 then s else s.writeEnter t nonblock buf)
  | .resize t size => s.begin t (s.resizeEnter t size)
  | .resume t interrupted => s.resume t interrupted
  | .alloc t memory => s.alloc t memory
  | .closeRead last => some (if last then { s with pb.readerClosed := true } else s)
  | .closeWrite last => some (if last then { s with pb.writerClosed := true } else s)

/-- A new pipe. -/
def boot (data : List Byte) : PipeSys := { pb := pipeCreate data }

end PipeSys

/-! ### Logs -/

section Logs

variable {log before after l : List PipeEvent} {e : PipeEvent}

theorem accepted_append (l l' : List PipeEvent) : accepted (l ++ l') = accepted l ++ accepted l' :=
  flatMap_append

theorem returned_append (l l' : List PipeEvent) : returned (l ++ l') = returned l ++ returned l' :=
  flatMap_append

@[simp] theorem accepted_concat : accepted (log ++ [e]) = accepted log ++ e.accepted := by
  simp [accepted]

@[simp] theorem returned_concat : returned (log ++ [e]) = returned log ++ e.returned := by
  simp [returned]

@[simp] theorem chunksOf_concat :
    chunksOf id (log ++ [e]) = chunksOf id log ++ (e.chunkOf id).toList := by
  cases found : e.chunkOf id <;> simp [chunksOf, found]

/-- A read and a peek return the bytes next in line. -/
def Served (before : List PipeEvent) : PipeEvent → Prop
  | .wrote .. => True
  | .took count bytes | .peeked count bytes => bytes = (pending before).take count

theorem returned_eq_nil (none_ : ∀ count bytes, .took count bytes ∉ l) : returned l = [] := by
  refine flatMap_eq_nil_iff.mpr fun e member => ?_
  cases e with
  | took count bytes => exact absurd member (none_ count bytes)
  | wrote | peeked => rfl

/-- While nothing is read, the bytes in line stay in line. -/
theorem pending_stays {l' : List PipeEvent} (none_ : returned l' = []) :
    pending l <+: pending (l ++ l') := by
  rw [pending, pending, accepted_append, returned_append, none_, append_nil, drop_append]
  exact prefix_append _ _

/-- A peek shows what the next read returns, as far as the read goes. -/
theorem peek_next (served : EachAfter Served log) {between : List PipeEvent} {count count' : Nat}
    {bytes bytes' : List Byte}
    (split : log = before ++ .peeked count bytes :: (between ++ .took count' bytes' :: after))
    (none_ : ∀ c b, .took c b ∉ between) : bytes.take count' <+: bytes' := by
  have shown : bytes = (pending before).take count := served before _ _ split
  have read : bytes' = (pending (before ++ (.peeked count bytes :: between))).take count' := by
    refine served (before ++ (.peeked count bytes :: between)) (.took count' bytes') after ?_
    rw [split]
    simp
  have silent : returned (.peeked count bytes :: between) = [] := by
    refine returned_eq_nil fun c b member => ?_
    rcases mem_cons.mp member with same | member
    · cases same
    · exact none_ c b member
  rw [read, prefix_take_iff]
  refine ⟨?_, length_take_le _ _⟩
  rw [shown]
  exact (List.take_prefix _ _).trans ((List.take_prefix _ _).trans (pending_stays silent))

theorem accepted_split :
    accepted (before ++ .wrote id chunk :: after) = accepted before ++ chunk ++ accepted after := by
  simp [accepted, PipeEvent.accepted]

/-- The only chunk of a write is somewhere in the log. -/
theorem exists_wrote (only : chunksOf id log = [chunk]) :
    ∃ before after, log = before ++ .wrote id chunk :: after ∧
      chunksOf id before = [] ∧ chunksOf id after = [] := by
  obtain ⟨before, e, after, split, first, found, last⟩ := filterMap_eq_cons_iff.mp only
  refine ⟨before, after, ?_, filterMap_eq_nil_iff.mpr first, last⟩
  cases e with
  | wrote i c =>
    obtain ⟨same, ⟨⟩⟩ | ⟨-, ⟨⟩⟩ := ite_eq_iff.mp found
    rw [split, same]
  | took | peeked => cases found

end Logs

namespace PipeSys

/-! ### The invariant -/

/-- What was accepted of a write: a first part of its bytes, and all of them in one chunk or
none if the write is small. -/
structure WriteOk (buf : List Byte) (chunks : List (List Byte)) : Prop where
  first : chunks.flatten <+: buf
  small : buf.length ≤ pipeBufSize → chunks = [] ∨ chunks = [buf]

/-- Of a write that goes on, the first `n` bytes were accepted. -/
structure Progress (buf : List Byte) (n : Nat) (chunks : List (List Byte)) : Prop where
  sofar : chunks.flatten = buf.take n
  bound : n ≤ buf.length
  small : buf.length ≤ pipeBufSize → chunks = [] ∧ n = 0 ∨ n = buf.length

/-- What is known of a call between two sections. -/
def CallOk (begun : List (List Byte)) (log : List PipeEvent) : PipeCall → Prop
  | .read .. | .peek .. => True
  | .resize newCapacity => pipeBufSize ≤ newCapacity
  | .write id _ buf n _ => begun[id]? = some buf ∧ Progress buf n (chunksOf id log)

theorem CallOk.congr {begun begun' : List (List Byte)} {log log' : List PipeEvent}
    {call : PipeCall} (ok : CallOk begun log call)
    (kept : ∀ {id nb buf n w}, call = .write id nb buf n w → begun[id]? = some buf →
      begun'[id]? = some buf ∧ chunksOf id log' = chunksOf id log) : CallOk begun' log' call := by
  cases call with
  | read | peek | resize => exact ok
  | write id nb buf n w =>
    obtain ⟨begun', chunks⟩ := kept rfl ok.1
    exact ⟨begun', chunks ▸ ok.2⟩

structure Inv (s : PipeSys) : Prop where
  wf : s.pb.Wf
  flow : accepted s.log = returned s.log ++ s.pb.unread
  served : EachAfter Served s.log
  writes : ∀ {id buf}, s.begun[id]? = some buf → WriteOk buf (chunksOf id s.log)
  fresh : ∀ {id}, s.begun.length ≤ id → chunksOf id s.log = []
  calls : ∀ {t call}, s.calls t = some call → CallOk s.begun s.log call
  own : ∀ {t t' id nb nb' buf buf' n n' w w'}, s.calls t = some (.write id nb buf n w) →
    s.calls t' = some (.write id nb' buf' n' w') → t = t'

theorem inv_boot {data : List Byte} (allocated : data.length = pipeDefaultSize) : (boot data).Inv :=
  ⟨wf_pipeCreate allocated, rfl, eachAfter_nil, nofun, fun _ => rfl, nofun, nofun⟩

variable {s s' : PipeSys}

section
variable (inv : s.Inv)
include inv

theorem Inv.pending_eq : pending s.log = s.pb.unread := by
  rw [pending, inv.flow, drop_left]

omit inv in
theorem calls_setCall (call : Option PipeCall) (t' : Nat) :
    (s.setCall t call).calls t' = if t' = t then call else s.calls t' :=
  Function.update_apply ..

/-- Another call replaces the call of a thread. If it is a write, no other thread is in it. -/
theorem Inv.setCall (t : Nat) {call : Option PipeCall}
    (ok : ∀ c, call = some c → CallOk s.begun s.log c)
    (own : ∀ {t' id nb nb' buf buf' n n' w w'}, call = some (.write id nb buf n w) →
      s.calls t' = some (.write id nb' buf' n' w') → t' = t) :
    (s.setCall t call).Inv := by
  refine { inv with calls := ?_, own := ?_ }
  · intro t' c found
    rw [calls_setCall] at found
    obtain ⟨-, found⟩ | ⟨-, found⟩ := ite_eq_iff.mp found
    · exact ok c found
    · exact inv.calls found
  · intro t₁ t₂ id nb nb' buf₁ buf₂ n₁ n₂ w w' found found'
    rw [calls_setCall] at found found'
    obtain ⟨first, found⟩ | ⟨-, found⟩ := ite_eq_iff.mp found <;>
      obtain ⟨second, found'⟩ | ⟨-, found'⟩ := ite_eq_iff.mp found'
    · rw [first, second]
    · exact first.trans (own found found').symm
    · exact (own found' found).trans second.symm
    · exact inv.own found found'

theorem Inv.leave (t : Nat) : (s.setCall t none).Inv :=
  inv.setCall t nofun nofun

theorem Inv.setPb (wf : pb.Wf) (same : pb.unread = s.pb.unread) : { s with pb }.Inv :=
  { inv with wf := wf, flow := inv.flow.trans (by rw [same]) }

/-- A section that transfers bytes to its caller is logged. -/
theorem Inv.record {e : PipeEvent} (wf : pb.Wf) (none_ : e.accepted = [])
    (chunks : ∀ id, e.chunkOf id = none) (taken : s.pb.unread = e.returned ++ pb.unread)
    (served : Served s.log e) : { s with pb, log := s.log ++ [e] }.Inv := by
  have kept : ∀ id, chunksOf id (s.log ++ [e]) = chunksOf id s.log := by
    intro id
    rw [chunksOf_concat, chunks id, toList_none, append_nil]
  refine ⟨wf, ?_, eachAfter_concat.mpr ⟨inv.served, served⟩, ?_, ?_, ?_, inv.own⟩
  · rw [accepted_concat, returned_concat, none_, append_nil, inv.flow, taken, append_assoc]
  · intro id buf found
    rw [kept]
    exact inv.writes found
  · intro id le
    rw [kept]
    exact inv.fresh le
  · intro t call found
    exact (inv.calls found).congr fun _ begun => ⟨begun, kept _⟩

/-! ### Sections -/

theorem Inv.readSection (t : Nat) (nonblock : Bool) (count : Nat) :
    (s.readSection t nonblock count).Inv := by
  unfold PipeSys.readSection
  cases ended : pipeRead s.pb nonblock count with
  | mk pb result =>
    have kept : (∀ bytes, result ≠ some (.ok bytes)) → pb = s.pb := by
      intro other
      have same : (pipeRead s.pb nonblock count).1 = s.pb :=
        pipeRead_other (by rw [ended]; exact other)
      rwa [ended] at same
    cases result with
    | none =>
      obtain rfl := kept nofun
      exact inv.setCall t (fun c found => by cases found; trivial) nofun
    | some result =>
      cases result with
      | error err =>
        obtain rfl := kept nofun
        exact inv.leave t
      | ok bytes =>
        obtain ⟨wf, taken, rest⟩ := pipeRead_ok inv.wf ended
        refine (inv.leave t).record wf rfl (fun _ => rfl) ?_ ?_
        · change s.pb.unread = bytes ++ pb.unread
          rw [taken, rest, take_append_drop]
        · change bytes = (pending s.log).take count
          rw [inv.pending_eq, taken]

theorem Inv.peekSection (t : Nat) (nonblock : Bool) (count : Nat) :
    (s.peekSection t nonblock count).Inv := by
  unfold PipeSys.peekSection
  cases ended : pipePeek s.pb nonblock count with
  | none => exact inv.setCall t (fun c found => by cases found; trivial) nofun
  | some result =>
    cases result with
    | error err => exact inv.leave t
    | ok bytes =>
      refine (inv.leave t).record inv.wf rfl (fun _ => rfl) rfl ?_
      change bytes = (pending s.log).take count
      rw [inv.pending_eq, pipePeek_ok inv.wf ended]

end

/-- The write of a thread stands at `n` bytes. -/
structure Writing (s : PipeSys) (t id : Nat) (buf : List Byte) (n : Nat) : Prop where
  begun : s.begun[id]? = some buf
  progress : Progress buf n (chunksOf id s.log)
  own : ∀ {t' nb buf' n' w}, s.calls t' = some (.write id nb buf' n' w) → t' = t

/-- The write of a thread becomes its call. -/
theorem Inv.setWrite (inv : s.Inv) (writing : s.Writing t id buf n) (nonblock waiting : Bool) :
    (s.setCall t (some (.write id nonblock buf n waiting))).Inv := by
  refine inv.setCall t ?_ ?_
  · rintro c ⟨⟩
    exact ⟨writing.begun, writing.progress⟩
  · rintro t' id' nb nb' buf₁ buf₂ n₁ n₂ w w' ⟨⟩ found
    exact writing.own found

/-- A write of which a chunk was copied. -/
theorem Progress.copied {m : Nat} {chunks : List (List Byte)}
    {pb' : PipeBuf} (progress : Progress buf n chunks) (copied : Copied pb pb' buf n m) :
    Progress buf m (chunks ++ [(buf.drop n).take (m - n)]) ∧
      WriteOk buf (chunks ++ [(buf.drop n).take (m - n)]) := by
  obtain ⟨sofar, bound, small⟩ := progress
  have more := copied.more
  have flat : (chunks ++ [(buf.drop n).take (m - n)]).flatten = buf.take m := by
    rw [flatten_append, sofar, flatten_singleton, ← take_add, Nat.add_sub_cancel' more.le]
  -- A small write had nothing accepted, and now has all.
  have once : buf.length ≤ pipeBufSize →
      chunks ++ [(buf.drop n).take (m - n)] = [buf] ∧ m = buf.length := by
    intro short
    rcases small short with ⟨nothing, rfl⟩ | done
    · have all : m = buf.length := copied.whole (by omega)
      refine ⟨?_, all⟩
      rw [nothing, all, drop_zero, Nat.sub_zero, take_length]
      rfl
    · have := copied.bound
      omega
  exact ⟨⟨flat, copied.bound, fun short => .inr (once short).2⟩,
    ⟨flat ▸ take_prefix _ _, fun short => .inr (once short).1⟩⟩

/-- The state after a chunk of a write was copied. -/
def logChunk (s : PipeSys) (pb : PipeBuf) (id : Nat) (chunk : List Byte) : PipeSys :=
  { s with pb, log := s.log ++ [.wrote id chunk] }

section
variable (inv : s.Inv)
include inv

/-- A chunk of the write of a thread is logged. -/
theorem Inv.logChunk {m : Nat}
    (writing : s.Writing t id buf n) (idle : s.calls t = none) (copied : Copied s.pb pb buf n m) :
    (s.logChunk pb id ((buf.drop n).take (m - n))).Inv ∧
      (s.logChunk pb id ((buf.drop n).take (m - n))).Writing t id buf m := by
  obtain ⟨begun, progress, own⟩ := writing
  obtain ⟨progress', writeOk⟩ := progress.copied copied
  have appended := copied.appended
  generalize (buf.drop n).take (m - n) = chunk at progress' writeOk appended
  have mine : chunksOf id (s.log ++ [.wrote id chunk]) = chunksOf id s.log ++ [chunk] := by
    rw [chunksOf_concat, PipeEvent.chunkOf, if_pos rfl]
    rfl
  have others : ∀ {i}, i ≠ id → chunksOf i (s.log ++ [.wrote id chunk]) = chunksOf i s.log := by
    intro i ne
    rw [chunksOf_concat, PipeEvent.chunkOf, if_neg ne.symm]
    exact append_nil _
  refine ⟨⟨copied.wf, ?_, eachAfter_concat.mpr ⟨inv.served, trivial⟩, ?_, ?_, ?_, inv.own⟩,
    ⟨begun, mine ▸ progress', own⟩⟩
  · change accepted (s.log ++ [.wrote id chunk]) = returned (s.log ++ [.wrote id chunk]) ++
      pb.unread
    rw [accepted_concat, returned_concat, inv.flow, appended, PipeEvent.accepted,
      PipeEvent.returned, append_nil, append_assoc]
  · intro i b found
    change WriteOk b (chunksOf i (s.log ++ [.wrote id chunk]))
    by_cases same : i = id
    · subst same
      obtain rfl : buf = b := some.inj (begun.symm.trans found)
      exact mine ▸ writeOk
    · rw [others same]
      exact inv.writes found
  · intro i le
    have other : i ≠ id := by
      rintro rfl
      exact absurd (List.getElem?_eq_some_iff.mp begun).1 (not_lt.mpr le)
    exact (others other).trans (inv.fresh le)
  · intro t' call found
    refine (inv.calls found).congr ?_
    rintro i nb b k w rfl begun'
    refine ⟨begun', others ?_⟩
    rintro rfl
    -- The write's own thread is in no call.
    have here := own found
    subst here
    exact nomatch idle.symm.trans found

theorem Inv.writeSection (writing : s.Writing t id buf n) (nonblock : Bool) :
    (s.writeSection t id nonblock buf n).Inv := by
  unfold PipeSys.writeSection
  rcases pipeWrite_cases inv.wf nonblock buf n with ⟨pb, m, ended, copied⟩ | ⟨kept, other⟩
  · rw [ended]
    -- The chunk is logged in the state that forgets the thread's call.
    have idle : (s.setCall t none).calls t = none := by rw [calls_setCall, if_pos rfl]
    have writing₀ : (s.setCall t none).Writing t id buf n := by
      refine { writing with own := fun {t' nb buf' n' w} found => ?_ }
      rw [calls_setCall] at found
      split at found
      · cases found
      · exact writing.own found
    obtain ⟨inv₁, writing₁⟩ := (inv.leave t).logChunk writing₀ idle copied
    have done := inv₁.setWrite writing₁ nonblock false
    simpa only [PipeSys.setCall, PipeSys.logChunk, Function.update_idem] using done
  · cases ended : pipeWrite s.pb nonblock buf n with
    | mk pb result =>
      rw [ended] at kept other
      obtain rfl : pb = s.pb := kept
      cases result with
      | copied m => exact absurd rfl (other m)
      | waits => exact inv.setWrite writing nonblock true
      | returned r => exact inv.leave t

theorem Inv.writeEnter (t : Nat) (nonblock : Bool) (buf : List Byte) :
    (s.writeEnter t nonblock buf).Inv := by
  unfold PipeSys.writeEnter
  by_cases closed : s.pb.readerClosed = true
  · rw [if_pos closed]
    exact inv
  rw [if_neg closed]
  have none_ : chunksOf s.begun.length s.log = [] := inv.fresh le_rfl
  have older : ∀ {i : Nat} {b : List Byte},
      s.begun[i]? = some b → (s.begun ++ [buf])[i]? = some b := by
    intro i b found
    rw [List.getElem?_append_left (List.getElem?_eq_some_iff.mp found).1, found]
  have inv₁ : { s with begun := s.begun ++ [buf] }.Inv := by
    refine ⟨inv.wf, inv.flow, inv.served, ?_, ?_, ?_, inv.own⟩
    · intro i b found
      rcases Nat.lt_or_ge i s.begun.length with below | above
      · rw [List.getElem?_append_left below] at found
        exact inv.writes found
      · -- Nothing was accepted of the new write.
        rw [inv.fresh above]
        exact ⟨List.nil_prefix, fun _ => .inl rfl⟩
    · intro i le
      refine inv.fresh ?_
      rw [length_append] at le
      omega
    · intro t' call found
      exact (inv.calls found).congr fun _ begun => ⟨older begun, rfl⟩
  refine inv₁.writeSection ⟨List.getElem?_concat_length, ?_, ?_⟩ nonblock
  · rw [none_]
    exact ⟨rfl, Nat.zero_le _, fun _ => .inl ⟨rfl, rfl⟩⟩
  · intro t' nb b k w found
    have begun := (inv.calls found).1
    rw [List.getElem?_eq_none le_rfl] at begun
    cases begun

theorem Inv.resizeEnter (t size : Nat) :
    (s.resizeEnter t size).Inv ∧ (s.resizeEnter t size).pb.unread = s.pb.unread := by
  unfold PipeSys.resizeEnter
  have large : pipeBufSize ≤ if size < pipeBufSize then pipeBufSize else size := by
    split <;> omega
  generalize (if size < pipeBufSize then pipeBufSize else size) = newCapacity at large ⊢
  have checked := pipeResizeCheck_unread inv.wf newCapacity
  dsimp only
  cases result : pipeResizeCheck s.pb newCapacity with
  | mk pb ended =>
    rw [result] at checked
    have inv₁ : { s with pb }.Inv := inv.setPb checked.1 checked.2
    cases ended with
    | some r => exact ⟨inv₁, checked.2⟩
    | none => exact ⟨inv₁.setCall t (fun c found => some.inj found ▸ large) nofun, checked.2⟩

theorem Inv.resume {interrupted : Bool} (taken : s.resume t interrupted = some s') : s'.Inv := by
  unfold PipeSys.resume at taken
  split at taken
  · cases taken
    exact inv.readSection ..
  · cases taken
    exact inv.peekSection ..
  · next id nonblock buf n w found =>
    cases taken
    have ok := inv.calls found
    exact inv.writeSection ⟨ok.1, ok.2, fun other => inv.own other found⟩ nonblock
  · cases taken
    exact inv.leave t
  · cases taken
    exact inv.leave t
  · cases taken
    exact inv.leave t
  · cases taken

theorem Inv.alloc {memory : Option (List Byte)}
    (taken : s.alloc t memory = some s') : s'.Inv ∧ s'.pb.unread = s.pb.unread := by
  unfold PipeSys.alloc at taken
  split at taken
  · cases taken
    exact ⟨inv.leave t, rfl⟩
  · next newCapacity newData found =>
    split at taken
    · next allocated =>
      cases taken
      obtain ⟨wf, same⟩ := pipeResizeCommit_unread inv.wf (inv.calls found) allocated
      exact ⟨(inv.leave t).setPb wf same, same⟩
    · cases taken
  · cases taken

omit inv in
theorem begin_eq_some {section_ : PipeSys} (taken : s.begin t section_ = some s') :
    s' = section_ := by
  unfold PipeSys.begin at taken
  split at taken
  · exact (some.inj taken).symm
  · cases taken

theorem Inv.step {label : PipeLabel} (taken : step s label = some s') : s'.Inv := by
  cases label with
  | read t nonblock count =>
    rw [begin_eq_some taken]
    split
    · exact inv
    · exact inv.readSection ..
  | peek t nonblock count =>
    rw [begin_eq_some taken]
    split
    · exact inv
    · exact inv.peekSection ..
  | write t nonblock buf =>
    rw [begin_eq_some taken]
    split
    · exact inv
    · exact inv.writeEnter ..
  | resize t size =>
    rw [begin_eq_some taken]
    exact (inv.resizeEnter ..).1
  | resume t interrupted => exact inv.resume taken
  | alloc t memory => exact (inv.alloc taken).1
  | closeRead last | closeWrite last =>
    cases taken
    split
    · exact inv.setPb { inv.wf with } rfl
    · exact inv

theorem Inv.contiguous (begun : s.begun[id]? = some buf) (small : buf.length ≤ pipeBufSize)
    (logged : .wrote id chunk ∈ s.log) :
    ∃ before after, s.log = before ++ .wrote id buf :: after ∧ chunksOf id before = [] ∧
      chunksOf id after = [] ∧ accepted s.log = accepted before ++ buf ++ accepted after := by
  have some_ : chunk ∈ chunksOf id s.log :=
    mem_filterMap.mpr ⟨_, logged, if_pos rfl⟩
  rcases (inv.writes begun).small small with nothing | whole
  · rw [nothing] at some_
    cases some_
  · obtain ⟨before, after, split, first, last⟩ := exists_wrote whole
    exact ⟨before, after, split, first, last, by rw [split, accepted_split]⟩

end

/-- **A pipe is a byte stream.** Whatever sections of reads, writes, peeks and resizes follow
one another, the bytes returned so far are the first of those accepted, the ring is in
order, a read returns what a peek at the same time does and what the last peek showed, a
resize changes no unread byte, and the bytes of a small write stay together. -/
theorem run_stream (data : List Byte) (allocated : data.length = pipeDefaultSize)
    (run : RunsTo step always (boot data) s) :
    returned s.log <+: accepted s.log ∧
    (s.pb.used ≤ s.pb.capacity ∧ s.pb.head = (s.pb.tail + s.pb.used) % s.pb.capacity) ∧
    ((∀ nonblock count, (pipeRead s.pb nonblock count).2 = pipePeek s.pb nonblock count) ∧
      ∀ before count bytes between count' bytes' after,
        s.log = before ++ .peeked count bytes :: (between ++ .took count' bytes' :: after) →
        (∀ c b, .took c b ∉ between) → bytes.take count' <+: bytes') ∧
    ((∀ t size s', step s (.resize t size) = some s' → s'.pb.unread = s.pb.unread) ∧
      ∀ t memory s', step s (.alloc t memory) = some s' → s'.pb.unread = s.pb.unread) ∧
    ∀ id buf chunk, s.begun[id]? = some buf → buf.length ≤ pipeBufSize →
      .wrote id chunk ∈ s.log → ∃ before after, s.log = before ++ .wrote id buf :: after ∧
        chunksOf id before = [] ∧ chunksOf id after = [] ∧
        accepted s.log = accepted before ++ buf ++ accepted after := by
  have inv : s.Inv := run.invariant (fun inv _ taken => Inv.step inv taken) (inv_boot allocated)
  refine ⟨?_, ⟨inv.wf.used, inv.wf.head⟩, ⟨pipeRead_end s.pb, ?_⟩, ⟨?_, ?_⟩, ?_⟩
  · rw [inv.flow]
    exact prefix_append _ _
  · intro before count bytes between count' bytes' after split none_
    exact peek_next inv.served split none_
  · intro t size s' taken
    rw [begin_eq_some taken]
    exact (inv.resizeEnter ..).2
  · intro t memory s' taken
    exact (inv.alloc taken).2
  · intro id buf chunk begun small logged
    exact inv.contiguous begun small logged

/-- Two threads write, a third one reads the first bytes of both writes. -/
theorem run_stream_two_writers :
    ∃ s, RunsTo step always (boot (List.replicate pipeDefaultSize 0)) s ∧
      s.begun = [[1, 2, 3], [4, 5]] ∧ accepted s.log = [1, 2, 3, 4, 5] ∧
      ∃ rest, returned s.log ++ rest = accepted s.log := by
  obtain ⟨s, reached, begun, stream⟩ : ∃ s,
      exec step (boot (replicate pipeDefaultSize 0))
        [.write 0 false [1, 2, 3], .write 1 true [4, 5], .read 2 false 4] = some s ∧
      s.begun = [[1, 2, 3], [4, 5]] ∧ accepted s.log = [1, 2, 3, 4, 5] := ⟨_, rfl, rfl, rfl⟩
  have run := exec_runsTo reached
  exact ⟨s, run, begun, stream, (run_stream _ length_replicate run).1⟩

end PipeSys

end A20OS.Fs
