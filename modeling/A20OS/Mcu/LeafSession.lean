import A20OS.Mcu.Leaf

/-!
The session discipline of the leaf.

The log tells who the head is (`head`) and which reply is still good for a repeated CALL
(`transaction`): the one built for the CALL, until the session ends or the slot of that first
CALL is closed. The variables of the leaf are what its log says (`Inv`). A repeated CALL may name
another slot; a CLOSE of that slot leaves the reply, a CLOSE of the first takes it away.
-/

namespace A20OS.Mcu

open Lib Cluster

/-! ### What the log says -/

def headStep (head : Option NodeId) : Event → Option NodeId
  | .adopted id => some id
  | .disconnected => none
  | _ => head

/-- The head of the session. -/
def head (log : List Event) : Option NodeId := log.foldl headStep none

/-- A CALL and the reply that was built for it. -/
structure Transaction where
  srcHash : BitVec 32
  txid : BitVec 32
  slot : BitVec 32
  reply : List Byte
deriving DecidableEq

/-- The CALL has the source and the txid of the transaction. -/
def Transaction.repeats (t : Transaction) (call : List Byte) : Prop :=
  t.srcHash = (Header.read call).srcHash ∧ t.txid = (Header.read call).txid

instance (t : Transaction) (call : List Byte) : Decidable (t.repeats call) := by
  unfold Transaction.repeats; infer_instance

def transactionStep (t : Option Transaction) : Event → Option Transaction
  | .adopted _ => none
  | .disconnected => none
  | .answered call reply =>
      let h := Header.read call
      if ∃ old ∈ t, old.repeats call then t else some ⟨h.srcHash, h.txid, h.dstSlot, reply⟩
  | .closed slot => t.filter (·.slot ≠ slot)
  | _ => t

/-- The CALL answered last in this session, as it was when it was first answered, unless its
slot has been closed since. -/
def transaction (log : List Event) : Option Transaction := log.foldl transactionStep none

@[simp] theorem head_concat (log : List Event) (e : Event) :
    head (log ++ [e]) = headStep (head log) e := by
  simp [head]

@[simp] theorem transaction_concat (log : List Event) (e : Event) :
    transaction (log ++ [e]) = transactionStep (transaction log) e := by
  simp [transaction]

theorem transactionStep_closed (t : Option Transaction) (slot : BitVec 32) :
    transactionStep t (.closed slot) = t.filter (·.slot ≠ slot) := rfl

variable {call : List Byte}

theorem transactionStep_fresh {t : Option Transaction} (fresh : ∀ old ∈ t, ¬old.repeats call)
    (reply : List Byte) :
    transactionStep t (.answered call reply) = some ⟨(Header.read call).srcHash,
      (Header.read call).txid, (Header.read call).dstSlot, reply⟩ :=
  if_neg fun ⟨old, mem, same⟩ => fresh old mem same

/-- What may stand in a log: only a HELLO_ACK is sent by a disconnected leaf, and only the
head is served. -/
def Lawful (log : List Event) : Event → Prop
  | .sent state frame => state = .disconnected → (Header.read frame).type = typeHelloAck
  | .ponged frame => ∃ id, head log = some id ∧ (Header.read frame).srcHash = nodeHash id
  | .executed frame => ∃ id, head log = some id ∧ (Header.read frame).srcHash = nodeHash id
  | _ => True

namespace Leaf

variable {l : Leaf} {frame : List Byte} {env : LeafEnv} {t : Transaction}

/-! ### Invariant -/

/-- The reply that is kept. -/
def cached (l : Leaf) : Option Transaction :=
  if l.inflightFrame = [] then none
  else some ⟨l.inflightSrcHash, l.inflightTxid, l.inflightSlot, l.inflightFrame⟩

structure Inv (l : Leaf) : Prop where
  addr : l.shortAddr = shortUnassigned ↔ l.state = .disconnected
  head : head l.log = if l.state = .up then some l.peerId else none
  transaction : transaction l.log = l.cached
  session : l.inflightFrame ≠ [] → l.state = .up ∧ l.inflightSrcHash = nodeHash l.peerId
  lawful : EachAfter Lawful l.log

section
variable (inv : l.Inv)
include inv

theorem Inv.counted (c : LinkCounters) : { l with c }.Inv :=
  { inv with }

theorem Inv.assigned (up : l.state = .up) : l.shortAddr ≠ shortUnassigned := by
  rw [ne_eq, inv.addr, up]
  nofun

theorem Inv.head_eq (up : l.state = .up) : Mcu.head l.log = some l.peerId := by
  rw [inv.head, if_pos up]

/-- An entry that changes neither the head nor the transaction. -/
theorem Inv.record {e : Event} (sameHead : headStep (Mcu.head l.log) e = Mcu.head l.log)
    (sameTransaction : transactionStep (Mcu.transaction l.log) e = Mcu.transaction l.log)
    (lawful : Lawful l.log e) : (l.record e).Inv where
  addr := inv.addr
  head := by
    simp only [Leaf.record, head_concat, sameHead]
    exact inv.head
  transaction := by
    simp only [Leaf.record, transaction_concat, sameTransaction]
    exact inv.transaction
  session := inv.session
  lawful := eachAfter_concat.mpr ⟨inv.lawful, lawful⟩

theorem Inv.disconnect : l.disconnect.Inv where
  addr := ⟨fun _ => rfl, fun _ => rfl⟩
  head := head_concat l.log .disconnected
  transaction := transaction_concat l.log .disconnected
  session := fun kept => absurd rfl kept
  lawful := eachAfter_concat.mpr ⟨inv.lawful, trivial⟩

theorem Inv.adopt {hello : Hello} (assigned : hello.shortAddr ≠ shortUnassigned)
    (env : LeafEnv) : (l.adopt hello env).Inv where
  addr := ⟨fun none => absurd none assigned, nofun⟩
  head := head_concat l.log (.adopted hello.nodeId)
  transaction := transaction_concat l.log (.adopted hello.nodeId)
  session := fun kept => absurd rfl kept
  lawful := eachAfter_concat.mpr ⟨inv.lawful, trivial⟩

theorem Inv.forget (slot : BitVec 32) : (l.forget slot).Inv where
  addr := inv.addr
  head := (head_concat l.log (.closed slot)).trans inv.head
  transaction := by
    refine (transaction_concat l.log (.closed slot)).trans ?_
    rw [inv.transaction, transactionStep_closed]
    unfold cached Leaf.forget Leaf.record
    by_cases empty : l.inflightFrame = []
    · simp [empty]
    · by_cases same : l.inflightSlot = slot <;> simp [empty, same]
  session := by
    simp only [Leaf.forget, Leaf.record]
    split
    · exact fun kept => absurd rfl kept
    · exact inv.session
  lawful := eachAfter_concat.mpr ⟨inv.lawful, trivial⟩

end

/-! ### Sending -/

/-- The leaf after it has put a frame on the wire. -/
def transmitted (l : Leaf) (frame : List Byte) : Leaf :=
  { l with c := { l.c with txFrames := l.c.txFrames + 1 } }.record (.sent .up frame)

theorem outputFrame_up (up : l.state = .up) (assigned : l.shortAddr ≠ shortUnassigned)
    (frame : List Byte) : l.outputFrame frame = (l.transmitted frame, true) := by
  unfold outputFrame transmitted
  rw [if_neg (fun gate => assigned gate.1), up]

section
variable (inv : l.Inv)
include inv

theorem Inv.transmitted (frame : List Byte) : (l.transmitted frame).Inv := by
  have counted := inv.counted { l.c with txFrames := l.c.txFrames + 1 }
  exact counted.record (e := .sent .up frame) rfl rfl nofun

/-- A leaf that is up puts a short payload on the wire. -/
theorem Inv.send (up : l.state = .up) (type : BitVec 8) (txid srcHash dstHash dstSlot : BitVec 32)
    (payload : List Byte) (payloadLen : BitVec 16) (short : payloadLen.toNat ≤ uartMaxPayload) :
    ∃ frame, l.send type txid srcHash dstHash dstSlot payload payloadLen =
      (l.transmitted frame, true) ∧ (l.transmitted frame).Inv := by
  have room : hdrLen + payloadLen.toNat + crcLen ≤ 320 := by
    simp only [uartMaxPayload, uartMtu, hdrLen, crcLen] at short ⊢
    omega
  obtain ⟨frame, built, -⟩ := exists_uartBuildFrame type 0 0 txid srcHash dstHash dstSlot payload
    room short
  refine ⟨frame, ?_, inv.transmitted frame⟩
  unfold Leaf.send
  rw [built]
  exact outputFrame_up up (inv.assigned up) frame

/-! ### Handlers -/

omit inv in
theorem validateHello_assigned (ok : l.validateHello frame = true) :
    (Hello.read (framePayload frame)).shortAddr ≠ shortUnassigned := by
  simp only [validateHello] at ok
  iterate 8
    split at ok
    · exact absurd ok Bool.false_ne_true
  exact of_decide_eq_true ok

theorem Inv.refuseHello : (l.refuseHello frame).Inv := by
  have rejected : l.rejected.Inv := inv.counted _
  simp only [Leaf.refuseHello]
  by_cases up : l.rejected.state = .up
  · rw [if_pos up]
    obtain ⟨error, sent, after⟩ := rejected.send up typeError 0 (nodeHash l.rejected.selfId)
      (nodeHash l.rejected.peerId) 0
      (leBytes 4 werrClusterUnsupported.toNat ++ leBytes 4 (Header.read frame).txid.toNat)
      8 (by decide)
    rw [sent]
    exact after.disconnect
  · rw [if_neg up]
    exact rejected

theorem Inv.onHello : (l.onHello frame env).Inv := by
  simp only [Leaf.onHello]
  by_cases ok : l.validateHello frame = false
  · rw [if_pos ok]
    exact inv.refuseHello
  rw [if_neg ok]
  have adopted := inv.adopt (validateHello_assigned (Bool.eq_true_of_not_eq_false ok)) env
  obtain ⟨ack, sent, after⟩ := adopted.send rfl typeHelloAck 0 _ _ 0 _ (.ofNat 16 helloLen)
    (by decide)
  rw [sent]
  exact after.counted _

theorem Inv.onPing : (l.onPing frame env).Inv := by
  simp only [Leaf.onPing]
  by_cases up : l.state = .up
  · rw [if_neg (not_not.mpr up)]
    split
    · exact inv.counted _
    · next fits =>
      have source : (Header.read frame).srcHash = nodeHash l.peerId := by
        by_contra other
        exact fits (.inr other)
      have refreshed : (l.refreshed env.ticks).Inv :=
        { inv with }
      obtain ⟨pong, sent, after⟩ := refreshed.send up typePong 0 _ _ 0 _ 8 (by decide)
      rw [sent]
      refine Inv.counted (after.record rfl rfl ?_) _
      exact ⟨l.peerId, after.head_eq up, source⟩
  · rw [if_pos up]
    exact inv.counted _

omit inv in
theorem answer_up (up : l.state = .up) (assigned : l.shortAddr ≠ shortUnassigned)
    (call reply : List Byte) :
    l.answer call reply = (l.transmitted reply).record (.answered call reply) := by
  unfold answer
  rw [outputFrame_up up assigned]

/-- A new reply of at most 30 bytes goes out and is kept. -/
theorem Inv.storeAndAnswer (up : l.state = .up)
    (source : (Header.read call).srcHash = nodeHash l.peerId)
    (fresh : ∀ old ∈ Mcu.transaction l.log, ¬old.repeats call) {type : BitVec 8}
    {txid srcHash dstHash dstSlot : BitVec 32} {payload : List Byte} {payloadLen : BitVec 16}
    (short : payloadLen.toNat ≤ 30) :
    (l.storeAndAnswer call
      (uartBuildFrame 320 type 0 0 txid srcHash dstHash dstSlot payload payloadLen)).Inv := by
  have room : hdrLen + payloadLen.toNat + crcLen ≤ 320 := by
    simp only [hdrLen, crcLen]
    omega
  have fits : payloadLen.toNat ≤ uartMaxPayload := by
    simp only [uartMaxPayload, uartMtu, hdrLen, crcLen]
    omega
  obtain ⟨reply, built, length⟩ := exists_uartBuildFrame type 0 0 txid srcHash dstHash dstSlot
    payload room fits
  simp only [hdrLen, crcLen] at length
  have full : reply ≠ [] := by
    rintro rfl
    simp at length
  simp only [Leaf.storeAndAnswer, built, Leaf.inflightStore]
  rw [if_neg (by omega), answer_up]
  · refine ⟨inv.addr, ?_, ?_, fun _ => ⟨up, source⟩, ?_⟩
    · simp only [Leaf.record, Leaf.transmitted, head_concat]
      exact inv.head
    · simp only [Leaf.record, Leaf.transmitted, transaction_concat]
      refine (transactionStep_fresh fresh reply).trans ?_
      simp only [cached]
      rw [if_neg full]
    · simp only [Leaf.record, Leaf.transmitted, eachAfter_concat]
      exact ⟨⟨inv.lawful, nofun⟩, trivial⟩
  · exact up
  · exact inv.assigned up

omit inv in
/-- When the kept reply is for the CALL. -/
theorem cached_repeats (kept : t ∈ l.cached) (call : List Byte) :
    t.repeats call ↔ l.inflightFrame ≠ [] ∧ l.inflightSrcHash = (Header.read call).srcHash ∧
      l.inflightTxid = (Header.read call).txid := by
  obtain ⟨-, ⟨⟩⟩ | ⟨empty, ⟨⟩⟩ := ite_eq_iff.mp kept
  simp [Transaction.repeats, empty]

/-- The kept reply goes out again. -/
theorem Inv.answerAgain (up : l.state = .up)
    (kept : l.inflightFrame ≠ [] ∧ l.inflightSrcHash = (Header.read call).srcHash ∧
      l.inflightTxid = (Header.read call).txid) : (l.answer call l.inflightFrame).Inv := by
  rw [answer_up up (inv.assigned up)]
  refine (inv.transmitted l.inflightFrame).record rfl ?_ trivial
  have same : Mcu.transaction (l.transmitted l.inflightFrame).log =
      some ⟨l.inflightSrcHash, l.inflightTxid, l.inflightSlot, l.inflightFrame⟩ := by
    refine (transaction_concat l.log _).trans (inv.transaction.trans ?_)
    exact if_neg kept.1
  rw [same]
  exact if_pos ⟨_, rfl, kept.2⟩

theorem Inv.onCall : (l.onCall frame env).Inv := by
  have received : l.received.Inv := inv.counted _
  simp only [Leaf.onCall]
  by_cases up : l.state = .up
  · rw [if_neg (not_not.mpr up)]
    split
    · exact inv.counted _
    · next fits =>
      have source : (Header.read frame).srcHash = nodeHash l.peerId := by
        by_contra other
        exact fits (.inl other)
      split
      · next kept => exact (inv.answerAgain up kept).counted _
      · next other =>
        have fresh : ∀ old ∈ Mcu.transaction l.log, ¬old.repeats frame := by
          rw [inv.transaction]
          intro old mem same
          exact other ((cached_repeats mem frame).mp same)
        split
        · exact received.storeAndAnswer up source fresh (by decide)
        · have executed : (l.received.record (.executed frame)).Inv :=
            received.record rfl rfl ⟨l.peerId, received.head_eq up, source⟩
          have same : Mcu.transaction (l.received.record (.executed frame)).log =
              Mcu.transaction l.log := transaction_concat l.log (.executed frame)
          exact executed.storeAndAnswer up source (same ▸ fresh) (by decide)
  · rw [if_pos up]
    exact inv.counted _

theorem Inv.onClose : (l.onClose frame).Inv := by
  simp only [Leaf.onClose]
  split
  · exact inv.counted _
  · split
    · exact inv.counted _
    · exact (inv.forget _).counted _

theorem Inv.onFrame : (l.onFrame frame env).Inv := by
  simp only [Leaf.onFrame]
  cases screenFrame frame with
  | malformed | drop => exact inv.counted _
  | ok =>
    simp only
    repeat' split
    · exact inv.counted _
    · exact inv.onHello
    · exact inv.onPing
    · exact inv.onCall
    · exact inv.onClose
    · exact inv.counted _
    · exact inv.counted _

theorem Inv.decoded (rx : SlipRx) : { l with rx }.Inv :=
  { inv with }

theorem Inv.step {ticksPerSec : Ticks} {a : Label} {l' : Leaf}
    (taken : l.step ticksPerSec a = some l') : l'.Inv := by
  cases a <;> obtain rfl := Option.some.inj taken
  case byte b now env =>
    unfold rxByte
    split
    · exact (inv.decoded _).onFrame
    · exact (inv.decoded _).counted _
    · exact inv.decoded _
  case silence now =>
    unfold silence
    split
    · exact (inv.decoded _).counted _
    · exact inv.decoded _
  case watchdog now =>
    unfold watchdog
    split
    · exact inv.disconnect
    · exact inv
  case setIdentity id =>
    unfold setIdentity
    split
    · exact inv
    · exact { inv with }

end

theorem init_inv (ticksPerSec ticks nonceTicks : Ticks) :
    (init ticksPerSec ticks nonceTicks).Inv where
  addr := ⟨fun _ => rfl, fun _ => rfl⟩
  head := rfl
  transaction := rfl
  session := fun kept => absurd rfl kept
  lawful := eachAfter_nil

/-! ### Runs -/

/-- A CALL for this leaf, as `leaf_on_frame` takes it. -/
structure IsCall (l : Leaf) (frame : List Byte) : Prop where
  screen : screenFrame frame = .ok
  flags : (Header.read frame).flags &&& flagsRefused = 0
  type : (Header.read frame).type = typeCall
  dst : (Header.read frame).dstHash = nodeHash l.selfId

/-- A repeated CALL gets the kept reply, and that is all that happens. -/
theorem Inv.onFrame_repeats (inv : l.Inv) (call : l.IsCall frame)
    (last : Mcu.transaction l.log = some t) (same : t.repeats frame) :
    (l.onFrame frame env).log = l.log ++ [.sent .up t.reply, .answered frame t.reply] := by
  have kept : t ∈ l.cached := inv.transaction ▸ last
  have hit := (cached_repeats kept frame).mp same
  obtain ⟨up, source⟩ := inv.session hit.1
  have reply : l.inflightFrame = t.reply := by
    unfold cached at kept
    rw [if_neg hit.1] at kept
    cases kept
    rfl
  have onCall : l.onFrame frame env = l.onCall frame env := by
    simp only [Leaf.onFrame, call.screen, call.flags, call.type]
    rfl
  have fits : ¬((Header.read frame).srcHash ≠ nodeHash l.peerId ∨
      (Header.read frame).dstHash ≠ nodeHash l.selfId) := by
    rw [not_or, not_not, not_not]
    exact ⟨hit.2.1.symm.trans source, call.dst⟩
  rw [onCall]
  simp only [Leaf.onCall]
  rw [if_neg (not_not.mpr up), if_neg fits, if_pos hit, answer_up up (inv.assigned up), reply]
  exact List.append_assoc l.log _ _

/-- In every run: the leaf has no address exactly while it is disconnected; while it is, it
sends nothing but a HELLO_ACK; it serves nobody but its head; and a repeated CALL gets the
reply of the first, without the operator, unless the slot of the first has been closed. -/
theorem run_leaf {ticksPerSec ticks nonceTicks : Ticks} {as : List Label}
    (run : exec (step ticksPerSec) (init ticksPerSec ticks nonceTicks) as = some l) :
    (l.shortAddr = shortUnassigned ↔ l.state = .disconnected) ∧
    (∀ frame, .sent .disconnected frame ∈ l.log → (Header.read frame).type = typeHelloAck) ∧
    (∀ before frame after, l.log = before ++ .executed frame :: after ∨
        l.log = before ++ .ponged frame :: after →
      ∃ id, head before = some id ∧ (Header.read frame).srcHash = nodeHash id) ∧
    ∀ a t, ∀ frame ∈ l.arrives a, l.IsCall frame → transaction l.log = some t →
      t.repeats frame → ∃ l', l.step ticksPerSec a = some l' ∧
        l'.log = l.log ++ [.sent .up t.reply, .answered frame t.reply] := by
  have inv : l.Inv := (exec_runsTo run).invariant (fun before _ taken => before.step taken)
    (init_inv ticksPerSec ticks nonceTicks)
  refine ⟨inv.addr, ?_, ?_, ?_⟩
  · intro frame sent
    obtain ⟨before, after, split⟩ := List.append_of_mem sent
    exact inv.lawful before _ after split rfl
  · rintro before frame after (split | split) <;> exact inv.lawful before _ after split
  · intro a t frame arrived call last same
    cases a with
    | byte b now env =>
      refine ⟨_, rfl, ?_⟩
      simp only [arrives] at arrived
      split at arrived
      · next rx decoded =>
        cases arrived
        simp only [rxByte, decoded]
        have ready := inv.decoded rx
        exact ready.onFrame_repeats { call with } last same
      · cases arrived
    | silence | watchdog | setIdentity => cases arrived

/-! ### Examples -/

/-- A frame as it comes in, byte by byte. -/
def incoming (frame : List Byte) : List Label :=
  ((slipEncode frame 600).getD []).map fun b => .byte b 0 {}

def headId : NodeId := .replicate 16 1

/-- The head assigns the address 5. -/
def helloFrame : List Byte :=
  (uartBuildFrame 320 typeHello 0 0 0 (nodeHash headId) 0 0
    (buildHelloPayload headId wireVer wireVer 2 capRelay 5 9) (.ofNat 16 helloLen)).getD []

/-- The head calls a slot with the vectors (2) and (3). -/
def callFrame (slot : BitVec 32) : List Byte :=
  (uartBuildFrame 320 typeCall 0 0 7 (nodeHash headId) (nodeHash demoId) slot
    (leBytes 4 1 ++ leBytes 4 2 ++ leBytes 4 3) 12).getD []

/-- The head closes a slot. -/
def closeFrame (slot : BitVec 32) : List Byte :=
  (uartBuildFrame 320 typeClose 0 0 0 (nodeHash headId) (nodeHash demoId) slot [] 0).getD []

/-- The operator has found 6. -/
def sixFrame : List Byte :=
  (uartBuildFrame 320 typeCallReply 0 0 7 (nodeHash demoId) (nodeHash headId) 1
    (leBytes 4 0 ++ leBytes 8 6) 12).getD []

/-- There is no such slot. -/
def notFoundFrame : List Byte :=
  (uartBuildFrame 320 typeError 0 0 7 (nodeHash demoId) (nodeHash headId) 0
    (leBytes 4 werrNotFound.toNat ++ leBytes 4 7) 8).getD []

theorem run_leaf_again :
    ∃ l l', exec (step 1000) (init 1000 0 0)
        (incoming helloFrame ++ incoming (callFrame 1) ++ (incoming (callFrame 1)).dropLast) =
        some l ∧
      l.step 1000 (.byte slipEnd 0 {}) = some l' ∧
      l'.log = l.log ++ [.sent .up sixFrame, .answered (callFrame 1) sixFrame] := by
  obtain ⟨l, run, self, last, arrived⟩ : ∃ l, exec (step 1000) (init 1000 0 0)
        (incoming helloFrame ++ incoming (callFrame 1) ++ (incoming (callFrame 1)).dropLast) =
        some l ∧ l.selfId = demoId ∧ transaction l.log = some ⟨nodeHash headId, 7, 1, sixFrame⟩ ∧
      l.arrives (.byte slipEnd 0 {}) = some (callFrame 1) :=
    eq_some_of_any (by decide +kernel)
  have call : l.IsCall (callFrame 1) := by
    refine ⟨by decide +kernel, by decide +kernel, by decide +kernel, ?_⟩
    rw [self]
    decide +kernel
  obtain ⟨-, -, -, again⟩ := run_leaf run
  obtain ⟨l', taken, log⟩ := again _ _ _ arrived call last (by decide +kernel)
  exact ⟨l, l', run, taken, log⟩

/-- The CALL of slot 1 is repeated for slot 2, slot 1 is closed, and the CALL of slot 2 is
repeated: it gets another reply than before, although its slot was not closed. -/
theorem reply_given_up :
    ∃ l before, exec (step 1000) (init 1000 0 0)
        (incoming helloFrame ++ incoming (callFrame 1) ++ incoming (callFrame 2) ++
          incoming (closeFrame 1) ++ incoming (callFrame 2)) = some l ∧
      l.log = before ++ [.answered (callFrame 2) sixFrame, .closed 1, .sent .up notFoundFrame,
        .answered (callFrame 2) notFoundFrame] ∧ notFoundFrame ≠ sixFrame := by
  obtain ⟨l, run, recent⟩ : ∃ l, exec (step 1000) (init 1000 0 0)
        (incoming helloFrame ++ incoming (callFrame 1) ++ incoming (callFrame 2) ++
          incoming (closeFrame 1) ++ incoming (callFrame 2)) = some l ∧
      l.log.drop 6 = [.answered (callFrame 2) sixFrame, .closed 1, .sent .up notFoundFrame,
        .answered (callFrame 2) notFoundFrame] :=
    Option.map_eq_some_iff.mp (by decide +kernel)
  refine ⟨l, l.log.take 6, run, ?_, by decide +kernel⟩
  rw [← recent, List.take_append_drop]

end Leaf

end A20OS.Mcu
