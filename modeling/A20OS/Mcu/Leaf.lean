import A20OS.Cluster.UartWire

/-!
The leaf end of a UART link (`kernel/mcu/leaf.c`): two states, and an answer to HELLO, PING, CALL
and CLOSE.

A CALL with the source and the txid of the CALL the kept reply was built for gets the same frame
again. The reply is given up when the session ends, a new HELLO is accepted or its slot is closed.
`a20_mcu_leaf_poll` is a sequence of the steps at the end of this module (`exec_poll`); clock
values come with the byte that completes the frame. A leaf keeps a log of what it did.
-/

namespace A20OS.Mcu

open Lib Cluster List

/-! ### Data -/

def opDotSlot : BitVec 32 := 1
def statusInvalid : BitVec 32 := 12
def werrNotFound : BitVec 32 := 24

/-- `A20_MCU_LEAF_DISCONNECTED` and `A20_MCU_LEAF_UP`. -/
inductive LeafState where
  | disconnected | up
deriving DecidableEq, Repr

/-- What a leaf does: it accepts the HELLO of a node, it ends the session, it puts a frame
on the wire, it has answered a PING, it runs the operator for a CALL, it has answered a CALL
with a frame, it closes a slot. -/
inductive Event where
  | adopted (id : NodeId)
  | disconnected
  | sent (state : LeafState) (frame : List Byte)
  | ponged (ping : List Byte)
  | executed (call : List Byte)
  | answered (call reply : List Byte)
  | closed (slot : BitVec 32)
deriving DecidableEq

/-- The static variables of `leaf.c`; `inflightFrame` is the part of the buffer below
`leaf_inflight_len`. -/
structure Leaf where
  rx : SlipRx
  state : LeafState := .disconnected
  shortAddr : BitVec 16 := shortUnassigned
  selfId : NodeId
  peerId : NodeId := .replicate 16 0
  lastPingTicks : Ticks := 0
  nonce : BitVec 64
  inflightSrcHash : BitVec 32 := 0
  inflightTxid : BitVec 32 := 0
  inflightSlot : BitVec 32 := 0
  inflightFrame : List Byte := []
  c : LinkCounters := {}
  log : List Event := []

/-- What the environment does while a frame is handled: the clock, read for the watchdog and
for the nonce, and the bytes that lie behind the frame in memory. -/
structure LeafEnv where
  ticks : Ticks := 0
  nonceTicks : Ticks := 0
  behind : Nat → Byte := fun _ => 0

namespace Leaf

variable (l : Leaf)

def record (e : Event) : Leaf := { l with log := l.log ++ [e] }

def received : Leaf := { l with c := { l.c with rxFrames := l.c.rxFrames + 1 } }
def dropped : Leaf := { l with c := { l.c with rxDrops := l.c.rxDrops + 1 } }
def malformed : Leaf := { l with c := { l.c with rxMalformed := l.c.rxMalformed + 1 } }
def unsent : Leaf := { l with c := { l.c with txDrops := l.c.txDrops + 1 } }
def rejected : Leaf := { l with c := { l.c with helloRejects := l.c.helloRejects + 1 } }
def deduped : Leaf := { l with c := { l.c with dedupDrops := l.c.dedupDrops + 1 } }

/-! ### Sending -/

/-- `leaf_disconnect`. -/
def disconnect : Leaf :=
  { l with state := .disconnected, shortAddr := shortUnassigned, inflightFrame := [] }.record
    .disconnected

/-- `leaf_output_frame`; the sink never fails. -/
def outputFrame (frame : List Byte) : Leaf × Bool :=
  if l.shortAddr = shortUnassigned ∧ (Header.read frame).type ≠ typeHelloAck then
    (l.unsent, false)
  else
    ({ l with c := { l.c with txFrames := l.c.txFrames + 1 } }.record (.sent l.state frame), true)

/-- `leaf_send`. -/
def send (type : BitVec 8) (txid srcHash dstHash dstSlot : BitVec 32) (payload : List Byte)
    (payloadLen : BitVec 16) : Leaf × Bool :=
  match uartBuildFrame 320 type 0 0 txid srcHash dstHash dstSlot payload payloadLen with
  | none => (l.unsent, false)
  | some frame => l.outputFrame frame

/-! ### Handshake -/

/-- `leaf_id_is_reserved`. -/
def idIsReserved (id : NodeId) : Bool :=
  id.toList.all (fun b => b = 0x00) || id.toList.all fun b => b = 0xFF

/-- `leaf_validate_hello`. -/
def validateHello (frame : List Byte) : Bool :=
  let h := Header.read frame
  let hello := Hello.read (framePayload frame)
  if h.ver ≠ wireVer then false
  else if h.payloadLen ≠ .ofNat 16 helloLen then false
  else if h.srcHash ≠ nodeHash hello.nodeId then false
  else if idIsReserved hello.nodeId ∨ hello.nodeId = l.selfId then false
  else if hello.nonce = l.nonce then false
  else if hello.caps &&& ~~~capsKnown ≠ 0 then false
  else if hello.tier = tierMcu ∧ hello.caps &&& capRelay ≠ 0 then false
  else if hello.protoMin > wireVer then false
  else hello.shortAddr ≠ shortUnassigned

/-- A HELLO is refused; a session ends with it. -/
def refuseHello (frame : List Byte) : Leaf :=
  let l := l.rejected
  if l.state = .up then
    (l.send typeError 0 (nodeHash l.selfId) (nodeHash l.peerId) 0
      (leBytes 4 werrClusterUnsupported.toNat ++ leBytes 4 (Header.read frame).txid.toNat) 8).1
      |>.disconnect
  else l

/-- The part of `leaf_on_hello` that takes over the assignment and draws a new nonce. -/
def adopt (hello : Hello) (env : LeafEnv) : Leaf :=
  { l with
    peerId := hello.nodeId
    shortAddr := hello.shortAddr
    state := .up
    lastPingTicks := env.ticks
    inflightFrame := []
    nonce := nextNonce l.nonce env.nonceTicks }.record (.adopted hello.nodeId)

/-- `leaf_on_hello`. -/
def onHello (frame : List Byte) (env : LeafEnv) : Leaf :=
  if l.validateHello frame = false then l.refuseHello frame
  else
    let l := l.adopt (Hello.read (framePayload frame)) env
    match l.send typeHelloAck 0 (nodeHash l.selfId) (nodeHash l.peerId) 0
        (buildHelloPayload l.selfId wireVer wireVer tierMcu capLeaf l.shortAddr l.nonce)
        (.ofNat 16 helloLen) with
    | (l, true) => l.received
    | (l, false) => l

/-! ### Heartbeat -/

/-- The watchdog starts again. -/
def refreshed (ticks : Ticks) : Leaf := { l with lastPingTicks := ticks }

/-- `leaf_on_ping`. -/
def onPing (frame : List Byte) (env : LeafEnv) : Leaf :=
  let h := Header.read frame
  if l.state ≠ .up then l.dropped
  else if h.payloadLen ≠ 8 ∨ h.srcHash ≠ nodeHash l.peerId then l.dropped
  else
    let l := l.refreshed env.ticks
    match l.send typePong 0 (nodeHash l.selfId) (nodeHash l.peerId) 0 (framePayload frame) 8 with
    | (l, true) => (l.record (.ponged frame)).received
    | (l, false) => l

/-! ### The operator -/

/-- The word at an offset from the start of the payload. -/
def wordAt (payload : List Byte) (behind : Nat → Byte) (off : Nat) : BitVec 32 :=
  .ofNat 32 (leValue ((List.range 4).map fun i => payload.getD (off + i) (behind (off + i))))

/-- `leaf_op_dot`: the status, and the result or the zero that its caller has put there. The
length is compared in 32 bits. -/
def opDot (payload : List Byte) (len : BitVec 16) (behind : Nat → Byte) :
    BitVec 32 × BitVec 64 :=
  let n := wordAt payload behind 0
  if len < 4 then (statusInvalid, 0)
  else if len.setWidth 32 ≠ 4 + 8 * n then (statusInvalid, 0)
  else
    let acc := (List.range n.toNat).foldl (fun (acc : BitVec 64) i =>
      let at4 : BitVec 32 := 4 * .ofNat 32 i
      acc + (wordAt payload behind (4 + at4.toNat)).signExtend 64 *
        (wordAt payload behind (4 + (4 * n).toNat + at4.toNat)).signExtend 64) 0
    (0, acc)

/-- The word at an offset of the payload, as the signed number the operator takes it for. -/
def operandAt (payload : List Byte) (off : Nat) : Int := (wordAt payload (fun _ => 0) off).toInt

/-- The dot product of the two vectors of length `n` behind the count. -/
def dotProduct (payload : List Byte) (n : Nat) : Int :=
  ((List.range n).map fun i =>
    operandAt payload (4 + 4 * i) * operandAt payload (4 + 4 * n + 4 * i)).sum

/-- A word inside the payload does not depend on what lies behind. -/
theorem signExtend_wordAt {payload : List Byte} {off : Nat} (inside : off + 4 ≤ payload.length)
    (behind : Nat → Byte) :
    (wordAt payload behind off).signExtend 64 = BitVec.ofInt 64 (operandAt payload off) := by
  have bytes : ∀ i ∈ range 4, payload.getD (off + i) (behind (off + i)) =
      payload.getD (off + i) 0 := by
    intro i member
    have below : off + i < payload.length := by
      have := mem_range.mp member
      omega
    simp [getD_eq_getElem?_getD, getElem?_eq_getElem below]
  rw [operandAt, wordAt, wordAt, map_congr_left bytes]
  rfl

/-- A loop that adds up the terms, in 64 bits. -/
theorem foldl_add_eq_ofInt {terms : List Nat} {f : Nat → BitVec 64} {g : Nat → Int}
    (term : ∀ i ∈ terms, f i = BitVec.ofInt 64 (g i)) (acc : Int) :
    terms.foldl (fun acc i => acc + f i) (BitVec.ofInt 64 acc) =
      BitVec.ofInt 64 (acc + (terms.map g).sum) := by
  induction terms generalizing acc with
  | nil => simp
  | cons i terms ih =>
    rw [foldl_cons, term i (.head _), ← BitVec.ofInt_add,
      ih fun j member => term j (.tail _ member), map_cons, sum_cons,
      Int.add_assoc]

section
variable {payload : List Byte} {behind : Nat → Byte} {n : Nat} (received : payload.length < 2 ^ 16)
include received

theorem toNat_length : (BitVec.ofNat 16 payload.length).toNat = payload.length := by
  rw [BitVec.toNat_ofNat, Nat.mod_eq_of_lt received]

theorem length_lt_four : BitVec.ofNat 16 payload.length < 4 ↔ payload.length < 4 := by
  rw [BitVec.lt_def, toNat_length received]
  rfl

variable (count : n = (wordAt payload behind 0).toNat)
include count

theorem length_eq_iff :
    (BitVec.ofNat 16 payload.length).setWidth 32 = 4 + 8 * wordAt payload behind 0 ↔
      (4 + 8 * n) % 2 ^ 32 = payload.length := by
  rw [← BitVec.toNat_inj, BitVec.toNat_setWidth, toNat_length received, BitVec.toNat_add,
    BitVec.toNat_mul, ← count]
  simp
  omega

/-- A payload of the length it says is accepted, and the loop reads nothing behind it. -/
theorem opDot_of_length (exact : 4 + 8 * n = payload.length) :
    opDot payload (.ofNat 16 payload.length) behind =
      (0, BitVec.ofInt 64 (dotProduct payload n)) := by
  have long : ¬BitVec.ofNat 16 payload.length < 4 := by
    rw [length_lt_four received]
    omega
  have round : (4 + 8 * n) % 2 ^ 32 = payload.length := by omega
  unfold opDot
  simp only [if_neg long, if_neg (not_not.mpr ((length_eq_iff received count).mpr round)), ← count]
  congr 1
  refine (foldl_add_eq_ofInt ?_ 0).trans (by rw [Int.zero_add]; rfl)
  intro i member
  have below := mem_range.mp member
  have at4 : (4 * BitVec.ofNat 32 i).toNat = 4 * i := by
    simp
    omega
  have second : (4 * wordAt payload behind 0).toNat = 4 * n := by
    simp
    omega
  rw [at4, second, signExtend_wordAt (by omega), signExtend_wordAt (by omega), ← BitVec.ofInt_mul]

end

/-- The operator accepts exactly the payloads that hold two vectors of the length they say and
nothing else, and answers with their dot product, unless the count is one for which the length
comes round to that of the payload. -/
theorem opDot_exact (payload : List Byte) (behind : Nat → Byte) (n : Nat)
    (received : payload.length < 2 ^ 16) (count : n = (wordAt payload behind 0).toNat) :
    (opDot payload (.ofNat 16 payload.length) behind =
      if 4 + 8 * n = payload.length then (0, BitVec.ofInt 64 (dotProduct payload n))
      else (statusInvalid, 0)) ↔
      n < 2 ^ 29 ∨ payload.length < 4 ∨ (4 + 8 * n) % 2 ^ 32 ≠ payload.length := by
  have short := length_lt_four received
  have compared := length_eq_iff received count
  by_cases exact : 4 + 8 * n = payload.length
  · rw [if_pos exact]
    exact iff_of_true (opDot_of_length received count exact) (.inl (by omega))
  · rw [if_neg exact]
    unfold opDot
    by_cases refused : payload.length < 4 ∨ (4 + 8 * n) % 2 ^ 32 ≠ payload.length
    · refine iff_of_true ?_ (.inr refused)
      rcases refused with few | other
      · simp only [if_pos (short.mpr few)]
      · simp only [if_pos (mt compared.mp other), ite_self]
    · -- The status is 0, for a payload that is not of the length it says.
      obtain ⟨long, round⟩ := not_or.mp refused
      have large : ¬n < 2 ^ 29 := by omega
      refine iff_of_false (fun rejected => ?_) (by omega)
      have status := congrArg Prod.fst rejected
      simp only [if_neg (mt short.mp long),
        if_neg (not_not.mpr (compared.mpr (not_not.mp round)))] at status
      exact absurd status (by decide)

theorem opDot_exact_pair :
    opDot [1, 0, 0, 0, 3, 0, 0, 0, 254, 255, 255, 255] 12 (fun _ => 9) =
      (0, BitVec.ofInt 64 (-6)) :=
  ((opDot_exact [1, 0, 0, 0, 3, 0, 0, 0, 254, 255, 255, 255] (fun _ => 9) 1 (by decide) rfl).mpr
    (.inl (by decide))).trans (by decide)

/-- The count 2^29 wraps the length around to 4: the payload is accepted without any vector. -/
theorem opDot_wraps :
    (wordAt [0, 0, 0, 32] (fun _ => 0) 0).toNat = 2 ^ 29 ∧
      (opDot [0, 0, 0, 32] 4 fun _ => 0).1 = 0 ∧ 4 + 8 * 2 ^ 29 ≠ [0, 0, 0, 32].length := by
  refine ⟨by decide, ?_, by decide⟩
  unfold opDot
  rw [if_neg (by decide), if_neg (by decide)]

/-! ### CALL and CLOSE -/

/-- `leaf_inflight_store`. -/
def inflightStore (srcHash txid slot : BitVec 32) (frame : List Byte) : Leaf :=
  if 64 < frame.length then l
  else
    { l with
      inflightSrcHash := srcHash
      inflightTxid := txid
      inflightSlot := slot
      inflightFrame := frame }

/-- A reply goes out. -/
def answer (call reply : List Byte) : Leaf :=
  match l.outputFrame reply with
  | (l, true) => l.record (.answered call reply)
  | (l, false) => l

/-- The end of both branches of `leaf_on_call` that build a reply. -/
def storeAndAnswer (call : List Byte) (reply : Option (List Byte)) : Leaf :=
  let h := Header.read call
  match reply with
  | none => l.unsent
  | some reply => (l.inflightStore h.srcHash h.txid h.dstSlot reply).answer call reply

/-- `leaf_on_call`. -/
def onCall (frame : List Byte) (env : LeafEnv) : Leaf :=
  let h := Header.read frame
  let selfHash := nodeHash l.selfId
  let peerHash := nodeHash l.peerId
  if l.state ≠ .up then l.dropped
  else if h.srcHash ≠ peerHash ∨ h.dstHash ≠ selfHash then l.dropped
  else if l.inflightFrame ≠ [] ∧ l.inflightSrcHash = h.srcHash ∧ l.inflightTxid = h.txid then
    (l.answer frame l.inflightFrame).deduped
  else if h.dstSlot ≠ opDotSlot then
    l.received.storeAndAnswer frame
      (uartBuildFrame 320 typeError 0 0 h.txid selfHash peerHash 0
        (leBytes 4 werrNotFound.toNat ++ leBytes 4 h.txid.toNat) 8)
  else
    let (status, dot) := opDot (framePayload frame) h.payloadLen env.behind
    (l.received.record (.executed frame)).storeAndAnswer frame
      (uartBuildFrame 320 typeCallReply 0 0 h.txid selfHash peerHash h.dstSlot
        (leBytes 4 status.toNat ++ leBytes 8 dot.toNat) 12)

/-- The slot is closed; its reply is given up. -/
def forget (slot : BitVec 32) : Leaf :=
  let inflightFrame :=
    if l.inflightFrame ≠ [] ∧ l.inflightSlot = slot then [] else l.inflightFrame
  { l with inflightFrame }.record (.closed slot)

/-- `leaf_on_close`. -/
def onClose (frame : List Byte) : Leaf :=
  let h := Header.read frame
  if l.state ≠ .up then l.dropped
  else if h.srcHash ≠ nodeHash l.peerId ∨ h.dstHash ≠ nodeHash l.selfId then l.dropped
  else
    (l.forget h.dstSlot).received

/-! ### Receiving -/

/-- The frames with nothing on the leaf to land on. -/
def isIgnored (type : BitVec 8) : Prop :=
  type = typeHelloAck ∨ type = typePong ∨ type = typeCallReply ∨ type = typeError ∨
    type = typeSend ∨ type = typeAck ∨ type = typeNack

instance (type : BitVec 8) : Decidable (isIgnored type) := by
  unfold isIgnored; infer_instance

/-- `leaf_on_frame`. -/
def onFrame (frame : List Byte) (env : LeafEnv) : Leaf :=
  let h := Header.read frame
  match screenFrame frame with
  | .malformed => l.malformed
  | .drop => l.dropped
  | .ok =>
      if h.flags &&& flagsRefused ≠ 0 then l.dropped
      else if h.type = typeHello then l.onHello frame env
      else if h.type = typePing then l.onPing frame env
      else if h.type = typeCall then l.onCall frame env
      else if h.type = typeClose then l.onClose frame
      else if isIgnored h.type then l.dropped
      else l.malformed

/-- One byte from the driver. -/
def rxByte (b : Byte) (now : Ticks) (env : LeafEnv) : Leaf :=
  match l.rx.rxByte b now with
  | (rx, .frame) => { l with rx }.onFrame rx.buf env
  | (rx, .discarded) => { l with rx }.dropped
  | (rx, .consumed) => { l with rx }

/-- The silence check of `a20_mcu_leaf_poll`. -/
def silence (now : Ticks) : Leaf :=
  match l.rx.timeout now with
  | (rx, true) => { l with rx }.dropped
  | (rx, false) => { l with rx }

/-- The idle watchdog of `a20_mcu_leaf_poll`. -/
def watchdog (ticksPerSec now : Ticks) : Leaf :=
  if l.state = .up ∧ now - l.lastPingTicks > msToTicks ticksPerSec uartLeafIdleMs then
    l.disconnect
  else l

/-- `a20_mcu_leaf_poll`, with the bytes that have arrived. -/
def poll (ticksPerSec now : Ticks) (bytes : List (Byte × LeafEnv)) : Leaf :=
  let l := bytes.foldl (fun l (b, env) => l.rxByte b now env) l
  (l.silence now).watchdog ticksPerSec now

/-! ### Steps -/

/-- "MCU-LEAF-DEMO-01". -/
def demoId : NodeId :=
  #v[0x4D, 0x43, 0x55, 0x2D, 0x4C, 0x45, 0x41, 0x46, 0x2D, 0x44, 0x45, 0x4D, 0x4F, 0x2D, 0x30, 0x31]

/-- `a20_mcu_leaf_init`; the clock is read twice for the nonce. -/
def init (ticksPerSec ticks nonceTicks : Ticks) : Leaf where
  rx := .init 512 (msToTicks ticksPerSec uartInterbyteMs)
  selfId := demoId
  nonce := nextNonce (ticks ^^^ 0xA20C1A55) nonceTicks

/-- `a20_mcu_leaf_set_identity`. -/
def setIdentity (id : NodeId) : Leaf := if idIsReserved id then l else { l with selfId := id }

inductive Label where
  | byte (b : Byte) (now : Ticks) (env : LeafEnv)
  | silence (now : Ticks)
  | watchdog (now : Ticks)
  | setIdentity (id : NodeId)

def step (ticksPerSec : Ticks) (l : Leaf) : Label → Option Leaf
  | .byte b now env => some (l.rxByte b now env)
  | .silence now => some (l.silence now)
  | .watchdog now => some (l.watchdog ticksPerSec now)
  | .setIdentity id => some (l.setIdentity id)

/-- The frame a step hands to `leaf_on_frame`, if it completes one. -/
def arrives (l : Leaf) : Label → Option (List Byte)
  | .byte b now _ =>
      match l.rx.rxByte b now with
      | (rx, .frame) => some rx.buf
      | _ => none
  | _ => none

/-- The steps of a poll. -/
def pollSteps (now : Ticks) (bytes : List (Byte × LeafEnv)) : List Label :=
  bytes.map (fun (b, env) => .byte b now env) ++ [.silence now, .watchdog now]

theorem exec_poll (ticksPerSec now : Ticks) (bytes : List (Byte × LeafEnv)) :
    exec (step ticksPerSec) l (pollSteps now bytes) = some (l.poll ticksPerSec now bytes) := by
  induction bytes generalizing l with
  | nil => rfl
  | cons head rest ih => exact ih (l.rxByte head.1 now head.2)

end Leaf

end A20OS.Mcu
