import A20OS.Cluster.Export
import A20OS.Cluster.Slip

/-!
What the two ends of a UART link share (`kernel/cluster/uart.h`): the frame builder, the
HELLO payload, the screen every received frame has to pass, and the counters.

The builder and the screen stand beside the general codec of `kernel/cluster/frame.c`:
a UART frame always has a checksum, is at most 256 bytes long and is not looked at
further before the frame types are told apart.
-/

namespace A20OS.Cluster

open Lib

/-! ### Constants -/

def uartMtu : Nat := 256
/-- `A20_CLX_UART_MAX_PAYLOAD`. -/
def uartMaxPayload : Nat := uartMtu - hdrLen - crcLen
def shortUnassigned : BitVec 16 := 0xFFFF

def flagBroadcast : BitVec 16 := 0x4
/-- No UART frame may be reliable, fragmented or broadcast. -/
def flagsRefused : BitVec 16 := flagReliable ||| flagFragmented ||| flagBroadcast

def capRelay : BitVec 8 := 1
def capReliable : BitVec 8 := 2
def capLeaf : BitVec 8 := 4
def capsKnown : BitVec 8 := capRelay ||| capReliable ||| capLeaf

def tierMcu : BitVec 8 := 1
def werrClusterUnsupported : BitVec 32 := 29

def uartInterbyteMs : Nat := 50
def uartPingPeriodMs : Nat := 5000
def uartLeafIdleMs : Nat := 50000
def uartHelloTimeoutMs : Nat := 2000
def uartHelloRetries : BitVec 8 := 3

/-- `MS_TO_TICKS`. -/
def msToTicks (ticksPerSec : Ticks) (ms : Nat) : Ticks := BitVec.ofNat 64 ms * ticksPerSec / 1000

/-! ### Frames -/

/-- Header and payload as `a20_clx_build_frame` writes them, field by field. -/
def uartBody (type : BitVec 8) (flags frag : BitVec 16) (txid srcHash dstHash dstSlot : BitVec 32)
    (payload : List Byte) (payloadLen : BitVec 16) : List Byte :=
  leBytes 2 clxMagic.toNat ++ [wireVer, type] ++ leBytes 2 flags.toNat ++ leBytes 2 frag.toNat ++
    leBytes 4 txid.toNat ++ leBytes 4 srcHash.toNat ++ leBytes 4 dstHash.toNat ++
    leBytes 4 dstSlot.toNat ++ leBytes 4 0 ++ leBytes 2 payloadLen.toNat ++
    [ttlDefault, csumCcitt] ++ payload.take payloadLen.toNat

/-- `a20_clx_build_frame` into a buffer of `cap` bytes. -/
def uartBuildFrame (cap : Nat) (type : BitVec 8) (flags frag : BitVec 16)
    (txid srcHash dstHash dstSlot : BitVec 32) (payload : List Byte) (payloadLen : BitVec 16) :
    Option (List Byte) :=
  if cap < hdrLen + payloadLen.toNat + crcLen ∨ uartMaxPayload < payloadLen.toNat then none
  else
    let body := uartBody type flags frag txid srcHash dstHash dstSlot payload payloadLen
    some (body ++ leBytes crcLen (crc16Ccitt body).toNat)

section
variable (type : BitVec 8) (flags frag : BitVec 16) (txid srcHash dstHash dstSlot : BitVec 32)
  (payload : List Byte)

theorem length_uartBody (payloadLen : BitVec 16) :
    (uartBody type flags frag txid srcHash dstHash dstSlot payload payloadLen).length =
      hdrLen + min payloadLen.toNat payload.length := by
  simp only [uartBody, List.length_append, length_leBytes, List.length_cons, List.length_nil,
    List.length_take, hdrLen]

/-- A short payload is put into a frame. -/
theorem exists_uartBuildFrame {cap : Nat} {payloadLen : BitVec 16}
    (room : hdrLen + payloadLen.toNat + crcLen ≤ cap) (short : payloadLen.toNat ≤ uartMaxPayload) :
    ∃ frame, uartBuildFrame cap type flags frag txid srcHash dstHash dstSlot payload payloadLen =
        some frame ∧
      frame.length = hdrLen + min payloadLen.toNat payload.length + crcLen := by
  unfold uartBuildFrame
  rw [if_neg (by omega)]
  exact ⟨_, rfl, by rw [List.length_append, length_uartBody, length_leBytes]⟩

end

/-- What the pointer to the payload points to: the payload and the checksum. -/
def framePayload (frame : List Byte) : List Byte := frame.drop hdrLen

/-- The verdicts of `a20_clx_screen_frame`. -/
inductive Screen where
  | ok | malformed | drop
deriving DecidableEq, Repr

/-- `a20_clx_screen_frame`. -/
def screenFrame (frame : List Byte) : Screen :=
  let h := Header.read frame
  if frame.length < hdrLen + crcLen ∨ uartMtu < frame.length then .malformed
  else if loadLE 2 frame offMagic ≠ clxMagic.toNat then .malformed
  else if h.csumKind ≠ csumCcitt then .malformed
  else if h.payloadLen.toNat ≠ frame.length - hdrLen - crcLen ∨
      uartMaxPayload < h.payloadLen.toNat then .malformed
  else if h.ttl = 0 then .drop
  else if BitVec.ofNat 16 (loadLE 2 frame (hdrLen + h.payloadLen.toNat)) ≠
      crc16Ccitt (frame.take (hdrLen + h.payloadLen.toNat)) then .malformed
  else .ok

/-! ### HELLO -/

def helloLen : Nat := 32

/-- The fields of a HELLO payload, as far as they say something about the sender. -/
structure Hello where
  nodeId : NodeId
  protoMin : BitVec 8
  protoMax : BitVec 8
  tier : BitVec 8
  caps : BitVec 8
  shortAddr : BitVec 16
  nonce : BitVec 64
deriving DecidableEq

/-- The byte at an offset of the payload. -/
def byteAt (payload : List Byte) (off : Nat) : Byte := .ofNat 8 (loadLE 1 payload off)

def Hello.read (payload : List Byte) : Hello where
  nodeId := Vector.ofFn fun i => byteAt payload i
  protoMin := byteAt payload 16
  protoMax := byteAt payload 17
  tier := byteAt payload 18
  caps := byteAt payload 19
  shortAddr := .ofNat 16 (loadLE 2 payload 20)
  nonce := .ofNat 64 (loadLE 8 payload 24)

/-- `a20_clx_build_hello_payload`. -/
def buildHelloPayload (nodeId : NodeId) (protoMin protoMax tier caps : BitVec 8)
    (shortAddr : BitVec 16) (nonce : BitVec 64) : List Byte :=
  nodeId.toList ++ [protoMin, protoMax, tier, caps] ++ leBytes 2 shortAddr.toNat ++ [2, 0] ++
    leBytes 8 nonce.toNat

/-- `uart_next_nonce` and `leaf_next_nonce`. -/
def nextNonce (prev : BitVec 64) (ticks : Ticks) : BitVec 64 :=
  prev * 6364136223846793005 + 1442695040888963407 + ticks

/-! ### Counters -/

/-- `a20_clx_link_counters_t`, without those nothing on a UART counts. -/
structure LinkCounters where
  txFrames : BitVec 64 := 0
  rxFrames : BitVec 64 := 0
  txDrops : BitVec 64 := 0
  rxDrops : BitVec 64 := 0
  rxMalformed : BitVec 64 := 0
  dedupDrops : BitVec 64 := 0
  helloRejects : BitVec 64 := 0
deriving DecidableEq

/-! ### The two codecs -/

/-- The fields that the builder fixes. -/
structure UartHeader (h : Header) : Prop where
  ver : h.ver = wireVer
  seq : h.seq = 0
  ttl : h.ttl = ttlDefault
  csumKind : h.csumKind = csumCcitt

theorem uartBody_eq {h : Header} (fixed : UartHeader h) (payload : List Byte) :
    uartBody h.type h.flags h.frag h.txid h.srcHash h.dstHash h.dstSlot payload h.payloadLen =
      frameBody h payload := by
  simp [frameBody, uartBody, pack, headerLayout, Header.values, leBytes, fixed.ver, fixed.seq,
    fixed.ttl, fixed.csumKind]

/-- **The screen and the decoder.** Of the frames that the decoder accepts at the MTU of the
UART, the screen passes those with a checksum and hops left. Every frame it passes has a
matching checksum, the length its header says and hops left. The builder writes what the encoder
writes for the same header and payload, if the reserved bits are zero. -/
theorem screenFrame_agrees :
    (∀ frame, (frameDecode frame uartMtu).verdict = .ok → (screenFrame frame = .ok ↔
      (Header.read frame).csumKind = csumCcitt ∧ (Header.read frame).ttl ≠ 0)) ∧
    (∀ frame, screenFrame frame = .ok → (Header.read frame).csumKind = csumCcitt ∧
      CrcMatches frame (Header.read frame) ∧
      frame.length = hdrLen + (Header.read frame).payloadLen.toNat + (Header.read frame).crcLen ∧
      (Header.read frame).ttl ≠ 0) ∧
    ∀ cap h payload, UartHeader h → ReservedZero h →
      uartBuildFrame cap h.type h.flags h.frag h.txid h.srcHash h.dstHash h.dstSlot payload
        h.payloadLen = (frameEncode cap uartMtu h (some payload)).toOption := by
  refine ⟨fun frame ok => ?_, fun frame ok => ?_, fun cap h payload fixed reserved => ?_⟩
  · obtain ⟨long, magic, conf, len, crc⟩ := frameDecode_verdict_ok_iff.mp ok
    have payload := conf.payload
    unfold screenFrame
    rw [Header.crcLen] at len
    have : frameMaxPayload uartMtu = uartMaxPayload := rfl
    have : uartMaxPayload = 222 := rfl
    have : uartMtu = 256 := rfl
    have : hdrLen = 32 := rfl
    have : crcLen = 2 := rfl
    unfold CrcMatches at crc
    grind
  · unfold screenFrame at ok
    unfold CrcMatches Header.crcLen
    grind
  · have most : frameMaxPayload uartMtu = uartMaxPayload := rfl
    have sum : h.crcLen = crcLen := if_pos fixed.csumKind
    rw [frameEncode, if_neg (by simp), if_neg (by simp [fixed.csumKind]),
      if_neg (not_not.mpr reserved.flags), if_neg (not_not.mpr reserved.compressed),
      if_neg (not_not.mpr reserved.frag), most, sum, frameBytes, if_pos fixed.csumKind,
      ← uartBody_eq fixed, uartBuildFrame]
    grind [Except.toOption]

/-- A ping is built as it is encoded, and passes the screen. -/
theorem screenFrame_agrees_ping : ∃ frame,
    uartBuildFrame 64 typePing 0 0 7 0x1234 0x5678 0 (leBytes 8 42) 8 = some frame ∧
      screenFrame frame = .ok := by
  refine ⟨_, (screenFrame_agrees.2.2 64
    ⟨wireVer, typePing, 0, 0, 7, 0x1234, 0x5678, 0, 0, 8, ttlDefault, csumCcitt⟩ (leBytes 8 42)
    ⟨rfl, rfl, rfl, rfl⟩ ⟨rfl, rfl, rfl⟩).trans rfl, ?_⟩
  exact (screenFrame_agrees.1 _ (by decide +kernel)).mpr (by decide +kernel)

/-- A `CLOSE` without a checksum is accepted by the decoder and refused by the screen. -/
theorem screen_refuses_unchecked : ∃ frame,
    (frameDecode frame uartMtu).verdict = .ok ∧ screenFrame frame = .malformed :=
  ⟨frameBytes ⟨wireVer, typeClose, 0, 0, 7, 0, 0, 0, 0, 0, 4, csumNone⟩ [], by decide +kernel,
    by decide +kernel⟩

end A20OS.Cluster
