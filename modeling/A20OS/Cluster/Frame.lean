import A20OS.Lib.Bytes

/-!
The cluster wire frame (`kernel/cluster/frame.c`, layout and checksum from `uart.h`).

A frame is a 32-byte header, the payload, and two checksum bytes when `csum_kind` asks for
them. `frameEncode` and `frameDecode` have all their rejections in the order of the source.
Decoding what was encoded needs, besides the sender's documented rules, the two rules that
only the receiver checks.
-/

namespace A20OS.Cluster

open Lib List

/-! ### Layout -/

def hdrLen : Nat := 32
def crcLen : Nat := 2
def clxMagic : BitVec 16 := 0x4C43
def wireVer : BitVec 8 := 0

def csumNone : BitVec 8 := 0
def csumCcitt : BitVec 8 := 1

def offMagic : Nat := 0
def offVer : Nat := 2
def offType : Nat := 3
def offFlags : Nat := 4
def offFrag : Nat := 6
def offTxid : Nat := 8
def offSrcHash : Nat := 12
def offDstHash : Nat := 16
def offDstSlot : Nat := 20
def offSeq : Nat := 24
def offPayloadLen : Nat := 28
def offTtl : Nat := 30
def offCsumKind : Nat := 31

def typeHello : BitVec 8 := 1
def typeHelloAck : BitVec 8 := 2
def typePing : BitVec 8 := 3
def typePong : BitVec 8 := 4
def typeSend : BitVec 8 := 5
def typeCall : BitVec 8 := 6
def typeCallReply : BitVec 8 := 7
def typeClose : BitVec 8 := 8
def typeAck : BitVec 8 := 9
def typeNack : BitVec 8 := 10
def typeError : BitVec 8 := 11

def flagReliable : BitVec 16 := 0x1
def flagFragmented : BitVec 16 := 0x2
def flagCompressed : BitVec 16 := 0x8
def flagsKnown : BitVec 16 := 0xF

def fragSeqMask : BitVec 16 := 0x0FFF
def fragLast : BitVec 16 := 0x8000
def fragReserved : BitVec 16 := 0x7000

/-- The fields of `a20_frame_hdr_t` that travel on the wire. -/
structure Header where
  ver : BitVec 8
  type : BitVec 8
  flags : BitVec 16
  frag : BitVec 16
  txid : BitVec 32
  srcHash : BitVec 32
  dstHash : BitVec 32
  dstSlot : BitVec 32
  seq : BitVec 32
  payloadLen : BitVec 16
  ttl : BitVec 8
  csumKind : BitVec 8
deriving DecidableEq

variable {h : Header} {buf payload : List Byte} {mtu : Nat}

/-- Widths of the header fields in offset order, the magic number first. -/
def headerLayout : List Nat := [2, 1, 1, 2, 2, 4, 4, 4, 4, 4, 2, 1, 1]

/-- The values the encoder writes after the magic number, in offset order. -/
def Header.values (h : Header) : List Nat :=
  [h.ver.toNat, h.type.toNat, h.flags.toNat, h.frag.toNat, h.txid.toNat, h.srcHash.toNat,
    h.dstHash.toNat, h.dstSlot.toNat, h.seq.toNat, h.payloadLen.toNat, h.ttl.toNat,
    h.csumKind.toNat]

/-- The field reads of the decoder. -/
def Header.read (buf : List Byte) : Header where
  ver := .ofNat 8 (loadLE 1 buf offVer)
  type := .ofNat 8 (loadLE 1 buf offType)
  flags := .ofNat 16 (loadLE 2 buf offFlags)
  frag := .ofNat 16 (loadLE 2 buf offFrag)
  txid := .ofNat 32 (loadLE 4 buf offTxid)
  srcHash := .ofNat 32 (loadLE 4 buf offSrcHash)
  dstHash := .ofNat 32 (loadLE 4 buf offDstHash)
  dstSlot := .ofNat 32 (loadLE 4 buf offDstSlot)
  seq := .ofNat 32 (loadLE 4 buf offSeq)
  payloadLen := .ofNat 16 (loadLE 2 buf offPayloadLen)
  ttl := .ofNat 8 (loadLE 1 buf offTtl)
  csumKind := .ofNat 8 (loadLE 1 buf offCsumKind)

/-- `crc_len`: the checksum bytes this header asks for. -/
def Header.crcLen (h : Header) : Nat := if h.csumKind = csumCcitt then Cluster.crcLen else 0

/-- The inner loop body of `a20_clx_crc16_ccitt`. -/
def crc16Bit (crc : BitVec 16) : BitVec 16 :=
  if crc &&& 0x8000 ≠ 0 then crc <<< 1 ^^^ 0x1021 else crc <<< 1

def crc16Byte (crc : BitVec 16) (b : Byte) : BitVec 16 :=
  let shifted : BitVec 16 := b.setWidth 16 <<< 8
  Nat.repeat crc16Bit 8 (crc ^^^ shifted)

/-- `a20_clx_crc16_ccitt`. -/
def crc16Ccitt (data : List Byte) : BitVec 16 := data.foldl crc16Byte 0xFFFF

-- the catalogue check value the source cites: the checksum of "123456789"
example : crc16Ccitt [0x31, 0x32, 0x33, 0x34, 0x35, 0x36, 0x37, 0x38, 0x39] = 0x29B1 := by
  decide +kernel

/-- `a20_frame_max_payload`: the checksum bytes are subtracted also when absent. -/
def frameMaxPayload (mtu : Nat) : Nat :=
  if mtu ≥ hdrLen + crcLen then mtu - hdrLen - crcLen else 0

/-- `a20_frame_fixed_payload_len`: `-1` is a variable length, `-2` an unknown type. -/
def frameFixedPayloadLen (type : BitVec 8) : Int :=
  if type = typeHello ∨ type = typeHelloAck then 32
  else if type = typePing ∨ type = typePong then 8
  else if type = typeSend ∨ type = typeCall ∨ type = typeCallReply then -1
  else if type = typeClose then 0
  else if type = typeAck ∨ type = typeNack then 4
  else if type = typeError then 8
  else -2

/-! ### Encoder -/

/-- The negative results of `a20_frame_encode`. -/
inductive EncodeError where
  | badArgument | overMtu | capTooSmall
deriving DecidableEq, Repr

/-- Header and payload as the encoder writes them, without the checksum. -/
def frameBody (h : Header) (payload : List Byte) : List Byte :=
  pack headerLayout (clxMagic.toNat :: h.values) ++ payload.take h.payloadLen.toNat

/-- The whole frame: the checksum covers header and payload. -/
def frameBytes (h : Header) (payload : List Byte) : List Byte :=
  let body := frameBody h payload
  if h.csumKind = csumCcitt then body ++ leBytes crcLen (crc16Ccitt body).toNat else body

/-- `a20_frame_encode`: the bytes written from the start of a buffer of `cap` bytes.
`payload` is the pointer argument, and the caller owns `payload_len` bytes there. -/
def frameEncode (cap mtu : Nat) (h : Header) (payload : Option (List Byte)) :
    Except EncodeError (List Byte) :=
  if payload = none ∧ h.payloadLen ≠ 0 then .error .badArgument
  else if h.csumKind ≠ csumNone ∧ h.csumKind ≠ csumCcitt then .error .badArgument
  else if h.flags &&& ~~~flagsKnown ≠ 0 then .error .badArgument
  else if h.flags &&& flagCompressed ≠ 0 then .error .badArgument
  else if h.frag &&& fragReserved ≠ 0 then .error .badArgument
  else if h.payloadLen.toNat > frameMaxPayload mtu then .error .overMtu
  else if hdrLen + h.payloadLen.toNat + h.crcLen > cap then .error .capTooSmall
  else .ok (frameBytes h (payload.getD []))

/-! ### Decoder -/

/-- `a20_frame_verdict_t`. -/
inductive Verdict where
  | ok | shortFrame | badMagic | unsupportedVer | unknownType | unsupportedCsumKind
  | payloadOverMtu | payloadLenMismatch | crcMismatch | fragFlagMismatch | seqOnUnreliable
  | txidOnSend | fixedPayloadLenMismatch
deriving DecidableEq, Repr

/-- What `a20_frame_decode` returns and fills in. -/
structure Decoded where
  verdict : Verdict
  hdr : Header
  crcPresent : Bool
  crcValue : BitVec 16
  payload : Option (List Byte)
deriving DecidableEq

/-- A reject before the length check: no payload, no checksum. -/
def Decoded.early (verdict : Verdict) (hdr : Header) : Decoded :=
  { verdict, hdr, crcPresent := false, crcValue := 0, payload := none }

/-- `FRAGMENTED` and the `frag` field contradict each other. -/
def Header.fragMismatch (h : Header) : Prop :=
  if h.flags &&& flagFragmented ≠ 0 then h.frag &&& fragSeqMask = 0 ∧ h.frag &&& fragLast ≠ 0
  else h.frag ≠ 0

instance (h : Header) : Decidable h.fragMismatch := by
  unfold Header.fragMismatch; infer_instance

/-- The rejects of the decoder between the short-frame check and the length check. -/
def headerReject (buf : List Byte) (mtu : Nat) (h : Header) : Option Verdict :=
  if loadLE 2 buf offMagic ≠ clxMagic.toNat then some .badMagic
  else if h.ver ≠ wireVer then some .unsupportedVer
  else if h.type < typeHello ∨ h.type > typeError then some .unknownType
  else if h.csumKind ≠ csumNone ∧ h.csumKind ≠ csumCcitt then some .unsupportedCsumKind
  else if mtu < hdrLen + crcLen ∨ h.payloadLen.toNat > frameMaxPayload mtu then
    some .payloadOverMtu
  else none

/-- The received bytes carry the checksum their header asks for. -/
def CrcMatches (buf : List Byte) (h : Header) : Prop :=
  h.csumKind = csumCcitt →
    BitVec.ofNat 16 (loadLE 2 buf (hdrLen + h.payloadLen.toNat)) =
      crc16Ccitt (buf.take (hdrLen + h.payloadLen.toNat))

instance (buf : List Byte) (h : Header) : Decidable (CrcMatches buf h) := by
  unfold CrcMatches; infer_instance

/-- The verdicts of the decoder after the length check. -/
def bodyVerdict (buf : List Byte) (h : Header) : Verdict :=
  if ¬ CrcMatches buf h then .crcMismatch
  else if h.fragMismatch then .fragFlagMismatch
  else if h.flags &&& flagReliable = 0 ∧ h.seq ≠ 0 then .seqOnUnreliable
  else if h.type = typeSend ∧ h.txid ≠ 0 then .txidOnSend
  else if frameFixedPayloadLen h.type ≥ 0 ∧ frameFixedPayloadLen h.type ≠ h.payloadLen.toNat then
    .fixedPayloadLenMismatch
  else .ok

/-- `a20_frame_decode` of the received bytes at the receiver's MTU. -/
def frameDecode (buf : List Byte) (mtu : Nat) : Decoded :=
  if buf.length < hdrLen then .early .shortFrame ⟨0, 0, 0, 0, 0, 0, 0, 0, 0, 0, 0, 0⟩
  else
    let h := Header.read buf
    match headerReject buf mtu h with
    | some verdict => .early verdict h
    | none =>
        let present : Bool := h.csumKind = csumCcitt
        if buf.length ≠ hdrLen + h.payloadLen.toNat + h.crcLen then
          { Decoded.early .payloadLenMismatch h with crcPresent := present }
        else
          { verdict := bodyVerdict buf h
            hdr := h
            crcPresent := present
            crcValue :=
              if present then .ofNat 16 (loadLE 2 buf (hdrLen + h.payloadLen.toNat)) else 0
            payload := some ((buf.drop hdrLen).take h.payloadLen.toNat) }

/-! ### What a receiver accepts -/

/-- What the sender's documentation asks of a header at this MTU. -/
structure SenderRules (mtu : Nat) (h : Header) : Prop where
  ver : h.ver = wireVer
  type : ¬ (h.type < typeHello ∨ h.type > typeError)
  csum : h.csumKind = csumNone ∨ h.csumKind = csumCcitt
  frag : ¬ h.fragMismatch
  seq : h.flags &&& flagReliable = 0 → h.seq = 0
  payload : h.payloadLen.toNat ≤ frameMaxPayload mtu
  fixed : 0 ≤ frameFixedPayloadLen h.type → frameFixedPayloadLen h.type = h.payloadLen.toNat

/-- What a receiver of this MTU asks of a header: the sender's rules and two more. -/
structure Conforms (mtu : Nat) (h : Header) : Prop extends SenderRules mtu h where
  wide : hdrLen + crcLen ≤ mtu
  txid : h.type = typeSend → h.txid = 0

/-- The bits a sender must leave zero; `COMPRESSED` is reserved in version 0. -/
structure ReservedZero (h : Header) : Prop where
  flags : h.flags &&& ~~~flagsKnown = 0
  compressed : h.flags &&& flagCompressed = 0
  frag : h.frag &&& fragReserved = 0

theorem headerReject_eq_none_iff :
    headerReject buf mtu h = none ↔
      loadLE 2 buf offMagic = clxMagic.toNat ∧ h.ver = wireVer ∧
        ¬ (h.type < typeHello ∨ h.type > typeError) ∧
        (h.csumKind = csumNone ∨ h.csumKind = csumCcitt) ∧
        hdrLen + crcLen ≤ mtu ∧ h.payloadLen.toNat ≤ frameMaxPayload mtu := by
  unfold headerReject
  grind

theorem bodyVerdict_eq_ok_iff :
    bodyVerdict buf h = .ok ↔
      CrcMatches buf h ∧ ¬ h.fragMismatch ∧ (h.flags &&& flagReliable = 0 → h.seq = 0) ∧
        (h.type = typeSend → h.txid = 0) ∧
        (0 ≤ frameFixedPayloadLen h.type →
          frameFixedPayloadLen h.type = h.payloadLen.toNat) := by
  unfold bodyVerdict
  grind

theorem headerReject_ne_ok (buf : List Byte) (mtu : Nat) (h : Header) :
    headerReject buf mtu h ≠ some .ok := by
  unfold headerReject
  grind

theorem Conforms.pass (conf : Conforms mtu h) (magic : loadLE 2 buf offMagic = clxMagic.toNat) :
    headerReject buf mtu h = none :=
  headerReject_eq_none_iff.mpr ⟨magic, conf.ver, conf.type, conf.csum, conf.wide, conf.payload⟩

/-- A frame that passes the header checks and has the right length. -/
theorem frameDecode_of_length (long : hdrLen ≤ buf.length)
    (pass : headerReject buf mtu (Header.read buf) = none)
    (len : buf.length = hdrLen + (Header.read buf).payloadLen.toNat + (Header.read buf).crcLen) :
    (frameDecode buf mtu).verdict = bodyVerdict buf (Header.read buf) ∧
      (frameDecode buf mtu).hdr = Header.read buf ∧
      (frameDecode buf mtu).payload =
        some ((buf.drop hdrLen).take (Header.read buf).payloadLen.toNat) := by
  unfold frameDecode
  rw [if_neg (not_lt.mpr long)]
  simp only [pass, ne_eq, len, not_true_eq_false, if_false, and_self]

theorem frameDecode_verdict_ok_iff :
    (frameDecode buf mtu).verdict = .ok ↔
      hdrLen ≤ buf.length ∧ loadLE 2 buf offMagic = clxMagic.toNat ∧
        Conforms mtu (Header.read buf) ∧
        buf.length = hdrLen + (Header.read buf).payloadLen.toNat + (Header.read buf).crcLen ∧
        CrcMatches buf (Header.read buf) := by
  constructor
  · intro h
    have long : hdrLen ≤ buf.length := by
      by_contra hshort
      rw [frameDecode, if_pos (not_le.mp hshort)] at h
      cases h
    have pass : headerReject buf mtu (Header.read buf) = none := by
      cases hr : headerReject buf mtu (Header.read buf) with
      | none => rfl
      | some v =>
        rw [frameDecode, if_neg (not_lt.mpr long)] at h
        simp only [hr, Decoded.early] at h
        exact absurd (h ▸ hr) (headerReject_ne_ok buf mtu _)
    have len : buf.length =
        hdrLen + (Header.read buf).payloadLen.toNat + (Header.read buf).crcLen := by
      by_contra hlen
      rw [frameDecode, if_neg (not_lt.mpr long)] at h
      simp only [pass, ne_eq, hlen, not_false_eq_true, if_true] at h
      cases h
    rw [(frameDecode_of_length long pass len).1, bodyVerdict_eq_ok_iff] at h
    obtain ⟨crc, frag, seq, txid, fixed⟩ := h
    obtain ⟨magic, ver, type, csum, wide, payload⟩ := headerReject_eq_none_iff.mp pass
    exact ⟨long, magic, ⟨⟨ver, type, csum, frag, seq, payload, fixed⟩, wide, txid⟩, len, crc⟩
  · rintro ⟨long, magic, conf, len, crc⟩
    rw [(frameDecode_of_length long (conf.pass magic) len).1]
    exact bodyVerdict_eq_ok_iff.mpr ⟨crc, conf.frag, conf.seq, conf.txid, conf.fixed⟩

/-! ### Header bytes -/

theorem Header.values_fit (h : Header) : Fits headerLayout (clxMagic.toNat :: h.values) :=
  ⟨by decide, h.ver.isLt, h.type.isLt, h.flags.isLt, h.frag.isLt, h.txid.isLt, h.srcHash.isLt,
    h.dstHash.isLt, h.dstSlot.isLt, h.seq.isLt, h.payloadLen.isLt, h.ttl.isLt, h.csumKind.isLt,
    trivial⟩

theorem Header.values_injective {h' : Header} (same : h.values = h'.values) : h = h' := by
  cases h
  cases h'
  simp only [Header.values, cons.injEq, BitVec.toNat_inj] at same
  simp only [same]

/-- The decoder's reads, in offset order, are the values of the header they yield. -/
theorem unpack_headerLayout :
    unpack buf headerLayout 0 = loadLE 2 buf offMagic :: (Header.read buf).values := by
  have byte (off : Nat) : loadLE 1 buf off < 2 ^ 8 := loadLE_lt
  have half (off : Nat) : loadLE 2 buf off < 2 ^ 16 := loadLE_lt
  have word (off : Nat) : loadLE 4 buf off < 2 ^ 32 := loadLE_lt
  simp only [Header.values, Header.read, BitVec.toNat_ofNat,
    Nat.mod_eq_of_lt (byte _), Nat.mod_eq_of_lt (half _), Nat.mod_eq_of_lt (word _)]
  rfl

section
variable (len : payload.length = h.payloadLen.toNat)
include len

theorem length_frameBody : (frameBody h payload).length = hdrLen + h.payloadLen.toNat := by
  rw [frameBody, length_append, length_pack h.values_fit, length_take, len, Nat.min_self]
  rfl

omit len in
/-- Reading the header and the payload the encoder wrote. -/
theorem read_frameBody (h : Header) (payload tail : List Byte) :
    loadLE 2 (frameBody h payload ++ tail) offMagic = clxMagic.toNat ∧
      Header.read (frameBody h payload ++ tail) = h := by
  have written := unpack_pack h.values_fit [] (payload.take h.payloadLen.toNat ++ tail)
  rw [nil_append, ← append_assoc, length_nil, unpack_headerLayout, cons.injEq] at written
  exact ⟨written.1, Header.values_injective written.2⟩

theorem payload_frameBody (tail : List Byte) :
    ((frameBody h payload ++ tail).drop hdrLen).take h.payloadLen.toNat = payload := by
  have head : (pack headerLayout (clxMagic.toNat :: h.values)).length = hdrLen :=
    length_pack h.values_fit
  rw [frameBody, append_assoc, drop_left' head, ← len, take_length, take_left]

/-! ### Round trips -/

omit len in
theorem frameBytes_eq (h : Header) (payload : List Byte) :
    ∃ tail, frameBytes h payload = frameBody h payload ++ tail ∧ tail.length = h.crcLen := by
  unfold frameBytes Header.crcLen
  by_cases kind : h.csumKind = csumCcitt
  · exact ⟨_, if_pos kind, by rw [if_pos kind, length_leBytes]⟩
  · exact ⟨[], by simp [kind], by simp [kind]⟩

theorem crcMatches_frameBytes : CrcMatches (frameBytes h payload) h := by
  intro kind
  have body := length_frameBody len
  have crc := (crc16Ccitt (frameBody h payload)).isLt
  rw [frameBytes, if_pos kind, loadLE, ← body, drop_left, take_left,
    take_of_length_le (by rw [length_leBytes]; rfl), leValue_leBytes_of_lt (by exact crc),
    BitVec.ofNat_toNat, BitVec.setWidth_eq]

end

theorem frameEncode_of_rules {cap : Nat} (payload : List Byte) (rules : SenderRules mtu h)
    (reserved : ReservedZero h) (room : hdrLen + h.payloadLen.toNat + h.crcLen ≤ cap) :
    frameEncode cap mtu h (some payload) = .ok (frameBytes h payload) := by
  have csum : ¬ (h.csumKind ≠ csumNone ∧ h.csumKind ≠ csumCcitt) := by
    rintro ⟨notNone, notCcitt⟩
    exact rules.csum.elim notNone notCcitt
  rw [frameEncode, if_neg (by simp), if_neg csum, if_neg (not_not.mpr reserved.flags),
    if_neg (not_not.mpr reserved.compressed), if_neg (not_not.mpr reserved.frag),
    if_neg (not_lt.mpr rules.payload), if_neg (not_lt.mpr room)]
  rfl

/-- A frame built under the sender's rules is accepted exactly when it also meets
the two rules of the receiver, and it then decodes to what was encoded. -/
theorem frameDecode_frameBytes
    (rules : SenderRules mtu h) (len : payload.length = h.payloadLen.toNat) :
    ((frameDecode (frameBytes h payload) mtu).verdict = .ok ↔
        hdrLen + crcLen ≤ mtu ∧ (h.type = typeSend → h.txid = 0)) ∧
      ((frameDecode (frameBytes h payload) mtu).verdict = .ok →
        (frameDecode (frameBytes h payload) mtu).hdr = h ∧
          (frameDecode (frameBytes h payload) mtu).payload = some payload) := by
  obtain ⟨tail, split, tailLen⟩ := frameBytes_eq h payload
  have crc := crcMatches_frameBytes len
  obtain ⟨magic, hdr⟩ := read_frameBody h payload tail
  have body := payload_frameBody len tail
  rw [← split] at magic hdr body
  have total : (frameBytes h payload).length = hdrLen + h.payloadLen.toNat + h.crcLen := by
    rw [split, length_append, length_frameBody len, tailLen]
  have long : hdrLen ≤ (frameBytes h payload).length := by
    rw [total, Nat.add_assoc]
    exact Nat.le_add_right _ _
  constructor
  · rw [frameDecode_verdict_ok_iff, hdr]
    constructor
    · rintro ⟨-, -, conf, -, -⟩
      exact ⟨conf.wide, conf.txid⟩
    · rintro ⟨wide, txid⟩
      exact ⟨long, magic, ⟨rules, wide, txid⟩, total, crc⟩
  · intro ok
    obtain ⟨-, -, conf, -, -⟩ := frameDecode_verdict_ok_iff.mp ok
    obtain ⟨-, outHdr, outPayload⟩ :=
      frameDecode_of_length long (conf.pass magic) (by rw [hdr, total])
    rw [outHdr, outPayload, hdr, body]
    exact ⟨rfl, rfl⟩

/-- Header and payload of an accepted frame are its bytes before the checksum. -/
theorem frameBody_read (long : hdrLen ≤ buf.length)
    (magic : loadLE 2 buf offMagic = clxMagic.toNat) :
    frameBody (Header.read buf) ((buf.drop hdrLen).take (Header.read buf).payloadLen.toNat) =
      buf.take (hdrLen + (Header.read buf).payloadLen.toNat) := by
  have head : pack headerLayout (clxMagic.toNat :: (Header.read buf).values) = buf.take hdrLen := by
    rw [← magic, ← unpack_headerLayout,
      pack_unpack buf headerLayout 0 (by rw [Nat.zero_add]; exact long)]
    rfl
  rw [frameBody, head, take_take, Nat.min_self, take_add]

/-- Encoding what an accepted frame decodes to gives the frame back. -/
theorem frameBytes_read (ok : (frameDecode buf mtu).verdict = .ok) :
    frameBytes (Header.read buf) ((buf.drop hdrLen).take (Header.read buf).payloadLen.toNat) =
      buf := by
  obtain ⟨long, magic, -, len, crc⟩ := frameDecode_verdict_ok_iff.mp ok
  rw [frameBytes, frameBody_read long magic]
  generalize Header.read buf = h at *
  by_cases kind : h.csumKind = csumCcitt
  · rw [Header.crcLen, if_pos kind] at len
    have received : (crc16Ccitt (buf.take (hdrLen + h.payloadLen.toNat))).toNat =
        loadLE crcLen buf (hdrLen + h.payloadLen.toNat) := by
      rw [← crc kind, BitVec.toNat_ofNat]
      exact Nat.mod_eq_of_lt loadLE_lt
    rw [if_pos kind, received, leBytes_loadLE len.ge, ← take_add, ← len, take_length]
  · rw [Header.crcLen, if_neg kind, Nat.add_zero] at len
    rw [if_neg kind, take_of_length_le len.le]

/-- **Round trips of the frame codec.** Under the sender's documented rules, and in
a buffer with room, encoding succeeds; the receiver at the same MTU accepts the
bytes exactly when the MTU has room for header and checksum and a `SEND` carries
transaction id zero, and then yields the same header and payload. Every accepted
byte string whose reserved bits are zero is what its header and payload encode to. -/
theorem frame_roundTrip :
    (∀ (cap mtu : Nat) (h : Header) (payload : List Byte), SenderRules mtu h → ReservedZero h →
      payload.length = h.payloadLen.toNat → hdrLen + h.payloadLen.toNat + h.crcLen ≤ cap →
      ∃ bytes, frameEncode cap mtu h (some payload) = .ok bytes ∧
        ((frameDecode bytes mtu).verdict = .ok ↔
          hdrLen + crcLen ≤ mtu ∧ (h.type = typeSend → h.txid = 0)) ∧
        ((frameDecode bytes mtu).verdict = .ok →
          (frameDecode bytes mtu).hdr = h ∧ (frameDecode bytes mtu).payload = some payload)) ∧
    (∀ (cap mtu : Nat) (buf : List Byte), (frameDecode buf mtu).verdict = .ok →
      ReservedZero (frameDecode buf mtu).hdr → buf.length ≤ cap →
      frameEncode cap mtu (frameDecode buf mtu).hdr (frameDecode buf mtu).payload = .ok buf) := by
  constructor
  · intro cap mtu h payload rules reserved len room
    obtain ⟨accepts, same⟩ := frameDecode_frameBytes rules len
    exact ⟨frameBytes h payload, frameEncode_of_rules payload rules reserved room, accepts, same⟩
  · intro cap mtu buf ok reserved room
    obtain ⟨long, magic, conf, len, -⟩ := frameDecode_verdict_ok_iff.mp ok
    obtain ⟨-, outHdr, outPayload⟩ := frameDecode_of_length long (conf.pass magic) len
    rw [outHdr] at reserved ⊢
    rw [outPayload, frameEncode_of_rules _ conf.toSenderRules reserved (by rw [← len]; exact room),
      frameBytes_read ok]

/-- A `PING` with its eight payload bytes, checksummed. -/
def ping : Header := ⟨0, typePing, 0, 0, 7, 0x1234, 0x5678, 0, 0, 8, 4, csumCcitt⟩

theorem frame_roundTrip_ping :
    ∃ bytes, frameEncode 64 256 ping (some (leBytes 8 42)) = .ok bytes ∧
      (frameDecode bytes 256).hdr = ping := by
  obtain ⟨bytes, encoded, accepts, same⟩ := frame_roundTrip.1 64 256 ping (leBytes 8 42)
    ⟨rfl, by decide, .inr rfl, by decide, by decide, by decide, by decide⟩
    ⟨by decide, by decide, by decide⟩ (by decide) (by decide)
  exact ⟨bytes, encoded, (same (accepts.mpr (by decide))).1⟩

/-- Two headers that follow the sender's documented rules, are encoded, and are
rejected at the same MTU: a `SEND` with a transaction id, and an empty `CLOSE` at an
MTU below header plus checksum. -/
theorem frameEncode_rejected :
    let send : Header := ⟨0, typeSend, 0, 0, 1, 0, 0, 0, 0, 0, 0, csumNone⟩
    let close : Header := ⟨0, typeClose, 0, 0, 0, 0, 0, 0, 0, 0, 0, csumNone⟩
    (SenderRules 256 send ∧ ReservedZero send ∧
      ∃ bytes, frameEncode 64 256 send (some []) = .ok bytes ∧
        (frameDecode bytes 256).verdict = .txidOnSend) ∧
    (SenderRules 33 close ∧ ReservedZero close ∧
      ∃ bytes, frameEncode 64 33 close (some []) = .ok bytes ∧
        (frameDecode bytes 33).verdict = .payloadOverMtu) := by
  refine ⟨⟨?_, ?_, _, rfl, by decide⟩, ?_, ?_, _, rfl, by decide⟩
  · exact ⟨rfl, by decide, .inl rfl, by decide, by decide, by decide, by decide⟩
  · exact ⟨by decide, by decide, by decide⟩
  · exact ⟨rfl, by decide, .inl rfl, by decide, by decide, by decide, by decide⟩
  · exact ⟨by decide, by decide, by decide⟩

end A20OS.Cluster
