import A20OS.Cluster.Pairing

/-!
Single calls at an export.

The length of the server's message goes through sixteen bits and a payload bound, so a reply
carries the message up to its length modulo 65536.
-/

namespace A20OS.Cluster

open Lib

/-- The header of the reply to a call, with the length cut to its field. -/
def PendingReq.replyHeader (entry : PendingReq) (len : Nat) : Header :=
  ⟨wireVer, typeCallReply, 0, 0, entry.txid, entry.serveHash, nodeHash entry.src, 0, 0,
    .ofNat 16 len, ttlDefault, csumCcitt⟩

namespace ExportSys

variable {s : ExportSys} {entry : PendingReq} {reply : Reply}

theorem replyHeader_rules {len : Nat} (fits : len % 65536 ≤ frameMaxPayload 65536) :
    SenderRules 65536 (entry.replyHeader len) where
  ver := rfl
  type := (by decide : ¬(typeCallReply < typeHello ∨ typeCallReply > typeError))
  csum := .inr rfl
  frag := by simp [PendingReq.replyHeader, Header.fragMismatch]
  seq := fun _ => rfl
  payload := fits
  fixed := fun fixed => absurd fixed (by decide : ¬0 ≤ frameFixedPayloadLen typeCallReply)

/-- What the receiver of the frame finds in it. -/
theorem workerBuild_sends (fits : reply.data.length % 65536 ≤ frameMaxPayload 65536) :
    ∃ frame, (s.workerBuild entry reply true).sent =
        s.sent ++ [⟨entry.src, frame, some reply.answers⟩] ∧
      (frameDecode frame 65536).verdict = .ok ∧
      (frameDecode frame 65536).hdr = entry.replyHeader reply.data.length ∧
      (frameDecode frame 65536).payload =
        some (reply.data.take (reply.data.length % 65536)) := by
  have rules := @replyHeader_rules entry _ fits
  have short := Nat.mod_le reply.data.length 65536
  obtain ⟨accepts, decodes⟩ := frameDecode_frameBytes rules (List.length_take_of_le short)
  have ok := accepts.mpr ⟨by decide, fun send =>
    absurd send (by decide : ¬typeCallReply = typeSend)⟩
  refine ⟨_, ?_, ok, decodes ok⟩
  have encoded := frameEncode_of_rules reply.data rules
    ⟨BitVec.zero_and, BitVec.zero_and, BitVec.zero_and⟩
    (Nat.add_le_add_right (Nat.add_le_add_left short hdrLen) crcLen)
  -- the encoder reads no further than the length field says
  have cut : frameBytes (entry.replyHeader reply.data.length) reply.data =
      frameBytes (entry.replyHeader reply.data.length)
        (reply.data.take (reply.data.length % 65536)) := by
    unfold frameBytes frameBody
    rw [List.take_take, Nat.min_eq_left (by rfl)]
  rw [cut] at encoded
  unfold workerBuild buildFrame
  unfold PendingReq.replyHeader at encoded ⊢
  rw [if_pos rfl, encoded]
  rfl

/-- A length that the cast leaves above the payload bound: no frame is built. -/
theorem workerBuild_overMtu (beyond : frameMaxPayload 65536 < reply.data.length % 65536) :
    (s.workerBuild entry reply true).sent = s.sent := by
  have refused : ∀ frame, buildFrame (hdrLen + reply.data.length + crcLen) typeCallReply
      entry.serveHash (nodeHash entry.src) 0 entry.txid (some reply.data)
      (.ofNat 16 reply.data.length) ≠ .ok frame := by
    intro frame ok
    unfold buildFrame frameEncode at ok
    repeat' split at ok
    all_goals cases ok
    next fits _ => exact fits beyond
  rw [workerBuild, if_pos rfl]
  split
  · next frame ok => exact absurd ok (refused frame)
  · rfl

/-- The frame answers the call: with exactly the bytes of the message, or with an error. -/
def Answers (entry : PendingReq) (data frame : List Byte) : Prop :=
  (frameDecode frame 65536).verdict = .ok ∧ (frameDecode frame 65536).hdr.txid = entry.txid ∧
    ((frameDecode frame 65536).hdr.type = typeCallReply ∧
        (frameDecode frame 65536).payload = some data ∨
      (frameDecode frame 65536).hdr.type = typeError)

/-- The caller gets the message or an error exactly when the message has at most 65502 bytes and
there is memory for the frame. -/
theorem workerBuild_carries (s : ExportSys) (entry : PendingReq) (reply : Reply) (mem : Bool)
    (nonempty : 0 < reply.data.length) (received : reply.data.length ≤ 65536) :
    (∃ sent, (s.workerBuild entry reply mem).sent = s.sent ++ [sent] ∧ sent.dst = entry.src ∧
        Answers entry reply.data sent.frame) ↔
      mem = true ∧ reply.data.length ≤ frameMaxPayload 65536 := by
  cases mem with
  | false => simp [workerBuild]
  | true =>
    by_cases fits : reply.data.length ≤ frameMaxPayload 65536
    · refine iff_of_true ?_ ⟨rfl, fits⟩
      have short : reply.data.length % 65536 = reply.data.length :=
        Nat.mod_eq_of_lt (fits.trans_lt (by decide))
      obtain ⟨frame, sent, ok, hdr, payload⟩ := workerBuild_sends (short.trans_le fits)
      rw [short, List.take_length] at payload
      exact ⟨_, sent, rfl, ok, hdr ▸ rfl, .inl ⟨hdr ▸ rfl, payload⟩⟩
    · refine iff_of_false ?_ fun holds => fits holds.2
      rintro ⟨other, sent, -, -, -, carries⟩
      by_cases whole : reply.data.length = 65536
      · -- The cast empties the reply.
        have empty : reply.data.length % 65536 = 0 := by rw [whole]
        obtain ⟨frame, emptied, -, hdr, payload⟩ :=
          @workerBuild_sends s entry reply (empty ▸ Nat.zero_le _)
        have same := List.append_cancel_left (sent.symm.trans emptied)
        cases same
        rcases carries with ⟨-, data⟩ | error
        · rw [payload, empty] at data
          rw [← Option.some.inj data] at nonempty
          exact absurd nonempty (Nat.lt_irrefl 0)
        · rw [hdr] at error
          exact absurd error (by decide : ¬typeCallReply = typeError)
      · have short : reply.data.length % 65536 = reply.data.length := Nat.mod_eq_of_lt (by omega)
        rw [workerBuild_overMtu (by omega)] at sent
        simp at sent

/-- So many zero bytes in answer to a call. -/
def zeros (n : Nat) : Reply := ⟨.replicate n 0, 0, ⟨callerA, sampleHeader typeCall callerA 1, []⟩⟩

theorem workerBuild_carries_longest :
    ∃ sent, (sampleExport.workerBuild ⟨callerA, 1, 0⟩ (zeros 65502) true).sent = [sent] ∧
      sent.dst = callerA ∧ Answers ⟨callerA, 1, 0⟩ (zeros 65502).data sent.frame := by
  have length : (zeros 65502).data.length = 65502 := List.length_replicate
  exact (workerBuild_carries sampleExport ⟨callerA, 1, 0⟩ (zeros 65502) true
    (by rw [length]; decide) (by rw [length]; decide)).mpr ⟨rfl, by rw [length]; decide⟩

/-- For 65536 bytes the reply is empty. -/
theorem reply_emptied :
    ∃ frame, (sampleExport.workerBuild ⟨callerA, 1, 0⟩ (zeros 65536) true).sent =
        [⟨callerA, frame, some (zeros 65536).answers⟩] ∧
      (frameDecode frame 65536).verdict = .ok ∧ (frameDecode frame 65536).payload = some [] := by
  have wraps : (zeros 65536).data.length % 65536 = 0 := by rw [zeros, List.length_replicate]
  obtain ⟨frame, sent, ok, -, payload⟩ := @workerBuild_sends sampleExport ⟨callerA, 1, 0⟩
    (zeros 65536) (wraps ▸ Nat.zero_le _)
  rw [wraps] at payload
  exact ⟨frame, sent, ok, payload⟩

end ExportSys

end A20OS.Cluster
