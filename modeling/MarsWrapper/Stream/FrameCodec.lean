import MarsWrapper.Model.ReceiveLoop
import MarsWrapper.Model.StnCallBack

namespace MarsWrapper

open Foundation AutoBufferApi

variable {Buffer : Type} [AutoBuffer Buffer]

/-- The message text goes through the constructor and the request writer. -/
def encodeMessage (Buffer : Type) [AutoBufferApi Buffer] (width : SizeT) (messageId : UInt32)
    (body : List UInt8) : Option Buffer := do
  let message ← ImMessage.ofData width messageId body (body.length : Int)
  buildEchatTcpMsg width message (empty : Buffer)

/-- The packer gives the packet that Mars sends. -/
def encodePacket (Buffer : Type) [AutoBufferApi Buffer] (width : SizeT) (cmdid messageId : UInt32)
    (body : List UInt8) : Option Buffer := do
  let outbuffer ← encodeMessage Buffer width messageId body
  return longlinkPack cmdid messageId outbuffer empty

/-- The accessors read back the fields of a frame. -/
theorem framed_fields (width : SizeT) (messageId : UInt32) (body : List UInt8) (short : 12 + body.length < 2 ^ 32) :
    (ImMessage.framed messageId body).isValid = some true ∧ (ImMessage.framed messageId body).getData = some body ∧
      (ImMessage.framed messageId body).getMessageId = some messageId ∧
      (ImMessage.framed messageId body).getMessageSize width = some (UInt32.ofNat (12 + body.length)) := by
  rw [ImMessage.framed]
  generalize framed : frameBytes messageId (UInt32.ofNat body.length) body = frame
  have long : frame.length = 12 + body.length := by rw [← framed, length_frameBytes]
  have closed : frame = frameBytes messageId (UInt32.ofNat body.length) body ++ [] := by
    rw [List.append_nil, framed]
  have declared : (wordAt frame 8).toNat = body.length := by
    rw [closed, wordAt_len, UInt32.toNat_ofNat', Nat.mod_eq_of_lt (by omega)]
  have data : frame.drop 12 = body := by rw [closed, drop_frameBytes, List.append_nil]
  refine ⟨?_, ?_, ?_, ?_⟩
  · rw [ImMessage.isValid_of_header (by omega), closed, wordAt_magicNum, beq_self_eq_true]
  · rw [ImMessage.getData_of_header (by omega), declared, if_pos (by omega), data, List.take_length]
  · rw [ImMessage.getMessageId_of_header (by omega), closed, wordAt_messageId]
  · rw [ImMessage.getMessageSize_of_header width (by omega), declared, Nat.add_comm]

/-- The writer copies every whole frame. -/
theorem buildEchatTcpMsg_frame (width : SizeT) (messageId : UInt32) (body : List UInt8)
    (short : 12 + body.length < 2 ^ 32) (outbuffer : Buffer) :
    buildEchatTcpMsg width (ImMessage.framed messageId body) outbuffer =
      some (write outbuffer (frameBytes messageId (UInt32.ofNat body.length) body)) := by
  obtain ⟨_, data, id, size⟩ := framed_fields width messageId body short
  have sized : (UInt32.ofNat (12 + body.length)).toNat =
      (frameBytes messageId (UInt32.ofNat body.length) body).length := by
    rw [UInt32.toNat_ofNat', Nat.mod_eq_of_lt (by omega), length_frameBytes]
  rw [buildEchatTcpMsg, id, data, size]
  simp only [ImMessage.framed, ImMessage.getMessage, Option.bind_eq_bind, Option.bind_some, sized, Block.load_all]
  rfl

theorem encodeMessage_frame (width : SizeT) (messageId : UInt32) (body : List UInt8) (short : body.length < 2 ^ 31) :
    encodeMessage Buffer width messageId body =
      some (write empty (frameBytes messageId (UInt32.ofNat body.length) body)) := by
  rw [encodeMessage, ImMessage.ofData_of_length width messageId body short, Option.bind_eq_bind, Option.bind_some,
    buildEchatTcpMsg_frame width messageId body (by omega)]

/-- A packet with a message id is the frame of its body. -/
theorem encodePacket_frame (width : SizeT) (cmdid messageId : UInt32) (body : List UInt8)
    (short : body.length < 2 ^ 31) (message : messageId ≠ Task.kNoopTaskID) :
    ∃ packet, encodePacket Buffer width cmdid messageId body = some packet ∧
      content packet = frameBytes messageId (UInt32.ofNat body.length) body := by
  refine ⟨longlinkPack cmdid messageId (write empty (frameBytes messageId (UInt32.ofNat body.length) body)) empty,
    ?_, ?_⟩
  · rw [encodePacket, encodeMessage_frame width messageId body short]
    rfl
  · rw [content_longlinkPack cmdid messageId _ message, AutoBuffer.content_write_empty]

/-- A whole frame unpacks exactly below the size limit, and its fields survive the parser. -/
theorem longlinkUnpack_packet (width : SizeT) (messageId : UInt32) (body : List UInt8) (short : body.length < 2 ^ 31)
    (packet : Buffer) (framed : content packet = frameBytes messageId (UInt32.ofNat body.length) body)
    (out : Unpacked Buffer) :
    (12 + body.length ≤ 2 ^ 20 →
      longlinkUnpack width packet out =
        (.ok, ⟨0, messageId, 12 + body.length, writeCur out.body (content packet)⟩)) ∧
    (2 ^ 20 < 12 + body.length → (longlinkUnpack width packet out).1 = .false_) := by
  have long : length packet = 12 + body.length := by
    rw [← AutoBuffer.length_content, framed, length_frameBytes]
  have declared : declaredLen packet = body.length := by
    rw [declaredLen_of_header packet (by omega), framed, ← List.append_nil (frameBytes ..), wordAt_len,
      UInt32.toNat_ofNat', Nat.mod_eq_of_lt (by omega)]
  have sized : width.wrap (declaredLen packet + 12) = 12 + body.length := by
    rw [declared, width.wrap_of_lt (by omega), Nat.add_comm]
  constructor
  · intro fits
    rw [longlinkUnpack_ok width packet out (by omega) (by omega) (by omega), sized,
      AutoBuffer.ptrWord_eq_wordAt packet 4 (by omega), framed, ← List.append_nil (frameBytes ..), wordAt_messageId]
  · intro large
    exact longlinkUnpack_false width packet out (by omega) (by omega)

/-- The parser accepts a frame and keeps it. -/
theorem parse_frame (width : SizeT) (messageId : UInt32) (body : List UInt8) (short : 12 + body.length < 2 ^ 31) :
    let frame := frameBytes messageId (UInt32.ofNat body.length) body
    ImMessage.empty.parse width frame (toInt frame.length) = some (true, ImMessage.framed messageId body) := by
  intro frame
  have long : frame.length = 12 + body.length := length_frameBytes ..
  have magic : wordAt frame 0 = ImMessage.magicNum := by
    rw [← List.append_nil frame, wordAt_magicNum]
  rw [ImMessage.parse_of_length width frame (by omega) (by omega), magic, beq_self_eq_true]
  rfl

/-- Encoding and decoding are inverse on all messages and on all frames within the size limit. -/
theorem frameCodec (width : SizeT) (cmdid : UInt32) :
    (∀ (messageId : UInt32) (body : List UInt8), body.length < 2 ^ 31 → messageId ≠ Task.kNoopTaskID →
      ∃ packet : Buffer, encodePacket Buffer width cmdid messageId body = some packet ∧
        length packet = 12 + body.length ∧
        ∀ out : Unpacked Buffer, out.body = empty →
          let (ret, unpacked) := longlinkUnpack width packet out
          (ret = .ok ↔ 12 + body.length ≤ 2 ^ 20) ∧ (ret = .false_ ↔ ¬12 + body.length ≤ 2 ^ 20) ∧
          (ret = .ok → unpacked.seq = messageId ∧ unpacked.packageLen = 12 + body.length ∧
            content unpacked.body = content packet ∧
            ∃ message, ImMessage.empty.parse width (content unpacked.body) (toInt (length unpacked.body)) =
                some (true, message) ∧
              message.getData = some body ∧ message.getMessageId = some messageId ∧
              message.getMessageSize width = some (UInt32.ofNat (12 + body.length)))) ∧
    (∀ frame : List UInt8, 12 ≤ frame.length → frame.length ≤ 2 ^ 20 → wordAt frame 0 = ImMessage.magicNum →
      (wordAt frame 8).toNat = frame.length - 12 →
      ∃ message messageId body,
        ImMessage.empty.parse width frame (toInt frame.length) = some (true, message) ∧
        message.getMessageId = some messageId ∧ message.getData = some body ∧
        (encodeMessage Buffer width messageId body).map content = some frame ∧
        (messageId ≠ Task.kNoopTaskID →
          (encodePacket Buffer width cmdid messageId body).map content = some frame)) := by
  constructor
  · intro messageId body short message
    obtain ⟨packet, encoded, framed⟩ := @encodePacket_frame Buffer _ width cmdid messageId body short message
    refine ⟨packet, encoded, by rw [← AutoBuffer.length_content, framed, length_frameBytes], ?_⟩
    intro out bare
    obtain ⟨accepted, rejected⟩ := longlinkUnpack_packet width messageId body short packet framed out
    by_cases fits : 12 + body.length ≤ 2 ^ 20
    · have copied : content (writeCur out.body (content packet)) =
          frameBytes messageId (UInt32.ofNat body.length) body := by
        rw [bare, AutoBuffer.content_writeCur_empty, framed]
      have parsed := parse_frame width messageId body (by omega)
      obtain ⟨_, data, id, size⟩ := framed_fields width messageId body (by omega)
      rw [accepted fits]
      refine ⟨iff_of_true rfl fits, iff_of_false nofun (not_not_intro fits),
        fun _ => ⟨rfl, rfl, ?_, ⟨_, ?_, data, id, size⟩⟩⟩
      · rw [copied, framed]
      · rw [← AutoBuffer.length_content, copied, parsed]
    · have code := rejected (by omega)
      generalize longlinkUnpack width packet out = result at code
      obtain ⟨ret, unpacked⟩ := result
      obtain rfl : ret = .false_ := code
      exact ⟨iff_of_false nofun fits, iff_of_true rfl fits, nofun⟩
  · intro frame header fits magic declared
    have rebuilt := eq_frameBytes frame header magic
    have bodySize : (frame.drop 12).length = frame.length - 12 := List.length_drop
    have len : wordAt frame 8 = UInt32.ofNat (frame.drop 12).length := by
      rw [bodySize, ← declared, UInt32.ofNat_toNat]
    rw [len] at rebuilt
    have parsed := parse_frame width (wordAt frame 4) (frame.drop 12) (by omega)
    obtain ⟨_, data, id, _⟩ := framed_fields width (wordAt frame 4) (frame.drop 12) (by omega)
    simp only [← rebuilt] at parsed
    refine ⟨ImMessage.framed (wordAt frame 4) (frame.drop 12), wordAt frame 4, frame.drop 12, parsed, id, data, ?_, ?_⟩
    · rw [encodeMessage_frame width _ _ (by omega), Option.map_some, AutoBuffer.content_write_empty, ← rebuilt]
    · intro message
      obtain ⟨packet, encoded, framed⟩ :=
        @encodePacket_frame Buffer _ width cmdid (wordAt frame 4) (frame.drop 12) (by omega) message
      rw [encoded, Option.map_some, framed, ← rebuilt]

/-- One message and one frame pass through both directions of the codec. -/
theorem frameCodec_hello :
    (∃ packet : ByteBuffer, encodePacket ByteBuffer .bits32 55 10000 [104, 105] = some packet ∧
      (longlinkUnpack .bits32 packet Unpacked.fresh).1 = .ok) ∧
    (∃ messageId body, (encodeMessage ByteBuffer .bits64 messageId body).map content =
      some [0xaf, 0xbe, 0xad, 0xde, 1, 0, 0, 0, 1, 0, 0, 0, 7]) := by
  constructor
  · obtain ⟨packet, encoded, _, unpacks⟩ :=
      (@frameCodec ByteBuffer _ .bits32 55).1 10000 [104, 105] (by decide) (by decide)
    exact ⟨packet, encoded, (unpacks Unpacked.fresh rfl).1.mpr (by decide)⟩
  · obtain ⟨_, messageId, body, _, _, _, encoded, _⟩ :=
      (@frameCodec ByteBuffer _ .bits64 55).2 [0xaf, 0xbe, 0xad, 0xde, 1, 0, 0, 0, 1, 0, 0, 0, 7]
        (by decide) (by decide) (by decide) (by decide)
    exact ⟨messageId, body, encoded⟩

end MarsWrapper
