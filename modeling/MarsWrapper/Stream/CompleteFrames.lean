import MarsWrapper.Model.ImMessage

namespace MarsWrapper

open Foundation

/-- A complete frame has a whole header, the magic number and all the bytes that the header declares. -/
def IsFrame (msg : List UInt8) : Prop :=
  12 ≤ msg.length ∧ wordAt msg 0 = ImMessage.magicNum ∧ 12 + (wordAt msg 8).toNat ≤ msg.length

instance (msg : List UInt8) : Decidable (IsFrame msg) := inferInstanceAs (Decidable (_ ∧ _ ∧ _))

/-- The accessors give the fields of the received frame, and each of them reads only copied bytes. -/
def ReadsFrame (width : SizeT) (msg : List UInt8) (message : ImMessage) : Prop :=
  message.isValid = some true ∧ message.getMessageId = some (wordAt msg 4) ∧
    message.getData = some ((msg.drop 12).take (wordAt msg 8).toNat) ∧
    ∃ size, message.getMessageSize width = some size ∧ size.toNat = 12 + (wordAt msg 8).toNat ∧
      message.getMessage.bind (fun block => Block.load block 0 size.toNat) = some (msg.take size.toNat)

/-- The parser of a default object accepts the complete frames and makes their accessors safe. -/
def ParsesFrames (width : SizeT) (msg : List UInt8) : Prop :=
  ∃ valid message, ImMessage.empty.parse width msg msg.length = some (valid, message) ∧
    (valid = true ↔ IsFrame msg) ∧ (valid = true → ReadsFrame width msg message)

namespace ImMessage

variable (width : SizeT) {msg : List UInt8}

/-- The parser judges four received bytes and never the length. -/
theorem parse_whole (short : msg.length < 2 ^ 31) :
    empty.parse width msg msg.length =
      if 4 ≤ msg.length then some (wordAt msg 0 == magicNum, ⟨some msg⟩) else none := by
  have size : width.ofInt msg.length = msg.length := width.ofInt_natCast (by omega)
  rw [parse_empty, size, List.take_length]
  by_cases four : 4 ≤ msg.length
  · rw [if_pos ⟨Nat.le_refl _, four⟩, if_pos four]
  · rw [if_neg (fun both => four both.2), if_neg four]

/-- The accessors of a complete frame stay inside its bytes. -/
theorem readsFrame_of_isFrame (short : msg.length < 2 ^ 31) (complete : IsFrame msg) :
    ReadsFrame width msg ⟨some msg⟩ := by
  obtain ⟨header, magic, declared⟩ := complete
  have size : (UInt32.ofNat ((wordAt msg 8).toNat + 12)).toNat = 12 + (wordAt msg 8).toNat := by
    rw [UInt32.toNat_ofNat', Nat.mod_eq_of_lt (by omega), Nat.add_comm]
  have valid : isValid ⟨some msg⟩ = some true := by
    rw [isValid_of_header header, magic, beq_self_eq_true]
  have data : getData ⟨some msg⟩ = some ((msg.drop 12).take (wordAt msg 8).toNat) := by
    rw [getData_of_header header, if_pos declared]
  have inside : (getMessage ⟨some msg⟩).bind
      (fun block => Block.load block 0 (UInt32.ofNat ((wordAt msg 8).toNat + 12)).toNat) =
      some (msg.take (UInt32.ofNat ((wordAt msg 8).toNat + 12)).toNat) := by
    rw [getMessage, Option.bind_some, Block.load_eq_some (by rw [size]; omega), List.drop_zero]
  exact ⟨valid, getMessageId_of_header header, data, _, getMessageSize_of_header width header, size, inside⟩

end ImMessage

/-- The parser accepts exactly the complete frames unless it gets fewer than four bytes or a truncated frame with the
magic number. -/
theorem parseFrames (width : SizeT) (msg : List UInt8) (short : msg.length < 2 ^ 31) :
    ParsesFrames width msg ↔
      4 ≤ msg.length ∧
        (wordAt msg 0 = ImMessage.magicNum → 12 ≤ msg.length ∧ 12 + (wordAt msg 8).toNat ≤ msg.length) := by
  unfold ParsesFrames
  rw [ImMessage.parse_whole width short]
  by_cases four : 4 ≤ msg.length
  · rw [if_pos four, and_iff_right four]
    constructor
    · intro parses magic
      obtain ⟨valid, message, parsed, accepts, _⟩ := parses
      obtain ⟨rfl, rfl⟩ := Prod.mk.inj (Option.some.inj parsed)
      have complete : IsFrame msg := accepts.mp (by rw [magic, beq_self_eq_true])
      exact ⟨complete.1, complete.2.2⟩
    · intro whole
      refine ⟨_, _, rfl, ?_, ?_⟩
      · rw [beq_iff_eq]
        constructor
        · intro magic
          exact ⟨(whole magic).1, magic, (whole magic).2⟩
        · intro complete
          exact complete.2.1
      · intro valid
        have magic : wordAt msg 0 = ImMessage.magicNum := eq_of_beq valid
        exact ImMessage.readsFrame_of_isFrame width short ⟨(whole magic).1, magic, (whole magic).2⟩
  · rw [if_neg four]
    apply iff_of_false
    · intro parses
      obtain ⟨_, _, parsed, _⟩ := parses
      contradiction
    · intro condition
      exact four condition.1

/-- A frame with one byte and one more byte behind it is accepted with safe accessors. -/
theorem parseFrames_trailing :
    ParsesFrames .bits32 [0xaf, 0xbe, 0xad, 0xde, 16, 39, 0, 0, 1, 0, 0, 0, 104, 9] :=
  (parseFrames .bits32 _ (by decide)).mpr (by decide)

/-- A header without its one declared byte is accepted, and its data lie outside the copied bytes. -/
theorem parseFrames_truncated :
    (ImMessage.empty.parse .bits64 [0xaf, 0xbe, 0xad, 0xde, 16, 39, 0, 0, 1, 0, 0, 0] 12).map
        (fun parsed => (parsed.1, parsed.2.getData)) = some (true, none) ∧
      ¬ParsesFrames .bits64 [0xaf, 0xbe, 0xad, 0xde, 16, 39, 0, 0, 1, 0, 0, 0] := by
  have outside : (ImMessage.empty.parse .bits64 [0xaf, 0xbe, 0xad, 0xde, 16, 39, 0, 0, 1, 0, 0, 0] 12).map
      (fun parsed => (parsed.1, parsed.2.getData)) = some (true, none) := by decide
  refine ⟨outside, ?_⟩
  intro parses
  obtain ⟨valid, message, parsed, accepts, _⟩ := parses
  change ImMessage.empty.parse .bits64 [0xaf, 0xbe, 0xad, 0xde, 16, 39, 0, 0, 1, 0, 0, 0] 12 = _ at parsed
  rw [parsed] at outside
  obtain ⟨accepted, _⟩ := Prod.mk.inj (Option.some.inj outside)
  have incomplete : ¬IsFrame [0xaf, 0xbe, 0xad, 0xde, 16, 39, 0, 0, 1, 0, 0, 0] := by decide
  exact incomplete (accepts.mp accepted)

end MarsWrapper
