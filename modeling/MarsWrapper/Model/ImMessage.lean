import MarsWrapper.Foundation.Block
import MarsWrapper.Foundation.LittleEndian
import MarsWrapper.Model.SizeT

namespace MarsWrapper

open Foundation Foundation.LittleEndian

namespace MessageFormat

/-- The packed header has three 32-bit fields before the body. -/
def size : Nat := 12

def magicNumOffset : Nat := 0
def messageIdOffset : Nat := 4
def lenOffset : Nat := 8
def dataOffset : Nat := 12

end MessageFormat

/-- A field read takes four bytes of the block. -/
def loadField (block : List UInt8) (offset : Nat) : Option UInt32 :=
  (Block.load block offset 4).map decode32

def storeField (block : List UInt8) (offset : Nat) (value : UInt32) : Option (List UInt8) :=
  Block.store block offset (encode32 value)

/-- The heap is assumed large enough. No byte of a block is read before it is written. -/
def malloc (size : Nat) : List UInt8 := List.replicate size 0

/-- A copy reads only bytes that the source has. -/
def memcpy (block : List UInt8) (offset : Nat) (source : List UInt8) (size : Nat) : Option (List UInt8) := do
  Block.store block offset (← Block.load source 0 size)

/-- The object owns one block, and a default object owns none. -/
structure ImMessage where
  mMessage : Option (List UInt8)
  deriving DecidableEq

namespace ImMessage

def magicNum : UInt32 := 0xdeadbeaf

/-- The encoding constructor takes the new message id from the counter. -/
def ofData (width : SizeT) (newMessageId : UInt32) (data : List UInt8) (size : Int) : Option ImMessage := do
  let msgSize := UInt32.ofNat (width.wrap (MessageFormat.size + width.ofInt size))
  let block := malloc msgSize.toNat
  let block ← storeField block MessageFormat.lenOffset (UInt32.ofInt size)
  let block ← storeField block MessageFormat.magicNumOffset magicNum
  let block ← storeField block MessageFormat.messageIdOffset newMessageId
  let block ← memcpy block MessageFormat.dataOffset data (width.ofInt size)
  return ⟨some block⟩

/-- The default constructor leaves the block pointer null. -/
def empty : ImMessage := ⟨none⟩

def len (message : ImMessage) : Option UInt32 := do
  loadField (← message.mMessage) MessageFormat.lenOffset

def getData (message : ImMessage) : Option (List UInt8) := do
  Block.load (← message.mMessage) MessageFormat.dataOffset (← message.len).toNat

/-- The pointer gives the whole block. -/
def getMessage (message : ImMessage) : Option (List UInt8) := message.mMessage

def getMessageSize (width : SizeT) (message : ImMessage) : Option UInt32 := do
  return UInt32.ofNat (width.wrap ((← message.len).toNat + MessageFormat.size))

def isValid (message : ImMessage) : Option Bool := do
  return (← loadField (← message.mMessage) MessageFormat.magicNumOffset) == magicNum

def getMessageId (message : ImMessage) : Option UInt32 := do
  loadField (← message.mMessage) MessageFormat.messageIdOffset

/-- The parser copies the input and answers whether its magic number is right. -/
def parse (width : SizeT) (message : ImMessage) (msg : List UInt8) (size : Int) : Option (Bool × ImMessage) :=
  match message.mMessage with
  | some _ => some (false, message)
  | none => do
    let block ← memcpy (malloc (width.ofInt size)) 0 msg (width.ofInt size)
    let received ← loadField block MessageFormat.magicNumOffset
    return (received == magicNum, ⟨some block⟩)

end ImMessage

/-- This is the little-endian word at an offset of a byte string. -/
def wordAt (bytes : List UInt8) (offset : Nat) : UInt32 := decode32 ((bytes.drop offset).take 4)

/-- The word of a prefix is the word of the whole. -/
theorem wordAt_take (bytes : List UInt8) (offset count : Nat) (inside : offset + 4 ≤ count) :
    wordAt (bytes.take count) offset = wordAt bytes offset := by
  rw [wordAt, wordAt, List.drop_take, List.take_take, Nat.min_eq_left (by omega)]

/-- A frame is the header with its three fields and the body. -/
def frameBytes (messageId len : UInt32) (body : List UInt8) : List UInt8 :=
  encode32 ImMessage.magicNum ++ encode32 messageId ++ encode32 len ++ body

section FrameFields

variable (messageId len : UInt32) (body later : List UInt8)

@[simp] theorem length_frameBytes : (frameBytes messageId len body).length = 12 + body.length := by
  simp only [frameBytes, List.length_append, length_encode32]

/-- The word between two segments is the word that its four bytes encode. -/
theorem wordAt_middle (before after : List UInt8) (value : UInt32) :
    wordAt (before ++ encode32 value ++ after) before.length = value := by
  rw [wordAt, List.append_assoc, List.drop_left,
    show 4 = (encode32 value).length from (length_encode32 value).symm, List.take_left, decode32_encode32]

theorem wordAt_magicNum : wordAt (frameBytes messageId len body ++ later) 0 = ImMessage.magicNum := by
  simpa only [frameBytes, List.append_assoc, List.nil_append, List.length_nil] using
    wordAt_middle [] (encode32 messageId ++ (encode32 len ++ (body ++ later))) ImMessage.magicNum

theorem wordAt_messageId : wordAt (frameBytes messageId len body ++ later) 4 = messageId := by
  simpa only [frameBytes, List.append_assoc, length_encode32] using
    wordAt_middle (encode32 ImMessage.magicNum) (encode32 len ++ (body ++ later)) messageId

theorem wordAt_len : wordAt (frameBytes messageId len body ++ later) 8 = len := by
  simpa only [frameBytes, List.append_assoc, List.length_append, length_encode32] using
    wordAt_middle (encode32 ImMessage.magicNum ++ encode32 messageId) (body ++ later) len

theorem drop_frameBytes : (frameBytes messageId len body ++ later).drop 12 = body ++ later := by
  rw [frameBytes, List.append_assoc, List.drop_append_of_le_length (by simp),
    List.drop_eq_nil_of_le (by simp), List.nil_append]

end FrameFields

/-- A byte string with a right header is the frame of its own fields. -/
theorem eq_frameBytes (bytes : List UInt8) (header : 12 ≤ bytes.length)
    (magic : wordAt bytes 0 = ImMessage.magicNum) :
    bytes = frameBytes (wordAt bytes 4) (wordAt bytes 8) (bytes.drop 12) := by
  have field (offset : Nat) (inside : offset + 4 ≤ bytes.length) :
      encode32 (wordAt bytes offset) = (bytes.drop offset).take 4 :=
    encode32_decode32 _ (by rw [List.length_take, List.length_drop]; omega)
  rw [frameBytes, ← magic, field 0 (by omega), field 4 (by omega), field 8 (by omega), List.append_assoc]
  have join (offset : Nat) : (bytes.drop offset).take 4 ++ bytes.drop (offset + 4) = bytes.drop offset := by
    rw [← List.drop_drop, List.take_append_drop]
  rw [join 8, List.append_assoc, join 4, join 0, List.drop_zero]

theorem loadField_eq_some {block : List UInt8} {offset : Nat} (inside : offset + 4 ≤ block.length) :
    loadField block offset = some (wordAt block offset) := by
  rw [loadField, Block.load_eq_some inside, Option.map_some, wordAt]

theorem loadField_eq_none {block : List UInt8} {offset : Nat} (outside : block.length < offset + 4) :
    loadField block offset = none := by
  rw [loadField, Block.load_eq_none outside, Option.map_none]

/-- The field write replaces four bytes between two segments. -/
theorem storeField_middle (before old after : List UInt8) (value : UInt32) (four : old.length = 4) :
    storeField (before ++ old ++ after) before.length value = some (before ++ encode32 value ++ after) :=
  Block.store_middle before old after _ (by rw [length_encode32, four])

theorem memcpy_eq_none {block source : List UInt8} {offset size : Nat}
    (outside : source.length < size ∨ block.length < offset + size) : memcpy block offset source size = none := by
  unfold memcpy
  cases loaded : Block.load source 0 size with
  | none => rfl
  | some values =>
      have inside : 0 + size ≤ source.length := Block.load_isSome.mp (by rw [loaded]; rfl)
      have sized := Block.length_of_load loaded
      exact Block.store_eq_none (by omega)

namespace ImMessage

variable (width : SizeT)

/-- The three field writes turn a fresh block into a frame around its unwritten body. -/
theorem header_written (messageId len : UInt32) (count : Nat) :
    (do
      let block ← storeField (malloc (12 + count)) MessageFormat.lenOffset len
      let block ← storeField block MessageFormat.magicNumOffset magicNum
      storeField block MessageFormat.messageIdOffset messageId) =
      some (frameBytes messageId len (List.replicate count 0)) := by
  have fresh : malloc (12 + count) =
      List.replicate 4 0 ++ List.replicate 4 0 ++ List.replicate 4 0 ++ List.replicate count 0 := by
    simp only [malloc, List.replicate_append_replicate]
  have lenWritten := storeField_middle (List.replicate 4 0 ++ List.replicate 4 0) (List.replicate 4 0)
    (List.replicate count 0) len (by simp)
  have magicWritten := storeField_middle [] (List.replicate 4 0)
    (List.replicate 4 0 ++ encode32 len ++ List.replicate count 0) magicNum (by simp)
  have idWritten := storeField_middle (encode32 magicNum) (List.replicate 4 0)
    (encode32 len ++ List.replicate count 0) messageId (by simp)
  simp only [List.length_append, List.length_replicate, List.length_nil, List.nil_append, length_encode32,
    List.append_assoc] at lenWritten magicWritten idWritten
  simp only [fresh, frameBytes, List.append_assoc]
  rw [show MessageFormat.lenOffset = 4 + 4 from rfl, lenWritten, Option.bind_eq_bind, Option.bind_some,
    show MessageFormat.magicNumOffset = 0 from rfl, magicWritten, Option.bind_some]
  exact idWritten

/-- This message holds the frame of a body. -/
def framed (messageId : UInt32) (body : List UInt8) : ImMessage :=
  ⟨some (frameBytes messageId (UInt32.ofNat body.length) body)⟩

/-- The constructor writes the frame exactly when its size sum does not wrap and the caller gave the bytes. -/
theorem ofData_eq (newMessageId : UInt32) (data : List UInt8) (size : Int) :
    ofData width newMessageId data size =
      if 12 + width.ofInt size < 2 ^ 32 ∧ width.ofInt size ≤ data.length then
        some (framed newMessageId (data.take (width.ofInt size)))
      else none := by
  have msgSize : (UInt32.ofNat (width.wrap (MessageFormat.size + width.ofInt size))).toNat =
      (12 + width.ofInt size) % 2 ^ 32 := by
    rw [UInt32.toNat_ofNat', width.wrap_mod]
    rfl
  rw [ofData]
  simp only [msgSize]
  by_cases admitted : 12 + width.ofInt size < 2 ^ 32 ∧ width.ofInt size ≤ data.length
  · rw [if_pos admitted, Nat.mod_eq_of_lt admitted.1]
    have header := header_written newMessageId (UInt32.ofInt size) (width.ofInt size)
    obtain ⟨first, lenWritten, rest⟩ := Option.bind_eq_some_iff.mp header
    obtain ⟨second, magicWritten, idWritten⟩ := Option.bind_eq_some_iff.mp rest
    have taken : (data.take (width.ofInt size)).length = width.ofInt size := by
      rw [List.length_take]
      omega
    have copied : memcpy (frameBytes newMessageId (UInt32.ofInt size) (List.replicate (width.ofInt size) 0))
        MessageFormat.dataOffset data (width.ofInt size) =
        some (frameBytes newMessageId (UInt32.ofInt size) (data.take (width.ofInt size))) := by
      have body := Block.store_middle (encode32 magicNum ++ encode32 newMessageId ++ encode32 (UInt32.ofInt size))
        (List.replicate (width.ofInt size) 0) [] (data.take (width.ofInt size)) (by simp [taken])
      simp only [List.append_nil, List.length_append, length_encode32] at body
      rw [memcpy, Block.load_eq_some (by omega), List.drop_zero]
      exact body
    rw [lenWritten, Option.bind_eq_bind, Option.bind_some, magicWritten]
    simp only [Option.bind_some]
    rw [idWritten, Option.bind_some, copied, framed, taken, ← width.ofInt_eq_ofNat]
    rfl
  · rw [if_neg admitted]
    cases lenWritten : storeField (malloc ((12 + width.ofInt size) % 2 ^ 32)) MessageFormat.lenOffset
        (UInt32.ofInt size) with
    | none => rfl
    | some first =>
        cases magicWritten : storeField first MessageFormat.magicNumOffset magicNum with
        | none => simp [magicWritten]
        | some second =>
            cases idWritten : storeField second MessageFormat.messageIdOffset newMessageId with
            | none => simp [magicWritten, idWritten]
            | some block =>
                have sized : block.length = (12 + width.ofInt size) % 2 ^ 32 := by
                  rw [Block.length_of_store idWritten, Block.length_of_store magicWritten,
                    Block.length_of_store lenWritten, malloc, List.length_replicate]
                have failed : memcpy block MessageFormat.dataOffset data (width.ofInt size) = none :=
                  memcpy_eq_none (by
                    rw [sized]
                    change _ ∨ _ < 12 + _
                    omega)
                simp [magicWritten, idWritten, failed]

/-- An in-range body gives its own frame. -/
theorem ofData_of_length (newMessageId : UInt32) (data : List UInt8) (short : data.length < 2 ^ 31) :
    ofData width newMessageId data (data.length : Int) = some (framed newMessageId data) := by
  rw [ofData_eq, width.ofInt_natCast (by omega), if_pos ⟨by omega, Nat.le_refl _⟩, List.take_length]

variable {block : List UInt8}

/-- The accessors of a block with a whole header read its three words. -/
theorem len_of_header (header : 12 ≤ block.length) : len ⟨some block⟩ = some (wordAt block 8) :=
  loadField_eq_some (show 8 + 4 ≤ block.length by omega)

theorem getMessageId_of_header (header : 12 ≤ block.length) : getMessageId ⟨some block⟩ = some (wordAt block 4) :=
  loadField_eq_some (show 4 + 4 ≤ block.length by omega)

theorem isValid_of_header (header : 12 ≤ block.length) :
    isValid ⟨some block⟩ = some (wordAt block 0 == magicNum) := by
  change (loadField block 0).bind _ = _
  rw [loadField_eq_some (by omega), Option.bind_some]
  rfl

theorem getMessageSize_of_header (header : 12 ≤ block.length) :
    getMessageSize width ⟨some block⟩ = some (UInt32.ofNat ((wordAt block 8).toNat + 12)) := by
  change (len ⟨some block⟩).bind _ = _
  rw [len_of_header header, Option.bind_some]
  change some (UInt32.ofNat (width.wrap ((wordAt block 8).toNat + 12))) = _
  congr 1
  apply UInt32.toNat_inj.mp
  rw [UInt32.toNat_ofNat', UInt32.toNat_ofNat', width.wrap_mod]

/-- The data are the declared bytes behind the header, when the block holds them. -/
theorem getData_of_header (header : 12 ≤ block.length) :
    getData ⟨some block⟩ =
      if 12 + (wordAt block 8).toNat ≤ block.length then some ((block.drop 12).take (wordAt block 8).toNat)
      else none := by
  change (len ⟨some block⟩).bind _ = _
  rw [len_of_header header, Option.bind_some]
  rfl

/-- A block below twelve bytes has no length field to read. -/
theorem getData_of_short (short : block.length < 12) : getData ⟨some block⟩ = none := by
  have absent : len ⟨some block⟩ = none := loadField_eq_none (show block.length < 8 + 4 by omega)
  change (len ⟨some block⟩).bind _ = _
  rw [absent, Option.bind_none]

/-- The parser keeps the copied bytes and judges only their magic number. -/
theorem parse_empty (msg : List UInt8) (size : Int) :
    parse width empty msg size =
      if width.ofInt size ≤ msg.length ∧ 4 ≤ width.ofInt size then
        some (wordAt (msg.take (width.ofInt size)) 0 == magicNum, ⟨some (msg.take (width.ofInt size))⟩)
      else none := by
  rw [parse, empty]
  by_cases inside : width.ofInt size ≤ msg.length
  · have taken : (msg.take (width.ofInt size)).length = width.ofInt size := by
      rw [List.length_take]
      omega
    have copied : memcpy (malloc (width.ofInt size)) 0 msg (width.ofInt size) =
        some (msg.take (width.ofInt size)) := by
      have whole := Block.store_middle [] (malloc (width.ofInt size)) [] (msg.take (width.ofInt size))
        (by simp [taken, malloc])
      simp only [List.append_nil, List.nil_append, List.length_nil] at whole
      rw [memcpy, Block.load_eq_some (by omega), List.drop_zero]
      exact whole
    rw [copied, Option.bind_eq_bind, Option.bind_some]
    by_cases four : 4 ≤ width.ofInt size
    · rw [if_pos ⟨inside, four⟩, loadField_eq_some (by rw [taken]; exact four)]
      rfl
    · rw [if_neg (by omega), loadField_eq_none (by rw [taken]; change _ < 0 + 4; omega)]
      rfl
  · rw [if_neg (by omega), memcpy_eq_none (by omega)]
    rfl

/-- A received buffer of at least one header is copied whole. -/
theorem parse_of_length (msg : List UInt8) (header : 12 ≤ msg.length) (short : msg.length < 2 ^ 31) :
    parse width empty msg (toInt msg.length) = some (wordAt msg 0 == magicNum, ⟨some msg⟩) := by
  have exact_ : width.ofInt (toInt msg.length) = msg.length := by
    rw [toInt_of_lt short, width.ofInt_natCast (by omega)]
  rw [parse_empty, exact_, if_pos ⟨Nat.le_refl _, by omega⟩, List.take_length]

end ImMessage

end MarsWrapper
