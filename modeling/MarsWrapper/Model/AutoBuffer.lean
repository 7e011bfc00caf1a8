import MarsWrapper.Foundation.StreamLoop

namespace MarsWrapper

/-- This class lists the operations of Mars's `AutoBuffer` that the wrapper and the receive loop use.
`ptr` is the memory behind `Ptr()`, also past `Length()`. -/
class AutoBufferApi (Buffer : Type) where
  empty : Buffer
  ptr : Buffer → Nat → UInt8
  length : Buffer → Nat
  pos : Buffer → Nat
  allocWrite : Buffer → Nat → Buffer
  write : Buffer → List UInt8 → Buffer
  writeCur : Buffer → List UInt8 → Buffer
  seekStart : Buffer → Buffer
  receive : Buffer → List UInt8 → Buffer
  move : Buffer → Nat → Buffer

/-- The content is the first `Length()` bytes behind `Ptr()`. -/
def content {Buffer : Type} [AutoBufferApi Buffer] (buffer : Buffer) : List UInt8 :=
  (List.range (AutoBufferApi.length buffer)).map (AutoBufferApi.ptr buffer)

/-- A write at a position replaces the bytes there and grows the array where needed. -/
def splice (old : List UInt8) (position : Nat) (values : List UInt8) : List UInt8 :=
  old.take position ++ values ++ old.drop (position + values.length)

/-- Two writes in a row store their bytes in a row. -/
theorem splice_splice (old first second : List UInt8) {position : Nat} (inside : position ≤ old.length) :
    splice (splice old position first) (position + first.length) second = splice old position (first ++ second) := by
  have front : (old.take position).length = position := by
    rw [List.length_take]
    omega
  have written : (old.take position ++ first).length = position + first.length := by
    rw [List.length_append, front]
  have rest : (old.drop (position + first.length)).drop second.length =
      old.drop (position + (first ++ second).length) := by
    rw [List.drop_drop, List.length_append, Nat.add_assoc]
  unfold splice
  rw [List.take_append_of_le_length (by omega), List.take_of_length_le (by omega), List.drop_append,
    List.drop_eq_nil_of_le (by omega), written, Nat.add_sub_cancel_left, List.nil_append, rest]
  rw [List.append_assoc (old.take position) first second]

/-- An `AutoBuffer` is a growable byte array whose writes store at its position. -/
class AutoBuffer (Buffer : Type) extends AutoBufferApi Buffer where
  content_empty : content empty = []
  pos_empty : pos empty = 0
  length_allocWrite : ∀ buffer count, length (allocWrite buffer count) = max (length buffer) (pos buffer + count)
  content_allocWrite : ∀ buffer count, (content (allocWrite buffer count)).take (length buffer) = content buffer
  pos_allocWrite : ∀ buffer count, pos (allocWrite buffer count) = pos buffer
  content_write : ∀ buffer values, pos buffer ≤ length buffer →
    content (write buffer values) = splice (content buffer) (pos buffer) values
  content_writeCur : ∀ buffer values, pos buffer ≤ length buffer →
    content (writeCur buffer values) = splice (content buffer) (pos buffer) values
  content_seekStart : ∀ buffer, content (seekStart buffer) = content buffer
  content_receive : ∀ buffer read, content (receive buffer read) = content buffer ++ read
  content_move : ∀ buffer count, content (move buffer count) = (content buffer).drop count

namespace AutoBuffer

open AutoBufferApi

variable {Buffer : Type} [AutoBuffer Buffer]

@[simp] theorem length_content (buffer : Buffer) : (content buffer).length = length buffer := by
  simp [content]

theorem length_empty : length (empty : Buffer) = 0 := by
  rw [← length_content, content_empty, List.length_nil]

theorem content_eq_nil_iff (buffer : Buffer) : content buffer = [] ↔ length buffer = 0 := by
  rw [← length_content, List.length_eq_zero_iff]

/-- The memory behind the pointer agrees with the content below the length. -/
theorem getElem_content (buffer : Buffer) (index : Nat) (inside : index < (content buffer).length) :
    (content buffer)[index] = ptr buffer index := by
  simp [content]

/-- A write to a fresh buffer stores exactly the written bytes. -/
theorem content_write_empty (values : List UInt8) : content (write (empty : Buffer) values) = values := by
  rw [content_write _ _ (by rw [pos_empty]; omega), content_empty, pos_empty]
  simp [splice]

theorem content_writeCur_empty (values : List UInt8) : content (writeCur (empty : Buffer) values) = values := by
  rw [content_writeCur _ _ (by rw [pos_empty]; omega), content_empty, pos_empty]
  simp [splice]

/-- A reserved write to a fresh buffer stores exactly the written bytes. -/
theorem content_allocWrite_write (values : List UInt8) :
    content (write (allocWrite (empty : Buffer) values.length) values) = values := by
  have position : pos (allocWrite (empty : Buffer) values.length) = 0 := by rw [pos_allocWrite, pos_empty]
  have reserved : length (allocWrite (empty : Buffer) values.length) = values.length := by
    rw [length_allocWrite, length_empty, pos_empty]
    omega
  rw [content_write _ _ (by omega), position, splice, List.take_zero, List.nil_append, Nat.zero_add,
    List.drop_eq_nil_of_le (by rw [length_content, reserved]), List.append_nil]

/-- An `AutoBuffer` is the receive buffer of the stream loop. -/
instance streamBuffer : Foundation.StreamBuffer Buffer where
  bytes := content
  receive := receive
  discard := move
  bytes_receive := content_receive
  bytes_discard := content_move

@[simp] theorem bytes_eq_content (buffer : Buffer) : Foundation.StreamBuffer.bytes buffer = content buffer := rfl

@[simp] theorem streamReceive_eq (buffer : Buffer) (read : List UInt8) :
    Foundation.StreamBuffer.receive buffer read = receive buffer read := rfl

end AutoBuffer

/-- A reused `AutoBuffer` has any bytes of its earlier uses behind its content, and its position can be anywhere inside. -/
class ReusedBuffer (Buffer : Type) extends AutoBuffer Buffer where
  exists_stale : ∀ bytes stale : List UInt8, ∃ packed : Buffer, content packed = bytes ∧
    ∀ index (inside : index < (bytes ++ stale).length), ptr packed index = (bytes ++ stale)[index]
  exists_seated : ∀ (bytes : List UInt8) (position : Nat), position ≤ bytes.length →
    ∃ buffer : Buffer, content buffer = bytes ∧ pos buffer = position

theorem ReusedBuffer.exists_content {Buffer : Type} [ReusedBuffer Buffer] (bytes : List UInt8) :
    ∃ packed : Buffer, content packed = bytes := by
  obtain ⟨packed, holds, _⟩ : ∃ packed : Buffer, content packed = bytes ∧ _ := exists_stale bytes []
  exact ⟨packed, holds⟩

/-- This buffer keeps old bytes behind its content, as a C array does. -/
structure ByteBuffer where
  memory : List UInt8
  length : Nat
  position : Nat
  within : length ≤ memory.length

namespace ByteBuffer

def ofBytes (bytes : List UInt8) : ByteBuffer := ⟨bytes, bytes.length, 0, Nat.le_refl _⟩

/-- The array grows to the wanted capacity with zero bytes. -/
def reserve (memory : List UInt8) (capacity : Nat) : List UInt8 :=
  memory ++ List.replicate (capacity - memory.length) 0

def writeAt (buffer : ByteBuffer) (values : List UInt8) : ByteBuffer where
  memory := splice (reserve buffer.memory (buffer.position + values.length)) buffer.position values
  length := max buffer.length (buffer.position + values.length)
  position := buffer.position
  within := by
    have := buffer.within
    simp only [splice, reserve, List.length_append, List.length_take, List.length_drop, List.length_replicate]
    omega

instance : AutoBufferApi ByteBuffer where
  empty := ofBytes []
  ptr buffer index := (buffer.memory[index]?).getD 0
  length := length
  pos := position
  allocWrite buffer count :=
    { memory := reserve buffer.memory (max buffer.length (buffer.position + count))
      length := max buffer.length (buffer.position + count)
      position := buffer.position
      within := by simp only [reserve, List.length_append, List.length_replicate]; omega }
  write buffer values := {buffer.writeAt values with position := buffer.position + values.length}
  writeCur := writeAt
  seekStart buffer := {buffer with position := 0}
  receive buffer read :=
    { memory := splice buffer.memory buffer.length read
      length := buffer.length + read.length
      position := buffer.position
      within := by
        have := buffer.within
        simp only [splice, List.length_append, List.length_take, List.length_drop]
        omega }
  move buffer count :=
    { memory := splice buffer.memory 0 ((buffer.memory.take buffer.length).drop count)
      length := ((buffer.memory.take buffer.length).drop count).length
      position := buffer.position
      within := by simp [splice] }

@[simp] theorem length_eq (buffer : ByteBuffer) : AutoBufferApi.length buffer = buffer.length := rfl

theorem content_eq (buffer : ByteBuffer) : content buffer = buffer.memory.take buffer.length := by
  have within := buffer.within
  apply List.ext_getElem
  · simp only [content, List.length_map, List.length_range, List.length_take]
    exact (Nat.min_eq_left within).symm
  · intro index below _
    have inside : index < buffer.length := by simpa [content] using below
    have stored : index < buffer.memory.length := by omega
    simp [content, AutoBufferApi.ptr, List.getElem?_eq_getElem stored]

theorem take_reserve (memory : List UInt8) (capacity count : Nat) (inside : count ≤ memory.length) :
    (reserve memory capacity).take count = memory.take count := by
  rw [reserve, List.take_append_of_le_length inside]

/-- The content after a write is the splice of the content before it. -/
theorem take_writeAt (buffer : ByteBuffer) (values : List UInt8) (seated : buffer.position ≤ buffer.length) :
    (buffer.writeAt values).memory.take (buffer.writeAt values).length =
      splice (buffer.memory.take buffer.length) buffer.position values := by
  have within := buffer.within
  have front : (reserve buffer.memory (buffer.position + values.length)).take buffer.position =
      (buffer.memory.take buffer.length).take buffer.position := by
    rw [take_reserve _ _ _ (by omega), List.take_take, Nat.min_eq_left seated]
  have written : (buffer.memory.take buffer.position ++ values).length = buffer.position + values.length := by
    rw [List.length_append, List.length_take]
    omega
  simp only [writeAt, splice]
  rw [front, List.take_take, Nat.min_eq_left seated, List.take_append,
    List.take_of_length_le (by rw [written]; omega), written, List.take_drop,
    show buffer.position + values.length + (max buffer.length (buffer.position + values.length) -
      (buffer.position + values.length)) = max buffer.length (buffer.position + values.length) by omega]
  congr 1
  by_cases inner : buffer.position + values.length ≤ buffer.length
  · rw [Nat.max_eq_left inner, take_reserve _ _ _ within]
  · rw [List.drop_eq_nil_of_le (by rw [List.length_take]; omega),
      List.drop_eq_nil_of_le (by rw [List.length_take]; omega)]

instance : AutoBuffer ByteBuffer where
  content_empty := rfl
  pos_empty := rfl
  length_allocWrite _ _ := rfl
  content_allocWrite buffer count := by
    have within := buffer.within
    rw [content_eq, content_eq, List.take_take]
    change (reserve buffer.memory _).take (min buffer.length (max buffer.length (buffer.position + count))) = _
    rw [take_reserve _ _ _ (by omega), Nat.min_eq_left (Nat.le_max_left _ _)]
  pos_allocWrite _ _ := rfl
  content_write buffer values seated := by
    rw [content_eq, content_eq]
    exact buffer.take_writeAt values seated
  content_writeCur buffer values seated := by
    rw [content_eq, content_eq]
    exact buffer.take_writeAt values seated
  content_seekStart buffer := by rw [content_eq, content_eq]; rfl
  content_receive buffer read := by
    have within := buffer.within
    have written : (buffer.memory.take buffer.length ++ read).length = buffer.length + read.length := by
      rw [List.length_append, List.length_take, Nat.min_eq_left within]
    rw [content_eq, content_eq]
    change (splice buffer.memory buffer.length read).take (buffer.length + read.length) = _
    rw [splice, ← written, List.take_left]
  content_move buffer count := by
    rw [content_eq, content_eq]
    change (splice buffer.memory 0 ((buffer.memory.take buffer.length).drop count)).take
      ((buffer.memory.take buffer.length).drop count).length = _
    rw [splice, List.take_zero, List.nil_append, List.take_left]

@[simp] theorem content_ofBytes (bytes : List UInt8) : content (ofBytes bytes) = bytes := by
  rw [content_eq]
  exact List.take_length

/-- The memory behind the content holds older bytes. -/
def withStale (bytes stale : List UInt8) : ByteBuffer where
  memory := bytes ++ stale
  length := bytes.length
  position := 0
  within := by rw [List.length_append]; omega

@[simp] theorem content_withStale (bytes stale : List UInt8) : content (withStale bytes stale) = bytes := by
  rw [content_eq]
  exact List.take_left

instance : ReusedBuffer ByteBuffer where
  exists_stale bytes stale := by
    refine ⟨withStale bytes stale, content_withStale bytes stale, ?_⟩
    intro index inside
    change ((bytes ++ stale)[index]?).getD 0 = (bytes ++ stale)[index]
    rw [List.getElem?_eq_getElem inside, Option.getD_some]
  exists_seated bytes position _ :=
    ⟨{ofBytes bytes with position := position}, (content_eq _).trans List.take_length, rfl⟩

end ByteBuffer

end MarsWrapper
