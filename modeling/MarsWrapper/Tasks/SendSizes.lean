import MarsWrapper.Ledger.StoreFrame

namespace MarsWrapper

open Foundation AutoBufferApi

/-- The copy gets the size through the `int` parameter of the constructor. -/
def copiedBytes (width : SizeT) (size : UInt32) : Nat := width.ofInt (toInt size.toNat)

/-- The allocation gets a sum that is truncated to `uint32_t`. -/
def allocatedBytes (width : SizeT) (size : UInt32) : Nat :=
  (UInt32.ofNat (width.wrap (MessageFormat.size + copiedBytes width size))).toNat

def lenField (size : UInt32) : UInt32 := UInt32.ofInt (toInt size.toNat)

/-- The message computes its size from its own length field, and the request writer uses this size. -/
def messageSize (width : SizeT) (size : UInt32) : UInt32 :=
  UInt32.ofNat (width.wrap ((lenField size).toNat + MessageFormat.size))

def contextSize (width : SizeT) (size : UInt32) : UInt32 :=
  UInt32.ofNat (width.wrap (size.toNat + MessageFormat.size))

/-- The copy fits its allocation, and every number that the code derives from the size is exact. -/
def SizesExact (width : SizeT) (size : UInt32) : Prop :=
  copiedBytes width size = size.toNat ∧ 12 + copiedBytes width size ≤ allocatedBytes width size ∧
    allocatedBytes width size = 12 + size.toNat ∧ lenField size = size ∧
    (messageSize width size).toNat = 12 + size.toNat ∧ (contextSize width size).toNat = 12 + size.toNat

/-- The send keeps one whole message and a context of the same size, and the request writer writes that message. -/
def SendsExactly (Buffer : Type) [AutoBufferApi Buffer] (width : SizeT) (state : State) (request : SendRequest) : Prop :=
  ∃ next ctx context msg block,
    state.sendMessage width request = some (0, next) ∧
    Linked next state.messageId ctx context msg ⟨some block⟩ ∧
    block.length = 12 + request.size.toNat ∧ block.drop 12 = request.body.take request.size.toNat ∧
    ImMessage.len ⟨some block⟩ = some request.size ∧
    (ImMessage.getMessageSize width ⟨some block⟩).map UInt32.toNat = some (12 + request.size.toNat) ∧
    context.size.toNat = 12 + request.size.toNat ∧
    (next.req2Buf width state.messageId (empty : Buffer)).map (fun answer => (answer.1, content answer.2)) =
      some (true, block)

/-- The size goes through `int` unchanged in the 64-bit build, and its sum does not wrap in the 32-bit build. -/
def SizeFits : SizeT → UInt32 → Prop
  | .bits64, size => size.toNat < 2 ^ 31
  | .bits32, size => 12 + size.toNat < 2 ^ 32

instance (width : SizeT) (size : UInt32) : Decidable (SizeFits width size) :=
  match width with
  | .bits64 => inferInstanceAs (Decidable (_ < _))
  | .bits32 => inferInstanceAs (Decidable (_ < _))

section Conversions

variable (width : SizeT) (size : UInt32)

/-- These are the numbers with which the constructor works. -/
theorem ofData_sizes (newMessageId : UInt32) (data : List UInt8) :
    ImMessage.ofData width newMessageId data (toInt size.toNat) = (do
      let block ← storeField (malloc (allocatedBytes width size)) MessageFormat.lenOffset (lenField size)
      let block ← storeField block MessageFormat.magicNumOffset ImMessage.magicNum
      let block ← storeField block MessageFormat.messageIdOffset newMessageId
      let block ← memcpy block MessageFormat.dataOffset data (copiedBytes width size)
      return ⟨some block⟩) := by
  simp only [ImMessage.ofData, allocatedBytes, copiedBytes, lenField]

/-- The length field is right for every size. -/
theorem lenField_eq : lenField size = size := by
  have small : size.toNat < 2 ^ 32 := size.toNat_lt
  have low := toInt_mod size.toNat
  rw [lenField, UInt32.ofInt, ← UInt32.toNat_inj, UInt32.toNat_ofNat']
  omega

/-- The copy is exact unless the 64-bit build extends a sign bit. -/
theorem copiedBytes_eq :
    copiedBytes width size =
      if width = .bits64 ∧ 2 ^ 31 ≤ size.toNat then 2 ^ 64 - 2 ^ 32 + size.toNat else size.toNat := by
  have small : size.toNat < 2 ^ 32 := size.toNat_lt
  unfold copiedBytes
  by_cases low : size.toNat < 2 ^ 31
  · rw [toInt_of_lt low, width.ofInt_natCast small, if_neg (by omega)]
  · rw [toInt_of_ge (by omega) small]
    cases width with
    | bits32 =>
        rw [if_neg (by simp)]
        simp only [SizeT.ofInt, SizeT.bits]
        omega
    | bits64 =>
        rw [if_pos ⟨rfl, by omega⟩]
        simp only [SizeT.ofInt, SizeT.bits]
        omega

/-- A size fits exactly when its copy is exact and its sum stays in the range of `uint32_t`. -/
theorem sizeFits_iff : SizeFits width size ↔ copiedBytes width size = size.toNat ∧ 12 + size.toNat < 2 ^ 32 := by
  have small : size.toNat < 2 ^ 32 := size.toNat_lt
  rw [copiedBytes_eq]
  cases width with
  | bits32 =>
      rw [if_neg (by simp), eq_self, true_and, SizeFits]
  | bits64 =>
      simp only [SizeFits, true_and]
      split <;> omega

/-- The sums are exact exactly when they stay below the range of `uint32_t`. -/
theorem contextSize_eq_iff : (contextSize width size).toNat = 12 + size.toNat ↔ 12 + size.toNat < 2 ^ 32 := by
  have small : size.toNat < 2 ^ 32 := size.toNat_lt
  have sum : (contextSize width size).toNat = (12 + size.toNat) % 2 ^ 32 := by
    rw [contextSize, UInt32.toNat_ofNat', width.wrap_mod, Nat.add_comm]
    rfl
  rw [sum]
  omega

/-- All numbers are exact exactly when the size fits. -/
theorem sizesExact_iff : SizesExact width size ↔ SizeFits width size := by
  have message : messageSize width size = contextSize width size := by
    rw [messageSize, lenField_eq, contextSize]
  have allocation (copied : copiedBytes width size = size.toNat) :
      allocatedBytes width size = (contextSize width size).toNat := by
    rw [allocatedBytes, copied, contextSize, Nat.add_comm]
  rw [sizeFits_iff, SizesExact, message, contextSize_eq_iff]
  constructor
  · intro exact_
    exact ⟨exact_.1, exact_.2.2.2.2.1⟩
  · intro fits
    obtain ⟨copied, sum⟩ := fits
    have allocated : allocatedBytes width size = 12 + size.toNat := by
      rw [allocation copied, (contextSize_eq_iff width size).mpr sum]
    exact ⟨copied, by omega, allocated, lenField_eq size, sum, sum⟩

end Conversions

section Sends

variable {Buffer : Type} [AutoBuffer Buffer] {width : SizeT}

/-- A fitting size frames exactly the given bytes. -/
theorem constructMessage_of_sizeFits (state : State) {request : SendRequest}
    (given : request.size.toNat ≤ request.body.length) (fits : SizeFits width request.size) :
    state.constructMessage width request =
      some ((state.messages.next, state.messageId),
        { state with
          messageId := state.messageId + 1
          constructed := state.constructed + 1
          messages := state.messages.alloc
            (ImMessage.framed state.messageId (request.body.take request.size.toNat)) }) := by
  obtain ⟨copied, sum⟩ := (sizeFits_iff width request.size).mp fits
  unfold copiedBytes at copied
  rw [State.constructMessage_eq, copied, if_pos ⟨sum, given⟩]

/-- A send of a fitting size keeps and writes exactly its bytes. -/
theorem sendsExactly_of_sizeFits (state : State) {request : SendRequest}
    (given : request.size.toNat ≤ request.body.length) (fits : SizeFits width request.size) :
    SendsExactly Buffer width state request := by
  obtain ⟨_, sum⟩ := (sizeFits_iff width request.size).mp fits
  have constructed := constructMessage_of_sizeFits state given fits
  have taken : (request.body.take request.size.toNat).length = request.size.toNat := by
    rw [List.length_take]
    omega
  generalize bytes : request.body.take request.size.toNat = body at constructed taken
  obtain ⟨_, _, _, size⟩ := framed_fields width state.messageId body (by omega)
  have written := buildEchatTcpMsg_frame width state.messageId body (by omega) (empty : Buffer)
  have long := length_frameBytes state.messageId (UInt32.ofNat body.length) body
  have len : ImMessage.len (ImMessage.framed state.messageId body) = some request.size := by
    have field := wordAt_len state.messageId (UInt32.ofNat body.length) body []
    rw [List.append_nil] at field
    rw [ImMessage.framed, ImMessage.len_of_header (by omega), field, taken, UInt32.ofNat_toNat]
  have data := drop_frameBytes state.messageId (UInt32.ofNat body.length) body []
  rw [List.append_nil, List.append_nil] at data
  have sized : (ImMessage.getMessageSize width (ImMessage.framed state.messageId body)).map UInt32.toNat =
      some (12 + request.size.toNat) := by
    rw [size, Option.map_some, UInt32.toNat_ofNat', Nat.mod_eq_of_lt (by omega), taken]
  have sent : state.sendMessage width request =
      some (0, (State.storeMessage width
        { state with
          messageId := state.messageId + 1
          constructed := state.constructed + 1
          messages := state.messages.alloc (ImMessage.framed state.messageId body) }
        state.messages.next state.messageId request).startTask state.messageId) := by
    rw [State.sendMessage, constructed]
    rfl
  refine ⟨_, state.contexts.next, _, state.messages.next,
    frameBytes state.messageId (UInt32.ofNat body.length) body, sent,
    ⟨Function.update_self .., Heap.read_alloc_self, rfl, Heap.read_alloc_self⟩, by rw [long, taken],
    by rw [data, bytes], len, sized, (contextSize_eq_iff width request.size).mpr sum, ?_⟩
  rw [State.req2Buf_of_linked ⟨Function.update_self .., Heap.read_alloc_self, rfl, Heap.read_alloc_self⟩, written,
    Option.map_some, Option.map_some, AutoBuffer.content_write_empty]

/-- A send of another size reaches undefined behaviour. -/
theorem sendMessage_of_not_sizeFits (state : State) {request : SendRequest} (large : ¬SizeFits width request.size) :
    state.sendMessage width request = none := by
  have wraps : ¬12 + copiedBytes width request.size < 2 ^ 32 := by
    have small : request.size.toNat < 2 ^ 32 := request.size.toNat_lt
    have copied := copiedBytes_eq width request.size
    rw [sizeFits_iff] at large
    split at copied <;> omega
  unfold copiedBytes at wraps
  rw [State.sendMessage, State.constructMessage_eq, if_neg (fun both => wraps both.1)]
  rfl

/-- Every number that the code derives from a size, and what a send of this size keeps and writes, is exact exactly
when the size fits the build. As in `malloc`, every allocation succeeds. -/
theorem sendSizes (size : UInt32) :
    (SizesExact width size ↔ SizeFits width size) ∧
      ∀ (state : State) (body : List UInt8) (callback : Option Listener), size.toNat ≤ body.length →
        (SendsExactly Buffer width state ⟨body, size, callback⟩ ↔ SizeFits width size) := by
  refine ⟨sizesExact_iff width size, ?_⟩
  intro state body callback given
  constructor
  · intro sends
    by_contra large
    obtain ⟨next, _, _, _, _, sent, _⟩ := sends
    rw [sendMessage_of_not_sizeFits state large] at sent
    contradiction
  · intro fits
    exact sendsExactly_of_sizeFits state given fits

end Sends

/-- A message of two bytes is sent exactly. -/
theorem sendSizes_hello : SendsExactly ByteBuffer .bits64 State.initial ⟨[104, 105], 2, none⟩ :=
  ((sendSizes 2).2 State.initial [104, 105] none (by decide)).mpr (by decide)

/-- In the 64-bit build the copy of 2^31 bytes overruns its allocation, and in the 32-bit build the last twelve sizes
allocate fewer than twelve bytes. -/
theorem sendSizes_overflow :
    copiedBytes .bits64 0x80000000 = 2 ^ 64 - 2 ^ 31 ∧ allocatedBytes .bits64 0x80000000 = 2 ^ 31 + 12 ∧
      copiedBytes .bits32 0xFFFFFFF4 = 2 ^ 32 - 12 ∧ allocatedBytes .bits32 0xFFFFFFF4 = 0 ∧
      ¬SizesExact .bits64 0x80000000 ∧ ¬SizesExact .bits32 0xFFFFFFF4 ∧
      State.initial.sendMessage .bits64 ⟨List.replicate (2 ^ 31) 0, 0x80000000, none⟩ = none ∧
      State.initial.sendMessage .bits32 ⟨List.replicate (2 ^ 32 - 12) 0, 0xFFFFFFF4, none⟩ = none := by
  refine ⟨by decide, by decide, by decide, by decide, ?_, ?_, ?_, ?_⟩
  · rw [sizesExact_iff]
    decide
  · rw [sizesExact_iff]
    decide
  · exact sendMessage_of_not_sizeFits _ (by decide)
  · exact sendMessage_of_not_sizeFits _ (by decide)

end MarsWrapper
