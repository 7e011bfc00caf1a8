import MarsWrapper.Model.ReceiveLoop

namespace MarsWrapper

open Foundation Foundation.LittleEndian AutoBufferApi

/-- This is `unpackTest` on a memory that ends behind the received bytes, where every read past them is undefined
behaviour. -/
def unpackTestWithin (width : SizeT) (received : List UInt8) (out : UnpackHeader) :
    Option (LonglinkUnpack × UnpackHeader) :=
  if received.length = imHeartbeatBytes then
    some (.ok, {out with seq := Task.kNoopTaskID, packageLen := received.length})
  else do
    let messageId ← loadField received MessageFormat.messageIdOffset
    let len ← loadField received MessageFormat.lenOffset
    let header : UnpackHeader :=
      { cmdid := 0
        seq := messageId
        bodyLen := len.toNat
        packageLen := width.wrap (len.toNat + MessageFormat.size) }
    return (
      if 1024 * 1024 < header.packageLen then (.false_, header)
      else if received.length < header.packageLen then (.continue_, header)
      else (.ok, header))

section Within

variable {width : SizeT}

/-- The bounded test is defined for a heartbeat and for a whole header. -/
theorem unpackTestWithin_isSome (received : List UInt8) (out : UnpackHeader) :
    (unpackTestWithin width received out).isSome ↔ received.length = 4 ∨ 12 ≤ received.length := by
  rw [unpackTestWithin, imHeartbeatBytes]
  split
  next four => exact iff_of_true rfl (Or.inl four)
  next other =>
    by_cases header : 12 ≤ received.length
    · have messageId : loadField received MessageFormat.messageIdOffset = some (wordAt received 4) :=
        loadField_eq_some (show 4 + 4 ≤ received.length by omega)
      have len : loadField received MessageFormat.lenOffset = some (wordAt received 8) :=
        loadField_eq_some (show 8 + 4 ≤ received.length by omega)
      rw [messageId, len]
      exact iff_of_true rfl (Or.inr header)
    · have absent : loadField received MessageFormat.lenOffset = none :=
        loadField_eq_none (show received.length < 8 + 4 by omega)
      rw [absent]
      refine iff_of_false ?_ (by omega)
      cases loadField received MessageFormat.messageIdOffset <;> exact Bool.false_ne_true

/-- Where the bounded test is defined, the test of every memory with these received bytes agrees with it. -/
theorem unpackTest_of_within {Buffer : Type} [AutoBuffer Buffer] {packed : Buffer} {out : UnpackHeader}
    {result : LonglinkUnpack × UnpackHeader}
    (bounded : unpackTestWithin width (content packed) out = some result) :
    unpackTest width (ptr packed) (length packed) out = result := by
  have defined := (unpackTestWithin_isSome (content packed) out).mp (Option.isSome_of_eq_some bounded)
  rw [unpackTestWithin] at bounded
  rw [AutoBuffer.length_content] at defined bounded
  rw [unpackTest]
  split at bounded
  next four =>
    rw [if_pos four]
    exact Option.some.inj bounded
  next other =>
    have header : 12 ≤ length packed := defined.resolve_left other
    have field (offset : Nat) (inside : offset + 4 ≤ length packed) :
        loadField (content packed) offset = some (ptrWord (ptr packed) offset) := by
      rw [loadField_eq_some (by rw [AutoBuffer.length_content]; exact inside),
        AutoBuffer.ptrWord_eq_wordAt packed offset inside]
    rw [field MessageFormat.messageIdOffset (show 4 + 4 ≤ _ by omega),
      field MessageFormat.lenOffset (show 8 + 4 ≤ _ by omega)] at bounded
    rw [if_neg other]
    exact Option.some.inj bounded

end Within

/-- The length field is received whole, or only its top byte is missing and the others exceed the limit. -/
def LenReceived (width : SizeT) (bytes : List UInt8) : Prop :=
  12 ≤ bytes.length ∨
    (bytes.length = 11 ∧ 2 ^ 20 - 12 < decode (bytes.drop 8) ∧
      (width = .bits64 ∨ decode (bytes.drop 8) < 2 ^ 24 - 12))

/-- The received size is within the limit and the buffer, as the build computes it. -/
def SizeAccepted (width : SizeT) (bytes : List UInt8) : Prop :=
  12 ≤ bytes.length ∧ width.wrap ((wordAt bytes 8).toNat + 12) ≤ 2 ^ 20 ∧
    width.wrap ((wordAt bytes 8).toNat + 12) ≤ bytes.length

instance (width : SizeT) (bytes : List UInt8) : Decidable (LenReceived width bytes) :=
  inferInstanceAs (Decidable (_ ∨ _))

instance (width : SizeT) (bytes : List UInt8) : Decidable (SizeAccepted width bytes) :=
  inferInstanceAs (Decidable (_ ∧ _))

/-- This is the return code for a computed size. -/
def sizeCode (received size : Nat) : LonglinkUnpack :=
  if 2 ^ 20 < size then .false_ else if received < size then .continue_ else .ok

theorem sizeCode_eq_false_iff (received size : Nat) : sizeCode received size = .false_ ↔ 2 ^ 20 < size := by
  unfold sizeCode
  split
  · exact iff_of_true rfl ‹_›
  · next small =>
      apply iff_of_false _ small
      split <;> decide

section Codes

variable {Buffer : Type} [AutoBuffer Buffer] (width : SizeT) (packed : Buffer)

/-- Outside the heartbeat the return code follows the declared length, received or not. -/
theorem longlinkUnpack_code (out : Unpacked Buffer) (other : length packed ≠ 4) :
    (longlinkUnpack width packed out).1 = sizeCode (length packed) (width.wrap (declaredLen packed + 12)) := by
  unfold sizeCode
  by_cases large : 2 ^ 20 < width.wrap (declaredLen packed + 12)
  · rw [if_pos large, longlinkUnpack_false width packed out other large]
  · rw [if_neg large]
    by_cases missing : length packed < width.wrap (declaredLen packed + 12)
    · rw [if_pos missing, longlinkUnpack_continue width packed out other (by omega) missing]
    · rw [if_neg missing, longlinkUnpack_ok width packed out other (by omega) (by omega)]

/-- The declared length is the word that the memory holds at the length field. -/
theorem declaredLen_of_memory {memory : List UInt8}
    (holds : ∀ index (inside : index < memory.length), ptr packed index = memory[index]) (header : 12 ≤ memory.length) :
    declaredLen packed = (wordAt memory 8).toNat := by
  have field : (memory.drop 8).take 4 = [ptr packed 8, ptr packed 9, ptr packed 10, ptr packed 11] := by
    apply List.ext_getElem
    · rw [List.length_take, List.length_drop]
      simp only [List.length_cons, List.length_nil]
      omega
    · intro index _ below
      rw [List.getElem_take, List.getElem_drop]
      match index, below with
      | 0, _ | 1, _ | 2, _ | 3, _ => exact (holds _ _).symm
  rw [declaredLen, ptrWord, wordAt, field]

/-- With eleven bytes the top byte of the length field is read from the memory behind them. -/
theorem declaredLen_of_eleven (eleven : length packed = 11) :
    declaredLen packed = decode ((content packed).drop 8) + 2 ^ 24 * (ptr packed 11).toNat := by
  have low : (content packed).drop 8 = [ptr packed 8, ptr packed 9, ptr packed 10] := by
    apply List.ext_getElem
    · rw [List.length_drop, AutoBuffer.length_content, eleven]
      rfl
    · intro index _ below
      rw [List.getElem_drop, AutoBuffer.getElem_content]
      match index, below with
      | 0, _ | 1, _ | 2, _ => rfl
  have split_ : [ptr packed 8, ptr packed 9, ptr packed 10, ptr packed 11] =
      (content packed).drop 8 ++ [ptr packed 11] := by
    rw [low]
    rfl
  have three : ((content packed).drop 8).length = 3 := by
    rw [low]
    rfl
  rw [declaredLen, ptrWord, split_, toNat_decode32 _ (by rw [List.length_append, three]; rfl), decode_append, three,
    decode_singleton, show (256 : Nat) ^ 3 = 2 ^ 24 by norm_num]

end Codes

/-- Behind at most eleven bytes any top byte of the length field can be left over. -/
theorem exists_leftover {Buffer : Type} [ReusedBuffer Buffer] (bytes : List UInt8) (short : bytes.length ≤ 11)
    (high : UInt8) :
    ∃ packed : Buffer, content packed = bytes ∧ declaredLen packed = decode (bytes.drop 8) + 2 ^ 24 * high.toNat := by
  obtain ⟨packed, holds, memory⟩ : ∃ packed : Buffer, content packed = bytes ∧ _ :=
    ReusedBuffer.exists_stale bytes (List.replicate (11 - bytes.length) 0 ++ [high])
  have padded : (bytes ++ List.replicate (11 - bytes.length) 0).length = 11 := by
    rw [List.length_append, List.length_replicate]
    omega
  have header : 12 ≤ (bytes ++ (List.replicate (11 - bytes.length) 0 ++ [high])).length := by
    rw [← List.append_assoc, List.length_append, padded]
    exact Nat.le_refl 12
  refine ⟨packed, holds, ?_⟩
  rw [declaredLen_of_memory packed memory header, ← List.append_assoc, wordAt, List.drop_append_of_le_length (by omega),
    List.take_of_length_le (by rw [List.length_append, List.length_drop, padded]; exact Nat.le_refl 4),
    toNat_decode32 _ (by rw [List.length_append, List.length_drop, padded]; rfl), decode_append, List.length_drop,
    padded, List.drop_append, List.drop_replicate, decode_append_zeros, decode_singleton,
    show (256 : Nat) ^ (11 - 8) = 2 ^ 24 by norm_num]

/-- The unpacker gives all memories behind the received bytes the same return code. -/
def SameVerdict (Buffer : Type) [AutoBuffer Buffer] (width : SizeT) (bytes : List UInt8) : Prop :=
  ∀ (packed packed' : Buffer) (out out' : Unpacked Buffer), content packed = bytes → content packed' = bytes →
    (longlinkUnpack width packed out).1 = (longlinkUnpack width packed' out').1

section Verdicts

variable {width : SizeT} {bytes : List UInt8}

/-- With one verdict every top byte of a length field that is not received gives the same comparison. -/
theorem SameVerdict.large_iff {Buffer : Type} [ReusedBuffer Buffer] (same : SameVerdict Buffer width bytes)
    (short : bytes.length ≤ 11) (other : bytes.length ≠ 4) {first second : Nat} (firstByte : first < 256)
    (secondByte : second < 256) :
    2 ^ 20 < width.wrap (decode (bytes.drop 8) + 2 ^ 24 * first + 12) ↔
      2 ^ 20 < width.wrap (decode (bytes.drop 8) + 2 ^ 24 * second + 12) := by
  have code (high : Nat) (byte : high < 256) :
      ∃ packed : Buffer, content packed = bytes ∧ ∀ out, (longlinkUnpack width packed out).1 =
        sizeCode bytes.length (width.wrap (decode (bytes.drop 8) + 2 ^ 24 * high + 12)) := by
    obtain ⟨packed, holds, declared⟩ : ∃ packed : Buffer, content packed = bytes ∧ _ :=
      exists_leftover bytes short (UInt8.ofNat high)
    have long : length packed = bytes.length := by rw [← AutoBuffer.length_content, holds]
    rw [UInt8.toNat_ofNat', Nat.mod_eq_of_lt (by omega)] at declared
    refine ⟨packed, holds, ?_⟩
    intro out
    rw [longlinkUnpack_code width packed out (by rw [long]; exact other), long, declared]
  obtain ⟨packed, holds, firstCode⟩ := code first firstByte
  obtain ⟨packed', holds', secondCode⟩ := code second secondByte
  have equal := same packed packed' Unpacked.fresh Unpacked.fresh holds holds'
  rw [firstCode, secondCode] at equal
  rw [← sizeCode_eq_false_iff bytes.length, equal, sizeCode_eq_false_iff]

/-- An accepted size gives the received outputs and a copy of the received bytes. -/
theorem longlinkUnpack_accepted {Buffer : Type} [AutoBuffer Buffer] (accepted : SizeAccepted width bytes)
    {packed : Buffer} (holds : content packed = bytes) (out : Unpacked Buffer) :
    longlinkUnpack width packed out =
      (.ok, ⟨0, wordAt bytes 4, width.wrap ((wordAt bytes 8).toNat + 12), writeCur out.body bytes⟩) := by
  obtain ⟨header, small, present⟩ := accepted
  have long : length packed = bytes.length := by rw [← AutoBuffer.length_content, holds]
  have declared : declaredLen packed = (wordAt bytes 8).toNat := by
    rw [declaredLen_of_header packed (by omega), holds]
  rw [longlinkUnpack_ok width packed out (by omega) (by rw [declared]; exact small)
    (by rw [declared, long]; exact present), declared, AutoBuffer.ptrWord_eq_wordAt packed 4 (by omega), holds]

/-- A received length gives every memory the same return code, and it is zero only for an accepted size. -/
theorem longlinkUnpack_received {Buffer : Type} [AutoBuffer Buffer] (received : LenReceived width bytes)
    {packed : Buffer} (holds : content packed = bytes) (out : Unpacked Buffer) :
    (longlinkUnpack width packed out).1 =
      if 12 ≤ bytes.length then sizeCode bytes.length (width.wrap ((wordAt bytes 8).toNat + 12)) else .false_ := by
  have long : length packed = bytes.length := by rw [← AutoBuffer.length_content, holds]
  obtain header | ⟨eleven, large, unwrapped⟩ := received
  · rw [if_pos header, longlinkUnpack_code width packed out (by omega), long,
      declaredLen_of_header packed (by omega), holds]
  · have top : (ptr packed 11).toNat < 256 := (ptr packed 11).toNat_lt
    have fewer : decode (bytes.drop 8) < 256 ^ 3 := by
      rw [show 3 = (bytes.drop 8).length by rw [List.length_drop, eleven]]
      exact decode_lt _
    rw [if_neg (by omega), longlinkUnpack_code width packed out (by omega),
      declaredLen_of_eleven packed (by omega), holds, sizeCode_eq_false_iff]
    cases width with
    | bits64 =>
        rw [SizeT.wrap, SizeT.bits]
        omega
    | bits32 =>
        have below : decode (bytes.drop 8) < 2 ^ 24 - 12 := by
          obtain wide | below := unwrapped
          · contradiction
          · exact below
        rw [SizeT.wrap_of_lt _ (by omega)]
        omega

/-- The return code depends on the received bytes alone exactly for a heartbeat and a received length. -/
theorem sameVerdict_iff (Buffer : Type) [ReusedBuffer Buffer] (width : SizeT) (bytes : List UInt8) :
    SameVerdict Buffer width bytes ↔ bytes.length = 4 ∨ LenReceived width bytes := by
  constructor
  · intro same
    by_cases four : bytes.length = 4
    · exact Or.inl four
    by_cases whole : 12 ≤ bytes.length
    · exact Or.inr (Or.inl whole)
    have low : decode (bytes.drop 8) < 256 ^ (bytes.length - 8) := by
      rw [← List.length_drop]
      exact decode_lt _
    have fewer : decode (bytes.drop 8) < 2 ^ 24 :=
      Nat.lt_of_lt_of_le low ((Nat.pow_le_pow_right (by decide) (show bytes.length - 8 ≤ 3 by omega)).trans (by decide))
    have large : 2 ^ 20 - 12 < decode (bytes.drop 8) := by
      have clear := same.large_iff (by omega) four (show 0 < 256 by omega) (show 1 < 256 by omega)
      rw [width.wrap_of_lt (by omega), width.wrap_of_lt (by omega)] at clear
      omega
    have eleven : bytes.length = 11 := by
      by_contra different
      have few := low.trans_le (Nat.pow_le_pow_right (by decide) (show bytes.length - 8 ≤ 2 by omega))
      omega
    refine Or.inr (Or.inr ⟨eleven, large, ?_⟩)
    cases width with
    | bits64 => exact Or.inl rfl
    | bits32 =>
        have set := same.large_iff (by omega) four (show 0 < 256 by omega) (show 255 < 256 by omega)
        rw [SizeT.wrap_of_lt _ (by omega), SizeT.wrap, SizeT.bits] at set
        exact Or.inr (by omega)
  · rintro (four | received) packed packed' out out' holds holds'
    · have long (buffer : Buffer) (own : content buffer = bytes) : length buffer = 4 := by
        rw [← AutoBuffer.length_content, own, four]
      rw [longlinkUnpack_heartbeat width packed out (long packed holds),
        longlinkUnpack_heartbeat width packed' out' (long packed' holds')]
    · rw [longlinkUnpack_received received holds out, longlinkUnpack_received received holds' out']

end Verdicts

/-- The callers see no difference between these outputs. -/
structure SameOutputs {Buffer : Type} [AutoBuffer Buffer] (out out' : Unpacked Buffer) : Prop where
  cmdid : out.cmdid = out'.cmdid
  seq : out.seq = out'.seq
  packageLen : out.packageLen = out'.packageLen
  body : content out.body = content out'.body

/-- The unpacker answers from the received bytes alone, for these two initial bodies. It reads no header field past
them, and an accepted packet gets the same outputs whatever their old values were, the bytes of the body included. -/
structure Determined {Buffer : Type} [AutoBuffer Buffer] (width : SizeT) (bytes : List UInt8) (body body' : Buffer) :
    Prop where
  verdict : SameVerdict Buffer width bytes
  outputs : ∀ (packed packed' : Buffer) (out out' : Unpacked Buffer), content packed = bytes → content packed' = bytes →
    out.body = body → out'.body = body' → (longlinkUnpack width packed out).1 = .ok →
    SameOutputs (longlinkUnpack width packed out).2 (longlinkUnpack width packed' out').2
  within : ∀ (packed : Buffer) (out : UnpackHeader), content packed = bytes →
    unpackTestWithin width bytes out = some (unpackTest width (ptr packed) (length packed) out)
  overwritten : ∀ (packed : Buffer) (out out' : Unpacked Buffer), content packed = bytes →
    out.body = body ∨ out.body = body' → length out'.body = length out.body → pos out'.body = pos out.body →
    (longlinkUnpack width packed out).1 = .ok →
    SameOutputs (longlinkUnpack width packed out).2 (longlinkUnpack width packed out').2

/-- No byte of the buffer lies outside the window that a write of so many bytes covers. -/
def Covered {Buffer : Type} [AutoBuffer Buffer] (buffer : Buffer) (count : Nat) : Prop :=
  pos buffer = 0 ∧ length buffer ≤ count

section Covered

variable {Buffer : Type} [AutoBuffer Buffer] {buffer : Buffer} {bytes : List UInt8}

/-- A write over the whole buffer leaves the written bytes alone. -/
theorem Covered.content_writeCur (covered : Covered buffer bytes.length) : content (writeCur buffer bytes) = bytes := by
  obtain ⟨start, inside⟩ := covered
  rw [AutoBuffer.content_writeCur _ _ (by omega), start, splice, List.take_zero, List.nil_append, Nat.zero_add,
    List.drop_eq_nil_of_le (by rw [AutoBuffer.length_content]; exact inside), List.append_nil]

/-- Only the empty byte string stays the same when each of its bytes is raised. -/
theorem eq_nil_of_map_eq {bytes : List UInt8} (same : bytes = bytes.map (· + 1)) : bytes = [] := by
  cases bytes with
  | nil => rfl
  | cons first later =>
      rw [List.map_cons] at same
      have moved : first = first + 1 := (List.cons.inj same).1
      exact absurd moved (by simp)

/-- A write whose result does not depend on the old bytes covers them all. -/
theorem covered_of_splice (seated : pos buffer ≤ length buffer)
    (same : splice (content buffer) (pos buffer) bytes = splice ((content buffer).map (· + 1)) (pos buffer) bytes) :
    Covered buffer bytes.length := by
  rw [splice, splice] at same
  have long : ((content buffer).take (pos buffer)).length = (((content buffer).map (· + 1)).take (pos buffer)).length := by
    rw [List.length_take, List.length_take, List.length_map]
  obtain ⟨begun, behind⟩ := List.append_inj same (by rw [List.length_append, List.length_append, long])
  have before := (List.append_inj begun long).1
  rw [← List.map_take] at before
  rw [← List.map_drop] at behind
  have first := congrArg List.length (eq_nil_of_map_eq before)
  have last := congrArg List.length (eq_nil_of_map_eq behind)
  rw [List.length_take, AutoBuffer.length_content, List.length_nil] at first
  rw [List.length_drop, AutoBuffer.length_content, List.length_nil] at last
  exact ⟨by omega, by omega⟩

end Covered

section Runs

variable {Buffer : Type} [ReusedBuffer Buffer] {width : SizeT} {bytes : List UInt8} {body body' : Buffer}

/-- The heartbeat branch leaves the command id at its old value. -/
theorem not_determined_heartbeat (four : bytes.length = 4) : ¬Determined width bytes body body' := by
  intro determined
  obtain ⟨packed, holds⟩ : ∃ packed : Buffer, content packed = bytes := ReusedBuffer.exists_content bytes
  have long : length packed = 4 := by rw [← AutoBuffer.length_content, holds, four]
  have answered := determined.outputs packed packed ⟨0, 0, 0, body⟩ ⟨1, 0, 0, body'⟩ holds holds rfl rfl
  rw [longlinkUnpack_heartbeat width packed _ long, longlinkUnpack_heartbeat width packed _ long] at answered
  have kept : (0 : UInt32) = 1 := (answered rfl).cmdid
  contradiction

/-- Determined bytes contain the whole header. -/
theorem Determined.header (determined : Determined width bytes body body') : 12 ≤ bytes.length := by
  obtain ⟨packed, holds⟩ : ∃ packed : Buffer, content packed = bytes := ReusedBuffer.exists_content bytes
  have bounded := determined.within packed ⟨0, 0, 0, 0⟩ holds
  obtain four | header := (unpackTestWithin_isSome bytes _).mp (Option.isSome_of_eq_some bounded)
  · exact (not_determined_heartbeat four determined).elim
  · exact header

/-- An accepted packet of determined bytes covers the initial bodies. -/
theorem Determined.covered (determined : Determined width bytes body body') (accepted : SizeAccepted width bytes)
    {initial : Buffer} (own : initial = body ∨ initial = body') (seated : pos initial ≤ length initial) :
    Covered initial bytes.length := by
  obtain ⟨packed, holds⟩ : ∃ packed : Buffer, content packed = bytes := ReusedBuffer.exists_content bytes
  obtain ⟨old, bumped, place⟩ : ∃ old : Buffer, content old = (content initial).map (· + 1) ∧ pos old = pos initial :=
    ReusedBuffer.exists_seated _ _ (by rw [List.length_map, AutoBuffer.length_content]; exact seated)
  have room : length old = length initial := by
    rw [← AutoBuffer.length_content, bumped, List.length_map, AutoBuffer.length_content]
  have answered := determined.overwritten packed ⟨0, 0, 0, initial⟩ ⟨0, 0, 0, old⟩ holds own room place
  rw [longlinkUnpack_accepted accepted holds, longlinkUnpack_accepted accepted holds] at answered
  have same : content (writeCur initial bytes) = content (writeCur old bytes) := (answered rfl).body
  rw [AutoBuffer.content_writeCur initial bytes seated, AutoBuffer.content_writeCur old bytes (by omega), bumped,
    place] at same
  exact covered_of_splice seated same

/-- The answer depends on the received bytes alone exactly when they contain the whole header and an accepted packet
covers all that the initial bodies held. -/
theorem staleMemory (width : SizeT) (bytes : List UInt8) (body body' : Buffer)
    (seated : pos body ≤ length body) (seated' : pos body' ≤ length body') :
    Determined width bytes body body' ↔
      12 ≤ bytes.length ∧
        (SizeAccepted width bytes → Covered body bytes.length ∧ Covered body' bytes.length) := by
  constructor
  · intro determined
    refine ⟨determined.header, ?_⟩
    intro accepted
    exact ⟨determined.covered accepted (Or.inl rfl) seated, determined.covered accepted (Or.inr rfl) seated'⟩
  · intro condition
    obtain ⟨header, covered⟩ := condition
    have verdict : SameVerdict Buffer width bytes := (sameVerdict_iff Buffer width bytes).mpr (Or.inr (Or.inl header))
    have accepts {packed : Buffer} {out : Unpacked Buffer} (holds : content packed = bytes)
        (code : (longlinkUnpack width packed out).1 = .ok) : SizeAccepted width bytes := by
      rw [longlinkUnpack_received (Or.inl header) holds out, if_pos header, sizeCode] at code
      split at code
      · contradiction
      next small =>
        split at code
        · contradiction
        next present => exact ⟨header, by omega, by omega⟩
    have written {packed packed' : Buffer} {out out' : Unpacked Buffer} (holds : content packed = bytes)
        (holds' : content packed' = bytes) (accepted : SizeAccepted width bytes)
        (own : Covered out.body bytes.length) (own' : Covered out'.body bytes.length) :
        SameOutputs (longlinkUnpack width packed out).2 (longlinkUnpack width packed' out').2 := by
      rw [longlinkUnpack_accepted accepted holds, longlinkUnpack_accepted accepted holds']
      exact ⟨rfl, rfl, rfl, own.content_writeCur.trans own'.content_writeCur.symm⟩
    refine ⟨verdict, ?_, ?_, ?_⟩
    · intro packed packed' out out' holds holds' started started' code
      have accepted := accepts holds code
      obtain ⟨own, own'⟩ := covered accepted
      exact written holds holds' accepted (started ▸ own) (started' ▸ own')
    · intro packed out holds
      obtain ⟨result, bounded⟩ := Option.isSome_iff_exists.mp ((unpackTestWithin_isSome bytes out).mpr (Or.inr header))
      rw [bounded, unpackTest_of_within (holds ▸ bounded)]
    · intro packed out out' holds started room place code
      have accepted := accepts holds code
      have own : Covered out.body bytes.length := by
        obtain rfl | rfl := started
        · exact (covered accepted).1
        · exact (covered accepted).2
      exact written holds holds accepted own ⟨place.trans own.1, room.trans_le own.2⟩

end Runs

/-- A whole frame is determined also when it goes over twelve old bytes. -/
theorem staleMemory_frame :
    Determined .bits64 (frameBytes 10000 1 [105]) (empty : ByteBuffer) (ByteBuffer.ofBytes (List.replicate 12 7)) :=
  (staleMemory .bits64 (frameBytes 10000 1 [105]) empty (ByteBuffer.ofBytes (List.replicate 12 7)) (by decide)
    (by decide)).mpr ⟨by decide, fun _ => ⟨⟨rfl, by decide⟩, ⟨rfl, by decide⟩⟩⟩

/-- The magic number alone gives a packet with any command id, and a frame without its length field gets two verdicts
from two leftovers. -/
theorem staleMemory_leftovers :
    (longlinkUnpack .bits64 (ByteBuffer.ofBytes [0xaf, 0xbe, 0xad, 0xde]) ⟨7, 0, 0, empty⟩).2.cmdid = 7 ∧
      ¬Determined .bits64 [0xaf, 0xbe, 0xad, 0xde] (empty : ByteBuffer) empty ∧
      (longlinkUnpack .bits64 (ByteBuffer.withStale [0xaf, 0xbe, 0xad, 0xde, 16, 39, 0, 0] [1, 0, 0, 0])
        Unpacked.fresh).1 = .continue_ ∧
      (longlinkUnpack .bits64 (ByteBuffer.withStale [0xaf, 0xbe, 0xad, 0xde, 16, 39, 0, 0] [0, 0, 0, 1])
        Unpacked.fresh).1 = .false_ ∧
      ¬Determined .bits64 [0xaf, 0xbe, 0xad, 0xde, 16, 39, 0, 0] (empty : ByteBuffer) empty := by
  refine ⟨by decide, not_determined_heartbeat rfl, by decide, by decide, ?_⟩
  intro determined
  have received := (sameVerdict_iff ByteBuffer .bits64 _).mp determined.verdict
  exact absurd received (by decide)

end MarsWrapper
