import MarsWrapper.Model.ReceiveLoop

namespace MarsWrapper

open Foundation Foundation.StreamLoop AutoBufferApi

variable {Buffer : Type}

/-- The loop over hostile bytes asks for a whole header before each call. -/
def hasHeader [AutoBufferApi Buffer] (packed : Buffer) : Bool := decide (12 ≤ length packed)

/-- An accepted packet keeps the residue that the unpacker saw and its outputs. -/
structure Accepted (Buffer : Type) where
  residue : List UInt8
  out : Unpacked Buffer

/-- The loop drops exactly these bytes. -/
def Accepted.slice (accepted : Accepted Buffer) : List UInt8 := accepted.residue.take accepted.out.packageLen

def collect [AutoBufferApi Buffer] (packets : List (Accepted Buffer)) (packed : Buffer) (out : Unpacked Buffer) :
    List (Accepted Buffer) :=
  packets ++ [⟨content packed, out⟩]

def hostileLoop [AutoBuffer Buffer] (packed : Buffer) : Outcome (List (Accepted Buffer)) Buffer :=
  drain hasHeader (unpackVerdict .bits64) collect (length packed) [] packed

variable [AutoBuffer Buffer]

/-- With 64-bit sizes the verdict on a whole header follows its received length field. -/
theorem unpackVerdict_header (packed : Buffer) (header : 12 ≤ length packed) :
    unpackVerdict .bits64 packed =
      if 2 ^ 20 - 12 < (wordAt (content packed) 8).toNat then .reject
      else if length packed < 12 + (wordAt (content packed) 8).toNat then .wait
      else .accept (12 + (wordAt (content packed) 8).toNat)
        ⟨0, wordAt (content packed) 4, 12 + (wordAt (content packed) 8).toNat, writeCur empty (content packed)⟩ := by
  have declared := declaredLen_of_header packed header
  have small := declaredLen_lt packed
  have sized : SizeT.bits64.wrap (declaredLen packed + 12) = 12 + (wordAt (content packed) 8).toNat := by
    rw [SizeT.wrap, Nat.mod_eq_of_lt (by simp only [SizeT.bits]; omega), declared, Nat.add_comm]
  by_cases large : 2 ^ 20 - 12 < (wordAt (content packed) 8).toNat
  · rw [if_pos large, unpackVerdict_reject _ packed (by omega) (by omega)]
  · rw [if_neg large]
    by_cases missing : length packed < 12 + (wordAt (content packed) 8).toNat
    · rw [if_pos missing, unpackVerdict_wait _ packed (by omega) (by omega) (by omega)]
    · rw [if_neg missing, unpackVerdict_accept _ packed (by omega) (by omega) (by omega), sized,
        AutoBuffer.ptrWord_eq_wordAt packed 4 (by omega)]

/-- An accepted header gives the declared number of bytes within the limit and the buffer. -/
theorem accept_of_header {packed : Buffer} {size : Nat} {out : Unpacked Buffer} (open_ : hasHeader packed = true)
    (accepted : unpackVerdict .bits64 packed = .accept size out) :
    12 ≤ length packed ∧ 12 ≤ size ∧ size ≤ 2 ^ 20 ∧ size ≤ length packed ∧
      size = 12 + (wordAt (content packed) 8).toNat ∧
      out = ⟨0, wordAt (content packed) 4, size, writeCur empty (content packed)⟩ := by
  have header : 12 ≤ length packed := of_decide_eq_true open_
  rw [unpackVerdict_header packed header] at accepted
  split at accepted
  · contradiction
  · split at accepted
    · contradiction
    · obtain ⟨rfl, rfl⟩ := Verdict.accept.inj accepted
      exact ⟨header, by omega, by omega, by omega, rfl, rfl⟩

theorem handleAll_collect (packets : List (Buffer × Nat × Unpacked Buffer)) (before : List (Accepted Buffer)) :
    handleAll collect before packets = before ++ packets.map fun packet => ⟨content packet.1, packet.2.2⟩ := by
  induction packets generalizing before with
  | nil => simp
  | cons packet packets ih => rw [handleAll_cons, ih, collect, List.map_cons, List.append_assoc, List.singleton_append]

/-- The parser of an accepted residue yields the slice without its header. -/
theorem parse_accepted {packed : Buffer} {size : Nat} {out : Unpacked Buffer} (open_ : hasHeader packed = true)
    (accepted : unpackVerdict .bits64 packed = .accept size out) (bounded : length packed < 2 ^ 31) :
    content out.body = content packed ∧
      ∃ valid message, ImMessage.empty.parse .bits64 (content out.body) (toInt (length out.body)) = some (valid, message) ∧
        message.getData = some (((content packed).take size).drop 12) := by
  obtain ⟨header, _, _, inside, sized, rfl⟩ := accept_of_header open_ accepted
  have copied : content (writeCur (empty : Buffer) (content packed)) = content packed :=
    AutoBuffer.content_writeCur_empty _
  rw [← AutoBuffer.length_content] at header inside bounded
  refine ⟨copied, wordAt (content packed) 0 == ImMessage.magicNum, ⟨some (content packed)⟩, ?_, ?_⟩
  · rw [← AutoBuffer.length_content, copied]
    exact ImMessage.parse_of_length _ _ header bounded
  · rw [ImMessage.getData_of_header header, if_pos (by omega), List.drop_take, sized, Nat.add_sub_cancel_left]

/-- The slice of an accepted packet has the size of the verdict. -/
theorem slice_of_accepted {packed : Buffer} {size : Nat} {out : Unpacked Buffer} (open_ : hasHeader packed = true)
    (accepted : unpackVerdict .bits64 packed = .accept size out) :
    Accepted.slice ⟨content packed, out⟩ = (content packed).take size := by
  obtain ⟨_, _, _, _, _, named⟩ := accept_of_header open_ accepted
  rw [Accepted.slice, named]

/-- An accepted packet is well delimited, and the parser of its body stays inside it. -/
theorem delimited_of_accepted {packed : Buffer} {size : Nat} {out : Unpacked Buffer} (open_ : hasHeader packed = true)
    (accepted : unpackVerdict .bits64 packed = .accept size out) (bounded : length packed < 2 ^ 31) :
    12 ≤ (Accepted.slice ⟨content packed, out⟩).length ∧ (Accepted.slice ⟨content packed, out⟩).length ≤ 2 ^ 20 ∧
      out.seq = wordAt (Accepted.slice ⟨content packed, out⟩) 4 ∧ content out.body = content packed ∧
      ∃ valid message, ImMessage.empty.parse .bits64 (content out.body) (toInt (length out.body)) = some (valid, message) ∧
        message.getData = some ((Accepted.slice ⟨content packed, out⟩).drop 12) := by
  obtain ⟨_, least, most, fits, _, named⟩ := accept_of_header open_ accepted
  obtain ⟨copied, valid, message, parsed, data⟩ := parse_accepted open_ accepted bounded
  have long : ((content packed).take size).length = size := by
    rw [List.length_take, AutoBuffer.length_content]
    omega
  rw [slice_of_accepted open_ accepted, long]
  refine ⟨least, most, ?_, copied, valid, message, parsed, data⟩
  rw [wordAt_take _ _ _ (by omega), named]

/-- The stop reason of the loop is decided by the length and the length field of the rest. -/
theorem stop_of_explains {rest : Buffer} {stop : Stop} (explains : stop.Explains hasHeader (unpackVerdict .bits64) rest) :
    (stop = .reject ↔ 12 ≤ length rest ∧ 2 ^ 20 - 12 < (wordAt (content rest) 8).toNat) ∧
      (stop = .wait ↔ 12 ≤ length rest ∧ (wordAt (content rest) 8).toNat ≤ 2 ^ 20 - 12 ∧
        length rest < 12 + (wordAt (content rest) 8).toNat) ∧
      (stop = .idle ↔ length rest < 12) := by
  have header : hasHeader rest = true ↔ 12 ≤ length rest := decide_eq_true_iff
  have verdict := unpackVerdict_header rest
  cases stop with
  | idle =>
      have closed : ¬12 ≤ length rest := by
        rw [← header, show hasHeader rest = false from explains]
        decide
      simp [closed]
      omega
  | wait =>
      obtain ⟨open_, waits⟩ := explains
      have long := header.mp open_
      rw [verdict long] at waits
      split at waits <;> [contradiction; skip]
      split at waits <;> [skip; contradiction]
      simp
      omega
  | reject =>
      obtain ⟨open_, rejects⟩ := explains
      have long := header.mp open_
      rw [verdict long] at rejects
      split at rejects <;> [skip; (split at rejects <;> contradiction)]
      simp
      omega
  | stuck => exact explains.elim

/-- The loop consumes whole packets, keeps each of them and stops for a stated reason. -/
theorem hostileLoop_consumes (packed : Buffer) :
    ∃ packets rest stop, Consumes hasHeader (unpackVerdict .bits64) packed packets rest ∧
      stop.Explains hasHeader (unpackVerdict .bits64) rest ∧
      hostileLoop packed = ⟨packets.map fun packet => ⟨content packet.1, packet.2.2⟩, rest, stop⟩ := by
  have advances (buffer : Buffer) (size : Nat) (out : Unpacked Buffer) (open_ : hasHeader buffer = true)
      (accepted : unpackVerdict .bits64 buffer = .accept size out) :
      0 < size ∧ size ≤ (StreamBuffer.bytes buffer).length := by
    obtain ⟨_, positive, _, inside, _⟩ := accept_of_header open_ accepted
    rw [AutoBuffer.bytes_eq_content, AutoBuffer.length_content]
    omega
  have nonempty (buffer : Buffer) (open_ : hasHeader buffer = true) : StreamBuffer.bytes buffer ≠ [] := by
    intro bare
    have header : 12 ≤ length buffer := of_decide_eq_true open_
    rw [AutoBuffer.bytes_eq_content, AutoBuffer.content_eq_nil_iff] at bare
    omega
  have enough : (StreamBuffer.bytes packed).length ≤ length packed := by
    rw [AutoBuffer.bytes_eq_content, AutoBuffer.length_content]
  obtain ⟨packets, rest, stop, consumed, reason, drained⟩ :=
    @drain_terminates _ Buffer _ _ hasHeader (unpackVerdict .bits64) collect advances nonempty (length packed) [] packed
      enough
  refine ⟨packets, rest, stop, consumed, reason, ?_⟩
  rw [hostileLoop, drained, handleAll_collect, List.nil_append]

/-- The loop over any bytes stops, tiles them by well-delimited slices and names its stop reason. -/
theorem hostileBytes (packed : Buffer) (bounded : length packed < 2 ^ 31) :
    (hostileLoop packed).stop ≠ .stuck ∧
    ((hostileLoop packed).state.map Accepted.slice).flatten ++ content (hostileLoop packed).rest = content packed ∧
    (∀ accepted ∈ (hostileLoop packed).state,
      12 ≤ accepted.slice.length ∧ accepted.slice.length ≤ 2 ^ 20 ∧ accepted.out.seq = wordAt accepted.slice 4 ∧
      content accepted.out.body = accepted.residue ∧
      ∃ valid message, ImMessage.empty.parse .bits64 (content accepted.out.body) (toInt (length accepted.out.body)) =
          some (valid, message) ∧
        message.getData = some (accepted.slice.drop 12)) ∧
    ((hostileLoop packed).stop = .reject ↔
      12 ≤ length (hostileLoop packed).rest ∧
        2 ^ 20 - 12 < (wordAt (content (hostileLoop packed).rest) 8).toNat) ∧
    ((hostileLoop packed).stop = .wait ↔
      12 ≤ length (hostileLoop packed).rest ∧
        (wordAt (content (hostileLoop packed).rest) 8).toNat ≤ 2 ^ 20 - 12 ∧
        length (hostileLoop packed).rest < 12 + (wordAt (content (hostileLoop packed).rest) 8).toNat) ∧
    ((hostileLoop packed).stop = .idle ↔ length (hostileLoop packed).rest < 12) := by
  obtain ⟨packets, rest, stop, consumed, reason, collected⟩ := hostileLoop_consumes packed
  have sliced : packets.map (fun packet => Accepted.slice ⟨content packet.1, packet.2.2⟩) =
      packets.map fun packet => (content packet.1).take packet.2.1 := by
    apply List.map_congr_left
    intro packet member
    obtain ⟨open_, accepted⟩ := consumed.accepted packet member
    exact slice_of_accepted open_ accepted
  rw [collected]
  refine ⟨?_, ?_, ?_, stop_of_explains reason⟩
  · rintro rfl
    exact reason
  · rw [List.map_map]
    change (packets.map fun packet => Accepted.slice ⟨content packet.1, packet.2.2⟩).flatten ++ _ = _
    rw [sliced]
    exact consumed.tiles
  · intro accepted member
    obtain ⟨packet, inside, rfl⟩ := List.mem_map.mp member
    obtain ⟨open_, verdict⟩ := consumed.accepted packet inside
    have short : length packet.1 < 2 ^ 31 := by
      have shorter := consumed.length_le packet inside
      simp only [AutoBuffer.bytes_eq_content, AutoBuffer.length_content] at shorter
      omega
    exact delimited_of_accepted open_ verdict short

/-- This buffer holds a header without a body and one stray byte. -/
def strayBuffer : ByteBuffer := ByteBuffer.ofBytes [1, 2, 3, 4, 5, 6, 7, 8, 0, 0, 0, 0, 9]

theorem hostileBytes_stray :
    ((hostileLoop strayBuffer).state.map Accepted.slice).flatten ++ content (hostileLoop strayBuffer).rest =
        content strayBuffer ∧
      ((hostileLoop strayBuffer).stop = .idle ↔ length (hostileLoop strayBuffer).rest < 12) :=
  have tiled := hostileBytes strayBuffer (by decide)
  ⟨tiled.2.1, tiled.2.2.2.2.2⟩

end MarsWrapper
