import MarsWrapper.Ledger.ValidRun

namespace MarsWrapper

open Foundation AutoBufferApi

variable {Buffer : Type}

/-- The declared size is the sum of the header and the length field, as a natural number. -/
def declaredSize [AutoBufferApi Buffer] (packed : Buffer) : Nat := 12 + (wordAt (content packed) 8).toNat

/-- An accepted packet has its declared size, stays within the limit and the buffer, and lets the loop advance by a
header. The parser of its body reads only received bytes. -/
def Capped [AutoBufferApi Buffer] (width : SizeT) (packed : Buffer) (out : Unpacked Buffer) : Prop :=
  ∀ result, longlinkUnpack width packed out = (.ok, result) →
    result.packageLen = declaredSize packed ∧ declaredSize packed ≤ 2 ^ 20 ∧ declaredSize packed ≤ length packed ∧
    length (move packed result.packageLen) + 12 ≤ length packed ∧
    (ImMessage.empty.parse width (content result.body) (toInt (length result.body))).bind
      (fun parsed => parsed.2.getData) = some (frameData packed)

/-- The sum of the header and the length field does not wrap. -/
def SumFits [AutoBufferApi Buffer] (width : SizeT) (packed : Buffer) : Prop :=
  width = .bits32 → declaredSize packed < 2 ^ 32

instance [AutoBufferApi Buffer] (width : SizeT) (packed : Buffer) : Decidable (SumFits width packed) :=
  inferInstanceAs (Decidable (_ → _))

variable [AutoBuffer Buffer] {width : SizeT} {packed : Buffer}

theorem declaredLen_add (header : 12 ≤ length packed) : declaredLen packed + 12 = declaredSize packed := by
  rw [declaredLen_of_header packed header, declaredSize, Nat.add_comm]

/-- The build computes the declared size exactly when its sum fits. -/
theorem wrap_declaredSize (fits : SumFits width packed) : width.wrap (declaredSize packed) = declaredSize packed := by
  have word : (wordAt (content packed) 8).toNat < 2 ^ 32 := (wordAt (content packed) 8).toNat_lt
  cases width with
  | bits32 => exact Nat.mod_eq_of_lt (fits rfl)
  | bits64 =>
      apply Nat.mod_eq_of_lt
      rw [declaredSize, SizeT.bits]
      omega

/-- A wrapped sum is below the size of a header. -/
theorem wrap_declaredSize_of_wrapped (wrapped : ¬SumFits width packed) :
    width.wrap (declaredSize packed) < 12 := by
  have word : (wordAt (content packed) 8).toNat < 2 ^ 32 := (wordAt (content packed) 8).toNat_lt
  obtain ⟨rfl, large⟩ : width = .bits32 ∧ 2 ^ 32 ≤ declaredSize packed := by
    unfold SumFits at wrapped
    rw [Classical.not_imp] at wrapped
    exact ⟨wrapped.1, Nat.le_of_not_lt wrapped.2⟩
  rw [declaredSize] at large ⊢
  rw [SizeT.wrap, SizeT.bits]
  omega

/-- The parser of a whole buffer reads the declared bytes exactly when the cast length holds them. -/
theorem parse_writeCur_empty :
    (ImMessage.empty.parse width (content (writeCur (empty : Buffer) (content packed)))
      (toInt (length (writeCur (empty : Buffer) (content packed))))).bind (fun parsed => parsed.2.getData) =
      if declaredSize packed ≤ castLength width packed ∧ castLength width packed ≤ length packed then
        some (frameData packed)
      else none := by
  have copied : content (writeCur (empty : Buffer) (content packed)) = content packed :=
    AutoBuffer.content_writeCur_empty _
  have long : length (writeCur (empty : Buffer) (content packed)) = length packed := by
    rw [← AutoBuffer.length_content, copied, AutoBuffer.length_content]
  rw [copied, long]
  exact Ledger.parse_getData width packed

/-- The size limit holds exactly when the sum does not wrap and the cast length holds each accepted packet. -/
theorem sizeCap (out : Unpacked Buffer) (header : 12 ≤ length packed) (fresh : out.body = empty) :
    Capped width packed out ↔
      SumFits width packed ∧
        (declaredSize packed ≤ 2 ^ 20 → declaredSize packed ≤ length packed →
          declaredSize packed ≤ castLength width packed ∧ castLength width packed ≤ length packed) := by
  have sum : declaredLen packed + 12 = declaredSize packed := declaredLen_add header
  have least : 12 ≤ declaredSize packed := Nat.le_add_right 12 _
  unfold Capped
  by_cases fits : SumFits width packed
  · have exact_ : width.wrap (declaredLen packed + 12) = declaredSize packed := by
      rw [sum, wrap_declaredSize fits]
    rw [and_iff_right fits]
    by_cases large : 2 ^ 20 < declaredSize packed
    · have rejected := longlinkUnpack_false width packed out (by omega) (by rw [exact_]; exact large)
      apply iff_of_true
      · intro result accepted
        rw [accepted] at rejected
        contradiction
      · intro small
        omega
    · by_cases missing : length packed < declaredSize packed
      · have waiting := longlinkUnpack_continue width packed out (by omega) (by rw [exact_]; omega)
          (by rw [exact_]; exact missing)
        apply iff_of_true
        · intro result accepted
          rw [accepted] at waiting
          contradiction
        · intro _ present
          omega
      · have advanced : length (move packed (declaredSize packed)) + 12 ≤ length packed := by
          rw [← AutoBuffer.length_content (move _ _), AutoBuffer.content_move, List.length_drop,
            AutoBuffer.length_content]
          omega
        rw [longlinkUnpack_ok width packed out (by omega) (by rw [exact_]; omega) (by rw [exact_]; omega), exact_,
          fresh]
        constructor
        · intro capped _ _
          obtain ⟨_, _, _, _, read⟩ := capped _ rfl
          rw [parse_writeCur_empty] at read
          by_contra short
          rw [if_neg short] at read
          contradiction
        · intro inside result accepted
          obtain ⟨_, rfl⟩ := Prod.mk.inj accepted
          refine ⟨rfl, by omega, by omega, advanced, ?_⟩
          rw [parse_writeCur_empty, if_pos (inside (by omega) (by omega))]
  · have wrapped : width.wrap (declaredLen packed + 12) < 12 := by
      rw [sum]
      exact wrap_declaredSize_of_wrapped fits
    apply iff_of_false
    · intro capped
      have claimed := (capped _ (longlinkUnpack_ok width packed out (by omega) (by omega) (by omega))).1
      simp only at claimed
      omega
    · intro sized
      exact fits sized.1

/-- This buffer holds a whole header with the given length field and no body. -/
def bareHeader (len : UInt32) : ByteBuffer := ByteBuffer.ofBytes (frameBytes 10000 len [])

/-- A frame with a body and a byte of the next one behind it is accepted within the limit. -/
theorem sizeCap_body :
    Capped .bits32 (ByteBuffer.ofBytes (frameBytes 10000 2 [104, 105] ++ [0xaf])) Unpacked.fresh :=
  (sizeCap Unpacked.fresh (by decide) rfl).mpr (by decide)

/-- The length 2^32-12 wraps to an accepted packet of no bytes in the 32-bit build. -/
theorem sizeCap_wrapped :
    (longlinkUnpack .bits32 (bareHeader 0xFFFFFFF4) Unpacked.fresh).1 = .ok ∧
      (longlinkUnpack .bits32 (bareHeader 0xFFFFFFF4) Unpacked.fresh).2.packageLen = 0 ∧
      ¬Capped .bits32 (bareHeader 0xFFFFFFF4) Unpacked.fresh := by
  have accepted : (longlinkUnpack .bits32 (bareHeader 0xFFFFFFF4) Unpacked.fresh).1 = .ok := by decide
  have stalled : (longlinkUnpack .bits32 (bareHeader 0xFFFFFFF4) Unpacked.fresh).2.packageLen = 0 := by decide
  refine ⟨accepted, stalled, ?_⟩
  intro capped
  have claimed : (longlinkUnpack .bits32 (bareHeader 0xFFFFFFF4) Unpacked.fresh).2.packageLen =
      declaredSize (bareHeader 0xFFFFFFF4) := (capped _ (Prod.ext accepted rfl)).1
  rw [stalled, declaredSize] at claimed
  omega

end MarsWrapper
