import MarsWrapper.Tasks.CorruptFrames

namespace MarsWrapper

open Foundation AutoBufferApi

variable {Buffer : Type}

/-- The push handler calls the push listener once with these data, and the listener sends messages meanwhile. -/
def Delivers [AutoBufferApi Buffer] (width : SizeT) (state : State) (body : Buffer) (sends : List SendRequest)
    (listener : Listener) (data : List UInt8) : Prop :=
  ∃ next, state.onPush width body (fun current => State.sendAll width current sends) = some next ∧
    next.pushes = state.pushes ++ [(listener, data)]

namespace Ledger

/-- A message that a listener sends calls no push listener. -/
theorem pushes_sentAll (width : SizeT) (ledger : Ledger) (requests : List SendRequest) :
    (ledger.sentAll width requests).pushes = ledger.pushes := by
  induction requests generalizing ledger with
  | nil => rfl
  | cons request later ih => exact (ih (ledger.sent width request)).trans rfl

end Ledger

variable [AutoBuffer Buffer] (width : SizeT)

/-- The cast keeps every length whose low 32 bits stay below the sign bit, up to multiples of 2^32. -/
theorem castLength_of_mod_lt {buffer : Buffer} (low : length buffer % 2 ^ 32 < 2 ^ 31) :
    castLength width buffer = length buffer % 2 ^ 32 := by
  have cast : toInt (length buffer) = (length buffer % 2 ^ 32 : Nat) := by
    unfold toInt
    rw [Int.bmod_def]
    omega
  rw [castLength, cast, width.ofInt_natCast (by omega)]

/-- The cast keeps the low 32 bits of every length. -/
theorem castLength_mod (buffer : Buffer) : castLength width buffer % 2 ^ 32 = length buffer % 2 ^ 32 := by
  have low := width.ofInt_mod (toInt (length buffer))
  rw [toInt_mod] at low
  unfold castLength
  omega

/-- The cast bytes of the buffer are the payload only by the accident of a multiple of 2^32 trailing bytes. -/
theorem take_castLength_iff {packed : Buffer} (frame : Frame) (later : List UInt8)
    (head : content packed = frame.bytes ++ later) :
    (12 + castLength width packed < 2 ^ 32 ∧ (content packed).take (castLength width packed) = frame.body) ↔
      (12 + later.length) % 2 ^ 32 = 0 ∧ frame.body <+: frame.bytes := by
  have fits := frame.fits
  have long : length packed = 12 + frame.body.length + later.length := by
    rw [← AutoBuffer.length_content, head, List.length_append, Frame.length_bytes, Frame.size]
  have within : frame.body.length ≤ frame.bytes.length := by
    rw [Frame.length_bytes, Frame.size]
    omega
  have taken (count : Nat) (small : count = frame.body.length) :
      (content packed).take count = frame.bytes.take frame.body.length := by
    rw [head, small, List.take_append_of_le_length within]
  constructor
  · intro delivered
    obtain ⟨small, equal⟩ := delivered
    have modulo := castLength_mod width packed
    have count : castLength width packed = frame.body.length := by
      have inside := @castLength_le Buffer _ width packed (by omega)
      have sized := congrArg List.length equal
      rw [List.length_take, AutoBuffer.length_content] at sized
      omega
    refine ⟨by omega, ?_⟩
    rw [List.prefix_iff_eq_take, ← taken _ count, equal]
  · intro accident
    obtain ⟨multiple, lead⟩ := accident
    have count : castLength width packed = frame.body.length := by
      rw [castLength_of_mod_lt width (by omega)]
      omega
    refine ⟨by omega, ?_⟩
    rw [taken _ count]
    exact (List.prefix_iff_eq_take.mp lead).symm

/-- The listener hears the first bytes of the whole buffer, as many as the cast length counts. -/
theorem delivers_iff {state : State} (owned : Owned state []) {listener : Listener}
    (registered : state.pushListener = some listener) (body : Buffer) (sends : List SendRequest)
    (valid : ∀ request ∈ sends, request.Valid) (data : List UInt8) :
    Delivers width state body sends listener data ↔
      12 + castLength width body < 2 ^ 32 ∧ (content body).take (castLength width body) = data := by
  have callback : CallbackRefines (fun current => State.sendAll width current sends)
      (fun current => Ledger.sendAll width current sends) :=
    fun held current holds => holds.sendAll_refines width sends
  have pushed := owned.onPush_refines width callback body
  refine (pushed.exists_iff fun next => next.pushes = state.pushes ++ [(listener, data)]).trans ?_
  rw [Ledger.onPush_eq, show state.ledger.pushListener = some listener from registered]
  by_cases fits : 12 + castLength width body < 2 ^ 32
  · rw [if_pos fits, and_iff_right fits]
    simp only [Ledger.sendAll_valid width _ sends valid]
    constructor
    · intro delivered
      obtain ⟨next, reached, heard⟩ := delivered
      obtain rfl := Option.some.inj reached
      rw [Ledger.pushes_sentAll] at heard
      change state.pushes ++ [(listener, (content body).take (castLength width body))] = _ at heard
      exact (Prod.mk.inj (List.singleton_inj.mp (List.append_cancel_left heard))).2
    · intro same
      refine ⟨_, rfl, ?_⟩
      rw [Ledger.pushes_sentAll, ← same]
      rfl
  · rw [if_neg fits]
    apply iff_of_false
    · intro delivered
      obtain ⟨_, reached, _⟩ := delivered
      contradiction
    · intro condition
      exact fits condition.1

/-- An accepting verdict comes from the return code zero and the output variables. -/
theorem longlinkUnpack_of_verdict {packed : Buffer} {size : Nat} {out : Unpacked Buffer}
    (verdict : unpackVerdict width packed = .accept size out) :
    (longlinkUnpack width packed Unpacked.fresh).1 = .ok ∧ (unpacked width packed).seq = out.seq := by
  rw [unpackVerdict] at verdict
  split at verdict
  next result code =>
    obtain ⟨_, rfl⟩ := StreamLoop.Verdict.accept.inj verdict
    rw [unpacked, code]
    exact ⟨rfl, rfl⟩
  · contradiction
  · contradiction

/-- Every push frame is accepted with its id, and the listener hears exactly its payload only by accident. -/
theorem pushDelivery (state : State) (reachable : State.Reachable Buffer width state) {listener : Listener}
    (registered : state.pushListener = some listener) (frame : Frame) (pushId : longlinkIspush frame.messageId = true)
    (later : List UInt8) (packed : Buffer) (head : content packed = frame.bytes ++ later) (sends : List SendRequest)
    (valid : ∀ request ∈ sends, request.Valid) :
    (longlinkUnpack width packed Unpacked.fresh).1 = .ok ∧ longlinkIspush (unpacked width packed).seq = true ∧
      (Delivers width state (unpacked width packed).body sends listener frame.body ↔
        (12 + later.length) % 2 ^ 32 = 0 ∧ frame.body <+: frame.bytes) := by
  obtain ⟨accepted, seq⟩ := longlinkUnpack_of_verdict width (unpackVerdict_frame width packed frame later head)
  have copied := content_unpacked_body width packed accepted
  refine ⟨accepted, by rw [seq, pushId], ?_⟩
  rw [delivers_iff width reachable.owned.1 registered _ sends valid, castLength_unpacked_body width copied, copied,
    take_castLength_iff width frame later head]

/-- The push listener three is registered. -/
def listeningState : State := State.initial.registerPushListener (some 3)

theorem listeningState_reachable (width : SizeT) : State.Reachable ByteBuffer width listeningState :=
  ⟨[(Event.registerPushListener (some 3)).quiet], rfl⟩

/-- Behind an empty push the listener hears an empty payload only when almost four gigabytes follow. -/
theorem pushDelivery_trailing :
    Delivers .bits64 listeningState
      (unpacked .bits64 (ByteBuffer.ofBytes (frameBytes 5 0 [] ++ List.replicate 4294967284 0))).body [] 3 [] :=
  (pushDelivery .bits64 listeningState (listeningState_reachable .bits64) rfl ⟨5, [], by decide⟩ (by decide)
    (List.replicate 4294967284 0) _ (ByteBuffer.content_ofBytes _) [] (by simp)).2.2.mpr
      ⟨by rw [List.length_replicate]; decide, List.nil_prefix⟩

/-- The listener hears the header in front of the payload, and the bytes behind it. The parser of the response route
finds the payload in the same buffer. -/
theorem pushDelivery_wholeBuffer :
    (longlinkUnpack .bits64 (ByteBuffer.ofBytes (frameBytes 5 1 [105] ++ [9])) Unpacked.fresh).1 = .ok ∧
      (ImMessage.empty.parse .bits64 (content (unpacked .bits64 (ByteBuffer.ofBytes (frameBytes 5 1 [105] ++ [9]))).body)
        14).bind (fun parsed => parsed.2.getData) = some [105] ∧
      Delivers .bits64 listeningState (unpacked .bits64 (ByteBuffer.ofBytes (frameBytes 5 1 [105] ++ [9]))).body [] 3
        [0xaf, 0xbe, 0xad, 0xde, 5, 0, 0, 0, 1, 0, 0, 0, 105, 9] ∧
      ¬Delivers .bits64 listeningState (unpacked .bits64 (ByteBuffer.ofBytes (frameBytes 5 1 [105] ++ [9]))).body [] 3
        [105] := by
  have owned := (listeningState_reachable .bits64).owned.1
  have body : content (unpacked .bits64 (ByteBuffer.ofBytes (frameBytes 5 1 [105] ++ [9]))).body =
      [0xaf, 0xbe, 0xad, 0xde, 5, 0, 0, 0, 1, 0, 0, 0, 105, 9] := by decide
  have heard := delivers_iff .bits64 owned (show listeningState.pushListener = some 3 from rfl)
    (unpacked .bits64 (ByteBuffer.ofBytes (frameBytes 5 1 [105] ++ [9]))).body [] (by simp)
  refine ⟨by decide, by decide, ?_, ?_⟩
  · rw [heard, body]
    decide
  · rw [heard, body]
    decide

end MarsWrapper
