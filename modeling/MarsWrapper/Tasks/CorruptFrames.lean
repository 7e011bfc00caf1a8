import MarsWrapper.Tasks.RoundTrip

namespace MarsWrapper

open Foundation AutoBufferApi

variable {Buffer : Type}

section Routes

variable [AutoBufferApi Buffer]

/-- The unpacker gives these values for an accepted packet. -/
def unpacked (width : SizeT) (packed : Buffer) : Unpacked Buffer := (longlinkUnpack width packed Unpacked.fresh).2

def hasMagic (packed : Buffer) : Prop := wordAt (content packed) 0 = ImMessage.magicNum

instance (packed : Buffer) : Decidable (hasMagic packed) := inferInstanceAs (Decidable (_ = _))

/-- The push route calls the push listener once for a frame with the magic number, and never for another frame. -/
def PushChecked (width : SizeT) (state : State) (packed : Buffer) : Prop :=
  ∃ next, state.onPush width (unpacked width packed).body some = some next ∧
    next.calls = state.calls ∧ ∃ heard, next.pushes = state.pushes ++ heard ∧
      if hasMagic packed then heard.map Prod.fst = state.pushListener.toList else heard = []

/-- The response route answers zero and calls the listener once for a frame with the magic number. It answers a
failure and calls nobody for another frame. -/
def ResponseChecked (width : SizeT) (state : State) (packed : Buffer) (listener : Listener) : Prop :=
  ∃ answer, state.buf2Resp width (unpacked width packed).seq (unpacked width packed).body some = some answer ∧
    answer.2.pushes = state.pushes ∧ ∃ heard, answer.2.calls = state.calls ++ heard ∧
      if hasMagic packed then
        answer.1 = kTaskFailHandleNoError ∧
          ∃ context data, heard = [⟨context, (unpacked width packed).seq, listener, .onResponse data⟩]
      else answer.1 ≠ kTaskFailHandleNoError ∧ heard = []

end Routes

variable [AutoBuffer Buffer] (width : SizeT)

/-- An accepted packet carries a copy of the receive buffer. -/
theorem content_unpacked_body (packed : Buffer) (accepted : (longlinkUnpack width packed Unpacked.fresh).1 = .ok) :
    content (unpacked width packed).body = content packed := by
  have copied : (unpacked width packed).body = writeCur empty (content packed) := by
    rw [unpacked]
    rw [longlinkUnpack] at accepted ⊢
    simp only at accepted ⊢
    split
    · rfl
    · next other =>
        rw [if_neg other] at accepted
        exact absurd accepted other
  rw [copied, AutoBuffer.content_writeCur_empty]

theorem castLength_unpacked_body {packed : Buffer}
    (copied : content (unpacked width packed).body = content packed) :
    castLength width (unpacked width packed).body = castLength width packed := by
  rw [castLength, castLength, ← AutoBuffer.length_content, copied, AutoBuffer.length_content]

/-- The push route is right exactly when nobody listens or the frame has the magic number. -/
theorem pushChecked_iff {state : State} (owned : Owned state []) (packed : Buffer)
    (copied : content (unpacked width packed).body = content packed) :
    PushChecked width state packed ↔
      12 + castLength width packed < 2 ^ 32 ∧ (state.pushListener = none ∨ hasMagic packed) := by
  have pushed := owned.onPush_refines width callbackRefines_some (unpacked width packed).body
  refine (pushed.exists_iff fun next => next.calls = state.calls ∧ ∃ heard, next.pushes = state.pushes ++ heard ∧
    if hasMagic packed then heard.map Prod.fst = state.pushListener.toList else heard = []).trans ?_
  rw [Ledger.onPush_eq, castLength_unpacked_body width copied, show state.ledger.pushListener = state.pushListener from rfl]
  by_cases fits : 12 + castLength width packed < 2 ^ 32
  · rw [if_pos fits, and_iff_right fits]
    cases state.pushListener with
    | none =>
        refine iff_of_true ⟨_, rfl, rfl, [], (List.append_nil _).symm, ?_⟩ (Or.inl rfl)
        split <;> rfl
    | some listener =>
        constructor
        · rintro ⟨next, reached, _, heard, pushes, checked⟩
          obtain rfl := Option.some.inj reached
          obtain rfl := List.append_cancel_left pushes
          by_cases magic : hasMagic packed
          · exact Or.inr magic
          · rw [if_neg magic] at checked
            cases checked
        · rintro (absent | magic)
          · cases absent
          · exact ⟨_, rfl, rfl, _, rfl, by rw [if_pos magic]; rfl⟩
  · rw [if_neg fits]
    apply iff_of_false
    · intro checked
      obtain ⟨_, reached, _⟩ := checked
      cases reached
    · intro trusted
      exact fits trusted.1

/-- The response route is right exactly when the frame has the magic number and holds its declared bytes. -/
theorem responseChecked_iff {state : State} (owned : Owned state []) (packed : Buffer)
    (copied : content (unpacked width packed).body = content packed) (listener : Listener)
    (listening : state.ledger.listenerOf (unpacked width packed).seq = some listener) :
    ResponseChecked width state packed listener ↔
      (12 + (wordAt (content packed) 8).toNat ≤ castLength width packed ∧
        castLength width packed ≤ length packed) ∧ hasMagic packed := by
  have answered := owned.buf2Resp_refines width callbackRefines_some (unpacked width packed).seq
    (unpacked width packed).body
  refine (answered.exists_iff fun answer => answer.2.pushes = state.pushes ∧
    ∃ heard, answer.2.calls = state.calls ++ heard ∧
      if hasMagic packed then
        answer.1 = kTaskFailHandleNoError ∧
          ∃ context data, heard = [⟨context, (unpacked width packed).seq, listener, .onResponse data⟩]
      else answer.1 ≠ kTaskFailHandleNoError ∧ heard = []).trans ?_
  have long : length (unpacked width packed).body = length packed := by
    rw [← AutoBuffer.length_content, copied, AutoBuffer.length_content]
  obtain ⟨entry, _, _, noticed⟩ :=
    Ledger.notices_of_listening listening (.onResponse (frameData (unpacked width packed).body))
  rw [Ledger.buf2Resp_eq, listening, castLength_unpacked_body width copied, long, copied]
  by_cases whole : 12 + (wordAt (content packed) 8).toNat ≤ castLength width packed ∧
      castLength width packed ≤ length packed
  · simp only [if_pos whole, Ledger.opened, noticed]
    rw [and_iff_right whole]
    constructor
    · rintro ⟨answer, reached, _, heard, calls, checked⟩
      obtain rfl := Option.some.inj reached
      by_contra magic
      rw [if_neg magic] at checked
      exact checked.1 rfl
    · intro magic
      exact ⟨_, rfl, rfl, _, rfl, by rw [if_pos magic]; exact ⟨rfl, _, _, rfl⟩⟩
  · simp only [if_neg whole]
    apply iff_of_false
    · intro checked
      obtain ⟨_, reached, _⟩ := checked
      cases reached
    · intro trusted
      exact whole trusted.1

/-- On each route an accepted frame is checked exactly under the condition of its route. -/
theorem corruptFrames (state : State) (reachable : State.Reachable Buffer width state) (packed : Buffer)
    (accepted : (longlinkUnpack width packed Unpacked.fresh).1 = .ok) :
    (longlinkIspush (unpacked width packed).seq = true →
      (PushChecked width state packed ↔
        12 + castLength width packed < 2 ^ 32 ∧ (state.pushListener = none ∨ hasMagic packed))) ∧
    (longlinkIspush (unpacked width packed).seq = false →
      ∀ listener, state.ledger.listenerOf (unpacked width packed).seq = some listener →
        (ResponseChecked width state packed listener ↔
          (12 + (wordAt (content packed) 8).toNat ≤ castLength width packed ∧
            castLength width packed ≤ length packed) ∧ hasMagic packed)) := by
  obtain ⟨owned, _⟩ := reachable.owned
  have copied := content_unpacked_body width packed accepted
  exact ⟨fun _ => pushChecked_iff width owned packed copied,
    fun _ listener listening => responseChecked_iff width owned packed copied listener listening⟩

/-- The push listener three is registered, and the listener seven waits for task 10000. -/
def waitingRun : List (Turn ByteBuffer) :=
  [(Event.registerPushListener (some 3)).quiet, (Event.sendMessage ⟨[104], 1, some 7⟩).quiet]

theorem waitingRun_state :
    ∃ state, State.initial.run .bits64 waitingRun = some state ∧ state.ledger.listenerOf 10000 = some 7 ∧
      state.pushListener = some 3 := by
  obtain ⟨state, ran, _⟩ := State.run_valid .bits64 waitingRun (by decide)
  have seen : (State.initial.run .bits64 waitingRun).map
      (fun state => (state.ledger.listenerOf 10000, state.pushListener)) = some (some 7, some 3) := by decide
  rw [ran, Option.map_some] at seen
  obtain ⟨listening, registered⟩ := Prod.mk.inj (Option.some.inj seen)
  exact ⟨state, ran, listening, registered⟩

/-- This is a response to task 10000 with the given first bytes. -/
def responseFrame (magic : List UInt8) : ByteBuffer := ByteBuffer.ofBytes (magic ++ [16, 39, 0, 0, 1, 0, 0, 0, 105])

def pushFrame (magic : List UInt8) : ByteBuffer := ByteBuffer.ofBytes (magic ++ [5, 0, 0, 0, 1, 0, 0, 0, 105])

/-- A response with the magic number is checked. -/
theorem corruptFrames_response :
    ∃ state, State.Reachable ByteBuffer .bits64 state ∧
      ResponseChecked .bits64 state (responseFrame [0xaf, 0xbe, 0xad, 0xde]) 7 := by
  obtain ⟨state, ran, listening, _⟩ := waitingRun_state
  have seq : (unpacked .bits64 (responseFrame [0xaf, 0xbe, 0xad, 0xde])).seq = 10000 := by decide
  refine ⟨state, ⟨waitingRun, ran⟩, ?_⟩
  exact ((corruptFrames .bits64 state ⟨waitingRun, ran⟩ (responseFrame [0xaf, 0xbe, 0xad, 0xde]) (by decide)).2
    (by decide) 7 (by rw [seq, listening])).mpr (by decide)

/-- Both routes hand a frame of zeros to the application. -/
theorem corruptFrames_zeroMagic :
    let response := responseFrame [0, 0, 0, 0]
    let push := pushFrame [0, 0, 0, 0]
    (longlinkUnpack .bits64 response Unpacked.fresh).1 = .ok ∧ (longlinkUnpack .bits64 push Unpacked.fresh).1 = .ok ∧
      ¬hasMagic response ∧ ¬hasMagic push ∧ longlinkIspush (unpacked .bits64 response).seq = false ∧
      longlinkIspush (unpacked .bits64 push).seq = true ∧
      ∃ state, State.Reachable ByteBuffer .bits64 state ∧
        state.ledger.listenerOf (unpacked .bits64 response).seq = some 7 ∧
        ¬ResponseChecked .bits64 state response 7 ∧ ¬PushChecked .bits64 state push := by
  intro response push
  refine ⟨by decide, by decide, by decide, by decide, by decide, by decide, ?_⟩
  obtain ⟨state, ran, listening, registered⟩ := waitingRun_state
  have reachable : State.Reachable ByteBuffer .bits64 state := ⟨waitingRun, ran⟩
  have seq : (unpacked .bits64 response).seq = 10000 := by decide
  rw [← seq] at listening
  refine ⟨state, reachable, listening, ?_, ?_⟩
  · rw [responseChecked_iff .bits64 reachable.owned.1 response (by decide) 7 listening]
    decide
  · rw [pushChecked_iff .bits64 reachable.owned.1 push (by decide), registered]
    decide

end MarsWrapper
