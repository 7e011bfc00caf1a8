import MarsWrapper.Ledger.Numbering

namespace MarsWrapper

open Foundation AutoBufferApi

/-- Only response buffers have to be complete. -/
def Event.Complete {Buffer : Type} [AutoBufferApi Buffer] : Event Buffer → Prop
  | .buf2Resp _ inbuffer => CompleteFrame inbuffer
  | _ => True

instance {Buffer : Type} [AutoBufferApi Buffer] : (event : Event Buffer) → Decidable event.Complete
  | .buf2Resp _ inbuffer => inferInstanceAs (Decidable (CompleteFrame inbuffer))
  | .sendMessage _ | .registerPushListener _ | .onPush _ | .req2Buf _ _ | .onTaskEnd _ _ _ =>
    inferInstanceAs (Decidable True)

namespace Ledger

variable {Buffer : Type}

/-- A quiet event has one of these effects. -/
inductive QuietStep [AutoBufferApi Buffer] (width : SizeT) (ledger : Ledger) :
    Event Buffer → Answer Buffer → Ledger → Prop where
  | sendMessage (request : SendRequest) (message : ImMessage)
      (encoded : ImMessage.ofData width ledger.messageId request.body (toInt request.size.toNat) = some message) :
      QuietStep width ledger (.sendMessage request) (.sendMessage 0)
        ((ledger.takeId.store width message ledger.messageId request).startTask ledger.messageId)
  | registerPushListener (listener : Option Listener) :
      QuietStep width ledger (.registerPushListener listener) .registerPushListener
        {ledger with pushListener := listener}
  | unheardPush (body : Buffer) (fits : 12 + castLength width body < 2 ^ 32) (silent : ledger.pushListener = none) :
      QuietStep width ledger (.onPush body) .onPush ledger.takeId
  | heardPush (body : Buffer) (fits : 12 + castLength width body < 2 ^ 32) (listener : Listener)
      (listening : ledger.pushListener = some listener) :
      QuietStep width ledger (.onPush body) .onPush
        (ledger.pushed listener ((content body).take (castLength width body)))
  | req2Buf (taskid : UInt32) (outbuffer written : Buffer) (done : Bool)
      (written_eq : ledger.req2Buf width taskid outbuffer = some (done, written)) :
      QuietStep width ledger (.req2Buf taskid outbuffer) (.req2Buf done written) ledger
  | buf2Resp (taskid : UInt32) (inbuffer : Buffer) :
      QuietStep width ledger (.buf2Resp taskid inbuffer)
        (.buf2Resp (if ledger.listenerOf taskid = none then kTaskFailHandleDefault else kTaskFailHandleNoError))
        {ledger with calls := ledger.calls ++ ledger.notices taskid (.onResponse (frameData inbuffer))}
  | onTaskEnd (taskid : UInt32) (errorType errorCode : Int) :
      QuietStep width ledger (.onTaskEnd taskid errorType errorCode) (.onTaskEnd 0)
        (Ledger.remove {ledger with calls := ledger.calls ++ ledger.notices taskid (endCall errorType errorCode)}
          taskid)

variable [AutoBuffer Buffer] {width : SizeT} {ledger next : Ledger} {event : Event Buffer} {answer : Answer Buffer}

/-- A response is accepted exactly when its task has a listener. -/
theorem QuietStep.answer_buf2Resp {taskid : UInt32} {inbuffer : Buffer}
    (effect : QuietStep width ledger (.buf2Resp taskid inbuffer) answer next) :
    answer = .buf2Resp
      (if ledger.listenerOf taskid = none then kTaskFailHandleDefault else kTaskFailHandleNoError) := by
  cases effect
  rfl

@[simp] theorem sendAll_nil : ledger.sendAll width [] = some ledger := rfl

/-- A response to a silent or unknown task calls nobody. -/
theorem step_buf2Resp {taskid : UInt32} {inbuffer : Buffer} (complete : CompleteFrame inbuffer) :
    ledger.step width (Event.buf2Resp taskid inbuffer).quiet =
      some (.buf2Resp (if ledger.listenerOf taskid = none then kTaskFailHandleDefault else kTaskFailHandleNoError),
        {ledger with calls := ledger.calls ++ ledger.notices taskid (.onResponse (frameData inbuffer))}) := by
  simp only [step, Event.quiet, buf2Resp_valid width ledger taskid inbuffer complete, sendAll_nil]
  cases listening : ledger.listenerOf taskid with
  | none =>
      rw [notices_of_silent listening, List.append_nil]
      rfl
  | some listener => rfl

/-- The end of a silent or unknown task calls nobody, and its entry goes in any case. -/
theorem step_onTaskEnd {taskid : UInt32} {errorType errorCode : Int} :
    ledger.step width (Event.onTaskEnd taskid errorType errorCode : Event Buffer).quiet =
      some (.onTaskEnd 0, Ledger.remove
        {ledger with calls := ledger.calls ++ ledger.notices taskid (endCall errorType errorCode)} taskid) := by
  simp only [step, Event.quiet, onTaskEnd_eq Buffer, sendAll_nil]
  cases listening : ledger.listenerOf taskid with
  | none =>
      rw [notices_of_silent listening, List.append_nil]
      rfl
  | some listener => rfl

/-- These are all effects of a quiet event. -/
theorem step_quiet_iff (complete : event.Complete) :
    ledger.step width event.quiet = some (answer, next) ↔ QuietStep width ledger event answer next := by
  cases event with
  | sendMessage request =>
      simp only [step, Event.quiet, sendMessage_eq, Option.bind_eq_bind, Option.bind_map]
      constructor
      · intro stepped
        obtain ⟨message, encoded, same⟩ := Option.bind_eq_some_iff.mp stepped
        obtain ⟨rfl, rfl⟩ := Prod.mk.inj (Option.some.inj same)
        exact .sendMessage request message encoded
      · rintro ⟨⟩
        rename_i message encoded
        rw [encoded]
        rfl
  | registerPushListener listener =>
      constructor
      · intro stepped
        obtain ⟨rfl, rfl⟩ := Prod.mk.inj (Option.some.inj stepped)
        exact .registerPushListener listener
      · rintro ⟨⟩
        rfl
  | onPush body =>
      simp only [step, Event.quiet, onPush_eq, sendAll_nil]
      constructor
      · intro stepped
        split at stepped
        · next fits =>
          cases listening : ledger.pushListener with
          | none =>
              rw [listening] at stepped
              obtain ⟨rfl, rfl⟩ := Prod.mk.inj (Option.some.inj stepped)
              exact .unheardPush body fits listening
          | some listener =>
              rw [listening] at stepped
              obtain ⟨rfl, rfl⟩ := Prod.mk.inj (Option.some.inj stepped)
              exact .heardPush body fits listener listening
        · cases stepped
      · intro effect
        cases effect with
        | unheardPush _ fits silent => rw [if_pos fits, silent]; rfl
        | heardPush _ fits listener listening => rw [if_pos fits, listening]; rfl
  | req2Buf taskid outbuffer =>
      simp only [step, Event.quiet, Option.bind_eq_bind]
      constructor
      · intro stepped
        obtain ⟨⟨done, written⟩, written_eq, same⟩ := Option.bind_eq_some_iff.mp stepped
        obtain ⟨rfl, rfl⟩ := Prod.mk.inj (Option.some.inj same)
        exact .req2Buf taskid outbuffer written done written_eq
      · rintro ⟨⟩
        rename_i written done written_eq
        rw [written_eq]
        rfl
  | buf2Resp taskid inbuffer =>
      rw [step_buf2Resp complete]
      constructor
      · intro stepped
        obtain ⟨rfl, rfl⟩ := Prod.mk.inj (Option.some.inj stepped)
        exact .buf2Resp taskid inbuffer
      · rintro ⟨⟩
        rfl
  | onTaskEnd taskid errorType errorCode =>
      rw [step_onTaskEnd]
      constructor
      · intro stepped
        obtain ⟨rfl, rfl⟩ := Prod.mk.inj (Option.some.inj stepped)
        exact .onTaskEnd taskid errorType errorCode
      · rintro ⟨⟩
        rfl

end Ledger

end MarsWrapper
