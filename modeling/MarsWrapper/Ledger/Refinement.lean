import MarsWrapper.Ledger.Ownership

namespace MarsWrapper

open Foundation AutoBufferApi

/-- The states of two related results have one ledger, and the concrete one keeps its ownership. -/
abbrev Refines (held : List Nat) : Option State → Option Ledger → Prop :=
  Simulates State.ledger fun state => Owned state held

/-- Here both results also give the same value to the caller. -/
abbrev RefinesWith (A : Type) (held : List Nat) : Option (A × State) → Option (A × Ledger) → Prop :=
  Simulates (Prod.map id State.ledger) fun result => Owned result.2 held

/-- A listener's code refines its abstract counterpart, whatever its caller holds. -/
def CallbackRefines (inCallback : State → Option State) (abstractCallback : Ledger → Option Ledger) : Prop :=
  ∀ (held : List Nat) (state : State), Owned state held → Refines held (inCallback state) (abstractCallback state.ledger)

namespace Owned

variable {state : State} {held : List Nat} (owned : Owned state held) (width : SizeT)
include owned

theorem refines_self {ledger : Ledger} (same : state.ledger = ledger) : Refines held (some state) (some ledger) :=
  ⟨congrArg some same, fun _ equal => Option.some.inj equal ▸ owned⟩

theorem refinesWith_self {A : Type} (value : A) {ledger : Ledger} (same : state.ledger = ledger) :
    RefinesWith A held (some (value, state)) (some (value, ledger)) :=
  ⟨congrArg (fun current => some (value, current)) same, fun _ equal => Option.some.inj equal ▸ owned⟩

theorem sendMessage_refines (request : SendRequest) :
    RefinesWith Int held (state.sendMessage width request)
      ((state.ledger.sendMessage width request).map (Prod.mk 0)) := by
  cases encoded : ImMessage.ofData width state.messageId request.body (toInt request.size.toNat) with
  | none =>
      have failed : state.newImMessage width request.body (toInt request.size.toNat) = none := by
        rw [State.newImMessage, encoded]
        rfl
      have failed' : state.ledger.sendMessage width request = none := by
        rw [Ledger.sendMessage]
        exact congrArg (Option.bind · _) encoded
      rw [State.sendMessage, State.constructMessage, failed, failed']
      exact Simulates.failure
  | some message =>
      obtain ⟨next, constructed, holds, live, taken⟩ := owned.newImMessage width encoded
      have abstractly : state.ledger.sendMessage width request = message.getMessageId.bind fun taskid =>
          some ((state.ledger.takeId.store width message taskid request).startTask taskid) := by
        rw [Ledger.sendMessage]
        exact congrArg (Option.bind · _) encoded
      rw [State.sendMessage, State.constructMessage, constructed, abstractly]
      simp only [Option.bind_eq_bind, Option.bind_some, live]
      cases message.getMessageId with
      | none => exact Simulates.failure
      | some taskid =>
          obtain ⟨stored, same⟩ := holds.storeMessage width live taskid request
          simp only [← taken, Option.pure_def, Option.bind_some, Option.map_some, ← same]
          have started : Owned ((next.storeMessage width state.messages.next taskid request).startTask taskid) held :=
            stored.of_same rfl rfl rfl
          exact started.refinesWith_self 0 rfl

theorem sendAll_refines (requests : List SendRequest) :
    Refines held (State.sendAll width state requests) (state.ledger.sendAll width requests) := by
  refine Simulates.run (fun current request holds => ?_) requests state owned
  have sent := holds.sendMessage_refines width request
  rw [show current.ledger.sendMessage width request =
    ((current.ledger.sendMessage width request).map (Prod.mk (0 : Int))).map Prod.snd by
      rw [Option.map_map]
      exact Option.map_id'.symm]
  exact sent.map fun result kept => ⟨kept, rfl⟩

variable {Buffer : Type} [AutoBufferApi Buffer] {inCallback : State → Option State}
  {abstractCallback : Ledger → Option Ledger}

omit owned in
theorem delete_refines {msg : Nat} (owned : Owned state (msg :: held)) :
    Refines held (state.deleteImMessage msg) (some state.ledger) := by
  obtain ⟨next, deleted, holds, same, _⟩ := owned.deleteImMessage
  rw [deleted]
  exact holds.refines_self same

theorem onPush_refines (callback : CallbackRefines inCallback abstractCallback) (body : Buffer) :
    Refines held (state.onPush width body inCallback) (state.ledger.onPush width body abstractCallback) := by
  cases encoded : ImMessage.ofData width state.messageId (content body) (toInt (length body)) with
  | none =>
      have failed : state.newImMessage width (content body) (toInt (length body)) = none := by
        rw [State.newImMessage, encoded]
        rfl
      have failed' : state.ledger.onPush width body abstractCallback = none := by
        rw [Ledger.onPush]
        exact congrArg (Option.bind · _) encoded
      rw [State.onPush, failed, failed']
      exact Simulates.failure
  | some message =>
      obtain ⟨next, constructed, holds, live, taken⟩ := owned.newImMessage width encoded
      have heard : next.ledger.pushListener = state.ledger.pushListener := by
        rw [taken]
        rfl
      change next.pushListener = state.ledger.pushListener at heard
      change ImMessage.ofData width state.ledger.messageId _ _ = _ at encoded
      rw [State.onPush, constructed, Ledger.onPush_of_encoded encoded, ← heard, ← taken]
      simp only [Option.bind_eq_bind, Option.bind_some, live]
      cases listening : next.pushListener with
      | none => exact holds.delete_refines
      | some pushListener =>
          apply Simulates.bind_same message.isValid
          intro valid _
          cases valid with
          | false => exact holds.delete_refines
          | true =>
              apply Simulates.bind_same message.getData
              intro data _
              let notified : State :=
                {next with pushListener := some pushListener, pushes := next.pushes ++ [(pushListener, data)]}
              have same : notified.ledger = state.ledger.pushed pushListener data := by
                rw [listening] at heard
                change { next.ledger with
                  pushListener := some pushListener
                  pushes := next.ledger.pushes ++ [(pushListener, data)] } = _
                rw [taken, heard]
                rfl
              have called := callback _ notified (holds.of_same rfl rfl rfl)
              rw [same] at called
              rw [← Option.bind_fun_some (abstractCallback _)]
              exact called.bind fun result kept => kept.delete_refines

/-- The request handler gives the same bytes on both sides. -/
theorem req2Buf_eq (taskid : UInt32) (outbuffer : Buffer) :
    state.req2Buf width taskid outbuffer = state.ledger.req2Buf width taskid outbuffer := by
  cases key : state.getTaskConext taskid with
  | none =>
      have absent : state.ledger.tasks taskid = none := State.entry_of_none key
      rw [State.req2Buf, key, Ledger.req2Buf, absent]
  | some ctx =>
      obtain ⟨context, msg, message, link, _⟩ := owned.linked taskid ctx key
      have present : state.ledger.tasks taskid = _ := State.entry_of_linked link
      rw [State.req2Buf, key, Ledger.req2Buf, present]
      simp only [Option.bind_eq_bind, link.context_live, Option.bind_some, link.msg_eq, link.message_live]

theorem buf2Resp_refines (callback : CallbackRefines inCallback abstractCallback) (taskid : UInt32)
    (inbuffer : Buffer) :
    RefinesWith Int held (state.buf2Resp width taskid inbuffer inCallback)
      (state.ledger.buf2Resp width taskid inbuffer abstractCallback) := by
  cases key : state.getTaskConext taskid with
  | none =>
      have absent : state.ledger.tasks taskid = none := State.entry_of_none key
      rw [State.buf2Resp, key, Ledger.buf2Resp, absent]
      exact owned.refinesWith_self (-1) rfl
  | some ctx =>
      obtain ⟨context, msg, message, link, _⟩ := owned.linked taskid ctx key
      have present : state.ledger.tasks taskid = _ := State.entry_of_linked link
      rw [State.buf2Resp, key, Ledger.buf2Resp, present]
      simp only [Option.bind_eq_bind, link.context_live, Option.bind_some]
      cases context.respCallback with
      | none => exact owned.refinesWith_self (-1) rfl
      | some listener =>
          apply Simulates.bind_same _
          intro parsed _
          obtain ⟨holds, same⟩ := owned.allocMessage parsed.2
          simp only [Heap.read_alloc_self, Option.bind_some]
          apply Simulates.bind_same _
          intro data _
          let call : Call := ⟨ctx, taskid, listener, .onResponse data⟩
          let notified : State :=
            {state with messages := state.messages.alloc parsed.2, calls := state.calls ++ [call]}
          have called := callback _ notified (holds.of_same rfl rfl rfl)
          have same' : notified.ledger = {state.ledger with calls := state.ledger.calls ++ [call]} :=
            congrArg (fun ledger : Ledger => {ledger with calls := ledger.calls ++ [call]}) same
          rw [same'] at called
          apply called.bind
          intro result kept
          obtain ⟨next, deleted, holds', same'', _⟩ := kept.deleteImMessage
          rw [deleted]
          exact holds'.refinesWith_self 0 same''

/-- The removal refines the erasure of the entry. -/
theorem remove_refines (taskid : UInt32) :
    RefinesWith Int held ((state.removeTaskContext taskid).bind fun next => pure (0, next))
      (pure (0, state.ledger.remove taskid)) := by
  obtain ⟨next, removed, holds, same⟩ := owned.removeTaskContext taskid
  rw [removed]
  exact holds.refinesWith_self 0 same

theorem onTaskEnd_refines (callback : CallbackRefines inCallback abstractCallback) (taskid : UInt32)
    (errorType errorCode : Int) :
    RefinesWith Int held (state.onTaskEnd taskid errorType errorCode inCallback)
      (state.ledger.onTaskEnd taskid errorType errorCode abstractCallback) := by
  cases key : state.getTaskConext taskid with
  | none =>
      have absent : state.ledger.tasks taskid = none := State.entry_of_none key
      rw [State.onTaskEnd, key, Ledger.onTaskEnd, absent]
      exact owned.refinesWith_self 0 rfl
  | some ctx =>
      obtain ⟨context, msg, message, link, _⟩ := owned.linked taskid ctx key
      have present : state.ledger.tasks taskid = _ := State.entry_of_linked link
      rw [State.onTaskEnd, key, Ledger.onTaskEnd, present]
      simp only [Option.bind_eq_bind, link.context_live, Option.bind_some]
      cases context.respCallback with
      | none => simpa only using owned.remove_refines taskid
      | some listener =>
          have reported (call : ListenerCall) :
              RefinesWith Int held
                ((state.notify ⟨ctx, taskid, listener, call⟩ inCallback).bind fun current =>
                  (current.removeTaskContext taskid).bind fun next => pure (0, next))
                ((state.ledger.notify ⟨ctx, taskid, listener, call⟩ abstractCallback).bind fun current =>
                  pure (0, current.remove taskid)) := by
            let notified : State := {state with calls := state.calls ++ [⟨ctx, taskid, listener, call⟩]}
            have called := callback held notified (owned.of_same rfl rfl rfl)
            exact called.bind fun result kept => kept.remove_refines taskid
          by_cases ended : errorType = kEctOK
          · simpa only [Ledger.endCall, if_pos ended] using reported .onSuccess
          · simpa only [Ledger.endCall, if_neg ended] using reported (.onError errorCode "request failed.")

/-- Each turn gives the same answer on both sides. -/
theorem step_refines (turn : Turn Buffer) :
    RefinesWith (Answer Buffer) held (state.step width turn) (state.ledger.step width turn) := by
  have callback : CallbackRefines (fun current => State.sendAll width current turn.sends)
      (fun current => Ledger.sendAll width current turn.sends) :=
    fun held current holds => holds.sendAll_refines width turn.sends
  obtain ⟨event, sends⟩ := turn
  cases event with
  | sendMessage request =>
      have answered := (owned.sendMessage_refines width request).bind
        (g := fun result => some ((.sendMessage result.1 : Answer Buffer), result.2)) fun result kept =>
          kept.refinesWith_self (Answer.sendMessage result.1) rfl
      rw [Option.bind_map] at answered
      exact answered
  | registerPushListener listener =>
      have registered : Owned (state.registerPushListener listener) held := owned.of_same rfl rfl rfl
      exact registered.refinesWith_self Answer.registerPushListener rfl
  | onPush body =>
      have pushed := owned.onPush_refines width callback body
      exact pushed.bind (f := fun next => some ((.onPush : Answer Buffer), next))
        (g := fun next => some ((.onPush : Answer Buffer), next)) fun next kept =>
          kept.refinesWith_self Answer.onPush rfl
  | req2Buf taskid outbuffer =>
      simp only [State.step, Ledger.step, owned.req2Buf_eq width taskid outbuffer]
      exact Simulates.bind_same _ fun answer _ => owned.refinesWith_self _ rfl
  | buf2Resp taskid inbuffer =>
      exact (owned.buf2Resp_refines width callback taskid inbuffer).bind fun result kept =>
        kept.refinesWith_self (Answer.buf2Resp result.1) rfl
  | onTaskEnd taskid errorType errorCode =>
      exact (owned.onTaskEnd_refines callback taskid errorType errorCode).bind fun result kept =>
        kept.refinesWith_self (Answer.onTaskEnd result.1) rfl

theorem next_refines (turn : Turn Buffer) : Refines held (state.next width turn) (state.ledger.next width turn) :=
  (owned.step_refines width turn).map fun _ kept => ⟨kept, rfl⟩

/-- The wrapper refines the ledger on every run. -/
theorem run_refines (turns : List (Turn Buffer)) :
    Refines held (state.run width turns) (state.ledger.run width turns) :=
  Simulates.run (fun _ turn holds => holds.next_refines width turn) turns state owned

end Owned

end MarsWrapper
