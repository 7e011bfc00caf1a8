import MarsWrapper.Ledger.Accounting
import MarsWrapper.Tasks.ListenerProtocol

namespace MarsWrapper

open Foundation AutoBufferApi

/-- The code of a listener keeps the account, whatever its caller holds. -/
def KeepsAccount (base : List Nat) (inCallback : State → Option State) : Prop :=
  ∀ (held : List Nat) (state : State), Accounted base state held →
    Ensures (fun next => Accounted base next held) (inCallback state)

namespace Accounted

variable {state : State} {base held : List Nat} (accounted : Accounted base state held) (width : SizeT)
include accounted

theorem sendMessage (request : SendRequest) :
    Ensures (fun sent => Accounted base sent.2 held) (state.sendMessage width request) := by
  have constructs : Ensures (fun made => Accounted base made.2 (made.1.1 :: held))
      (state.constructMessage width request) := by
    rw [State.constructMessage]
    apply (accounted.newImMessage width request.body (toInt request.size.toNat)).bind
    intro created kept
    apply Ensures.skip
    intro message _
    apply Ensures.skip
    intro taskid _
    exact Ensures.result kept
  rw [State.sendMessage]
  apply constructs.bind
  intro made kept
  have stored := kept.storeMessage width made.1.2 request
  exact Ensures.result (stored.of_same rfl rfl rfl rfl)

theorem sendAll (requests : List SendRequest) :
    Ensures (fun next => Accounted base next held) (State.sendAll width state requests) := by
  refine Ensures.run (fun current request kept => ?_) requests accounted
  exact (kept.sendMessage width request).map fun _ sent => sent

variable {Buffer : Type} [AutoBufferApi Buffer] {inCallback : State → Option State}
  (callback : KeepsAccount base inCallback)
include callback

/-- The temporary message of a push is deleted behind the listener. -/
theorem onPush (body : Buffer) :
    Ensures (fun next => Accounted base next held) (state.onPush width body inCallback) := by
  rw [State.onPush]
  apply (accounted.newImMessage width (content body) (toInt (length body))).bind
  intro created kept
  apply Ensures.skip
  intro message _
  cases created.2.pushListener with
  | none => exact kept.deleteImMessage
  | some pushListener =>
      apply Ensures.skip
      intro valid _
      cases valid with
      | false => exact kept.deleteImMessage
      | true =>
          apply Ensures.skip
          intro data _
          let notified : State :=
            { created.2 with
              pushListener := some pushListener
              pushes := created.2.pushes ++ [(pushListener, data)] }
          have told := callback _ notified (kept.of_same rfl rfl rfl rfl)
          apply told.bind
          exact fun next kept => kept.deleteImMessage

/-- The parsed message of a response is deleted behind the listener. -/
theorem buf2Resp (taskid : UInt32) (inbuffer : Buffer) :
    Ensures (fun answered => Accounted base answered.2 held)
      (state.buf2Resp width taskid inbuffer inCallback) := by
  rw [State.buf2Resp]
  cases state.getTaskConext taskid with
  | none => exact Ensures.result accounted
  | some ctx =>
      apply Ensures.skip
      intro context _
      cases context.respCallback with
      | none => exact Ensures.result accounted
      | some listener =>
          apply Ensures.skip
          intro parsed _
          apply Ensures.skip
          intro message _
          apply Ensures.skip
          intro data _
          let notified : State :=
            { state with
              messages := state.messages.alloc parsed.2
              calls := state.calls ++ [⟨ctx, taskid, listener, .onResponse data⟩] }
          have told := callback _ notified ((accounted.allocMessage parsed.2).of_same rfl rfl rfl rfl)
          apply told.bind
          intro next kept
          apply kept.deleteImMessage.bind
          exact fun next kept => Ensures.result kept

omit width in
theorem onTaskEnd (taskid : UInt32) (errorType errorCode : Int) :
    Ensures (fun answered => Accounted base answered.2 held)
      (state.onTaskEnd taskid errorType errorCode inCallback) := by
  rw [State.onTaskEnd]
  cases state.getTaskConext taskid with
  | none => exact Ensures.result accounted
  | some ctx =>
      apply Ensures.skip
      intro context _
      have removes (current : State) (kept : Accounted base current held) :
          Ensures (fun answered => Accounted base answered.2 held)
            ((current.removeTaskContext taskid).bind fun next => some ((0 : Int), next)) := by
        apply (kept.removeTaskContext taskid).bind
        exact fun next kept => Ensures.result kept
      cases context.respCallback with
      | none => exact removes state accounted
      | some listener =>
          have notifies (call : Call) : Ensures (fun next => Accounted base next held)
              (state.notify call inCallback) := callback _ _ (accounted.of_same rfl rfl rfl rfl)
          by_cases ended : errorType = kEctOK
          · simp only [if_pos ended]
            exact (notifies _).bind removes
          · simp only [if_neg ended]
            exact (notifies _).bind removes

omit callback

/-- Every turn keeps the account. -/
theorem next (turn : Turn Buffer) :
    Ensures (fun next => Accounted base next held) (state.next width turn) := by
  have callback : KeepsAccount base fun current => State.sendAll width current turn.sends :=
    fun held current kept => kept.sendAll width turn.sends
  have steps : Ensures (fun answered => Accounted base answered.2 held) (state.step width turn) := by
    rw [State.step]
    cases turn.event with
    | sendMessage request =>
        exact (accounted.sendMessage width request).bind fun sent kept => Ensures.result kept
    | registerPushListener listener => exact Ensures.result (accounted.of_same rfl rfl rfl rfl)
    | onPush body => exact (accounted.onPush width callback body).bind fun next kept => Ensures.result kept
    | req2Buf taskid outbuffer =>
        apply Ensures.skip
        intro answer _
        exact Ensures.result accounted
    | buf2Resp taskid inbuffer =>
        exact (accounted.buf2Resp width callback taskid inbuffer).bind fun answered kept => Ensures.result kept
    | onTaskEnd taskid errorType errorCode =>
        exact (accounted.onTaskEnd callback taskid errorType errorCode).bind fun answered kept => Ensures.result kept
  exact steps.map fun _ kept => kept

theorem run (turns : List (Turn Buffer)) :
    Ensures (fun final => Accounted base final held) (state.run width turns) :=
  Ensures.run (fun _ turn kept => kept.next width turn) turns accounted

end Accounted

/-- In every run a live context is stored under one key or was displaced by a reused id, and a live message belongs to
one live context. What is displaced once stays allocated for ever and is never stored again. -/
theorem leaks {Buffer : Type} [AutoBufferApi Buffer] {width : SizeT} {state final : State}
    (reachable : State.Reachable Buffer width state) {turns : List (Turn Buffer)}
    (ran : state.run width turns = some final) :
    (∀ ctx, final.contexts.Live ctx ↔
        (∃ taskid, final.taskId2TaskCtx taskid = some ctx) ∨ ctx ∈ final.leaked) ∧
      (∀ msg, final.messages.Live msg ↔ ∃ ctx, final.Carries ctx msg) ∧
      (∀ taskid taskid' ctx, final.taskId2TaskCtx taskid = some ctx → final.taskId2TaskCtx taskid' = some ctx →
        taskid = taskid') ∧
      (∀ ctx ctx' msg, final.Carries ctx msg → final.Carries ctx' msg → ctx = ctx') ∧
      final.leaked.Nodup ∧
      ∀ ctx ∈ state.leaked, final.contexts.Live ctx ∧ ∀ taskid, final.taskId2TaskCtx taskid ≠ some ctx := by
  obtain ⟨earlier, reached⟩ := reachable
  have before := (Accounted.initial.run width earlier).holds state reached
  have start : Accounted state.leaked state [] := {before with leaked_first := List.prefix_refl _}
  have after := (start.run width turns).holds final ran
  refine ⟨after.contexts, fun msg => ?_, fun _ _ _ => after.keyed_once, fun _ _ _ => after.carried_once,
    after.leaked_once, fun ctx member => ?_⟩
  · rw [after.messages msg, or_iff_right (List.not_mem_nil)]
  · have still := after.leaked_first.subset member
    exact ⟨(after.contexts ctx).mpr (Or.inr still), fun taskid key => after.not_leaked key still⟩

/-- Pushes that nobody hears only take ids. -/
theorem Ledger.after_pushes {Buffer : Type} [AutoBufferApi Buffer] (width : SizeT) (body : Buffer) (count : Nat)
    (ledger : Ledger) (deaf : ledger.pushListener = none) :
    (List.replicate count (Event.onPush body).quiet).foldl (Ledger.after width) ledger =
      { ledger with
        messageId := ledger.messageId + UInt32.ofNat count
        constructed := ledger.constructed + count } := by
  induction count generalizing ledger with
  | zero =>
      change ledger = {ledger with messageId := ledger.messageId + 0}
      rw [UInt32.add_zero]
  | succ count ih =>
      have pushed : ledger.after width (Event.onPush body).quiet = ledger.takeId := by
        rw [after, turnSends, Event.quiet, opened, deaf]
        rfl
      rw [List.replicate_succ, List.foldl_cons, pushed, ih ledger.takeId deaf]
      change { ledger with
        messageId := ledger.messageId + 1 + UInt32.ofNat count
        constructed := ledger.constructed + 1 + count } = _
      rw [UInt32.add_assoc, UInt32.add_comm 1, Nat.add_assoc, Nat.add_comm 1, UInt32.ofNat_add]
      rfl

/-- The counter wraps around while the first task waits, and the second task gets its id. -/
def wrappedRun : List (Turn ByteBuffer) :=
  (Event.sendMessage ⟨[], 0, none⟩).quiet ::
    (List.replicate 4294967295 (Event.onPush (ByteBuffer.ofBytes [])).quiet ++
      [(Event.sendMessage ⟨[], 0, none⟩).quiet])

theorem valid_of_mem_wrappedRun : ∀ turn ∈ wrappedRun, turn.Valid := by
  intro turn member
  obtain rfl | member := List.mem_cons.mp member
  · decide
  · obtain push | send := List.mem_append.mp member
    · rw [List.eq_of_mem_replicate push]
      decide
    · rw [List.mem_singleton.mp send]
      decide

theorem exists_wrapped : ∃ state, State.initial.run .bits64 wrappedRun = some state ∧ state.leaked = [0] := by
  obtain ⟨state, ran, same, _⟩ := State.run_valid .bits64 wrappedRun valid_of_mem_wrappedRun
  rw [wrappedRun, List.foldl_cons, List.foldl_append, Ledger.after_pushes _ _ _ _ rfl] at same
  have stored : state.stored = [⟨10000, none, none⟩, ⟨10000, none, some 0⟩] := by
    change state.ledger.stored = _
    rw [same]
    rfl
  refine ⟨state, ran, ?_⟩
  rw [State.leaked, stored]
  rfl

/-- After the end of the only task the first context is still allocated. -/
theorem leaks_wrapped :
    ∃ state final, State.Reachable ByteBuffer .bits64 state ∧
      state.run .bits64 [(Event.onTaskEnd 10000 0 0 : Event ByteBuffer).quiet] = some final ∧
      final.contexts.Live 0 ∧ ∀ taskid, final.taskId2TaskCtx taskid ≠ some 0 := by
  obtain ⟨state, reached, leaked⟩ := exists_wrapped
  have valid : ∀ turn ∈ wrappedRun ++ [(Event.onTaskEnd 10000 0 0).quiet], turn.Valid := by
    intro turn member
    obtain earlier | last := List.mem_append.mp member
    · exact valid_of_mem_wrappedRun turn earlier
    · rw [List.mem_singleton.mp last]
      decide
  obtain ⟨final, ran, _⟩ := State.run_valid_append .bits64 valid reached
  have reachable : State.Reachable ByteBuffer .bits64 state := ⟨wrappedRun, reached⟩
  obtain ⟨_, _, _, _, _, kept⟩ := leaks reachable ran
  have lost : 0 ∈ state.leaked := by
    rw [leaked]
    exact List.mem_singleton_self 0
  exact ⟨state, final, reachable, ran, kept 0 lost⟩

end MarsWrapper
