import MarsWrapper.Model.TaskEngine
import MarsWrapper.Tasks.RoundTrip
import MarsWrapper.Ledger.StoreFrame

namespace MarsWrapper

open Foundation AutoBufferApi TaskEngineApi

/-- The keys of the store are the tasks of the engine, and every live object belongs to one of them. -/
structure InStep {Engine : Type} [TaskEngineApi Engine] (session : Session Engine) : Prop where
  keys : ∀ taskid, (session.state.getTaskConext taskid).isSome = hasTask session.engine taskid
  contexts : ∀ ctx context, session.state.contexts.read ctx = some context →
    ∃ taskid, session.state.getTaskConext taskid = some ctx ∧ hasTask session.engine taskid = true
  messages : ∀ msg message, session.state.messages.read msg = some message →
    ∃ taskid ctx context, Linked session.state taskid ctx context msg message ∧ hasTask session.engine taskid = true

variable {Engine Buffer : Type} [TaskEngine Engine] [AutoBuffer Buffer] {width : SizeT} {session following : Session Engine}

namespace InStep

theorem initial : InStep (Session.initial : Session Engine) where
  keys taskid := (TaskEngine.hasTask_idle taskid).symm
  contexts _ _ read := by cases read
  messages _ _ read := by cases read

/-- A step that keeps the store and the list keeps both in step. -/
theorem of_same (inStep : InStep session) {state : State} {engine : Engine} (same : SameStore session.state state)
    (tasks : ∀ taskid, hasTask engine taskid = hasTask session.engine taskid) : InStep ⟨state, engine⟩ where
  keys taskid := by
    rw [State.getTaskConext, same.keys, tasks]
    exact inStep.keys taskid
  contexts ctx context read := by
    rw [same.contexts] at read
    obtain ⟨taskid, key, listed⟩ := inStep.contexts ctx context read
    refine ⟨taskid, ?_, by rw [tasks, listed]⟩
    rw [State.getTaskConext, same.keys]
    exact key
  messages msg message read := by
    rw [same.messages] at read
    obtain ⟨taskid, ctx, context, link, listed⟩ := inStep.messages msg message read
    refine ⟨taskid, ctx, context, ⟨?_, ?_, link.msg_eq, ?_⟩, by rw [tasks, listed]⟩
    · rw [same.keys, link.key]
    · rw [same.contexts, link.context_live]
    · rw [same.messages, link.message_live]

/-- A complete send adds one key with both of its objects, and one task. -/
theorem send (width : SizeT) (inStep : InStep session) (request : SendRequest) (message : ImMessage)
    (fresh : session.state.getTaskConext session.state.messageId = none) :
    InStep
      ⟨(State.storeMessage width
          { session.state with
            messageId := session.state.messageId + 1
            constructed := session.state.constructed + 1
            messages := session.state.messages.alloc message }
          session.state.messages.next session.state.messageId request).startTask session.state.messageId,
        startTask session.engine (messageTask session.state.messageId)⟩ := by
  have own : (messageTask session.state.messageId).taskid = session.state.messageId := rfl
  have kept {taskid : UInt32} {ctx : Nat} (key : session.state.getTaskConext taskid = some ctx) :
      taskid ≠ session.state.messageId := by
    rintro rfl
    rw [fresh] at key
    contradiction
  have listed_old {taskid : UInt32} (listed : hasTask session.engine taskid = true) :
      hasTask (startTask session.engine (messageTask session.state.messageId)) taskid = true := by
    rw [TaskEngine.hasTask_startTask, listed, Bool.or_true]
  have listed_new : hasTask (startTask session.engine (messageTask session.state.messageId))
      session.state.messageId = true := by
    rw [TaskEngine.hasTask_startTask, own, beq_self_eq_true, Bool.true_or]
  refine ⟨?_, ?_, ?_⟩
  · intro taskid
    by_cases same : taskid = session.state.messageId
    · rw [same, listed_new]
      change (Function.update session.state.taskId2TaskCtx _ (some _) _).isSome = true
      rw [Function.update_self, Option.isSome_some]
    · have different : session.state.messageId ≠ taskid := Ne.symm same
      rw [TaskEngine.hasTask_startTask, own, beq_eq_false_iff_ne.mpr different, Bool.false_or, ← inStep.keys]
      change (Function.update session.state.taskId2TaskCtx _ (some _) _).isSome = _
      rw [Function.update_of_ne same]
      rfl
  · intro ctx context read
    by_cases new : ctx = session.state.contexts.next
    · exact ⟨session.state.messageId, new ▸ Function.update_self .., listed_new⟩
    · obtain ⟨taskid, key, listed⟩ := inStep.contexts ctx context ((Heap.read_alloc_of_ne new).symm.trans read)
      exact ⟨taskid, (Function.update_of_ne (kept key) ..).trans key, listed_old listed⟩
  · intro msg other read
    by_cases new : msg = session.state.messages.next
    · subst new
      exact ⟨session.state.messageId, session.state.contexts.next, _,
        ⟨Function.update_self .., Heap.read_alloc_self, rfl, read⟩, listed_new⟩
    · obtain ⟨taskid, ctx, context, link, listed⟩ :=
        inStep.messages msg other ((Heap.read_alloc_of_ne new).symm.trans read)
      exact ⟨taskid, ctx, context,
        ⟨(Function.update_of_ne (kept link.key) ..).trans link.key, Heap.read_alloc_of_read link.context_live,
          link.msg_eq, read⟩, listed_old listed⟩

/-- The end of a task removes its key, both of its objects, and the task. -/
theorem finish (inStep : InStep session) (owned : Owned session.state []) {taskid : UInt32} {ctx msg : Nat}
    {context : TaskContext} {message : ImMessage} (link : Linked session.state taskid ctx context msg message)
    (calls : List Call) :
    InStep
      ⟨{ session.state with
          calls := calls
          messages := session.state.messages.erase msg
          taskId2TaskCtx := Function.update session.state.taskId2TaskCtx taskid none
          contexts := session.state.contexts.erase ctx },
        endTask session.engine taskid⟩ := by
  have listed_old {other : UInt32} (different : other ≠ taskid) (listed : hasTask session.engine other = true) :
      hasTask (endTask session.engine taskid) other = true := by
    rw [TaskEngine.hasTask_endTask, listed, Bool.and_true, bne_iff_ne]
    exact different.symm
  refine ⟨?_, ?_, ?_⟩
  · intro other
    by_cases same : other = taskid
    · rw [same, TaskEngine.hasTask_endTask, bne_self_eq_false, Bool.false_and]
      change (Function.update session.state.taskId2TaskCtx _ none _).isSome = false
      rw [Function.update_self, Option.isSome_none]
    · have different : taskid ≠ other := Ne.symm same
      rw [TaskEngine.hasTask_endTask, bne_iff_ne.mpr different, Bool.true_and, ← inStep.keys]
      change (Function.update session.state.taskId2TaskCtx _ none _).isSome = _
      rw [Function.update_of_ne same]
      rfl
  · intro ctx' context' read
    have apart : ctx' ≠ ctx := by
      rintro rfl
      cases Heap.read_erase_self.symm.trans read
    obtain ⟨other, key, listed⟩ := inStep.contexts ctx' context' ((Heap.read_erase_of_ne apart).symm.trans read)
    have different : other ≠ taskid := by
      rintro rfl
      exact apart (Option.some.inj (key.symm.trans link.key))
    exact ⟨other, (Function.update_of_ne different ..).trans key, listed_old different listed⟩
  · intro msg' message' read
    have apart : msg' ≠ msg := by
      rintro rfl
      cases Heap.read_erase_self.symm.trans read
    obtain ⟨other, ctx', context', own, listed⟩ :=
      inStep.messages msg' message' ((Heap.read_erase_of_ne apart).symm.trans read)
    have different : other ≠ taskid := by
      rintro rfl
      exact apart (own.unique link).2.2.1
    have context_apart : ctx' ≠ ctx := by
      rintro rfl
      exact different (owned.context_apart own.key link.key)
    exact ⟨other, ctx', context',
      ⟨(Function.update_of_ne different ..).trans own.key, (Heap.read_erase_of_ne context_apart).trans own.context_live,
        own.msg_eq, read⟩, listed_old different listed⟩

end InStep

/-- The invariant of a session contains the ownership of its store. -/
structure Coupled (session : Session Engine) : Prop where
  owned : Owned session.state []
  inStep : InStep session

/-- The engine commands of a call are the tasks that the call started. -/
theorem startTasks_of_same {engine : Engine} {state next : State} (same : next.started = state.started) :
    Session.startTasks engine state next = engine := by
  rw [Session.startTasks, same, List.drop_length, List.foldl_nil]

omit [AutoBuffer Buffer] in
/-- Only the end of a task takes a task off the list. -/
theorem closeTask_of_not_end (engine : Engine) {event : Event Buffer}
    (unended : ∀ taskid errorType errorCode, event ≠ .onTaskEnd taskid errorType errorCode) :
    Session.closeTask engine event = engine := by
  cases event with
  | onTaskEnd taskid errorType errorCode => exact (unended taskid errorType errorCode rfl).elim
  | _ => rfl

/-- Every permitted call keeps the store and the list in step. -/
theorem Coupled.call (coupled : Coupled session) {event : Event Buffer} (permitted : session.Permitted (.call event))
    {state : State} (ran : session.state.next width event.quiet = some state) :
    InStep ⟨state, Session.closeTask (Session.startTasks session.engine session.state state) event⟩ := by
  obtain ⟨owned, inStep⟩ := coupled
  have other (unsent : ∀ request, event ≠ .sendMessage request)
      (unended : ∀ taskid errorType errorCode, event ≠ .onTaskEnd taskid errorType errorCode) :
      InStep ⟨state, Session.closeTask (Session.startTasks session.engine session.state state) event⟩ := by
    obtain ⟨same, _, started⟩ := State.next_frame ran unsent unended
    rw [startTasks_of_same started, closeTask_of_not_end session.engine unended]
    exact inStep.of_same same fun _ => rfl
  cases event with
  | sendMessage request =>
      obtain ⟨message, rfl⟩ := State.next_sendMessage_frame ran
      have sending := inStep.send width request message permitted
      have started (middle : State) (same : middle.started = session.state.started) :
          Session.startTasks session.engine session.state (middle.startTask session.state.messageId) =
            startTask session.engine (messageTask session.state.messageId) := by
        rw [Session.startTasks, State.startTask, same, List.drop_left]
        rfl
      rw [← started _ rfl] at sending
      exact sending
  | onTaskEnd taskid errorType errorCode =>
      have stored : (session.state.getTaskConext taskid).isSome = true := by
        rw [inStep.keys]
        exact permitted
      obtain ⟨ctx, key⟩ := Option.isSome_iff_exists.mp stored
      obtain ⟨context, msg, message, link, _⟩ := owned.linked taskid ctx key
      obtain ⟨calls, ended⟩ := @State.next_onTaskEnd_of_linked Buffer _ width _ _ _ _ _ _ errorType errorCode link
      obtain rfl := Option.some.inj (ended.symm.trans ran)
      rw [startTasks_of_same]
      · exact inStep.finish owned link calls
      · rfl
  | registerPushListener listener => exact other nofun (fun _ _ _ equal => by cases equal)
  | onPush body => exact other nofun (fun _ _ _ equal => by cases equal)
  | req2Buf taskid outbuffer => exact other nofun (fun _ _ _ equal => by cases equal)
  | buf2Resp taskid inbuffer => exact other nofun (fun _ _ _ equal => by cases equal)

/-- An orderly step is permitted, and as a reset it finds an idle engine. -/
def Orderly (session : Session Engine) (step : SessionStep Buffer) : Prop :=
  session.Permitted step ∧ (step = .reset → ∀ taskid, hasTask session.engine taskid = false)

/-- Every orderly step keeps the store and the list in step. -/
theorem Coupled.next (coupled : Coupled session) {step : SessionStep Buffer} (orderly : Orderly session step)
    (stepped : session.next width step = some following) : Coupled following := by
  obtain ⟨permitted, idle⟩ := orderly
  cases step with
  | redoTasks =>
      obtain rfl := Option.some.inj stepped
      exact ⟨coupled.owned, coupled.inStep.of_same ⟨rfl, rfl, fun _ => rfl⟩ (TaskEngine.hasTask_redoTasks _)⟩
  | reset =>
      obtain rfl := Option.some.inj stepped
      refine ⟨coupled.owned, coupled.inStep.of_same ⟨rfl, rfl, fun _ => rfl⟩ ?_⟩
      intro taskid
      rw [TaskEngine.hasTask_reset, idle rfl]
  | call event =>
      obtain ⟨state, ran, same⟩ := Option.bind_eq_some_iff.mp stepped
      obtain rfl := Option.some.inj same
      exact ⟨(coupled.owned.next_refines width event.quiet).kept state ran, coupled.call permitted ran⟩

/-- In every run the store and the task list stay in step exactly when every reset finds an idle engine. -/
theorem engineTasks (width : SizeT) (steps : List (SessionStep Buffer))
    (permitted : ∀ taken ∈ PartialRun.taken (Session.next width) (Session.initial : Session Engine) steps,
      taken.1.Permitted taken.2) :
    (∀ reached ∈ PartialRun.visited (Session.next width) (Session.initial : Session Engine) steps, InStep reached) ↔
      ∀ taken ∈ PartialRun.taken (Session.next width) (Session.initial : Session Engine) steps,
        taken.2 = .reset → ∀ taskid, hasTask taken.1.engine taskid = false := by
  constructor
  · intro inStep taken member command taskid
    obtain ⟨next, stepped, before, after⟩ := PartialRun.visited_of_taken member
    rw [command] at stepped
    obtain rfl := Option.some.inj stepped
    have kept := (inStep _ before).keys taskid
    have cleared := (inStep _ after).keys taskid
    rw [← kept, cleared]
    exact TaskEngine.hasTask_reset taken.1.engine taskid
  · intro idle reached member
    have keeps (session : Session Engine) (step : SessionStep Buffer) (following : Session Engine)
        (coupled : Coupled session) (orderly : Orderly session step)
        (stepped : session.next width step = some following) : Coupled following := coupled.next orderly stepped
    have orderly : ∀ taken ∈ PartialRun.taken (Session.next width) (Session.initial : Session Engine) steps,
        Orderly taken.1 taken.2 := fun taken inside => ⟨permitted taken inside, idle taken inside⟩
    have start : Coupled (Session.initial : Session Engine) := ⟨Owned.initial, InStep.initial⟩
    exact (PartialRun.visited_invariant keeps start orderly reached member).inStep

/-- A message is sent, the tasks are redone, the task ends, and the engine is reset. -/
def tidySteps : List (SessionStep ByteBuffer) :=
  [.call (.sendMessage ⟨[104], 1, some 7⟩), .redoTasks, .call (.req2Buf 10000 empty), .call (.onTaskEnd 10000 0 0),
    .reset]

/-- A reset behind the end of the only task keeps the store and the list in step. -/
theorem engineTasks_tidy :
    ∃ session : Session (List Task),
      PartialRun.run (Session.next .bits64) Session.initial tidySteps = some session ∧ InStep session := by
  have finished : (PartialRun.run (Session.next .bits64) (Session.initial : Session (List Task)) tidySteps).isSome := by
    decide
  obtain ⟨session, ran⟩ := Option.isSome_iff_exists.mp finished
  refine ⟨session, ran, ?_⟩
  apply (@engineTasks (List Task) ByteBuffer _ _ .bits64 tidySteps (by decide)).mpr
  · have idle : (PartialRun.taken (Session.next .bits64) (Session.initial : Session (List Task)) tidySteps).all
        (fun taken => match taken.2 with
          | .reset => taken.1.engine.isEmpty
          | _ => true) = true := by decide
    intro taken member command taskid
    have checked := List.all_eq_true.mp idle taken member
    rw [command] at checked
    rw [List.isEmpty_iff.mp checked]
    rfl
  · exact PartialRun.mem_visited_iff.mpr ⟨tidySteps, [], (List.append_nil _).symm, ran⟩

/-- A reset before the end of the task leaves its key, its context and its message behind. -/
theorem engineTasks_reset :
    ∃ session : Session (List Task),
      PartialRun.run (Session.next .bits64) Session.initial
        [SessionStep.call (.sendMessage ⟨[104], 1, some 7⟩ : Event ByteBuffer), .reset] = some session ∧
      session.state.getTaskConext 10000 = some 0 ∧ (session.state.contexts.read 0).isSome = true ∧
      (session.state.messages.read 0).isSome = true ∧ hasTask session.engine 10000 = false ∧ ¬InStep session := by
  have seen : (PartialRun.run (Session.next .bits64) (Session.initial : Session (List Task))
      [SessionStep.call (.sendMessage ⟨[104], 1, some 7⟩ : Event ByteBuffer), .reset]).map (fun session =>
        (session.state.getTaskConext 10000, (session.state.contexts.read 0).isSome,
          (session.state.messages.read 0).isSome, hasTask session.engine 10000)) =
      some (some 0, true, true, false) := by decide
  obtain ⟨session, ran, drifted⟩ := Option.map_eq_some_iff.mp seen
  simp only [Prod.mk.injEq] at drifted
  obtain ⟨key, context, message, absent⟩ := drifted
  refine ⟨session, ran, key, context, message, absent, ?_⟩
  intro inStep
  have listed := inStep.keys 10000
  rw [key, absent] at listed
  contradiction

end MarsWrapper
