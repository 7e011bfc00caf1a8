import MarsWrapper.Ledger.QuietStep
import MarsWrapper.Tasks.TaskIds

namespace MarsWrapper

open Foundation AutoBufferApi

section Inputs

variable {Buffer : Type}

def Event.sendCount : Event Buffer → Nat
  | .sendMessage _ => 1
  | _ => 0

def sendCount (events : List (Event Buffer)) : Nat := (events.map Event.sendCount).sum

/-- Every push and every send of these events takes one id. -/
def idCount (events : List (Event Buffer)) : Nat := idsTaken (events.flatMap Event.idEvents)

/-- A chosen message is sent without a listener. -/
def Event.silenced (chosen : Nat → Bool) (ordinal : Nat) : Event Buffer → Event Buffer
  | .sendMessage request => .sendMessage {request with callback := if chosen ordinal then none else request.callback}
  | event => event

/-- The messages of a run are chosen by their ordinals. -/
def silence (chosen : Nat → Bool) : Nat → List (Event Buffer) → List (Event Buffer)
  | _, [] => []
  | ordinal, event :: later => event.silenced chosen ordinal :: silence chosen (ordinal + event.sendCount) later

/-- The event allocates the id or ends its task. -/
def Concerns (before : List (Event Buffer)) (taskid : UInt32) : Event Buffer → Prop
  | .sendMessage _ => idOf (idCount before) = taskid
  | .onTaskEnd ended _ _ => ended = taskid
  | _ => False

/-- The last event that concerns the id is the send with this ordinal and this listener. -/
def Owner (before : List (Event Buffer)) (taskid : UInt32) (ordinal : Nat) (callback : Option Listener) : Prop :=
  ∃ earlier request between, before = earlier ++ .sendMessage request :: between ∧
    Concerns earlier taskid (.sendMessage request) ∧
    (∀ first event second, between = first ++ event :: second →
      ¬Concerns (earlier ++ .sendMessage request :: first) taskid event) ∧
    sendCount earlier = ordinal ∧ request.callback = callback

/-- Every response to a waiting task still finds a listener after the replacement. -/
def ResponsesHeard (chosen : Nat → Bool) (events : List (Event Buffer)) : Prop :=
  ∀ before taskid inbuffer after, events = before ++ .buf2Resp taskid inbuffer :: after →
    ∀ ordinal callback, Owner before taskid ordinal callback → callback ≠ none ∧ chosen ordinal = false

theorem sendCount_append (events later : List (Event Buffer)) :
    sendCount (events ++ later) = sendCount events + sendCount later := by
  rw [sendCount, List.map_append, List.sum_append, sendCount, sendCount]

theorem idCount_snoc (events : List (Event Buffer)) (event : Event Buffer) :
    idCount (events ++ [event]) = idCount events + idsTaken event.idEvents := by
  rw [idCount, List.flatMap_append, idsTaken_append, List.flatMap_singleton, idCount]

theorem silence_append (chosen : Nat → Bool) (ordinal : Nat) (events later : List (Event Buffer)) :
    silence chosen ordinal (events ++ later) =
      silence chosen ordinal events ++ silence chosen (ordinal + sendCount events) later := by
  induction events generalizing ordinal with
  | nil => rfl
  | cons event events ih =>
      rw [List.cons_append, silence, ih, silence, sendCount, sendCount, List.map_cons, List.sum_cons, Nat.add_assoc]
      rfl

/-- An event that concerns the id decides its owner, and every other event keeps it. -/
theorem owner_snoc (before : List (Event Buffer)) (event : Event Buffer) (taskid : UInt32) (ordinal : Nat)
    (callback : Option Listener) :
    Owner (before ++ [event]) taskid ordinal callback ↔
      (Concerns before taskid event ∧
        ∃ request, event = .sendMessage request ∧ sendCount before = ordinal ∧ request.callback = callback) ∨
      (¬Concerns before taskid event ∧ Owner before taskid ordinal callback) := by
  constructor
  · rintro ⟨earlier, request, between, split, own, stays, place, listener⟩
    rcases append_singleton_eq_split.mp split with ⟨rfl, rfl, rfl⟩ | ⟨rest, rfl, rfl⟩
    · exact Or.inl ⟨own, request, rfl, place, listener⟩
    · refine Or.inr ⟨stays rest event [] rfl, earlier, request, rest, rfl, own, ?_, place, listener⟩
      rintro first other second rfl
      exact stays first other (second ++ [event]) (by rw [List.append_assoc, List.cons_append])
  · rintro (⟨own, request, rfl, place, listener⟩ | ⟨other, earlier, request, rest, rfl, own, stays, place, listener⟩)
    · refine ⟨before, request, [], rfl, own, fun first event second split => ?_, place, listener⟩
      cases (List.append_eq_nil_iff.mp split.symm).2
    · refine ⟨earlier, request, rest ++ [event], by rw [List.append_assoc, List.cons_append], own, ?_, place, listener⟩
      intro first marked second split
      rcases append_singleton_eq_split.mp split with ⟨rfl, rfl, rfl⟩ | ⟨second, rfl, rfl⟩
      · exact other
      · exact stays first marked second rfl

end Inputs

namespace Ledger

/-- The entries of a ledger are the tasks that the events leave with an owner. -/
structure Tracks {Buffer : Type} (ledger : Ledger) (before : List (Event Buffer)) : Prop where
  messageId : ledger.messageId = idOf (idCount before)
  nextContext : ledger.nextContext = sendCount before
  owner : ∀ taskid ordinal callback, Owner before taskid ordinal callback ↔
    ∃ entry, ledger.tasks taskid = some entry ∧ entry.context = ordinal ∧ entry.respCallback = callback

/-- The second ledger lacks the listeners of the chosen messages and their calls, and nothing else. -/
structure Silenced (chosen : Nat → Bool) (ledger silent : Ledger) : Prop where
  messageId : silent.messageId = ledger.messageId
  nextContext : silent.nextContext = ledger.nextContext
  pushListener : silent.pushListener = ledger.pushListener
  pushes : silent.pushes = ledger.pushes
  tasks : ∀ taskid, silent.tasks taskid = (ledger.tasks taskid).map fun entry =>
    {entry with respCallback := if chosen entry.context then none else entry.respCallback}
  calls : silent.calls = ledger.calls.filter fun call => !chosen call.context

variable {Buffer : Type} {width : SizeT} {ledger next silent : Ledger} {before : List (Event Buffer)}
  {event : Event Buffer} {answer : Answer Buffer} {chosen : Nat → Bool}

theorem Tracks.initial : Tracks Ledger.initial ([] : List (Event Buffer)) where
  messageId := rfl
  nextContext := rfl
  owner taskid ordinal callback := by
    refine ⟨?_, ?_⟩
    · rintro ⟨earlier, request, between, split, _⟩
      cases (List.append_eq_nil_iff.mp split.symm).2
    · rintro ⟨entry, found, _⟩
      cases found

/-- An event that concerns no task changes no owner. -/
theorem Tracks.of_same (tracks : ledger.Tracks before)
    (unconcerned : ∀ taskid, ¬Concerns before taskid event) (free : event.sendCount = 0)
    (messageId : next.messageId = ledger.messageId + UInt32.ofNat (idsTaken event.idEvents))
    (nextContext : next.nextContext = ledger.nextContext) (tasks : next.tasks = ledger.tasks) :
    next.Tracks (before ++ [event]) := by
  refine ⟨?_, ?_, fun taskid ordinal callback => ?_⟩
  · rw [messageId, tracks.messageId, idCount_snoc, idOf, idOf, ← UInt32.ofNat_add, Nat.add_assoc]
  · have none_sent : sendCount [event] = 0 := by rw [sendCount, List.map_singleton, List.sum_singleton, free]
    rw [nextContext, tracks.nextContext, sendCount_append, none_sent, Nat.add_zero]
  · rw [owner_snoc, tasks, ← tracks.owner]
    simp [unconcerned taskid]

/-- Every quiet event moves the owners as it moves the entries. -/
theorem Tracks.step [AutoBuffer Buffer] (tracks : ledger.Tracks before) (effect : QuietStep width ledger event answer next) :
    next.Tracks (before ++ [event]) := by
  cases effect with
  | sendMessage request message encoded =>
      refine ⟨?_, ?_, fun taskid ordinal callback => ?_⟩
      · change ledger.messageId + 1 = _
        rw [tracks.messageId, idCount_snoc, ← idOf_succ]
        rfl
      · change ledger.nextContext + 1 = _
        rw [tracks.nextContext, sendCount_append]
        rfl
      · rw [owner_snoc]
        change _ ↔ ∃ entry, (ledger.takeId.store width message ledger.messageId request).tasks taskid = some entry ∧ _
        by_cases same : taskid = ledger.messageId
        · have concerned : Concerns before taskid (.sendMessage request) := tracks.messageId.symm.trans same.symm
          subst same
          rw [tasks_store_self, ← tracks.nextContext]
          simp only [concerned, true_and, not_true_eq_false, false_and, or_false]
          constructor
          · rintro ⟨own, sent, rfl, rfl⟩
            obtain rfl := Event.sendMessage.inj sent
            exact ⟨_, rfl, rfl, rfl⟩
          · rintro ⟨entry, found, rfl, rfl⟩
            obtain rfl := Option.some.inj found
            exact ⟨request, rfl, rfl, rfl⟩
        · have unconcerned : ¬Concerns before taskid (.sendMessage request) := fun concerned =>
            same (concerned.symm.trans tracks.messageId.symm)
          rw [tasks_store_of_ne _ _ _ _ same]
          simp only [unconcerned, false_and, not_false_eq_true, true_and, false_or]
          exact tracks.owner taskid ordinal callback
  | registerPushListener listener => exact tracks.of_same (fun _ => id) rfl (UInt32.add_zero _).symm rfl rfl
  | unheardPush body fits listening => exact tracks.of_same (fun _ => id) rfl rfl rfl rfl
  | heardPush body fits listener listening => exact tracks.of_same (fun _ => id) rfl rfl rfl rfl
  | req2Buf taskid outbuffer written done written_eq =>
      exact tracks.of_same (fun _ => id) rfl (UInt32.add_zero _).symm rfl rfl
  | buf2Resp taskid inbuffer => exact tracks.of_same (fun _ => id) rfl (UInt32.add_zero _).symm rfl rfl
  | onTaskEnd ended errorType errorCode =>
      refine ⟨?_, ?_, fun taskid ordinal callback => ?_⟩
      · rw [idCount_snoc]
        exact tracks.messageId
      · rw [sendCount_append]
        exact tracks.nextContext
      · rw [owner_snoc]
        by_cases same : taskid = ended
        · subst same
          rw [tasks_remove_self]
          simp [Concerns]
        · rw [tasks_remove_of_ne _ same, ← tracks.owner]
          simp [Concerns, Ne.symm same]

namespace Silenced

theorem initial : Silenced chosen Ledger.initial Ledger.initial := ⟨rfl, rfl, rfl, rfl, fun _ => rfl, rfl⟩

/-- A task keeps its listener unless its message is chosen. -/
theorem listenerOf (silenced : Silenced chosen ledger silent) (taskid : UInt32) :
    silent.listenerOf taskid = (ledger.tasks taskid).bind fun entry =>
      if chosen entry.context then none else entry.respCallback := by
  rw [Ledger.listenerOf, silenced.tasks, Option.bind_map]
  rfl

/-- Exactly the notices of the chosen messages are missing. -/
theorem notices (silenced : Silenced chosen ledger silent) (taskid : UInt32) (call : ListenerCall) :
    silent.notices taskid call = (ledger.notices taskid call).filter fun call => !chosen call.context := by
  rw [Ledger.notices, Ledger.notices, silenced.tasks]
  cases ledger.tasks taskid with
  | none => rfl
  | some entry =>
      cases marked : chosen entry.context <;> cases listening : entry.respCallback <;>
        simp [marked, listening]

theorem notified (silenced : Silenced chosen ledger silent) (taskid : UInt32) (call : ListenerCall) :
    Silenced chosen {ledger with calls := ledger.calls ++ ledger.notices taskid call}
      {silent with calls := silent.calls ++ silent.notices taskid call} := by
  refine ⟨silenced.messageId, silenced.nextContext, silenced.pushListener, silenced.pushes, silenced.tasks, ?_⟩
  rw [List.filter_append, ← silenced.calls, silenced.notices]

variable [AutoBuffer Buffer]

/-- Both ledgers write the same bytes. -/
theorem req2Buf (silenced : Silenced chosen ledger silent) (taskid : UInt32) (outbuffer : Buffer) :
    silent.req2Buf width taskid outbuffer = ledger.req2Buf width taskid outbuffer := by
  rw [Ledger.req2Buf, Ledger.req2Buf, silenced.tasks]
  cases ledger.tasks taskid <;> rfl

/-- The silenced ledger takes the same step, and only a response can get another answer. -/
theorem step (silenced : Silenced chosen ledger silent) (effect : QuietStep width ledger event answer next) :
    ∃ answer' silentNext, QuietStep width silent (event.silenced chosen ledger.nextContext) answer' silentNext ∧
      Silenced chosen next silentNext ∧
      ((∀ taskid inbuffer, event = .buf2Resp taskid inbuffer →
        (silent.listenerOf taskid = none ↔ ledger.listenerOf taskid = none)) → answer' = answer) := by
  cases effect with
  | sendMessage request message encoded =>
      refine ⟨_, _, .sendMessage _ message (silenced.messageId ▸ encoded), ?_, fun _ => rfl⟩
      refine ⟨?_, ?_, silenced.pushListener, silenced.pushes, fun taskid => ?_, silenced.calls⟩
      · exact congrArg (· + 1) silenced.messageId
      · exact congrArg (· + 1) silenced.nextContext
      · change (silent.takeId.store width message silent.messageId _).tasks taskid =
          ((ledger.takeId.store width message ledger.messageId request).tasks taskid).map _
        rw [silenced.messageId]
        by_cases same : taskid = ledger.messageId
        · rw [same, tasks_store_self, tasks_store_self, Option.map_some]
          change some (Entry.mk silent.nextContext _ _ _) = some (Entry.mk ledger.nextContext _ _ _)
          rw [silenced.nextContext]
          rfl
        · rw [tasks_store_of_ne _ _ _ _ same, tasks_store_of_ne _ _ _ _ same]
          exact silenced.tasks taskid
  | registerPushListener listener =>
      exact ⟨_, _, .registerPushListener listener, ⟨silenced.messageId, silenced.nextContext, rfl, silenced.pushes,
        silenced.tasks, silenced.calls⟩, fun _ => rfl⟩
  | unheardPush body fits listening =>
      refine ⟨_, _, .unheardPush body fits (silenced.pushListener.trans listening), ?_, fun _ => rfl⟩
      exact ⟨congrArg (· + 1) silenced.messageId, silenced.nextContext, silenced.pushListener, silenced.pushes,
        silenced.tasks, silenced.calls⟩
  | heardPush body fits listener listening =>
      refine ⟨_, _, .heardPush body fits listener (silenced.pushListener.trans listening), ?_, fun _ => rfl⟩
      exact ⟨congrArg (· + 1) silenced.messageId, silenced.nextContext, silenced.pushListener,
        congrArg (· ++ _) silenced.pushes, silenced.tasks, silenced.calls⟩
  | req2Buf taskid outbuffer written done written_eq =>
      exact ⟨_, _, .req2Buf taskid outbuffer written done ((silenced.req2Buf taskid outbuffer).trans written_eq),
        silenced, fun _ => rfl⟩
  | buf2Resp taskid inbuffer =>
      refine ⟨_, _, .buf2Resp taskid inbuffer, silenced.notified taskid _, fun alike => ?_⟩
      simp only [alike taskid inbuffer rfl]
  | onTaskEnd taskid errorType errorCode =>
      refine ⟨_, _, .onTaskEnd taskid errorType errorCode, ?_, fun _ => rfl⟩
      have told := silenced.notified taskid (endCall errorType errorCode)
      refine ⟨told.messageId, told.nextContext, told.pushListener, told.pushes, fun other => ?_, told.calls⟩
      by_cases same : other = taskid
      · rw [same, tasks_remove_self, tasks_remove_self, Option.map_none]
      · rw [tasks_remove_of_ne _ same, tasks_remove_of_ne _ same]
        exact told.tasks other

end Silenced

end Ledger

section Runs

variable {Buffer : Type} [AutoBuffer Buffer] {width : SizeT} {chosen : Nat → Bool} {before : List (Event Buffer)}
  {event : Event Buffer} {state next : State} {answer : Answer Buffer}

/-- At this event both runs answer alike, and afterwards they have the same keys and the same remaining calls. -/
def TransparentAt (width : SizeT) (chosen : Nat → Bool) (before : List (Event Buffer)) (event : Event Buffer) : Prop :=
  ∃ state silent answer next silentNext,
    State.initial.run width (before.map Event.quiet) = some state ∧
    State.initial.run width ((silence chosen 0 before).map Event.quiet) = some silent ∧
    state.contexts.next = sendCount before ∧
    state.step width event.quiet = some (answer, next) ∧
    silent.step width (event.silenced chosen (sendCount before)).quiet = some (answer, silentNext) ∧
    (∀ taskid, silentNext.getTaskConext taskid = next.getTaskConext taskid) ∧
    silentNext.calls = (next.calls.filter fun call => !chosen call.context) ∧
    silentNext.pushes = next.pushes ∧
    ∀ taskid inbuffer, event = .buf2Resp taskid inbuffer → state.getTaskConext taskid ≠ none →
      answer = .buf2Resp kTaskFailHandleNoError

theorem Event.Complete.silenced (complete : event.Complete) (ordinal : Nat) :
    (event.silenced chosen ordinal).Complete := by
  cases event <;> exact complete

/-- A quiet step of an owned state is a quiet step of its ledger. -/
theorem Owned.quietStep (owned : Owned state []) (complete : event.Complete)
    (stepped : state.step width event.quiet = some (answer, next)) :
    Ledger.QuietStep width state.ledger event answer next.ledger ∧ Owned next [] := by
  have refined := owned.step_refines width event.quiet
  have abstractly := refined.view_eq
  rw [stepped, Option.map_some] at abstractly
  exact ⟨(Ledger.step_quiet_iff complete).mp abstractly.symm, refined.kept _ stepped⟩

/-- A quiet step of the ledger is a quiet step of its state. -/
theorem Owned.step_of_quietStep (owned : Owned state []) (complete : event.Complete) {ledger : Ledger}
    (effect : Ledger.QuietStep width state.ledger event answer ledger) :
    ∃ next, state.step width event.quiet = some (answer, next) ∧ next.ledger = ledger ∧ Owned next [] := by
  have refined := owned.step_refines width event.quiet
  rw [(Ledger.step_quiet_iff complete).mpr effect] at refined
  obtain ⟨⟨reply, next⟩, stepped, kept, same⟩ := refined.exists_result
  obtain ⟨rfl, rfl⟩ := Prod.mk.inj same
  exact ⟨next, stepped, rfl, kept⟩

/-- The silenced run goes along with the run, whatever responses it contains. -/
theorem State.silenced_run (chosen : Nat → Bool) (complete : ∀ event ∈ before, event.Complete)
    (ran : State.initial.run width (before.map Event.quiet) = some state) :
    Owned state [] ∧ state.ledger.Tracks before ∧
      ∃ silent, State.initial.run width ((silence chosen 0 before).map Event.quiet) = some silent ∧
        Owned silent [] ∧ Ledger.Silenced chosen state.ledger silent.ledger := by
  induction before using List.reverseRecOn generalizing state with
  | nil =>
      obtain rfl := Option.some.inj ran
      exact ⟨Owned.initial, Ledger.Tracks.initial, State.initial, rfl, Owned.initial, Ledger.Silenced.initial⟩
  | append_singleton before event ih =>
      rw [List.map_append, List.map_singleton, State.run, PartialRun.run_snoc] at ran
      obtain ⟨middle, reached, stepped⟩ := Option.bind_eq_some_iff.mp ran
      obtain ⟨⟨answer, next⟩, took, rfl⟩ := Option.map_eq_some_iff.mp stepped
      have own := complete event (List.mem_append_right _ (List.mem_singleton_self _))
      obtain ⟨owned, tracks, silent, silentRan, silentOwned, silenced⟩ :=
        ih (fun other member => complete other (List.mem_append_left _ member)) reached
      obtain ⟨effect, kept⟩ := owned.quietStep own took
      obtain ⟨reply, silentLedger, silentEffect, together, _⟩ := silenced.step effect
      obtain ⟨silentNext, silentStepped, rfl, silentKept⟩ :=
        silentOwned.step_of_quietStep (own.silenced _) silentEffect
      refine ⟨kept, tracks.step effect, silentNext, ?_, silentKept, together⟩
      rw [silence_append, List.map_append, State.run, PartialRun.run_append, Nat.zero_add, ← tracks.nextContext]
      apply (congrArg (Option.bind · _) silentRan).trans
      rw [Option.bind_some, silence, silence, List.map_singleton, PartialRun.run_cons, State.next, silentStepped]
      rfl

/-- One event is transparent exactly when its response finds a listener after the replacement. -/
theorem transparentAt_iff_of_step (complete : ∀ event ∈ before, event.Complete) (own : event.Complete)
    (ran : State.initial.run width (before.map Event.quiet) = some state)
    (stepped : state.step width event.quiet = some (answer, next)) :
    TransparentAt width chosen before event ↔
      ∀ taskid inbuffer, event = .buf2Resp taskid inbuffer →
        ∀ ordinal callback, Owner before taskid ordinal callback → callback ≠ none ∧ chosen ordinal = false := by
  obtain ⟨owned, tracks, silent, silentRan, silentOwned, silenced⟩ := State.silenced_run chosen complete ran
  obtain ⟨effect, kept⟩ := owned.quietStep own stepped
  constructor
  · rintro ⟨_, _, answer', _, silentNext, ran', silentRan', _, stepped', silentStepped, _, _, _, accepted⟩ taskid inbuffer
      rfl ordinal callback owner
    obtain rfl := Option.some.inj (ran.symm.trans ran')
    obtain rfl := Option.some.inj (silentRan.symm.trans silentRan')
    obtain ⟨entry, found, rfl, rfl⟩ := (tracks.owner taskid ordinal callback).mp owner
    have key : state.getTaskConext taskid ≠ none := by
      rw [← owned.context_of_entry taskid, show state.entry taskid = some entry from found]
      exact Option.some_ne_none _
    rw [accepted taskid inbuffer rfl key] at silentStepped
    obtain ⟨silentEffect, _⟩ := silentOwned.quietStep own silentStepped
    have heard : silent.ledger.listenerOf taskid ≠ none := by
      intro unheard
      have replied := silentEffect.answer_buf2Resp
      rw [if_pos unheard] at replied
      exact absurd (Answer.buf2Resp.inj replied) (by decide)
    rw [silenced.listenerOf, found, Option.bind_some] at heard
    cases marked : chosen entry.context with
    | true => exact absurd (if_pos marked) heard
    | false =>
        rw [marked] at heard
        exact ⟨heard, rfl⟩
  · intro heard
    obtain ⟨reply, silentLedger, silentEffect, together, same⟩ := silenced.step effect
    obtain ⟨silentNext, silentStepped, rfl, silentKept⟩ := silentOwned.step_of_quietStep (own.silenced _) silentEffect
    have listens {taskid : UInt32} {inbuffer : Buffer} (response : event = .buf2Resp taskid inbuffer) {entry : Entry}
        (found : state.ledger.tasks taskid = some entry) :
        silent.ledger.listenerOf taskid ≠ none ∧ state.ledger.listenerOf taskid ≠ none := by
      obtain ⟨callback, unmarked⟩ := heard taskid inbuffer response entry.context entry.respCallback
        ((tracks.owner _ _ _).mpr ⟨entry, found, rfl, rfl⟩)
      rw [silenced.listenerOf, Ledger.listenerOf, found, Option.bind_some, Option.bind_some, unmarked]
      exact ⟨callback, callback⟩
    have replied : reply = answer := by
      apply same
      intro taskid inbuffer response
      cases found : state.ledger.tasks taskid with
      | none =>
          rw [silenced.listenerOf, Ledger.listenerOf, found]
          rfl
      | some entry =>
          obtain ⟨first, second⟩ := listens response found
          exact iff_of_false first second
    rw [replied, tracks.nextContext] at silentStepped
    refine ⟨state, silent, answer, next, silentNext, ran, silentRan, tracks.nextContext, stepped, silentStepped, ?_,
      together.calls, together.pushes, ?_⟩
    · intro taskid
      rw [← silentKept.context_of_entry, ← kept.context_of_entry,
        show silentNext.entry taskid = _ from together.tasks taskid, Option.map_map]
      rfl
    · rintro taskid inbuffer rfl key
      rw [← owned.context_of_entry] at key
      have present : state.entry taskid ≠ none := fun absent => key (by rw [absent, Option.map_none])
      obtain ⟨entry, found⟩ := Option.ne_none_iff_exists'.mp present
      rw [effect.answer_buf2Resp, if_neg (listens rfl found).2]

/-- Every event of a run is transparent exactly when its response finds a listener after the replacement. -/
theorem transparentAt_iff {events after : List (Event Buffer)} (complete : ∀ event ∈ events, event.Complete)
    {final : State} (ran : State.initial.run width (events.map Event.quiet) = some final)
    (split : events = before ++ event :: after) :
    TransparentAt width chosen before event ↔
      ∀ taskid inbuffer, event = .buf2Resp taskid inbuffer →
        ∀ ordinal callback, Owner before taskid ordinal callback → callback ≠ none ∧ chosen ordinal = false := by
  subst split
  rw [List.map_append, List.map_cons] at ran
  obtain ⟨state, next, reached, stepped, _⟩ := PartialRun.run_split ran
  obtain ⟨⟨answer, next⟩, took, _⟩ := Option.map_eq_some_iff.mp stepped
  exact transparentAt_iff_of_step (fun other member => complete other (List.mem_append_left _ member))
    (complete event (List.mem_append_right _ List.mem_cons_self)) reached took

/-- Sending without a listener is transparent exactly when every response to a waiting task still finds one. -/
theorem listenerTransparency (events : List (Event Buffer)) (complete : ∀ event ∈ events, event.Complete)
    {final : State} (ran : State.initial.run width (events.map Event.quiet) = some final) (chosen : Nat → Bool) :
    (∀ before event after, events = before ++ event :: after → TransparentAt width chosen before event) ↔
      ResponsesHeard chosen events := by
  constructor
  · intro transparent before taskid inbuffer after split
    exact (transparentAt_iff complete ran split).mp (transparent before _ after split) taskid inbuffer rfl
  · intro heard before event after split
    apply (transparentAt_iff complete ran split).mpr
    rintro taskid inbuffer rfl
    exact heard before taskid inbuffer after split

end Runs

/-- Of two messages only the first gets a response. -/
def pairEvents : List (Event ByteBuffer) :=
  [.sendMessage ⟨[104], 1, some 7⟩, .sendMessage ⟨[105], 1, some 8⟩,
    .buf2Resp 10000 (ByteBuffer.ofBytes [0xaf, 0xbe, 0xad, 0xde, 16, 39, 0, 0, 1, 0, 0, 0, 105]),
    .onTaskEnd 10000 kEctOK 0, .onTaskEnd 10001 kEctOK 0]

/-- The listener of the second message can be left out. -/
theorem listenerTransparency_pair :
    ∃ response, TransparentAt .bits64 (fun ordinal => ordinal == 1) (pairEvents.take 2) response ∧
      pairEvents[2]? = some response := by
  obtain ⟨final, ran, _⟩ := State.run_valid .bits64 (pairEvents.map Event.quiet) (by decide)
  refine ⟨_, (listenerTransparency pairEvents (by decide) ran fun ordinal => ordinal == 1).mpr ?_ _ _ _ rfl, rfl⟩
  intro before taskid inbuffer after split ordinal callback owner
  have position : before = pairEvents.take 2 ∧ taskid = 10000 := by
    rcases before with _ | ⟨first, _ | ⟨second, _ | ⟨third, _ | ⟨fourth, _ | ⟨fifth, later⟩⟩⟩⟩⟩ <;>
      simp [pairEvents] at split ⊢
    exact ⟨⟨split.1.symm, split.2.1.symm⟩, split.2.2.1.1.symm⟩
  obtain ⟨rfl, rfl⟩ := position
  change Owner (([] ++ [.sendMessage ⟨[104], 1, some 7⟩]) ++ [.sendMessage ⟨[105], 1, some 8⟩]) _ _ _ at owner
  rw [owner_snoc, owner_snoc] at owner
  rcases owner with ⟨own, _⟩ | ⟨_, ⟨_, request, sent, rfl, rfl⟩ | ⟨unowned, _⟩⟩
  · exact absurd own (show ¬idOf _ = 10000 by decide)
  · obtain rfl := Event.sendMessage.inj sent
    exact ⟨nofun, rfl⟩
  · exact (unowned rfl).elim

/-- Without its listener the response of the echo run gets another answer. -/
theorem listenerTransparency_unheardEcho :
    ¬∀ before event after, echoEvents = before ++ event :: after →
      TransparentAt .bits64 (fun _ => true) before event := by
  intro transparent
  obtain ⟨final, ran, _⟩ := State.run_valid .bits64 (echoEvents.map Event.quiet) (by decide)
  have split : echoEvents = [.sendMessage ⟨[104], 1, some 7⟩] ++ .buf2Resp 10000 _ :: [.onTaskEnd 10000 kEctOK 0] := rfl
  have owner : Owner ([] ++ [.sendMessage ⟨[104], 1, some 7⟩] : List (Event ByteBuffer)) 10000 0 (some 7) :=
    (owner_snoc ..).mpr (Or.inl ⟨rfl, _, rfl, rfl, rfl⟩)
  have heard := (transparentAt_iff (by decide) ran split).mp (transparent _ _ _ split) _ _ rfl _ _ owner
  exact Bool.noConfusion heard.2

example :
    (State.initial.run .bits64 ((silence (fun _ => true) 0 (echoEvents.take 1)).map Event.quiet)).bind
      (fun state => (state.buf2Resp .bits64 10000
        (ByteBuffer.ofBytes [0xaf, 0xbe, 0xad, 0xde, 16, 39, 0, 0, 1, 0, 0, 0, 105]) some).map Prod.fst) =
      some (-1) := by decide

end MarsWrapper
