import MarsWrapper.Ledger.Numbering
import MarsWrapper.Ledger.Refinement

namespace MarsWrapper

open Foundation AutoBufferApi

/-- These are the calls about one task, with their listeners and in their order. -/
def callsFor (calls : List Call) (taskid : UInt32) : List (Listener × ListenerCall) :=
  (calls.filter fun call => call.task = taskid).map fun call => (call.listener, call.call)

theorem callsFor_eq_nil {calls : List Call} {taskid : UInt32} (silent : ∀ call ∈ calls, call.task ≠ taskid) :
    callsFor calls taskid = [] := by
  rw [callsFor, List.map_eq_nil_iff, List.filter_eq_nil_iff]
  intro call member
  rw [decide_eq_true_iff]
  exact silent call member

section Protocol

variable {Buffer : Type} [AutoBufferApi Buffer]

/-- A listener hears one call for each response until the task ends, then the end, and then nothing. -/
def protocol (taskid : UInt32) : List (Turn Buffer) → List ListenerCall
  | [] => []
  | turn :: later =>
    match turn.event with
    | .buf2Resp id inbuffer =>
      if id = taskid then .onResponse (frameData inbuffer) :: protocol taskid later else protocol taskid later
    | .onTaskEnd id errorType errorCode =>
      if id = taskid then [Ledger.endCall errorType errorCode] else protocol taskid later
    | _ => protocol taskid later

/-- A task hears nothing without a listener. -/
def hears (callback : Option Listener) (calls : List ListenerCall) : List (Listener × ListenerCall) :=
  match callback with
  | none => []
  | some listener => calls.map (Prod.mk listener)

/-- One task is in the store with its listener, or it has ended. -/
structure TaskView where
  callback : Option (Option Listener)
  heard : List (Listener × ListenerCall)

namespace TaskView

/-- The automaton of one task reads only the events of this task. -/
def step (taskid : UInt32) (view : TaskView) (turn : Turn Buffer) : TaskView :=
  match view.callback with
  | none => view
  | some callback =>
    match turn.event with
    | .buf2Resp id inbuffer =>
      if id = taskid then {view with heard := view.heard ++ hears callback [.onResponse (frameData inbuffer)]}
      else view
    | .onTaskEnd id errorType errorCode =>
      if id = taskid then ⟨none, view.heard ++ hears callback [Ledger.endCall errorType errorCode]⟩ else view
    | _ => view

/-- An ended task hears nothing more. -/
theorem run_ended (taskid : UInt32) (turns : List (Turn Buffer)) (heard : List (Listener × ListenerCall)) :
    turns.foldl (step taskid) ⟨none, heard⟩ = ⟨none, heard⟩ := by
  induction turns with
  | nil => rfl
  | cons turn later ih => exact ih

/-- The automaton of a stored task follows the protocol. -/
theorem run_stored (taskid : UInt32) (turns : List (Turn Buffer)) (callback : Option Listener)
    (heard : List (Listener × ListenerCall)) :
    (turns.foldl (step taskid) ⟨some callback, heard⟩).heard = heard ++ hears callback (protocol taskid turns) := by
  induction turns generalizing heard with
  | nil => cases callback <;> simp [hears, protocol]
  | cons turn later ih =>
      obtain ⟨event, sends⟩ := turn
      rw [List.foldl_cons, protocol, step]
      cases event with
      | buf2Resp id inbuffer =>
          by_cases same : id = taskid
          · simp only [if_pos same, ih, List.append_assoc]
            cases callback <;> rfl
          · simp only [if_neg same, ih]
      | onTaskEnd id errorType errorCode =>
          by_cases same : id = taskid
          · simp only [if_pos same, run_ended]
          · simp only [if_neg same, ih]
      | _ => exact ih heard

end TaskView

end Protocol

namespace Ledger

def view (ledger : Ledger) (taskid : UInt32) : TaskView :=
  ⟨(ledger.tasks taskid).map Entry.respCallback, callsFor ledger.calls taskid⟩

theorem callsFor_append (calls later : List Call) (taskid : UInt32) :
    callsFor (calls ++ later) taskid = callsFor calls taskid ++ callsFor later taskid := by
  simp only [callsFor, List.filter_append, List.map_append]

/-- Only the own task hears a notice. -/
theorem callsFor_notices (ledger : Ledger) (taskid own : UInt32) (call : ListenerCall) :
    callsFor (ledger.notices taskid call) own =
      if taskid = own then hears (ledger.listenerOf own) [call] else [] := by
  cases listening : ledger.listenerOf taskid with
  | none =>
      rw [notices_of_silent listening]
      split
      · next same => rw [← same, listening]; rfl
      · rfl
  | some listener =>
      obtain ⟨entry, _, _, noticed⟩ := notices_of_listening listening call
      rw [noticed]
      split
      · next same => simp [callsFor, ← same, listening, hears]
      · next different => simp [callsFor, different]

variable {Buffer : Type} [AutoBuffer Buffer] {ledger : Ledger} (width : SizeT) {turn : Turn Buffer}

/-- The sends of a valid turn extend its opened ledger, and then it closes. -/
theorem after_phases (numbered : ledger.Numbered) (valid : turn.Valid) :
    ∃ middle : Ledger, ledger.after width turn = middle.closed turn.event ∧ middle.Numbered ∧
      middle.calls = (ledger.opened turn.event).calls ∧ middle.constructed = (ledger.after width turn).constructed ∧
      (middle.constructed ≤ 2 ^ 32 → ∀ taskid, ledger.Taken taskid → middle.tasks taskid = ledger.tasks taskid) ∧
      ∃ new, (ledger.after width turn).stored = ledger.stored ++ new ∧
        new.map StoredTask.callback = (ledger.turnSends turn).map SendRequest.callback ∧
        (middle.constructed ≤ 2 ^ 32 → (new.map StoredTask.taskid).Nodup ∧
          ∀ task ∈ new, ¬(ledger.opened turn.event).Taken task.taskid ∧
            (middle.tasks task.taskid).map Entry.respCallback = some task.callback) := by
  have opens := ledger.opens_opened turn.event
  have grows : ledger.constructed ≤ (ledger.opened turn.event).constructed := by
    rw [opens.constructed]
    omega
  obtain ⟨kept, count, calls, same, new, stored, callbacks, fresh⟩ := (opens.numbered numbered).sendAll
    (sendAll_valid width (ledger.opened turn.event) (ledger.turnSends turn) (turnSends_valid ledger turn valid))
  refine ⟨_, rfl, kept, calls, by rw [after, closed_eq], ?_, new, ?_, callbacks, fresh⟩
  · intro bound taskid taken
    rw [same bound taskid (taken.mono grows), opens.tasks]
  · rw [after, closed_eq, stored, opens.stored]

/-- A turn moves every task of the store by its own automaton. -/
theorem view_after (numbered : ledger.Numbered) (valid : turn.Valid)
    (bound : (ledger.after width turn).constructed ≤ 2 ^ 32) {taskid : UInt32} (taken : ledger.Taken taskid) :
    (ledger.after width turn).view taskid = (ledger.view taskid).step taskid turn := by
  obtain ⟨middle, closing, _, calls, count, same, _⟩ := after_phases width numbered valid
  have kept := same (count ▸ bound) taskid taken
  have noticed (id : UInt32) (call : ListenerCall) (own : ledger.tasks taskid = none ∨ id ≠ taskid) :
      callsFor (ledger.calls ++ ledger.notices id call) taskid = callsFor ledger.calls taskid := by
    rw [callsFor_append, callsFor_notices]
    rcases own with absent | different
    · simp [listenerOf, absent, hears]
    · rw [if_neg different, List.append_nil]
  have heard (entry : Entry) (found : ledger.tasks taskid = some entry) (call : ListenerCall) :
      callsFor (ledger.calls ++ ledger.notices taskid call) taskid =
        callsFor ledger.calls taskid ++ hears entry.respCallback [call] := by
    rw [callsFor_append, callsFor_notices, if_pos rfl, listenerOf, found, Option.bind_some]
  obtain ⟨event, sends⟩ := turn
  rw [closing, view, closed_eq, calls, view, TaskView.step]
  cases event with
  | buf2Resp id inbuffer =>
      change TaskView.mk (Option.map _ (middle.tasks taskid)) (callsFor (ledger.calls ++ ledger.notices id _) taskid) = _
      rw [kept]
      cases found : ledger.tasks taskid with
      | none => rw [noticed id _ (Or.inl found)]; rfl
      | some entry =>
          by_cases same : id = taskid
          · simp only [Option.map_some, if_pos same]
            rw [same, heard entry found]
          · simp only [Option.map_some, if_neg same]
            rw [noticed id _ (Or.inr same)]
  | onTaskEnd id errorType errorCode =>
      change TaskView.mk (Option.map _ ((middle.remove id).tasks taskid))
        (callsFor (ledger.calls ++ ledger.notices id _) taskid) = _
      cases found : ledger.tasks taskid with
      | none =>
          have gone : (middle.remove id).tasks taskid = none := by
            by_cases same : taskid = id
            · rw [same, tasks_remove_self]
            · rw [tasks_remove_of_ne _ same, kept, found]
          rw [gone, noticed id _ (Or.inl found)]
          rfl
      | some entry =>
          by_cases same : id = taskid
          · simp only [Option.map_some, if_pos same]
            rw [same, heard entry found, tasks_remove_self]
            rfl
          · simp only [Option.map_some, if_neg same]
            rw [noticed id _ (Or.inr same), tasks_remove_of_ne _ (Ne.symm same), kept, found]
            rfl
  | onPush body =>
      have silent : (ledger.opened (.onPush body)).calls = ledger.calls := by
        rw [opened]
        cases ledger.pushListener <;> rfl
      rw [silent]
      change TaskView.mk (Option.map _ (middle.tasks taskid)) _ = _
      rw [kept]
      cases ledger.tasks taskid <;> rfl
  | _ =>
      change TaskView.mk (Option.map _ (middle.tasks taskid)) (callsFor ledger.calls taskid) = _
      rw [kept]
      cases ledger.tasks taskid <;> rfl

/-- A run moves every task of the store by its own automaton. -/
theorem view_run (turns : List (Turn Buffer)) (numbered : ledger.Numbered) (framed : ledger.Framed)
    (valid : ∀ turn ∈ turns, turn.Valid) (bound : (turns.foldl (after width) ledger).constructed ≤ 2 ^ 32)
    {taskid : UInt32} (taken : ledger.Taken taskid) :
    (turns.foldl (after width) ledger).view taskid = turns.foldl (TaskView.step taskid) (ledger.view taskid) := by
  induction turns generalizing ledger with
  | nil => rfl
  | cons turn later ih =>
      have own := valid turn List.mem_cons_self
      have others : ∀ turn ∈ later, turn.Valid := fun other member => valid other (List.mem_cons_of_mem _ member)
      have kept := framed.after width own
      obtain ⟨numbered', _⟩ := numbered.step (next_valid width framed own)
      have grows := constructed_le_of_run numbered' (run_valid width kept later others).1
      rw [List.foldl_cons] at bound ⊢
      rw [ih numbered' kept others bound (taken.mono (by omega)), view_after width numbered own (by omega) taken]
      rfl

/-- A new task starts with its own listener and without a call. -/
theorem view_new (numbered : ledger.Numbered) (valid : turn.Valid)
    (bound : (ledger.after width turn).constructed ≤ 2 ^ 32) :
    ∃ new, (ledger.after width turn).stored = ledger.stored ++ new ∧
      new.map StoredTask.callback = (ledger.turnSends turn).map SendRequest.callback ∧
      (new.map StoredTask.taskid).Nodup ∧ ∀ task ∈ new, ¬ledger.Taken task.taskid ∧
        (ledger.after width turn).Taken task.taskid ∧
        (ledger.after width turn).view task.taskid = ⟨some task.callback, []⟩ := by
  obtain ⟨middle, closing, kept, calls, count, same, new, stored, callbacks, fresh⟩ :=
    after_phases width numbered valid
  obtain ⟨distinct, listens⟩ := fresh (count ▸ bound)
  have opens := ledger.opens_opened turn.event
  have openedNumbered := opens.numbered numbered
  have grows : ledger.constructed ≤ (ledger.opened turn.event).constructed := by
    rw [opens.constructed]
    omega
  refine ⟨new, stored, callbacks, distinct, fun task member => ?_⟩
  obtain ⟨untaken, callback⟩ := listens task member
  have before : ¬ledger.Taken task.taskid := fun taken => untaken (taken.mono grows)
  have unheard : callsFor (ledger.opened turn.event).calls task.taskid = [] :=
    callsFor_eq_nil fun call called own => untaken (own ▸ openedNumbered.taken_of_call called)
  obtain ⟨entry, found, listener⟩ := Option.map_eq_some_iff.mp callback
  have remains : (middle.closed turn.event).tasks task.taskid = middle.tasks task.taskid := by
    cases ended : turn.event with
    | onTaskEnd id errorType errorCode =>
        apply tasks_remove_of_ne middle
        rintro rfl
        -- The sends of this turn come from the listener of the ended task, so that task has an older id.
        cases listening : ledger.listenerOf task.taskid with
        | none =>
            have silent : ledger.turnSends turn = [] := by
              rw [turnSends, ended]
              simp only [listening]
            rw [silent, List.map_nil, List.map_eq_nil_iff] at callbacks
            rw [callbacks] at member
            cases member
        | some listener =>
            obtain ⟨older, present, _⟩ := Option.bind_eq_some_iff.mp listening
            exact before (numbered.taken_of_entry present)
    | _ => rfl
  refine ⟨before, ?_, ?_⟩
  · rw [closing, closed_eq]
    exact kept.taken_of_entry found
  · rw [view, closing, remains, closed_eq, calls, unheard, callback]

/-- No id is stored twice before the counter wraps. -/
theorem stored_nodup (turns : List (Turn Buffer)) (numbered : ledger.Numbered) (framed : ledger.Framed)
    (valid : ∀ turn ∈ turns, turn.Valid) (bound : (turns.foldl (after width) ledger).constructed ≤ 2 ^ 32)
    (distinct : (ledger.stored.map StoredTask.taskid).Nodup) :
    ((turns.foldl (after width) ledger).stored.map StoredTask.taskid).Nodup := by
  induction turns generalizing ledger with
  | nil => exact distinct
  | cons turn later ih =>
      have own := valid turn List.mem_cons_self
      have others : ∀ turn ∈ later, turn.Valid := fun other member => valid other (List.mem_cons_of_mem _ member)
      have kept := framed.after width own
      obtain ⟨numbered', _⟩ := numbered.step (next_valid width framed own)
      have grows := constructed_le_of_run numbered' (run_valid width kept later others).1
      rw [List.foldl_cons] at bound ⊢
      apply ih numbered' kept others bound
      obtain ⟨new, stored, _, fresh, listens⟩ := view_new width numbered own (show (ledger.after width turn).constructed ≤ _ by omega)
      rw [stored, List.map_append, List.nodup_append]
      refine ⟨distinct, fresh, ?_⟩
      rintro taskid old _ newer rfl
      obtain ⟨older, member, same⟩ := List.mem_map.mp old
      obtain ⟨task, member', same'⟩ := List.mem_map.mp newer
      exact (listens task member').1 (same' ▸ numbered.stored taskid ⟨older, member, same⟩)

end Ledger

section Runs

variable {Buffer : Type} [AutoBuffer Buffer] (width : SizeT)

/-- Every valid run succeeds, and its state has the ledger of the run. -/
theorem State.run_valid (turns : List (Turn Buffer)) (valid : ∀ turn ∈ turns, turn.Valid) :
    ∃ final, State.initial.run width turns = some final ∧
      final.ledger = turns.foldl (Ledger.after width) Ledger.initial ∧ final.ledger.Numbered ∧ final.ledger.Framed := by
  obtain ⟨ran, framed⟩ := Ledger.run_valid width Ledger.Framed.initial turns valid
  have refined := (Owned.initial.run_refines width turns).view_eq.trans ran
  obtain ⟨final, reached, same⟩ := Option.map_eq_some_iff.mp refined
  refine ⟨final, reached, same, ?_, same ▸ framed⟩
  rw [same]
  exact Ledger.Numbered.initial.run ran

/-- A valid run can be continued by valid turns. -/
theorem State.run_valid_append {turns later : List (Turn Buffer)} (valid : ∀ turn ∈ turns ++ later, turn.Valid)
    {state : State} (reached : State.initial.run width turns = some state) :
    ∃ final, state.run width later = some final ∧ State.initial.run width (turns ++ later) = some final := by
  obtain ⟨final, ran, _⟩ := State.run_valid width (turns ++ later) valid
  refine ⟨final, ?_, ran⟩
  rw [State.run, PartialRun.run_append] at ran
  rw [State.run] at reached
  rw [reached, Option.bind_some] at ran
  exact ran

/-- Each task hears exactly its own protocol, in every valid run of at most 2^32 messages. -/
theorem listenerProtocol (turns : List (Turn Buffer)) (valid : ∀ turn ∈ turns, turn.Valid) :
    ∃ final, State.initial.run width turns = some final ∧
      (final.constructed ≤ 2 ^ 32 →
        (final.stored.map StoredTask.taskid).Nodup ∧
        (∀ before turn after, turns = before ++ turn :: after →
          ∃ state next new, State.initial.run width before = some state ∧ state.next width turn = some next ∧
            next.stored = state.stored ++ new ∧
            new.map StoredTask.callback = (state.ledger.turnSends turn).map SendRequest.callback ∧
            ∀ task ∈ new, callsFor final.calls task.taskid = hears task.callback (protocol task.taskid after)) ∧
        ∀ taskid, taskid ∉ final.stored.map StoredTask.taskid → callsFor final.calls taskid = []) := by
  obtain ⟨final, ran, same, numbered, framed⟩ := State.run_valid width turns valid
  refine ⟨final, ran, fun bound => ⟨?_, ?_, ?_⟩⟩
  · have distinct := Ledger.stored_nodup width turns Ledger.Numbered.initial Ledger.Framed.initial valid
      (by rw [← same]; exact bound) List.nodup_nil
    rwa [← same] at distinct
  · rintro before turn after rfl
    obtain ⟨state, next, reached, stepped, rest⟩ := PartialRun.run_split ran
    have earlier : ∀ turn ∈ before, turn.Valid := fun other member => valid other (List.mem_append_left _ member)
    have own : turn.Valid := valid turn (List.mem_append_right _ List.mem_cons_self)
    have others : ∀ turn ∈ after, turn.Valid := fun other member =>
      valid other (List.mem_append_right _ (List.mem_cons_of_mem _ member))
    obtain ⟨state', reached', stateLedger, stateNumbered, stateFramed⟩ := State.run_valid width before earlier
    obtain rfl := Option.some.inj (reached.symm.trans reached')
    have finalLedger : final.ledger = after.foldl (Ledger.after width) (state.ledger.after width turn) := by
      rw [same, List.foldl_append, List.foldl_cons, stateLedger]
    have nextLedger : next.ledger = state.ledger.after width turn := by
      have whole : State.initial.run width (before ++ [turn]) = some next := by
        rw [State.run, PartialRun.run_append]
        exact (congrArg (Option.bind · _) reached).trans (by
          rw [Option.bind_some, PartialRun.run_cons, stepped]
          rfl)
      obtain ⟨next', reached', ledger', _⟩ := State.run_valid width (before ++ [turn]) fun other member => by
        rcases List.mem_append.mp member with early | last
        · exact earlier other early
        · exact List.mem_singleton.mp last ▸ own
      obtain rfl := Option.some.inj (whole.symm.trans reached')
      rw [ledger', List.foldl_append, stateLedger]
      rfl
    have nextNumbered := (stateNumbered.step (Ledger.next_valid width stateFramed own)).1
    have nextFramed := stateFramed.after width own
    have finalBound : (after.foldl (Ledger.after width) (state.ledger.after width turn)).constructed ≤ 2 ^ 32 := by
      rw [← finalLedger]
      exact bound
    have grows := Ledger.constructed_le_of_run nextNumbered (Ledger.run_valid width nextFramed after others).1
    obtain ⟨new, stored, callbacks, _, listens⟩ :=
      Ledger.view_new width stateNumbered own (by omega)
    refine ⟨state, next, new, reached, stepped, ?_, callbacks, fun task member => ?_⟩
    · exact (congrArg Ledger.stored nextLedger).trans stored
    · obtain ⟨_, taken, start⟩ := listens task member
      have viewed := Ledger.view_run width after nextNumbered nextFramed others finalBound taken
      rw [← finalLedger, start] at viewed
      have heard := congrArg TaskView.heard viewed
      rwa [TaskView.run_stored, List.nil_append] at heard
  · intro taskid unknown
    apply callsFor_eq_nil
    rintro call called rfl
    obtain ⟨task, member, own⟩ := numbered.calls call called
    exact unknown (List.mem_map.mpr ⟨task, member, own⟩)

end Runs

/-- One message is sent, a well-formed response arrives, and its task ends. -/
def echoEvents : List (Event ByteBuffer) :=
  [.sendMessage ⟨[104], 1, some 7⟩,
    .buf2Resp 10000 (ByteBuffer.ofBytes [0xaf, 0xbe, 0xad, 0xde, 16, 39, 0, 0, 1, 0, 0, 0, 105]),
    .onTaskEnd 10000 kEctOK 0]

def echoRun : List (Turn ByteBuffer) := echoEvents.map Event.quiet

/-- The listener of the one task hears its response and its success. -/
theorem listenerProtocol_echo :
    ∃ final, State.initial.run .bits64 echoRun = some final ∧
      callsFor final.calls 10000 = [(7, .onResponse [105]), (7, .onSuccess)] := by
  obtain ⟨final, ran, heard⟩ := listenerProtocol .bits64 echoRun (by decide)
  have bound : final.constructed ≤ 2 ^ 32 := by
    obtain rfl := Option.some.inj (ran.symm.trans rfl)
    decide
  obtain ⟨state, next, new, reached, stepped, stored, _, listens⟩ := (heard bound).2.1 [] _ echoRun.tail rfl
  obtain rfl := Option.some.inj (reached.symm.trans rfl)
  obtain rfl := Option.some.inj (stepped.symm.trans rfl)
  have only : State.initial.stored ++ new = State.initial.stored ++ [⟨10000, some 7, none⟩] := stored.symm.trans rfl
  obtain rfl := List.append_cancel_left only
  exact ⟨final, ran, listens _ List.mem_cons_self⟩

end MarsWrapper
