import MarsWrapper.Ledger.ValidRun

namespace MarsWrapper

open Foundation AutoBufferApi

/-- The message with this number in the run has this id. -/
def idOf (number : Nat) : UInt32 := UInt32.ofNat (10000 + number)

theorem idOf_succ (number : Nat) : idOf (number + 1) = idOf number + 1 := by
  rw [idOf, idOf, ← Nat.add_assoc, UInt32.ofNat_add]
  rfl

/-- Two numbers have one id exactly when they agree modulo the range of the counter. -/
theorem idOf_eq_iff (first second : Nat) : idOf first = idOf second ↔ first % 2 ^ 32 = second % 2 ^ 32 := by
  rw [idOf, idOf, ← UInt32.toNat_inj, UInt32.toNat_ofNat', UInt32.toNat_ofNat']
  omega

namespace Ledger

/-- These ids have been given to a message. -/
def Taken (ledger : Ledger) (taskid : UInt32) : Prop := ∃ number < ledger.constructed, taskid = idOf number

/-- These ids have been stored. -/
def Stored (ledger : Ledger) (taskid : UInt32) : Prop := ∃ task ∈ ledger.stored, task.taskid = taskid

/-- The counter follows the number of messages, entries and calls belong to stored tasks, and stored ids are taken. -/
structure Numbered (ledger : Ledger) : Prop where
  counter : ledger.messageId = idOf ledger.constructed
  tasks : ∀ taskid entry, ledger.tasks taskid = some entry → ledger.Stored taskid
  calls : ∀ call ∈ ledger.calls, ledger.Stored call.task
  stored : ∀ taskid, ledger.Stored taskid → ledger.Taken taskid

variable {ledger next : Ledger} {width : SizeT} {taskid : UInt32}

theorem Taken.mono (taken : ledger.Taken taskid) (grows : ledger.constructed ≤ next.constructed) :
    next.Taken taskid := by
  obtain ⟨number, below, same⟩ := taken
  exact ⟨number, by omega, same⟩

theorem Stored.mono (stored : ledger.Stored taskid) (grows : ledger.stored ⊆ next.stored) : next.Stored taskid := by
  obtain ⟨task, member, same⟩ := stored
  exact ⟨task, grows member, same⟩

theorem Numbered.taken_of_entry (numbered : ledger.Numbered) {entry : Entry}
    (found : ledger.tasks taskid = some entry) : ledger.Taken taskid :=
  numbered.stored taskid (numbered.tasks taskid entry found)

theorem Numbered.taken_of_call (numbered : ledger.Numbered) {call : Call} (member : call ∈ ledger.calls) :
    ledger.Taken call.task := numbered.stored call.task (numbered.calls call member)

/-- Before the counter wraps, the next id is new. -/
theorem Numbered.fresh (numbered : ledger.Numbered) (room : ledger.constructed < 2 ^ 32) :
    ¬ledger.Taken ledger.messageId := by
  rintro ⟨number, below, same⟩
  rw [numbered.counter, idOf_eq_iff] at same
  omega

theorem Numbered.initial : Ledger.initial.Numbered where
  counter := rfl
  tasks _ _ found := by cases found
  calls _ member := by cases member
  stored _ stored := by
    obtain ⟨_, member, _⟩ := stored
    cases member

/-- A sent message takes the next id, whatever its sizes are. -/
theorem sendMessage_eq (ledger : Ledger) (width : SizeT) (request : SendRequest) :
    ledger.sendMessage width request =
      (ImMessage.ofData width ledger.messageId request.body (toInt request.size.toNat)).map fun message =>
        (ledger.takeId.store width message ledger.messageId request).startTask ledger.messageId := by
  rw [Ledger.sendMessage, Option.map_eq_bind]
  apply Option.bind_congr
  intro message encoded
  have own : message.getMessageId = some ledger.messageId := by
    rw [ImMessage.ofData_eq] at encoded
    split at encoded
    · rename_i admitted
      rw [← Option.some.inj encoded, (framed_fields width _ _ (by rw [List.length_take]; omega)).2.2.1]
    · cases encoded
  rw [own]
  rfl

/-- A sent message becomes the entry of its id and changes no other entry. -/
theorem Numbered.sendMessage (numbered : ledger.Numbered) {request : SendRequest}
    (sent : ledger.sendMessage width request = some next) :
    next.Numbered ∧ next.constructed = ledger.constructed + 1 ∧ next.calls = ledger.calls ∧
      (next.tasks ledger.messageId).map Entry.respCallback = some request.callback ∧
      (∀ taskid, taskid ≠ ledger.messageId → next.tasks taskid = ledger.tasks taskid) ∧
      next.stored = ledger.stored ++
        [⟨ledger.messageId, request.callback, (ledger.tasks ledger.messageId).map Entry.context⟩] := by
  rw [sendMessage_eq] at sent
  obtain ⟨message, _, rfl⟩ := Option.map_eq_some_iff.mp sent
  let next := (ledger.takeId.store width message ledger.messageId request).startTask ledger.messageId
  have grows : ledger.stored ⊆ next.stored := List.subset_append_left ..
  have own : next.Stored ledger.messageId := ⟨_, List.mem_append_right _ (List.mem_singleton_self _), rfl⟩
  have other {taskid : UInt32} (different : taskid ≠ ledger.messageId) : next.tasks taskid = ledger.tasks taskid :=
    tasks_store_of_ne _ _ _ _ different
  refine ⟨⟨?_, ?_, ?_, ?_⟩, rfl, rfl, ?_, fun taskid => other, rfl⟩
  · change ledger.messageId + 1 = idOf (ledger.constructed + 1)
    rw [numbered.counter, idOf_succ]
  · intro taskid entry found
    by_cases same : taskid = ledger.messageId
    · rw [same]
      exact own
    · exact (numbered.tasks taskid entry ((other same).symm.trans found)).mono grows
  · exact fun call member => (numbered.calls call member).mono grows
  · rintro taskid ⟨task, member, rfl⟩
    rcases List.mem_append.mp member with old | new
    · exact (numbered.stored task.taskid ⟨task, old, rfl⟩).mono (Nat.le_succ _)
    · obtain rfl := List.mem_singleton.mp new
      exact ⟨ledger.constructed, Nat.lt_succ_self _, numbered.counter⟩
  · change Option.map _ ((ledger.takeId.store width message ledger.messageId request).tasks ledger.messageId) = _
    rw [tasks_store_self]
    rfl

/-- A series of messages extends the store and keeps every taken id as it was. -/
theorem Numbered.sendAll (numbered : ledger.Numbered) {requests : List SendRequest}
    (sent : ledger.sendAll width requests = some next) :
    next.Numbered ∧ next.constructed = ledger.constructed + requests.length ∧ next.calls = ledger.calls ∧
      (next.constructed ≤ 2 ^ 32 → ∀ taskid, ledger.Taken taskid → next.tasks taskid = ledger.tasks taskid) ∧
      ∃ new, next.stored = ledger.stored ++ new ∧ new.map StoredTask.callback = requests.map SendRequest.callback ∧
        (next.constructed ≤ 2 ^ 32 →
        (new.map StoredTask.taskid).Nodup ∧ ∀ task ∈ new, ¬ledger.Taken task.taskid ∧
          (next.tasks task.taskid).map Entry.respCallback = some task.callback) := by
  induction requests generalizing ledger with
  | nil =>
      obtain rfl := Option.some.inj sent
      exact ⟨numbered, rfl, rfl, fun _ _ _ => rfl, [], (List.append_nil _).symm, rfl,
        fun _ => ⟨List.nodup_nil, nofun⟩⟩
  | cons request later ih =>
      rw [Ledger.sendAll, PartialRun.run_cons] at sent
      obtain ⟨middle, first, rest⟩ := Option.bind_eq_some_iff.mp sent
      obtain ⟨middleNumbered, count, calls, own, other, stored⟩ := numbered.sendMessage first
      obtain ⟨nextNumbered, count', calls', kept, new, stored', callbacks, fresh⟩ := ih middleNumbered rest
      rw [List.length_cons]
      have ownTaken : middle.Taken ledger.messageId :=
        ⟨ledger.constructed, by omega, numbered.counter⟩
      let task : StoredTask :=
        ⟨ledger.messageId, request.callback, (ledger.tasks ledger.messageId).map Entry.context⟩
      refine ⟨nextNumbered, by omega, calls'.trans calls, ?_, task :: new, ?_, ?_, ?_⟩
      · intro bound taskid taken
        have different : taskid ≠ ledger.messageId := by
          rintro rfl
          exact numbered.fresh (by omega) taken
        rw [kept bound taskid (taken.mono (by omega)), other taskid different]
      · rw [stored', stored, List.append_assoc]
        rfl
      · rw [List.map_cons, List.map_cons, callbacks]
      · intro bound
        obtain ⟨distinct, listens⟩ := fresh bound
        constructor
        · rw [List.map_cons, List.nodup_cons]
          refine ⟨?_, distinct⟩
          intro member
          obtain ⟨task, newer, same⟩ := List.mem_map.mp member
          exact (listens task newer).1 (same ▸ ownTaken)
        · intro task member
          rcases List.mem_cons.mp member with rfl | newer
          · refine ⟨numbered.fresh (by omega), ?_⟩
            change Option.map _ (next.tasks ledger.messageId) = _
            rw [kept bound _ ownTaken]
            exact own
          · obtain ⟨untaken, callback⟩ := listens task newer
            exact ⟨fun taken => untaken (taken.mono (by omega)), callback⟩

section Phases

variable {Buffer : Type}

/-- A push takes one id for its temporary message. -/
def takes : Event Buffer → Nat
  | .onPush _ => 1
  | _ => 0

/-- The opening of an event takes its ids, keeps the store, and notifies only tasks that are in the store. -/
structure Opens (ledger : Ledger) (event : Event Buffer) (opened : Ledger) : Prop where
  messageId : opened.messageId = ledger.messageId + UInt32.ofNat (takes event)
  constructed : opened.constructed = ledger.constructed + takes event
  tasks : opened.tasks = ledger.tasks
  stored : opened.stored = ledger.stored
  calls : ∃ noticed, opened.calls = ledger.calls ++ noticed ∧ ∀ call ∈ noticed, ledger.tasks call.task ≠ none

/-- A notified task is in the store. -/
theorem notices_mem {call : ListenerCall} {noticed : Call} (member : noticed ∈ ledger.notices taskid call) :
    noticed.task = taskid ∧ ledger.tasks taskid ≠ none := by
  cases listening : ledger.listenerOf taskid with
  | none =>
      rw [notices_of_silent listening] at member
      cases member
  | some listener =>
      obtain ⟨entry, found, _, equal⟩ := notices_of_listening listening call
      rw [equal, List.mem_singleton] at member
      exact ⟨by rw [member], by simp [found]⟩

/-- An event without an id can only add calls. -/
theorem opens_notified {event : Event Buffer} (free : takes event = 0) (noticed : List Call)
    (present : ∀ call ∈ noticed, ledger.tasks call.task ≠ none) :
    ledger.Opens event {ledger with calls := ledger.calls ++ noticed} := by
  refine ⟨?_, ?_, rfl, rfl, noticed, rfl, present⟩
  · rw [free]
    exact (UInt32.add_zero _).symm
  · rw [free]
    rfl

theorem opens_self {event : Event Buffer} (free : takes event = 0) : ledger.Opens event ledger := by
  simpa only [List.append_nil] using
    @opens_notified ledger Buffer event free [] (fun _ member => absurd member List.not_mem_nil)

/-- An opening that calls no listener only counts. -/
theorem opens_unheard {event : Event Buffer} {opened : Ledger}
    (messageId : opened.messageId = ledger.messageId + UInt32.ofNat (takes event))
    (constructed : opened.constructed = ledger.constructed + takes event) (tasks : opened.tasks = ledger.tasks)
    (stored : opened.stored = ledger.stored) (calls : opened.calls = ledger.calls) : ledger.Opens event opened := by
  refine ⟨messageId, constructed, tasks, stored, [], ?_, ?_⟩
  · rw [calls, List.append_nil]
  · intro call member
    cases member

/-- The closing changes nothing but the entries. -/
theorem closed_eq (ledger : Ledger) (event : Event Buffer) :
    ledger.closed event = {ledger with tasks := (ledger.closed event).tasks} := by
  cases event <;> rfl

/-- The opening keeps the numbering. -/
theorem Opens.numbered {event : Event Buffer} {opened : Ledger} (opens : ledger.Opens event opened)
    (numbered : ledger.Numbered) : opened.Numbered := by
  have grows : ledger.constructed ≤ opened.constructed := by
    rw [opens.constructed]
    omega
  have same : ledger.stored ⊆ opened.stored := by rw [opens.stored]; exact List.Subset.refl _
  refine ⟨?_, ?_, ?_, ?_⟩
  · rw [opens.messageId, opens.constructed, numbered.counter, idOf, idOf, ← Nat.add_assoc, UInt32.ofNat_add _ (takes _),
      UInt32.ofNat_add]
  · intro taskid entry found
    rw [opens.tasks] at found
    exact (numbered.tasks taskid entry found).mono same
  · obtain ⟨noticed, calls, present⟩ := opens.calls
    intro call member
    rw [calls, List.mem_append] at member
    rcases member with old | new
    · exact (numbered.calls call old).mono same
    · obtain ⟨entry, found⟩ := Option.ne_none_iff_exists'.mp (present call new)
      exact (numbered.tasks call.task entry found).mono same
  · rintro taskid ⟨task, member, rfl⟩
    rw [opens.stored] at member
    exact (numbered.stored task.taskid ⟨task, member, rfl⟩).mono grows

theorem Numbered.closed (numbered : ledger.Numbered) (event : Event Buffer) : (ledger.closed event).Numbered := by
  rw [closed_eq]
  refine ⟨numbered.counter, fun taskid entry found => ?_, numbered.calls, numbered.stored⟩
  obtain same | gone := tasks_closed ledger event taskid
  · exact numbered.tasks taskid entry (same ▸ found)
  · cases gone.symm.trans found

variable [AutoBuffer Buffer]

/-- The opening of every event has the stated effect. -/
theorem opens_opened (event : Event Buffer) : ledger.Opens event (ledger.opened event) := by
  cases event with
  | sendMessage request => exact opens_self rfl
  | registerPushListener listener =>
      exact opens_unheard (UInt32.add_zero _).symm rfl rfl rfl rfl
  | onPush body =>
      rw [opened]
      cases ledger.pushListener with
      | none => exact opens_unheard rfl rfl rfl rfl rfl
      | some listener => exact opens_unheard rfl rfl rfl rfl rfl
  | req2Buf taskid outbuffer => exact opens_self rfl
  | buf2Resp taskid inbuffer =>
      apply opens_notified rfl _
      intro noticed member
      obtain ⟨same, present⟩ := notices_mem member
      rwa [same]
  | onTaskEnd taskid errorType errorCode =>
      apply opens_notified rfl _
      intro noticed member
      obtain ⟨same, present⟩ := notices_mem member
      rwa [same]

/-- A successful turn opens, sends and closes, whatever its sizes and frames are. -/
theorem next_phases {turn : Turn Buffer} (stepped : ledger.next width turn = some next) :
    ∃ opened middle, ledger.Opens turn.event opened ∧
      opened.sendAll width (ledger.turnSends turn) = some middle ∧ next = middle.closed turn.event := by
  obtain ⟨event, sends⟩ := turn
  cases event with
  | sendMessage request =>
      rw [next_sendMessage] at stepped
      refine ⟨ledger, next, opens_self rfl, ?_, rfl⟩
      change PartialRun.run (Ledger.sendMessage width) ledger [request] = some next
      rw [PartialRun.run_cons, stepped, Option.bind_some, PartialRun.run_nil]
  | registerPushListener listener =>
      obtain rfl := Option.some.inj stepped
      exact ⟨_, _, opens_opened (.registerPushListener listener : Event Buffer), rfl, rfl⟩
  | onPush body =>
      rw [next_onPush, onPush_eq] at stepped
      split at stepped
      · simp only [turnSends]
        cases listening : ledger.pushListener with
        | none =>
            rw [listening] at stepped
            obtain rfl := Option.some.inj stepped
            exact ⟨ledger.takeId, _, opens_unheard rfl rfl rfl rfl rfl, rfl, rfl⟩
        | some listener =>
            rw [listening] at stepped
            exact ⟨ledger.pushed listener _, next, opens_unheard rfl rfl rfl rfl rfl, stepped, rfl⟩
      · cases stepped
  | req2Buf taskid outbuffer =>
      rw [next_req2Buf] at stepped
      obtain ⟨_, _, rfl⟩ := Option.map_eq_some_iff.mp stepped
      exact ⟨_, _, opens_opened (.req2Buf taskid outbuffer : Event Buffer), rfl, rfl⟩
  | buf2Resp taskid inbuffer =>
      rw [next_buf2Resp, buf2Resp_eq] at stepped
      obtain ⟨⟨code, reached⟩, handled, rfl⟩ := Option.map_eq_some_iff.mp stepped
      simp only [turnSends]
      cases listening : ledger.listenerOf taskid with
      | none =>
          rw [listening] at handled
          obtain ⟨_, rfl⟩ := Prod.mk.inj (Option.some.inj handled)
          exact ⟨_, _, opens_self rfl, rfl, rfl⟩
      | some listener =>
          simp only [listening] at handled
          split at handled
          · obtain ⟨sent, notified, same⟩ := Option.map_eq_some_iff.mp handled
            obtain ⟨_, rfl⟩ := Prod.mk.inj same
            exact ⟨_, sent, opens_opened _, notified, rfl⟩
          · cases handled
  | onTaskEnd taskid errorType errorCode =>
      rw [next_onTaskEnd, onTaskEnd_eq Buffer] at stepped
      obtain ⟨⟨code, reached⟩, handled, rfl⟩ := Option.map_eq_some_iff.mp stepped
      simp only [turnSends]
      cases listening : ledger.listenerOf taskid with
      | none =>
          rw [listening] at handled
          obtain ⟨_, rfl⟩ := Prod.mk.inj (Option.some.inj handled)
          exact ⟨_, _, opens_self rfl, rfl, rfl⟩
      | some listener =>
          rw [listening] at handled
          obtain ⟨sent, notified, same⟩ := Option.map_eq_some_iff.mp handled
          obtain ⟨_, rfl⟩ := Prod.mk.inj same
          exact ⟨_, sent, opens_opened _, notified, rfl⟩

/-- Every successful turn keeps the numbering, and the count grows by its push and its messages. -/
theorem Numbered.step (numbered : ledger.Numbered) {turn : Turn Buffer} (stepped : ledger.next width turn = some next) :
    next.Numbered ∧ next.constructed = ledger.constructed + takes turn.event + (ledger.turnSends turn).length := by
  obtain ⟨opened, middle, opens, sent, rfl⟩ := next_phases stepped
  obtain ⟨kept, count, _⟩ := (opens.numbered numbered).sendAll sent
  refine ⟨kept.closed turn.event, ?_⟩
  rw [closed_eq, ← opens.constructed, ← count]

theorem Numbered.run (numbered : ledger.Numbered) {turns : List (Turn Buffer)}
    (ran : ledger.run width turns = some next) : next.Numbered :=
  PartialRun.run_invariant (fun _ _ _ kept stepped => (kept.step stepped).1) numbered ran

/-- No turn gives an id back. -/
theorem constructed_le_of_run {turns : List (Turn Buffer)} (numbered : ledger.Numbered)
    (ran : ledger.run width turns = some next) : ledger.constructed ≤ next.constructed := by
  induction turns generalizing ledger with
  | nil =>
      obtain rfl := Option.some.inj ran
      exact Nat.le_refl _
  | cons turn later ih =>
      obtain ⟨middle, stepped, ran⟩ := Option.bind_eq_some_iff.mp ran
      obtain ⟨kept, count⟩ := numbered.step stepped
      have rest := ih kept ran
      omega

end Phases

end Ledger

end MarsWrapper
