import MarsWrapper.Ledger.Numbering
import MarsWrapper.Tasks.ListenerProtocol

namespace MarsWrapper

open Foundation AutoBufferApi

/-- A task id belongs to one live task, and no other role of the sequence number has it. -/
structure Unambiguous (Buffer : Type) [AutoBuffer Buffer] (task : StoredTask) : Prop where
  unkeyed : task.replaced = none
  not_invalid : task.taskid ≠ Task.kInvalidTaskID
  not_signalling : task.taskid ≠ Task.kSignallingKeeperTaskID
  not_identify : task.taskid ≠ Task.kLongLinkIdentifyCheckerTaskID
  not_noop : task.taskid ≠ Task.kNoopTaskID
  not_push : longlinkIspush task.taskid = false
  not_heartbeat : longlinkNoopIsresp task.taskid = false
  packed : ∀ (cmdid : UInt32) (body : Buffer), content (longlinkPack cmdid task.taskid body empty) = content body

/-- The ids between the push range and the reserved ids are free for tasks. -/
def InTaskRange (taskid : UInt32) : Prop := 10000 ≤ taskid.toNat ∧ taskid.toNat < 0xFFFFFFFD

instance (taskid : UInt32) : Decidable (InTaskRange taskid) := inferInstanceAs (Decidable (_ ∧ _))

/-- The roles of the sequence number leave exactly one range for tasks. -/
theorem unambiguous_iff (Buffer : Type) [AutoBuffer Buffer] (task : StoredTask) :
    Unambiguous Buffer task ↔ InTaskRange task.taskid ∧ task.replaced = none := by
  have below := task.taskid.toNat_lt
  constructor
  · intro clear
    refine ⟨⟨?_, ?_⟩, clear.unkeyed⟩
    · have positive : task.taskid.toNat ≠ 0 := fun zero => clear.not_invalid (UInt32.toNat_inj.mp zero)
      by_contra small
      have push : longlinkIspush task.taskid = true := by
        rw [longlinkIspush, Bool.and_eq_true, decide_eq_true_iff, decide_eq_true_iff, UInt32.lt_iff_toNat_lt,
          UInt32.lt_iff_toNat_lt]
        exact ⟨Nat.pos_of_ne_zero positive, Nat.not_le.mp small⟩
      exact Bool.false_ne_true (clear.not_push.symm.trans push)
    · have first : task.taskid.toNat ≠ 0xFFFFFFFD := fun same => clear.not_signalling (UInt32.toNat_inj.mp same)
      have second : task.taskid.toNat ≠ 0xFFFFFFFE := fun same => clear.not_identify (UInt32.toNat_inj.mp same)
      have third : task.taskid.toNat ≠ 0xFFFFFFFF := fun same => clear.not_noop (UInt32.toNat_inj.mp same)
      omega
  · rintro ⟨⟨low, high⟩, unkeyed⟩
    have apart {reserved : UInt32} (outside : reserved.toNat < 10000 ∨ 0xFFFFFFFD ≤ reserved.toNat) :
        task.taskid ≠ reserved := by
      rintro rfl
      omega
    have message : task.taskid ≠ Task.kNoopTaskID := apart (by decide)
    refine ⟨unkeyed, apart (by decide), apart (by decide), apart (by decide), message, ?_, ?_, ?_⟩
    · rw [longlinkIspush, Bool.and_eq_false_iff, decide_eq_false_iff_not, decide_eq_false_iff_not,
        UInt32.lt_iff_toNat_lt, UInt32.lt_iff_toNat_lt]
      exact Or.inr (Nat.not_lt.mpr low)
    · exact beq_eq_false_iff_ne.mpr message.symm
    · exact fun cmdid body => content_longlinkPack cmdid task.taskid body message

section Histories

/-- Three kinds of events matter for the ids. -/
inductive IdEvent where
  | push
  | send
  | ended (taskid : UInt32)
  deriving DecidableEq

/-- A push and a send take one id each. -/
def IdEvent.takesId : IdEvent → Bool
  | .push | .send => true
  | .ended _ => false

def idsTaken (history : List IdEvent) : Nat := history.countP IdEvent.takesId

/-- The task was sent under this id and has not ended since. -/
def Waiting (history : List IdEvent) (taskid : UInt32) : Prop :=
  ∃ earlier between, history = earlier ++ .send :: between ∧ idOf (idsTaken earlier) = taskid ∧
    .ended taskid ∉ between

/-- At every send the counter stands in the task range and on no waiting task. -/
def CounterClean (history : List IdEvent) : Prop :=
  ∀ before after, history = before ++ .send :: after →
    InTaskRange (idOf (idsTaken before)) ∧ ¬Waiting before (idOf (idsTaken before))

theorem idsTaken_append (history later : List IdEvent) :
    idsTaken (history ++ later) = idsTaken history + idsTaken later := List.countP_append

/-- The last event of a list either is the marked event or comes after it. -/
theorem append_singleton_eq_split {E : Type} {history before after : List E} {last marked : E} :
    history ++ [last] = before ++ marked :: after ↔
      (before = history ∧ marked = last ∧ after = []) ∨
        ∃ rest, after = rest ++ [last] ∧ history = before ++ marked :: rest := by
  constructor
  · intro split
    rcases List.eq_nil_or_concat' after with rfl | ⟨rest, final, rfl⟩
    · obtain ⟨same, equal⟩ := List.append_inj' split rfl
      exact Or.inl ⟨same.symm, (List.singleton_inj.mp equal).symm, rfl⟩
    · rw [← List.cons_append, ← List.append_assoc] at split
      obtain ⟨same, equal⟩ := List.append_inj' split rfl
      obtain rfl := List.singleton_inj.mp equal
      exact Or.inr ⟨rest, rfl, same⟩
  · rintro (⟨rfl, rfl, rfl⟩ | ⟨rest, rfl, rfl⟩)
    · rfl
    · rw [List.append_assoc, List.cons_append]

/-- A send starts to wait, and an end stops waiting. -/
theorem waiting_snoc (history : List IdEvent) (event : IdEvent) (taskid : UInt32) :
    Waiting (history ++ [event]) taskid ↔
      (event = .send ∧ idOf (idsTaken history) = taskid) ∨ (Waiting history taskid ∧ event ≠ .ended taskid) := by
  constructor
  · rintro ⟨earlier, between, split, own, waits⟩
    rcases append_singleton_eq_split.mp split with ⟨rfl, rfl, rfl⟩ | ⟨rest, rfl, rfl⟩
    · exact Or.inl ⟨rfl, own⟩
    · rw [List.mem_append, List.mem_singleton, not_or] at waits
      exact Or.inr ⟨⟨earlier, rest, rfl, own, waits.1⟩, Ne.symm waits.2⟩
  · rintro (⟨rfl, own⟩ | ⟨⟨earlier, rest, rfl, own, waits⟩, other⟩)
    · exact ⟨history, [], rfl, own, List.not_mem_nil⟩
    · refine ⟨earlier, rest ++ [event], by rw [List.append_assoc, List.cons_append], own, ?_⟩
      rw [List.mem_append, List.mem_singleton, not_or]
      exact ⟨waits, other.symm⟩

/-- Only a send can spoil a clean counter. -/
theorem counterClean_snoc (history : List IdEvent) (event : IdEvent) :
    CounterClean (history ++ [event]) ↔ CounterClean history ∧
      (event = .send → InTaskRange (idOf (idsTaken history)) ∧ ¬Waiting history (idOf (idsTaken history))) := by
  constructor
  · intro clean
    constructor
    · rintro before after rfl
      exact clean before (after ++ [event]) (by rw [List.append_assoc, List.cons_append])
    · rintro rfl
      exact clean history [] rfl
  · rintro ⟨clean, last⟩ before after split
    rcases append_singleton_eq_split.mp split with ⟨rfl, rfl, rfl⟩ | ⟨rest, rfl, rfl⟩
    · exact last rfl
    · exact clean before rest rfl

/-- The counter is clean until it reaches the first reserved id. -/
theorem counterClean_of_few {history : List IdEvent} (few : idsTaken history ≤ 0xFFFFFFFD - 10000) :
    CounterClean history := by
  rintro before after rfl
  rw [idsTaken_append] at few
  have one : 0 < idsTaken (.send :: after) := List.countP_pos_iff.mpr ⟨.send, List.mem_cons_self, rfl⟩
  have value : (idOf (idsTaken before)).toNat = 10000 + idsTaken before := by
    rw [idOf, UInt32.toNat_ofNat', Nat.mod_eq_of_lt (by omega)]
  refine ⟨⟨by omega, by omega⟩, ?_⟩
  rintro ⟨earlier, between, rfl, own, _⟩
  have older : 0 < idsTaken (.send :: between) := List.countP_pos_iff.mpr ⟨.send, List.mem_cons_self, rfl⟩
  rw [idsTaken_append] at own few
  rw [idOf_eq_iff] at own
  omega

end Histories

section Phases

variable {Buffer : Type}

/-- The temporary message of a push takes its id first. -/
def openingIds : Event Buffer → List IdEvent
  | .onPush _ => [.push]
  | _ => []

/-- The end of a task comes last. -/
def closingIds : Event Buffer → List IdEvent
  | .onTaskEnd taskid _ _ => [.ended taskid]
  | _ => []

theorem idsTaken_openingIds (event : Event Buffer) : idsTaken (openingIds event) = Ledger.takes event := by
  cases event <;> rfl

end Phases

namespace Ledger

/-- The history of a ledger tells which ids are taken and which tasks wait. -/
structure Follows (Buffer : Type) [AutoBuffer Buffer] (ledger : Ledger) (history : List IdEvent) : Prop where
  numbered : ledger.Numbered
  taken : ledger.constructed = idsTaken history
  tasks : ∀ taskid, ledger.tasks taskid ≠ none ↔ Waiting history taskid
  stored : (∀ task ∈ ledger.stored, Unambiguous Buffer task) ↔ CounterClean history

namespace Follows

variable {Buffer : Type} [AutoBuffer Buffer] {ledger next : Ledger} {history : List IdEvent} {width : SizeT}

theorem initial : Follows Buffer Ledger.initial [] where
  numbered := Numbered.initial
  taken := rfl
  tasks taskid := by
    refine ⟨fun present => (present rfl).elim, ?_⟩
    rintro ⟨earlier, between, split, _⟩
    cases (List.append_eq_nil_iff.mp split.symm).2
  stored := by
    refine ⟨fun _ before after split => ?_, fun _ => nofun⟩
    cases (List.append_eq_nil_iff.mp split.symm).2

/-- The id of a message is the id that the history gives to it. -/
theorem messageId_eq (follows : Follows Buffer ledger history) : ledger.messageId = idOf (idsTaken history) := by
  rw [follows.numbered.counter, follows.taken]

theorem sendMessage (follows : Follows Buffer ledger history) {request : SendRequest}
    (sent : ledger.sendMessage width request = some next) : Follows Buffer next (history ++ [.send]) := by
  obtain ⟨numbered, count, _, own, other, stored⟩ := follows.numbered.sendMessage sent
  refine ⟨numbered, ?_, fun taskid => ?_, ?_⟩
  · rw [count, follows.taken, idsTaken_append]
    rfl
  · rw [waiting_snoc, ← follows.messageId_eq]
    by_cases same : ledger.messageId = taskid
    · obtain ⟨entry, found, _⟩ := Option.map_eq_some_iff.mp own
      rw [← same, found]
      exact iff_of_true (Option.some_ne_none entry) (Or.inl ⟨rfl, rfl⟩)
    · rw [other taskid (Ne.symm same), follows.tasks taskid]
      simp [same]
  · rw [stored, counterClean_snoc, ← follows.stored, ← follows.messageId_eq, ← follows.tasks, List.forall_mem_append,
      List.forall_mem_singleton, unambiguous_iff, not_not, Option.map_eq_none_iff]
    simp

theorem sendAll (follows : Follows Buffer ledger history) {requests : List SendRequest}
    (sent : ledger.sendAll width requests = some next) :
    Follows Buffer next (history ++ List.replicate requests.length .send) := by
  induction requests generalizing ledger history with
  | nil =>
      obtain rfl := Option.some.inj sent
      rw [List.length_nil, List.replicate_zero, List.append_nil]
      exact follows
  | cons request later ih =>
      rw [Ledger.sendAll, PartialRun.run_cons] at sent
      obtain ⟨middle, first, rest⟩ := Option.bind_eq_some_iff.mp sent
      have kept := ih (follows.sendMessage first) rest
      rwa [List.append_assoc] at kept

/-- A push takes one id, and every other event opens without a trace. -/
theorem opened (follows : Follows Buffer ledger history) {event : Event Buffer} {opened : Ledger}
    (opens : ledger.Opens event opened) : Follows Buffer opened (history ++ openingIds event) := by
  have kept (history' : List IdEvent) (same : history' = history ∨ history' = history ++ [.push]) :
      (∀ taskid, Waiting history' taskid ↔ Waiting history taskid) ∧ (CounterClean history' ↔ CounterClean history) := by
    rcases same with rfl | rfl
    · exact ⟨fun _ => Iff.rfl, Iff.rfl⟩
    · exact ⟨fun taskid => by simp [waiting_snoc], by simp [counterClean_snoc]⟩
  obtain ⟨waiting, clean⟩ := kept (history ++ openingIds event) (by cases event <;> simp [openingIds])
  refine ⟨opens.numbered follows.numbered, ?_, fun taskid => ?_, ?_⟩
  · rw [opens.constructed, follows.taken, idsTaken_append, idsTaken_openingIds]
  · rw [opens.tasks, waiting, follows.tasks]
  · rw [opens.stored, clean, follows.stored]

/-- Only the end of a task stops its waiting. -/
theorem closed (follows : Follows Buffer ledger history) (event : Event Buffer) :
    Follows Buffer (ledger.closed event) (history ++ closingIds event) := by
  cases event with
  | onTaskEnd ended errorType errorCode =>
      refine ⟨follows.numbered.closed _, ?_, fun taskid => ?_, ?_⟩
      · rw [idsTaken_append]
        exact follows.taken
      · change (ledger.remove ended).tasks taskid ≠ none ↔ Waiting (history ++ [.ended ended]) taskid
        rw [waiting_snoc]
        by_cases same : taskid = ended
        · rw [same, tasks_remove_self]
          simp
        · rw [tasks_remove_of_ne ledger same, follows.tasks]
          simp [Ne.symm same]
      · change (∀ task ∈ ledger.stored, _) ↔ CounterClean (history ++ [.ended ended])
        rw [follows.stored, counterClean_snoc]
        simp
  | _ =>
      change Follows Buffer ledger (history ++ [])
      rwa [List.append_nil]

end Follows

variable {Buffer : Type} [AutoBuffer Buffer]

/-- One turn takes an id for its push and for each of its messages, and may end one task. -/
def idEvents (ledger : Ledger) (turn : Turn Buffer) : List IdEvent :=
  openingIds turn.event ++ List.replicate (ledger.turnSends turn).length .send ++ closingIds turn.event

/-- The history of a run lists its pushes, its messages and its ended tasks in their order. -/
def idHistory (width : SizeT) (ledger : Ledger) : List (Turn Buffer) → List IdEvent
  | [] => []
  | turn :: later =>
    ledger.idEvents turn ++
      match ledger.next width turn with
      | none => []
      | some next => next.idHistory width later

theorem Follows.next {ledger next : Ledger} {history : List IdEvent} (follows : Follows Buffer ledger history)
    {width : SizeT} {turn : Turn Buffer} (stepped : ledger.next width turn = some next) :
    Follows Buffer next (history ++ ledger.idEvents turn) := by
  obtain ⟨opened, middle, opens, sent, rfl⟩ := next_phases stepped
  have kept := ((follows.opened opens).sendAll sent).closed turn.event
  rwa [List.append_assoc, List.append_assoc, ← List.append_assoc (openingIds _)] at kept

/-- The history of a run follows the run. -/
theorem Follows.run {ledger final : Ledger} {history : List IdEvent} (follows : Follows Buffer ledger history)
    {width : SizeT} {turns : List (Turn Buffer)} (ran : ledger.run width turns = some final) :
    Follows Buffer final (history ++ ledger.idHistory width turns) := by
  induction turns generalizing ledger history with
  | nil =>
      obtain rfl := Option.some.inj ran
      rw [idHistory, List.append_nil]
      exact follows
  | cons turn later ih =>
      obtain ⟨next, stepped, rest⟩ := Option.bind_eq_some_iff.mp ran
      have kept := ih (follows.next stepped) rest
      rw [idHistory, stepped]
      rwa [List.append_assoc] at kept

end Ledger

section Quiet

variable {Buffer : Type}

/-- Without messages from inside listeners the events alone tell the history. -/
def Event.idEvents : Event Buffer → List IdEvent
  | .sendMessage _ => [.send]
  | .onPush _ => [.push]
  | .onTaskEnd taskid _ _ => [.ended taskid]
  | .registerPushListener _ | .req2Buf _ _ | .buf2Resp _ _ => []

theorem Ledger.idEvents_quiet (ledger : Ledger) (event : Event Buffer) :
    ledger.idEvents event.quiet = event.idEvents := by
  have silent : event.idEvents = openingIds event ++ List.replicate (ledger.turnSends event.quiet).length .send ++
      closingIds event := by
    cases event with
    | onPush body =>
        simp only [turnSends, Event.quiet]
        cases ledger.pushListener <;> rfl
    | buf2Resp taskid inbuffer =>
        simp only [turnSends, Event.quiet]
        cases ledger.listenerOf taskid <;> rfl
    | onTaskEnd taskid errorType errorCode =>
        simp only [turnSends, Event.quiet]
        cases ledger.listenerOf taskid <;> rfl
    | _ => rfl
  exact silent.symm

theorem Ledger.idHistory_quiet [AutoBuffer Buffer] {ledger final : Ledger} {width : SizeT} {events : List (Event Buffer)}
    (ran : ledger.run width (events.map Event.quiet) = some final) :
    ledger.idHistory width (events.map Event.quiet) = events.flatMap Event.idEvents := by
  induction events generalizing ledger with
  | nil => rfl
  | cons event later ih =>
      obtain ⟨next, stepped, rest⟩ := Option.bind_eq_some_iff.mp ran
      rw [List.map_cons, idHistory, stepped, idEvents_quiet, List.flatMap_cons]
      exact congrArg (_ ++ ·) (ih rest)

end Quiet

section Runs

variable {Buffer : Type} [AutoBuffer Buffer] {width : SizeT} {turns : List (Turn Buffer)} {final : State}

/-- The ledger follows every run of the wrapper. -/
theorem State.follows_run (ran : State.initial.run width turns = some final) :
    Ledger.Follows Buffer final.ledger (Ledger.initial.idHistory width turns) ∧
      Ledger.initial.run width turns = some final.ledger := by
  have refined := (Owned.initial.run_refines width turns).view_eq
  rw [ran, Option.map_some] at refined
  have abstractly : Ledger.initial.run width turns = some final.ledger := refined.symm
  exact ⟨by simpa only [List.nil_append] using Ledger.Follows.initial.run abstractly, abstractly⟩

/-- The task ids of a run are unambiguous exactly when its counter is clean. -/
theorem taskIds (ran : State.initial.run width turns = some final) :
    (∀ task ∈ final.stored, Unambiguous Buffer task) ↔ CounterClean (Ledger.initial.idHistory width turns) :=
  (State.follows_run ran).1.stored

end Runs

/-- The one task of the echo run is unambiguous. -/
theorem taskIds_echo :
    ∃ final, State.initial.run .bits64 echoRun = some final ∧ ∀ task ∈ final.stored, Unambiguous ByteBuffer task := by
  obtain ⟨final, ran, _⟩ := State.run_valid .bits64 echoRun (by decide)
  have history : Ledger.initial.idHistory .bits64 echoRun = [.send, .ended 10000] :=
    Ledger.idHistory_quiet (State.follows_run ran).2
  refine ⟨final, ran, (taskIds ran).mpr ?_⟩
  rw [history]
  exact counterClean_of_few (by decide)

/-- Enough empty pushes lead the counter to a reserved id. -/
def reservedRun : List (Event ByteBuffer) :=
  List.replicate 4294957293 (.onPush (ByteBuffer.ofBytes [])) ++ [.sendMessage ⟨[], 0, none⟩]

/-- This message gets the id of the signalling keeper. -/
theorem taskIds_reserved :
    ∃ final, State.initial.run .bits64 (reservedRun.map Event.quiet) = some final ∧
      ¬∀ task ∈ final.stored, Unambiguous ByteBuffer task := by
  have valid : ∀ turn ∈ reservedRun.map Event.quiet, turn.Valid := by
    intro turn member
    obtain ⟨event, listed, rfl⟩ := List.mem_map.mp member
    rcases List.mem_append.mp listed with push | send
    · rw [List.eq_of_mem_replicate push]
      decide
    · rw [List.mem_singleton.mp send]
      decide
  obtain ⟨final, ran, _⟩ := State.run_valid .bits64 (reservedRun.map Event.quiet) valid
  obtain ⟨follows, abstractly⟩ := State.follows_run ran
  have pushes : (List.replicate 4294957293 (Event.onPush (ByteBuffer.ofBytes []))).flatMap Event.idEvents =
      List.replicate 4294957293 .push := by
    rw [List.flatMap_replicate]
    exact List.flatten_replicate_singleton
  have history : Ledger.initial.idHistory .bits64 (reservedRun.map Event.quiet) =
      List.replicate 4294957293 .push ++ .send :: [] := by
    rw [Ledger.idHistory_quiet abstractly, reservedRun, List.flatMap_append, pushes]
    rfl
  have count : idsTaken (List.replicate 4294957293 .push) = 4294957293 := by
    rw [idsTaken, List.countP_replicate]
    rfl
  refine ⟨final, ran, fun clear => ?_⟩
  have range := (follows.stored.mp clear _ _ history).1
  rw [count] at range
  exact absurd range (by decide)

end MarsWrapper
