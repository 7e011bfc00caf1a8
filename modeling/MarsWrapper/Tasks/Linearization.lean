import MarsWrapper.Foundation.ObservedRun
import MarsWrapper.Tasks.Interleaving

namespace MarsWrapper

open Foundation AutoBufferApi

/-- An entry without its context number shows what the wrapper knows about a task. -/
def Entry.parcel (entry : Entry) : ImMessage × UInt32 × Option Listener :=
  (entry.message, entry.size, entry.respCallback)

/-- A listener is told about a task, whatever the address of its context. -/
def Call.told (call : Call) : UInt32 × Listener × ListenerCall := (call.task, call.listener, call.call)

/-- Every answer but the result of a send goes to the engine or to the registering caller. -/
def Answer.notSent {Buffer : Type} : Answer Buffer → Bool
  | .sendMessage _ => false
  | _ => true

/-- This is what a call puts into the store. -/
def SendCall.parcel (width : SizeT) (call : SendCall) : ImMessage × UInt32 × Option Listener :=
  (ImMessage.framed call.taskid call.request.body, (call.context width).size, call.request.callback)

namespace Ledger

/-- The two ledgers differ at most in their entries, their context numbers and the order of their tasks. -/
structure Alike (first second : Ledger) : Prop where
  messageId : second.messageId = first.messageId
  constructed : second.constructed = first.constructed
  pushListener : second.pushListener = first.pushListener
  pushes : second.pushes = first.pushes
  told : second.calls.map Call.told = first.calls.map Call.told

/-- The two ledgers have the same parcel for this task. -/
def SameParcel (first second : Ledger) (taskid : UInt32) : Prop :=
  (second.tasks taskid).map Entry.parcel = (first.tasks taskid).map Entry.parcel

/-- An event about a task reads the entry of this task and no other. -/
def reads {Buffer : Type} : Event Buffer → Option UInt32
  | .req2Buf taskid _ | .buf2Resp taskid _ | .onTaskEnd taskid _ _ => some taskid
  | .sendMessage _ | .registerPushListener _ | .onPush _ => none

section SameParcel

variable {first second : Ledger} {taskid : UInt32} (same : SameParcel first second taskid)
include same

/-- Equal parcels are both missing, or they have the same message and the same listener. -/
theorem SameParcel.cases :
    (first.tasks taskid = none ∧ second.tasks taskid = none) ∨
      ∃ entry entry', first.tasks taskid = some entry ∧ second.tasks taskid = some entry' ∧
        entry'.message = entry.message ∧ entry'.respCallback = entry.respCallback := by
  rw [SameParcel] at same
  cases found : first.tasks taskid with
  | none =>
      rw [found, Option.map_none, Option.map_eq_none_iff] at same
      exact Or.inl ⟨rfl, same⟩
  | some entry =>
      rw [found, Option.map_some] at same
      obtain ⟨entry', found', equal⟩ := Option.map_eq_some_iff.mp same
      obtain ⟨message, rest⟩ := Prod.mk.inj equal
      exact Or.inr ⟨entry, entry', rfl, found', message, (Prod.mk.inj rest).2⟩

theorem SameParcel.listenerOf : second.listenerOf taskid = first.listenerOf taskid := by
  rw [Ledger.listenerOf, Ledger.listenerOf]
  obtain ⟨absent, absent'⟩ | ⟨entry, entry', found, found', _, callback⟩ := same.cases
  · rw [absent, absent']
  · rw [found, found', Option.bind_some, Option.bind_some, callback]

/-- The listener of the task is told the same. -/
theorem SameParcel.notices (call : ListenerCall) :
    (second.notices taskid call).map Call.told = (first.notices taskid call).map Call.told := by
  obtain ⟨absent, absent'⟩ | ⟨entry, entry', found, found', _, callback⟩ := same.cases
  · simp only [Ledger.notices, absent, absent']
  · simp only [Ledger.notices, found, found', callback]
    cases entry.respCallback <;> rfl

/-- The engine gets the same bytes for the task. -/
theorem SameParcel.answer_req2Buf {Buffer : Type} [AutoBufferApi Buffer] (outbuffer : Buffer) :
    second.answer (.req2Buf taskid outbuffer) = first.answer (.req2Buf taskid outbuffer) := by
  obtain ⟨absent, absent'⟩ | ⟨entry, entry', found, found', message, _⟩ := same.cases
  · simp only [answer, absent, absent']
  · simp only [answer, found, found', message]

end SameParcel

section Steps

variable {Buffer : Type} [AutoBuffer Buffer] {width : SizeT} {first second : Ledger} {event : Event Buffer}

/-- The engine gets the same answer when the ledgers agree about the task of its event. -/
theorem answer_alike (parcels : ∀ taskid, reads event = some taskid → SameParcel first second taskid) :
    second.answer event = first.answer event := by
  cases event with
  | req2Buf taskid outbuffer => exact (parcels taskid rfl).answer_req2Buf outbuffer
  | buf2Resp taskid inbuffer => simp only [answer, (parcels taskid rfl).listenerOf]
  | _ => rfl

/-- A quiet event that sends nothing opens and closes. -/
theorem after_quiet (ledger : Ledger) (unsent : ∀ request, event ≠ .sendMessage request) :
    ledger.after width event.quiet = (ledger.opened event).closed event := by
  cases event with
  | sendMessage request => exact (unsent request rfl).elim
  | onPush body =>
      simp only [after, Event.quiet, turnSends]
      cases ledger.pushListener <;> rfl
  | buf2Resp taskid inbuffer =>
      simp only [after, Event.quiet, turnSends]
      cases ledger.listenerOf taskid <;> rfl
  | onTaskEnd taskid errorType errorCode =>
      simp only [after, Event.quiet, turnSends]
      cases ledger.listenerOf taskid <;> rfl
  | _ => rfl

/-- After the same event the ledgers are still alike. -/
theorem Alike.after (alike : Alike first second) (unsent : ∀ request, event ≠ .sendMessage request)
    (parcels : ∀ taskid, reads event = some taskid → SameParcel first second taskid) :
    Alike (first.after width event.quiet) (second.after width event.quiet) := by
  obtain ⟨messageId, constructed, pushListener, pushes, told⟩ := alike
  have noticed (taskid : UInt32) (call : ListenerCall) (same : SameParcel first second taskid) :
      (second.calls ++ second.notices taskid call).map Call.told =
        (first.calls ++ first.notices taskid call).map Call.told := by
    rw [List.map_append, List.map_append, told, same.notices call]
  rw [after_quiet first unsent, after_quiet second unsent]
  cases event with
  | sendMessage request => exact (unsent request rfl).elim
  | registerPushListener listener => exact ⟨messageId, constructed, rfl, pushes, told⟩
  | onPush body =>
      have messageId' : second.takeId.messageId = first.takeId.messageId := congrArg (· + 1) messageId
      have constructed' : second.takeId.constructed = first.takeId.constructed := congrArg (· + 1) constructed
      simp only [opened, closed, pushListener]
      cases first.pushListener with
      | none => exact ⟨messageId', constructed', pushListener, pushes, told⟩
      | some listener => exact ⟨messageId', constructed', pushListener, congrArg (· ++ _) pushes, told⟩
  | req2Buf taskid outbuffer => exact ⟨messageId, constructed, pushListener, pushes, told⟩
  | buf2Resp taskid inbuffer =>
      exact ⟨messageId, constructed, pushListener, pushes, noticed taskid _ (parcels taskid rfl)⟩
  | onTaskEnd taskid errorType errorCode =>
      exact ⟨messageId, constructed, pushListener, pushes, noticed taskid _ (parcels taskid rfl)⟩

/-- A quiet event erases at most the entry of the task that it ends. -/
theorem tasks_after_quiet (ledger : Ledger) (unsent : ∀ request, event ≠ .sendMessage request) :
    (ledger.after width event.quiet).tasks = (ledger.closed event).tasks := by
  rw [after_quiet ledger unsent]
  have same := tasks_opened ledger event
  cases event with
  | onTaskEnd taskid errorType errorCode => rfl
  | _ => exact same

end Steps

end Ledger

namespace System

section Definitions

variable {Buffer : Type} [AutoBufferApi Buffer]

/-- A step of the engine shows its answer, and the steps inside a call show nothing. -/
def act (width : SizeT) (system : System) : Action Buffer → Option (List (Answer Buffer) × System)
  | .engine event => do
    let (answer, state) ← system.state.step width event.quiet
    return ([answer], ⟨state, fun number => (system.calls number).map (SendCall.after event)⟩)
  | .construct request => (system.next width (Action.construct request : Action Buffer)).map (Prod.mk [])
  | .storeContext number => (system.next width (Action.storeContext number : Action Buffer)).map (Prod.mk [])
  | .startTask number => (system.next width (Action.startTask number : Action Buffer)).map (Prod.mk [])

/-- The steps of all callers and of the engine interleave, and the answers to the engine are observed. -/
abbrev Trace (width : SizeT) : List (Action Buffer) → List (Answer Buffer) → System → Prop :=
  ObservedRun.Traces (System.act width) System.Enabled System.initial

/-- Each call takes effect at its first step, and its other steps do nothing. -/
def serial : Action Buffer → List (Turn Buffer)
  | .construct request => [(Event.sendMessage request).quiet]
  | .storeContext _ | .startTask _ => []
  | .engine event => [event.quiet]

/-- The system and the state have told the listeners the same, and they hold the same for every addressable task. -/
structure Resembles (system : System) (state : State) : Prop where
  messageId : state.messageId = system.state.messageId
  pushListener : state.pushListener = system.state.pushListener
  pushes : state.pushes = system.state.pushes
  told : state.calls.map Call.told = system.state.calls.map Call.told
  parcels : ∀ taskid, system.Addressable taskid →
    (state.entry taskid).map Entry.parcel = (system.state.entry taskid).map Entry.parcel

theorem next_of_act {width : SizeT} {system following : System} {action : Action Buffer}
    {shown : List (Answer Buffer)} (acted : system.act width action = some (shown, following)) :
    system.next width action = some following := by
  have silent (stepped : (system.next width action).map (Prod.mk []) = some (shown, following)) :
      system.next width action = some following := by
    obtain ⟨reached, stepped, same⟩ := Option.map_eq_some_iff.mp stepped
    rw [stepped, (Prod.mk.inj same).2]
  cases action with
  | engine event =>
      obtain ⟨⟨answer, state⟩, stepped, same⟩ := Option.bind_eq_some_iff.mp acted
      obtain ⟨_, rfl⟩ := Prod.mk.inj (Option.some.inj same)
      rw [next, State.next, stepped]
      rfl
  | construct request => exact silent acted
  | storeContext number => exact silent acted
  | startTask number => exact silent acted

/-- A trace is a run of the system. -/
theorem Trace.run {width : SizeT} {actions : List (Action Buffer)} {answers : List (Answer Buffer)} {system : System}
    (traced : System.Trace width actions answers system) : Run Buffer width system := by
  induction traced with
  | nil => exact Run.initial
  | snoc traced action allowed acted ih => exact ih.step action allowed (next_of_act acted)

end Definitions

/-- The atomic ledger has an entry for every call from its first step to the end of its task. -/
structure Serialized (width : SizeT) (system : System) (ledger : Ledger) : Prop where
  sound : system.Sound width
  framed : ledger.Framed
  alike : Ledger.Alike system.state.ledger ledger
  present : ∀ {number call}, system.calls number = some call → call.progress ≠ .ended →
    (ledger.tasks call.taskid).map Entry.parcel = some (call.parcel width)
  absent : ∀ {taskid entry}, ledger.tasks taskid = some entry →
    ∃ number call, system.calls number = some call ∧ call.progress ≠ .ended ∧ call.taskid = taskid

namespace Serialized

variable {width : SizeT} {system : System} {ledger : Ledger}

theorem initial : Serialized width System.initial Ledger.initial where
  sound := Sound.initial
  framed := Ledger.Framed.initial
  alike := ⟨rfl, rfl, rfl, rfl, rfl⟩
  present found := by cases found
  absent found := by cases found

variable (serialized : Serialized width system ledger)
include serialized

/-- A started call has the same parcel in both stores. -/
theorem sameParcel {taskid : UInt32} (addressable : system.Addressable taskid) :
    Ledger.SameParcel system.state.ledger ledger taskid := by
  have sound := serialized.sound
  change (ledger.tasks taskid).map Entry.parcel = (system.state.entry taskid).map Entry.parcel
  cases found : ledger.tasks taskid with
  | some entry =>
      obtain ⟨number, call, member, active, rfl⟩ := serialized.absent found
      have inside : call.InStore := Or.inr ((addressable number call member rfl).resolve_right active)
      obtain ⟨ctx, link⟩ := sound.linked member inside
      rw [← found, serialized.present member active, State.entry_of_linked link]
      rfl
  | none =>
      cases key : system.state.getTaskConext taskid with
      | none => rw [State.entry_of_none key]
      | some ctx =>
          obtain ⟨number, call, member, inside, rfl⟩ := sound.keys key
          have own := serialized.present member inside.active
          rw [found] at own
          cases own

/-- A call that goes on inside the store changes nothing for the atomic ledger. -/
theorem moved {number : Nat} {call : SendCall} {progress : Progress} {state : State}
    (sound : Sound width ⟨state, Function.update system.calls number (some {call with progress := progress})⟩)
    (found : system.calls number = some call) (active : call.progress ≠ .ended) (unended : progress ≠ .ended)
    (alike : Ledger.Alike state.ledger ledger) :
    Serialized width ⟨state, Function.update system.calls number (some {call with progress := progress})⟩ ledger where
  sound := sound
  framed := serialized.framed
  alike := alike
  present lookup unended := by
    obtain ⟨rfl, rfl⟩ | ⟨_, before⟩ := calls_update lookup
    · have own := serialized.present found active
      exact own
    · exact serialized.present before unended
  absent entry := by
    obtain ⟨other, second, found', alive, same⟩ := serialized.absent entry
    by_cases equal : other = number
    · subst equal
      obtain rfl := Option.some.inj (found.symm.trans found')
      exact ⟨other, _, Function.update_self .., unended, same⟩
    · exact ⟨other, second, (Function.update_of_ne equal ..).trans found', alive, same⟩

/-- The first step of a call is the whole send of the atomic ledger. -/
theorem construct (bound : system.state.constructed < 2 ^ 32) {request : SendRequest} (valid : request.Valid) :
    Serialized width
      ⟨{ system.state with
          messageId := system.state.messageId + 1
          constructed := system.state.constructed + 1
          messages := system.state.messages.alloc (ImMessage.framed system.state.messageId request.body) },
        Function.update system.calls system.state.constructed
          (some ⟨request, system.state.messages.next, system.state.messageId, .constructed⟩)⟩
      (ledger.sent width request) := by
  have sound := serialized.sound
  obtain ⟨messageId, constructed, pushListener, pushes, told⟩ := serialized.alike
  change ledger.messageId = system.state.messageId at messageId
  have fresh {number : Nat} {call : SendCall} (found : system.calls number = some call) :
      call.taskid ≠ ledger.messageId := by
    obtain ⟨below, id, _⟩ := sound.numbered found
    rw [id, messageId, sound.counter, Ne, idOf_eq_iff]
    omega
  refine ⟨sound.construct valid, serialized.framed.sent width valid, ⟨?_, ?_, pushListener, pushes, told⟩, ?_, ?_⟩
  · exact congrArg (· + 1) messageId
  · exact congrArg (· + 1) constructed
  · intro number call lookup active
    obtain ⟨rfl, rfl⟩ | ⟨_, before⟩ := calls_update lookup
    · change ((ledger.takeId.store width _ ledger.messageId request).tasks system.state.messageId).map _ = _
      rw [← messageId, Ledger.tasks_store_self]
      rfl
    · rw [← serialized.present before active]
      exact congrArg (Option.map _) (Ledger.tasks_store_of_ne _ _ _ _ (fresh before))
  · intro taskid entry found
    by_cases same : taskid = ledger.messageId
    · exact ⟨system.state.constructed, _, Function.update_self .., nofun, (same.trans messageId).symm⟩
    · obtain ⟨number, call, before, active, own⟩ :=
        serialized.absent ((Ledger.tasks_store_of_ne _ _ _ _ same).symm.trans found)
      have older : number ≠ system.state.constructed := by
        have below := (sound.numbered before).1
        omega
      exact ⟨number, call, (Function.update_of_ne older ..).trans before, active, own⟩

variable {Buffer : Type} [AutoBuffer Buffer]

/-- The end of an addressable task ends the same call on both sides. -/
theorem tasks_after {event : Event Buffer} (enabled : system.Enabled (.engine event)) :
    (∀ {number call}, (system.calls number).map (SendCall.after event) = some call → call.progress ≠ .ended →
      ((ledger.after width event.quiet).tasks call.taskid).map Entry.parcel = some (call.parcel width)) ∧
    ∀ {taskid entry}, (ledger.after width event.quiet).tasks taskid = some entry →
      ∃ number call, (system.calls number).map (SendCall.after event) = some call ∧ call.progress ≠ .ended ∧
        call.taskid = taskid := by
  have unsent : ∀ request, event ≠ .sendMessage request := by
    rintro request rfl
    exact enabled.2.elim
  rw [Ledger.tasks_after_quiet ledger unsent]
  have others (unended : ∀ taskid errorType errorCode, event ≠ .onTaskEnd taskid errorType errorCode)
      (same : (ledger.closed event).tasks = ledger.tasks) :
      (∀ {number call}, (system.calls number).map (SendCall.after event) = some call → call.progress ≠ .ended →
        ((ledger.closed event).tasks call.taskid).map Entry.parcel = some (call.parcel width)) ∧
      ∀ {taskid entry}, (ledger.closed event).tasks taskid = some entry →
        ∃ number call, (system.calls number).map (SendCall.after event) = some call ∧ call.progress ≠ .ended ∧
          call.taskid = taskid := by
    rw [SendCall.after_of_not_end event unended, same]
    simp only [Option.map_id']
    exact ⟨serialized.present, serialized.absent⟩
  cases event with
  | onTaskEnd taskid errorType errorCode =>
      have addressable : system.Addressable taskid := enabled.2
      constructor
      · intro number call lookup active
        obtain ⟨old, before, rfl⟩ := Option.map_eq_some_iff.mp lookup
        simp only [SendCall.after] at active ⊢
        split at active
        · exact (active rfl).elim
        · next other =>
          rw [if_neg other]
          have different : old.taskid ≠ taskid := by
            intro same
            exact other ⟨same, (addressable number old before same).resolve_right active⟩
          rw [Ledger.closed, Ledger.tasks_remove_of_ne ledger different]
          exact serialized.present before active
      · intro other entry found
        have different : other ≠ taskid := by
          rintro rfl
          cases (Ledger.tasks_remove_self ledger).symm.trans found
        obtain ⟨number, call, before, active, rfl⟩ :=
          serialized.absent ((Ledger.tasks_remove_of_ne ledger different).symm.trans found)
        refine ⟨number, call, ?_, active, rfl⟩
        rw [before, Option.map_some, SendCall.after, if_neg fun both => different both.1]
  | _ => exact others (fun _ _ _ same => by cases same) rfl

/-- An event of the engine gets the same answer from the atomic ledger. -/
theorem engine (bound : system.state.constructed ≤ 2 ^ 32) {event : Event Buffer}
    (enabled : system.Enabled (.engine event)) {shown : List (Answer Buffer)} {following : System}
    (acted : system.act width (.engine event) = some (shown, following)) :
    ledger.step width event.quiet = some (ledger.answer event, ledger.after width event.quiet) ∧
      shown = [ledger.answer event] ∧ Serialized width following (ledger.after width event.quiet) := by
  have sound := serialized.sound
  have valid : event.quiet.Valid := ⟨enabled.1, fun _ member => by cases member⟩
  have unsent : ∀ request, event ≠ .sendMessage request := by
    rintro request rfl
    exact enabled.2.elim
  have parcels : ∀ taskid, Ledger.reads event = some taskid →
      Ledger.SameParcel system.state.ledger ledger taskid := by
    intro taskid read
    cases event with
    | sendMessage request => exact (unsent request rfl).elim
    | registerPushListener listener => cases read
    | onPush body => cases read
    | _ =>
        obtain rfl := Option.some.inj read
        exact serialized.sameParcel enabled.2
  have kept := sound.step bound enabled (next_of_act acted)
  obtain ⟨⟨answer, state⟩, stepped, same⟩ := Option.bind_eq_some_iff.mp acted
  obtain ⟨rfl, rfl⟩ := Prod.mk.inj (Option.some.inj same)
  have refined := (sound.owned.step_refines width event.quiet).view_eq
  rw [stepped, Ledger.step_valid width _ sound.framed event.quiet valid] at refined
  obtain ⟨answered, reached⟩ := Prod.mk.inj (Option.some.inj refined)
  obtain ⟨present, absent⟩ := serialized.tasks_after enabled
  refine ⟨Ledger.step_valid width ledger serialized.framed event.quiet valid, ?_, kept,
    serialized.framed.after width valid, ?_, present, absent⟩
  · rw [Ledger.answer_alike parcels]
    exact congrArg (fun answer => [answer]) answered
  · change Ledger.Alike state.ledger _
    rw [show state.ledger = system.state.ledger.after width event.quiet from reached]
    exact serialized.alike.after unsent parcels

/-- The atomic ledger answers to the serial turns of every step as the system does. -/
theorem step (bound : system.state.constructed ≤ 2 ^ 32) {action : Action Buffer} (enabled : system.Enabled action)
    {shown : List (Answer Buffer)} {following : System} (acted : system.act width action = some (shown, following))
    (bound' : following.state.constructed ≤ 2 ^ 32) :
    ∃ replies ledger', ObservedRun.observe (Ledger.step width) ledger (serial action) = some (replies, ledger') ∧
      replies.filter Answer.notSent = shown ∧ Serialized width following ledger' := by
  have stepped := next_of_act acted
  have silent {number : Nat} (stepped : (system.next width action).map (Prod.mk []) = some (shown, following)) :
      shown = [] := by
    obtain ⟨_, _, same⟩ := Option.map_eq_some_iff.mp stepped
    exact (Prod.mk.inj same).1.symm
  cases action with
  | construct request =>
      obtain rfl := @silent 0 acted
      rw [next, constructMessage_valid system.state enabled] at stepped
      obtain rfl := Option.some.inj stepped
      have kept := serialized.construct bound' enabled
      have valid : (Event.sendMessage request : Event Buffer).quiet.Valid := ⟨enabled, fun _ member => by cases member⟩
      refine ⟨[.sendMessage 0], ledger.sent width request, ?_, rfl, kept⟩
      rw [serial, ObservedRun.observe_singleton, Ledger.step_valid width ledger serialized.framed _ valid]
      rfl
  | storeContext number =>
      obtain rfl := @silent 0 acted
      have sound := serialized.sound.step bound enabled stepped
      obtain ⟨call, found, constructed⟩ := enabled
      rw [next, found] at stepped
      obtain rfl := Option.some.inj stepped
      have active : call.progress ≠ .ended := by rw [constructed]; decide
      obtain ⟨messageId, counted, pushListener, pushes, told⟩ := serialized.alike
      exact ⟨[], ledger, rfl, rfl, serialized.moved sound found active (by decide)
        ⟨messageId, counted, pushListener, pushes, told⟩⟩
  | startTask number =>
      obtain rfl := @silent 0 acted
      have sound := serialized.sound.step bound enabled stepped
      obtain ⟨call, found, stored⟩ := enabled
      rw [next, found] at stepped
      obtain rfl := Option.some.inj stepped
      have active : call.progress ≠ .ended := by rw [stored]; decide
      obtain ⟨messageId, counted, pushListener, pushes, told⟩ := serialized.alike
      exact ⟨[], ledger, rfl, rfl, serialized.moved sound found active (by decide)
        ⟨messageId, counted, pushListener, pushes, told⟩⟩
  | engine event =>
      obtain ⟨answered, rfl, kept⟩ := serialized.engine bound enabled acted
      refine ⟨[ledger.answer event], _, ?_, ?_, kept⟩
      · rw [serial, ObservedRun.observe_singleton, answered]
        rfl
      · cases event with
        | sendMessage request => exact enabled.2.elim
        | req2Buf taskid outbuffer =>
            simp only [Ledger.answer]
            cases ledger.tasks taskid <;> rfl
        | buf2Resp taskid inbuffer =>
            simp only [Ledger.answer]
            cases ledger.listenerOf taskid <;> rfl
        | _ => rfl

end Serialized

end System

/-- While the ids last, every interleaving of the callers with the engine looks like a run in which each send is one
turn, at the moment of its first step. The engine gets the same answers and the listeners are told the same. -/
theorem linearizable {Buffer : Type} [AutoBuffer Buffer] {width : SizeT} {actions : List (Action Buffer)}
    {answers : List (Answer Buffer)} {system : System} (traced : System.Trace width actions answers system)
    (bound : system.state.constructed ≤ 2 ^ 32) :
    ∃ replies atomic,
      ObservedRun.observe (State.step width) State.initial (actions.flatMap System.serial) = some (replies, atomic) ∧
        replies.filter Answer.notSent = answers ∧ system.Resembles atomic := by
  have back (system following : System) (action : Action Buffer) (shown : List (Answer Buffer))
      (enabled : system.Enabled action) (acted : system.act width action = some (shown, following)) :
      following.state.constructed ≤ 2 ^ 32 → system.state.constructed ≤ 2 ^ 32 :=
    (System.constructed_le_of_next enabled (System.next_of_act acted)).trans
  obtain ⟨replies, ledger, ran, same, serialized⟩ := traced.simulated System.Serialized.initial
    (fun system action shown following => back system following action shown)
    (fun _ _ _ _ _ serialized earlier later enabled acted => serialized.step earlier enabled acted later) bound
  have refined := ObservedRun.observe_simulates
    (fun state (turn : Turn Buffer) (owned : Owned state []) => owned.step_refines width turn)
    (actions.flatMap System.serial) State.initial Owned.initial
  rw [show State.initial.ledger = Ledger.initial from rfl, ran] at refined
  obtain ⟨⟨replies', atomic⟩, reached, _, view⟩ := refined.exists_result
  obtain ⟨rfl, rfl⟩ := Prod.mk.inj view
  obtain ⟨messageId, _, pushListener, pushes, told⟩ := serialized.alike
  exact ⟨replies', atomic, reached, same, messageId, pushListener, pushes, told,
    fun taskid addressable => serialized.sameParcel addressable⟩

/-- A caller can construct a valid message behind every trace. -/
theorem System.Trace.construct {Buffer : Type} [AutoBuffer Buffer] {width : SizeT} {actions : List (Action Buffer)}
    {answers : List (Answer Buffer)} {system : System} (traced : System.Trace width actions answers system)
    (request : SendRequest) (valid : request.Valid) :
    System.Trace width (actions ++ [.construct request]) (answers ++ ([] : List (Answer Buffer)))
      ⟨{ system.state with
          messageId := system.state.messageId + 1
          constructed := system.state.constructed + 1
          messages := system.state.messages.alloc (ImMessage.framed system.state.messageId request.body) },
        Function.update system.calls system.state.constructed
          (some ⟨request, system.state.messages.next, system.state.messageId, .constructed⟩)⟩ := by
  refine traced.snoc (.construct request) valid ?_
  rw [System.act, System.next, System.constructMessage_valid system.state valid]
  rfl

/-- The second caller overtakes the first one, and its task ends before the first task is stored. -/
theorem linearizable_pair :
    ∃ (system : System) (replies : List (Answer ByteBuffer)) (atomic : State),
      @System.Trace ByteBuffer _ .bits64
        [.construct ⟨[104], 1, some 7⟩, .construct ⟨[105], 1, some 8⟩, .storeContext 1, .startTask 1,
          .engine (.onTaskEnd 10001 0 0), .storeContext 0, .startTask 0] [.onTaskEnd 0] system ∧
        system.state.calls.map Call.told = [(10001, 8, .onSuccess)] ∧
        replies.filter Answer.notSent = [.onTaskEnd 0] ∧ system.Resembles atomic := by
  have start : System.Trace .bits64 [] ([] : List (Answer ByteBuffer)) System.initial := .nil
  have first := start.construct ⟨[104], 1, some 7⟩ (by decide)
  have second := first.construct ⟨[105], 1, some 8⟩ (by decide)
  have third := second.snoc (.storeContext 1) ⟨_, rfl, rfl⟩ rfl
  have fourth := third.snoc (.startTask 1) ⟨_, rfl, rfl⟩ rfl
  have fifth := fourth.snoc (.engine (.onTaskEnd 10001 0 0)) ⟨trivial, by
    intro number call found own
    obtain ⟨_, rfl⟩ | ⟨other, before⟩ := System.calls_update found
    · exact Or.inl rfl
    obtain ⟨same, _⟩ | ⟨_, before⟩ := System.calls_update before
    · exact (other same).elim
    obtain ⟨same, _⟩ | ⟨_, before⟩ := System.calls_update before
    · exact (other same).elim
    obtain ⟨_, rfl⟩ | ⟨_, before⟩ := System.calls_update before
    · cases own
    · cases before⟩ rfl
  have sixth := fifth.snoc (.storeContext 0) ⟨_, rfl, rfl⟩ rfl
  have seventh := sixth.snoc (.startTask 0) ⟨_, rfl, rfl⟩ rfl
  obtain ⟨replies, atomic, _, same, resembles⟩ := linearizable seventh (by decide)
  exact ⟨_, replies, atomic, seventh, rfl, same, resembles⟩

end MarsWrapper
