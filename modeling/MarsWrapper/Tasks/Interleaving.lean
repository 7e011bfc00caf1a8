import MarsWrapper.Ledger.Numbering
import MarsWrapper.Ledger.StoreFrame

namespace MarsWrapper

open Foundation AutoBufferApi

/-- A call of `sendMessage` takes three atomic steps, and then its task ends. -/
inductive Progress where
  | constructed
  | stored
  | started
  | ended
  deriving DecidableEq

/-- A caller keeps its arguments, its message pointer and its task id. -/
structure SendCall where
  request : SendRequest
  msg : Nat
  taskid : UInt32
  progress : Progress

namespace SendCall

/-- Between the second step and the end of the task the store holds the message. -/
def InStore (call : SendCall) : Prop := call.progress = .stored ∨ call.progress = .started

/-- The second step stores this context. -/
def context (width : SizeT) (call : SendCall) : TaskContext where
  msg := some call.msg
  size := UInt32.ofNat (width.wrap (call.request.size.toNat + MessageFormat.size))
  respCallback := call.request.callback

/-- The end of a task reaches the call that started it. -/
def after {Buffer : Type} (event : Event Buffer) (call : SendCall) : SendCall :=
  match event with
  | .onTaskEnd taskid _ _ =>
    if call.taskid = taskid ∧ call.progress = .started then {call with progress := .ended} else call
  | _ => call

theorem InStore.active {call : SendCall} (inside : call.InStore) : call.progress ≠ .ended := by
  rcases inside with stored | started
  · rw [stored]
    decide
  · rw [started]
    decide

/-- Only the end of a task changes a call. -/
theorem after_of_not_end {Buffer : Type} (event : Event Buffer)
    (unended : ∀ taskid errorType errorCode, event ≠ .onTaskEnd taskid errorType errorCode) :
    after event = fun call => call := by
  cases event with
  | onTaskEnd taskid errorType errorCode => exact (unended taskid errorType errorCode rfl).elim
  | _ => rfl

end SendCall

/-- The callers share one wrapper, and each call is numbered by the message that it constructed. -/
structure System where
  state : State
  calls : Nat → Option SendCall

/-- One atomic step belongs to one caller or to the engine. -/
inductive Action (Buffer : Type) where
  | construct (request : SendRequest)
  | storeContext (number : Nat)
  | startTask (number : Nat)
  | engine (event : Event Buffer)

namespace System

def initial : System := ⟨State.initial, fun _ => none⟩

section Steps

variable {Buffer : Type} [AutoBufferApi Buffer]

/-- One atomic step gives the next system, or undefined behaviour. -/
def next (width : SizeT) (system : System) : Action Buffer → Option System
  | .construct request => do
    let ((msg, taskid), state) ← system.state.constructMessage width request
    return ⟨state, Function.update system.calls system.state.constructed (some ⟨request, msg, taskid, .constructed⟩)⟩
  | .storeContext number => do
    let call ← system.calls number
    return ⟨system.state.storeMessage width call.msg call.taskid call.request,
      Function.update system.calls number (some {call with progress := .stored})⟩
  | .startTask number => do
    let call ← system.calls number
    return ⟨system.state.startTask call.taskid,
      Function.update system.calls number (some {call with progress := .started})⟩
  | .engine event => do
    let state ← system.state.next width event.quiet
    return ⟨state, fun number => (system.calls number).map (SendCall.after event)⟩

/-- The engine addresses no task that a caller is still about to start. -/
def Addressable (system : System) (taskid : UInt32) : Prop :=
  ∀ number call, system.calls number = some call → call.taskid = taskid →
    call.progress = .started ∨ call.progress = .ended

/-- Each caller follows its program, and the engine calls back with valid buffers. -/
def Enabled (system : System) : Action Buffer → Prop
  | .construct request => request.Valid
  | .storeContext number => ∃ call, system.calls number = some call ∧ call.progress = .constructed
  | .startTask number => ∃ call, system.calls number = some call ∧ call.progress = .stored
  | .engine event => event.Valid ∧
    match event with
    | .sendMessage _ => False
    | .registerPushListener _ | .onPush _ => True
    | .req2Buf taskid _ | .buf2Resp taskid _ | .onTaskEnd taskid _ _ => system.Addressable taskid

/-- The steps of all callers and of the engine interleave in any order. -/
inductive Run (Buffer : Type) [AutoBufferApi Buffer] (width : SizeT) : System → Prop where
  | initial : Run Buffer width initial
  | step {system following : System} (action : Action Buffer) (ran : Run Buffer width system)
      (enabled : system.Enabled action) (stepped : system.next width action = some following) :
      Run Buffer width following

end Steps

/-- Every call has its own id and, until its task ends, its own live message. -/
structure Holds (system : System) : Prop where
  counter : system.state.messageId = idOf system.state.constructed
  numbered : ∀ {number call}, system.calls number = some call →
    number < system.state.constructed ∧ call.taskid = idOf number ∧ call.request.Valid
  live : ∀ {number call}, system.calls number = some call → call.progress ≠ .ended →
    system.state.messages.read call.msg = some (ImMessage.framed call.taskid call.request.body)
  messages : ∀ {msg message}, system.state.messages.read msg = some message →
    ∃ number call, system.calls number = some call ∧ call.progress ≠ .ended ∧ call.msg = msg
  messages_apart : ∀ {number number' call call'}, system.calls number = some call →
    system.calls number' = some call' → call.progress ≠ .ended → call'.progress ≠ .ended →
    call.msg = call'.msg → number = number'

/-- Besides, the store has one key and one context for each call that is in it, and nothing else. -/
structure Sound (width : SizeT) (system : System) : Prop extends Holds system where
  stored : ∀ {number call}, system.calls number = some call → call.InStore →
    ∃ ctx, system.state.taskId2TaskCtx call.taskid = some ctx ∧
      system.state.contexts.read ctx = some (call.context width)
  keys : ∀ {taskid ctx}, system.state.taskId2TaskCtx taskid = some ctx →
    ∃ number call, system.calls number = some call ∧ call.InStore ∧ call.taskid = taskid
  contexts : ∀ {ctx context}, system.state.contexts.read ctx = some context →
    ∃ taskid, system.state.taskId2TaskCtx taskid = some ctx
  contexts_apart : ∀ {taskid taskid' ctx}, system.state.taskId2TaskCtx taskid = some ctx →
    system.state.taskId2TaskCtx taskid' = some ctx → taskid = taskid'

/-- A changed call is the new one, and every other call is an old one. -/
theorem calls_update {calls : Nat → Option SendCall} {number other : Nat} {new call : SendCall}
    (found : Function.update calls number (some new) other = some call) :
    (other = number ∧ call = new) ∨ (other ≠ number ∧ calls other = some call) := by
  by_cases same : other = number
  · rw [same, Function.update_self] at found
    exact Or.inl ⟨same, (Option.some.inj found).symm⟩
  · rw [Function.update_of_ne same] at found
    exact Or.inr ⟨same, found⟩

namespace Sound

variable {width : SizeT} {system : System}

theorem initial : Sound width System.initial where
  counter := rfl
  numbered found := by cases found
  stored found := by cases found
  live found := by cases found
  keys key := by cases key
  contexts read := by cases read
  messages read := by cases read
  contexts_apart key := by cases key
  messages_apart found := by cases found

/-- Before the counter wraps, an id belongs to one call. -/
theorem number_unique (sound : system.Sound width) (bound : system.state.constructed ≤ 2 ^ 32) {number number' : Nat}
    {call call' : SendCall} (found : system.calls number = some call) (found' : system.calls number' = some call')
    (same : call.taskid = call'.taskid) : number = number' := by
  obtain ⟨below, id, _⟩ := sound.numbered found
  obtain ⟨below', id', _⟩ := sound.numbered found'
  rw [id, id', idOf_eq_iff] at same
  omega

/-- Every key leads to the frame of its own call. -/
theorem linked (sound : system.Sound width) {number : Nat} {call : SendCall} (found : system.calls number = some call)
    (inside : call.InStore) :
    ∃ ctx, Linked system.state call.taskid ctx (call.context width) call.msg
      (ImMessage.framed call.taskid call.request.body) := by
  obtain ⟨ctx, key, context⟩ := sound.stored found inside
  exact ⟨ctx, key, context, rfl, sound.live found inside.active⟩

/-- The invariant contains the ownership of the store. -/
theorem owned (sound : system.Sound width) : Owned system.state [] where
  linked taskid ctx key := by
    obtain ⟨number, call, found, inside, rfl⟩ := sound.keys key
    obtain ⟨ctx', link⟩ := sound.linked found inside
    obtain rfl := Option.some.inj (key.symm.trans link.key)
    exact ⟨_, _, _, link, List.not_mem_nil⟩
  apart := by
    intro taskid taskid' _ _ _ _ _ _ _ link link'
    obtain ⟨number, call, found, inside, rfl⟩ := sound.keys link.key
    obtain ⟨number', call', found', inside', rfl⟩ := sound.keys link'.key
    obtain ⟨_, own⟩ := sound.linked found inside
    obtain ⟨_, own'⟩ := sound.linked found' inside'
    obtain ⟨_, _, msg, _⟩ := own.unique link
    obtain ⟨_, _, msg', _⟩ := own'.unique link'
    obtain rfl := sound.messages_apart found found' inside.active inside'.active
      (msg.trans msg'.symm)
    rw [Option.some.inj (found.symm.trans found')]
  held_live _ member := by cases member
  nodup := List.nodup_nil

/-- Every entry of the ledger is the frame of its task. -/
theorem framed (sound : system.Sound width) : system.state.ledger.Framed := by
  intro taskid entry found
  cases key : system.state.getTaskConext taskid with
  | none => cases (State.entry_of_none key).symm.trans found
  | some ctx =>
      obtain ⟨number, call, member, inside, rfl⟩ := sound.keys key
      obtain ⟨_, link⟩ := sound.linked member inside
      have short := (sound.numbered member).2.2.2
      rw [← Option.some.inj ((State.entry_of_linked link).symm.trans found)]
      exact ⟨call.request.body, by omega, rfl⟩

/-- A step that keeps the store and the calls keeps the invariant. -/
theorem of_same (sound : system.Sound width) {state : State} {taken : Nat} (same : SameStore system.state state)
    (counted : Counted system.state state taken) : Sound width ⟨state, system.calls⟩ where
  counter := by
    rw [counted.messageId, counted.constructed, sound.counter, idOf, idOf, ← Nat.add_assoc,
      UInt32.ofNat_add _ taken]
  numbered found := by
    obtain ⟨below, rest⟩ := sound.numbered found
    refine ⟨?_, rest⟩
    rw [counted.constructed]
    omega
  stored found inside := by
    rw [same.keys, same.contexts]
    exact sound.stored found inside
  live found active := by
    rw [same.messages]
    exact sound.live found active
  keys key := sound.keys (same.keys ▸ key)
  contexts read := by
    rw [same.keys]
    exact sound.contexts (same.contexts ▸ read)
  messages read := sound.messages (same.messages _ ▸ read)
  contexts_apart key key' := sound.contexts_apart (same.keys ▸ key) (same.keys ▸ key')
  messages_apart := sound.messages_apart

section Calls

variable {number : Nat} {call : SendCall} (found : system.calls number = some call)
include found

/-- A call that only moves on keeps its arguments, its message and its id. -/
theorem old_call (active : call.progress ≠ .ended) {progress : Progress} {other : Nat} {changed : SendCall}
    (lookup : Function.update system.calls number (some {call with progress := progress}) other = some changed) :
    ∃ old, system.calls other = some old ∧ old.request = changed.request ∧ old.msg = changed.msg ∧
      old.taskid = changed.taskid ∧ (changed.progress ≠ .ended → old.progress ≠ .ended) := by
  obtain ⟨rfl, rfl⟩ | ⟨_, before⟩ := calls_update lookup
  · exact ⟨call, found, rfl, rfl, rfl, fun _ => active⟩
  · exact ⟨changed, before, rfl, rfl, rfl, id⟩

/-- A call that moves on without an end keeps its message. -/
theorem holds_moved (holds : system.Holds) (active : call.progress ≠ .ended) (progress : Progress)
    (unended : progress ≠ .ended) (state : State) (messageId : state.messageId = system.state.messageId)
    (constructed : state.constructed = system.state.constructed) (messages : state.messages = system.state.messages) :
    Holds ⟨state, Function.update system.calls number (some {call with progress := progress})⟩ where
  counter := by rw [messageId, constructed, holds.counter]
  numbered lookup := by
    obtain ⟨old, before, request, _, taskid, _⟩ := old_call found active lookup
    rw [← request, ← taskid, constructed]
    exact holds.numbered before
  live lookup unended := by
    obtain ⟨old, before, request, msg, taskid, alive⟩ := old_call found active lookup
    rw [← request, ← msg, ← taskid, messages]
    exact holds.live before (alive unended)
  messages read := by
    obtain ⟨other, second, found', alive, rfl⟩ := holds.messages (messages ▸ read)
    by_cases same : other = number
    · subst same
      obtain rfl := Option.some.inj (found.symm.trans found')
      exact ⟨other, _, Function.update_self .., unended, rfl⟩
    · exact ⟨other, second, (Function.update_of_ne same ..).trans found', alive, rfl⟩
  messages_apart lookup lookup' unended unended' same := by
    obtain ⟨old, before, _, msg, _, alive⟩ := old_call found active lookup
    obtain ⟨old', before', _, msg', _, alive'⟩ := old_call found active lookup'
    exact holds.messages_apart before before' (alive unended) (alive' unended') (by rw [msg, msg', same])

variable (sound : system.Sound width)
include sound

/-- The second step of a caller moves its message into the store. -/
theorem storeContext (bound : system.state.constructed ≤ 2 ^ 32) (constructed : call.progress = .constructed) :
    Sound width
      ⟨system.state.storeMessage width call.msg call.taskid call.request,
        Function.update system.calls number (some {call with progress := .stored})⟩ := by
  have active : call.progress ≠ .ended := by rw [constructed]; decide
  have absent (ctx : Nat) (key : system.state.taskId2TaskCtx call.taskid = some ctx) : False := by
    obtain ⟨other, second, found', inside, same⟩ := sound.keys key
    obtain rfl := sound.number_unique bound found' found same
    obtain rfl := Option.some.inj (found.symm.trans found')
    rw [SendCall.InStore, constructed] at inside
    rcases inside with wrong | wrong <;> cases wrong
  have key_self : (system.state.storeMessage width call.msg call.taskid call.request).taskId2TaskCtx call.taskid =
      some system.state.contexts.next := Function.update_self ..
  have key_other {taskid : UInt32} (different : taskid ≠ call.taskid) :
      (system.state.storeMessage width call.msg call.taskid call.request).taskId2TaskCtx taskid =
        system.state.taskId2TaskCtx taskid := Function.update_of_ne different ..
  have key_old {taskid : UInt32} {ctx : Nat} (key : system.state.taskId2TaskCtx taskid = some ctx) :
      taskid ≠ call.taskid ∧ ctx ≠ system.state.contexts.next := by
    constructor
    · rintro rfl
      exact absent ctx key
    · obtain ⟨other, second, found', inside, rfl⟩ := sound.keys key
      obtain ⟨ctx', key', read⟩ := sound.stored found' inside
      obtain rfl := Option.some.inj (key.symm.trans key')
      have below := Heap.lt_next_of_read read
      omega
  refine ⟨holds_moved found sound.toHolds active .stored nofun _ rfl rfl rfl, ?_, ?_, ?_, ?_⟩
  · intro other changed lookup inside
    obtain ⟨rfl, rfl⟩ | ⟨different, before⟩ := calls_update lookup
    · exact ⟨system.state.contexts.next, key_self, Heap.read_alloc_self⟩
    · obtain ⟨ctx, key, read⟩ := sound.stored before inside
      exact ⟨ctx, (key_other (key_old key).1).trans key, Heap.read_alloc_of_read read⟩
  · intro taskid ctx key
    by_cases same : taskid = call.taskid
    · exact ⟨number, _, Function.update_self .., Or.inl rfl, same.symm⟩
    · obtain ⟨other, second, found', inside, rfl⟩ := sound.keys ((key_other same).symm.trans key)
      refine ⟨other, second, (Function.update_of_ne ?_ ..).trans found', inside, rfl⟩
      rintro rfl
      obtain rfl := Option.some.inj (found.symm.trans found')
      exact same rfl
  · intro ctx context read
    by_cases same : ctx = system.state.contexts.next
    · exact ⟨call.taskid, same ▸ key_self⟩
    · obtain ⟨taskid, key⟩ := sound.contexts ((Heap.read_alloc_of_ne same).symm.trans read)
      exact ⟨taskid, (key_other (key_old key).1).trans key⟩
  · intro taskid taskid' ctx key key'
    by_cases same : taskid = call.taskid
    · by_cases same' : taskid' = call.taskid
      · rw [same, same']
      · rw [same, key_self] at key
        rw [key_other same'] at key'
        exact ((key_old key').2 (Option.some.inj key).symm).elim
    · rw [key_other same] at key
      by_cases same' : taskid' = call.taskid
      · rw [same', key_self] at key'
        exact ((key_old key).2 (Option.some.inj key').symm).elim
      · rw [key_other same'] at key'
        exact sound.contexts_apart key key'

/-- The third step of a caller leaves the store as it was. -/
theorem startTask (stored : call.progress = .stored) :
    Sound width
      ⟨system.state.startTask call.taskid,
        Function.update system.calls number (some {call with progress := .started})⟩ := by
  have active : call.progress ≠ .ended := by rw [stored]; decide
  refine ⟨holds_moved found sound.toHolds active .started nofun _ rfl rfl rfl, ?_, ?_, sound.contexts,
    sound.contexts_apart⟩
  · intro other changed lookup inside
    obtain ⟨rfl, rfl⟩ | ⟨different, before⟩ := calls_update lookup
    · obtain ⟨ctx, key, read⟩ := sound.stored found (Or.inl stored)
      exact ⟨ctx, key, read⟩
    · exact sound.stored before inside
  · intro taskid ctx key
    obtain ⟨other, second, found', inside, rfl⟩ := sound.keys key
    by_cases same : other = number
    · subst same
      obtain rfl := Option.some.inj (found.symm.trans found')
      exact ⟨other, _, Function.update_self .., Or.inr rfl, rfl⟩
    · exact ⟨other, second, (Function.update_of_ne same ..).trans found', inside, rfl⟩

/-- The end of a task takes both of its objects out of the store and releases them. -/
theorem endTask (inside : call.InStore) {ctx : Nat}
    (key : system.state.taskId2TaskCtx call.taskid = some ctx) (calls : List Call) :
    Sound width
      ⟨{ system.state with
          calls := calls
          messages := system.state.messages.erase call.msg
          taskId2TaskCtx := Function.update system.state.taskId2TaskCtx call.taskid none
          contexts := system.state.contexts.erase ctx },
        Function.update system.calls number (some {call with progress := .ended})⟩ := by
  have active := inside.active
  have key_other {taskid : UInt32} (different : taskid ≠ call.taskid) :
      Function.update system.state.taskId2TaskCtx call.taskid none taskid = system.state.taskId2TaskCtx taskid :=
    Function.update_of_ne different ..
  have key_old {taskid : UInt32} {ctx : Nat}
      (lookup : Function.update system.state.taskId2TaskCtx call.taskid none taskid = some ctx) :
      taskid ≠ call.taskid ∧ system.state.taskId2TaskCtx taskid = some ctx := by
    have different : taskid ≠ call.taskid := by
      rintro rfl
      rw [Function.update_self] at lookup
      cases lookup
    exact ⟨different, (key_other different).symm.trans lookup⟩
  have still {other : Nat} {changed : SendCall}
      (lookup : Function.update system.calls number (some {call with progress := .ended}) other = some changed)
      (unended : changed.progress ≠ .ended) : other ≠ number ∧ system.calls other = some changed := by
    obtain ⟨rfl, rfl⟩ | before := calls_update lookup
    · exact (unended rfl).elim
    · exact before
  refine ⟨⟨sound.counter, ?_, ?_, ?_, ?_⟩, ?_, ?_, ?_, ?_⟩
  · intro other changed lookup
    obtain ⟨old, before, request, _, taskid, _⟩ := old_call found active lookup
    rw [← request, ← taskid]
    exact sound.numbered before
  · intro other changed lookup unended
    obtain ⟨different, before⟩ := still lookup unended
    refine (Heap.read_erase_of_ne fun same => ?_).trans (sound.live before unended)
    exact different (sound.messages_apart before found unended active same)
  · intro msg message read
    have apart : msg ≠ call.msg := by
      rintro rfl
      cases Heap.read_erase_self.symm.trans read
    obtain ⟨other, second, found', alive, rfl⟩ := sound.messages ((Heap.read_erase_of_ne apart).symm.trans read)
    refine ⟨other, second, (Function.update_of_ne ?_ ..).trans found', alive, rfl⟩
    rintro rfl
    obtain rfl := Option.some.inj (found.symm.trans found')
    exact apart rfl
  · intro other other' changed changed' lookup lookup' unended unended' same
    exact sound.messages_apart (still lookup unended).2 (still lookup' unended').2 unended unended' same
  · intro other changed lookup inside'
    obtain ⟨different, before⟩ := still lookup inside'.active
    obtain ⟨ctx', key', read⟩ := sound.stored before inside'
    have taskid : changed.taskid ≠ call.taskid := by
      intro same
      obtain ⟨_, link⟩ := sound.linked before inside'
      obtain ⟨_, own⟩ := sound.linked found inside
      rw [same] at link
      exact different (sound.messages_apart before found inside'.active active (link.unique own).2.2.1)
    refine ⟨ctx', (key_other taskid).trans key', (Heap.read_erase_of_ne ?_).trans read⟩
    rintro rfl
    exact taskid (sound.contexts_apart key' key)
  · intro taskid ctx' lookup
    obtain ⟨different, key'⟩ := key_old lookup
    obtain ⟨other, second, found', inside', rfl⟩ := sound.keys key'
    refine ⟨other, second, (Function.update_of_ne ?_ ..).trans found', inside', rfl⟩
    rintro rfl
    obtain rfl := Option.some.inj (found.symm.trans found')
    exact different rfl
  · intro ctx' context read
    have apart : ctx' ≠ ctx := by
      rintro rfl
      cases Heap.read_erase_self.symm.trans read
    obtain ⟨taskid, key'⟩ := sound.contexts ((Heap.read_erase_of_ne apart).symm.trans read)
    refine ⟨taskid, (key_other ?_).trans key'⟩
    rintro rfl
    exact apart (Option.some.inj (key'.symm.trans key))
  · intro taskid taskid' ctx' lookup lookup'
    exact sound.contexts_apart (key_old lookup).2 (key_old lookup').2

end Calls

/-- The first step of a caller takes the next id and a new message. -/
theorem construct (sound : system.Sound width) {request : SendRequest} (valid : request.Valid) :
    Sound width
      ⟨{ system.state with
          messageId := system.state.messageId + 1
          constructed := system.state.constructed + 1
          messages := system.state.messages.alloc (ImMessage.framed system.state.messageId request.body) },
        Function.update system.calls system.state.constructed
          (some ⟨request, system.state.messages.next, system.state.messageId, .constructed⟩)⟩ := by
  have below {other : Nat} {call : SendCall} (found : system.calls other = some call) (active : call.progress ≠ .ended) :
      call.msg ≠ system.state.messages.next := by
    have old := Heap.lt_next_of_read (sound.live found active)
    omega
  have older {other : Nat} {call : SendCall} (found : system.calls other = some call) :
      other ≠ system.state.constructed := by
    have old := (sound.numbered found).1
    omega
  refine ⟨⟨?_, ?_, ?_, ?_, ?_⟩, ?_, ?_, sound.contexts, sound.contexts_apart⟩
  · exact (congrArg (· + 1) sound.counter).trans (idOf_succ _).symm
  · intro other changed lookup
    obtain ⟨rfl, rfl⟩ | ⟨_, before⟩ := calls_update lookup
    · exact ⟨Nat.lt_succ_self _, sound.counter, valid⟩
    · obtain ⟨number, rest⟩ := sound.numbered before
      exact ⟨Nat.lt_succ_of_lt number, rest⟩
  · intro other changed lookup unended
    obtain ⟨rfl, rfl⟩ | ⟨_, before⟩ := calls_update lookup
    · exact Heap.read_alloc_self
    · exact Heap.read_alloc_of_read (sound.live before unended)
  · intro msg message read
    by_cases same : msg = system.state.messages.next
    · exact ⟨system.state.constructed, _, Function.update_self .., nofun, same.symm⟩
    · obtain ⟨other, call, found, active, own⟩ := sound.messages ((Heap.read_alloc_of_ne same).symm.trans read)
      exact ⟨other, call, (Function.update_of_ne (older found) ..).trans found, active, own⟩
  · intro other other' changed changed' lookup lookup' unended unended' same
    obtain ⟨rfl, rfl⟩ | ⟨_, before⟩ := calls_update lookup
    · obtain ⟨rfl, rfl⟩ | ⟨_, before'⟩ := calls_update lookup'
      · rfl
      · exact (below before' unended' same.symm).elim
    · obtain ⟨rfl, rfl⟩ | ⟨_, before'⟩ := calls_update lookup'
      · exact (below before unended same).elim
      · exact sound.messages_apart before before' unended unended' same
  · intro other changed lookup inside
    obtain ⟨rfl, rfl⟩ | ⟨_, before⟩ := calls_update lookup
    · rcases inside with wrong | wrong <;> cases wrong
    · exact sound.stored before inside
  · intro taskid ctx key
    obtain ⟨other, call, found, inside, own⟩ := sound.keys key
    exact ⟨other, call, (Function.update_of_ne (older found) ..).trans found, inside, own⟩

end Sound

section Runs

variable {Buffer : Type} [AutoBuffer Buffer] {width : SizeT} {system following : System} {action : Action Buffer}

/-- A valid message is constructed under the next id. -/
theorem constructMessage_valid (state : State) {request : SendRequest} (valid : request.Valid) :
    state.constructMessage width request =
      some ((state.messages.next, state.messageId),
        { state with
          messageId := state.messageId + 1
          constructed := state.constructed + 1
          messages := state.messages.alloc (ImMessage.framed state.messageId request.body) }) := by
  obtain ⟨declared, short⟩ := valid
  have size : width.ofInt (toInt request.size.toNat) = request.body.length := by
    rw [declared, toInt_of_lt short, width.ofInt_natCast (by omega)]
  rw [State.constructMessage_eq, size, if_pos ⟨by omega, Nat.le_refl _⟩, List.take_length]

/-- The engine finds a defined result for every enabled event. -/
theorem Sound.engine_defined (sound : system.Sound width) {event : Event Buffer} (valid : event.Valid) :
    ∃ state, system.state.next width event.quiet = some state := by
  have refined := sound.owned.next_refines width event.quiet
  rw [Ledger.next_valid width sound.framed ⟨valid, fun _ member => by cases member⟩] at refined
  obtain ⟨state, stepped, _⟩ := refined.exists_result
  exact ⟨state, stepped⟩

/-- No enabled step of a sound system is undefined. -/
theorem Sound.defined (sound : system.Sound width) (enabled : system.Enabled action) :
    ∃ following, system.next width action = some following := by
  cases action with
  | construct request =>
      rw [next, constructMessage_valid system.state enabled]
      exact ⟨_, rfl⟩
  | storeContext number =>
      obtain ⟨call, found, _⟩ := enabled
      rw [next, found]
      exact ⟨_, rfl⟩
  | startTask number =>
      obtain ⟨call, found, _⟩ := enabled
      rw [next, found]
      exact ⟨_, rfl⟩
  | engine event =>
      obtain ⟨state, stepped⟩ := sound.engine_defined enabled.1
      rw [next, stepped]
      exact ⟨_, rfl⟩

/-- The end of an addressable task keeps the invariant, whether the task is known or not. -/
theorem Sound.onTaskEnd (sound : system.Sound width) (bound : system.state.constructed ≤ 2 ^ 32) {taskid : UInt32}
    (errorType errorCode : Int) (addressable : system.Addressable taskid) {state : State}
    (stepped : system.state.next width (Event.onTaskEnd taskid errorType errorCode : Event Buffer).quiet = some state) :
    Sound width ⟨state, fun number =>
      (system.calls number).map (SendCall.after (.onTaskEnd taskid errorType errorCode : Event Buffer))⟩ := by
  obtain ⟨⟨answer, result⟩, took, rfl⟩ := Option.map_eq_some_iff.mp stepped
  obtain ⟨⟨code, ended⟩, reached, same⟩ := Option.bind_eq_some_iff.mp took
  obtain ⟨_, rfl⟩ := Prod.mk.inj (Option.some.inj same)
  have reached : system.state.onTaskEnd taskid errorType errorCode some = some (code, ended) := reached
  cases key : system.state.getTaskConext taskid with
  | none =>
      rw [State.onTaskEnd_of_none errorType errorCode key] at reached
      obtain ⟨_, rfl⟩ := Prod.mk.inj (Option.some.inj reached)
      have unchanged : (fun number => (system.calls number).map
          (SendCall.after (.onTaskEnd taskid errorType errorCode : Event Buffer))) = system.calls := by
        funext number
        cases found : system.calls number with
        | none => rfl
        | some call =>
            have unknown : ¬(call.taskid = taskid ∧ call.progress = .started) := by
              rintro ⟨rfl, started⟩
              obtain ⟨ctx, present, _⟩ := sound.stored found (Or.inr started)
              cases key.symm.trans present
            simp only [Option.map_some, SendCall.after, if_neg unknown]
      rw [unchanged]
      exact sound
  | some ctx =>
      obtain ⟨number, call, found, inside, rfl⟩ := sound.keys key
      obtain ⟨ctx', link⟩ := sound.linked found inside
      obtain rfl := Option.some.inj (key.symm.trans link.key)
      obtain ⟨calls, effect⟩ := State.onTaskEnd_of_linked errorType errorCode link
      rw [effect] at reached
      obtain ⟨_, rfl⟩ := Prod.mk.inj (Option.some.inj reached)
      have started : call.progress = .started :=
        (addressable number call found rfl).resolve_right inside.active
      have one : (fun other => (system.calls other).map
          (SendCall.after (.onTaskEnd call.taskid errorType errorCode : Event Buffer))) =
          Function.update system.calls number (some {call with progress := .ended}) := by
        funext other
        by_cases same : other = number
        · rw [same, Function.update_self, found]
          simp [SendCall.after, started]
        · rw [Function.update_of_ne same]
          cases found' : system.calls other with
          | none => rfl
          | some second =>
              have apart : ¬(second.taskid = call.taskid ∧ second.progress = .started) := fun both =>
                same (sound.number_unique bound found' found both.1)
              simp only [Option.map_some, SendCall.after, if_neg apart]
      rw [one]
      exact sound.endTask found inside key calls

/-- Every enabled step keeps the invariant while the ids last. -/
theorem Sound.step (sound : system.Sound width) (bound : system.state.constructed ≤ 2 ^ 32)
    (enabled : system.Enabled action) (stepped : system.next width action = some following) :
    following.Sound width := by
  cases action with
  | construct request =>
      rw [next, constructMessage_valid system.state enabled] at stepped
      obtain rfl := Option.some.inj stepped
      exact sound.construct enabled
  | storeContext number =>
      obtain ⟨call, found, constructed⟩ := enabled
      rw [next, found] at stepped
      obtain rfl := Option.some.inj stepped
      exact storeContext found sound bound constructed
  | startTask number =>
      obtain ⟨call, found, stored⟩ := enabled
      rw [next, found] at stepped
      obtain rfl := Option.some.inj stepped
      exact startTask found sound stored
  | engine event =>
      obtain ⟨valid, addressed⟩ := enabled
      rw [next] at stepped
      obtain ⟨state, ran, same⟩ := Option.bind_eq_some_iff.mp stepped
      obtain rfl := Option.some.inj same
      have others (unsent : ∀ request, event ≠ .sendMessage request)
          (unended : ∀ taskid errorType errorCode, event ≠ .onTaskEnd taskid errorType errorCode) :
          Sound width ⟨state, fun number => (system.calls number).map (SendCall.after event)⟩ := by
        obtain ⟨same, counted, _⟩ := State.next_frame ran unsent unended
        have unchanged : (fun number => (system.calls number).map (SendCall.after event)) = system.calls := by
          funext number
          rw [SendCall.after_of_not_end event unended]
          exact Option.map_id'
        rw [unchanged]
        exact sound.of_same same counted
      cases event with
      | sendMessage request => exact addressed.elim
      | onTaskEnd taskid errorType errorCode => exact sound.onTaskEnd bound errorType errorCode addressed ran
      | _ => exact others nofun nofun

/-- No enabled step gives an id back. -/
theorem constructed_le_of_next (enabled : system.Enabled action) (stepped : system.next width action = some following) :
    system.state.constructed ≤ following.state.constructed := by
  cases action with
  | construct request =>
      rw [next, constructMessage_valid system.state enabled] at stepped
      obtain rfl := Option.some.inj stepped
      exact Nat.le_succ _
  | storeContext number =>
      obtain ⟨call, found, _⟩ := enabled
      rw [next, found] at stepped
      obtain rfl := Option.some.inj stepped
      exact Nat.le_refl _
  | startTask number =>
      obtain ⟨call, found, _⟩ := enabled
      rw [next, found] at stepped
      obtain rfl := Option.some.inj stepped
      exact Nat.le_refl _
  | engine event =>
      rw [next] at stepped
      obtain ⟨state, ran, same⟩ := Option.bind_eq_some_iff.mp stepped
      obtain rfl := Option.some.inj same
      have others (unsent : ∀ request, event ≠ .sendMessage request)
          (unended : ∀ taskid errorType errorCode, event ≠ .onTaskEnd taskid errorType errorCode) :
          system.state.constructed ≤ state.constructed := by
        rw [(State.next_frame ran unsent unended).2.1.constructed]
        exact Nat.le_add_right ..
      cases event with
      | sendMessage request => exact enabled.2.elim
      | onTaskEnd taskid errorType errorCode =>
          obtain ⟨⟨answer, result⟩, took, rfl⟩ := Option.map_eq_some_iff.mp ran
          obtain ⟨⟨code, ended⟩, reached, same⟩ := Option.bind_eq_some_iff.mp took
          obtain ⟨_, rfl⟩ := Prod.mk.inj (Option.some.inj same)
          exact (State.onTaskEnd_counted reached).constructed.ge
      | _ => exact others nofun nofun

/-- Every reachable system is sound while the ids last. -/
theorem Run.sound (ran : Run Buffer width system) (bound : system.state.constructed ≤ 2 ^ 32) :
    system.Sound width := by
  induction ran with
  | initial => exact Sound.initial
  | step action ran enabled stepped ih =>
      have earlier := (constructed_le_of_next enabled stepped).trans bound
      exact (ih earlier).step earlier enabled stepped

end Runs

/-- A live message belongs to a key of the store or to a caller that has not stored it yet. -/
inductive MessageOwner where
  | key (taskid : UInt32)
  | caller (number : Nat)

def Owns (system : System) (msg : Nat) : MessageOwner → Prop
  | .key taskid => ∃ ctx context, system.state.getTaskConext taskid = some ctx ∧
      system.state.contexts.read ctx = some context ∧ context.msg = some msg
  | .caller number => ∃ call, system.calls number = some call ∧ call.progress = .constructed ∧ call.msg = msg

/-- The key leads to the message, the size and the listener of the only call that allocated its id. -/
def Correlated (system : System) (taskid : UInt32) (ctx : Nat) : Prop :=
  ∃ number call context message, system.calls number = some call ∧ call.taskid = taskid ∧
    (∀ other second, system.calls other = some second → second.taskid = taskid → other = number) ∧
    system.state.contexts.read ctx = some context ∧ context.msg = some call.msg ∧
    system.state.messages.read call.msg = some message ∧ message.isValid = some true ∧
    message.getMessageId = some taskid ∧ message.getData = some call.request.body ∧
    context.respCallback = call.request.callback ∧ context.size.toNat = 12 + call.request.body.length

namespace Sound

variable {width : SizeT} {system : System} (sound : system.Sound width)
include sound

theorem correlated (bound : system.state.constructed ≤ 2 ^ 32) {taskid : UInt32} {ctx : Nat}
    (key : system.state.getTaskConext taskid = some ctx) : system.Correlated taskid ctx := by
  obtain ⟨number, call, found, inside, rfl⟩ := sound.keys key
  obtain ⟨ctx', link⟩ := sound.linked found inside
  obtain rfl := Option.some.inj (key.symm.trans link.key)
  obtain ⟨declared, short⟩ := (sound.numbered found).2.2
  obtain ⟨valid, data, id, _⟩ := framed_fields width call.taskid call.request.body (by omega)
  refine ⟨number, call, call.context width, _, found, rfl, fun other second found' same =>
    sound.number_unique bound found' found same, link.context_live, rfl, link.message_live, valid, id, data, rfl, ?_⟩
  rw [SendCall.context, declared, MessageFormat.size, width.wrap_of_lt (by omega), UInt32.toNat_ofNat',
    Nat.mod_eq_of_lt (by omega), Nat.add_comm]

/-- A key owns exactly the message of the call that it belongs to. -/
theorem owns_key_iff {msg : Nat} {taskid : UInt32} :
    system.Owns msg (.key taskid) ↔
      ∃ number call, system.calls number = some call ∧ call.InStore ∧ call.taskid = taskid ∧ call.msg = msg := by
  constructor
  · rintro ⟨ctx, context, key, read, own⟩
    obtain ⟨number, call, found, inside, rfl⟩ := sound.keys key
    obtain ⟨ctx', link⟩ := sound.linked found inside
    obtain rfl := Option.some.inj (key.symm.trans link.key)
    obtain rfl := Option.some.inj (read.symm.trans link.context_live)
    exact ⟨number, call, found, inside, rfl, Option.some.inj own⟩
  · rintro ⟨number, call, found, inside, rfl, rfl⟩
    obtain ⟨ctx, link⟩ := sound.linked found inside
    exact ⟨ctx, _, link.key, link.context_live, rfl⟩

/-- No live message is leaked or shared. -/
theorem exists_unique_owner {msg : Nat} {message : ImMessage} (live : system.state.messages.read msg = some message) :
    ∃! owner, system.Owns msg owner := by
  obtain ⟨number, call, found, active, rfl⟩ := sound.messages live
  have sole {other : Nat} {second : SendCall} (found' : system.calls other = some second)
      (active' : second.progress ≠ .ended) (same : second.msg = call.msg) : other = number ∧ second = call := by
    obtain rfl := sound.messages_apart found' found active' active same
    exact ⟨rfl, Option.some.inj (found'.symm.trans found)⟩
  by_cases constructed : call.progress = .constructed
  · refine ⟨.caller number, ⟨call, found, constructed, rfl⟩, ?_⟩
    rintro (taskid | other) owns
    · obtain ⟨other, second, found', inside, _, same⟩ := sound.owns_key_iff.mp owns
      obtain ⟨_, rfl⟩ := sole found' inside.active same
      rw [SendCall.InStore, constructed] at inside
      rcases inside with wrong | wrong <;> cases wrong
    · obtain ⟨second, found', fresh, same⟩ := owns
      rw [(sole found' (by rw [fresh]; decide) same).1]
  · have inside : call.InStore := by
      rw [SendCall.InStore]
      cases stage : call.progress with
      | constructed => exact (constructed stage).elim
      | stored => exact Or.inl rfl
      | started => exact Or.inr rfl
      | ended => exact (active stage).elim
    refine ⟨.key call.taskid, sound.owns_key_iff.mpr ⟨number, call, found, inside, rfl, rfl⟩, ?_⟩
    rintro (taskid | other) owns
    · obtain ⟨other, second, found', inside', rfl, same⟩ := sound.owns_key_iff.mp owns
      rw [(sole found' inside'.active same).2]
    · obtain ⟨second, found', fresh, same⟩ := owns
      obtain ⟨_, rfl⟩ := sole found' (by rw [fresh]; decide) same
      exact (constructed fresh).elim

/-- Exactly the calls between their second step and their end have a key. -/
theorem key_iff (bound : system.state.constructed ≤ 2 ^ 32) {number : Nat} {call : SendCall}
    (found : system.calls number = some call) : system.state.getTaskConext call.taskid ≠ none ↔ call.InStore := by
  constructor
  · intro present
    obtain ⟨ctx, key⟩ := Option.ne_none_iff_exists'.mp present
    obtain ⟨other, second, found', inside, same⟩ := sound.keys key
    obtain rfl := sound.number_unique bound found' found same
    obtain rfl := Option.some.inj (found.symm.trans found')
    exact inside
  · intro inside
    obtain ⟨ctx, link⟩ := sound.linked found inside
    exact (Option.ne_none_iff_exists'.mpr ⟨ctx, link.key⟩)

end Sound

end System

/-- In every interleaving of callers and engine the store owns and correlates its messages. -/
theorem interleaving {Buffer : Type} [AutoBuffer Buffer] {width : SizeT} {system : System}
    (ran : System.Run Buffer width system) (bound : system.state.constructed ≤ 2 ^ 32) :
    (∀ taskid ctx, system.state.getTaskConext taskid = some ctx → system.Correlated taskid ctx) ∧
      (∀ taskid taskid' ctx, system.state.getTaskConext taskid = some ctx →
        system.state.getTaskConext taskid' = some ctx → taskid = taskid') ∧
      (∀ taskid taskid' msg, system.Owns msg (.key taskid) → system.Owns msg (.key taskid') → taskid = taskid') ∧
      (∀ msg message, system.state.messages.read msg = some message → ∃! owner, system.Owns msg owner) ∧
      (∀ ctx context, system.state.contexts.read ctx = some context →
        ∃! taskid, system.state.getTaskConext taskid = some ctx) ∧
      (∀ number call, system.calls number = some call →
        (system.state.getTaskConext call.taskid ≠ none ↔ call.InStore)) ∧
      ∀ action : Action Buffer, system.Enabled action → ∃ following, system.next width action = some following := by
  have sound := ran.sound bound
  refine ⟨fun taskid ctx key => sound.correlated bound key, fun _ _ _ key key' => sound.contexts_apart key key', ?_,
    fun msg message live => sound.exists_unique_owner live, ?_, fun number call found => sound.key_iff bound found,
    fun action enabled => sound.defined enabled⟩
  · intro taskid taskid' msg owns owns'
    obtain ⟨number, call, found, inside, rfl, rfl⟩ := sound.owns_key_iff.mp owns
    obtain ⟨_, unique⟩ := (sound.exists_unique_owner (sound.live found inside.active)).unique owns owns'
    rfl
  · intro ctx context live
    obtain ⟨taskid, key⟩ := sound.contexts live
    exact ⟨taskid, key, fun taskid' key' => sound.contexts_apart key' key⟩

/-- A caller can construct a valid message in every reachable system. -/
theorem System.Run.construct {Buffer : Type} [AutoBuffer Buffer] {width : SizeT} {system : System}
    (ran : System.Run Buffer width system) (request : SendRequest) (valid : request.Valid) :
    System.Run Buffer width
      ⟨{ system.state with
          messageId := system.state.messageId + 1
          constructed := system.state.constructed + 1
          messages := system.state.messages.alloc (ImMessage.framed system.state.messageId request.body) },
        Function.update system.calls system.state.constructed
          (some ⟨request, system.state.messages.next, system.state.messageId, .constructed⟩)⟩ := by
  apply ran.step (.construct request) valid
  rw [System.next, System.constructMessage_valid system.state valid]
  rfl

/-- Two callers construct their messages before the second one stores and starts its task. -/
theorem interleaving_pair :
    ∃ system, System.Run ByteBuffer .bits64 system ∧ system.state.getTaskConext 10001 = some 0 ∧
      system.Correlated 10001 0 := by
  have first : System.Run ByteBuffer .bits64 _ := System.Run.initial.construct ⟨[104], 1, some 7⟩ (by decide)
  have second := first.construct ⟨[105], 1, some 8⟩ (by decide)
  have third := second.step (.storeContext 1) ⟨_, rfl, rfl⟩ rfl
  have fourth := third.step (.startTask 1) ⟨_, rfl, rfl⟩ rfl
  exact ⟨_, fourth, rfl, (interleaving fourth (by decide)).1 10001 0 rfl⟩

end MarsWrapper
