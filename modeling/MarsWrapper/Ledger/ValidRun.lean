import MarsWrapper.Ledger.Ledger
import MarsWrapper.Stream.FrameCodec

namespace MarsWrapper

open Foundation AutoBufferApi

/-- The caller declares the length of its body, and the body fits an `int`. -/
def SendRequest.Valid (request : SendRequest) : Prop :=
  request.size.toNat = request.body.length ∧ request.body.length < 2 ^ 31

/-- The buffer has a header and all the bytes that the header declares. -/
def CompleteFrame {Buffer : Type} [AutoBufferApi Buffer] (inbuffer : Buffer) : Prop :=
  12 ≤ length inbuffer ∧ 12 + (wordAt (content inbuffer) 8).toNat ≤ length inbuffer ∧ length inbuffer < 2 ^ 31

instance (request : SendRequest) : Decidable request.Valid := inferInstanceAs (Decidable (_ ∧ _))

instance {Buffer : Type} [AutoBufferApi Buffer] (inbuffer : Buffer) : Decidable (CompleteFrame inbuffer) :=
  inferInstanceAs (Decidable (_ ∧ _ ∧ _))

/-- The data of a received frame are the declared bytes behind its header. -/
def frameData {Buffer : Type} [AutoBufferApi Buffer] (inbuffer : Buffer) : List UInt8 :=
  ((content inbuffer).drop 12).take (wordAt (content inbuffer) 8).toNat

/-- The handlers see the length of a buffer through a cast to `int` and back. -/
def castLength {Buffer : Type} [AutoBufferApi Buffer] (width : SizeT) (buffer : Buffer) : Nat :=
  width.ofInt (toInt (length buffer))

theorem castLength_of_lt {Buffer : Type} [AutoBufferApi Buffer] (width : SizeT) {buffer : Buffer}
    (short : length buffer < 2 ^ 31) : castLength width buffer = length buffer := by
  rw [castLength, toInt_of_lt short, width.ofInt_natCast (by omega)]

/-- A cast length below the range of `uint32_t` is never longer than the buffer. -/
theorem castLength_le {Buffer : Type} [AutoBufferApi Buffer] (width : SizeT) {buffer : Buffer}
    (small : castLength width buffer < 2 ^ 32) : castLength width buffer ≤ length buffer := by
  have low := width.ofInt_mod (toInt (length buffer))
  rw [toInt_mod] at low
  unfold castLength at small ⊢
  omega

/-- Pushed bodies fit an `int`, and response buffers hold complete frames. -/
def Event.Valid {Buffer : Type} [AutoBufferApi Buffer] : Event Buffer → Prop
  | .sendMessage request => request.Valid
  | .onPush body => length body < 2 ^ 31
  | .buf2Resp _ inbuffer => CompleteFrame inbuffer
  | .registerPushListener _ | .req2Buf _ _ | .onTaskEnd _ _ _ => True

instance {Buffer : Type} [AutoBufferApi Buffer] : (event : Event Buffer) → Decidable event.Valid
  | .sendMessage request => inferInstanceAs (Decidable request.Valid)
  | .onPush body => inferInstanceAs (Decidable (length body < 2 ^ 31))
  | .buf2Resp _ inbuffer => inferInstanceAs (Decidable (CompleteFrame inbuffer))
  | .registerPushListener _ | .req2Buf _ _ | .onTaskEnd _ _ _ => inferInstanceAs (Decidable True)

def Turn.Valid {Buffer : Type} [AutoBufferApi Buffer] (turn : Turn Buffer) : Prop :=
  turn.event.Valid ∧ ∀ request ∈ turn.sends, request.Valid

instance {Buffer : Type} [AutoBufferApi Buffer] (turn : Turn Buffer) : Decidable turn.Valid :=
  inferInstanceAs (Decidable (_ ∧ _))

namespace Ledger

/-- Every entry holds the frame of its own task. -/
def Framed (ledger : Ledger) : Prop :=
  ∀ taskid entry, ledger.tasks taskid = some entry →
    ∃ body, 12 + body.length < 2 ^ 32 ∧ entry.message = ImMessage.framed taskid body

/-- A valid message is sent under the next id. -/
def sent (width : SizeT) (ledger : Ledger) (request : SendRequest) : Ledger :=
  (ledger.takeId.store width (ImMessage.framed ledger.messageId request.body) ledger.messageId request).startTask
    ledger.messageId

def sentAll (width : SizeT) (ledger : Ledger) (requests : List SendRequest) : Ledger :=
  requests.foldl (sent width) ledger

/-- The listener of a task hears each call about the task. -/
def notices (ledger : Ledger) (taskid : UInt32) (call : ListenerCall) : List Call :=
  match ledger.tasks taskid with
  | none => []
  | some entry =>
    match entry.respCallback with
    | none => []
    | some listener => [⟨entry.context, taskid, listener, call⟩]

section Phases

variable {Buffer : Type} [AutoBufferApi Buffer]

/-- An event first takes its id and notifies its listener. -/
def opened (ledger : Ledger) : Event Buffer → Ledger
  | .registerPushListener listener => {ledger with pushListener := listener}
  | .onPush body =>
    match ledger.pushListener with
    | none => ledger.takeId
    | some listener => ledger.pushed listener (content body)
  | .buf2Resp taskid inbuffer =>
    {ledger with calls := ledger.calls ++ ledger.notices taskid (.onResponse (frameData inbuffer))}
  | .onTaskEnd taskid errorType errorCode =>
    {ledger with calls := ledger.calls ++ ledger.notices taskid (endCall errorType errorCode)}
  | .sendMessage _ | .req2Buf _ _ => ledger

def listenerOf (ledger : Ledger) (taskid : UInt32) : Option Listener :=
  (ledger.tasks taskid).bind Entry.respCallback

/-- A turn sends its own message, or the messages of the listener that it notifies. -/
def turnSends (ledger : Ledger) (turn : Turn Buffer) : List SendRequest :=
  match turn.event with
  | .sendMessage request => [request]
  | .onPush _ =>
    match ledger.pushListener with
    | none => []
    | some _ => turn.sends
  | .buf2Resp taskid _ | .onTaskEnd taskid _ _ =>
    match ledger.listenerOf taskid with
    | none => []
    | some _ => turn.sends
  | .registerPushListener _ | .req2Buf _ _ => []

/-- The end of a task comes last. -/
def closed (ledger : Ledger) : Event Buffer → Ledger
  | .onTaskEnd taskid _ _ => ledger.remove taskid
  | _ => ledger

/-- A valid turn opens, sends and closes. -/
def after (width : SizeT) (ledger : Ledger) (turn : Turn Buffer) : Ledger :=
  ((ledger.opened turn.event).sentAll width (ledger.turnSends turn)).closed turn.event

def answer (ledger : Ledger) : Event Buffer → Answer Buffer
  | .sendMessage _ => .sendMessage 0
  | .registerPushListener _ => .registerPushListener
  | .onPush _ => .onPush
  | .req2Buf taskid outbuffer =>
    match ledger.tasks taskid with
    | none => .req2Buf false outbuffer
    | some entry => .req2Buf true (write outbuffer (entry.message.mMessage.getD []))
  | .buf2Resp taskid _ =>
    match ledger.listenerOf taskid with
    | none => .buf2Resp (-1)
    | some _ => .buf2Resp 0
  | .onTaskEnd _ _ _ => .onTaskEnd 0

end Phases

/-- A task without a listener causes no call. -/
theorem notices_of_silent {ledger : Ledger} {taskid : UInt32} (silent : ledger.listenerOf taskid = none)
    (call : ListenerCall) : ledger.notices taskid call = [] := by
  rw [listenerOf] at silent
  cases found : ledger.tasks taskid with
  | none => simp only [notices, found]
  | some entry =>
      rw [found, Option.bind_some] at silent
      simp only [notices, found, silent]

theorem notices_of_listening {ledger : Ledger} {taskid : UInt32} {listener : Listener}
    (listening : ledger.listenerOf taskid = some listener) (call : ListenerCall) :
    ∃ entry, ledger.tasks taskid = some entry ∧ entry.respCallback = some listener ∧
      ledger.notices taskid call = [⟨entry.context, taskid, listener, call⟩] := by
  obtain ⟨entry, found, callback⟩ := Option.bind_eq_some_iff.mp listening
  exact ⟨entry, found, callback, by simp only [notices, found, callback]⟩

section Entries

variable {Buffer : Type} [AutoBufferApi Buffer] (ledger : Ledger) (event : Event Buffer)

/-- The opening keeps the store. -/
theorem tasks_opened : (ledger.opened event).tasks = ledger.tasks := by
  cases event with
  | onPush body =>
      rw [opened]
      cases ledger.pushListener <;> rfl
  | _ => rfl

omit [AutoBufferApi Buffer] in
/-- The closing removes at most the ended task. -/
theorem tasks_closed (taskid : UInt32) :
    (ledger.closed event).tasks taskid = ledger.tasks taskid ∨ (ledger.closed event).tasks taskid = none := by
  cases event with
  | onTaskEnd ended errorType errorCode =>
      by_cases same : taskid = ended
      · exact Or.inr (same ▸ tasks_remove_self ledger)
      · exact Or.inl (tasks_remove_of_ne ledger same)
  | _ => exact Or.inl rfl

end Entries

section Sends

variable (width : SizeT) (ledger : Ledger)

theorem sendMessage_valid (request : SendRequest) (valid : request.Valid) :
    ledger.sendMessage width request = some (ledger.sent width request) := by
  obtain ⟨declared, short⟩ := valid
  have size : toInt request.size.toNat = (request.body.length : Int) := by
    rw [declared, toInt_of_lt short]
  obtain ⟨_, _, id, _⟩ := framed_fields width ledger.messageId request.body (by omega)
  rw [sendMessage, size, ImMessage.ofData_of_length width ledger.messageId request.body short, Option.bind_eq_bind,
    Option.bind_some, id]
  rfl

theorem sendAll_valid (requests : List SendRequest) (valid : ∀ request ∈ requests, request.Valid) :
    ledger.sendAll width requests = some (ledger.sentAll width requests) := by
  induction requests generalizing ledger with
  | nil => rfl
  | cons request later ih =>
      rw [sendAll, PartialRun.run_cons, sendMessage_valid width ledger request (valid request List.mem_cons_self)]
      exact ih (ledger.sent width request) fun other member => valid other (List.mem_cons_of_mem _ member)

end Sends

section Ends

variable (Buffer : Type) [AutoBufferApi Buffer] (ledger : Ledger)

/-- The end of a task needs no valid frame. -/
theorem onTaskEnd_eq (taskid : UInt32) (errorType errorCode : Int) (inCallback : Ledger → Option Ledger) :
    ledger.onTaskEnd taskid errorType errorCode inCallback =
      match ledger.listenerOf taskid with
      | none => some (0, ledger.remove taskid)
      | some _ => (inCallback (ledger.opened (.onTaskEnd taskid errorType errorCode : Event Buffer))).map fun next =>
          (0, next.remove taskid) := by
  cases listening : ledger.listenerOf taskid with
  | none =>
      rw [onTaskEnd]
      cases found : ledger.tasks taskid with
      | none => rw [ledger.remove_of_none found]
      | some entry =>
          rw [listenerOf, found, Option.bind_some] at listening
          simp only [listening]
          rfl
  | some listener =>
      obtain ⟨entry, found, callback, noticed⟩ :=
        notices_of_listening listening (endCall errorType errorCode)
      simp only [onTaskEnd, found, callback, Option.bind_eq_bind, opened, noticed]
      exact Option.map_eq_bind.symm

end Ends

section Steps

variable {Buffer : Type} [AutoBuffer Buffer] (width : SizeT) (ledger : Ledger)

/-- The push handler reads back the bytes that it wrapped, whatever they are. -/
theorem onPush_eq (body : Buffer) (inCallback : Ledger → Option Ledger) :
    ledger.onPush width body inCallback =
      if 12 + castLength width body < 2 ^ 32 then
        match ledger.pushListener with
        | none => some ledger.takeId
        | some listener => inCallback (ledger.pushed listener ((content body).take (castLength width body)))
      else none := by
  rw [onPush, ImMessage.ofData_eq, AutoBuffer.length_content]
  change Option.bind (if 12 + castLength width body < 2 ^ 32 ∧ castLength width body ≤ length body then _ else _) _ = _
  by_cases fits : 12 + castLength width body < 2 ^ 32
  · rw [if_pos ⟨fits, castLength_le width (by omega)⟩, if_pos fits]
    obtain ⟨valid, data, _⟩ := framed_fields width ledger.messageId ((content body).take (castLength width body)) (by
      rw [List.length_take]
      omega)
    rw [castLength] at valid data
    simp only [Option.bind_some, valid, data]
    rfl
  · rw [if_neg fun both => fits both.1, if_neg fits]
    rfl

theorem onPush_valid (body : Buffer) (short : length body < 2 ^ 31) (inCallback : Ledger → Option Ledger) :
    ledger.onPush width body inCallback =
      match ledger.pushListener with
      | none => some ledger.takeId
      | some listener => inCallback (ledger.pushed listener (content body)) := by
  rw [onPush_eq, castLength_of_lt width short, if_pos (by omega), ← AutoBuffer.length_content, List.take_length]

/-- The parsed message gives its data exactly when the copied bytes hold what their header declares. -/
theorem parse_getData (inbuffer : Buffer) :
    (ImMessage.empty.parse width (content inbuffer) (toInt (length inbuffer))).bind (fun parsed => parsed.2.getData) =
      if 12 + (wordAt (content inbuffer) 8).toNat ≤ castLength width inbuffer ∧
          castLength width inbuffer ≤ length inbuffer then
        some (frameData inbuffer)
      else none := by
  rw [ImMessage.parse_empty, AutoBuffer.length_content,
    show width.ofInt (toInt (length inbuffer)) = castLength width inbuffer from rfl]
  generalize castLength width inbuffer = count
  by_cases inside : count ≤ length inbuffer
  · have taken : ((content inbuffer).take count).length = count := by
      rw [List.length_take, AutoBuffer.length_content]
      omega
    by_cases header : 12 ≤ count
    · rw [if_pos ⟨inside, by omega⟩, Option.bind_some, ImMessage.getData_of_header (by rw [taken]; exact header), taken,
        wordAt_take _ _ _ (by omega)]
      by_cases whole : 12 + (wordAt (content inbuffer) 8).toNat ≤ count
      · rw [if_pos whole, if_pos ⟨whole, inside⟩, frameData, List.drop_take, List.take_take, Nat.min_eq_left (by omega)]
      · rw [if_neg whole, if_neg (by omega)]
    · rw [if_neg (show ¬(12 + (wordAt (content inbuffer) 8).toNat ≤ count ∧ count ≤ length inbuffer) by omega)]
      split
      · rw [Option.bind_some, ImMessage.getData_of_short (by rw [taken]; omega)]
      · rw [Option.bind_none]
  · rw [if_neg (by omega), if_neg (by omega), Option.bind_none]

/-- The response handler hands on the declared bytes, and never looks at the magic number. -/
theorem buf2Resp_eq (taskid : UInt32) (inbuffer : Buffer) (inCallback : Ledger → Option Ledger) :
    ledger.buf2Resp width taskid inbuffer inCallback =
      match ledger.listenerOf taskid with
      | none => some (-1, ledger)
      | some _ =>
        if 12 + (wordAt (content inbuffer) 8).toNat ≤ castLength width inbuffer ∧
            castLength width inbuffer ≤ length inbuffer then
          (inCallback (ledger.opened (.buf2Resp taskid inbuffer))).map (Prod.mk 0)
        else none := by
  cases listening : ledger.listenerOf taskid with
  | none =>
      rw [buf2Resp]
      cases found : ledger.tasks taskid with
      | none => rfl
      | some entry =>
          rw [listenerOf, found, Option.bind_some] at listening
          simp only [listening]
  | some listener =>
      obtain ⟨entry, found, callback, noticed⟩ := notices_of_listening listening (.onResponse (frameData inbuffer))
      simp only [buf2Resp, found, callback, Option.bind_eq_bind, opened, noticed]
      rw [← Option.bind_assoc, parse_getData]
      split
      · exact Option.map_eq_bind.symm
      · rfl

theorem buf2Resp_valid (taskid : UInt32) (inbuffer : Buffer) (complete : CompleteFrame inbuffer)
    (inCallback : Ledger → Option Ledger) :
    ledger.buf2Resp width taskid inbuffer inCallback =
      match ledger.listenerOf taskid with
      | none => some (-1, ledger)
      | some _ => (inCallback (ledger.opened (.buf2Resp taskid inbuffer))).map (Prod.mk 0) := by
  obtain ⟨_, whole, short⟩ := complete
  rw [buf2Resp_eq, castLength_of_lt width short]
  simp only [if_pos (show _ ∧ _ from ⟨whole, Nat.le_refl _⟩)]

/-- A valid turn always succeeds, and this is its effect. -/
theorem step_valid (framed : ledger.Framed) (turn : Turn Buffer) (valid : turn.Valid) :
    ledger.step width turn = some (ledger.answer turn.event, ledger.after width turn) := by
  obtain ⟨event, sends⟩ := turn
  obtain ⟨event_valid, sends_valid⟩ := valid
  have sends_eq (current : Ledger) := sendAll_valid width current sends sends_valid
  cases event with
  | sendMessage request =>
      simp only [step, sendMessage_valid width ledger request event_valid]
      rfl
  | registerPushListener listener => rfl
  | onPush body =>
      simp only [step, onPush_valid width ledger body event_valid, after, opened, turnSends]
      cases ledger.pushListener with
      | none => rfl
      | some listener =>
          simp only [sends_eq]
          rfl
  | req2Buf taskid outbuffer =>
      simp only [step, req2Buf, answer, after]
      cases found : ledger.tasks taskid with
      | none => rfl
      | some entry =>
          obtain ⟨body, short, message⟩ := framed taskid entry found
          simp only [message, buildEchatTcpMsg_frame width taskid body short]
          rfl
  | buf2Resp taskid inbuffer =>
      simp only [step, buf2Resp_valid width ledger taskid inbuffer event_valid, answer, after, turnSends]
      cases listening : ledger.listenerOf taskid with
      | none =>
          simp only [opened, notices_of_silent listening, List.append_nil]
          rfl
      | some listener =>
          simp only [sends_eq]
          rfl
  | onTaskEnd taskid errorType errorCode =>
      simp only [step, onTaskEnd_eq Buffer, answer, after, turnSends]
      cases listening : ledger.listenerOf taskid with
      | none =>
          simp only [opened, notices_of_silent listening, List.append_nil]
          rfl
      | some listener =>
          simp only [sends_eq]
          rfl

/-- The messages of a valid turn are valid. -/
theorem turnSends_valid (turn : Turn Buffer) (valid : turn.Valid) :
    ∀ request ∈ ledger.turnSends turn, request.Valid := by
  obtain ⟨event, sends⟩ := turn
  obtain ⟨event_valid, sends_valid⟩ := valid
  intro request member
  cases event with
  | sendMessage own => exact List.mem_singleton.mp member ▸ event_valid
  | registerPushListener listener => cases member
  | req2Buf taskid outbuffer => cases member
  | _ =>
      simp only [turnSends] at member
      split at member
      · cases member
      · exact sends_valid request member

variable {ledger}

theorem Framed.initial : Ledger.initial.Framed := nofun

theorem Framed.sent (framed : ledger.Framed) {request : SendRequest} (valid : request.Valid) :
    (ledger.sent width request).Framed := by
  intro taskid entry found
  by_cases same : taskid = ledger.messageId
  · subst same
    change (ledger.takeId.store width (ImMessage.framed ledger.messageId request.body) ledger.messageId request).tasks
      ledger.messageId = some entry at found
    rw [tasks_store_self] at found
    obtain rfl := Option.some.inj found
    exact ⟨request.body, by have short := valid.2; omega, rfl⟩
  · exact framed taskid entry ((tasks_store_of_ne _ _ _ _ same).symm.trans found)

theorem Framed.sentAll (framed : ledger.Framed) {requests : List SendRequest}
    (valid : ∀ request ∈ requests, request.Valid) : (ledger.sentAll width requests).Framed := by
  induction requests generalizing ledger with
  | nil => exact framed
  | cons request later ih =>
      exact ih (framed.sent width (valid request List.mem_cons_self)) fun other member =>
        valid other (List.mem_cons_of_mem _ member)

/-- Every entry stays framed through every valid turn. -/
theorem Framed.after (framed : ledger.Framed) {turn : Turn Buffer} (valid : turn.Valid) :
    (ledger.after width turn).Framed := by
  have start : (ledger.opened turn.event).Framed := by
    intro taskid entry found
    exact framed taskid entry ((congrFun (tasks_opened ledger turn.event) taskid).symm.trans found)
  have middle := start.sentAll width (turnSends_valid ledger turn valid)
  intro taskid entry found
  obtain same | gone := tasks_closed _ turn.event taskid
  · exact middle taskid entry (same.symm.trans found)
  · cases gone.symm.trans found

theorem next_valid (framed : ledger.Framed) {turn : Turn Buffer} (valid : turn.Valid) :
    ledger.next width turn = some (ledger.after width turn) := by
  rw [next, step_valid width ledger framed turn valid, Option.map_some]

/-- Every valid run succeeds. -/
theorem run_valid (framed : ledger.Framed) (turns : List (Turn Buffer)) (valid : ∀ turn ∈ turns, turn.Valid) :
    ledger.run width turns = some (turns.foldl (Ledger.after width) ledger) ∧
      (turns.foldl (Ledger.after width) ledger).Framed := by
  induction turns generalizing ledger with
  | nil => exact ⟨rfl, framed⟩
  | cons turn later ih =>
      have own := valid turn List.mem_cons_self
      obtain ⟨ran, kept⟩ := ih (framed.after width own) fun other member => valid other (List.mem_cons_of_mem _ member)
      refine ⟨?_, kept⟩
      rw [run, PartialRun.run_cons, next_valid width framed own]
      exact ran

end Steps

end Ledger

end MarsWrapper
