import MarsWrapper.Stream.HostileBytes
import MarsWrapper.Tasks.ListenerProtocol

namespace MarsWrapper

open Foundation Foundation.StreamLoop AutoBufferApi

variable {Buffer : Type}

/-- The wrapper runs beside the bytes of its connection that no packet has claimed yet. -/
structure Wire (Buffer : Type) where
  state : State
  packed : Buffer

/-- The application and the engine call the wrapper on their own, the server sends bytes, and a connection is lost. -/
inductive Traffic (Buffer : Type) where
  | call (turn : Turn Buffer)
  | read (bytes : List UInt8)
  | close

namespace Traffic

/-- A read is shorter than a gigabyte, and the bytes themselves are arbitrary. -/
def Valid [AutoBufferApi Buffer] : Traffic Buffer → Prop
  | .call turn => turn.Valid
  | .read bytes => bytes.length < 2 ^ 30
  | .close => True

instance [AutoBufferApi Buffer] : (item : Traffic Buffer) → Decidable item.Valid
  | .call turn => inferInstanceAs (Decidable turn.Valid)
  | .read bytes => inferInstanceAs (Decidable (bytes.length < 2 ^ 30))
  | .close => inferInstanceAs (Decidable True)

def own : Traffic Buffer → Option (Turn Buffer)
  | .call turn => some turn
  | .read _ | .close => none

end Traffic

/-- The engine answers an accepted packet with calls of the wrapper. -/
abbrev Dispatch (Buffer : Type) := State → Unpacked Buffer → List (Turn Buffer)

/-- A call of the engine hands over the bytes of the packet and no others. -/
def Event.Delivers [AutoBufferApi Buffer] (event : Event Buffer) (out : Unpacked Buffer) : Prop :=
  match event with
  | .onPush body => body = out.body
  | .buf2Resp _ inbuffer => inbuffer = out.body
  | _ => event.Valid

/-- The engine keeps heartbeats to itself and delivers every other packet as it came. -/
structure Delivering [AutoBufferApi Buffer] (dispatch : Dispatch Buffer) : Prop where
  heartbeat : ∀ state out, longlinkNoopIsresp out.seq = true → dispatch state out = []
  delivers : ∀ state out, ∀ turn ∈ dispatch state out, turn.event.Delivers out
  sends : ∀ state out, ∀ turn ∈ dispatch state out, ∀ request ∈ turn.sends, request.Valid

/-- Mars tells the packets apart by the identification functions, and ends a task behind its response. -/
def marsDispatch [AutoBufferApi Buffer] (state : State) (out : Unpacked Buffer) : List (Turn Buffer) :=
  if longlinkNoopIsresp out.seq then []
  else if longlinkIspush out.seq then [(Event.onPush out.body).quiet]
  else if (state.getTaskConext out.seq).isSome then
    [(Event.buf2Resp out.seq out.body).quiet, (Event.onTaskEnd out.seq kEctOK 0).quiet]
  else []

namespace Wire

section Steps

variable [AutoBuffer Buffer] (width : SizeT) (dispatch : Dispatch Buffer)

def initial : Wire Buffer := ⟨State.initial, empty⟩

def serve (state : Option State) (_packed : Buffer) (out : Unpacked Buffer) : Option State :=
  state.bind fun current => current.run width (dispatch current out)

/-- A read runs the receive loop. A rejected stream is closed, and the next connection starts with an empty buffer. -/
def next (wire : Wire Buffer) : Traffic Buffer → Option (Wire Buffer)
  | .call turn => (wire.state.next width turn).map fun state => ⟨state, wire.packed⟩
  | .read bytes =>
    let packed := receive wire.packed bytes
    let outcome := drain nonEmpty (unpackVerdict width) (serve width dispatch) (length packed) (some wire.state) packed
    match outcome.stop with
    | .stuck => none
    | .reject => outcome.state.map fun state => ⟨state, empty⟩
    | .idle | .wait => outcome.state.map fun state => ⟨state, outcome.rest⟩
  | .close => some ⟨wire.state, empty⟩

def run (wire : Wire Buffer) (traffic : List (Traffic Buffer)) : Option (Wire Buffer) :=
  PartialRun.run (next width dispatch) wire traffic

end Steps

end Wire

/-- The state is the end of a valid run that holds these turns in their order. -/
def ServedBy [AutoBufferApi Buffer] (width : SizeT) (own : List (Turn Buffer)) (state : State) : Prop :=
  ∃ turns : List (Turn Buffer), (∀ turn ∈ turns, turn.Valid) ∧ own.Sublist turns ∧
    State.initial.run width turns = some state

section Serving

variable [AutoBuffer Buffer] {width : SizeT} {own : List (Turn Buffer)} {state : State}

theorem ServedBy.initial : ServedBy width ([] : List (Turn Buffer)) State.initial :=
  ⟨[], by simp, List.Sublist.refl _, rfl⟩

/-- More valid turns have defined behaviour, whether the application or the server causes them. -/
theorem ServedBy.run (served : ServedBy width own state) {mine turns : List (Turn Buffer)} (part : mine.Sublist turns)
    (valid : ∀ turn ∈ turns, turn.Valid) :
    ∃ next, state.run width turns = some next ∧ ServedBy width (own ++ mine) next := by
  obtain ⟨earlier, earlierValid, inside, reached⟩ := served
  have whole : ∀ turn ∈ earlier ++ turns, turn.Valid := by
    intro turn member
    obtain before | after := List.mem_append.mp member
    · exact earlierValid turn before
    · exact valid turn after
  obtain ⟨next, ran, joined⟩ := State.run_valid_append width whole reached
  exact ⟨next, ran, earlier ++ turns, whole, inside.append part, joined⟩

theorem ServedBy.owned (served : ServedBy width own state) : Owned state [] := by
  obtain ⟨turns, _, _, reached⟩ := served
  exact (Owned.initial.run_refines width turns).kept state reached

end Serving

section Verdicts

variable [AutoBuffer Buffer]

/-- With 64-bit sizes a short buffer is accepted as a heartbeat or not at all. -/
theorem sized_of_accept {packed : Buffer} {size : Nat} {out : Unpacked Buffer}
    (accepted : unpackVerdict .bits64 packed = .accept size out) :
    0 < size ∧ size ≤ length packed ∧
      (longlinkNoopIsresp out.seq = true ∨ hasHeader packed = true ∧
        12 + (wordAt (content packed) 8).toNat ≤ length packed ∧ content out.body = content packed) := by
  by_cases header : 12 ≤ length packed
  · have whole : hasHeader packed = true := decide_eq_true header
    obtain ⟨_, least, _, inside, sized, rfl⟩ := accept_of_header whole accepted
    exact ⟨by omega, inside, Or.inr ⟨whole, sized ▸ inside, AutoBuffer.content_writeCur_empty _⟩⟩
  · by_cases four : length packed = 4
    · rw [unpackVerdict_heartbeat _ packed four] at accepted
      obtain ⟨rfl, rfl⟩ := Verdict.accept.inj accepted
      exact ⟨by decide, by omega, Or.inl rfl⟩
    · -- The missing bytes of the header decide between the two other verdicts.
      have bounded := declaredLen_lt packed
      have sized : SizeT.bits64.wrap (declaredLen packed + 12) = declaredLen packed + 12 :=
        Nat.mod_eq_of_lt (by simp only [SizeT.bits]; omega)
      by_cases large : 2 ^ 20 < declaredLen packed + 12
      · rw [unpackVerdict_reject _ packed four (by omega)] at accepted
        contradiction
      · rw [unpackVerdict_wait _ packed four (by omega) (by omega)] at accepted
        contradiction

/-- A buffer that waits is shorter than the largest packet. -/
theorem length_lt_of_wait {packed : Buffer} (waits : unpackVerdict .bits64 packed = .wait) : length packed < 2 ^ 20 := by
  by_cases header : 12 ≤ length packed
  · rw [unpackVerdict_header packed header] at waits
    split at waits
    · contradiction
    · split at waits
      · omega
      · contradiction
  · omega

/-- An empty buffer has room. -/
theorem room_empty : length (empty : Buffer) < 2 ^ 20 := by
  rw [AutoBuffer.length_empty]
  decide

/-- The body of an accepted packet is a complete frame. -/
theorem complete_of_accepted {packed : Buffer} {out : Unpacked Buffer} (open_ : hasHeader packed = true)
    (whole : 12 + (wordAt (content packed) 8).toNat ≤ length packed) (copied : content out.body = content packed)
    (short : length packed < 2 ^ 31) : CompleteFrame out.body := by
  have long : length out.body = length packed := by
    rw [← AutoBuffer.length_content, copied, AutoBuffer.length_content]
  have header : 12 ≤ length packed := of_decide_eq_true open_
  rw [CompleteFrame, long, copied]
  exact ⟨header, whole, short⟩

end Verdicts

namespace Delivering

variable [AutoBuffer Buffer] {dispatch : Dispatch Buffer} (delivering : Delivering dispatch)

include delivering

/-- The calls for an accepted packet are valid. -/
theorem valid {packed : Buffer} {size : Nat} {out : Unpacked Buffer}
    (accepted : unpackVerdict .bits64 packed = .accept size out) (short : length packed < 2 ^ 31) (state : State) :
    ∀ turn ∈ dispatch state out, turn.Valid := by
  intro turn member
  obtain ⟨_, _, heartbeat | ⟨header, whole, copied⟩⟩ := sized_of_accept accepted
  · rw [delivering.heartbeat state out heartbeat] at member
    cases member
  · have complete := complete_of_accepted header whole copied short
    have hands := delivering.delivers state out turn member
    refine ⟨?_, delivering.sends state out turn member⟩
    cases event : turn.event with
    | onPush body =>
        rw [event] at hands
        obtain rfl : body = out.body := hands
        exact complete.2.2
    | buf2Resp taskid inbuffer =>
        rw [event] at hands
        obtain rfl : inbuffer = out.body := hands
        exact complete
    | sendMessage request =>
        rw [event] at hands
        exact hands
    | _ => trivial

/-- The calls for the consumed packets continue the run of the wrapper. -/
theorem serves {own : List (Turn Buffer)} {state : State} {packed rest : Buffer}
    {packets : List (Buffer × Nat × Unpacked Buffer)}
    (consumed : Consumes nonEmpty (unpackVerdict .bits64) packed packets rest) (short : length packed < 2 ^ 31)
    (served : ServedBy .bits64 own state) :
    ∃ next, handleAll (Wire.serve .bits64 dispatch) (some state) packets = some next ∧ ServedBy .bits64 own next := by
  apply @handleAll_invariant _ _ _ _ fun current => ∃ next, current = some next ∧ ServedBy .bits64 own next
  · intro packet member current holds
    obtain ⟨before, rfl, served⟩ := holds
    have accepted := (consumed.accepted packet member).2
    have shorter := consumed.length_le packet member
    simp only [AutoBuffer.bytes_eq_content, AutoBuffer.length_content] at shorter
    obtain ⟨next, ran, after⟩ := served.run (List.nil_sublist _) (delivering.valid accepted (by omega) before)
    rw [List.append_nil] at after
    exact ⟨next, ran, after⟩
  · exact ⟨state, rfl, served⟩

/-- One read is served by valid turns and leaves less than the largest packet. -/
theorem next_read {own : List (Turn Buffer)} {wire : Wire Buffer} (served : ServedBy .bits64 own wire.state)
    (room : length wire.packed < 2 ^ 20) {bytes : List UInt8} (short : bytes.length < 2 ^ 30) :
    ∃ next, wire.next .bits64 dispatch (.read bytes) = some next ∧ ServedBy .bits64 own next.state ∧
      length next.packed < 2 ^ 20 := by
  have long : length (receive wire.packed bytes) < 2 ^ 31 := by
    rw [← AutoBuffer.length_content, AutoBuffer.content_receive, List.length_append, AutoBuffer.length_content]
    omega
  have advances (buffer : Buffer) (size : Nat) (out : Unpacked Buffer) (_ : nonEmpty buffer = true)
      (accepted : unpackVerdict .bits64 buffer = .accept size out) :
      0 < size ∧ size ≤ (StreamBuffer.bytes buffer).length := by
    obtain ⟨positive, inside, _⟩ := sized_of_accept accepted
    rw [AutoBuffer.bytes_eq_content, AutoBuffer.length_content]
    exact ⟨positive, inside⟩
  obtain ⟨packets, rest, stop, consumed, reason, drained⟩ :=
    @drain_terminates _ Buffer _ _ nonEmpty (unpackVerdict .bits64) (Wire.serve .bits64 dispatch) advances
      (fun buffer open_ => (nonEmpty_iff buffer).mp open_) (length (receive wire.packed bytes)) (some wire.state)
      (receive wire.packed bytes) (by rw [AutoBuffer.bytes_eq_content, AutoBuffer.length_content])
  obtain ⟨state, handled, after⟩ := delivering.serves consumed long served
  rw [Wire.next, drained, handled]
  cases stop with
  | idle =>
      have bare : content rest = [] := (nonEmpty_eq_false_iff rest).mp reason
      rw [AutoBuffer.content_eq_nil_iff] at bare
      exact ⟨⟨state, rest⟩, rfl, after, by change length rest < 2 ^ 20; omega⟩
  | wait => exact ⟨⟨state, rest⟩, rfl, after, length_lt_of_wait reason.2⟩
  | reject => exact ⟨⟨state, empty⟩, rfl, after, room_empty⟩
  | stuck => exact reason.elim

/-- Every traffic from a served state is served. -/
theorem run {own : List (Turn Buffer)} {wire : Wire Buffer} (served : ServedBy .bits64 own wire.state)
    (room : length wire.packed < 2 ^ 20) (traffic : List (Traffic Buffer)) (valid : ∀ item ∈ traffic, item.Valid) :
    ∃ final, wire.run .bits64 dispatch traffic = some final ∧
      ServedBy .bits64 (own ++ traffic.filterMap Traffic.own) final.state ∧ length final.packed < 2 ^ 20 := by
  induction traffic generalizing own wire with
  | nil => exact ⟨wire, rfl, by rwa [List.filterMap_nil, List.append_nil], room⟩
  | cons item later ih =>
      have first := valid item List.mem_cons_self
      have others : ∀ other ∈ later, other.Valid := fun other member => valid other (List.mem_cons_of_mem _ member)
      rw [Wire.run, PartialRun.run_cons]
      cases item with
      | call turn =>
          obtain ⟨state, ran, after⟩ := served.run (List.Sublist.refl [turn]) fun other member =>
            List.mem_singleton.mp member ▸ first
          obtain ⟨final, reached, done⟩ := @ih _ ⟨state, wire.packed⟩ after room others
          rw [List.append_assoc] at done
          rw [State.run, PartialRun.run_cons] at ran
          obtain ⟨state, stepped, same⟩ := Option.bind_eq_some_iff.mp ran
          obtain rfl := Option.some.inj same
          refine ⟨final, ?_, done⟩
          rw [Wire.next, stepped, Option.map_some, Option.bind_some]
          exact reached
      | read bytes =>
          obtain ⟨next, stepped, after, left⟩ := delivering.next_read served room first
          obtain ⟨final, reached, done⟩ := ih after left others
          refine ⟨final, ?_, done⟩
          rw [stepped, Option.bind_some]
          exact reached
      | close => exact @ih _ ⟨wire.state, empty⟩ served room_empty others

end Delivering

/-- Whatever bytes the server sends, however they are cut into reads and whenever connections are lost, the 64-bit
wrapper has defined behaviour, its state is one that valid calls reach, and less than the largest packet stays
buffered. -/
theorem hostileServer [AutoBuffer Buffer] {dispatch : Dispatch Buffer} (delivering : Delivering dispatch)
    (traffic : List (Traffic Buffer)) (valid : ∀ item ∈ traffic, item.Valid) :
    ∃ final, Wire.initial.run .bits64 dispatch traffic = some final ∧ length final.packed < 2 ^ 20 ∧
      Owned final.state [] ∧
      ∃ turns : List (Turn Buffer), (∀ turn ∈ turns, turn.Valid) ∧ (traffic.filterMap Traffic.own).Sublist turns ∧
        State.initial.run .bits64 turns = some final.state := by
  obtain ⟨final, ran, served, left⟩ := @Delivering.run _ _ _ delivering _ Wire.initial ServedBy.initial room_empty
    traffic valid
  rw [List.nil_append] at served
  exact ⟨final, ran, left, served.owned, served⟩

/-- Mars hands over the body as it came, and no listener sends a message. -/
theorem delivers_of_mem_marsDispatch [AutoBufferApi Buffer] {state : State} {out : Unpacked Buffer} {turn : Turn Buffer}
    (member : turn ∈ marsDispatch state out) : turn.event.Delivers out ∧ turn.sends = [] := by
  rw [marsDispatch] at member
  split at member
  · cases member
  · split at member
    · obtain rfl := List.mem_singleton.mp member
      exact ⟨rfl, rfl⟩
    · split at member
      · obtain rfl | rest := List.mem_cons.mp member
        · exact ⟨rfl, rfl⟩
        · obtain rfl := List.mem_singleton.mp rest
          exact ⟨trivial, rfl⟩
      · cases member

theorem delivering_marsDispatch [AutoBufferApi Buffer] : Delivering (marsDispatch : Dispatch Buffer) where
  heartbeat _ _ heartbeat := if_pos heartbeat
  delivers _ _ _ member := (delivers_of_mem_marsDispatch member).1
  sends _ _ _ member request sent := by
    rw [(delivers_of_mem_marsDispatch member).2] at sent
    cases sent

/-- A server answers the first task with a wrong magic number, and then its bytes make no sense. -/
def roughTraffic : List (Traffic ByteBuffer) :=
  [.call (Event.sendMessage ⟨[104], 1, some 7⟩).quiet, .read [0, 0, 0, 0, 16, 39, 0, 0, 1, 0, 0], .read [0, 105],
    .read [1, 2, 3], .read [4], .read [5], .close, .read [9, 9, 9, 9, 9, 9, 9, 9, 9, 9, 9, 9]]

theorem hostileServer_rough :
    ∃ final, Wire.initial.run .bits64 marsDispatch roughTraffic = some final ∧ length final.packed < 2 ^ 20 ∧
      Owned final.state [] ∧
      ∃ turns : List (Turn ByteBuffer), (∀ turn ∈ turns, turn.Valid) ∧
        (roughTraffic.filterMap Traffic.own).Sublist turns ∧ State.initial.run .bits64 turns = some final.state :=
  hostileServer delivering_marsDispatch roughTraffic (by decide)

/-- With 32-bit sizes a length that wraps to an empty packet leaves the loop without an end. -/
example : ((Wire.initial : Wire ByteBuffer).run .bits32 marsDispatch
    [.read [0, 0, 0, 0, 0, 0, 0, 0, 244, 255, 255, 255]]).isNone = true := by
  decide

end MarsWrapper
