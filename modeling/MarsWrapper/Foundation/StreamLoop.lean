import Mathlib.Tactic

namespace Foundation

/-- A receive buffer grows at its end and loses bytes at its front. -/
class StreamBuffer (B : Type) where
  bytes : B → List UInt8
  receive : B → List UInt8 → B
  discard : B → Nat → B
  bytes_receive : ∀ buffer read, bytes (receive buffer read) = bytes buffer ++ read
  bytes_discard : ∀ buffer count, bytes (discard buffer count) = (bytes buffer).drop count

namespace StreamLoop

open StreamBuffer

/-- A decoder accepts one packet of a stated size, asks for more bytes, or rejects the stream. -/
inductive Verdict (P : Type) where
  | accept (size : Nat) (packet : P)
  | wait
  | reject

/-- The loop stops for one of these reasons, and a stuck loop has used its fuel. -/
inductive Stop where
  | idle
  | wait
  | reject
  | stuck
  deriving DecidableEq

structure Outcome (S B : Type) where
  state : S
  rest : B
  stop : Stop

variable {S B P : Type}

/-- The handler sees the consumed packets in their order. -/
def handleAll (handle : S → B → P → S) (state : S) (packets : List (B × Nat × P)) : S :=
  packets.foldl (fun current packet => handle current packet.1 packet.2.2) state

@[simp] theorem handleAll_nil (handle : S → B → P → S) (state : S) : handleAll handle state [] = state := rfl

@[simp] theorem handleAll_cons (handle : S → B → P → S) (state : S) (packet : B × Nat × P)
    (later : List (B × Nat × P)) :
    handleAll handle state (packet :: later) = handleAll handle (handle state packet.1 packet.2.2) later := rfl

/-- A property that the handler keeps at each of these packets holds behind all of them. -/
theorem handleAll_invariant {handle : S → B → P → S} {invariant : S → Prop} {packets : List (B × Nat × P)}
    (keeps : ∀ packet ∈ packets, ∀ state, invariant state → invariant (handle state packet.1 packet.2.2)) {state : S}
    (start : invariant state) : invariant (handleAll handle state packets) := by
  induction packets generalizing state with
  | nil => exact start
  | cons packet later ih =>
      rw [handleAll_cons]
      exact ih (fun other member => keeps other (List.mem_cons_of_mem _ member))
        (keeps packet List.mem_cons_self state start)

variable [StreamBuffer B]

/-- The loop hands each accepted packet to the handler and drops its bytes. -/
def drain (ready : B → Bool) (decode : B → Verdict P) (handle : S → B → P → S) : Nat → S → B → Outcome S B
  | 0, state, buffer => ⟨state, buffer, if ready buffer then .stuck else .idle⟩
  | fuel + 1, state, buffer =>
    if ready buffer then
      match decode buffer with
      | .accept size packet => drain ready decode handle fuel (handle state buffer packet) (discard buffer size)
      | .wait => ⟨state, buffer, .wait⟩
      | .reject => ⟨state, buffer, .reject⟩
    else ⟨state, buffer, .idle⟩

/-- Each read is appended before the loop runs, and a rejected or stuck stream reads no more. -/
def receiveAll (ready : B → Bool) (decode : B → Verdict P) (handle : S → B → P → S) :
    S → B → List (List UInt8) → Outcome S B
  | state, buffer, [] => ⟨state, buffer, if ready buffer then .wait else .idle⟩
  | state, buffer, read :: reads =>
    let outcome := drain ready decode handle (bytes (receive buffer read)).length state (receive buffer read)
    match outcome.stop with
    | .reject | .stuck => outcome
    | .idle | .wait => receiveAll ready decode handle outcome.state outcome.rest reads

/-- These packets leave the buffer one after another. -/
inductive Consumes (ready : B → Bool) (decode : B → Verdict P) : B → List (B × Nat × P) → B → Prop
  | nil (buffer : B) : Consumes ready decode buffer [] buffer
  | cons {buffer rest : B} {size : Nat} {packet : P} {later : List (B × Nat × P)}
      (open_ : ready buffer = true) (accepted : decode buffer = .accept size packet)
      (consumed : Consumes ready decode (discard buffer size) later rest) :
      Consumes ready decode buffer ((buffer, size, packet) :: later) rest

variable {ready : B → Bool} {decode : B → Verdict P} {handle : S → B → P → S}

theorem drain_idle (fuel : Nat) (state : S) (buffer : B) (closed : ready buffer = false) :
    drain ready decode handle fuel state buffer = ⟨state, buffer, .idle⟩ := by
  cases fuel <;> simp [drain, closed]

theorem drain_accept (fuel : Nat) (state : S) (buffer : B) {size : Nat} {packet : P}
    (open_ : ready buffer = true) (accepted : decode buffer = .accept size packet) :
    drain ready decode handle (fuel + 1) state buffer =
      drain ready decode handle fuel (handle state buffer packet) (discard buffer size) := by
  rw [drain, if_pos open_, accepted]

theorem drain_wait (fuel : Nat) (state : S) (buffer : B) (open_ : ready buffer = true)
    (waits : decode buffer = .wait) :
    drain ready decode handle (fuel + 1) state buffer = ⟨state, buffer, .wait⟩ := by
  rw [drain, if_pos open_, waits]

theorem drain_reject (fuel : Nat) (state : S) (buffer : B) (open_ : ready buffer = true)
    (rejects : decode buffer = .reject) :
    drain ready decode handle (fuel + 1) state buffer = ⟨state, buffer, .reject⟩ := by
  rw [drain, if_pos open_, rejects]

/-- The loop passes every consumed packet and continues with the remaining fuel. -/
theorem drain_consumes {buffer rest : B} {packets : List (B × Nat × P)}
    (consumed : Consumes ready decode buffer packets rest) (fuel : Nat) (state : S) :
    drain ready decode handle (packets.length + fuel) state buffer =
      drain ready decode handle fuel (handleAll handle state packets) rest := by
  induction consumed generalizing state with
  | nil buffer => simp
  | cons open_ accepted consumed ih =>
      rw [List.length_cons, show ∀ count, count + 1 + fuel = count + fuel + 1 by omega,
        drain_accept _ _ _ open_ accepted, ih]
      rfl

/-- The consumed slices and the rest tile the buffer. -/
theorem Consumes.tiles {buffer rest : B} {packets : List (B × Nat × P)}
    (consumed : Consumes ready decode buffer packets rest) :
    (packets.map fun packet => (bytes packet.1).take packet.2.1).flatten ++ bytes rest = bytes buffer := by
  induction consumed with
  | nil buffer => rfl
  | cons open_ accepted consumed ih =>
      rw [bytes_discard] at ih
      simp only [List.map_cons, List.flatten_cons, List.append_assoc, ih, List.take_append_drop]

/-- Every consumed packet was accepted at the head of its own residue. -/
theorem Consumes.accepted {buffer rest : B} {packets : List (B × Nat × P)}
    (consumed : Consumes ready decode buffer packets rest) :
    ∀ packet ∈ packets, ready packet.1 = true ∧ decode packet.1 = .accept packet.2.1 packet.2.2 := by
  induction consumed with
  | nil buffer => simp
  | cons open_ accepted consumed ih =>
      intro packet member
      rcases List.mem_cons.mp member with rfl | later
      · exact ⟨open_, accepted⟩
      · exact ih packet later

/-- A residue is never longer than the buffer it comes from. -/
theorem Consumes.length_le {buffer rest : B} {packets : List (B × Nat × P)}
    (consumed : Consumes ready decode buffer packets rest) :
    ∀ packet ∈ packets, (bytes packet.1).length ≤ (bytes buffer).length := by
  induction consumed with
  | nil buffer => simp
  | cons open_ accepted consumed ih =>
      intro packet member
      rcases List.mem_cons.mp member with rfl | later
      · exact Nat.le_refl _
      · have shorter := ih packet later
        rw [bytes_discard, List.length_drop] at shorter
        omega

/-- Whatever the handler only extends, the loop only extends. -/
theorem drain_extends {related : S → S → Prop} (same : ∀ state, related state state)
    (joins : ∀ first second third, related first second → related second third → related first third)
    (grows : ∀ state buffer packet, related state (handle state buffer packet)) (fuel : Nat) (state : S) (buffer : B) :
    related state (drain ready decode handle fuel state buffer).state := by
  induction fuel generalizing state buffer with
  | zero => exact same state
  | succ fuel ih =>
      rw [drain]
      split
      · split
        · exact joins _ _ _ (grows _ _ _) (ih _ _)
        · exact same state
        · exact same state
      · exact same state

/-- A read either ends the stream or passes its outcome to the next read. -/
theorem receiveAll_cons (read : List UInt8) (reads : List (List UInt8)) (state : S) (buffer : B) {outcome : Outcome S B}
    (drained : drain ready decode handle (bytes (receive buffer read)).length state (receive buffer read) = outcome) :
    receiveAll ready decode handle state buffer (read :: reads) = outcome ∨
      receiveAll ready decode handle state buffer (read :: reads) =
        receiveAll ready decode handle outcome.state outcome.rest reads := by
  rw [receiveAll, drained]
  split
  · exact Or.inl rfl
  · exact Or.inl rfl
  · exact Or.inr rfl
  · exact Or.inr rfl

theorem receiveAll_extends {related : S → S → Prop} (same : ∀ state, related state state)
    (joins : ∀ first second third, related first second → related second third → related first third)
    (grows : ∀ state buffer packet, related state (handle state buffer packet))
    (reads : List (List UInt8)) (state : S) (buffer : B) :
    related state (receiveAll ready decode handle state buffer reads).state := by
  induction reads generalizing state buffer with
  | nil => exact same state
  | cons read reads ih =>
      have drained := @drain_extends _ _ _ _ ready decode _ _ same joins grows (bytes (receive buffer read)).length
        state (receive buffer read)
      obtain ended | continued := receiveAll_cons read reads state buffer rfl
      · rw [ended]
        exact drained
      · rw [continued]
        exact joins _ _ _ drained (ih _ _)

/-- The later reads only extend what the first read gives. -/
theorem receiveAll_extends_drain {related : S → S → Prop} (same : ∀ state, related state state)
    (joins : ∀ first second third, related first second → related second third → related first third)
    (grows : ∀ state buffer packet, related state (handle state buffer packet))
    (read : List UInt8) (reads : List (List UInt8)) (state : S) (buffer : B) {outcome : Outcome S B}
    (drained : drain ready decode handle (bytes (receive buffer read)).length state (receive buffer read) = outcome) :
    related outcome.state (receiveAll ready decode handle state buffer (read :: reads)).state := by
  obtain ended | continued := receiveAll_cons read reads state buffer drained
  · rw [ended]
    exact same _
  · rw [continued]
    exact receiveAll_extends same joins grows reads _ _

/-- A read that the loop finishes or pauses on passes its outcome to the next read. -/
theorem receiveAll_continue {state : S} {buffer : B} {read : List UInt8} {reads : List (List UInt8)}
    {outcome : Outcome S B}
    (drained : drain ready decode handle (bytes (receive buffer read)).length state (receive buffer read) = outcome)
    (open_ : outcome.stop = .idle ∨ outcome.stop = .wait) :
    receiveAll ready decode handle state buffer (read :: reads) =
      receiveAll ready decode handle outcome.state outcome.rest reads := by
  rw [receiveAll, drained]
  rcases open_ with idle | wait
  · simp only [idle]
  · simp only [wait]

/-- A read that the loop rejects ends the stream. -/
theorem receiveAll_reject {state : S} {buffer : B} {read : List UInt8} {reads : List (List UInt8)}
    {outcome : Outcome S B}
    (drained : drain ready decode handle (bytes (receive buffer read)).length state (receive buffer read) = outcome)
    (rejects : outcome.stop = .reject) :
    receiveAll ready decode handle state buffer (read :: reads) = outcome := by
  rw [receiveAll, drained]
  simp only [rejects]

/-- Each stop reason states what the decoder says about the rest. -/
def Stop.Explains (ready : B → Bool) (decode : B → Verdict P) (rest : B) : Stop → Prop
  | .idle => ready rest = false
  | .wait => ready rest = true ∧ decode rest = .wait
  | .reject => ready rest = true ∧ decode rest = .reject
  | .stuck => False

/-- A decoder that accepts only nonempty prefixes makes the loop stop for a stated reason. -/
theorem drain_terminates
    (advances : ∀ buffer size packet, ready buffer = true → decode buffer = .accept size packet →
      0 < size ∧ size ≤ (bytes buffer).length)
    (nonempty : ∀ buffer, ready buffer = true → bytes buffer ≠ []) (fuel : Nat) (state : S) (buffer : B)
    (enough : (bytes buffer).length ≤ fuel) :
    ∃ packets rest stop, Consumes ready decode buffer packets rest ∧ Stop.Explains ready decode rest stop ∧
      drain ready decode handle fuel state buffer = ⟨handleAll handle state packets, rest, stop⟩ := by
  induction fuel generalizing state buffer with
  | zero =>
      have closed : ready buffer = false := by
        by_contra open_
        exact nonempty buffer (by simpa using open_) (List.length_eq_zero_iff.mp (by omega))
      exact ⟨[], buffer, .idle, .nil buffer, closed, drain_idle 0 state buffer closed⟩
  | succ fuel ih =>
      cases open_ : ready buffer with
      | false => exact ⟨[], buffer, .idle, .nil buffer, open_, drain_idle _ state buffer open_⟩
      | true =>
          cases verdict : decode buffer with
          | wait => exact ⟨[], buffer, .wait, .nil buffer, ⟨open_, verdict⟩, drain_wait fuel state buffer open_ verdict⟩
          | reject =>
              exact ⟨[], buffer, .reject, .nil buffer, ⟨open_, verdict⟩, drain_reject fuel state buffer open_ verdict⟩
          | accept size packet =>
              have sized := advances buffer size packet open_ verdict
              obtain ⟨packets, rest, stop, consumed, reason, drained⟩ :=
                ih (handle state buffer packet) (discard buffer size) (by
                  rw [bytes_discard, List.length_drop]
                  omega)
              refine ⟨_, rest, stop, .cons open_ verdict consumed, reason, ?_⟩
              rw [drain_accept fuel state buffer open_ verdict, drained]
              rfl

end StreamLoop

end Foundation
