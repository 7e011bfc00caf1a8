import MarsWrapper.Model.ThreadPrograms

namespace MarsWrapper

open Foundation

namespace StaticProgram

section Discipline

variable {held : Bool}

theorem newMessageId_disciplined {rest : UInt32 → StaticProgram} (later : ∀ id, (rest id).Disciplined held) :
    (newMessageId rest).Disciplined held := by
  intro statics _
  exact later statics.messageId

theorem index_disciplined {msgId : UInt32} {rest : Option Nat → StaticProgram}
    (later : ∀ ctx, (rest ctx).Disciplined held) : (index msgId rest).Disciplined held := by
  intro statics
  beta_reduce
  cases statics.taskId2TaskCtx msgId with
  | none => exact fun _ => later none
  | some ctx => exact later ctx

theorem getTaskConext_disciplined {msgId : UInt32} {rest : Option Nat → StaticProgram}
    (later : ∀ ctx, (rest ctx).Disciplined held) : (getTaskConext msgId rest).Disciplined held := by
  intro statics
  beta_reduce
  cases statics.taskId2TaskCtx msgId with
  | none => exact later none
  | some ctx => exact index_disciplined later

theorem storeContext_disciplined {taskId : UInt32} {ctx : Nat} {rest : StaticProgram} (later : rest.Disciplined false) :
    (storeContext taskId ctx rest).Disciplined false :=
  ⟨rfl, fun _ => getTaskConext_disciplined fun _ => ⟨rfl, later⟩⟩

theorem removeTaskContext_disciplined {msgId : UInt32} {rest : StaticProgram} (later : rest.Disciplined false) :
    (removeTaskContext msgId rest).Disciplined false := by
  apply getTaskConext_disciplined
  intro ctx
  cases ctx with
  | none => exact later
  | some ctx => exact ⟨rfl, fun _ => ⟨rfl, later⟩⟩

end Discipline

end StaticProgram

theorem AppCall.disciplined (call : AppCall) {rest : StaticProgram} (later : rest.Disciplined false) :
    (call.program rest).Disciplined false := by
  cases call with
  | sendMessage ctx =>
      rw [program, StaticProgram.sendMessage]
      exact StaticProgram.newMessageId_disciplined fun _ => StaticProgram.storeContext_disciplined later
  | registerPushListener listener => exact fun _ => later
  | registerChannelListener listener => exact fun _ => later

theorem listenerProgram_disciplined (inListener : List AppCall) {rest : StaticProgram}
    (later : rest.Disciplined false) : (listenerProgram inListener rest).Disciplined false := by
  induction inListener with
  | nil => exact later
  | cons call inListener ih => exact call.disciplined ih

theorem ApiCall.disciplined (call : ApiCall) {rest : StaticProgram} (later : rest.Disciplined false) :
    (call.program rest).Disciplined false := by
  cases call with
  | app call => exact call.disciplined later
  | onPush inListener =>
      rw [program]
      apply StaticProgram.newMessageId_disciplined
      intro _ statics
      beta_reduce
      cases statics.pushListener with
      | none => exact later
      | some listener => exact listenerProgram_disciplined inListener later
  | req2Buf taskid =>
      rw [program]
      exact StaticProgram.getTaskConext_disciplined fun _ => later
  | buf2Resp taskid inListener =>
      rw [program]
      apply StaticProgram.getTaskConext_disciplined
      intro ctx
      cases ctx with
      | none => exact later
      | some ctx => exact listenerProgram_disciplined inListener later
  | onTaskEnd taskid inListener =>
      rw [program]
      apply StaticProgram.getTaskConext_disciplined
      intro ctx
      cases ctx with
      | none => exact later
      | some ctx =>
          exact listenerProgram_disciplined inListener (StaticProgram.removeTaskContext_disciplined later)
  | reportConnectStatus inListener =>
      intro statics
      beta_reduce
      cases statics.channelListener with
      | none => exact later
      | some listener => exact listenerProgram_disciplined inListener later

/-- Every thread uses the mutex as its error checks demand. -/
theorem threadProgram_disciplined (calls : List ApiCall) : (threadProgram calls).Disciplined false := by
  induction calls with
  | nil => rfl
  | cons call calls ih => exact call.disciplined ih

/-- The program of a call of the application may make these accesses. -/
def AppCall.MayAccess (var : StaticVar) (writes locked : Bool) : AppCall → Prop
  | .sendMessage _ => (var = .messageId ∧ locked = false) ∨ (var = .taskId2TaskCtx ∧ locked = true)
  | .registerPushListener _ => var = .pushListener ∧ writes = true ∧ locked = false
  | .registerChannelListener _ => var = .channelListener ∧ writes = true ∧ locked = false

/-- The callbacks look a task up without the mutex. Only the end of a task also locks it. -/
def ApiCall.MayAccess (var : StaticVar) (writes locked : Bool) : ApiCall → Prop
  | .app call => call.MayAccess var writes locked
  | .onPush inListener =>
    (var = .messageId ∧ locked = false) ∨ (var = .pushListener ∧ writes = false ∧ locked = false) ∨
      ∃ call ∈ inListener, call.MayAccess var writes locked
  | .req2Buf _ => var = .taskId2TaskCtx ∧ locked = false
  | .buf2Resp _ inListener =>
    (var = .taskId2TaskCtx ∧ locked = false) ∨ ∃ call ∈ inListener, call.MayAccess var writes locked
  | .onTaskEnd _ inListener =>
    var = .taskId2TaskCtx ∨ ∃ call ∈ inListener, call.MayAccess var writes locked
  | .reportConnectStatus inListener =>
    (var = .channelListener ∧ writes = false ∧ locked = false) ∨ ∃ call ∈ inListener, call.MayAccess var writes locked

/-- These accesses do not depend on what the call finds. -/
def ApiCall.SurelyAccesses (var : StaticVar) (writes locked : Bool) : ApiCall → Prop
  | .app call => call.MayAccess var writes locked
  | .onPush _ => (var = .messageId ∧ locked = false) ∨ (var = .pushListener ∧ writes = false ∧ locked = false)
  | .req2Buf _ | .buf2Resp _ _ | .onTaskEnd _ _ => var = .taskId2TaskCtx ∧ writes = false ∧ locked = false
  | .reportConnectStatus _ => var = .channelListener ∧ writes = false ∧ locked = false

namespace StaticProgram

section Accesses

variable {var : StaticVar} {writes locked held : Bool}

theorem may_newMessageId {rest : UInt32 → StaticProgram} (may : (newMessageId rest).May var writes locked held) :
    (var = .messageId ∧ held = locked) ∨ ∃ id, (rest id).May var writes locked held := by
  obtain ⟨here, _, same⟩ | ⟨statics, ⟨here, _, same⟩ | ⟨_, later⟩⟩ := may
  · exact Or.inl ⟨here.symm, same⟩
  · exact Or.inl ⟨here.symm, same⟩
  · exact Or.inr ⟨statics.messageId, later⟩

theorem may_index {msgId : UInt32} {rest : Option Nat → StaticProgram}
    (may : (index msgId rest).May var writes locked held) :
    (var = .taskId2TaskCtx ∧ held = locked) ∨ ∃ ctx, (rest ctx).May var writes locked held := by
  obtain ⟨here, _, same⟩ | ⟨statics, later⟩ := may
  · exact Or.inl ⟨here.symm, same⟩
  · beta_reduce at later
    cases key : statics.taskId2TaskCtx msgId with
    | some ctx =>
        rw [key] at later
        exact Or.inr ⟨ctx, later⟩
    | none =>
        rw [key] at later
        obtain ⟨here, _, same⟩ | ⟨_, later⟩ := later
        · exact Or.inl ⟨here.symm, same⟩
        · exact Or.inr ⟨none, later⟩

theorem may_getTaskConext {msgId : UInt32} {rest : Option Nat → StaticProgram}
    (may : (getTaskConext msgId rest).May var writes locked held) :
    (var = .taskId2TaskCtx ∧ held = locked) ∨ ∃ ctx, (rest ctx).May var writes locked held := by
  obtain ⟨here, _, same⟩ | ⟨statics, later⟩ := may
  · exact Or.inl ⟨here.symm, same⟩
  · beta_reduce at later
    cases key : statics.taskId2TaskCtx msgId with
    | none =>
        rw [key] at later
        exact Or.inr ⟨none, later⟩
    | some ctx =>
        rw [key] at later
        exact may_index later

theorem may_storeContext {taskId : UInt32} {ctx : Nat} {rest : StaticProgram}
    (may : (storeContext taskId ctx rest).May var writes locked held) :
    (var = .taskId2TaskCtx ∧ locked = true) ∨ rest.May var writes locked false := by
  obtain ⟨here, _, same⟩ | ⟨_, later⟩ := may
  · exact Or.inl ⟨here.symm, same.symm⟩
  · obtain ⟨here, same⟩ | ⟨_, later⟩ := may_getTaskConext later
    · exact Or.inl ⟨here, same.symm⟩
    · exact Or.inr later

theorem may_removeTaskContext {msgId : UInt32} {rest : StaticProgram}
    (may : (removeTaskContext msgId rest).May var writes locked false) :
    var = .taskId2TaskCtx ∨ rest.May var writes locked false := by
  obtain ⟨here, _⟩ | ⟨ctx, later⟩ := may_getTaskConext may
  · exact Or.inl here
  · cases ctx with
    | none => exact Or.inr later
    | some ctx =>
        obtain ⟨here, _⟩ | ⟨_, later⟩ := later
        · exact Or.inl here.symm
        · exact Or.inr later

end Accesses

end StaticProgram

section MayAccess

variable {var : StaticVar} {writes locked : Bool} {rest : StaticProgram}

theorem AppCall.mayAccess (call : AppCall) (may : (call.program rest).May var writes locked false) :
    call.MayAccess var writes locked ∨ rest.May var writes locked false := by
  cases call with
  | sendMessage ctx =>
      rw [program, StaticProgram.sendMessage] at may
      obtain ⟨here, same⟩ | ⟨id, later⟩ := StaticProgram.may_newMessageId may
      · exact Or.inl (Or.inl ⟨here, same.symm⟩)
      · obtain stored | later := StaticProgram.may_storeContext later
        · exact Or.inl (Or.inr stored)
        · exact Or.inr later
  | registerPushListener listener =>
      obtain ⟨here, written, same⟩ | ⟨_, later⟩ := may
      · exact Or.inl ⟨here.symm, written.symm, same.symm⟩
      · exact Or.inr later
  | registerChannelListener listener =>
      obtain ⟨here, written, same⟩ | ⟨_, later⟩ := may
      · exact Or.inl ⟨here.symm, written.symm, same.symm⟩
      · exact Or.inr later

theorem listenerProgram_mayAccess (inListener : List AppCall)
    (may : (listenerProgram inListener rest).May var writes locked false) :
    (∃ call ∈ inListener, call.MayAccess var writes locked) ∨ rest.May var writes locked false := by
  induction inListener with
  | nil => exact Or.inr may
  | cons call inListener ih =>
      obtain here | later := call.mayAccess may
      · exact Or.inl ⟨call, List.mem_cons_self, here⟩
      · obtain ⟨call', member, inside⟩ | later := ih later
        · exact Or.inl ⟨call', List.mem_cons_of_mem _ member, inside⟩
        · exact Or.inr later

theorem ApiCall.mayAccess (call : ApiCall) (may : (call.program rest).May var writes locked false) :
    call.MayAccess var writes locked ∨ rest.May var writes locked false := by
  cases call with
  | app call => exact call.mayAccess may
  | onPush inListener =>
      rw [program] at may
      obtain ⟨here, same⟩ | ⟨id, ⟨here, written, same⟩ | ⟨statics, later⟩⟩ := StaticProgram.may_newMessageId may
      · exact Or.inl (Or.inl ⟨here, same.symm⟩)
      · exact Or.inl (Or.inr (Or.inl ⟨here.symm, written.symm, same.symm⟩))
      · beta_reduce at later
        cases registered : statics.pushListener with
        | none =>
            rw [registered] at later
            exact Or.inr later
        | some listener =>
            rw [registered] at later
            exact (listenerProgram_mayAccess inListener later).imp_left fun inside => Or.inr (Or.inr inside)
  | req2Buf taskid =>
      rw [program] at may
      obtain ⟨here, same⟩ | ⟨_, later⟩ := StaticProgram.may_getTaskConext may
      · exact Or.inl ⟨here, same.symm⟩
      · exact Or.inr later
  | buf2Resp taskid inListener =>
      rw [program] at may
      obtain ⟨here, same⟩ | ⟨ctx, later⟩ := StaticProgram.may_getTaskConext may
      · exact Or.inl (Or.inl ⟨here, same.symm⟩)
      · cases ctx with
        | none => exact Or.inr later
        | some ctx => exact (listenerProgram_mayAccess inListener later).imp_left Or.inr
  | onTaskEnd taskid inListener =>
      rw [program] at may
      obtain ⟨here, _⟩ | ⟨ctx, later⟩ := StaticProgram.may_getTaskConext may
      · exact Or.inl (Or.inl here)
      · cases ctx with
        | none => exact Or.inr later
        | some ctx =>
            obtain inside | later := listenerProgram_mayAccess inListener later
            · exact Or.inl (Or.inr inside)
            · exact (StaticProgram.may_removeTaskContext later).imp_left Or.inl
  | reportConnectStatus inListener =>
      obtain ⟨here, written, same⟩ | ⟨statics, later⟩ := may
      · exact Or.inl (Or.inl ⟨here.symm, written.symm, same.symm⟩)
      · beta_reduce at later
        cases registered : statics.channelListener with
        | none =>
            rw [registered] at later
            exact Or.inr later
        | some listener =>
            rw [registered] at later
            exact (listenerProgram_mayAccess inListener later).imp_left Or.inr

theorem threadProgram_mayAccess {calls : List ApiCall} (may : (threadProgram calls).May var writes locked false) :
    ∃ call ∈ calls, call.MayAccess var writes locked := by
  induction calls with
  | nil => exact may.elim
  | cons call calls ih =>
      obtain here | later := call.mayAccess may
      · exact ⟨call, List.mem_cons_self, here⟩
      · obtain ⟨call', member, inside⟩ := ih later
        exact ⟨call', List.mem_cons_of_mem _ member, inside⟩

end MayAccess

namespace StaticProgram

section Accesses

variable {var : StaticVar} {writes locked held : Bool}

theorem surely_newMessageId {rest : UInt32 → StaticProgram} (later : ∀ id, (rest id).Surely var writes locked held) :
    (newMessageId rest).Surely var writes locked held :=
  Or.inr fun statics => Or.inr fun _ => later statics.messageId

theorem surely_messageId (writes : Bool) {rest : UInt32 → StaticProgram} :
    (newMessageId rest).Surely .messageId writes held held := by
  cases writes with
  | false => exact Or.inl ⟨rfl, rfl, rfl⟩
  | true => exact Or.inr fun _ => Or.inl ⟨rfl, rfl, rfl⟩

theorem surely_index {msgId : UInt32} {rest : Option Nat → StaticProgram}
    (later : ∀ ctx, (rest ctx).Surely var writes locked held) : (index msgId rest).Surely var writes locked held := by
  refine Or.inr fun statics => ?_
  beta_reduce
  cases statics.taskId2TaskCtx msgId with
  | some ctx => exact later ctx
  | none => exact Or.inr fun _ => later none

theorem surely_getTaskConext {msgId : UInt32} {rest : Option Nat → StaticProgram}
    (later : ∀ ctx, (rest ctx).Surely var writes locked held) :
    (getTaskConext msgId rest).Surely var writes locked held := by
  refine Or.inr fun statics => ?_
  beta_reduce
  cases statics.taskId2TaskCtx msgId with
  | none => exact later none
  | some ctx => exact surely_index later

theorem surely_storeContext {taskId : UInt32} {ctx : Nat} {rest : StaticProgram}
    (later : rest.Surely var writes locked false) : (storeContext taskId ctx rest).Surely var writes locked false :=
  Or.inr fun _ => surely_getTaskConext fun _ => later

theorem surely_taskId2TaskCtx (writes : Bool) {taskId : UInt32} {ctx : Nat} {rest : StaticProgram} :
    (storeContext taskId ctx rest).Surely .taskId2TaskCtx writes true held := by
  cases writes with
  | true => exact Or.inl ⟨rfl, rfl, rfl⟩
  | false => exact Or.inr fun _ => Or.inl ⟨rfl, rfl, rfl⟩

theorem surely_removeTaskContext {msgId : UInt32} {rest : StaticProgram}
    (later : rest.Surely var writes locked false) : (removeTaskContext msgId rest).Surely var writes locked false := by
  apply surely_getTaskConext
  intro ctx
  cases ctx with
  | none => exact later
  | some ctx => exact Or.inr fun _ => later

end Accesses

end StaticProgram

section SurelyAccesses

variable {var : StaticVar} {writes locked : Bool} {rest : StaticProgram}

theorem AppCall.surely_of_rest (call : AppCall) (later : rest.Surely var writes locked false) :
    (call.program rest).Surely var writes locked false := by
  cases call with
  | sendMessage ctx =>
      rw [program, StaticProgram.sendMessage]
      exact StaticProgram.surely_newMessageId fun _ => StaticProgram.surely_storeContext later
  | registerPushListener listener => exact Or.inr fun _ => later
  | registerChannelListener listener => exact Or.inr fun _ => later

theorem AppCall.surely (call : AppCall) (accesses : call.MayAccess var writes locked) :
    (call.program rest).Surely var writes locked false := by
  cases call with
  | sendMessage ctx =>
      rw [program, StaticProgram.sendMessage]
      obtain ⟨rfl, rfl⟩ | ⟨rfl, rfl⟩ := accesses
      · exact StaticProgram.surely_messageId writes
      · exact StaticProgram.surely_newMessageId fun _ => StaticProgram.surely_taskId2TaskCtx writes
  | registerPushListener listener =>
      obtain ⟨rfl, rfl, rfl⟩ := accesses
      exact Or.inl ⟨rfl, rfl, rfl⟩
  | registerChannelListener listener =>
      obtain ⟨rfl, rfl, rfl⟩ := accesses
      exact Or.inl ⟨rfl, rfl, rfl⟩

theorem listenerProgram_surely (inListener : List AppCall) (later : rest.Surely var writes locked false) :
    (listenerProgram inListener rest).Surely var writes locked false := by
  induction inListener with
  | nil => exact later
  | cons call inListener ih => exact call.surely_of_rest ih

theorem ApiCall.surely_of_rest (call : ApiCall) (later : rest.Surely var writes locked false) :
    (call.program rest).Surely var writes locked false := by
  cases call with
  | app call => exact call.surely_of_rest later
  | onPush inListener =>
      rw [program]
      refine StaticProgram.surely_newMessageId fun _ => Or.inr fun statics => ?_
      beta_reduce
      cases statics.pushListener with
      | none => exact later
      | some listener => exact listenerProgram_surely inListener later
  | req2Buf taskid =>
      rw [program]
      exact StaticProgram.surely_getTaskConext fun _ => later
  | buf2Resp taskid inListener =>
      rw [program]
      apply StaticProgram.surely_getTaskConext
      intro ctx
      cases ctx with
      | none => exact later
      | some ctx => exact listenerProgram_surely inListener later
  | onTaskEnd taskid inListener =>
      rw [program]
      apply StaticProgram.surely_getTaskConext
      intro ctx
      cases ctx with
      | none => exact later
      | some ctx => exact listenerProgram_surely inListener (StaticProgram.surely_removeTaskContext later)
  | reportConnectStatus inListener =>
      refine Or.inr fun statics => ?_
      beta_reduce
      cases statics.channelListener with
      | none => exact later
      | some listener => exact listenerProgram_surely inListener later

theorem ApiCall.surely (call : ApiCall) (accesses : call.SurelyAccesses var writes locked) :
    (call.program rest).Surely var writes locked false := by
  cases call with
  | app call => exact call.surely accesses
  | onPush inListener =>
      rw [program]
      obtain ⟨rfl, rfl⟩ | ⟨rfl, rfl, rfl⟩ := accesses
      · exact StaticProgram.surely_messageId writes
      · exact StaticProgram.surely_newMessageId fun _ => Or.inl ⟨rfl, rfl, rfl⟩
  | req2Buf taskid | buf2Resp taskid inListener | onTaskEnd taskid inListener | reportConnectStatus inListener =>
      obtain ⟨rfl, rfl, rfl⟩ := accesses
      exact Or.inl ⟨rfl, rfl, rfl⟩

theorem threadProgram_surely {calls : List ApiCall} {call : ApiCall} (member : call ∈ calls)
    (accesses : call.SurelyAccesses var writes locked) : (threadProgram calls).Surely var writes locked false := by
  induction calls with
  | nil => cases member
  | cons first calls ih =>
      obtain rfl | member := List.mem_cons.mp member
      · exact call.surely accesses
      · exact first.surely_of_rest (ih member)

end SurelyAccesses

/-- The threads of a process start with these calls before them. -/
def threadsOf {Thread : Type} (calls : Thread → List ApiCall) : MutexThreads Thread Statics StaticVar :=
  MutexThreads.initial Statics.initial fun thread => threadProgram (calls thread)

/-- Two threads access one variable in two of their calls, one of them writes it, and one of them does not lock. -/
def Conflict {Thread : Type} (accesses : StaticVar → Bool → Bool → ApiCall → Prop) (calls : Thread → List ApiCall)
    (var : StaticVar) : Prop :=
  ∃ first second writes writes' locked, ∃ call ∈ calls first, ∃ call' ∈ calls second, first ≠ second ∧
    accesses var writes false call ∧ accesses var writes' locked call' ∧ (writes = true ∨ writes' = true)

section Results

variable {Thread : Type} [DecidableEq Thread] {calls : Thread → List ApiCall} {schedule : List Thread}
  {reached : MutexThreads Thread Statics StaticVar}

theorem threadsOf_sound (calls : Thread → List ApiCall) : (threadsOf calls).Sound :=
  MutexThreads.Sound.initial fun thread => threadProgram_disciplined (calls thread)

/-- In every schedule no call of the mutex fails, so none of its assertions does, and all threads can still finish. -/
theorem mutexDiscipline (active : List Thread) (others : ∀ thread, thread ∉ active → calls thread = [])
    (ran : PartialRun.run MutexThreads.step (threadsOf calls) schedule = some reached) :
    (∀ thread, ¬reached.Fails thread) ∧
      ∃ later final, PartialRun.run MutexThreads.step reached later = some final ∧
        ∀ thread, final.program thread = .done := by
  have sound := (threadsOf_sound calls).run ran
  refine ⟨sound.not_fails, sound.exists_finish active ?_⟩
  intro thread absent
  apply MutexThreads.done_of_run ran
  change threadProgram (calls thread) = .done
  rw [others thread absent]
  rfl

/-- One thread sends and another one ends a task. -/
def senderAndEngine : Bool → List ApiCall
  | true => [.app (.sendMessage 0)]
  | false => [.onTaskEnd 10000 [.sendMessage 1]]

/-- The sender holds the mutex while the engine looks its task up. -/
theorem mutexDiscipline_senderAndEngine :
    ∃ reached, PartialRun.run MutexThreads.step (threadsOf senderAndEngine) [true, true, true, true, false, false] =
        some reached ∧
      reached.owner = some true ∧ ¬reached.Fails false := by
  have others (thread : Bool) (absent : thread ∉ [true, false]) : senderAndEngine thread = [] := by
    cases thread with
    | true => exact (absent List.mem_cons_self).elim
    | false => exact (absent (List.mem_cons_of_mem _ List.mem_cons_self)).elim
  have ran : PartialRun.run MutexThreads.step (threadsOf senderAndEngine) [true, true, true, true, false, false] =
      some _ := rfl
  exact ⟨_, ran, rfl, (mutexDiscipline [true, false] others ran).1 false⟩

/-- Every race is between conflicting calls, and conflicting calls that do not depend on what they find race in some
schedule. -/
theorem staticRaces (calls : Thread → List ApiCall) (var : StaticVar) :
    ((∃ schedule reached, PartialRun.run MutexThreads.step (threadsOf calls) schedule = some reached ∧
        reached.Races var) → Conflict ApiCall.MayAccess calls var) ∧
      (Conflict ApiCall.SurelyAccesses calls var →
        ∃ schedule reached, PartialRun.run MutexThreads.step (threadsOf calls) schedule = some reached ∧
          reached.Races var) := by
  constructor
  · intro raced
    obtain ⟨schedule, reached, ran, races⟩ := raced
    obtain ⟨first, second, writes, writes', locked, locked', different, may, may', write, unlocked⟩ :=
      MutexThreads.races_cases ran races
    obtain ⟨call, member, accesses⟩ := threadProgram_mayAccess may
    obtain ⟨call', member', accesses'⟩ := threadProgram_mayAccess may'
    cases locked with
    | false => exact ⟨first, second, writes, writes', _, call, member, call', member', different, accesses, accesses', write⟩
    | true =>
        cases locked' with
        | false =>
            exact ⟨second, first, writes', writes, _, call', member', call, member, different.symm, accesses', accesses,
              write.symm⟩
        | true => exact (unlocked ⟨rfl, rfl⟩).elim
  · intro conflict
    obtain ⟨first, second, writes, writes', locked, call, member, call', member', different, accesses, accesses', write⟩ :=
      conflict
    exact MutexThreads.exists_races (fun thread => threadProgram_disciplined (calls thread)) different
      (threadProgram_surely member accesses) (threadProgram_surely member' accesses') write

/-- A sender and the engine race on the map in some schedule, and two senders never do. -/
theorem staticRaces_senders :
    (∃ schedule reached, PartialRun.run MutexThreads.step (threadsOf senderAndEngine) schedule = some reached ∧
        reached.Races .taskId2TaskCtx) ∧
      ¬∃ schedule reached,
        PartialRun.run MutexThreads.step (threadsOf fun _ : Bool => [.app (.sendMessage 0)]) schedule = some reached ∧
          reached.Races .taskId2TaskCtx := by
  constructor
  · apply (staticRaces senderAndEngine .taskId2TaskCtx).2
    exact ⟨false, true, false, true, true, _, List.mem_cons_self, _, List.mem_cons_self, nofun, ⟨rfl, rfl, rfl⟩,
      Or.inr ⟨rfl, rfl⟩, Or.inr rfl⟩
  · intro raced
    obtain ⟨first, second, writes, writes', locked, call, member, call', member', different, accesses, _⟩ :=
      (staticRaces (fun _ : Bool => [.app (.sendMessage 0)]) .taskId2TaskCtx).1 raced
    obtain rfl := List.mem_singleton.mp member
    obtain ⟨wrong, _⟩ | ⟨_, wrong⟩ := accesses
    · cases wrong
    · cases wrong

end Results

end MarsWrapper
