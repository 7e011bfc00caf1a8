import MarsWrapper.Model.Turn

namespace MarsWrapper

/-- These are the task functions of Mars's `stn_logic.h` and the end of a task. -/
class TaskEngineApi (Engine : Type) where
  idle : Engine
  startTask : Engine → Task → Engine
  endTask : Engine → UInt32 → Engine
  redoTasks : Engine → Engine
  reset : Engine → Engine
  hasTask : Engine → UInt32 → Bool

/-- The engine keeps a task list. A reset clears the list without ending its tasks. -/
class TaskEngine (Engine : Type) extends TaskEngineApi Engine where
  hasTask_idle : ∀ taskid, hasTask idle taskid = false
  hasTask_startTask : ∀ engine task taskid,
    hasTask (startTask engine task) taskid = (task.taskid == taskid || hasTask engine taskid)
  hasTask_endTask : ∀ engine ended taskid,
    hasTask (endTask engine ended) taskid = (ended != taskid && hasTask engine taskid)
  hasTask_redoTasks : ∀ engine taskid, hasTask (redoTasks engine) taskid = hasTask engine taskid
  hasTask_reset : ∀ engine taskid, hasTask (reset engine) taskid = false

/-- The task list itself is an engine. -/
instance : TaskEngineApi (List Task) where
  idle := []
  startTask tasks task := tasks ++ [task]
  endTask tasks ended := tasks.filter fun task => ended != task.taskid
  redoTasks tasks := tasks
  reset _ := []
  hasTask tasks taskid := tasks.any fun task => task.taskid == taskid

instance : TaskEngine (List Task) where
  hasTask_idle _ := rfl
  hasTask_startTask tasks task taskid := by
    change (tasks ++ [task]).any _ = (_ || tasks.any _)
    rw [List.any_append, List.any_cons, List.any_nil, Bool.or_false, Bool.or_comm]
  hasTask_endTask tasks ended taskid := by
    change (tasks.filter _).any _ = (_ && tasks.any _)
    rw [Bool.eq_iff_iff]
    simp only [List.any_eq_true, List.mem_filter, Bool.and_eq_true, bne_iff_ne, beq_iff_eq]
    constructor
    · rintro ⟨task, ⟨member, kept⟩, rfl⟩
      exact ⟨kept, task, member, rfl⟩
    · rintro ⟨kept, task, member, rfl⟩
      exact ⟨task, ⟨member, kept⟩, rfl⟩
  hasTask_redoTasks _ _ := rfl
  hasTask_reset _ _ := rfl

/-- The wrapper and the engine run together. -/
structure Session (Engine : Type) where
  state : State
  engine : Engine

/-- The application and the engine take these steps. A call runs to its end before the next step. -/
inductive SessionStep (Buffer : Type) where
  | call (event : Event Buffer)
  | redoTasks
  | reset

namespace Session

variable {Engine Buffer : Type} [TaskEngineApi Engine] [AutoBufferApi Buffer]

def initial : Session Engine := ⟨State.initial, TaskEngineApi.idle⟩

/-- The engine receives the tasks that the call started. -/
def startTasks (engine : Engine) (before after : State) : Engine :=
  (after.started.drop before.started.length).foldl TaskEngineApi.startTask engine

/-- The engine takes a task off its list when it reports its end. -/
def closeTask (engine : Engine) : Event Buffer → Engine
  | .onTaskEnd taskid _ _ => TaskEngineApi.endTask engine taskid
  | _ => engine

/-- The wrapper passes both engine commands on and does nothing else for them. -/
def next (width : SizeT) (session : Session Engine) : SessionStep Buffer → Option (Session Engine)
  | .call event => do
    let state ← session.state.next width event.quiet
    return ⟨state, closeTask (startTasks session.engine session.state state) event⟩
  | .redoTasks => some {session with engine := TaskEngineApi.redoTasks session.engine}
  | .reset => some {session with engine := TaskEngineApi.reset session.engine}

/-- A message gets an id that no key uses, and the engine ends only tasks on its list. -/
def Permitted (session : Session Engine) : SessionStep Buffer → Prop
  | .call (.sendMessage _) => session.state.getTaskConext session.state.messageId = none
  | .call (.onTaskEnd taskid _ _) => TaskEngineApi.hasTask session.engine taskid = true
  | _ => True

instance (session : Session Engine) : (step : SessionStep Buffer) → Decidable (session.Permitted step)
  | .call (.sendMessage _) => inferInstanceAs (Decidable (_ = _))
  | .call (.onTaskEnd _ _ _) => inferInstanceAs (Decidable (_ = _))
  | .call (.registerPushListener _) | .call (.onPush _) | .call (.req2Buf _ _) | .call (.buf2Resp _ _)
  | .redoTasks | .reset => inferInstanceAs (Decidable True)

end Session

end MarsWrapper
