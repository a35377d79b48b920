import Llumnix.Machine.Run
import Llumnix.Scheduler.Registries

/-! `_rebuild_migration_backend`: the tasks that `scale_up` and `scale_down` start, which wait for
the running migrations, build the group of workers anew until no instance has come or gone in the
meantime, and admit the instances of that group to migration. -/
namespace Llumnix.Scheduler.Rebuild

open Machine Python

/-- The locals of a task that is past its initial wait. -/
structure Locals where
  originConfig : Bool
  aliveInstances : List String
  pendingTask : ℤ

/-- Where a task waits: for the migrations, or for one of the two kinds of calls. -/
inductive Task
  | waiting
  | rebuilding (locals : Locals) (groupName : String)
  | warming (locals : Locals)

/-- How `_run_workers` of an instance ends. A worker answers `False` if the group could not be
created in time, or if the warm-up raised. -/
inductive Answer
  | workers (rets : List Bool)
  | rayActorError
  | exception
  deriving DecidableEq, Repr

/-- Calls to the workers of some instances that have all been answered. -/
inductive Calls
  | rebuildMigrationBackend (instanceRank : List (String × ℕ)) (groupName : String)
    (rets : List Answer)
  | warmup (instances : List String) (rets : List Answer)
  deriving DecidableEq, Repr

structure World (H : Type) where
  manager : Manager H
  tasks : List Task
  calls : List Calls

inductive Action (H : Type)
  | scaleUp (launches : List (Launch H))
  | scaleDown (instanceIds : List String) (rebuildMigrationBackend : Bool)
  /-- A legacy migration starts or ends. -/
  | setMigrating (instanceId : String) (migrating : Bool)
  /-- A task looks whether the migrations are over. -/
  | wake (task : ℕ) (groupName : String)
  /-- The calls of a task are answered. -/
  | resume (task : ℕ) (answers : String → Answer) (groupName : String)

section Task
variable {H : Type}

def sortedIds (ids : List String) : List String := ids.insertionSort (· ≤ ·)

def initFilter : String := "migration_backend_init_filter"

def aliveFilter (aliveInstances : List String) : CustomFilter where
  srcFilter info := info.instanceId ∈ aliveInstances
  dstFilter info := info.instanceId ∈ aliveInstances

/-- `set_filter_condtition` of the filter of the backend. -/
def setInitFilter (m : Manager H) (aliveInstances : List String) : Manager H :=
  let g := m.globalScheduler
  let f := g.migrationScheduler.migrationFilter
  { m with
    globalScheduler :=
      { g with
        migrationScheduler :=
          { g.migrationScheduler with
            migrationFilter :=
              { f with
                registeredFilters :=
                  f.registeredFilters.set initFilter (aliveFilter aliveInstances) } } } }

/-- After the loop. Without the filter, setting its condition raises. -/
def finish (m : Manager H) (locals : Locals) : Manager H × Option Task :=
  let m :=
    if locals.aliveInstances = [] then { m with pendingRebuildMigrationInstances := 0 } else m
  if initFilter ∈ m.globalScheduler.migrationScheduler.migrationFilter.registeredFilters then
    ({ setInitFilter m locals.aliveInstances with enableMigration := locals.originConfig }, none)
  else (m, none)

/-- `run_task` up to its `await`: the look-up of an instance may raise `KeyError`, which ends the
task. -/
def runTask (m : Manager H) (locals : Locals) (task : Task) : Manager H × Option Task :=
  (m, if ∀ i ∈ locals.aliveInstances, i ∈ m.instances then some task else none)

def loop (m : Manager H) (locals : Locals) (groupName : String) : Manager H × Option Task :=
  if locals.aliveInstances ≠ [] ∧ 0 < m.pendingRebuildMigrationInstances then
    runTask m locals (.rebuilding locals groupName)
  else finish m locals

/-- From the end of the initial wait. -/
def begin (m : Manager H) (groupName : String) : Manager H × Option Task :=
  loop { m with enableMigration := false }
    ⟨m.enableMigration, sortedIds m.instances.keys, m.pendingRebuildMigrationInstances⟩ groupName

/-- `dead_instances` of `run_task`: it looks for nothing but `RayActorError`. -/
def deadInstances (aliveInstances : List String) (answers : String → Answer) : List String :=
  aliveInstances.filter (answers · = .rayActorError)

/-- `run_task` from its `await`. -/
def reap (m : Manager H) (dead : List String) : Manager H :=
  if dead = [] then m else (m.scaleDown dead false).1

def endRound (m : Manager H) (locals : Locals) (dead : List String) (groupName : String) :
    Manager H × Option Task :=
  let m :=
    if dead = [] then
      { m with
        pendingRebuildMigrationInstances :=
          m.pendingRebuildMigrationInstances - locals.pendingTask }
    else m
  loop m
    { locals with
      aliveInstances := sortedIds (m.instances.keys.filter (· ∉ dead))
      pendingTask := m.pendingRebuildMigrationInstances } groupName

def rebuilt (m : Manager H) (locals : Locals) (dead : List String) (groupName : String) :
    Manager H × Option Task :=
  let m := reap m dead
  if dead = [] ∧ m.pendingRebuildMigrationInstances = locals.pendingTask then
    runTask m locals (.warming locals)
  else endRound m locals dead groupName

def warmedUp (m : Manager H) (locals : Locals) (dead : List String) (groupName : String) :
    Manager H × Option Task :=
  endRound (reap m dead) locals dead groupName

end Task

variable {H : Type}

namespace World

/-- `asyncio.create_task`, if the call says so. -/
def scaled (w : World H) (r : Manager H × Bool) : World H :=
  { w with
    manager := r.1
    tasks := if r.2 then w.tasks ++ [.waiting] else w.tasks }

/-- A task has run to its next `await`, or to its end. -/
def ran (w : World H) (n : ℕ) (r : Manager H × Option Task) (calls : List Calls) : World H where
  manager := r.1
  tasks :=
    match r.2 with
    | some task => w.tasks.set n task
    | none => w.tasks.eraseIdx n
  calls := w.calls ++ calls

def setMigrating (w : World H) (i : String) (migrating : Bool) : World H :=
  if i ∈ w.manager.instanceMigrating then
    { w with
      manager :=
        { w.manager with
          instanceMigrating := w.manager.instanceMigrating.set i migrating } }
  else w

end World

def step (w : World H) : Action H → Option (World H)
  | .scaleUp launches => some (w.scaled (w.manager.scaleUp launches))
  | .scaleDown instanceIds rebuild => some (w.scaled (w.manager.scaleDown instanceIds rebuild))
  | .setMigrating i migrating => some (w.setMigrating i migrating)
  | .wake n groupName =>
    match w.tasks[n]? with
    | some .waiting =>
      if w.manager.instanceMigrating.values.any id then some w
      else some (w.ran n (begin w.manager groupName) [])
    | _ => none
  | .resume n answers groupName =>
    match w.tasks[n]? with
    | some (.rebuilding locals built) =>
      let dead := deadInstances locals.aliveInstances answers
      some (w.ran n (rebuilt w.manager locals dead groupName)
        [.rebuildMigrationBackend locals.aliveInstances.zipIdx built
          (locals.aliveInstances.map answers)])
    | some (.warming locals) =>
      let dead := deadInstances locals.aliveInstances answers
      some (w.ran n (warmedUp w.manager locals dead groupName)
        [.warmup locals.aliveInstances (locals.aliveInstances.map answers)])
    | _ => none

/-- A Manager with a group-kind backend, and migration enabled. -/
def init (pd : Bool) (policy : DispatchPolicy) (topk : ℕ) (pairPolicy : PairMigrationPolicy)
    (threshold : Number) : World H :=
  ⟨.init true true pd policy topk pairPolicy threshold, [], []⟩

def Task.pastWait : Task → Bool
  | .waiting => false
  | _ => true

end Llumnix.Scheduler.Rebuild
