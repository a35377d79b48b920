import Llumnix.Scheduler.Dispatch
import Llumnix.Scheduler.Pairing

/-! Instances coming and going: the Manager's tables, the global scheduler and the three schedulers
behind it, all of which keep their own record of the instances. -/
namespace Llumnix.Scheduler

open Python

structure ScalingScheduler where
  numInstances : ℕ := 0
  instanceIdSet : Finset String := ∅
  instanceTypeIdSet : InstanceType → Finset String := fun _ => ∅

namespace ScalingScheduler

def addInstance (s : ScalingScheduler) (instanceId : String) (instanceType : InstanceType) :
    ScalingScheduler where
  instanceIdSet := insert instanceId s.instanceIdSet
  numInstances := (insert instanceId s.instanceIdSet).card
  instanceTypeIdSet := Function.update s.instanceTypeIdSet instanceType
    (insert instanceId (s.instanceTypeIdSet instanceType))

/-- The loop over the types, which stops at the first that has the instance. -/
def removeTyped (sets : InstanceType → Finset String) (instanceId : String) :
    List InstanceType → InstanceType → Finset String
  | [] => sets
  | t :: ts =>
    if instanceId ∈ sets t then Function.update sets t ((sets t).erase instanceId)
    else removeTyped sets instanceId ts

def removeInstance (s : ScalingScheduler) (instanceId : String) : ScalingScheduler where
  instanceIdSet := s.instanceIdSet.erase instanceId
  numInstances := (s.instanceIdSet.erase instanceId).card
  instanceTypeIdSet :=
    removeTyped s.instanceTypeIdSet instanceId [.noConstraints, .prefill, .decode]

end ScalingScheduler

structure GlobalScheduler where
  enablePdDisagg : Bool
  numInstances : ℕ := 0
  instanceIdSet : Finset String := ∅
  instanceInfo : Infos := .empty
  dispatchScheduler : DispatchScheduler
  migrationScheduler : MigrationScheduler
  scalingScheduler : ScalingScheduler := {}

namespace GlobalScheduler

def updateInstanceInfo (g : GlobalScheduler) (info : InstanceInfo) : GlobalScheduler :=
  if info.instanceId ∈ g.instanceIdSet then
    { g with instanceInfo := g.instanceInfo.set info.instanceId info }
  else g

def updateInstanceInfos (g : GlobalScheduler) (infos : List InstanceInfo) : GlobalScheduler :=
  infos.foldl updateInstanceInfo g

def dispatch (g : GlobalScheduler) (round : ℚ → Number) (blockHashes : List String)
    (drawn : ℕ) : Except Exc (String × Number) × GlobalScheduler :=
  let d := g.dispatchScheduler.updateInstanceInfos g.instanceInfo
  let r := d.dispatch round blockHashes drawn
  (r.1.map fun instanceId => (instanceId, if g.enablePdDisagg then .fin 1 else .posInf),
    { g with dispatchScheduler := r.2 })

/-- `_add_instance`. The other two schedulers share the dictionary of infos. -/
def addInstance (g : GlobalScheduler) (instanceId : String) (instanceType : InstanceType) :
    GlobalScheduler :=
  { g with
    instanceIdSet := insert instanceId g.instanceIdSet
    numInstances := (insert instanceId g.instanceIdSet).card
    dispatchScheduler :=
      (g.dispatchScheduler.updateInstanceInfos g.instanceInfo).addInstance instanceId instanceType
    migrationScheduler := g.migrationScheduler.addInstance instanceId
    scalingScheduler := g.scalingScheduler.addInstance instanceId instanceType }

def removeInstance (g : GlobalScheduler) (instanceId : String) : GlobalScheduler :=
  { g with
    instanceIdSet := g.instanceIdSet.erase instanceId
    numInstances := (g.instanceIdSet.erase instanceId).card
    dispatchScheduler :=
      (g.dispatchScheduler.updateInstanceInfos g.instanceInfo).removeInstance instanceId
    migrationScheduler := g.migrationScheduler.removeInstance instanceId
    scalingScheduler := g.scalingScheduler.removeInstance instanceId }

/-- A new instance starts with an empty `InstanceInfo`. -/
def scaleUpOne (g : GlobalScheduler) (instanceId : String) (instanceType : InstanceType) :
    GlobalScheduler :=
  if instanceId ∈ g.instanceIdSet then g
  else
    { g with
      instanceInfo := g.instanceInfo.set instanceId { instanceId := instanceId } }.addInstance
        instanceId instanceType

def scaleDownOne (g : GlobalScheduler) (instanceId : String) : GlobalScheduler :=
  if instanceId ∈ g.instanceIdSet then
    { g with instanceInfo := g.instanceInfo.erase instanceId }.removeInstance instanceId
  else g

end GlobalScheduler

/-- An instance to register: id, actor handle and the type in its arguments. -/
structure Launch (H : Type) where
  instanceId : String
  handle : H
  instanceType : InstanceType

/-- The tables of the Manager that follow the instances. -/
structure Manager (H : Type) where
  enableMigration : Bool
  isGroupKindMigrationBackend : Bool
  numInstances : ℕ := 0
  instances : Dict String H := .empty
  instanceMigrating : Dict String Bool := .empty
  pendingRebuildMigrationInstances : ℤ := 0
  globalScheduler : GlobalScheduler

namespace Manager
variable {H : Type}

def scaleUpOne (m : Manager H) (l : Launch H) : Manager H :=
  if l.instanceId ∈ m.instances then m
  else
    { m with
      instances := m.instances.set l.instanceId l.handle
      instanceMigrating := m.instanceMigrating.set l.instanceId false
      pendingRebuildMigrationInstances := m.pendingRebuildMigrationInstances + 1 }

/-- The last lines of `scale_up` and `scale_down`. -/
def scaled (m : Manager H) (g : GlobalScheduler) : Manager H :=
  { m with globalScheduler := g, numInstances := m.instances.items.length }

/-- With whether a task to rebuild the migration backend is started. -/
def scaleUp (m : Manager H) (launches : List (Launch H)) : Manager H × Bool :=
  let m' := launches.foldl scaleUpOne m
  let indeedUpdate := ∃ l ∈ launches, l.instanceId ∉ m.instances
  (m'.scaled (launches.foldl (fun g l => g.scaleUpOne l.instanceId l.instanceType)
      m'.globalScheduler),
    m.enableMigration && m.isGroupKindMigrationBackend && indeedUpdate &&
      m.pendingRebuildMigrationInstances = 0)

def scaleDownOne (m : Manager H) (instanceId : String) : Manager H :=
  if instanceId ∈ m.instances then
    { m with
      instances := m.instances.erase instanceId
      instanceMigrating := m.instanceMigrating.erase instanceId
      pendingRebuildMigrationInstances := m.pendingRebuildMigrationInstances + 1 }
  else m

/-- When the last instance is gone there is nothing left to rebuild. -/
def settlePending (m : Manager H) : Manager H :=
  if m.enableMigration ∧ m.isGroupKindMigrationBackend ∧ m.instances.keys = [] then
    { m with pendingRebuildMigrationInstances := 0 }
  else m

/-- With whether a task to rebuild the migration backend is started. -/
def scaleDown (m : Manager H) (instanceIds : List String) (rebuildMigrationBackend : Bool) :
    Manager H × Bool :=
  let m' := instanceIds.foldl scaleDownOne m
  let indeedUpdate := ∃ i ∈ instanceIds, i ∈ m.instances
  ((m'.scaled (instanceIds.foldl GlobalScheduler.scaleDownOne m'.globalScheduler)).settlePending,
    m.enableMigration && m.isGroupKindMigrationBackend && !m'.instances.keys.isEmpty &&
      indeedUpdate && m.pendingRebuildMigrationInstances = 0 && rebuildMigrationBackend)

def idsOfType (m : Manager H) (t : InstanceType) : List String :=
  (m.globalScheduler.instanceInfo.items.filter (·.2.instanceType = some t)).map Prod.fst

def selectV1PdInstances (m : Manager H) (round : ℚ → Number) (blockHashes : List String)
    (drawn drawn' : ℕ) : Except Exc (Option (String × String)) × Manager H :=
  let prefillIds := m.idsOfType .prefill
  let decodeIds := m.idsOfType .decode
  if prefillIds = [] ∨ decodeIds = [] then (.ok none, m)
  else
    let g := m.globalScheduler
    let d := g.dispatchScheduler.updateInstanceInfos g.instanceInfo
    let d := { d with instanceInfo := d.instanceInfo.update g.instanceInfo }
    let back d : Manager H := { m with globalScheduler := { g with dispatchScheduler := d } }
    match d.dispatchCandidates round prefillIds blockHashes drawn with
    | (.error e, d) => (.error e, back d)
    | (.ok prefillId, d) =>
      match d.dispatchCandidates round decodeIds blockHashes drawn' with
      | (.error e, d) => (.error e, back d)
      | (.ok decodeId, d) => (.ok (some (prefillId, decodeId)), back d)

end Manager
end Llumnix.Scheduler
