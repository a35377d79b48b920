import Llumnix.Python.Dict
import Llumnix.Python.Number

/-! What the Manager knows of an instance. -/
namespace Llumnix.Scheduler

open Python

inductive InstanceType
  | noConstraints
  | prefill
  | decode
  deriving DecidableEq, Repr

/-- The fields of `InstanceInfo` that the schedulers read, with their defaults. -/
structure InstanceInfo where
  instanceId : String
  instanceType : Option InstanceType := none
  numWaitingRequests : ℤ := 0
  numKilledRequests : ℤ := 0
  kvCacheBlockHashes : List String := []
  kvEndpoint : Option String := none
  migrationCapabilities : List String := []
  migrationProtocolVersion : ℤ := 0
  migrationKvLayoutVersion : String := ""
  deviceClass : String := ""
  corexStack : String := ""
  dispatchLoadMetric : Number := .negInf
  migrationLoadMetric : Number := .posInf
  migrationLoadMetricAfterMigrateIn : Number := .negInf
  migrationLoadMetricAfterMigrateOut : Number := .posInf
  deriving DecidableEq

/-- `instance_info`, by instance id. -/
abbrev Infos := Dict String InstanceInfo

/-- Every entry is under its own instance id. -/
def Keyed (infos : Infos) : Prop := ∀ e ∈ infos.items, e.2.instanceId = e.1

end Llumnix.Scheduler
