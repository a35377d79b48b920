import Llumnix.Scheduler.Cluster

/-! `Launcher.init_server_and_instance`: the type and the ports of the next instance, and the counts
of the instances that are being deployed. -/
namespace Llumnix.Scaling

open Python Scheduler

structure EntrypointsArgs where
  port : ℤ
  requestOutputQueuePort : ℤ
  deriving DecidableEq

/-- An instance whose `done_scale_up` has not finished. -/
structure Deployment where
  instanceId : String
  instanceType : InstanceType
  entrypointsArgs : EntrypointsArgs
  deriving DecidableEq

inductive DeployError
  | assertion
  | zeroDivision
  | ray
  deriving DecidableEq

/-- The actor whose creation fails. -/
inductive Fault
  | ofInstance
  | ofServer
  deriving DecidableEq

/-- Where `done_scale_up` raises: while it waits for the instance and the server, or in a
callback. -/
inductive ScaleUpFault
  | waiting
  | callback
  deriving DecidableEq

structure Launcher where
  enablePortIncrement : Bool := false
  enablePortOffsetStore : Bool := false
  enablePdDisagg : Bool := false
  enableEnginePdDisagg : Bool := false
  pdRatio : ℤ × ℤ := (1, 1)
  portOffset : ℤ := 0
  /-- The entry of the key-value store that survives the Manager. -/
  storedPortOffset : Option ℤ := none
  inflightNumPrefillInstance : ℤ := 0
  inflightNumDecodeInstance : ℤ := 0

namespace Launcher

def getNextInstanceType (l : Launcher) (curNumPrefill curNumDecode : ℤ) :
    Except DeployError InstanceType :=
  let prefill := l.inflightNumPrefillInstance + curNumPrefill
  let decode := l.inflightNumDecodeInstance + curNumDecode
  if !l.enablePdDisagg then .ok .noConstraints
  else if prefill = 0 then .ok .prefill
  else if decode = 0 then .ok .decode
  else if l.pdRatio.1 = 0 ∨ l.pdRatio.2 = 0 then .error .zeroDivision
  else
    let normalDistance := l.pdRatio.1 - l.pdRatio.2
    let baseNumRatio := min (prefill.fdiv l.pdRatio.1) (decode.fdiv l.pdRatio.2)
    let prefill := prefill - baseNumRatio * l.pdRatio.1
    let decode := decode - baseNumRatio * l.pdRatio.2
    if prefill + decode = 0 then .ok .prefill
    else
      let gapIfPrefill := |prefill + 1 - decode - normalDistance|
      let gapIfDecode := |prefill - (decode + 1) - normalDistance|
      .ok (if gapIfPrefill ≤ gapIfDecode then .prefill else .decode)

/-- `_get_next_instance_args`, of which only the type is set. -/
def getNextInstanceArgs (l : Launcher) (g : GlobalScheduler) : Except DeployError InstanceType :=
  if l.enableEnginePdDisagg then .error .assertion
  else
    let available := g.dispatchScheduler.availableDispatchInstanceSet
    l.getNextInstanceType available.card (g.instanceIdSet \ available).card

def getNextEntrypointsArgs (l : Launcher) (args : EntrypointsArgs) : EntrypointsArgs × Launcher :=
  if l.enablePortIncrement then
    (⟨args.port + l.portOffset, args.requestOutputQueuePort + l.portOffset⟩,
      { l with
        portOffset := l.portOffset + 1
        storedPortOffset :=
          if l.enablePortOffsetStore then some (l.portOffset + 1) else l.storedPortOffset })
  else (args, l)

/-- `inflight_num_prefill_instance` and `inflight_num_decode_instance`, changed by `n` for an
instance of the type. -/
def count (l : Launcher) (instanceType : InstanceType) (n : ℤ) : Launcher :=
  { l with
    inflightNumPrefillInstance :=
      l.inflightNumPrefillInstance + if instanceType = .prefill then n else 0
    inflightNumDecodeInstance :=
      l.inflightNumDecodeInstance + if instanceType = .decode then n else 0 }

/-- With the deployment whose `done_scale_up` it starts. A port that has been given out is not
taken back. -/
def initServerAndInstance (l : Launcher) (g : GlobalScheduler) (args : EntrypointsArgs)
    (instanceId : String) (fault : Option Fault) : Except DeployError Deployment × Launcher :=
  match l.getNextInstanceArgs g with
  | .error e => (.error e, l)
  | .ok instanceType =>
    if fault = some .ofInstance then (.error .ray, l)
    else
      let next := l.getNextEntrypointsArgs args
      if fault = some .ofServer then (.error .ray, next.2)
      else (.ok ⟨instanceId, instanceType, next.1⟩, next.2.count instanceType 1)

/-- `done_scale_up`, as far as it counts. The handler counts off what has been counted off before a
callback was called. -/
def doneScaleUp (l : Launcher) (instanceType : InstanceType) : Option ScaleUpFault → Launcher
  | none | some .waiting => l.count instanceType (-1)
  | some .callback => (l.count instanceType (-1)).count instanceType (-1)

theorem instanceId_of_init {l l' : Launcher} {g : GlobalScheduler} {args : EntrypointsArgs}
    {instanceId : String} {fault : Option Fault} {d : Deployment}
    (h : l.initServerAndInstance g args instanceId fault = (.ok d, l')) :
    d.instanceId = instanceId := by
  unfold initServerAndInstance at h
  split at h
  · cases h
  · dsimp only at h
    split_ifs at h <;> cases h
    rfl

/-- `l'` is `l` but for the ports and the counts, which `n` instances of the type were added to. -/
structure Counted (l l' : Launcher) (instanceType : InstanceType) (n : ℤ) : Prop where
  prefill : l'.inflightNumPrefillInstance =
    l.inflightNumPrefillInstance + if instanceType = .prefill then n else 0
  decode : l'.inflightNumDecodeInstance =
    l.inflightNumDecodeInstance + if instanceType = .decode then n else 0
  enablePdDisagg : l'.enablePdDisagg = l.enablePdDisagg
  enableEnginePdDisagg : l'.enableEnginePdDisagg = l.enableEnginePdDisagg
  pdRatio : l'.pdRatio = l.pdRatio

theorem counted_count (l : Launcher) (instanceType : InstanceType) (n : ℤ) :
    Counted l (l.count instanceType n) instanceType n := ⟨rfl, rfl, rfl, rfl, rfl⟩

theorem counted_zero (l : Launcher) (instanceType : InstanceType) :
    Counted l l instanceType 0 := by
  constructor <;> simp

theorem counted_nextEntrypoints (l : Launcher) (args : EntrypointsArgs) {l' : Launcher}
    {instanceType : InstanceType} {n : ℤ}
    (h : Counted (l.getNextEntrypointsArgs args).2 l' instanceType n) :
    Counted l l' instanceType n := by
  have hsame : (l.getNextEntrypointsArgs args).2 =
      { l with
        portOffset := (l.getNextEntrypointsArgs args).2.portOffset
        storedPortOffset := (l.getNextEntrypointsArgs args).2.storedPortOffset } := by
    unfold getNextEntrypointsArgs
    split_ifs <;> rfl
  rw [hsame] at h
  exact ⟨h.1, h.2, h.3, h.4, h.5⟩

theorem init_cases (l : Launcher) (g : GlobalScheduler) (args : EntrypointsArgs)
    (instanceId : String) (fault : Option Fault) :
    (∃ e l', l.initServerAndInstance g args instanceId fault = (.error e, l') ∧
        ∀ instanceType, Counted l l' instanceType 0) ∨
      ∃ d l', l.initServerAndInstance g args instanceId fault = (.ok d, l') ∧
        Counted l l' d.instanceType 1 := by
  unfold initServerAndInstance
  split
  · exact .inl ⟨_, _, rfl, l.counted_zero⟩
  · dsimp only
    split_ifs
    · exact .inl ⟨_, _, rfl, l.counted_zero⟩
    · exact .inl ⟨_, _, rfl, fun _ => l.counted_nextEntrypoints args (counted_zero _ _)⟩
    · exact .inr ⟨_, _, rfl, l.counted_nextEntrypoints args (counted_count _ _ _)⟩

theorem init_of_next {l : Launcher} {g : GlobalScheduler} {instanceType : InstanceType}
    (h : l.getNextInstanceArgs g = .ok instanceType) (args : EntrypointsArgs)
    (instanceId : String) :
    ∃ d l', l.initServerAndInstance g args instanceId none = (.ok d, l') ∧
      d.instanceId = instanceId ∧ d.instanceType = instanceType ∧
      Counted l l' instanceType 1 := by
  unfold initServerAndInstance
  rw [h]
  exact ⟨_, _, rfl, rfl, rfl, l.counted_nextEntrypoints args (counted_count _ _ _)⟩

end Launcher
end Llumnix.Scaling
