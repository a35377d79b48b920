import Llumnix.Scheduler.Info
import Mathlib.Algebra.Order.Field.Rat

/-! The loads that an instance reports, in exact arithmetic. -/
namespace Llumnix.Scheduler

open Python

/-- The fields of `InstanceInfo` that the loads are computed from, with their defaults. -/
structure Counters where
  numTotalGpuBlocks : ℤ := 0
  numUsedGpuBlocks : ℤ := 0
  gpuMemoryTotalBytes : ℤ := 0
  gpuMemoryFreeBytes : ℤ := 0
  computeCapacity : ℚ := 1
  numRunningRequests : ℤ := 0
  numWaitingRequests : ℤ := 0
  numBlocksFirstWaitingRequest : ℤ := 0
  numBlocksAllWaitingRequests : ℤ := 0
  numBlocksLastRunningRequest : ℤ := 0
  numAvailableGpuBlocks : ℤ := 0

inductive DispatchLoadMetric
  | usageRatio
  | remainingSteps
  | virtualUsage
  deriving DecidableEq, Repr

inductive MigrationLoadMetric
  | usageRatio
  | remainingSteps
  | remainingTokens
  deriving DecidableEq, Repr

/-- `(used + waiting) / total`, or no load without blocks. -/
def usageRatio (c : Counters) (numBlocksWaiting : ℤ) : Number :=
  if 0 < c.numTotalGpuBlocks then
    .fin ((c.numUsedGpuBlocks + numBlocksWaiting : ℤ) / c.numTotalGpuBlocks)
  else .negInf

/-- `(num_available_gpu_blocks / num_requests) * (-1)`, or no load without requests. -/
def remainingSteps (available : ℚ) (numRequests : ℤ) : Number :=
  if numRequests = 0 then .negInf else .fin (available / numRequests * (-1))

namespace Counters

def capacity (c : Counters) : ℚ := max c.computeCapacity (1 / 10 ^ 6)

def numRequests (c : Counters) : ℤ := c.numRunningRequests + c.numWaitingRequests

/-- The blocks that are left when all waiting requests have theirs. -/
def headroom (c : Counters) : ℤ := c.numAvailableGpuBlocks - c.numBlocksAllWaitingRequests

/-- Free memory in GiB, weighted with the capacity. -/
def memoryHeadroom (c : Counters) : ℚ :=
  max 0 (c.gpuMemoryFreeBytes : ℚ) / 1024 ^ 3 * c.capacity

/-- Memory stands in for blocks exactly if the head-room is zero. -/
def available (c : Counters) : ℚ :=
  if c.headroom = 0 ∧ 0 < c.gpuMemoryTotalBytes then c.memoryHeadroom else c.headroom

def memoryUseRatio (c : Counters) : ℚ :=
  if 0 < c.gpuMemoryTotalBytes ∧ 0 ≤ c.gpuMemoryFreeBytes ∧
      c.gpuMemoryFreeBytes ≤ c.gpuMemoryTotalBytes then
    1 - c.gpuMemoryFreeBytes / c.gpuMemoryTotalBytes
  else if 0 < c.numTotalGpuBlocks then
    (c.numUsedGpuBlocks + c.numBlocksAllWaitingRequests : ℤ) / c.numTotalGpuBlocks
  else 0

def memoryLoad (c : Counters) : ℚ := min (max c.memoryUseRatio 0) 1

def computeLoad (c : Counters) : ℚ := c.numRequests / (256 * c.capacity)

end Counters

/-- The sigmoid `memory_weight` of the memory load is a parameter. -/
def DispatchLoadMetric.computeInstanceLoad (memoryWeight : ℚ → ℚ) (metric : DispatchLoadMetric)
    (c : Counters) : Number :=
  match metric with
  | .usageRatio => Llumnix.Scheduler.usageRatio c c.numBlocksAllWaitingRequests
  | .remainingSteps => Llumnix.Scheduler.remainingSteps c.available c.numRequests
  | .virtualUsage =>
    if c.numRequests = 0 then .negInf
    else .fin (c.computeLoad + memoryWeight c.memoryLoad * c.memoryLoad)

structure MigrationLoadComputation where
  loadMetric : MigrationLoadMetric
  enableDefrag : Bool

namespace MigrationLoadComputation

/-- With defragmentation the first waiting request counts as running. -/
def numRequests (l : MigrationLoadComputation) (c : Counters) : ℤ :=
  if l.enableDefrag ∧ c.numWaitingRequests ≠ 0 then c.numRunningRequests + 1
  else c.numRunningRequests

def headroom (l : MigrationLoadComputation) (c : Counters) : ℤ :=
  if l.enableDefrag then c.numAvailableGpuBlocks - c.numBlocksFirstWaitingRequest
  else c.numAvailableGpuBlocks

def computeInstanceLoad (l : MigrationLoadComputation) (c : Counters) : Number :=
  match l.loadMetric with
  | .usageRatio => usageRatio c c.numBlocksFirstWaitingRequest
  | .remainingSteps => remainingSteps (l.headroom c) (l.numRequests c)
  | .remainingTokens => .fin c.numAvailableGpuBlocks

def computeInstanceLoadAfterMigrate (l : MigrationLoadComputation) (c : Counters)
    (isMigrateIn : Bool) : Number :=
  l.computeInstanceLoad
    (if isMigrateIn then
      { c with
        numRunningRequests := c.numRunningRequests + 1
        numAvailableGpuBlocks := c.numAvailableGpuBlocks - c.numBlocksLastRunningRequest }
    else
      { c with
        numRunningRequests := c.numRunningRequests - 1
        numAvailableGpuBlocks := c.numAvailableGpuBlocks + c.numBlocksLastRunningRequest })

end MigrationLoadComputation

structure InstanceLoadCalculator where
  dispatchLoadMetric : DispatchLoadMetric
  memoryWeight : ℚ → ℚ
  migrationLoadCalculator : MigrationLoadComputation

def InstanceLoadCalculator.computeInstanceLoad (calculator : InstanceLoadCalculator)
    (c : Counters) (info : InstanceInfo) : InstanceInfo :=
  let l := calculator.migrationLoadCalculator
  { info with
    dispatchLoadMetric :=
      calculator.dispatchLoadMetric.computeInstanceLoad calculator.memoryWeight c
    migrationLoadMetric := l.computeInstanceLoad c
    migrationLoadMetricAfterMigrateOut := l.computeInstanceLoadAfterMigrate c false
    migrationLoadMetricAfterMigrateIn := l.computeInstanceLoadAfterMigrate c true }

end Llumnix.Scheduler
