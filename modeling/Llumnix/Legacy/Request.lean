import Mathlib.Data.Nat.Notation

/-! A request of the legacy engine and what live migration records in it. -/
namespace Llumnix.Legacy

inductive RequestStatus
  | running
  | waiting
  | finished
  | runningMigrating
  | waitingMigrating
  deriving DecidableEq, Repr

def RequestStatus.isMigrating : RequestStatus → Bool
  | .runningMigrating | .waitingMigrating => true
  | _ => false

/-- The engine's own status of the request's only sequence. -/
inductive SequenceStatus
  | waiting
  | running
  | swapped
  | finished
  deriving DecidableEq, Repr

inductive MigrationStatus
  | running
  | abortedDst
  | abortedSrc
  | finished
  deriving DecidableEq, Repr

def MigrationStatus.isFinished : MigrationStatus → Bool
  | .running => false
  | _ => true

/-- What a call may raise. -/
inductive Exc
  | rayActorError
  | keyError
  | valueError
  | assertionError
  | noFreeBlocks
  deriving DecidableEq, Repr

def blocksFor (blockSize tokens : ℕ) : ℕ := (tokens + blockSize - 1) / blockSize

/-- `SequenceGroupLlumnix`, with the block table of its sequence. Times are clock readings. -/
structure Request where
  requestId : String
  arrivalTime : ℕ
  seqStatus : SequenceStatus
  /-- `_status`, which overrides the status of the sequence. -/
  statusOverride : Option RequestStatus
  tokenIds : List ℕ
  outputLen : ℕ
  /-- `none` is `math.inf`. -/
  expectedSteps : Option ℕ
  blockTable : List ℕ
  numFullSlots : ℕ
  lastPreemptionTime : Option ℕ
  stageTimestamps : List ℕ
  stageNumBlocksList : List ℕ
  migrationStartTime : Option ℕ
  isMigrating : Bool
  deriving DecidableEq, Repr

namespace Request

def finished (r : Request) : Bool := r.seqStatus == .finished

def status (r : Request) : RequestStatus :=
  match r.statusOverride, r.seqStatus with
  | some s, _ => s
  | none, .running => .running
  | none, .waiting => .waiting
  | none, _ => .finished

def blockingMigration (r : Request) : Bool :=
  match r.expectedSteps with
  | none => false
  | some n => decide (n ≤ r.outputLen)

/-- `begin_time` of `should_abort_migration`. -/
def beginTime (r : Request) : Option ℕ :=
  match r.stageTimestamps.getLast? with
  | some t => some t
  | none => r.migrationStartTime

/-- A begin time is always set while a migration runs. -/
def preempted (r : Request) : Bool :=
  match r.lastPreemptionTime, r.beginTime with
  | some t, some b => decide (b < t)
  | _, _ => false

def shouldAbortMigration (r : Request) : Bool := r.finished || r.preempted

/-- `n_blocks` of the sequence, and `prefill_num_blocks` of a waiting request. -/
def nBlocks (blockSize : ℕ) (r : Request) : ℕ := blocksFor blockSize r.tokenIds.length

def resetMigrationArgsSrc (r : Request) : Request :=
  { r with
    lastPreemptionTime := none
    stageTimestamps := []
    stageNumBlocksList := []
    migrationStartTime := none
    isMigrating := false }

def resetStatus (r : Request) : Request := { r with statusOverride := none }

def incrementalBlocks (blockSize : ℕ) (r : Request) (preStageNumBlocks : ℕ) : List ℕ × List ℕ :=
  (r.blockTable.drop preStageNumBlocks,
    (r.tokenIds.take r.numFullSlots).drop (preStageNumBlocks * blockSize))

end Request

/-- Arguments of `migrate_in_pre_alloc`. -/
structure PreAlloc where
  requestId : String
  requestStatus : RequestStatus
  requestArrivalTime : ℕ
  blockNum : ℕ
  tokenIds : List ℕ
  deriving DecidableEq, Repr

end Llumnix.Legacy
