import Llumnix.Legacy.Scheduler
import Mathlib.Data.List.InsertIdx

/-! What `clear_migration_states` makes of the requests whose last stage was under way on the
source, and how the scheduler treats them from then on. -/
namespace Llumnix.Legacy

inductive AllocStatus
  | ok
  | later
  | never
  deriving DecidableEq, Repr

/-- `BlockManagerLlumnix.can_allocate` over vLLM's own check. -/
def canAllocate (check : Request → AllocStatus) (r : Request) : AllocStatus :=
  if r.status = .waitingMigrating then .ok else check r

/-- `SchedulerLlumnix._allocate_and_set_running` over vLLM's own, which allocates the blocks. -/
def allocateAndSetRunning (allocate : Request → Request) (r : Request) : Request :=
  if r.status = .waitingMigrating then { r with seqStatus := .running }.resetStatus
  else allocate r

/-- The queues that migration takes requests from. -/
inductive Queue
  | running
  | waiting
  deriving DecidableEq, Repr

/-- The queue a request in its last stage was taken from. -/
def RequestStatus.origin : RequestStatus → Queue
  | .running | .runningMigrating => .running
  | _ => .waiting

/-- The scheduler of the source. Its queues hold requests by reference. -/
structure Engine where
  requests : String → Request
  running : List String
  waiting : List String
  migratingOutRequestsLastStage : List String

namespace Engine

def queue (s : Engine) : Queue → List String
  | .running => s.running
  | .waiting => s.waiting

/-- `_set_status` of every sequence of the request. -/
def setStatus (s : Engine) (r : String) (statusTo : SequenceStatus) : Engine :=
  { s with
    requests := Function.update s.requests r { s.requests r with seqStatus := statusTo } }

def addRunningRequest (s : Engine) (r : String) : Engine :=
  { s.setStatus r .running with running := s.running ++ [r] }

def addWaitingRequest (s : Engine) (r : String) : Engine :=
  let arrivalTimeList := s.waiting.map fun q => (s.requests q).arrivalTime
  let idx := bisectRight arrivalTimeList (s.requests r).arrivalTime 0 arrivalTimeList.length
  { s.setStatus r .waiting with
    waiting := if idx < s.waiting.length then s.waiting.insertIdx idx r else s.waiting ++ [r] }

/-- The loop of `clear_migration_states`; the assertion ends it. -/
def putBack (s : Engine) : List String → Except Exc Unit × Engine
  | [] => (.ok (), s)
  | r :: rs =>
    match (s.requests r).status with
    | .runningMigrating => (s.addRunningRequest r).putBack rs
    | .waitingMigrating => (s.addWaitingRequest r).putBack rs
    | _ => (.error .assertionError, s)

def clearMigrationStates (s : Engine) : Except Exc Unit × Engine :=
  putBack { s with migratingOutRequestsLastStage := [] } s.migratingOutRequestsLastStage

/-- `_filter_running_queue`; `fits` is its test of the length and the phase. -/
def filterRunningQueue (s : Engine) (fits : Request → Bool) : List String :=
  s.running.filter fun r =>
    (s.requests r).status == .running && fits (s.requests r) && !(s.requests r).isMigrating

/-- `_filter_waiting_queue`; `fits` is its test of the length and the scheduling attempts. -/
def filterWaitingQueue (s : Engine) (fits : Request → Bool) : List String :=
  s.waiting.filter fun r =>
    (s.requests r).status == .waiting && fits (s.requests r) && !(s.requests r).isMigrating

def filterQueue (s : Engine) (fits : Request → Bool) : Queue → List String
  | .running => s.filterRunningQueue fits
  | .waiting => s.filterWaitingQueue fits

end Engine

namespace Recovery

/-- A request like one that has never been migrated. -/
structure Ordinary (s : Engine) (r : String) (q : Queue) : Prop where
  queued : r ∈ s.queue q
  status : (s.requests r).status.isMigrating = false
  flag : (s.requests r).isMigrating = false
  timestamps : (s.requests r).stageTimestamps = []
  blocks : (s.requests r).stageNumBlocksList = []
  checked : ∀ check, canAllocate check (s.requests r) = check (s.requests r)
  allocated : ∀ allocate, allocateAndSetRunning allocate (s.requests r) = allocate (s.requests r)
  selectable : ∀ fits, fits (s.requests r) = true → r ∈ s.filterQueue fits q

section PutBack
variable {s : Engine} {r : String}

theorem status_of_migrating {q : Request} (h : q.status.isMigrating = true)
    (st : SequenceStatus) : { q with seqStatus := st }.status = q.status := by
  unfold Request.status at h ⊢
  cases hq : q.statusOverride with
  | some status => rfl
  | none =>
    rw [hq] at h
    cases hseq : q.seqStatus <;> rw [hseq] at h <;> cases h

/-- The two functions change the sequence status and nothing else of a request. -/
def Retains (s s' : Engine) : Prop :=
  ∀ r, ∃ st, s'.requests r = { s.requests r with seqStatus := st }

theorem retains_refl (s : Engine) : Retains s s := fun r => ⟨(s.requests r).seqStatus, rfl⟩

theorem Retains.trans {s' s'' : Engine} (h : Retains s s') (h' : Retains s' s'') :
    Retains s s'' := by
  intro r
  obtain ⟨st, hst⟩ := h r
  obtain ⟨st', hst'⟩ := h' r
  exact ⟨st', by rw [hst', hst]⟩

theorem retains_setStatus (r : String) (st : SequenceStatus) : Retains s (s.setStatus r st) := by
  intro q
  by_cases hq : q = r
  · refine ⟨st, ?_⟩
    rw [hq]
    exact Function.update_self r _ _
  · exact ⟨(s.requests q).seqStatus, Function.update_of_ne hq _ _⟩

theorem retains_putBack (s : Engine) (rs : List String) : Retains s (s.putBack rs).2 := by
  induction rs generalizing s with
  | nil => exact retains_refl s
  | cons r rs ih =>
    unfold Engine.putBack
    split
    · exact Retains.trans (retains_setStatus r .running) (ih (s.addRunningRequest r))
    · exact Retains.trans (retains_setStatus r .waiting) (ih (s.addWaitingRequest r))
    · exact retains_refl s

theorem Retains.status_eq {s' : Engine} (h : Retains s s')
    (hr : (s.requests r).status.isMigrating = true) :
    (s'.requests r).status = (s.requests r).status := by
  obtain ⟨st, hst⟩ := h r
  rw [hst]
  exact status_of_migrating hr st

theorem mem_waiting_add {q : String} :
    q ∈ (s.addWaitingRequest r).waiting ↔ q = r ∨ q ∈ s.waiting := by
  unfold Engine.addWaitingRequest
  dsimp only
  split
  · rename_i hlt
    exact List.mem_insertIdx (by omega)
  · simp [or_comm]

theorem mem_running_add {q : String} :
    q ∈ (s.addRunningRequest r).running ↔ q = r ∨ q ∈ s.running := by
  simp [Engine.addRunningRequest, or_comm]

theorem mem_queue_add {q : String} {k : Queue} :
    (q ∈ s.queue k → q ∈ (s.addRunningRequest r).queue k) ∧
      (q ∈ s.queue k → q ∈ (s.addWaitingRequest r).queue k) := by
  cases k with
  | running => exact ⟨fun h => mem_running_add.mpr (.inr h), id⟩
  | waiting => exact ⟨id, fun h => mem_waiting_add.mpr (.inr h)⟩

theorem mem_queue_putBack {k : Queue} (rs : List String) (h : r ∈ s.queue k) :
    r ∈ (s.putBack rs).2.queue k := by
  induction rs generalizing s with
  | nil => exact h
  | cons q rs ih =>
    unfold Engine.putBack
    split
    · exact ih (mem_queue_add.1 h)
    · exact ih (mem_queue_add.2 h)
    · exact h

/-- Every request of the list is put back, in the queue it was taken from. -/
theorem putBack_returns (rs : List String)
    (h : ∀ r ∈ rs, (s.requests r).status.isMigrating = true) :
    (s.putBack rs).1 = .ok () ∧
      ∀ r ∈ rs, r ∈ (s.putBack rs).2.queue (s.requests r).status.origin := by
  induction rs generalizing s with
  | nil => exact ⟨rfl, nofun⟩
  | cons q rs ih =>
    have hq := h q List.mem_cons_self
    have hrest : ∀ s', Retains s s' → ∀ r ∈ rs,
        (s'.requests r).status.isMigrating = true ∧
          (s'.requests r).status = (s.requests r).status := by
      intro s' hs' r hr
      have hm := h r (List.mem_cons_of_mem q hr)
      have heq := hs'.status_eq hm
      exact ⟨by rw [heq]; exact hm, heq⟩
    -- the same for either queue: `q` is in it now, and the rest follows by induction
    have hnext : ∀ s', Retains s s' → q ∈ s'.queue (s.requests q).status.origin →
        (s'.putBack rs).1 = .ok () ∧
          ∀ r ∈ q :: rs, r ∈ (s'.putBack rs).2.queue (s.requests r).status.origin := by
      intro s' hs' hin
      obtain ⟨hok, hback⟩ := ih fun r hr => (hrest s' hs' r hr).1
      refine ⟨hok, fun r hr => ?_⟩
      rcases List.mem_cons.mp hr with rfl | hr
      · exact mem_queue_putBack rs hin
      · rw [← (hrest s' hs' r hr).2]
        exact hback r hr
    unfold Engine.putBack
    split
    · rename_i hst
      refine hnext _ (retains_setStatus q .running) ?_
      rw [hst]
      exact mem_running_add.mpr (.inl rfl)
    · rename_i hst
      refine hnext _ (retains_setStatus q .waiting) ?_
      rw [hst]
      exact mem_waiting_add.mpr (.inl rfl)
    · rename_i hrun hwait
      cases hst : (s.requests q).status with
      | runningMigrating => exact absurd hst hrun
      | waitingMigrating => exact absurd hst hwait
      | running => rw [hst] at hq; cases hq
      | waiting => rw [hst] at hq; cases hq
      | finished => rw [hst] at hq; cases hq

end PutBack

/-- A waiting request that was put back is taken for one whose blocks were allocated by the
migration. -/
theorem unchecked_of_recovered {s : Engine} {r : String}
    (hr : (s.requests r).status = .waitingMigrating) :
    (∀ check, canAllocate check (s.clearMigrationStates.2.requests r) = .ok) ∧
      ∀ allocate,
        (allocateAndSetRunning allocate (s.clearMigrationStates.2.requests r)).status = .running ∧
        (allocateAndSetRunning allocate (s.clearMigrationStates.2.requests r)).blockTable =
          (s.requests r).blockTable := by
  have hkept : Retains s s.clearMigrationStates.2 := retains_putBack _ _
  have hstatus : (s.clearMigrationStates.2.requests r).status = .waitingMigrating := by
    rw [hkept.status_eq (by rw [hr]; rfl), hr]
  refine ⟨fun check => if_pos hstatus, fun allocate => ?_⟩
  obtain ⟨st, hst⟩ := hkept r
  rw [allocateAndSetRunning, if_pos hstatus, hst]
  exact ⟨rfl, rfl⟩

/-- The requests return to their queues with what the migration wrote in them, so that the
recovery makes ordinary requests of none of them. -/
theorem recovered_ordinary_iff (s : Engine)
    (h : ∀ r ∈ s.migratingOutRequestsLastStage, (s.requests r).status.isMigrating = true) :
    s.clearMigrationStates.1 = .ok () ∧
      (∀ r ∈ s.migratingOutRequestsLastStage,
        r ∈ s.clearMigrationStates.2.queue (s.requests r).status.origin) ∧
      ((∀ r ∈ s.migratingOutRequestsLastStage,
        Ordinary s.clearMigrationStates.2 r (s.requests r).status.origin) ↔
          s.migratingOutRequestsLastStage = []) := by
  let popped : Engine := { s with migratingOutRequestsLastStage := [] }
  obtain ⟨hok, hback⟩ := putBack_returns (s := popped) s.migratingOutRequestsLastStage h
  refine ⟨hok, hback, fun hall => ?_, fun hnil => ?_⟩
  · rw [List.eq_nil_iff_forall_not_mem]
    intro r hr
    have hkept := (retains_putBack popped s.migratingOutRequestsLastStage).status_eq (h r hr)
    have hstatus : (s.clearMigrationStates.2.requests r).status = (s.requests r).status := hkept
    have hnot := (hall r hr).status
    rw [hstatus, h r hr] at hnot
    cases hnot
  · rw [hnil]
    exact nofun

section Sample

def sampleRequest (status : RequestStatus) : Request where
  requestId := "r"
  arrivalTime := 1
  seqStatus := .waiting
  statusOverride := some status
  tokenIds := [1, 2, 3]
  outputLen := 0
  expectedSteps := none
  blockTable := []
  numFullSlots := 0
  lastPreemptionTime := none
  stageTimestamps := []
  stageNumBlocksList := []
  migrationStartTime := some 2
  isMigrating := true

def sampleEngine (status : RequestStatus) : Engine where
  requests _ := sampleRequest status
  running := []
  waiting := []
  migratingOutRequestsLastStage := ["r"]

/-- The recovered request is admitted whatever the block manager says, and runs without a
block. -/
theorem recovered_runs_without_blocks :
    let s := (sampleEngine .waitingMigrating).clearMigrationStates.2
    s.waiting = ["r"] ∧ ¬Ordinary s "r" .waiting ∧
      (∀ check, canAllocate check (s.requests "r") = .ok) ∧
      ∀ allocate, (allocateAndSetRunning allocate (s.requests "r")).status = .running ∧
        (allocateAndSetRunning allocate (s.requests "r")).blockTable = [] := by
  obtain ⟨hcheck, halloc⟩ := unchecked_of_recovered (s := sampleEngine .waitingMigrating)
    (r := "r") rfl
  refine ⟨rfl, fun hord => ?_, hcheck, halloc⟩
  have hstatus : RequestStatus.isMigrating .waitingMigrating = false := hord.status
  cases hstatus

theorem recovered_ordinary_iff_sample :
    (sampleEngine .runningMigrating).clearMigrationStates.1 = .ok () ∧
      "r" ∈ (sampleEngine .runningMigrating).clearMigrationStates.2.running ∧
      ¬Ordinary (sampleEngine .runningMigrating).clearMigrationStates.2 "r" .running := by
  have hmigrating : ∀ r ∈ ["r"],
      ((sampleEngine .runningMigrating).requests r).status.isMigrating = true := fun _ _ => rfl
  obtain ⟨hok, hback, hiff⟩ := recovered_ordinary_iff (sampleEngine .runningMigrating) hmigrating
  refine ⟨hok, hback "r" List.mem_cons_self, fun hord => ?_⟩
  have hall : ∀ r ∈ ["r"], Ordinary (sampleEngine .runningMigrating).clearMigrationStates.2 r
      .running := by
    intro r hr
    rw [List.mem_singleton.mp hr]
    exact hord
  have hnil := hiff.mp hall
  cases hnil

end Sample

end Recovery
end Llumnix.Legacy
