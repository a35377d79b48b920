import Llumnix.Legacy.Request
import Llumnix.Python.Dict
import Llumnix.Python.Number

/-! `LocalMigrationScheduler`: which requests an instance gives away. Requests that have reached
their expected steps go first; else a policy picks from the running and the waiting queue. -/
namespace Llumnix.Legacy

open Python

inductive RequestInferenceType
  | prefill
  | decode
  deriving DecidableEq, Repr

/-- A request in a queue of the engine, with what the selection reads and sets. -/
structure Queued extends Request where
  inferenceType : RequestInferenceType
  tryScheduleTimes : ℕ
  /-- End of migration, for a batch of requests. -/
  eom : Bool
  deriving DecidableEq

namespace Queued

def requestLen (r : Queued) : ℕ := r.tokenIds.length

def setEom (r : Queued) : Queued := { r with eom := true }

end Queued

inductive RequestMigrationPolicy
  | lcr
  | lr
  | sr
  | fcw
  | fcwsr
  deriving DecidableEq, Repr

/-- `min_request_len` and `max_request_len`, with their defaults. -/
structure LengthBounds where
  minRequestLen : Number := .fin 0
  maxRequestLen : Number := .posInf

def LengthBounds.Contains (b : LengthBounds) (r : Queued) : Prop :=
  b.minRequestLen < .fin r.requestLen ∧ .fin r.requestLen < b.maxRequestLen

/-- What `_filter_running_queue` keeps. -/
def Queued.EligibleRunning (b : LengthBounds) (r : Queued) : Prop :=
  r.status = .running ∧ r.inferenceType = .decode ∧ b.Contains r ∧ r.isMigrating = false

/-- What `_filter_waiting_queue` keeps. -/
def Queued.EligibleWaiting (b : LengthBounds) (r : Queued) : Prop :=
  r.status = .waiting ∧ 1 ≤ r.tryScheduleTimes ∧ b.Contains r ∧ r.isMigrating = false

instance (b : LengthBounds) (r : Queued) : Decidable (b.Contains r) :=
  inferInstanceAs (Decidable (_ ∧ _))

instance (b : LengthBounds) (r : Queued) : Decidable (r.EligibleRunning b) :=
  inferInstanceAs (Decidable (_ ∧ _))

instance (b : LengthBounds) (r : Queued) : Decidable (r.EligibleWaiting b) :=
  inferInstanceAs (Decidable (_ ∧ _))

section Scheduler
variable (b : LengthBounds) (running waiting : List Queued)

/-- The requests that have reached their expected steps, whether they are migrating or not. -/
def getRequiredMigrationRequest : List Queued :=
  running.reverse.filter fun r =>
    r.status = .running ∧ r.inferenceType = .decode ∧ r.blockingMigration = true

def filterRunningQueue : List Queued := running.filter (·.EligibleRunning b)

def filterWaitingQueue : List Queued := waiting.filter (·.EligibleWaiting b)

def getLastRunningRequest : List Queued := (filterRunningQueue b running).getLast?.toList

def getLongestRunningRequest : List Queued :=
  (extreme (fun r s => s.requestLen < r.requestLen) (filterRunningQueue b running)).toList

def getShortestRunningRequest : List Queued :=
  (extreme (fun r s => r.requestLen < s.requestLen) (filterRunningQueue b running)).toList

/-- The head of the queue itself, if the filter keeps anything. -/
def getFirstWaitingRequest : List Queued :=
  if filterWaitingQueue b waiting = [] then [] else waiting.head?.toList

def getFirstWaitingAndShortestRunningRequests : List Queued :=
  (getFirstWaitingRequest b waiting).map Queued.setEom ++ getShortestRunningRequest b running

def getMigrateOutRequests (policy : RequestMigrationPolicy) : List Queued :=
  if getRequiredMigrationRequest running = [] then
    match policy with
    | .lcr => getLastRunningRequest b running
    | .lr => getLongestRunningRequest b running
    | .sr => getShortestRunningRequest b running
    | .fcw => getFirstWaitingRequest b waiting
    | .fcwsr => getFirstWaitingAndShortestRunningRequests b running waiting
  else getRequiredMigrationRequest running

end Scheduler

/-! ### What is meant -/

/-- Not migrating yet, and in a state to migrate from. -/
def Queued.Movable (r : Queued) : Prop :=
  r.isMigrating = false ∧ (r.status = .running ∧ r.inferenceType = .decode ∨
    r.status = .waiting ∧ 1 ≤ r.tryScheduleTimes)

/-- One that no other beats, or nothing where there is nothing. -/
def Best (beats : Queued → Queued → Prop) (rs out : List Queued) : Prop :=
  rs = [] ∧ out = [] ∨ ∃ r ∈ rs, out = [r] ∧ ∀ s ∈ rs, ¬beats s r

namespace RequestMigrationPolicy

/-- The choice of the policy among the eligible requests of the two queues. -/
def Chooses (running waiting out : List Queued) : RequestMigrationPolicy → Prop
  | lcr => out = running.getLast?.toList
  | lr => Best (fun s r => r.requestLen < s.requestLen) running out
  | sr => Best (fun s r => s.requestLen < r.requestLen) running out
  | fcw => out = waiting.head?.toList
  | fcwsr => ∃ shortest, Best (fun s r => s.requestLen < r.requestLen) running shortest ∧
      out = waiting.head?.toList.map Queued.setEom ++ shortest

/-- The eligible requests that the policy looks at. -/
def considers (running waiting : List Queued) : RequestMigrationPolicy → List Queued
  | lcr | lr | sr => running
  | fcw => waiting
  | fcwsr => waiting ++ running

def UsesWaiting (p : RequestMigrationPolicy) : Prop := p = fcw ∨ p = fcwsr

end RequestMigrationPolicy

/-- Only movable requests are selected; and where none has reached its expected steps, the one that
the policy is named after, or nothing where none is eligible. -/
def SelectsRight (policy : RequestMigrationPolicy) (b : LengthBounds)
    (running waiting : List Queued) : Prop :=
  let out := getMigrateOutRequests b running waiting policy
  (∀ r ∈ out, r.Movable) ∧ (getRequiredMigrationRequest running = [] →
    policy.Chooses (filterRunningQueue b running) (filterWaitingQueue b waiting) out ∧
      (out = [] ↔
        policy.considers (filterRunningQueue b running) (filterWaitingQueue b waiting) = []))

section Correct
variable {b : LengthBounds} {running waiting : List Queued} {beats : Queued → Queued → Prop}
  {rs out : List Queued}

theorem movable_of_running {r : Queued} (h : r ∈ filterRunningQueue b running) : r.Movable := by
  have heligible : r.EligibleRunning b := by simpa using (List.mem_filter.mp h).2
  exact ⟨heligible.2.2.2, .inl ⟨heligible.1, heligible.2.1⟩⟩

theorem movable_of_waiting {r : Queued} (h : r ∈ filterWaitingQueue b waiting) : r.Movable := by
  have heligible : r.EligibleWaiting b := by simpa using (List.mem_filter.mp h).2
  exact ⟨heligible.2.2.2, .inr ⟨heligible.1, heligible.2.1⟩⟩

theorem eligibleWaiting_setEom {r : Queued} :
    r.setEom.EligibleWaiting b ↔ r.EligibleWaiting b :=
  ⟨fun h => ⟨h.1, h.2.1, ⟨h.2.2.1.1, h.2.2.1.2⟩, h.2.2.2⟩,
    fun h => ⟨h.1, h.2.1, ⟨h.2.2.1.1, h.2.2.1.2⟩, h.2.2.2⟩⟩

theorem movable_setEom {r : Queued} : r.setEom.Movable ↔ r.Movable :=
  ⟨fun h => ⟨h.1, h.2⟩, fun h => ⟨h.1, h.2⟩⟩

theorem best_extreme (len : Queued → Queued → Bool) (hirrefl : ∀ r, ¬len r r)
    (htrans : ∀ r s t, len r s → len s t → len r t) (rs : List Queued) :
    Best (fun s r => len s r) rs (extreme len rs).toList := by
  cases rs with
  | nil => exact .inl ⟨rfl, rfl⟩
  | cons r rs =>
    obtain ⟨m, hm⟩ := extreme_isSome len (List.cons_ne_nil r rs)
    refine .inr ⟨m, mem_of_extreme hm, by rw [hm]; rfl, ?_⟩
    exact not_better_of_extreme hirrefl htrans hm

theorem best_longest (rs : List Queued) :
    Best (fun s r => r.requestLen < s.requestLen) rs
      (extreme (fun r s => s.requestLen < r.requestLen) rs).toList := by
  have hbest := best_extreme (fun r s : Queued => s.requestLen < r.requestLen) (by simp)
    (fun r s t hrs hst => by simp only [decide_eq_true_eq] at *; omega) rs
  simpa only [decide_eq_true_eq] using hbest

theorem best_shortest (rs : List Queued) :
    Best (fun s r => s.requestLen < r.requestLen) rs
      (extreme (fun r s => r.requestLen < s.requestLen) rs).toList := by
  have hbest := best_extreme (fun r s : Queued => r.requestLen < s.requestLen) (by simp)
    (fun r s t hrs hst => by simp only [decide_eq_true_eq] at *; omega) rs
  simpa only [decide_eq_true_eq] using hbest

theorem Best.mem (h : Best beats rs out) : ∀ r ∈ out, r ∈ rs := by
  rcases h with ⟨-, rfl⟩ | ⟨m, hm, rfl, -⟩
  · exact fun r hr => absurd hr List.not_mem_nil
  · intro r hr
    rwa [List.mem_singleton.mp hr]

theorem Best.eq_nil_iff (h : Best beats rs out) : out = [] ↔ rs = [] := by
  rcases h with ⟨rfl, rfl⟩ | ⟨m, hm, rfl, -⟩
  · exact Iff.rfl
  · exact iff_of_false (List.cons_ne_nil _ _) (List.ne_nil_of_mem hm)

theorem Best.length_eq {out' : List Queued} (h : Best beats rs out) (h' : Best beats rs out') :
    out.length = out'.length := by
  rcases h with ⟨hnil, rfl⟩ | ⟨m, hm, rfl, -⟩
  · rw [h'.eq_nil_iff.mpr hnil]
  · rcases h' with ⟨rfl, -⟩ | ⟨m', -, rfl, -⟩
    · exact absurd hm List.not_mem_nil
    · rfl

/-- The head of the waiting queue may be taken for its first eligible request. -/
def HeadEligible (b : LengthBounds) (waiting : List Queued) : Prop :=
  filterWaitingQueue b waiting ≠ [] → ∃ w, waiting.head? = some w ∧ w.EligibleWaiting b

theorem getFirstWaitingRequest_eq (h : HeadEligible b waiting) :
    getFirstWaitingRequest b waiting = (filterWaitingQueue b waiting).head?.toList := by
  unfold getFirstWaitingRequest
  split
  · rename_i hnil
    rw [hnil]
    rfl
  · rename_i hne
    obtain ⟨w, hhead, heligible⟩ := h hne
    cases waiting with
    | nil => cases hhead
    | cons v ws =>
      cases hhead
      unfold filterWaitingQueue
      rw [List.filter_cons_of_pos (by simpa using heligible)]
      rfl

theorem headEligible_of_setEom
    (h : (getFirstWaitingRequest b waiting).map Queued.setEom =
      (filterWaitingQueue b waiting).head?.toList.map Queued.setEom) :
    HeadEligible b waiting := by
  intro hne
  unfold getFirstWaitingRequest at h
  rw [if_neg hne] at h
  cases hfiltered : filterWaitingQueue b waiting with
  | nil => exact absurd hfiltered hne
  | cons f fs =>
    have hf : f.EligibleWaiting b := by
      have hmem : f ∈ filterWaitingQueue b waiting := by
        rw [hfiltered]
        exact List.mem_cons_self
      simpa using (List.mem_filter.mp hmem).2
    rw [hfiltered] at h
    cases waiting with
    | nil => cases hfiltered
    | cons w ws =>
      refine ⟨w, rfl, ?_⟩
      have heq : w.setEom = f.setEom := List.head_eq_of_cons_eq h
      have hw : w.setEom.EligibleWaiting b := by
        rw [heq]
        exact eligibleWaiting_setEom.mpr hf
      exact eligibleWaiting_setEom.mp hw

theorem getFirstWaitingRequest_eq_nil_iff :
    getFirstWaitingRequest b waiting = [] ↔ filterWaitingQueue b waiting = [] := by
  unfold getFirstWaitingRequest
  split
  · rename_i hnil
    exact iff_of_true rfl hnil
  · rename_i hne
    refine iff_of_false ?_ hne
    cases waiting with
    | nil => exact absurd rfl hne
    | cons w ws => exact List.cons_ne_nil _ _

theorem getMigrateOutRequests_required (policy : RequestMigrationPolicy)
    (h : getRequiredMigrationRequest running ≠ []) :
    SelectsRight policy b running waiting ↔
      ∀ r ∈ getRequiredMigrationRequest running, r.isMigrating = false := by
  unfold SelectsRight getMigrateOutRequests
  dsimp only
  rw [if_neg h]
  constructor
  · exact fun hright r hr => (hright.1 r hr).1
  · refine fun hnone => ⟨fun r hr => ⟨hnone r hr, .inl ?_⟩, fun hnil => absurd hnil h⟩
    have hkept : r.status = .running ∧ r.inferenceType = .decode ∧ r.blockingMigration = true := by
      simpa using (List.mem_filter.mp hr).2
    exact ⟨hkept.1, hkept.2.1⟩

theorem selectsRight_running {policy : RequestMigrationPolicy} (hpolicy : ¬policy.UsesWaiting)
    (h : getRequiredMigrationRequest running = []) : SelectsRight policy b running waiting := by
  unfold SelectsRight getMigrateOutRequests
  dsimp only
  rw [if_pos h]
  cases policy with
  | lcr =>
    refine ⟨fun r hr => ?_, fun _ => ⟨rfl, ?_⟩⟩
    · exact movable_of_running (List.mem_of_getLast? (Option.mem_toList.mp hr))
    · rw [getLastRunningRequest, Option.toList_eq_nil_iff, List.getLast?_eq_none_iff]
      rfl
  | lr =>
    have hbest := best_longest (filterRunningQueue b running)
    exact ⟨fun r hr => movable_of_running (hbest.mem r hr), fun _ => ⟨hbest, hbest.eq_nil_iff⟩⟩
  | sr =>
    have hbest := best_shortest (filterRunningQueue b running)
    exact ⟨fun r hr => movable_of_running (hbest.mem r hr), fun _ => ⟨hbest, hbest.eq_nil_iff⟩⟩
  | fcw => exact absurd (.inl rfl) hpolicy
  | fcwsr => exact absurd (.inr rfl) hpolicy

theorem movable_of_firstWaiting (h : HeadEligible b waiting) {r : Queued}
    (hr : r ∈ getFirstWaitingRequest b waiting) : r.Movable := by
  rw [getFirstWaitingRequest_eq h] at hr
  exact movable_of_waiting (List.mem_of_mem_head? (Option.mem_toList.mp hr))

theorem selectsRight_fcw (h : getRequiredMigrationRequest running = []) :
    SelectsRight .fcw b running waiting ↔ HeadEligible b waiting := by
  unfold SelectsRight getMigrateOutRequests
  dsimp only
  rw [if_pos h]
  constructor
  · intro hright
    exact headEligible_of_setEom (congrArg (List.map Queued.setEom) (hright.2 h).1)
  · intro hhead
    exact ⟨fun r hr => movable_of_firstWaiting hhead hr,
      fun _ => ⟨getFirstWaitingRequest_eq hhead, getFirstWaitingRequest_eq_nil_iff⟩⟩

theorem selectsRight_fcwsr (h : getRequiredMigrationRequest running = []) :
    SelectsRight .fcwsr b running waiting ↔ HeadEligible b waiting := by
  have hbest := best_shortest (filterRunningQueue b running)
  unfold SelectsRight getMigrateOutRequests
  dsimp only
  rw [if_pos h]
  constructor
  · intro hright
    obtain ⟨shortest, hshortest, hout⟩ := (hright.2 h).1
    exact headEligible_of_setEom (List.append_inj_left' hout (hbest.length_eq hshortest))
  · intro hhead
    refine ⟨fun r hr => ?_, fun _ => ⟨⟨_, hbest, ?_⟩, ?_⟩⟩
    · rcases List.mem_append.mp hr with hr | hr
      · obtain ⟨w, hw, rfl⟩ := List.mem_map.mp hr
        exact movable_setEom.mpr (movable_of_firstWaiting hhead hw)
      · exact movable_of_running (hbest.mem r hr)
    · rw [getFirstWaitingAndShortestRunningRequests, getFirstWaitingRequest_eq hhead]
      rfl
    · rw [getFirstWaitingAndShortestRunningRequests, List.append_eq_nil_iff, List.map_eq_nil_iff,
        getFirstWaitingRequest_eq_nil_iff]
      exact (and_congr_right' hbest.eq_nil_iff).trans List.append_eq_nil_iff.symm

end Correct

/-- The selection is right exactly if no request that has reached its expected steps is migrating
already, and the head of the waiting queue is eligible where it is taken. -/
theorem selects_right_iff (policy : RequestMigrationPolicy) (b : LengthBounds)
    (running waiting : List Queued) :
    SelectsRight policy b running waiting ↔
      (∀ r ∈ getRequiredMigrationRequest running, r.isMigrating = false) ∧
        (getRequiredMigrationRequest running = [] → policy.UsesWaiting →
          HeadEligible b waiting) := by
  by_cases hrequired : getRequiredMigrationRequest running = []
  · have hnone : ∀ r ∈ getRequiredMigrationRequest running, r.isMigrating = false := by
      rw [hrequired]
      exact fun r hr => absurd hr List.not_mem_nil
    rw [and_iff_right hnone, forall_prop_of_true hrequired]
    by_cases hpolicy : policy.UsesWaiting
    · rw [forall_prop_of_true hpolicy]
      rcases hpolicy with rfl | rfl
      · exact selectsRight_fcw hrequired
      · exact selectsRight_fcwsr hrequired
    · exact iff_of_true (selectsRight_running hpolicy hrequired) fun h => absurd h hpolicy
  · rw [getMigrateOutRequests_required policy hrequired]
    exact (and_iff_left fun h => absurd h hrequired).symm

section Sample

def sampleQueued (requestId : String) (status : SequenceStatus) : Queued where
  requestId := requestId
  arrivalTime := 0
  seqStatus := status
  statusOverride := none
  tokenIds := [1, 2, 3]
  outputLen := 1
  expectedSteps := none
  blockTable := []
  numFullSlots := 0
  lastPreemptionTime := none
  stageTimestamps := []
  stageNumBlocksList := []
  migrationStartTime := none
  isMigrating := false
  inferenceType := .decode
  tryScheduleTimes := 1
  eom := false

/-- A request that has reached its steps is selected while it migrates; and in front of the first
eligible one, a request that was never scheduled. -/
theorem selects_wrong_request :
    (let r := { sampleQueued "a" .running with expectedSteps := some 1, isMigrating := true }
    getMigrateOutRequests {} [r] [] .lcr = [r] ∧ ¬r.Movable) ∧
    (let v := { sampleQueued "a" .waiting with tryScheduleTimes := 0 }
    let w := sampleQueued "b" .waiting
    getMigrateOutRequests {} [] [v, w] .fcw = [v] ∧ ¬v.Movable ∧
      filterWaitingQueue {} [v, w] = [w]) := by
  refine ⟨⟨by decide +kernel, ?_⟩, by decide +kernel, ?_, by decide +kernel⟩
  · exact fun h => absurd h.1 (by decide)
  · exact fun h => absurd h.2 (by decide)

end Sample
end Llumnix.Legacy
