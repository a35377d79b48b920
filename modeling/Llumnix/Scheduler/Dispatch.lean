import Llumnix.Scheduler.Info
import Mathlib.Data.List.Sort

/-! The dispatch scheduler: five policies, two of which choose among the candidates and three in
the table of counters. -/
namespace Llumnix.Scheduler

open Python

/-- What a choice among nothing, or of the wrong kind, raises. -/
inductive Exc
  | runtimeError (message : String)
  | valueError
  | zeroDivisionError
  | attributeError
  | indexError
  deriving DecidableEq, Repr

inductive DispatchPolicy
  | flood
  | balanced
  | load
  | queue
  | rr
  deriving DecidableEq, Repr

/-- What a policy is given: polled information or, before the first poll, bare ids. -/
inductive Candidates
  | infos (infos : List InstanceInfo)
  | ids (ids : Finset String)

structure DispatchScheduler where
  dispatchPolicy : DispatchPolicy
  topkRandomDispatch : ℕ
  /-- `prev_instance_idx` of `RoundRobin`. -/
  prevInstanceIdx : ℤ := -1
  availableDispatchInstanceSet : Finset String := ∅
  instanceInfo : Infos := .empty
  totalNumRequests : ℕ := 0
  instanceNumRequests : Dict String ℕ := .empty

/-- `random.choice`, with the number that was drawn. -/
def randomChoiceFromTopK (sorted : List InstanceInfo) (topk drawn : ℕ) :
    Except Exc InstanceInfo :=
  let top := sorted.take (min topk sorted.length)
  match top[drawn % top.length]? with
  | some info => .ok info
  | none => .error .indexError

/-- The least `key` first, for `Load` and `Queue`. -/
def chooseAmong {κ : Type} [LT κ] [DecidableRel (α := κ) (β := κ) (· < ·)]
    (key : InstanceInfo → κ) (topk drawn : ℕ) : Candidates → Except Exc String
  | .infos infos =>
    (randomChoiceFromTopK (infos.insertionSort fun i j => ¬key j < key i) topk drawn).map
      InstanceInfo.instanceId
  | .ids ids => .error (if ids = ∅ then .indexError else .attributeError)

namespace DispatchScheduler

/-- The choice in the table of counters, for `Flood`, `Balanced` and `RoundRobin`. -/
def chooseCounted (s : DispatchScheduler) (better : ℕ → ℕ → Bool) : Except Exc String :=
  match extreme (fun e f => better e.2 f.2) s.instanceNumRequests.items with
  | some e => .ok e.1
  | none => .error .valueError

def curInstanceIdx (s : DispatchScheduler) : ℤ :=
  (s.prevInstanceIdx + 1) % s.instanceNumRequests.keys.length

def chooseNext (s : DispatchScheduler) : Except Exc String :=
  match (s.instanceNumRequests.keys.insertionSort (· ≤ ·))[s.curInstanceIdx.toNat]? with
  | some instanceId => .ok instanceId
  | none => .error .zeroDivisionError

def policyDispatch (s : DispatchScheduler) (candidates : Candidates) (drawn : ℕ) :
    Except Exc String :=
  match s.dispatchPolicy with
  | .flood => s.chooseCounted fun n m => m < n
  | .balanced => s.chooseCounted fun n m => n < m
  | .load => chooseAmong (·.dispatchLoadMetric) s.topkRandomDispatch drawn candidates
  | .queue => chooseAmong (·.numWaitingRequests) s.topkRandomDispatch drawn candidates
  | .rr => s.chooseNext

/-- Of the policies only `RoundRobin` remembers anything. -/
def afterPolicy (s : DispatchScheduler) : DispatchScheduler :=
  if s.dispatchPolicy = .rr ∧ s.instanceNumRequests.keys ≠ [] then
    { s with prevInstanceIdx := s.curInstanceIdx }
  else s

end DispatchScheduler

/-- How many of the blocks the instance has. -/
def affinity (blockHashes : List String) (info : InstanceInfo) : ℕ :=
  (blockHashes.toFinset ∩ info.kvCacheBlockHashes.toFinset).card

/-- The order of `(affinity(i), -i.dispatch_load_metric, i.instance_id)`. -/
def betterHit (blockHashes : List String) (i j : InstanceInfo) : Bool :=
  affinity blockHashes j < affinity blockHashes i ∨
    affinity blockHashes i = affinity blockHashes j ∧
      (j.dispatchLoadMetric.neg < i.dispatchLoadMetric.neg ∨
        i.dispatchLoadMetric.neg = j.dispatchLoadMetric.neg ∧
          i.dispatchLoadMetric.neg ≠ .nan ∧ j.instanceId < i.instanceId)

/-- The instances whose load is within the tolerance of the best. -/
def nearBest (round : ℚ → Number) (available : List InstanceInfo) : List InstanceInfo :=
  match extreme (· < ·) (available.map (·.dispatchLoadMetric)) with
  | some bestLoad =>
    available.filter (·.dispatchLoadMetric ≤ Number.add round bestLoad (round (1 / 10)))
  | none => []

namespace DispatchScheduler
variable (round : ℚ → Number)

/-- The instance with the most cached blocks, if any has one, else by the policy. -/
def choose (s : DispatchScheduler) (available : List InstanceInfo) (blockHashes : List String)
    (drawn : ℕ) : Except Exc String × DispatchScheduler :=
  let near := nearBest round available
  if blockHashes ≠ [] ∧ (∃ i ∈ available, i.kvCacheBlockHashes ≠ []) ∧ near ≠ [] then
    match extreme (betterHit blockHashes) near with
    | some hit =>
      if 0 < affinity blockHashes hit then (.ok hit.instanceId, s)
      else (s.policyDispatch (.infos near) drawn, s.afterPolicy)
    | none => (.error .valueError, s)
  else (s.policyDispatch (.infos available) drawn, s.afterPolicy)

/-- `self.instance_num_requests[i] = self.instance_num_requests.get(i, 0) + 1`. -/
def count (s : DispatchScheduler) (instanceId : String) : DispatchScheduler :=
  { s with
    instanceNumRequests := s.instanceNumRequests.set instanceId
      ((s.instanceNumRequests.get? instanceId).getD 0 + 1) }

def dispatchCandidates (s : DispatchScheduler) (candidateIds : List String)
    (blockHashes : List String) (drawn : ℕ) : Except Exc String × DispatchScheduler :=
  match s.instanceInfo.values.filter (·.instanceId ∈ candidateIds) with
  | [] => (.error (.runtimeError "no dispatch candidates are available"), s)
  | i :: is =>
    let s := { s with totalNumRequests := s.totalNumRequests + 1 }
    match s.choose round (i :: is) blockHashes drawn with
    | (.ok instanceId, s) => (.ok instanceId, s.count instanceId)
    | (.error e, s) => (.error e, s)

def dispatch (s : DispatchScheduler) (blockHashes : List String) (drawn : ℕ) :
    Except Exc String × DispatchScheduler :=
  match s.instanceInfo.values.filter (·.instanceId ∈ s.availableDispatchInstanceSet) with
  | [] =>
    (s.policyDispatch (.ids s.availableDispatchInstanceSet) drawn, s.afterPolicy)
  | i :: is =>
    s.dispatchCandidates round ((i :: is).map (·.instanceId)) blockHashes drawn

end DispatchScheduler

namespace DispatchScheduler

def updateInstanceInfos (s : DispatchScheduler) (infos : Infos) : DispatchScheduler :=
  { s with
    instanceInfo :=
      s.instanceInfo.setAll (infos.items.filter (·.1 ∈ s.availableDispatchInstanceSet)) }

def addInstance (s : DispatchScheduler) (instanceId : String) (instanceType : InstanceType) :
    DispatchScheduler :=
  if instanceType = .noConstraints ∨ instanceType = .prefill then
    { s with
      availableDispatchInstanceSet := insert instanceId s.availableDispatchInstanceSet
      instanceNumRequests := s.instanceNumRequests.set instanceId 0 }
  else s

def removeInstance (s : DispatchScheduler) (instanceId : String) : DispatchScheduler :=
  let s := { s with instanceInfo := s.instanceInfo.erase instanceId }
  if instanceId ∈ s.availableDispatchInstanceSet then
    { s with
      availableDispatchInstanceSet := s.availableDispatchInstanceSet.erase instanceId
      instanceNumRequests := s.instanceNumRequests.erase instanceId }
  else s

/-- What a dispatch leaves alone. -/
def SamePool (s s' : DispatchScheduler) : Prop :=
  s'.availableDispatchInstanceSet = s.availableDispatchInstanceSet ∧
    s'.instanceInfo = s.instanceInfo ∧ s'.dispatchPolicy = s.dispatchPolicy ∧
    s'.topkRandomDispatch = s.topkRandomDispatch

theorem SamePool.trans {s s' s'' : DispatchScheduler} (h : SamePool s s') (h' : SamePool s' s'') :
    SamePool s s'' :=
  ⟨h'.1.trans h.1, h'.2.1.trans h.2.1, h'.2.2.1.trans h.2.2.1, h'.2.2.2.trans h.2.2.2⟩

theorem samePool_afterPolicy (s : DispatchScheduler) : SamePool s s.afterPolicy := by
  unfold afterPolicy
  split <;> exact ⟨rfl, rfl, rfl, rfl⟩

theorem samePool_choose (s : DispatchScheduler) (round : ℚ → Number)
    (available : List InstanceInfo) (blockHashes : List String) (drawn : ℕ) :
    SamePool s (s.choose round available blockHashes drawn).2 := by
  unfold choose
  dsimp only
  split
  · split
    · split
      · exact ⟨rfl, rfl, rfl, rfl⟩
      · exact samePool_afterPolicy s
    · exact ⟨rfl, rfl, rfl, rfl⟩
  · exact samePool_afterPolicy s

theorem samePool_dispatchCandidates (s : DispatchScheduler) (round : ℚ → Number)
    (candidateIds blockHashes : List String) (drawn : ℕ) :
    SamePool s (s.dispatchCandidates round candidateIds blockHashes drawn).2 := by
  unfold dispatchCandidates
  split
  · exact ⟨rfl, rfl, rfl, rfl⟩
  · rename_i i is _
    have h := samePool_choose { s with totalNumRequests := s.totalNumRequests + 1 } round
      (i :: is) blockHashes drawn
    dsimp only
    split <;> rename_i heq <;> rw [heq] at h <;> exact h

theorem samePool_dispatch (s : DispatchScheduler) (round : ℚ → Number)
    (blockHashes : List String) (drawn : ℕ) :
    SamePool s (s.dispatch round blockHashes drawn).2 := by
  unfold dispatch
  split
  · exact samePool_afterPolicy s
  · exact samePool_dispatchCandidates ..

end DispatchScheduler
end Llumnix.Scheduler
