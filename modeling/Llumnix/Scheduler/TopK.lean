import Llumnix.Python.Sorted
import Llumnix.Scheduler.Pools

/-! How good the choices by load and by queue are: within the tolerance of the best load, with the
most cached blocks, and else with few instances before the chosen one. -/
namespace Llumnix.Scheduler

open Python

/-- The order of the keys that `Load` and `Queue` sort by. -/
def DispatchPolicy.smaller : DispatchPolicy → InstanceInfo → InstanceInfo → Bool
  | .queue, i, j => i.numWaitingRequests < j.numWaitingRequests
  | _, i, j => i.dispatchLoadMetric < j.dispatchLoadMetric

def Advertised (blockHashes : List String) (available : List InstanceInfo) : Prop :=
  blockHashes ≠ [] ∧ ∃ i ∈ available, i.kvCacheBlockHashes ≠ []

instance (blockHashes : List String) (available : List InstanceInfo) :
    Decidable (Advertised blockHashes available) :=
  inferInstanceAs (Decidable (_ ∧ _))

/-- At most a tenth above every load of the pool. -/
def withinTolerance (available : List InstanceInfo) : List InstanceInfo :=
  available.filter fun i => ∀ j ∈ available,
    i.dispatchLoadMetric ≤ Number.add .fin j.dispatchLoadMetric (.fin (1 / 10))

def contenders (blockHashes : List String) (available : List InstanceInfo) : List InstanceInfo :=
  if Advertised blockHashes available then withinTolerance available else available

/-- The most cached blocks and the least load with as many, if there is a hit at all; else fewer
than `topk` instances before it. -/
def WellChosen (p : DispatchPolicy) (topk : ℕ) (blockHashes : List String)
    (cs : List InstanceInfo) (i : InstanceInfo) : Prop :=
  if ∃ j ∈ cs, 0 < affinity blockHashes j then
    ∀ j ∈ cs, affinity blockHashes j ≤ affinity blockHashes i ∧
      (affinity blockHashes j = affinity blockHashes i →
        ¬j.dispatchLoadMetric < i.dispatchLoadMetric)
  else cs.countP (p.smaller · i) < topk

section Tolerance

variable {available : List InstanceInfo} (hnan : ∀ i ∈ available, i.dispatchLoadMetric ≠ .nan)
include hnan

theorem exists_least (hne : available ≠ []) :
    ∃ best ∈ available,
      extreme (· < ·) (available.map (·.dispatchLoadMetric)) = some best.dispatchLoadMetric ∧
        ∀ j ∈ available, best.dispatchLoadMetric ≤ j.dispatchLoadMetric := by
  obtain ⟨load, hload⟩ := extreme_isSome (fun x y : Number => decide (x < y))
    (mt List.map_eq_nil_iff.mp hne)
  obtain ⟨best, hbest, rfl⟩ := List.mem_map.mp (mem_of_extreme hload)
  refine ⟨best, hbest, hload, fun j hj => ?_⟩
  have hleast := not_better_of_extreme (by simp [Number.lt_irrefl])
    (by simpa using fun x y z => Number.lt_trans) hload _ (List.mem_map_of_mem hj)
  exact Number.le_of_not_lt (hnan best hbest) (hnan j hj) (by simpa using hleast)

theorem nearBest_eq (hne : available ≠ []) :
    nearBest .fin available = withinTolerance available := by
  obtain ⟨best, hbest, hextreme, hleast⟩ := exists_least hnan hne
  unfold nearBest withinTolerance
  rw [hextreme]
  refine List.filter_congr fun i hi => ?_
  rw [decide_eq_decide]
  constructor
  · intro h j hj
    exact Number.le_trans h (Number.add_fin_le_add_fin (hleast j hj) _)
  · exact fun h => h best hbest

theorem withinTolerance_ne_nil (hne : available ≠ []) : withinTolerance available ≠ [] := by
  obtain ⟨best, hbest, -, hleast⟩ := exists_least hnan hne
  refine List.ne_nil_of_mem (List.mem_filter.mpr ⟨hbest, decide_eq_true fun j hj => ?_⟩)
  exact Number.le_trans (hleast j hj) (Number.le_add_fin (hnan j hj) (by decide +kernel))

theorem contenders_ne_nil (blockHashes : List String) (hne : available ≠ []) :
    contenders blockHashes available ≠ [] := by
  unfold contenders
  split
  · exact withinTolerance_ne_nil hnan hne
  · exact hne

end Tolerance

section Policy

theorem chooseAmong_countP {κ : Type} [LT κ] [DecidableRel (α := κ) (β := κ) (· < ·)]
    (key : InstanceInfo → κ) {topk : ℕ} (drawn : ℕ) {infos : List InstanceInfo}
    (hasymm : ∀ x ∈ infos, ∀ y ∈ infos, key x < key y → ¬key y < key x)
    (htrans : ∀ x ∈ infos, ∀ y ∈ infos, ∀ z ∈ infos,
      ¬key y < key x → ¬key z < key y → ¬key z < key x)
    (htopk : 0 < topk) (hne : infos ≠ []) :
    ∃ info ∈ infos, chooseAmong key topk drawn (.infos infos) = .ok info.instanceId ∧
      infos.countP (key · < key info) < topk := by
  obtain ⟨d, hd, hlt, hok⟩ := DispatchScheduler.chooseAmong_getElem key drawn htopk hne
  have hperm := List.perm_insertionSort (fun i j => ¬key j < key i) infos
  have hmem := hperm.mem_iff.mp (List.getElem_mem hlt)
  have hsorted : (infos.insertionSort fun i j => ¬key j < key i).Pairwise
      fun x y => ¬decide (key y < key x) = true := by
    simpa only [decide_eq_true_eq] using pairwise_sorted key hasymm htrans
  have hcount := countP_getElem_le hsorted hlt (by simpa using fun h => hasymm _ hmem _ hmem h h)
  rw [hperm.countP_eq] at hcount
  exact ⟨_, hmem, hok, by omega⟩

theorem policyDispatch_countP {s : DispatchScheduler} (hload : s.dispatchPolicy.ByLoad)
    (htopk : 0 < s.topkRandomDispatch) {infos : List InstanceInfo} (hne : infos ≠ [])
    (hnan : ∀ i ∈ infos, i.dispatchLoadMetric ≠ .nan) (drawn : ℕ) :
    ∃ info ∈ infos, s.policyDispatch (.infos infos) drawn = .ok info.instanceId ∧
      infos.countP (s.dispatchPolicy.smaller · info) < s.topkRandomDispatch := by
  unfold DispatchScheduler.policyDispatch
  rcases hload with hp | hp <;> rw [hp]
  · refine chooseAmong_countP (·.dispatchLoadMetric) drawn (fun x hx y hy hlt => ?_)
      (fun x hx y hy z hz hxy hyz => ?_) htopk hne
    · exact Number.not_lt_of_le (.inl hlt)
    · exact Number.not_lt_of_le (Number.le_trans
        (Number.le_of_not_lt (hnan x hx) (hnan y hy) hxy)
        (Number.le_of_not_lt (hnan y hy) (hnan z hz) hyz))
  · refine chooseAmong_countP (·.numWaitingRequests) drawn (fun x _ y _ hlt => ?_)
      (fun x _ y _ z _ hxy hyz => ?_) htopk hne
    · omega
    · omega

end Policy

section Hit

variable {blockHashes : List String}

theorem not_betterHit_self (i : InstanceInfo) : ¬betterHit blockHashes i i := by
  simp [betterHit, Number.lt_irrefl]

theorem betterHit_trans (i j k : InstanceInfo) (hij : betterHit blockHashes i j)
    (hjk : betterHit blockHashes j k) : betterHit blockHashes i k := by
  simp only [betterHit, decide_eq_true_eq] at *
  rcases hij with hij | ⟨haff, hij⟩
  · rcases hjk with hjk | ⟨haff', -⟩
    · exact .inl (hjk.trans hij)
    · exact .inl (haff' ▸ hij)
  · rcases hjk with hjk | ⟨haff', hjk⟩
    · exact .inl (haff ▸ hjk)
    · refine .inr ⟨haff.trans haff', ?_⟩
      rcases hij with hij | ⟨heq, hne, hij⟩
      · rcases hjk with hjk | ⟨heq', -, -⟩
        · exact .inl (Number.lt_trans hjk hij)
        · exact .inl (heq' ▸ hij)
      · rcases hjk with hjk | ⟨heq', -, hjk⟩
        · exact .inl (heq ▸ hjk)
        · exact .inr ⟨heq.trans heq', hne, String.lt_trans hjk hij⟩

theorem hit_best {cs : List InstanceInfo} {hit : InstanceInfo}
    (h : extreme (betterHit blockHashes) cs = some hit) :
    ∀ j ∈ cs, affinity blockHashes j ≤ affinity blockHashes hit ∧
      (affinity blockHashes j = affinity blockHashes hit →
        ¬j.dispatchLoadMetric < hit.dispatchLoadMetric) := by
  intro j hj
  have hbest := not_better_of_extreme not_betterHit_self betterHit_trans h j hj
  simp only [betterHit, decide_eq_true_eq, not_or, not_and] at hbest
  refine ⟨Nat.le_of_not_lt hbest.1, fun heq hlt => ?_⟩
  exact (hbest.2 heq).1 (Number.neg_lt_neg.mpr hlt)

end Hit

theorem advertised_of_affinity {blockHashes : List String} {available : List InstanceInfo}
    {i : InstanceInfo} (hi : i ∈ available) (h : 0 < affinity blockHashes i) :
    Advertised blockHashes available := by
  obtain ⟨hash, hhash⟩ := Finset.card_pos.mp h
  rw [Finset.mem_inter, List.mem_toFinset, List.mem_toFinset] at hhash
  exact ⟨List.ne_nil_of_mem hhash.1, i, hi, List.ne_nil_of_mem hhash.2⟩

namespace DispatchScheduler
variable {s : DispatchScheduler}

theorem choose_wellChosen (hload : s.dispatchPolicy.ByLoad) (htopk : 0 < s.topkRandomDispatch)
    {available : List InstanceInfo} (hne : available ≠ [])
    (hnan : ∀ i ∈ available, i.dispatchLoadMetric ≠ .nan) (blockHashes : List String)
    (drawn : ℕ) :
    ∃ i ∈ contenders blockHashes available,
      (s.choose .fin available blockHashes drawn).1 = .ok i.instanceId ∧
        WellChosen s.dispatchPolicy s.topkRandomDispatch blockHashes
          (contenders blockHashes available) i := by
  have hnear := nearBest_eq hnan hne
  have hnearNe := withinTolerance_ne_nil hnan hne
  unfold choose contenders WellChosen
  dsimp only
  rw [hnear]
  by_cases hadv : Advertised blockHashes available
  · rw [if_pos hadv, if_pos ⟨hadv.1, hadv.2, hnearNe⟩]
    obtain ⟨hit, hhit⟩ := extreme_isSome (betterHit blockHashes) hnearNe
    have hmem := mem_of_extreme hhit
    have hbest := hit_best hhit
    rw [hhit]
    dsimp only
    by_cases hpos : 0 < affinity blockHashes hit
    · rw [if_pos hpos]
      refine ⟨hit, hmem, rfl, ?_⟩
      rw [if_pos ⟨hit, hmem, hpos⟩]
      exact hbest
    · rw [if_neg hpos]
      have hnone : ¬∃ j ∈ withinTolerance available, 0 < affinity blockHashes j := by
        rintro ⟨j, hj, hjpos⟩
        exact hpos (hjpos.trans_le (hbest j hj).1)
      simp only [if_neg hnone]
      exact policyDispatch_countP hload htopk hnearNe
        (fun i hi => hnan i (List.mem_of_mem_filter hi)) drawn
  · have hcond : ¬(blockHashes ≠ [] ∧ (∃ i ∈ available, i.kvCacheBlockHashes ≠ []) ∧
        withinTolerance available ≠ []) := fun h => hadv ⟨h.1, h.2.1⟩
    have hnone : ¬∃ j ∈ available, 0 < affinity blockHashes j :=
      fun ⟨j, hj, hjpos⟩ => hadv (advertised_of_affinity hj hjpos)
    simp only [if_neg hadv, if_neg hcond, if_neg hnone]
    exact policyDispatch_countP hload htopk hne hnan drawn

/-- Of the contenders the chosen instance has the most cached blocks, or fewer than `topk` of them
before it. -/
theorem dispatch_wellChosen (hload : s.dispatchPolicy.ByLoad) (htopk : 1 ≤ s.topkRandomDispatch)
    {candidateIds : List String} (hne : s.availableAmong candidateIds ≠ [])
    (hnan : ∀ i ∈ s.availableAmong candidateIds, i.dispatchLoadMetric ≠ .nan)
    (blockHashes : List String) (drawn : ℕ) :
    contenders blockHashes (s.availableAmong candidateIds) ≠ [] ∧
      ∃ i ∈ contenders blockHashes (s.availableAmong candidateIds),
        (s.dispatchCandidates .fin candidateIds blockHashes drawn).1 = .ok i.instanceId ∧
          WellChosen s.dispatchPolicy s.topkRandomDispatch blockHashes
            (contenders blockHashes (s.availableAmong candidateIds)) i := by
  refine ⟨contenders_ne_nil hnan blockHashes hne, ?_⟩
  rw [dispatchCandidates_fst hne]
  exact choose_wellChosen (s := { s with totalNumRequests := s.totalNumRequests + 1 }) hload htopk
    hne hnan blockHashes drawn

/-- Two instances within the tolerance, the busier of which has the block. -/
def sampleInfos : Infos :=
  Dict.empty.setAll [
    ("a", { instanceId := "a", dispatchLoadMetric := .fin 0 }),
    ("b", { instanceId := "b", dispatchLoadMetric := .fin (1 / 20), kvCacheBlockHashes := ["x"] }),
    ("c", { instanceId := "c", dispatchLoadMetric := .fin 1, kvCacheBlockHashes := ["x"] })]

def sampleByLoad : DispatchScheduler where
  dispatchPolicy := .load
  topkRandomDispatch := 1
  instanceInfo := sampleInfos

theorem dispatch_wellChosen_sample :
    (sampleByLoad.dispatchCandidates .fin ["a", "b", "c"] ["x"] 0).1 = .ok "b" ∧
      ∃ i ∈ contenders ["x"] (sampleByLoad.availableAmong ["a", "b", "c"]),
        (sampleByLoad.dispatchCandidates .fin ["a", "b", "c"] ["x"] 0).1 = .ok i.instanceId ∧
          WellChosen .load 1 ["x"]
            (contenders ["x"] (sampleByLoad.availableAmong ["a", "b", "c"])) i := by
  refine ⟨by decide +kernel, ?_⟩
  exact (dispatch_wellChosen (s := sampleByLoad) (.inl rfl) (by decide) (by decide +kernel)
    (by decide +kernel) ["x"] 0).2

end DispatchScheduler
end Llumnix.Scheduler
