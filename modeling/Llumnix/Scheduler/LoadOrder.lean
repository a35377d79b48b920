import Llumnix.Scheduler.Load
import Mathlib.Tactic.FieldSimp
import Mathlib.Tactic.Linarith
import Mathlib.Tactic.Positivity

/-! Which way the loads go. The remaining steps are a quotient whose sign is that of the head-room:
more requests make a negative one smaller. -/
namespace Llumnix.Scheduler

open Python

/-! ### The quotient -/

section RemainingSteps
variable {a b : ℚ} {n m : ℤ}

theorem remainingSteps_of_pos (hn : 0 < n) : remainingSteps a n = .fin (a / n * (-1)) := by
  have hne : n ≠ 0 := by omega
  rw [remainingSteps, if_neg hne]

theorem remainingSteps_ne_nan : remainingSteps a n ≠ .nan := by
  unfold remainingSteps
  split <;> simp

theorem remainingSteps_zero_le : remainingSteps a 0 ≤ remainingSteps b n :=
  Number.negInf_le remainingSteps_ne_nan

theorem remainingSteps_le_of_requests (hn : 0 ≤ n) (hnm : n < m) :
    remainingSteps a n ≤ remainingSteps a m ↔ (0 < n → 0 ≤ a) := by
  rcases hn.eq_or_lt with rfl | hn
  · exact iff_of_true remainingSteps_zero_le fun h => absurd h (lt_irrefl 0)
  rw [forall_prop_of_true hn]
  have hn' : (0 : ℚ) < n := by exact_mod_cast hn
  have hnm' : (n : ℚ) < m := by exact_mod_cast hnm
  have hm' : (0 : ℚ) < m := hn'.trans hnm'
  rw [remainingSteps_of_pos hn, remainingSteps_of_pos (hn.trans hnm), Number.fin_le_fin,
    mul_neg_one, mul_neg_one, neg_le_neg_iff, div_le_div_iff₀ hm' hn']
  constructor
  · intro h
    by_contra ha
    have hlt := mul_lt_mul_of_neg_left hnm' (not_le.mp ha)
    exact absurd h (not_le.mpr hlt)
  · intro ha
    exact mul_le_mul_of_nonneg_left hnm'.le ha

theorem remainingSteps_le_of_available (hn : 0 ≤ n) :
    remainingSteps b n ≤ remainingSteps a n ↔ (0 < n → a ≤ b) := by
  rcases hn.eq_or_lt with rfl | hn
  · exact iff_of_true remainingSteps_zero_le fun h => absurd h (lt_irrefl 0)
  rw [forall_prop_of_true hn]
  have hn' : (0 : ℚ) < n := by exact_mod_cast hn
  rw [remainingSteps_of_pos hn, remainingSteps_of_pos hn, Number.fin_le_fin, mul_neg_one,
    mul_neg_one, neg_le_neg_iff, div_le_div_iff_of_pos_right hn']

theorem remainingSteps_out_lt (hn : 0 < n) :
    remainingSteps (a + b) (n - 1) < remainingSteps a n ↔ n = 1 ∨ 0 < a + n * b := by
  rw [remainingSteps_of_pos hn]
  by_cases hone : n = 1
  · have hzero : n - 1 = 0 := by omega
    rw [remainingSteps, if_pos hzero]
    exact iff_of_true (Number.negInf_lt_fin _) (.inl hone)
  · have hpos : 0 < n - 1 := by omega
    have hn' : (0 : ℚ) < n := by exact_mod_cast hn
    have hpos' : (0 : ℚ) < (n - 1 : ℤ) := by exact_mod_cast hpos
    rw [remainingSteps_of_pos hpos, Number.fin_lt_fin, mul_neg_one, mul_neg_one, neg_lt_neg_iff,
      div_lt_div_iff₀ hn' hpos', or_iff_right hone]
    push_cast
    constructor <;> intro h <;> linarith

theorem lt_remainingSteps_in (hn : 0 < n) :
    remainingSteps a n < remainingSteps (a - b) (n + 1) ↔ 0 < a + n * b := by
  have hpos : 0 < n + 1 := by omega
  have hn' : (0 : ℚ) < n := by exact_mod_cast hn
  have hpos' : (0 : ℚ) < (n + 1 : ℤ) := by exact_mod_cast hpos
  rw [remainingSteps_of_pos hn, remainingSteps_of_pos hpos, Number.fin_lt_fin, mul_neg_one,
    mul_neg_one, neg_lt_neg_iff, div_lt_div_iff₀ hpos' hn']
  push_cast
  constructor <;> intro h <;> linarith

end RemainingSteps

/-! ### Dispatch -/

/-- No counter is negative; the available blocks may be. -/
structure Counters.NonNegative (c : Counters) : Prop where
  totalGpuBlocks : 0 ≤ c.numTotalGpuBlocks
  usedGpuBlocks : 0 ≤ c.numUsedGpuBlocks
  memoryTotal : 0 ≤ c.gpuMemoryTotalBytes
  memoryFree : 0 ≤ c.gpuMemoryFreeBytes
  running : 0 ≤ c.numRunningRequests
  waiting : 0 ≤ c.numWaitingRequests
  firstWaiting : 0 ≤ c.numBlocksFirstWaitingRequest
  allWaiting : 0 ≤ c.numBlocksAllWaitingRequests
  lastRunning : 0 ≤ c.numBlocksLastRunningRequest

namespace Counters
variable {c : Counters}

theorem capacity_pos (c : Counters) : 0 < c.capacity := by
  have hmin : (0 : ℚ) < 1 / 10 ^ 6 := by positivity
  exact lt_max_of_lt_right hmin

theorem memoryHeadroom_nonneg (c : Counters) : 0 ≤ c.memoryHeadroom := by
  have hcapacity := c.capacity_pos
  have hfree : (0 : ℚ) ≤ max 0 (c.gpuMemoryFreeBytes : ℚ) := le_max_left _ _
  unfold memoryHeadroom
  positivity

theorem available_nonneg_iff (c : Counters) : 0 ≤ c.available ↔ 0 ≤ c.headroom := by
  unfold available
  split
  · rename_i h
    exact iff_of_true c.memoryHeadroom_nonneg h.1.ge
  · exact_mod_cast Iff.rfl

/-- Memory in the place of zero blocks is the only thing that more blocks can lose. -/
theorem available_le_iff {b : ℤ} (hb : c.numAvailableGpuBlocks ≤ b) :
    c.available ≤ { c with numAvailableGpuBlocks := b }.available ↔
      ¬(c.headroom = 0 ∧ 0 < c.gpuMemoryTotalBytes ∧ c.numAvailableGpuBlocks < b ∧
        (b - c.numBlocksAllWaitingRequests : ℤ) < c.memoryHeadroom) := by
  have hhead : { c with numAvailableGpuBlocks := b }.headroom =
      b - c.numBlocksAllWaitingRequests := rfl
  have hmem : { c with numAvailableGpuBlocks := b }.memoryHeadroom = c.memoryHeadroom := rfl
  have hle : c.headroom ≤ b - c.numBlocksAllWaitingRequests := by
    unfold headroom
    omega
  unfold available
  rw [hhead, hmem]
  dsimp only
  by_cases hold : c.headroom = 0 ∧ 0 < c.gpuMemoryTotalBytes
  · rw [if_pos hold]
    by_cases hnew : b - c.numBlocksAllWaitingRequests = 0
    · have hsame : ¬c.numAvailableGpuBlocks < b := by
        have hzero := hold.1
        unfold headroom at hzero
        omega
      rw [if_pos ⟨hnew, hold.2⟩]
      exact iff_of_true le_rfl fun h => hsame h.2.2.1
    · have hmore : c.numAvailableGpuBlocks < b := by
        have hzero := hold.1
        unfold headroom at hzero
        omega
      rw [if_neg fun h => hnew h.1, ← not_lt]
      simp only [hold.1, hold.2, hmore, true_and]
  · rw [if_neg hold]
    refine iff_of_true ?_ fun h => hold ⟨h.1, h.2.1⟩
    split
    · rename_i hnew
      have hneg : c.headroom ≤ 0 := hnew.1 ▸ hle
      have hneg' : (c.headroom : ℚ) ≤ 0 := by exact_mod_cast hneg
      exact hneg'.trans c.memoryHeadroom_nonneg
    · exact_mod_cast hle

theorem available_le_of_free {f : ℤ} (hf : c.gpuMemoryFreeBytes ≤ f) :
    c.available ≤ { c with gpuMemoryFreeBytes := f }.available := by
  have hhead : { c with gpuMemoryFreeBytes := f }.headroom = c.headroom := rfl
  have hmem : c.memoryHeadroom ≤ { c with gpuMemoryFreeBytes := f }.memoryHeadroom := by
    have hcapacity := c.capacity_pos
    have hfree : max 0 (c.gpuMemoryFreeBytes : ℚ) ≤ max 0 (f : ℚ) :=
      max_le_max le_rfl (by exact_mod_cast hf)
    have hdiv := div_le_div_of_nonneg_right hfree (by positivity : (0 : ℚ) ≤ 1024 ^ 3)
    exact mul_le_mul_of_nonneg_right hdiv hcapacity.le
  unfold available
  rw [hhead]
  dsimp only
  split
  · exact hmem
  · exact le_rfl

theorem memoryLoad_nonneg (c : Counters) : 0 ≤ c.memoryLoad :=
  le_min (le_max_right _ _) zero_le_one

theorem memoryLoad_le_of_free (h : c.NonNegative) {f : ℤ} (hf : c.gpuMemoryFreeBytes ≤ f)
    (hft : f ≤ c.gpuMemoryTotalBytes) :
    { c with gpuMemoryFreeBytes := f }.memoryLoad ≤ c.memoryLoad := by
  have hfree := h.memoryFree
  have hratio : { c with gpuMemoryFreeBytes := f }.memoryUseRatio ≤ c.memoryUseRatio := by
    unfold memoryUseRatio
    dsimp only
    by_cases htotal : 0 < c.gpuMemoryTotalBytes
    · have htotal' : (0 : ℚ) < c.gpuMemoryTotalBytes := by exact_mod_cast htotal
      have hf' : (c.gpuMemoryFreeBytes : ℚ) ≤ f := by exact_mod_cast hf
      rw [if_pos ⟨htotal, by omega, hft⟩, if_pos ⟨htotal, hfree, by omega⟩]
      have hdiv := div_le_div_of_nonneg_right hf' htotal'.le
      linarith
    · have hold : ¬(0 < c.gpuMemoryTotalBytes ∧ 0 ≤ c.gpuMemoryFreeBytes ∧
          c.gpuMemoryFreeBytes ≤ c.gpuMemoryTotalBytes) := fun h => htotal h.1
      have hnew : ¬(0 < c.gpuMemoryTotalBytes ∧ 0 ≤ f ∧ f ≤ c.gpuMemoryTotalBytes) :=
        fun h => htotal h.1
      rw [if_neg hold, if_neg hnew]
  exact min_le_min (max_le_max hratio le_rfl) le_rfl

end Counters

section Dispatch
variable {weight : ℚ → ℚ} {c : Counters}

theorem virtualUsage_le_of_requests (h : c.NonNegative) {n : ℤ} (hn : c.numRunningRequests ≤ n) :
    DispatchLoadMetric.virtualUsage.computeInstanceLoad weight c ≤
      DispatchLoadMetric.virtualUsage.computeInstanceLoad weight
        { c with numRunningRequests := n } := by
  have hrunning := h.running
  have hwaiting := h.waiting
  have hrequests : { c with numRunningRequests := n }.numRequests = n + c.numWaitingRequests := rfl
  unfold DispatchLoadMetric.computeInstanceLoad
  dsimp only
  rw [hrequests]
  by_cases hzero : c.numRequests = 0
  · rw [if_pos hzero]
    refine Number.negInf_le ?_
    split <;> simp
  · have hpos : n + c.numWaitingRequests ≠ 0 := by
      unfold Counters.numRequests at hzero
      omega
    rw [if_neg hzero, if_neg hpos, Number.fin_le_fin]
    have hle : (c.numRequests : ℚ) ≤ (n + c.numWaitingRequests : ℤ) := by
      unfold Counters.numRequests
      exact_mod_cast add_le_add_left hn c.numWaitingRequests
    have hscale : (0 : ℚ) ≤ 256 * c.capacity := by
      have hcapacity := c.capacity_pos
      positivity
    have hload : c.computeLoad ≤ { c with numRunningRequests := n }.computeLoad :=
      div_le_div_of_nonneg_right hle hscale
    exact add_le_add_left hload _

theorem virtualUsage_le_of_free (hmono : Monotone weight) (hpos : ∀ x, 0 < weight x)
    (h : c.NonNegative) {f : ℤ} (hf : c.gpuMemoryFreeBytes ≤ f) (hft : f ≤ c.gpuMemoryTotalBytes) :
    DispatchLoadMetric.virtualUsage.computeInstanceLoad weight { c with gpuMemoryFreeBytes := f } ≤
      DispatchLoadMetric.virtualUsage.computeInstanceLoad weight c := by
  have hrequests : { c with gpuMemoryFreeBytes := f }.numRequests = c.numRequests := rfl
  have hcompute : { c with gpuMemoryFreeBytes := f }.computeLoad = c.computeLoad := rfl
  have hmem := Counters.memoryLoad_le_of_free h hf hft
  unfold DispatchLoadMetric.computeInstanceLoad
  dsimp only
  rw [hrequests, hcompute]
  split
  · exact Number.le_refl nofun
  · rw [Number.fin_le_fin]
    have hproduct := mul_le_mul (hmono hmem) hmem (Counters.memoryLoad_nonneg _)
      (hpos c.memoryLoad).le
    exact add_le_add_right hproduct _

/-- More running requests do not make a load smaller, except that of remaining steps with negative
head-room; more available blocks do not make it larger, except where they take the place of more
memory than they are worth; more free memory never does. -/
theorem dispatch_load_monotone_iff (hmono : Monotone weight) (hpos : ∀ x, 0 < weight x)
    (metric : DispatchLoadMetric) (h : c.NonNegative) :
    (∀ n, c.numRunningRequests < n → (metric.computeInstanceLoad weight c ≤
        metric.computeInstanceLoad weight { c with numRunningRequests := n } ↔
      ¬(metric = .remainingSteps ∧ 0 < c.numRequests ∧ c.headroom < 0))) ∧
    (∀ b, c.numAvailableGpuBlocks < b → (metric.computeInstanceLoad weight
        { c with numAvailableGpuBlocks := b } ≤ metric.computeInstanceLoad weight c ↔
      ¬(metric = .remainingSteps ∧ 0 < c.numRequests ∧ c.headroom = 0 ∧
        0 < c.gpuMemoryTotalBytes ∧
        (b - c.numBlocksAllWaitingRequests : ℤ) < c.memoryHeadroom))) ∧
    ∀ f, c.gpuMemoryFreeBytes < f → f ≤ c.gpuMemoryTotalBytes →
      metric.computeInstanceLoad weight { c with gpuMemoryFreeBytes := f } ≤
        metric.computeInstanceLoad weight c := by
  have hratio : ∀ {w : ℤ}, usageRatio c w ≤ usageRatio c w := by
    intro w
    refine Number.le_refl ?_
    unfold usageRatio
    split <;> simp
  have hrequests : 0 ≤ c.numRequests := add_nonneg h.running h.waiting
  cases metric with
  | usageRatio =>
    refine ⟨fun n _ => ?_, fun b _ => ?_, fun f _ _ => hratio⟩
    · exact iff_of_true hratio (by simp)
    · exact iff_of_true hratio (by simp)
  | remainingSteps =>
    refine ⟨fun n hn => ?_, fun b hb => ?_, fun f hf _ => ?_⟩
    · change remainingSteps c.available c.numRequests ≤
        remainingSteps c.available (n + c.numWaitingRequests) ↔ _
      have hlt : c.numRequests < n + c.numWaitingRequests := by
        unfold Counters.numRequests
        omega
      rw [remainingSteps_le_of_requests hrequests hlt, c.available_nonneg_iff]
      simp
    · change remainingSteps { c with numAvailableGpuBlocks := b }.available c.numRequests ≤
        remainingSteps c.available c.numRequests ↔ _
      rw [remainingSteps_le_of_available hrequests, Counters.available_le_iff hb.le]
      simp [hb]
    · change remainingSteps { c with gpuMemoryFreeBytes := f }.available c.numRequests ≤
        remainingSteps c.available c.numRequests
      refine (remainingSteps_le_of_available hrequests).mpr fun _ => ?_
      exact Counters.available_le_of_free hf.le
  | virtualUsage =>
    refine ⟨fun n hn => ?_, fun b _ => ?_, fun f hf hft => ?_⟩
    · exact iff_of_true (virtualUsage_le_of_requests h hn.le) (by simp)
    · refine iff_of_true (Number.le_refl ?_) (by simp)
      unfold DispatchLoadMetric.computeInstanceLoad
      dsimp only
      split <;> simp
    · exact virtualUsage_le_of_free hmono hpos h hf.le hft

/-- A busy instance with memory to spare and no blocks left. -/
def sampleCounters : Counters where
  gpuMemoryTotalBytes := 80 * 1024 ^ 3
  gpuMemoryFreeBytes := 60 * 1024 ^ 3
  numRunningRequests := 2

theorem sampleCounters_nonNegative : sampleCounters.NonNegative := by
  constructor <;> decide

theorem dispatch_load_monotone_at_sample :
    DispatchLoadMetric.virtualUsage.computeInstanceLoad (fun _ => 1) sampleCounters ≤
      DispatchLoadMetric.virtualUsage.computeInstanceLoad (fun _ => 1)
        { sampleCounters with numRunningRequests := 3 } := by
  have hflat : Monotone fun _ : ℚ => (1 : ℚ) := monotone_const
  have hmonotone := dispatch_load_monotone_iff hflat (fun _ => zero_lt_one) .virtualUsage
    sampleCounters_nonNegative
  exact (hmonotone.1 3 (by decide)).mpr nofun

/-- With six blocks too few, a third request lowers the load; and one block that becomes available
takes the place of 60 GiB. -/
theorem dispatch_load_falls_with_requests :
    (DispatchLoadMetric.remainingSteps.computeInstanceLoad (fun _ => 1)
        { numRunningRequests := 2, numAvailableGpuBlocks := -6 } = .fin 3 ∧
      DispatchLoadMetric.remainingSteps.computeInstanceLoad (fun _ => 1)
        { numRunningRequests := 3, numAvailableGpuBlocks := -6 } = .fin 2) ∧
    DispatchLoadMetric.remainingSteps.computeInstanceLoad (fun _ => 1) sampleCounters =
        .fin (-30) ∧
      DispatchLoadMetric.remainingSteps.computeInstanceLoad (fun _ => 1)
        { sampleCounters with numAvailableGpuBlocks := 1 } = .fin (-1 / 2) := by
  decide +kernel

end Dispatch

/-! ### Migration -/

section Migration
variable {c : Counters}

theorem remainingSteps_moved (l : MigrationLoadComputation) (c : Counters) (r b : ℤ) :
    remainingSteps (l.headroom { c with
        numRunningRequests := c.numRunningRequests + r
        numAvailableGpuBlocks := c.numAvailableGpuBlocks + b })
      (l.numRequests { c with
        numRunningRequests := c.numRunningRequests + r
        numAvailableGpuBlocks := c.numAvailableGpuBlocks + b }) =
      remainingSteps (l.headroom c + b) (l.numRequests c + r) := by
  have hhead : l.headroom { c with
      numRunningRequests := c.numRunningRequests + r
      numAvailableGpuBlocks := c.numAvailableGpuBlocks + b } = l.headroom c + b := by
    unfold MigrationLoadComputation.headroom
    dsimp only
    split <;> omega
  have hrequests : l.numRequests { c with
      numRunningRequests := c.numRunningRequests + r
      numAvailableGpuBlocks := c.numAvailableGpuBlocks + b } = l.numRequests c + r := by
    unfold MigrationLoadComputation.numRequests
    dsimp only
    split <;> omega
  rw [hhead, hrequests]
  push_cast
  rfl

/-- The load after migrating out is smaller exactly for remaining steps, with one request or with
more than minus `n` times its blocks left; and the load after migrating in is larger exactly for
remaining steps with so many left. -/
theorem predicted_loads_iff (calculator : InstanceLoadCalculator) (info : InstanceInfo)
    (hmetric : calculator.migrationLoadCalculator.loadMetric ≠ .remainingTokens)
    (hrunning : 1 ≤ c.numRunningRequests) :
    let l := calculator.migrationLoadCalculator
    let i := calculator.computeInstanceLoad c info
    (i.migrationLoadMetricAfterMigrateOut < i.migrationLoadMetric ↔
      l.loadMetric = .remainingSteps ∧ (l.numRequests c = 1 ∨
        0 < l.headroom c + l.numRequests c * c.numBlocksLastRunningRequest)) ∧
    (i.migrationLoadMetric < i.migrationLoadMetricAfterMigrateIn ↔
      l.loadMetric = .remainingSteps ∧
        0 < l.headroom c + l.numRequests c * c.numBlocksLastRunningRequest) := by
  intro l i
  have hrequests : 0 < l.numRequests c := by
    unfold MigrationLoadComputation.numRequests
    split <;> omega
  cases hl : l.loadMetric with
  | remainingTokens => exact absurd hl hmetric
  | usageRatio =>
    have hsame : ∀ b, l.computeInstanceLoadAfterMigrate c b = l.computeInstanceLoad c := by
      intro b
      unfold MigrationLoadComputation.computeInstanceLoadAfterMigrate
        MigrationLoadComputation.computeInstanceLoad
      rw [hl]
      cases b <;> rfl
    constructor
    · change l.computeInstanceLoadAfterMigrate c false < l.computeInstanceLoad c ↔ _
      rw [hsame]
      exact iff_of_false (Number.lt_irrefl _) (by simp)
    · change l.computeInstanceLoad c < l.computeInstanceLoadAfterMigrate c true ↔ _
      rw [hsame]
      exact iff_of_false (Number.lt_irrefl _) (by simp)
  | remainingSteps =>
    have hload : ∀ c, l.computeInstanceLoad c =
        remainingSteps (l.headroom c) (l.numRequests c) := by
      intro c
      unfold MigrationLoadComputation.computeInstanceLoad
      rw [hl]
    have hout : l.computeInstanceLoadAfterMigrate c false = remainingSteps
        (l.headroom c + c.numBlocksLastRunningRequest) (l.numRequests c - 1) := by
      refine (hload _).trans ?_
      exact remainingSteps_moved l c (-1) c.numBlocksLastRunningRequest
    have hin : l.computeInstanceLoadAfterMigrate c true = remainingSteps
        (l.headroom c - c.numBlocksLastRunningRequest) (l.numRequests c + 1) := by
      have hmoved := remainingSteps_moved l c 1 (-c.numBlocksLastRunningRequest)
      rw [Int.cast_neg] at hmoved
      rw [sub_eq_add_neg]
      exact (hload _).trans hmoved
    constructor
    · change l.computeInstanceLoadAfterMigrate c false < l.computeInstanceLoad c ↔ _
      rw [hload, hout, remainingSteps_out_lt hrequests]
      simp only [true_and]
      exact_mod_cast Iff.rfl
    · change l.computeInstanceLoad c < l.computeInstanceLoadAfterMigrate c true ↔ _
      rw [hload, hin, lt_remainingSteps_in hrequests]
      simp only [true_and]
      exact_mod_cast Iff.rfl

def sampleCalculator (metric : MigrationLoadMetric) : InstanceLoadCalculator where
  dispatchLoadMetric := .remainingSteps
  memoryWeight _ := 1
  migrationLoadCalculator := ⟨metric, false⟩

/-- Two running requests, the last with three blocks. -/
def sampleRunning (numAvailableGpuBlocks : ℤ) : Counters where
  numTotalGpuBlocks := 10
  numUsedGpuBlocks := 5
  numRunningRequests := 2
  numBlocksLastRunningRequest := 3
  numAvailableGpuBlocks := numAvailableGpuBlocks

def sampleLoads (metric : MigrationLoadMetric) (numAvailableGpuBlocks : ℤ) : InstanceInfo :=
  (sampleCalculator metric).computeInstanceLoad (sampleRunning numAvailableGpuBlocks)
    { instanceId := "i" }

theorem predicted_loads_iff_sample :
    (sampleLoads .remainingSteps 5).migrationLoadMetric <
      (sampleLoads .remainingSteps 5).migrationLoadMetricAfterMigrateIn := by
  have hpredicted := predicted_loads_iff (c := sampleRunning 5) (sampleCalculator .remainingSteps)
    { instanceId := "i" } (by decide) (by decide)
  exact hpredicted.2.mpr ⟨rfl, by decide⟩

/-- The usage ratio does not read what the prediction changes; and with eight blocks too few the
remaining steps go the wrong way in both directions. -/
theorem predicted_loads_go_astray :
    ((sampleLoads .usageRatio 5).migrationLoadMetricAfterMigrateOut = .fin (1 / 2) ∧
      (sampleLoads .usageRatio 5).migrationLoadMetric = .fin (1 / 2) ∧
      (sampleLoads .usageRatio 5).migrationLoadMetricAfterMigrateIn = .fin (1 / 2)) ∧
    (sampleLoads .remainingSteps (-8)).migrationLoadMetricAfterMigrateOut = .fin 5 ∧
      (sampleLoads .remainingSteps (-8)).migrationLoadMetric = .fin 4 ∧
      (sampleLoads .remainingSteps (-8)).migrationLoadMetricAfterMigrateIn = .fin (11 / 3) := by
  decide +kernel

end Migration

end Llumnix.Scheduler
