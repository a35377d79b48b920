import Mathlib.Order.Interval.Finset.Nat
import Mathlib.Data.List.Range

/-! The KV base ports of the instances that a Manager launches: the two launch loops lay them out,
and the scaling loop leaves the environment as it is. -/
namespace Llumnix.Scaling

structure EngineArgs where
  tensorParallelSize : ℕ := 1
  pipelineParallelSize : ℕ := 1

def getEngineWorldSize (a : EngineArgs) : ℕ := a.tensorParallelSize * a.pipelineParallelSize

/-- `max(int(tensor_parallel_size or 1), 1)`. -/
def kvPortStride (a : EngineArgs) : ℕ :=
  max (if a.tensorParallelSize = 0 then 1 else a.tensorParallelSize) 1

inductive LaunchMode where
  | LOCAL
  | GLOBAL
  deriving DecidableEq

inductive LaunchError where
  | runtimeError (message : String)
  deriving DecidableEq

/-- `LLUMNIX_KV_PORT` in the Manager's process, and the base ports of the actors that have been
submitted, each of which has captured the variable. -/
structure KvPorts where
  environ : Option ℕ
  globalInitialInstancesLaunched : Bool := false
  launched : List ℕ := []

namespace KvPorts

def basePort (environ : Option ℕ) : ℕ := environ.getD 14579

def launch (s : KvPorts) : KvPorts := { s with launched := s.launched ++ [basePort s.environ] }

/-- The launch loop. The variable is set for each instance and put back at the end. -/
def launchInitial (s : KvPorts) (a : EngineArgs) (initialInstances : ℕ) : KvPorts :=
  let baseKvPort := basePort s.environ
  let s' := (List.range initialInstances).foldl
    (fun s index => { s with environ := some (baseKvPort + index * kvPortStride a) }.launch) s
  { s' with environ := s.environ }

def initInstances (s : KvPorts) (a : EngineArgs) (initialInstances : ℕ) : KvPorts :=
  s.launchInitial a initialInstances

def initGlobalInstances (s : KvPorts) (mode : LaunchMode) (a : EngineArgs)
    (initialInstances : ℕ) : Except LaunchError KvPorts :=
  if s.globalInitialInstancesLaunched then .ok s
  else if mode ≠ .GLOBAL then
    .error (.runtimeError "init_global_instances is only valid for global launch")
  else .ok ({ s with globalInitialInstancesLaunched := true }.launchInitial a initialInstances)

/-- The instances that `_auto_scale_up_loop` deploys. -/
def autoScaleUp (s : KvPorts) (added : ℕ) : KvPorts := launch^[added] s

end KvPorts

/-- How the first instances of a Manager are launched. -/
inductive Initial where
  | initInstances
  | initGlobalInstances

def Initial.run (i : Initial) (s : KvPorts) (a : EngineArgs) (initialInstances : ℕ) :
    Except LaunchError KvPorts :=
  match i with
  | .initInstances => .ok (s.initInstances a initialInstances)
  | .initGlobalInstances => s.initGlobalInstances .GLOBAL a initialInstances

/-- Rank `k` binds the base port plus `k`. -/
def bound (a : EngineArgs) (basePort : ℕ) : Finset ℕ :=
  Finset.Ico basePort (basePort + getEngineWorldSize a)

def KvPorts.NoCollision (s : KvPorts) (a : EngineArgs) : Prop :=
  s.launched.Pairwise fun p q => Disjoint (bound a p) (bound a q)

section Layout
open KvPorts
variable (s : KvPorts) (a : EngineArgs)

theorem launched_launchInitial (n : ℕ) :
    (s.launchInitial a n).launched =
      s.launched ++ (List.range n).map fun i => basePort s.environ + i * kvPortStride a := by
  have hfold : ∀ (is : List ℕ) (s' : KvPorts) (base : ℕ), (is.foldl (fun s index =>
      { s with environ := some (base + index * kvPortStride a) }.launch) s').launched =
        s'.launched ++ is.map fun i => base + i * kvPortStride a := by
    intro is
    induction is with
    | nil => simp
    | cons i is ih =>
      intro s' base
      rw [List.foldl_cons, ih]
      simp [launch, basePort]
  exact hfold _ s _

theorem launched_autoScaleUp (added : ℕ) : (s.autoScaleUp added).launched =
    s.launched ++ List.replicate added (basePort s.environ) := by
  unfold autoScaleUp
  induction added generalizing s with
  | zero => simp
  | succ n ih =>
    rw [Function.iterate_succ_apply, ih]
    simp [launch, List.replicate_succ]

theorem launched_all (i : Initial) (environ : Option ℕ) (n added : ℕ) :
    ∃ s, i.run { environ := environ } a n = .ok s ∧ (s.autoScaleUp added).launched =
      (List.range n).map (fun i => basePort environ + i * kvPortStride a) ++
        List.replicate added (basePort environ) := by
  cases i with
  | initInstances =>
    refine ⟨_, rfl, ?_⟩
    rw [launched_autoScaleUp, initInstances, launched_launchInitial]
    rfl
  | initGlobalInstances =>
    refine ⟨_, rfl, ?_⟩
    rw [launched_autoScaleUp, launched_launchInitial]
    rfl

end Layout

section Disjoint
variable {a : EngineArgs}

theorem disjoint_bound_iff {p q : ℕ} : Disjoint (bound a p) (bound a q) ↔
    getEngineWorldSize a = 0 ∨ p + getEngineWorldSize a ≤ q ∨ q + getEngineWorldSize a ≤ p := by
  generalize hw : getEngineWorldSize a = w
  unfold bound
  rw [hw, Finset.disjoint_left]
  constructor
  · intro h
    by_contra hno
    have hmem : max p q ∈ Finset.Ico p (p + w) := by
      rw [Finset.mem_Ico]
      omega
    have hnot := h hmem
    rw [Finset.mem_Ico] at hnot
    omega
  · intro h k hk hk'
    rw [Finset.mem_Ico] at hk hk'
    omega

theorem not_disjoint_self (hw : getEngineWorldSize a ≠ 0) (p : ℕ) :
    ¬Disjoint (bound a p) (bound a p) := by
  rw [disjoint_bound_iff]
  omega

theorem worldSize_le_stride_iff (hw : getEngineWorldSize a ≠ 0) :
    getEngineWorldSize a ≤ kvPortStride a ↔ a.pipelineParallelSize ≤ 1 := by
  unfold getEngineWorldSize kvPortStride at *
  have htp : a.tensorParallelSize ≠ 0 := fun h => hw (by simp [h])
  rw [if_neg htp, max_eq_left (by omega)]
  constructor
  · intro h
    exact Nat.le_of_mul_le_mul_left (by omega) (Nat.pos_of_ne_zero htp)
  · intro h
    calc a.tensorParallelSize * a.pipelineParallelSize ≤ a.tensorParallelSize * 1 :=
          Nat.mul_le_mul_left _ h
      _ = a.tensorParallelSize := Nat.mul_one _

theorem pairwise_initial_iff (hw : getEngineWorldSize a ≠ 0) (base n : ℕ) :
    ((List.range n).map fun i => base + i * kvPortStride a).Pairwise
        (fun p q => Disjoint (bound a p) (bound a q)) ↔ n ≤ 1 ∨ a.pipelineParallelSize ≤ 1 := by
  rw [← worldSize_le_stride_iff hw, List.pairwise_map]
  constructor
  · intro h
    by_contra hno
    have hfirst := List.pairwise_iff_getElem.mp h 0 1 (by simp; omega) (by simp; omega) (by omega)
    simp only [List.getElem_range] at hfirst
    rw [disjoint_bound_iff] at hfirst
    omega
  · intro h
    rw [List.pairwise_iff_getElem]
    intro i j hi hj hij
    rw [List.length_range] at hi hj
    simp only [List.getElem_range]
    rw [disjoint_bound_iff]
    have hle : getEngineWorldSize a ≤ kvPortStride a := by omega
    have hstep : (i + 1) * kvPortStride a ≤ j * kvPortStride a := Nat.mul_le_mul_right _ hij
    rw [Nat.add_mul] at hstep
    omega

theorem disjoint_added_iff (hw : getEngineWorldSize a ≠ 0) (base n added : ℕ) :
    (∀ p ∈ (List.range n).map fun i => base + i * kvPortStride a,
      ∀ q ∈ List.replicate added base, Disjoint (bound a p) (bound a q)) ↔ n = 0 ∨ added = 0 := by
  constructor
  · intro h
    by_contra hno
    have hfirst : base ∈ (List.range n).map fun i => base + i * kvPortStride a := by
      rw [List.mem_map]
      exact ⟨0, List.mem_range.mpr (by omega), by simp⟩
    have hadded : base ∈ List.replicate added base := List.mem_replicate.mpr ⟨by omega, rfl⟩
    exact not_disjoint_self hw base (h base hfirst base hadded)
  · rintro (rfl | rfl) <;> simp

end Disjoint

/-- No port is bound twice if and only if there is at most one instance, or none was added and there
is one pipeline stage (or no rank at all). -/
theorem no_collision_iff (i : Initial) (environ : Option ℕ) (a : EngineArgs) (n added : ℕ) :
    ∃ s, i.run { environ := environ } a n = .ok s ∧
      ((s.autoScaleUp added).NoCollision a ↔ getEngineWorldSize a = 0 ∨ n + added ≤ 1 ∨
        added = 0 ∧ a.pipelineParallelSize ≤ 1) := by
  obtain ⟨s, hs, hlaunched⟩ := launched_all a i environ n added
  refine ⟨s, hs, ?_⟩
  unfold KvPorts.NoCollision
  rw [hlaunched]
  by_cases hw : getEngineWorldSize a = 0
  · have hall : ∀ p q, Disjoint (bound a p) (bound a q) := fun p q =>
      disjoint_bound_iff.mpr (.inl hw)
    simp [hw, hall, List.pairwise_of_forall]
  · have hself := not_disjoint_self hw (KvPorts.basePort environ)
    rw [List.pairwise_append, pairwise_initial_iff hw, List.pairwise_replicate,
      disjoint_added_iff hw]
    simp only [hw, hself, or_false, false_or]
    omega

/-- Two instances of two pipeline stages overlap, and so do the first instance and one that was
added later. -/
theorem ports_collide :
    (∃ s, Initial.initInstances.run { environ := none } { pipelineParallelSize := 2 } 2 = .ok s ∧
      ¬(s.autoScaleUp 0).NoCollision { pipelineParallelSize := 2 }) ∧
    ∃ s, Initial.initGlobalInstances.run { environ := some 20000 } {} 1 = .ok s ∧
      (s.autoScaleUp 1).launched = [20000, 20000] ∧ ¬(s.autoScaleUp 1).NoCollision {} := by
  refine ⟨⟨_, rfl, ?_⟩, ⟨_, rfl, rfl, ?_⟩⟩ <;> unfold KvPorts.NoCollision <;> decide

end Llumnix.Scaling
