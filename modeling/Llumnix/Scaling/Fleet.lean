import Llumnix.Machine.Run
import Llumnix.Scaling.Launcher
import Llumnix.Scheduler.Registries

/-! The launcher with the `done_scale_up` tasks that it has started, each at its own pace. -/
namespace Llumnix.Scaling

open Machine Python Scheduler

/-- Where `done_scale_up` is: it waits for the instance and for the server; has taken the instance
off the counts and calls `instance_ready_cb`; calls `server_ready_cb`; has ended. -/
inductive Stage
  | waiting
  | counted
  | registered
  | done
  | failed
  deriving DecidableEq

structure Task where
  deployment : Deployment
  stage : Stage
  deriving DecidableEq

/-- The launches of the type whose task has neither counted off nor failed. -/
def inFlight (tasks : List Task) (instanceType : InstanceType) : ℕ :=
  tasks.countP fun t => t.stage = .waiting ∧ t.deployment.instanceType = instanceType

structure Fleet (H : Type) where
  launcher : Launcher
  manager : Manager H
  tasks : List Task := []

/-- `proceed` and `fail` are the next step of a task; `other` is what else changes the Manager. -/
inductive FleetAction (H : Type)
  | launch (args : EntrypointsArgs) (instanceId : String) (fault : Option Fault)
  | proceed (k : ℕ) (handle : H)
  | fail (k : ℕ)
  | other (manager : Manager H)

namespace Fleet
variable {H : Type}

def start (l : Launcher) (m : Manager H) : Fleet H where
  launcher := { l with inflightNumPrefillInstance := 0, inflightNumDecodeInstance := 0 }
  manager := m

def launch (s : Fleet H) (args : EntrypointsArgs) (instanceId : String) (fault : Option Fault) :
    Fleet H :=
  match s.launcher.initServerAndInstance s.manager.globalScheduler args instanceId fault with
  | (.error _, launcher) => { s with launcher }
  | (.ok d, launcher) => { s with launcher, tasks := s.tasks ++ [⟨d, .waiting⟩] }

def moveTo (s : Fleet H) (k : ℕ) (t : Task) (stage : Stage) : Fleet H :=
  { s with tasks := s.tasks.set k { t with stage } }

/-- `self.inflight_num_... -= 1`. -/
def countOff (s : Fleet H) (t : Task) : Fleet H :=
  { s with launcher := s.launcher.count t.deployment.instanceType (-1) }

/-- `instance_ready_cb` is the `scale_up` of the Manager. -/
def register (s : Fleet H) (t : Task) (handle : H) : Fleet H :=
  { s with manager :=
      (s.manager.scaleUp [⟨t.deployment.instanceId, handle, t.deployment.instanceType⟩]).1 }

def proceed (s : Fleet H) (k : ℕ) (handle : H) : Option (Fleet H) :=
  s.tasks[k]?.bind fun t =>
    match t.stage with
    | .waiting => some ((s.countOff t).moveTo k t .counted)
    | .counted => some ((s.register t handle).moveTo k t .registered)
    | .registered => some (s.moveTo k t .done)
    | .done | .failed => none

/-- An exception at any point of the `try` block comes to the same handler. -/
def fail (s : Fleet H) (k : ℕ) : Option (Fleet H) :=
  s.tasks[k]?.bind fun t =>
    match t.stage with
    | .waiting | .counted | .registered => some ((s.countOff t).moveTo k t .failed)
    | .done | .failed => none

def step (s : Fleet H) : FleetAction H → Option (Fleet H)
  | .launch args instanceId fault => some (s.launch args instanceId fault)
  | .proceed k handle => s.proceed k handle
  | .fail k => s.fail k
  | .other manager => some { s with manager }

structure Exact (s : Fleet H) : Prop where
  prefill : s.launcher.inflightNumPrefillInstance = inFlight s.tasks .prefill
  decode : s.launcher.inflightNumDecodeInstance = inFlight s.tasks .decode
  prefill_nonneg : 0 ≤ s.launcher.inflightNumPrefillInstance
  decode_nonneg : 0 ≤ s.launcher.inflightNumDecodeInstance

/-- The action is an exception of a callback, for an instance that is counted. -/
def CallbackRaises (s : Fleet H) (a : FleetAction H) : Prop :=
  ∃ k t, a = .fail k ∧ s.tasks[k]? = some t ∧ (t.stage = .counted ∨ t.stage = .registered) ∧
    t.deployment.instanceType ≠ .noConstraints

/-! ### The counts -/

variable {s s' : Fleet H} {k : ℕ} {t : Task}

theorem exact_iff : s.Exact ↔
    s.launcher.inflightNumPrefillInstance = inFlight s.tasks .prefill ∧
      s.launcher.inflightNumDecodeInstance = inFlight s.tasks .decode :=
  ⟨fun h => ⟨h.prefill, h.decode⟩, fun h =>
    ⟨h.1, h.2, h.1 ▸ Int.natCast_nonneg _, h.2 ▸ Int.natCast_nonneg _⟩⟩

theorem exact_iff_of_counted {l : Launcher} {m : Manager H} {ts : List Task}
    {instanceType : InstanceType} {n : ℤ} (h : s.Exact)
    (hl : s.launcher.Counted l instanceType n) :
    (⟨l, m, ts⟩ : Fleet H).Exact ↔ ∀ u ≠ InstanceType.noConstraints,
      (inFlight ts u : ℤ) = inFlight s.tasks u + if instanceType = u then n else 0 := by
  rw [exact_iff]
  dsimp only
  rw [hl.prefill, hl.decode, h.prefill, h.decode]
  constructor
  · rintro ⟨hprefill, hdecode⟩ u hu
    cases u with
    | noConstraints => exact absurd rfl hu
    | prefill => exact hprefill.symm
    | decode => exact hdecode.symm
  · exact fun hall => ⟨(hall .prefill (by decide)).symm, (hall .decode (by decide)).symm⟩

theorem inFlight_concat (ts : List Task) (d : Deployment) (u : InstanceType) :
    inFlight (ts ++ [⟨d, .waiting⟩]) u = inFlight ts u + if d.instanceType = u then 1 else 0 := by
  simp [inFlight, List.countP_append, List.countP_cons]

theorem inFlight_set {ts : List Task} {stage : Stage} (hk : ts[k]? = some t)
    (hstage : stage ≠ .waiting) (u : InstanceType) :
    (inFlight (ts.set k { t with stage }) u : ℤ) =
      inFlight ts u + if t.deployment.instanceType = u ∧ t.stage = .waiting then -1 else 0 := by
  obtain ⟨hlt, rfl⟩ := List.getElem?_eq_some_iff.mp hk
  have hmem : ts[k].deployment.instanceType = u ∧ ts[k].stage = .waiting → 0 < inFlight ts u :=
    fun h => List.countP_pos_iff.mpr ⟨ts[k], List.getElem_mem hlt, by simp [h]⟩
  unfold inFlight at hmem ⊢
  rw [List.countP_set hlt]
  simp only [hstage, false_and, decide_false, Bool.false_eq_true, if_false, decide_eq_true_iff]
  split_ifs at * <;> grind

theorem exact_launch (h : s.Exact) (args : EntrypointsArgs) (instanceId : String)
    (fault : Option Fault) : (s.launch args instanceId fault).Exact := by
  unfold launch
  rcases s.launcher.init_cases s.manager.globalScheduler args instanceId fault with
    ⟨e, l, heq, hl⟩ | ⟨d, l, heq, hl⟩
  · rw [heq]
    exact (exact_iff_of_counted h (hl .noConstraints)).mpr fun u _ => by simp
  · rw [heq]
    refine (exact_iff_of_counted h hl).mpr fun u _ => ?_
    rw [inFlight_concat]
    split_ifs <;> simp

theorem exact_proceed (h : s.Exact) {handle : H} (hs : s.proceed k handle = some s') :
    s'.Exact := by
  obtain ⟨t, hk, hs⟩ := Option.bind_eq_some_iff.mp hs
  have hcounted := s.launcher.counted_count t.deployment.instanceType (-1)
  have hsame := s.launcher.counted_zero .noConstraints
  split at hs
  · rename_i hstage
    cases hs
    refine (exact_iff_of_counted h hcounted).mpr fun u _ => ?_
    simp [inFlight_set hk, hstage, countOff]
  · rename_i hstage
    cases hs
    refine (exact_iff_of_counted h hsame).mpr fun u _ => ?_
    simp [inFlight_set hk, hstage, register]
  · rename_i hstage
    cases hs
    refine (exact_iff_of_counted h hsame).mpr fun u _ => ?_
    simp [inFlight_set hk, hstage]
  · cases hs
  · cases hs

theorem fail_cases (hs : s.fail k = some s') :
    ∃ t, s.tasks[k]? = some t ∧ s' = (s.countOff t).moveTo k t .failed ∧
      (t.stage = .waiting ∨ t.stage = .counted ∨ t.stage = .registered) := by
  obtain ⟨t, hk, hs⟩ := Option.bind_eq_some_iff.mp hs
  refine ⟨t, hk, ?_⟩
  split at hs
  case h_4 | h_5 => cases hs
  all_goals simp_all

theorem exact_fail_iff (h : s.Exact) (hk : s.tasks[k]? = some t) :
    ((s.countOff t).moveTo k t .failed).Exact ↔
      t.stage = .waiting ∨ t.deployment.instanceType = .noConstraints := by
  have hcounted := s.launcher.counted_count t.deployment.instanceType (-1)
  refine (exact_iff_of_counted h hcounted).trans ?_
  simp only [countOff, inFlight_set hk (by decide : Stage.failed ≠ .waiting), add_right_inj]
  constructor
  · intro hall
    by_contra hnot
    obtain ⟨hstage, htype⟩ := not_or.mp hnot
    have := hall t.deployment.instanceType htype
    simp [hstage] at this
  · rintro (hstage | htype) u hu
    · simp [hstage]
    · simp [htype, hu.symm]

theorem exact_step_iff (h : s.Exact) (a : FleetAction H) :
    (∀ s', s.step a = some s' → s'.Exact) ↔ ¬s.CallbackRaises a := by
  cases a with
  | launch args instanceId fault =>
    refine iff_of_true (fun s' hs => ?_) (by rintro ⟨k, t, ⟨⟩, -⟩)
    cases hs
    exact exact_launch h args instanceId fault
  | proceed k handle =>
    exact iff_of_true (fun s' hs => exact_proceed h hs) (by rintro ⟨k, t, ⟨⟩, -⟩)
  | other manager =>
    refine iff_of_true (fun s' hs => ?_) (by rintro ⟨k, t, ⟨⟩, -⟩)
    cases hs
    exact ⟨h.prefill, h.decode, h.prefill_nonneg, h.decode_nonneg⟩
  | fail k =>
    constructor
    · rintro hexact ⟨_, t, ⟨⟩, hk, hstage, htype⟩
      have hs : s.step (.fail k) = some ((s.countOff t).moveTo k t .failed) := by
        rcases hstage with hstage | hstage <;> simp [step, fail, hk, hstage]
      rcases (exact_fail_iff h hk).mp (hexact _ hs) with hwaiting | hnone
      · simp [hwaiting] at hstage
      · exact htype hnone
    · intro hok s' hs
      obtain ⟨t, hk, rfl, hstage⟩ := fail_cases hs
      refine (exact_fail_iff h hk).mpr (hstage.imp_right fun hstage => ?_)
      by_contra htype
      exact hok ⟨k, t, rfl, hk, hstage, htype⟩

theorem exact_start (l : Launcher) (m : Manager H) : (start l m).Exact :=
  exact_iff.mpr ⟨rfl, rfl⟩

/-- The counts are exact at every moment exactly if no callback of a counted instance raises. -/
theorem always_exact_iff (l : Launcher) (m : Manager H) (as : List (FleetAction H)) :
    Always step Exact (start l m) as ↔
      Meets step (fun s a => ¬s.CallbackRaises a) (start l m) as :=
  always_iff_meets (I := fun _ => True) (fun _ _ _ _ _ _ _ => trivial)
    (fun _ a _ h => exact_step_iff h a) trivial (exact_start l m)

/-- An instance comes up, and its `scale_up` raises. -/
theorem count_negative : ∃ s : Fleet Unit,
    run step (start { enablePdDisagg := true } (.init false false true .load 1 .balanced (.fin 0)))
        [.launch ⟨8000, 9000⟩ "a" none, .proceed 0 (), .fail 0] = some s ∧
      inFlight s.tasks .prefill = 0 ∧ s.launcher.inflightNumPrefillInstance = -1 :=
  ⟨_, rfl, by decide, by decide⟩

end Fleet
end Llumnix.Scaling
