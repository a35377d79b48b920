import Llumnix.Scaling.Fleet
import Mathlib.Algebra.Order.Group.Abs
import Mathlib.Algebra.Order.Ring.Int

/-! Launches keep to the configured ratio of prefill and decode instances. -/
namespace Llumnix.Scaling

open Machine Python Scheduler

/-- `P` prefill and `D` decode instances in a period of `p` and `d` that is not complete, after
complete ones. -/
def InPeriod (p d P D : ℤ) : Prop :=
  ∃ k, 0 ≤ k ∧ k * p ≤ P ∧ P ≤ k * p + p ∧ k * d ≤ D ∧ D ≤ k * d + d ∧
    (P < k * p + p ∨ D < k * d + d)

section Period
variable {p d P D : ℤ}

theorem inPeriod_zero (hp : 0 < p) (hd : 0 < d) : InPeriod p d 0 0 :=
  ⟨0, le_rfl, by omega, by omega, by omega, by omega, by omega⟩

theorem min_fdiv_eq (hp : 0 < p) (hd : 0 < d) {k : ℤ} (hP : k * p ≤ P) (hD : k * d ≤ D)
    (hlt : P < k * p + p ∨ D < k * d + d) : min (P.fdiv p) (D.fdiv d) = k := by
  rw [Int.fdiv_eq_ediv_of_nonneg _ hp.le, Int.fdiv_eq_ediv_of_nonneg _ hd.le]
  have hP' : k ≤ P / p := (Int.le_ediv_iff_mul_le hp).mpr hP
  have hD' : k ≤ D / d := (Int.le_ediv_iff_mul_le hd).mpr hD
  have hone : P / p < k + 1 ∨ D / d < k + 1 := by
    rw [Int.ediv_lt_iff_lt_mul hp, Int.ediv_lt_iff_lt_mul hd, add_one_mul, add_one_mul]
    exact hlt
  omega

theorem InPeriod.addPrefill (hd : 0 < d) {k : ℤ} (hk : 0 ≤ k) (hP : k * p ≤ P)
    (hP' : P < k * p + p) (hD : k * d ≤ D) (hD' : D ≤ k * d + d) : InPeriod p d (P + 1) D := by
  by_cases hfull : P + 1 = k * p + p ∧ D = k * d + d
  · have hp : (k + 1) * p = k * p + p := add_one_mul k p
    have hd' : (k + 1) * d = k * d + d := add_one_mul k d
    exact ⟨k + 1, by omega, by omega, by omega, by omega, by omega, by omega⟩
  · exact ⟨k, hk, by omega, by omega, hD, hD', by omega⟩

theorem InPeriod.addDecode (hp : 0 < p) {k : ℤ} (hk : 0 ≤ k) (hP : k * p ≤ P)
    (hP' : P ≤ k * p + p) (hD : k * d ≤ D) (hD' : D < k * d + d) : InPeriod p d P (D + 1) := by
  by_cases hfull : P = k * p + p ∧ D + 1 = k * d + d
  · have hp' : (k + 1) * p = k * p + p := add_one_mul k p
    have hd : (k + 1) * d = k * d + d := add_one_mul k d
    exact ⟨k + 1, by omega, by omega, by omega, by omega, by omega, by omega⟩
  · exact ⟨k, hk, hP, hP', by omega, by omega, by omega⟩

theorem gap_le_iff (x y n : ℤ) : |x + 1 - y - n| ≤ |x - (y + 1) - n| ↔ x - y ≤ n := by
  rcases abs_cases (x + 1 - y - n) with ⟨hl, hl'⟩ | ⟨hl, hl'⟩ <;>
    rcases abs_cases (x - (y + 1) - n) with ⟨hr, hr'⟩ | ⟨hr, hr'⟩ <;> omega

/-- The next instance does not leave the period: a complete side is never the one that is further
behind. -/
theorem next_inPeriod {l : Launcher} (hpd : l.enablePdDisagg = true) (hratio : l.pdRatio = (p, d))
    (hp : 0 < p) (hd : 0 < d) {curNumPrefill curNumDecode : ℤ}
    (hP : l.inflightNumPrefillInstance + curNumPrefill = P)
    (hD : l.inflightNumDecodeInstance + curNumDecode = D) (h : InPeriod p d P D) :
    (l.getNextInstanceType curNumPrefill curNumDecode = .ok .prefill ∧ InPeriod p d (P + 1) D) ∨
      (l.getNextInstanceType curNumPrefill curNumDecode = .ok .decode ∧
        InPeriod p d P (D + 1)) := by
  obtain ⟨k, hk, hPk, hPk', hDk, hDk', hlt⟩ := h
  have hbase := min_fdiv_eq hp hd hPk hDk hlt
  have hprefill : P < k * p + p → InPeriod p d (P + 1) D := fun hPlt =>
    .addPrefill hd hk hPk hPlt hDk hDk'
  have hdecode : D < k * d + d → InPeriod p d P (D + 1) := fun hDlt =>
    .addDecode hp hk hPk hPk' hDk hDlt
  have hkp : 0 ≤ k * p := Int.mul_nonneg hk hp.le
  have hkd : 0 ≤ k * d := Int.mul_nonneg hk hd.le
  unfold Launcher.getNextInstanceType
  simp only [hP, hD, hpd, hratio, hbase, gap_le_iff, Bool.not_true, Bool.false_eq_true, if_false]
  split_ifs with hPzero hDzero hzero hboth hgap
  · exact .inl ⟨rfl, hprefill (by omega)⟩
  · exact .inr ⟨rfl, hdecode (by omega)⟩
  · omega
  · exact .inl ⟨rfl, hprefill (by omega)⟩
  · exact .inl ⟨rfl, hprefill (by omega)⟩
  · exact .inr ⟨rfl, hdecode (by omega)⟩

end Period

/-- A launch that Ray carries out, under a new id, or a task that runs to its end. The task does not
suspend once its instance and its server are ready, so nothing comes in between. -/
inductive Move (H : Type)
  | launch (args : EntrypointsArgs) (instanceId : String)
  | complete (k : ℕ) (handle : H)

def launches {H : Type} (as : List (Move H)) : ℕ :=
  as.countP fun | .launch _ _ => true | .complete _ _ => false

namespace Fleet
variable {H : Type}

def complete (s : Fleet H) (k : ℕ) (handle : H) : Option (Fleet H) :=
  s.tasks[k]?.bind fun t =>
    if t.stage = .waiting then some (((s.countOff t).register t handle).moveTo k t .done) else none

def move (s : Fleet H) : Move H → Option (Fleet H)
  | .launch args instanceId =>
    if instanceId ∈ s.tasks.map (·.deployment.instanceId) then none
    else some (s.launch args instanceId none)
  | .complete k handle => s.complete k handle

def launched (s : Fleet H) (instanceType : InstanceType) : ℕ :=
  s.tasks.countP (·.deployment.instanceType = instanceType)

/-- `available_dispatch_instance_set`. -/
def available (s : Fleet H) : Finset String :=
  s.manager.globalScheduler.dispatchScheduler.availableDispatchInstanceSet

def ids (s : Fleet H) : Finset String := s.manager.globalScheduler.instanceIdSet

/-- The instances that are in flight or registered are those that have been launched. -/
structure Tallied (p d : ℤ) (s : Fleet H) : Prop where
  enablePdDisagg : s.launcher.enablePdDisagg = true
  enableEnginePdDisagg : s.launcher.enableEnginePdDisagg = false
  pdRatio : s.launcher.pdRatio = (p, d)
  prefill : s.launcher.inflightNumPrefillInstance + s.available.card = s.launched .prefill
  decode : s.launcher.inflightNumDecodeInstance +
    (s.ids \ s.available).card = s.launched .decode
  typed : ∀ t ∈ s.tasks, t.deployment.instanceType ≠ .noConstraints
  nodup : (s.tasks.map (·.deployment.instanceId)).Nodup
  registered : ∀ i, i ∈ s.ids ∨ i ∈ s.available →
    ∃ t ∈ s.tasks, t.deployment.instanceId = i ∧ t.stage ≠ .waiting
  inPeriod : InPeriod p d (s.launched .prefill) (s.launched .decode)

variable {s s' : Fleet H} {p d : ℤ}

theorem tallied_start {l : Launcher} (hpd : l.enablePdDisagg = true)
    (hengine : l.enableEnginePdDisagg = false) (hratio : l.pdRatio = (p, d)) (hp : 0 < p)
    (hd : 0 < d) {m : Manager H} (hids : m.globalScheduler.instanceIdSet = ∅)
    (havail : m.globalScheduler.dispatchScheduler.availableDispatchInstanceSet = ∅) :
    Tallied p d (start l m) where
  enablePdDisagg := hpd
  enableEnginePdDisagg := hengine
  pdRatio := hratio
  prefill := by simp [start, available, havail, launched]
  decode := by simp [start, ids, hids, launched]
  typed := by simp [start]
  nodup := List.nodup_nil
  registered i hi := by simp [start, ids, available, hids, havail] at hi
  inPeriod := inPeriod_zero hp hd

theorem launched_concat (l : Launcher) (dep : Deployment) (u : InstanceType) :
    ({ s with launcher := l, tasks := s.tasks ++ [⟨dep, .waiting⟩] } : Fleet H).launched u =
      s.launched u + if dep.instanceType = u then 1 else 0 := by
  simp [launched, List.countP_append, List.countP_cons]

theorem Tallied.concat (h : Tallied p d s) {l : Launcher} {dep : Deployment}
    (hl : s.launcher.Counted l dep.instanceType 1) (htype : dep.instanceType ≠ .noConstraints)
    (hnew : dep.instanceId ∉ s.tasks.map (·.deployment.instanceId))
    (hperiod : InPeriod p d (s.launched .prefill + if dep.instanceType = .prefill then 1 else 0)
      (s.launched .decode + if dep.instanceType = .decode then 1 else 0)) :
    Tallied p d { s with launcher := l, tasks := s.tasks ++ [⟨dep, .waiting⟩] } where
  enablePdDisagg := hl.enablePdDisagg.trans h.enablePdDisagg
  enableEnginePdDisagg := hl.enableEnginePdDisagg.trans h.enableEnginePdDisagg
  pdRatio := hl.pdRatio.trans h.pdRatio
  prefill := by
    rw [launched_concat, hl.prefill, Nat.cast_add, ← h.prefill, Nat.cast_ite]
    exact Int.add_right_comm _ _ _
  decode := by
    rw [launched_concat, hl.decode, Nat.cast_add, ← h.decode, Nat.cast_ite]
    exact Int.add_right_comm _ _ _
  typed t ht := by
    rcases List.mem_append.mp ht with ht | ht
    · exact h.typed t ht
    · rw [List.mem_singleton.mp ht]
      exact htype
  nodup := by
    rw [List.map_append, List.map_singleton, ← List.concat_eq_append]
    exact h.nodup.concat hnew
  registered i hi := by
    obtain ⟨t, ht, hti⟩ := h.registered i hi
    exact ⟨t, List.mem_append_left _ ht, hti⟩
  inPeriod := by
    rw [launched_concat, launched_concat]
    push_cast
    exact hperiod

theorem Tallied.launch (hp : 0 < p) (hd : 0 < d) (h : Tallied p d s) (args : EntrypointsArgs)
    {instanceId : String} (hnew : instanceId ∉ s.tasks.map (·.deployment.instanceId)) :
    Tallied p d (s.launch args instanceId none) ∧
      (s.launch args instanceId none).tasks.length = s.tasks.length + 1 := by
  have hargs : s.launcher.getNextInstanceArgs s.manager.globalScheduler =
      s.launcher.getNextInstanceType s.available.card (s.ids \ s.available).card := by
    rw [Launcher.getNextInstanceArgs, h.enableEnginePdDisagg]
    rfl
  rcases next_inPeriod h.enablePdDisagg h.pdRatio hp hd h.prefill h.decode h.inPeriod with
    ⟨hnext, hperiod⟩ | ⟨hnext, hperiod⟩
  all_goals
    obtain ⟨dep, l, hinit, rfl, htype, hl⟩ :=
      Launcher.init_of_next (hargs.trans hnext) args instanceId
    rw [Fleet.launch, hinit]
    rw [← htype] at hl
    refine ⟨h.concat hl (by simp [htype]) hnew ?_, List.length_append⟩
    simpa [htype] using hperiod

/-! ### Completions -/

theorem complete_cases {k : ℕ} {handle : H} (h : s.complete k handle = some s') :
    ∃ t, s.tasks[k]? = some t ∧ t.stage = .waiting ∧
      s' = ((s.countOff t).register t handle).moveTo k t .done := by
  obtain ⟨t, hk, h⟩ := Option.bind_eq_some_iff.mp h
  split_ifs at h with hstage
  exact ⟨t, hk, hstage, (Option.some.inj h).symm⟩

theorem proceed_moveTo {k : ℕ} {t : Task} {stage : Stage} (hk : k < s.tasks.length) (handle : H) :
    (s.moveTo k t stage).proceed k handle =
      match stage with
      | .waiting => some ((s.countOff t).moveTo k t .counted)
      | .counted => some ((s.register t handle).moveTo k t .registered)
      | .registered => some (s.moveTo k t .done)
      | .done | .failed => none := by
  have hget : (s.moveTo k t stage).tasks[k]? = some { t with stage } := List.getElem?_set_self hk
  rw [proceed, hget]
  cases stage <;> simp [moveTo, countOff, register]

theorem run_of_complete {k : ℕ} {handle : H} (h : s.complete k handle = some s') :
    run step s [.proceed k handle, .proceed k handle, .proceed k handle] = some s' := by
  obtain ⟨t, hk, hstage, rfl⟩ := complete_cases h
  have hlt : k < s.tasks.length := (List.getElem?_eq_some_iff.mp hk).1
  have hfirst : s.proceed k handle = some ((s.countOff t).moveTo k t .counted) := by
    simp only [proceed, hk, hstage, Option.bind_some]
  simp only [run, step, hfirst, Option.bind_some, proceed_moveTo (s := s.countOff t) hlt,
    proceed_moveTo (s := (s.countOff t).register t handle) hlt]

theorem map_deployment_moveTo {k : ℕ} {t : Task} (hk : s.tasks[k]? = some t) (stage : Stage) :
    (s.moveTo k t stage).tasks.map (·.deployment) = s.tasks.map (·.deployment) := by
  refine List.ext_getElem? fun j => ?_
  rw [List.getElem?_map, List.getElem?_map, moveTo, List.getElem?_set]
  split_ifs with hj hlt
  · rw [← hj, hk]
    rfl
  · rw [← hj, List.getElem?_eq_none (Nat.le_of_not_lt hlt)]
  · rfl

theorem launched_eq (s : Fleet H) (u : InstanceType) :
    s.launched u = (s.tasks.map (·.deployment)).countP (·.instanceType = u) := by
  rw [List.countP_map]
  rfl

theorem scaleUpOne_sets {g : GlobalScheduler} {i : String} {u : InstanceType}
    (hi : i ∉ g.instanceIdSet) (hu : u ≠ .noConstraints) :
    (g.scaleUpOne i u).instanceIdSet = insert i g.instanceIdSet ∧
      (g.scaleUpOne i u).dispatchScheduler.availableDispatchInstanceSet =
        if u = .prefill then insert i g.dispatchScheduler.availableDispatchInstanceSet
        else g.dispatchScheduler.availableDispatchInstanceSet := by
  rw [GlobalScheduler.scaleUpOne, if_neg hi]
  refine ⟨rfl, ?_⟩
  dsimp only [GlobalScheduler.addInstance]
  unfold DispatchScheduler.addInstance
  simp only [hu, false_or]
  split_ifs <;> rfl

theorem Tallied.unregistered (h : Tallied p d s) {k : ℕ} {t : Task} (hk : s.tasks[k]? = some t)
    (hstage : t.stage = .waiting) :
    t.deployment.instanceId ∉ s.ids ∧ t.deployment.instanceId ∉ s.available := by
  have hnone : ¬(t.deployment.instanceId ∈ s.ids ∨ t.deployment.instanceId ∈ s.available) := by
    intro hin
    obtain ⟨t', ht', hid, hnot⟩ := h.registered _ hin
    rw [List.inj_on_of_nodup_map h.nodup ht' (List.mem_of_getElem? hk) hid] at hnot
    exact hnot hstage
  exact not_or.mp hnone

theorem card_available {A B : Finset String} {i : String} (hB : i ∉ B) {u : InstanceType}
    (h : A = if u = .prefill then insert i B else B) :
    (A.card : ℤ) = B.card + if u = .prefill then 1 else 0 := by
  subst h
  split_ifs
  · rw [Finset.card_insert_of_notMem hB]
    push_cast
    rfl
  · rw [add_zero]

theorem card_unavailable {ids A B : Finset String} {i : String} (hi : i ∉ ids) (hB : i ∉ B)
    {u : InstanceType} (hu : u ≠ .noConstraints) (h : A = if u = .prefill then insert i B else B) :
    ((insert i ids \ A).card : ℤ) = (ids \ B).card + if u = .decode then 1 else 0 := by
  subst h
  cases u with
  | noConstraints => exact absurd rfl hu
  | prefill =>
    have hsame : insert i ids \ insert i B = ids \ B := by
      rw [Finset.insert_sdiff_of_mem _ (Finset.mem_insert_self i B),
        Finset.sdiff_insert_of_notMem hi]
    simp [hsame]
  | decode =>
    have hone : insert i ids \ B = insert i (ids \ B) := Finset.insert_sdiff_of_notMem _ hB
    have hnot : i ∉ ids \ B := fun h => hi (Finset.mem_sdiff.mp h).1
    simp [hone, Finset.card_insert_of_notMem hnot]

theorem Tallied.complete (h : Tallied p d s) {k : ℕ} {handle : H}
    (hs : s.complete k handle = some s') :
    Tallied p d s' ∧ s'.tasks.length = s.tasks.length := by
  obtain ⟨t, hk, hstage, hs'⟩ := complete_cases hs
  obtain ⟨hids, havail⟩ := h.unregistered hk hstage
  have htype := h.typed t (List.mem_of_getElem? hk)
  have hscheduler : s'.manager.globalScheduler = s.manager.globalScheduler.scaleUpOne
      t.deployment.instanceId t.deployment.instanceType := by
    rw [hs']
    exact globalScheduler_scaleUp _ _
  obtain ⟨hsetIds, hsetAvail⟩ := scaleUpOne_sets hids htype
  have hids' : s'.ids = insert t.deployment.instanceId s.ids := by
    rw [ids, hscheduler, hsetIds]
    rfl
  have havail' : s'.available =
      if t.deployment.instanceType = .prefill then insert t.deployment.instanceId s.available
      else s.available := by
    rw [available, hscheduler, hsetAvail]
    rfl
  have hmap : s'.tasks.map (·.deployment) = s.tasks.map (·.deployment) := by
    rw [hs']
    exact map_deployment_moveTo hk .done
  have hcount : s.launcher.Counted s'.launcher t.deployment.instanceType (-1) := by
    rw [hs']
    exact s.launcher.counted_count t.deployment.instanceType (-1)
  have hlaunched : ∀ u, s'.launched u = s.launched u := by
    intro u
    rw [launched_eq, launched_eq, hmap]
  have hlength : s'.tasks.length = s.tasks.length := by
    simpa only [List.length_map] using congrArg List.length hmap
  have hmapIds : s'.tasks.map (·.deployment.instanceId) =
      s.tasks.map (·.deployment.instanceId) := by
    simpa only [List.map_map, Function.comp_def] using
      congrArg (List.map Deployment.instanceId) hmap
  refine ⟨⟨hcount.enablePdDisagg.trans h.enablePdDisagg,
    hcount.enableEnginePdDisagg.trans h.enableEnginePdDisagg, hcount.pdRatio.trans h.pdRatio,
    ?prefill, ?decode, ?typed, ?nodup, ?registered, ?inPeriod⟩, hlength⟩
  case prefill =>
    rw [hlaunched, ← h.prefill, hcount.prefill, card_available havail havail']
    split_ifs <;> omega
  case decode =>
    rw [hlaunched, ← h.decode, hcount.decode, hids', card_unavailable hids havail htype havail']
    split_ifs <;> omega
  case typed =>
    have hall : ∀ dep ∈ s'.tasks.map (·.deployment), dep.instanceType ≠ .noConstraints := by
      rw [hmap]
      exact List.forall_mem_map.mpr h.typed
    exact fun t' ht' => hall t'.deployment (List.mem_map_of_mem ht')
  case nodup =>
    rw [hmapIds]
    exact h.nodup
  case registered =>
    intro i hi
    have hold : i = t.deployment.instanceId ∨ i ∈ s.ids ∨ i ∈ s.available := by
      rw [hids', havail'] at hi
      split_ifs at hi <;> simp only [Finset.mem_insert] at hi <;> tauto
    have hdone : { t with stage := .done } ∈ s'.tasks := by
      rw [hs']
      exact List.mem_set (List.getElem?_eq_some_iff.mp hk).1 _
    rcases hold with rfl | hold
    · exact ⟨_, hdone, rfl, by simp⟩
    · obtain ⟨t', ht', hid, hnot⟩ := h.registered i hold
      obtain ⟨j, hj⟩ := List.mem_iff_getElem?.mp ht'
      have hne : k ≠ j := by
        rintro rfl
        rw [Option.some.inj (hk.symm.trans hj)] at hstage
        exact hnot hstage
      refine ⟨t', List.mem_iff_getElem?.mpr ⟨j, ?_⟩, hid, hnot⟩
      rw [hs']
      exact (List.getElem?_set_ne hne).trans hj
  case inPeriod =>
    rw [hlaunched, hlaunched]
    exact h.inPeriod

/-! ### Runs -/

theorem Tallied.run (hp : 0 < p) (hd : 0 < d) {as : List (Move H)} (h : Tallied p d s)
    (hrun : Machine.run move s as = some s') :
    Tallied p d s' ∧ s'.tasks.length = s.tasks.length + launches as := by
  induction as generalizing s with
  | nil =>
    cases hrun
    exact ⟨h, rfl⟩
  | cons a as ih =>
    obtain ⟨t, ht, hrest⟩ := Option.bind_eq_some_iff.mp hrun
    cases a with
    | launch args instanceId =>
      dsimp only [move] at ht
      split_ifs at ht with hnew
      obtain ⟨hstep, hlength⟩ := h.launch hp hd args hnew
      cases ht
      obtain ⟨hend, htasks⟩ := ih hstep hrest
      refine ⟨hend, ?_⟩
      rw [htasks, hlength, launches, launches, List.countP_cons_of_pos rfl]
      omega
    | complete k handle =>
      obtain ⟨hstep, hlength⟩ := h.complete ht
      obtain ⟨hend, htasks⟩ := ih hstep hrest
      refine ⟨hend, ?_⟩
      rw [htasks, hlength]
      rfl

theorem launched_add_launched (h : ∀ t ∈ s.tasks, t.deployment.instanceType ≠ .noConstraints) :
    s.launched .prefill + s.launched .decode = s.tasks.length := by
  unfold launched
  generalize s.tasks = ts at h ⊢
  induction ts with
  | nil => rfl
  | cons t ts ih =>
    have hrest := ih fun t' ht' => h t' (List.mem_cons_of_mem t ht')
    have htype := h t List.mem_cons_self
    cases hu : t.deployment.instanceType with
    | noConstraints => exact absurd hu htype
    | prefill => simp [hu]; omega
    | decode => simp [hu]; omega

/-- Launches and completions in any order keep to the ratio: exactly after complete periods, and
within the period otherwise. -/
theorem launches_keep_ratio (l : Launcher) (hpd : l.enablePdDisagg = true)
    (hengine : l.enableEnginePdDisagg = false) (p d : ℕ) (hp : 1 ≤ p) (hd : 1 ≤ d)
    (hratio : l.pdRatio = (↑p, ↑d)) (m : Manager H)
    (hids : m.globalScheduler.instanceIdSet = ∅)
    (havail : m.globalScheduler.dispatchScheduler.availableDispatchInstanceSet = ∅)
    (as : List (Move H)) (s : Fleet H) (hrun : Machine.run move (start l m) as = some s) :
    s.launched .prefill + s.launched .decode = launches as ∧
      (∀ k, launches as = k * (p + d) → s.launched .prefill = k * p ∧ s.launched .decode = k * d) ∧
      ∀ k, k * (p + d) ≤ launches as → launches as < (k + 1) * (p + d) →
        (k * p ≤ s.launched .prefill ∧ s.launched .prefill ≤ (k + 1) * p) ∧
        (k * d ≤ s.launched .decode ∧ s.launched .decode ≤ (k + 1) * d) := by
  have hstart := tallied_start hpd hengine hratio (by omega) (by omega) hids havail
  obtain ⟨hend, hlength⟩ := hstart.run (by omega) (by omega) hrun
  have htotal : s.launched .prefill + s.launched .decode = launches as := by
    rw [launched_add_launched hend.typed, hlength]
    exact Nat.zero_add _
  have hperiod : ∀ k, k * (p + d) ≤ launches as → launches as < (k + 1) * (p + d) →
      (k * p ≤ s.launched .prefill ∧ s.launched .prefill ≤ (k + 1) * p) ∧
      (k * d ≤ s.launched .decode ∧ s.launched .decode ≤ (k + 1) * d) := by
    intro k hk hk'
    obtain ⟨j, hj, hP, hP', hD, hD', hlt⟩ := hend.inPeriod
    obtain ⟨j, rfl⟩ := Int.eq_ofNat_of_zero_le hj
    norm_cast at hP hP' hD hD' hlt
    have hsame : j = k := by
      have hlo : j * (p + d) ≤ launches as := by rw [Nat.mul_add]; omega
      have hhi : launches as < (j + 1) * (p + d) := by
        rw [Nat.succ_mul, Nat.mul_add]
        omega
      rw [← Nat.div_eq_of_lt_le hlo hhi, Nat.div_eq_of_lt_le hk hk']
    subst hsame
    rw [Nat.succ_mul, Nat.succ_mul]
    exact ⟨⟨hP, hP'⟩, hD, hD'⟩
  refine ⟨htotal, fun k hk => ?_, hperiod⟩
  have hpos : 0 < p + d := by omega
  have := hperiod k hk.ge (by rw [hk, Nat.succ_mul]; omega)
  rw [Nat.mul_add] at hk
  omega

def twoToOne : Launcher := { enablePdDisagg := true, pdRatio := (2, 1) }

/-- Two of the first three instances are ready when the fourth is launched. -/
def sampleMoves : List (Move Unit) :=
  [.launch ⟨8000, 9000⟩ "a", .launch ⟨8000, 9000⟩ "b", .complete 1 (), .launch ⟨8000, 9000⟩ "c",
    .complete 0 (), .launch ⟨8000, 9000⟩ "d"]

theorem launches_keep_ratio_sample : ∃ s : Fleet Unit,
    Machine.run move (start twoToOne (.init false false true .load 1 .balanced (.fin 0)))
        sampleMoves = some s ∧
      1 * 2 ≤ s.launched .prefill ∧ s.launched .prefill ≤ (1 + 1) * 2 := by
  obtain ⟨s, hrun⟩ : ∃ s, Machine.run move (start twoToOne
      (.init false false true .load 1 .balanced (.fin 0))) sampleMoves = some s := ⟨_, rfl⟩
  have hratio := launches_keep_ratio twoToOne rfl rfl 2 1 (by decide) (by decide) rfl _ rfl rfl
    sampleMoves s hrun
  exact ⟨s, hrun, (hratio.2.2 1 (by decide) (by decide)).1⟩

end Fleet
end Llumnix.Scaling
