import Llumnix.Scheduler.Pools

/-! Whether dispatch returns. The Manager waits until there is an instance; dispatch needs one that
takes ordinary requests. -/
namespace Llumnix.Scheduler

open Python

variable {H : Type}

namespace DispatchScheduler
variable {d : DispatchScheduler} {round : ℚ → Number} {i : String}

/-! ### What the policies return -/

theorem chooseAmong_zero {κ : Type} [LT κ] [DecidableRel (α := κ) (β := κ) (· < ·)]
    (key : InstanceInfo → κ) (drawn : ℕ) (infos : List InstanceInfo) :
    chooseAmong key 0 drawn (.infos infos) = .error .indexError := by
  simp [chooseAmong, randomChoiceFromTopK, Except.map]

theorem policyDispatch_zero (hload : d.dispatchPolicy.ByLoad) (htopk : d.topkRandomDispatch = 0)
    (infos : List InstanceInfo) (drawn : ℕ) :
    d.policyDispatch (.infos infos) drawn = .error .indexError := by
  unfold policyDispatch
  rcases hload with hp | hp <;> rw [hp, htopk]
  · exact chooseAmong_zero _ drawn infos
  · exact chooseAmong_zero _ drawn infos

theorem mem_of_chooseCounted {better : ℕ → ℕ → Bool} (h : d.chooseCounted better = .ok i) :
    i ∈ d.instanceNumRequests := by
  unfold chooseCounted at h
  split at h
  · rename_i e he
    cases h
    exact Dict.mem_of_item (mem_of_extreme he)
  · cases h

theorem chooseCounted_isOk (better : ℕ → ℕ → Bool) (h : i ∈ d.instanceNumRequests) :
    ∃ j, d.chooseCounted better = .ok j := by
  obtain ⟨v, hv⟩ := Dict.item_of_mem h
  obtain ⟨e, he⟩ := extreme_isSome (fun e f : String × ℕ => better e.2 f.2)
    (List.ne_nil_of_mem hv)
  exact ⟨e.1, by rw [chooseCounted, he]⟩

theorem curInstanceIdx_lt (h : d.instanceNumRequests.keys ≠ []) :
    d.curInstanceIdx.toNat < (d.instanceNumRequests.keys.insertionSort (· ≤ ·)).length := by
  have hlen : 0 < d.instanceNumRequests.keys.length := List.length_pos_iff.mpr h
  have hnonneg := Int.emod_nonneg (d.prevInstanceIdx + 1)
    (b := d.instanceNumRequests.keys.length) (by omega)
  have hlt := Int.emod_lt_of_pos (d.prevInstanceIdx + 1)
    (b := d.instanceNumRequests.keys.length) (by omega)
  rw [List.length_insertionSort]
  unfold curInstanceIdx
  omega

theorem chooseNext_eq (h : d.instanceNumRequests.keys ≠ []) :
    d.chooseNext = .ok ((d.instanceNumRequests.keys.insertionSort (· ≤ ·)).get
      ⟨d.curInstanceIdx.toNat, curInstanceIdx_lt h⟩) := by
  unfold chooseNext
  rw [List.getElem?_eq_getElem (curInstanceIdx_lt h)]
  rfl

theorem mem_of_chooseNext (h : d.chooseNext = .ok i) : i ∈ d.instanceNumRequests := by
  unfold chooseNext at h
  split at h
  · rename_i j hj
    cases h
    exact (List.mem_insertionSort _).mp (List.mem_of_getElem? hj)
  · cases h

theorem mem_of_counted (h : d.counted = .ok i) : i ∈ d.instanceNumRequests := by
  by_cases hload : d.dispatchPolicy.ByLoad
  · rw [counted_byLoad hload] at h
    cases h
  · unfold counted policyDispatch at h
    cases hp : d.dispatchPolicy with
    | flood => exact mem_of_chooseCounted (by rwa [hp] at h)
    | balanced => exact mem_of_chooseCounted (by rwa [hp] at h)
    | load => exact absurd (.inl hp) hload
    | queue => exact absurd (.inr hp) hload
    | rr => exact mem_of_chooseNext (by rwa [hp] at h)

theorem counted_isOk (hload : ¬d.dispatchPolicy.ByLoad) (h : i ∈ d.instanceNumRequests) :
    ∃ j, d.counted = .ok j := by
  unfold counted policyDispatch
  cases hp : d.dispatchPolicy with
  | flood => exact chooseCounted_isOk _ h
  | balanced => exact chooseCounted_isOk _ h
  | load => exact absurd (.inl hp) hload
  | queue => exact absurd (.inr hp) hload
  | rr => exact ⟨_, chooseNext_eq (List.ne_nil_of_mem h)⟩

theorem mem_of_policyDispatch {infos : List InstanceInfo} {drawn : ℕ} (hne : infos ≠ [])
    (h : d.policyDispatch (.infos infos) drawn = .ok i) :
    (∃ info ∈ infos, info.instanceId = i) ∨ i ∈ d.instanceNumRequests := by
  by_cases hload : d.dispatchPolicy.ByLoad
  · by_cases htopk : d.topkRandomDispatch = 0
    · rw [policyDispatch_zero hload htopk] at h
      cases h
    · obtain ⟨info, hmem, hok⟩ := policyDispatch_byLoad hload (Nat.pos_of_ne_zero htopk) drawn hne
      rw [hok] at h
      cases h
      exact .inl ⟨info, hmem, rfl⟩
  · rw [policyDispatch_counted hload] at h
    exact .inr (mem_of_counted h)

/-! ### What a dispatch does -/

/-- The known instances that take ordinary requests. -/
def pool (d : DispatchScheduler) : List InstanceInfo :=
  d.instanceInfo.values.filter (·.instanceId ∈ d.availableDispatchInstanceSet)

theorem availableAmong_pool (d : DispatchScheduler) :
    d.availableAmong (d.pool.map (·.instanceId)) = d.pool := by
  refine List.filter_congr fun info hinfo => ?_
  rw [decide_eq_decide]
  constructor
  · intro hmem
    obtain ⟨other, hother, heq⟩ := List.mem_map.mp hmem
    rw [← heq]
    simpa using (List.mem_filter.mp hother).2
  · exact fun hmem => List.mem_map_of_mem (List.mem_filter.mpr ⟨hinfo, by simpa using hmem⟩)

theorem dispatch_of_pool_eq_nil (hpool : d.pool = []) (blockHashes : List String) (drawn : ℕ) :
    d.dispatch round blockHashes drawn =
      (d.policyDispatch (.ids d.availableDispatchInstanceSet) drawn, d.afterPolicy) := by
  unfold dispatch
  rw [show d.instanceInfo.values.filter (·.instanceId ∈ d.availableDispatchInstanceSet) = [] from
    hpool]

def tallied (d : DispatchScheduler) : DispatchScheduler :=
  { d with totalNumRequests := d.totalNumRequests + 1 }

theorem policyDispatch_tallied (d : DispatchScheduler) :
    d.tallied.policyDispatch = d.policyDispatch := rfl

theorem dispatch_of_pool_ne_nil (hne : d.pool ≠ []) (blockHashes : List String) (drawn : ℕ) :
    d.dispatch round blockHashes drawn =
      match d.tallied.choose round d.pool blockHashes drawn with
      | (.ok i, s) => (.ok i, s.count i)
      | (.error e, s) => (.error e, s) := by
  have havail := d.availableAmong_pool
  unfold dispatch
  cases hpool : d.pool with
  | nil => exact absurd hpool hne
  | cons info infos =>
    rw [hpool] at havail
    rw [show d.instanceInfo.values.filter (·.instanceId ∈ d.availableDispatchInstanceSet) =
      info :: infos from hpool]
    dsimp only
    unfold dispatchCandidates
    rw [show d.instanceInfo.values.filter
      (·.instanceId ∈ (info :: infos).map (·.instanceId)) = info :: infos from havail]
    rfl

theorem instanceNumRequests_afterPolicy (d : DispatchScheduler) :
    d.afterPolicy.instanceNumRequests = d.instanceNumRequests := by
  unfold afterPolicy
  split <;> rfl

theorem instanceNumRequests_choose (d : DispatchScheduler) (round : ℚ → Number)
    (available : List InstanceInfo) (blockHashes : List String) (drawn : ℕ) :
    (d.choose round available blockHashes drawn).2.instanceNumRequests =
      d.instanceNumRequests := by
  unfold choose
  dsimp only
  split
  · split
    · split
      · rfl
      · exact instanceNumRequests_afterPolicy d
    · rfl
  · exact instanceNumRequests_afterPolicy d

theorem mem_of_dispatch {blockHashes : List String} {drawn : ℕ}
    (hok : (d.dispatch round blockHashes drawn).1 = .ok i) :
    i ∈ d.availableDispatchInstanceSet ∨ i ∈ d.instanceNumRequests := by
  by_cases hpool : d.pool = []
  · rw [dispatch_of_pool_eq_nil hpool] at hok
    by_cases hload : d.dispatchPolicy.ByLoad
    · unfold policyDispatch at hok
      rcases hload with hp | hp <;> rw [hp] at hok <;> cases hok
    · rw [policyDispatch_counted hload] at hok
      exact .inr (mem_of_counted hok)
  · rw [dispatch_of_pool_ne_nil hpool] at hok
    have hchosen : (d.tallied.choose round d.pool blockHashes drawn).1 = .ok i := by
      split at hok <;> rename_i heq <;> rw [heq] <;> exact hok
    rcases choose_cases _ round hpool blockHashes drawn with
      ⟨info, hmem, heq⟩ | ⟨infos, hne, hsub, heq⟩
    · rw [heq] at hchosen
      cases hchosen
      exact .inl (by simpa using (List.mem_filter.mp hmem).2)
    · rw [heq] at hchosen
      rcases mem_of_policyDispatch hne hchosen with ⟨info, hmem, rfl⟩ | hmem
      · exact .inl (by simpa using (List.mem_filter.mp (hsub hmem)).2)
      · exact .inr hmem

theorem mem_instanceNumRequests_dispatchCandidates (d : DispatchScheduler) (round : ℚ → Number)
    (ids blockHashes : List String) (drawn : ℕ) (j : String) :
    (j ∈ d.instanceNumRequests →
        j ∈ (d.dispatchCandidates round ids blockHashes drawn).2.instanceNumRequests) ∧
      (j ∈ (d.dispatchCandidates round ids blockHashes drawn).2.instanceNumRequests →
        j ∈ d.instanceNumRequests ∨
          (d.dispatchCandidates round ids blockHashes drawn).1 = .ok j) := by
  unfold dispatchCandidates
  split
  · exact ⟨id, .inl⟩
  · rename_i info infos _
    have hchoose := instanceNumRequests_choose d.tallied round (info :: infos) blockHashes drawn
    unfold tallied at hchoose
    dsimp only
    split <;> rename_i heq <;> rw [heq] at hchoose
    · change (_ → j ∈ Dict.set _ _ _) ∧ (j ∈ Dict.set _ _ _ → _)
      rw [Dict.mem_set, hchoose]
      refine ⟨.inr, ?_⟩
      rintro (rfl | hj)
      · exact .inr rfl
      · exact .inl hj
    · dsimp only at hchoose ⊢
      rw [hchoose]
      exact ⟨id, .inl⟩

theorem mem_instanceNumRequests_dispatch (d : DispatchScheduler) (round : ℚ → Number)
    (blockHashes : List String) (drawn : ℕ) (j : String) :
    (j ∈ d.instanceNumRequests → j ∈ (d.dispatch round blockHashes drawn).2.instanceNumRequests) ∧
      (j ∈ (d.dispatch round blockHashes drawn).2.instanceNumRequests →
        j ∈ d.instanceNumRequests ∨ (d.dispatch round blockHashes drawn).1 = .ok j) := by
  unfold dispatch
  split
  · dsimp only
    rw [instanceNumRequests_afterPolicy]
    exact ⟨id, .inl⟩
  · exact mem_instanceNumRequests_dispatchCandidates d round _ blockHashes drawn j

theorem dispatch_isOk (round : ℚ → Number) (hpool : d.pool ≠ [])
    (htopk : d.dispatchPolicy.ByLoad → 0 < d.topkRandomDispatch)
    (hkeys : ¬d.dispatchPolicy.ByLoad → d.instanceNumRequests.keys ≠ [])
    (blockHashes : List String) (drawn : ℕ) :
    ∃ j, (d.dispatch round blockHashes drawn).1 = .ok j := by
  rw [dispatch_of_pool_ne_nil hpool]
  have hchoose : ∃ j, (d.tallied.choose round d.pool blockHashes drawn).1 = .ok j := by
    rcases choose_cases _ round hpool blockHashes drawn with
      ⟨info, -, heq⟩ | ⟨infos, hne, -, heq⟩
    · exact ⟨_, heq⟩
    · rw [heq, policyDispatch_tallied]
      by_cases hload : d.dispatchPolicy.ByLoad
      · obtain ⟨info, -, hok⟩ := policyDispatch_byLoad hload (htopk hload) drawn hne
        exact ⟨_, hok⟩
      · rw [policyDispatch_counted hload]
        obtain ⟨j, hj⟩ := List.exists_mem_of_ne_nil _ (hkeys hload)
        exact counted_isOk hload hj
  obtain ⟨j, hj⟩ := hchoose
  split <;> rename_i heq <;> rw [heq] at hj
  · exact ⟨j, hj⟩
  · exact ⟨j, hj⟩

theorem dispatch_zero (hload : d.dispatchPolicy.ByLoad) (htopk : d.topkRandomDispatch = 0)
    (drawn : ℕ) (j : String) : (d.dispatch round [] drawn).1 ≠ .ok j := by
  intro hok
  by_cases hpool : d.pool = []
  · rw [dispatch_of_pool_eq_nil hpool] at hok
    unfold policyDispatch at hok
    rcases hload with hp | hp <;> rw [hp] at hok <;> cases hok
  · rw [dispatch_of_pool_ne_nil hpool] at hok
    have hchosen : (d.tallied.choose round d.pool [] drawn).1 = .error .indexError := by
      rw [choose_nil, policyDispatch_tallied, policyDispatch_zero hload htopk]
    split at hok <;> rename_i heq <;> rw [heq] at hchosen
    · cases hchosen
    · cases hok

end DispatchScheduler

/-! ### The scheduler of a cluster -/

/-- The counters are those of the instances that take ordinary requests. -/
structure GlobalScheduler.Counted (g : GlobalScheduler) (c : Cluster) : Prop where
  describes : g.Describes c
  keyed : g.IsKeyed
  counters : ∀ i, i ∈ g.dispatchScheduler.instanceNumRequests ↔
    i ∈ g.dispatchScheduler.availableDispatchInstanceSet

section Counted
variable {g : GlobalScheduler} {c : Cluster}

theorem counters_addInstance {d : DispatchScheduler}
    (h : ∀ j, j ∈ d.instanceNumRequests ↔ j ∈ d.availableDispatchInstanceSet) (i : String)
    (t : InstanceType) (j : String) : j ∈ (d.addInstance i t).instanceNumRequests ↔
      j ∈ (d.addInstance i t).availableDispatchInstanceSet := by
  unfold DispatchScheduler.addInstance
  split
  · change j ∈ Dict.set _ _ _ ↔ j ∈ insert _ _
    rw [Dict.mem_set, Finset.mem_insert, h j]
  · exact h j

theorem counters_removeInstance {d : DispatchScheduler}
    (h : ∀ j, j ∈ d.instanceNumRequests ↔ j ∈ d.availableDispatchInstanceSet) (i j : String) :
    j ∈ (d.removeInstance i).instanceNumRequests ↔
      j ∈ (d.removeInstance i).availableDispatchInstanceSet := by
  unfold DispatchScheduler.removeInstance
  dsimp only
  split
  · change j ∈ Dict.erase _ _ ↔ j ∈ Finset.erase _ _
    rw [Dict.mem_erase, Finset.mem_erase, h j]
  · exact h j

theorem counted_scaleUpOne (h : g.Counted c) (l : Launch H) :
    (g.scaleUpOne l.instanceId l.instanceType).Counted (c.scaleUpOne l) := by
  refine ⟨describes_scaleUpOne h.describes l, isKeyed_scaleUpOne h.keyed _ _, ?_⟩
  unfold GlobalScheduler.scaleUpOne
  split
  · exact h.counters
  · exact counters_addInstance (d := g.dispatchScheduler.updateInstanceInfos _) h.counters _ _

theorem counted_scaleDownOne (h : g.Counted c) (i : String) :
    (g.scaleDownOne i).Counted (c.erase i) := by
  refine ⟨describes_scaleDownOne h.describes i, isKeyed_scaleDownOne h.keyed i, ?_⟩
  unfold GlobalScheduler.scaleDownOne
  split
  · exact counters_removeInstance (d := g.dispatchScheduler.updateInstanceInfos _) h.counters _
  · exact h.counters

theorem counted_updateInstanceInfos (h : g.Counted c) (infos : List InstanceInfo) :
    (g.updateInstanceInfos infos).Counted c := by
  induction infos generalizing g with
  | nil => exact h
  | cons info infos ih =>
    refine ih ⟨describes_updateInstanceInfo h.describes info,
      isKeyed_updateInstanceInfo h.keyed info, ?_⟩
    unfold GlobalScheduler.updateInstanceInfo
    split <;> exact h.counters

/-- The dispatcher that a dispatch asks. -/
def GlobalScheduler.refreshed (g : GlobalScheduler) : DispatchScheduler :=
  g.dispatchScheduler.updateInstanceInfos g.instanceInfo

theorem counted_dispatch {round : ℚ → Number} {blockHashes : List String} {drawn : ℕ}
    (h : g.Counted c) (hdescribes : (g.dispatch round blockHashes drawn).2.Describes c) :
    (g.dispatch round blockHashes drawn).2.Counted c := by
  refine ⟨hdescribes, isKeyed_dispatch h.keyed round blockHashes drawn, fun j => ?_⟩
  have hpool := DispatchScheduler.samePool_dispatch g.refreshed round blockHashes drawn
  have htable :=
    DispatchScheduler.mem_instanceNumRequests_dispatch g.refreshed round blockHashes drawn j
  change j ∈ (g.refreshed.dispatch round blockHashes drawn).2.instanceNumRequests ↔
    j ∈ (g.refreshed.dispatch round blockHashes drawn).2.availableDispatchInstanceSet
  rw [hpool.1]
  constructor
  · intro hj
    rcases htable.2 hj with hj | hok
    · exact (h.counters j).mp hj
    · exact (DispatchScheduler.mem_of_dispatch hok).elim id (h.counters j).mp
  · exact fun hj => htable.1 ((h.counters j).mpr hj)

theorem pool_ne_nil (h : g.Describes c) (hg : g.IsKeyed) {i : String}
    (hi : i ∈ g.dispatchScheduler.availableDispatchInstanceSet) : g.refreshed.pool ≠ [] := by
  have hkeyed : Keyed g.refreshed.instanceInfo := keyed_updateInstanceInfos hg.2 hg.1
  have hinfo : i ∈ g.instanceInfo := by
    rw [← Dict.mem_keySet, h.infos, Dict.mem_keySet]
    exact ((h.available i).mp hi).elim Dict.mem_of_get? Dict.mem_of_get?
  have hknown : i ∈ g.refreshed.instanceInfo := by
    obtain ⟨info, hitem⟩ := Dict.item_of_mem hinfo
    refine Dict.mem_setAll.mpr (.inl (List.mem_map.mpr ⟨(i, info), ?_, rfl⟩))
    exact List.mem_filter.mpr ⟨hitem, by simpa using hi⟩
  obtain ⟨info, hitem⟩ := Dict.item_of_mem hknown
  refine List.ne_nil_of_mem (a := info) (List.mem_filter.mpr ⟨List.mem_map_of_mem hitem, ?_⟩)
  have hid : info.instanceId = i := hkeyed _ hitem
  rw [hid]
  exact decide_eq_true hi

/-- Dispatch returns one of the instances, whatever the blocks and the draws. -/
def GlobalScheduler.Safe (g : GlobalScheduler) (round : ℚ → Number) (c : Cluster) : Prop :=
  ∀ blockHashes drawn, ∃ r, (g.dispatch round blockHashes drawn).1 = .ok r ∧ r.1 ∈ c

theorem safe_iff (round : ℚ → Number) (h : g.Counted c) :
    g.Safe round c ↔ (∃ i, Ordinary c i) ∧
      (g.dispatchScheduler.dispatchPolicy.ByLoad →
        0 < g.dispatchScheduler.topkRandomDispatch) := by
  have hresult : ∀ blockHashes drawn, (g.dispatch round blockHashes drawn).1 =
      (g.refreshed.dispatch round blockHashes drawn).1.map fun i =>
        (i, if g.enablePdDisagg then .fin 1 else .posInf) := fun _ _ => rfl
  have hordinary : ∀ {blockHashes drawn i},
      (g.refreshed.dispatch round blockHashes drawn).1 = .ok i → Ordinary c i := by
    intro blockHashes drawn i hok
    refine (h.describes.available i).mp ?_
    exact (DispatchScheduler.mem_of_dispatch hok).elim id (h.counters i).mp
  constructor
  · intro hsafe
    obtain ⟨r, hr, -⟩ := hsafe [] 0
    rw [hresult] at hr
    cases hd : (g.refreshed.dispatch round [] 0).1 with
    | error e =>
      rw [hd] at hr
      cases hr
    | ok i =>
      refine ⟨⟨i, hordinary hd⟩, fun hload => Nat.pos_of_ne_zero fun hzero => ?_⟩
      exact DispatchScheduler.dispatch_zero (d := g.refreshed) hload hzero 0 i hd
  · rintro ⟨⟨i, hi⟩, htopk⟩ blockHashes drawn
    have havail := (h.describes.available i).mpr hi
    have hpool := pool_ne_nil h.describes h.keyed havail
    obtain ⟨j, hj⟩ := DispatchScheduler.dispatch_isOk round hpool htopk
      (fun _ => List.ne_nil_of_mem ((h.counters i).mpr havail)) blockHashes drawn
    refine ⟨_, by rw [hresult, hj]; rfl, ?_⟩
    exact (hordinary hj).elim Dict.mem_of_get? Dict.mem_of_get?

end Counted

/-! ### Runs -/

def Action.Plain : Action H → Prop
  | .selectV1PdInstances .. => False
  | _ => True

/-- What is set once and for all. -/
def DispatchScheduler.config (d : DispatchScheduler) : DispatchPolicy × ℕ :=
  (d.dispatchPolicy, d.topkRandomDispatch)

section Config

theorem config_scaleUpOne (g : GlobalScheduler) (i : String) (t : InstanceType) :
    (g.scaleUpOne i t).dispatchScheduler.config = g.dispatchScheduler.config := by
  unfold GlobalScheduler.scaleUpOne
  split
  · rfl
  · change (DispatchScheduler.addInstance _ i t).config = _
    unfold DispatchScheduler.addInstance
    split <;> rfl

theorem config_scaleDownOne (g : GlobalScheduler) (i : String) :
    (g.scaleDownOne i).dispatchScheduler.config = g.dispatchScheduler.config := by
  unfold GlobalScheduler.scaleDownOne
  split
  · change (DispatchScheduler.removeInstance _ i).config = _
    unfold DispatchScheduler.removeInstance
    dsimp only
    split <;> rfl
  · rfl

theorem dispatchScheduler_updateInstanceInfos (g : GlobalScheduler) (infos : List InstanceInfo) :
    (g.updateInstanceInfos infos).dispatchScheduler = g.dispatchScheduler := by
  refine List.foldlRecOn
    (motive := fun g' : GlobalScheduler => g'.dispatchScheduler = g.dispatchScheduler) infos _
    rfl fun g' hg' info _ => ?_
  unfold GlobalScheduler.updateInstanceInfo
  split <;> exact hg'

theorem config_dispatch (g : GlobalScheduler) (round : ℚ → Number) (blockHashes : List String)
    (drawn : ℕ) :
    (g.dispatch round blockHashes drawn).2.dispatchScheduler.config =
      g.dispatchScheduler.config := by
  have hpool := DispatchScheduler.samePool_dispatch g.refreshed round blockHashes drawn
  exact Prod.ext hpool.2.2.1 hpool.2.2.2

theorem config_apply (m : Manager H) (round : ℚ → Number) (a : Action H) :
    (m.apply round a).globalScheduler.dispatchScheduler.config =
      m.globalScheduler.dispatchScheduler.config := by
  cases a with
  | scaleUp launches =>
    change (m.scaleUp launches).1.globalScheduler.dispatchScheduler.config = _
    rw [globalScheduler_scaleUp]
    refine List.foldlRecOn (motive := fun g : GlobalScheduler => g.dispatchScheduler.config = _)
      launches _ rfl fun g hg l _ => ?_
    exact (config_scaleUpOne g _ _).trans hg
  | scaleDown instanceIds rebuild =>
    change (m.scaleDown instanceIds rebuild).1.globalScheduler.dispatchScheduler.config = _
    rw [globalScheduler_scaleDown]
    refine List.foldlRecOn (motive := fun g : GlobalScheduler => g.dispatchScheduler.config = _)
      instanceIds _ rfl fun g hg i _ => ?_
    exact (config_scaleDownOne g i).trans hg
  | updateInstanceInfos infos =>
    exact congrArg DispatchScheduler.config
      (dispatchScheduler_updateInstanceInfos m.globalScheduler infos)
  | dispatch blockHashes drawn => exact config_dispatch m.globalScheduler round blockHashes drawn
  | selectV1PdInstances blockHashes drawn drawn' =>
    rcases selectV1PdInstances_samePool m round blockHashes drawn drawn' with
      heq | ⟨d, hpool, heq⟩
    · exact congrArg (·.globalScheduler.dispatchScheduler.config) heq
    · have hconfig : d.config = m.pdScheduler.config := Prod.ext hpool.2.2.1 hpool.2.2.2
      exact (congrArg (·.globalScheduler.dispatchScheduler.config) heq).trans hconfig

end Config

section Reached
variable {m : Manager H} {c : Cluster} {round : ℚ → Number}

theorem counted_apply (round : ℚ → Number) (hm : m.Describes c)
    (h : m.globalScheduler.Counted c) {a : Action H} (ha : a.Plain) :
    (m.apply round a).globalScheduler.Counted (c.apply a) := by
  have hdescribes := describes_apply round hm a
  cases a with
  | scaleUp launches =>
    change GlobalScheduler.Counted (m.scaleUp launches).1.globalScheduler _
    rw [globalScheduler_scaleUp]
    exact List.foldl_rel (r := fun (g : GlobalScheduler) c => g.Counted c) h
      fun l _ g c hg => counted_scaleUpOne hg l
  | scaleDown instanceIds rebuild =>
    change GlobalScheduler.Counted (m.scaleDown instanceIds rebuild).1.globalScheduler _
    rw [globalScheduler_scaleDown]
    exact List.foldl_rel (r := fun (g : GlobalScheduler) c => g.Counted c) h
      fun i _ g c hg => counted_scaleDownOne hg i
  | updateInstanceInfos infos => exact counted_updateInstanceInfos h infos
  | dispatch blockHashes drawn => exact counted_dispatch h hdescribes.scheduler
  | selectV1PdInstances blockHashes drawn drawn' => exact ha.elim

theorem counted_init (enableMigration isGroupKind pd : Bool) (policy : DispatchPolicy) (topk : ℕ)
    (pairPolicy : PairMigrationPolicy) (threshold : Number) :
    (Manager.init enableMigration isGroupKind pd policy topk pairPolicy threshold :
      Manager H).globalScheduler.Counted .empty := by
  have hdescribes := describes_init (H := H) enableMigration isGroupKind pd policy topk pairPolicy
    threshold
  refine ⟨hdescribes.scheduler, ⟨?_, ?_⟩, fun i => ?_⟩
  · exact fun e he => absurd he List.not_mem_nil
  · exact fun e he => absurd he List.not_mem_nil
  · exact iff_of_false List.not_mem_nil (Finset.notMem_empty i)

theorem counted_run (round : ℚ → Number) {as : List (Action H)} (has : ∀ a ∈ as, a.Plain)
    (hm : m.Describes c) (h : m.globalScheduler.Counted c) :
    (m.run round as).globalScheduler.Counted (as.foldl Cluster.apply c) ∧
      (m.run round as).globalScheduler.dispatchScheduler.config =
        m.globalScheduler.dispatchScheduler.config := by
  induction as generalizing m c with
  | nil => exact ⟨h, rfl⟩
  | cons a as ih =>
    have ha := has a List.mem_cons_self
    obtain ⟨hcounted, hconfig⟩ := ih (fun b hb => has b (List.mem_cons_of_mem a hb))
      (describes_apply round hm a) (counted_apply round hm h ha)
    exact ⟨hcounted, hconfig.trans (config_apply m round a)⟩

end Reached

/-- Behind the guard dispatch returns one of the instances in every case, exactly if one of them
is not a decode instance and the policies by load are not told to choose from the first zero. -/
theorem guarded_dispatch_safe_iff (round : ℚ → Number) (enableMigration isGroupKind pd : Bool)
    (policy : DispatchPolicy) (topk : ℕ) (pairPolicy : PairMigrationPolicy) (threshold : Number)
    {as : List (Action H)} (has : ∀ a ∈ as, a.Plain) {m : Manager H}
    (hm : (Manager.init enableMigration isGroupKind pd policy topk pairPolicy threshold).run round
      as = m) :
    (0 < m.numInstances → ∀ blockHashes drawn, ∃ r,
        (m.globalScheduler.dispatch round blockHashes drawn).1 = .ok r ∧ r.1 ∈ m.instances) ↔
      (0 < m.numInstances → (∃ i t, (Cluster.built as).get? i = some t ∧ t ≠ .decode) ∧
        (policy.ByLoad → 0 < topk)) := by
  have hdescribes := registries_describe_cluster round enableMigration isGroupKind pd policy topk
    pairPolicy threshold as
  obtain ⟨hcounted, hconfig⟩ := counted_run round has
    (describes_init enableMigration isGroupKind pd policy topk pairPolicy threshold)
    (counted_init ..)
  rw [hm] at hdescribes hcounted hconfig
  have hpolicy : m.globalScheduler.dispatchScheduler.dispatchPolicy = policy :=
    congrArg Prod.fst hconfig
  have htopk : m.globalScheduler.dispatchScheduler.topkRandomDispatch = topk :=
    congrArg Prod.snd hconfig
  have hsafe := safe_iff round hcounted
  rw [hpolicy, htopk] at hsafe
  have hordinary : (∃ i, Ordinary (Cluster.built as) i) ↔
      ∃ i t, (Cluster.built as).get? i = some t ∧ t ≠ .decode := by
    refine exists_congr fun i => ?_
    unfold Ordinary
    cases (Cluster.built as).get? i with
    | none => simp
    | some t => cases t <;> simp
  refine imp_congr_right fun _ => ?_
  simp only [hdescribes.mem_instances]
  exact hsafe.trans (and_congr_left' hordinary)

/-- The Manager of one decode instance. -/
def decodeOnly (policy : DispatchPolicy) : Manager Unit :=
  (Manager.init true false true policy 1 .balanced (.fin 0)).run .fin
    [.scaleUp [⟨"d", (), .decode⟩]]

/-- The guard lets a request through, and every policy raises. -/
theorem dispatch_raises_behind_guard :
    (∀ policy, 0 < (decodeOnly policy).numInstances) ∧
      ((decodeOnly .flood).globalScheduler.dispatch .fin [] 0).1 = .error .valueError ∧
      ((decodeOnly .balanced).globalScheduler.dispatch .fin [] 0).1 = .error .valueError ∧
      ((decodeOnly .load).globalScheduler.dispatch .fin [] 0).1 = .error .indexError ∧
      ((decodeOnly .queue).globalScheduler.dispatch .fin [] 0).1 = .error .indexError ∧
      ((decodeOnly .rr).globalScheduler.dispatch .fin [] 0).1 = .error .zeroDivisionError := by
  refine ⟨fun policy => ?_, by decide⟩
  cases policy <;> decide

theorem guarded_dispatch_safe_iff_sample :
    0 < (sampleManager .rr []).numInstances ∧
      ∀ blockHashes drawn, ∃ r, ((sampleManager .rr []).globalScheduler.dispatch .fin blockHashes
        drawn).1 = .ok r ∧ r.1 ∈ (sampleManager .rr []).instances := by
  have hplain : ∀ a ∈ sampleActions ++ [], a.Plain := by
    intro a ha
    simp only [sampleActions, List.append_nil, List.mem_cons, List.not_mem_nil, or_false] at ha
    rcases ha with rfl | rfl <;> trivial
  have hiff := guarded_dispatch_safe_iff .fin true false true .rr 1 .balanced (.fin 0) hplain
    (m := sampleManager .rr []) rfl
  have hguard : 0 < (sampleManager .rr []).numInstances := by decide
  refine ⟨hguard, hiff.mpr (fun _ => ⟨⟨"p", .prefill, ?_, ?_⟩, fun _ => ?_⟩) hguard⟩
  · decide
  · decide
  · decide

end Llumnix.Scheduler
