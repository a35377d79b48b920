import Llumnix.Scheduler.Cluster

/-! The cluster as it is meant, a set of instances with their types, and the tables of the Manager
and its schedulers as so many descriptions of it. -/
namespace Llumnix.Scheduler

open Python

/-- The registered instances and the type each was registered with. -/
abbrev Cluster := Dict String InstanceType

/-- The calls that reach the tables. -/
inductive Action (H : Type)
  | scaleUp (launches : List (Launch H))
  | scaleDown (instanceIds : List String) (rebuildMigrationBackend : Bool)
  | updateInstanceInfos (infos : List InstanceInfo)
  | dispatch (blockHashes : List String) (drawn : ℕ)
  | selectV1PdInstances (blockHashes : List String) (drawn drawn' : ℕ)

variable {H : Type}

namespace Cluster

def scaleUpOne (c : Cluster) (l : Launch H) : Cluster :=
  if l.instanceId ∈ c then c else c.set l.instanceId l.instanceType

def apply (c : Cluster) : Action H → Cluster
  | .scaleUp launches => launches.foldl scaleUpOne c
  | .scaleDown instanceIds _ => instanceIds.foldl Dict.erase c
  | _ => c

def built (as : List (Action H)) : Cluster := as.foldl apply .empty

end Cluster

namespace Manager

def init (enableMigration isGroupKind enablePdDisagg : Bool) (policy : DispatchPolicy)
    (topk : ℕ) (pairPolicy : PairMigrationPolicy) (threshold : Number) : Manager H where
  enableMigration := enableMigration
  isGroupKindMigrationBackend := isGroupKind
  globalScheduler :=
    { enablePdDisagg := enablePdDisagg
      dispatchScheduler := { dispatchPolicy := policy, topkRandomDispatch := topk }
      migrationScheduler := .init pairPolicy threshold isGroupKind }

def apply (m : Manager H) (round : ℚ → Number) : Action H → Manager H
  | .scaleUp launches => (m.scaleUp launches).1
  | .scaleDown instanceIds rebuild => (m.scaleDown instanceIds rebuild).1
  | .updateInstanceInfos infos =>
    { m with globalScheduler := m.globalScheduler.updateInstanceInfos infos }
  | .dispatch blockHashes drawn =>
    { m with globalScheduler := (m.globalScheduler.dispatch round blockHashes drawn).2 }
  | .selectV1PdInstances blockHashes drawn drawn' =>
    (m.selectV1PdInstances round blockHashes drawn drawn').2

def run (m : Manager H) (round : ℚ → Number) (as : List (Action H)) : Manager H :=
  as.foldl (fun m a => m.apply round a) m

end Manager

/-- The types sets partition the cluster, the dispatch set is what takes ordinary requests, and
the dispatcher has heard of nobody else. -/
structure GlobalScheduler.Describes (g : GlobalScheduler) (c : Cluster) : Prop where
  ids : g.instanceIdSet = c.keySet
  num : g.numInstances = c.keySet.card
  infos : g.instanceInfo.keySet = c.keySet
  migrationIds : g.migrationScheduler.instanceIdSet = c.keySet
  migrationNum : g.migrationScheduler.numInstances = c.keySet.card
  scalingIds : g.scalingScheduler.instanceIdSet = c.keySet
  scalingNum : g.scalingScheduler.numInstances = c.keySet.card
  types : ∀ t i, i ∈ g.scalingScheduler.instanceTypeIdSet t ↔ c.get? i = some t
  available : ∀ i, i ∈ g.dispatchScheduler.availableDispatchInstanceSet ↔
    c.get? i = some .noConstraints ∨ c.get? i = some .prefill
  known : ∀ i ∈ g.dispatchScheduler.instanceInfo, i ∈ c

structure Manager.Describes (m : Manager H) (c : Cluster) : Prop where
  instances : m.instances.keySet = c.keySet
  migrating : m.instanceMigrating.keySet = c.keySet
  num : m.numInstances = c.keySet.card
  scheduler : m.globalScheduler.Describes c

section Global
variable {g : GlobalScheduler} {c : Cluster}

theorem GlobalScheduler.Describes.mem_ids (h : g.Describes c) {i : String} :
    i ∈ g.instanceIdSet ↔ i ∈ c := by
  rw [h.ids, Dict.mem_keySet]

theorem known_updateInstanceInfos (d : DispatchScheduler) {infos : Infos}
    (hd : ∀ i ∈ d.instanceInfo, i ∈ c) (hinfos : ∀ i ∈ infos, i ∈ c) :
    ∀ i ∈ (d.updateInstanceInfos infos).instanceInfo, i ∈ c := by
  intro i hi
  rcases Dict.mem_setAll.mp hi with hi | hi
  · have hsub := (List.filter_sublist.map Prod.fst).subset hi
    exact hinfos i hsub
  · exact hd i hi

theorem GlobalScheduler.Describes.known_refreshed (h : g.Describes c) :
    ∀ i ∈ (g.dispatchScheduler.updateInstanceInfos g.instanceInfo).instanceInfo, i ∈ c := by
  refine known_updateInstanceInfos _ h.known fun i hi => ?_
  rw [← Dict.mem_keySet, ← h.infos]
  exact hi

theorem describes_dispatchScheduler (h : g.Describes c) {d : DispatchScheduler}
    (havail : d.availableDispatchInstanceSet = g.dispatchScheduler.availableDispatchInstanceSet)
    (hknown : ∀ i ∈ d.instanceInfo, i ∈ c) :
    GlobalScheduler.Describes { g with dispatchScheduler := d } c :=
  { h with
    available := by
      intro i
      change i ∈ d.availableDispatchInstanceSet ↔ _
      rw [havail]
      exact h.available i
    known := hknown }

theorem describes_updateInstanceInfo (h : g.Describes c) (info : InstanceInfo) :
    (g.updateInstanceInfo info).Describes c := by
  unfold GlobalScheduler.updateInstanceInfo
  split
  · rename_i hmem
    have hkeys : insert info.instanceId c.keySet = c.keySet := by
      rw [← h.ids]
      exact Finset.insert_eq_of_mem hmem
    exact { h with infos := by rw [Dict.keySet_set, h.infos, hkeys] }
  · exact h

theorem describes_updateInstanceInfos (h : g.Describes c) (infos : List InstanceInfo) :
    (g.updateInstanceInfos infos).Describes c := by
  induction infos generalizing g with
  | nil => exact h
  | cons info infos ih => exact ih (describes_updateInstanceInfo h info)

theorem removeTyped_of_describes {sets : InstanceType → Finset String} {i : String}
    (h : ∀ t j, j ∈ sets t ↔ c.get? j = some t) (ts : List InstanceType) :
    (∀ t, c.get? i = some t → t ∈ ts) → ∀ t j,
      j ∈ ScalingScheduler.removeTyped sets i ts t ↔ j ≠ i ∧ c.get? j = some t := by
  induction ts with
  | nil =>
    intro hts t j
    change j ∈ sets t ↔ _
    rw [h t j]
    refine ⟨fun hj => ⟨?_, hj⟩, fun hj => hj.2⟩
    rintro rfl
    exact absurd (hts t hj) List.not_mem_nil
  | cons u us ih =>
    intro hts t j
    unfold ScalingScheduler.removeTyped
    split
    · rename_i hu
      have hiu := (h u i).mp hu
      by_cases htu : t = u
      · rw [htu, Function.update_self, Finset.mem_erase, h u j]
      · rw [Function.update_of_ne htu, h t j]
        refine ⟨fun hj => ⟨?_, hj⟩, fun hj => hj.2⟩
        rintro rfl
        rw [hiu] at hj
        exact htu (Option.some.inj hj).symm
    · rename_i hu
      refine ih (fun v hv => (List.mem_cons.mp (hts v hv)).resolve_left ?_) t j
      rintro rfl
      exact hu ((h v i).mpr hv)

theorem types_addInstance {s : ScalingScheduler}
    (h : ∀ t j, j ∈ s.instanceTypeIdSet t ↔ c.get? j = some t) {i : String} (hi : i ∉ c)
    (t u : InstanceType) (j : String) :
    j ∈ (s.addInstance i t).instanceTypeIdSet u ↔ (c.set i t).get? j = some u := by
  rw [Dict.get?_set_eq_some hi]
  change j ∈ Function.update s.instanceTypeIdSet t _ u ↔ _
  by_cases hut : u = t
  · rw [hut, Function.update_self, Finset.mem_insert, h t j]
    simp
  · rw [Function.update_of_ne hut, h u j]
    simp [hut]

section Dispatcher
variable {d : DispatchScheduler}

theorem available_addInstance (h : ∀ j, j ∈ d.availableDispatchInstanceSet ↔
      c.get? j = some .noConstraints ∨ c.get? j = some .prefill) {i : String} (hi : i ∉ c)
    (t : InstanceType) (j : String) :
    j ∈ (d.addInstance i t).availableDispatchInstanceSet ↔
      (c.set i t).get? j = some .noConstraints ∨ (c.set i t).get? j = some .prefill := by
  rw [Dict.get?_set_eq_some hi, Dict.get?_set_eq_some hi]
  unfold DispatchScheduler.addInstance
  split
  · rename_i ht
    change j ∈ insert i d.availableDispatchInstanceSet ↔ _
    rw [Finset.mem_insert, h j]
    tauto
  · rename_i ht
    rw [h j]
    tauto

theorem available_removeInstance (h : ∀ j, j ∈ d.availableDispatchInstanceSet ↔
      c.get? j = some .noConstraints ∨ c.get? j = some .prefill) (i j : String) :
    j ∈ (d.removeInstance i).availableDispatchInstanceSet ↔
      (c.erase i).get? j = some .noConstraints ∨ (c.erase i).get? j = some .prefill := by
  rw [Dict.get?_erase_eq_some, Dict.get?_erase_eq_some]
  unfold DispatchScheduler.removeInstance
  dsimp only
  split
  · rw [Finset.mem_erase, h j]
    tauto
  · rename_i hi
    have hne : j ∈ d.availableDispatchInstanceSet → j ≠ i := by
      rintro hj rfl
      exact hi hj
    rw [h j] at hne ⊢
    tauto

theorem instanceInfo_addInstance (i : String) (t : InstanceType) :
    (d.addInstance i t).instanceInfo = d.instanceInfo := by
  unfold DispatchScheduler.addInstance
  split <;> rfl

theorem instanceInfo_removeInstance (i : String) :
    (d.removeInstance i).instanceInfo = d.instanceInfo.erase i := by
  unfold DispatchScheduler.removeInstance
  dsimp only
  split <;> rfl

end Dispatcher

theorem describes_addInstance (h : g.Describes c) {i : String} (t : InstanceType) (hi : i ∉ c) :
    GlobalScheduler.Describes ({ g with
      instanceInfo := g.instanceInfo.set i { instanceId := i } }.addInstance i t) (c.set i t) := by
  have hkeys : ∀ {ids : Finset String}, ids = c.keySet → insert i ids = (c.set i t).keySet := by
    rintro ids rfl
    exact Dict.keySet_set.symm
  have hinfos : (g.instanceInfo.set i { instanceId := i }).keySet = (c.set i t).keySet := by
    rw [Dict.keySet_set, hkeys h.infos]
  refine
    { ids := hkeys h.ids
      num := congrArg Finset.card (hkeys h.ids)
      infos := hinfos
      migrationIds := hkeys h.migrationIds
      migrationNum := congrArg Finset.card (hkeys h.migrationIds)
      scalingIds := hkeys h.scalingIds
      scalingNum := congrArg Finset.card (hkeys h.scalingIds)
      types := types_addInstance h.types hi t
      available := fun j => ?_
      known := fun j hj => ?_ }
  · apply available_addInstance _ hi
    exact h.available
  · change j ∈ (DispatchScheduler.addInstance _ i t).instanceInfo at hj
    rw [instanceInfo_addInstance] at hj
    refine known_updateInstanceInfos _ (fun k hk => ?_) (fun k hk => ?_) j hj
    · exact Dict.mem_set.mpr (.inr (h.known k hk))
    · rw [← Dict.mem_keySet, ← hinfos]
      exact hk

/-- An instance that goes leaves every table. -/
theorem describes_removeInstance (h : g.Describes c) (i : String) :
    GlobalScheduler.Describes ({ g with
      instanceInfo := g.instanceInfo.erase i }.removeInstance i) (c.erase i) := by
  have hkeys : ∀ {ids : Finset String}, ids = c.keySet → ids.erase i = (c.erase i).keySet := by
    rintro ids rfl
    exact Dict.keySet_erase.symm
  have hinfos : (g.instanceInfo.erase i).keySet = (c.erase i).keySet := by
    rw [Dict.keySet_erase, hkeys h.infos]
  refine
    { ids := hkeys h.ids
      num := congrArg Finset.card (hkeys h.ids)
      infos := hinfos
      migrationIds := hkeys h.migrationIds
      migrationNum := congrArg Finset.card (hkeys h.migrationIds)
      scalingIds := hkeys h.scalingIds
      scalingNum := congrArg Finset.card (hkeys h.scalingIds)
      types := fun t j => ?_
      available := fun j => ?_
      known := fun j hj => ?_ }
  · rw [Dict.get?_erase_eq_some]
    refine removeTyped_of_describes h.types _ (fun t _ => ?_) t j
    cases t <;> simp
  · apply available_removeInstance
    exact h.available
  · change j ∈ (DispatchScheduler.removeInstance _ i).instanceInfo at hj
    rw [instanceInfo_removeInstance, Dict.mem_erase] at hj
    refine Dict.mem_erase.mpr ⟨hj.1, ?_⟩
    refine known_updateInstanceInfos _ h.known (fun k hk => ?_) j hj.2
    rw [← Dict.mem_keySet, ← h.infos]
    exact (Dict.mem_erase.mp hk).2

theorem describes_scaleUpOne (h : g.Describes c) (l : Launch H) :
    (g.scaleUpOne l.instanceId l.instanceType).Describes (c.scaleUpOne l) := by
  unfold GlobalScheduler.scaleUpOne Cluster.scaleUpOne
  by_cases hi : l.instanceId ∈ c
  · rw [if_pos hi, if_pos (h.mem_ids.mpr hi)]
    exact h
  · rw [if_neg hi, if_neg fun hmem => hi (h.mem_ids.mp hmem)]
    exact describes_addInstance h l.instanceType hi

theorem describes_scaleDownOne (h : g.Describes c) (i : String) :
    (g.scaleDownOne i).Describes (c.erase i) := by
  unfold GlobalScheduler.scaleDownOne
  by_cases hi : i ∈ c
  · rw [if_pos (h.mem_ids.mpr hi)]
    exact describes_removeInstance h i
  · rw [if_neg fun hmem => hi (h.mem_ids.mp hmem), Dict.erase_of_not_mem hi]
    exact h

end Global

section Manager
variable {m : Manager H} {c : Cluster} {round : ℚ → Number}

/-- The two tables of the Manager itself, while the schedulers wait for their turn. -/
def Manager.Lists (m : Manager H) (c : Cluster) : Prop :=
  m.instances.keySet = c.keySet ∧ m.instanceMigrating.keySet = c.keySet

theorem lists_scaleUpOne (h : m.Lists c) (l : Launch H) :
    (m.scaleUpOne l).Lists (c.scaleUpOne l) := by
  have hmem : l.instanceId ∈ m.instances ↔ l.instanceId ∈ c := by
    rw [← Dict.mem_keySet, h.1, Dict.mem_keySet]
  unfold Manager.scaleUpOne Cluster.scaleUpOne
  by_cases hi : l.instanceId ∈ c
  · rw [if_pos hi, if_pos (hmem.mpr hi)]
    exact h
  · rw [if_neg hi, if_neg fun hin => hi (hmem.mp hin)]
    constructor
    · rw [Dict.keySet_set, Dict.keySet_set, h.1]
    · rw [Dict.keySet_set, Dict.keySet_set, h.2]

theorem lists_scaleDownOne (h : m.Lists c) (i : String) : (m.scaleDownOne i).Lists (c.erase i) := by
  have hmem : i ∈ m.instances ↔ i ∈ c := by
    rw [← Dict.mem_keySet, h.1, Dict.mem_keySet]
  unfold Manager.scaleDownOne
  by_cases hi : i ∈ c
  · rw [if_pos (hmem.mpr hi)]
    constructor
    · rw [Dict.keySet_erase, Dict.keySet_erase, h.1]
    · rw [Dict.keySet_erase, Dict.keySet_erase, h.2]
  · rw [if_neg fun hin => hi (hmem.mp hin), Dict.erase_of_not_mem hi]
    exact h

theorem scheduler_foldl_scaleUpOne (launches : List (Launch H)) :
    (launches.foldl Manager.scaleUpOne m).globalScheduler = m.globalScheduler := by
  induction launches generalizing m with
  | nil => rfl
  | cons l ls ih =>
    rw [List.foldl_cons, ih]
    unfold Manager.scaleUpOne
    split <;> rfl

theorem scheduler_foldl_scaleDownOne (instanceIds : List String) :
    (instanceIds.foldl Manager.scaleDownOne m).globalScheduler = m.globalScheduler := by
  induction instanceIds generalizing m with
  | nil => rfl
  | cons i is ih =>
    rw [List.foldl_cons, ih]
    unfold Manager.scaleDownOne
    split <;> rfl

theorem globalScheduler_scaleUp (m : Manager H) (launches : List (Launch H)) :
    (m.scaleUp launches).1.globalScheduler =
      launches.foldl (fun g l => g.scaleUpOne l.instanceId l.instanceType) m.globalScheduler := by
  change launches.foldl _ (launches.foldl Manager.scaleUpOne m).globalScheduler = _
  rw [scheduler_foldl_scaleUpOne]

theorem globalScheduler_scaleDown (m : Manager H) (instanceIds : List String) (rebuild : Bool) :
    (m.scaleDown instanceIds rebuild).1.globalScheduler =
      instanceIds.foldl GlobalScheduler.scaleDownOne m.globalScheduler := by
  have hsettle : ∀ m : Manager H, m.settlePending.globalScheduler = m.globalScheduler := by
    intro m
    unfold Manager.settlePending
    split <;> rfl
  refine (hsettle _).trans ?_
  change instanceIds.foldl _ (instanceIds.foldl Manager.scaleDownOne m).globalScheduler = _
  rw [scheduler_foldl_scaleDownOne]

theorem describes_scaled {g : GlobalScheduler} (h : m.Lists c) (hg : g.Describes c) :
    (m.scaled g).Describes c :=
  { instances := h.1
    migrating := h.2
    num := by
      rw [← h.1]
      exact (Dict.card_keySet m.instances).symm
    scheduler := hg }

theorem describes_scaleUp (h : m.Describes c) (launches : List (Launch H)) :
    (m.scaleUp launches).1.Describes (launches.foldl Cluster.scaleUpOne c) := by
  refine describes_scaled ?_ ?_
  · exact List.foldl_rel (r := fun (m : Manager H) c => m.Lists c) ⟨h.instances, h.migrating⟩
      fun l _ m c hm => lists_scaleUpOne hm l
  · rw [scheduler_foldl_scaleUpOne]
    exact List.foldl_rel (r := fun (g : GlobalScheduler) c => g.Describes c) h.scheduler
      fun l _ g c hg => describes_scaleUpOne hg l

theorem describes_settlePending (h : m.Describes c) : m.settlePending.Describes c := by
  unfold Manager.settlePending
  split
  · exact ⟨h.instances, h.migrating, h.num, h.scheduler⟩
  · exact h

theorem describes_scaleDown (h : m.Describes c) (instanceIds : List String) (rebuild : Bool) :
    (m.scaleDown instanceIds rebuild).1.Describes (instanceIds.foldl Dict.erase c) := by
  refine describes_settlePending (describes_scaled ?_ ?_)
  · exact List.foldl_rel (r := fun (m : Manager H) c => m.Lists c) ⟨h.instances, h.migrating⟩
      fun i _ m c hm => lists_scaleDownOne hm i
  · rw [scheduler_foldl_scaleDownOne]
    exact List.foldl_rel (r := fun (g : GlobalScheduler) c => g.Describes c) h.scheduler
      fun i _ g c hg => describes_scaleDownOne hg i

theorem describes_dispatch {g : GlobalScheduler} (h : g.Describes c) (blockHashes : List String)
    (drawn : ℕ) : (g.dispatch round blockHashes drawn).2.Describes c := by
  obtain ⟨havail, hinfos, -⟩ := DispatchScheduler.samePool_dispatch
    (g.dispatchScheduler.updateInstanceInfos g.instanceInfo) round blockHashes drawn
  refine describes_dispatchScheduler h havail fun i hi => ?_
  rw [hinfos] at hi
  exact h.known_refreshed i hi

/-- The dispatcher with which `_select_v1_pd_instances` chooses. -/
def Manager.pdScheduler (m : Manager H) : DispatchScheduler :=
  let g := m.globalScheduler
  let d := g.dispatchScheduler.updateInstanceInfos g.instanceInfo
  { d with instanceInfo := d.instanceInfo.update g.instanceInfo }

theorem known_pdScheduler (h : m.globalScheduler.Describes c) :
    ∀ i ∈ m.pdScheduler.instanceInfo, i ∈ c := by
  intro i hi
  rcases Dict.mem_setAll.mp hi with hi | hi
  · rw [← Dict.mem_keySet, ← h.infos]
    exact hi
  · exact h.known_refreshed i hi

/-- A P/D selection leaves the Manager as it is but for its dispatcher, which has made no choice,
the first one or both. -/
theorem selectV1PdInstances_cases (m : Manager H) (round : ℚ → Number)
    (blockHashes : List String) (drawn drawn' : ℕ) :
    let d₁ := (m.pdScheduler.dispatchCandidates round (m.idsOfType .prefill) blockHashes drawn).2
    let d₂ := (d₁.dispatchCandidates round (m.idsOfType .decode) blockHashes drawn').2
    (m.selectV1PdInstances round blockHashes drawn drawn').2 = m ∨
      ∃ d, (d = d₁ ∨ d = d₂) ∧ (m.selectV1PdInstances round blockHashes drawn drawn').2 =
        { m with globalScheduler := { m.globalScheduler with dispatchScheduler := d } } := by
  intro d₁ d₂
  unfold Manager.selectV1PdInstances
  dsimp only
  split
  · exact .inl rfl
  · right
    split
    · rename_i heq
      exact ⟨_, .inl (congrArg Prod.snd heq).symm, rfl⟩
    · rename_i prefillId d heq
      have hfirst : d₁ = d := congrArg Prod.snd heq
      split <;> rename_i heq'
      · refine ⟨_, .inr ?_, rfl⟩
        exact (congrArg Prod.snd heq').symm.trans (by rw [← hfirst])
      · refine ⟨_, .inr ?_, rfl⟩
        exact (congrArg Prod.snd heq').symm.trans (by rw [← hfirst])

theorem selectV1PdInstances_samePool (m : Manager H) (round : ℚ → Number)
    (blockHashes : List String) (drawn drawn' : ℕ) :
    (m.selectV1PdInstances round blockHashes drawn drawn').2 = m ∨
      ∃ d, m.pdScheduler.SamePool d ∧
        (m.selectV1PdInstances round blockHashes drawn drawn').2 =
          { m with globalScheduler := { m.globalScheduler with dispatchScheduler := d } } := by
  have hfirst := DispatchScheduler.samePool_dispatchCandidates m.pdScheduler round
    (m.idsOfType .prefill) blockHashes drawn
  have hsecond := DispatchScheduler.samePool_dispatchCandidates
    (m.pdScheduler.dispatchCandidates round (m.idsOfType .prefill) blockHashes drawn).2 round
    (m.idsOfType .decode) blockHashes drawn'
  rcases selectV1PdInstances_cases m round blockHashes drawn drawn' with
    heq | ⟨d, rfl | rfl, heq⟩
  · exact .inl heq
  · exact .inr ⟨_, hfirst, heq⟩
  · exact .inr ⟨_, hfirst.trans hsecond, heq⟩

theorem describes_apply (round : ℚ → Number) (h : m.Describes c) (a : Action H) :
    (m.apply round a).Describes (c.apply a) := by
  cases a with
  | scaleUp launches => exact describes_scaleUp h launches
  | scaleDown instanceIds rebuild => exact describes_scaleDown h instanceIds rebuild
  | updateInstanceInfos infos =>
    exact ⟨h.instances, h.migrating, h.num, describes_updateInstanceInfos h.scheduler infos⟩
  | dispatch blockHashes drawn =>
    exact ⟨h.instances, h.migrating, h.num, describes_dispatch h.scheduler blockHashes drawn⟩
  | selectV1PdInstances blockHashes drawn drawn' =>
    change ((m.selectV1PdInstances round blockHashes drawn drawn').2).Describes c
    rcases selectV1PdInstances_samePool m round blockHashes drawn drawn' with
      heq | ⟨d, hpool, heq⟩
    · rw [heq]
      exact h
    · rw [heq]
      have hg : GlobalScheduler.Describes { m.globalScheduler with dispatchScheduler := d } c := by
        refine describes_dispatchScheduler h.scheduler hpool.1 fun i hi => ?_
        rw [hpool.2.1] at hi
        exact known_pdScheduler h.scheduler i hi
      exact ⟨h.instances, h.migrating, h.num, hg⟩

theorem describes_init (enableMigration isGroupKind pd : Bool) (policy : DispatchPolicy)
    (topk : ℕ) (pairPolicy : PairMigrationPolicy) (threshold : Number) :
    (Manager.init enableMigration isGroupKind pd policy topk pairPolicy threshold :
      Manager H).Describes Dict.empty := by
  refine ⟨rfl, rfl, rfl, ⟨rfl, rfl, rfl, rfl, rfl, rfl, rfl, fun t i => ?_, fun i => ?_, ?_⟩⟩
  · exact iff_of_false (Finset.notMem_empty i) nofun
  · exact iff_of_false (Finset.notMem_empty i) (by rintro (h | h) <;> cases h)
  · exact fun i hi => absurd hi (Dict.not_mem_empty i)

end Manager

/-- After any calls, the tables of the Manager and of its schedulers all describe the cluster that
the calls to scale up and down have left. -/
theorem registries_describe_cluster (round : ℚ → Number) (enableMigration isGroupKind pd : Bool)
    (policy : DispatchPolicy) (topk : ℕ) (pairPolicy : PairMigrationPolicy) (threshold : Number)
    (as : List (Action H)) :
    ((Manager.init enableMigration isGroupKind pd policy topk pairPolicy threshold).run round
      as).Describes (Cluster.built as) := by
  exact List.foldl_rel (r := fun (m : Manager H) c => m.Describes c) (describes_init ..)
    fun a _ m c h => describes_apply round h a

end Llumnix.Scheduler
