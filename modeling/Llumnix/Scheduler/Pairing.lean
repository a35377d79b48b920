import Llumnix.Scheduler.Info
import Mathlib.Data.List.Flatten
import Mathlib.Data.List.Sort

/-! Which instances are paired for migration: the filters, the pairing policies, and the two
schedulers that combine them. -/
namespace Llumnix.Scheduler

open Python

inductive PairMigrationConstraints
  | noConstraints
  | decodingToDecoding
  | prefillToDecoding
  deriving DecidableEq, Repr

structure CustomFilter where
  srcFilter : InstanceInfo → Bool
  dstFilter : InstanceInfo → Bool

structure MigrationInstanceFilter where
  migrateOutLoadThreshold : Number
  registeredFilters : Dict String CustomFilter

namespace LoadFilter

def filterSrcCondition (threshold : Number) (info : InstanceInfo) : Bool :=
  0 < info.numKilledRequests ∨ threshold < info.migrationLoadMetric

def filterDstCondition (threshold : Number) (info : InstanceInfo) : Bool :=
  info.numKilledRequests = 0 ∧ info.migrationLoadMetric < threshold

end LoadFilter

namespace PddFilter

def filterSrcCondition (threshold : Number) (c : PairMigrationConstraints) (info : InstanceInfo) :
    Bool :=
  match c with
  | .decodingToDecoding =>
    info.instanceType = some .decode && LoadFilter.filterSrcCondition threshold info
  | _ => info.instanceType = some .prefill

def filterDstCondition (threshold : Number) (c : PairMigrationConstraints) (info : InstanceInfo) :
    Bool :=
  match c with
  | .decodingToDecoding =>
    info.instanceType = some .decode && LoadFilter.filterDstCondition threshold info
  | _ => info.instanceType = some .decode && info.numKilledRequests = 0

end PddFilter

namespace MigrationInstanceFilter

/-- The filter that goes with the type of a round. -/
def policySrc (f : MigrationInstanceFilter) (c : PairMigrationConstraints) : InstanceInfo → Bool :=
  match c with
  | .noConstraints => LoadFilter.filterSrcCondition f.migrateOutLoadThreshold
  | c => PddFilter.filterSrcCondition f.migrateOutLoadThreshold c

def policyDst (f : MigrationInstanceFilter) (c : PairMigrationConstraints) : InstanceInfo → Bool :=
  match c with
  | .noConstraints => LoadFilter.filterDstCondition f.migrateOutLoadThreshold
  | c => PddFilter.filterDstCondition f.migrateOutLoadThreshold c

def filterInstances (f : MigrationInstanceFilter) (infos : List InstanceInfo)
    (c : PairMigrationConstraints) : List InstanceInfo × List InstanceInfo :=
  (infos.filter fun i => f.registeredFilters.values.all (·.srcFilter i) && f.policySrc c i,
    infos.filter fun i => f.registeredFilters.values.all (·.dstFilter i) && f.policyDst c i)

end MigrationInstanceFilter

inductive PairMigrationPolicy
  | balanced
  | defrag
  deriving DecidableEq, Repr

/-- `sorted` is stable, and stays so when it is reversed. -/
def sortInstanceInfos (infos : List InstanceInfo) (descending : Bool) : List InstanceInfo :=
  if descending then
    infos.insertionSort fun i j => ¬i.migrationLoadMetric < j.migrationLoadMetric
  else
    infos.insertionSort fun i j => ¬j.migrationLoadMetric < i.migrationLoadMetric

section Policy
variable (round : ℚ → Number)

/-- The test of `Balanced` on the instances at one index. -/
def worthwhile (threshold : Number) (src dst : InstanceInfo) : Bool :=
  let loadDiffBeforeMig := Number.sub round src.migrationLoadMetric dst.migrationLoadMetric
  let rightLoadAfterMig := dst.migrationLoadMetricAfterMigrateIn
  let loadDiffAfterMig :=
    Number.sub round src.migrationLoadMetricAfterMigrateOut rightLoadAfterMig
  ¬threshold < rightLoadAfterMig ∧
    (Number.fin 0 < loadDiffAfterMig ∧ loadDiffAfterMig < loadDiffBeforeMig ∨
      dst.migrationLoadMetric = .negInf)

namespace PairMigrationPolicy

/-- `Defrag` keeps what `Balanced` tests. -/
def keeps (policy : PairMigrationPolicy) (threshold : Number) (p : InstanceInfo × InstanceInfo) :
    Bool :=
  match policy with
  | .balanced => worthwhile round threshold p.1 p.2
  | .defrag => true

def pairMigration (policy : PairMigrationPolicy) (threshold : Number)
    (srcs dsts : List InstanceInfo) : List (String × String) :=
  (((sortInstanceInfos srcs true).zip (sortInstanceInfos dsts false)).filter
    (policy.keeps round threshold)).map fun p => (p.1.instanceId, p.2.instanceId)

end PairMigrationPolicy
end Policy

structure MigrationScheduler where
  pairMigrationPolicy : PairMigrationPolicy
  migrationFilter : MigrationInstanceFilter
  numInstances : ℕ := 0
  instanceIdSet : Finset String := ∅

namespace MigrationScheduler

/-- Instances of a group-kind backend are not admitted before the group is built. -/
def init (policy : PairMigrationPolicy) (threshold : Number) (isGroupKind : Bool) :
    MigrationScheduler where
  pairMigrationPolicy := policy
  migrationFilter :=
    { migrateOutLoadThreshold := threshold
      registeredFilters := Dict.empty.set "migration_backend_init_filter"
        ⟨fun _ => !isGroupKind, fun _ => !isGroupKind⟩ }

/-- The dictionary of `self.instance_info` is that of the global scheduler. -/
def pairMigration (s : MigrationScheduler) (round : ℚ → Number) (infos : Infos)
    (c : PairMigrationConstraints) : List (String × String) :=
  let chosen := s.migrationFilter.filterInstances infos.values c
  s.pairMigrationPolicy.pairMigration round s.migrationFilter.migrateOutLoadThreshold chosen.1
    chosen.2

def addInstance (s : MigrationScheduler) (instanceId : String) : MigrationScheduler :=
  { s with
    instanceIdSet := insert instanceId s.instanceIdSet
    numInstances := (insert instanceId s.instanceIdSet).card }

def removeInstance (s : MigrationScheduler) (instanceId : String) : MigrationScheduler :=
  { s with
    instanceIdSet := s.instanceIdSet.erase instanceId
    numInstances := (s.instanceIdSet.erase instanceId).card }

end MigrationScheduler

def v1RequiredMigrationCapabilities : List String :=
  ["token_boundary_freeze", "kv_snapshot", "native_nccl"]

def v1MigrationCapable (info : InstanceInfo) (required : List String) : Bool :=
  let required := if required = [] then v1RequiredMigrationCapabilities else required
  required.all (· ∈ info.migrationCapabilities)

abbrev CompatibilityKey := ℤ × String × String × String

def v1MigrationCompatibilityKey (info : InstanceInfo) : CompatibilityKey :=
  (info.migrationProtocolVersion, info.migrationKvLayoutVersion, info.deviceClass,
    info.corexStack)

structure V1MigrationScheduler where
  pairMigrationPolicy : PairMigrationPolicy
  migrateOutLoadThreshold : Number
  requiredCapabilities : List String
  /-- The information each scheduler of `_group_schedulers` was given. -/
  groups : Dict CompatibilityKey Infos

namespace V1MigrationScheduler

def init (policy : PairMigrationPolicy) (threshold : Number) (required : List String) :
    V1MigrationScheduler where
  pairMigrationPolicy := policy
  migrateOutLoadThreshold := threshold
  requiredCapabilities := if required = [] then v1RequiredMigrationCapabilities else required
  groups := .empty

/-- `grouped[key][instance_id] = info`. -/
def addToGroup (grouped : Dict CompatibilityKey Infos) (e : String × InstanceInfo) :
    Dict CompatibilityKey Infos :=
  let key := v1MigrationCompatibilityKey e.2
  grouped.set key (((grouped.get? key).getD .empty).set e.1 e.2)

def updateInstanceInfos (s : V1MigrationScheduler) (infos : Infos) : V1MigrationScheduler :=
  let capable := infos.items.filter fun e => v1MigrationCapable e.2 s.requiredCapabilities
  { s with groups := capable.foldl addToGroup .empty }

def groupScheduler (s : V1MigrationScheduler) : MigrationScheduler :=
  .init s.pairMigrationPolicy s.migrateOutLoadThreshold false

def pairMigration (s : V1MigrationScheduler) (round : ℚ → Number) (c : PairMigrationConstraints) :
    List (String × String) :=
  s.groups.values.flatMap fun infos => s.groupScheduler.pairMigration round infos c

end V1MigrationScheduler

/-- The target is not killing requests and, if the source is not either, has less load. -/
def Lighter (src dst : InstanceInfo) : Prop :=
  dst.numKilledRequests = 0 ∧
    (src.numKilledRequests = 0 → dst.migrationLoadMetric < src.migrationLoadMetric)

/-- What a type of round demands of a pair. -/
def Suits : PairMigrationConstraints → InstanceInfo → InstanceInfo → Prop
  | .noConstraints, src, dst => Lighter src dst
  | .decodingToDecoding, src, dst =>
    src.instanceType = some .decode ∧ dst.instanceType = some .decode ∧ Lighter src dst
  | .prefillToDecoding, src, dst =>
    src.instanceType = some .prefill ∧ dst.instanceType = some .decode

def ends {α : Type} (pairs : List (α × α)) : List α := pairs.flatMap fun p => [p.1, p.2]

/-- No instance occurs twice, and every pair suits the round. -/
structure Matching (infos : Infos) (c : PairMigrationConstraints) (pairs : List (String × String)) :
    Prop where
  distinct : (ends pairs).Nodup
  suits : ∀ p ∈ pairs, ∃ src dst, infos.get? p.1 = some src ∧ infos.get? p.2 = some dst ∧
    Suits c src dst

section Lists
variable {α β : Type}

theorem ends_zip_subperm (as bs : List α) : (ends (as.zip bs)).Subperm (as ++ bs) := by
  induction as generalizing bs with
  | nil => simp [ends]
  | cons a as ih =>
    cases bs with
    | nil => simp [ends]
    | cons b bs =>
      have hswap : (a :: b :: (as ++ bs)).Perm (a :: as ++ b :: bs) :=
        (List.perm_middle.symm).cons a
      have hhead := (List.subperm_cons a).mpr ((List.subperm_cons b).mpr (ih bs))
      exact hhead.trans hswap.subperm

theorem ends_sublist {ps qs : List (α × α)} (h : ps.Sublist qs) : (ends ps).Sublist (ends qs) :=
  h.flatMap _

theorem ends_map (f : α → β) (ps : List (α × α)) :
    ends (ps.map fun p => (f p.1, f p.2)) = (ends ps).map f := by
  simp [ends, List.map_flatMap, List.flatMap_map]

end Lists

section Filters
variable {f : MigrationInstanceFilter} {c : PairMigrationConstraints} {i : InstanceInfo}
  {threshold : Number}

theorem loadFilter_src_iff : LoadFilter.filterSrcCondition threshold i = true ↔
    0 < i.numKilledRequests ∨ threshold < i.migrationLoadMetric := by
  simp [LoadFilter.filterSrcCondition]

theorem loadFilter_dst_iff : LoadFilter.filterDstCondition threshold i = true ↔
    i.numKilledRequests = 0 ∧ i.migrationLoadMetric < threshold := by
  simp [LoadFilter.filterDstCondition]

theorem lighter_of_filters {src dst : InstanceInfo}
    (hs : LoadFilter.filterSrcCondition threshold src = true)
    (hd : LoadFilter.filterDstCondition threshold dst = true) : Lighter src dst := by
  obtain ⟨hkilled, hload⟩ := loadFilter_dst_iff.mp hd
  refine ⟨hkilled, fun hnone => ?_⟩
  rcases loadFilter_src_iff.mp hs with hpos | hover
  · omega
  · exact Number.lt_trans hload hover

theorem suits_of_filters {src dst : InstanceInfo} (hs : f.policySrc c src = true)
    (hd : f.policyDst c dst = true) : Suits c src dst := by
  cases c with
  | noConstraints => exact lighter_of_filters hs hd
  | decodingToDecoding =>
    simp only [MigrationInstanceFilter.policySrc, PddFilter.filterSrcCondition, Bool.and_eq_true,
      decide_eq_true_eq] at hs
    simp only [MigrationInstanceFilter.policyDst, PddFilter.filterDstCondition, Bool.and_eq_true,
      decide_eq_true_eq] at hd
    exact ⟨hs.1, hd.1, lighter_of_filters hs.2 hd.2⟩
  | prefillToDecoding =>
    simp only [MigrationInstanceFilter.policySrc, PddFilter.filterSrcCondition,
      decide_eq_true_eq] at hs
    simp only [MigrationInstanceFilter.policyDst, PddFilter.filterDstCondition, Bool.and_eq_true,
      decide_eq_true_eq] at hd
    exact ⟨hs, hd.1⟩

theorem not_suits_self (c : PairMigrationConstraints) (i : InstanceInfo) : ¬Suits c i i := by
  have hload : ¬Lighter i i := fun h => Number.lt_irrefl _ (h.2 h.1)
  cases c with
  | noConstraints => exact hload
  | decodingToDecoding => exact fun h => hload h.2.2
  | prefillToDecoding =>
    rintro ⟨hs, hd⟩
    rw [hs] at hd
    cases hd

end Filters

section Scheduler
variable {round : ℚ → Number} {s : MigrationScheduler} {infos : Infos}
  {c : PairMigrationConstraints}

theorem nodup_ids (h : Keyed infos) : (infos.values.map InstanceInfo.instanceId).Nodup := by
  have hkeys : infos.values.map InstanceInfo.instanceId = infos.items.map Prod.fst := by
    rw [Dict.values, List.map_map]
    exact List.map_congr_left h
  rw [hkeys]
  exact infos.nodup

theorem get?_of_mem_values (h : Keyed infos) {i : InstanceInfo} (hi : i ∈ infos.values) :
    infos.get? i.instanceId = some i := by
  obtain ⟨e, he, rfl⟩ := List.mem_map.mp hi
  rw [h e he]
  exact Dict.get?_eq_some.mpr he

theorem mem_filterInstances {f : MigrationInstanceFilter} {is : List InstanceInfo}
    {i : InstanceInfo} :
    (i ∈ (f.filterInstances is c).1 → i ∈ is ∧ f.policySrc c i = true) ∧
      (i ∈ (f.filterInstances is c).2 → i ∈ is ∧ f.policyDst c i = true) := by
  simp only [MigrationInstanceFilter.filterInstances, List.mem_filter, Bool.and_eq_true]
  exact ⟨fun h => ⟨h.1, h.2.2⟩, fun h => ⟨h.1, h.2.2⟩⟩

theorem nodup_filterInstances (h : Keyed infos) (f : MigrationInstanceFilter) :
    (((f.filterInstances infos.values c).1 ++ (f.filterInstances infos.values c).2).map
      InstanceInfo.instanceId).Nodup := by
  have hids := nodup_ids h
  rw [List.map_append, List.nodup_append]
  refine ⟨hids.sublist (List.filter_sublist.map _), hids.sublist (List.filter_sublist.map _), ?_⟩
  rintro a ha b hb rfl
  obtain ⟨i, hi, rfl⟩ := List.mem_map.mp ha
  obtain ⟨j, hj, hij⟩ := List.mem_map.mp hb
  obtain ⟨himem, hisrc⟩ := mem_filterInstances.1 hi
  obtain ⟨hjmem, hjdst⟩ := mem_filterInstances.2 hj
  have heq : j = i := List.inj_on_of_nodup_map hids hjmem himem hij
  rw [heq] at hjdst
  exact not_suits_self c i (suits_of_filters hisrc hjdst)

theorem sortInstanceInfos_perm (is : List InstanceInfo) (descending : Bool) :
    (sortInstanceInfos is descending).Perm is := by
  cases descending <;> exact List.perm_insertionSort _ _

theorem nodup_ends_pairMigration (policy : PairMigrationPolicy) (threshold : Number)
    {srcs dsts : List InstanceInfo} (h : ((srcs ++ dsts).map InstanceInfo.instanceId).Nodup) :
    (ends (policy.pairMigration round threshold srcs dsts)).Nodup := by
  have hsorted := (sortInstanceInfos_perm srcs true).append (sortInstanceInfos_perm dsts false)
  have hzip := ends_zip_subperm (sortInstanceInfos srcs true) (sortInstanceInfos dsts false)
  have hkept := ends_sublist (List.filter_sublist (p := policy.keeps round threshold)
    (l := (sortInstanceInfos srcs true).zip (sortInstanceInfos dsts false)))
  obtain ⟨is, hperm, hsub⟩ := (hkept.subperm.trans hzip).trans hsorted.subperm
  unfold PairMigrationPolicy.pairMigration
  rw [ends_map]
  exact (hperm.map _).nodup_iff.mp (h.sublist (hsub.map _))

theorem mem_pairMigration {policy : PairMigrationPolicy} {threshold : Number}
    {srcs dsts : List InstanceInfo} {p : String × String}
    (hp : p ∈ policy.pairMigration round threshold srcs dsts) :
    ∃ src ∈ srcs, ∃ dst ∈ dsts, p = (src.instanceId, dst.instanceId) := by
  obtain ⟨q, hq, rfl⟩ := List.mem_map.mp hp
  have hzip := List.of_mem_zip (List.mem_filter.mp hq).1
  have hsrc := (sortInstanceInfos_perm srcs true).mem_iff.mp hzip.1
  have hdst := (sortInstanceInfos_perm dsts false).mem_iff.mp hzip.2
  exact ⟨q.1, hsrc, q.2, hdst, rfl⟩

theorem matching_pairMigration (h : Keyed infos) (s : MigrationScheduler)
    (c : PairMigrationConstraints) : Matching infos c (s.pairMigration round infos c) := by
  constructor
  · exact nodup_ends_pairMigration _ _ (nodup_filterInstances h s.migrationFilter)
  · intro p hp
    obtain ⟨src, hsrc, dst, hdst, rfl⟩ := mem_pairMigration hp
    obtain ⟨hsmem, hsrc⟩ := mem_filterInstances.1 hsrc
    obtain ⟨hdmem, hdst⟩ := mem_filterInstances.2 hdst
    exact ⟨src, dst, get?_of_mem_values h hsmem, get?_of_mem_values h hdmem,
      suits_of_filters hsrc hdst⟩

end Scheduler

section Groups
variable {round : ℚ → Number} {infos : Infos} {c : PairMigrationConstraints}

/-- Every group holds some of `items`, all of its own key. -/
def Grouped (items : List (String × InstanceInfo)) (groups : Dict CompatibilityKey Infos) : Prop :=
  ∀ g ∈ groups.items, ∀ e ∈ g.2.items, e ∈ items ∧ v1MigrationCompatibilityKey e.2 = g.1

theorem grouped_addToGroup {items : List (String × InstanceInfo)}
    {groups : Dict CompatibilityKey Infos} {e : String × InstanceInfo} (h : Grouped items groups)
    (he : e ∈ items) : Grouped items (V1MigrationScheduler.addToGroup groups e) := by
  intro g hg x hx
  rcases Dict.mem_items_set.mp hg with rfl | ⟨hg, -⟩
  · rcases Dict.mem_items_set.mp hx with rfl | ⟨hx, -⟩
    · exact ⟨he, rfl⟩
    · cases hold : groups.get? (v1MigrationCompatibilityKey e.2) with
      | none => simp [hold, Dict.empty] at hx
      | some group =>
        rw [hold, Option.getD_some] at hx
        exact h _ (Dict.get?_eq_some.mp hold) x hx
  · exact h g hg x hx

theorem grouped_updateInstanceInfos (s : V1MigrationScheduler) (infos : Infos) :
    Grouped (infos.items.filter fun e => v1MigrationCapable e.2 s.requiredCapabilities)
      (s.updateInstanceInfos infos).groups := by
  have hfold : ∀ (es : List (String × InstanceInfo)) {items : List (String × InstanceInfo)}
      {groups : Dict CompatibilityKey Infos}, (∀ e ∈ es, e ∈ items) → Grouped items groups →
      Grouped items (es.foldl V1MigrationScheduler.addToGroup groups) := by
    intro es
    induction es with
    | nil => exact fun _ h => h
    | cons e es ih =>
      intro items groups hes h
      exact ih (fun x hx => hes x (List.mem_cons_of_mem e hx))
        (grouped_addToGroup h (hes e List.mem_cons_self))
  exact hfold _ (fun _ he => he) fun g hg => absurd hg List.not_mem_nil

variable {items : List (String × InstanceInfo)} {groups : Dict CompatibilityKey Infos}

theorem keyed_group (h : Keyed infos) (hg : Grouped items groups) (hsub : ∀ e ∈ items,
    e ∈ infos.items) {g : CompatibilityKey × Infos} (hmem : g ∈ groups.items) : Keyed g.2 :=
  fun e he => h e (hsub e (hg g hmem e he).1)

theorem disjoint_groups (hg : Grouped items groups) (hsub : ∀ e ∈ items, e ∈ infos.items)
    {g g' : CompatibilityKey × Infos} (hmem : g ∈ groups.items) (hmem' : g' ∈ groups.items)
    (hne : g.1 ≠ g'.1) {i : String} (hi : i ∈ g.2) : i ∉ g'.2 := by
  intro hi'
  obtain ⟨info, he⟩ := Dict.item_of_mem hi
  obtain ⟨info', he'⟩ := Dict.item_of_mem hi'
  obtain ⟨hin, hkey⟩ := hg g hmem _ he
  obtain ⟨hin', hkey'⟩ := hg g' hmem' _ he'
  have heq : info = info' := Dict.item_unique (hsub _ hin) (hsub _ hin')
  rw [heq] at hkey
  exact hne (hkey.symm.trans hkey')

theorem mem_ends {α : Type} {pairs : List (α × α)} {a : α} :
    a ∈ ends pairs ↔ ∃ p ∈ pairs, a = p.1 ∨ a = p.2 := by
  simp [ends]

theorem mem_of_matching {pairs : List (String × String)} {i : String}
    (h : Matching infos c pairs) (hi : i ∈ ends pairs) : i ∈ infos := by
  obtain ⟨p, hp, hip⟩ := mem_ends.mp hi
  obtain ⟨src, dst, hsrc, hdst, -⟩ := h.suits p hp
  rcases hip with rfl | rfl
  · exact Dict.mem_of_get? hsrc
  · exact Dict.mem_of_get? hdst

theorem nodup_ends_flatMap (hg : Grouped items groups) (hsub : ∀ e ∈ items, e ∈ infos.items)
    {f : Infos → List (String × String)} (hf : ∀ g ∈ groups.items, Matching g.2 c (f g.2)) :
    (ends (groups.values.flatMap f)).Nodup := by
  have hends : ends (groups.values.flatMap f) = groups.items.flatMap fun g => ends (f g.2) := by
    simp [ends, Dict.values, List.flatMap_map, List.flatMap_assoc]
  rw [hends, List.nodup_flatMap]
  refine ⟨fun g hmem => (hf g hmem).distinct, ?_⟩
  have hkeys : groups.items.Pairwise fun g g' => g.1 ≠ g'.1 := List.pairwise_map.mp groups.nodup
  refine hkeys.imp_of_mem fun {g g'} hmem hmem' hne => ?_
  intro i hi hi'
  exact disjoint_groups hg hsub hmem hmem' hne (mem_of_matching (hf g hmem) hi)
    (mem_of_matching (hf g' hmem') hi')

theorem matching_group (h : Keyed infos) (hg : Grouped items groups)
    (hsub : ∀ e ∈ items, e ∈ infos.items) (s : MigrationScheduler) :
    ∀ g ∈ groups.items, Matching g.2 c (s.pairMigration round g.2 c) :=
  fun _ hmem => matching_pairMigration (keyed_group h hg hsub hmem) s c

theorem v1_pair_in_group (h : Keyed infos) (s : V1MigrationScheduler) {p : String × String}
    (hp : p ∈ (s.updateInstanceInfos infos).pairMigration round c) :
    ∃ src dst, infos.get? p.1 = some src ∧ infos.get? p.2 = some dst ∧ Suits c src dst ∧
      v1MigrationCapable src s.requiredCapabilities = true ∧
      v1MigrationCapable dst s.requiredCapabilities = true ∧
      v1MigrationCompatibilityKey src = v1MigrationCompatibilityKey dst := by
  have hg := grouped_updateInstanceInfos s infos
  obtain ⟨group, hgroup, hpair⟩ := List.mem_flatMap.mp hp
  obtain ⟨g, hmem, rfl⟩ := List.mem_map.mp hgroup
  obtain ⟨src, dst, hsrc, hdst, hsuits⟩ :=
    (matching_group h hg (fun _ he => List.mem_of_mem_filter he) _ g hmem).suits p hpair
  obtain ⟨hin, hkey⟩ := hg g hmem _ (Dict.get?_eq_some.mp hsrc)
  obtain ⟨hin', hkey'⟩ := hg g hmem _ (Dict.get?_eq_some.mp hdst)
  obtain ⟨hin, hcap⟩ := List.mem_filter.mp hin
  obtain ⟨hin', hcap'⟩ := List.mem_filter.mp hin'
  exact ⟨src, dst, Dict.get?_eq_some.mpr hin, Dict.get?_eq_some.mpr hin', hsuits, hcap, hcap',
    hkey.trans hkey'.symm⟩

end Groups

/-- Both ends advertise what the scheduler requires and are compatible. -/
def CapableAlike (s : V1MigrationScheduler) (src dst : InstanceInfo) : Prop :=
  (∀ cap ∈ s.requiredCapabilities, cap ∈ src.migrationCapabilities ∧
    cap ∈ dst.migrationCapabilities) ∧
  v1MigrationCompatibilityKey src = v1MigrationCompatibilityKey dst

theorem init_requiredCapabilities_ne_nil (policy : PairMigrationPolicy) (threshold : Number)
    (required : List String) :
    (V1MigrationScheduler.init policy threshold required).requiredCapabilities ≠ [] := by
  unfold V1MigrationScheduler.init
  dsimp only
  split
  · simp [v1RequiredMigrationCapabilities]
  · assumption

theorem mem_capabilities_of_capable {info : InstanceInfo} {required : List String}
    (hne : required ≠ []) (h : v1MigrationCapable info required = true) :
    ∀ cap ∈ required, cap ∈ info.migrationCapabilities := by
  simpa [v1MigrationCapable, hne] using h

/-- Whatever the loads, the policy and the backend filter, the pairs of both schedulers are a
matching that suits the round, and V1 pairs only what is capable and compatible. -/
theorem pairs_are_matching (round : ℚ → Number) (policy : PairMigrationPolicy)
    (threshold : Number) (filters : Dict String CustomFilter) (required : List String)
    (c : PairMigrationConstraints) {infos : Infos} (h : Keyed infos) :
    Matching infos c
        (MigrationScheduler.pairMigration
          { pairMigrationPolicy := policy, migrationFilter := ⟨threshold, filters⟩ } round infos
          c) ∧
      let v1 := (V1MigrationScheduler.init policy threshold required).updateInstanceInfos infos
      Matching infos c (v1.pairMigration round c) ∧
        ∀ p ∈ v1.pairMigration round c, ∃ src dst, infos.get? p.1 = some src ∧
          infos.get? p.2 = some dst ∧ CapableAlike v1 src dst := by
  refine ⟨matching_pairMigration h _ c, ⟨?_, ?_⟩, ?_⟩
  · have hg := grouped_updateInstanceInfos (.init policy threshold required) infos
    have hsub : ∀ e ∈ infos.items.filter fun e => v1MigrationCapable e.2
        (V1MigrationScheduler.init policy threshold required).requiredCapabilities,
        e ∈ infos.items := fun _ he => List.mem_of_mem_filter he
    exact nodup_ends_flatMap hg hsub (matching_group h hg hsub _)
  · intro p hp
    obtain ⟨src, dst, hsrc, hdst, hsuits, -⟩ := v1_pair_in_group h _ hp
    exact ⟨src, dst, hsrc, hdst, hsuits⟩
  · intro p hp
    obtain ⟨src, dst, hsrc, hdst, -, hcap, hcap', hkey⟩ := v1_pair_in_group h _ hp
    have hne := init_requiredCapabilities_ne_nil policy threshold required
    have hall := mem_capabilities_of_capable hne hcap
    have hall' := mem_capabilities_of_capable hne hcap'
    exact ⟨src, dst, hsrc, hdst, fun cap hmem => ⟨hall cap hmem, hall' cap hmem⟩, hkey⟩

/-- A source that kills requests, a source over the threshold, and two targets. -/
def sampleInfos : Infos where
  items :=
    [("a", { instanceId := "a", migrationLoadMetric := .negInf, numKilledRequests := 1 }),
      ("b", { instanceId := "b", migrationLoadMetric := .negInf }),
      ("c", { instanceId := "c", migrationLoadMetric := .posInf }),
      ("d", { instanceId := "d", migrationLoadMetric := .negInf })]
  nodup := by decide

def sampleScheduler : MigrationScheduler where
  pairMigrationPolicy := .defrag
  migrationFilter := ⟨.fin 0, .empty⟩

theorem pairs_are_matching_sample :
    sampleScheduler.pairMigration .fin sampleInfos .noConstraints = [("c", "b"), ("a", "d")] ∧
      Matching sampleInfos .noConstraints
        (sampleScheduler.pairMigration .fin sampleInfos .noConstraints) := by
  have hkeyed : Keyed sampleInfos := by
    unfold Keyed
    decide
  exact ⟨by decide, (pairs_are_matching .fin .defrag (.fin 0) .empty [] .noConstraints hkeyed).1⟩

end Llumnix.Scheduler
