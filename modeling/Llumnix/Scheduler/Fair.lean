import Llumnix.Balance.Turns
import Llumnix.Scheduler.Guard

/-! Round-robin and balanced dispatch give every instance its share of the requests. -/
namespace Llumnix.Scheduler

open Python Balance

variable {H : Type}

def DispatchPolicy.IsFair (p : DispatchPolicy) : Prop := p = .rr ∨ p = .balanced

/-- Polls, and dispatches without block hashes. -/
def Action.Quiet : Action H → Prop
  | .updateInstanceInfos _ => True
  | .dispatch blockHashes _ => blockHashes = []
  | _ => False

def Action.isDispatch : Action H → Bool
  | .dispatch .. => true
  | _ => false

namespace Manager

def chosen (m : Manager H) (round : ℚ → Number) : Action H → Option String
  | .dispatch blockHashes drawn =>
    (m.globalScheduler.dispatch round blockHashes drawn).1.toOption.map Prod.fst
  | _ => none

def choices (round : ℚ → Number) : Manager H → List (Action H) → List String
  | _, [] => []
  | m, a :: as => (m.chosen round a).toList ++ choices round (m.apply round a) as

end Manager

/-! ### The table of counters -/

namespace DispatchScheduler

/-- The ids in the order in which they take turns. -/
def ring (d : DispatchScheduler) : List String := d.instanceNumRequests.keys.insertionSort (· ≤ ·)

/-- The table counts the choices of a log, which are evenly spread; in rotation, it is the turn of
the current index. -/
structure Shares (d : DispatchScheduler) (S : Finset String) (log : List String) : Prop where
  keys : d.instanceNumRequests.keySet = S
  counts : ∀ i ∈ S, d.instanceNumRequests.get? i = some (log.count i)
  mem : ∀ i ∈ log, i ∈ S
  even : Even S log
  turn : d.dispatchPolicy = .rr → InTurn d.ring d.curInstanceIdx.toNat log

variable {d : DispatchScheduler} {S : Finset String} {log : List String} {round : ℚ → Number}

theorem nodup_ring (d : DispatchScheduler) : d.ring.Nodup :=
  (List.perm_insertionSort _ _).nodup_iff.mpr d.instanceNumRequests.nodup

theorem mem_ring {i : String} : i ∈ d.ring ↔ i ∈ d.instanceNumRequests :=
  (List.perm_insertionSort _ _).mem_iff

theorem curInstanceIdx_count {i : String} (hp : d.dispatchPolicy = .rr)
    (hmem : i ∈ d.instanceNumRequests) :
    (d.tallied.afterPolicy.count i).curInstanceIdx.toNat =
      (d.curInstanceIdx.toNat + 1) % d.ring.length := by
  have hafter : d.tallied.afterPolicy = { d.tallied with prevInstanceIdx := d.curInstanceIdx } :=
    if_pos ⟨hp, List.ne_nil_of_mem hmem⟩
  have hring : d.ring.length = d.instanceNumRequests.keys.length := List.length_insertionSort ..
  have hlen : 0 < d.instanceNumRequests.keys.length := List.length_pos_of_mem hmem
  have hnonneg : 0 ≤ d.curInstanceIdx := Int.emod_nonneg _ (by omega)
  rw [hafter, hring]
  change ((d.curInstanceIdx + 1) %
    ((d.instanceNumRequests.set i _).keys.length : ℤ)).toNat = _
  rw [Dict.keys_set_of_mem hmem, Int.toNat_emod (by omega) (by omega),
    Int.toNat_add hnonneg (by omega)]
  rfl

namespace Shares

theorem mem_iff (h : d.Shares S log) {i : String} : i ∈ d.instanceNumRequests ↔ i ∈ S := by
  rw [← Dict.mem_keySet, h.keys]

theorem item_eq (h : d.Shares S log) {e : String × ℕ} (he : e ∈ d.instanceNumRequests.items) :
    e.2 = log.count e.1 := by
  have hcount := h.counts e.1 (h.mem_iff.mp (Dict.mem_of_item he))
  have hget := Dict.get?_eq_some.mpr he
  exact Option.some.inj (hget.symm.trans hcount)

/-- The policy chooses an instance that has been chosen least often: by its counter, or because it
is its turn. -/
theorem counted_least (h : d.Shares S log) (hfair : d.dispatchPolicy.IsFair) (hne : S.Nonempty) :
    ∃ i ∈ S, d.counted = .ok i ∧ (∀ j ∈ S, log.count i ≤ log.count j) ∧
      (d.dispatchPolicy = .rr → d.ring[d.curInstanceIdx.toNat]? = some i) := by
  obtain ⟨k, hk⟩ := hne
  have hmem := h.mem_iff.mpr hk
  rcases hfair with hp | hp
  · have hcounted : d.counted = d.chooseNext := by
      unfold counted policyDispatch
      rw [hp]
    have hlt := curInstanceIdx_lt (List.ne_nil_of_mem hmem)
    have hi := mem_ring.mp (List.getElem_mem hlt)
    refine ⟨_, h.mem_iff.mp hi, hcounted.trans (chooseNext_eq (List.ne_nil_of_mem hmem)), ?_,
      fun _ => List.getElem?_eq_getElem hlt⟩
    exact fun j hj => (h.turn hp).count_le hlt j (mem_ring.mpr (h.mem_iff.mpr hj))
  · have hcounted : d.counted = d.chooseCounted fun n m => n < m := by
      unfold counted policyDispatch
      rw [hp]
    obtain ⟨v, hv⟩ := Dict.item_of_mem hmem
    obtain ⟨e, he⟩ := extreme_isSome (fun e f : String × ℕ => decide (e.2 < f.2))
      (List.ne_nil_of_mem hv)
    have hitem := mem_of_extreme he
    refine ⟨e.1, h.mem_iff.mp (Dict.mem_of_item hitem), ?_, fun j hj => ?_, ?_⟩
    · rw [hcounted, chooseCounted, he]
    · obtain ⟨w, hw⟩ := Dict.item_of_mem (h.mem_iff.mpr hj)
      have hleast := not_better_of_extreme (by simp)
        (fun x y z hxy hyz => by simp only [decide_eq_true_eq] at *; omega) he (j, w) hw
      have hle : e.2 ≤ w := by simpa using hleast
      rw [← h.item_eq hitem, ← h.item_eq hw]
      exact hle
    · intro hrr
      rw [hp] at hrr
      cases hrr

/-- The chosen instance is counted, and with the rotation the turn passes on. -/
theorem count (h : d.Shares S log) {i : String} (hi : i ∈ S)
    (hmin : ∀ j ∈ S, log.count i ≤ log.count j)
    (hturn : d.dispatchPolicy = .rr → d.ring[d.curInstanceIdx.toNat]? = some i) :
    (d.tallied.afterPolicy.count i).Shares S (log ++ [i]) := by
  have hmem := h.mem_iff.mpr hi
  have htable : (d.tallied.afterPolicy.count i).instanceNumRequests =
      d.instanceNumRequests.set i (log.count i + 1) := by
    change Dict.set _ _ _ = _
    rw [instanceNumRequests_afterPolicy]
    change Dict.set d.instanceNumRequests i ((d.instanceNumRequests.get? i).getD 0 + 1) = _
    rw [h.counts i hi]
    rfl
  have hring : (d.tallied.afterPolicy.count i).ring = d.ring := by
    unfold ring
    rw [htable, Dict.keys_set_of_mem hmem]
  refine ⟨?_, fun j hj => ?_, fun j hj => ?_, h.even.append hmin, fun hp => ?_⟩
  · rw [htable, Dict.keySet_set, h.keys, Finset.insert_eq_of_mem hi]
  · rw [htable, Dict.get?_set, count_append_singleton]
    by_cases hji : j = i
    · rw [if_pos hji, if_pos hji.symm, hji]
    · rw [if_neg hji, if_neg fun hij => hji hij.symm, h.counts j hj, add_zero]
  · rcases List.mem_append.mp hj with hj | hj
    · exact h.mem j hj
    · rw [List.mem_singleton.mp hj]
      exact hi
  · have hrr : d.dispatchPolicy = .rr := by
      rw [← hp]
      exact (samePool_afterPolicy d.tallied).2.2.1.symm
    obtain ⟨hlt, hget⟩ := List.getElem?_eq_some_iff.mp (hturn hrr)
    have hnext := (h.turn hrr).next d.nodup_ring hlt
    rw [hring, curInstanceIdx_count hrr hmem]
    rwa [hget] at hnext

theorem dispatch (h : d.Shares S log) (hfair : d.dispatchPolicy.IsFair) (hne : S.Nonempty)
    (round : ℚ → Number) (hpool : d.pool ≠ []) (drawn : ℕ) :
    ∃ i, (d.dispatch round [] drawn).1 = .ok i ∧
      (d.dispatch round [] drawn).2.Shares S (log ++ [i]) := by
  obtain ⟨i, hi, hcounted, hmin, hturn⟩ := h.counted_least hfair hne
  have hload : ¬d.dispatchPolicy.ByLoad := by
    rintro (hp | hp) <;> rw [hp] at hfair <;> rcases hfair with hp | hp <;> cases hp
  have hchoose : d.tallied.choose round d.pool [] drawn = (.ok i, d.tallied.afterPolicy) := by
    rw [choose_nil_eq, policyDispatch_tallied, policyDispatch_counted hload, hcounted]
  rw [dispatch_of_pool_ne_nil hpool, hchoose]
  exact ⟨i, rfl, h.count hi hmin hturn⟩

theorem fresh (hzero : ∀ e ∈ d.instanceNumRequests.items, e.2 = 0)
    (hprev : d.prevInstanceIdx = -1) : d.Shares d.instanceNumRequests.keySet [] := by
  refine ⟨rfl, fun i hi => ?_, nofun, fun i _ j _ => Nat.le_succ _, fun _ => ?_⟩
  · obtain ⟨v, hv⟩ := Dict.item_of_mem (Dict.mem_keySet.mp hi)
    rw [Dict.get?_eq_some.mpr hv]
    exact congrArg some (hzero _ hv)
  · have hcur : d.curInstanceIdx = 0 := by
      unfold curInstanceIdx
      rw [hprev]
      exact Int.zero_emod _
    rw [hcur]
    exact InTurn.init _

end Shares
end DispatchScheduler

/-! ### Runs -/

section Fresh
variable {c : Cluster}

theorem keySet_scaleUp (c : Cluster) (launches : List (Launch H)) :
    (launches.foldl Cluster.scaleUpOne c).keySet =
      c.keySet ∪ (launches.map (·.instanceId)).toFinset := by
  induction launches generalizing c with
  | nil => simp
  | cons l ls ih =>
    have hone : (c.scaleUpOne l).keySet = insert l.instanceId c.keySet := by
      unfold Cluster.scaleUpOne
      split
      · rename_i hmem
        exact (Finset.insert_eq_of_mem (Dict.mem_keySet.mpr hmem)).symm
      · exact Dict.keySet_set
    rw [List.foldl_cons, ih, hone, List.map_cons, List.toFinset_cons, Finset.insert_union,
      Finset.union_insert]

theorem ordinary_scaleUp {launches : List (Launch H)}
    (hordinary : ∀ l ∈ launches, l.instanceType ≠ .decode) (i : String) :
    Ordinary (launches.foldl Cluster.scaleUpOne .empty) i ↔
      i ∈ (launches.map (·.instanceId)).toFinset := by
  have htypes : ∀ e ∈ (launches.foldl Cluster.scaleUpOne .empty).items, e.2 ≠ .decode := by
    refine List.foldlRecOn (motive := fun c : Cluster => ∀ e ∈ c.items, e.2 ≠ .decode) launches _
      (fun e he => absurd he List.not_mem_nil) fun c hc l hl => ?_
    unfold Cluster.scaleUpOne
    split
    · exact hc
    · exact Dict.forall_items_set hc (hordinary l hl)
  have hkeys := keySet_scaleUp .empty launches
  rw [Dict.keySet_empty, Finset.empty_union] at hkeys
  rw [← hkeys, Dict.mem_keySet]
  constructor
  · exact fun h => h.elim Dict.mem_of_get? Dict.mem_of_get?
  · intro hmem
    obtain ⟨t, ht⟩ := Dict.item_of_mem hmem
    have hget := Dict.get?_eq_some.mpr ht
    cases t with
    | noConstraints => exact .inl hget
    | prefill => exact .inr hget
    | decode => exact absurd rfl (htypes _ ht)

theorem fresh_scaleUp {g : GlobalScheduler} (launches : List (Launch H))
    (hempty : g.dispatchScheduler.instanceNumRequests = .empty)
    (hprev : g.dispatchScheduler.prevInstanceIdx = -1) :
    let d := (launches.foldl (fun g l => g.scaleUpOne l.instanceId l.instanceType)
      g).dispatchScheduler
    (∀ e ∈ d.instanceNumRequests.items, e.2 = 0) ∧ d.prevInstanceIdx = -1 := by
  refine List.foldlRecOn (motive := fun g : GlobalScheduler =>
    (∀ e ∈ g.dispatchScheduler.instanceNumRequests.items, e.2 = 0) ∧
      g.dispatchScheduler.prevInstanceIdx = -1) launches _ ⟨?_, hprev⟩ fun g hg l _ => ?_
  · rw [hempty]
    exact fun e he => absurd he List.not_mem_nil
  · unfold GlobalScheduler.scaleUpOne
    split
    · exact hg
    · change (∀ e ∈ (DispatchScheduler.addInstance _ _ _).instanceNumRequests.items, _) ∧
        (DispatchScheduler.addInstance _ _ _).prevInstanceIdx = -1
      unfold DispatchScheduler.addInstance
      split
      · exact ⟨Dict.forall_items_set hg.1 rfl, hg.2⟩
      · exact hg

end Fresh

section Run
variable {m : Manager H} {c : Cluster} {S : Finset String} {round : ℚ → Number}

theorem plain_of_quiet {a : Action H} (h : a.Quiet) : a.Plain := by
  cases a with
  | selectV1PdInstances => exact h.elim
  | scaleUp | scaleDown | updateInstanceInfos | dispatch => exact trivial

theorem shares_dispatch (round : ℚ → Number) (hne : S.Nonempty) (drawn : ℕ) {log : List String}
    (hcounted : m.globalScheduler.Counted c)
    (hfair : m.globalScheduler.dispatchScheduler.dispatchPolicy.IsFair)
    (h : m.globalScheduler.dispatchScheduler.Shares S log) :
    ∃ i, m.chosen round (.dispatch [] drawn) = some i ∧
      (m.apply round (.dispatch [] drawn)).globalScheduler.dispatchScheduler.Shares S
        (log ++ [i]) := by
  obtain ⟨k, hk⟩ := hne
  have hpool := pool_ne_nil hcounted.describes hcounted.keyed
    ((hcounted.counters k).mp (h.mem_iff.mpr hk))
  have hrefreshed : m.globalScheduler.refreshed.Shares S log :=
    ⟨h.keys, h.counts, h.mem, h.even, h.turn⟩
  obtain ⟨i, hok, hshares⟩ := hrefreshed.dispatch hfair ⟨k, hk⟩ round hpool drawn
  have hresult : (m.globalScheduler.dispatch round [] drawn).1 = .ok _ :=
    congrArg (Except.map _) hok
  refine ⟨i, ?_, hshares⟩
  rw [Manager.chosen, hresult]
  rfl

/-- The log of a run continues the log before it. -/
theorem shares_run (round : ℚ → Number) (hne : S.Nonempty) {as : List (Action H)}
    (has : ∀ a ∈ as, a.Quiet) {log : List String} (hm : m.Describes c)
    (hcounted : m.globalScheduler.Counted c)
    (hfair : m.globalScheduler.dispatchScheduler.dispatchPolicy.IsFair)
    (h : m.globalScheduler.dispatchScheduler.Shares S log) :
    (m.choices round as).length = as.countP Action.isDispatch ∧
      (m.run round as).globalScheduler.dispatchScheduler.Shares S (log ++ m.choices round as) := by
  induction as generalizing m log c with
  | nil => exact ⟨rfl, by rwa [Manager.choices, List.append_nil]⟩
  | cons a as ih =>
    have ha := has a List.mem_cons_self
    have hrest : ∀ b ∈ as, b.Quiet := fun b hb => has b (List.mem_cons_of_mem a hb)
    have hplain := plain_of_quiet ha
    have hm' := describes_apply round hm a
    have hcounted' := counted_apply round hm hcounted hplain
    have hpolicy : (m.apply round a).globalScheduler.dispatchScheduler.dispatchPolicy =
        m.globalScheduler.dispatchScheduler.dispatchPolicy :=
      congrArg Prod.fst (config_apply m round a)
    have hfair' := hpolicy.symm ▸ hfair
    cases a with
    | scaleUp | scaleDown | selectV1PdInstances => exact ha.elim
    | updateInstanceInfos infos =>
      refine ih hrest hm' hcounted' hfair' ?_
      change (m.globalScheduler.updateInstanceInfos infos).dispatchScheduler.Shares S log
      rw [dispatchScheduler_updateInstanceInfos]
      exact h
    | dispatch blockHashes drawn =>
      cases ha
      obtain ⟨i, hchosen, hshares⟩ := shares_dispatch round hne drawn hcounted hfair h
      obtain ⟨hlength, hrun⟩ := ih hrest hm' hcounted' hfair' hshares
      have hchoices : m.choices round (.dispatch [] drawn :: as) =
          i :: (m.apply round (.dispatch [] drawn)).choices round as := by
        rw [Manager.choices, hchosen]
        rfl
      rw [hchoices]
      refine ⟨?_, ?_⟩
      · rw [List.length_cons, hlength, List.countP_cons_of_pos rfl]
      · rwa [List.append_assoc] at hrun

end Run

/-- Of the requests dispatched to instances that were registered together, each has its share,
rounded down or up, and the table of counters says how many. -/
theorem dispatch_fair (round : ℚ → Number) (enableMigration isGroupKind pd : Bool)
    {policy : DispatchPolicy} (hfair : policy = .rr ∨ policy = .balanced) (topk : ℕ)
    (pairPolicy : PairMigrationPolicy) (threshold : Number) {launches : List (Launch H)}
    (hne : launches ≠ []) (hordinary : ∀ l ∈ launches, l.instanceType ≠ .decode)
    {as : List (Action H)} (has : ∀ a ∈ as, a.Quiet) {m : Manager H}
    (hm : (Manager.init enableMigration isGroupKind pd policy topk pairPolicy threshold).apply
      round (.scaleUp launches) = m) :
    let ids := (launches.map (·.instanceId)).toFinset
    let n := as.countP Action.isDispatch
    let table := (m.run round as).globalScheduler.dispatchScheduler.instanceNumRequests
    (m.choices round as).length = n ∧ table.keySet = ids ∧
      ∀ i ∈ ids, table.get? i = some ((m.choices round as).count i) ∧
        ((m.choices round as).count i = n / ids.card ∨
          (m.choices round as).count i = n ⌈/⌉ ids.card) := by
  intro ids n table
  let init : Manager H :=
    .init enableMigration isGroupKind pd policy topk pairPolicy threshold
  have hinit := describes_init (H := H) enableMigration isGroupKind pd policy topk pairPolicy
    threshold
  have hdescribes := describes_apply round hinit (.scaleUp launches)
  have hcounted := counted_apply round hinit (counted_init ..)
    (a := .scaleUp launches) trivial
  have hconfig := config_apply init round (.scaleUp launches)
  rw [hm] at hdescribes hcounted
  have hpolicy : m.globalScheduler.dispatchScheduler.dispatchPolicy = policy := by
    rw [← hm]
    exact congrArg Prod.fst hconfig
  have hscheduler : m.globalScheduler = launches.foldl
      (fun g l => g.scaleUpOne l.instanceId l.instanceType) init.globalScheduler := by
    rw [← hm]
    exact globalScheduler_scaleUp init launches
  have hfresh := fresh_scaleUp (g := init.globalScheduler) launches rfl rfl
  rw [← hscheduler] at hfresh
  have hshares := DispatchScheduler.Shares.fresh hfresh.1 hfresh.2
  have hids : m.globalScheduler.dispatchScheduler.instanceNumRequests.keySet = ids := by
    ext i
    rw [Dict.mem_keySet, hcounted.counters i, hcounted.describes.available i]
    exact ordinary_scaleUp hordinary i
  rw [hids] at hshares
  have hnonempty : ids.Nonempty := by
    obtain ⟨l, hl⟩ := List.exists_mem_of_ne_nil _ hne
    exact ⟨l.instanceId, List.mem_toFinset.mpr (List.mem_map_of_mem hl)⟩
  have hisFair : m.globalScheduler.dispatchScheduler.dispatchPolicy.IsFair := by
    rw [hpolicy]
    exact hfair
  obtain ⟨hlength, hrun⟩ := shares_run round hnonempty has hdescribes hcounted hisFair
    hshares
  rw [List.nil_append] at hrun
  refine ⟨hlength, hrun.keys, fun i hi => ⟨hrun.counts i hi, ?_⟩⟩
  have hcount := hrun.even.count_eq hrun.mem hi
  rwa [hlength] at hcount

/-- Two instances and three requests, with a poll between them. -/
def sampleLaunches : List (Launch Unit) := [⟨"b", (), .noConstraints⟩, ⟨"a", (), .prefill⟩]

def sampleQuiet : List (Action Unit) :=
  [.dispatch [] 0, .dispatch [] 0, .updateInstanceInfos [{ instanceId := "a" }], .dispatch [] 0]

theorem dispatch_fair_sample :
    let m : Manager Unit :=
      (Manager.init true false true .rr 1 .balanced (.fin 0)).apply .fin (.scaleUp sampleLaunches)
    m.choices .fin sampleQuiet = ["a", "b", "a"] ∧
      ∀ i ∈ (["b", "a"].toFinset : Finset String),
        (m.choices .fin sampleQuiet).count i = 1 ∨ (m.choices .fin sampleQuiet).count i = 2 := by
  refine ⟨by decide, fun i hi => ?_⟩
  have hquiet : ∀ a ∈ sampleQuiet, a.Quiet := by
    intro a ha
    simp only [sampleQuiet, List.mem_cons, List.not_mem_nil, or_false] at ha
    rcases ha with rfl | rfl | rfl | rfl <;> trivial
  have hordinary : ∀ l ∈ sampleLaunches, l.instanceType ≠ .decode := by decide
  exact ((dispatch_fair .fin true false true (.inl rfl) 1 .balanced (.fin 0) (by decide) hordinary
    hquiet rfl).2.2 i hi).2

end Llumnix.Scheduler
