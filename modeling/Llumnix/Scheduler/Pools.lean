import Llumnix.Machine.Run
import Llumnix.Scheduler.Registries

/-! Which instances dispatch can return. The policies that go by the load choose in the pool they
are given; those that go by the counters choose in the table of counters. -/
namespace Llumnix.Scheduler

open Python Machine

variable {H : Type}

def DispatchPolicy.ByLoad (p : DispatchPolicy) : Prop := p = .load ∨ p = .queue

namespace DispatchScheduler

/-- What the policy chooses when it is given nobody: the choice in the table of counters. -/
def counted (s : DispatchScheduler) : Except Exc String := s.policyDispatch (.ids ∅) 0

section Choice
variable {s : DispatchScheduler} {round : ℚ → Number} {infos available : List InstanceInfo}

theorem chooseAmong_getElem {κ : Type} [LT κ] [DecidableRel (α := κ) (β := κ) (· < ·)]
    (key : InstanceInfo → κ) {topk : ℕ} (drawn : ℕ) (htopk : 0 < topk) (hne : infos ≠ []) :
    ∃ d, d < topk ∧ ∃ h : d < (infos.insertionSort fun i j => ¬key j < key i).length,
      chooseAmong key topk drawn (.infos infos) =
        .ok ((infos.insertionSort fun i j => ¬key j < key i)[d]).instanceId := by
  have hlen : 0 < (infos.insertionSort fun i j => ¬key j < key i).length := by
    rw [List.length_insertionSort]
    exact List.length_pos_iff.mpr hne
  simp only [chooseAmong]
  generalize (infos.insertionSort fun i j => ¬key j < key i) = sorted at hlen ⊢
  have hpos : 0 < (sorted.take (min topk sorted.length)).length := by
    rw [List.length_take]
    omega
  have hlt := Nat.mod_lt drawn hpos
  have htop := hlt
  rw [List.length_take] at htop
  refine ⟨drawn % (sorted.take (min topk sorted.length)).length, ?_, ?_, ?_⟩
  · rw [List.length_take]
    omega
  · rw [List.length_take]
    omega
  · simp only [randomChoiceFromTopK, List.getElem?_eq_getElem hlt, List.getElem_take]
    rfl

theorem chooseAmong_mem {κ : Type} [LT κ] [DecidableRel (α := κ) (β := κ) (· < ·)]
    (key : InstanceInfo → κ) {topk : ℕ} (drawn : ℕ) (htopk : 0 < topk) (hne : infos ≠ []) :
    ∃ info ∈ infos, chooseAmong key topk drawn (.infos infos) = .ok info.instanceId := by
  obtain ⟨d, -, hlt, hok⟩ := chooseAmong_getElem key drawn htopk hne
  have hperm := List.perm_insertionSort (fun i j => ¬key j < key i) infos
  exact ⟨_, hperm.mem_iff.mp (List.getElem_mem hlt), hok⟩

theorem policyDispatch_byLoad (hload : s.dispatchPolicy.ByLoad) (htopk : 0 < s.topkRandomDispatch)
    (drawn : ℕ) (hne : infos ≠ []) :
    ∃ info ∈ infos, s.policyDispatch (.infos infos) drawn = .ok info.instanceId := by
  unfold policyDispatch
  rcases hload with hp | hp <;> rw [hp]
  · exact chooseAmong_mem _ drawn htopk hne
  · exact chooseAmong_mem _ drawn htopk hne

theorem policyDispatch_counted (hload : ¬s.dispatchPolicy.ByLoad) (candidates : Candidates)
    (drawn : ℕ) : s.policyDispatch candidates drawn = s.counted := by
  unfold counted policyDispatch
  cases hp : s.dispatchPolicy with
  | flood => rfl
  | balanced => rfl
  | load => exact absurd (.inl hp) hload
  | queue => exact absurd (.inr hp) hload
  | rr => rfl

theorem counted_byLoad (hload : s.dispatchPolicy.ByLoad) : s.counted = .error .indexError := by
  unfold counted policyDispatch
  rcases hload with hp | hp <;> rw [hp] <;> rfl

theorem nearBest_subset (round : ℚ → Number) (available : List InstanceInfo) :
    nearBest round available ⊆ available := by
  unfold nearBest
  split
  · exact List.filter_sublist.subset
  · exact List.nil_subset _

theorem choose_cases (s : DispatchScheduler) (round : ℚ → Number) (hne : available ≠ [])
    (blockHashes : List String) (drawn : ℕ) :
    (∃ info ∈ available, (s.choose round available blockHashes drawn).1 = .ok info.instanceId) ∨
      ∃ infos, infos ≠ [] ∧ infos ⊆ available ∧
        (s.choose round available blockHashes drawn).1 = s.policyDispatch (.infos infos) drawn := by
  have hnear := nearBest_subset round available
  unfold choose
  dsimp only
  split
  · rename_i hcond
    split
    · rename_i hit hextreme
      split
      · exact .inl ⟨hit, hnear (mem_of_extreme hextreme), rfl⟩
      · exact .inr ⟨_, hcond.2.2, hnear, rfl⟩
    · rename_i hextreme
      obtain ⟨hit, hhit⟩ := extreme_isSome (betterHit blockHashes) hcond.2.2
      rw [hhit] at hextreme
      cases hextreme
  · exact .inr ⟨available, hne, List.Subset.refl _, rfl⟩

theorem choose_nil_eq (available : List InstanceInfo) (drawn : ℕ) :
    s.choose round available [] drawn =
      (s.policyDispatch (.infos available) drawn, s.afterPolicy) := by
  unfold choose
  simp

theorem choose_nil (available : List InstanceInfo) (drawn : ℕ) :
    (s.choose round available [] drawn).1 = s.policyDispatch (.infos available) drawn := by
  rw [choose_nil_eq]

end Choice

section Candidates
variable {s : DispatchScheduler} {round : ℚ → Number} {ids : List String}

/-- The information of the candidates. -/
def availableAmong (s : DispatchScheduler) (ids : List String) : List InstanceInfo :=
  s.instanceInfo.values.filter (·.instanceId ∈ ids)

theorem dispatchCandidates_fst (hne : s.availableAmong ids ≠ []) (blockHashes : List String)
    (drawn : ℕ) :
    (s.dispatchCandidates round ids blockHashes drawn).1 =
      ({ s with totalNumRequests := s.totalNumRequests + 1 }.choose round (s.availableAmong ids)
        blockHashes drawn).1 := by
  unfold dispatchCandidates
  cases havail : s.instanceInfo.values.filter (·.instanceId ∈ ids) with
  | nil => exact absurd havail hne
  | cons i is =>
    unfold availableAmong
    rw [havail]
    dsimp only
    split <;> rename_i heq <;> rw [heq]

end Candidates
end DispatchScheduler

section Reached

/-- What is known of an instance agrees with the type it was registered with. -/
def Typed (c : Cluster) (infos : Infos) : Prop :=
  ∀ e ∈ infos.items, ∀ t, e.2.instanceType = some t → c.get? e.1 = some t

structure GlobalScheduler.Honest (g : GlobalScheduler) (c : Cluster) : Prop where
  describes : g.Describes c
  keyed : Keyed g.instanceInfo
  dispatchKeyed : Keyed g.dispatchScheduler.instanceInfo
  typed : Typed c g.instanceInfo
  topk : 0 < g.dispatchScheduler.topkRandomDispatch

variable {g : GlobalScheduler} {c : Cluster}

theorem keyed_updateInstanceInfos {d : DispatchScheduler} {infos : Infos}
    (hd : Keyed d.instanceInfo) (hinfos : Keyed infos) :
    Keyed (d.updateInstanceInfos infos).instanceInfo :=
  Dict.forall_items_setAll hd fun e he => hinfos e (List.mem_of_mem_filter he)

theorem keyed_erase {infos : Infos} (h : Keyed infos) (i : String) : Keyed (infos.erase i) :=
  fun e he => h e (Dict.mem_items_erase.mp he).1

/-- Both records of infos are by instance id. -/
def GlobalScheduler.IsKeyed (g : GlobalScheduler) : Prop :=
  Keyed g.instanceInfo ∧ Keyed g.dispatchScheduler.instanceInfo

theorem isKeyed_scaleUpOne (h : g.IsKeyed) (i : String) (t : InstanceType) :
    (g.scaleUpOne i t).IsKeyed := by
  unfold GlobalScheduler.scaleUpOne
  split
  · exact h
  · have hkeyed : Keyed (g.instanceInfo.set i { instanceId := i }) :=
      Dict.forall_items_set h.1 rfl
    refine ⟨hkeyed, ?_⟩
    change Keyed (DispatchScheduler.addInstance _ i t).instanceInfo
    rw [instanceInfo_addInstance]
    exact keyed_updateInstanceInfos h.2 hkeyed

theorem isKeyed_scaleDownOne (h : g.IsKeyed) (i : String) : (g.scaleDownOne i).IsKeyed := by
  unfold GlobalScheduler.scaleDownOne
  split
  · have hkeyed := keyed_erase h.1 i
    refine ⟨hkeyed, ?_⟩
    change Keyed (DispatchScheduler.removeInstance _ i).instanceInfo
    rw [instanceInfo_removeInstance]
    exact keyed_erase (keyed_updateInstanceInfos h.2 hkeyed) i
  · exact h

theorem isKeyed_updateInstanceInfo (h : g.IsKeyed) (info : InstanceInfo) :
    (g.updateInstanceInfo info).IsKeyed := by
  unfold GlobalScheduler.updateInstanceInfo
  split
  · exact ⟨Dict.forall_items_set h.1 rfl, h.2⟩
  · exact h

theorem isKeyed_dispatch (h : g.IsKeyed) (round : ℚ → Number) (blockHashes : List String)
    (drawn : ℕ) : (g.dispatch round blockHashes drawn).2.IsKeyed := by
  refine ⟨h.1, ?_⟩
  have hpool := DispatchScheduler.samePool_dispatch
    (g.dispatchScheduler.updateInstanceInfos g.instanceInfo) round blockHashes drawn
  change Keyed (DispatchScheduler.dispatch round _ blockHashes drawn).2.instanceInfo
  rw [hpool.2.1]
  exact keyed_updateInstanceInfos h.2 h.1

structure Manager.Sound (m : Manager H) (c : Cluster) : Prop where
  describes : m.Describes c
  honest : m.globalScheduler.Honest c

def step (round : ℚ → Number) (s : Manager H × Cluster) (a : Action H) :
    Option (Manager H × Cluster) :=
  some (s.1.apply round a, s.2.apply a)

end Reached

section Dispatch
variable {m : Manager H} {c : Cluster} {round : ℚ → Number}

def Ordinary (c : Cluster) (i : String) : Prop :=
  c.get? i = some .noConstraints ∨ c.get? i = some .prefill

theorem Manager.Describes.mem_instances (h : m.Describes c) {i : String} :
    i ∈ m.instances ↔ i ∈ c := by
  rw [← Dict.mem_keySet, h.instances, Dict.mem_keySet]

end Dispatch

theorem sound_init (enableMigration isGroupKind pd : Bool) (policy : DispatchPolicy) {topk : ℕ}
    (pairPolicy : PairMigrationPolicy) (threshold : Number) (htopk : 0 < topk) :
    (Manager.init enableMigration isGroupKind pd policy topk pairPolicy threshold :
      Manager H).Sound .empty := by
  have hdescribes := describes_init (H := H) enableMigration isGroupKind pd policy topk
    pairPolicy threshold
  exact ⟨hdescribes, hdescribes.scheduler, fun e he => absurd he List.not_mem_nil,
    fun e he => absurd he List.not_mem_nil, fun e he => absurd he List.not_mem_nil, htopk⟩

section Sample

/-- One prefill and one decode instance, which has a block cached. -/
def sampleActions : List (Action Unit) :=
  [.scaleUp [⟨"p", (), .prefill⟩, ⟨"d", (), .decode⟩],
    .updateInstanceInfos [{ instanceId := "p", instanceType := some .prefill },
      { instanceId := "d", instanceType := some .decode, kvCacheBlockHashes := ["h"] }]]

def sampleManager (policy : DispatchPolicy) (as : List (Action Unit)) : Manager Unit :=
  (Manager.init true false true policy 1 .balanced (.fin 0)).run .fin (sampleActions ++ as)

end Sample
end Llumnix.Scheduler
