import Llumnix.Scaling.Loop
import Llumnix.Scheduler.Registries

/-! The loop keeps to `max_instances`. An id is counted from when it is given out until it is scaled
down, so an instance that registers takes the place that its id has. -/
namespace Llumnix.Scaling.Autoscaler

open Machine Python Scheduler

variable {H G : Type} {s s' : Autoscaler H G} {a : Action H G}

/-- What is retained is pending, and what may yet register has a place or is gone. -/
structure Tracked (s : Autoscaler H G) : Prop where
  retained : ∀ i ∈ s.pendingPlacementGroups, i ∈ s.pendingInstanceIds
  deployed : ∀ d ∈ s.deployments, s.Placed d.instanceId
  waiting : ∀ i pg, s.point = .waiting i pg → s.Placed i
  timedOut : ∀ i, s.lastTimeoutInstanceId = some i → s.Placed i

theorem tracked_start (m : Manager H) (l : Launcher) (args : EntrypointsArgs) (maxInstances : ℤ)
    (launched : List Deployment) :
    (start m l args maxInstances launched : Autoscaler H G).Tracked where
  retained i hi := by cases hi
  deployed d hd := .inl (List.mem_toFinset.mpr (List.mem_map_of_mem hd))
  waiting i pg h := by cases h
  timedOut i h := by cases h

theorem Tracked.shrinks (h : s.Tracked) (hs : Shrinks s s') : s'.Tracked where
  retained i hi := by
    obtain ⟨hold, hkeep⟩ := hs.retained i hi
    exact hkeep (h.retained i hold)
  deployed d hd := hs.placed _ (h.deployed d (hs.deployments ▸ hd))
  waiting i pg hp := hs.placed i (h.waiting i pg (hs.point ▸ hp))
  timedOut i hi := hs.placed i (h.timedOut i (hs.lastTimeout i hi))

theorem Tracked.resumed (h : s.Tracked) {lookup : Reply (Option G)} {i : String} {pg : G}
    (hr : Resumes s lookup (some (i, pg))) : s.Placed i := by
  rcases hr.timedOut_or_retained with hlast | hretained
  · exact h.timedOut i hlast
  · exact .inl (h.retained i hretained)

theorem Tracked.iterate (h : s.Tracked) {answers : Answers G} (hi : Iterates s answers s') :
    s'.Tracked := by
  cases hi with
  | stops hs => exact h.shrinks hs
  | resumes hc hresumed _ =>
    obtain ⟨hs, hresumes⟩ := checkpoint_resumes hc hresumed
    have hc := h.shrinks hs
    refine ⟨hc.retained, hc.deployed, fun i pg hp => ?_, hc.timedOut⟩
    cases hp
    exact hs.placed _ (h.resumed hresumes)
  | @creates c pg hc _ _ =>
    have hc := h.shrinks (checkpoint_ok hc).1
    have hplaced : ∀ i, c.state.Placed i → (c.state.create answers.newInstanceId pg).Placed i :=
      fun i hi => hi.imp_left (Finset.mem_insert_of_mem)
    refine ⟨fun i hi => ?_, fun d hd => hplaced _ (hc.deployed d hd), fun i pg hp => ?_,
      fun i hi => hplaced i (hc.timedOut i hi)⟩
    · rcases Dict.mem_set.mp hi with rfl | hold
      · exact Finset.mem_insert_self _ _
      · exact Finset.mem_insert_of_mem (hc.retained i hold)
    · cases hp
      exact .inl (Finset.mem_insert_self _ _)

theorem placed_scaleUp (d : Deployment) (handle : H) {i : String} (h : s.Placed i) :
    (s.scaleUp d handle).Placed i := by
  have hinstances : (s.scaleUp d handle).manager.instances.keySet =
      insert d.instanceId s.manager.instances.keySet := keySet_scaleUp _ _
  have hmem : ∀ j ∈ insert d.instanceId s.manager.instances.keySet,
      j ∈ (s.scaleUp d handle).manager.instances := by
    intro j hj
    rwa [← Dict.mem_keySet, hinstances]
  by_cases hid : i = d.instanceId
  · exact .inr (.inl (hmem i (hid ▸ Finset.mem_insert_self _ _)))
  · rcases h with hpending | hinstance | hgone
    · exact .inl (Finset.mem_erase.mpr ⟨hid, hpending⟩)
    · exact .inr (.inl (hmem i (Finset.mem_insert_of_mem hinstance)))
    · exact .inr (.inr hgone)

theorem Tracked.step (h : s.Tracked) (hstep : s.step a = some s') : s'.Tracked := by
  cases steps_of_step hstep with
  | iterate _ hi => exact h.iterate hi
  | @ready i pg hpoint fault =>
    rcases deploy_cases s i fault with ⟨launcher, heq⟩ | ⟨launcher, d, hd, heq⟩
    · rw [heq]
      exact ⟨h.retained, h.deployed, fun _ _ hp => (by cases hp), h.timedOut⟩
    · rw [heq]
      refine ⟨h.retained, fun d' hd' => ?_, fun _ _ hp => (by cases hp), h.timedOut⟩
      rcases List.mem_append.mp hd' with hold | hnew
      · exact h.deployed d' hold
      · rw [List.mem_singleton.mp hnew, hd]
        exact h.waiting i pg hpoint
  | @timeout i pg hpoint =>
    refine ⟨h.retained, h.deployed, fun _ _ hp => (by cases hp), fun j hj => ?_⟩
    cases hj
    exact h.waiting i pg hpoint
  | waitFails _ => exact ⟨h.retained, h.deployed, fun _ _ hp => (by cases hp), h.timedOut⟩
  | @registers _ k d handle fault _ _ =>
    have hplaced : ∀ i, s.Placed i → ((s.finish k fault d).scaleUp d handle).Placed i :=
      fun i hi => placed_scaleUp (s := s.finish k fault d) d handle hi
    refine ⟨fun i hi => ?_, fun d' hd' => ?_, fun i pg hp => hplaced i (h.waiting i pg hp),
      fun i hi => hplaced i (h.timedOut i hi)⟩
    · obtain ⟨hne, hold⟩ := Dict.mem_erase.mp hi
      exact Finset.mem_erase.mpr ⟨hne, h.retained i hold⟩
    · exact hplaced _ (h.deployed d' (List.mem_of_mem_eraseIdx hd'))
  | fails _ _ _ =>
    exact ⟨h.retained, fun d' hd' => h.deployed d' (List.mem_of_mem_eraseIdx hd'), h.waiting,
      h.timedOut⟩
  | shrinks hs => exact h.shrinks hs

/-! ### The bound -/

theorem load_scaleUp (d : Deployment) (handle : H) (h : s.Placed d.instanceId)
    (hgone : d.instanceId ∉ s.scaledDown) : (s.scaleUp d handle).load ≤ s.load := by
  have hinstances : (s.scaleUp d handle).manager.instances.keySet =
      insert d.instanceId s.manager.instances.keySet := keySet_scaleUp _ _
  have hpending : (s.scaleUp d handle).pendingInstanceIds =
      s.pendingInstanceIds.erase d.instanceId := rfl
  rw [load_eq, load_eq, hinstances, hpending]
  by_cases hregistered : d.instanceId ∈ s.manager.instances.keySet
  · rw [Finset.insert_eq_self.mpr hregistered]
    exact Nat.add_le_add_left (Finset.card_le_card (Finset.erase_subset _ _)) _
  · have hmem : d.instanceId ∈ s.pendingInstanceIds := by
      rcases h with hpending | hinstance | hdown
      · exact hpending
      · exact absurd hinstance hregistered
      · exact absurd hdown hgone
    have hcard := Finset.card_erase_add_one hmem
    have hinsert := Finset.card_insert_of_notMem hregistered
    omega

theorem load_create {c : Checkpoint H G} (hroom : ¬c.Full) (hmax : c.state.maxInstances ≠ -1)
    (i : String) (pg : G) : ((c.state.create i pg).load : ℤ) ≤ c.state.maxInstances := by
  have hlt : (c.state.load : ℤ) < c.state.maxInstances := by
    by_contra hle
    refine hroom ⟨hmax, ?_⟩
    omega
  have hcard := Finset.card_insert_le i c.state.pendingInstanceIds
  have hload : (c.state.create i pg).load ≤ c.state.load + 1 := by
    change c.state.manager.instances.items.length + (insert i c.state.pendingInstanceIds).card ≤
      c.state.manager.instances.items.length + c.state.pendingInstanceIds.card + 1
    omega
  omega

/-- The sum stays within the bound, which never changes. -/
def Within (maxInstances : ℤ) (s : Autoscaler H G) : Prop :=
  s.maxInstances = maxInstances ∧ (s.load : ℤ) ≤ maxInstances

theorem Within.shrinks {n : ℤ} (h : Within n s) (hs : Shrinks s s') : Within n s' := by
  obtain ⟨hmax, hload⟩ := h
  refine ⟨hs.maxInstances.trans hmax, ?_⟩
  have hle := hs.load
  omega

theorem Within.step {n : ℤ} (hn : n ≠ -1) (h : Within n s) (ht : s.Tracked)
    (hstep : s.step a = some s') : Within n s' := by
  cases steps_of_step hstep with
  | iterate _ hi =>
    cases hi with
    | stops hs => exact h.shrinks hs
    | resumes hc _ _ =>
      obtain ⟨hmax, hload⟩ := h.shrinks (checkpoint_ok hc).1
      exact ⟨hmax, hload⟩
    | creates hc hroom _ =>
      obtain ⟨hmax, -⟩ := h.shrinks (checkpoint_ok hc).1
      refine ⟨hmax, ?_⟩
      rw [← hmax]
      exact load_create hroom (hmax ▸ hn) _ _
  | @ready i pg hpoint fault =>
    rcases deploy_cases s i fault with ⟨launcher, heq⟩ | ⟨launcher, d, hd, heq⟩
    all_goals rw [heq]
    all_goals exact h
  | @registers _ k d handle fault hd hgone =>
    have hplaced : (s.finish k fault d).Placed d.instanceId :=
      ht.deployed d (List.mem_of_getElem? hd)
    have hle : ((s.finish k fault d).scaleUp d handle).load ≤ s.load :=
      load_scaleUp (s := s.finish k fault d) d handle hplaced hgone
    obtain ⟨hmax, hload⟩ := h
    exact ⟨hmax, by omega⟩
  | shrinks hs => exact h.shrinks hs
  | _ => exact h

/-- If the registered and the pending instances are no more than `max_instances` when the loop
starts, they never become more, whatever the State API answers. -/
theorem max_instances_respected (m : Manager H) (l : Launcher) (args : EntrypointsArgs)
    (maxInstances : ℤ) (launched : List Deployment) (as : List (Action H G))
    (hmax : maxInstances ≠ -1)
    (hstart : ((start m l args maxInstances launched : Autoscaler H G).load : ℤ) ≤ maxInstances)
    (hrun : run step (start m l args maxInstances launched) as = some s) :
    (s.load : ℤ) ≤ maxInstances := by
  have hend := run_invariant (I := fun s : Autoscaler H G => s.Tracked ∧ Within maxInstances s)
    (fun _ _ _ h _ hstep => ⟨h.1.step hstep, h.2.step hmax h.1 hstep⟩)
    ⟨tracked_start m l args maxInstances launched, rfl, hstart⟩ meets_true hrun
  exact hend.2.2

def sampleManager : Manager Unit := .init false false false .load 1 .balanced (.fin 0)

def sampleStart (maxInstances : ℤ) : Autoscaler Unit Unit :=
  start sampleManager {} ⟨8000, 9000⟩ maxInstances []

/-- An iteration that finds no groups and may create one for this id. -/
def fresh (newInstanceId : String) : Answers Unit := ⟨.ok none, .ok ([], 0), newInstanceId, some ()⟩

def sampleRun : List (Action Unit Unit) :=
  [.iterate (fresh "a"), .timeout, .iterate ⟨.ok (some ()), .ok (["a"], 1), "b", none⟩, .ready none,
    .complete 0 (), .iterate (fresh "b")]

theorem max_instances_respected_sample : ∃ s : Autoscaler Unit Unit,
    run step (sampleStart 2) sampleRun = some s ∧ s.load = 2 ∧ (s.load : ℤ) ≤ 2 := by
  refine ⟨_, rfl, by decide, ?_⟩
  exact max_instances_respected sampleManager {} ⟨8000, 9000⟩ 2 [] sampleRun (by decide)
    (by decide) rfl

end Llumnix.Scaling.Autoscaler
