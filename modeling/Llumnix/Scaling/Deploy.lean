import Llumnix.Scaling.Capacity

/-! How often an instance is deployed. A placement group is retained until its instance has
registered, and without the State API the first group that is retained is resumed, whether it has
been deployed or not. -/
namespace Llumnix.Scaling.Autoscaler

open Machine Python Scheduler

variable {H G : Type} {s s' : Autoscaler H G} {a : Action H G}

/-- No id has been deployed twice, and none is about to be. -/
structure Once (s : Autoscaler H G) : Prop where
  nodup : s.calls.Nodup
  waiting : ∀ i pg, s.point = .waiting i pg → i ∉ s.calls

/-- An iteration without the State API resumes a group that has been deployed. -/
def Redeploys (s : Autoscaler H G) : Action H G → Prop
  | .iterate answers => s.point = .idle ∧ s.Blind answers.lookup ∧
      (∃ i pg, s.pendingPlacementGroups.items.head? = some (i, pg) ∧ i ∈ s.calls) ∧
      (s.maxInstances = -1 ∨ (s.load : ℤ) < s.maxInstances)
  | _ => False

/-- All ids have been given out, and what is being deployed has been started. -/
structure Issued (s : Autoscaler H G) : Prop where
  calls : ∀ i ∈ s.calls, i ∈ s.known
  waiting : ∀ i pg, s.point = .waiting i pg → i ∈ s.known
  timedOut : ∀ i, s.lastTimeoutInstanceId = some i → i ∈ s.known
  retained : ∀ i ∈ s.pendingPlacementGroups, i ∈ s.known
  started : ∀ i ∈ s.started, i ∈ s.calls
  deployments : ∀ d ∈ s.deployments, d.instanceId ∈ s.started

/-- As long as there is a State API, the instance that timed out last has not been deployed. -/
structure Calm (s : Autoscaler H G) : Prop where
  undeployed : s.stateApiAvailable = true → ∀ i, s.lastTimeoutInstanceId = some i → i ∉ s.calls
  forgotten : s.stateApiAvailable = true → ∀ i pg, s.point = .waiting i pg →
    s.lastTimeoutInstanceId = none

theorem issued_start (m : Manager H) (l : Launcher) (args : EntrypointsArgs) (maxInstances : ℤ)
    (launched : List Deployment) :
    (start m l args maxInstances launched : Autoscaler H G).Issued where
  calls i hi := Finset.mem_union_right _ (List.mem_toFinset.mpr hi)
  waiting i pg h := by cases h
  timedOut i h := by cases h
  retained i hi := by cases hi
  started i hi := hi
  deployments d hd := List.mem_map_of_mem hd

theorem Issued.shrinks (h : s.Issued) (hs : Shrinks s s') : s'.Issued where
  calls i hi := by
    rw [hs.known]
    exact h.calls i (hs.calls ▸ hi)
  waiting i pg hp := by
    rw [hs.known]
    exact h.waiting i pg (hs.point ▸ hp)
  timedOut i hi := by
    rw [hs.known]
    exact h.timedOut i (hs.lastTimeout i hi)
  retained i hi := by
    rw [hs.known]
    exact h.retained i (hs.retained i hi).1
  started i hi := by
    rw [hs.calls]
    exact h.started i (hs.started ▸ hi)
  deployments d hd := by
    rw [hs.started]
    exact h.deployments d (hs.deployments ▸ hd)

theorem Issued.resumed (h : s.Issued) {lookup : Reply (Option G)} {i : String} {pg : G}
    (hr : Resumes s lookup (some (i, pg))) : i ∈ s.known := by
  rcases hr.timedOut_or_retained with hlast | hretained
  · exact h.timedOut i hlast
  · exact h.retained i hretained

theorem Issued.iterate (h : s.Issued) {answers : Answers G} (hi : Iterates s answers s') :
    s'.Issued := by
  cases hi with
  | stops hs => exact h.shrinks hs
  | resumes hc hresumed _ =>
    obtain ⟨hs, hresumes⟩ := checkpoint_resumes hc hresumed
    have hc := h.shrinks hs
    refine ⟨hc.calls, fun i pg hp => ?_, hc.timedOut, hc.retained, hc.started, hc.deployments⟩
    cases hp
    rw [hs.known]
    exact h.resumed hresumes
  | creates hc _ _ =>
    have hc := h.shrinks (checkpoint_ok hc).1
    refine ⟨fun i hi => Finset.mem_insert_of_mem (hc.calls i hi), fun i pg hp => ?_,
      fun i hi => Finset.mem_insert_of_mem (hc.timedOut i hi), fun i hi => ?_, hc.started,
      hc.deployments⟩
    · cases hp
      exact Finset.mem_insert_self _ _
    · rcases Dict.mem_set.mp hi with rfl | hold
      · exact Finset.mem_insert_self _ _
      · exact Finset.mem_insert_of_mem (hc.retained i hold)

theorem Issued.deploy (h : s.Issued) {i : String} {pg : G} (hpoint : s.point = .waiting i pg)
    (fault : Option Fault) : (s.deploy i fault).Issued := by
  have hcalls : ∀ j ∈ i :: s.calls, j ∈ s.known := by
    intro j hj
    rcases List.mem_cons.mp hj with rfl | hold
    · exact h.waiting j pg hpoint
    · exact h.calls j hold
  rcases deploy_cases s i fault with ⟨launcher, heq⟩ | ⟨launcher, d, hd, heq⟩
  · rw [heq]
    exact ⟨hcalls, fun _ _ hp => (by cases hp), h.timedOut, h.retained,
      fun j hj => List.mem_cons_of_mem _ (h.started j hj), h.deployments⟩
  · rw [heq]
    refine ⟨hcalls, fun _ _ hp => (by cases hp), h.timedOut, h.retained, fun j hj => ?_,
      fun d' hd' => ?_⟩
    · rcases List.mem_cons.mp hj with rfl | hold
      · exact List.mem_cons_self
      · exact List.mem_cons_of_mem _ (h.started j hold)
    · rcases List.mem_append.mp hd' with hold | hnew
      · exact List.mem_cons_of_mem _ (h.deployments d' hold)
      · rw [List.mem_singleton.mp hnew, hd]
        exact List.mem_cons_self

theorem Issued.step (h : s.Issued) (hstep : s.step a = some s') : s'.Issued := by
  cases steps_of_step hstep with
  | iterate _ hi => exact h.iterate hi
  | ready hpoint fault => exact h.deploy hpoint fault
  | @timeout i pg hpoint =>
    refine ⟨h.calls, fun _ _ hp => (by cases hp), fun j hj => ?_, h.retained, h.started,
      h.deployments⟩
    cases hj
    exact h.waiting i pg hpoint
  | waitFails _ =>
    exact ⟨h.calls, fun _ _ hp => (by cases hp), h.timedOut, h.retained, h.started,
      h.deployments⟩
  | registers _ _ _ _ =>
    exact ⟨h.calls, h.waiting, h.timedOut, fun i hi => h.retained i (Dict.mem_erase.mp hi).2,
      h.started, fun d hd => h.deployments d (List.mem_of_mem_eraseIdx hd)⟩
  | fails _ _ _ =>
    exact ⟨h.calls, h.waiting, h.timedOut, h.retained, h.started,
      fun d hd => h.deployments d (List.mem_of_mem_eraseIdx hd)⟩
  | shrinks hs => exact h.shrinks hs

theorem calm_of_idle (hidle : s'.point = .idle)
    (h : s'.stateApiAvailable = true → ∀ i, s'.lastTimeoutInstanceId = some i → i ∉ s'.calls) :
    s'.Calm := by
  refine ⟨h, fun _ i pg hp => ?_⟩
  rw [hidle] at hp
  cases hp

theorem Calm.shrinks (h : s.Calm) (hs : Shrinks s s') : s'.Calm where
  undeployed hapi i hi := by
    rw [hs.calls]
    exact h.undeployed (hs.stateApi hapi) i (hs.lastTimeout i hi)
  forgotten hapi i pg hp := by
    have hnone := h.forgotten (hs.stateApi hapi) i pg (hs.point ▸ hp)
    refine Option.eq_none_iff_forall_ne_some.mpr fun j hj => ?_
    rw [hs.lastTimeout j hj] at hnone
    cases hnone

theorem Calm.step (h : s.Calm) (honce : s.Once) (hstep : s.step a = some s') : s'.Calm := by
  cases steps_of_step hstep with
  | iterate _ hi =>
    cases hi with
    | stops hs => exact h.shrinks hs
    | resumes hc _ _ =>
      obtain ⟨hs, -, hlast⟩ := checkpoint_ok hc
      have hstate := (h.shrinks hs).undeployed
      exact ⟨hstate, fun hapi _ _ _ => hlast hapi⟩
    | creates hc _ _ =>
      obtain ⟨hs, -, hlast⟩ := checkpoint_ok hc
      have hstate := (h.shrinks hs).undeployed
      exact ⟨hstate, fun hapi _ _ _ => hlast hapi⟩
  | @ready i pg hpoint fault =>
    have hlast : s.stateApiAvailable = true → ∀ j, s.lastTimeoutInstanceId = some j →
        j ∉ i :: s.calls := by
      intro hapi j hj
      rw [h.forgotten hapi i pg hpoint] at hj
      cases hj
    rcases deploy_cases s i fault with ⟨launcher, heq⟩ | ⟨launcher, d, hd, heq⟩
    all_goals rw [heq]
    all_goals exact calm_of_idle rfl hlast
  | @timeout i pg hpoint =>
    refine calm_of_idle rfl fun _ j hj => ?_
    cases hj
    exact honce.waiting i pg hpoint
  | waitFails _ =>
    refine calm_of_idle rfl fun hapi => ?_
    exact h.undeployed (Bool.and_eq_true_iff.mp hapi).1
  | registers _ _ _ _ => exact ⟨h.undeployed, h.forgotten⟩
  | fails _ _ _ => exact ⟨h.undeployed, h.forgotten⟩
  | shrinks hs => exact h.shrinks hs

/-! ### When an id is deployed again -/

theorem Once.of_idle (h : s.Once) (hcalls : s'.calls = s.calls) (hidle : s'.point = .idle) :
    s'.Once := by
  refine ⟨hcalls ▸ h.nodup, fun i pg hp => ?_⟩
  rw [hidle] at hp
  cases hp

theorem Once.of_same (h : s.Once) (hcalls : s'.calls = s.calls) (hpoint : s'.point = s.point) :
    s'.Once :=
  ⟨hcalls ▸ h.nodup, fun i pg hp => hcalls ▸ h.waiting i pg (hpoint ▸ hp)⟩

theorem Once.deploy (h : s.Once) {i : String} {pg : G} (hpoint : s.point = .waiting i pg)
    (fault : Option Fault) : (s.deploy i fault).Once := by
  have hnodup : (i :: s.calls).Nodup := List.nodup_cons.mpr ⟨h.waiting i pg hpoint, h.nodup⟩
  rcases deploy_cases s i fault with ⟨launcher, heq⟩ | ⟨launcher, d, hd, heq⟩
  all_goals rw [heq]
  all_goals exact ⟨hnodup, fun _ _ hp => (by cases hp)⟩

theorem not_full_of_blind {c : Checkpoint H G} (hmax : c.state.maxInstances = s.maxInstances)
    (halive : c.alive = 0) (hload : c.state.load = s.load) :
    ¬c.Full ↔ s.maxInstances = -1 ∨ (s.load : ℤ) < s.maxInstances := by
  unfold Checkpoint.Full
  rw [hmax, halive, hload, not_and_or, not_not, not_le]
  simp

theorem Redeploys.not_once {answers : Answers G} (h : s.Redeploys (.iterate answers)) :
    ∃ s', s.step (.iterate answers) = some s' ∧ ¬s'.Once := by
  obtain ⟨hidle, hblind, ⟨i, pg, hfirst, hcalled⟩, hroom⟩ := h
  obtain ⟨c, hc, hresumed, halive, hload⟩ := checkpoint_of_blind hblind
  have hs := (checkpoint_ok hc).1
  have hfull : ¬c.Full := (not_full_of_blind hs.maxInstances halive hload).mpr hroom
  rw [hfirst] at hresumed
  refine ⟨{ c.state with point := .waiting i pg }, ?_, fun honce => ?_⟩
  · simp [Autoscaler.step, hidle, Autoscaler.iterate, hc, hfull, hresumed]
  · refine honce.waiting i pg rfl ?_
    change i ∈ c.state.calls
    rw [hs.calls]
    exact hcalled

theorem Once.iterate (honce : s.Once) (h : s.Issued) (hcalm : s.Calm) (hidle : s.point = .idle)
    {answers : Answers G} (hi : Iterates s answers s') (hnot : ¬s.Redeploys (.iterate answers)) :
    s'.Once := by
  cases hi with
  | stops hs => exact honce.of_same hs.calls hs.point
  | @resumes c i pg hc hresumed hroom =>
    obtain ⟨hs, hresumes⟩ := checkpoint_resumes hc hresumed
    refine ⟨hs.calls ▸ honce.nodup, fun j pg' hp => ?_⟩
    cases hp
    change i ∉ c.state.calls
    rw [hs.calls]
    cases hresumes with
    | byName _ hlast hapi => exact hcalm.undeployed hapi i hlast
    | retained hblind hfirst =>
      intro hcalled
      obtain ⟨c', hc', -, halive, hload⟩ := checkpoint_of_blind hblind
      rw [hc] at hc'
      cases hc'
      refine hnot ⟨hidle, hblind, ⟨i, pg, hfirst, hcalled⟩, ?_⟩
      exact (not_full_of_blind hs.maxInstances halive hload).mp hroom
  | creates hc _ hnew =>
    have hs := (checkpoint_ok hc).1
    refine ⟨hs.calls ▸ honce.nodup, fun j pg' hp => ?_⟩
    cases hp
    intro hcalled
    exact hnew (h.calls _ (hs.calls ▸ hcalled))

theorem once_step_iff (h : s.Issued) (hcalm : s.Calm) (honce : s.Once) (a : Action H G) :
    (∀ s', s.step a = some s' → s'.Once) ↔ ¬s.Redeploys a := by
  constructor
  · intro hnext hr
    cases a with
    | iterate answers =>
      obtain ⟨s', hstep, hnot⟩ := hr.not_once
      exact hnot (hnext s' hstep)
    | _ => exact hr
  · intro hnot s' hstep
    cases steps_of_step hstep with
    | iterate hidle hi => exact honce.iterate h hcalm hidle hi hnot
    | ready hpoint fault => exact honce.deploy hpoint fault
    | timeout _ => exact honce.of_idle rfl rfl
    | waitFails _ => exact honce.of_idle rfl rfl
    | registers _ _ _ _ => exact honce.of_same rfl rfl
    | fails _ _ _ => exact honce.of_same rfl rfl
    | shrinks hs => exact honce.of_same hs.calls hs.point

/-- No id is deployed a second time exactly if no iteration without the State API finds that the
first group that is retained has been deployed and that there is room for another instance. -/
theorem deployed_once_iff (m : Manager H) (l : Launcher) (args : EntrypointsArgs)
    (maxInstances : ℤ) (launched : List Deployment)
    (hlaunched : (launched.map (·.instanceId)).Nodup) (as : List (Action H G)) :
    Always step Once (start m l args maxInstances launched) as ↔
      Meets step (fun s a => ¬s.Redeploys a) (start m l args maxInstances launched) as := by
  have hcalm : (start m l args maxInstances launched : Autoscaler H G).Calm :=
    calm_of_idle rfl fun _ _ h => (by cases h)
  refine always_iff_meets (I := fun s => s.Issued ∧ s.Calm)
    (fun _ _ _ h honce hstep _ => ⟨h.1.step hstep, h.2.step honce hstep⟩)
    (fun _ a h honce => once_step_iff h.1 h.2 honce a)
    ⟨issued_start m l args maxInstances launched, hcalm⟩ ⟨hlaunched, fun _ _ h => (by cases h)⟩

/-- There is no State API, and each deployment has come to its end when the loop goes on. -/
theorem deployed_once_in_turn : (∃ s : Autoscaler Unit Unit,
    run step (sampleStart (-1)) [.disable, .iterate (fresh "a"), .ready none, .complete 0 (),
      .iterate (fresh "b"), .ready none, .complete 0 ()] = some s ∧ s.calls = ["b", "a"]) ∧
    Always step Once (sampleStart (-1)) [.disable, .iterate (fresh "a"), .ready none,
      .complete 0 (), .iterate (fresh "b"), .ready none, .complete 0 ()] := by
  refine ⟨⟨_, rfl, by decide⟩, (deployed_once_iff sampleManager {} ⟨8000, 9000⟩ (-1) []
    List.nodup_nil _).mpr ?_⟩
  have hnone : ∀ {s : Autoscaler Unit Unit} {answers}, s.pendingPlacementGroups.items = [] →
      ¬s.Redeploys (.iterate answers) := by
    rintro s answers hempty ⟨-, -, ⟨i, pg, hfirst, -⟩, -⟩
    rw [hempty] at hfirst
    cases hfirst
  refine ⟨id, fun _ h₁ => ?_⟩
  cases h₁
  refine ⟨hnone rfl, fun _ h₂ => ?_⟩
  cases h₂
  refine ⟨id, fun _ h₃ => ?_⟩
  cases h₃
  refine ⟨id, fun _ h₄ => ?_⟩
  cases h₄
  refine ⟨hnone rfl, fun _ _ => ⟨id, fun _ _ => ⟨id, fun _ _ => trivial⟩⟩⟩

/-- There is no State API, and the first deployment has not come to its end when the loop goes
on. -/
theorem deployed_twice : ∃ s : Autoscaler Unit Unit,
    run step (sampleStart (-1)) [.disable, .iterate (fresh "a"), .ready none, .iterate (fresh "b"),
      .ready none] = some s ∧
      s.calls = ["a", "a"] ∧ s.deployments.map (·.instanceId) = ["a", "a"] ∧ ¬s.Once := by
  refine ⟨_, rfl, by decide, by decide, fun h => ?_⟩
  have hnodup := h.nodup
  revert hnodup
  decide

end Llumnix.Scaling.Autoscaler
