import Llumnix.Scaling.Deploy

/-! Who owns the places of pending instances. A deployment that fails leaves its id pending, and the
test of the capacity counts the instance that an iteration is about to go on with. -/
namespace Llumnix.Scaling.Autoscaler

open Machine Python Scheduler

variable {H G : Type} {s s' : Autoscaler H G} {a : Action H G}

/-- Every pending id has a group that is retained and not yet deployed, or is being deployed. -/
def Owned (s : Autoscaler H G) : Prop :=
  ∀ i ∈ s.pendingInstanceIds, (i ∈ s.pendingPlacementGroups ∧ i ∉ s.started) ∨
    ∃ d ∈ s.deployments, d.instanceId = i

/-- An iteration that resumes a group that is retained and not yet deployed is not turned away if
the registered and the other pending instances are fewer than `max_instances`. -/
def Admits (s : Autoscaler H G) : Action H G → Prop
  | .iterate answers => ∀ c i pg, s.checkpoint answers = .ok c → c.resumed = some (i, pg) →
      i ∈ c.state.pendingPlacementGroups → i ∉ c.state.started →
      ((c.state.manager.instances.items.length +
        (c.state.pendingInstanceIds.erase i).card : ℕ) : ℤ) < c.state.maxInstances → ¬c.Full
  | _ => True

/-- The only deployment of a pending id fails. -/
def Leaks (s : Autoscaler H G) : Action H G → Prop
  | .fail k | .callbackRaises k none =>
    ∃ d, s.deployments[k]? = some d ∧ d.instanceId ∈ s.pendingInstanceIds ∧
      ∀ d' ∈ s.deployments.eraseIdx k, d'.instanceId ≠ d.instanceId
  | _ => False

/-- An iteration resumes a group that is not yet deployed, when its own id is the last one for which
there was room or when as many groups are alive in the cluster. -/
def SelfBlocks (s : Autoscaler H G) : Action H G → Prop
  | .iterate answers => ∃ c i pg, s.checkpoint answers = .ok c ∧ c.resumed = some (i, pg) ∧
      i ∈ c.state.pendingPlacementGroups ∧ i ∉ c.state.started ∧ c.state.maxInstances ≠ -1 ∧
      (c.state.load : ℤ) ≤ c.state.maxInstances ∧
      ((c.state.load : ℤ) = c.state.maxInstances ∨ c.state.maxInstances ≤ c.alive)
  | _ => False

/-! ### The places -/

theorem owned_start (m : Manager H) (l : Launcher) (args : EntrypointsArgs) (maxInstances : ℤ)
    (launched : List Deployment) :
    (start m l args maxInstances launched : Autoscaler H G).Owned := by
  intro i hi
  obtain ⟨d, hd, hid⟩ := List.mem_map.mp (List.mem_toFinset.mp hi)
  exact .inr ⟨d, hd, hid⟩

theorem Owned.shrinks (h : s.Owned) (hs : Shrinks s s') : s'.Owned := by
  intro i hi
  obtain ⟨hpending, hkeep⟩ := hs.pending i hi
  rw [hs.started, hs.deployments]
  rcases h i hpending with ⟨hretained, hnew⟩ | hdeployed
  · exact .inl ⟨hkeep hretained, hnew⟩
  · exact .inr hdeployed

theorem Owned.iterate (h : s.Owned) (hissued : s.Issued) {answers : Answers G}
    (hi : Iterates s answers s') : s'.Owned := by
  cases hi with
  | stops hs => exact h.shrinks hs
  | resumes hc _ _ =>
    have hstate := h.shrinks (checkpoint_ok hc).1
    exact hstate
  | @creates c pg hc _ hnew =>
    have hs := (checkpoint_ok hc).1
    have hstate := h.shrinks hs
    intro i hi
    rcases Finset.mem_insert.mp hi with rfl | hold
    · refine .inl ⟨Dict.mem_set.mpr (.inl rfl), fun hstarted => hnew ?_⟩
      have hstarted' : answers.newInstanceId ∈ s.started := hs.started ▸ hstarted
      exact hissued.calls _ (hissued.started _ hstarted')
    · rcases hstate i hold with ⟨hretained, hnew⟩ | hdeployed
      · exact .inl ⟨Dict.mem_set.mpr (.inr hretained), hnew⟩
      · exact .inr hdeployed

theorem Owned.deploy (h : s.Owned) (i : String) (fault : Option Fault) :
    (s.deploy i fault).Owned := by
  rcases deploy_cases s i fault with ⟨launcher, heq⟩ | ⟨launcher, d, hd, heq⟩
  · rw [heq]
    exact h
  · rw [heq]
    intro j hj
    by_cases hji : j = i
    · exact .inr ⟨d, List.mem_append_right _ (List.mem_singleton.mpr rfl), hd.trans hji.symm⟩
    · rcases h j hj with ⟨hretained, hnew⟩ | ⟨d', hd', hid⟩
      · exact .inl ⟨hretained, fun hmem => (List.mem_cons.mp hmem).elim hji hnew⟩
      · exact .inr ⟨d', List.mem_append_left _ hd', hid⟩

theorem mem_eraseIdx_of_ne {k : ℕ} {d d' : Deployment} (hd : s.deployments[k]? = some d)
    (hd' : d' ∈ s.deployments) (hne : d' ≠ d) : d' ∈ s.deployments.eraseIdx k := by
  obtain ⟨j, hj⟩ := List.mem_iff_getElem?.mp hd'
  refine List.mem_eraseIdx_iff_getElem?.mpr ⟨j, fun hjk => hne ?_, hj⟩
  rw [hjk, hd] at hj
  exact (Option.some.inj hj).symm

theorem Owned.registers (h : s.Owned) {k : ℕ} {d : Deployment} (hd : s.deployments[k]? = some d)
    (handle : H) (fault : Option ScaleUpFault) :
    ((s.finish k fault d).scaleUp d handle).Owned := by
  intro i hi
  obtain ⟨hne, hpending⟩ := Finset.mem_erase.mp hi
  rcases h i hpending with ⟨hretained, hnew⟩ | ⟨d', hd', hid⟩
  · exact .inl ⟨Dict.mem_erase.mpr ⟨hne, hretained⟩, hnew⟩
  · refine .inr ⟨d', mem_eraseIdx_of_ne hd hd' fun heq => hne ?_, hid⟩
    rw [← hid, heq]

theorem owned_finish_iff (h : s.Owned) (hissued : s.Issued) {k : ℕ} {d : Deployment}
    (hd : s.deployments[k]? = some d) (fault : Option ScaleUpFault) :
    (s.finish k fault d).Owned ↔ ¬s.Leaks (.fail k) := by
  have hstarted : d.instanceId ∈ s.started := hissued.deployments d (List.mem_of_getElem? hd)
  constructor
  · rintro howned ⟨d₁, hd₁, hpending, hothers⟩
    rw [hd] at hd₁
    cases hd₁
    rcases howned d.instanceId hpending with ⟨-, hnew⟩ | ⟨d', hd', hid⟩
    · exact hnew hstarted
    · exact hothers d' hd' hid
  · intro hkept i hi
    rcases h i hi with hretained | ⟨d', hd', hid⟩
    · exact .inl hretained
    · by_cases hne : d' = d
      · -- the deployment that fails is not the only one
        subst hne
        by_contra hlost
        refine hkept ⟨d', hd, hid ▸ hi, fun e he heq => hlost (.inr ⟨e, he, heq.trans hid⟩)⟩
      · exact .inr ⟨d', mem_eraseIdx_of_ne hd hd' hne, hid⟩

theorem owned_step_iff (h : s.Owned) (hissued : s.Issued) (a : Action H G) :
    (∀ s', s.step a = some s' → s'.Owned) ↔ ¬s.Leaks a := by
  constructor
  · intro hnext hleaks
    have hfails : ∀ k fault d, s.step a = some (s.finish k fault d) → s.deployments[k]? = some d →
        ¬s.Leaks (.fail k) :=
      fun k fault d hfinish hd => (owned_finish_iff h hissued hd fault).mp (hnext _ hfinish)
    cases a with
    | fail k =>
      obtain ⟨d, hd, -⟩ := id hleaks
      exact hfails k (some .waiting) d (by simp [Autoscaler.step, hd]) hd hleaks
    | callbackRaises k registered =>
      cases registered with
      | none =>
        obtain ⟨d, hd, -⟩ := id hleaks
        exact hfails k (some .callback) d (by simp [Autoscaler.step, hd]) hd hleaks
      | some handle => exact hleaks
    | _ => exact hleaks
  · intro hkept s' hstep
    cases steps_of_step hstep with
    | iterate _ hi => exact h.iterate hissued hi
    | ready _ fault => exact h.deploy _ fault
    | registers handle fault hd _ => exact h.registers hd handle fault
    | fails fault ha hd =>
      rcases ha with rfl | rfl <;> exact (owned_finish_iff h hissued hd fault).mpr hkept
    | shrinks hs => exact h.shrinks hs
    | _ => exact h

/-! ### The test of the capacity -/

theorem admits_iff (h : s.Tracked) (a : Action H G) : s.Admits a ↔ ¬s.SelfBlocks a := by
  cases a with
  | iterate answers =>
    -- a group that is retained belongs to a pending id, which is counted once more in the test
    have hothers : ∀ c i, s.checkpoint answers = .ok c → i ∈ c.state.pendingPlacementGroups →
        c.state.load = c.state.manager.instances.items.length +
          (c.state.pendingInstanceIds.erase i).card + 1 := by
      intro c i hc hi
      have hpending := (h.shrinks (checkpoint_ok hc).1).retained i hi
      have hcard := Finset.card_erase_add_one hpending
      unfold load
      omega
    constructor
    · rintro hadmits ⟨c, i, pg, hc, hresumed, hi, hnew, hmax, hle, htight⟩
      have hload := hothers c i hc hi
      refine hadmits c i pg hc hresumed hi hnew (by omega) ⟨hmax, ?_⟩
      rcases htight with htight | htight <;> omega
    · intro hfree c i pg hc hresumed hi hnew hroom hfull
      have hload := hothers c i hc hi
      obtain ⟨hmax, hmax'⟩ := hfull
      exact hfree ⟨c, i, pg, hc, hresumed, hi, hnew, hmax, by omega, by omega⟩
  | _ => simp [Admits, SelfBlocks]

/-- Places are neither lost nor in the way of their own instances exactly if no deployment fails
that is the only one of a pending id, and no iteration resumes a group that is not yet deployed when
its own id fills the last place or as many groups are alive. -/
theorem slots_owned_and_admitting_iff (m : Manager H) (l : Launcher) (args : EntrypointsArgs)
    (maxInstances : ℤ) (launched : List Deployment) (as : List (Action H G)) :
    (start m l args maxInstances launched : Autoscaler H G).Owned ∧
      Meets step (fun s a => (∀ s', s.step a = some s' → s'.Owned) ∧ s.Admits a)
        (start m l args maxInstances launched) as ↔
      Meets step (fun s a => ¬s.Leaks a ∧ ¬s.SelfBlocks a)
        (start m l args maxInstances launched) as := by
  have hstart : (start m l args maxInstances launched : Autoscaler H G).Owned :=
    owned_start m l args maxInstances launched
  rw [and_iff_right hstart]
  refine meets_iff (I := fun s => s.Tracked ∧ s.Issued ∧ s.Owned)
    (fun s a s' h _ hok hstep => ⟨h.1.step hstep, h.2.1.step hstep, hok.1 s' hstep⟩)
    (fun s a h _ => and_congr (owned_step_iff h.2.2 h.2.1 a) (admits_iff h.1 a))
    ⟨tracked_start m l args maxInstances launched, issued_start m l args maxInstances launched,
      hstart⟩ meets_true

/-- The deployment of the only instance fails, and its place is not given back. Or its group is
late: without the State API every iteration is turned away, though nothing else is registered or
pending. -/
theorem slot_lost_and_blocked :
    (∃ s : Autoscaler Unit Unit,
      run step (sampleStart 1) [.iterate (fresh "a"), .ready none, .fail 0] = some s ∧
        s.pendingInstanceIds = {"a"} ∧ s.deployments = [] ∧ s.started = ["a"] ∧ ¬s.Owned) ∧
    ∃ s : Autoscaler Unit Unit,
      run step (sampleStart 1) [.disable, .iterate (fresh "a"), .timeout] = some s ∧
        "a" ∈ s.pendingPlacementGroups ∧ s.started = [] ∧ s.load = 1 ∧
        (∀ answers, ∃ s', s.step (.iterate answers) = some s' ∧ s'.point = .idle) ∧
        ¬s.Admits (.iterate (fresh "b")) := by
  constructor
  · refine ⟨_, rfl, by decide, by decide, by decide, fun h => ?_⟩
    rcases h "a" (by decide) with ⟨-, hnew⟩ | ⟨d, hd, -⟩
    · exact hnew (by decide)
    · cases hd
  · refine ⟨_, rfl, by decide, by decide, by decide, fun answers => ⟨_, rfl, rfl⟩, fun h => ?_⟩
    exact h _ "a" () rfl rfl (by decide) (by decide) (by decide) (by decide)

end Llumnix.Scaling.Autoscaler
