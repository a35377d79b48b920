import Llumnix.Scaling.Watch

/-! What the reconciliation of the deployments does while Ray goes on: a healthy instance is left
alone, a settled cluster is put right by one round, and a look that fails starves the Manager. -/
namespace Llumnix.Scaling.DeploymentStates

open Machine Python

variable {ray : Timeline} {s s' : State} {a : Action} {as : List Action} {start : ℕ}

/-- What led to a call of `scale_down`: within five calls of Ray the group was there, and the server
or the instance was not. -/
def Justified (ray : Timeline) (e : Name × ℕ) : Prop :=
  (∃ u, e.2 ≤ u ∧ u < e.2 + 5 ∧ namesakes (getPlacementGroupName e.1) (ray u).pgs = [.created]) ∧
    ∃ u, e.2 ≤ u ∧ u < e.2 + 5 ∧ ¬Healthy e.1 (ray u)

structure Careful (ray : Timeline) (s : State) : Prop where
  justified : ∀ e ∈ s.scaledDown, Justified ray e
  nodup : (s.watches.map Watch.instanceId).Nodup

theorem map_instanceId_set {ws : List Watch} {k : ℕ} {w : Watch} (h : ws[k]? = some w)
    (stage : Stage) :
    (ws.set k { w with stage }).map Watch.instanceId = ws.map Watch.instanceId := by
  obtain ⟨hk, rfl⟩ := List.getElem?_eq_some_iff.mp h
  rw [List.map_set]
  refine List.ext_getElem (by simp) fun n hn hn' => ?_
  rw [List.getElem_set, List.getElem_map]
  split
  · rename_i heq
    subst heq
    rfl
  · rfl

theorem Careful.step (h : Careful ray s) (hstep : step ray s a = some s') : Careful ray s' := by
  cases a with
  | iterate =>
    simp only [DeploymentStates.step] at hstep
    split at hstep
    · split at hstep
      · cases hstep
        exact ⟨h.justified, h.nodup⟩
      · split at hstep <;> cases hstep
        · rename_i ids hscan
          obtain ⟨-, -, -, hnodup, -⟩ := scan_ok hscan
          refine ⟨h.justified, ?_⟩
          simpa [Function.comp_def] using hnodup
        · exact ⟨h.justified, h.nodup⟩
        · exact h
    · cases hstep
  | wake k =>
    simp only [DeploymentStates.step] at hstep
    split at hstep
    · rename_i w _ hw
      split at hstep <;> cases hstep
      refine ⟨fun e he => ?_, ?_⟩
      · rcases List.mem_append.mp he with hold | hnew
        · exact h.justified e hold
        · split at hnew
          · rename_i hdown
            cases List.mem_singleton.mp hnew
            exact unhealthy_of_verdict (resume_down hdown)
          · cases hnew
      · rw [map_instanceId_set hw]
        exact h.nodup
    · cases hstep
  | pass elapsed =>
    cases hstep
    exact ⟨h.justified, h.nodup⟩
  | gathered | interval | disable =>
    simp only [DeploymentStates.step] at hstep
    split at hstep <;> cases hstep
    exact ⟨h.justified, h.nodup⟩

/-- Only a deployment that was found incomplete is scaled down, never one that is healthy while it
is asked for; and no instance is watched twice at once. -/
theorem scale_down_justified (hrun : run (step ray) { now := start } as = some s) :
    (∀ e ∈ s.scaledDown, Justified ray e) ∧ (s.watches.map Watch.instanceId).Nodup := by
  have hinit : Careful ray { now := start } := ⟨by simp, by simp⟩
  have hcareful := run_invariant (fun _ _ _ h _ hstep => h.step hstep) hinit meets_true hrun
  exact ⟨hcareful.justified, hcareful.nodup⟩

def halfDeployed : Cluster where
  pgs := [("pg_a".toList, .created)]
  actors := [("server_a".toList, .alive)]
  named := ["server_a".toList]

theorem scale_down_justified_halfDeployed : ∃ s, run (step fun _ => halfDeployed) { now := 0 }
    [.iterate, .wake 0, .gathered] = some s ∧ s.scaledDown = [(['a'], 1)] ∧
      ∀ e ∈ s.scaledDown, Justified (fun _ => halfDeployed) e :=
  ⟨_, rfl, rfl, (@scale_down_justified _ _ [.iterate, .wake 0, .gathered] 0 rfl).1⟩

/-! ### A settled cluster -/

namespace Cluster

def ServerAlive (c : Cluster) (i : Name) : Prop :=
  if c.stateApi = none then namesakes (getServerName i) c.actors = [.alive]
  else getServerName i ∈ c.named

def InstanceAlive (c : Cluster) (i : Name) : Prop :=
  if c.stateApi = none then namesakes (getInstanceName i) c.actors = [.alive]
  else getInstanceName i ∈ c.named

/-- The group is there, and the server or the instance is not. -/
def Incomplete (c : Cluster) (i : Name) : Prop :=
  namesakes (getPlacementGroupName i) c.pgs = [.created] ∧ ¬(c.ServerAlive i ∧ c.InstanceAlive i)

/-- Ray answers, the names are unique, and those of servers and instances have no further
underscore. -/
structure Tidy (c : Cluster) : Prop where
  answers : c.stateApi = none ∨ c.controlPlane = true
  nodup : (c.actors.map Prod.fst).Nodup
  plain : ∀ name ∈ c.actors.map Prod.fst ++ c.named, ∀ i,
    name = getServerName i ∨ name = getInstanceName i → '_' ∉ i

end Cluster

section Settled
variable {c : Cluster} {now : ℕ} {i : Name}

theorem listStates_settled (h : ∀ u, now ≤ u → ray u = c) : listStates ray now i =
    match c.stateApi with
    | none => .ok (namesakes (getPlacementGroupName i) c.pgs, namesakes (getServerName i) c.actors,
        namesakes (getInstanceName i) c.actors)
    | some e => .error e := by
  unfold listStates Cluster.listPlacementGroups Cluster.listActors
  rw [h now (by omega), h (now + 1) (by omega), h (now + 2) (by omega)]
  cases c.stateApi <;> rfl

theorem verdict_settled (hc : c.Tidy) (h : ∀ u, now ≤ u → ray u = c) :
    verdict ray now i = true ↔ c.Incomplete i := by
  rw [verdict_eq_true, listStates_settled h, Cluster.Incomplete, Cluster.ServerAlive,
    Cluster.InstanceAlive]
  cases hapi : c.stateApi with
  | none =>
    simp only [tryCatch_eq_ok, Except.ok.injEq, Prod.mk.injEq, reduceCtorEq, false_and,
      exists_false, or_false, if_true]
    constructor
    · rintro ⟨pg, server, inst, ⟨rfl, rfl, rfl⟩, hpg, hdead⟩
      exact ⟨hpg, by tauto⟩
    · rintro ⟨hpg, hdead⟩
      exact ⟨_, _, _, ⟨rfl, rfl, rfl⟩, hpg, by tauto⟩
  | some e =>
    have hplane : c.controlPlane = true := hc.answers.resolve_left (by simp [hapi])
    have hstates : fallbackStates ray (now + 3) i = .ok (namesakes (getPlacementGroupName i) c.pgs,
        if c.named.contains (getServerName i) then [.alive] else [],
        if c.named.contains (getInstanceName i) then [.alive] else []) := by
      unfold fallbackStates Cluster.placementGroupTable Cluster.listNamedActors
      rw [h (now + 3) (by omega), h (now + 3 + 1) (by omega), if_pos hplane, if_pos hplane]
      rfl
    simp only [List.contains_iff_mem] at hstates
    simp only [tryCatch_eq_ok, hstates, Except.ok.injEq, Prod.mk.injEq, reduceCtorEq, false_or,
      Except.error.injEq, exists_eq_left', if_false]
    constructor
    · rintro ⟨pg, server, inst, ⟨rfl, rfl, rfl⟩, hpg, hdead⟩
      exact ⟨hpg, by grind⟩
    · rintro ⟨hpg, hdead⟩
      exact ⟨_, _, _, ⟨rfl, rfl, rfl⟩, hpg, by grind⟩

theorem created_settled {pgs actors : List Name} (h : ∀ u, now ≤ u → ray u = c)
    (hlist : tryCatch (listCreated ray now) (fun _ => fallbackCreated ray (now + 2)) =
      .ok (pgs, actors)) :
    pgs = inState .created c.pgs ∧
      actors = if c.stateApi = none then inState .alive c.actors else c.named := by
  rcases tryCatch_eq_ok.mp hlist with hstate | ⟨e, herror, hfallback⟩
  · obtain ⟨xs, hxs, hstate⟩ := bind_eq_ok.mp hstate
    obtain ⟨ys, hys, hstate⟩ := bind_eq_ok.mp hstate
    cases hstate
    rw [h now (by omega)] at hxs
    rw [h (now + 1) (by omega)] at hys
    obtain ⟨hapi, rfl⟩ := listPlacementGroups_ok hxs
    obtain ⟨-, rfl⟩ := listActors_ok hys
    exact ⟨rfl, (if_pos hapi).symm⟩
  · have hapi : c.stateApi ≠ none := by
      intro hnone
      unfold listCreated Cluster.listPlacementGroups Cluster.listActors at herror
      rw [h now (by omega), h (now + 1) (by omega), hnone] at herror
      cases herror
    obtain ⟨xs, hxs, hfallback⟩ := bind_eq_ok.mp hfallback
    obtain ⟨ys, hys, hfallback⟩ := bind_eq_ok.mp hfallback
    cases hfallback
    rw [h (now + 2) (by omega)] at hxs
    rw [h (now + 2 + 1) (by omega)] at hys
    obtain rfl := placementGroupTable_ok hxs
    obtain rfl := listNamedActors_ok hys
    exact ⟨rfl, (if_neg hapi).symm⟩

theorem mem_inState {β : Type} [DecidableEq β] {state : β} {entries : List (Name × β)}
    {name : Name} : name ∈ inState state entries ↔ (name, state) ∈ entries := by
  simp [inState]

theorem namesakes_eq {β : Type} {entries : List (Name × β)} {name : Name} {state : β}
    (hnodup : (entries.map Prod.fst).Nodup) (h : (name, state) ∈ entries) :
    namesakes name entries = [state] := by
  induction entries with
  | nil => cases h
  | cons e entries ih =>
    obtain ⟨hnot, hnodup⟩ := List.nodup_cons.mp hnodup
    rcases List.mem_cons.mp h with rfl | h
    · have hnone : entries.filter (·.1 = name) = [] := by
        rw [List.filter_eq_nil_iff]
        intro e he heq
        exact hnot (List.mem_map.mpr ⟨e, he, of_decide_eq_true heq⟩)
      simp [namesakes, hnone]
    · have hne : e.1 ≠ name := by
        rintro rfl
        exact hnot (List.mem_map.mpr ⟨_, h, rfl⟩)
      rw [namesakes, List.filter_cons_of_neg (by simpa using hne)]
      exact ih hnodup h

/-- An instance that is incomplete is found. -/
theorem mem_of_incomplete {ids : List Name} (hc : c.Tidy) (h : ∀ u, now ≤ u → ray u = c)
    (hscan : scan ray now = .ok ids) (hi : '_' ∉ i) (hincomplete : c.Incomplete i) : i ∈ ids := by
  obtain ⟨pgs, actors, hlist, -, hmem⟩ := scan_ok hscan
  obtain ⟨rfl, rfl⟩ := created_settled h hlist
  obtain ⟨hpg, hdead⟩ := hincomplete
  have hcreated : (getPlacementGroupName i, PgState.created) ∈ c.pgs := by
    have hin : PgState.created ∈ namesakes (getPlacementGroupName i) c.pgs := by simp [hpg]
    obtain ⟨e, he, hstate⟩ := List.mem_map.mp hin
    obtain ⟨he, hname⟩ := List.mem_filter.mp he
    rw [← of_decide_eq_true hname, ← hstate]
    exact he
  rw [hmem]
  refine ⟨⟨_, mem_inState.mpr hcreated, instanceIdOf_getPlacementGroupName hi⟩, ?_⟩
  -- A server or an instance of this id can only be the one of the group.
  rintro ⟨⟨server, hserver, hstart, hid⟩, inst, hinst, hstart', hid'⟩
  have hname : ∀ name ∈ (if c.stateApi = none then inState .alive c.actors else c.named),
      name ∈ c.actors.map Prod.fst ++ c.named := by
    intro name hname
    split at hname
    · exact List.mem_append_left _ (List.mem_map.mpr ⟨_, mem_inState.mp hname, rfl⟩)
    · exact List.mem_append_right _ hname
  obtain ⟨j, rfl⟩ := List.isPrefixOf_iff_prefix.mp hstart
  have hj : '_' ∉ j := hc.plain _ (hname _ hserver) j (.inl rfl)
  obtain rfl : j = i := (instanceIdOf_getServerName hj).symm.trans hid
  obtain ⟨k, rfl⟩ := List.isPrefixOf_iff_prefix.mp (Bool.and_eq_true_iff.mp hstart').2
  have hk : '_' ∉ k := hc.plain _ (hname _ hinst) k (.inr rfl)
  obtain rfl : k = j := (instanceIdOf_getInstanceName hk).symm.trans hid'
  refine hdead ⟨?_, ?_⟩
  · unfold Cluster.ServerAlive
    split
    · rename_i hapi
      rw [if_pos hapi] at hserver
      exact namesakes_eq hc.nodup (mem_inState.mp hserver)
    · rename_i hapi
      rwa [if_neg hapi] at hserver
  · unfold Cluster.InstanceAlive
    split
    · rename_i hapi
      rw [if_pos hapi] at hinst
      exact namesakes_eq hc.nodup (mem_inState.mp hinst)
    · rename_i hapi
      rwa [if_neg hapi] at hinst

/-- The watches come to a verdict on such an instance. -/
def Cluster.Due (c : Cluster) (i : Name) : Prop :=
  c.Incomplete i ∧ '_' ∉ i ∧ c.detected ≠ none

/-- Where a round on a settled cluster is. -/
structure Round (c : Cluster) (start : ℕ) (s : State) : Prop where
  later : start ≤ s.now
  sound : ∀ e ∈ s.scaledDown, c.Due e.1
  plain : ∀ w ∈ s.watches, '_' ∉ w.instanceId
  undetected : c.detected = none → ∀ w ∈ s.watches, w.stage = .asleep ∨ w.stage = .done
  watched : s.point = .gathering → ∀ i, c.Due i →
    ∃ w ∈ s.watches, w.instanceId = i ∧ (w.stage = .done → ∃ t, (i, t) ∈ s.scaledDown)
  complete : s.point = .sleeping → ∀ i, c.Due i → ∃ t, (i, t) ∈ s.scaledDown

theorem Round.wake (hc : c.Tidy) (hsettled : ∀ u, start ≤ u → ray u = c) (h : Round c start s)
    {k : ℕ} {w : Watch} (hpoint : s.point = .gathering) (hw : s.watches[k]? = some w)
    (hstage : w.stage ≠ .done) :
    Round c start { s with
      watches := s.watches.set k { w with stage := (w.resume ray s.now).1 }
      scaledDown := s.scaledDown ++
        if (w.resume ray s.now).2 then [(w.instanceId, s.now + 1)] else [] } := by
  have hlater := h.later
  have hverdict : verdict ray (s.now + 1) w.instanceId = true ↔ c.Incomplete w.instanceId :=
    verdict_settled hc fun u hu => hsettled u (by omega)
  have hmem := List.mem_of_getElem? hw
  have hplain := h.plain w hmem
  have hnone : c.detected = none → w.resume ray s.now = (.done, false) := fun hnone =>
    resume_undetected (by rw [hsettled s.now hlater, hnone]) (h.undetected hnone w hmem)
  refine ⟨hlater, fun e he => ?_, fun v hv => ?_, fun hdetected v hv => ?_, fun _ i hi => ?_,
    fun hsleep => ?_⟩
  · rcases List.mem_append.mp he with hold | hnew
    · exact h.sound e hold
    · split at hnew
      · rename_i hdown
        cases List.mem_singleton.mp hnew
        refine ⟨hverdict.mp (resume_down hdown), hplain, fun hdetected => ?_⟩
        rw [hnone hdetected] at hdown
        cases hdown
      · cases hnew
  · rcases List.mem_or_eq_of_mem_set hv with hv | rfl
    · exact h.plain v hv
    · exact hplain
  · rcases List.mem_or_eq_of_mem_set hv with hv | rfl
    · exact h.undetected hdetected v hv
    · rw [hnone hdetected]
      exact .inr rfl
  · obtain ⟨v, hv, rfl, hdone⟩ := h.watched hpoint i hi
    by_cases hvw : v = w
    · subst hvw
      refine ⟨_, List.mem_set (List.getElem?_eq_some_iff.mp hw).1 _, rfl, fun hfinal => ?_⟩
      have hdetected : (ray s.now).detected ≠ none := by
        rw [hsettled s.now hlater]
        exact hi.2.2
      have hdown := (resume_done hdetected hstage hfinal).trans (hverdict.mpr hi.1)
      exact ⟨s.now + 1, List.mem_append_right _ (by rw [if_pos hdown]; simp)⟩
    · obtain ⟨n, hn⟩ := List.mem_iff_getElem?.mp hv
      have hne : k ≠ n := by
        rintro rfl
        exact hvw (Option.some.inj (hn.symm.trans hw))
      refine ⟨v, List.mem_iff_getElem?.mpr ⟨n, by rw [List.getElem?_set_ne hne, hn]⟩, rfl, ?_⟩
      intro hfinal
      obtain ⟨t, ht⟩ := hdone hfinal
      exact ⟨t, List.mem_append_left _ ht⟩
  · rw [hpoint] at hsleep
    cases hsleep

theorem Round.step (hc : c.Tidy) (hsettled : ∀ u, start ≤ u → ray u = c) (h : Round c start s)
    (hstep : step ray s a = some s') : Round c start s' := by
  have hlater := h.later
  cases a with
  | pass elapsed =>
    cases hstep
    exact ⟨by simp; omega, h.sound, h.plain, h.undetected, h.watched, h.complete⟩
  | iterate =>
    simp only [DeploymentStates.step] at hstep
    split at hstep
    · rename_i hpoint
      split at hstep
      · cases hstep
        exact ⟨hlater, h.sound, h.plain, h.undetected, by simp, by simp⟩
      · split at hstep <;> cases hstep
        · rename_i ids hscan
          have hlook : ∀ u, s.now ≤ u → ray u = c := fun u hu => hsettled u (by omega)
          refine ⟨hlater, h.sound, fun w hw => ?_, fun _ w hw => ?_, fun _ i hi => ?_, by simp⟩
          · obtain ⟨j, hj, rfl⟩ := List.mem_map.mp hw
            obtain ⟨_, _, -, -, hmem⟩ := scan_ok hscan
            obtain ⟨⟨name, -, rfl⟩, -⟩ := (hmem j).mp hj
            exact not_mem_instanceIdOf name
          · obtain ⟨j, -, rfl⟩ := List.mem_map.mp hw
            exact .inl rfl
          · have hmem := mem_of_incomplete hc hlook hscan hi.2.1 hi.1
            exact ⟨⟨i, .asleep⟩, List.mem_map.mpr ⟨i, hmem, rfl⟩, rfl, by simp⟩
        · exact ⟨hlater, h.sound, h.plain, h.undetected, by simp, by simp⟩
        · exact h
    · cases hstep
  | wake k =>
    simp only [DeploymentStates.step] at hstep
    split at hstep
    · rename_i w hpoint hw
      split at hstep
      · cases hstep
      · rename_i hstage
        cases hstep
        exact h.wake hc hsettled hpoint hw hstage
    · cases hstep
  | gathered =>
    simp only [DeploymentStates.step] at hstep
    split at hstep <;> cases hstep
    rename_i hall
    refine ⟨hlater, h.sound, h.plain, h.undetected, by simp, fun _ i hi => ?_⟩
    obtain ⟨w, hw, rfl, hdone⟩ := h.watched hall.1 i hi
    exact hdone (of_decide_eq_true (List.all_eq_true.mp hall.2 w hw))
  | interval =>
    simp only [DeploymentStates.step] at hstep
    split at hstep <;> cases hstep
    exact ⟨hlater, h.sound, h.plain, h.undetected, by simp, by simp⟩
  | disable =>
    simp only [DeploymentStates.step] at hstep
    split at hstep <;> cases hstep
    exact ⟨hlater, h.sound, h.plain, h.undetected, h.watched, h.complete⟩

end Settled

/-- When a round on a settled cluster is over, exactly the instances with a group, but without a
server or an instance, have been scaled down; and nobody if the `list_actors` of the watches
raises. -/
theorem round_exact {c : Cluster} (hc : c.Tidy) (hsettled : ∀ u, start ≤ u → ray u = c)
    (hrun : run (step ray) { now := start } as = some s) (hover : s.point = .sleeping) (i : Name) :
    (∃ t, (i, t) ∈ s.scaledDown) ↔ c.Incomplete i ∧ '_' ∉ i ∧ c.detected ≠ none := by
  have hinit : Round c start { now := start } :=
    ⟨Nat.le_refl _, by simp, by simp, by simp, by simp, by simp⟩
  have hround := run_invariant (fun _ _ _ h _ hstep => h.step hc hsettled hstep) hinit
    meets_true hrun
  constructor
  · rintro ⟨t, ht⟩
    exact hround.sound _ ht
  · exact hround.complete hover i

theorem halfDeployed_tidy : halfDeployed.Tidy := by
  refine ⟨.inl rfl, by simp [halfDeployed], fun name hname i hi => ?_⟩
  have hserver : name = getServerName ['a'] := by
    rcases List.mem_append.mp hname with hname | hname <;> exact List.mem_singleton.mp hname
  subst hserver
  rcases hi with heq | heq
  · rw [← List.append_cancel_left heq]
    decide
  · have hhead : some 's' = some 'i' := congrArg List.head? heq
    exact absurd hhead (by decide)

theorem round_exact_halfDeployed : ∃ s, run (step fun _ => halfDeployed) { now := 0 }
    [.iterate, .wake 0, .gathered] = some s ∧
      ∀ i, (∃ t, (i, t) ∈ s.scaledDown) ↔
        halfDeployed.Incomplete i ∧ '_' ∉ i ∧ halfDeployed.detected ≠ none :=
  ⟨_, rfl, @round_exact (fun _ => halfDeployed) _ [.iterate, .wake 0, .gathered] 0 _
    halfDeployed_tidy (fun _ _ => rfl) rfl rfl⟩

/-! ### A look that fails -/

/-- While every look fails the loop goes round without an `await`. Nothing else of the Manager runs
then, so that nobody can end the loop either. -/
theorem starves_iff (hpoint : s.point = .running) (havailable : s.stateApiAvailable = true) :
    (∀ as s', run (step ray) s as = some s' → s'.point = .running) ↔
      ∀ u, s.now ≤ u → scan ray u = .error .other := by
  constructor
  · intro h u hu
    cases hscan : scan ray u with
    | error e =>
      cases e with
      | other => rfl
      | serverUnavailable => exact absurd hscan scan_ne_serverUnavailable
    | ok ids =>
      have hpass : s.now + (u - s.now) = u := by omega
      have hout := h [.pass (u - s.now), .iterate] { s with
        now := u, point := .gathering, watches := ids.map (⟨·, .asleep⟩) } (by
          simp [run, step, hpoint, havailable, hpass, hscan])
      cases hout
  · intro hfails as s' hrun
    have hinv : s'.point = .running ∧ s'.stateApiAvailable = true ∧ s.now ≤ s'.now := by
      refine run_invariant (I := fun t => t.point = .running ∧ t.stateApiAvailable = true ∧
        s.now ≤ t.now) ?_ ⟨hpoint, havailable, Nat.le_refl _⟩ meets_true hrun
      rintro t a t' ⟨hpoint, havailable, hlater⟩ - hstep
      cases a with
      | pass elapsed =>
        cases hstep
        exact ⟨hpoint, havailable, by simp; omega⟩
      | iterate =>
        simp only [step, hpoint, havailable, hfails t.now hlater] at hstep
        cases hstep
        exact ⟨hpoint, havailable, hlater⟩
      | wake k | gathered | interval | disable => simp [step, hpoint] at hstep
    exact hinv.1

def rescheduled : Cluster where
  pgs := [("pg_a".toList, .rescheduling)]
  actors := [("server_a".toList, .alive)]
  named := ["server_a".toList]

theorem starves_iff_rescheduled : ({ now := 0 } : State).stateApiAvailable = true ∧
    ∀ as s', run (step fun _ => rescheduled) { now := 0 } as = some s' → s'.point = .running :=
  ⟨rfl, (@starves_iff (fun _ => rescheduled) { now := 0 } rfl rfl).mpr fun _ _ => rfl⟩

end Llumnix.Scaling.DeploymentStates
