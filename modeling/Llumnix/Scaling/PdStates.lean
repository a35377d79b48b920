import Llumnix.Machine.Run
import Llumnix.Scheduler.Registries

/-! `_check_pd_deployment_states_loop`: when placement groups stay pending while all instances have
the same role, one of these instances makes room. -/
namespace Llumnix.Scaling.PdStates

open Machine Python Scheduler

variable {H : Type}

/-- The names of the groups that are PENDING, those that are RESCHEDULING, and those that are
PENDING at the second look; `none` is an exception. -/
structure Answers where
  pending : Option (List String)
  rescheduling : Option (List String)
  again : Option (List String)

/-- `previous` is empty for `None`. `removed` are the instances that `_check_pd_deployment_states`
has scaled down, each with the Manager and the two lists of pending groups before that. -/
structure State (H : Type) where
  manager : Manager H
  previous : List String := []
  stateApiAvailable : Bool := true
  returned : Bool := false
  removed : List (String × Manager H × List String × List String) := []

/-- `chosen` is what `random.choice` gives, if it is called. -/
inductive Action (H : Type)
  | iterate (answers : Answers) (chosen : String)
  | call (a : Scheduler.Action H)
  | disable

/-- `scale_down_instance_id`, or nothing where `chosen` cannot have been drawn. -/
def scaleDownInstanceId (m : Manager H) (chosen : String) : Option String :=
  let sets := m.globalScheduler.scalingScheduler.instanceTypeIdSet
  if sets .prefill = ∅ ∧ sets .decode ≠ ∅ then
    if chosen ∈ sets .decode then some chosen else none
  else if sets .decode = ∅ ∧ sets .prefill ≠ ∅ then
    if chosen ∈ sets .prefill then some chosen else none
  else some ""

def checkPdDeploymentStates (s : State H) (again : List String) (chosen : String) :
    Option (State H) :=
  (scaleDownInstanceId s.manager chosen).map fun i =>
    if i ≠ "" then
      { s with
        manager := (s.manager.scaleDown [i] true).1
        removed := s.removed ++ [(i, s.manager, s.previous, again)] }
    else s

/-- Any exception ends the loop and all reconciliation by the State API. -/
def giveUp (s : State H) : State H := { s with stateApiAvailable := false, returned := true }

def iterate (s : State H) (answers : Answers) (chosen : String) : Option (State H) :=
  if s.stateApiAvailable then
    match answers.pending, answers.rescheduling with
    | some pending, some rescheduling =>
      if s.previous ≠ [] ∧ rescheduling = [] then
        match answers.again with
        | some again =>
          if s.previous ⊆ again then
            (checkPdDeploymentStates s again chosen).map fun s => { s with previous := again }
          else some { s with previous := again }
        | none => some (giveUp s)
      else some { s with previous := pending }
    | _, _ => some (giveUp s)
  else some { s with returned := true }

def step (round : ℚ → Number) (s : State H) : Action H → Option (State H)
  | .iterate answers chosen => if s.returned then none else iterate s answers chosen
  | .call a => some { s with manager := s.manager.apply round a }
  | .disable => some { s with stateApiAvailable := false }

/-! ### Which instance makes room -/

/-- The instance has a role, and no instance has the other one. -/
def OnlyRole (c : Cluster) (i : String) : Prop :=
  ∃ t, t ≠ .noConstraints ∧ c.get? i = some t ∧
    ∀ j u, c.get? j = some u → u = t ∨ u = .noConstraints

section Choice
variable {m : Manager H} {c : Cluster} {chosen i : String}

theorem sets_eq_empty (h : m.Describes c) {t : InstanceType} :
    m.globalScheduler.scalingScheduler.instanceTypeIdSet t = ∅ ↔ ∀ j, c.get? j ≠ some t := by
  simp [Finset.eq_empty_iff_forall_notMem, h.scheduler.types]

theorem onlyRole_of_chosen (h : m.Describes c) (hi : scaleDownInstanceId m chosen = some i)
    (hne : i ≠ "") : OnlyRole c i := by
  unfold scaleDownInstanceId at hi
  simp only at hi
  split at hi
  · rename_i hroles
    split at hi <;> cases hi
    rename_i hmem
    refine ⟨.decode, by simp, (h.scheduler.types _ _).mp hmem, fun j u hj => ?_⟩
    cases u with
    | noConstraints => exact .inr rfl
    | decode => exact .inl rfl
    | prefill => exact absurd hj ((sets_eq_empty h).mp hroles.1 j)
  · split at hi
    · rename_i hroles
      split at hi <;> cases hi
      rename_i hmem
      refine ⟨.prefill, by simp, (h.scheduler.types _ _).mp hmem, fun j u hj => ?_⟩
      cases u with
      | noConstraints => exact .inr rfl
      | prefill => exact .inl rfl
      | decode => exact absurd hj ((sets_eq_empty h).mp hroles.1 j)
    · cases hi
      exact absurd rfl hne

theorem mem_of_chosen (h : m.Describes c) {t : InstanceType} (ht : t ≠ .noConstraints)
    (hroles : ∀ j u, c.get? j = some u → u = t ∨ u = .noConstraints)
    (hne : m.globalScheduler.scalingScheduler.instanceTypeIdSet t ≠ ∅)
    (hi : scaleDownInstanceId m chosen = some i) :
    i = chosen ∧ chosen ∈ m.globalScheduler.scalingScheduler.instanceTypeIdSet t := by
  have hempty : ∀ u, u ≠ t → u ≠ .noConstraints →
      m.globalScheduler.scalingScheduler.instanceTypeIdSet u = ∅ := by
    intro u hut hun
    rw [sets_eq_empty h]
    intro j hj
    exact (hroles j u hj).elim hut hun
  unfold scaleDownInstanceId at hi
  cases t with
  | noConstraints => exact absurd rfl ht
  | decode =>
    simp only [hempty .prefill (by simp) (by simp), hne, ne_eq, not_false_eq_true, and_self,
      if_true] at hi
    split at hi <;> cases hi
    exact ⟨rfl, by assumption⟩
  | prefill =>
    simp only [hempty .decode (by simp) (by simp), hne, ne_eq, not_true_eq_false,
      not_false_eq_true, and_self, if_true, if_false] at hi
    split at hi <;> cases hi
    exact ⟨rfl, by assumption⟩

theorem sets_scaleDown (h : m.Describes c) (t : InstanceType) :
    (m.scaleDown [i] true).1.globalScheduler.scalingScheduler.instanceTypeIdSet t =
      (m.globalScheduler.scalingScheduler.instanceTypeIdSet t).erase i := by
  ext j
  rw [(describes_scaleDown h [i] true).scheduler.types, Finset.mem_erase, h.scheduler.types]
  exact Dict.get?_erase_eq_some

end Choice

/-! ### Runs -/

section Runs
variable {round : ℚ → Number} {s s' : State H} {a : Action H} {as : List (Action H)}
  {again : List String} {chosen : String}

/-- Groups were pending at two looks in a row, and all of the first look still were at the second,
when the Manager had instances of one role only. -/
def Justified (e : String × Manager H × List String × List String) : Prop :=
  e.2.2.1 ≠ [] ∧ e.2.2.1 ⊆ e.2.2.2 ∧ ∃ c, e.2.1.Describes c ∧ OnlyRole c e.1

structure Careful (s : State H) : Prop where
  describes : ∃ c, s.manager.Describes c
  removed : ∀ e ∈ s.removed, Justified e

theorem Careful.check (h : Careful s) (hprevious : s.previous ≠ []) (hagain : s.previous ⊆ again)
    (hcheck : checkPdDeploymentStates s again chosen = some s') : Careful s' := by
  obtain ⟨i, hi, rfl⟩ := Option.map_eq_some_iff.mp hcheck
  obtain ⟨c, hc⟩ := h.describes
  split
  · rename_i hne
    refine ⟨⟨_, describes_scaleDown hc [i] true⟩, fun e he => ?_⟩
    rcases List.mem_append.mp he with hold | hnew
    · exact h.removed e hold
    · cases List.mem_singleton.mp hnew
      exact ⟨hprevious, hagain, c, hc, onlyRole_of_chosen hc hi hne⟩
  · exact h

theorem Careful.step (h : Careful s) (hstep : step round s a = some s') : Careful s' := by
  cases a with
  | iterate answers chosen =>
    simp only [PdStates.step, iterate] at hstep
    split at hstep
    · cases hstep
    · split at hstep
      · split at hstep
        · split at hstep
          · rename_i hlook
            split at hstep
            · split at hstep
              · rename_i hagain
                obtain ⟨t, ht, rfl⟩ := Option.map_eq_some_iff.mp hstep
                exact ⟨(h.check hlook.1 hagain ht).describes, (h.check hlook.1 hagain ht).removed⟩
              · cases hstep
                exact ⟨h.describes, h.removed⟩
            · cases hstep
              exact ⟨h.describes, h.removed⟩
          · cases hstep
            exact ⟨h.describes, h.removed⟩
        · cases hstep
          exact ⟨h.describes, h.removed⟩
      · cases hstep
        exact ⟨h.describes, h.removed⟩
  | call a =>
    cases hstep
    obtain ⟨c, hc⟩ := h.describes
    exact ⟨⟨_, describes_apply round hc a⟩, h.removed⟩
  | disable =>
    cases hstep
    exact ⟨h.describes, h.removed⟩

/-- Whatever else happens to the cluster, an instance is removed only while there are instances of
its role, none of the other one, and groups that stay pending. -/
theorem removed_only_role {manager : Manager H} {c : Cluster} (hmanager : manager.Describes c)
    (hrun : run (step round) { manager } as = some s) : ∀ e ∈ s.removed, Justified e := by
  have hinit : Careful ({ manager } : State H) := ⟨⟨c, hmanager⟩, by simp⟩
  exact (run_invariant (fun _ _ _ h _ hstep => h.step hstep) hinit meets_true hrun).removed

/-- Two decode instances, and one without a role. -/
def decodeOnly : Manager Unit :=
  ((Manager.init false false true .load 1 .balanced (.fin 0)).scaleUp
    [⟨"a", (), .decode⟩, ⟨"b", (), .decode⟩, ⟨"c", (), .noConstraints⟩]).1

def decodeOnlyCluster : Cluster :=
  ((Dict.empty.set "a" .decode).set "b" .decode).set "c" .noConstraints

theorem describes_decodeOnly : decodeOnly.Describes decodeOnlyCluster :=
  describes_scaleUp (describes_init false false true .load 1 .balanced (.fin 0)) _

/-- The State API answers that the same groups are pending, and none is being rescheduled. -/
def stuck (pending : List String) : Answers := ⟨some pending, some [], some pending⟩

theorem removed_only_role_decodeOnly : ∃ s, run (step fun _ => .fin 0) { manager := decodeOnly }
    [.iterate (stuck ["pg_d"]) "", .iterate (stuck ["pg_d"]) "a"] = some s ∧
      s.removed.map Prod.fst = ["a"] ∧ ∀ e ∈ s.removed, Justified e :=
  ⟨_, rfl, rfl, @removed_only_role Unit (fun _ => .fin 0) _
    [.iterate (stuck ["pg_d"]) "", .iterate (stuck ["pg_d"]) "a"] _ _ describes_decodeOnly rfl⟩

/-! ### Groups that stay pending -/

/-- Where the loop is while the groups stay pending: `left` instances of the only role are there. -/
structure Draining (pending : List String) (t : InstanceType) (c : Cluster) (left : ℕ)
    (s : State H) : Prop where
  available : s.stateApiAvailable = true
  running : s.returned = false
  previous : s.previous = pending
  describes : s.manager.Describes c
  named : c.get? "" = none
  roles : ∀ j u, c.get? j = some u → u = t ∨ u = .noConstraints
  left : (s.manager.globalScheduler.scalingScheduler.instanceTypeIdSet t).card = left

variable {pending draws : List String} {t : InstanceType} {c : Cluster} {left : ℕ}

/-- A look removes the instance that is drawn. -/
theorem Draining.iterate (h : Draining pending t c (left + 1) s) (hpending : pending ≠ [])
    (ht : t ≠ .noConstraints) (hstep : step round s (.iterate (stuck pending) chosen) = some s') :
    Draining pending t (c.erase chosen) left s' ∧ c.get? chosen = some t ∧
      s'.removed.map Prod.fst = s.removed.map Prod.fst ++ [chosen] := by
  have hne : s.manager.globalScheduler.scalingScheduler.instanceTypeIdSet t ≠ ∅ := by
    intro heq
    have hcard := h.left
    rw [heq] at hcard
    simp at hcard
  simp only [PdStates.step, h.running, PdStates.iterate, h.available, stuck, h.previous] at hstep
  simp only [ne_eq, hpending, not_false_eq_true, true_and, if_true, List.Subset.refl] at hstep
  obtain ⟨u, hcheck, rfl⟩ := Option.map_eq_some_iff.mp hstep
  obtain ⟨i, hi, rfl⟩ := Option.map_eq_some_iff.mp hcheck
  obtain ⟨rfl, hmem⟩ := mem_of_chosen h.describes ht h.roles hne hi
  have hrole := (h.describes.scheduler.types _ _).mp hmem
  have hnamed : i ≠ "" := by
    rintro rfl
    cases h.named.symm.trans hrole
  simp only [hnamed, ne_eq, not_false_eq_true, if_true]
  refine ⟨⟨h.available, h.running, rfl, describes_scaleDown h.describes [i] true, ?_, ?_, ?_⟩,
    hrole, by simp⟩
  · rw [Dict.get?_erase, if_neg (Ne.symm hnamed)]
    exact h.named
  · exact fun j u hj => h.roles j u (Dict.get?_erase_eq_some.mp hj).2
  · rw [sets_scaleDown h.describes, Finset.card_erase_of_mem hmem, h.left]
    rfl

/-- So many looks remove so many instances of the role, those that are drawn. -/
theorem Draining.run (h : Draining pending t c (draws.length + left) s) (hpending : pending ≠ [])
    (ht : t ≠ .noConstraints)
    (hrun : Machine.run (step round) s (draws.map (.iterate (stuck pending))) = some s') :
    (draws.Nodup ∧ ∀ i ∈ draws, c.get? i = some t) ∧
      s'.removed.map Prod.fst = s.removed.map Prod.fst ++ draws ∧
      ∃ c', Draining pending t c' left s' ∧
        ∀ j u, c'.get? j = some u ↔ j ∉ draws ∧ c.get? j = some u := by
  induction draws generalizing s c with
  | nil =>
    cases hrun
    rw [List.length_nil, Nat.zero_add] at h
    exact ⟨by simp, by simp, c, h, by simp⟩
  | cons chosen draws ih =>
    obtain ⟨u, hu, hrun⟩ := Option.bind_eq_some_iff.mp hrun
    rw [List.length_cons, Nat.add_right_comm] at h
    obtain ⟨hnext, hrole, hremoved⟩ := h.iterate hpending ht hu
    obtain ⟨⟨hnodup, hroles⟩, hremoved', c', hend, hc'⟩ := ih hnext hrun
    have hother : ∀ i ∈ draws, i ≠ chosen ∧ c.get? i = some t :=
      fun i hi => Dict.get?_erase_eq_some.mp (hroles i hi)
    refine ⟨⟨List.nodup_cons.mpr ⟨fun hi => (hother chosen hi).1 rfl, hnodup⟩,
      List.forall_mem_cons.mpr ⟨hrole, fun i hi => (hother i hi).2⟩⟩, ?_, c', hend, fun j u => ?_⟩
    · rw [hremoved', hremoved, List.append_assoc, List.singleton_append]
    · rw [hc', Dict.get?_erase_eq_some, List.mem_cons, not_or]
      tauto

/-- As long as the same groups stay pending, every look removes one instance of the only role, until
there is none left; those without a role stay. -/
theorem pool_drains (hpending : pending ≠ []) (ht : t ≠ .noConstraints)
    (hmanager : s.manager.Describes c) (hnamed : c.get? "" = none)
    (hroles : ∀ j u, c.get? j = some u → u = t ∨ u = .noConstraints)
    (hloop : s.stateApiAvailable = true ∧ s.returned = false ∧ s.previous = pending)
    (hdraws : draws.length ≤
      (s.manager.globalScheduler.scalingScheduler.instanceTypeIdSet t).card)
    (hrun : run (step round) s (draws.map (.iterate (stuck pending))) = some s') :
    (draws.Nodup ∧ ∀ i ∈ draws, c.get? i = some t) ∧
      s'.removed.map Prod.fst = s.removed.map Prod.fst ++ draws ∧
      ∃ c', s'.manager.Describes c' ∧
        (∀ j u, c'.get? j = some u ↔ j ∉ draws ∧ c.get? j = some u) ∧
        (draws.length = (s.manager.globalScheduler.scalingScheduler.instanceTypeIdSet t).card →
          ∀ j u, c'.get? j = some u ↔ u = .noConstraints ∧ c.get? j = some .noConstraints) := by
  obtain ⟨left, hleft⟩ := Nat.exists_eq_add_of_le hdraws
  have hstart : Draining pending t c (draws.length + left) s :=
    ⟨hloop.1, hloop.2.1, hloop.2.2, hmanager, hnamed, hroles, hleft⟩
  obtain ⟨hdrawn, hremoved, c', hend, hc'⟩ := hstart.run hpending ht hrun
  refine ⟨hdrawn, hremoved, c', hend.describes, hc', fun hall j u => ⟨fun hj => ?_, ?_⟩⟩
  · rcases hend.roles j u hj with rfl | rfl
    · have hzero := hend.left
      rw [show left = 0 by omega, Finset.card_eq_zero] at hzero
      exact absurd hj ((sets_eq_empty hend.describes).mp hzero j)
    · exact ⟨rfl, ((hc' j _).mp hj).2⟩
  · rintro ⟨rfl, hj⟩
    refine (hc' j _).mpr ⟨fun hmem => ht ?_, hj⟩
    exact Option.some.inj ((hdrawn.2 j hmem).symm.trans hj)

theorem pool_drains_decodeOnly : ∃ s', run (step fun _ => .fin 0)
    { manager := decodeOnly, previous := ["pg_d"] }
      (["b", "a"].map (.iterate (stuck ["pg_d"]))) = some s' ∧
      s'.removed.map Prod.fst = ["b", "a"] ∧
      ∃ c', s'.manager.Describes c' ∧ ∀ j u, c'.get? j = some u ↔
        u = .noConstraints ∧ decodeOnlyCluster.get? j = some .noConstraints := by
  have hroles : ∀ j u, decodeOnlyCluster.get? j = some u → u = .decode ∨ u = .noConstraints := by
    intro j u hj
    simp only [decodeOnlyCluster, Dict.get?_set, Dict.get?_empty] at hj
    grind
  obtain ⟨-, hremoved, c', hc', -, hall⟩ :=
    @pool_drains Unit (fun _ => .fin 0) { manager := decodeOnly, previous := ["pg_d"] }
      _ ["pg_d"] ["b", "a"] .decode _ (by decide) (by decide) describes_decodeOnly rfl hroles
      ⟨rfl, rfl, rfl⟩ (Nat.le_refl 2) rfl
  exact ⟨_, rfl, hremoved, c', hc', hall rfl⟩

end Runs

end Llumnix.Scaling.PdStates
