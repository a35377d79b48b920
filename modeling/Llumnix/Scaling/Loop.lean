import Llumnix.Machine.Run
import Llumnix.Scaling.Launcher

/-! `_auto_scale_up_loop` of the Manager, with the deployments that it starts and the calls of
`scale_up` and `scale_down` that come in between. -/
namespace Llumnix.Scaling

open Machine Python Scheduler

/-- What a call of Ray gives, where a missing State API is told from other errors. -/
inductive Reply (α : Type)
  | ok (value : α)
  | serverUnavailable
  | raises

/-- What an iteration is told: the group of the instance that timed out last; the instances whose
groups are PENDING or RESCHEDULING, and the number of groups that are not REMOVED; the id and the
group that a new instance would have. -/
structure Answers (G : Type) where
  lookup : Reply (Option G)
  states : Reply (List String × ℕ)
  newInstanceId : String
  newPg : Option G

/-- Where the loop is. -/
inductive Point (G : Type)
  | idle
  | waiting (instanceId : String) (pg : G)

/-- `calls` are the ids for which `init_server_and_instance` has been called, and `started` those
for which it returned. `scaledDown` and `known` are all ids that have been scaled down or given
out. -/
structure Autoscaler (H G : Type) where
  manager : Manager H
  launcher : Launcher
  entrypointsArgs : EntrypointsArgs
  maxInstances : ℤ
  pendingInstanceIds : Finset String := ∅
  pendingPlacementGroups : Dict String G := .empty
  lastTimeoutInstanceId : Option String := none
  stateApiAvailable : Bool := true
  point : Point G := .idle
  deployments : List Deployment := []
  calls : List String := []
  started : List String := []
  scaledDown : Finset String := ∅
  known : Finset String := ∅

inductive Action (H G : Type)
  | iterate (answers : Answers G)
  | ready (fault : Option Fault)
  | timeout
  | waitFails (serverUnavailable : Bool)
  | complete (k : ℕ) (handle : H)
  | fail (k : ℕ)
  /-- The `scale_up` that `done_scale_up` calls raises, after the instance was registered or
  before. -/
  | callbackRaises (k : ℕ) (registered : Option H)
  | scaleDown (instanceIds : List String) (rebuildMigrationBackend : Bool)
  | disable

/-- An iteration at the test of the capacity: the state, the group that is resumed and
`len(alive_pg_states)`. -/
structure Checkpoint (H G : Type) where
  state : Autoscaler H G
  resumed : Option (String × G)
  alive : ℕ

namespace Autoscaler
variable {H G : Type}

/-- The loop starts when the instances of `init_global_instances` have been launched. -/
def start (manager : Manager H) (launcher : Launcher) (entrypointsArgs : EntrypointsArgs)
    (maxInstances : ℤ) (launched : List Deployment) : Autoscaler H G where
  manager := manager
  launcher := launcher
  entrypointsArgs := entrypointsArgs
  maxInstances := maxInstances
  pendingInstanceIds := (launched.map (·.instanceId)).toFinset
  deployments := launched
  calls := launched.map (·.instanceId)
  started := launched.map (·.instanceId)
  known := manager.instances.keySet ∪ (launched.map (·.instanceId)).toFinset

def scaleUp (s : Autoscaler H G) (d : Deployment) (handle : H) : Autoscaler H G :=
  { s with
    manager := (s.manager.scaleUp [⟨d.instanceId, handle, d.instanceType⟩]).1
    pendingInstanceIds := s.pendingInstanceIds.erase d.instanceId
    pendingPlacementGroups := s.pendingPlacementGroups.erase d.instanceId }

def scaleDown (s : Autoscaler H G) (instanceIds : List String) (rebuild : Bool) :
    Autoscaler H G :=
  { s with
    manager := (s.manager.scaleDown instanceIds rebuild).1
    pendingInstanceIds := s.pendingInstanceIds \ instanceIds.toFinset
    pendingPlacementGroups := instanceIds.foldl Dict.erase s.pendingPlacementGroups
    scaledDown := s.scaledDown ∪ instanceIds.toFinset }

/-- The group of the instance that timed out last, by the State API. -/
def resumeByName (s : Autoscaler H G) (lookup : Reply (Option G)) :
    Option (Autoscaler H G × Option (String × G)) :=
  match s.stateApiAvailable, s.lastTimeoutInstanceId with
  | true, some instanceId =>
    match lookup with
    | .ok pg => some ({ s with lastTimeoutInstanceId := none }, pg.map (instanceId, ·))
    | .serverUnavailable =>
      some ({ s with lastTimeoutInstanceId := none, stateApiAvailable := false }, none)
    | .raises => none
  | _, _ => some (s, none)

/-- Without the State API, the first group that is retained. -/
def resume (s : Autoscaler H G) (lookup : Reply (Option G)) :
    Option (Autoscaler H G × Option (String × G)) :=
  (s.resumeByName lookup).map fun r =>
    if r.1.stateApiAvailable then r else (r.1, r.1.pendingPlacementGroups.items.head?.or r.2)

def survey (s : Autoscaler H G) (states : Reply (List String × ℕ)) :
    Option (Autoscaler H G × List String × ℕ) :=
  if s.stateApiAvailable then
    match states with
    | .ok r => some (s, r)
    | .serverUnavailable => some ({ s with stateApiAvailable := false }, [], 0)
    | .raises => none
  else some (s, [], 0)

/-- Groups that wait for resources are removed, except for the one that is resumed. -/
def reclaim (s : Autoscaler H G) (resumed : Option (String × G)) (instanceIds : List String) :
    Autoscaler H G :=
  (instanceIds.filter fun i => resumed.map Prod.fst ≠ some i).foldl
    (fun s i => s.scaleDown [i] true) s

/-- An iteration up to the test of the capacity, or the state in which an exception leaves it. -/
def checkpoint (s : Autoscaler H G) (answers : Answers G) :
    Except (Autoscaler H G) (Checkpoint H G) :=
  match s.resume answers.lookup with
  | none => .error s
  | some (s, resumed) =>
    match s.survey answers.states with
    | none => .error s
    | some (s, instanceIds, alive) => .ok ⟨s.reclaim resumed instanceIds, resumed, alive⟩

/-- `len(self.instances) + len(self._pending_instance_ids)`. -/
def load (s : Autoscaler H G) : ℕ :=
  s.manager.instances.items.length + s.pendingInstanceIds.card

end Autoscaler

namespace Checkpoint
variable {H G : Type}

def Full (c : Checkpoint H G) : Prop :=
  c.state.maxInstances ≠ -1 ∧ c.state.maxInstances ≤ max c.alive c.state.load

instance (c : Checkpoint H G) : Decidable c.Full := instDecidableAnd

end Checkpoint

namespace Autoscaler
variable {H G : Type} {lookup : Reply (Option G)} {answers : Answers G}

def create (s : Autoscaler H G) (instanceId : String) (pg : G) : Autoscaler H G :=
  { s with
    pendingInstanceIds := insert instanceId s.pendingInstanceIds
    pendingPlacementGroups := s.pendingPlacementGroups.set instanceId pg
    known := insert instanceId s.known
    point := .waiting instanceId pg }

/-- An iteration up to where it waits. A new id is one that has not been given out. -/
def iterate (s : Autoscaler H G) (answers : Answers G) : Option (Autoscaler H G) :=
  match s.checkpoint answers with
  | .error s => some s
  | .ok c =>
    if c.Full then some c.state
    else
      match c.resumed, answers.newPg with
      | some (instanceId, pg), _ => some { c.state with point := .waiting instanceId pg }
      | none, none => some c.state
      | none, some pg =>
        if answers.newInstanceId ∈ s.known then none
        else some (c.state.create answers.newInstanceId pg)

/-- `init_server_and_instance`, after which the loop goes on in any case. -/
def deploy (s : Autoscaler H G) (instanceId : String) (fault : Option Fault) : Autoscaler H G :=
  let s := { s with point := .idle, calls := instanceId :: s.calls }
  match s.launcher.initServerAndInstance s.manager.globalScheduler s.entrypointsArgs instanceId
    fault with
  | (.error _, launcher) => { s with launcher }
  | (.ok d, launcher) =>
    { s with launcher, deployments := s.deployments ++ [d], started := instanceId :: s.started }

/-- The end of `done_scale_up`, but for its callback. -/
def finish (s : Autoscaler H G) (k : ℕ) (fault : Option ScaleUpFault) (d : Deployment) :
    Autoscaler H G :=
  { s with
    deployments := s.deployments.eraseIdx k
    launcher := s.launcher.doneScaleUp d.instanceType fault }

/-- The instance registers. What has been scaled down is not deployed any more. -/
def register (s : Autoscaler H G) (k : ℕ) (handle : H) (fault : Option ScaleUpFault) :
    Option (Autoscaler H G) :=
  s.deployments[k]?.bind fun d =>
    if d.instanceId ∈ s.scaledDown then none else some ((s.finish k fault d).scaleUp d handle)

def step (s : Autoscaler H G) : Action H G → Option (Autoscaler H G)
  | .iterate answers =>
    match s.point with
    | .idle => s.iterate answers
    | .waiting _ _ => none
  | .ready fault =>
    match s.point with
    | .waiting instanceId _ => some (s.deploy instanceId fault)
    | .idle => none
  | .timeout =>
    match s.point with
    | .waiting instanceId _ =>
      some { s with point := .idle, lastTimeoutInstanceId := some instanceId }
    | .idle => none
  | .waitFails serverUnavailable =>
    match s.point with
    | .waiting _ _ => some { s with
        point := .idle
        stateApiAvailable := s.stateApiAvailable && !serverUnavailable }
    | .idle => none
  | .complete k handle => s.register k handle none
  -- the resources of the instance are released, and nothing else
  | .fail k => s.deployments[k]?.map (s.finish k (some .waiting))
  | .callbackRaises k none => s.deployments[k]?.map (s.finish k (some .callback))
  | .callbackRaises k (some handle) => s.register k handle (some .callback)
  | .scaleDown instanceIds rebuild => some (s.scaleDown instanceIds rebuild)
  -- another loop of the Manager has found the State API missing
  | .disable => some { s with stateApiAvailable := false }

/-! ### What scaling does to the tables -/

theorem keySet_scaleUp (m : Manager H) (l : Launch H) :
    (m.scaleUp [l]).1.instances.keySet = insert l.instanceId m.instances.keySet := by
  change (m.scaleUpOne l).instances.keySet = _
  unfold Manager.scaleUpOne
  split_ifs with hl
  · exact (Finset.insert_eq_self.mpr hl).symm
  · exact Dict.keySet_set

theorem keySet_scaleDownOne (m : Manager H) (i : String) :
    (m.scaleDownOne i).instances.keySet = m.instances.keySet.erase i := by
  unfold Manager.scaleDownOne
  split_ifs with hi
  · exact Dict.keySet_erase
  · exact (Finset.erase_eq_of_notMem hi).symm

theorem keySet_scaleDown (m : Manager H) (instanceIds : List String) (rebuild : Bool) :
    (m.scaleDown instanceIds rebuild).1.instances.keySet =
      m.instances.keySet \ instanceIds.toFinset := by
  have hfold : ∀ (instanceIds : List String) (m : Manager H),
      (instanceIds.foldl Manager.scaleDownOne m).instances.keySet =
        m.instances.keySet \ instanceIds.toFinset := by
    intro instanceIds
    induction instanceIds with
    | nil => simp
    | cons i is ih =>
      intro m
      rw [List.foldl_cons, ih, keySet_scaleDownOne]
      ext j
      simp only [Finset.mem_sdiff, Finset.mem_erase, List.mem_toFinset, List.mem_cons, not_or]
      tauto
  have hsettle : ∀ m : Manager H, m.settlePending.instances = m.instances := by
    intro m
    unfold Manager.settlePending
    split_ifs <;> rfl
  unfold Manager.scaleDown
  rw [hsettle]
  exact hfold instanceIds m

theorem mem_eraseAll (d : Dict String G) (is : List String) {i : String} :
    i ∈ is.foldl Dict.erase d ↔ i ∈ d ∧ i ∉ is := by
  induction is generalizing d with
  | nil => simp
  | cons j is ih =>
    simp only [List.foldl_cons, ih, Dict.mem_erase, List.mem_cons, not_or]
    tauto

theorem load_eq (s : Autoscaler H G) :
    s.load = s.manager.instances.keySet.card + s.pendingInstanceIds.card := by
  rw [load, Dict.card_keySet]

variable {s s' t : Autoscaler H G} {i : String}

def Placed (s : Autoscaler H G) (i : String) : Prop :=
  i ∈ s.pendingInstanceIds ∨ i ∈ s.manager.instances ∨ i ∈ s.scaledDown

/-- What comes of calls of `scale_down` and of a State API that goes away. -/
structure Shrinks (s s' : Autoscaler H G) : Prop where
  maxInstances : s'.maxInstances = s.maxInstances
  launcher : s'.launcher = s.launcher
  point : s'.point = s.point
  deployments : s'.deployments = s.deployments
  calls : s'.calls = s.calls
  started : s'.started = s.started
  known : s'.known = s.known
  load : s'.load ≤ s.load
  pending : ∀ i ∈ s'.pendingInstanceIds, i ∈ s.pendingInstanceIds ∧
    (i ∈ s.pendingPlacementGroups → i ∈ s'.pendingPlacementGroups)
  retained : ∀ i ∈ s'.pendingPlacementGroups, i ∈ s.pendingPlacementGroups ∧
    (i ∈ s.pendingInstanceIds → i ∈ s'.pendingInstanceIds)
  placed : ∀ i, s.Placed i → s'.Placed i
  lastTimeout : ∀ i, s'.lastTimeoutInstanceId = some i → s.lastTimeoutInstanceId = some i
  stateApi : s'.stateApiAvailable = true → s.stateApiAvailable = true

theorem Shrinks.refl (s : Autoscaler H G) : Shrinks s s where
  maxInstances := rfl
  launcher := rfl
  point := rfl
  deployments := rfl
  calls := rfl
  started := rfl
  known := rfl
  load := Nat.le_refl _
  pending _ hi := ⟨hi, id⟩
  retained _ hi := ⟨hi, id⟩
  placed _ hi := hi
  lastTimeout _ h := h
  stateApi h := h

theorem Shrinks.trans (h : Shrinks s t) (h' : Shrinks t s') : Shrinks s s' where
  maxInstances := h'.maxInstances.trans h.maxInstances
  launcher := h'.launcher.trans h.launcher
  point := h'.point.trans h.point
  deployments := h'.deployments.trans h.deployments
  calls := h'.calls.trans h.calls
  started := h'.started.trans h.started
  known := h'.known.trans h.known
  load := h'.load.trans h.load
  pending i hi := by
    obtain ⟨ht, hkeep'⟩ := h'.pending i hi
    obtain ⟨hs, hkeep⟩ := h.pending i ht
    exact ⟨hs, fun hr => hkeep' (hkeep hr)⟩
  retained i hi := by
    obtain ⟨ht, hkeep'⟩ := h'.retained i hi
    obtain ⟨hs, hkeep⟩ := h.retained i ht
    exact ⟨hs, fun hp => hkeep' (hkeep hp)⟩
  placed i hi := h'.placed i (h.placed i hi)
  lastTimeout i hi := h.lastTimeout i (h'.lastTimeout i hi)
  stateApi hi := h.stateApi (h'.stateApi hi)

theorem shrinks_scaleDown (s : Autoscaler H G) (instanceIds : List String) (rebuild : Bool) :
    Shrinks s (s.scaleDown instanceIds rebuild) where
  maxInstances := rfl
  launcher := rfl
  point := rfl
  deployments := rfl
  calls := rfl
  started := rfl
  known := rfl
  load := by
    rw [load_eq, load_eq]
    have hinstances : (s.scaleDown instanceIds rebuild).manager.instances.keySet =
        s.manager.instances.keySet \ instanceIds.toFinset :=
      keySet_scaleDown s.manager instanceIds rebuild
    rw [hinstances]
    exact Nat.add_le_add (Finset.card_le_card Finset.sdiff_subset)
      (Finset.card_le_card Finset.sdiff_subset)
  pending i hi := by
    obtain ⟨hpending, hnot⟩ := Finset.mem_sdiff.mp hi
    exact ⟨hpending, fun hr => (mem_eraseAll _ _).mpr ⟨hr, by simpa using hnot⟩⟩
  retained i hi := by
    obtain ⟨hretained, hnot⟩ := (mem_eraseAll _ _).mp hi
    exact ⟨hretained, fun hp => Finset.mem_sdiff.mpr ⟨hp, by simpa using hnot⟩⟩
  placed i hi := by
    by_cases hmem : i ∈ instanceIds
    · exact .inr (.inr (Finset.mem_union_right _ (List.mem_toFinset.mpr hmem)))
    · have hnot : i ∉ instanceIds.toFinset := by simpa using hmem
      rcases hi with hpending | hinstance | hgone
      · exact .inl (Finset.mem_sdiff.mpr ⟨hpending, hnot⟩)
      · refine .inr (.inl ?_)
        rw [← Dict.mem_keySet]
        change i ∈ (s.manager.scaleDown instanceIds rebuild).1.instances.keySet
        rw [keySet_scaleDown]
        exact Finset.mem_sdiff.mpr ⟨hinstance, hnot⟩
      · exact .inr (.inr (Finset.mem_union_left _ hgone))
  lastTimeout _ h := h
  stateApi h := h

theorem shrinks_forget (s : Autoscaler H G) {last : Option String} {available : Bool}
    (hlast : ∀ i, last = some i → s.lastTimeoutInstanceId = some i)
    (havailable : available = true → s.stateApiAvailable = true) :
    Shrinks s { s with lastTimeoutInstanceId := last, stateApiAvailable := available } where
  maxInstances := rfl
  launcher := rfl
  point := rfl
  deployments := rfl
  calls := rfl
  started := rfl
  known := rfl
  load := Nat.le_refl _
  pending _ hi := ⟨hi, id⟩
  retained _ hi := ⟨hi, id⟩
  placed _ hi := hi
  lastTimeout := hlast
  stateApi := havailable

theorem shrinks_reclaim (s : Autoscaler H G) (resumed : Option (String × G)) (is : List String) :
    Shrinks s (s.reclaim resumed is) := by
  unfold reclaim
  generalize is.filter _ = js
  induction js generalizing s with
  | nil => exact .refl s
  | cons j js ih => exact (shrinks_scaleDown s [j] true).trans (ih (s.scaleDown [j] true))

/-- The iteration does not get an answer about the instance that timed out last. -/
def Blind (s : Autoscaler H G) (lookup : Reply (Option G)) : Prop :=
  s.stateApiAvailable = false ∨ s.lastTimeoutInstanceId ≠ none ∧ lookup = .serverUnavailable

/-- A group is resumed for the instance that timed out last, or it is the first that is
retained. -/
inductive Resumes (s : Autoscaler H G) (lookup : Reply (Option G)) : Option (String × G) → Prop
  | none : Resumes s lookup none
  | byName {i : String} (pg : G) (hlast : s.lastTimeoutInstanceId = some i)
      (hapi : s.stateApiAvailable = true) : Resumes s lookup (some (i, pg))
  | retained {i : String} {pg : G} (hblind : s.Blind lookup)
      (hfirst : s.pendingPlacementGroups.items.head? = some (i, pg)) :
      Resumes s lookup (some (i, pg))

theorem Resumes.timedOut_or_retained {pg : G} (h : Resumes s lookup (some (i, pg))) :
    s.lastTimeoutInstanceId = some i ∨ i ∈ s.pendingPlacementGroups := by
  cases h with
  | byName _ hlast _ => exact .inl hlast
  | retained _ hfirst =>
    have hmem : (i, pg) ∈ s.pendingPlacementGroups.items := List.mem_of_mem_head? hfirst
    exact .inr (Dict.mem_of_item hmem)

theorem resumes_head (lookup : Reply (Option G)) (hblind : s.Blind lookup) :
    Resumes s lookup s.pendingPlacementGroups.items.head? := by
  cases hfirst : s.pendingPlacementGroups.items.head? with
  | none => exact .none
  | some e => exact .retained hblind hfirst

theorem resume_of_blind (h : s.Blind lookup) :
    ∃ last, (∀ i, last = some i → s.lastTimeoutInstanceId = some i) ∧ s.resume lookup =
      some ({ s with lastTimeoutInstanceId := last, stateApiAvailable := false },
        s.pendingPlacementGroups.items.head?) := by
  rcases h with hapi | ⟨hlast, rfl⟩
  · refine ⟨s.lastTimeoutInstanceId, fun _ h => h, ?_⟩
    have hs : { s with stateApiAvailable := false } = s := by rw [← hapi]
    simp [resume, resumeByName, hapi, hs]
  · cases hapi : s.stateApiAvailable with
    | false =>
      refine ⟨s.lastTimeoutInstanceId, fun _ h => h, ?_⟩
      have hs : { s with stateApiAvailable := false } = s := by rw [← hapi]
      simp [resume, resumeByName, hapi, hs]
    | true =>
      obtain ⟨i, hi⟩ := Option.ne_none_iff_exists'.mp hlast
      exact ⟨none, by simp, by simp [resume, resumeByName, hapi, hi]⟩

theorem resume_of_not_blind {resumed : Option (String × G)} (hblind : ¬s.Blind lookup)
    (h : s.resume lookup = some (s', resumed)) :
    s' = { s with lastTimeoutInstanceId := none } ∧ Resumes s lookup resumed := by
  obtain ⟨hapi, hlast⟩ := not_or.mp hblind
  rw [Bool.not_eq_false] at hapi
  cases hi : s.lastTimeoutInstanceId with
  | none =>
    simp only [resume, resumeByName, hapi, hi, Option.map_some, if_true, Option.some.injEq,
      Prod.mk.injEq] at h
    obtain ⟨rfl, rfl⟩ := h
    exact ⟨by rw [← hi], .none⟩
  | some i =>
    cases lookup with
    | ok pg =>
      simp only [resume, resumeByName, hapi, hi, Option.map_some, if_true, Option.some.injEq,
        Prod.mk.injEq] at h
      obtain ⟨rfl, rfl⟩ := h
      refine ⟨by rw [hapi], ?_⟩
      cases pg with
      | none => exact .none
      | some pg => exact .byName pg hi hapi
    | serverUnavailable => exact absurd ⟨by simp [hi], rfl⟩ hlast
    | raises => simp [resume, resumeByName, hapi, hi] at h

theorem resume_spec {resumed : Option (String × G)} (h : s.resume lookup = some (s', resumed)) :
    Shrinks s s' ∧ Resumes s lookup resumed ∧ (s'.stateApiAvailable = true →
      s'.lastTimeoutInstanceId = none) := by
  by_cases hblind : s.Blind lookup
  · obtain ⟨last, hlast, hresume⟩ := resume_of_blind hblind
    rw [hresume] at h
    cases h
    exact ⟨shrinks_forget s hlast (by simp), resumes_head lookup hblind, by simp⟩
  · obtain ⟨rfl, hresumes⟩ := resume_of_not_blind hblind h
    exact ⟨shrinks_forget s (by simp) id, hresumes, fun _ => rfl⟩

theorem survey_spec {states : Reply (List String × ℕ)} {is : List String} {alive : ℕ}
    (h : s.survey states = some (s', is, alive)) :
    Shrinks s s' ∧ s'.lastTimeoutInstanceId = s.lastTimeoutInstanceId := by
  unfold survey at h
  split_ifs at h
  · split at h <;> cases h
    · exact ⟨.refl _, rfl⟩
    · exact ⟨shrinks_forget s (fun _ h => h) (by simp), rfl⟩
  · cases h
    exact ⟨.refl _, rfl⟩

theorem lastTimeout_reclaim (s : Autoscaler H G) (resumed : Option (String × G))
    (is : List String) :
    (s.reclaim resumed is).lastTimeoutInstanceId = s.lastTimeoutInstanceId := by
  unfold reclaim
  generalize is.filter _ = js
  induction js generalizing s with
  | nil => rfl
  | cons j js ih => exact ih (s.scaleDown [j] true)

theorem checkpoint_error (h : s.checkpoint answers = .error s') : Shrinks s s' := by
  unfold checkpoint at h
  split at h
  · cases h
    exact .refl _
  · rename_i hresume
    split at h
    · cases h
      exact (resume_spec hresume).1
    · cases h

theorem checkpoint_ok {c : Checkpoint H G} (h : s.checkpoint answers = .ok c) :
    Shrinks s c.state ∧ Resumes s answers.lookup c.resumed ∧ (c.state.stateApiAvailable = true →
      c.state.lastTimeoutInstanceId = none) := by
  unfold checkpoint at h
  split at h
  · cases h
  · rename_i s₁ resumed hresume
    split at h
    · cases h
    · rename_i s₂ is alive hsurvey
      cases h
      obtain ⟨hshrinks, hresumes, hlast⟩ := resume_spec hresume
      obtain ⟨hshrinks', hlast'⟩ := survey_spec hsurvey
      have hreclaim := shrinks_reclaim s₂ resumed is
      refine ⟨(hshrinks.trans hshrinks').trans hreclaim, hresumes, fun hapi => ?_⟩
      rw [lastTimeout_reclaim, hlast']
      exact hlast (hshrinks'.stateApi (hreclaim.stateApi hapi))

theorem checkpoint_resumes {c : Checkpoint H G} {pg : G} (h : s.checkpoint answers = .ok c)
    (hresumed : c.resumed = some (i, pg)) :
    Shrinks s c.state ∧ Resumes s answers.lookup (some (i, pg)) := by
  obtain ⟨hs, hresumes, -⟩ := checkpoint_ok h
  rw [hresumed] at hresumes
  exact ⟨hs, hresumes⟩

theorem checkpoint_of_blind (h : s.Blind answers.lookup) :
    ∃ c, s.checkpoint answers = .ok c ∧ c.resumed = s.pendingPlacementGroups.items.head? ∧
      c.alive = 0 ∧ c.state.load = s.load := by
  obtain ⟨last, -, hresume⟩ := resume_of_blind h
  refine ⟨⟨{ s with lastTimeoutInstanceId := last, stateApiAvailable := false },
    s.pendingPlacementGroups.items.head?, 0⟩, ?_, rfl, rfl, rfl⟩
  simp [checkpoint, hresume, survey, reclaim]

/-- An iteration stops, waits for a group that it resumes, or makes a new one. -/
inductive Iterates (s : Autoscaler H G) (answers : Answers G) : Autoscaler H G → Prop
  | stops {s' : Autoscaler H G} (h : Shrinks s s') : Iterates s answers s'
  | resumes {c : Checkpoint H G} {i : String} {pg : G} (hc : s.checkpoint answers = .ok c)
      (hresumed : c.resumed = some (i, pg)) (hroom : ¬c.Full) :
      Iterates s answers { c.state with point := .waiting i pg }
  | creates {c : Checkpoint H G} {pg : G} (hc : s.checkpoint answers = .ok c) (hroom : ¬c.Full)
      (hnew : answers.newInstanceId ∉ s.known) :
      Iterates s answers (c.state.create answers.newInstanceId pg)

theorem iterates_of_iterate (h : s.iterate answers = some s') : Iterates s answers s' := by
  unfold iterate at h
  split at h
  · rename_i hc
    cases h
    exact .stops (checkpoint_error hc)
  · rename_i c hc
    by_cases hfull : c.Full
    · rw [if_pos hfull] at h
      cases h
      exact .stops (checkpoint_ok hc).1
    · rw [if_neg hfull] at h
      split at h
      · rename_i hresumed
        cases h
        exact .resumes hc hresumed hfull
      · cases h
        exact .stops (checkpoint_ok hc).1
      · by_cases hnew : answers.newInstanceId ∈ s.known
        · rw [if_pos hnew] at h
          cases h
        · rw [if_neg hnew] at h
          cases h
          exact .creates hc hfull hnew

theorem deploy_cases (s : Autoscaler H G) (i : String) (fault : Option Fault) :
    (∃ launcher, s.deploy i fault =
      { s with point := .idle, calls := i :: s.calls, launcher }) ∨
    ∃ launcher d, d.instanceId = i ∧ s.deploy i fault =
      { s with
        point := .idle, calls := i :: s.calls, launcher
        deployments := s.deployments ++ [d], started := i :: s.started } := by
  unfold deploy
  dsimp only
  split
  · exact .inl ⟨_, rfl⟩
  · rename_i d launcher hinit
    exact .inr ⟨launcher, d, Launcher.instanceId_of_init hinit, rfl⟩

/-- What a step can be, with what it finds. -/
inductive Steps (s : Autoscaler H G) : Action H G → Autoscaler H G → Prop
  | iterate {answers : Answers G} {s' : Autoscaler H G} (hidle : s.point = .idle)
      (h : Iterates s answers s') : Steps s (.iterate answers) s'
  | ready {i : String} {pg : G} (hpoint : s.point = .waiting i pg) (fault : Option Fault) :
      Steps s (.ready fault) (s.deploy i fault)
  | timeout {i : String} {pg : G} (hpoint : s.point = .waiting i pg) :
      Steps s .timeout { s with point := .idle, lastTimeoutInstanceId := some i }
  | waitFails (serverUnavailable : Bool) : Steps s (.waitFails serverUnavailable)
      { s with
        point := .idle
        stateApiAvailable := s.stateApiAvailable && !serverUnavailable }
  | registers {a : Action H G} {k : ℕ} {d : Deployment} (handle : H) (fault : Option ScaleUpFault)
      (hd : s.deployments[k]? = some d) (hgone : d.instanceId ∉ s.scaledDown) :
      Steps s a ((s.finish k fault d).scaleUp d handle)
  | fails {a : Action H G} {k : ℕ} {d : Deployment} (fault : Option ScaleUpFault)
      (ha : a = .fail k ∨ a = .callbackRaises k none) (hd : s.deployments[k]? = some d) :
      Steps s a (s.finish k fault d)
  | shrinks {a : Action H G} {s' : Autoscaler H G} (h : Shrinks s s') : Steps s a s'

theorem steps_of_register {a : Action H G} {k : ℕ} {handle : H} {fault : Option ScaleUpFault}
    (h : s.register k handle fault = some s') : Steps s a s' := by
  obtain ⟨d, hd, h⟩ := Option.bind_eq_some_iff.mp h
  split_ifs at h with hgone
  cases h
  exact .registers handle fault hd hgone

theorem steps_of_step {a : Action H G} (h : s.step a = some s') : Steps s a s' := by
  cases a with
  | iterate answers =>
    simp only [step] at h
    split at h
    · rename_i hidle
      exact .iterate hidle (iterates_of_iterate h)
    · cases h
  | ready fault =>
    simp only [step] at h
    split at h
    · rename_i hpoint
      cases h
      exact .ready hpoint fault
    · cases h
  | timeout =>
    simp only [step] at h
    split at h
    · rename_i hpoint
      cases h
      exact .timeout hpoint
    · cases h
  | waitFails serverUnavailable =>
    simp only [step] at h
    split at h <;> cases h
    exact .waitFails serverUnavailable
  | complete k handle => exact steps_of_register h
  | fail k =>
    obtain ⟨d, hd, rfl⟩ := Option.map_eq_some_iff.mp h
    exact .fails _ (.inl rfl) hd
  | callbackRaises k registered =>
    cases registered with
    | none =>
      obtain ⟨d, hd, rfl⟩ := Option.map_eq_some_iff.mp h
      exact .fails _ (.inr rfl) hd
    | some handle => exact steps_of_register h
  | scaleDown instanceIds rebuild =>
    cases h
    exact .shrinks (shrinks_scaleDown s instanceIds rebuild)
  | disable =>
    cases h
    exact .shrinks (shrinks_forget s (fun _ h => h) (by simp))

end Autoscaler
end Llumnix.Scaling
