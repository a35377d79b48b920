import Llumnix.Machine.Run
import Llumnix.Python.Dict
import Llumnix.Python.Raise
import Llumnix.Python.Text

/-! `_check_deployment_states_loop`: the Manager looks for placement groups without a server or an
instance, watches them for a while and scales down those that stay so. -/
namespace Llumnix.Scaling.DeploymentStates

open Machine Python

abbrev Name := List Char

inductive PgState
  | pending | created | rescheduling | removed
  deriving DecidableEq

inductive ActorState
  | dependenciesUnready | pendingCreation | alive | restarting | dead
  deriving DecidableEq

inductive Fails
  | serverUnavailable
  | other
  deriving DecidableEq

/-- What Ray would answer at one moment. `stateApi` is the exception of every call of the State API,
`named` are the names that `list_named_actors` gives, and `detected` the actors that the State API
lists when it is not given the address of the cluster. -/
structure Cluster where
  stateApi : Option Fails := none
  controlPlane : Bool := true
  pgs : List (Name × PgState) := []
  actors : List (Name × ActorState) := []
  named : List Name := []
  detected : Option (List (Name × ActorState)) := some []
  findsPg : Name → Bool := fun _ => true
  findsActor : Name → Bool := fun _ => true

/-- Ray goes on while the Manager asks, so that no two calls are answered at the same moment. -/
abbrev Timeline := ℕ → Cluster

def serverNamePrefix : Name := "server_".toList
def instanceNamePrefix : Name := "instance_".toList
def getPlacementGroupName (i : Name) : Name := "pg_".toList ++ i
def getServerName (i : Name) : Name := serverNamePrefix ++ i
def getInstanceName (i : Name) : Name := instanceNamePrefix ++ i

/-- `name.split("_")[-1]`. -/
def instanceIdOf (name : Name) : Name := ((rpartition '_' name).map Prod.snd).getD name

namespace Cluster

def listPlacementGroups (c : Cluster) : Except Fails (List (Name × PgState)) :=
  match c.stateApi with
  | none => .ok c.pgs
  | some e => .error e

def listActors (c : Cluster) : Except Fails (List (Name × ActorState)) :=
  match c.stateApi with
  | none => .ok c.actors
  | some e => .error e

def placementGroupTable (c : Cluster) : Except Fails (List (Name × PgState)) :=
  if c.controlPlane then .ok c.pgs else .error .other

def listNamedActors (c : Cluster) : Except Fails (List Name) :=
  if c.controlPlane then .ok c.named else .error .other

end Cluster

def namesakes {β : Type} (name : Name) (entries : List (Name × β)) : List β :=
  (entries.filter (·.1 = name)).map Prod.snd

def inState {β : Type} [DecidableEq β] (state : β) (entries : List (Name × β)) : List Name :=
  (entries.filter (·.2 = state)).map Prod.fst

/-! ### One instance -/

abbrev States := List PgState × List ActorState × List ActorState

def listStates (ray : Timeline) (now : ℕ) (i : Name) : Except Fails States := do
  let pgs ← (ray now).listPlacementGroups
  let servers ← (ray (now + 1)).listActors
  let instances ← (ray (now + 2)).listActors
  return (namesakes (getPlacementGroupName i) pgs, namesakes (getServerName i) servers,
    namesakes (getInstanceName i) instances)

def fallbackStates (ray : Timeline) (now : ℕ) (i : Name) : Except Fails States := do
  let pgs ← (ray now).placementGroupTable
  let names ← (ray (now + 1)).listNamedActors
  return (namesakes (getPlacementGroupName i) pgs,
    if names.contains (getServerName i) then [.alive] else [],
    if names.contains (getInstanceName i) then [.alive] else [])

def getInstanceDeploymentStates (ray : Timeline) (now : ℕ) (i : Name) :
    Except Fails (Bool × Bool × Bool) := do
  let (pg, server, inst) ← tryCatch (listStates ray now i) fun _ => fallbackStates ray (now + 3) i
  return (pg == [.created], server == [.alive], inst == [.alive])

/-! ### The cluster -/

def listCreated (ray : Timeline) (now : ℕ) : Except Fails (List Name × List Name) := do
  let pgs ← (ray now).listPlacementGroups
  let actors ← (ray (now + 1)).listActors
  return (inState .created pgs, inState .alive actors)

def fallbackCreated (ray : Timeline) (now : ℕ) : Except Fails (List Name × List Name) := do
  let pgs ← (ray now).placementGroupTable
  let names ← (ray (now + 1)).listNamedActors
  return (inState .created pgs, names)

def byInstanceId (names : List Name) : Dict Name Name :=
  Dict.empty.setAll (names.map fun name => (instanceIdOf name, name))

def isServer (name : Name) : Bool := serverNamePrefix.isPrefixOf name

def isInstance (name : Name) : Bool := !isServer name && instanceNamePrefix.isPrefixOf name

/-- The groups, the servers and the instances by the ids in their names. Each name is looked up, and
`ValueError` if it is no longer there. -/
def getClusterDeploymentStates (ray : Timeline) (now : ℕ) :
    Except Fails (Dict Name Name × Dict Name Name × Dict Name Name) := do
  let (pgs, actors) ← tryCatch (listCreated ray now) fun _ => fallbackCreated ray (now + 2)
  let actors := actors.filter fun name => isServer name || isInstance name
  if (pgs.zipIdx (now + 4)).all (fun e => (ray e.2).findsPg e.1) &&
      (actors.zipIdx (now + 4 + pgs.length)).all (fun e => (ray e.2).findsActor e.1) then
    return (byInstanceId pgs, byInstanceId (actors.filter isServer),
      byInstanceId (actors.filter isInstance))
  else throw .other

/-- The ids that an iteration starts to watch, or the exception that its assertion or Ray raises. -/
def scan (ray : Timeline) (now : ℕ) : Except Fails (List Name) := do
  let (pgs, servers, instances) ← getClusterDeploymentStates ray now
  if max servers.items.length instances.items.length ≤ pgs.items.length then
    return pgs.keys.filter fun i => i ∉ servers || i ∉ instances
  else throw .other

/-! ### The watch of an instance -/

def watchDeploymentInterval : ℕ := 10
def watchDeploymentIntervalPendingInstance : ℕ := 120

inductive Stage
  | asleep
  | pending (waited : ℕ)
  | done
  deriving DecidableEq

structure Watch where
  instanceId : Name
  stage : Stage

/-- An exception ends the watch, and `gather` keeps it. -/
def verdict (ray : Timeline) (now : ℕ) (i : Name) : Bool :=
  match getInstanceDeploymentStates ray now i with
  | .ok (pg, server, inst) => pg && (!server || !inst)
  | .error _ => false

/-- From the head of the loop to the next `sleep` or the end, with whether the instance is scaled
down. -/
def loop (ray : Timeline) (now : ℕ) (i : Name) (waited : ℕ) : Stage × Bool :=
  match (ray now).detected with
  | none => (.done, false)
  | some actors =>
    if namesakes (getInstanceName i) actors = [.pendingCreation] then (.pending waited, false)
    else (.done, verdict ray (now + 1) i)

def Watch.resume (ray : Timeline) (now : ℕ) (w : Watch) : Stage × Bool :=
  match w.stage with
  | .asleep => loop ray now w.instanceId 0
  | .pending waited =>
    let waited := waited + watchDeploymentInterval
    if watchDeploymentIntervalPendingInstance ≤ waited then
      (.done, verdict ray (now + 1) w.instanceId)
    else loop ray now w.instanceId waited
  | .done => (.done, false)

/-! ### The loop -/

inductive Point
  | running
  | gathering
  | sleeping
  | returned
  deriving DecidableEq

/-- `scaledDown` are the calls of `scale_down`, with the moment at which the states were asked for
that led to them. -/
structure State where
  now : ℕ
  stateApiAvailable : Bool := true
  point : Point := .running
  watches : List Watch := []
  scaledDown : List (Name × ℕ) := []

/-- `disable` is what the other loops of the Manager can do while this one waits. -/
inductive Action
  | pass (elapsed : ℕ)
  | iterate
  | wake (k : ℕ)
  | gathered
  | interval
  | disable

def step (ray : Timeline) (s : State) : Action → Option State
  | .pass elapsed => some { s with now := s.now + elapsed }
  | .iterate =>
    match s.point with
    | .running =>
      if !s.stateApiAvailable then some { s with point := .returned }
      else
        match scan ray s.now with
        | .ok ids => some { s with point := .gathering, watches := ids.map (⟨·, .asleep⟩) }
        | .error .serverUnavailable =>
          some { s with stateApiAvailable := false, point := .returned }
        | .error .other => some s
    | _ => none
  | .wake k =>
    match s.point, s.watches[k]? with
    | .gathering, some w =>
      if w.stage = .done then none
      else
        let (stage, down) := w.resume ray s.now
        some { s with
          watches := s.watches.set k { w with stage }
          scaledDown := s.scaledDown ++ if down then [(w.instanceId, s.now + 1)] else [] }
    | _, _ => none
  | .gathered =>
    if s.point = .gathering ∧ s.watches.all (·.stage = .done) then
      some { s with point := .sleeping }
    else none
  | .interval => if s.point = .sleeping then some { s with point := .running } else none
  | .disable =>
    if s.point = .gathering ∨ s.point = .sleeping then some { s with stateApiAvailable := false }
    else none

/-! ### Who is scaled down -/

/-- A deployment with which nothing is wrong, whichever way the Manager asks. -/
structure Healthy (i : Name) (c : Cluster) : Prop where
  server : namesakes (getServerName i) c.actors = [.alive]
  inst : namesakes (getInstanceName i) c.actors = [.alive]
  serverNamed : getServerName i ∈ c.named
  instanceNamed : getInstanceName i ∈ c.named

section Calls
variable {c : Cluster} {pgs : List (Name × PgState)} {actors : List (Name × ActorState)}
  {names : List Name}

theorem listPlacementGroups_ok (h : c.listPlacementGroups = .ok pgs) :
    c.stateApi = none ∧ c.pgs = pgs := by
  unfold Cluster.listPlacementGroups at h
  split at h <;> cases h
  exact ⟨by assumption, rfl⟩

theorem listActors_ok (h : c.listActors = .ok actors) : c.stateApi = none ∧ c.actors = actors := by
  unfold Cluster.listActors at h
  split at h <;> cases h
  exact ⟨by assumption, rfl⟩

theorem placementGroupTable_ok (h : c.placementGroupTable = .ok pgs) : c.pgs = pgs := by
  unfold Cluster.placementGroupTable at h
  split at h <;> cases h
  rfl

theorem listNamedActors_ok (h : c.listNamedActors = .ok names) : c.named = names := by
  unfold Cluster.listNamedActors at h
  split at h <;> cases h
  rfl

end Calls

section Verdict
variable {ray : Timeline} {now : ℕ} {i : Name} {pg : List PgState} {server inst : List ActorState}

theorem listStates_ok (h : listStates ray now i = .ok (pg, server, inst)) :
    namesakes (getPlacementGroupName i) (ray now).pgs = pg ∧
      namesakes (getServerName i) (ray (now + 1)).actors = server ∧
      namesakes (getInstanceName i) (ray (now + 2)).actors = inst := by
  obtain ⟨pgs, hpgs, h⟩ := bind_eq_ok.mp h
  obtain ⟨servers, hservers, h⟩ := bind_eq_ok.mp h
  obtain ⟨instances, hinstances, h⟩ := bind_eq_ok.mp h
  cases h
  obtain ⟨-, rfl⟩ := listPlacementGroups_ok hpgs
  obtain ⟨-, rfl⟩ := listActors_ok hservers
  obtain ⟨-, rfl⟩ := listActors_ok hinstances
  exact ⟨rfl, rfl, rfl⟩

theorem fallbackStates_ok (h : fallbackStates ray now i = .ok (pg, server, inst)) :
    namesakes (getPlacementGroupName i) (ray now).pgs = pg ∧
      (server = [.alive] ↔ getServerName i ∈ (ray (now + 1)).named) ∧
      (inst = [.alive] ↔ getInstanceName i ∈ (ray (now + 1)).named) := by
  obtain ⟨pgs, hpgs, h⟩ := bind_eq_ok.mp h
  obtain ⟨names, hnames, h⟩ := bind_eq_ok.mp h
  cases h
  obtain rfl := placementGroupTable_ok hpgs
  obtain rfl := listNamedActors_ok hnames
  refine ⟨rfl, ?_, ?_⟩ <;>
    split <;> rename_i hin <;> rw [List.contains_iff_mem] at hin <;> simp [hin]

theorem verdict_eq_true : verdict ray now i = true ↔
    ∃ pg server inst, tryCatch (listStates ray now i) (fun _ => fallbackStates ray (now + 3) i) =
      .ok (pg, server, inst) ∧ pg = [.created] ∧ (server ≠ [.alive] ∨ inst ≠ [.alive]) := by
  unfold verdict getInstanceDeploymentStates
  cases hstates : tryCatch (listStates ray now i) fun _ => fallbackStates ray (now + 3) i with
  | error e => simp [bind, Except.bind]
  | ok states => simp [bind, Except.bind, pure, Except.pure, Prod.ext_iff]

theorem unhealthy_of_verdict (h : verdict ray now i = true) :
    (∃ u, now ≤ u ∧ u < now + 5 ∧ namesakes (getPlacementGroupName i) (ray u).pgs = [.created]) ∧
      ∃ u, now ≤ u ∧ u < now + 5 ∧ ¬Healthy i (ray u) := by
  obtain ⟨pg, server, inst, hstates, rfl, hdead⟩ := verdict_eq_true.mp h
  rcases tryCatch_eq_ok.mp hstates with hlist | ⟨-, -, hfallback⟩
  · obtain ⟨hpg, rfl, rfl⟩ := listStates_ok hlist
    refine ⟨⟨now, by omega, by omega, hpg⟩, ?_⟩
    rcases hdead with hserver | hinst
    · exact ⟨now + 1, by omega, by omega, fun h => hserver h.server⟩
    · exact ⟨now + 2, by omega, by omega, fun h => hinst h.inst⟩
  · obtain ⟨hpg, hserver, hinst⟩ := fallbackStates_ok hfallback
    refine ⟨⟨now + 3, by omega, by omega, hpg⟩, now + 4, by omega, by omega, fun h => ?_⟩
    exact hdead.elim (· (hserver.mpr h.serverNamed)) (· (hinst.mpr h.instanceNamed))

end Verdict

section Resume
variable {ray : Timeline} {now : ℕ} {w : Watch}

theorem loop_down {i : Name} {waited : ℕ} (h : (loop ray now i waited).2 = true) :
    verdict ray (now + 1) i = true := by
  unfold loop at h
  split at h
  · cases h
  · split at h
    · cases h
    · exact h

theorem resume_down (h : (w.resume ray now).2 = true) :
    verdict ray (now + 1) w.instanceId = true := by
  unfold Watch.resume at h
  split at h
  · exact loop_down h
  · simp only at h
    split at h
    · exact h
    · exact loop_down h
  · cases h

theorem resume_undetected (hdetected : (ray now).detected = none)
    (hw : w.stage = .asleep ∨ w.stage = .done) : w.resume ray now = (.done, false) := by
  rcases hw with hw | hw <;> simp [Watch.resume, hw, loop, hdetected]

theorem loop_done {i : Name} {waited : ℕ} (hdetected : (ray now).detected ≠ none)
    (h : (loop ray now i waited).1 = .done) :
    (loop ray now i waited).2 = verdict ray (now + 1) i := by
  unfold loop at h ⊢
  split
  · contradiction
  · rename_i hactors
    simp only [hactors] at h
    split
    · rename_i hpending
      simp [hpending] at h
    · rfl

theorem resume_done (hdetected : (ray now).detected ≠ none) (hw : w.stage ≠ .done)
    (h : (w.resume ray now).1 = .done) :
    (w.resume ray now).2 = verdict ray (now + 1) w.instanceId := by
  unfold Watch.resume at h ⊢
  split
  · rename_i hstage
    rw [hstage] at h
    exact loop_done hdetected h
  · rename_i hstage
    rw [hstage] at h
    simp only at h ⊢
    split
    · rfl
    · rename_i hlate
      rw [if_neg hlate] at h
      exact loop_done hdetected h
  · contradiction

end Resume

/-! ### What a scan finds -/

section Names

theorem not_mem_instanceIdOf (name : Name) : '_' ∉ instanceIdOf name := by
  unfold instanceIdOf
  cases h : rpartition '_' name with
  | none => simpa using rpartition_eq_none.mp h
  | some parts => simpa using (rpartition_eq_some h).2

theorem instanceIdOf_append {a i : Name} (hi : '_' ∉ i) :
    instanceIdOf (a ++ '_' :: i) = i := by
  unfold instanceIdOf
  rw [rpartition_append hi]
  rfl

theorem instanceIdOf_getPlacementGroupName {i : Name} (hi : '_' ∉ i) :
    instanceIdOf (getPlacementGroupName i) = i :=
  instanceIdOf_append (a := ['p', 'g']) hi

theorem instanceIdOf_getServerName {i : Name} (hi : '_' ∉ i) :
    instanceIdOf (getServerName i) = i :=
  instanceIdOf_append (a := ['s', 'e', 'r', 'v', 'e', 'r']) hi

theorem instanceIdOf_getInstanceName {i : Name} (hi : '_' ∉ i) :
    instanceIdOf (getInstanceName i) = i :=
  instanceIdOf_append (a := ['i', 'n', 's', 't', 'a', 'n', 'c', 'e']) hi

theorem mem_byInstanceId {names : List Name} {i : Name} :
    i ∈ byInstanceId names ↔ ∃ name ∈ names, instanceIdOf name = i := by
  rw [byInstanceId, Dict.mem_setAll]
  simp

end Names

section Scan
variable {ray : Timeline} {now : ℕ} {ids : List Name}

theorem scan_ok (h : scan ray now = .ok ids) :
    ∃ pgs actors, tryCatch (listCreated ray now) (fun _ => fallbackCreated ray (now + 2)) =
        .ok (pgs, actors) ∧ ids.Nodup ∧
      ∀ i, i ∈ ids ↔ (∃ name ∈ pgs, instanceIdOf name = i) ∧
        ¬((∃ name ∈ actors, isServer name ∧ instanceIdOf name = i) ∧
          ∃ name ∈ actors, isInstance name ∧ instanceIdOf name = i) := by
  obtain ⟨⟨dpgs, servers, instances⟩, hstates, h⟩ := bind_eq_ok.mp h
  obtain ⟨⟨pgs, actors⟩, hlist, hstates⟩ := bind_eq_ok.mp hstates
  refine ⟨pgs, actors, hlist, ?_⟩
  simp only at hstates h
  split at h
  · cases h
    split at hstates
    · cases hstates
      refine ⟨(byInstanceId pgs).nodup.filter _, fun i => ?_⟩
      rw [List.mem_filter, ← Dict.mem_def, mem_byInstanceId]
      simp only [Bool.or_eq_true, decide_eq_true_eq, mem_byInstanceId, List.mem_filter]
      grind
    · cases hstates
  · cases h

theorem scan_ne_serverUnavailable : scan ray now ≠ .error .serverUnavailable := by
  intro h
  rcases bind_eq_error.mp h with h | ⟨⟨dpgs, servers, instances⟩, -, h⟩
  · rcases bind_eq_error.mp h with h | ⟨⟨pgs, actors⟩, -, h⟩
    · -- A `ServerUnavailable` of the State API is answered by the control plane.
      obtain ⟨e, -, h⟩ := tryCatch_eq_error.mp h
      rcases bind_eq_error.mp h with h | ⟨_, -, h⟩
      · unfold Cluster.placementGroupTable at h
        split at h <;> cases h
      · rcases bind_eq_error.mp h with h | ⟨_, -, h⟩
        · unfold Cluster.listNamedActors at h
          split at h <;> cases h
        · cases h
    · simp only at h
      split at h <;> cases h
  · simp only at h
    split at h <;> cases h

end Scan

end Llumnix.Scaling.DeploymentStates
