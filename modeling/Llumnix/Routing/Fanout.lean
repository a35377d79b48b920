import Llumnix.Routing
import Llumnix.Scheduler.Registries

/-! `Manager.abort`: which instances are told, when some that the tables name are gone. -/
namespace Llumnix.Routing

open Python

variable {H : Type} {s : Tables} {requestIds : List String}

/-- The orders in which the sets are iterated: the set of the ids, and the instances of each. -/
structure Iteration (s : Tables) (requestIds : List String) where
  ids : List String
  targets : String → List String
  ids_perm : ids.Perm requestIds.dedup
  targets_perm : ∀ r, (targets r).Perm (s.abortTargets r).dedup

/-- `instances[instance_id].abort.remote(request_ids)`. -/
structure AbortCall (H : Type) where
  instanceId : String
  handle : H
  requestIds : List String
  deriving DecidableEq

/-- The two nested loops: an instance and a request that it is to be told about. -/
def Iteration.pairs (it : Iteration s requestIds) : List (String × String) :=
  it.ids.flatMap fun r => (it.targets r).map fun i => (i, r)

def Iteration.instanceRequests (it : Iteration s requestIds) : Dict String (List String) :=
  Dict.group it.pairs

/-- The loop over `instance_requests.items()`, and whether it ends in a `KeyError`: the look-up of
the instance is outside what `gather` collects. -/
def fanOut (instances : Dict String H) : List (String × List String) → List (AbortCall H) × Bool
  | [] => ([], false)
  | (instanceId, ids) :: items =>
    match instances.get? instanceId with
    | none => ([], true)
    | some handle =>
      let r := fanOut instances items
      (⟨instanceId, handle, ids⟩ :: r.1, r.2)

def abort (instances : Dict String H) (it : Iteration s requestIds) : List (AbortCall H) × Bool :=
  fanOut instances it.instanceRequests.items

def Iteration.listed (it : Iteration s requestIds) (instanceId : String) : List String :=
  it.ids.filter fun r => instanceId ∈ s.abortTargets r

/-- Every registered instance gets one call with the ids listed for it, or none if there are
none. -/
def ReachesAll (instances : Dict String H) (it : Iteration s requestIds) : Prop :=
  ∀ i handle, instances.get? i = some handle →
    (abort instances it).1.filter (·.instanceId = i) =
      if it.listed i = [] then [] else [⟨i, handle, it.listed i⟩]

/-- No instance that is gone comes before one that is registered. -/
def StaleLast (instances : Dict String H) (keys : List String) : Prop :=
  keys.Pairwise fun i j => j ∈ instances → i ∈ instances

section Loop
variable {instances : Dict String H}

/-- What the loop sends to an instance, as long as it gets there. -/
def SendsAll (instances : Dict String H) (items : List (String × List String)) : Prop :=
  ∀ i handle, instances.get? i = some handle →
    (fanOut instances items).1.filter (·.instanceId = i) =
      (items.filter (·.1 = i)).map fun e => ⟨i, handle, e.2⟩

theorem sendsAll_cons_of_stale {i : String} {ids : List String}
    {items : List (String × List String)} (hi : instances.get? i = none) :
    SendsAll instances ((i, ids) :: items) ↔ ∀ e ∈ items, e.1 ∉ instances := by
  have hcalls : (fanOut instances ((i, ids) :: items)).1 = [] := by
    simp [fanOut, hi]
  unfold SendsAll
  rw [hcalls]
  constructor
  · intro h e he hmem
    obtain ⟨handle, hhandle⟩ := Dict.item_of_mem hmem
    have hnil := h e.1 handle (Dict.get?_eq_some.mpr hhandle)
    have hin : e ∈ ((i, ids) :: items).filter (·.1 = e.1) := by simp [he]
    rw [List.filter_nil, eq_comm, List.map_eq_nil_iff] at hnil
    rw [hnil] at hin
    cases hin
  · intro h j handle hhandle
    have hj : j ∈ instances := Dict.mem_of_get? hhandle
    have hnot : ((i, ids) :: items).filter (·.1 = j) = [] := by
      refine List.filter_eq_nil_iff.mpr fun e he hej => ?_
      have hej : e.1 = j := by simpa using hej
      rcases List.mem_cons.mp he with rfl | he
      · exact Dict.get?_eq_none.mp hi (by rwa [← hej] at hj)
      · exact h e he (hej ▸ hj)
    rw [hnot]
    rfl

theorem sendsAll_cons_of_registered {i : String} {handle : H} {ids : List String}
    {items : List (String × List String)} (hi : instances.get? i = some handle) :
    SendsAll instances ((i, ids) :: items) ↔ SendsAll instances items := by
  have hcalls : (fanOut instances ((i, ids) :: items)).1 =
      ⟨i, handle, ids⟩ :: (fanOut instances items).1 := by
    simp [fanOut, hi]
  unfold SendsAll
  rw [hcalls]
  refine forall_congr' fun j => forall_congr' fun handle' => forall_congr' fun hj => ?_
  by_cases hij : i = j
  · subst hij
    obtain rfl : handle = handle' := Option.some.inj (hi.symm.trans hj)
    simp
  · simp [hij]

theorem sendsAll_iff (items : List (String × List String)) :
    SendsAll instances items ↔ StaleLast instances (items.map Prod.fst) := by
  induction items with
  | nil => simp [SendsAll, StaleLast, fanOut]
  | cons e items ih =>
    obtain ⟨i, ids⟩ := e
    unfold StaleLast at ih ⊢
    rw [List.map_cons, List.pairwise_cons]
    cases hi : instances.get? i with
    | none =>
      have hgone := Dict.get?_eq_none.mp hi
      rw [sendsAll_cons_of_stale hi]
      constructor
      · intro h
        have hkeys : ∀ j ∈ items.map Prod.fst, j ∉ instances := by
          simpa using h
        refine ⟨fun j hj hmem => absurd hmem (hkeys j hj), ?_⟩
        exact List.pairwise_of_forall_mem_list fun j _ k hk hmem => absurd hmem (hkeys k hk)
      · rintro ⟨hfirst, -⟩ e he hmem
        exact hgone (hfirst e.1 (List.mem_map_of_mem he) hmem)
    | some handle =>
      have hreg : i ∈ instances := Dict.mem_of_get? hi
      rw [sendsAll_cons_of_registered hi, ih]
      exact ⟨fun h => ⟨fun _ _ _ => hreg, h⟩, And.right⟩

end Loop

section Listed
variable (it : Iteration s requestIds) (i : String)

theorem Iteration.mem_targets {r : String} : i ∈ it.targets r ↔ i ∈ s.abortTargets r := by
  rw [(it.targets_perm r).mem_iff, List.mem_dedup]

theorem Iteration.filter_targets (r : String) :
    ((it.targets r).map fun i => (i, r)).filter (·.1 = i) =
      if i ∈ s.abortTargets r then [(i, r)] else [] := by
  have hnodup : (it.targets r).Nodup := (it.targets_perm r).nodup_iff.mpr (List.nodup_dedup _)
  have hmap : ((it.targets r).map fun i => (i, r)).filter (·.1 = i) =
      ((it.targets r).filter (· = i)).map fun i => (i, r) := by
    rw [List.filter_map]
    rfl
  rw [hmap, List.filter_eq]
  by_cases hmem : i ∈ s.abortTargets r
  · have hcount : (it.targets r).count i = 1 :=
      List.count_eq_one_of_mem hnodup ((it.mem_targets i).mpr hmem)
    simp [hcount, hmem]
  · have hcount : (it.targets r).count i = 0 :=
      List.count_eq_zero.mpr fun h => hmem ((it.mem_targets i).mp h)
    simp [hcount, hmem]

theorem Iteration.filter_pairs :
    (it.pairs.filter (·.1 = i)).map Prod.snd = it.listed i := by
  unfold Iteration.pairs Iteration.listed
  induction it.ids with
  | nil => rfl
  | cons r rs ih =>
    rw [List.flatMap_cons, List.filter_append, List.map_append, ih, it.filter_targets i r]
    by_cases hmem : i ∈ s.abortTargets r <;> simp [hmem]

theorem Iteration.getD_instanceRequests :
    (it.instanceRequests.get? i).getD [] = it.listed i := by
  rw [← it.filter_pairs i]
  exact Dict.getD_group it.pairs i

theorem Iteration.toList_instanceRequests :
    (it.instanceRequests.get? i).toList = if it.listed i = [] then [] else [it.listed i] := by
  have hlisted := it.getD_instanceRequests i
  cases h : it.instanceRequests.get? i with
  | none =>
    rw [h] at hlisted
    simp [← hlisted]
  | some ids =>
    have hne : ids ≠ [] := Dict.ne_nil_of_group h
    rw [h] at hlisted
    simp [← hlisted, hne]

end Listed

theorem reachesAll_iff_sendsAll (instances : Dict String H) (it : Iteration s requestIds) :
    ReachesAll instances it ↔ SendsAll instances it.instanceRequests.items := by
  refine forall_congr' fun i => forall_congr' fun handle => forall_congr' fun _ => ?_
  rw [Dict.filter_items, List.map_map, it.toList_instanceRequests i]
  by_cases hnone : it.listed i = [] <;> simp [hnone, abort]

/-- For any tables, instances, ids and orders: every registered instance is told exactly what is
listed for it if and only if no instance that is gone comes before a registered one. -/
theorem abort_reaches_all_iff (instances : Dict String H) (it : Iteration s requestIds) :
    ReachesAll instances it ↔ StaleLast instances it.instanceRequests.keys := by
  rw [reachesAll_iff_sendsAll]
  exact sendsAll_iff it.instanceRequests.items

section Sample

/-- Two requests on two instances, the first of which has been scaled down since. -/
def staleTables : Tables := (Tables.empty.apply (.generate "q" "a")).apply (.generate "r" "b")

def staleManager : Scheduler.Manager Unit :=
  (Scheduler.Manager.init true false false .load 1 .balanced (.fin 0)).run .fin
    [.scaleUp [⟨"a", (), .noConstraints⟩, ⟨"b", (), .noConstraints⟩], .scaleDown ["a"] true]

def staleIteration : Iteration staleTables ["q", "r"] where
  ids := ["q", "r"]
  targets r := (staleTables.abortTargets r).dedup
  ids_perm := List.Perm.refl _
  targets_perm _ := List.Perm.refl _

/-- The look-up of the instance that is gone ends the loop before the other one is told. -/
theorem abort_stops_at_stale_target :
    abort staleManager.instances staleIteration = ([], true) ∧
      "b" ∈ staleManager.instances ∧ staleIteration.listed "b" = ["r"] ∧
      ¬ReachesAll staleManager.instances staleIteration := by
  have hcalls : abort staleManager.instances staleIteration = ([], true) := by decide
  have hlisted : staleIteration.listed "b" = ["r"] := by decide
  refine ⟨hcalls, by decide, hlisted, fun h => ?_⟩
  have hb := h "b" () (by decide)
  rw [hcalls, hlisted] at hb
  cases hb

end Sample

end Llumnix.Routing
