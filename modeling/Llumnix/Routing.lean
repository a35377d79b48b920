import Llumnix.Legacy.Callback
import Llumnix.Machine.Run
import Llumnix.V1.Migrate

/-! The two tables by which the Manager finds the instances of a request, and the places that
write them. -/
namespace Llumnix.Routing

open Machine

structure Tables where
  requestInstance : String → Option String
  /-- The sets, as the lists of their members. -/
  requestInstances : String → Option (List String)

/-- The writers, each from one suspension point to the next. -/
inductive Action
  /-- Bookkeeping of `generate` for a request sent to one instance. -/
  | generate (requestId instanceId : String)
  /-- The same for a request sent to a prefill and a decode instance. -/
  | generatePd (requestId prefillId decodeId : String)
  /-- `abort_done_callback` for an instance that answered. -/
  | abortDone (requestIds : List String)
  /-- `migrate_done_callback` with the answer of `migrate_out`. -/
  | legacyDone (requestIds : List String) (targetId : String)
  /-- The end of `_migrate_v1_request_with_retry`. -/
  | v1Done (requestId targetId : String)
  /-- `_reconcile_request_instances`; `pick` is the order in which sets are iterated. -/
  | reconcile (reports : List (String × List String)) (pick : String → ℕ)

/-- `active_by_request[request_id]`. -/
def active (reports : List (String × List String)) (requestId : String) : List String :=
  (reports.filter fun report => requestId ∈ report.2).map Prod.fst

/-- `next(iter(xs))`, for some order of the set. -/
def anyOf (n : ℕ) (xs : List String) : Option String := xs[n % xs.length]?

namespace Tables

def empty : Tables := ⟨fun _ => none, fun _ => none⟩

def set (s : Tables) (requestId : String) (instanceId : Option String)
    (instanceIds : Option (List String)) : Tables where
  requestInstance := Function.update s.requestInstance requestId instanceId
  requestInstances := Function.update s.requestInstances requestId instanceIds

def forget (s : Tables) (requestId : String) : Tables := s.set requestId none none

def apply (s : Tables) : Action → Tables
  | .generate r i => s.set r (some i) (some ((s.requestInstances r).getD [i]))
  | .generatePd r prefillId decodeId => s.set r (some decodeId) (some [prefillId, decodeId])
  | .abortDone requestIds => requestIds.foldl forget s
  | .legacyDone [] _ => s
  | .legacyDone (r :: _) targetId => s.set r (some targetId) (s.requestInstances r)
  | .v1Done r targetId => s.set r (some targetId) (some [targetId])
  | .reconcile reports pick =>
    { requestInstance := fun r => anyOf (pick r) (active reports r)
      requestInstances := fun r =>
        if active reports r = [] then none else some (active reports r) }

/-- The instances to which `abort` sends a request id. -/
def abortTargets (s : Tables) (requestId : String) : List String :=
  match s.requestInstances requestId, s.requestInstance requestId with
  | some instanceIds, _ => instanceIds
  | none, some instanceId => [instanceId]
  | none, none => []

end Tables

def step (s : Tables) (a : Action) : Option Tables := some (s.apply a)

/-- The entries of one request: both or none, and the instance is one of the set. -/
def Agree : Option String → Option (List String) → Prop
  | none, none => True
  | some instanceId, some instanceIds => instanceId ∈ instanceIds
  | _, _ => False

def Consistent (s : Tables) : Prop :=
  ∀ r, Agree (s.requestInstance r) (s.requestInstances r)

/-- The requests that a completed migration moved, and where to. -/
def Action.moved : Action → Option (List String × String)
  | .legacyDone requestIds targetId => some (requestIds, targetId)
  | .v1Done requestId targetId => some ([requestId], targetId)
  | _ => none

/-- What the tables are to be after an action: consistent, and with the requests that moved
addressed at their new instance. -/
def Follow (s : Tables) (a : Action) : Prop :=
  Consistent (s.apply a) ∧ ∀ requestIds targetId, a.moved = some (requestIds, targetId) →
    ∀ r ∈ requestIds, targetId ∈ (s.apply a).abortTargets r

/-- A request is not generated on an instance while the set has only others, and a legacy
migration reports only requests whose set has the target already. -/
def Settled (s : Tables) : Action → Prop
  | .generate r i => ∀ instanceIds, s.requestInstances r = some instanceIds → i ∈ instanceIds
  | .legacyDone requestIds targetId => ∀ r ∈ requestIds, ∃ instanceIds,
      s.requestInstances r = some instanceIds ∧ targetId ∈ instanceIds
  | _ => True

/-! The callbacks write the tables as the step says. -/

theorem legacyDone_eq_recordMigrated (s : Tables) (pair : Legacy.Rounds.Pair)
    (requestIds : List String) (w : Legacy.Callback.World)
    (h : w.requestInstance = s.requestInstance) :
    (s.apply (.legacyDone requestIds pair.2)).requestInstance =
      (w.recordMigrated pair requestIds).requestInstance := by
  cases requestIds with
  | nil => exact h.symm
  | cons r rs =>
    change Function.update s.requestInstance r (some pair.2) =
      Function.update w.requestInstance r (some pair.2)
    rw [h]

theorem v1Done_eq_recordMigrated (s : Tables) (p : V1.Params) (w : V1.World) :
    (s.apply (.v1Done p.requestId p.targetId)).requestInstance p.requestId =
        (w.recordMigrated p).requestInstance ∧
      (s.apply (.v1Done p.requestId p.targetId)).requestInstances p.requestId =
        (w.recordMigrated p).requestInstances :=
  ⟨Function.update_self _ _ _, Function.update_self _ _ _⟩

section Step
variable {s : Tables}

theorem consistent_empty : Consistent .empty := fun _ => trivial

theorem consistent_set_iff (h : Consistent s) {r : String} {i : Option String}
    {is : Option (List String)} : Consistent (s.set r i is) ↔ Agree i is := by
  have hself : Agree ((s.set r i is).requestInstance r) ((s.set r i is).requestInstances r) =
      Agree i is := by
    simp [Tables.set]
  constructor
  · intro hs
    rw [← hself]
    exact hs r
  · intro hagree q
    by_cases hq : q = r
    · rw [hq, hself]
      exact hagree
    · simp only [Tables.set, Function.update_of_ne hq]
      exact h q

theorem consistent_forgetAll (requestIds : List String) (h : Consistent s) :
    Consistent (requestIds.foldl Tables.forget s) := by
  induction requestIds generalizing s with
  | nil => exact h
  | cons r rs ih => exact ih ((consistent_set_iff h).mpr trivial)

theorem agree_anyOf (n : ℕ) (xs : List String) :
    Agree (anyOf n xs) (if xs = [] then none else some xs) := by
  by_cases hxs : xs = []
  · rw [hxs]
    trivial
  · have hlt : n % xs.length < xs.length := Nat.mod_lt n (List.length_pos_iff.mpr hxs)
    rw [if_neg hxs, anyOf, List.getElem?_eq_getElem hlt]
    exact List.getElem_mem hlt

theorem mem_abortTargets_iff {r i : String}
    (h : Agree (s.requestInstance r) (s.requestInstances r)) :
    i ∈ s.abortTargets r ↔ ∃ is, s.requestInstances r = some is ∧ i ∈ is := by
  unfold Tables.abortTargets
  cases hset : s.requestInstances r with
  | some is => simp
  | none =>
    cases hone : s.requestInstance r with
    | none => simp
    | some j =>
      rw [hset, hone] at h
      exact h.elim

theorem follow_legacyDone_iff (h : Consistent s) (requestIds : List String) (targetId : String) :
    Follow s (.legacyDone requestIds targetId) ↔ Settled s (.legacyDone requestIds targetId) := by
  cases requestIds with
  | nil =>
    refine iff_of_true ⟨h, fun ids t hmoved r hr => ?_⟩ nofun
    cases hmoved
    cases hr
  | cons r₀ rs =>
    -- the sets are not written
    have hsets : ∀ r, (s.apply (.legacyDone (r₀ :: rs) targetId)).requestInstances r =
        s.requestInstances r := by
      intro r
      exact congrFun (Function.update_eq_self r₀ s.requestInstances) r
    constructor
    · rintro ⟨hcons, hmoved⟩ r hr
      have hmem := (mem_abortTargets_iff (hcons r)).mp (hmoved _ _ rfl r hr)
      rw [hsets r] at hmem
      exact hmem
    · intro hsettled
      have hcons : Consistent (s.apply (.legacyDone (r₀ :: rs) targetId)) := by
        refine (consistent_set_iff h).mpr ?_
        obtain ⟨is, hset, hin⟩ := hsettled r₀ List.mem_cons_self
        rw [hset]
        exact hin
      refine ⟨hcons, fun ids t hmoved r hr => ?_⟩
      cases hmoved
      rw [mem_abortTargets_iff (hcons r), hsets r]
      exact hsettled r hr

theorem follow_iff_settled (h : Consistent s) (a : Action) : Follow s a ↔ Settled s a := by
  have hstill : ∀ {a : Action}, a.moved = none → (Follow s a ↔ Consistent (s.apply a)) := by
    intro a ha
    refine ⟨fun hf => hf.1, fun hc => ⟨hc, fun ids t hmoved => ?_⟩⟩
    rw [ha] at hmoved
    cases hmoved
  cases a with
  | generate r i =>
    rw [hstill rfl]
    refine (consistent_set_iff h).trans ?_
    change i ∈ (s.requestInstances r).getD [i] ↔ _
    cases hset : s.requestInstances r with
    | none => simp [Settled, hset]
    | some is => simp [Settled, hset]
  | generatePd r prefillId decodeId =>
    rw [hstill rfl]
    refine iff_of_true ((consistent_set_iff h).mpr ?_) trivial
    change decodeId ∈ [prefillId, decodeId]
    simp
  | abortDone requestIds =>
    rw [hstill rfl]
    exact iff_of_true (consistent_forgetAll requestIds h) trivial
  | legacyDone requestIds targetId => exact follow_legacyDone_iff h requestIds targetId
  | v1Done r targetId =>
    have hcons : Consistent (s.apply (.v1Done r targetId)) :=
      (consistent_set_iff h).mpr List.mem_cons_self
    refine iff_of_true ⟨hcons, fun ids t hmoved q hq => ?_⟩ trivial
    cases hmoved
    obtain rfl := List.mem_singleton.mp hq
    rw [mem_abortTargets_iff (hcons q)]
    exact ⟨[targetId], Function.update_self _ _ _, List.mem_cons_self⟩
  | reconcile reports pick =>
    rw [hstill rfl]
    exact iff_of_true (fun r => agree_anyOf (pick r) (active reports r)) trivial

end Step

/-- The tables follow the migrations along a run exactly if every action finds them settled. -/
theorem tables_follow_iff (as : List Action) :
    Meets step Follow .empty as ↔ Meets step Settled .empty as := by
  have hstep : ∀ s a s', Consistent s → True → Follow s a → step s a = some s' →
      Consistent s' := by
    intro s a s' _ _ hfollow hs'
    cases hs'
    exact hfollow.1
  exact meets_iff hstep (fun s a hs _ => follow_iff_settled hs a) consistent_empty meets_true

/-- After a legacy migration of two requests the sets still name the source: the tables disagree
on the first, and an abort of the second goes to the source only. -/
theorem legacy_migration_not_followed :
    let s := (Tables.empty.apply (.generate "r" "a")).apply (.generate "q" "a")
    let s' := s.apply (.legacyDone ["r", "q"] "b")
    ¬Follow s (.legacyDone ["r", "q"] "b") ∧ ¬Consistent s' ∧ s'.abortTargets "r" = ["a"] ∧
      s'.abortTargets "q" = ["a"] := by
  intro s s'
  have hcons : ¬Consistent s' := by
    intro h
    have hr : "b" ∈ ["a"] := h "r"
    simp at hr
  exact ⟨fun h => hcons h.1, hcons, rfl, rfl⟩

end Llumnix.Routing
