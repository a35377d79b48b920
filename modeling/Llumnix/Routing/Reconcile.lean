import Llumnix.Python.Dict
import Llumnix.Routing

/-! `_get_request_instance`: the instances answer one by one, and then the answers replace the
tables. -/
namespace Llumnix.Routing.Reconcile

open Machine Python

/-- One call of `_get_request_instance` that waits for its answers. -/
structure Round where
  /-- The instances asked. An answer stands here from when the actor gave it to when the callback
  takes it. -/
  awaiting : Dict String (Option (List String))
  /-- `instance_ids` and `instance_requests`, zipped. -/
  reports : List (String × List String)

structure World (H : Type) where
  instances : Dict String H
  /-- What `get_all_request_ids` of an instance gives. -/
  active : String → List String
  tables : Tables
  /-- The keys of `request_server_info`. -/
  serverInfo : Finset String
  round : Option Round
  /-- Ghost: what `generate` has recorded. -/
  recorded : Finset String
  /-- Ghost: what was in no answer of some round since it was recorded. -/
  missed : Finset String

inductive Action (H : Type)
  /-- An instance takes a request that `generate` sent. -/
  | accept (requestId instanceId : String)
  /-- Bookkeeping of `generate`, for one instance and for a prefill and a decode instance. -/
  | record (requestId instanceId : String)
  | recordPd (requestId prefillId decodeId : String)
  /-- The target of a V1 migration has the request. -/
  | moveIn (requestId instanceId : String)
  /-- A request is finished, or the source of a V1 migration released it. -/
  | leave (requestId instanceId : String)
  | v1Done (requestId targetId : String)
  | scaleUp (instanceId : String) (handle : H)
  | scaleDown (instanceId : String)
  | ask
  /-- The actor gives its answer. -/
  | serve (instanceId : String)
  /-- `get_request_instance_done_callback`, with an answer or a `RayActorError`. -/
  | reply (instanceId : String)
  | fail (instanceId : String)
  /-- `_reconcile_request_instances`, once all callbacks have run. -/
  | reconcile (pick : String → ℕ)

def Reported (reports : List (String × List String)) (r : String) : Prop :=
  ∃ report ∈ reports, r ∈ report.2

instance (reports : List (String × List String)) (r : String) : Decidable (Reported reports r) :=
  inferInstanceAs (Decidable (∃ report ∈ reports, r ∈ report.2))

namespace World
variable {H : Type}

def init : World H := ⟨.empty, fun _ => [], .empty, ∅, none, ∅, ∅⟩

def enter (w : World H) (r i : String) : World H :=
  { w with active := Function.update w.active i (r :: w.active i) }

def leave (w : World H) (r i : String) : World H :=
  { w with active := Function.update w.active i ((w.active i).filter (· ≠ r)) }

def record (w : World H) (r : String) (a : Routing.Action) : World H :=
  { w with
    tables := w.tables.apply a
    serverInfo := insert r w.serverInfo
    recorded := insert r w.recorded
    missed := w.missed.erase r }

/-- A new actor has no requests. -/
def scaleUp (w : World H) (i : String) (handle : H) : World H :=
  if i ∈ w.instances then w
  else
    { w with
      instances := w.instances.set i handle
      active := Function.update w.active i [] }

def scaleDown (w : World H) (i : String) : World H := { w with instances := w.instances.erase i }

def ask (w : World H) : World H := { w with round := some ⟨w.instances.fromkeys none, []⟩ }

def serve (w : World H) (rd : Round) (i : String) : World H :=
  { w with round := some { rd with awaiting := rd.awaiting.set i (some (w.active i)) } }

def reply (w : World H) (rd : Round) (i : String) (requestIds : List String) : World H :=
  { w with round := some ⟨rd.awaiting.erase i, rd.reports ++ [(i, requestIds)]⟩ }

def fail (w : World H) (rd : Round) (i : String) : World H :=
  { w.scaleDown i with round := some { rd with awaiting := rd.awaiting.erase i } }

def reconcile (w : World H) (rd : Round) (pick : String → ℕ) : World H :=
  { w with
    tables := w.tables.apply (.reconcile rd.reports pick)
    serverInfo := w.serverInfo.filter (Reported rd.reports)
    round := none
    missed := w.missed ∪ w.recorded.filter fun r => ¬Reported rd.reports r }

def Live (w : World H) (r : String) : Prop := ∃ i ∈ w.instances, r ∈ w.active i

end World

variable {H : Type}

def step (w : World H) : Action H → Option (World H)
  | .accept r i => some (w.enter r i)
  | .record r i => some (w.record r (.generate r i))
  | .recordPd r p d => some (w.record r (.generatePd r p d))
  | .moveIn r i => some (w.enter r i)
  | .leave r i => some (w.leave r i)
  | .v1Done r t => some { w with tables := w.tables.apply (.v1Done r t) }
  | .scaleUp i handle => some (w.scaleUp i handle)
  | .scaleDown i => some (w.scaleDown i)
  | .ask => if w.round.isNone then some w.ask else none
  | .serve i => w.round.bind fun rd =>
    if rd.awaiting.get? i = some none then some (w.serve rd i) else none
  | .reply i => w.round.bind fun rd =>
    match rd.awaiting.get? i with
    | some (some requestIds) => some (w.reply rd i requestIds)
    | _ => none
  | .fail i => w.round.bind fun rd => if i ∈ rd.awaiting then some (w.fail rd i) else none
  | .reconcile pick => w.round.bind fun rd =>
    if rd.awaiting.keys = [] then some (w.reconcile rd pick) else none

/-- Reconciling leaves every request that is recorded and live in both tables and in
`request_server_info`. -/
def Keeps (w : World H) : Action H → Prop
  | .reconcile pick => ∀ w', step w (.reconcile pick) = some w' → ∀ r ∈ w.recorded, w.Live r →
      w'.tables.requestInstance r ≠ none ∧ w'.tables.requestInstances r ≠ none ∧ r ∈ w'.serverInfo
  | _ => True

/-- Every request that is recorded and live was in an answer, in this round and in every earlier
one since it was recorded. -/
def Caught (w : World H) : Action H → Prop
  | .reconcile _ => ∀ rd, w.round = some rd → rd.awaiting.keys = [] → ∀ r ∈ w.recorded, w.Live r →
      r ∉ w.missed ∧ Reported rd.reports r
  | _ => True

/-- What the reconciliation before took out of `request_server_info` is what it missed. -/
def Tracked (w : World H) : Prop := ∀ r ∈ w.recorded, r ∈ w.serverInfo ↔ r ∉ w.missed

/-- What a step does, and what it found. -/
inductive Does (w : World H) : Action H → World H → Prop
  | accept (r i : String) : Does w (.accept r i) (w.enter r i)
  | record (r i : String) : Does w (.record r i) (w.record r (.generate r i))
  | recordPd (r p d : String) : Does w (.recordPd r p d) (w.record r (.generatePd r p d))
  | moveIn (r i : String) : Does w (.moveIn r i) (w.enter r i)
  | leave (r i : String) : Does w (.leave r i) (w.leave r i)
  | v1Done (r t : String) :
    Does w (.v1Done r t) { w with tables := w.tables.apply (.v1Done r t) }
  | scaleUp (i : String) (handle : H) : Does w (.scaleUp i handle) (w.scaleUp i handle)
  | scaleDown (i : String) : Does w (.scaleDown i) (w.scaleDown i)
  | ask : Does w .ask w.ask
  | serve {rd : Round} {i : String} (hrd : w.round = some rd)
    (hi : rd.awaiting.get? i = some none) : Does w (.serve i) (w.serve rd i)
  | reply {rd : Round} {i : String} {requestIds : List String} (hrd : w.round = some rd)
    (hi : rd.awaiting.get? i = some (some requestIds)) :
    Does w (.reply i) (w.reply rd i requestIds)
  | fail {rd : Round} {i : String} (hrd : w.round = some rd) : Does w (.fail i) (w.fail rd i)
  | reconcile {rd : Round} {pick : String → ℕ} (hrd : w.round = some rd)
    (hnone : rd.awaiting.keys = []) : Does w (.reconcile pick) (w.reconcile rd pick)

section Step
variable {w w' : World H} {a : Action H}

theorem does_of_step (h : step w a = some w') : Does w a w' := by
  cases a with
  | accept r i =>
    cases h
    exact .accept r i
  | record r i =>
    cases h
    exact .record r i
  | recordPd r p d =>
    cases h
    exact .recordPd r p d
  | moveIn r i =>
    cases h
    exact .moveIn r i
  | leave r i =>
    cases h
    exact .leave r i
  | v1Done r t =>
    cases h
    exact .v1Done r t
  | scaleUp i handle =>
    cases h
    exact .scaleUp i handle
  | scaleDown i =>
    cases h
    exact .scaleDown i
  | ask =>
    obtain ⟨-, h⟩ := Option.ite_none_right_eq_some.mp h
    cases h
    exact .ask
  | serve i =>
    obtain ⟨rd, hrd, h⟩ := Option.bind_eq_some_iff.mp h
    obtain ⟨hi, h⟩ := Option.ite_none_right_eq_some.mp h
    cases h
    exact .serve hrd hi
  | reply i =>
    obtain ⟨rd, hrd, h⟩ := Option.bind_eq_some_iff.mp h
    cases hi : rd.awaiting.get? i with
    | none => simp [hi] at h
    | some answer =>
      cases answer with
      | none => simp [hi] at h
      | some requestIds =>
        simp only [hi] at h
        cases h
        exact .reply hrd hi
  | fail i =>
    obtain ⟨rd, hrd, h⟩ := Option.bind_eq_some_iff.mp h
    obtain ⟨-, h⟩ := Option.ite_none_right_eq_some.mp h
    cases h
    exact .fail hrd
  | reconcile pick =>
    obtain ⟨rd, hrd, h⟩ := Option.bind_eq_some_iff.mp h
    obtain ⟨hnone, h⟩ := Option.ite_none_right_eq_some.mp h
    cases h
    exact .reconcile hrd hnone

theorem tracked_record (h : Tracked w) (r : String) (t : Routing.Action) :
    Tracked (w.record r t) := by
  intro q hq
  by_cases hqr : q = r
  · simp [World.record, hqr]
  · have hold : q ∈ w.recorded := (Finset.mem_insert.mp hq).resolve_left hqr
    simp [World.record, hqr, h q hold]

theorem tracked_reconcile (h : Tracked w) (rd : Round) (pick : String → ℕ) :
    Tracked (w.reconcile rd pick) := by
  intro r hr
  have hrec : r ∈ w.recorded := hr
  simp [World.reconcile, h r hrec, hrec]

theorem tracked_step (h : Tracked w) (hstep : step w a = some w') : Tracked w' := by
  cases does_of_step hstep with
  | record r i => exact tracked_record h r _
  | recordPd r p d => exact tracked_record h r _
  | scaleUp i handle =>
    unfold World.scaleUp
    split <;> exact h
  | @reconcile rd pick hrd hnone => exact tracked_reconcile h rd pick
  | _ => exact h

theorem active_ne_nil_iff {reports : List (String × List String)} {r : String} :
    active reports r ≠ [] ↔ Reported reports r := by
  unfold active
  rw [ne_eq, List.map_eq_nil_iff, List.filter_eq_nil_iff]
  simp [Reported]

theorem reconcile_tables_iff (t : Tables) (reports : List (String × List String))
    (pick : String → ℕ) (r : String) :
    ((t.apply (.reconcile reports pick)).requestInstance r ≠ none ∧
      (t.apply (.reconcile reports pick)).requestInstances r ≠ none) ↔ Reported reports r := by
  rw [← active_ne_nil_iff]
  have hagree := agree_anyOf (pick r) (active reports r)
  change anyOf (pick r) (active reports r) ≠ none ∧
    (if active reports r = [] then none else some (active reports r)) ≠ none ↔ _
  by_cases hnil : active reports r = []
  · simp [hnil]
  · rw [if_neg hnil] at hagree ⊢
    cases hany : anyOf (pick r) (active reports r) with
    | none =>
      rw [hany] at hagree
      exact hagree.elim
    | some i => simp [hnil]

theorem keeps_iff_caught (h : Tracked w) (a : Action H) : Keeps w a ↔ Caught w a := by
  cases a with
  | reconcile pick =>
    constructor
    · intro hkeeps rd hrd hnone r hr hlive
      have hstep : step w (.reconcile pick) = some (w.reconcile rd pick) := by
        simp [step, hrd, hnone]
      obtain ⟨hone, hset, hinfo⟩ := hkeeps _ hstep r hr hlive
      have hinfo : r ∈ w.serverInfo := Finset.mem_of_mem_filter r hinfo
      exact ⟨(h r hr).mp hinfo, (reconcile_tables_iff w.tables rd.reports pick r).mp ⟨hone, hset⟩⟩
    · intro hcaught w' hstep r hr hlive
      cases does_of_step hstep with
      | @reconcile rd _ hrd hnone =>
        obtain ⟨hmissed, hreported⟩ := hcaught rd hrd hnone r hr hlive
        obtain ⟨hone, hset⟩ := (reconcile_tables_iff w.tables rd.reports pick r).mpr hreported
        have hinfo : r ∈ w.serverInfo := (h r hr).mpr hmissed
        exact ⟨hone, hset, Finset.mem_filter.mpr ⟨hinfo, hreported⟩⟩
  | _ => exact Iff.rfl

end Step

/-! Enough for every round: while instances are asked, requests go only to those that have not
answered, unless an answer that has arrived has them. -/

def Timely (w : World H) (r i : String) : Prop :=
  ∀ rd, w.round = some rd → rd.awaiting.get? i = some none ∨ Reported rd.reports r

def Quiet (w : World H) : Action H → Prop
  | .accept r i => r ∉ w.recorded ∧ Timely w r i
  | .moveIn r i => w.Live r ∧ Timely w r i
  | _ => True

instance (w : World H) (r i : String) : Decidable (Timely w r i) :=
  inferInstanceAs (Decidable (∀ rd ∈ w.round, _ ∨ Reported rd.reports r))

instance (w : World H) (r : String) : Decidable (w.Live r) :=
  inferInstanceAs (Decidable (∃ i ∈ w.instances.keys, r ∈ w.active i))

instance (w : World H) : (a : Action H) → Decidable (Quiet w a)
  | .accept r i => inferInstanceAs (Decidable (r ∉ w.recorded ∧ Timely w r i))
  | .moveIn r i => inferInstanceAs (Decidable (w.Live r ∧ Timely w r i))
  | .record .. | .recordPd .. | .leave .. | .v1Done .. | .scaleUp .. | .scaleDown _ | .ask
  | .serve _ | .reply _ | .fail _ | .reconcile _ => isTrue trivial

/-- The instance has not answered, or with the request. -/
def Round.Pending (rd : Round) (r i : String) : Prop :=
  rd.awaiting.get? i = some none ∨
    ∃ requestIds, rd.awaiting.get? i = some (some requestIds) ∧ r ∈ requestIds

structure Covered (w : World H) : Prop where
  pending : ∀ rd, w.round = some rd → ∀ r, Reported rd.reports r ∨
    ∀ i ∈ w.instances, r ∈ w.active i → rd.Pending r i
  missed : ∀ r ∈ w.missed, r ∈ w.recorded ∧ ¬w.Live r

section Quiet
variable {w w' : World H} {a : Action H} {rd : Round}

theorem covered_mono (h : Covered w) (hround : w'.round = w.round)
    (hrec : w.recorded ⊆ w'.recorded) (hmissed : w'.missed ⊆ w.missed)
    (hactive : ∀ i ∈ w'.instances, ∀ r ∈ w'.active i, i ∈ w.instances ∧ r ∈ w.active i) :
    Covered w' where
  pending := by
    intro rd hrd r
    rw [hround] at hrd
    refine (h.pending rd hrd r).imp_right fun hpending i hi hr => ?_
    obtain ⟨hi, hr⟩ := hactive i hi r hr
    exact hpending i hi hr
  missed := by
    intro r hr
    obtain ⟨hrecorded, hdead⟩ := h.missed r (hmissed hr)
    refine ⟨hrec hrecorded, ?_⟩
    rintro ⟨i, hi, hin⟩
    exact hdead ⟨i, hactive i hi r hin⟩

theorem covered_enter (h : Covered w) {r i : String} (htimely : Timely w r i)
    (hnot : r ∉ w.missed) : Covered (w.enter r i) where
  pending := by
    intro rd hrd q
    have hother : ∀ j, ¬(j = i ∧ q = r) → q ∈ (w.enter r i).active j → q ∈ w.active j := by
      intro j hne hin
      by_cases hji : j = i
      · subst hji
        simp only [World.enter, Function.update_self, List.mem_cons] at hin
        exact hin.resolve_left fun hqr => hne ⟨rfl, hqr⟩
      · simpa only [World.enter, Function.update_of_ne hji] using hin
    rcases h.pending rd hrd q with hreported | hpending
    · exact .inl hreported
    · by_cases hqr : q = r
      · subst hqr
        refine (htimely rd hrd).symm.imp_right fun hunanswered j hj hin => ?_
        by_cases hji : j = i
        · exact .inl (hji ▸ hunanswered)
        · exact hpending j hj (hother j (fun hne => hji hne.1) hin)
      · exact .inr fun j hj hin => hpending j hj (hother j (fun hne => hqr hne.2) hin)
  missed := by
    intro q hq
    have hqr : q ≠ r := fun heq => hnot (heq ▸ hq)
    obtain ⟨hrecorded, hdead⟩ := h.missed q hq
    refine ⟨hrecorded, ?_⟩
    rintro ⟨j, hj, hin⟩
    refine hdead ⟨j, hj, ?_⟩
    by_cases hji : j = i
    · subst hji
      simpa [World.enter, hqr] using hin
    · simpa only [World.enter, Function.update_of_ne hji] using hin

theorem covered_ask (h : Covered w) : Covered w.ask where
  pending := by
    intro rd hrd r
    cases hrd
    exact .inr fun i hi _ => .inl (Dict.get?_fromkeys hi)
  missed := h.missed

theorem covered_serve (h : Covered w) (hrd : w.round = some rd) (i : String) :
    Covered (w.serve rd i) where
  pending := by
    intro rd' hrd' r
    cases hrd'
    refine (h.pending rd hrd r).imp_right fun hpending j hj hr => ?_
    unfold Round.Pending
    rw [Dict.get?_set]
    by_cases hji : j = i
    · rw [if_pos hji]
      exact .inr ⟨w.active i, rfl, hji ▸ hr⟩
    · rw [if_neg hji]
      exact hpending j hj hr
  missed := h.missed

theorem covered_reply (h : Covered w) (hrd : w.round = some rd) {i : String}
    {requestIds : List String} (hi : rd.awaiting.get? i = some (some requestIds)) :
    Covered (w.reply rd i requestIds) where
  pending := by
    intro rd' hrd' r
    cases hrd'
    by_cases hr : r ∈ requestIds
    · exact .inl ⟨(i, requestIds), by simp, hr⟩
    · rcases h.pending rd hrd r with ⟨report, hreport, hin⟩ | hpending
      · exact .inl ⟨report, List.mem_append_left _ hreport, hin⟩
      · refine .inr fun j hj hin => ?_
        have hold := hpending j hj hin
        have hji : j ≠ i := by
          rintro rfl
          rcases hold with hold | ⟨ids, hold, hin⟩
          · rw [hi] at hold
            cases hold
          · rw [hi] at hold
            cases hold
            exact hr hin
        unfold Round.Pending
        rw [Dict.get?_erase, if_neg hji]
        exact hold
  missed := h.missed

theorem covered_fail (h : Covered w) (hrd : w.round = some rd) (i : String) :
    Covered (w.fail rd i) where
  pending := by
    intro rd' hrd' r
    cases hrd'
    refine (h.pending rd hrd r).imp_right fun hpending j hj hr => ?_
    obtain ⟨hji, hj⟩ := Dict.mem_erase.mp hj
    unfold Round.Pending
    rw [Dict.get?_erase, if_neg hji]
    exact hpending j hj hr
  missed := by
    intro r hr
    obtain ⟨hrecorded, hdead⟩ := h.missed r hr
    refine ⟨hrecorded, ?_⟩
    rintro ⟨j, hj, hin⟩
    exact hdead ⟨j, (Dict.mem_erase.mp hj).2, hin⟩

theorem reported_of_live (h : Covered w) (hrd : w.round = some rd) (hnone : rd.awaiting.keys = [])
    {r : String} (hlive : w.Live r) : Reported rd.reports r := by
  obtain ⟨i, hi, hr⟩ := hlive
  rcases h.pending rd hrd r with hreported | hpending
  · exact hreported
  · have hunknown : rd.awaiting.get? i = none := by
      rw [Dict.get?_eq_none, Dict.mem_def, hnone]
      exact List.not_mem_nil
    have hpend := hpending i hi hr
    simp [Round.Pending, hunknown] at hpend

theorem covered_reconcile (h : Covered w) (hrd : w.round = some rd)
    (hnone : rd.awaiting.keys = []) (pick : String → ℕ) : Covered (w.reconcile rd pick) where
  pending := by
    intro rd' hrd'
    cases hrd'
  missed := by
    intro r hr
    rcases Finset.mem_union.mp hr with hr | hr
    · exact h.missed r hr
    · obtain ⟨hrecorded, hnot⟩ := Finset.mem_filter.mp hr
      exact ⟨hrecorded, fun hlive => hnot (reported_of_live h hrd hnone hlive)⟩

theorem covered_step (h : Covered w) (hquiet : Quiet w a) (hstep : step w a = some w') :
    Covered w' := by
  cases does_of_step hstep with
  | accept r i => exact covered_enter h hquiet.2 fun hr => hquiet.1 (h.missed r hr).1
  | moveIn r i => exact covered_enter h hquiet.2 fun hr => (h.missed r hr).2 hquiet.1
  | record r i =>
    exact covered_mono h rfl (Finset.subset_insert r _) (Finset.erase_subset r _)
      fun i hi r hr => ⟨hi, hr⟩
  | recordPd r p d =>
    exact covered_mono h rfl (Finset.subset_insert r _) (Finset.erase_subset r _)
      fun i hi r hr => ⟨hi, hr⟩
  | leave r i =>
    refine covered_mono h rfl (Finset.Subset.refl _) (Finset.Subset.refl _) fun j hj q hq => ?_
    refine ⟨hj, ?_⟩
    by_cases hji : j = i
    · subst hji
      simp only [World.leave, Function.update_self] at hq
      exact List.mem_of_mem_filter hq
    · simpa only [World.leave, Function.update_of_ne hji] using hq
  | v1Done r t =>
    exact covered_mono h rfl (Finset.Subset.refl _) (Finset.Subset.refl _)
      fun i hi r hr => ⟨hi, hr⟩
  | scaleUp i handle =>
    unfold World.scaleUp
    split
    · exact h
    · refine covered_mono h rfl (Finset.Subset.refl _) (Finset.Subset.refl _) fun j hj q hq => ?_
      by_cases hji : j = i
      · subst hji
        simp at hq
      · have hj := (Dict.mem_set.mp hj).resolve_left hji
        exact ⟨hj, by simpa only [Function.update_of_ne hji] using hq⟩
  | scaleDown i =>
    exact covered_mono h rfl (Finset.Subset.refl _) (Finset.Subset.refl _)
      fun j hj q hq => ⟨(Dict.mem_erase.mp hj).2, hq⟩
  | ask => exact covered_ask h
  | serve hrd _ => exact covered_serve h hrd _
  | reply hrd hi => exact covered_reply h hrd hi
  | fail hrd => exact covered_fail h hrd _
  | reconcile hrd hnone => exact covered_reconcile h hrd hnone _

theorem caught_of_covered (h : Covered w) (a : Action H) : Caught w a := by
  cases a with
  | reconcile pick =>
    intro rd hrd hnone r _ hlive
    exact ⟨fun hr => (h.missed r hr).2 hlive, reported_of_live h hrd hnone hlive⟩
  | _ => trivial

theorem caught_of_quiet {as : List (Action H)} (hquiet : Meets step Quiet .init as) :
    Meets step Caught .init as := by
  have hinit : Covered (.init : World H) :=
    ⟨fun _ hrd => (nomatch hrd), fun r hr => absurd hr (Finset.notMem_empty r)⟩
  have hiff : Meets step Caught .init as ↔ Meets step (fun _ _ => True) .init as :=
    meets_iff (fun _ _ _ h hquiet _ hstep => covered_step h hquiet hstep)
      (fun _ a h _ => iff_of_true (caught_of_covered h a) trivial) hinit hquiet
  exact hiff.mpr meets_true

end Quiet

theorem meets_keeps_iff (as : List (Action H)) :
    Meets step Keeps .init as ↔ Meets step Caught .init as := by
  have hinit : Tracked (.init : World H) := fun r hr => absurd hr (Finset.notMem_empty r)
  exact meets_iff (fun _ _ _ h _ _ hstep => tracked_step h hstep)
    (fun _ a h _ => keeps_iff_caught h a) hinit meets_true

/-- Along any run, reconciliation forgets no live request exactly if the answers of every round
have all that are recorded and live. They do in a quiet run. -/
theorem reconcile_keeps_live_iff (as : List (Action H)) :
    (Meets step Keeps .init as ↔ Meets step Caught .init as) ∧
      (Meets step Quiet .init as → Meets step Keeps .init as) :=
  ⟨meets_keeps_iff as, fun hquiet => (meets_keeps_iff as).mpr (caught_of_quiet hquiet)⟩

/-- A request is taken while its instance is asked, and moves on when it has been reported. -/
def takenInTime : List (Action Unit) :=
  [.scaleUp "a" (), .scaleUp "b" (), .ask, .accept "r" "a", .record "r" "a", .serve "b", .serve "a",
    .reply "a", .moveIn "r" "b", .v1Done "r" "b", .leave "r" "a", .reply "b", .reconcile fun _ => 0]

theorem reconcile_keeps_live_takenInTime :
    (∃ w, run step .init takenInTime = some w ∧ w.Live "r") ∧ Meets step Keeps .init takenInTime :=
  ⟨⟨_, rfl, by decide⟩, (reconcile_keeps_live_iff takenInTime).2 (by decide)⟩

section Forgotten

def answeredTooEarly : List (Action Unit) :=
  [.scaleUp "a" (), .ask, .serve "a", .accept "r" "a", .record "r" "a", .reply "a"]

def movedBehind : List (Action Unit) :=
  [.scaleUp "a" (), .scaleUp "b" (), .accept "r" "a", .record "r" "a", .ask, .serve "b",
    .moveIn "r" "b", .v1Done "r" "b", .leave "r" "a", .serve "a", .reply "b", .reply "a"]

/-- An instance takes a request after it has answered; and a request moves from an instance that
has yet to answer to one that has. -/
theorem live_request_forgotten :
    ¬Meets step Keeps .init (answeredTooEarly ++ [.reconcile fun _ => 0]) ∧
      ¬Meets step Keeps .init (movedBehind ++ [.reconcile fun _ => 0]) := by
  constructor
  · intro h
    have hkeeps := ok_of_meets h rfl
    have hforgot := hkeeps _ rfl "r" (by decide) ⟨"a", by decide, by decide⟩
    exact hforgot.1 rfl
  · intro h
    have hkeeps := ok_of_meets h rfl
    have hforgot := hkeeps _ rfl "r" (by decide) ⟨"b", by decide, by decide⟩
    exact hforgot.1 rfl

end Forgotten

end Llumnix.Routing.Reconcile
