import Llumnix.V1.Migrate
import Mathlib.Data.Rat.Defs
import Mathlib.Data.List.Perm.Basic

/-! The tasks of `_migrate_v1_pair` from the selection of a request to the end of its
migration. Between two suspension points a task runs alone: it waits for the candidates of its
source, then chooses a request, claims it in `v1_migrating_requests` and draws an epoch in one
stretch, and the next suspension is inside `_migrate_v1_request_with_retry`. -/
namespace Llumnix.V1.Selection

open Coroutine

/-- `V1_MIGRATION_MIN_RESIDENCY_SECONDS`. -/
def minResidency : ℚ := 2

/-- A task that waits for the candidates of its source. -/
structure PairTask where
  sourceId : String
  targetId : String
  sourceEndpoint : String
  targetEndpoint : String
  incrementalPrecopy : Bool

def PairTask.params (task : PairTask) (requestId : String) (epoch : ℕ) (serverInfo : ServerInfo) :
    Params :=
  { task with requestId := requestId, epoch := epoch, serverInfo := serverInfo }

/-- A migration, from the claim on its request to the `finally` block. -/
structure Migration where
  params : Params
  prog : Coro Unit
  world : World

def Migration.requestId (m : Migration) : String := m.params.requestId

structure State where
  v1MigratingRequests : String → Bool
  v1MigrationEpochs : String → Option ℕ
  requestInstance : String → Option String
  requestServerInfo : String → Option ServerInfo
  v1RequestLastMigrationTime : String → Option ℚ
  waiting : List PairTask
  active : List Migration
  /-- The migrations that have come to their end, in this order. -/
  ended : List Migration

namespace State

/-- `now - v1_request_last_migration_time.get(request_id, 0.0) < min_residency`. -/
def tooSoon (s : State) (now : ℚ) (requestId : String) : Bool :=
  decide (now - (s.v1RequestLastMigrationTime requestId).getD 0 < minResidency)

/-- The first loop over the candidates: requests that are routed to the source. -/
def routedCandidate (s : State) (sourceId : String) (now : ℚ) (requestIds : List String) :
    Option String :=
  requestIds.find? fun r =>
    !s.v1MigratingRequests r && !s.tooSoon now r && s.requestInstance r == some sourceId

def anyCandidate (s : State) (now : ℚ) (requestIds : List String) : Option String :=
  requestIds.find? fun r => !s.v1MigratingRequests r && !s.tooSoon now r

/-- `_select_v1_migration_request` from the answer of the source on. -/
def selectV1MigrationRequest (s : State) (sourceId : String)
    (reply : Except Exc (List String)) (now : ℚ) : Except Exc (Option String) :=
  match reply with
  | .error (.rayActorError _) | .error (.keyError _) => .ok none
  | .error e => .error e
  | .ok requestIds => .ok <|
    match s.routedCandidate sourceId now requestIds with
    | some r => some r
    | none => s.anyCandidate now requestIds

/-- `_migrate_v1_pair` from the answer of the source to its next suspension, or to its end. -/
def resume (s : State) (task : PairTask) (reply : Except Exc (List String)) (now : ℚ)
    (world : World) : State :=
  match s.selectV1MigrationRequest task.sourceId reply now with
  | .error _ | .ok none => s
  | .ok (some requestId) =>
    match s.requestServerInfo requestId with
    | none => s
    | some serverInfo =>
      let epoch := (s.v1MigrationEpochs requestId).getD 0 + 1
      let params := task.params requestId epoch serverInfo
      { s with
        v1MigratingRequests := Function.update s.v1MigratingRequests requestId true
        v1MigrationEpochs := Function.update s.v1MigrationEpochs requestId (some epoch)
        active := s.active ++ [⟨params, migrateV1RequestWithRetry params, world⟩] }

/-- The `finally` block of a migration. -/
def finish (s : State) (n : ℕ) (m : Migration) : State :=
  { s with
    v1MigratingRequests := Function.update s.v1MigratingRequests m.requestId false
    active := s.active.eraseIdx n
    ended := s.ended ++ [m] }

def initial : State where
  v1MigratingRequests _ := false
  v1MigrationEpochs _ := none
  requestInstance _ := none
  requestServerInfo _ := none
  v1RequestLastMigrationTime _ := none
  waiting := []
  active := []
  ended := []

end State

/-- One stretch of one task. The tables that other tasks write may change at any time; a
migration that is left at a suspension point has been cancelled. -/
inductive Step (S : Host World Call Call.Reply Exc) : State → State → Prop
  | start (s : State) (task : PairTask) : Step S s { s with waiting := s.waiting ++ [task] }
  | resume (s : State) (n : ℕ) (task : PairTask) (reply : Except Exc (List String)) (now : ℚ)
      (world : World) (hn : s.waiting[n]? = some task) (hw : world.trace = []) :
      Step S s (State.resume { s with waiting := s.waiting.eraseIdx n } task reply now world)
  | advance (s : State) (n : ℕ) (m : Migration) (prog : Coro Unit) (world : World)
      (hn : s.active[n]? = some m) (h : S.Step (m.prog, m.world) (prog, world)) :
      Step S s { s with active := s.active.set n ⟨m.params, prog, world⟩ }
  | finish (s : State) (n : ℕ) (m : Migration) (hn : s.active[n]? = some m) :
      Step S s (s.finish n m)
  | tables (s : State) (requestInstance : String → Option String)
      (requestServerInfo : String → Option ServerInfo) (lastTime : String → Option ℚ) :
      Step S s { s with
        requestInstance := requestInstance
        requestServerInfo := requestServerInfo
        v1RequestLastMigrationTime := lastTime }

def Reachable (S : Host World Call Call.Reply Exc) (s : State) : Prop :=
  Relation.ReflTransGen (Step S) .initial s

/-- The requests that are being migrated, one entry for each migration. -/
def claims (s : State) : List String := s.active.map Migration.requestId

/-- The set holds exactly the requests of the migrations, each of one migration only. -/
structure Sound (s : State) : Prop where
  nodup : (claims s).Nodup
  marked : ∀ r, s.v1MigratingRequests r = true ↔ r ∈ claims s

theorem exists_split {α : Type} {l : List α} {n : ℕ} {a : α} (h : l[n]? = some a) :
    ∃ as bs, l = as ++ a :: bs ∧ (∀ b, l.set n b = as ++ b :: bs) ∧ l.eraseIdx n = as ++ bs := by
  obtain ⟨hlt, rfl⟩ := List.getElem?_eq_some_iff.mp h
  refine ⟨l.take n, l.drop (n + 1), ?_, fun b => ?_, List.eraseIdx_eq_take_drop_succ l n⟩
  · rw [← List.drop_eq_getElem_cons hlt, List.take_append_drop]
  · rw [List.set_eq_take_append_cons_drop, if_pos hlt]

section Step
variable {S : Host World Call Call.Reply Exc} {s s' : State}

theorem selected_free {sourceId : String} {reply : Except Exc (List String)} {now : ℚ}
    {r : String} (h : s.selectV1MigrationRequest sourceId reply now = .ok (some r)) :
    s.v1MigratingRequests r = false := by
  unfold State.selectV1MigrationRequest at h
  split at h
  · cases h
  · cases h
  · cases h
  · rename_i requestIds
    have hsel := Except.ok.inj h
    split at hsel
    · rename_i r' hrouted
      cases hsel
      have hpred := List.find?_some hrouted
      simp only [Bool.and_eq_true, Bool.not_eq_true'] at hpred
      exact hpred.1.1
    · have hpred := List.find?_some hsel
      simp only [Bool.and_eq_true, Bool.not_eq_true'] at hpred
      exact hpred.1

theorem resume_cases (task : PairTask) (reply : Except Exc (List String)) (now : ℚ)
    (world : World) : s.resume task reply now world = s ∨ ∃ p : Params,
      s.selectV1MigrationRequest task.sourceId reply now = .ok (some p.requestId) ∧
      p.epoch = (s.v1MigrationEpochs p.requestId).getD 0 + 1 ∧
      s.resume task reply now world = { s with
        v1MigratingRequests := Function.update s.v1MigratingRequests p.requestId true
        v1MigrationEpochs := Function.update s.v1MigrationEpochs p.requestId (some p.epoch)
        active := s.active ++ [⟨p, migrateV1RequestWithRetry p, world⟩] } := by
  unfold State.resume
  split
  · exact .inl rfl
  · exact .inl rfl
  · rename_i r hsel
    split
    · exact .inl rfl
    · rename_i serverInfo _
      exact .inr ⟨task.params r _ serverInfo, hsel, rfl, rfl⟩

theorem sound_begin {p : Params} {prog : Coro Unit} {world : World} {epochs : String → Option ℕ}
    (h : Sound s) (hfree : s.v1MigratingRequests p.requestId = false) :
    Sound { s with
      v1MigratingRequests := Function.update s.v1MigratingRequests p.requestId true
      v1MigrationEpochs := epochs
      active := s.active ++ [⟨p, prog, world⟩] } := by
  have hnew : p.requestId ∉ claims s := by
    intro hmem
    rw [(h.marked _).mpr hmem] at hfree
    cases hfree
  let m : Migration := ⟨p, prog, world⟩
  have hclaims : (s.active ++ [m]).map Migration.requestId = claims s ++ [p.requestId] :=
    List.map_append
  constructor
  · unfold claims
    rw [hclaims]
    have hperm := List.perm_append_singleton p.requestId (claims s)
    exact hperm.nodup_iff.mpr (List.nodup_cons.mpr ⟨hnew, h.nodup⟩)
  · intro r
    unfold claims
    rw [hclaims, List.mem_append, List.mem_singleton]
    change Function.update s.v1MigratingRequests p.requestId true r = true ↔ _
    by_cases hr : r = p.requestId
    · rw [hr, Function.update_self]
      simp
    · rw [Function.update_of_ne hr, h.marked r]
      simp [hr]

theorem sound_finish {n : ℕ} {m : Migration} (h : Sound s) (hn : s.active[n]? = some m) :
    Sound (s.finish n m) := by
  obtain ⟨as, bs, hs, -, herase⟩ := exists_split hn
  have hperm : (claims s).Perm (m.requestId :: (s.active.eraseIdx n).map Migration.requestId) := by
    rw [claims, herase, hs, List.map_append, List.map_append]
    exact List.perm_middle
  have hnodup := hperm.nodup_iff.mp h.nodup
  obtain ⟨hnot, hrest⟩ := List.nodup_cons.mp hnodup
  refine ⟨hrest, fun r => ?_⟩
  change Function.update s.v1MigratingRequests m.requestId false r = true ↔
    r ∈ (s.active.eraseIdx n).map Migration.requestId
  by_cases hr : r = m.requestId
  · rw [hr, Function.update_self]
    exact iff_of_false Bool.false_ne_true hnot
  · rw [Function.update_of_ne hr, h.marked r, hperm.mem_iff, List.mem_cons]
    exact or_iff_right hr

theorem sound_advance {n : ℕ} {m : Migration} {prog : Coro Unit} {world : World} (h : Sound s)
    (hn : s.active[n]? = some m) :
    Sound { s with active := s.active.set n ⟨m.params, prog, world⟩ } := by
  obtain ⟨as, bs, hs, hset, -⟩ := exists_split hn
  let m' : Migration := ⟨m.params, prog, world⟩
  have hclaims : (s.active.set n m').map Migration.requestId = claims s := by
    rw [claims, hset, hs, List.map_append, List.map_append]
    rfl
  constructor
  · unfold claims
    rw [hclaims]
    exact h.nodup
  · intro r
    unfold claims
    rw [hclaims]
    exact h.marked r

theorem sound_step (h : Sound s) (hstep : Step S s s') : Sound s' := by
  cases hstep with
  | start task => exact ⟨h.nodup, h.marked⟩
  | resume n task reply now world hn hw =>
    have hpopped : Sound { s with waiting := s.waiting.eraseIdx n } := ⟨h.nodup, h.marked⟩
    rcases resume_cases task reply now world with heq | ⟨p, hsel, -, heq⟩
    · rw [heq]
      exact hpopped
    · rw [heq]
      exact sound_begin hpopped (selected_free hsel)
  | advance n m prog world hn _ => exact sound_advance h hn
  | finish n m hn => exact sound_finish h hn
  | tables => exact ⟨h.nodup, h.marked⟩

theorem sound_initial : Sound .initial :=
  ⟨List.nodup_nil, fun _ => iff_of_false Bool.false_ne_true List.not_mem_nil⟩

theorem sound_of_reachable (h : Reachable S s) : Sound s := by
  induction h with
  | refl => exact sound_initial
  | tail _ hstep ih => exact sound_step ih hstep

end Step

/-- No request is in two migrations, and as long as it is in one it is marked and no task
selects it. -/
theorem one_migration_per_request (S : Host World Call Call.Reply Exc) {s : State}
    (hs : Reachable S s) :
    (claims s).Nodup ∧ (∀ m ∈ s.active, s.v1MigratingRequests m.requestId = true) ∧
      ∀ sourceId reply now r, s.selectV1MigrationRequest sourceId reply now = .ok (some r) →
        ∀ m ∈ s.active, m.requestId ≠ r := by
  have hsound := sound_of_reachable hs
  have hmarked : ∀ m ∈ s.active, s.v1MigratingRequests m.requestId = true := fun m hm =>
    (hsound.marked _).mpr (List.mem_map_of_mem hm)
  refine ⟨hsound.nodup, hmarked, ?_⟩
  rintro sourceId reply now r hsel m hm rfl
  have hfree := selected_free hsel
  rw [hmarked m hm] at hfree
  cases hfree

section Sample

def sampleTask : PairTask := ⟨"s", "t", "s:1", "t:1", false⟩

def sampleKnown : State := { State.initial with requestServerInfo := fun _ => some ⟨"api"⟩ }

def sampleClaimed : State :=
  { sampleKnown with
    v1MigratingRequests := Function.update sampleKnown.v1MigratingRequests "r" true
    v1MigrationEpochs := Function.update sampleKnown.v1MigrationEpochs "r" (some 1)
    active := [⟨sampleParams, migrateV1RequestWithRetry sampleParams, sampleWorld⟩] }

theorem sampleClaimed_steps (S : Host World Call Call.Reply Exc) :
    Step S State.initial sampleKnown ∧
      Step S sampleKnown { sampleKnown with waiting := [sampleTask] } ∧
      Step S { sampleKnown with waiting := [sampleTask] } sampleClaimed := by
  refine ⟨.tables _ _ _ _, .start _ _, ?_⟩
  have hsel : sampleKnown.selectV1MigrationRequest sampleTask.sourceId (.ok ["r"]) 5 =
      .ok (some "r") := by decide +kernel
  have hresume := Step.resume (S := S) { sampleKnown with waiting := [sampleTask] } 0 sampleTask
    (.ok ["r"]) 5 sampleWorld rfl rfl
  have hdone : State.resume sampleKnown sampleTask (.ok ["r"]) 5 sampleWorld = sampleClaimed := by
    unfold State.resume
    rw [hsel]
    rfl
  exact hdone ▸ hresume

theorem sampleClaimed_reachable (S : Host World Call Call.Reply Exc) :
    Reachable S sampleClaimed := by
  obtain ⟨htables, hstart, hresume⟩ := sampleClaimed_steps S
  exact ((Relation.ReflTransGen.single htables).tail hstart).tail hresume

/-- Another task on the same source passes over `r`. -/
theorem one_migration_per_request_sample : Reachable (host false) sampleClaimed ∧
    claims sampleClaimed = ["r"] ∧
    sampleClaimed.selectV1MigrationRequest "s" (.ok ["r", "q"]) 6 = .ok (some "q") ∧
    (claims sampleClaimed).Nodup ∧ ∀ m ∈ sampleClaimed.active, m.requestId ≠ "q" := by
  have hreach := sampleClaimed_reachable (host false)
  have hsel : sampleClaimed.selectV1MigrationRequest "s" (.ok ["r", "q"]) 6 = .ok (some "q") := by
    decide +kernel
  obtain ⟨hnodup, -, hother⟩ := one_migration_per_request (host false) hreach
  exact ⟨hreach, rfl, hsel, hnodup, hother _ _ _ _ hsel⟩

end Sample

end Llumnix.V1.Selection
