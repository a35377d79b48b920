import Mathlib.Data.List.Chain
import Llumnix.Coroutine.Safe
import Llumnix.Log.LastWrite
import Llumnix.V1.Footprint
import Llumnix.V1.Ledger

/-! When a run of `_migrate_v1_request_with_retry` has the request running on both sides. -/
namespace Llumnix.V1
open Coroutine

theorem Effect.Moves.running {ef : Effect} {s : Option MigrationState}
    (h : ef.Moves s (some .running)) : s = some .running ∨ ef = .activate ∨
      ef = .unfreeze ∧ (s = some .migratingOut ∨ s = some .outReady) := by
  cases ef with
  | ship =>
    obtain ⟨-, rfl | h⟩ := h
    · exact .inl rfl
    · cases h
  | fill =>
    obtain ⟨-, rfl | h⟩ := h
    · exact .inl rfl
    · cases h
  | activate => exact .inr (.inl rfl)
  | unfreeze => exact .inr (.inr ⟨rfl, h.1⟩)
  | keep => exact .inl h.symm
  | remove => cases h
  | freeze => cases h.2
  | reserve => cases h.2
  | release => cases h.2
  | dropImport => cases h.2

theorem Effect.Moves.running_iff {ef : Effect} {s s' : Option MigrationState} (h : ef.Moves s s')
    (hside : ef.side = some .target ∨ ef = .keep) :
    s' = some .running ↔ ef = .activate ∨ s = some .running ∧ ef ≠ .remove := by
  cases ef with
  | reserve => obtain ⟨rfl | rfl, rfl⟩ := h <;> simp
  | fill => obtain ⟨rfl | rfl, rfl | rfl⟩ := h <;> simp
  | activate => obtain ⟨rfl, rfl⟩ := h; simp
  | dropImport => obtain ⟨rfl | rfl, rfl⟩ := h <;> simp
  | remove => obtain rfl := h; simp
  | keep => obtain rfl := h; simp
  | _ => simp [Effect.side] at hside

theorem effect_ne (m : Method) : m.effect .target ≠ .unfreeze ∧ m.effect .source ≠ .activate ∧
    m.effect .source ≠ .remove := by
  have hs := effect_side .source m
  have ht := effect_side .target m
  refine ⟨fun h => ?_, fun h => ?_, fun h => ?_⟩
  · rw [h] at ht; simp [Effect.side] at ht
  · rw [h] at hs; simp [Effect.side] at hs
  · rw [h] at hs; simp [Effect.side] at hs

namespace Doubling

def RunsOnTarget (w : World) : Prop := w.targetAlive = true ∧ w.target = some .running

def Doubled (w : World) : Prop := w.source = some .running ∧ RunsOnTarget w

def Frozen (w : World) : Prop := w.source = some .migratingOut ∨ w.source = some .outReady

/-! The order in which the calls of the clean-up take effect. -/

/-- `dst.migration_commit(.., incoming=True)` took effect. -/
def CommitsTarget : Event → Prop
  | .served (.rpc .target (.migrationCommit _ _ true)) true _ => True
  | _ => False

/-- `dst.abort_migrated_request`, one of the gathered calls, took effect. -/
def AbortsTarget : Event → Prop
  | .served (.rpc .target (.abortMigratedRequest _)) true _ => True
  | _ => False

/-- `src.migration_abort(.., incoming=False)`, one of the gathered calls, took effect. -/
def AbortsSource : Event → Prop
  | .served (.rpc .source (.migrationAbort _ _ false)) true _ => True
  | _ => False

/-- Target first, then unfreeze the source: whenever `src.migration_abort` takes effect,
`dst.abort_migrated_request` has taken effect since the last commit of the target. -/
def TargetFirst (log : List Event) : Prop :=
  ∀ before ev after, log = before ++ ev :: after → AbortsSource ev →
    ¬Log.Since CommitsTarget AbortsTarget before

theorem targetFirst_concat {log : List Event} {ev : Event} : TargetFirst (log ++ [ev]) ↔
    TargetFirst log ∧ (AbortsSource ev → ¬Log.Since CommitsTarget AbortsTarget log) :=
  Log.forall_cut_concat (C := fun xs e => AbortsSource e → ¬Log.Since CommitsTarget AbortsTarget xs)

instance : DecidablePred CommitsTarget := fun _ => by unfold CommitsTarget; split <;> infer_instance
instance : DecidablePred AbortsTarget := fun _ => by unfold AbortsTarget; split <;> infer_instance
instance : DecidablePred AbortsSource := fun _ => by unfold AbortsSource; split <;> infer_instance

instance (log : List Event) : Decidable (TargetFirst log) :=
  decidable_of_iff (∀ n < log.length, ∀ ev ∈ log[n]?, AbortsSource ev →
    ¬Log.Since CommitsTarget AbortsTarget (log.take n)) <| by
    constructor
    · rintro h before ev after rfl
      simpa using h before.length (by simp) ev (by simp)
    · intro h n hn ev hev
      obtain ⟨hn, rfl⟩ := List.getElem?_eq_some_iff.mp hev
      exact h _ _ (log.drop (n + 1)) (by simp)

section Effective
variable {i : Side} {m : Method} {r : Except Exc (Call.rpc i m).Reply}

theorem commitsTarget_iff :
    CommitsTarget (.served (.rpc i m) true r) ↔ m.effect i = .activate := by
  cases i <;> cases m <;> try simp [CommitsTarget, Method.effect]
  all_goals rename_i incoming; cases incoming <;> simp

theorem abortsTarget_iff : AbortsTarget (.served (.rpc i m) true r) ↔ m.effect i = .remove := by
  cases i <;> cases m <;> try simp [AbortsTarget, Method.effect]
  all_goals rename_i incoming; cases incoming <;> simp

theorem abortsSource_iff : AbortsSource (.served (.rpc i m) true r) ↔ m.effect i = .unfreeze := by
  cases i <;> cases m <;> try simp [AbortsSource, Method.effect]
  all_goals rename_i incoming; cases incoming <;> simp

end Effective

/-- Events that are none of the three. -/
def Neutral (ev : Event) : Prop := ¬CommitsTarget ev ∧ ¬AbortsTarget ev ∧ ¬AbortsSource ev

theorem neutral_issued (c : Call) : Neutral (.issued c) := ⟨id, id, id⟩

theorem neutral_lookup (id : String) (found : Bool) : Neutral (.lookup id found) := by
  simp [Neutral, CommitsTarget, AbortsTarget, AbortsSource]

theorem neutral_failed (c : Call) (r : Except Exc c.Reply) : Neutral (.served c false r) := by
  simp [Neutral, CommitsTarget, AbortsTarget, AbortsSource]

/-- Both EngineCores are as before, and the log has grown by neutral events. -/
structure Unmoved (w w' : World) : Prop where
  source : w'.source = w.source
  target : w'.target = w.target
  alive : w'.targetAlive = w.targetAlive
  trace : ∃ evs, w'.trace = w.trace ++ evs ∧ ∀ ev ∈ evs, Neutral ev

/-- The log knows what the target holds, as long as it is up. -/
def Mirrors (w : World) : Prop :=
  w.targetAlive = true → (w.target = some .running ↔ Log.Since CommitsTarget AbortsTarget w.trace)

section Unmoved
variable {w w' : World}

theorem unmoved_log (w : World) {ev : Event} (h : Neutral ev) : Unmoved w (w.log ev) :=
  ⟨rfl, rfl, rfl, [ev], rfl, by simpa using h⟩

theorem unmoved_issueAll (strict : Bool) (cs : List Call) (w : World) :
    Unmoved w ((host strict).issueAll cs w) := by
  rw [issueAll_eq]
  refine ⟨rfl, rfl, rfl, cs.map .issued, rfl, ?_⟩
  simp only [List.mem_map, forall_exists_index, and_imp, forall_apply_eq_imp_iff₂]
  exact fun c _ => neutral_issued c

theorem neutral_append {log evs : List Event} (h : ∀ ev ∈ evs, Neutral ev) :
    (Log.Since CommitsTarget AbortsTarget (log ++ evs) ↔
      Log.Since CommitsTarget AbortsTarget log) ∧ (TargetFirst (log ++ evs) ↔ TargetFirst log) := by
  induction evs using List.reverseRecOn with
  | nil => simp
  | append_singleton evs ev ih =>
    obtain ⟨hs, ht⟩ := ih fun e he => h e (by simp [he])
    obtain ⟨hc, ha, hu⟩ := h ev (by simp)
    rw [← List.append_assoc, Log.since_concat, targetFirst_concat, hs, ht]
    simp [hc, ha, hu]

theorem Unmoved.targetFirst (h : Unmoved w w') : TargetFirst w'.trace ↔ TargetFirst w.trace := by
  obtain ⟨evs, ht, hevs⟩ := h.trace
  rw [ht]
  exact (neutral_append hevs).2

theorem Unmoved.mirrors (h : Unmoved w w') (hm : Mirrors w) : Mirrors w' := by
  obtain ⟨evs, ht, hevs⟩ := h.trace
  intro ha
  rw [h.target, ht, (neutral_append hevs).1]
  exact hm (h.alive ▸ ha)

theorem Unmoved.doubled (h : Unmoved w w') : Doubled w' ↔ Doubled w := by
  unfold Doubled RunsOnTarget
  rw [h.source, h.target, h.alive]

theorem Unmoved.frozen (h : Unmoved w w') : Frozen w' ↔ Frozen w := by
  unfold Frozen
  rw [h.source]

theorem unmoved_of_env (h : EnvMoves w w') : Unmoved w w' ∨
    (w'.targetAlive = false ∧ w'.source = w.source ∧ w'.trace = w.trace) := by
  cases h with
  | die => exact .inr ⟨rfl, rfl, rfl⟩
  | register ids => exact .inl ⟨rfl, rfl, rfl, [], by simp, by simp⟩
  | tick t _ => exact .inl ⟨rfl, rfl, rfl, [], by simp, by simp⟩

theorem mirrors_of_dead (h : w.targetAlive = false) : Mirrors w := by
  intro ha
  rw [h] at ha
  cases ha

theorem not_doubled_of_dead (h : w.targetAlive = false) : ¬Doubled w := by
  intro hd
  rw [hd.2.1] at h
  cases h

theorem mirrors_env (hm : Mirrors w) (h : EnvMoves w w') : Mirrors w' := by
  rcases unmoved_of_env h with hu | ⟨hdead, -⟩
  · exact hu.mirrors hm
  · exact mirrors_of_dead hdead

end Unmoved

section Calls
variable {strict : Bool} {c : Call} {w w' : World} {r : Except Exc c.Reply}

theorem serves_cases (h : Serves strict c w r w') : Unmoved w w' ∨
    w'.targetAlive = w.targetAlive ∧ ∃ i m v, c = .rpc i m ∧
      w'.trace = w.trace ++ [.served (.rpc i m) true v] ∧ w.alive i = true ∧
      (m.effect i).Moves (w.state i) (w'.state i) ∧ ∀ j, j ≠ i → w'.state j = w.state j := by
  cases h with
  | sleep n =>
    have hn : Neutral (.served (.sleep n) true (.ok ())) := ⟨id, id, id⟩
    exact .inl (unmoved_log w hn)
  | dead i m _ msg => exact .inl (unmoved_log w (neutral_failed _ _))
  | done i m _ s r ha hm =>
    refine .inr ⟨by cases i <;> rfl, i, m, r, rfl, by simp, ha, ?_, ?_⟩
    · cases i <;> exact hm
    · intro j hj
      cases i <;> cases j <;> first | rfl | exact absurd rfl hj
  | failed i m _ e => exact .inl (unmoved_log w (neutral_failed _ _))

/-- Every call but the target commit. -/
def NotActivating : Call → Prop
  | .rpc i m => m.effect i ≠ .activate
  | .sleep _ => True

/-- Every call that leaves a frozen request frozen. -/
def Holding : Call → Prop
  | .rpc i m => m.effect i ≠ .release ∧ m.effect i ≠ .unfreeze
  | .sleep _ => True

theorem mirrors_serve (hm : Mirrors w) (h : Serves strict c w r w') : Mirrors w' := by
  obtain hu | ⟨ha, i, m, v, -, ht, hi, hmove, hother⟩ := serves_cases h
  · exact hu.mirrors hm
  intro halive
  have hw := hm (ha ▸ halive)
  rw [ht, Log.since_concat, ← hw, commitsTarget_iff, abortsTarget_iff]
  cases i with
  | source =>
    have htarget : w'.target = w.target := hother .target nofun
    have hne := effect_ne m
    simp [htarget, hne]
  | target => exact hmove.running_iff (effect_side .target m)

theorem doubled_of_serve (hm : Mirrors w) (h : Serves strict c w r w')
    (ha : w'.targetAlive = true) (ho : TargetFirst w.trace) (ho' : ¬TargetFirst w'.trace) :
    Doubled w' := by
  obtain hu | ⟨halive, i, m, v, -, ht, -, hmove, hother⟩ := serves_cases h
  · exact absurd (hu.targetFirst.mpr ho) ho'
  rw [ht, targetFirst_concat, abortsSource_iff] at ho'
  obtain ⟨hef, hsince⟩ : m.effect i = .unfreeze ∧ Log.Since CommitsTarget AbortsTarget w.trace := by
    simpa [ho] using ho'
  cases i with
  | source =>
    rw [hef] at hmove
    have htarget : w'.target = w.target := hother .target nofun
    exact ⟨hmove.2, ha, htarget.trans ((hm (halive ▸ ha)).mpr hsince)⟩
  | target => exact absurd hef (effect_ne m).1

end Calls

/-- The request runs once as long as the order was kept. -/
structure Single (w : World) : Prop where
  mirrors : Mirrors w
  once : TargetFirst w.trace → ¬Doubled w

/-- The request is frozen on the source. -/
structure Held (w : World) : Prop where
  mirrors : Mirrors w
  frozen : Frozen w

section Single
variable {strict : Bool} {c : Call} {w w' : World} {r : Except Exc c.Reply}

theorem not_doubled_of_frozen (h : Frozen w) : ¬Doubled w := by
  rintro ⟨hs, -⟩
  rcases h with h | h <;> rw [h] at hs <;> cases hs

theorem Held.single (h : Held w) : Single w := ⟨h.mirrors, fun _ => not_doubled_of_frozen h.frozen⟩

theorem Single.unmoved (h : Single w) (hu : Unmoved w w') : Single w' :=
  ⟨hu.mirrors h.mirrors, fun ho => hu.doubled.not.mpr (h.once (hu.targetFirst.mp ho))⟩

theorem Held.unmoved (h : Held w) (hu : Unmoved w w') : Held w' :=
  ⟨hu.mirrors h.mirrors, hu.frozen.mpr h.frozen⟩

theorem Single.env (h : Single w) (he : EnvMoves w w') : Single w' := by
  rcases unmoved_of_env he with hu | ⟨hdead, -⟩
  · exact h.unmoved hu
  · exact ⟨mirrors_of_dead hdead, fun _ => not_doubled_of_dead hdead⟩

theorem Held.env (h : Held w) (he : EnvMoves w w') : Held w' := by
  refine ⟨mirrors_env h.mirrors he, ?_⟩
  cases he <;> exact h.frozen

theorem Single.serve (h : Single w) (hc : NotActivating c) (hs : Serves strict c w r w') :
    Single w' := by
  refine ⟨mirrors_serve h.mirrors hs, fun ho hd => ?_⟩
  obtain hu | ⟨ha, i, m, v, rfl, ht, -, hmove, hother⟩ := serves_cases hs
  · exact h.once (hu.targetFirst.mp ho) (hu.doubled.mp hd)
  obtain ⟨hsource, halive, htarget⟩ := hd
  rw [ht, targetFirst_concat, abortsSource_iff] at ho
  rw [ha] at halive
  have hstate : w'.state i = some .running := by cases i <;> assumption
  rw [hstate] at hmove
  cases i with
  | source =>
    have hrun : w.target = some .running := (hother .target nofun).symm.trans htarget
    rcases hmove.running with hw | hef | ⟨hef, -⟩
    · exact h.once ho.1 ⟨hw, halive, hrun⟩
    · exact hc hef
    · exact ho.2 hef ((h.mirrors halive).mp hrun)
  | target =>
    have hrun : w.source = some .running := (hother .source nofun).symm.trans hsource
    rcases hmove.running with hw | hef | ⟨hef, -⟩
    · exact h.once ho.1 ⟨hrun, halive, hw⟩
    · exact hc hef
    · exact (effect_ne m).1 hef

theorem Held.serve (h : Held w) (hc : Holding c) (hs : Serves strict c w r w') : Held w' := by
  refine ⟨mirrors_serve h.mirrors hs, ?_⟩
  obtain hu | ⟨-, i, m, v, rfl, -, -, hmove, hother⟩ := serves_cases hs
  · exact hu.frozen.mpr h.frozen
  cases i with
  | target =>
    have hsource : w'.source = w.source := hother .source nofun
    unfold Frozen
    rw [hsource]
    exact h.frozen
  | source =>
    change (m.effect .source).Moves w.source w'.source at hmove
    rcases effect_side .source m with hside | hk
    · cases hef : m.effect .source with
      | freeze =>
        rw [hef] at hmove
        rcases h.frozen with hf | hf <;> rw [hf] at hmove <;> cases hmove.1
      | ship =>
        rw [hef] at hmove
        obtain ⟨-, hsame | hready⟩ := hmove
        · unfold Frozen
          rw [hsame]
          exact h.frozen
        · exact .inr hready
      | release => exact absurd hef hc.1
      | unfreeze => exact absurd hef hc.2
      | _ => rw [hef] at hside; cases hside
    · rw [hk] at hmove
      unfold Frozen
      rw [show w'.source = w.source from hmove]
      exact h.frozen

end Single

/-! The coroutines, from the clean-up to the retries. -/

/-- Writes that leave both EngineCores alone. -/
def TablesOnly (f : World → World) : Prop := ∀ w, Unmoved w (f w)

section Coroutines
variable {α : Type} {w w' : World}

theorem safe_single {q : Coro α} (hq : q.Uses NotActivating TablesOnly) (h : Single w) :
    Safe (host false) Single (Post (fun _ => Single) (fun _ => Single)) q w := by
  have hframe : Safe (host false) Single (fun _ => Single) q w :=
    Safe.frame hq h (fun _ h => h) (fun _ _ h he => h.env he)
      (fun c w _ h => h.unmoved (unmoved_log w (neutral_issued c)))
      (fun _ _ _ _ hc h hs => h.serve hc hs) fun f w hf h => h.unmoved (hf w)
  exact hframe.mono fun r w h => by cases r <;> exact h

theorem safe_held {q : Coro α} (hq : q.Uses Holding fun _ => False) (h : Held w) :
    Safe (host false) Single (Post (fun _ => Held) (fun _ => Single)) q w := by
  have hframe : Safe (host false) Single (fun _ => Held) q w :=
    Safe.frame hq h (fun _ h => h.single) (fun _ _ h he => h.env he)
      (fun c w _ h => h.unmoved (unmoved_log w (neutral_issued c)))
      (fun _ _ _ _ hc h hs => h.serve hc hs) fun _ _ hf => hf.elim
  refine hframe.mono fun r w h => ?_
  cases r with
  | ok _ => exact h
  | error _ => exact h.single

theorem not_activating_of_auxiliary {c : Call} (h : c.Auxiliary) : NotActivating c := by
  cases c with
  | sleep n => trivial
  | rpc i m =>
    intro hef
    rw [effect_auxiliary h] at hef
    cases hef

theorem not_activating_of_cleanup {p : Params} {c : Call} (h : c ∈ cleanupCalls p) :
    NotActivating c := by
  simp only [cleanupCalls, List.mem_cons, List.not_mem_nil, or_false] at h
  rcases h with rfl | rfl | rfl | rfl | rfl <;> simp [NotActivating, Method.effect]

theorem tablesOnly_of_isLookup {f : World → World} (h : IsLookup f) : TablesOnly f := by
  obtain ⟨id, found, rfl⟩ := h
  exact fun w => unmoved_log w (neutral_lookup id found)

theorem tablesOnly_of_kept {f : World → World} (h : ∀ w, (f w).source = w.source ∧
    (f w).target = w.target ∧ (f w).targetAlive = w.targetAlive ∧ (f w).trace = w.trace) :
    TablesOnly f := by
  intro w
  obtain ⟨hs, ht, ha, hlog⟩ := h w
  exact ⟨hs, ht, ha, [], by simpa using hlog, by simp⟩

theorem handleFailure_not_activating (p : Params) (attempt : ℕ) (e : Exc) :
    (handleFailure p attempt e).Uses NotActivating TablesOnly := by
  have hcheck := (uses_checkInstanceError p).mono (fun _ => not_activating_of_auxiliary)
    fun _ => tablesOnly_of_isLookup
  have hclean := (uses_cleanupV1Migration p).mono (fun _ => not_activating_of_cleanup)
    fun _ => tablesOnly_of_isLookup
  exact uses_handleFailure hcheck hclean (fun _ => trivial)
    (tablesOnly_of_kept fun _ => ⟨rfl, rfl, rfl, rfl⟩)
    (tablesOnly_of_kept fun _ => ⟨rfl, rfl, rfl, rfl⟩) attempt e

theorem safe_auxiliary {q : Coro α} (hq : q.Uses Call.Auxiliary IsLookup) (h : Single w) :
    Safe (host false) Single (Post (fun _ => Single) (fun _ => Single)) q w :=
  safe_single (hq.mono (fun _ => not_activating_of_auxiliary) fun _ => tablesOnly_of_isLookup) h

theorem safe_freeze (id : String) (n : ℕ) (h : Single w) :
    Safe (host false) Single (Post (fun _ => Held) (fun _ => Single))
      (rpc .source (.migrationPrepareOutWire id n)) w := by
  refine Safe.call (S := host false) (c := Call.rpc .source (.migrationPrepareOutWire id n))
    (P := Single) h (fun _ _ h he => h.env he) (fun _ h => h) ?_
  intro w r w' hw hs w'' he
  have hc : NotActivating (.rpc .source (.migrationPrepareOutWire id n)) := nofun
  have hpost : Single w' := (hw.unmoved (unmoved_log w (neutral_issued _))).serve hc hs
  have hlater : Single w'' := he.keep (fun _ _ h he => h.env he) hpost
  refine ⟨hlater, ?_⟩
  cases r with
  | error e => exact hlater
  | ok v =>
    refine he.keep (P := Held) (fun _ _ h he => h.env he) ⟨hpost.mirrors, ?_⟩
    cases hs with
    | done _ _ _ s _ _ hm => exact .inl hm.2

theorem safe_commitBoth (p : Params) (snapshotWire : String) (h : Held w) :
    Safe (host false) Single (Post (fun _ => Single) (fun _ => Single))
      (commitBoth p snapshotWire) w := by
  refine Safe.seq (safe_held (uses_rpc (m := .migrationCommit p.requestId p.epoch true)
    ⟨nofun, nofun⟩) h) fun _ w hw => safe_single ?_ hw.single
  have hr : ∀ {i : Side} {m : Method}, m.effect i ≠ .activate →
      (rpc i m).Uses NotActivating TablesOnly := fun h => uses_rpc h
  refine Prog.uses_bind (hr nofun) fun _ => Prog.uses_bind (hr nofun) fun _ => ?_
  refine Prog.uses_bind (hr nofun) fun _ => ?_
  split_ifs
  · exact (uses_cleanupV1IncrementalPrecopy p).mono (fun _ => not_activating_of_auxiliary)
      fun _ => tablesOnly_of_isLookup
  · trivial

theorem safe_cutover (p : Params) (synced : List (ℕ × ℕ)) (h : Single w) :
    Safe (host false) Single (Post (fun _ => Single) (fun _ => Single)) (cutover p synced) w := by
  refine Safe.seq (safe_freeze _ _ h) fun snapshotWire w hw => ?_
  refine Safe.seq (safe_held (uses_rpc ⟨nofun, nofun⟩) hw) fun dst w hw => ?_
  refine Safe.seq (safe_held (uses_rpc ⟨nofun, nofun⟩) hw) fun src w hw => ?_
  refine Safe.seq (safe_held (uses_rpc ⟨nofun, nofun⟩) hw) fun layers w hw => ?_
  have htransfer : (transferLayers p synced src dst layers).Uses Holding fun _ => False := by
    refine (uses_transferLayers p synced src dst layers).mono (fun c hc => ?_) fun _ h => h
    unfold Call.Transfer at hc
    split at hc
    · exact ⟨nofun, nofun⟩
    · exact ⟨nofun, nofun⟩
    · exact hc.elim
  exact Safe.seq (safe_held htransfer hw) fun _ w hw => safe_commitBoth p snapshotWire hw

theorem unmoved_recordMigrated (p : Params) (w : World) : Unmoved w (w.recordMigrated p) :=
  ⟨rfl, rfl, rfl, [], by simp [World.recordMigrated], by simp⟩

theorem safe_attemptOnce (p : Params) (attempt : ℕ) (h : Single w) :
    Safe (host false) Single (Post (fun _ => Single) (fun _ => Single))
      (attemptOnce p attempt) w := by
  refine Safe.catching ?_ fun e w h => safe_single (handleFailure_not_activating p attempt e) h
  refine Safe.seq (M := fun _ => Single) ?_ fun _ w hw => .write hw ?_
  · refine Safe.seq (safe_auxiliary (uses_lookupInstance _) h) fun _ w hw => ?_
    refine Safe.seq (safe_auxiliary (uses_lookupInstance _) hw) fun _ w hw => ?_
    dsimp only
    split_ifs
    · exact Safe.seq (safe_auxiliary (uses_runV1IncrementalPrecopy p) hw) fun synced w hw =>
        safe_cutover p synced hw
    · exact safe_cutover p [] hw
  · exact .retOf (P := Single) (hw.unmoved (unmoved_recordMigrated p w)) (fun _ _ h he => h.env he)
      fun _ h => ⟨h, h⟩

theorem safe_retryLoop (p : Params) (n : ℕ) (h : Single w) :
    Safe (host false) Single (Post (fun _ => Single) (fun _ => Single)) (retryLoop p n) w := by
  induction n generalizing w with
  | zero => exact .retOf h (fun _ _ h he => h.env he) fun _ h => ⟨h, h⟩
  | succ n ih =>
    refine Safe.seq (safe_attemptOnce p _ h) fun done w hw => ?_
    cases done with
    | true => exact .retOf hw (fun _ _ h he => h.env he) fun _ h => ⟨h, h⟩
    | false => exact ih hw

theorem uses_tables (p : Params) :
    (migrateV1RequestWithRetry p).Uses (fun _ => True) TablesOnly := by
  refine uses_retryLoop (fun id => ?_) ?_ (fun synced => ?_) (fun attempt e => ?_)
    (unmoved_recordMigrated p) maxAttempts
  · exact (uses_lookupInstance (K := fun _ => True) id).mono (fun _ h => h)
      fun _ => tablesOnly_of_isLookup
  · exact (uses_runV1IncrementalPrecopy p).mono (fun _ _ => trivial)
      fun _ => tablesOnly_of_isLookup
  · exact (uses_cutover p synced).mono (fun _ _ => trivial) fun _ h => h
  · exact (handleFailure_not_activating p attempt e).mono (fun _ _ => trivial) fun _ h => h

/-- As long as the target is up, a step that does not double the request keeps the order. -/
theorem targetFirst_step {q q' : Coro Unit} (hq : q.Within (fun _ => True) TablesOnly)
    (hm : Mirrors w) (hstep : (host false).Step (q, w) (q', w')) (ha : w'.targetAlive = true)
    (hd : ¬Doubled w') :
    w.targetAlive = true ∧ (TargetFirst w.trace → TargetFirst w'.trace) := by
  have hserve : ∀ {c : Call} {w : World} {r : Except Exc c.Reply}, Mirrors w →
      Serves false c w r w' → w.targetAlive = true ∧
        (TargetFirst w.trace → TargetFirst w'.trace) := by
    intro c w r hm hs
    refine ⟨?_, fun ho => by_contra fun ho' => hd (doubled_of_serve hm hs ha ho ho')⟩
    rcases serves_cases hs with hu | ⟨halive, -⟩
    · exact hu.alive ▸ ha
    · exact halive ▸ ha
  have hunmoved : Unmoved w w' → w.targetAlive = true ∧
      (TargetFirst w.trace → TargetFirst w'.trace) :=
    fun hu => ⟨hu.alive ▸ ha, hu.targetFirst.mpr⟩
  cases hstep with
  | read => exact ⟨ha, id⟩
  | write f => exact hunmoved (hq.1 w)
  | @await c _ _ _ k hs =>
    have hu : Unmoved w ((host false).issue c w) := unmoved_log w (neutral_issued c)
    obtain ⟨halive, hkeep⟩ := hserve (hu.mirrors hm) hs
    exact ⟨halive, fun ho => hkeep (hu.targetFirst.mpr ho)⟩
  | gather cs => exact hunmoved (unmoved_issueAll false cs w)
  | serve as bs k hs => exact hserve hm hs
  | join => exact ⟨ha, id⟩
  | env _ _ he =>
    rcases unmoved_of_env he with hu | ⟨hdead, -⟩
    · exact hunmoved hu
    · rw [hdead] at ha
      cases ha

/-- The request never runs on both sides if and only if, as long as the target is up, the calls of
the clean-up take effect in the order announced. -/
theorem never_doubled_iff (p : Params) {cs : List (Coro Unit × World)}
    (htarget : w.target ≠ some .running) (htrace : w.trace = [])
    (hrun : List.IsChain (host false).Step ((migrateV1RequestWithRetry p, w) :: cs)) :
    (∀ c ∈ cs, ¬Doubled c.2) ↔ ∀ c ∈ cs, c.2.targetAlive = true → TargetFirst c.2.trace := by
  have hstart : Single w := by
    refine ⟨fun _ => iff_of_false htarget ?_, fun _ hd => htarget hd.2.2⟩
    rw [htrace]
    rintro ⟨xs, ev, ys, heq, -⟩
    simp at heq
  have hsafe := safe_retryLoop p maxAttempts hstart
  have hwithin := (uses_tables p).within
  have hfirst : TargetFirst w.trace := by
    rw [htrace]
    intro before ev after heq
    simp at heq
  change Safe _ _ _ (migrateV1RequestWithRetry p) w at hsafe
  generalize migrateV1RequestWithRetry p = q at hrun hsafe hwithin
  replace hfirst : w.targetAlive = true → TargetFirst w.trace := fun _ => hfirst
  clear htarget htrace hstart
  induction cs generalizing q w with
  | nil => simp
  | cons c cs ih =>
    obtain ⟨q', w'⟩ := c
    obtain ⟨hstep, hrest⟩ := List.isChain_cons_cons.mp hrun
    have hsafe' := hsafe.step hstep
    have hhead : ¬Doubled w' ↔ (w'.targetAlive = true → TargetFirst w'.trace) := by
      constructor
      · intro hd ha
        obtain ⟨halive, hkeep⟩ := targetFirst_step hwithin hsafe.inv.mirrors hstep ha hd
        exact hkeep (hfirst halive)
      · exact fun ho hd => hsafe'.inv.once (ho hd.2.1) hd
    rw [List.forall_mem_cons, List.forall_mem_cons]
    constructor
    · rintro ⟨hd, hds⟩
      have ho := hhead.mp hd
      exact ⟨ho, (ih q' hrest hsafe' (hstep.within hwithin) ho).mp hds⟩
    · rintro ⟨ho, hos⟩
      exact ⟨hhead.mpr ho, (ih q' hrest hsafe' (hstep.within hwithin) ho).mpr hos⟩

end Coroutines

section Sample

/-- The target commits, and then the request cannot be registered with its frontend. -/
def sampleFailure : List (Cue (host false)) :=
  List.replicate 7 (done 0 none) ++ [fails 0 (.exception "frontend unavailable")]

/-- The calls are gathered, so nothing keeps the source from being unfrozen first. -/
theorem doubled_during_cleanup : ¬Doubled sampleWorld ∧ ∃ q w',
    (host false).Reaches (migrateV1RequestWithRetry sampleParams, sampleWorld) (q, w') ∧
      Doubled w' :=
  ⟨by simp [Doubled, RunsOnTarget, sampleWorld], _, _,
    reaches_replay _ _ (sampleFailure ++ [done 2 none]), rfl, rfl, rfl⟩

/-- A run through the clean-up that keeps to the order: the target has committed, its copy is
removed, and then the source runs the request again. -/
theorem never_doubled_iff_ordered : ∃ cs,
    List.IsChain (host false).Step ((migrateV1RequestWithRetry sampleParams, sampleWorld) :: cs) ∧
      (∃ c ∈ cs, RunsOnTarget c.2) ∧
      (∃ c ∈ cs, c.2.source = some .running ∧ ∃ ev ∈ c.2.trace, AbortsSource ev) ∧
      ∀ c ∈ cs, ¬Doubled c.2 := by
  have hchain := chain_course (migrateV1RequestWithRetry sampleParams) sampleWorld
    (sampleFailure ++ fails 0 (.exception "no import") :: List.replicate 4 (done 0 none))
  refine ⟨_, hchain, ?_, ?_, (never_doubled_iff sampleParams (by decide) rfl hchain).mpr ?_⟩
  · unfold RunsOnTarget
    decide +kernel
  · decide +kernel
  · decide +kernel

end Sample
end Doubling
end Llumnix.V1
