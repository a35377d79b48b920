import Llumnix.Coroutine.Blind
import Llumnix.Coroutine.Run
import Llumnix.Legacy.LiveCopy
import Llumnix.Legacy.Stages

/-! The workers of the destination, each of which copies its share of a stage from the worker of
the same rank on the source. -/
namespace Llumnix.Legacy.Workers

open Coroutine

/-- `MigrationWorker.migrate_cache`, by what its migration backend did: that the source worker is
dead is logged, and no more. -/
def migrateCache : Except Exc Unit → Except Exc Unit
  | .error .rayActorError => .ok ()
  | r => r

/-- `_run_workers("migrate_cache")`, by what the migration backend of each rank did. -/
def runWorkers (results : List (Except Exc Unit)) : Except Exc Unit := results.forM migrateCache

/-- What the migration backend of each rank did, stage by stage. -/
structure Copies where
  stages : List (List (Except Exc Unit))

/-- A destination with so many ranks. Apart from the copies it may answer as it likes. -/
def workers (ranks : ℕ) : Destination Copies where
  serve
    | .sendBlocks _ _, d, r, d' => ∃ results : List (Except Exc Unit), results.length = ranks ∧
        r = runWorkers results ∧ d' = ⟨d.stages ++ [results]⟩
    | .migrateInPreAlloc _, d, _, d' => d' = d
    | .freeDstPreAllocCache _, d, _, d' => d' = d
    | .commitDstRequest _, d, _, d' => d' = d
  loses _ := True
  env _ _ := False

/-- About to call `commit_dst_request`, or to free the blocks of the source. -/
inductive Commits {α : Type} : Task Copies α → Prop
  | commit (request : Request) (k : Except Exc Unit → Task Copies α) :
      Commits (.await (.remote (.commitDstRequest request)) k)
  | free (k : Task Copies α) : Commits (.write World.freeSrcRequest k)

/-- The copy of some stage failed on some rank because its source worker is dead. -/
def Failed (d : Copies) : Prop := ∃ results ∈ d.stages, .error .rayActorError ∈ results

/-- In every such stage the copy of another rank failed too, and in another way. -/
def Noticed (d : Copies) : Prop := ∀ results ∈ d.stages, .error .rayActorError ∈ results →
  ∃ e, e ≠ .rayActorError ∧ .error e ∈ results

def AllReported (d : Copies) : Prop := ∀ results ∈ d.stages, runWorkers results = .ok ()

/-! ### A stage -/

theorem runWorkers_cons (r : Except Exc Unit) (results : List (Except Exc Unit)) :
    runWorkers (r :: results) = (migrateCache r).bind fun _ => runWorkers results := rfl

theorem runWorkers_eq_ok {results : List (Except Exc Unit)} :
    runWorkers results = .ok () ↔ ∀ r ∈ results, migrateCache r = .ok () := by
  induction results with
  | nil => exact iff_of_true rfl (fun r hr => absurd hr List.not_mem_nil)
  | cons r results ih =>
    rw [runWorkers_cons, List.forall_mem_cons, ← ih]
    cases h : migrateCache r with
    | ok a => exact (and_iff_right rfl).symm
    | error e => exact iff_of_false nofun fun h => nomatch h.1

/-- The source worker might as well have been dead: what the worker reports is the same. -/
def poisonResult : Except Exc Unit → Except Exc Unit
  | .ok () => .error .rayActorError
  | r => r

theorem migrateCache_poisonResult (r : Except Exc Unit) :
    migrateCache (poisonResult r) = migrateCache r := by
  cases r with
  | ok a => rfl
  | error e => rfl

theorem runWorkers_poison (results : List (Except Exc Unit)) :
    runWorkers (results.map poisonResult) = runWorkers results := by
  induction results with
  | nil => rfl
  | cons r results ih =>
    rw [List.map_cons, runWorkers_cons, runWorkers_cons, migrateCache_poisonResult, ih]

theorem poisonResult_of_reported {r : Except Exc Unit} (h : migrateCache r = .ok ()) :
    poisonResult r = .error .rayActorError := by
  cases r with
  | ok a => rfl
  | error e =>
    cases e with
    | rayActorError => rfl
    | _ => cases h

theorem eq_rayActorError_of_reported {e : Exc} (h : migrateCache (.error e) = .ok ()) :
    e = .rayActorError := by
  cases e with
  | rayActorError => rfl
  | _ => cases h

/-! ### The migration does not see which copies failed -/

def Copies.poison (d : Copies) : Copies := ⟨d.stages.map (·.map poisonResult)⟩

def poison (w : World Copies) : World Copies := { w with dst := w.dst.poison }

theorem failed_poison {d : Copies} (h : AllReported d) :
    ∀ results ∈ d.poison.stages, ∀ r ∈ results, r = .error .rayActorError := by
  intro results hmem r hr
  obtain ⟨reported, hreported, rfl⟩ := List.mem_map.mp hmem
  obtain ⟨s, hs, rfl⟩ := List.mem_map.mp hr
  exact poisonResult_of_reported (runWorkers_eq_ok.mp (h reported hreported) s hs)

theorem serve_poison {ranks : ℕ} {m : Remote} {d d' : Copies} {r : Except Exc m.Reply}
    (h : (workers ranks).serve m d r d') : (workers ranks).serve m d.poison r d'.poison := by
  cases m with
  | sendBlocks src dst =>
    obtain ⟨results, hlen, hr, rfl⟩ := h
    refine ⟨results.map poisonResult, ?_, ?_, ?_⟩
    · rw [List.length_map, hlen]
    · rw [runWorkers_poison, hr]
    · unfold Copies.poison
      rw [List.map_append]
      rfl
  | _ => exact congrArg Copies.poison h

theorem host_blind (ranks blockSize : ℕ) : (host (workers ranks) blockSize).Blind poison where
  issue c w := by
    cases c with
    | remote m => cases m <;> rfl
    | _ => rfl
  serve c w r w' h := by
    change Serves _ _ _ _ _ at h ⊢
    cases h with
    | found _ hr => exact .found (poison w) hr
    | notFound _ hr => exact .notFound (poison w) hr
    | outputProcDone => exact .outputProcDone (poison w)
    | answered m _ r d h => exact .answered m (poison w) r d.poison (serve_poison h)
    | lost m _ r d e h hm => exact .lost m (poison w) r d.poison e (serve_poison h) hm
    | failed m _ e => exact .failed m (poison w) e
  env w w' h := by
    change EnvMoves _ _ _ _ at h ⊢
    cases h with
    | schedule b hr hb => exact .schedule (poison w) b hr hb
    | output t hr => exact .output (poison w) t hr
    | finish hr => exact .finish (poison w) hr
    | recompute t hr ht => exact .recompute (poison w) t hr ht
    | swapOut t bs hr ht => exact .swapOut (poison w) t bs hr ht
    | resume bs n hr hf hq => exact .resume (poison w) bs n hr hf hq
    | swapIn bs hr hf hq => exact .swapIn (poison w) bs hr hf hq
    | tick t ht => exact .tick (poison w) t ht
    | dst d hd => exact hd.elim

/-! ### Up to its outcome the migration commits nothing -/

section Quiet
variable {α β : Type} {p : Task Copies α}

def NotCommit (c : Call) : Prop := ∀ request, c ≠ .remote (.commitDstRequest request)

/-- Writes that do not look at the copies. -/
def Commutes (f : World Copies → World Copies) : Prop := ∀ w, f (poison w) = poison (f w)

def KeepsBlocks (f : World Copies → World Copies) : Prop :=
  Commutes f ∧ ∀ w, (f w).request.blockTable = w.request.blockTable

/-- Neither sees which copies failed, nor commits. -/
abbrev Quiet (p : Task Copies α) : Prop := p.Blind poison NotCommit KeepsBlocks

theorem not_keepsBlocks_free : ¬KeepsBlocks World.freeSrcRequest := by
  intro h
  let r : Request := {
    requestId := "", arrivalTime := 0, seqStatus := .running, statusOverride := none, tokenIds := []
    outputLen := 0, expectedSteps := none, blockTable := [0], numFullSlots := 0
    lastPreemptionTime := none, stageTimestamps := [], stageNumBlocksList := []
    migrationStartTime := none, isMigrating := false }
  cases h.2 ⟨r, 0, 0, 0, 0, false, false, 0, ⟨[]⟩, [], [], none⟩

theorem not_commits_write {f : World Copies → World Copies} (hf : KeepsBlocks f)
    (k : Task Copies α) : ¬Commits (.write f k) := by
  intro h
  generalize hq : Prog.write f k = q at h
  cases h with
  | commit => cases hq
  | free =>
    cases hq
    exact not_keepsBlocks_free hf

theorem not_commits_of_quiet (hp : Quiet p) : ¬Commits p := by
  cases p with
  | write f k => exact not_commits_write hp.1 k
  | await c k =>
    intro h
    generalize hq : Prog.await c k = q at h
    cases h with
    | commit request =>
      cases hq
      exact hp.1 request rfl
    | free => cases hq
  | _ => exact nofun

theorem not_commits_bind {f : α → Task Copies β} (hp : ¬Commits p) (hf : ∀ a, ¬Commits (f a)) :
    ¬Commits (p.bind f) := by
  cases p with
  | ret a => exact hf a
  | write g k =>
    intro h
    generalize hq : (Prog.write g k).bind f = q at h
    cases h with
    | commit => cases hq
    | free =>
      cases hq
      exact hp (.free k)
  | await c k =>
    intro h
    generalize hq : (Prog.await c k).bind f = q at h
    cases h with
    | commit request =>
      cases hq
      exact hp (.commit request k)
    | free => cases hq
  | _ => exact nofun

theorem quiet_remote {m : Remote} (hm : ∀ request, m ≠ .commitDstRequest request) :
    Quiet (Prog.call (Call.remote m)) :=
  Prog.blind_call fun request h => hm request (Call.remote.inj h)

theorem quiet_write {f : World Copies → World Copies} (hf : ∀ w, f (poison w) = poison (f w))
    (hblocks : ∀ w, (f w).request.blockTable = w.request.blockTable) (hp : Quiet p) :
    Quiet (.write f p) :=
  ⟨⟨hf, hblocks⟩, hp⟩

theorem quiet_removeLastStage (hp : Quiet p) :
    Quiet (removeMigratingOutRequestLastStage.bind fun _ => p) := by
  refine Prog.blind_read (fun _ => rfl) fun w => ?_
  change Quiet (Prog.bind (if w.lastStage = 0 then _ else _) _)
  split
  · trivial
  · exact quiet_write (fun _ => rfl) (fun _ => rfl) hp

theorem quiet_sendStage (isLastStage : Bool) (src dst : List ℕ) (n : ℕ) :
    Quiet (sendStage isLastStage src dst n) := by
  unfold sendStage
  split
  · split
    · exact quiet_write (fun _ => rfl) (fun _ => rfl) (quiet_removeLastStage trivial)
    · trivial
  refine Prog.blind_read (fun _ => rfl) fun w => ?_
  split
  · trivial
  refine quiet_write (fun _ => rfl) (fun _ => rfl) (Prog.blind_bind
    (quiet_remote fun _ => nofun) fun _ => Prog.blind_read (fun _ => rfl) fun w => ?_)
  split <;> trivial

theorem quiet_removeRunning (cfg : Config) : Quiet (removeRunningRequest cfg) := by
  refine quiet_write (fun _ => rfl) (fun _ => rfl)
    (Prog.blind_bind (Prog.blind_call fun _ => nofun) fun found => ?_)
  split
  · trivial
  · exact Prog.blind_bind (Prog.blind_call fun _ => nofun) fun _ => trivial

theorem quiet_onestage (cfg : Config) : Quiet (migrateOutOnestage cfg) := by
  refine Prog.blind_read (fun _ => rfl) fun w => ?_
  split
  · trivial
  refine quiet_write (fun _ => rfl) (fun _ => rfl) ?_
  split
  · refine Prog.blind_bind (quiet_removeRunning cfg) fun found =>
      Prog.blind_read (fun _ => rfl) fun w => ?_
    split
    · trivial
    · exact quiet_write (fun _ => rfl) (fun _ => rfl) (Prog.blind_read (fun _ => rfl) fun w =>
        Prog.blind_bind (quiet_remote fun _ => nofun) fun dst => quiet_sendStage true _ dst _)
  · exact Prog.blind_read (fun _ => rfl) fun w =>
      Prog.blind_bind (quiet_remote fun _ => nofun) fun dst => quiet_sendStage false _ dst _

theorem quiet_stages (cfg : Config) (n : ℕ) : Quiet (migrateOutStages cfg n) := by
  induction n with
  | zero => trivial
  | succ n ih =>
    refine Prog.blind_bind (quiet_onestage cfg) fun s => ?_
    split
    · trivial
    · exact ih

theorem quiet_waiting (cfg : Config) : Quiet (migrateOutWaitingRequest cfg) := by
  refine Prog.blind_read (fun _ => rfl) fun w => ?_
  split
  · trivial
  refine quiet_write (fun _ => rfl) (fun _ => rfl) (Prog.blind_read (fun _ => rfl) fun w =>
    Prog.blind_bind (quiet_remote fun _ => nofun) fun dst =>
      Prog.blind_read (fun _ => rfl) fun w => ?_)
  split
  · exact quiet_write (fun _ => rfl) (fun _ => rfl) (quiet_removeLastStage trivial)
  · trivial

theorem quiet_settle {s : MigrationStatus} (hs : s ≠ .finished) : Quiet (settle s) := by
  unfold settle
  rw [if_neg hs]
  refine quiet_write (fun _ => rfl) (fun _ => rfl) ?_
  split
  · exact Prog.blind_read (fun _ => rfl) fun w =>
      Prog.blind_bind (quiet_remote fun _ => nofun) fun _ => trivial
  · trivial

end Quiet

/-! ### The whole attempt -/

/-- Does not see which copies failed. -/
abbrev Unseeing {α : Type} (p : Task Copies α) : Prop := p.Blind poison (fun _ => True) Commutes

theorem unseeing_of_quiet {α : Type} {p : Task Copies α} (hp : Quiet p) : Unseeing p :=
  hp.mono (fun _ _ => trivial) fun _ hf => hf.1

theorem unseeing_settle (s : MigrationStatus) : Unseeing (settle s) := by
  by_cases hs : s = .finished
  · subst hs
    exact Prog.blind_read (fun _ => rfl) fun w => Prog.blind_bind (Prog.blind_call trivial) fun _ =>
      ⟨fun _ => rfl, unseeing_of_quiet (quiet_removeLastStage fun w => ⟨rfl, trivial⟩)⟩
  · exact unseeing_of_quiet (quiet_settle hs)

theorem unseeing_oneRequest (cfg : Config) : Unseeing (migrateOutOneRequest cfg) := by
  refine Prog.blind_read (fun _ => rfl) fun w => ?_
  split
  · exact ⟨fun _ => rfl, Prog.blind_bind (unseeing_of_quiet (quiet_stages cfg _)) unseeing_settle⟩
  · exact ⟨fun _ => rfl, Prog.blind_bind (unseeing_of_quiet (quiet_waiting cfg)) unseeing_settle⟩
  · trivial

section Reported
variable {ranks blockSize : ℕ} {w w' : World Copies}

theorem reported_env : Stable (workers ranks) blockSize fun w => AllReported w.dst := by
  intro w w' h he
  cases he with
  | dst d hd => exact hd.elim
  | _ => exact h

theorem reported_reply (m : Remote) (w : World Copies) (r : m.Reply) (d : Copies)
    (h : AllReported w.dst) (hs : (workers ranks).serve m w.dst (.ok r) d) : AllReported d := by
  cases m with
  | sendBlocks src dst =>
    obtain ⟨results, -, hr, rfl⟩ := hs
    intro results' hmem
    rcases List.mem_append.mp hmem with hmem | hmem
    · exact h results' hmem
    · rw [List.mem_singleton.mp hmem]
      exact hr.symm
  | _ =>
    cases hs
    exact h

theorem carried_reported (ranks blockSize : ℕ) :
    Carried (workers ranks) blockSize (AllReported ·.dst) (AllReported ·.dst)
      (AllReported ·.dst) where
  live_env := reported_env
  taken_env := reported_env
  listed_env := reported_env
  live_noted _ _ _ _ _ _ _ h := h
  listed_noted _ _ _ _ _ _ _ h := h
  live_reply m w r d h hs := reported_reply m w r d h hs
  listed_reply m w r d h hs := reported_reply m w r d h hs
  take _ h _ := h
  list _ h := h
  takeWaiting _ h _ := h

theorem uses_settle (s : MigrationStatus) :
    (settle s : Task Copies _).Uses (fun c => ∀ src dst, c ≠ .remote (.sendBlocks src dst))
      (fun f => ∀ w, (f w).dst = w.dst) := by
  unfold settle
  split
  · refine fun w => Prog.uses_bind (Prog.uses_call nofun) fun _ => ⟨fun _ => rfl, fun w => ?_⟩
    change Prog.Uses _ _ (Prog.bind (if w.lastStage = 0 then _ else _) _)
    split
    · trivial
    · exact ⟨fun _ => rfl, fun w => trivial⟩
  · refine ⟨fun _ => rfl, ?_⟩
    split
    · exact fun w => Prog.uses_bind (Prog.uses_call nofun) fun _ => trivial
    · trivial

theorem reported_settle (s : MigrationStatus) (h : AllReported w.dst) :
    Safe (host (workers ranks) blockSize) (AllReported ·.dst) (fun _ w => AllReported w.dst)
      (settle s) w := by
  refine Safe.frame (uses_settle s) h (fun _ h => h) reported_env ?_ ?_ ?_
  · intro c w _ h
    cases c with
    | remote m => cases m <;> exact h
    | _ => exact h
  · intro c w r w' hc h hs
    have hkeep : ∀ {m : Remote} {d : Copies} {r : Except Exc m.Reply},
        (∀ src dst, m ≠ .sendBlocks src dst) → (workers ranks).serve m w.dst r d →
          AllReported d := by
      intro m d r hm hs
      cases m with
      | sendBlocks src dst => exact absurd rfl (hm src dst)
      | _ =>
        cases hs
        exact h
    change Serves _ _ _ _ _ at hs
    cases hs with
    | answered m _ r d hs => exact hkeep (fun src dst hm => hc src dst (hm ▸ rfl)) hs
    | lost m _ r d e hs _ => exact hkeep (fun src dst hm => hc src dst (hm ▸ rfl)) hs
    | _ => exact h
  · intro f w hf h
    rwa [hf w]

theorem reported_sequence {p : Task Copies MigrationStatus} (hp : Quiet p)
    (hreturns : Returns (workers ranks) blockSize
      (OutcomeOf (AllReported ·.dst) (AllReported ·.dst)) p w)
    {q : Task Copies (List String)}
    (hr : (host (workers ranks) blockSize).Reaches (p.bind settle, w) (q, w')) (hq : Commits q) :
    AllReported w'.dst := by
  rcases reaches_bind hr with ⟨p', hp', rfl⟩ | ⟨s, v, hret, hrest⟩
  · have hsettle : ∀ s, ¬Commits (settle s : Task Copies _) := by
      intro s
      by_cases hs : s = .finished
      · subst hs
        exact nofun
      · exact not_commits_of_quiet (quiet_settle hs)
    exact absurd hq (not_commits_bind (not_commits_of_quiet (hp.reaches hp')) hsettle)
  · by_cases hs : s = .finished
    · subst hs
      have hends : (host (workers ranks) blockSize).Ends p w (.ok .finished) v := hret
      have hdone : AllReported v.dst := hreturns.ends hends
      exact ((reported_settle .finished hdone).reaches hrest).inv
    · exact absurd hq (not_commits_of_quiet ((quiet_settle hs).reaches hrest))

theorem reported_of_commits (cfg : Config) (h : AllReported w.dst) {q : Task Copies (List String)}
    (hr : (host (workers ranks) blockSize).Reaches (migrateOutOneRequest cfg, w) (q, w'))
    (hq : Commits q) : AllReported w'.dst := by
  have hcarried := carried_reported ranks blockSize
  have hstart : ∀ {p : Task Copies MigrationStatus}, Quiet p →
      Returns (workers ranks) blockSize (OutcomeOf (AllReported ·.dst) (AllReported ·.dst)) p
        w.start →
      (host (workers ranks) blockSize).Reaches (.write World.start (p.bind settle), w) (q, w') →
      AllReported w'.dst := by
    intro p hp hreturns hr
    rcases reaches_write hr with hend | hr
    · cases hend
      exact absurd hq (not_commits_write (f := World.start) ⟨fun _ => rfl, fun _ => rfl⟩ _)
    · exact reported_sequence hp hreturns hr hq
  rcases reaches_read hr with hend | hr
  · cases hend
    cases hq
  · split at hr
    · exact hstart (quiet_stages cfg _) (hcarried.returns_stages cfg _ (hcarried.start h)) hr
    · exact hstart (quiet_waiting cfg) (hcarried.returns_waiting cfg (hcarried.start h)) hr
    · have hquiet : Quiet (.ret [] : Task Copies (List String)) := trivial
      exact absurd hq (not_commits_of_quiet (hquiet.reaches hr))

end Reported

/-- A migration in which every stage with a dead source worker has another failure as well commits
nothing, and frees no block of the source, after a failed copy. Without another failure, whatever
migration commits, the same one commits with every copy failed. -/
theorem failed_copy_not_committed (ranks : ℕ) (cfg : Config) {w : World Copies}
    (hw : w.dst.stages = []) :
    (∀ p w', (host (workers ranks) cfg.blockSize).Reaches (migrateOutOneRequest cfg, w) (p, w') →
      Noticed w'.dst → Failed w'.dst → ¬Commits p) ∧
    ∀ p w', (host (workers ranks) cfg.blockSize).Reaches (migrateOutOneRequest cfg, w) (p, w') →
      Commits p →
      (host (workers ranks) cfg.blockSize).Reaches (migrateOutOneRequest cfg, w) (p, poison w') ∧
        ∀ results ∈ (poison w').dst.stages, ∀ r ∈ results, r = .error .rayActorError := by
  have hreported : AllReported w.dst := by
    unfold AllReported
    rw [hw]
    exact fun results h => absurd h List.not_mem_nil
  have hpoison : poison w = w := by
    have hdst : w.dst.poison = w.dst := by
      unfold Copies.poison
      rw [hw]
      exact congrArg Copies.mk hw.symm
    unfold poison
    rw [hdst]
  refine ⟨fun p w' hr hnoticed hfailed hp => ?_, fun p w' hr hp => ⟨?_, ?_⟩⟩
  · obtain ⟨results, hmem, hdead⟩ := hfailed
    obtain ⟨e, hne, he⟩ := hnoticed results hmem hdead
    have hok := runWorkers_eq_ok.mp (reported_of_commits cfg hreported hr hp results hmem) _ he
    exact hne (eq_rayActorError_of_reported hok)
  · have hr' :=
      (host_blind ranks cfg.blockSize).reaches (fun _ hf => hf) (unseeing_oneRequest cfg) hr
    rwa [hpoison] at hr'
  · exact failed_poison (reported_of_commits cfg hreported hr hp)

section Sample

def sample : World Copies where
  request := LiveCopy.sample.request
  running := 1
  waiting := 0
  swapped := 0
  lastStage := 0
  stepDoneQueued := false
  taken := false
  now := 0
  dst := ⟨[]⟩
  sent := []
  snapshot := []
  removed := none

def copied {ranks : ℕ} (results : List (Except Exc Unit)) : Cue (host (workers ranks) 2) :=
  answers fun
    | .sendBlocks _ _, _ =>
      if h : results.length = ranks then some ⟨(runWorkers results, _), results, h, rfl, rfl⟩
      else none
    | .migrateInPreAlloc a, d => some ⟨(.ok (List.range a.blockNum), d), rfl⟩
    | .freeDstPreAllocCache _, d => some ⟨(.ok (), d), rfl⟩
    | .commitDstRequest _, d => some ⟨(.ok (), d), rfl⟩

def sampleFailed : World Copies :=
  { (({ sample.start with
        snapshot := [7], stepDoneQueued := true }).removeRunning.addLastStage).stamp 1 with
    sent := [[7]], dst := ⟨[[.error .rayActorError]]⟩ }

/-- The request is committed, and its blocks on the source are freed, after the only copy failed. -/
theorem failed_copy_committed :
    sample.dst.stages = [] ∧ sample.request.status = .running ∧
    (∃ request k, (host (workers 1) 2).Reaches
      (migrateOutOneRequest (sampleConfig 1 true), sample)
      (.await (.remote (.commitDstRequest request)) k, sampleFailed)) ∧
    (∃ k, (host (workers 1) 2).Reaches (migrateOutOneRequest (sampleConfig 1 true), sample)
      (.write World.freeSrcRequest k, sampleFailed)) ∧
    Failed sampleFailed.dst := by
  have hcourse : ∀ {c}, c ∈ (host (workers 1) 2).course (migrateOutOneRequest (sampleConfig 1 true))
      sample (List.replicate 4 (copied [.error .rayActorError])) → _ := reaches_course
  refine ⟨rfl, rfl, ⟨sampleFailed.request, _, hcourse (List.mem_of_getElem? (i := 14) rfl)⟩,
    ⟨_, hcourse (List.mem_of_getElem? (i := 15) rfl)⟩, ?_⟩
  exact ⟨[.error .rayActorError], List.mem_singleton.mpr rfl, List.mem_singleton.mpr rfl⟩

def sampleTwo : World Copies :=
  { sample with request := { sample.request with
      tokenIds := [11, 12, 13, 14, 15], blockTable := [7, 8], numFullSlots := 4 } }

/-- Then the first finds its source worker dead, and the second fails in another way. -/
theorem failed_copy_not_committed_sample :
    ∃ p w', (host (workers 2) 2).Reaches (migrateOutOneRequest (sampleConfig 2 true), sampleTwo)
        (p, w') ∧
      w'.dst.stages = [[.ok (), .ok ()], [.error .rayActorError, .error .assertionError]] ∧
      Failed w'.dst ∧ ¬Commits p := by
  have hrun := reaches_replay (S := host (workers 2) 2)
    (migrateOutOneRequest (sampleConfig 2 true)) sampleTwo
    (List.replicate 2 (copied [.ok (), .ok ()]) ++
      List.replicate 3 (copied [.error .rayActorError, .error .assertionError]))
  have hfailed : ∀ results ∈ [[.ok (), .ok ()], [.error .rayActorError, .error .assertionError]],
      Except.error Exc.rayActorError ∈ results →
        ∃ e, e ≠ Exc.rayActorError ∧ (.error e : Except Exc Unit) ∈ results := by
    intro results hmem hdead
    rcases List.mem_cons.mp hmem with rfl | hmem
    · simp at hdead
    · rw [List.mem_singleton.mp hmem]
      exact ⟨.assertionError, by decide, by simp⟩
  have hsome : Failed ⟨[[.ok (), .ok ()], [.error .rayActorError, .error .assertionError]]⟩ :=
    ⟨[.error .rayActorError, .error .assertionError], by simp, by simp⟩
  exact ⟨_, _, hrun, rfl, hsome, (failed_copy_not_committed 2 (sampleConfig 2 true) rfl).1 _ _ hrun
    hfailed hsome⟩

end Sample
end Llumnix.Legacy.Workers
