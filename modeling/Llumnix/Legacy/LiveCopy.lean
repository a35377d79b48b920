import Llumnix.Coroutine.Run
import Llumnix.Legacy.Stages

/-! What multi-stage live migration copies, under every interleaving with the engine. -/
namespace Llumnix.Legacy.LiveCopy

open Coroutine

variable {D : Type} {X : Destination D} {blockSize : ℕ} {w w' : World D}

/-- The stage began in the past, so a preemption to come is one that aborts. -/
def Clocked (w : World D) : Prop := ∃ b, w.request.beginTime = some b ∧ b ≤ w.now

def Aborting (w : World D) : Prop := w.request.shouldAbortMigration = true

/-- Unless the migration is going to abort, `blocks` still heads the block table. -/
structure Heads (blocks : List ℕ) (w : World D) : Prop where
  clocked : Clocked w
  table : Aborting w ∨ blocks <+: w.request.blockTable ∧ w.waiting = 0 ∧ w.swapped = 0

section Env

private theorem aborting_of_lt {b t : ℕ} (hb : w.request.beginTime = some b)
    (ht : w.request.lastPreemptionTime = some t) (h : b < t) : Aborting w := by
  have hp : w.request.preempted = true := by
    unfold Request.preempted
    rw [ht, hb]
    simpa using h
  unfold Aborting Request.shouldAbortMigration
  rw [hp, Bool.or_true]

private theorem aborting_of_resumed (hf : w.request.finished = false)
    (hp : w'.request.preempted = w.request.preempted) (h : Aborting w) : Aborting w' := by
  unfold Aborting Request.shouldAbortMigration at h ⊢
  rw [hf, Bool.false_or] at h
  rw [hp, h, Bool.or_true]

theorem clocked_env (h : Clocked w) (he : EnvMoves X blockSize w w') : Clocked w' := by
  obtain ⟨b, hb, hnow⟩ := h
  cases he with
  | recompute t _ hlt => exact ⟨b, hb, by change b ≤ t; omega⟩
  | swapOut t _ _ hlt => exact ⟨b, hb, by change b ≤ t; omega⟩
  | tick t hle => exact ⟨b, hb, by change b ≤ t; omega⟩
  | _ => exact ⟨b, hb, hnow⟩

theorem aborting_env (hc : Clocked w) (h : Aborting w) (he : EnvMoves X blockSize w w') :
    Aborting w' := by
  obtain ⟨b, hb, hnow⟩ := hc
  cases he with
  | finish => rfl
  | recompute t _ hlt => exact aborting_of_lt hb rfl (by omega)
  | swapOut t _ _ hlt => exact aborting_of_lt hb rfl (by omega)
  | resume _ _ _ hf _ => exact aborting_of_resumed hf rfl h
  | swapIn _ _ hf _ => exact aborting_of_resumed hf rfl h
  | _ => exact h

theorem heads_env {blocks : List ℕ} (h : Heads blocks w) (he : EnvMoves X blockSize w w') :
    Heads blocks w' := by
  refine ⟨clocked_env h.clocked he, ?_⟩
  obtain ⟨hc, ha | ⟨hp, hw, hs⟩⟩ := h
  · exact .inl (aborting_env hc ha he)
  obtain ⟨b, hb, hnow⟩ := hc
  cases he with
  | schedule c _ _ =>
    refine .inr ⟨?_, hw, hs⟩
    unfold Request.schedule
    split
    · exact hp.trans (List.prefix_append _ _)
    · exact hp
  | finish => exact .inl rfl
  | recompute t _ hlt => exact .inl (aborting_of_lt hb rfl (by omega))
  | swapOut t _ _ hlt => exact .inl (aborting_of_lt hb rfl (by omega))
  | resume _ _ h _ _ => omega
  | swapIn _ h _ _ => omega
  | _ => exact .inr ⟨hp, hw, hs⟩

theorem env_frame (he : EnvMoves X blockSize w w') :
    w'.sent = w.sent ∧ w'.snapshot = w.snapshot ∧ w'.removed = w.removed ∧
      w'.request.stageNumBlocksList = w.request.stageNumBlocksList := by
  cases he <;> exact ⟨rfl, rfl, rfl, rfl⟩

end Env

/-! The states of a stage. -/

/-- `src` comes next; in the last stage it completes the snapshot. -/
structure Ready (isLastStage : Bool) (src : List ℕ) (w : World D) : Prop where
  heads : Heads w.snapshot w
  next : w.sent.flatten ++ src <+: w.snapshot
  count : w.sent.flatten.length = w.request.stageNumBlocksList.sum
  last : isLastStage = true → w.snapshot = w.sent.flatten ++ src ∧
    ∃ table, w.removed = some table ∧ (Aborting w ∨ w.snapshot <+: table)

/-- `src` has passed the checks and is entered in the stage list. -/
structure Stamped (isLastStage : Bool) (src : List ℕ) (w : World D) : Prop where
  heads : Heads (w.sent.flatten ++ src) w
  count : (w.sent.flatten ++ src).length = w.request.stageNumBlocksList.sum
  last : isLastStage = true → w.snapshot = w.sent.flatten ++ src ∧
    ∃ table, w.removed = some table ∧ w.snapshot <+: table

/-- Between two stages what was sent heads the block table. -/
structure Copied (w : World D) : Prop where
  heads : Heads w.sent.flatten w
  count : w.sent.flatten.length = w.request.stageNumBlocksList.sum

/-- After the last stage what was sent is what the stage had read. -/
def Done (w : World D) : Prop :=
  w.sent.flatten = w.snapshot ∧ ∃ table, w.removed = some table ∧ w.snapshot <+: table

theorem ready_env {l : Bool} {src : List ℕ} : Stable X blockSize (Ready l src) := by
  intro w w' h he
  obtain ⟨hsent, hsnap, hrem, hnum⟩ := env_frame he
  have hheads := heads_env h.heads he
  refine ⟨by rwa [hsnap], by rw [hsent, hsnap]; exact h.next, by rw [hsent, hnum]; exact h.count,
    fun hl => ?_⟩
  obtain ⟨hs, table, ht, hp⟩ := h.last hl
  rw [hsent, hsnap, hrem]
  exact ⟨hs, table, ht, hp.imp (fun ha => aborting_env h.heads.clocked ha he) id⟩

theorem stamped_env {l : Bool} {src : List ℕ} : Stable X blockSize (Stamped l src) := by
  intro w w' h he
  obtain ⟨hsent, hsnap, hrem, hnum⟩ := env_frame he
  have hheads := heads_env h.heads he
  refine ⟨by rwa [hsent], by rw [hsent, hnum]; exact h.count, fun hl => ?_⟩
  rw [hsent, hsnap, hrem]
  exact h.last hl

theorem copied_env : Stable X blockSize (Copied (D := D)) := by
  intro w w' h he
  obtain ⟨hsent, -, -, hnum⟩ := env_frame he
  have hheads := heads_env h.heads he
  exact ⟨by rwa [hsent], by rw [hsent, hnum]; exact h.count⟩

theorem done_env : Stable X blockSize (Done (D := D)) := by
  intro w w' h he
  obtain ⟨hsent, hsnap, hrem, -⟩ := env_frame he
  unfold Done
  rw [hsent, hsnap, hrem]
  exact h

/-- What a stage guarantees, by the status it returns. -/
def Outcome : MigrationStatus → World D → Prop
  | .running => Copied
  | .finished => Done
  | _ => fun _ => True

theorem outcome_env (s : MigrationStatus) : Stable X blockSize (Outcome (D := D) s) := by
  cases s with
  | running => exact copied_env
  | finished => exact done_env
  | abortedDst => exact fun _ _ _ _ => trivial
  | abortedSrc => exact fun _ _ _ _ => trivial

theorem not_aborting (ha : w.request.shouldAbortMigration = false) : ¬Aborting w := by
  unfold Aborting
  rw [ha]
  decide

theorem stamped_of_ready {l : Bool} {src : List ℕ} (h : Ready l src w) (ha : ¬Aborting w) :
    Stamped l src (w.stamp src.length) := by
  obtain ⟨hp, hw, hs⟩ := h.heads.table.resolve_left ha
  refine ⟨⟨⟨w.now, ?_, Nat.le_refl _⟩, .inr ⟨h.next.trans hp, hw, hs⟩⟩, ?_, fun hl => ?_⟩
  · have hlast : (w.stamp src.length).request.stageTimestamps.getLast? = some w.now :=
      List.getLast?_concat
    unfold Request.beginTime
    rw [hlast]
  · change (w.sent.flatten ++ src).length = (w.request.stageNumBlocksList ++ [src.length]).sum
    rw [List.length_append, List.sum_append, h.count]
    simp
  · obtain ⟨hsnap, table, ht, hpre⟩ := h.last hl
    exact ⟨hsnap, table, ht, hpre.resolve_left ha⟩

theorem stamped_sent {l : Bool} {src : List ℕ} (h : Stamped l src w) (d : D) :
    Stamped l [] { w with sent := w.sent ++ [src], dst := d } := by
  have hsent : (w.sent ++ [src]).flatten ++ [] = w.sent.flatten ++ src := by simp
  refine ⟨⟨h.heads.clocked, ?_⟩, ?_, fun hl => ?_⟩
  · rw [hsent]
    exact h.heads.table
  · rw [hsent]
    exact h.count
  · rw [hsent]
    exact h.last hl

theorem ready_of_copied (h : Copied w) (ha : w.request.shouldAbortMigration = false)
    (q : Bool) :
    let w' := { w with snapshot := w.request.blockTable, stepDoneQueued := q }
    w'.snapshot = w'.sent.flatten ++ w.rest ∧
      ∀ src, src <+: w.rest → Ready false src w' := by
  obtain ⟨hp, hw, hsw⟩ := h.heads.table.resolve_left (not_aborting ha)
  have hsplit : w.request.blockTable = w.sent.flatten ++ w.rest := by
    obtain ⟨rest, hrest⟩ := hp
    unfold World.rest
    rw [← hrest, ← h.count, List.drop_left]
  refine ⟨hsplit, fun src hsrc => ⟨⟨h.heads.clocked, .inr ⟨List.prefix_rfl, hw, hsw⟩⟩, ?_, h.count,
    nofun⟩⟩
  have hnext := (List.prefix_append_right_inj w.sent.flatten).mpr hsrc
  rwa [← hsplit] at hnext

/-- The engine loop is to take the request out, and the stage has read the whole table. -/
def Queued (blocks : List ℕ) (w : World D) : Prop :=
  Ready false blocks w ∧ w.snapshot = w.sent.flatten ++ blocks

theorem queued_env {blocks : List ℕ} : Stable X blockSize (Queued (D := D) blocks) := by
  rintro w w' ⟨h, hs⟩ he
  obtain ⟨hsent, hsnap, -, -⟩ := env_frame he
  exact ⟨ready_env w w' h he, by rw [hsent, hsnap]; exact hs⟩

/-- Nothing is claimed of the migrations that abort or raise. -/
def outline : Outline D where
  inv _ := True
  outcome := Outcome
  raised _ := True
  live := Copied
  queued := Queued
  taken := Ready true
  asked := Ready
  granted l src _ := Ready l src
  sending := Stamped
  sent l := Stamped l []

theorem outline_valid (X : Destination D) (blockSize : ℕ) :
    (outline : Outline D).Valid X blockSize where
  ends := ⟨fun s => ⟨outcome_env s, fun _ _ => trivial⟩,
    ⟨fun _ _ _ _ => trivial, fun _ _ => trivial⟩⟩
  queued _ := ⟨queued_env, fun _ _ => trivial⟩
  taken _ := ⟨ready_env, fun _ _ => trivial⟩
  asked _ _ := ⟨ready_env, fun _ _ => trivial⟩
  granted _ _ _ := ⟨ready_env, fun _ _ => trivial⟩
  sending _ _ := ⟨stamped_env, fun _ _ => trivial⟩
  sent _ := ⟨stamped_env, fun _ _ => trivial⟩
  live_inv _ _ := trivial
  live_aborted _ _ := trivial
  last _ h ha :=
    have hready := ready_of_copied h ha true
    ⟨trivial, hready.2 _ List.prefix_rfl, hready.1⟩
  ask w h ha := (ready_of_copied h ha w.stepDoneQueued).2 _ (List.dropLast_prefix _)
  found blocks w h _ := ⟨⟨h.1.1.1, h.1.1.2⟩, h.1.2, h.1.3, fun _ =>
    ⟨h.2, _, rfl, h.1.heads.table.imp id And.left⟩⟩
  notFound _ _ _ := trivial
  finished _ _ _ _ := trivial
  list _ _ h _ := ⟨⟨h.1.1, h.1.2⟩, h.2, h.3, h.4⟩
  grant _ _ _ _ _ _ _ _ h _ := ⟨⟨h.1.1, h.1.2⟩, h.2, h.3, h.4⟩
  grant_raised _ _ _ _ _ _ _ _ _ _ := trivial
  refused _ _ _ _ _ := trivial
  refused_last _ _ _ _ _ := ⟨trivial, fun _ => trivial, fun _ => trivial⟩
  granted_aborted _ _ _ _ _ _ _ := trivial
  stamp _ _ _ _ h _ ha := stamped_of_ready h (not_aborting ha)
  send _ _ _ _ d h _ := stamped_sent h d
  send_raised _ _ _ _ _ _ _ _ := trivial
  sent_aborted _ _ _ := trivial
  sent_last w h := by
    obtain ⟨hsnap, htable⟩ := h.last rfl
    rw [List.append_nil] at hsnap
    exact ⟨hsnap.symm, htable⟩
  sent_live w h _ := by
    have hheads := h.heads
    have hcount := h.count
    rw [List.append_nil] at hheads hcount
    exact ⟨hheads, hcount⟩
  again _ h := h

/-- The state in which the coordinator takes over a running request. -/
structure Begins (w : World D) : Prop where
  sent : w.sent = []
  stages : w.request.stageNumBlocksList = []
  clocked : Clocked w
  queued : w.waiting = 0 ∧ w.swapped = 0

theorem copied_of_begins (h : Begins w) : Copied w := by
  refine ⟨⟨h.clocked, .inr ⟨?_, h.queued⟩⟩, ?_⟩
  · rw [h.sent]
    exact List.nil_prefix
  · rw [h.sent, h.stages]
    rfl

/-- A finished migration has sent the table that its last stage read. This is the table that the
request was removed with, in order and without repetition, if and only if no block was appended
between that reading and the removal. -/
theorem sent_eq_table_iff (X : Destination D) (cfg : Config) {w w' : World D} (h : Begins w)
    (hr : (host X cfg.blockSize).Ends (migrateOutMultistage cfg) w (.ok .finished) w') :
    ∃ table, w'.removed = some table ∧ w'.snapshot <+: table ∧
      (w'.sent.flatten = table ↔ table = w'.snapshot) := by
  have hdone : Done w' :=
    (((outline_valid X cfg.blockSize).safe_stages cfg _ (copied_of_begins h)).ends hr).2
  obtain ⟨hsent, table, ht, hp⟩ := hdone
  refine ⟨table, ht, hp, ?_⟩
  rw [hsent]
  exact eq_comm

section Sample

def obliging : Destination Unit where
  serve
    | .migrateInPreAlloc a, _, r, _ => r = .ok (List.range a.blockNum)
    | .sendBlocks _ _, _, r, _ => r = .ok ()
    | .freeDstPreAllocCache _, _, r, _ => r = .ok ()
    | .commitDstRequest _, _, r, _ => r = .ok ()
  loses _ := False
  env _ _ := False

def obliging.answer : obliging.Answer
  | .migrateInPreAlloc a, _ => some ⟨(.ok (List.range a.blockNum), ()), rfl⟩
  | .sendBlocks _ _, _ => some ⟨(.ok (), ()), rfl⟩
  | .freeDstPreAllocCache _, _ => some ⟨(.ok (), ()), rfl⟩
  | .commitDstRequest _, _ => some ⟨(.ok (), ()), rfl⟩

def sample : World Unit where
  request := {
    requestId := "r", arrivalTime := 0, seqStatus := .running, statusOverride := none
    tokenIds := [11, 12, 13], outputLen := 1, expectedSteps := none
    blockTable := [7], numFullSlots := 2, lastPreemptionTime := none
    stageTimestamps := [], stageNumBlocksList := [], migrationStartTime := some 0
    isMigrating := true }
  running := 1
  waiting := 0
  swapped := 0
  lastStage := 0
  stepDoneQueued := false
  taken := false
  now := 0
  dst := ()
  sent := []
  snapshot := []
  removed := none

theorem sample_begins : Begins sample := ⟨rfl, rfl, ⟨0, rfl, Nat.le_refl _⟩, rfl, rfl⟩

/-- A block appended between the reading and the removal is not sent. -/
theorem appended_block_not_sent :
    Begins sample ∧ ∃ w', (host obliging 2).Ends (migrateOutMultistage (sampleConfig 1 true)) sample
      (.ok .finished) w' ∧ w'.removed = some [7, 8] ∧ w'.sent.flatten = [7] :=
  ⟨sample_begins, _, ends_replay (schedules 8 :: List.replicate 3 (answers obliging.answer)) rfl,
    rfl, rfl⟩

def sampleLong : World Unit :=
  { sample with request := { sample.request with
      tokenIds := [11, 12, 13, 14, 15, 16, 17], blockTable := [7, 8, 9], numFullSlots := 6 } }

/-- Three blocks, and the engine needs a fourth one while the first two are sent. -/
theorem sent_eq_table_sample :
    ∃ w', (host obliging 2).Ends (migrateOutMultistage (sampleConfig 3 true)) sampleLong
        (.ok .finished) w' ∧ w'.sent = [[7, 8], [9], [10]] ∧
      ∃ table, w'.removed = some table ∧ w'.snapshot <+: table ∧
        (w'.sent.flatten = table ↔ table = w'.snapshot) := by
  have hends : (host obliging 2).Ends (migrateOutMultistage (sampleConfig 3 true)) sampleLong
      (.ok .finished) _ := ends_replay (answers obliging.answer :: schedules 10 ::
    List.replicate 6 (answers obliging.answer)) rfl
  exact ⟨_, hends, rfl, sent_eq_table_iff obliging (sampleConfig 3 true)
    ⟨rfl, rfl, ⟨0, rfl, Nat.le_refl _⟩, rfl, rfl⟩ hends⟩

end Sample

end Llumnix.Legacy.LiveCopy
