import Llumnix.Legacy.Stages

/-! Where a request is while legacy migrations of it start, fail and are cleaned up after:
the source, the destination and the manager's rounds and callbacks. -/
namespace Llumnix.Legacy.Conserve

open Coroutine

/-- The queues of the destination, by their entries for the request. -/
structure Queues where
  running : ℕ
  waiting : ℕ
  swapped : ℕ
  finished : Bool

namespace Queues

def entries (d : Queues) : ℕ := d.running + d.waiting + d.swapped

/-- The queue that `commit_dst_request` puts the request in. -/
def join (status : RequestStatus) (d : Queues) : Queues :=
  if status = .waitingMigrating then { d with waiting := d.waiting + 1 }
  else { d with running := d.running + 1 }

/-- Moves of the destination's engine. -/
inductive Moves : Queues → Queues → Prop
  | schedule (d : Queues) (h : 0 < d.waiting) :
      Moves d { d with waiting := d.waiting - 1, running := d.running + 1 }
  | recompute (d : Queues) (h : 0 < d.running) :
      Moves d { d with running := d.running - 1, waiting := d.waiting + 1 }
  | swapOut (d : Queues) (h : 0 < d.running) :
      Moves d { d with running := d.running - 1, swapped := d.swapped + 1 }
  | swapIn (d : Queues) (h : 0 < d.swapped) :
      Moves d { d with swapped := d.swapped - 1, running := d.running + 1 }
  | finish (d : Queues) (h : 0 < d.entries) : Moves d ⟨0, 0, 0, true⟩

theorem Moves.cases {d d' : Queues} (h : d.Moves d') :
    0 < d.entries ∧ (d'.entries = d.entries ∧ d'.finished = d.finished ∨ d' = ⟨0, 0, 0, true⟩) := by
  unfold entries
  cases h with
  | finish h => exact ⟨h, .inr rfl⟩
  | _ => exact ⟨by omega, .inl ⟨by dsimp only; omega, rfl⟩⟩

end Queues

/-- With `loses` set, the reply to a commit that took effect may be lost. -/
def destination (loses : Bool) : Destination Queues where
  serve
    | .commitDstRequest request, d, r, d' =>
      request.status.isMigrating = true ∧ r = .ok () ∧ d' = d.join request.status ∨
        (∃ e, r = .error e) ∧ d' = d
    | .migrateInPreAlloc _, d, _, d' => d' = d
    | .sendBlocks _ _, d, _, d' => d' = d
    | .freeDstPreAllocCache _, d, _, d' => d' = d
  loses
    | .commitDstRequest _ => loses = true
    | _ => True
  env := Queues.Moves

def entries (w : World Queues) : ℕ := w.running + w.waiting + w.swapped

def Finished (w : World Queues) : Prop := w.request.finished = true ∨ w.dst.finished = true

/-- An unfinished request is in at most one queue, and if it is in none the last-stage list
has it, or the attempt that is moving it is about to enter it there. -/
def Conserved (w : World Queues) : Prop :=
  ¬Finished w → entries w + w.dst.entries ≤ 1 ∧
    (entries w + w.dst.entries = 0 → 0 < w.lastStage ∨ w.taken = true)

/-! The places of a request. -/

/-- In one queue of the source, or finished there. -/
structure Home (w : World Queues) : Prop where
  lastStage : w.lastStage = 0
  dst : w.dst.entries = 0 ∧ w.dst.finished = false
  here : entries w = 1 ∧ w.request.finished = false ∨ entries w = 0 ∧ w.request.finished = true

/-- Taken out of the running queue by the engine loop. -/
structure Taken (w : World Queues) : Prop where
  lastStage : w.lastStage = 0
  dst : w.dst.entries = 0 ∧ w.dst.finished = false
  entries : entries w = 0
  taken : w.taken = true
  status : w.request.statusOverride = some .runningMigrating
  preempted : w.request.preempted = false

/-- In the last-stage list. -/
structure Listed (w : World Queues) : Prop where
  lastStage : w.lastStage = 1
  dst : w.dst.entries = 0 ∧ w.dst.finished = false
  entries : entries w = 0
  taken : w.taken = false
  unfinished : w.request.finished = false
  status : w.request.status.isMigrating = true

/-- At the destination, with `n` entries left in the last-stage list. -/
structure Gone (n : ℕ) (w : World Queues) : Prop where
  lastStage : w.lastStage = n
  entries : entries w = 0
  taken : w.taken = false
  unfinished : w.request.finished = false
  there : w.dst.entries = 1 ∧ w.dst.finished = false ∨ w.dst.entries = 0 ∧ w.dst.finished = true

/-- Where a request may be while no attempt is moving it. -/
def Rest (w : World Queues) : Prop := Home w ∨ Listed w ∨ Gone 0 w

section Places
variable {w w' : World Queues}

theorem conserved_of_home (h : Home w) : Conserved w := by
  intro hf
  rcases h.here with ⟨he, -⟩ | ⟨-, hfin⟩
  · rw [he, h.dst.1]
    exact ⟨by omega, by omega⟩
  · exact absurd (.inl hfin) hf

theorem conserved_of_taken (h : Taken w) : Conserved w := by
  intro _
  rw [h.entries, h.dst.1]
  exact ⟨by omega, fun _ => .inr h.taken⟩

theorem conserved_of_listed (h : Listed w) : Conserved w := by
  intro _
  rw [h.entries, h.dst.1, h.lastStage]
  exact ⟨by omega, fun _ => .inl (by omega)⟩

theorem conserved_of_gone {n : ℕ} (h : Gone n w) : Conserved w := by
  intro hf
  rcases h.there with ⟨he, -⟩ | ⟨-, hfin⟩
  · rw [h.entries, he]
    exact ⟨by omega, by omega⟩
  · exact absurd (.inr hfin) hf

theorem conserved_of_rest (h : Rest w) : Conserved w := by
  rcases h with h | h | h
  · exact conserved_of_home h
  · exact conserved_of_listed h
  · exact conserved_of_gone h

end Places

section Env
variable {l : Bool} {blockSize : ℕ} {w w' : World Queues}

private theorem no_moves {d d' : Queues} (h : d.entries = 0) (hm : d.Moves d') : False := by
  have hpos := hm.cases.1
  omega

theorem home_env : Stable (destination l) blockSize Home := by
  intro w w' h he
  obtain ⟨hl, hd, hh⟩ := h
  unfold entries at hh
  cases he with
  | finish _ => exact ⟨hl, hd, .inr ⟨rfl, rfl⟩⟩
  | recompute t hr _ =>
    refine ⟨hl, hd, .inl ⟨?_, rfl⟩⟩
    change w.running - 1 + (w.waiting + 1) + w.swapped = 1
    omega
  | swapOut t _ hr _ =>
    refine ⟨hl, hd, .inl ⟨?_, rfl⟩⟩
    change w.running - 1 + w.waiting + (w.swapped + 1) = 1
    omega
  | resume _ _ hw _ _ =>
    refine ⟨hl, hd, .inl ⟨?_, rfl⟩⟩
    change w.running + 1 + (w.waiting - 1) + w.swapped = 1
    omega
  | swapIn _ hs _ _ =>
    refine ⟨hl, hd, .inl ⟨?_, rfl⟩⟩
    change w.running + 1 + w.waiting + (w.swapped - 1) = 1
    omega
  | dst d hm => exact (no_moves hd.1 hm).elim
  | _ => exact ⟨hl, hd, hh⟩

theorem taken_env : Stable (destination l) blockSize Taken := by
  intro w w' h he
  obtain ⟨hl, hd, hh, ht, hs, hp⟩ := h
  unfold entries at hh
  cases he with
  | finish _ => exact ⟨hl, hd, rfl, ht, hs, hp⟩
  | dst d hm => exact (no_moves hd.1 hm).elim
  | schedule | recompute | swapOut | resume | swapIn => omega
  | _ => exact ⟨hl, hd, hh, ht, hs, hp⟩

theorem listed_env : Stable (destination l) blockSize Listed := by
  intro w w' h he
  obtain ⟨hl, hd, hh, ht, hu, hs⟩ := h
  unfold entries at hh
  cases he with
  | finish hf =>
    rw [ht] at hf
    rcases hf with hf | hf
    · omega
    · cases hf
  | dst d hm => exact (no_moves hd.1 hm).elim
  | schedule | recompute | swapOut | resume | swapIn => omega
  | _ => exact ⟨hl, hd, hh, ht, hu, hs⟩

theorem gone_env {n : ℕ} : Stable (destination l) blockSize (Gone n) := by
  intro w w' h he
  obtain ⟨hl, hh, ht, hu, hd⟩ := h
  unfold entries at hh
  cases he with
  | finish hf =>
    rw [ht] at hf
    rcases hf with hf | hf
    · omega
    · cases hf
  | dst d hm =>
    refine ⟨hl, hh, ht, hu, ?_⟩
    obtain ⟨-, ⟨hent, hfin⟩ | rfl⟩ := Queues.Moves.cases hm
    · rw [← hent, ← hfin] at hd
      exact hd
    · exact .inr ⟨rfl, rfl⟩
  | schedule | recompute | swapOut | resume | swapIn => omega
  | _ => exact ⟨hl, hh, ht, hu, hd⟩

theorem rest_env : Stable (destination l) blockSize Rest := by
  intro w w' h he
  rcases h with h | h | h
  · exact .inl (home_env w w' h he)
  · exact .inr (.inl (listed_env w w' h he))
  · exact .inr (.inr (gone_env w w' h he))

end Env

/-! The coroutines. -/
section Coroutines
variable {l : Bool} {blockSize : ℕ} {w : World Queues}

/-- The invariant holds throughout, and an exception leaves the request at rest. -/
abbrev Moving {α : Type} (l : Bool) (blockSize : ℕ) (N : α → World Queues → Prop)
    (p : Task Queues α) (w : World Queues) : Prop :=
  Safe (host (destination l) blockSize) Conserved (Post N fun _ => Rest) p w

theorem moving_ret {α : Type} {N : α → World Queues → Prop} {a : α} (hw : N a w)
    (hN : Stable (destination l) blockSize (N a)) (hc : ∀ w, N a w → Conserved w) :
    Moving l blockSize N (.ret a) w :=
  .retOf hw hN fun w h => ⟨hc w h, h⟩

theorem serve_same {m : Remote} (hm : ∀ q, m ≠ .commitDstRequest q) {d d' : Queues}
    {r : Except Exc m.Reply} (h : (destination l).serve m d r d') : d' = d := by
  cases m with
  | commitDstRequest q => exact absurd rfl (hm q)
  | _ => exact h

theorem fails_same {m : Remote} (hm : ∀ q, m ≠ .commitDstRequest q) {d : Queues} {e : Exc}
    (h : Fails (destination l) m w e d) : d = w.dst := by
  rcases h with hd | hs | ⟨-, r, hs⟩
  · exact hd
  · exact serve_same hm hs
  · exact serve_same hm hs

def Outcome : MigrationStatus → World Queues → Prop
  | .finished => Listed
  | _ => Home

theorem outcome_env (s : MigrationStatus) : Stable (destination l) blockSize (Outcome s) := by
  cases s with
  | finished => exact listed_env
  | _ => exact home_env

theorem conserved_of_outcome (s : MigrationStatus) (w : World Queues) (h : Outcome s w) :
    Conserved w := by
  cases s with
  | finished => exact conserved_of_listed h
  | _ => exact conserved_of_home h

theorem backs_of_entered (hl : w.lastStage = 1) (hd : w.dst.entries = 0 ∧ w.dst.finished = false)
    (he : entries w = 1) (hf : w.request.finished = false) :
    Ends.Backs ⟨Conserved, Outcome, Rest⟩ w := by
  refine ⟨fun _ => ?_, fun hl' => ?_, fun _ => ⟨?_, hd, .inl ⟨he, hf⟩⟩⟩
  · rw [he, hd.1]
    exact ⟨by omega, by omega⟩
  · rw [hl] at hl'
    cases hl'
  · change w.lastStage - 1 = 0
    rw [hl]

theorem queued_env : Stable (destination l) blockSize fun w => Home w ∧ w.stepDoneQueued = true ∧
    (0 < w.running → w.request.preempted = false) := by
  rintro w w' ⟨h, hq, hp⟩ he
  refine ⟨home_env w w' h he, ?_⟩
  have hh := h.here
  unfold entries at hh
  cases he with
  | finish _ => exact ⟨hq, fun hr => absurd hr (Nat.lt_irrefl 0)⟩
  | recompute t hr _ =>
    refine ⟨hq, fun hr' => ?_⟩
    change 0 < w.running - 1 at hr'
    omega
  | swapOut t _ hr _ =>
    refine ⟨hq, fun hr' => ?_⟩
    change 0 < w.running - 1 at hr'
    omega
  | resume _ _ _ _ hq' =>
    rw [hq] at hq'
    cases hq'
  | swapIn _ _ _ hq' =>
    rw [hq] at hq'
    cases hq'
  | _ => exact ⟨hq, hp⟩

theorem taken_of_found (h : Home w) (hp : 0 < w.running → w.request.preempted = false)
    (hr : 0 < w.running) : Taken w.removeRunning := by
  refine ⟨h.lastStage, h.dst, ?_, rfl, rfl, hp hr⟩
  have hh := h.here
  unfold entries at hh ⊢
  change w.running - 1 + w.waiting + w.swapped = 0
  omega

theorem listedRunning_env : Stable (destination l) blockSize
    fun w => Listed w ∧ w.request.preempted = false := by
  rintro w w' ⟨h, hp⟩ he
  refine ⟨listed_env w w' h he, ?_⟩
  have hh := h.entries
  unfold entries at hh
  cases he with
  | recompute | swapOut | resume | swapIn => omega
  | _ => exact hp

theorem listed_of_taken (h : Taken w) (hf : w.request.finished = false) :
    Listed w.addLastStage := by
  refine ⟨?_, h.dst, h.entries, rfl, hf, ?_⟩
  · change w.lastStage + 1 = 1
    rw [h.lastStage]
  · change w.request.status.isMigrating = true
    unfold Request.status
    rw [h.status]
    rfl

/-- A request that is taken out has not been preempted, so the last stage goes through. -/
def Leaving (w : World Queues) : Prop := Listed w ∧ w.request.preempted = false

def outline : Outline Queues where
  inv := Conserved
  outcome := Outcome
  raised := Rest
  live := Home
  queued _ w := Home w ∧ w.stepDoneQueued = true ∧ (0 < w.running → w.request.preempted = false)
  taken _ := Taken
  asked last _ := if last then Leaving else Home
  granted last _ _ := if last then Leaving else Home
  sending last _ := if last then Listed else Home
  sent last := if last then Listed else Home

theorem closed (l : Bool) (blockSize : ℕ) : outline.toEnds.Closed (destination l) blockSize where
  outcome s := ⟨outcome_env s, conserved_of_outcome s⟩
  raised := ⟨rest_env, fun _ => conserved_of_rest⟩

theorem rests_home : outline.Rests (destination l) blockSize Home :=
  ⟨home_env, fun _ => conserved_of_home⟩

theorem rests_listed : outline.Rests (destination l) blockSize Listed :=
  ⟨listed_env, fun _ => conserved_of_listed⟩

theorem rests_leaving : outline.Rests (destination l) blockSize Leaving :=
  ⟨listedRunning_env, fun _ h => conserved_of_listed h.1⟩

theorem rests_asked (last : Bool) :
    outline.Rests (destination l) blockSize (if last then Leaving else Home) := by
  cases last with
  | true => exact rests_leaving
  | false => exact rests_home

theorem rests_sending (last : Bool) :
    outline.Rests (destination l) blockSize (if last then Listed else Home) := by
  cases last with
  | true => exact rests_listed
  | false => exact rests_home

theorem rest_of_asked {last : Bool} (h : (if last then Leaving else Home) w) : Rest w := by
  cases last with
  | true => exact .inr (.inl h.1)
  | false => exact .inl h

theorem noted_of_sending {last : Bool} (h : (if last then Listed else Home) w) (n : ℕ)
    (sent : List (List ℕ)) :
    (if last then Listed else Home) (w.stamp n) ∧
      (if last then Listed else Home) { w with sent := sent } := by
  cases last with
  | true => exact ⟨⟨h.1, h.2, h.3, h.4, h.5, h.6⟩, h.1, h.2, h.3, h.4, h.5, h.6⟩
  | false => exact ⟨⟨h.1, h.2, h.3⟩, h.1, h.2, h.3⟩

theorem outline_valid (l : Bool) (blockSize : ℕ) : outline.Valid (destination l) blockSize where
  ends := closed l blockSize
  queued _ := ⟨queued_env, fun _ h => conserved_of_home h.1⟩
  taken _ := ⟨taken_env, fun _ => conserved_of_taken⟩
  asked last _ := rests_asked last
  granted last _ _ := rests_asked last
  sending last _ := rests_sending last
  sent := rests_sending
  live_inv _ := conserved_of_home
  live_aborted _ h := h
  last w h ha := by
    have hw : Home { w with snapshot := w.request.blockTable } := ⟨h.1, h.2, h.3⟩
    exact ⟨conserved_of_home hw, ⟨h.1, h.2, h.3⟩, rfl, fun _ => (Bool.or_eq_false_iff.mp ha).2⟩
  ask _ h _ := ⟨h.1, h.2, h.3⟩
  found _ _ h hr := taken_of_found h.1 h.2.2 hr
  notFound _ _ h := ⟨h.1.1, h.1.2, h.1.3⟩
  finished _ _ h hf := ⟨h.lastStage, h.dst, .inr ⟨h.entries, hf⟩⟩
  list _ _ h hf := ⟨listed_of_taken h hf, h.preempted⟩
  grant last _ _ w' _ _ d _ h hs := by
    obtain rfl := serve_same (fun _ => Remote.noConfusion) hs
    exact h
  grant_raised last _ _ w' _ _ d _ h hf := by
    obtain rfl := fails_same (fun _ => Remote.noConfusion) hf
    exact rest_of_asked h
  refused _ _ _ h _ := h
  refused_last _ _ w h _ := by
    refine backs_of_entered h.1.lastStage h.1.dst ?_ rfl
    have he := h.1.entries
    unfold entries at he ⊢
    change w.running + 1 + w.waiting + w.swapped = 1
    omega
  granted_aborted last _ _ w h _ ha := by
    cases last with
    | true =>
      have hgo : w.request.shouldAbortMigration = false :=
        Bool.or_eq_false_iff.mpr ⟨h.1.unfinished, h.2⟩
      rw [hgo] at ha
      cases ha
    | false => exact h
  stamp last src _ w h _ _ := by
    refine (noted_of_sending ?_ src.length w.sent).1
    cases last with
    | true => exact h.1
    | false => exact h
  send _ src _ w _ h hs := by
    obtain rfl := serve_same (fun _ => Remote.noConfusion) hs
    exact (noted_of_sending h 0 (w.sent ++ [src])).2
  send_raised last src _ w _ _ h hf := by
    obtain rfl := fails_same (fun _ => Remote.noConfusion) hf
    have hsent := (noted_of_sending h 0 (w.sent ++ [src])).2
    cases last with
    | true => exact .inr (.inl hsent)
    | false => exact .inl hsent
  sent_aborted _ h _ := h
  sent_last _ h := h
  sent_live _ h _ := h
  again _ h := h

theorem moving_stages (cfg : Config) (n : ℕ) (h : Home w) :
    Moving l blockSize Outcome (migrateOutStages cfg n) w := by
  refine ((outline_valid l blockSize).safe_stages cfg n h).mono fun r w h => ?_
  cases r with
  | ok s => exact h.2
  | error e => exact h

theorem listed_of_removable {cfg : Config} (h : Home w) (hr : w.removable cfg) :
    Listed w.removeWaiting.addLastStage := by
  have hh := h.here
  have hpos := hr.1
  unfold entries at hh
  have hf : w.request.finished = false := by
    rcases hh with ⟨-, hf⟩ | ⟨he, -⟩
    · exact hf
    · omega
  refine ⟨?_, h.dst, ?_, rfl, hf, rfl⟩
  · change w.lastStage + 1 = 1
    rw [h.lastStage]
  · change w.running + (w.waiting - 1) + w.swapped = 0
    omega

theorem moving_waiting (cfg : Config) (h : Home w) :
    Moving l blockSize Outcome (migrateOutWaitingRequest cfg) w := by
  refine WaitingOutline.Valid.safe (O := ⟨outline.toEnds, Listed, fun _ => Listed⟩) {
    ends := closed l blockSize
    asked := rests_listed
    granted := fun _ => rests_listed
    inv := conserved_of_home h
    aborted := h
    list := listed_of_removable h
    grant := fun w' dst d h hs => ?_
    grant_raised := fun w' e d h hf => ?_
    refused := fun dst w h _ => backs_of_entered h.lastStage h.dst ?_ rfl
    accepted := fun _ _ h _ => h }
  · obtain rfl := serve_same (fun _ => Remote.noConfusion) hs
    exact h
  · obtain rfl := fails_same (fun _ => Remote.noConfusion) hf
    exact .inr (.inl h)
  · have he := h.entries
    unfold entries at he ⊢
    change w.running + (w.waiting + 1) + w.swapped = 1
    omega

theorem moving_commit (h : Listed w) :
    Moving false blockSize (fun _ => Gone 1) (commitDstRequest w.request) w := by
  refine safe_remote (m := .commitDstRequest w.request) (P := Listed) h listed_env
    (fun _ => gone_env) (fun _ => rest_env) (fun _ => conserved_of_listed)
    (fun _ _ => conserved_of_gone) (fun _ _ => conserved_of_rest) ?_ ?_
  · rintro v r d h (⟨-, -, rfl⟩ | ⟨⟨e, he⟩, -⟩)
    · refine ⟨h.lastStage, h.entries, h.taken, h.unfinished, .inl ?_⟩
      have hd := h.dst
      unfold Queues.entries at hd
      change (v.dst.join _).entries = 1 ∧ (v.dst.join _).finished = false
      unfold Queues.join Queues.entries
      split
      · exact ⟨by dsimp only; omega, hd.2⟩
      · exact ⟨by dsimp only; omega, hd.2⟩
    · cases he
  · rintro v e d h (rfl | (⟨-, hok, -⟩ | ⟨-, rfl⟩) | ⟨hl, -⟩)
    · exact .inr (.inl h)
    · cases hok
    · exact .inr (.inl h)
    · cases hl

theorem moving_settle {s : MigrationStatus} (h : Outcome s w) :
    Moving false blockSize (fun _ => Rest) (settle s) w := by
  unfold settle
  by_cases hs : s = .finished
  · rw [if_pos hs]
    subst hs
    refine .read (conserved_of_listed h) (Safe.seq (moving_commit h) fun _ w h => ?_)
    have hfree : Gone 1 w.freeSrcRequest := ⟨h.1, h.2, h.3, h.4, h.5⟩
    refine .write (conserved_of_gone h) (.read (conserved_of_gone hfree) ?_)
    change Safe _ _ _ (Prog.bind (if w.lastStage = 0 then _ else _) _) _
    rw [h.lastStage, if_neg (by decide)]
    have hgone : Gone 0 w.freeSrcRequest.removeLastStage := by
      refine ⟨?_, h.2, h.3, h.4, h.5⟩
      change w.lastStage - 1 = 0
      rw [h.lastStage]
    refine .write (conserved_of_gone hfree) (.read (conserved_of_gone hgone) ?_)
    exact moving_ret (.inr (.inr hgone)) rest_env fun _ => conserved_of_rest
  · rw [if_neg hs]
    have hhome : Home w := by
      cases s with
      | finished => exact absurd rfl hs
      | _ => exact h
    have hreset : Home w.reset := ⟨hhome.1, hhome.2, hhome.3⟩
    refine .write (conserved_of_home hhome) ?_
    split
    · refine .read (conserved_of_home hreset) (Safe.seq (M := fun _ => Home) ?_ fun _ w h => ?_)
      · refine (closed false blockSize).safe_remote (m := .freeDstPreAllocCache _) hreset
          rests_home (fun _ => rests_home) (fun w _ d h hs => ?_) fun w e d h hf => ?_
        · obtain rfl := serve_same (fun _ => Remote.noConfusion) hs
          exact h
        · obtain rfl := fails_same (fun _ => Remote.noConfusion) hf
          exact .inl h
      · exact moving_ret (.inl h) rest_env fun _ => conserved_of_rest
    · exact moving_ret (.inl hreset) rest_env fun _ => conserved_of_rest

theorem moving_oneRequest (cfg : Config) (h : Home w) :
    Moving false blockSize (fun _ => Rest) (migrateOutOneRequest cfg) w := by
  have hstart : Home w.start := ⟨h.1, h.2, h.3⟩
  refine .read (conserved_of_home h) ?_
  split
  · exact .write (conserved_of_home h)
      (Safe.seq (moving_stages cfg _ hstart) fun s w h => moving_settle h)
  · exact .write (conserved_of_home h)
      (Safe.seq (moving_waiting cfg hstart) fun s w h => moving_settle h)
  · exact moving_ret (.inl h) rest_env fun _ => conserved_of_rest

end Coroutines

/-! The manager's rounds and callbacks. -/

/-- The source with its `migrate_out`, and what the manager keeps about it. -/
structure Cluster where
  world : World Queues
  /-- `instance_migrating` of the source. -/
  migrating : Bool
  /-- `migrate_out` has been issued and has not returned. -/
  inFlight : Bool
  /-- Its attempt at the request, when it is the request's turn. -/
  attempt : Option (Task Queues (List String))
  /-- Calls that have returned, the callback yet to run. -/
  succeeded : ℕ
  failed : ℕ
  /-- Callbacks that have reset the flags and not yet sent `clear_migration_states`. -/
  clearing : ℕ

namespace Cluster

/-- With `loses` set, the reply to a commit that took effect may be lost. With `guarded` set,
`clear_migration_states` does not arrive while an attempt has the request in the list. -/
inductive Step (cfg : Config) (loses guarded : Bool) : Cluster → Cluster → Prop
  | round (s : Cluster) (h : s.migrating = false) :
      Step cfg loses guarded s { s with migrating := true, inFlight := true }
  | begins (s : Cluster) (hf : s.inFlight = true) (ha : s.attempt = none)
      (hq : 0 < entries s.world ∨ s.world.request.finished = true) :
      Step cfg loses guarded s { s with attempt := some (migrateOutOneRequest cfg) }
  | run (s : Cluster) (p p' : Task Queues (List String)) (w : World Queues)
      (ha : s.attempt = some p)
      (h : (host (destination loses) cfg.blockSize).Step (p, s.world) (p', w)) :
      Step cfg loses guarded s { s with world := w, attempt := some p' }
  | returned (s : Cluster) (a : List String) (ha : s.attempt = some (.ret a)) :
      Step cfg loses guarded s { s with attempt := none }
  | raised (s : Cluster) (e : Exc) (ha : s.attempt = some (.raise e)) :
      Step cfg loses guarded s { s with attempt := none, inFlight := false, failed := s.failed + 1 }
  | otherRaised (s : Cluster) (hf : s.inFlight = true) (ha : s.attempt = none) :
      Step cfg loses guarded s { s with inFlight := false, failed := s.failed + 1 }
  | done (s : Cluster) (hf : s.inFlight = true) (ha : s.attempt = none) :
      Step cfg loses guarded s { s with inFlight := false, succeeded := s.succeeded + 1 }
  | callbackDone (s : Cluster) (h : 0 < s.succeeded) :
      Step cfg loses guarded s { s with succeeded := s.succeeded - 1, migrating := false }
  | callbackFailed (s : Cluster) (h : 0 < s.failed) :
      Step cfg loses guarded s
        { s with failed := s.failed - 1, migrating := false, clearing := s.clearing + 1 }
  | clear (s : Cluster) (h : 0 < s.clearing) (hs : ∀ p, s.attempt = some p → p.Suspended)
      (hg : guarded = true → s.attempt = none ∨ s.world.lastStage = 0) :
      Step cfg loses guarded s
        { s with clearing := s.clearing - 1, world := s.world.clearMigrationStates }
  | clearFailed (s : Cluster) (h : 0 < s.clearing) :
      Step cfg loses guarded s { s with clearing := s.clearing - 1 }
  | env (s : Cluster) (w : World Queues) (ha : s.attempt = none)
      (h : EnvMoves (destination loses) cfg.blockSize s.world w) :
      Step cfg loses guarded s { s with world := w }

def Reaches (cfg : Config) (loses guarded : Bool) : Cluster → Cluster → Prop :=
  Relation.ReflTransGen (Step cfg loses guarded)

/-- At rest, or in an attempt that keeps it safe. -/
def Sound (cfg : Config) (s : Cluster) : Prop :=
  match s.attempt with
  | none => Rest s.world
  | some p => Moving false cfg.blockSize (fun _ => Rest) p s.world

end Cluster

section Cluster
open Cluster
variable {cfg : Config} {s s' : Cluster}

theorem clear_of_empty {w : World Queues} (h : w.lastStage = 0) : w.clearMigrationStates = w := by
  have hw : { w with lastStage := 0 } = w := by
    rw [← h]
  unfold World.clearMigrationStates
  rw [h, hw]
  split <;> rfl

theorem home_of_cleared {w : World Queues} (h : Listed w) : Home w.clearMigrationStates := by
  have he := h.entries
  have hs := h.status
  unfold entries at he
  unfold World.clearMigrationStates
  rw [h.lastStage]
  split
  · refine ⟨rfl, h.dst, .inl ⟨?_, rfl⟩⟩
    change w.running + 1 + w.waiting + w.swapped = 1
    omega
  · refine ⟨rfl, h.dst, .inl ⟨?_, rfl⟩⟩
    change w.running + (w.waiting + 1) + w.swapped = 1
    omega
  · rename_i hr hw
    cases hst : w.request.status with
    | runningMigrating => exact absurd hst hr
    | waitingMigrating => exact absurd hst hw
    | _ =>
      rw [hst] at hs
      cases hs

theorem rest_clear {w : World Queues} (h : Rest w) : Rest w.clearMigrationStates := by
  rcases h with h | h | h
  · rw [clear_of_empty h.lastStage]
    exact .inl h
  · exact .inl (home_of_cleared h)
  · rw [clear_of_empty h.lastStage]
    exact .inr (.inr h)

theorem sound_step (h : Sound cfg s) (hs : Step cfg false true s s') : Sound cfg s' := by
  unfold Sound at h ⊢
  cases hs with
  | begins _ ha hq =>
    rw [ha] at h
    refine moving_oneRequest cfg ?_
    rcases h with h | h | h
    · exact h
    · have he := h.entries
      have hf := h.unfinished
      rw [he, hf] at hq
      simp at hq
    · have he := h.entries
      have hf := h.unfinished
      rw [he, hf] at hq
      simp at hq
  | run p p' w ha hstep =>
    rw [ha] at h
    exact h.step hstep
  | returned a ha =>
    rw [ha] at h
    cases h with
    | ret h => exact (h _ .refl).2
  | raised e ha =>
    rw [ha] at h
    cases h with
    | raise h => exact (h _ .refl).2
  | clear _ _ hg =>
    rcases hg rfl with ha | hl
    · rw [ha] at h ⊢
      exact rest_clear h
    · rw [clear_of_empty hl]
      exact h
  | env w ha he =>
    rw [ha] at h ⊢
    exact rest_env _ _ h he
  | otherRaised _ ha =>
    rw [ha] at h ⊢
    exact h
  | done _ ha =>
    rw [ha] at h ⊢
    exact h
  | _ => exact h

theorem conserved_of_sound (h : Sound cfg s) : Conserved s.world := by
  unfold Sound at h
  split at h
  · exact conserved_of_rest h
  · exact h.inv

/-- However rounds, failures and callbacks interleave with both engines, a request is never
in two queues, and never lost. -/
theorem request_conserved (cfg : Config) {s s' : Cluster} (ha : s.attempt = none)
    (hs : Home s.world) (hr : Reaches cfg false true s s') : Conserved s'.world := by
  have hsound : Sound cfg s' := by
    induction hr with
    | refl =>
      unfold Sound
      rw [ha]
      exact .inl hs
    | tail _ hstep ih => exact sound_step ih hstep
  exact conserved_of_sound hsound

theorem reaches_run (cfg : Config) {loses guarded : Bool} (s : Cluster)
    {c c' : Task Queues (List String) × World Queues}
    (h : (host (destination loses) cfg.blockSize).Reaches c c') :
    Reaches cfg loses guarded { s with world := c.2, attempt := some c.1 }
      { s with world := c'.2, attempt := some c'.1 } := by
  induction h with
  | refl => exact .refl
  | tail _ hstep ih => exact ih.tail (.run _ _ _ _ rfl hstep)

end Cluster

/-! A request that is waiting, or running with one block, migrated in one stage. -/
section Sample
open Cluster
variable {l : Bool}

def sampleRequest (status : SequenceStatus) : Request where
  requestId := "r"
  arrivalTime := 0
  seqStatus := status
  statusOverride := none
  tokenIds := [11, 12]
  outputLen := 0
  expectedSteps := none
  blockTable := [7]
  numFullSlots := 2
  lastPreemptionTime := none
  stageTimestamps := []
  stageNumBlocksList := []
  migrationStartTime := none
  isMigrating := true

def sampleWorld (status : SequenceStatus) (running waiting : ℕ) : World Queues where
  request := sampleRequest status
  running := running
  waiting := waiting
  swapped := 0
  lastStage := 0
  stepDoneQueued := false
  taken := false
  now := 0
  dst := ⟨0, 0, 0, false⟩
  sent := []
  snapshot := []
  removed := none

def idle (w : World Queues) : Cluster where
  world := w
  migrating := false
  inFlight := false
  attempt := none
  succeeded := 0
  failed := 0
  clearing := 0

def sampleListed : World Queues := (sampleWorld .waiting 0 1).start.removeWaiting.addLastStage

/-- The destination grants the blocks and takes the request. -/
def sampleAnswer (blocks : List ℕ) : (destination l).Answer
  | .migrateInPreAlloc _, d => some ⟨(.ok blocks, d), rfl⟩
  | .sendBlocks _ _, d => some ⟨(.ok (), d), rfl⟩
  | .freeDstPreAllocCache _, d => some ⟨(.ok (), d), rfl⟩
  | .commitDstRequest request, d =>
    if h : request.status.isMigrating = true then
      some ⟨(.ok (), d.join request.status), .inl ⟨h, rfl, rfl⟩⟩
    else none

def losesReply : Cue (host (destination true) 2) := .serve 0 fun
  | .remote (.commitDstRequest request), w =>
    if h : request.status.isMigrating = true then
      some ⟨(.error .rayActorError, { w with dst := w.dst.join request.status }),
        .lost (.commitDstRequest request) w (.ok ()) _ .rayActorError (.inl ⟨h, rfl, rfl⟩) rfl⟩
    else none
  | _, _ => none

/-- An attempt at the request, up to the end of the script. -/
def sampleRun (w : World Queues) (cues : List (Cue (host (destination l) 2))) :
    Task Queues (List String) × World Queues :=
  (host (destination l) 2).replay (migrateOutOneRequest (sampleConfig 1 false)) w cues

theorem reaches_sampleRun (guarded : Bool) (w : World Queues) (hq : 0 < entries w)
    (cues : List (Cue (host (destination l) 2))) :
    Reaches (sampleConfig 1 false) l guarded (idle w) { idle w with
      migrating := true
      inFlight := true
      world := (sampleRun w cues).2
      attempt := some (sampleRun w cues).1 } :=
  .head (.round _ rfl) (.head (.begins _ rfl rfl (.inl hq))
    (reaches_run (sampleConfig 1 false) { idle w with migrating := true, inFlight := true }
      (reaches_replay (migrateOutOneRequest (sampleConfig 1 false)) w cues)))

/-- Of the second round, with the source yet to be told to clear up after the first. -/
def sampleRound : Cluster :=
  { idle (sampleWorld .waiting 0 1) with migrating := true, inFlight := true, clearing := 1 }

def sampleSuspended : Task Queues (List String) :=
  (sampleRun (l := false) (sampleWorld .waiting 0 1) []).1

/-- Three ways out: a clearing call that meets another attempt, a commit whose reply is lost,
and the time between the engine loop and the list. -/
theorem request_doubled_or_unlisted :
    (∃ s, Reaches (sampleConfig 1 false) false false (idle (sampleWorld .waiting 0 1)) s ∧
      s.world.waiting = 1 ∧ s.world.dst.waiting = 1) ∧
    (∃ s, Reaches (sampleConfig 1 false) true true (idle (sampleWorld .waiting 0 1)) s ∧
      s.world.waiting = 1 ∧ s.world.dst.waiting = 1) ∧
    ∃ s, Reaches (sampleConfig 1 false) false true (idle (sampleWorld .running 1 0)) s ∧
      ¬Finished s.world ∧ entries s.world + s.world.dst.entries = 0 ∧ s.world.lastStage = 0 := by
  refine ⟨?_, ?_, ?_⟩
  · -- the first round failed on another request, and the second has begun its attempt
    have hround : Reaches (sampleConfig 1 false) false false (idle (sampleWorld .waiting 0 1))
        sampleRound :=
      .head (.round _ rfl) (.head (.otherRaised _ rfl rfl)
        (.head (.callbackFailed _ Nat.one_pos) (.single (.round _ rfl))))
    have hlisted := (hround.tail (.begins _ rfl rfl (.inl Nat.one_pos))).trans
      (reaches_run (sampleConfig 1 false) sampleRound (reaches_replay
        (migrateOutOneRequest (sampleConfig 1 false)) (sampleWorld .waiting 0 1) []))
    have hclear : Reaches (sampleConfig 1 false) false false (idle (sampleWorld .waiting 0 1))
        { sampleRound with
          clearing := 0
          world := sampleListed.clearMigrationStates
          attempt := some sampleSuspended } :=
      hlisted.tail (.clear _ Nat.one_pos (by rintro _ ⟨⟩; exact trivial) nofun)
    exact ⟨_, hclear.trans (reaches_run (sampleConfig 1 false)
      { sampleRound with clearing := 0 } (reaches_replay sampleSuspended
        sampleListed.clearMigrationStates (List.replicate 2 (answers (sampleAnswer [0]))))),
      rfl, rfl⟩
  · have hrun := reaches_sampleRun true (sampleWorld .waiting 0 1) Nat.one_pos
      [answers (sampleAnswer [0]), losesReply]
    exact ⟨_, ((hrun.tail (.raised _ .rayActorError rfl)).tail (.callbackFailed _ Nat.one_pos)).tail
      (.clear _ Nat.one_pos nofun fun _ => .inl rfl), rfl, rfl⟩
  · -- the engine loop has taken the request out, and the attempt awaits the output of its last step
    refine ⟨_, reaches_sampleRun _ (sampleWorld .running 1 0) Nat.one_pos
      [answers (sampleAnswer [0])], ?_, rfl, rfl⟩
    rintro (h | h) <;> cases h

/-- The conclusion at a state in which the request is on its way. -/
theorem request_conserved_sample : ∃ s,
    Reaches (sampleConfig 1 false) false true (idle (sampleWorld .waiting 0 1)) s ∧
      s.world = sampleListed ∧ Conserved s.world := by
  have hrun := reaches_sampleRun (l := false) true (sampleWorld .waiting 0 1)
    Nat.one_pos []
  exact ⟨_, hrun, rfl, request_conserved (sampleConfig 1 false) rfl
    ⟨rfl, ⟨rfl, rfl⟩, .inl ⟨rfl, rfl⟩⟩ hrun⟩

end Sample

end Llumnix.Legacy.Conserve
