import Llumnix.Coroutine.Product
import Llumnix.Legacy.Conserve
import Llumnix.Legacy.Stages

/-! `Llumlet.migrate_out`: the selected requests are flagged together and migrated one after the
other, while the engine moves those whose turn has not come. -/
namespace Llumnix.Legacy.MigrateOut

open Coroutine

variable {ι D : Type} [DecidableEq ι]

/-- The requests of the instance, and the status that each had when its turn came. -/
structure Batch (ι D : Type) where
  worlds : ι → World D
  turn : ι → Option RequestStatus

def parts : Parts (Batch ι D) ι (World D) where
  get := Batch.worlds
  set i v b := { b with worlds := Function.update b.worlds i v }
  get_set _ _ _ := rfl
  set_get i b := by rw [Function.update_eq_self]
  set_set i v v' b := by rw [Function.update_idem]

/-- Coroutines of the source, whose calls are each about one request. -/
abbrev BatchTask (ι D α : Type) := Prog (Batch ι D) (ι × Call) (fun c => c.2.Reply) Exc α

def setMigrating (w : World D) : World D :=
  { w with request := { w.request with isMigrating := true } }

namespace Batch

/-- `migrate_out_request.is_migrating = True` for the whole batch. -/
def mark (selected : List ι) (b : Batch ι D) : Batch ι D :=
  { b with worlds := fun i => if i ∈ selected then setMigrating (b.worlds i) else b.worlds i }

def takesTurn (i : ι) (b : Batch ι D) : Batch ι D :=
  { b with turn := Function.update b.turn i (some (b.worlds i).request.status) }

end Batch

/-- The loop, which the end-of-migration request leaves if it did not move. -/
def migrateEach (cfg : Config) (eom : ι → Bool) : List ι → List String → BatchTask ι D (List String)
  | [], migrated => .ret migrated
  | i :: is, migrated =>
    .write (Batch.takesTurn i) <|
      ((migrateOutOneRequest cfg).within parts i).bind fun moved =>
        if moved = [] ∧ eom i = true then .ret (migrated ++ moved)
        else migrateEach cfg eom is (migrated ++ moved)

def migrateOut (cfg : Config) (eom : ι → Bool) (selected : List ι) : BatchTask ι D (List String) :=
  if selected = [] then .ret [] else .write (Batch.mark selected) (migrateEach cfg eom selected [])

/-! ### One request -/

section One
variable {X : Destination D} {blockSize : ℕ} {w : World D}

def entries (w : World D) : ℕ := w.running + w.waiting + w.swapped

/-- In `n` places of the last-stage list and at most `k` of the queues. -/
def Within (n k : ℕ) (w : World D) : Prop := w.lastStage = n ∧ entries w ≤ k

def Here (w : World D) : Prop := 0 < entries w + w.lastStage

theorem entries_env {w' : World D} (h : EnvMoves X blockSize w w') :
    w'.lastStage = w.lastStage ∧ entries w' ≤ entries w ∧
      w'.request.isMigrating = w.request.isMigrating := by
  unfold entries
  cases h with
  | finish _ => exact ⟨rfl, Nat.zero_le _, rfl⟩
  | schedule | output | tick | dst => exact ⟨rfl, Nat.le_refl _, rfl⟩
  | recompute | swapOut | resume | swapIn => exact ⟨rfl, by dsimp only; omega, rfl⟩

theorem within_env (n k : ℕ) : Stable X blockSize (Within n k) := by
  intro w w' h he
  obtain ⟨hlist, hentries, -⟩ := entries_env he
  exact ⟨hlist.trans h.1, Nat.le_trans hentries h.2⟩

theorem flag_env (f : Bool) : Stable X blockSize fun w => w.request.isMigrating = f :=
  fun _ _ h he => (entries_env he).2.2.trans h

theorem carried_within (X : Destination D) (blockSize : ℕ) :
    Carried X blockSize (Within 0 1) (Within 0 0) (Within 1 0) where
  live_env := within_env 0 1
  taken_env := within_env 0 0
  listed_env := within_env 1 0
  live_noted _ _ _ _ _ _ _ h := h
  listed_noted _ _ _ _ _ _ _ h := h
  live_reply _ _ _ _ h _ := h
  listed_reply _ _ _ _ h _ := h
  take w h hr := by
    refine ⟨h.1, ?_⟩
    have hentries := h.2
    unfold entries at hentries ⊢
    change w.running - 1 + w.waiting + w.swapped ≤ 0
    omega
  list w h := ⟨congrArg (· + 1) h.1, h.2⟩
  takeWaiting w h hw := by
    refine ⟨congrArg (· + 1) h.1, ?_⟩
    have hentries := h.2
    unfold entries at hentries
    change w.running + (w.waiting - 1) + w.swapped ≤ 0
    omega

def Cleared (w : World D) : Prop := w.request.isMigrating = false ∨ Within 0 0 w

theorem cleared_env : Stable X blockSize Cleared := by
  intro w w' h he
  exact h.imp (fun h => flag_env false w w' h he) fun h => within_env 0 0 w w' h he

theorem returns_settle {s : MigrationStatus} (h : OutcomeOf (Within 0 1) (Within 1 0) s w) :
    Returns X blockSize (fun _ => Cleared) (settle s) w := by
  unfold settle
  split
  · rename_i hs
    subst hs
    refine .read trivial (Safe.seq (M := fun _ => Within 1 0) ?_ fun _ w h => ?_)
    · exact returns_remote (m := .commitDstRequest w.request) h (within_env 1 0)
        (fun _ => within_env 1 0) fun _ _ _ h _ => h
    · refine .write trivial (returns_removeLastStage (.read trivial (returns_ret ?_ cleared_env)))
      exact .inr ⟨congrArg (· - 1) h.1, h.2⟩
  · refine .write trivial ?_
    split
    · refine .read trivial (Safe.seq (M := fun _ w => w.request.isMigrating = false) ?_
        fun _ w h => returns_ret (.inl h) cleared_env)
      exact returns_remote (m := .freeDstPreAllocCache _)
        (P := fun w => w.request.isMigrating = false) rfl (flag_env false)
        (fun _ => flag_env false) fun _ _ _ h _ => h
    · exact returns_ret (.inl rfl) cleared_env

/-- Statuses with which a request is migrated when its turn comes. -/
def Served (s : RequestStatus) : Prop := s = .running ∨ s = .waiting

/-- The turn of a request that was flagged. -/
def After (s : RequestStatus) (w : World D) : Prop :=
  Served s ∧ Cleared w ∨ ¬Served s ∧ w.request.isMigrating = true

theorem after_env (s : RequestStatus) : Stable X blockSize (After s) := by
  intro w w' h he
  exact h.imp (fun h => ⟨h.1, cleared_env w w' h.2 he⟩) fun h => ⟨h.1, flag_env true w w' h.2 he⟩

theorem returns_oneRequest (cfg : Config) (h : Within 0 1 w)
    (hflag : w.request.isMigrating = true) :
    Returns X blockSize (fun _ => After w.request.status) (migrateOutOneRequest cfg) w := by
  refine .read trivial ?_
  have hcarried := carried_within X blockSize
  have hcleared : Served w.request.status → ∀ {p : Task D (List String)} {v : World D},
      Returns X blockSize (fun _ => Cleared) p v →
        Returns X blockSize (fun _ => After w.request.status) p v := by
    intro hs p v hp
    refine hp.mono fun r w' h => ?_
    cases r with
    | ok moved => exact .inl ⟨hs, h⟩
    | error e => trivial
  split
  · rename_i hs
    exact hcleared (.inl hs) (.write trivial (Safe.seq
      (hcarried.returns_stages cfg _ (hcarried.start h)) fun s w h => returns_settle h))
  · rename_i hs
    exact hcleared (.inr hs) (.write trivial (Safe.seq
      (hcarried.returns_waiting cfg (hcarried.start h)) fun s w h => returns_settle h))
  · rename_i hrunning hwaiting
    refine returns_ret (.inr ⟨?_, hflag⟩) (after_env _)
    rintro (hs | hs)
    · exact hrunning hs
    · exact hwaiting hs

end One

/-! ### The batch -/

section Batch
variable {X : Destination D} {cfg : Config} {selected : List ι} {b : Batch ι D}

def Pending (b : Batch ι D) (i : ι) : Prop :=
  b.turn i = none ∧ (b.worlds i).request.isMigrating = true ∧ Within 0 1 (b.worlds i)

def Settled (b : Batch ι D) (i : ι) : Prop := ∃ s, b.turn i = some s ∧ After s (b.worlds i)

/-- A batch with `todo` still to come. -/
def Ongoing (selected todo : List ι) (b : Batch ι D) : Prop :=
  (∀ i ∈ todo, Pending b i) ∧ ∀ i ∈ selected, i ∉ todo → Settled b i

theorem pending_set (X : Destination D) (cfg : Config) {i j : ι} {v : World D} (h : Pending b j)
    (hv : j = i → EnvMoves X cfg.blockSize (b.worlds i) v) : Pending (parts.set i v b) j := by
  obtain ⟨hturn, hflag, hwithin⟩ := h
  refine ⟨hturn, ?_, ?_⟩
  · exact parts.keep_set (Q := fun w => w.request.isMigrating = true) hflag
      fun hij hi => flag_env true _ _ hi (hv hij)
  · exact parts.keep_set (Q := Within 0 1) hwithin fun hij hi => within_env 0 1 _ _ hi (hv hij)

theorem settled_set (X : Destination D) (cfg : Config) {i j : ι} {v : World D} (h : Settled b j)
    (hv : j = i → EnvMoves X cfg.blockSize (b.worlds i) v) : Settled (parts.set i v b) j := by
  obtain ⟨s, hturn, hafter⟩ := h
  exact ⟨s, hturn, parts.keep_set (Q := After s) hafter
    fun hij hi => after_env s _ _ hi (hv hij)⟩

theorem ongoing_env {todo : List ι} {b' : Batch ι D} (h : Ongoing selected todo b)
    (he : ((host X cfg.blockSize).parts parts).env b b') : Ongoing selected todo b' := by
  obtain ⟨i, v, hv, rfl⟩ := he
  exact ⟨fun j hj => pending_set X cfg (h.1 j hj) fun _ => hv,
    fun j hj hnot => settled_set X cfg (h.2 j hj hnot) fun _ => hv⟩

/-- One turn. -/
theorem ongoing_turn (cfg : Config) {i : ι} {is : List ι} (hnodup : (i :: is).Nodup)
    (h : Ongoing selected (i :: is) b) :
    Safe ((host X cfg.blockSize).parts parts) (fun _ => True)
      (Post (fun _ => Ongoing selected is) fun _ _ => True)
      ((migrateOutOneRequest cfg).within parts i) (b.takesTurn i) := by
  obtain ⟨hi, his⟩ := List.nodup_cons.mp hnodup
  have hpending := h.1 i List.mem_cons_self
  have hone : Returns X cfg.blockSize (fun _ => After (b.worlds i).request.status)
      (migrateOutOneRequest cfg) (b.worlds i) := returns_oneRequest cfg hpending.2.2 hpending.2.1
  -- The requests before and after this one, which the engines may move in the meantime.
  let F : Batch ι D → Prop := fun c => c.turn i = some (b.worlds i).request.status ∧
    (∀ j ∈ is, Pending c j) ∧ ∀ j ∈ selected, j ≠ i → j ∉ is → Settled c j
  have hF : F (b.takesTurn i) := by
    have hother : ∀ j, j ≠ i → (b.takesTurn i).turn j = b.turn j := fun j hj =>
      Function.update_of_ne hj _ _
    refine ⟨Function.update_self .., fun j hj => ?_, fun j hj hne hnot => ?_⟩
    · have hne : j ≠ i := fun heq => hi (heq ▸ hj)
      have hj' := h.1 j (List.mem_cons_of_mem i hj)
      exact ⟨(hother j hne).trans hj'.1, hj'.2⟩
    · obtain ⟨s, hturn, hafter⟩ := h.2 j hj (by simp [hne, hnot])
      exact ⟨s, (hother j hne).trans hturn, hafter⟩
  have hsafe := Safe.within (P := parts) (w := b.takesTurn i) (i := i) hone hF ?_ ?_
  · refine (hsafe.weaken fun _ _ => trivial).mono fun r c hc => ?_
    cases r with
    | error e => trivial
    | ok moved =>
      obtain ⟨hafter, hturn, hpend, hsettled⟩ := hc
      refine ⟨hpend, fun j hj hnot => ?_⟩
      by_cases hji : j = i
      · subst hji
        exact ⟨_, hturn, hafter⟩
      · exact hsettled j hj hji hnot
  · rintro j v c ⟨hturn, hpend, hsettled⟩ hv
    exact ⟨hturn, fun k hk => pending_set X cfg (hpend k hk) fun _ => hv,
      fun k hk hne hnot => settled_set X cfg (hsettled k hk hne hnot) fun _ => hv⟩
  · rintro v c ⟨hturn, hpend, hsettled⟩
    refine ⟨hturn, fun k hk => pending_set X cfg (hpend k hk) fun heq => ?_,
      fun k hk hne hnot => settled_set X cfg (hsettled k hk hne hnot) fun heq => ?_⟩
    · exact absurd (heq ▸ hk) hi
    · exact absurd heq hne

theorem ongoing_each (X : Destination D) (cfg : Config) (eom : ι → Bool) {todo : List ι}
    (hnodup : todo.Nodup) (migrated : List String) (h : Ongoing selected todo b) :
    Safe ((host X cfg.blockSize).parts parts) (fun _ => True)
      (Post (fun _ b => ∃ left, Ongoing selected left b) fun _ _ => True)
      (migrateEach cfg eom todo migrated) b := by
  have hret : ∀ {left : List ι} {b : Batch ι D} (a : List String), Ongoing selected left b →
      Safe ((host X cfg.blockSize).parts parts) (fun _ => True)
        (Post (fun _ b => ∃ left, Ongoing selected left b) fun _ _ => True) (.ret a) b :=
    fun a h => .retOf h (fun _ _ h he => ongoing_env h he) fun _ h => ⟨trivial, _, h⟩
  induction todo generalizing b migrated with
  | nil => exact hret migrated h
  | cons i is ih =>
    refine .write trivial (Safe.seq (ongoing_turn cfg hnodup h) fun moved c hc => ?_)
    split
    · exact hret _ hc
    · exact ih (List.nodup_cons.mp hnodup).2 _ hc

/-- When `migrate_out` returns, the flags of the requests that are still on this instance are off
exactly if each of them had its turn, and was running or waiting then. -/
theorem migrate_out_clears_flags_iff (X : Destination D) (cfg : Config) (eom : ι → Bool)
    (hnodup : selected.Nodup) {b b' : Batch ι D} (hturn : ∀ i, b.turn i = none)
    (hhome : ∀ i ∈ selected, Within 0 1 (b.worlds i)) {migrated : List String}
    (hends : ((host X cfg.blockSize).parts parts).Ends (migrateOut cfg eom selected) b
      (.ok migrated) b') :
    (∀ i ∈ selected, Here (b'.worlds i) → (b'.worlds i).request.isMigrating = false) ↔
      ∀ i ∈ selected, Here (b'.worlds i) →
        b'.turn i = some .running ∨ b'.turn i = some .waiting := by
  have hongoing : ∃ left, Ongoing selected left b' := by
    have hsafe : Safe ((host X cfg.blockSize).parts parts) (fun _ => True)
        (Post (fun _ b => ∃ left, Ongoing selected left b) fun _ _ => True)
        (migrateOut cfg eom selected) b := by
      unfold migrateOut
      split
      · rename_i hnil
        subst hnil
        exact .ret fun _ _ => ⟨trivial, [], nofun, nofun⟩
      · refine .write trivial (ongoing_each X cfg eom hnodup [] ⟨fun i hi => ?_, ?_⟩)
        · have hworld : (b.mark selected).worlds i = setMigrating (b.worlds i) := if_pos hi
          refine ⟨hturn i, ?_, ?_⟩
          · rw [hworld]
            rfl
          · rw [hworld]
            exact hhome i hi
        · exact fun i hi hnot => absurd hi hnot
    exact hsafe.ends hends
  obtain ⟨left, hpending, hsettled⟩ := hongoing
  refine forall_congr' fun i => imp_congr_right fun hi => imp_congr_right fun hhere => ?_
  by_cases hleft : i ∈ left
  · obtain ⟨hnone, hflag, -⟩ := hpending i hleft
    rw [hnone, hflag]
    simp
  · obtain ⟨s, hs, hafter⟩ := hsettled i hi hleft
    rw [hs]
    rcases hafter with ⟨hserved, hoff | hgone⟩ | ⟨hserved, hflag⟩
    · refine iff_of_true hoff ?_
      rcases hserved with rfl | rfl
      · exact .inl rfl
      · exact .inr rfl
    · have hnot : ¬Here (b'.worlds i) := by
        obtain ⟨hlist, hentries⟩ := hgone
        unfold Here
        omega
      exact absurd hhere hnot
    · refine iff_of_false ?_ ?_
      · rw [hflag]
        exact nofun
      · rintro (hs' | hs') <;> cases hs'
        · exact hserved (.inl rfl)
        · exact hserved (.inr rfl)

end Batch

section Sample
open Conserve

/-- A waiting request, and after it a running one. -/
def sampleBatch : Batch Bool Queues where
  worlds i := if i then sampleWorld .running 1 0 else sampleWorld .waiting 0 1
  turn _ := none

abbrev sampleHost : Host (Batch Bool Queues) (Bool × Call) (fun c => c.2.Reply) Exc :=
  (host (destination false) 2).parts parts

/-- The engine loop answers, or the destination refuses. -/
def refused : Cue sampleHost := (answers (sampleAnswer [])).within parts false

def swapped : Cue sampleHost := Cue.within (S := host (destination false) 2) parts true <|
  .env fun w => if h : 0 < w.running then
    some ⟨_, .swapOut w (w.now + 1) [] h (Nat.lt_succ_self _)⟩ else none

/-- The flag stays on: of a request whose turn never came, and of one that was neither running nor
waiting when it came. -/
theorem flag_left_on :
    (∃ b, sampleHost.Ends (migrateOut (sampleConfig 1 false) (fun i => !i) [false, true])
      sampleBatch (.ok []) b ∧ Here (b.worlds true) ∧ (b.worlds true).request.isMigrating = true) ∧
    ∃ b, sampleHost.Ends (migrateOut (sampleConfig 1 false) (fun _ => false) [false, true])
      sampleBatch (.ok []) b ∧ Here (b.worlds true) ∧
        (b.worlds true).request.isMigrating = true := by
  refine ⟨⟨_, ends_replay [refused] rfl, ?_, rfl⟩, _, ends_replay [swapped, refused] rfl, ?_, rfl⟩
  · exact Nat.one_pos
  · exact Nat.one_pos

def sampleBoth : Batch Bool Queues :=
  (sampleHost.replay (migrateOut (sampleConfig 1 false) (fun _ => false) [false, true]) sampleBatch
    (List.replicate 4 refused)).2

theorem migrate_out_clears_flags_iff_sample :
    sampleHost.Ends (migrateOut (sampleConfig 1 false) (fun _ => false) [false, true]) sampleBatch
      (.ok []) sampleBoth ∧
    ∀ i ∈ [false, true], Here (sampleBoth.worlds i) →
      (sampleBoth.worlds i).request.isMigrating = false := by
  have hends : sampleHost.Ends (migrateOut (sampleConfig 1 false) (fun _ => false) [false, true])
      sampleBatch (.ok []) sampleBoth := ends_replay (List.replicate 4 refused) rfl
  have hhome : ∀ i ∈ [false, true], Within 0 1 (sampleBatch.worlds i) := by
    intro i _
    cases i with
    | false => exact ⟨rfl, Nat.le_refl _⟩
    | true => exact ⟨rfl, Nat.le_refl _⟩
  have hiff := migrate_out_clears_flags_iff (destination false) (sampleConfig 1 false)
    (fun _ => false) (by decide) (fun _ => rfl) hhome hends
  refine ⟨hends, hiff.mpr fun i _ _ => ?_⟩
  cases i with
  | false => exact .inr rfl
  | true => exact .inl rfl

end Sample
end Llumnix.Legacy.MigrateOut
