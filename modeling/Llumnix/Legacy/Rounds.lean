import Llumnix.Exclusion.Basic
import Llumnix.Machine.Run

/-! The manager's side of legacy migration: the rounds of `_migrate`, the callbacks of the
`migrate_out` calls they issue, and instances coming and going. -/
namespace Llumnix.Legacy.Rounds

open Exclusion Machine

/-- The instance to migrate out of and the one to migrate into. -/
abbrev Pair := String × String

structure State where
  /-- The keys of `instances`. -/
  instances : List String
  /-- `instance_migrating`, with `none` for a missing key. -/
  instanceMigrating : String → Option Bool
  /-- Calls of `migrate_out` that have been issued and have not completed. -/
  issued : List Pair
  /-- Completed calls whose callback has not reset the flags yet. -/
  completed : List Pair
  /-- Instances that have been scaled down. -/
  retired : List String

namespace State

def init : State := ⟨[], fun _ => none, [], [], []⟩

/-- The loop of `_migrate`, without an await. Each pair comes with whether the remote call can
be issued. A missing key, and a call that cannot be issued, raise and end the round. -/
def migrate (s : State) : List (Pair × Bool) → State
  | [] => s
  | (p, ok) :: rest =>
    match s.instanceMigrating p.1, s.instanceMigrating p.2 with
    | none, _ => s
    | some true, _ => s.migrate rest
    | some false, none => s
    | some false, some true => s.migrate rest
    | some false, some false =>
      let s := { s with instanceMigrating := mark p (some true) s.instanceMigrating }
      if p.1 ∈ s.instances ∧ ok = true then { s with issued := s.issued ++ [p] }.migrate rest else s

/-- `if i in self.instance_migrating: self.instance_migrating[i] = False`. -/
def resetFlag (f : String → Option Bool) (i : String) : String → Option Bool :=
  if (f i).isSome then Function.update f i (some false) else f

def scaleUpOne (s : State) (i : String) : State :=
  if i ∈ s.instances then s
  else { s with
    instances := s.instances ++ [i]
    instanceMigrating := Function.update s.instanceMigrating i (some false) }

def scaleDownOne (s : State) (i : String) : State :=
  if i ∈ s.instances then
    { s with
      instances := s.instances.filter (· ≠ i)
      instanceMigrating := Function.update s.instanceMigrating i none
      retired := s.retired ++ [i] }
  else s

def scaleUp (s : State) (ids : List String) : State := ids.foldl scaleUpOne s

def scaleDown (s : State) (ids : List String) : State := ids.foldl scaleDownOne s

end State

/-- What the event loop runs next. A callback that finds an error scales down later, as others
do. -/
inductive Action
  /-- A round of any type, given what `pair_migration` returns. -/
  | migrate (pairs : List (Pair × Bool))
  | complete (n : ℕ)
  | migrateDoneCallback (n : ℕ)
  | scaleUp (ids : List String)
  | scaleDown (ids : List String)
  deriving DecidableEq, Repr

def step (s : State) : Action → Option State
  | .migrate pairs => some (s.migrate pairs)
  | .complete n =>
    match s.issued[n]? with
    | some p => some { s with issued := s.issued.eraseIdx n, completed := s.completed ++ [p] }
    | none => none
  | .migrateDoneCallback n =>
    match s.completed[n]? with
    | some p =>
      some { s with
        instanceMigrating := State.resetFlag (State.resetFlag s.instanceMigrating p.1) p.2
        completed := s.completed.eraseIdx n }
    | none => none
  | .scaleUp ids => some (s.scaleUp ids)
  | .scaleDown ids => some (s.scaleDown ids)

/-- An instance is not registered again after it was scaled down. -/
def Fresh (s : State) : Action → Prop
  | .scaleUp ids => ∀ i ∈ ids, i ∉ s.retired
  | _ => True

instance (s : State) : (a : Action) → Decidable (Fresh s a)
  | .scaleUp ids => inferInstanceAs (Decidable (∀ i ∈ ids, i ∉ s.retired))
  | .migrate _ | .complete _ | .migrateDoneCallback _ | .scaleDown _ => isTrue trivial

/-- Calls for `i` whose callback has not run. -/
def State.pending (s : State) (i : String) : ℕ := load s.issued i + load s.completed i

/-- An instance with a call has its flag set until the callback, unless it is gone. -/
structure Sound (s : State) : Prop where
  single : ∀ i, s.pending i ≤ 1
  marked : ∀ i, 0 < s.pending i →
    s.instanceMigrating i = some true ∨ s.instanceMigrating i = none ∧ i ∈ s.retired
  keyed : ∀ i, s.instanceMigrating i ≠ none → i ∈ s.instances

section Sound
variable {s s' : State} {i : String}

theorem pending_eq_zero (h : Sound s) (hf : s.instanceMigrating i ≠ some true)
    (hr : s.instanceMigrating i = none → i ∉ s.retired) : s.pending i = 0 := by
  have hpos : ¬0 < s.pending i := by
    intro hpos
    rcases h.marked i hpos with ht | ⟨hn, hm⟩
    · exact hf ht
    · exact hr hn hm
  omega

theorem pending_of_unset (h : Sound s) (hf : s.instanceMigrating i = some false) :
    s.pending i = 0 := by
  refine pending_eq_zero h ?_ ?_ <;> rw [hf] <;> nofun

theorem sound_mark (h : Sound s) {p : Pair} (h1 : s.instanceMigrating p.1 = some false)
    (h2 : s.instanceMigrating p.2 = some false) :
    Sound { s with instanceMigrating := mark p (some true) s.instanceMigrating } := by
  refine ⟨h.single, fun j hj => ?_, fun j hj => ?_⟩
  · by_cases hu : Uses p j
    · exact .inl (mark_of_uses hu)
    · change mark p (some true) s.instanceMigrating j = _ ∨ mark p (some true) _ j = _ ∧ _
      rw [mark_of_not_uses hu]
      exact h.marked j hj
  · refine h.keyed j ?_
    by_cases hu : Uses p j
    · rcases hu with rfl | rfl
      · rw [h1]
        nofun
      · rw [h2]
        nofun
    · change mark p (some true) s.instanceMigrating j ≠ none at hj
      rwa [mark_of_not_uses hu] at hj

theorem sound_issue (h : Sound s) {p : Pair} (h1 : s.pending p.1 = 0) (h2 : s.pending p.2 = 0)
    (ht1 : s.instanceMigrating p.1 = some true) (ht2 : s.instanceMigrating p.2 = some true) :
    Sound { s with issued := s.issued ++ [p] } := by
  have hpending : ∀ j, State.pending { s with issued := s.issued ++ [p] } j =
      s.pending j + load [p] j := by
    intro j
    change load (s.issued ++ [p]) j + load s.completed j =
      load s.issued j + load s.completed j + load [p] j
    rw [load_append]
    omega
  refine ⟨fun j => ?_, fun j hj => ?_, h.keyed⟩
  · rw [hpending j]
    by_cases hu : Uses p j
    · have h0 : s.pending j = 0 := by
        rcases hu with rfl | rfl
        · exact h1
        · exact h2
      have hone := load_singleton_of_uses hu
      omega
    · rw [load_singleton_of_not_uses hu]
      exact h.single j
  · by_cases hu : Uses p j
    · rcases hu with rfl | rfl
      · exact .inl ht1
      · exact .inl ht2
    · rw [hpending j, load_singleton_of_not_uses hu] at hj
      exact h.marked j hj

theorem sound_migrate (pairs : List (Pair × Bool)) (h : Sound s) : Sound (s.migrate pairs) := by
  induction pairs generalizing s with
  | nil => exact h
  | cons q rest ih =>
    obtain ⟨p, ok⟩ := q
    unfold State.migrate
    split
    · exact h
    · exact ih h
    · exact h
    · exact ih h
    · rename_i h1 h2
      have hmark := sound_mark h h1 h2
      have hp1 : s.pending p.1 = 0 := pending_of_unset h h1
      have hp2 : s.pending p.2 = 0 := pending_of_unset h h2
      dsimp only
      split
      · exact ih (sound_issue hmark hp1 hp2 (mark_of_uses (.inl rfl)) (mark_of_uses (.inr rfl)))
      · exact hmark

theorem resetFlag_of_ne {f : String → Option Bool} {j : String} (h : j ≠ i) :
    State.resetFlag f i j = f j := by
  unfold State.resetFlag
  split
  · exact Function.update_of_ne h _ _
  · rfl

theorem resetFlag_eq_none {f : String → Option Bool} {j : String} (h : f j = none) :
    State.resetFlag f i j = none := by
  by_cases hj : j = i
  · subst hj
    unfold State.resetFlag
    rw [h]
    exact h
  · rw [resetFlag_of_ne hj, h]

theorem sound_complete {n : ℕ} {p : Pair} (h : Sound s) (hn : s.issued[n]? = some p) :
    Sound { s with issued := s.issued.eraseIdx n, completed := s.completed ++ [p] } := by
  have hpending : ∀ j, State.pending
      { s with issued := s.issued.eraseIdx n, completed := s.completed ++ [p] } j =
      s.pending j := by
    intro j
    have hload := load_eraseIdx (i := j) hn
    change load (s.issued.eraseIdx n) j + load (s.completed ++ [p]) j =
      load s.issued j + load s.completed j
    rw [load_append]
    omega
  refine ⟨fun j => ?_, fun j hj => ?_, h.keyed⟩
  · rw [hpending j]
    exact h.single j
  · rw [hpending j] at hj
    exact h.marked j hj

/-- A callback resets the flags of no other call. -/
theorem sound_callback {n : ℕ} {p : Pair} (h : Sound s) (hn : s.completed[n]? = some p) :
    Sound { s with
      instanceMigrating := State.resetFlag (State.resetFlag s.instanceMigrating p.1) p.2
      completed := s.completed.eraseIdx n } := by
  have hload : ∀ j, load s.completed j = load [p] j + load (s.completed.eraseIdx n) j :=
    fun j => load_eraseIdx hn
  refine ⟨fun j => ?_, fun j hj => ?_, fun j hj => h.keyed j fun hnone => hj ?_⟩
  · have hsingle := h.single j
    unfold State.pending at hsingle ⊢
    rw [hload j] at hsingle
    change load s.issued j + load (s.completed.eraseIdx n) j ≤ 1
    omega
  · change 0 < load s.issued j + load (s.completed.eraseIdx n) j at hj
    have hsingle := h.single j
    have hmarked := h.marked j
    unfold State.pending at hsingle hmarked
    rw [hload j] at hsingle hmarked
    have hu : ¬Uses p j :=
      not_uses_of_load (n := load s.issued j + load (s.completed.eraseIdx n) j) (by omega) hj
    have h1 : j ≠ p.1 := fun he => hu (.inl he.symm)
    have h2 : j ≠ p.2 := fun he => hu (.inr he.symm)
    change State.resetFlag (State.resetFlag s.instanceMigrating p.1) p.2 j = _ ∨
      State.resetFlag (State.resetFlag s.instanceMigrating p.1) p.2 j = _ ∧ _
    rw [resetFlag_of_ne h2, resetFlag_of_ne h1]
    exact hmarked (by omega)
  · exact resetFlag_eq_none (resetFlag_eq_none hnone)

theorem sound_scaleUpOne (h : Sound s) (hi : i ∉ s.retired) : Sound (s.scaleUpOne i) := by
  unfold State.scaleUpOne
  split
  · exact h
  rename_i hm
  have hnone : s.instanceMigrating i = none := Decidable.not_not.mp fun hf => hm (h.keyed i hf)
  have hpending : s.pending i = 0 := by
    refine pending_eq_zero h ?_ fun _ => hi
    rw [hnone]
    nofun
  refine ⟨h.single, fun j hj => ?_, fun j hj => ?_⟩
  · change 0 < s.pending j at hj
    have hne : j ≠ i := by
      rintro rfl
      omega
    change Function.update s.instanceMigrating i (some false) j = _ ∨
      Function.update s.instanceMigrating i (some false) j = _ ∧ _
    rw [Function.update_of_ne hne]
    exact h.marked j hj
  · by_cases hne : j = i
    · rw [hne]
      exact List.mem_append_right _ List.mem_cons_self
    · change Function.update s.instanceMigrating i (some false) j ≠ none at hj
      rw [Function.update_of_ne hne] at hj
      exact List.mem_append_left _ (h.keyed j hj)

theorem retired_scaleUpOne : (s.scaleUpOne i).retired = s.retired := by
  unfold State.scaleUpOne
  split <;> rfl

theorem sound_scaleUp (ids : List String) (h : Sound s) (hids : ∀ i ∈ ids, i ∉ s.retired) :
    Sound (s.scaleUp ids) := by
  induction ids generalizing s with
  | nil => exact h
  | cons i ids ih =>
    refine ih (sound_scaleUpOne h (hids i List.mem_cons_self)) fun j hj => ?_
    rw [retired_scaleUpOne]
    exact hids j (List.mem_cons_of_mem _ hj)

theorem sound_scaleDownOne (h : Sound s) : Sound (s.scaleDownOne i) := by
  unfold State.scaleDownOne
  split
  · refine ⟨h.single, fun j hj => ?_, fun j hj => ?_⟩
    · change Function.update s.instanceMigrating i none j = _ ∨
        Function.update s.instanceMigrating i none j = _ ∧ j ∈ s.retired ++ [i]
      by_cases hne : j = i
      · rw [hne, Function.update_self]
        exact .inr ⟨rfl, List.mem_append_right _ List.mem_cons_self⟩
      · rw [Function.update_of_ne hne]
        exact (h.marked j hj).imp id fun hr => ⟨hr.1, List.mem_append_left _ hr.2⟩
    · change Function.update s.instanceMigrating i none j ≠ none at hj
      have hne : j ≠ i := by
        rintro rfl
        exact hj (Function.update_self _ _ _)
      rw [Function.update_of_ne hne] at hj
      exact List.mem_filter.mpr ⟨h.keyed j hj, by simpa using hne⟩
  · exact h

theorem sound_scaleDown (ids : List String) (h : Sound s) : Sound (s.scaleDown ids) := by
  induction ids generalizing s with
  | nil => exact h
  | cons i ids ih => exact ih (sound_scaleDownOne h)

theorem sound_step {a : Action} (h : Sound s) (hok : Fresh s a) (hs : step s a = some s') :
    Sound s' := by
  cases a with
  | migrate pairs =>
    cases hs
    exact sound_migrate pairs h
  | complete n =>
    simp only [step] at hs
    split at hs
    · cases hs
      exact sound_complete h ‹_›
    · cases hs
  | migrateDoneCallback n =>
    simp only [step] at hs
    split at hs
    · cases hs
      exact sound_callback h ‹_›
    · cases hs
  | scaleUp ids =>
    cases hs
    exact sound_scaleUp ids h hok
  | scaleDown ids =>
    cases hs
    exact sound_scaleDown ids h

theorem sound_init : Sound State.init :=
  ⟨fun _ => Nat.zero_le _, fun _ h => absurd h (Nat.lt_irrefl 0), fun _ h => absurd rfl h⟩

end Sound

/-- However rounds, completions, callbacks and scaling interleave, an instance takes part in
at most one `migrate_out` that has been issued and has not completed. -/
theorem one_migrate_out_at_a_time {s : State} {as : List Action}
    (hok : Meets step Fresh State.init as) (hrun : run step State.init as = some s) :
    Exclusive s.issued := by
  have h : Sound s := run_invariant (fun _ _ _ => sound_step) sound_init hok hrun
  intro i
  have hi := h.single i
  unfold State.pending at hi
  omega

/-- The second round skips the busy instances and ends at the one that is gone; the callback
of the first pair resets the flag of `a` only. -/
def sampleActions : List Action :=
  [.scaleUp ["a", "b", "c", "d"], .migrate [(("a", "b"), true), (("a", "c"), true)],
    .scaleDown ["b"], .migrate [(("c", "d"), true), (("d", "b"), true), (("b", "a"), true)],
    .complete 0, .migrateDoneCallback 0, .migrate [(("a", "c"), true)]]

theorem one_migrate_out_at_a_time_sample :
    ∃ s, run step State.init sampleActions = some s ∧ s.issued = [("c", "d")] ∧
      Exclusive s.issued := by
  have hfresh : Meets step Fresh State.init sampleActions := by decide
  exact ⟨_, rfl, rfl, one_migrate_out_at_a_time hfresh rfl⟩

end Llumnix.Legacy.Rounds
