import Llumnix.Exclusion.Basic
import Llumnix.Machine.Run

/-! The rounds of V1 migration as tasks of the manager's event loop: `_push_migrations_v1`,
`_migrate_v1` and `_migrate_v1_pair`. A round looks at the busy flags when it collects its
pairs; a pair sets them when its own task first runs. -/
namespace Llumnix.V1.PairTasks

open Exclusion Machine

inductive PairMigrationConstraints
  | noConstraints
  | decoding2Decoding
  | prefill2Decoding
  deriving DecidableEq, Repr

abbrev Pair := String × String

/-- A task that has been created and has not run yet. -/
inductive Task
  | migrateV1 (pairMigrationType : PairMigrationConstraints)
  | migrateV1Pair (p : Pair)
  deriving DecidableEq, Repr

def Task.pair : Task → Option Pair
  | .migrateV1 _ => none
  | .migrateV1Pair p => some p

structure State where
  /-- `instance_migrating`, with `none` for a missing key. -/
  instanceMigrating : String → Option Bool
  ready : List Task
  /-- Executions of `_migrate_v1_pair` from the setting of the flags to the `finally` block. -/
  active : List Pair

namespace State

/-- Pairs whose task has been created and has not set the flags yet. -/
def created (s : State) : List Pair := s.ready.filterMap Task.pair

/-- The check of `_migrate_v1`. -/
def busy (s : State) (p : Pair) : Bool :=
  s.instanceMigrating p.1 == some true || s.instanceMigrating p.2 == some true

def collect (s : State) (pairs : List Pair) : List Pair := pairs.filter fun p => !s.busy p

end State

/-- What the event loop runs next. Any ready task may have its turn, and an execution of
`_migrate_v1_pair` may come to its end at any time. -/
inductive Action
  | pushMigrationsV1
  /-- A round, given what `pair_migration_v1` returns. -/
  | migrateV1 (n : ℕ) (pairs : List Pair)
  | migrateV1Pair (n : ℕ)
  | finish (n : ℕ)
  deriving DecidableEq, Repr

def rounds (enablePdDisagg : Bool) : List Task :=
  if enablePdDisagg then [.migrateV1 .prefill2Decoding, .migrateV1 .decoding2Decoding]
  else [.migrateV1 .noConstraints]

def step (enablePdDisagg : Bool) (s : State) : Action → Option State
  | .pushMigrationsV1 => some { s with ready := s.ready ++ rounds enablePdDisagg }
  | .migrateV1 n pairs =>
    match s.ready[n]? with
    | some (.migrateV1 _) =>
      some { s with ready := s.ready.eraseIdx n ++ (s.collect pairs).map .migrateV1Pair }
    | _ => none
  | .migrateV1Pair n =>
    match s.ready[n]? with
    | some (.migrateV1Pair p) =>
      some {
        instanceMigrating := mark p (some true) s.instanceMigrating
        ready := s.ready.eraseIdx n
        active := s.active ++ [p] }
    | _ => none
  | .finish n =>
    match s.active[n]? with
    | some p =>
      some { s with
        instanceMigrating := mark p (some false) s.instanceMigrating
        active := s.active.eraseIdx n }
    | none => none

/-- No instance is in two executions, and the flags of those in one are set. -/
def OneAtATime (s : State) : Prop :=
  Exclusive s.active ∧
    ∀ p ∈ s.active, s.instanceMigrating p.1 = some true ∧ s.instanceMigrating p.2 = some true

/-- A round collects no two pairs with a common instance, and none that has one in common
with a pair that was created before and has not set the flags yet. -/
def Spaced (s : State) : Action → Prop
  | .migrateV1 _ pairs => Exclusive (s.created ++ s.collect pairs)
  | _ => True

instance (s : State) : (a : Action) → Decidable (Spaced s a)
  | .migrateV1 _ pairs => inferInstanceAs (Decidable (Exclusive (s.created ++ s.collect pairs)))
  | .pushMigrationsV1 | .migrateV1Pair _ | .finish _ => isTrue trivial

/-- At most one task is concerned with an instance, from the check to the `finally` block. -/
structure Sound (s : State) : Prop where
  single : ∀ i, load s.created i + load s.active i ≤ 1
  marked : ∀ i, 0 < load s.active i → s.instanceMigrating i = some true

section Step
variable {pd : Bool} {s s' : State} {a : Action} {n : ℕ}

theorem step_cases (h : step pd s a = some s') :
    (a = .pushMigrationsV1 ∧ s' = { s with ready := s.ready ++ rounds pd }) ∨
    (∃ n t pairs, a = .migrateV1 n pairs ∧ s.ready[n]? = some (.migrateV1 t) ∧ s' =
      { s with ready := s.ready.eraseIdx n ++ (s.collect pairs).map .migrateV1Pair }) ∨
    (∃ n p, a = .migrateV1Pair n ∧ s.ready[n]? = some (.migrateV1Pair p) ∧
      s' = ⟨mark p (some true) s.instanceMigrating, s.ready.eraseIdx n, s.active ++ [p]⟩) ∨
    ∃ n p, a = .finish n ∧ s.active[n]? = some p ∧ s' =
      { s with
        instanceMigrating := mark p (some false) s.instanceMigrating
        active := s.active.eraseIdx n } := by
  cases a with
  | pushMigrationsV1 => exact .inl ⟨rfl, (Option.some.inj h).symm⟩
  | migrateV1 n pairs =>
    simp only [step] at h
    split at h
    · exact .inr (.inl ⟨n, _, pairs, rfl, ‹_›, (Option.some.inj h).symm⟩)
    · cases h
  | migrateV1Pair n =>
    simp only [step] at h
    split at h
    · exact .inr (.inr (.inl ⟨n, _, rfl, ‹_›, (Option.some.inj h).symm⟩))
    · cases h
  | finish n =>
    simp only [step] at h
    split at h
    · exact .inr (.inr (.inr ⟨n, _, rfl, ‹_›, (Option.some.inj h).symm⟩))
    · cases h

theorem filterMap_pair_rounds : (rounds pd).filterMap Task.pair = [] := by
  cases pd <;> rfl

theorem filterMap_pair_map (ps : List Pair) :
    (ps.map Task.migrateV1Pair).filterMap Task.pair = ps := by
  rw [List.filterMap_map]
  exact List.filterMap_some

theorem created_perm {t : Task} (h : s.ready[n]? = some t) :
    s.created.Perm (t.pair.toList ++ (s.ready.eraseIdx n).filterMap Task.pair) := by
  obtain ⟨hn, rfl⟩ := List.getElem?_eq_some_iff.mp h
  have hp := (List.getElem_cons_eraseIdx_perm hn).filterMap Task.pair
  rw [List.filterMap_cons] at hp
  cases ht : s.ready[n].pair with
  | none =>
    rw [ht] at hp
    exact hp.symm
  | some p =>
    rw [ht] at hp
    exact hp.symm

theorem load_created_round {t : PairMigrationConstraints} (h : s.ready[n]? = some (.migrateV1 t))
    (pairs : List Pair) (i : String) :
    load (State.created { s with
      ready := s.ready.eraseIdx n ++ (s.collect pairs).map .migrateV1Pair }) i =
      load s.created i + load (s.collect pairs) i := by
  have hcreated : load s.created i = load ((s.ready.eraseIdx n).filterMap Task.pair) i :=
    load_perm (created_perm h)
  unfold State.created at hcreated ⊢
  rw [List.filterMap_append, filterMap_pair_map, load_append, hcreated]

theorem load_collect (h : Sound s) (pairs : List Pair) (i : String)
    (hi : 0 < load (s.collect pairs) i) : load s.active i = 0 := by
  obtain ⟨p, hp, hu⟩ := load_pos_iff.mp hi
  have hfree : s.busy p = false := by
    have := (List.mem_filter.mp hp).2
    simpa using this
  have hflag : s.instanceMigrating i ≠ some true := by
    unfold State.busy at hfree
    rw [Bool.or_eq_false_iff, beq_eq_false_iff_ne, beq_eq_false_iff_ne] at hfree
    rcases hu with rfl | rfl
    · exact hfree.1
    · exact hfree.2
  have hpos : ¬0 < load s.active i := fun hpos => hflag (h.marked i hpos)
  omega

theorem sound_push (h : Sound s) : Sound { s with ready := s.ready ++ rounds pd } := by
  refine ⟨fun i => ?_, h.marked⟩
  change load ((s.ready ++ rounds pd).filterMap Task.pair) i + load s.active i ≤ 1
  rw [List.filterMap_append, filterMap_pair_rounds, List.append_nil]
  exact h.single i

/-- What a round collects is kept from the executions by the flags, and from the pairs created
before by the condition. -/
theorem sound_round {t : PairMigrationConstraints} {pairs : List Pair} (h : Sound s)
    (hn : s.ready[n]? = some (.migrateV1 t)) (hok : Exclusive (s.created ++ s.collect pairs)) :
    Sound { s with ready := s.ready.eraseIdx n ++ (s.collect pairs).map .migrateV1Pair } := by
  refine ⟨fun i => ?_, h.marked⟩
  have hspaced := hok i
  have hsingle := h.single i
  have hcollect := load_collect h pairs i
  rw [load_append] at hspaced
  rw [load_created_round hn pairs i]
  change load s.created i + load (s.collect pairs) i + load s.active i ≤ 1
  omega

theorem sound_start {p : Pair} (h : Sound s) (hn : s.ready[n]? = some (.migrateV1Pair p)) :
    Sound ⟨mark p (some true) s.instanceMigrating, s.ready.eraseIdx n, s.active ++ [p]⟩ := by
  have hcreated : ∀ i, load s.created i =
      load [p] i + load ((s.ready.eraseIdx n).filterMap Task.pair) i := fun i =>
    (load_perm (created_perm hn)).trans load_append
  refine ⟨fun i => ?_, fun i hi => ?_⟩
  · have hsingle := h.single i
    rw [hcreated i] at hsingle
    change load ((s.ready.eraseIdx n).filterMap Task.pair) i + load (s.active ++ [p]) i ≤ 1
    rw [load_append]
    omega
  · by_cases hu : Uses p i
    · exact mark_of_uses hu
    · change 0 < load (s.active ++ [p]) i at hi
      rw [load_append, load_singleton_of_not_uses hu] at hi
      exact (mark_of_not_uses hu).trans (h.marked i hi)

theorem sound_finish {p : Pair} (h : Sound s) (hn : s.active[n]? = some p) :
    Sound { s with
      instanceMigrating := mark p (some false) s.instanceMigrating
      active := s.active.eraseIdx n } := by
  have hactive : ∀ i, load s.active i = load [p] i + load (s.active.eraseIdx n) i :=
    fun i => load_eraseIdx hn
  refine ⟨fun i => ?_, fun i hi => ?_⟩
  · have hsingle := h.single i
    rw [hactive i] at hsingle
    change load s.created i + load (s.active.eraseIdx n) i ≤ 1
    omega
  · change 0 < load (s.active.eraseIdx n) i at hi
    have hsingle := h.single i
    have hi' := hactive i
    have hu : ¬Uses p i := not_uses_of_load (n := load (s.active.eraseIdx n) i) (by omega) hi
    exact (mark_of_not_uses hu).trans (h.marked i (by omega))

theorem sound_step (h : Sound s) (hok : Spaced s a) (hs : step pd s a = some s') : Sound s' := by
  obtain ⟨rfl, rfl⟩ | ⟨n, t, pairs, rfl, hn, rfl⟩ | ⟨n, p, rfl, hn, rfl⟩ | ⟨n, p, rfl, hn, rfl⟩ :=
    step_cases hs
  · exact sound_push h
  · exact sound_round h hn hok
  · exact sound_start h hn
  · exact sound_finish h hn

theorem oneAtATime_of_sound (h : Sound s) : OneAtATime s := by
  refine ⟨fun i => ?_, fun p hp => ⟨?_, ?_⟩⟩
  · have := h.single i
    omega
  · exact h.marked p.1 (load_pos_iff.mpr ⟨p, hp, .inl rfl⟩)
  · exact h.marked p.2 (load_pos_iff.mpr ⟨p, hp, .inr rfl⟩)

end Step

def Idle (s : State) : Prop := s.ready = [] ∧ s.active = []

instance (s : State) : Decidable (Idle s) := inferInstanceAs (Decidable (_ ∧ _))

/-- As long as no round collects a pair next to one that is still to set its flags, an
instance is in one migration at a time. -/
theorem one_migration_at_a_time (pd : Bool) {s s' : State} {as : List Action} (hs : Idle s)
    (hok : Meets (step pd) Spaced s as) (hrun : run (step pd) s as = some s') : OneAtATime s' := by
  have hsound : Sound s := by
    obtain ⟨hr, ha⟩ := hs
    constructor
    · intro i
      unfold State.created
      rw [hr, ha]
      exact Nat.zero_le _
    · intro i hi
      rw [ha] at hi
      exact absurd hi (Nat.lt_irrefl 0)
  exact oneAtATime_of_sound (run_invariant (fun _ _ _ => sound_step) hsound hok hrun)

/-! The condition is needed: whatever has been created can run next. -/
section Collision

theorem exists_ready_of_created {s : State} {p : Pair} (h : p ∈ s.created) :
    ∃ n : ℕ, s.ready[n]? = some (.migrateV1Pair p) := by
  obtain ⟨t, ht, hp⟩ := List.mem_filterMap.mp h
  obtain ⟨n, hn⟩ := List.mem_iff_getElem?.mp ht
  refine ⟨n, hn.trans ?_⟩
  cases t with
  | migrateV1 => cases hp
  | migrateV1Pair q => rw [Option.some.inj hp]

theorem starts_created (pd : Bool) (s : State) : ∃ as s', run (step pd) s as = some s' ∧
    ∀ i, load s'.active i = load s.created i + load s.active i := by
  generalize hk : s.created.length = k
  induction k generalizing s with
  | zero =>
    refine ⟨[], s, rfl, fun i => ?_⟩
    rw [List.length_eq_zero_iff.mp hk]
    exact (Nat.zero_add _).symm
  | succ k ih =>
    obtain ⟨p, rest, hcreated⟩ := List.exists_cons_of_length_eq_add_one hk
    obtain ⟨n, hn⟩ := exists_ready_of_created (s := s) (p := p) (by simp [hcreated])
    let t : State := ⟨mark p (some true) s.instanceMigrating, s.ready.eraseIdx n, s.active ++ [p]⟩
    have hstep : step pd s (.migrateV1Pair n) = some t := by
      simp only [step, hn]
      rfl
    have hperm : s.created.Perm (p :: t.created) := created_perm hn
    have hlen := hperm.length_eq
    rw [List.length_cons] at hlen
    obtain ⟨as, s', hrun, hload⟩ := ih t (by omega)
    refine ⟨.migrateV1Pair n :: as, s', ?_, fun i => ?_⟩
    · unfold run
      rw [hstep]
      exact hrun
    · have hp : load s.created i = load ([p] ++ t.created) i := load_perm hperm
      have ha : load t.active i = load s.active i + load [p] i := load_append
      rw [load_append] at hp
      rw [hload i, hp, ha]
      omega

theorem collides_of_not_spaced {pd : Bool} {s s' : State} {n : ℕ} {pairs : List Pair}
    (hs : step pd s (.migrateV1 n pairs) = some s') (h : ¬Spaced s (.migrateV1 n pairs)) :
    ∃ as s'', run (step pd) s' as = some s'' ∧ ¬Exclusive s''.active := by
  obtain ⟨as, s'', hrun, hload⟩ := starts_created pd s'
  refine ⟨as, s'', hrun, fun hex => h fun i => ?_⟩
  have hi := hex i
  rw [hload i] at hi
  obtain ⟨ha, -⟩ | ⟨m, t, ps, ha, hm, rfl⟩ | ⟨m, p, ha, -⟩ | ⟨m, p, ha, -⟩ := step_cases hs
  · cases ha
  · cases ha
    rw [load_created_round hm pairs i] at hi
    rw [load_append]
    omega
  · cases ha
  · cases ha

end Collision

/-! Two decoding instances and a prefill instance; both rounds of a push choose `d2`. -/
section Sample

def sample : State where
  instanceMigrating _ := some false
  ready := []
  active := []

/-- Every task runs in the order of its creation. -/
def sampleActions : List Action :=
  [.pushMigrationsV1, .migrateV1 0 [("p", "d2")], .migrateV1 0 [("d1", "d2")],
    .migrateV1Pair 0, .migrateV1Pair 0]

/-- Both rounds pass the check before either pair sets the flags. The first to finish resets
the flag of `d2` under the other. -/
theorem two_migrations_of_one_instance :
    Idle sample ∧
      (∃ s, run (step true) sample sampleActions = some s ∧ ¬Exclusive s.active) ∧
      ∃ s, run (step true) sample (sampleActions ++ [.finish 0]) = some s ∧
        ("d1", "d2") ∈ s.active ∧ s.instanceMigrating "d2" = some false :=
  ⟨by decide, ⟨_, rfl, by decide⟩, ⟨_, rfl, by decide, by decide⟩⟩

/-- The pair of the first round has started when the second looks at the flags. -/
def spacedActions : List Action :=
  [.pushMigrationsV1, .migrateV1 0 [("p", "d2")], .migrateV1Pair 1,
    .migrateV1 0 [("d1", "d2"), ("d4", "d3")], .migrateV1Pair 0]

theorem one_migration_at_a_time_sample :
    ∃ s, run (step true) sample spacedActions = some s ∧
      s.active = [("p", "d2"), ("d4", "d3")] ∧ OneAtATime s := by
  have hidle : Idle sample := by decide
  have hspaced : Meets (step true) Spaced sample spacedActions := by decide
  exact ⟨_, rfl, rfl, one_migration_at_a_time true hidle hspaced rfl⟩

end Sample

end Llumnix.V1.PairTasks
