import Llumnix.V1.Coordinator

/-! Completeness of committed imports. `import_blocks` compares only how many blocks it is
given, and `commit_import` does not look at the reservation again, so that a request becomes
RUNNING with the blocks of its snapshot only if the callers see to it. -/
namespace Llumnix.V1.ImportShape

open Machine MigrationCoordinator

/-- Group and ordinal of every block that groups of these sizes have, from `group` on. -/
def positions (group : ℤ) : List ℤ → List (ℤ × ℤ)
  | [] => []
  | count :: counts =>
    (List.range count.toNat).map (fun i : ℕ => (group, (i : ℤ))) ++ positions (group + 1) counts

/-- One block for each ordinal of each group, and no other block. -/
def Complete (counts : List ℤ) (blocks : List KVBlock) : Prop :=
  (blocks.map fun b => (b.group, b.ordinal)).Perm (positions 0 counts)

instance (counts : List ℤ) (blocks : List KVBlock) : Decidable (Complete counts blocks) :=
  inferInstanceAs (Decidable (List.Perm _ _))

/-- The block counts a reservation has been made for. -/
def reservedCounts (reservation : ImportReservation) : List ℤ :=
  reservation.blockIds.map fun ids => (ids.length : ℤ)

/-- What the callers have been given and have committed. -/
structure Ledger where
  /-- The reservations that `reserve_import` has returned, with their snapshots. -/
  made : List (ImportReservation × RequestMigrationSnapshot)
  /-- The reservation whose `commit_import` was the last operation to move the request. -/
  committed : String → Option ImportReservation

def Ledger.empty : Ledger where
  made := []
  committed _ := none

def watch (s : MigrationCoordinator) (op : Op) (g : Ledger) : Ledger where
  made :=
    match op with
    | .reserveImport snapshot => (s.reservation snapshot, snapshot) :: g.made
    | _ => g.made
  committed :=
    match op.target with
    | none => g.committed
    | some r => Function.update g.committed r <|
        match op with
        | .commitImport reservation => some reservation
        | _ => none

/-- A request that became RUNNING through `commit_import` has the whole payload of the
snapshot that its reservation was made from. -/
def CommittedComplete (s : MigrationCoordinator × Ledger) : Prop :=
  ∀ r reservation snapshot, s.2.committed r = some reservation →
    (reservation, snapshot) ∈ s.2.made → s.1.states r = some .running ∧
      ∃ blocks, s.1.imported snapshot.key = some blocks ∧
        Complete snapshot.kvGroupBlockCounts blocks

/-- Blocks that `import_blocks` accepts are complete, and a reservation that `reserve_import`
has returned is committed only while it is the one stored for its request and epoch. -/
def Whole (d : Runtime) (s : MigrationCoordinator × Ledger) : Op → Prop
  | .importBlocks reservation blocks =>
      (Op.importBlocks reservation blocks).Allowed d s.1 →
        Complete (reservedCounts reservation) blocks
  | .commitImport reservation =>
      (∃ snapshot, (reservation, snapshot) ∈ s.2.made) →
        s.1.reservations reservation.key = some reservation
  | _ => True

/-- The request runs, with all blocks if its reservation was made for a snapshot. -/
def Settled (s : MigrationCoordinator × Ledger) (r : String) (reservation : ImportReservation) :
    Prop :=
  reservation.requestId = r ∧ s.1.states r = some .running ∧
    ((∃ snapshot, (reservation, snapshot) ∈ s.2.made) → ∃ blocks,
      s.1.imported reservation.key = some blocks ∧ Complete (reservedCounts reservation) blocks)

structure Sound (s : MigrationCoordinator × Ledger) : Prop where
  made : ∀ p ∈ s.2.made, p.1.key = p.2.key ∧ reservedCounts p.1 = p.2.kvGroupBlockCounts
  payload : ∀ key blocks, s.1.imported key = some blocks → ∃ reservation,
    s.1.reservations key = some reservation ∧ Complete (reservedCounts reservation) blocks
  committed : ∀ r reservation, s.2.committed r = some reservation → Settled s r reservation

theorem map_length_groupIds {counts : List ℤ} (h : ∀ count ∈ counts, 0 ≤ count) (next : ℤ) :
    (groupIds next counts).1.map (fun ids => (ids.length : ℤ)) = counts := by
  induction counts generalizing next with
  | nil => rfl
  | cons count counts ih =>
    have hcount := h count List.mem_cons_self
    have hrest := ih (fun c hc => h c (List.mem_cons_of_mem count hc)) (next + count)
    simp only [groupIds, idRange, List.map_cons, List.length_map, List.length_range, hrest]
    rw [Int.toNat_of_nonneg hcount]

section Step
variable {d : Runtime} {s : MigrationCoordinator} {g : Ledger} {op : Op}

theorem reservedCounts_reservation (snapshot : RequestMigrationSnapshot) :
    reservedCounts (s.reservation snapshot) = snapshot.kvGroupBlockCounts :=
  map_length_groupIds snapshot.kvGroupBlockCounts_nonneg s.nextBlockId

theorem watch_committed_of_ne {r : String} (h : op.target ≠ some r) :
    (watch s op g).committed r = g.committed r := by
  cases hr : op.target with
  | none => simp only [watch, hr]
  | some r' =>
    have hne : r ≠ r' := fun he => h (hr.trans (congrArg some he.symm))
    simp only [watch, hr, Function.update_of_ne hne]

theorem sound_made (h : Sound (s, g)) : ∀ p ∈ (watch s op g).made,
    p.1.key = p.2.key ∧ reservedCounts p.1 = p.2.kvGroupBlockCounts := by
  intro p hp
  simp only [watch] at hp
  split at hp
  · rename_i snapshot
    rcases List.mem_cons.mp hp with rfl | hp
    · exact ⟨rfl, reservedCounts_reservation snapshot⟩
    · exact h.made p hp
  · exact h.made p hp

/-- A payload and the reservation it was accepted for come and go together. -/
theorem sound_payload (h : Sound (s, g)) (hok : Whole d (s, g) op) (hop : op.Allowed d s) :
    ∀ key blocks, (op.after s).imported key = some blocks → ∃ reservation,
      (op.after s).reservations key = some reservation ∧
        Complete (reservedCounts reservation) blocks := by
  intro key blocks hkey
  cases op with
  | importBlocks reservation given =>
    by_cases he : key = reservation.key
    · subst he
      simp only [Op.after, Function.update_self] at hkey
      cases hkey
      exact ⟨reservation, hop.1, hok hop⟩
    · simp only [Op.after, Function.update_of_ne he] at hkey
      exact h.payload key blocks hkey
  | reserveImport snapshot =>
    obtain ⟨reservation, hres, hcomplete⟩ := h.payload key blocks hkey
    have hne : key ≠ snapshot.key := by
      rintro rfl
      rw [hop.2.1] at hres
      cases hres
    simp only [Op.after, Function.update_of_ne hne]
    exact ⟨reservation, hres, hcomplete⟩
  | abort r e =>
    have hne : key ≠ (r, e) := by
      rintro rfl
      simp only [Op.after, dropImport, Function.update_self] at hkey
      cases hkey
    simp only [Op.after, dropImport, Function.update_of_ne hne] at hkey ⊢
    exact h.payload key blocks hkey
  | registerRunning | prepareMigrationOut | exportMigration | commitImport | commitExport
  | importedBlocks | state | sourceBlocks => exact h.payload key blocks hkey

theorem sound_committed_of_ne {r : String} {reservation : ImportReservation} (h : Sound (s, g))
    (hne : op.target ≠ some r) (hc : (watch s op g).committed r = some reservation) :
    Settled (op.after s, watch s op g) r reservation := by
  rw [watch_committed_of_ne hne] at hc
  obtain ⟨rfl, hrun, hpayload⟩ := h.committed r reservation hc
  refine ⟨rfl, (Op.after_of_ne hne).1.trans hrun, ?_⟩
  rintro ⟨snapshot, hmade⟩
  have hold : (reservation, snapshot) ∈ g.made := by
    simp only [watch] at hmade
    split at hmade
    · rcases List.mem_cons.mp hmade with hnew | hold
      · -- the new reservation belongs to the request of the call
        cases hnew
        exact absurd rfl hne
      · exact hold
    · exact hmade
  obtain ⟨blocks, himported, hcomplete⟩ := hpayload ⟨snapshot, hold⟩
  exact ⟨blocks, (Op.after_key_of_ne hne _).2.trans himported, hcomplete⟩

theorem sound_committed_target {r : String} {reservation : ImportReservation} (h : Sound (s, g))
    (hok : Whole d (s, g) op) (hop : op.Allowed d s) (hr : op.target = some r)
    (hc : (watch s op g).committed r = some reservation) :
    Settled (op.after s, watch s op g) r reservation := by
  simp only [watch, hr, Function.update_self] at hc
  split at hc
  · cases hc
    cases hr
    refine ⟨rfl, Function.update_self _ _ _, fun hmade => ?_⟩
    obtain ⟨blocks, himported⟩ := Option.ne_none_iff_exists'.mp hop.2
    obtain ⟨stored, hstored, hcomplete⟩ := h.payload _ blocks himported
    rw [hok hmade] at hstored
    cases hstored
    exact ⟨blocks, himported, hcomplete⟩
  · cases hc

theorem sound_after (h : Sound (s, g)) (hok : Whole d (s, g) op) (hop : op.Allowed d s) :
    Sound (op.after s, watch s op g) := by
  refine ⟨sound_made h, sound_payload h hok hop, fun r reservation hc => ?_⟩
  by_cases hr : op.target = some r
  · exact sound_committed_target h hok hop hr hc
  · exact sound_committed_of_ne h hr hc

theorem committedComplete_of_sound (h : Sound (s, g)) : CommittedComplete (s, g) := by
  intro r reservation snapshot hc hmade
  obtain ⟨-, hrun, hpayload⟩ := h.committed r reservation hc
  obtain ⟨blocks, himported, hcomplete⟩ := hpayload ⟨snapshot, hmade⟩
  obtain ⟨hkey, hcounts⟩ := h.made _ hmade
  change reservation.key = snapshot.key at hkey
  change reservedCounts reservation = snapshot.kvGroupBlockCounts at hcounts
  rw [hkey] at himported
  rw [hcounts] at hcomplete
  exact ⟨hrun, blocks, himported, hcomplete⟩

end Step

/-- In every run whose calls meet the condition, committed imports are complete. -/
theorem committed_imports_complete (d : Runtime) {ops : List Op} {s : MigrationCoordinator × Ledger}
    (hok : Meets (observe d watch) (Whole d) (init, Ledger.empty) ops)
    (hrun : run (observe d watch) (init, Ledger.empty) ops = some s) : CommittedComplete s := by
  have hinit : Sound (init, Ledger.empty) := by
    constructor
    · exact fun p hp => absurd hp List.not_mem_nil
    · intro key blocks hkey
      cases hkey
    · intro r reservation hc
      cases hc
  have hinv := run_invariant (I := fun s => s.1.WellFormed ∧ Sound s)
    (fun t op t' ht hop hstep => observe_preserves ht.1
      (fun _ => ⟨ht.2.made, ht.2.payload, ht.2.committed⟩) (sound_after ht.2 hop) hstep)
    ⟨wellFormed_init, hinit⟩ hok hrun
  exact committedComplete_of_sound hinv.2

section Sample

/-- `r` is imported under epoch 1 with the given blocks and committed. -/
def sampleImport (blocks : List KVBlock) : List Op :=
  [.reserveImport (sampleSnapshot 1), .importBlocks ⟨"r", 1, [[0, 1]]⟩ blocks,
    .commitImport ⟨"r", 1, [[0, 1]]⟩]

def sampleReservation : ImportReservation := ⟨"r", 1, [[0, 1]]⟩

/-- The first block twice and the second not at all: the request is RUNNING nevertheless. -/
theorem committed_with_missing_block : ∃ s,
    run (observe sampleRuntime watch) (init, Ledger.empty)
      (sampleImport [sampleBlock 0, sampleBlock 0]) = some s ∧
      s.1.states "r" = some .running ∧ ¬CommittedComplete s := by
  obtain ⟨s, hrun, hstate, hcommitted, himported, p, hmade, hres, hkey, hcounts⟩ :
      ∃ s ∈ run (observe sampleRuntime watch) (init, Ledger.empty)
        (sampleImport [sampleBlock 0, sampleBlock 0]), s.1.states "r" = some .running ∧
        s.2.committed "r" = some sampleReservation ∧
        s.1.imported ("r", 1) = some [sampleBlock 0, sampleBlock 0] ∧
        ∃ p ∈ s.2.made, p.1 = sampleReservation ∧ p.2.key = ("r", 1) ∧
          p.2.kvGroupBlockCounts = [2] := by decide +kernel
  refine ⟨s, hrun, hstate, fun hcomplete => ?_⟩
  obtain ⟨-, blocks, hblocks, hperm⟩ := hcomplete "r" p.1 p.2 (hres ▸ hcommitted) hmade
  rw [hkey, himported] at hblocks
  cases hblocks
  rw [hcounts] at hperm
  exact (by decide : ¬Complete [2] [sampleBlock 0, sampleBlock 0]) hperm

theorem committed_imports_complete_sample : ∃ s,
    run (observe sampleRuntime watch) (init, Ledger.empty)
      (sampleImport [sampleBlock 1, sampleBlock 0]) = some s ∧
      s.2.committed "r" = some ⟨"r", 1, [[0, 1]]⟩ ∧ CommittedComplete s := by
  obtain ⟨s, hrun, hcommitted⟩ : ∃ s ∈ run (observe sampleRuntime watch) (init, Ledger.empty)
      (sampleImport [sampleBlock 1, sampleBlock 0]),
      s.2.committed "r" = some sampleReservation := by decide +kernel
  have hgiven : Complete [2] [sampleBlock 1, sampleBlock 0] := by decide
  have hstored : ∀ s ∈ run (observe sampleRuntime watch) (init, Ledger.empty)
      [.reserveImport (sampleSnapshot 1),
        .importBlocks ⟨"r", 1, [[0, 1]]⟩ [sampleBlock 1, sampleBlock 0]],
      s.1.reservations ("r", 1) = some sampleReservation := by decide +kernel
  have hok : Meets (observe sampleRuntime watch) (Whole sampleRuntime) (init, Ledger.empty)
      (sampleImport [sampleBlock 1, sampleBlock 0]) := by
    refine ⟨trivial, fun s hs => ⟨fun _ => hgiven, fun t ht => ⟨fun _ => ?_, fun _ _ => trivial⟩⟩⟩
    exact hstored t (by simp [run, hs, ht])
  exact ⟨s, hrun, hcommitted, committed_imports_complete sampleRuntime hok hrun⟩

end Sample

end Llumnix.V1.ImportShape
