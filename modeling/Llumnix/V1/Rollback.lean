import Llumnix.V1.Coordinator

/-! Roll-back of migrations in progress, and what imports may do to requests that live on this
coordinator. `abort` compares its epoch with the snapshot of the last export of the request,
which is never removed; `reserve_import` does not look at the state of the request at all. -/
namespace Llumnix.V1.Rollback

open Machine MigrationCoordinator

/-! ### Roll-back -/

/-- The operation that put a request into the state of a migration. -/
inductive Origin
  | exported (epoch : ℤ) (blocks : List KVBlock)
  | imported (epoch : ℤ)
  deriving DecidableEq

abbrev Origins := String → Option Origin

def watch (_ : MigrationCoordinator) (op : Op) (origins : Origins) : Origins :=
  match op with
  | .prepareMigrationOut snapshot blocks =>
      Function.update origins snapshot.requestId (some (.exported snapshot.migrationEpoch blocks))
  | .reserveImport snapshot =>
      Function.update origins snapshot.requestId (some (.imported snapshot.migrationEpoch))
  | .importBlocks reservation _ =>
      Function.update origins reservation.requestId (some (.imported reservation.migrationEpoch))
  | _ => origins

def start : MigrationCoordinator × Origins := (init, fun _ => none)

/-- `abort(r, e)` succeeds for every migration in progress: an import leaves nothing behind, an
export leaves the request RUNNING with the blocks that `prepare_migration_out` stored. -/
structure RollsBack (s : MigrationCoordinator × Origins) : Prop where
  imports : ∀ r e, s.2 r = some (.imported e) → s.1.Importing r →
    ∃ t, s.1.abort r e = (.ok (), t) ∧ t.states r = none ∧ t.reservations (r, e) = none ∧
      t.imported (r, e) = none
  exports : ∀ r e blocks, s.2 r = some (.exported e blocks) → s.1.Exporting r →
    ∃ t, s.1.abort r e = (.ok (), t) ∧ t.states r = some .running ∧
      (t.getSourceBlocks r).1 = .ok blocks

/-- No export of the request from here has left a snapshot with another epoch. -/
def Unexported (s : MigrationCoordinator) (r : String) (e : ℤ) : Prop :=
  ∀ snapshot ∈ s.snapshots r, snapshot.migrationEpoch = e

/-- An import that is accepted is of a request with no such snapshot. -/
def Unhindered (d : Runtime) (s : MigrationCoordinator × Origins) : Op → Prop
  | .reserveImport snapshot =>
      (Op.reserveImport snapshot).Allowed d s.1 →
        Unexported s.1 snapshot.requestId snapshot.migrationEpoch
  | .importBlocks reservation blocks =>
      (Op.importBlocks reservation blocks).Allowed d s.1 →
        Unexported s.1 reservation.requestId reservation.migrationEpoch
  | _ => True

/-- The tables agree with the record on the exports in progress. -/
def Traced (s : MigrationCoordinator × Origins) : Prop :=
  ∀ r, s.1.Exporting r → ∃ snapshot blocks, s.1.snapshots r = some snapshot ∧
    s.1.sourceBlocks r = some blocks ∧ s.2 r = some (.exported snapshot.migrationEpoch blocks)

section Step
variable {d : Runtime} {s : MigrationCoordinator} {origins : Origins} {op : Op}

theorem watch_of_ne {r : String} (h : op.target ≠ some r) : watch s op origins r = origins r := by
  cases op with
  | prepareMigrationOut snapshot | reserveImport snapshot =>
    have hne : r ≠ snapshot.requestId := fun he => h (congrArg some he.symm)
    exact Function.update_of_ne hne _ _
  | importBlocks reservation =>
    have hne : r ≠ reservation.requestId := fun he => h (congrArg some he.symm)
    exact Function.update_of_ne hne _ _
  | registerRunning | exportMigration | commitImport | commitExport | importedBlocks | abort
  | state | sourceBlocks => rfl

theorem traced_after (h : Traced (s, origins)) (hop : op.Allowed d s) :
    Traced (op.after s, watch s op origins) := by
  intro r hr
  rcases Op.exporting_after hop hr with ⟨snapshot, blocks, rfl, rfl⟩ | ⟨hexp, hother, hkept, hsame⟩
  · refine ⟨snapshot, blocks, ?_, ?_, ?_⟩
    · exact Function.update_self _ _ _
    · exact Function.update_self _ _ _
    · exact Function.update_self _ _ _
  · have hwatch : watch s op origins r = origins r := hother.elim (fun he => he ▸ rfl) watch_of_ne
    obtain ⟨snapshot, blocks, hsnap, hsource, horigin⟩ := h r hexp
    exact ⟨snapshot, blocks, hkept.trans hsnap, hsame.trans hsource, hwatch.trans horigin⟩

theorem abort_eq {r : String} {e : ℤ} (hepoch : Unexported s r e)
    (hstate : s.Exporting r ∨ s.Importing r) :
    s.abort r e = (.ok (), (Op.abort r e).after s) :=
  -- the runtime plays no role in `abort`
  abort_ok (d := ⟨⟨0, 0⟩, fun _ => "", fun _ => []⟩) ⟨hepoch, hstate⟩

theorem not_exporting_of_importing {r : String} (h : s.Importing r) : ¬s.Exporting r := by
  rintro (hx | hx)
  · rcases h with h | h
    · rw [hx] at h
      cases h
    · rw [hx] at h
      cases h
  · rcases h with h | h
    · rw [hx] at h
      cases h
    · rw [hx] at h
      cases h

/-- Exports can always be rolled back, imports where no snapshot is in the way. -/
theorem rollsBack_iff (h : Traced (s, origins)) : RollsBack (s, origins) ↔
    ∀ r e, origins r = some (.imported e) → s.Importing r → Unexported s r e := by
  constructor
  · intro hback r e horigin himp snapshot hsnap
    obtain ⟨t, habort, -⟩ := hback.imports r e horigin himp
    refine Decidable.not_not.mp fun hne => ?_
    have hmismatch : ∃ snapshot ∈ s.snapshots r, snapshot.migrationEpoch ≠ e :=
      ⟨snapshot, hsnap, hne⟩
    change s.abort r e = (.ok (), t) at habort
    unfold MigrationCoordinator.abort at habort
    rw [if_pos hmismatch] at habort
    cases habort
  · intro hclear
    constructor
    · intro r e horigin himp
      have habort := abort_eq (hclear r e horigin himp) (.inr himp)
      refine ⟨_, habort, ?_, ?_, ?_⟩
      · change Function.update s.states r (if s.Exporting r then some .running else none) r = none
        rw [Function.update_self, if_neg (not_exporting_of_importing himp)]
      · exact Function.update_self _ _ _
      · exact Function.update_self _ _ _
    · intro r e blocks horigin hexp
      obtain ⟨snapshot, stored, hsnap, hsource, hrecorded⟩ := h r hexp
      have hsame : Origin.exported snapshot.migrationEpoch stored = .exported e blocks :=
        Option.some.inj (hrecorded.symm.trans horigin)
      have hepoch : Unexported s r e := by
        intro old hold
        cases hsnap.symm.trans hold
        exact (Origin.exported.inj hsame).1
      refine ⟨_, abort_eq hepoch (.inl hexp), ?_, ?_⟩
      · change Function.update s.states r (if s.Exporting r then some .running else none) r =
          some .running
        rw [Function.update_self, if_pos hexp]
      · change Except.ok ((s.sourceBlocks r).getD []) = Except.ok blocks
        change s.sourceBlocks r = some stored at hsource
        rw [hsource, (Origin.exported.inj hsame).2]
        rfl

theorem not_importing_after {r : String} (h : op.target = some r) :
    (op.after s).Importing r → (∃ snapshot, op = .reserveImport snapshot) ∨
      ∃ reservation blocks, op = .importBlocks reservation blocks := by
  intro himp
  cases op with
  | reserveImport snapshot => exact .inl ⟨snapshot, rfl⟩
  | importBlocks reservation blocks => exact .inr ⟨reservation, blocks, rfl⟩
  | importedBlocks | state | sourceBlocks => cases h
  | registerRunning | prepareMigrationOut | exportMigration | commitImport | commitExport =>
    cases h
    simp [Op.after, Importing, setState] at himp
  | abort r' =>
    cases h
    have hstate := Function.update_self r (if s.Exporting r then some .running else none) s.states
    unfold Importing at himp
    simp only [Op.after, setState, dropImport, hstate] at himp
    split at himp
    · simp at himp
    · simp at himp

/-- A successful call leaves the migrations in progress free to be rolled back exactly if it
does not start an import under an old snapshot. -/
theorem rollsBack_after_iff (h : Traced (s, origins)) (hback : RollsBack (s, origins))
    (hop : op.Allowed d s) :
    RollsBack (op.after s, watch s op origins) ↔ Unhindered d (s, origins) op := by
  have hclear := (rollsBack_iff h).mp hback
  rw [rollsBack_iff (traced_after h hop)]
  constructor
  · intro hafter
    cases op with
    | reserveImport snapshot =>
      intro _
      have hepoch := hafter snapshot.requestId snapshot.migrationEpoch
        (Function.update_self _ _ _) (.inl (Function.update_self _ _ _))
      exact hepoch
    | importBlocks reservation blocks =>
      intro _
      have hepoch := hafter reservation.requestId reservation.migrationEpoch
        (Function.update_self _ _ _) (.inr (Function.update_self _ _ _))
      exact hepoch
    | registerRunning | prepareMigrationOut | exportMigration | commitImport | commitExport
    | importedBlocks | abort | state | sourceBlocks => trivial
  · intro hok r e horigin himp
    by_cases hne : op.target = some r
    · obtain ⟨snapshot, rfl⟩ | ⟨reservation, blocks, rfl⟩ := not_importing_after hne himp
      · cases hne
        simp only [watch, Function.update_self] at horigin
        cases horigin
        exact hok hop
      · cases hne
        simp only [watch, Function.update_self] at horigin
        cases horigin
        exact hok hop
    · obtain ⟨hstate, hsnapshots, -⟩ := Op.after_of_ne (s := s) hne
      rw [watch_of_ne hne] at horigin
      unfold Importing at himp
      rw [hstate] at himp
      unfold Unexported
      rw [hsnapshots]
      exact hclear r e horigin himp

end Step

/-- Every migration in progress can be rolled back in every state of the run exactly if the
coordinator accepts no import of a request under the snapshot of an old export. -/
theorem rolls_back_iff_unhindered (d : Runtime) (ops : List Op) :
    Always (observe d watch) RollsBack start ops ↔
      Meets (observe d watch) (Unhindered d) start ops := by
  have htraced : Traced start := by
    rintro r (hr | hr)
    · cases hr
    · cases hr
  have hback : RollsBack start := by
    refine (rollsBack_iff htraced).mpr fun r e horigin _ => ?_
    cases horigin
  refine always_iff_meets (I := fun s => s.1.WellFormed ∧ Traced s)
    (fun s op s' hs _ hstep _ => observe_preserves hs.1 (fun _ => hs.2) (traced_after hs.2) hstep)
    (fun s op hs hP => ?_) ⟨wellFormed_init, htraced⟩ hback
  by_cases hop : op.Allowed d s.1
  · rw [(observe_of_allowed hs.1 hop).1, ← rollsBack_after_iff hs.2 hP hop]
    simp
  · obtain ⟨next, hfails⟩ := observe_of_not_allowed hop
    rw [hfails]
    refine iff_of_true (fun s' hs' => ?_) ?_
    · cases hs'
      -- the tables are the same, so nothing that the equivalence reads has changed
      have hmoved : Traced ({ s.1 with nextBlockId := next }, s.2) := hs.2
      exact (rollsBack_iff hmoved).mpr ((rollsBack_iff hs.2).mp hP)
    · cases op with
      | reserveImport snapshot => exact fun h => absurd h hop
      | importBlocks reservation blocks => exact fun h => absurd h hop
      | registerRunning | prepareMigrationOut | exportMigration | commitImport | commitExport
      | importedBlocks | abort | state | sourceBlocks => trivial

section Sample

/-- `r` is exported under epoch 1 and comes back under epoch 2. -/
def roundTrip : List Op :=
  [.registerRunning "r" [],
    .prepareMigrationOut (sampleSnapshot 1 Int.one_pos) [sampleBlock 0, sampleBlock 1],
    .exportMigration "r", .commitExport "r" 1, .reserveImport (sampleSnapshot 2 secondEpoch_pos)]

/-- The snapshot of the first trip keeps the second from being aborted. -/
theorem return_trip_not_rolled_back : ∃ s,
    run (observe sampleRuntime watch) start roundTrip = some s ∧ s.1.Importing "r" ∧
      (∃ msg, s.1.abort "r" 2 = (.error (.migrationError msg), s.1)) ∧ ¬RollsBack s := by
  obtain ⟨s, hrun, himporting, horigin, hmismatch⟩ :
      ∃ s ∈ run (observe sampleRuntime watch) start roundTrip, s.1.Importing "r" ∧
        s.2 "r" = some (.imported 2) ∧
        ∃ snapshot ∈ s.1.snapshots "r", snapshot.migrationEpoch ≠ 2 := by decide +kernel
  refine ⟨s, hrun, himporting, ⟨_, if_pos hmismatch⟩, fun hback => ?_⟩
  obtain ⟨t, habort, -⟩ := hback.imports "r" 2 horigin himporting
  have hraised := habort.symm.trans (if_pos hmismatch)
  cases hraised

end Sample

/-! ### Requests that live here -/

/-- RUNNING, MIGRATING_OUT or OUT_READY. -/
def Live (s : MigrationCoordinator) (r : String) : Prop :=
  s.states r = some .running ∨ s.Exporting r

instance (s : MigrationCoordinator) (r : String) : Decidable (Live s r) :=
  inferInstanceAs (Decidable (_ ∨ _))

/-- `reserve_import` raises for a live request and leaves all tables as they were, and no live
request changes its state. -/
def SparesLive (d : Runtime) (s : MigrationCoordinator) : Op → Prop
  | .reserveImport snapshot =>
      (Live s snapshot.requestId → ∃ e next,
        s.reserveImport d snapshot = (.error e, { s with nextBlockId := next })) ∧
      ∀ r, Live s r → (s.reserveImport d snapshot).2.states r = s.states r
  | _ => True

/-- A snapshot of a live request is damaged, its epoch has a reservation already, or it has a group
of more blocks than a list can hold. -/
def Refusable (d : Runtime) (s : MigrationCoordinator) : Op → Prop
  | .reserveImport snapshot =>
      Live s snapshot.requestId → ¬snapshot.Intact d ∨ s.reservations snapshot.key ≠ none ∨
        ∃ count ∈ snapshot.kvGroupBlockCounts, ¬d.Builds count
  | _ => True

/-- The calls that the callers of an import make before they have a payload. -/
def reservesOrAborts : Op → Bool
  | .reserveImport _ | .abort _ _ => true
  | _ => false

section Live
variable {d : Runtime} {s : MigrationCoordinator} {op : Op}

theorem not_allowed_of_refusable {snapshot : RequestMigrationSnapshot}
    (h : Refusable d s (.reserveImport snapshot)) (hlive : Live s snapshot.requestId) :
    ¬(Op.reserveImport snapshot).Allowed d s := by
  rintro ⟨hsum, hnone, hbuilds⟩
  rcases h hlive with hbad | hdup | ⟨count, hc, hbad⟩
  · exact hbad hsum
  · exact hdup hnone
  · exact hbad (hbuilds count hc)

theorem refusable_of_not_allowed {snapshot : RequestMigrationSnapshot}
    (h : ¬(Op.reserveImport snapshot).Allowed d s) : Refusable d s (.reserveImport snapshot) := by
  intro _
  by_contra hnone
  simp only [not_or, not_exists, not_and, not_not] at hnone
  exact h hnone

theorem sparesLive_iff : SparesLive d s op ↔ Refusable d s op := by
  cases op with
  | reserveImport snapshot =>
    constructor
    · rintro ⟨hraises, -⟩ hlive
      obtain ⟨e, next, hcall⟩ := hraises hlive
      refine refusable_of_not_allowed (fun hop => ?_) hlive
      cases congrArg Prod.fst ((reserveImport_ok hop).symm.trans hcall)
    · intro h
      refine ⟨fun hlive => Op.call_fails (not_allowed_of_refusable h hlive), ?_⟩
      intro r hlive
      by_cases hop : (Op.reserveImport snapshot).Allowed d s
      · have hne : r ≠ snapshot.requestId := by
          rintro rfl
          exact not_allowed_of_refusable h hlive hop
        rw [reserveImport_ok hop]
        exact Function.update_of_ne hne _ _
      · obtain ⟨e, next, hcall⟩ := Op.call_fails hop
        change s.reserveImport d snapshot = _ at hcall
        rw [hcall]
  | registerRunning | prepareMigrationOut | exportMigration | importBlocks | commitImport
  | commitExport | importedBlocks | abort | state | sourceBlocks => exact Iff.rfl

theorem live_call {r : String} (hs : s.WellFormed) (hkind : reservesOrAborts op = true)
    (hok : Refusable d s op) (hlive : Live s r) : Live (op.call d s).2 r := by
  rcases (Op.call_snd hs : op.Allowed d s ∧ _ ∨ _) with ⟨hop, heq⟩ | ⟨-, next, heq⟩
  · rw [heq]
    by_cases hr : op.target = some r
    · cases op with
      | reserveImport snapshot =>
        cases hr
        exact absurd hop (not_allowed_of_refusable hok hlive)
      | abort r' e =>
        cases hr
        have hexp : s.Exporting r := by
          rcases hlive with hrun | hexp
          · refine hop.2.resolve_right fun himp => ?_
            rcases himp with himp | himp
            · rw [hrun] at himp
              cases himp
            · rw [hrun] at himp
              cases himp
          · exact hexp
        left
        change Function.update s.states r (if s.Exporting r then some .running else none) r =
          some .running
        rw [Function.update_self, if_pos hexp]
      | registerRunning | prepareMigrationOut | exportMigration | importBlocks | commitImport
      | commitExport | importedBlocks | state | sourceBlocks => cases hkind
    · have hstate := (Op.after_of_ne (s := s) hr).1
      unfold Live Exporting at hlive ⊢
      rwa [hstate]
  · rw [heq]
    exact hlive

theorem live_run {ops : List Op} {t : MigrationCoordinator} {r : String} (hs : s.WellFormed)
    (hkind : ∀ op ∈ ops, reservesOrAborts op = true) (hok : Meets (step d) (Refusable d) s ops)
    (hrun : run (step d) s ops = some t) (hlive : Live s r) : Live t r := by
  induction ops generalizing s with
  | nil =>
    cases hrun
    exact hlive
  | cons op ops ih =>
    have hrest : ∀ op' ∈ ops, reservesOrAborts op' = true := fun op' hop' =>
      hkind op' (List.mem_cons_of_mem op hop')
    exact ih (Op.wellFormed_call hs) hrest (hok.2 _ rfl) hrun
      (live_call hs (hkind op List.mem_cons_self) hok.1 hlive)

end Live

/-- Imports spare the live requests exactly if every reservation for one has another reason
to be refused, and then no sequence of reservations and aborts removes one. -/
theorem imports_spare_live_requests (d : Runtime) {s : MigrationCoordinator} (hs : Reachable d s)
    (ops : List Op) :
    (Meets (step d) (SparesLive d) s ops ↔ Meets (step d) (Refusable d) s ops) ∧
      ((∀ op ∈ ops, reservesOrAborts op = true) → Meets (step d) (Refusable d) s ops →
        ∀ t, run (step d) s ops = some t → ∀ r, Live s r → Live t r) := by
  constructor
  · exact meets_iff (I := fun _ => True) (fun _ _ _ _ _ _ _ => trivial)
      (fun _ _ _ _ => sparesLive_iff) trivial meets_true
  · intro hkind hok t hrun r hlive
    exact live_run (wellFormed_of_reachable hs) hkind hok hrun hlive

section Sample

/-- A reservation and its abort remove a request that was RUNNING. -/
theorem live_request_removed : ∃ s t,
    run (step sampleRuntime) init [.registerRunning "r" []] = some s ∧ Live s "r" ∧
      ¬SparesLive sampleRuntime s (.reserveImport (sampleSnapshot 1)) ∧
      run (step sampleRuntime) s [.reserveImport (sampleSnapshot 1), .abort "r" 1] = some t ∧
      t.states "r" = none := by
  obtain ⟨s, hs, t, ht, hlive, hop, hnone⟩ :
      ∃ s ∈ run (step sampleRuntime) init [.registerRunning "r" []],
        ∃ t ∈ run (step sampleRuntime) s [.reserveImport (sampleSnapshot 1), .abort "r" 1],
          Live s "r" ∧ (Op.reserveImport (sampleSnapshot 1)).Allowed sampleRuntime s ∧
            t.states "r" = none := by decide +kernel
  refine ⟨s, t, hs, hlive, fun hspares => ?_, ht, hnone⟩
  exact not_allowed_of_refusable (sparesLive_iff.mp hspares) hlive hop

/-- Another request is imported and given up while `q` is RUNNING. -/
theorem imports_spare_live_requests_sample : ∃ s t,
    run (step sampleRuntime) init [.registerRunning "q" []] = some s ∧
      run (step sampleRuntime) s [.reserveImport (sampleSnapshot 1), .abort "r" 1] = some t ∧
      Live t "q" := by
  obtain ⟨s, hs, t, ht, hlive, hdead⟩ :
      ∃ s ∈ run (step sampleRuntime) init [.registerRunning "q" []],
        ∃ t ∈ run (step sampleRuntime) s [.reserveImport (sampleSnapshot 1), .abort "r" 1],
          Live s "q" ∧ ¬Live s "r" := by decide +kernel
  have hok : Meets (step sampleRuntime) (Refusable sampleRuntime) s
      [.reserveImport (sampleSnapshot 1), .abort "r" 1] :=
    ⟨fun hlive => absurd hlive hdead, fun _ _ => ⟨trivial, fun _ _ => trivial⟩⟩
  refine ⟨s, t, hs, ht, ?_⟩
  refine (imports_spare_live_requests sampleRuntime ⟨_, hs⟩ _).2 ?_ hok t ht "q" hlive
  intro op hop
  rcases List.mem_pair.mp hop with rfl | rfl
  · rfl
  · rfl

end Sample

end Llumnix.V1.Rollback
