import Llumnix.V1.Coordinator

/-! Calls with an epoch that is not the one in progress. The state of a migration is kept by
request, its reservation and payload by request and epoch, and the snapshot that `abort`
compares with only by exports, so that an old epoch can match one table and not another. -/
namespace Llumnix.V1.StaleEpochs

open Machine MigrationCoordinator

/-- The epoch of the latest `prepare_migration_out` or `reserve_import` of a request. -/
abbrev Latest := String → Option ℤ

def watch (_ : MigrationCoordinator) (op : Op) (latest : Latest) : Latest :=
  match op with
  | .prepareMigrationOut snapshot _ | .reserveImport snapshot =>
      Function.update latest snapshot.requestId (some snapshot.migrationEpoch)
  | _ => latest

def start : MigrationCoordinator × Latest := (init, fun _ => none)

def InProgress (s : MigrationCoordinator × Latest) (r : String) (e : ℤ) : Prop :=
  (s.1.Exporting r ∨ s.1.Importing r) ∧ s.2 r = some e

instance (s : MigrationCoordinator × Latest) (r : String) (e : ℤ) : Decidable (InProgress s r e) :=
  inferInstanceAs (Decidable (_ ∧ _))

/-- The request and the epoch that the call is for, directly or through a reservation. -/
def addressed : Op → Option Key
  | .commitExport r e | .abort r e => some (r, e)
  | .commitImport reservation | .importBlocks reservation _ => some reservation.key
  | _ => none

def Stale (s : MigrationCoordinator × Latest) (op : Op) : Prop :=
  ∃ r e e', addressed op = some (r, e') ∧ InProgress s r e ∧ e' ≠ e

def RejectsStale (d : Runtime) (s : MigrationCoordinator × Latest) (op : Op) : Prop :=
  Stale s op → ∃ msg, op.call d s.1 = (.error (.migrationError msg), s.1)

/-- What lets a stale call pass: an older reservation or payload that is still stored, or an import
whose request has no snapshot of an export (or one with the epoch that is passed). -/
def Slips (d : Runtime) (s : MigrationCoordinator) : Op → Prop
  | .importBlocks reservation blocks =>
      s.reservations reservation.key = some reservation ∧
        blocks.length = reservation.expected ∧ ∀ b ∈ blocks, b.Intact d
  | .commitImport reservation =>
      s.states reservation.requestId = some .importReady ∧ s.imported reservation.key ≠ none
  | .abort r e =>
      s.Importing r ∧ ∀ snapshot ∈ s.snapshots r, snapshot.migrationEpoch = e
  | _ => False

def Guarded (d : Runtime) (s : MigrationCoordinator × Latest) (op : Op) : Prop :=
  Stale s op → ¬Slips d s.1 op

/-- The snapshot of an export in progress has the latest epoch. -/
def Tracked (s : MigrationCoordinator × Latest) : Prop :=
  ∀ r, s.1.Exporting r → ∀ snapshot ∈ s.1.snapshots r, s.2 r = some snapshot.migrationEpoch

section Step
variable {d : Runtime} {s : MigrationCoordinator} {latest : Latest} {op : Op}

theorem watch_of_ne {r : String} (h : op.target ≠ some r) : watch s op latest r = latest r := by
  cases op with
  | prepareMigrationOut snapshot | reserveImport snapshot =>
    have hne : r ≠ snapshot.requestId := fun he => h (congrArg some he.symm)
    exact Function.update_of_ne hne _ _
  | registerRunning | exportMigration | importBlocks | commitImport | commitExport
  | importedBlocks | abort | state | sourceBlocks => rfl

theorem tracked_after (h : Tracked (s, latest)) (hop : op.Allowed d s) :
    Tracked (op.after s, watch s op latest) := by
  intro r hr snapshot hsnap
  change watch s op latest r = some snapshot.migrationEpoch
  rcases Op.exporting_after hop hr with ⟨given, blocks, rfl, rfl⟩ | ⟨hexp, hother, hkept, -⟩
  · simp only [Op.after, Function.update_self, Option.mem_some_iff] at hsnap
    subst hsnap
    exact Function.update_self _ _ _
  · have hwatch : watch s op latest r = latest r := hother.elim (fun he => he ▸ rfl) watch_of_ne
    change snapshot ∈ (op.after s).snapshots r at hsnap
    rw [hkept] at hsnap
    rw [hwatch]
    exact h r hexp snapshot hsnap

theorem not_rejectsStale (hs : s.WellFormed) (hstale : Stale (s, latest) op)
    (hop : op.Allowed d s) : ¬RejectsStale d (s, latest) op := by
  intro h
  obtain ⟨msg, hmsg⟩ := h hstale
  obtain ⟨v, hv⟩ := Op.call_of_allowed hs hop
  have hcontra := congrArg Prod.fst (hv.symm.trans hmsg)
  cases hcontra

theorem slips_of_allowed (h : Tracked (s, latest)) (hs : s.WellFormed)
    (hstale : Stale (s, latest) op) (hop : op.Allowed d s) : Slips d s op := by
  obtain ⟨r, e, e', haddr, ⟨-, hlatest⟩, hne⟩ := hstale
  have hexport : s.Exporting r → ∀ snapshot, s.snapshots r = some snapshot →
      snapshot.migrationEpoch ≠ e' := by
    intro hexp snapshot hsnap he
    have hepoch := (h r hexp snapshot hsnap).symm.trans hlatest
    exact hne (he.symm.trans (Option.some.inj hepoch))
  cases op with
  | importBlocks reservation blocks => exact hop
  | commitImport reservation => exact hop
  | commitExport r' =>
    cases haddr
    obtain ⟨⟨snapshot, hsnap⟩, -⟩ := hs r (.inr hop.1)
    exact absurd (hop.2 snapshot hsnap) (hexport (.inr hop.1) snapshot hsnap)
  | abort r' =>
    cases haddr
    refine ⟨hop.2.resolve_left fun hexp => ?_, hop.1⟩
    obtain ⟨⟨snapshot, hsnap⟩, -⟩ := hs r hexp
    exact hexport hexp snapshot hsnap (hop.1 snapshot hsnap)
  | registerRunning | prepareMigrationOut | exportMigration | reserveImport | importedBlocks
  | state | sourceBlocks => cases haddr

theorem allowed_of_slips (h : Slips d s op) : op.Allowed d s := by
  cases op with
  | importBlocks reservation blocks => exact h
  | commitImport reservation => exact h
  | abort r e => exact ⟨h.2, .inr h.1⟩
  | registerRunning | prepareMigrationOut | exportMigration | reserveImport | commitExport
  | importedBlocks | state | sourceBlocks => exact h.elim

theorem representable_of_stale (h : Stale (s, latest) op) : op.Representable d s := by
  obtain ⟨r, e, e', haddr, -⟩ := h
  cases op with
  | prepareMigrationOut | reserveImport => cases haddr
  | registerRunning | exportMigration | importBlocks | commitImport | commitExport | importedBlocks
  | abort | state | sourceBlocks => trivial

theorem rejectsStale_iff (h : Tracked (s, latest)) (hs : s.WellFormed) :
    RejectsStale d (s, latest) op ↔ Guarded d (s, latest) op := by
  constructor
  · intro hrejects hstale hslips
    exact not_rejectsStale hs hstale (allowed_of_slips hslips) hrejects
  · intro hguarded hstale
    refine Op.call_of_not_allowed (representable_of_stale hstale) fun hop => ?_
    exact hguarded hstale (slips_of_allowed h hs hstale hop)

end Step

/-- The stale calls of a run are all rejected exactly if none of them finds the old
reservation, the old payload or the missing snapshot that lets it pass. -/
theorem stale_calls_rejected_iff (d : Runtime) (ops : List Op) :
    Meets (observe d watch) (RejectsStale d) start ops ↔
      Meets (observe d watch) (Guarded d) start ops := by
  have hinit : Tracked start := by
    rintro r (hr | hr)
    · cases hr
    · cases hr
  exact meets_iff (I := fun s => s.1.WellFormed ∧ Tracked s)
    (fun s op s' hs _ _ => observe_preserves hs.1 (fun _ => hs.2) (tracked_after hs.2))
    (fun s op hs _ => rejectsStale_iff hs.2 hs.1) ⟨wellFormed_init, hinit⟩ meets_true

section Sample

/-- The reservations of `r` under epochs 1 and 2, made in this order. -/
def firstReservation : ImportReservation := ⟨"r", 1, [[0, 1]]⟩
def secondReservation : ImportReservation := ⟨"r", 2, [[2, 3]]⟩

def sampleBlocks : List KVBlock := [sampleBlock 0, sampleBlock 1]

/-- Both imports have their payload. -/
def bothImported : List Op :=
  [.reserveImport (sampleSnapshot 1 Int.one_pos), .importBlocks firstReservation sampleBlocks,
    .reserveImport (sampleSnapshot 2 secondEpoch_pos), .importBlocks secondReservation sampleBlocks]

/-- While epoch 2 is in progress, `abort` takes epoch 1, and `import_blocks` and
`commit_import` take the reservation of epoch 1. -/
theorem stale_calls_accepted :
    (∃ s, run (observe sampleRuntime watch) start [.reserveImport (sampleSnapshot 2)] = some s ∧
      ¬RejectsStale sampleRuntime s (.abort "r" 1)) ∧
    ∃ s, run (observe sampleRuntime watch) start bothImported = some s ∧
      ¬RejectsStale sampleRuntime s (.importBlocks firstReservation sampleBlocks) ∧
      ¬RejectsStale sampleRuntime s (.commitImport firstReservation) := by
  have hstale : ∀ {s op}, InProgress s "r" 2 → addressed op = some ("r", 1) → Stale s op :=
    fun hprogress haddr => ⟨"r", 2, 1, haddr, hprogress, by decide⟩
  constructor
  · obtain ⟨s, hrun, hprogress, hop⟩ : ∃ s ∈ run (observe sampleRuntime watch) start
        [.reserveImport (sampleSnapshot 2)],
        InProgress s "r" 2 ∧ (Op.abort "r" 1).Allowed sampleRuntime s.1 := by decide +kernel
    have hwf := wellFormed_of_run wellFormed_init hrun
    exact ⟨s, hrun, not_rejectsStale hwf (hstale hprogress rfl) hop⟩
  · obtain ⟨s, hrun, hprogress, himport, hcommit⟩ :
        ∃ s ∈ run (observe sampleRuntime watch) start bothImported, InProgress s "r" 2 ∧
          (Op.importBlocks firstReservation sampleBlocks).Allowed sampleRuntime s.1 ∧
          (Op.commitImport firstReservation).Allowed sampleRuntime s.1 := by decide +kernel
    have hwf := wellFormed_of_run wellFormed_init hrun
    refine ⟨s, hrun, ?_, ?_⟩
    · exact not_rejectsStale hwf (hstale hprogress rfl) himport
    · exact not_rejectsStale hwf (hstale hprogress rfl) hcommit

end Sample

end Llumnix.V1.StaleEpochs
