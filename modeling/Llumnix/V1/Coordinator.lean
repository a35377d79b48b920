import Llumnix.Machine.Run
import Llumnix.V1.Protocol
import Mathlib.Algebra.BigOperators.Group.List.Basic
import Mathlib.Algebra.Ring.Int.Defs
import Mathlib.Algebra.Ring.Nat
import Mathlib.Logic.Function.Basic

/-! `v1_migration.MigrationCoordinator`, the reference state machine for snapshot validation
and two-phase block transfer. The operations are given twice: as the code computes them, with
their errors, and as a guard with an effect, which is what the other modules reason about. -/
namespace Llumnix.V1

def PROTOCOL_VERSION : ℤ := 1

inductive Error
  | migrationError (msg : String)
  | keyError (key : String)
  | valueError
  | overflowError
  | memoryError
  deriving DecidableEq, Repr

inductive StopReason
  | token (id : ℤ)
  | text (reason : String)
  deriving DecidableEq, Repr

/-- What a `RequestMigrationSnapshot` is constructed from. -/
structure SnapshotArgs where
  requestId : String
  migrationEpoch : ℤ
  promptTokenIds : List ℤ
  allTokenIds : List ℤ
  outputTokenIds : List ℤ
  numComputedTokens : ℤ
  maxTokens : ℤ
  samplingParams : List UInt8 := []
  stopReason : Option StopReason := none
  kvLayoutVersion : String := "vllm-v1"
  kvGroupBlockCounts : List ℤ := []
  /-- The set of flags, in sorted order. -/
  featureFlags : List String := []
  protocolVersion : ℤ := PROTOCOL_VERSION
  checksum : String := ""
  deriving DecidableEq

/-- `sys.maxsize`. -/
def maxsize : ℤ := 9223372036854775807

/-- What the interpreter can do: `sys.get_int_max_str_digits()`, and the longest list that there is
memory for. -/
structure Limits where
  maxStrDigits : ℕ
  maxList : ℕ

/-- `hashlib.sha256(..).hexdigest()` and `json.dumps(..).encode("utf-8")`, on an interpreter. -/
structure Runtime extends Limits where
  sha256 : List UInt8 → String
  dumps : SnapshotArgs → List UInt8

/-- An integer that can be turned into text. -/
def Limits.Prints (d : Limits) (n : ℤ) : Prop := (Nat.toDigits 10 n.natAbs).length ≤ d.maxStrDigits

def Limits.Builds (d : Limits) (count : ℤ) : Prop := count ≤ maxsize ∧ count ≤ d.maxList

instance (d : Limits) (n : ℤ) : Decidable (d.Prints n) := inferInstanceAs (Decidable (_ ≤ _))

instance (d : Limits) (count : ℤ) : Decidable (d.Builds count) :=
  inferInstanceAs (Decidable (_ ∧ _))

namespace SnapshotArgs

/-- `_checksum_fields`: everything but the checksum itself. -/
def checksumFields (a : SnapshotArgs) : SnapshotArgs := { a with checksum := "" }

def integers (a : SnapshotArgs) : List ℤ :=
  [a.protocolVersion, a.migrationEpoch] ++ a.promptTokenIds ++ a.allTokenIds ++ a.outputTokenIds ++
    [a.numComputedTokens, a.maxTokens] ++
    (match a.stopReason with
      | some (.token id) => [id]
      | _ => []) ++
    a.kvGroupBlockCounts

/-- `json.dumps` accepts the fields. -/
def Printable (d : Limits) (a : SnapshotArgs) : Prop := ∀ n ∈ a.integers, d.Prints n

instance (d : Limits) (a : SnapshotArgs) : Decidable (a.Printable d) :=
  inferInstanceAs (Decidable (∀ n ∈ a.integers, d.Prints n))

def computeChecksum (d : Runtime) (a : SnapshotArgs) : Except Error String :=
  if a.Printable d.toLimits then .ok (d.sha256 (d.dumps a.checksumFields)) else .error .valueError

/-- The checksum is that of the fields. -/
def Intact (d : Runtime) (a : SnapshotArgs) : Prop :=
  a.Printable d.toLimits ∧ a.checksum = d.sha256 (d.dumps a.checksumFields)

instance (d : Runtime) (a : SnapshotArgs) : Decidable (a.Intact d) :=
  inferInstanceAs (Decidable (_ ∧ _))

def validateChecksum (d : Runtime) (a : SnapshotArgs) : Except Error Unit :=
  match a.computeChecksum d with
  | .error e => .error e
  | .ok checksum =>
    if a.checksum ≠ checksum then .error (.migrationError "request snapshot checksum mismatch")
    else .ok ()

end SnapshotArgs

/-- A snapshot that has passed `__post_init__`. -/
structure RequestMigrationSnapshot extends SnapshotArgs where
  requestId_ne : requestId ≠ ""
  migrationEpoch_pos : 0 < migrationEpoch
  numComputedTokens_nonneg : 0 ≤ numComputedTokens
  maxTokens_nonneg : 0 ≤ maxTokens
  numComputedTokens_le : numComputedTokens ≤ allTokenIds.length
  protocolVersion_eq : protocolVersion = PROTOCOL_VERSION
  kvGroupBlockCounts_nonneg : ∀ count ∈ kvGroupBlockCounts, 0 ≤ count

def SnapshotArgs.postInit (d : Runtime) (a : SnapshotArgs) :
    Except Error RequestMigrationSnapshot :=
  if hid : a.requestId = "" then .error (.migrationError "request_id must not be empty")
  else if hepoch : a.migrationEpoch ≤ 0 then
    .error (.migrationError "migration_epoch must be positive")
  else if hcounts : a.numComputedTokens < 0 ∨ a.maxTokens < 0 then
    .error (.migrationError "token counts must be non-negative")
  else if hlen : a.numComputedTokens > a.allTokenIds.length then
    .error (.migrationError "num_computed_tokens exceeds token state")
  else if hversion : a.protocolVersion ≠ PROTOCOL_VERSION then
    -- the message has the number in it
    if d.Prints a.protocolVersion then
      .error (.migrationError ("unsupported migration protocol " ++ toString a.protocolVersion))
    else .error .valueError
  else if hblocks : ∃ count ∈ a.kvGroupBlockCounts, count < 0 then
    .error (.migrationError "KV block counts must be non-negative")
  else
    match if a.checksum = "" then a.computeChecksum d else .ok a.checksum with
    | .error e => .error e
    | .ok checksum => .ok {
      toSnapshotArgs := { a with checksum := checksum }
      requestId_ne := hid
      migrationEpoch_pos := by omega
      numComputedTokens_nonneg := by omega
      maxTokens_nonneg := by omega
      numComputedTokens_le := by omega
      protocolVersion_eq := Decidable.not_not.mp hversion
      kvGroupBlockCounts_nonneg := fun count hc =>
        Int.not_lt.mp fun hlt => hblocks ⟨count, hc, hlt⟩ }

structure KVBlock where
  group : ℤ
  ordinal : ℤ
  payload : List UInt8
  checksum : String := ""
  deriving DecidableEq, Repr

namespace KVBlock

/-- `KVBlock.__post_init__`. -/
def postInit (d : Runtime) (b : KVBlock) : Except Error KVBlock :=
  if b.group < 0 ∨ b.ordinal < 0 then
    .error (.migrationError "block coordinates must be non-negative")
  else if b.checksum ≠ "" ∧ b.checksum ≠ d.sha256 b.payload then
    .error (.migrationError "KV block checksum mismatch")
  else if b.checksum = "" then .ok { b with checksum := d.sha256 b.payload }
  else .ok b

/-- What `__post_init__` accepts. -/
def Intact (d : Runtime) (b : KVBlock) : Prop :=
  (0 ≤ b.group ∧ 0 ≤ b.ordinal) ∧ (b.checksum = "" ∨ b.checksum = d.sha256 b.payload)

instance (d : Runtime) (b : KVBlock) : Decidable (b.Intact d) :=
  inferInstanceAs (Decidable ((_ ∧ _) ∧ (_ ∨ _)))

/-- The loop of `import_blocks` that constructs every block again. -/
def validateAll (d : Runtime) : List KVBlock → Except Error Unit
  | [] => .ok ()
  | b :: bs =>
    match b.postInit d with
    | .error e => .error e
    | .ok _ => validateAll d bs

end KVBlock

abbrev Key := String × ℤ

def RequestMigrationSnapshot.key (snapshot : RequestMigrationSnapshot) : Key :=
  (snapshot.requestId, snapshot.migrationEpoch)

structure ImportReservation where
  requestId : String
  migrationEpoch : ℤ
  blockIds : List (List ℤ)
  deriving DecidableEq, Repr

namespace ImportReservation

def key (reservation : ImportReservation) : Key :=
  (reservation.requestId, reservation.migrationEpoch)

/-- `sum(len(group) for group in reservation.block_ids)`. -/
def expected (reservation : ImportReservation) : ℕ := (reservation.blockIds.map List.length).sum

end ImportReservation

structure MigrationCoordinator where
  states : String → Option MigrationState
  snapshots : String → Option RequestMigrationSnapshot
  sourceBlocks : String → Option (List KVBlock)
  reservations : Key → Option ImportReservation
  imported : Key → Option (List KVBlock)
  nextBlockId : ℤ

/-- What a call returns or raises, and the fields it leaves. -/
abbrev Outcome (α : Type) := Except Error α × MigrationCoordinator

/-- `f"{state}"`: an enumeration prints its name. -/
def stateText : Option MigrationState → String
  | none => "None"
  | some .running => "MigrationState.RUNNING"
  | some .migratingOut => "MigrationState.MIGRATING_OUT"
  | some .outReady => "MigrationState.OUT_READY"
  | some .importing => "MigrationState.IMPORTING"
  | some .importReady => "MigrationState.IMPORT_READY"
  | some .released => "MigrationState.RELEASED"

/-- `list(range(next, next + count))`. -/
def idRange (next count : ℤ) : List ℤ := (List.range count.toNat).map fun i : ℕ => next + i

/-- `_allocate_id`: the ids, and the next free id. -/
def allocateId (d : Limits) (next count : ℤ) : Except Error (List ℤ) × ℤ :=
  if count > maxsize then (.error .overflowError, next)
  else if count > d.maxList then (.error .memoryError, next)
  else (.ok (idRange next count), next + count)

/-- `_allocate_id` for every group. The groups before the one that fails have moved the next id. -/
def allocateIds (d : Limits) (next : ℤ) : List ℤ → Except Error (List (List ℤ)) × ℤ
  | [] => (.ok [], next)
  | count :: counts =>
    match allocateId d next count with
    | (.error e, next) => (.error e, next)
    | (.ok ids, next) =>
      match allocateIds d next counts with
      | (.error e, next) => (.error e, next)
      | (.ok groups, next) => (.ok (ids :: groups), next)

/-- The ids of all groups, and the next free id after them. -/
def groupIds (next : ℤ) : List ℤ → List (List ℤ) × ℤ
  | [] => ([], next)
  | count :: counts =>
    let rest := groupIds (next + count) counts
    (idRange next count :: rest.1, rest.2)

namespace MigrationCoordinator
variable {α : Type}

def init : MigrationCoordinator where
  states _ := none
  snapshots _ := none
  sourceBlocks _ := none
  reservations _ := none
  imported _ := none
  nextBlockId := 0

def raise (s : MigrationCoordinator) (msg : String) : Outcome α :=
  (.error (.migrationError msg), s)

/-- `state in (MIGRATING_OUT, OUT_READY)`. -/
def Exporting (s : MigrationCoordinator) (requestId : String) : Prop :=
  s.states requestId = some .migratingOut ∨ s.states requestId = some .outReady

/-- `state in (IMPORTING, IMPORT_READY)`. -/
def Importing (s : MigrationCoordinator) (requestId : String) : Prop :=
  s.states requestId = some .importing ∨ s.states requestId = some .importReady

instance (s : MigrationCoordinator) (r : String) : Decidable (s.Exporting r) :=
  inferInstanceAs (Decidable (_ ∨ _))

instance (s : MigrationCoordinator) (r : String) : Decidable (s.Importing r) :=
  inferInstanceAs (Decidable (_ ∨ _))

def setState (s : MigrationCoordinator) (requestId : String) (state : Option MigrationState) :
    MigrationCoordinator :=
  { s with states := Function.update s.states requestId state }

def registerRunning (s : MigrationCoordinator) (requestId : String) (blocks : List KVBlock) :
    Outcome Unit :=
  if (s.states requestId).isSome then s.raise ("request already registered: " ++ requestId)
  else
    let s := s.setState requestId (some .running)
    (.ok (), { s with sourceBlocks := Function.update s.sourceBlocks requestId (some blocks) })

def prepareMigrationOut (d : Runtime) (s : MigrationCoordinator)
    (snapshot : RequestMigrationSnapshot) (blocks : List KVBlock) : Outcome Unit :=
  match snapshot.validateChecksum d with
  | .error e => (.error e, s)
  | .ok () =>
    let requestId := snapshot.requestId
    if s.states requestId ≠ some .running then s.raise "request is not running"
    else if (blocks.length : ℤ) ≠ snapshot.kvGroupBlockCounts.sum then
      s.raise "snapshot block count does not match payload"
    else
      let s := s.setState requestId (some .migratingOut)
      (.ok (), { s with
        snapshots := Function.update s.snapshots requestId (some snapshot)
        sourceBlocks := Function.update s.sourceBlocks requestId (some blocks) })

/-- The state is written before the two tables are read. -/
def exportMigration (s : MigrationCoordinator) (requestId : String) :
    Outcome (RequestMigrationSnapshot × List KVBlock) :=
  if s.states requestId ≠ some .migratingOut then s.raise "request is not in MIGRATING_OUT"
  else
    let s := s.setState requestId (some .outReady)
    match s.snapshots requestId with
    | none => (.error (.keyError requestId), s)
    | some snapshot =>
      match s.sourceBlocks requestId with
      | none => (.error (.keyError requestId), s)
      | some blocks => (.ok (snapshot, blocks), s)

/-- The reservation that `reserve_import` makes when it has all ids. -/
def reservation (s : MigrationCoordinator) (snapshot : RequestMigrationSnapshot) :
    ImportReservation :=
  ⟨snapshot.requestId, snapshot.migrationEpoch,
    (groupIds s.nextBlockId snapshot.kvGroupBlockCounts).1⟩

def reserveImport (d : Runtime) (s : MigrationCoordinator) (snapshot : RequestMigrationSnapshot) :
    Outcome ImportReservation :=
  match snapshot.validateChecksum d with
  | .error e => (.error e, s)
  | .ok () =>
    if (s.reservations snapshot.key).isSome then s.raise "duplicate migration epoch"
    else
      match allocateIds d.toLimits s.nextBlockId snapshot.kvGroupBlockCounts with
      | (.error e, next) => (.error e, { s with nextBlockId := next })
      | (.ok groups, next) =>
        let reservation := ⟨snapshot.requestId, snapshot.migrationEpoch, groups⟩
        let s := { s with
          nextBlockId := next
          reservations := Function.update s.reservations snapshot.key (some reservation) }
        (.ok reservation, s.setState snapshot.requestId (some .importing))

def importBlocks (d : Runtime) (s : MigrationCoordinator) (reservation : ImportReservation)
    (blocks : List KVBlock) : Outcome Unit :=
  if s.reservations reservation.key ≠ some reservation then s.raise "unknown import reservation"
  else if blocks.length ≠ reservation.expected then s.raise "import block count mismatch"
  else
    match KVBlock.validateAll d blocks with
    | .error e => (.error e, s)
    | .ok () =>
      let s := { s with imported := Function.update s.imported reservation.key (some blocks) }
      (.ok (), s.setState reservation.requestId (some .importReady))

def commitImport (s : MigrationCoordinator) (reservation : ImportReservation) : Outcome Unit :=
  if s.states reservation.requestId ≠ some .importReady then s.raise "import is not ready"
  else if (s.imported reservation.key).isNone then s.raise "no imported KV payload"
  else (.ok (), s.setState reservation.requestId (some .running))

def commitExport (s : MigrationCoordinator) (requestId : String) (migrationEpoch : ℤ) :
    Outcome Unit :=
  if s.states requestId ≠ some .outReady then s.raise "export is not ready"
  else
    match s.snapshots requestId with
    | none => (.error (.keyError requestId), s)
    | some snapshot =>
      if snapshot.migrationEpoch ≠ migrationEpoch then s.raise "migration epoch mismatch"
      else
        let s := s.setState requestId (some .released)
        (.ok (), { s with sourceBlocks := Function.update s.sourceBlocks requestId none })

/-- `_reservations.pop` and `_imported.pop`. -/
def dropImport (s : MigrationCoordinator) (key : Key) : MigrationCoordinator :=
  { s with
    reservations := Function.update s.reservations key none
    imported := Function.update s.imported key none }

def abort (s : MigrationCoordinator) (requestId : String) (migrationEpoch : ℤ) : Outcome Unit :=
  if ∃ snapshot ∈ s.snapshots requestId, snapshot.migrationEpoch ≠ migrationEpoch then
    s.raise "migration epoch mismatch"
  else if s.Exporting requestId then
    (.ok (), (s.setState requestId (some .running)).dropImport (requestId, migrationEpoch))
  else if s.Importing requestId then
    (.ok (), (s.setState requestId none).dropImport (requestId, migrationEpoch))
  else s.raise ("cannot abort from state " ++ stateText (s.states requestId))

def importedBlocks (s : MigrationCoordinator) (requestId : String) (migrationEpoch : ℤ) :
    Outcome (List KVBlock) :=
  (.ok ((s.imported (requestId, migrationEpoch)).getD []), s)

def state (s : MigrationCoordinator) (requestId : String) : Outcome MigrationState :=
  match s.states requestId with
  | none => s.raise ("unknown request: " ++ requestId)
  | some state => (.ok state, s)

def getSourceBlocks (s : MigrationCoordinator) (requestId : String) : Outcome (List KVBlock) :=
  (.ok ((s.sourceBlocks requestId).getD []), s)

end MigrationCoordinator

/-- A call of a public operation. -/
inductive Op
  | registerRunning (requestId : String) (blocks : List KVBlock)
  | prepareMigrationOut (snapshot : RequestMigrationSnapshot) (blocks : List KVBlock)
  | exportMigration (requestId : String)
  | reserveImport (snapshot : RequestMigrationSnapshot)
  | importBlocks (reservation : ImportReservation) (blocks : List KVBlock)
  | commitImport (reservation : ImportReservation)
  | commitExport (requestId : String) (migrationEpoch : ℤ)
  | importedBlocks (requestId : String) (migrationEpoch : ℤ)
  | abort (requestId : String) (migrationEpoch : ℤ)
  | state (requestId : String)
  | sourceBlocks (requestId : String)

namespace Op

def Result : Op → Type
  | .exportMigration _ => RequestMigrationSnapshot × List KVBlock
  | .reserveImport _ => ImportReservation
  | .importedBlocks _ _ | .sourceBlocks _ => List KVBlock
  | .state _ => MigrationState
  | _ => Unit

def call (d : Runtime) (s : MigrationCoordinator) : (op : Op) → Outcome op.Result
  | .registerRunning requestId blocks => s.registerRunning requestId blocks
  | .prepareMigrationOut snapshot blocks => s.prepareMigrationOut d snapshot blocks
  | .exportMigration requestId => s.exportMigration requestId
  | .reserveImport snapshot => s.reserveImport d snapshot
  | .importBlocks reservation blocks => s.importBlocks d reservation blocks
  | .commitImport reservation => s.commitImport reservation
  | .commitExport requestId migrationEpoch => s.commitExport requestId migrationEpoch
  | .importedBlocks requestId migrationEpoch => s.importedBlocks requestId migrationEpoch
  | .abort requestId migrationEpoch => s.abort requestId migrationEpoch
  | .state requestId => s.state requestId
  | .sourceBlocks requestId => s.getSourceBlocks requestId

/-- When the operation succeeds. -/
def Allowed (d : Runtime) (s : MigrationCoordinator) : Op → Prop
  | .registerRunning requestId _ => s.states requestId = none
  | .prepareMigrationOut snapshot blocks =>
      snapshot.Intact d ∧ s.states snapshot.requestId = some .running ∧
        (blocks.length : ℤ) = snapshot.kvGroupBlockCounts.sum
  | .exportMigration requestId => s.states requestId = some .migratingOut
  | .reserveImport snapshot =>
      snapshot.Intact d ∧ s.reservations snapshot.key = none ∧
        ∀ count ∈ snapshot.kvGroupBlockCounts, d.Builds count
  | .importBlocks reservation blocks =>
      s.reservations reservation.key = some reservation ∧
        blocks.length = reservation.expected ∧ ∀ b ∈ blocks, b.Intact d
  | .commitImport reservation =>
      s.states reservation.requestId = some .importReady ∧ s.imported reservation.key ≠ none
  | .commitExport requestId migrationEpoch =>
      s.states requestId = some .outReady ∧
        ∀ snapshot ∈ s.snapshots requestId, snapshot.migrationEpoch = migrationEpoch
  | .abort requestId migrationEpoch =>
      (∀ snapshot ∈ s.snapshots requestId, snapshot.migrationEpoch = migrationEpoch) ∧
        (s.Exporting requestId ∨ s.Importing requestId)
  | .state requestId => s.states requestId ≠ none
  | .importedBlocks _ _ | .sourceBlocks _ => True

instance (d : Runtime) (s : MigrationCoordinator) : (op : Op) → Decidable (op.Allowed d s)
  | .registerRunning _ _ | .exportMigration _ => inferInstanceAs (Decidable (_ = _))
  | .state r => inferInstanceAs (Decidable (s.states r ≠ none))
  | .prepareMigrationOut _ _ => inferInstanceAs (Decidable (_ ∧ _ ∧ _))
  | .importBlocks _ _ => inferInstanceAs (Decidable (_ ∧ _ ∧ _))
  | .reserveImport _ => inferInstanceAs (Decidable (_ ∧ _ ∧ _))
  | .commitImport _ | .commitExport _ _ => inferInstanceAs (Decidable (_ ∧ _))
  | .abort _ _ => inferInstanceAs (Decidable (_ ∧ (_ ∨ _)))
  | .importedBlocks _ _ | .sourceBlocks _ => isTrue trivial

/-- What a successful operation does. -/
def after (s : MigrationCoordinator) : Op → MigrationCoordinator
  | .registerRunning requestId blocks =>
      { s.setState requestId (some .running) with
        sourceBlocks := Function.update s.sourceBlocks requestId (some blocks) }
  | .prepareMigrationOut snapshot blocks =>
      { s.setState snapshot.requestId (some .migratingOut) with
        snapshots := Function.update s.snapshots snapshot.requestId (some snapshot)
        sourceBlocks := Function.update s.sourceBlocks snapshot.requestId (some blocks) }
  | .exportMigration requestId => s.setState requestId (some .outReady)
  | .reserveImport snapshot =>
      { s.setState snapshot.requestId (some .importing) with
        nextBlockId := (groupIds s.nextBlockId snapshot.kvGroupBlockCounts).2
        reservations :=
          Function.update s.reservations snapshot.key (some (s.reservation snapshot)) }
  | .importBlocks reservation blocks =>
      { s.setState reservation.requestId (some .importReady) with
        imported := Function.update s.imported reservation.key (some blocks) }
  | .commitImport reservation => s.setState reservation.requestId (some .running)
  | .commitExport requestId _ =>
      { s.setState requestId (some .released) with
        sourceBlocks := Function.update s.sourceBlocks requestId none }
  | .abort requestId migrationEpoch =>
      (s.setState requestId (if s.Exporting requestId then some .running else none)).dropImport
        (requestId, migrationEpoch)
  | .importedBlocks _ _ | .state _ | .sourceBlocks _ => s

end Op

section Spec
variable {d : Runtime} {s : MigrationCoordinator} {op : Op}

namespace SnapshotArgs
variable {a : SnapshotArgs}

theorem validateChecksum_of_intact (h : a.Intact d) : a.validateChecksum d = .ok () := by
  unfold validateChecksum computeChecksum
  rw [if_pos h.1]
  exact if_neg (Decidable.not_not.mpr h.2)

theorem validateChecksum_of_not_intact (hp : a.Printable d.toLimits) (h : ¬a.Intact d) :
    a.validateChecksum d = .error (.migrationError "request snapshot checksum mismatch") := by
  unfold validateChecksum computeChecksum
  rw [if_pos hp]
  exact if_pos fun hsum => h ⟨hp, hsum⟩

theorem validateChecksum_of_not_printable (h : ¬a.Printable d.toLimits) :
    a.validateChecksum d = .error .valueError := by
  unfold validateChecksum computeChecksum
  rw [if_neg h]

end SnapshotArgs

namespace KVBlock
variable {b : KVBlock}

theorem postInit_of_intact (h : b.Intact d) : ∃ b', b.postInit d = .ok b' := by
  obtain ⟨⟨hg, ho⟩, hsum⟩ := h
  have hcoord : ¬(b.group < 0 ∨ b.ordinal < 0) := by omega
  have hcheck : ¬(b.checksum ≠ "" ∧ b.checksum ≠ d.sha256 b.payload) := by
    rintro ⟨hne, hbad⟩
    exact hsum.elim hne hbad
  unfold postInit
  rw [if_neg hcoord, if_neg hcheck]
  split
  · exact ⟨_, rfl⟩
  · exact ⟨_, rfl⟩

theorem postInit_of_not_intact (h : ¬b.Intact d) :
    ∃ msg, b.postInit d = .error (.migrationError msg) := by
  unfold postInit
  split
  · exact ⟨_, rfl⟩
  · rename_i hcoord
    have hsum : b.checksum ≠ "" ∧ b.checksum ≠ d.sha256 b.payload := by
      have hcoord' : 0 ≤ b.group ∧ 0 ≤ b.ordinal := by omega
      exact ⟨fun he => h ⟨hcoord', .inl he⟩, fun he => h ⟨hcoord', .inr he⟩⟩
    rw [if_pos hsum]
    exact ⟨_, rfl⟩

theorem validateAll_of_intact {bs : List KVBlock} (h : ∀ b ∈ bs, b.Intact d) :
    validateAll d bs = .ok () := by
  induction bs with
  | nil => rfl
  | cons b bs ih =>
    obtain ⟨b', hb⟩ := postInit_of_intact (h b List.mem_cons_self)
    simp only [validateAll, hb]
    exact ih fun c hc => h c (List.mem_cons_of_mem b hc)

theorem validateAll_of_not_intact {bs : List KVBlock} (h : ¬∀ b ∈ bs, b.Intact d) :
    ∃ msg, validateAll d bs = .error (.migrationError msg) := by
  induction bs with
  | nil => exact absurd (fun b hb => absurd hb List.not_mem_nil) h
  | cons b bs ih =>
    by_cases hb : b.Intact d
    · obtain ⟨b', hb'⟩ := postInit_of_intact hb
      simp only [validateAll, hb']
      exact ih fun hall => h (List.forall_mem_cons.mpr ⟨hb, hall⟩)
    · obtain ⟨msg, hmsg⟩ := postInit_of_not_intact hb
      simp only [validateAll, hmsg]
      exact ⟨msg, rfl⟩

end KVBlock

section Allocation
variable {l : Limits} {counts : List ℤ}

theorem allocateId_of_builds {count : ℤ} (h : l.Builds count) (next : ℤ) :
    allocateId l next count = (.ok (idRange next count), next + count) := by
  obtain ⟨hmax, hmemory⟩ := h
  unfold allocateId
  rw [if_neg (by omega), if_neg (by omega)]

theorem allocateId_of_not_builds {count : ℤ} (h : ¬l.Builds count) (next : ℤ) :
    ∃ e, allocateId l next count = (.error e, next) ∧ ∀ msg, e ≠ .migrationError msg := by
  unfold allocateId
  by_cases hmax : count > maxsize
  · exact ⟨.overflowError, if_pos hmax, nofun⟩
  · have hmemory : count > l.maxList := by
      unfold Limits.Builds at h
      omega
    exact ⟨.memoryError, (if_neg hmax).trans (if_pos hmemory), nofun⟩

theorem allocateIds_of_builds (h : ∀ count ∈ counts, l.Builds count) (next : ℤ) :
    allocateIds l next counts = (.ok (groupIds next counts).1, (groupIds next counts).2) := by
  induction counts generalizing next with
  | nil => rfl
  | cons count counts ih =>
    obtain ⟨hcount, hcounts⟩ := List.forall_mem_cons.mp h
    simp only [allocateIds, allocateId_of_builds hcount, ih hcounts, groupIds]

theorem allocateIds_of_not_builds (h : ¬∀ count ∈ counts, l.Builds count) (next : ℤ) :
    ∃ e last, allocateIds l next counts = (.error e, last) ∧ ∀ msg, e ≠ .migrationError msg := by
  induction counts generalizing next with
  | nil => exact absurd (fun count hc => absurd hc List.not_mem_nil) h
  | cons count counts ih =>
    by_cases hcount : l.Builds count
    · obtain ⟨e, last, hrest, he⟩ :=
        ih (fun hall => h (List.forall_mem_cons.mpr ⟨hcount, hall⟩)) (next + count)
      exact ⟨e, last, by simp only [allocateIds, allocateId_of_builds hcount, hrest], he⟩
    · obtain ⟨e, hhere, he⟩ := allocateId_of_not_builds hcount next
      exact ⟨e, next, by simp only [allocateIds, hhere], he⟩

end Allocation

namespace Op

/-- The integers of the snapshot can be printed, and the lists of ids that it asks for built. -/
def Representable (d : Runtime) (s : MigrationCoordinator) : Op → Prop
  | .prepareMigrationOut snapshot _ => snapshot.Printable d.toLimits
  | .reserveImport snapshot =>
      snapshot.Printable d.toLimits ∧ (snapshot.Intact d → s.reservations snapshot.key = none →
        ∀ count ∈ snapshot.kvGroupBlockCounts, d.Builds count)
  | _ => True

end Op

namespace MigrationCoordinator

/-- What an export has put into the tables is there as long as it is in progress. -/
def WellFormed (s : MigrationCoordinator) : Prop :=
  ∀ r, s.Exporting r → (∃ snapshot, s.snapshots r = some snapshot) ∧
    ∃ blocks, s.sourceBlocks r = some blocks

theorem wellFormed_init : init.WellFormed := by
  rintro r (h | h)
  · cases h
  · cases h

section Operations
variable {r : String} {e : ℤ} {blocks : List KVBlock} {snapshot : RequestMigrationSnapshot}
  {reservation : ImportReservation}

theorem registerRunning_ok (h : s.states r = none) :
    s.registerRunning r blocks = (.ok (), (Op.registerRunning r blocks).after s) := by
  have hr : ¬(s.states r).isSome = true := by rw [h]; decide
  exact if_neg hr

theorem registerRunning_raises (h : s.states r ≠ none) :
    ∃ msg, s.registerRunning r blocks = s.raise msg :=
  ⟨_, if_pos (Option.isSome_iff_ne_none.mpr h)⟩

theorem prepareMigrationOut_ok (hsum : snapshot.Intact d)
    (hrun : s.states snapshot.requestId = some .running)
    (hlen : (blocks.length : ℤ) = snapshot.kvGroupBlockCounts.sum) :
    s.prepareMigrationOut d snapshot blocks =
      (.ok (), (Op.prepareMigrationOut snapshot blocks).after s) := by
  unfold prepareMigrationOut
  rw [SnapshotArgs.validateChecksum_of_intact hsum]
  exact (if_neg (Decidable.not_not.mpr hrun)).trans (if_neg (Decidable.not_not.mpr hlen))

theorem prepareMigrationOut_raises (hp : snapshot.Printable d.toLimits)
    (h : ¬(Op.prepareMigrationOut snapshot blocks).Allowed d s) :
    ∃ msg, s.prepareMigrationOut d snapshot blocks = s.raise msg := by
  unfold prepareMigrationOut
  by_cases hsum : snapshot.Intact d
  · rw [SnapshotArgs.validateChecksum_of_intact hsum]
    by_cases hrun : s.states snapshot.requestId = some .running
    · have hlen : (blocks.length : ℤ) ≠ snapshot.kvGroupBlockCounts.sum :=
        fun he => h ⟨hsum, hrun, he⟩
      exact ⟨_, (if_neg (Decidable.not_not.mpr hrun)).trans (if_pos hlen)⟩
    · exact ⟨_, if_pos hrun⟩
  · rw [SnapshotArgs.validateChecksum_of_not_intact hp hsum]
    exact ⟨_, rfl⟩

theorem exportMigration_ok (hs : s.WellFormed) (h : s.states r = some .migratingOut) :
    ∃ v, s.exportMigration r = (.ok v, (Op.exportMigration r).after s) := by
  obtain ⟨⟨snapshot, hsnap⟩, blocks, hblocks⟩ := hs r (.inl h)
  refine ⟨(snapshot, blocks), (if_neg (Decidable.not_not.mpr h)).trans ?_⟩
  simp only [setState, hsnap, hblocks]
  rfl

theorem reserveImport_ok (h : (Op.reserveImport snapshot).Allowed d s) :
    s.reserveImport d snapshot =
      (.ok (s.reservation snapshot), (Op.reserveImport snapshot).after s) := by
  obtain ⟨hsum, hnone, hbuilds⟩ := h
  unfold reserveImport
  rw [SnapshotArgs.validateChecksum_of_intact hsum, hnone]
  simp only [Option.isSome_none, Bool.false_eq_true, if_false, allocateIds_of_builds hbuilds]
  rfl

theorem reserveImport_raises (hr : (Op.reserveImport snapshot).Representable d s)
    (h : ¬(Op.reserveImport snapshot).Allowed d s) :
    ∃ msg, s.reserveImport d snapshot = s.raise msg := by
  obtain ⟨hp, hbuilds⟩ := hr
  unfold reserveImport
  by_cases hsum : snapshot.Intact d
  · have hdup : (s.reservations snapshot.key).isSome = true :=
      Option.isSome_iff_ne_none.mpr fun he => h ⟨hsum, he, hbuilds hsum he⟩
    rw [SnapshotArgs.validateChecksum_of_intact hsum]
    exact ⟨_, if_pos hdup⟩
  · rw [SnapshotArgs.validateChecksum_of_not_intact hp hsum]
    exact ⟨_, rfl⟩

theorem reserveImport_of_not_representable (h : ¬(Op.reserveImport snapshot).Representable d s) :
    ∃ e next, s.reserveImport d snapshot = (.error e, { s with nextBlockId := next }) ∧
      ∀ msg, e ≠ .migrationError msg := by
  unfold reserveImport
  by_cases hp : snapshot.Printable d.toLimits
  · obtain ⟨hsum, hnone, hcounts⟩ : snapshot.Intact d ∧ s.reservations snapshot.key = none ∧
        ¬∀ count ∈ snapshot.kvGroupBlockCounts, d.Builds count := by
      simpa only [Op.Representable, hp, true_and, Classical.not_imp] using h
    obtain ⟨e, next, hids, he⟩ := allocateIds_of_not_builds hcounts s.nextBlockId
    rw [SnapshotArgs.validateChecksum_of_intact hsum, hnone]
    simp only [Option.isSome_none, Bool.false_eq_true, if_false, hids]
    exact ⟨e, next, rfl, he⟩
  · rw [SnapshotArgs.validateChecksum_of_not_printable hp]
    exact ⟨.valueError, s.nextBlockId, rfl, nofun⟩

theorem importBlocks_ok (hres : s.reservations reservation.key = some reservation)
    (hlen : blocks.length = reservation.expected) (hall : ∀ b ∈ blocks, b.Intact d) :
    s.importBlocks d reservation blocks =
      (.ok (), (Op.importBlocks reservation blocks).after s) := by
  unfold importBlocks
  rw [if_neg (Decidable.not_not.mpr hres), if_neg (Decidable.not_not.mpr hlen),
    KVBlock.validateAll_of_intact hall]
  rfl

theorem importBlocks_raises (h : ¬(Op.importBlocks reservation blocks).Allowed d s) :
    ∃ msg, s.importBlocks d reservation blocks = s.raise msg := by
  unfold importBlocks
  by_cases hres : s.reservations reservation.key = some reservation
  · rw [if_neg (Decidable.not_not.mpr hres)]
    by_cases hlen : blocks.length = reservation.expected
    · obtain ⟨msg, hmsg⟩ := KVBlock.validateAll_of_not_intact fun hall => h ⟨hres, hlen, hall⟩
      rw [if_neg (Decidable.not_not.mpr hlen), hmsg]
      exact ⟨msg, rfl⟩
    · exact ⟨_, if_pos hlen⟩
  · exact ⟨_, if_pos hres⟩

theorem commitImport_ok (hready : s.states reservation.requestId = some .importReady)
    (hpayload : s.imported reservation.key ≠ none) :
    s.commitImport reservation = (.ok (), (Op.commitImport reservation).after s) := by
  have hsome : ¬(s.imported reservation.key).isNone = true :=
    fun hnone => hpayload (Option.isNone_iff_eq_none.mp hnone)
  exact (if_neg (Decidable.not_not.mpr hready)).trans (if_neg hsome)

theorem commitImport_raises (h : ¬(Op.commitImport reservation).Allowed d s) :
    ∃ msg, s.commitImport reservation = s.raise msg := by
  by_cases hready : s.states reservation.requestId = some .importReady
  · have hnone : (s.imported reservation.key).isNone = true :=
      Option.isNone_iff_eq_none.mpr (Decidable.not_not.mp fun hne => h ⟨hready, hne⟩)
    exact ⟨_, (if_neg (Decidable.not_not.mpr hready)).trans (if_pos hnone)⟩
  · exact ⟨_, if_pos hready⟩

theorem commitExport_ok (hs : s.WellFormed) (h : (Op.commitExport r e).Allowed d s) :
    s.commitExport r e = (.ok (), (Op.commitExport r e).after s) := by
  obtain ⟨hready, hepoch⟩ := h
  obtain ⟨⟨snapshot, hsnap⟩, -⟩ := hs r (.inr hready)
  have he : snapshot.migrationEpoch = e := hepoch snapshot hsnap
  unfold commitExport
  rw [if_neg (Decidable.not_not.mpr hready), hsnap]
  exact if_neg (Decidable.not_not.mpr he)

theorem commitExport_raises (h : ¬(Op.commitExport r e).Allowed d s) :
    ∃ msg, s.commitExport r e = s.raise msg := by
  by_cases hready : s.states r = some .outReady
  · unfold commitExport
    rw [if_neg (Decidable.not_not.mpr hready)]
    have hmismatch : ¬∀ snapshot ∈ s.snapshots r, snapshot.migrationEpoch = e :=
      fun hall => h ⟨hready, hall⟩
    cases hsnap : s.snapshots r with
    | none =>
      rw [hsnap] at hmismatch
      exact absurd (fun _ hm => absurd hm (Option.not_mem_none _)) hmismatch
    | some snapshot =>
      have hepoch : snapshot.migrationEpoch ≠ e := by
        rintro rfl
        rw [hsnap] at hmismatch
        exact hmismatch fun old hm => by rw [Option.some.inj hm]
      exact ⟨_, if_pos hepoch⟩
  · exact ⟨_, if_pos hready⟩

theorem abort_ok (h : (Op.abort r e).Allowed d s) :
    s.abort r e = (.ok (), (Op.abort r e).after s) := by
  obtain ⟨hepoch, hstate⟩ := h
  have hmatch : ¬∃ snapshot ∈ s.snapshots r, snapshot.migrationEpoch ≠ e := by
    rintro ⟨snapshot, hm, hne⟩
    exact hne (hepoch snapshot hm)
  unfold abort
  rw [if_neg hmatch]
  by_cases hout : s.Exporting r
  · simp only [Op.after, if_pos hout]
  · simp only [Op.after, if_neg hout, if_pos (hstate.resolve_left hout)]

theorem abort_raises (h : ¬(Op.abort r e).Allowed d s) : ∃ msg, s.abort r e = s.raise msg := by
  unfold abort
  split
  · exact ⟨_, rfl⟩
  · rename_i hmatch
    have hepoch : ∀ snapshot ∈ s.snapshots r, snapshot.migrationEpoch = e := fun snapshot hm =>
      Decidable.not_not.mp fun hne => hmatch ⟨snapshot, hm, hne⟩
    have hout : ¬s.Exporting r := fun hx => h ⟨hepoch, .inl hx⟩
    have hin : ¬s.Importing r := fun hx => h ⟨hepoch, .inr hx⟩
    rw [if_neg hout, if_neg hin]
    exact ⟨_, rfl⟩

theorem state_ok (h : s.states r ≠ none) : ∃ v, s.state r = (.ok v, s) := by
  obtain ⟨v, hv⟩ := Option.ne_none_iff_exists'.mp h
  unfold state
  rw [hv]
  exact ⟨v, rfl⟩

theorem state_raises (h : s.states r = none) : ∃ msg, s.state r = s.raise msg := by
  unfold state
  rw [h]
  exact ⟨_, rfl⟩

end Operations
end MigrationCoordinator

namespace Op
open MigrationCoordinator

/-- An operation whose guard fails raises `MigrationError` before it writes anything, if Python
can represent what it asks for. -/
theorem call_of_not_allowed (hr : op.Representable d s) (h : ¬op.Allowed d s) :
    ∃ msg, op.call d s = s.raise msg := by
  cases op with
  | registerRunning r blocks => exact registerRunning_raises h
  | prepareMigrationOut snapshot blocks => exact prepareMigrationOut_raises hr h
  | exportMigration r => exact ⟨_, if_pos h⟩
  | reserveImport snapshot => exact reserveImport_raises hr h
  | importBlocks reservation blocks => exact importBlocks_raises h
  | commitImport reservation => exact commitImport_raises h
  | commitExport r e => exact commitExport_raises h
  | abort r e => exact abort_raises h
  | state r => exact state_raises (Decidable.not_not.mp h)
  | importedBlocks r e => exact absurd trivial h
  | sourceBlocks r => exact absurd trivial h

theorem call_of_not_representable (h : ¬op.Representable d s) :
    ∃ e next, op.call d s = (.error e, { s with nextBlockId := next }) ∧
      ∀ msg, e ≠ .migrationError msg := by
  cases op with
  | reserveImport snapshot => exact reserveImport_of_not_representable h
  | prepareMigrationOut snapshot blocks =>
    refine ⟨.valueError, s.nextBlockId, ?_, nofun⟩
    change s.prepareMigrationOut d snapshot blocks = _
    unfold MigrationCoordinator.prepareMigrationOut
    rw [SnapshotArgs.validateChecksum_of_not_printable h]
    rfl
  | registerRunning | exportMigration | importBlocks | commitImport | commitExport | importedBlocks
  | abort | state | sourceBlocks => exact absurd trivial h

theorem call_fails (h : ¬op.Allowed d s) :
    ∃ e next, op.call d s = (.error e, { s with nextBlockId := next }) := by
  by_cases hr : op.Representable d s
  · obtain ⟨msg, hmsg⟩ := call_of_not_allowed hr h
    exact ⟨_, s.nextBlockId, hmsg⟩
  · obtain ⟨e, next, hcall, -⟩ := call_of_not_representable hr
    exact ⟨e, next, hcall⟩

theorem call_of_allowed (hs : s.WellFormed) (h : op.Allowed d s) :
    ∃ v, op.call d s = (.ok v, op.after s) := by
  cases op with
  | registerRunning r blocks => exact ⟨(), registerRunning_ok h⟩
  | prepareMigrationOut snapshot blocks => exact ⟨(), prepareMigrationOut_ok h.1 h.2.1 h.2.2⟩
  | exportMigration r => exact exportMigration_ok hs h
  | reserveImport snapshot => exact ⟨_, reserveImport_ok h⟩
  | importBlocks reservation blocks => exact ⟨(), importBlocks_ok h.1 h.2.1 h.2.2⟩
  | commitImport reservation => exact ⟨(), commitImport_ok h.1 h.2⟩
  | commitExport r e => exact ⟨(), commitExport_ok hs h⟩
  | abort r e => exact ⟨(), abort_ok h⟩
  | state r => exact state_ok h
  | importedBlocks r e => exact ⟨_, rfl⟩
  | sourceBlocks r => exact ⟨_, rfl⟩

def target : Op → Option String
  | .registerRunning r _ | .exportMigration r | .commitExport r _ | .abort r _ => some r
  | .prepareMigrationOut snapshot _ | .reserveImport snapshot => some snapshot.requestId
  | .importBlocks reservation _ | .commitImport reservation => some reservation.requestId
  | .importedBlocks _ _ | .state _ | .sourceBlocks _ => none

theorem after_of_ne {r : String} (h : op.target ≠ some r) :
    (op.after s).states r = s.states r ∧ (op.after s).snapshots r = s.snapshots r ∧
      (op.after s).sourceBlocks r = s.sourceBlocks r := by
  cases op with
  | importedBlocks | state | sourceBlocks => exact ⟨rfl, rfl, rfl⟩
  | registerRunning r' | prepareMigrationOut snapshot | exportMigration r'
  | reserveImport snapshot | importBlocks reservation | commitImport reservation
  | commitExport r' | abort r' =>
    have hne : r ≠ _ := fun he => h (congrArg some he.symm)
    simp only [after, setState, dropImport, Function.update_of_ne hne, and_self]

theorem after_key_of_ne {r : String} (h : op.target ≠ some r) (e : ℤ) :
    (op.after s).reservations (r, e) = s.reservations (r, e) ∧
      (op.after s).imported (r, e) = s.imported (r, e) := by
  cases op with
  | importedBlocks | state | sourceBlocks => exact ⟨rfl, rfl⟩
  | registerRunning | prepareMigrationOut | exportMigration | commitImport | commitExport =>
    exact ⟨rfl, rfl⟩
  | reserveImport snapshot =>
    have hne : (r, e) ≠ snapshot.key := fun he => h (congrArg (fun k : Key => some k.1) he.symm)
    exact ⟨Function.update_of_ne hne _ _, rfl⟩
  | importBlocks reservation =>
    have hne : (r, e) ≠ reservation.key := fun he => h (congrArg (fun k : Key => some k.1) he.symm)
    exact ⟨rfl, Function.update_of_ne hne _ _⟩
  | abort r' e' =>
    have hne : (r, e) ≠ (r', e') := fun he => h (congrArg (fun k : Key => some k.1) he.symm)
    exact ⟨Function.update_of_ne hne _ _, Function.update_of_ne hne _ _⟩

/-- The operations that put a request into the state of an export. -/
def exports : Op → Bool
  | .prepareMigrationOut _ _ | .exportMigration _ => true
  | _ => false

theorem not_exporting_after {r : String} (hx : op.exports = false) (h : op.target = some r) :
    ¬(op.after s).Exporting r := by
  intro hr
  cases op with
  | importedBlocks | state | sourceBlocks => cases h
  | prepareMigrationOut | exportMigration => cases hx
  | registerRunning r' | reserveImport snapshot | importBlocks reservation
  | commitImport reservation | commitExport r' =>
    cases h
    simp [after, Exporting, setState] at hr
  | abort r' =>
    cases h
    have hstate := Function.update_self r (if s.Exporting r then some .running else none) s.states
    unfold Exporting at hr
    simp only [after, setState, dropImport, hstate] at hr
    split at hr
    · simp at hr
    · simp at hr

/-- A request whose export is in progress is exported by the operation, or was before it. -/
theorem exporting_after {r : String} (h : op.Allowed d s) (hr : (op.after s).Exporting r) :
    (∃ snapshot blocks, op = .prepareMigrationOut snapshot blocks ∧ snapshot.requestId = r) ∨
      s.Exporting r ∧ (op = .exportMigration r ∨ op.target ≠ some r) ∧
        (op.after s).snapshots r = s.snapshots r ∧
        (op.after s).sourceBlocks r = s.sourceBlocks r := by
  by_cases htarget : op.target = some r
  · cases op with
    | importedBlocks | state | sourceBlocks => cases htarget
    | prepareMigrationOut snapshot blocks =>
      exact .inl ⟨snapshot, blocks, rfl, Option.some.inj htarget⟩
    | exportMigration r' =>
      cases htarget
      exact .inr ⟨.inl h, .inl rfl, rfl, rfl⟩
    | registerRunning | reserveImport | importBlocks | commitImport | commitExport | abort =>
      exact absurd hr (not_exporting_after rfl htarget)
  · obtain ⟨hstate, hkept⟩ := after_of_ne (s := s) htarget
    unfold Exporting at hr
    rw [hstate] at hr
    exact .inr ⟨hr, .inr htarget, hkept⟩

theorem wellFormed_after (hs : s.WellFormed) (h : op.Allowed d s) : (op.after s).WellFormed := by
  intro r hr
  rcases exporting_after h hr with ⟨snapshot, blocks, rfl, rfl⟩ | ⟨hexp, -, hsnap, hblocks⟩
  · simp only [after, setState, Function.update_self]
    exact ⟨⟨snapshot, rfl⟩, blocks, rfl⟩
  · rw [hsnap, hblocks]
    exact hs r hexp

theorem call_snd (hs : s.WellFormed) : (op.Allowed d s ∧ (op.call d s).2 = op.after s) ∨
    ¬op.Allowed d s ∧ ∃ next, (op.call d s).2 = { s with nextBlockId := next } := by
  by_cases h : op.Allowed d s
  · obtain ⟨v, hv⟩ := call_of_allowed hs h
    exact .inl ⟨h, congrArg Prod.snd hv⟩
  · obtain ⟨e, next, hcall⟩ := call_fails h
    exact .inr ⟨h, next, congrArg Prod.snd hcall⟩

theorem wellFormed_call (hs : s.WellFormed) : (op.call d s).2.WellFormed := by
  rcases call_snd hs with ⟨h, heq⟩ | ⟨-, next, heq⟩
  · rw [heq]
    exact wellFormed_after hs h
  · rw [heq]
    exact hs

end Op
end Spec

namespace MigrationCoordinator
open Machine

def step (d : Runtime) (s : MigrationCoordinator) (op : Op) : Option MigrationCoordinator :=
  some (op.call d s).2

def Reachable (d : Runtime) (s : MigrationCoordinator) : Prop :=
  ∃ ops, run (step d) init ops = some s

theorem wellFormed_of_reachable {d : Runtime} {s : MigrationCoordinator} (h : Reachable d s) :
    s.WellFormed := by
  obtain ⟨ops, hrun⟩ := h
  have hany : Meets (step d) (fun _ _ => True) init ops := meets_true
  refine run_invariant (fun t op t' ht _ hstep => ?_) wellFormed_init hany hrun
  cases hstep
  exact Op.wellFormed_call ht

/-- A call that does not succeed raises `MigrationError` and leaves all six fields as they were, if
and only if Python can represent what it asks for. -/
theorem failed_operations_are_atomic_iff (d : Runtime) {s : MigrationCoordinator}
    (hs : Reachable d s) (op : Op) :
    ((∃ v, (op.call d s).1 = .ok v) ∨ ∃ msg, op.call d s = (.error (.migrationError msg), s)) ↔
      op.Representable d s := by
  constructor
  · intro h
    by_contra hr
    obtain ⟨e, next, hcall, he⟩ := Op.call_of_not_representable hr
    rcases h with ⟨v, hv⟩ | ⟨msg, hmsg⟩
    · rw [hcall] at hv
      cases hv
    · rw [hcall] at hmsg
      exact he msg (Except.error.inj (congrArg Prod.fst hmsg))
  · intro hr
    by_cases h : op.Allowed d s
    · obtain ⟨v, hv⟩ := Op.call_of_allowed (wellFormed_of_reachable hs) h
      exact .inl ⟨v, by rw [hv]⟩
    · exact .inr (Op.call_of_not_allowed hr h)

section Protocol
variable {d : Runtime} {s : MigrationCoordinator} {op : Op}

/-- The request and the transition rule of the protocol that an operation stands for. -/
def rule (s : MigrationCoordinator) : Op → Option (String × Effect)
  | .prepareMigrationOut snapshot _ => some (snapshot.requestId, .freeze)
  | .exportMigration r => some (r, .ship)
  | .reserveImport snapshot => some (snapshot.requestId, .reserve)
  | .importBlocks reservation _ => some (reservation.requestId, .fill)
  | .commitImport reservation => some (reservation.requestId, .activate)
  | .commitExport r _ => some (r, .release)
  | .abort r _ => some (r, if s.Exporting r then .unfreeze else .dropImport)
  | _ => none

/-- What the protocol asks for and the class does not check: a reservation is made for a request
that is not here, and filled while the import is in progress. -/
def Orderly (s : MigrationCoordinator) : Op → Prop
  | .reserveImport snapshot =>
      s.states snapshot.requestId = none ∨ s.states snapshot.requestId = some .released
  | .importBlocks reservation _ => s.Importing reservation.requestId
  | _ => True

theorem moves_of_allowed {r : String} {ef : Effect} (hop : op.Allowed d s) (ho : Orderly s op)
    (hrule : rule s op = some (r, ef)) : ef.Moves (s.states r) ((op.after s).states r) := by
  cases op with
  | registerRunning | importedBlocks | state | sourceBlocks => cases hrule
  | prepareMigrationOut snapshot =>
    cases hrule
    exact ⟨hop.2.1, Function.update_self _ _ _⟩
  | exportMigration =>
    cases hrule
    exact ⟨.inl hop, .inr (Function.update_self _ _ _)⟩
  | reserveImport =>
    cases hrule
    exact ⟨ho, Function.update_self _ _ _⟩
  | importBlocks =>
    cases hrule
    exact ⟨ho, .inr (Function.update_self _ _ _)⟩
  | commitImport =>
    cases hrule
    exact ⟨hop.1, Function.update_self _ _ _⟩
  | commitExport =>
    cases hrule
    exact ⟨hop.1, Function.update_self _ _ _⟩
  | abort r' epoch =>
    cases hrule
    have hafter : ((Op.abort r epoch).after s).states r = _ := Function.update_self _ _ _
    rw [hafter]
    by_cases hexp : s.Exporting r
    · rw [if_pos hexp, if_pos hexp]
      exact ⟨hexp, rfl⟩
    · rw [if_neg hexp, if_neg hexp]
      exact ⟨hop.2.resolve_left hexp, rfl⟩

end Protocol

section Observe
variable {γ : Type} (d : Runtime) (watch : MigrationCoordinator → Op → γ → γ)

/-- The coordinator beside a record of its successful calls. -/
def observe (s : MigrationCoordinator × γ) (op : Op) : Option (MigrationCoordinator × γ) :=
  match op.call d s.1 with
  | (.ok _, t) => some (t, watch s.1 op s.2)
  | (.error _, t) => some (t, s.2)

variable {d watch} {s s' : MigrationCoordinator × γ} {op : Op}

theorem observe_of_allowed (hs : s.1.WellFormed) (h : op.Allowed d s.1) :
    observe d watch s op = some (op.after s.1, watch s.1 op s.2) ∧ (op.after s.1).WellFormed := by
  obtain ⟨v, hv⟩ := Op.call_of_allowed hs h
  unfold observe
  rw [hv]
  exact ⟨rfl, Op.wellFormed_after hs h⟩

theorem observe_of_not_allowed (h : ¬op.Allowed d s.1) :
    ∃ next, observe d watch s op = some ({ s.1 with nextBlockId := next }, s.2) := by
  obtain ⟨e, next, hcall⟩ := Op.call_fails h
  unfold observe
  rw [hcall]
  exact ⟨next, rfl⟩

theorem observe_preserves {I : MigrationCoordinator × γ → Prop} (hs : s.1.WellFormed)
    (hI : ∀ next, I ({ s.1 with nextBlockId := next }, s.2))
    (h : op.Allowed d s.1 → I (op.after s.1, watch s.1 op s.2))
    (hstep : observe d watch s op = some s') : s'.1.WellFormed ∧ I s' := by
  by_cases hop : op.Allowed d s.1
  · rw [(observe_of_allowed hs hop).1] at hstep
    cases hstep
    exact ⟨Op.wellFormed_after hs hop, h hop⟩
  · obtain ⟨next, heq⟩ := observe_of_not_allowed hop
    rw [heq] at hstep
    cases hstep
    exact ⟨hs, hI next⟩

theorem wellFormed_of_run {ops : List Op} (hs : s.1.WellFormed)
    (hrun : run (observe d watch) s ops = some s') : s'.1.WellFormed := by
  refine run_invariant (I := fun s => s.1.WellFormed) (fun t op t' ht _ hstep => ?_) hs meets_true
    hrun
  exact (observe_preserves (I := fun _ => True) ht (fun _ => trivial) (fun _ => trivial) hstep).1

end Observe

section Sample

/-- Request `r`, with two blocks in one group. -/
def sampleArgs (epoch : ℤ) : SnapshotArgs where
  requestId := "r"
  migrationEpoch := epoch
  promptTokenIds := [5]
  allTokenIds := [5, 7]
  outputTokenIds := [7]
  numComputedTokens := 2
  maxTokens := 8
  kvGroupBlockCounts := [2]

def sampleRuntime : Runtime where
  maxStrDigits := 4300
  maxList := 4294967296
  sha256 bytes := toString bytes.length
  dumps args := args.requestId.toUTF8.toList

def sampleSnapshot (epoch : ℤ) (h : 0 < epoch := by decide) : RequestMigrationSnapshot where
  toSnapshotArgs :=
    { sampleArgs epoch with
      checksum := sampleRuntime.sha256 (sampleRuntime.dumps (sampleArgs epoch)) }
  requestId_ne := (by decide : "r" ≠ "")
  migrationEpoch_pos := h
  numComputedTokens_nonneg := (by decide : (0 : ℤ) ≤ 2)
  maxTokens_nonneg := (by decide : (0 : ℤ) ≤ 8)
  numComputedTokens_le := (by decide : (2 : ℤ) ≤ [(5 : ℤ), 7].length)
  protocolVersion_eq := rfl
  kvGroupBlockCounts_nonneg := (by decide : ∀ count ∈ [(2 : ℤ)], 0 ≤ count)

theorem secondEpoch_pos : (0 : ℤ) < 2 := by decide

def sampleBlock (ordinal : ℤ) : KVBlock := ⟨0, ordinal, [1], ""⟩

/-- The payload of an export of `r` has the wrong size. -/
theorem failed_operations_are_atomic_sample :
    ∃ s, run (step sampleRuntime) init [.registerRunning "r" []] = some s ∧
      ((∃ v, ((Op.prepareMigrationOut (sampleSnapshot 1) []).call sampleRuntime s).1 = .ok v) ∨
        ∃ msg, (Op.prepareMigrationOut (sampleSnapshot 1) []).call sampleRuntime s =
          (.error (.migrationError msg), s)) := by
  have hprintable : (sampleSnapshot 1).Printable sampleRuntime.toLimits := by decide +kernel
  exact ⟨_, rfl, (failed_operations_are_atomic_iff sampleRuntime ⟨[.registerRunning "r" []], rfl⟩
    (.prepareMigrationOut _ [])).mpr hprintable⟩

/-- A snapshot with one small group and one that no list can hold. -/
def hugeSnapshot : RequestMigrationSnapshot :=
  { sampleSnapshot 1 Int.one_pos with
    kvGroupBlockCounts := [2, 1000000000000000000000000000000]
    kvGroupBlockCounts_nonneg := by decide }

/-- `reserve_import` raises `OverflowError`, and the ids of the small group are gone. -/
theorem failed_reservation_not_atomic : Reachable sampleRuntime init ∧
    (Op.reserveImport hugeSnapshot).call sampleRuntime init =
      (.error .overflowError, { init with nextBlockId := 2 }) := by
  have hintact : hugeSnapshot.Intact sampleRuntime := by decide +kernel
  refine ⟨⟨[], rfl⟩, ?_⟩
  change init.reserveImport sampleRuntime hugeSnapshot = _
  unfold reserveImport
  rw [SnapshotArgs.validateChecksum_of_intact hintact]
  rfl

end Sample
end MigrationCoordinator

end Llumnix.V1
