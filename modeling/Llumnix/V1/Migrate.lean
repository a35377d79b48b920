import Llumnix.Coroutine.Replay
import Llumnix.V1.Protocol

/-! The V1 migration coroutines of `Manager`. -/
namespace Llumnix.V1
open Coroutine

abbrev Coro (α : Type) := Prog World Call Call.Reply Exc α

/-- Arguments of `_migrate_v1_request_with_retry`. -/
structure Params where
  sourceId : String
  targetId : String
  requestId : String
  epoch : ℕ
  sourceEndpoint : String
  targetEndpoint : String
  serverInfo : ServerInfo
  incrementalPrecopy : Bool

/-- `await src.<method>.remote(..)` or `await dst.<method>.remote(..)`. -/
def rpc (i : Side) (m : Method) : Coro m.Reply := Prog.call (Call.rpc i m)

def lookupInstance (instanceId : String) : Coro Unit :=
  .read fun w =>
    if instanceId ∈ w.instances then .write (·.log (.lookup instanceId true)) (.ret ())
    else .write (·.log (.lookup instanceId false)) (.raise (.keyError instanceId))

def cleanupV1IncrementalPrecopy (p : Params) : Coro Unit :=
  .gather [.rpc .source (.incrementalAbort p.requestId),
    .rpc .target (.incrementalAbort p.requestId)] (.ret ())

/-- One iteration of the pre-copy loop over the layers. -/
def precopyLayer (p : Params) (session : String) (sourceIds targetIds : List ℕ)
    (layerName : String) : Coro Unit := do
  let manifest ← rpc .source
    (.incrementalSendLayerWire session layerName sourceIds targetIds p.targetEndpoint)
  rpc .target (.incrementalReceiveLayer session manifest p.sourceEndpoint)

/-- The `try` block of `_run_v1_incremental_precopy`. -/
def tryV1IncrementalPrecopy (p : Params) : Coro (List (ℕ × ℕ)) := do
  let sourceSession ← rpc .source (.incrementalBeginWire p.requestId p.epoch)
  let (sourceGroups, blockCounts) ← rpc .source (.incrementalImmutableBlocks p.requestId)
  if sourceGroups.length ≠ 1 ∨ (sourceGroups.headD []).isEmpty then
    rpc .source (.incrementalAbort p.requestId)
    pure []
  else
    let targetGroups ← rpc .target (.incrementalPrepareInWire sourceSession blockCounts)
    if targetGroups.length ≠ 1 ∨ (targetGroups.headD []).isEmpty then
      rpc .source (.incrementalAbort p.requestId)
      rpc .target (.incrementalAbort p.requestId)
      pure []
    else
      let sourceIds := sourceGroups.headD []
      let targetIds := targetGroups.headD []
      let pairs := sourceIds.zip targetIds
      let preview ← rpc .source (.incrementalPreviewWire p.requestId (p.epoch + 1) pairs)
      let layers ← rpc .source .migrationLayerNames
      Prog.forEach (precopyLayer p preview sourceIds targetIds) layers
      let _ ← rpc .target (.incrementalCommitInWire preview)
      let _ ← rpc .source (.incrementalAppendWire p.requestId (p.epoch + 1) pairs)
      pure pairs

/-- `_run_v1_incremental_precopy`: any failure falls back to a full transfer. -/
def runV1IncrementalPrecopy (p : Params) : Coro (List (ℕ × ℕ)) :=
  (tryV1IncrementalPrecopy p).tryCatch fun _ =>
    (cleanupV1IncrementalPrecopy p).bind fun _ => .ret []

/-- One iteration of the inner loop of `_migrate_v1_request`. -/
def transferLayer (p : Params) (synced : List (ℕ × ℕ)) (groupSrc groupDst : List ℕ)
    (layerName : String) : Coro Unit := do
  let manifest ← rpc .source (.migrationSendLayer p.requestId p.epoch layerName groupSrc groupDst
    p.targetEndpoint synced.length)
  rpc .target (.migrationReceiveLayer p.requestId p.epoch manifest p.sourceEndpoint synced)

/-- The two nested loops of `_migrate_v1_request`. -/
def transferLayers (p : Params) (synced : List (ℕ × ℕ)) (sourceBlocks targetBlocks : List (List ℕ))
    (layers : List String) : Coro Unit :=
  Prog.forEach (fun g => Prog.forEach (transferLayer p synced g.1 g.2) layers)
    (sourceBlocks.zip targetBlocks)

/-- The target confirms before the source lets go. -/
def commitBoth (p : Params) (snapshotWire : String) : Coro Unit := do
  rpc .target (.migrationCommit p.requestId p.epoch true)
  rpc .target (.registerMigratedRequest p.requestId snapshotWire p.serverInfo)
  rpc .source (.migrationCommit p.requestId p.epoch false)
  rpc .source (.finishMigratedOut p.requestId)
  if p.incrementalPrecopy then cleanupV1IncrementalPrecopy p else pure ()

/-- `_migrate_v1_request` from the freeze on. -/
def cutover (p : Params) (synced : List (ℕ × ℕ)) : Coro Unit := do
  let snapshotWire ← rpc .source (.migrationPrepareOutWire p.requestId p.epoch)
  let targetBlocks ← rpc .target (.migrationPrepareInWire snapshotWire)
  let sourceBlocks ← rpc .source (.migrationSourceBlocks p.requestId p.epoch)
  let layers ← rpc .source .migrationLayerNames
  transferLayers p synced sourceBlocks targetBlocks layers
  commitBoth p snapshotWire

def migrateV1Request (p : Params) : Coro Unit := do
  lookupInstance p.sourceId
  lookupInstance p.targetId
  let synced ← if p.incrementalPrecopy then runV1IncrementalPrecopy p else pure []
  cutover p synced

/-- The calls gathered by `_cleanup_v1_migration`. -/
def cleanupCalls (p : Params) : List Call :=
  [.rpc .target (.migrationAbort p.requestId p.epoch true),
    .rpc .target (.abortMigratedRequest p.requestId),
    .rpc .source (.migrationAbort p.requestId p.epoch false),
    .rpc .source (.incrementalAbort p.requestId),
    .rpc .target (.incrementalAbort p.requestId)]

def cleanupV1Migration (p : Params) : Coro Unit := do
  lookupInstance p.sourceId
  lookupInstance p.targetId
  .gather (cleanupCalls p) (.ret ())

/-- `_check_instance_error((source_id, target_id))`, whose result is not used here. A probe
changes nothing, so that the first is out before the second look-up does not matter. -/
def checkInstanceError (p : Params) : Coro Unit := do
  lookupInstance p.sourceId
  lookupInstance p.targetId
  .gather [.rpc .source .isReady, .rpc .target .isReady] (.ret ())

/-- The table updates after a completed migration. -/
def World.recordMigrated (p : Params) (w : World) : World :=
  { w with
    requestInstance := some p.targetId
    requestInstances := some [p.targetId]
    v1MigrationRetries := none
    v1RequestLastMigrationTime := some w.now }

def World.countRetry (w : World) : World :=
  { w with v1MigrationRetries := some (w.v1MigrationRetries.getD 0 + 1) }

def World.dropRetries (w : World) : World := { w with v1MigrationRetries := none }

def maxAttempts : ℕ := 2

/-- The `except` clauses; the result says whether the function returns. -/
def handleFailure (p : Params) (attempt : ℕ) (e : Exc) : Coro Bool :=
  if e.isActorError then (checkInstanceError p).bind fun _ => .ret true
  else if e.notMigratable then .ret true
  else (cleanupV1Migration p).bind fun _ =>
    if attempt < maxAttempts - 1 then
      .write World.countRetry ((Prog.call (Call.sleep (attempt + 1))).bind fun _ => .ret false)
    else .write World.dropRetries (.ret false)

def attemptOnce (p : Params) (attempt : ℕ) : Coro Bool :=
  ((migrateV1Request p).bind fun _ => .write (World.recordMigrated p) (.ret true)).tryCatch
    (handleFailure p attempt)

def retryLoop (p : Params) : ℕ → Coro Unit
  | 0 => .ret ()
  | n + 1 => (attemptOnce p (maxAttempts - (n + 1))).bind fun done =>
      if done then .ret () else retryLoop p n

def migrateV1RequestWithRetry (p : Params) : Coro Unit := retryLoop p maxAttempts

/-- A request running on `s`, to be moved to `t`. -/
def sampleParams : Params where
  sourceId := "s"
  targetId := "t"
  requestId := "r"
  epoch := 1
  sourceEndpoint := "s:1"
  targetEndpoint := "t:1"
  serverInfo := ⟨"api"⟩
  incrementalPrecopy := false

def sampleWorld : World where
  source := some .running
  target := none
  targetAlive := true
  targetLost := false
  instances := ["s", "t"]
  requestInstance := some "s"
  requestInstances := some ["s"]
  v1MigrationRetries := none
  v1RequestLastMigrationTime := none
  now := 0
  trace := []

/-! ### Runs that are computed -/

/-- The state in which a call that takes effect leaves the request, its transfers completed. -/
def Effect.next : Effect → Option MigrationState → Option MigrationState
  | .freeze, _ => some .migratingOut
  | .ship, _ => some .outReady
  | .reserve, _ => some .importing
  | .fill, _ => some .importReady
  | .activate, _ | .unfreeze, _ => some .running
  | .release, _ => some .released
  | .dropImport, _ | .remove, _ => none
  | .keep, s => s

/-- Two blocks in one group with one layer, the first of which can be copied ahead. -/
def sampleReply : (m : Method) → m.Reply
  | .migrationPrepareOutWire _ _ => "snapshot"
  | .migrationPrepareInWire _ => [[3, 4]]
  | .migrationSourceBlocks _ _ => [[7, 8]]
  | .migrationLayerNames => ["attn.0"]
  | .migrationSendLayer .. => ["kv.1"]
  | .incrementalBeginWire _ _ => "session"
  | .incrementalImmutableBlocks _ => ([[7]], [1])
  | .incrementalPrepareInWire _ _ => [[3]]
  | .incrementalPreviewWire _ _ _ => "preview"
  | .incrementalSendLayerWire .. => "kv.0"
  | .incrementalCommitInWire _ => "committed"
  | .incrementalAppendWire _ _ _ => "appended"
  | .isReady => true
  | .migrationReceiveLayer .. | .migrationCommit _ _ _ | .migrationAbort _ _ _
  | .registerMigratedRequest _ _ _ | .finishMigratedOut _ | .abortMigratedRequest _
  | .incrementalReceiveLayer _ _ _ | .incrementalAbort _ => ()

section Script
variable {strict : Bool} (n : ℕ)

/-- The `n`-th open call takes effect; with an exception given, its answer is lost. -/
def done (lost : Option Exc) : Cue (host strict) := .serve n fun
  | .rpc i m, w =>
    if h : w.alive i = true ∧ (m.effect i).Moves (w.state i) ((m.effect i).next (w.state i)) then
      let r : Except Exc m.Reply := lost.elim (.ok (sampleReply m)) .error
      some ⟨(r, _), Serves.done i m w _ r h.1 h.2⟩
    else none
  | .sleep k, w => some ⟨(.ok (), _), .sleep k w⟩

def fails (e : Exc) : Cue (host strict) := .serve n fun
  | .rpc i m, w =>
    if h : w.alive i = true ∧ (strict = false ∨
        ¬(m.effect i = .unfreeze ∨ m.effect i = .dropImport ∨ m.effect i = .remove)) then
      some ⟨(.error e, _), .failed i m w e h.1 fun hs hm =>
        absurd hm (h.2.resolve_left (by simp [hs]))⟩
    else none
  | .sleep _, _ => none

def unanswered (msg : String) : Cue (host strict) := .serve n fun
  | .rpc i m, w =>
    if h : w.alive i = false then some ⟨(.error (.rayActorError msg), _), .dead i m w msg h⟩
    else none
  | .sleep _, _ => none

def dies : Cue (host strict) := .env fun w => some ⟨w.killTarget, .die w⟩

end Script
end Llumnix.V1
