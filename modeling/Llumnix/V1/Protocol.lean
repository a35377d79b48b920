import Llumnix.Coroutine.Basic

/-! The V1 true-KV migration protocol as the Manager sees it: the calls it makes to the
source and the target Llumlet of one request, and what each call does to the request on
the EngineCore that receives it. -/
namespace Llumnix.V1

/-- `v1_migration.MigrationState`. -/
inductive MigrationState
  | running
  | migratingOut
  | outReady
  | importing
  | importReady
  | released
  deriving DecidableEq, Repr

/-- Exceptions, told apart as far as the `except` clauses of the Manager do. -/
inductive Exc
  | rayActorError (msg : String)
  | keyError (key : String)
  | exception (msg : String)
  deriving DecidableEq, Repr

namespace Exc

def str : Exc → String
  | .rayActorError msg => msg
  | .keyError key => "'" ++ key ++ "'"
  | .exception msg => msg

/-- `isinstance(exc, ray.exceptions.RayActorError)`. -/
def isActorError : Exc → Bool
  | .rayActorError _ => true
  | _ => false

/-- `pattern in text`. -/
def occursIn (pattern : List Char) : List Char → Bool
  | [] => pattern.isEmpty
  | c :: text => pattern.isPrefixOf (c :: text) || occursIn pattern text

/-- `"request is not migratable" in str(exc)`. -/
def notMigratable (e : Exc) : Bool :=
  occursIn "request is not migratable".toList e.str.toList

/-- The exception ends the migration without clean-up. -/
def skipsCleanup (e : Exc) : Bool := e.isActorError || e.notMigratable

end Exc

/-- The two ends of one migration. -/
inductive Side
  | source
  | target
  deriving DecidableEq, Repr

/-- The part of `ServerInfo` that travels with a request. -/
structure ServerInfo where
  serverId : String
  deriving DecidableEq, Repr

/-- Remote methods of a Llumlet used by V1 migration, with the arguments sent. -/
inductive Method
  | migrationPrepareOutWire (requestId : String) (epoch : ℕ)
  | migrationPrepareInWire (snapshotWire : String)
  | migrationSourceBlocks (requestId : String) (epoch : ℕ)
  | migrationLayerNames
  | migrationSendLayer (requestId : String) (epoch : ℕ) (layerName : String)
      (sourceBlockIds targetBlockIds : List ℕ) (targetEndpoint : String)
      (syncedPrefixBlockCount : ℕ)
  | migrationReceiveLayer (requestId : String) (epoch : ℕ) (manifest : List String)
      (sourceEndpoint : String) (syncedPrefixBlockPairs : List (ℕ × ℕ))
  | migrationCommit (requestId : String) (epoch : ℕ) (incoming : Bool)
  | migrationAbort (requestId : String) (epoch : ℕ) (incoming : Bool)
  | registerMigratedRequest (requestId snapshotWire : String) (serverInfo : ServerInfo)
  | finishMigratedOut (requestId : String)
  | abortMigratedRequest (requestId : String)
  | incrementalBeginWire (requestId : String) (epoch : ℕ)
  | incrementalImmutableBlocks (requestId : String)
  | incrementalPrepareInWire (sessionWire : String) (blockCounts : List ℕ)
  | incrementalPreviewWire (requestId : String) (epoch : ℕ) (pairs : List (ℕ × ℕ))
  | incrementalSendLayerWire (sessionWire layerName : String)
      (sourceBlockIds targetBlockIds : List ℕ) (targetEndpoint : String)
  | incrementalReceiveLayer (sessionWire manifestWire sourceEndpoint : String)
  | incrementalCommitInWire (sessionWire : String)
  | incrementalAppendWire (requestId : String) (epoch : ℕ) (pairs : List (ℕ × ℕ))
  | incrementalAbort (requestId : String)
  | isReady
  deriving DecidableEq, Repr

namespace Method

def Reply : Method → Type
  | .migrationPrepareOutWire _ _ => String
  | .migrationPrepareInWire _ => List (List ℕ)
  | .migrationSourceBlocks _ _ => List (List ℕ)
  | .migrationLayerNames => List String
  | .migrationSendLayer .. => List String
  | .incrementalBeginWire _ _ => String
  | .incrementalImmutableBlocks _ => List (List ℕ) × List ℕ
  | .incrementalPrepareInWire _ _ => List (List ℕ)
  | .incrementalPreviewWire _ _ _ => String
  | .incrementalSendLayerWire .. => String
  | .incrementalCommitInWire _ => String
  | .incrementalAppendWire _ _ _ => String
  | .isReady => Bool
  | _ => Unit

/-- Calls made only in a batch whose failures are swallowed. -/
def gathered : Method → Bool
  | .migrationAbort _ _ _ | .abortMigratedRequest _ | .incrementalAbort _ | .isReady => true
  | _ => false

end Method

/-- What a call does to the request on the EngineCore. -/
inductive Effect
  | freeze
  | ship
  | reserve
  | fill
  | activate
  | release
  | unfreeze
  | dropImport
  | remove
  | keep
  deriving DecidableEq, Repr

def Method.effect : Side → Method → Effect
  | .source, .migrationPrepareOutWire _ _ => .freeze
  | .source, .migrationSourceBlocks _ _ => .ship
  | .source, .migrationSendLayer .. => .ship
  | .target, .migrationPrepareInWire _ => .reserve
  | .target, .migrationReceiveLayer .. => .fill
  | .target, .migrationCommit _ _ true => .activate
  | .source, .migrationCommit _ _ false => .release
  | .source, .migrationAbort _ _ false => .unfreeze
  | .target, .migrationAbort _ _ true => .dropImport
  | .target, .abortMigratedRequest _ => .remove
  | _, _ => .keep

/-- Transition rules of the protocol for one request; `none` is a request unknown to the
EngineCore. An operation outside its guard raises and does nothing. -/
def Effect.Moves : Effect → Option MigrationState → Option MigrationState → Prop
  | .freeze, s, s' => s = some .running ∧ s' = some .migratingOut
  | .ship, s, s' => (s = some .migratingOut ∨ s = some .outReady) ∧ (s' = s ∨ s' = some .outReady)
  | .reserve, s, s' => (s = none ∨ s = some .released) ∧ s' = some .importing
  | .fill, s, s' =>
      (s = some .importing ∨ s = some .importReady) ∧ (s' = s ∨ s' = some .importReady)
  | .activate, s, s' => s = some .importReady ∧ s' = some .running
  | .release, s, s' => s = some .outReady ∧ s' = some .released
  | .unfreeze, s, s' => (s = some .migratingOut ∨ s = some .outReady) ∧ s' = some .running
  | .dropImport, s, s' => (s = some .importing ∨ s = some .importReady) ∧ s' = none
  | .remove, _, s' => s' = none
  | .keep, s, s' => s' = s

instance : (e : Effect) → (s s' : Option MigrationState) → Decidable (e.Moves s s')
  | .freeze, _, _ | .activate, _, _ | .release, _, _ => inferInstanceAs (Decidable (_ ∧ _))
  | .ship, _, _ | .fill, _, _ => inferInstanceAs (Decidable ((_ ∨ _) ∧ (_ ∨ _)))
  | .reserve, _, _ | .unfreeze, _, _ | .dropImport, _, _ =>
      inferInstanceAs (Decidable ((_ ∨ _) ∧ _))
  | .remove, _, s' => inferInstanceAs (Decidable (s' = none))
  | .keep, s, s' => inferInstanceAs (Decidable (s' = s))

/-- The awaitables of the migration coroutines. -/
inductive Call
  | rpc (i : Side) (m : Method)
  | sleep (seconds : ℕ)
  deriving DecidableEq, Repr

def Call.Reply : Call → Type
  | .rpc _ m => m.Reply
  | .sleep _ => Unit

/-- Log of a run. `served` records whether the call took effect and how it was answered;
a call may fail after it took effect. -/
inductive Event
  | lookup (instanceId : String) (found : Bool)
  | issued (c : Call)
  | served (c : Call) (effective : Bool) (reply : Except Exc c.Reply)

/-- One request on the two EngineCores, and the Manager's tables for it. -/
structure World where
  source : Option MigrationState
  target : Option MigrationState
  targetAlive : Bool
  /-- The target died while the request was running on it. -/
  targetLost : Bool
  instances : List String
  requestInstance : Option String
  requestInstances : Option (List String)
  v1MigrationRetries : Option ℕ
  v1RequestLastMigrationTime : Option ℕ
  now : ℕ
  trace : List Event

namespace World

def log (w : World) (ev : Event) : World := { w with trace := w.trace ++ [ev] }

def alive (w : World) : Side → Bool
  | .source => true
  | .target => w.targetAlive

def state (w : World) : Side → Option MigrationState
  | .source => w.source
  | .target => w.target

def setState (w : World) (i : Side) (s : Option MigrationState) : World :=
  match i with
  | .source => { w with source := s }
  | .target => { w with target := s }

def killTarget (w : World) : World :=
  { w with
    targetAlive := false
    target := none
    targetLost := w.targetLost || (w.targetAlive && w.target == some .running) }

end World

/-- How a call is answered. With `strict` set, an abort sent to a live instance takes
effect whenever the transition rules allow it. -/
inductive Serves (strict : Bool) : (c : Call) → World → Except Exc c.Reply → World → Prop
  | sleep (n : ℕ) (w : World) :
      Serves strict (.sleep n) w (.ok ()) (w.log (.served (.sleep n) true (.ok ())))
  | dead (i : Side) (m : Method) (w : World) (msg : String) (h : w.alive i = false) :
      Serves strict (.rpc i m) w (.error (.rayActorError msg))
        (w.log (.served (.rpc i m) false (.error (.rayActorError msg))))
  | done (i : Side) (m : Method) (w : World) (s : Option MigrationState)
      (r : Except Exc m.Reply) (h : w.alive i = true) (hs : (m.effect i).Moves (w.state i) s) :
      Serves strict (.rpc i m) w r ((w.setState i s).log (.served (.rpc i m) true r))
  | failed (i : Side) (m : Method) (w : World) (e : Exc) (h : w.alive i = true)
      (hs : strict = true → (m.effect i = .unfreeze ∨ m.effect i = .dropImport ∨
        m.effect i = .remove) → ∀ s, ¬(m.effect i).Moves (w.state i) s) :
      Serves strict (.rpc i m) w (.error e) (w.log (.served (.rpc i m) false (.error e)))

/-- Moves of everything else: the target may die, other tasks register and deregister
instances, time passes. -/
inductive EnvMoves : World → World → Prop
  | die (w : World) : EnvMoves w w.killTarget
  | register (w : World) (ids : List String) : EnvMoves w { w with instances := ids }
  | tick (w : World) (t : ℕ) (h : w.now ≤ t) : EnvMoves w { w with now := t }

def host (strict : Bool) : Coroutine.Host World Call Call.Reply Exc where
  issue c w := w.log (.issued c)
  serve := Serves strict
  env := EnvMoves

end Llumnix.V1
