import Llumnix.Coroutine.Safe
import Llumnix.Legacy.Request
import Mathlib.Algebra.Ring.Nat

/-! `MigrationCoordinator` and `Llumlet._migrate_out_one_request`: live migration of one
request, as coroutines of the source instance. The destination is a parameter. -/
namespace Llumnix.Legacy

open Coroutine

/-- Remote methods of the destination used by one migration. -/
inductive Remote
  | migrateInPreAlloc (a : PreAlloc)
  | sendBlocks (srcBlocks dstBlocks : List ℕ)
  | freeDstPreAllocCache (requestId : String)
  | commitDstRequest (request : Request)
  deriving DecidableEq, Repr

def Remote.Reply : Remote → Type
  | .migrateInPreAlloc _ => List ℕ
  | _ => Unit

/-- The awaitables of a migration. The first two are events set by the engine loop. -/
inductive Call
  | stepDone
  | outputProcDone
  | remote (m : Remote)
  deriving DecidableEq, Repr

def Call.Reply : Call → Type
  | .stepDone => Bool
  | .outputProcDone => Unit
  | .remote m => m.Reply

/-- What the destination does with a call, whose replies may get lost, and what it does
otherwise. -/
structure Destination (D : Type) where
  serve : (m : Remote) → D → Except Exc m.Reply → D → Prop
  loses : Remote → Prop
  env : D → D → Prop

/-- The request on the source, and the destination. The queues and the last-stage list
count the entries of the request. -/
structure World (D : Type) where
  request : Request
  running : ℕ
  waiting : ℕ
  swapped : ℕ
  /-- `migrating_out_requests_last_stage`. -/
  lastStage : ℕ
  /-- The removal of the request is in `_step_done_event_queue`. -/
  stepDoneQueued : Bool
  /-- The engine loop has taken the request out, and it is not in the last-stage list yet. -/
  taken : Bool
  now : ℕ
  dst : D
  /-- `src_blocks` of each `send_blocks` so far. -/
  sent : List (List ℕ)
  /-- The block table as the current stage read it. -/
  snapshot : List ℕ
  /-- The block table when the request was taken out of the running queue. -/
  removed : Option (List ℕ)

structure Config where
  migrationLastStageMaxBlocks : ℕ
  migrationMaxStages : ℕ
  blockSize : ℕ
  promptLimit : ℕ
  disableAsyncOutputProc : Bool

variable {D : Type}

namespace World

/-- `_remove_running_request` of the engine loop, when the request is found. -/
def removeRunning (w : World D) : World D :=
  { w with
    running := w.running - 1
    request := { w.request with statusOverride := some .runningMigrating }
    stepDoneQueued := false
    taken := true
    removed := some w.request.blockTable }

def removeWaiting (w : World D) : World D :=
  { w with
    waiting := w.waiting - 1
    request := { w.request with statusOverride := some .waitingMigrating } }

def addRunning (w : World D) : World D :=
  { w with running := w.running + 1, request := { w.request with seqStatus := .running } }

def addWaiting (w : World D) : World D :=
  { w with waiting := w.waiting + 1, request := { w.request with seqStatus := .waiting } }

def addLastStage (w : World D) : World D :=
  { w with lastStage := w.lastStage + 1, taken := false }

def removeLastStage (w : World D) : World D := { w with lastStage := w.lastStage - 1 }

/-- The two appends before a stage is sent. -/
def stamp (stageBlockNum : ℕ) (w : World D) : World D :=
  { w with
    request := { w.request with
      stageTimestamps := w.request.stageTimestamps ++ [w.now]
      stageNumBlocksList := w.request.stageNumBlocksList ++ [stageBlockNum] } }

def start (w : World D) : World D :=
  { w with request := { w.request with migrationStartTime := some w.now } }

/-- `reset_migration_args_src` and `reset_status`. -/
def reset (w : World D) : World D :=
  { w with request := w.request.resetMigrationArgsSrc.resetStatus }

def freeSrcRequest (w : World D) : World D :=
  { w with request := { w.request with blockTable := [], numFullSlots := 0 } }

/-- `Llumlet.clear_migration_states` of the source: the requests in the last-stage list go
back to their queues. The assertion on the status comes after the list was emptied. -/
def clearMigrationStates (w : World D) : World D :=
  match w.request.status with
  | .runningMigrating => Nat.repeat addRunning w.lastStage { w with lastStage := 0 }
  | .waitingMigrating => Nat.repeat addWaiting w.lastStage { w with lastStage := 0 }
  | _ => { w with lastStage := 0 }

end World

/-- A call to the destination may be answered, may fail, and may fail after it took effect. -/
inductive Serves (X : Destination D) : (c : Call) → World D → Except Exc c.Reply → World D → Prop
  | found (w : World D) (h : 0 < w.running) : Serves X .stepDone w (.ok true) w.removeRunning
  | notFound (w : World D) (h : w.running = 0) :
      Serves X .stepDone w (.ok false) { w with stepDoneQueued := false }
  | outputProcDone (w : World D) : Serves X .outputProcDone w (.ok ()) w
  | answered (m : Remote) (w : World D) (r : Except Exc m.Reply) (d : D)
      (h : X.serve m w.dst r d) : Serves X (.remote m) w r { w with dst := d }
  | lost (m : Remote) (w : World D) (r : Except Exc m.Reply) (d : D) (e : Exc)
      (h : X.serve m w.dst r d) (hm : X.loses m) :
      Serves X (.remote m) w (.error e) { w with dst := d }
  | failed (m : Remote) (w : World D) (e : Exc) : Serves X (.remote m) w (.error e) w

/-- The engine gives the request its next slot, in a new block when the last one is full. -/
def Request.schedule (blockSize b : ℕ) (r : Request) : Request :=
  { r with
    blockTable :=
      if r.numFullSlots = r.blockTable.length * blockSize then r.blockTable ++ [b] else r.blockTable
    numFullSlots := r.numFullSlots + 1 }

/-- Moves of the source's engine, of the clock and of the destination. A request gets tokens
and finishes in a queue, or by the output of its last step. One that is preempted while its removal
is queued does not run again before the engine loop has looked at the queue. -/
inductive EnvMoves (X : Destination D) (blockSize : ℕ) : World D → World D → Prop
  | schedule (w : World D) (b : ℕ) (h : 0 < w.running) (hb : b ∉ w.request.blockTable) :
      EnvMoves X blockSize w { w with request := w.request.schedule blockSize b }
  | output (w : World D) (token : ℕ)
      (h : 0 < w.running + w.waiting + w.swapped ∨ w.taken = true) :
      EnvMoves X blockSize w { w with request := { w.request with
        tokenIds := w.request.tokenIds ++ [token], outputLen := w.request.outputLen + 1 } }
  | finish (w : World D) (h : 0 < w.running + w.waiting + w.swapped ∨ w.taken = true) :
      EnvMoves X blockSize w { w with
        running := 0, waiting := 0, swapped := 0
        request := { w.request with seqStatus := .finished, blockTable := [] } }
  | recompute (w : World D) (t : ℕ) (h : 0 < w.running) (ht : w.now < t) :
      EnvMoves X blockSize w { w with
        running := w.running - 1, waiting := w.waiting + 1, now := t
        request := { w.request with
          seqStatus := .waiting, lastPreemptionTime := some t
          blockTable := [], numFullSlots := 0 } }
  | swapOut (w : World D) (t : ℕ) (cpuBlocks : List ℕ) (h : 0 < w.running) (ht : w.now < t) :
      EnvMoves X blockSize w { w with
        running := w.running - 1, swapped := w.swapped + 1, now := t
        request := { w.request with
          seqStatus := .swapped, lastPreemptionTime := some t, blockTable := cpuBlocks } }
  | resume (w : World D) (blocks : List ℕ) (slots : ℕ) (h : 0 < w.waiting)
      (hf : w.request.finished = false) (hq : w.stepDoneQueued = false) :
      EnvMoves X blockSize w { w with
        waiting := w.waiting - 1, running := w.running + 1
        request := { w.request with
          seqStatus := .running, blockTable := blocks, numFullSlots := slots
          statusOverride := if w.request.statusOverride = some .waitingMigrating then none
            else w.request.statusOverride } }
  | swapIn (w : World D) (blocks : List ℕ) (h : 0 < w.swapped) (hf : w.request.finished = false)
      (hq : w.stepDoneQueued = false) :
      EnvMoves X blockSize w { w with
        swapped := w.swapped - 1, running := w.running + 1
        request := { w.request with seqStatus := .running, blockTable := blocks } }
  | tick (w : World D) (t : ℕ) (h : w.now ≤ t) : EnvMoves X blockSize w { w with now := t }
  | dst (w : World D) (d : D) (h : X.env w.dst d) : EnvMoves X blockSize w { w with dst := d }

def host (X : Destination D) (blockSize : ℕ) : Host (World D) Call Call.Reply Exc where
  issue
    | .remote (.sendBlocks srcBlocks _), w => { w with sent := w.sent ++ [srcBlocks] }
    | _, w => w
  serve := Serves X
  env := EnvMoves X blockSize

/-- Coroutines of the source. Their `except` clauses log and raise again. -/
abbrev Task (D α : Type) := Prog (World D) Call Call.Reply Exc α

def migrateInPreAlloc (a : PreAlloc) : Task D (List ℕ) :=
  Prog.call (Call.remote (.migrateInPreAlloc a))

def sendBlocks (srcBlocks dstBlocks : List ℕ) : Task D Unit :=
  Prog.call (Call.remote (.sendBlocks srcBlocks dstBlocks))

def freeDstPreAllocCache (requestId : String) : Task D Unit :=
  Prog.call (Call.remote (.freeDstPreAllocCache requestId))

def commitDstRequest (request : Request) : Task D Unit :=
  Prog.call (Call.remote (.commitDstRequest request))

/-- `list.remove` raises when there is no such entry. -/
def removeMigratingOutRequestLastStage : Task D Unit :=
  .read fun w =>
    if w.lastStage = 0 then .raise .valueError else .write World.removeLastStage (.ret ())

def removeRunningRequest (cfg : Config) : Task D Bool :=
  .write (fun w => { w with stepDoneQueued := true }) <|
  (Prog.call Call.stepDone).bind fun found =>
  if cfg.disableAsyncOutputProc then .ret found
  else (Prog.call Call.outputProcDone).bind fun _ => .ret found

/-- `_migrate_out_onestage` once the destination has answered the pre-allocation. -/
def sendStage (isLastStage : Bool) (srcBlocks dstBlocks : List ℕ) (stageBlockNum : ℕ) :
    Task D MigrationStatus :=
  if dstBlocks.length ≠ srcBlocks.length then
    if isLastStage then
      .write World.addRunning <| removeMigratingOutRequestLastStage.bind fun _ => .ret .abortedDst
    else .ret .abortedDst
  else .read fun w =>
    if w.request.shouldAbortMigration then .ret .abortedSrc
    else .write (World.stamp stageBlockNum) <| (sendBlocks srcBlocks dstBlocks).bind fun _ =>
      .read fun w =>
        if !isLastStage && w.request.shouldAbortMigration then .ret .abortedSrc
        else .ret (if isLastStage then .finished else .running)

def preAllocArgs (r : Request) (blockNum : ℕ) (tokenIds : List ℕ) : PreAlloc where
  requestId := r.requestId
  requestStatus := r.status
  requestArrivalTime := r.arrivalTime
  blockNum := blockNum
  tokenIds := tokenIds

/-- Live migration: everything except the block that is being written. -/
def liveStage (cfg : Config) (incrementalBlocks incrementalTokenIds : List ℕ) :
    Task D MigrationStatus :=
  let srcBlocks := incrementalBlocks.dropLast
  let tokenIds := incrementalTokenIds.take (srcBlocks.length * cfg.blockSize)
  let stageBlockNum := incrementalBlocks.length - 1
  .read fun w =>
    (migrateInPreAlloc (preAllocArgs w.request stageBlockNum tokenIds)).bind fun dstBlocks =>
      sendStage false srcBlocks dstBlocks stageBlockNum

/-- Last stage: stop inference, transfer all blocks. -/
def lastStage (cfg : Config) (incrementalBlocks incrementalTokenIds : List ℕ) :
    Task D MigrationStatus :=
  (removeRunningRequest cfg).bind fun found => .read fun w =>
    if !found || w.request.finished then .ret .abortedSrc
    else .write World.addLastStage <| .read fun w =>
      (migrateInPreAlloc
        (preAllocArgs w.request incrementalBlocks.length incrementalTokenIds)).bind fun dstBlocks =>
        sendStage true incrementalBlocks dstBlocks incrementalBlocks.length

def migrateOutOnestage (cfg : Config) : Task D MigrationStatus :=
  .read fun w =>
    if w.request.shouldAbortMigration then .ret .abortedSrc
    else
      let preStageNumBlocks := w.request.stageNumBlocksList.sum
      let (blocks, tokenIds) := w.request.incrementalBlocks cfg.blockSize preStageNumBlocks
      .write (fun w => { w with snapshot := w.request.blockTable }) <|
      if blocks.length ≤ cfg.migrationLastStageMaxBlocks ∨ w.request.blockingMigration = true then
        lastStage cfg blocks tokenIds
      else liveStage cfg blocks tokenIds

/-- `_migrate_out_multistage` with `n` stages to go. -/
def migrateOutStages (cfg : Config) : ℕ → Task D MigrationStatus
  | 0 => .ret .abortedSrc
  | n + 1 => (migrateOutOnestage cfg).bind fun status =>
      if status.isFinished then .ret status else migrateOutStages cfg n

def migrateOutMultistage (cfg : Config) : Task D MigrationStatus :=
  migrateOutStages cfg cfg.migrationMaxStages

/-- `remove_waiting_request` finds the request. -/
def World.removable (cfg : Config) (w : World D) : Prop :=
  0 < w.waiting ∧ w.request.nBlocks cfg.blockSize * cfg.blockSize ≤ cfg.promptLimit

instance (cfg : Config) (w : World D) : Decidable (w.removable cfg) :=
  inferInstanceAs (Decidable (_ ∧ _))

def migrateOutWaitingRequest (cfg : Config) : Task D MigrationStatus :=
  .read fun w =>
    if ¬w.removable cfg then .ret .abortedSrc
    else .write (fun w => w.removeWaiting.addLastStage) <| .read fun w =>
      (migrateInPreAlloc (preAllocArgs w.request (w.request.nBlocks cfg.blockSize)
        w.request.tokenIds)).bind fun dstBlocks => .read fun w =>
        if dstBlocks.length ≠ w.request.nBlocks cfg.blockSize then
          .write World.addWaiting <|
            removeMigratingOutRequestLastStage.bind fun _ => .ret .abortedDst
        else .ret .finished

/-- What `_migrate_out_one_request` does with the outcome. -/
def settle (status : MigrationStatus) : Task D (List String) :=
  if status = .finished then
    .read fun w => (commitDstRequest w.request).bind fun _ =>
      .write World.freeSrcRequest <| removeMigratingOutRequestLastStage.bind fun _ =>
        .read fun w => .ret [w.request.requestId]
  else .write World.reset <|
    if status = .abortedSrc then
      .read fun w => (freeDstPreAllocCache w.request.requestId).bind fun _ => .ret []
    else .ret []

def migrateOutOneRequest (cfg : Config) : Task D (List String) :=
  .read fun w =>
    match w.request.status with
    | .running => .write World.start <| (migrateOutMultistage cfg).bind settle
    | .waiting => .write World.start <| (migrateOutWaitingRequest cfg).bind settle
    | _ => .ret []

/-! Rules for the awaits of a migration. -/
section Rules
variable (X : Destination D) (blockSize : ℕ)

/-- No move of the environment breaks `P`. -/
def Stable (P : World D → Prop) : Prop := ∀ w w', P w → EnvMoves X blockSize w w' → P w'

variable {X blockSize} {I P : World D → Prop} {w : World D}

/-- A call to the destination: it is answered, or it fails with or without effect. -/
theorem safe_remote {m : Remote} {N : m.Reply → World D → Prop} {E : Exc → World D → Prop}
    (hw : P w) (hP : Stable X blockSize P) (hN : ∀ r, Stable X blockSize (N r))
    (hE : ∀ e, Stable X blockSize (E e)) (hPI : ∀ w, P w → I w) (hNI : ∀ r w, N r w → I w)
    (hEI : ∀ e w, E e w → I w)
    (hok : ∀ w r d, P w → X.serve m w.dst (.ok r) d →
      N r { (host X blockSize).issue (.remote m) w with dst := d })
    (herr : ∀ w e d, P w → (d = w.dst ∨ X.serve m w.dst (.error e) d ∨
        X.loses m ∧ ∃ r, X.serve m w.dst r d) →
      E e { (host X blockSize).issue (.remote m) w with dst := d }) :
    Safe (host X blockSize) I (Post N E) (Prog.call (Call.remote m)) w := by
  have hdst : ∀ w : World D, ((host X blockSize).issue (.remote m) w).dst = w.dst := by
    intro w
    cases m <;> rfl
  refine Safe.call (S := host X blockSize) (c := Call.remote m) hw hP hPI ?_
  intro w r w' hw hs w'' he
  have hNE : Post N E r w' := by
    change Serves X _ _ _ _ at hs
    cases hs with
    | answered _ _ r d h =>
      rw [hdst] at h
      cases r with
      | ok v => exact hok w v d hw h
      | error e => exact herr w e d hw (.inr (.inl h))
    | lost _ _ r d e h hm =>
      rw [hdst] at h
      exact herr w e d hw (.inr (.inr ⟨hm, r, h⟩))
    | failed _ _ e => exact herr w e _ hw (.inl (hdst w))
  cases r with
  | ok v =>
    have h := he.keep (hN v) hNE
    exact ⟨hNI v w'' h, h⟩
  | error e =>
    have h := he.keep (hE e) hNE
    exact ⟨hEI e w'' h, h⟩

/-- The engine loop takes the request out at a time of its own choosing. -/
theorem safe_removeRunning (cfg : Config) {Q : Bool → World D → Prop} {E : Exc → World D → Prop}
    (hi : I w) (hw : P { w with stepDoneQueued := true }) (hP : Stable X blockSize P)
    (hQ : ∀ found, Stable X blockSize (Q found)) (hPI : ∀ w, P w → I w)
    (hQI : ∀ found w, Q found w → I w)
    (hfound : ∀ w, P w → 0 < w.running → Q true w.removeRunning)
    (hnotFound : ∀ w, P w → Q false { w with stepDoneQueued := false }) :
    Safe (host X blockSize) I (Post Q E) (removeRunningRequest cfg) w := by
  have hret : ∀ found w, Q found w → Safe (host X blockSize) I (Post Q E) (.ret found) w :=
    fun found w h => .retOf h (hQ found) fun w h => ⟨hQI found w h, h⟩
  refine .write hi (Safe.seq (M := Q) ?_ fun found w h => ?_)
  · refine Safe.call (S := host X blockSize) (c := Call.stepDone) hw hP hPI ?_
    intro w reply w' h hs w'' he
    change Serves X .stepDone w reply w' at hs
    cases hs with
    | found _ hr =>
      have h' := he.keep (hQ true) (hfound w h hr)
      exact ⟨hQI true w'' h', h'⟩
    | notFound =>
      have h' := he.keep (hQ false) (hnotFound w h)
      exact ⟨hQI false w'' h', h'⟩
  · split
    · exact hret found w h
    · refine Safe.seq (M := fun _ => Q found) ?_ fun _ w h => hret found w h
      refine Safe.call (S := host X blockSize) (c := Call.outputProcDone) h
        (hQ found) (hQI found) ?_
      intro w reply w' h hs w'' he
      change Serves X .outputProcDone w reply w' at hs
      cases hs
      have h' := he.keep (hQ found) h
      exact ⟨hQI found w'' h', h'⟩

/-- Partial correctness of what a coroutine returns; it may also raise. -/
abbrev Returns {α : Type} (X : Destination D) (blockSize : ℕ) (N : α → World D → Prop)
    (p : Task D α) (w : World D) : Prop :=
  Safe (host X blockSize) (fun _ => True) (Post N fun _ _ => True) p w

theorem returns_ret {α : Type} {N : α → World D → Prop} {a : α} (hw : N a w)
    (hN : Stable X blockSize (N a)) : Returns X blockSize N (.ret a) w :=
  .retOf hw hN fun _ h => ⟨trivial, h⟩

theorem returns_remote {m : Remote} {N : m.Reply → World D → Prop} (hw : P w)
    (hP : Stable X blockSize P) (hN : ∀ r, Stable X blockSize (N r))
    (hok : ∀ w r d, P w → X.serve m w.dst (.ok r) d →
      N r { (host X blockSize).issue (.remote m) w with dst := d }) :
    Returns X blockSize N (Prog.call (Call.remote m)) w :=
  safe_remote hw hP hN (fun _ _ _ _ _ => trivial) (fun _ _ => trivial) (fun _ _ _ => trivial)
    (fun _ _ _ => trivial) hok fun _ _ _ _ _ => trivial

theorem returns_removeLastStage {α : Type} {N : α → World D → Prop} {p : Task D α}
    (h : Returns X blockSize N p w.removeLastStage) :
    Returns X blockSize N (removeMigratingOutRequestLastStage.bind fun _ => p) w := by
  refine .read trivial ?_
  change Safe _ _ _ (Prog.bind (if w.lastStage = 0 then _ else _) _) w
  split
  · exact .raise fun _ _ => ⟨trivial, trivial⟩
  · exact .write trivial h

end Rules
end Llumnix.Legacy
