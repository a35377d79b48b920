import Llumnix.Coroutine.Replay
import Llumnix.Legacy.Coordinator

/-! Proof outlines for a live migration: what holds wherever it waits for the engine or for the
destination, and one obligation for each way on from there. -/
namespace Llumnix.Legacy

open Coroutine

variable {D : Type}

/-- What becomes of a call to the destination that raises: it failed, with or without effect. -/
def Fails (X : Destination D) (m : Remote) (w : World D) (e : Exc) (d : D) : Prop :=
  d = w.dst ∨ X.serve m w.dst (.error e) d ∨ X.loses m ∧ ∃ r, X.serve m w.dst r d

/-- Conditions that a migration leaves behind, by the status it returns or when it raises, and one
that holds throughout. -/
structure Ends (D : Type) where
  inv : World D → Prop
  outcome : MigrationStatus → World D → Prop
  raised : World D → Prop

namespace Ends
variable (K : Ends D) (X : Destination D) (blockSize : ℕ)

/-- A condition under which the migration may wait. -/
structure Rests (P : World D → Prop) : Prop where
  env : Stable X blockSize P
  inv : ∀ w, P w → K.inv w

/-- The request is back in a queue, and its entry in the last-stage list is taken back. -/
structure Backs (w : World D) : Prop where
  inv : K.inv w
  raised : w.lastStage = 0 → K.raised w
  refused : w.lastStage ≠ 0 → K.outcome .abortedDst w.removeLastStage

abbrev Safe {α : Type} (N : α → World D → Prop) (p : Task D α) (w : World D) : Prop :=
  Coroutine.Safe (host X blockSize) K.inv (Post N fun _ => K.raised) p w

/-- The conditions left behind are ones to wait under. -/
structure Closed : Prop where
  outcome : ∀ s, K.Rests X blockSize (K.outcome s)
  raised : K.Rests X blockSize K.raised

variable {K X blockSize} {w : World D}

theorem Closed.safe_status (S : K.Closed X blockSize) {s : MigrationStatus} (h : K.outcome s w) :
    K.Safe X blockSize K.outcome (.ret s) w :=
  .retOf h (S.outcome s).env fun w h => ⟨(S.outcome s).inv w h, h⟩

theorem Closed.safe_back (S : K.Closed X blockSize) (h : K.Backs w) :
    K.Safe X blockSize K.outcome
      (removeMigratingOutRequestLastStage.bind fun _ => .ret .abortedDst) w := by
  refine .read h.inv ?_
  change Coroutine.Safe _ _ _ (Prog.bind (if w.lastStage = 0 then _ else _) _) w
  split
  · rename_i hlist
    exact .raiseOf (h.raised hlist) S.raised.env fun w h => ⟨S.raised.inv w h, h⟩
  · rename_i hlist
    exact .write h.inv (S.safe_status (h.refused hlist))

theorem Closed.safe_remote (S : K.Closed X blockSize) {m : Remote} {P : World D → Prop}
    {N : m.Reply → World D → Prop} (h : P w) (hP : K.Rests X blockSize P)
    (hN : ∀ r, K.Rests X blockSize (N r))
    (hok : ∀ w r d, P w → X.serve m w.dst (.ok r) d →
      N r { (host X blockSize).issue (.remote m) w with dst := d })
    (herr : ∀ w e d, P w → Fails X m w e d →
      K.raised { (host X blockSize).issue (.remote m) w with dst := d }) :
    K.Safe X blockSize N (Prog.call (Call.remote m)) w :=
  Legacy.safe_remote h hP.env (fun r => (hN r).env) (fun _ => S.raised.env) hP.inv
    (fun r => (hN r).inv) (fun _ => S.raised.inv) hok herr

end Ends

/-! ### The stages -/

/-- The blocks that a stage finds in the table. -/
def World.rest (w : World D) : List ℕ :=
  w.request.blockTable.drop w.request.stageNumBlocksList.sum

/-- Conditions at the awaits of the stages: with the blocks to be sent, and whether the stage is
the last one. -/
structure Outline (D : Type) extends Ends D where
  /-- Between two stages. -/
  live : World D → Prop
  /-- The engine loop is to take the request out. -/
  queued : List ℕ → World D → Prop
  taken : List ℕ → World D → Prop
  /-- The destination is asked for blocks. -/
  asked : Bool → List ℕ → World D → Prop
  granted : Bool → List ℕ → List ℕ → World D → Prop
  sending : Bool → List ℕ → World D → Prop
  sent : Bool → World D → Prop

/-- Every step leads from one condition to the next. -/
structure Outline.Valid (O : Outline D) (X : Destination D) (blockSize : ℕ) : Prop where
  ends : O.toEnds.Closed X blockSize
  queued : ∀ blocks, O.Rests X blockSize (O.queued blocks)
  taken : ∀ blocks, O.Rests X blockSize (O.taken blocks)
  asked : ∀ l src, O.Rests X blockSize (O.asked l src)
  granted : ∀ l src dst, O.Rests X blockSize (O.granted l src dst)
  sending : ∀ l src, O.Rests X blockSize (O.sending l src)
  sent : ∀ l, O.Rests X blockSize (O.sent l)
  live_inv : ∀ w, O.live w → O.inv w
  live_aborted : ∀ w, O.live w → O.outcome .abortedSrc w
  last : ∀ w, O.live w → w.request.shouldAbortMigration = false →
    O.inv { w with snapshot := w.request.blockTable } ∧
      O.queued w.rest { w with snapshot := w.request.blockTable, stepDoneQueued := true }
  ask : ∀ w, O.live w → w.request.shouldAbortMigration = false →
    O.asked false w.rest.dropLast { w with snapshot := w.request.blockTable }
  found : ∀ blocks w, O.queued blocks w → 0 < w.running → O.taken blocks w.removeRunning
  notFound : ∀ blocks w, O.queued blocks w →
    O.outcome .abortedSrc { w with stepDoneQueued := false }
  finished : ∀ blocks w, O.taken blocks w → w.request.finished = true → O.outcome .abortedSrc w
  list : ∀ blocks w, O.taken blocks w → w.request.finished = false →
    O.asked true blocks w.addLastStage
  grant : ∀ l src w w' tokenIds dst d, O.asked l src w → O.asked l src w' →
    X.serve (.migrateInPreAlloc (preAllocArgs w.request src.length tokenIds)) w'.dst (.ok dst) d →
    O.granted l src dst { w' with dst := d }
  grant_raised : ∀ l src w w' tokenIds e d, O.asked l src w → O.asked l src w' →
    Fails X (.migrateInPreAlloc (preAllocArgs w.request src.length tokenIds)) w' e d →
    O.raised { w' with dst := d }
  refused : ∀ src dst w, O.granted false src dst w → dst.length ≠ src.length →
    O.outcome .abortedDst w
  refused_last : ∀ src dst w, O.granted true src dst w → dst.length ≠ src.length →
    O.Backs w.addRunning
  granted_aborted : ∀ l src dst w, O.granted l src dst w → dst.length = src.length →
    w.request.shouldAbortMigration = true → O.outcome .abortedSrc w
  stamp : ∀ l src dst w, O.granted l src dst w → dst.length = src.length →
    w.request.shouldAbortMigration = false → O.sending l src (w.stamp src.length)
  send : ∀ l src dst w d, O.sending l src w →
    X.serve (.sendBlocks src dst) w.dst (.ok ()) d →
    O.sent l { w with sent := w.sent ++ [src], dst := d }
  send_raised : ∀ l src dst w e d, O.sending l src w → Fails X (.sendBlocks src dst) w e d →
    O.raised { w with sent := w.sent ++ [src], dst := d }
  sent_aborted : ∀ w, O.sent false w → w.request.shouldAbortMigration = true →
    O.outcome .abortedSrc w
  sent_last : ∀ w, O.sent true w → O.outcome .finished w
  sent_live : ∀ w, O.sent false w → w.request.shouldAbortMigration = false →
    O.outcome .running w
  again : ∀ w, O.outcome .running w → O.live w

namespace Outline.Valid
variable {O : Outline D} {X : Destination D} {blockSize : ℕ} {w : World D}
  (V : O.Valid X blockSize)
include V

theorem safe_sendStage {l : Bool} {src dst : List ℕ} (h : O.granted l src dst w) :
    O.Safe X blockSize O.outcome (sendStage l src dst src.length) w := by
  have hinv := (V.granted l src dst).inv w h
  unfold sendStage
  split
  · rename_i hlen
    cases l with
    | true => exact .write hinv (V.ends.safe_back (V.refused_last src dst w h hlen))
    | false => exact V.ends.safe_status (V.refused src dst w h hlen)
  rename_i hlen
  rw [Decidable.not_not] at hlen
  refine .read hinv ?_
  cases ha : w.request.shouldAbortMigration with
  | true => exact V.ends.safe_status (V.granted_aborted l src dst w h hlen ha)
  | false =>
    refine .write hinv (Safe.seq (M := fun _ => O.sent l) ?_ fun _ w h => ?_)
    · exact V.ends.safe_remote (m := .sendBlocks src dst) (V.stamp l src dst w h hlen ha)
        (V.sending l src) (fun _ => V.sent l) (fun w _ d h hs => V.send l src dst w d h hs)
        fun w e d h hf => V.send_raised l src dst w e d h hf
    refine .read ((V.sent l).inv w h) ?_
    cases l with
    | true => exact V.ends.safe_status (V.sent_last w h)
    | false =>
      cases ha : w.request.shouldAbortMigration with
      | true => exact V.ends.safe_status (V.sent_aborted w h ha)
      | false => exact V.ends.safe_status (V.sent_live w h ha)

theorem safe_preAlloc {l : Bool} {src : List ℕ} (tokenIds : List ℕ) (h : O.asked l src w) :
    O.Safe X blockSize (O.granted l src)
      (migrateInPreAlloc (preAllocArgs w.request src.length tokenIds)) w :=
  V.ends.safe_remote (m := .migrateInPreAlloc _) h (V.asked l src) (V.granted l src)
    (fun w' dst d h' hs => V.grant l src w w' tokenIds dst d h h' hs)
    fun w' e d h' hf => V.grant_raised l src w w' tokenIds e d h h' hf

theorem safe_lastStage (cfg : Config) {blocks : List ℕ} (tokenIds : List ℕ) (hinv : O.inv w)
    (h : O.queued blocks { w with stepDoneQueued := true }) :
    O.Safe X blockSize O.outcome (lastStage cfg blocks tokenIds) w := by
  refine Safe.seq (M := fun found => if found then O.taken blocks else O.outcome .abortedSrc) ?_
    fun found w h => ?_
  · have hrests : ∀ found : Bool, O.Rests X blockSize
        (if found then O.taken blocks else O.outcome .abortedSrc) := by
      intro found
      cases found with
      | true => exact V.taken blocks
      | false => exact V.ends.outcome .abortedSrc
    exact safe_removeRunning cfg hinv h (V.queued blocks).env (fun found => (hrests found).env)
      (V.queued blocks).inv (fun found => (hrests found).inv) (V.found blocks)
      (V.notFound blocks)
  · cases found with
    | false => exact .read ((V.ends.outcome .abortedSrc).inv w h) (V.ends.safe_status h)
    | true =>
      refine .read ((V.taken blocks).inv w h) ?_
      cases hf : w.request.finished with
      | true => exact V.ends.safe_status (V.finished blocks w h hf)
      | false =>
        have hasked := V.list blocks w h hf
        exact .write ((V.taken blocks).inv w h) (.read ((V.asked true blocks).inv _ hasked)
          (Safe.seq (V.safe_preAlloc tokenIds hasked) fun dst w h => V.safe_sendStage h))

theorem safe_liveStage (cfg : Config) {blocks : List ℕ} (tokenIds : List ℕ)
    (h : O.asked false blocks.dropLast w) :
    O.Safe X blockSize O.outcome (liveStage cfg blocks tokenIds) w := by
  have hlen : blocks.length - 1 = blocks.dropLast.length := by simp
  refine .read ((V.asked false _).inv w h) ?_
  rw [hlen]
  exact Safe.seq (V.safe_preAlloc _ h) fun dst w h => V.safe_sendStage h

theorem safe_onestage (cfg : Config) (h : O.live w) :
    O.Safe X blockSize O.outcome (migrateOutOnestage cfg) w := by
  refine .read (V.live_inv w h) ?_
  cases ha : w.request.shouldAbortMigration with
  | true => exact V.ends.safe_status (V.live_aborted w h)
  | false =>
    refine .write (V.live_inv w h) ?_
    split
    · obtain ⟨hinv, hqueued⟩ := V.last w h ha
      exact V.safe_lastStage cfg _ hinv hqueued
    · exact V.safe_liveStage cfg _ (V.ask w h ha)

theorem safe_stages (cfg : Config) (n : ℕ) (h : O.live w) :
    O.Safe X blockSize (fun s w => s ≠ .running ∧ O.outcome s w) (migrateOutStages cfg n) w := by
  have hret : ∀ {s : MigrationStatus} {w : World D}, s ≠ .running → O.outcome s w →
      O.Safe X blockSize (fun s w => s ≠ .running ∧ O.outcome s w) (.ret s) w :=
    fun {s} _ hs h => .retOf h (V.ends.outcome s).env fun w h =>
      ⟨(V.ends.outcome s).inv w h, hs, h⟩
  induction n generalizing w with
  | zero => exact hret (s := .abortedSrc) nofun (V.live_aborted w h)
  | succ n ih =>
    refine Safe.seq (V.safe_onestage cfg h) fun s w h => ?_
    cases s with
    | running => exact ih (V.again w h)
    | _ => exact hret nofun h

end Outline.Valid

/-! ### A request that is waiting -/

/-- Conditions while the destination is asked for the blocks of a waiting request. -/
structure WaitingOutline (D : Type) extends Ends D where
  asked : World D → Prop
  granted : List ℕ → World D → Prop

/-- Every step leads from one condition to the next, from the world `w`. -/
structure WaitingOutline.Valid (O : WaitingOutline D) (X : Destination D) (blockSize : ℕ)
    (cfg : Config) (w : World D) : Prop where
  ends : O.toEnds.Closed X blockSize
  asked : O.Rests X blockSize O.asked
  granted : ∀ dst, O.Rests X blockSize (O.granted dst)
  inv : O.inv w
  aborted : O.outcome .abortedSrc w
  list : w.removable cfg → O.asked w.removeWaiting.addLastStage
  grant : ∀ w' dst d, O.asked w' →
    X.serve (.migrateInPreAlloc (preAllocArgs w.removeWaiting.request
      (w.request.nBlocks cfg.blockSize) w.request.tokenIds)) w'.dst (.ok dst) d →
    O.granted dst { w' with dst := d }
  grant_raised : ∀ w' e d, O.asked w' →
    Fails X (.migrateInPreAlloc (preAllocArgs w.removeWaiting.request
      (w.request.nBlocks cfg.blockSize) w.request.tokenIds)) w' e d →
    O.raised { w' with dst := d }
  refused : ∀ dst w, O.granted dst w → dst.length ≠ w.request.nBlocks cfg.blockSize →
    O.Backs w.addWaiting
  accepted : ∀ dst w, O.granted dst w → dst.length = w.request.nBlocks cfg.blockSize →
    O.outcome .finished w

theorem WaitingOutline.Valid.safe {O : WaitingOutline D} {X : Destination D} {blockSize : ℕ}
    {cfg : Config} {w : World D} (V : O.Valid X blockSize cfg w) :
    O.Safe X blockSize O.outcome (migrateOutWaitingRequest cfg) w := by
  refine .read V.inv ?_
  split
  · exact V.ends.safe_status V.aborted
  rename_i hremovable
  have hasked := V.list (Decidable.not_not.mp hremovable)
  refine .write V.inv (.read (V.asked.inv _ hasked) (Safe.seq (M := O.granted) ?_ ?_))
  · exact V.ends.safe_remote (m := .migrateInPreAlloc _) hasked V.asked V.granted V.grant
      V.grant_raised
  · intro dst w h
    have hinv := (V.granted dst).inv w h
    refine .read hinv ?_
    split
    · rename_i hlen
      exact .write hinv (V.ends.safe_back (V.refused dst w h hlen))
    · rename_i hlen
      exact V.ends.safe_status (V.accepted dst w h (Decidable.not_not.mp hlen))

/-! ### Three conditions -/

/-- Notes that the migration takes for itself. -/
def World.noted (stageTimestamps stageNumBlocksList : List ℕ) (migrationStartTime : Option ℕ)
    (stepDoneQueued : Bool) (snapshot : List ℕ) (sent : List (List ℕ)) (w : World D) : World D :=
  { w with
    request := { w.request with
      stageTimestamps := stageTimestamps
      stageNumBlocksList := stageNumBlocksList
      migrationStartTime := migrationStartTime }
    stepDoneQueued := stepDoneQueued
    snapshot := snapshot
    sent := sent }

/-- Properties of the world while the request is in a queue, when the engine loop has taken it out,
and when it is in the last-stage list. -/
structure Carried (X : Destination D) (blockSize : ℕ) (Live Taken Listed : World D → Prop) :
    Prop where
  live_env : Stable X blockSize Live
  taken_env : Stable X blockSize Taken
  listed_env : Stable X blockSize Listed
  live_noted : ∀ ts ns t q b s w, Live w → Live (World.noted ts ns t q b s w)
  listed_noted : ∀ ts ns t q b s w, Listed w → Listed (World.noted ts ns t q b s w)
  live_reply : ∀ m w r d, Live w → X.serve m w.dst (.ok r) d → Live { w with dst := d }
  listed_reply : ∀ m w r d, Listed w → X.serve m w.dst (.ok r) d → Listed { w with dst := d }
  take : ∀ w, Live w → 0 < w.running → Taken w.removeRunning
  list : ∀ w, Taken w → Listed w.addLastStage
  takeWaiting : ∀ w, Live w → 0 < w.waiting → Listed w.removeWaiting.addLastStage

/-- The property that goes with the outcome of a stage, where the migration goes on. -/
def OutcomeOf (Live Listed : World D → Prop) : MigrationStatus → World D → Prop
  | .running => Live
  | .finished => Listed
  | _ => fun _ => True

/-- In the last stage the request is in the list. -/
def Carried.outline (Live Taken Listed : World D → Prop) : Outline D where
  inv _ := True
  outcome := OutcomeOf Live Listed
  raised _ := True
  live := Live
  queued _ := Live
  taken _ := Taken
  asked l _ := if l then Listed else Live
  granted l _ _ := if l then Listed else Live
  sending l _ := if l then Listed else Live
  sent l := if l then Listed else Live

namespace Carried
variable {X : Destination D} {blockSize : ℕ} {Live Taken Listed : World D → Prop}
  {w : World D} (C : Carried X blockSize Live Taken Listed)
include C

theorem closed : (outline Live Taken Listed).toEnds.Closed X blockSize where
  outcome s := by
    refine ⟨?_, fun _ _ => trivial⟩
    cases s with
    | running => exact C.live_env
    | finished => exact C.listed_env
    | _ => exact fun _ _ _ _ => trivial
  raised := ⟨fun _ _ _ _ => trivial, fun _ _ => trivial⟩

theorem valid : (outline Live Taken Listed).Valid X blockSize := by
  have hrests : ∀ l : Bool, (outline Live Taken Listed).Rests X blockSize
      (if l then Listed else Live) := by
    intro l
    refine ⟨?_, fun _ _ => trivial⟩
    cases l with
    | true => exact C.listed_env
    | false => exact C.live_env
  have hnoted : ∀ (l : Bool) ts ns t q b s w, (if l then Listed else Live) w →
      (if l then Listed else Live) (World.noted ts ns t q b s w) := by
    intro l
    cases l with
    | true => exact C.listed_noted
    | false => exact C.live_noted
  have hreply : ∀ (l : Bool) m w r d, (if l then Listed else Live) w →
      X.serve m w.dst (.ok r) d → (if l then Listed else Live) { w with dst := d } := by
    intro l
    cases l with
    | true => exact C.listed_reply
    | false => exact C.live_reply
  exact {
    ends := C.closed
    queued := fun _ => hrests false
    taken := fun _ => ⟨C.taken_env, fun _ _ => trivial⟩
    asked := fun l _ => hrests l
    granted := fun l _ _ => hrests l
    sending := fun l _ => hrests l
    sent := hrests
    live_inv := fun _ _ => trivial
    live_aborted := fun _ _ => trivial
    last := fun w h _ => ⟨trivial, C.live_noted _ _ _ _ _ _ w h⟩
    ask := fun w h _ => C.live_noted _ _ _ _ _ _ w h
    found := fun _ w h hr => C.take w h hr
    notFound := fun _ _ _ => trivial
    finished := fun _ _ _ _ => trivial
    list := fun _ w h _ => C.list w h
    grant := fun l _ _ w _ dst d _ h hs => hreply l (.migrateInPreAlloc _) w dst d h hs
    grant_raised := fun _ _ _ _ _ _ _ _ _ _ => trivial
    refused := fun _ _ _ _ _ => trivial
    refused_last := fun _ _ _ _ _ => ⟨trivial, fun _ => trivial, fun _ => trivial⟩
    granted_aborted := fun _ _ _ _ _ _ _ => trivial
    stamp := fun l _ _ w h _ _ => hnoted l _ _ _ _ _ _ w h
    send := fun l src dst w d h hs => hreply l (.sendBlocks src dst) _ () d
      (hnoted l w.request.stageTimestamps w.request.stageNumBlocksList
        w.request.migrationStartTime w.stepDoneQueued w.snapshot (w.sent ++ [src]) w h) hs
    send_raised := fun _ _ _ _ _ _ _ _ => trivial
    sent_aborted := fun _ _ _ => trivial
    sent_last := fun _ h => h
    sent_live := fun _ h _ => h
    again := fun _ h => h }

theorem returns_stages (cfg : Config) (n : ℕ) (h : Live w) :
    Returns X blockSize (OutcomeOf Live Listed) (migrateOutStages cfg n) w := by
  refine (C.valid.safe_stages cfg n h).mono fun r w h => ?_
  cases r with
  | ok s => exact h.2
  | error e => exact h

theorem returns_waiting (cfg : Config) (h : Live w) :
    Returns X blockSize (OutcomeOf Live Listed) (migrateOutWaitingRequest cfg) w :=
  WaitingOutline.Valid.safe (O := ⟨(outline Live Taken Listed).toEnds, Listed, fun _ => Listed⟩) {
    ends := C.closed
    asked := ⟨C.listed_env, fun _ _ => trivial⟩
    granted := fun _ => ⟨C.listed_env, fun _ _ => trivial⟩
    inv := trivial
    aborted := trivial
    list := fun hr => C.takeWaiting w h hr.1
    grant := fun w' dst d h hs => C.listed_reply (.migrateInPreAlloc _) w' dst d h hs
    grant_raised := fun _ _ _ _ _ => trivial
    refused := fun _ _ _ _ => ⟨trivial, fun _ => trivial, fun _ => trivial⟩
    accepted := fun _ _ h _ => h }

theorem start (h : Live w) : Live w.start := C.live_noted _ _ _ _ _ _ w h

end Carried

/-! ### Runs that are computed -/

abbrev Destination.Answer (X : Destination D) : Type :=
  (m : Remote) → (d : D) → Option {x : Except Exc m.Reply × D // X.serve m d x.1 x.2}

section Script
variable {X : Destination D} {blockSize : ℕ}

def answers (f : X.Answer) : Cue (host X blockSize) := .serve 0 fun
  | .stepDone, w =>
    if h : 0 < w.running then some ⟨(.ok true, _), .found w h⟩
    else some ⟨(.ok false, _), .notFound w (Nat.eq_zero_of_not_pos h)⟩
  | .outputProcDone, w => some ⟨(.ok (), _), .outputProcDone w⟩
  | .remote m, w => (f m w.dst).map fun x => ⟨(x.1.1, _), .answered m w _ _ x.2⟩

def schedules (b : ℕ) : Cue (host X blockSize) := .env fun w =>
  if h : 0 < w.running ∧ b ∉ w.request.blockTable then some ⟨_, .schedule w b h.1 h.2⟩ else none

end Script

/-- Blocks of two tokens, of which the last stage takes one. -/
def sampleConfig (migrationMaxStages : ℕ) (disableAsyncOutputProc : Bool) : Config where
  migrationLastStageMaxBlocks := 1
  migrationMaxStages := migrationMaxStages
  blockSize := 2
  promptLimit := 8
  disableAsyncOutputProc := disableAsyncOutputProc

end Llumnix.Legacy
