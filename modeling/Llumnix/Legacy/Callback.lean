import Llumnix.Coroutine.Run
import Llumnix.Coroutine.Safe
import Llumnix.Legacy.Rounds

/-! The callback of a legacy `migrate_out`. After a failure it probes both instances of the pair,
has the live ones clear their migration states and scales down the dead ones. -/
namespace Llumnix.Legacy.Callback

open Coroutine Rounds
open Rounds.State (resetFlag)

/-- How a remote call fails. -/
inductive Fault
  | rayActorError
  | rayTaskError
  deriving DecidableEq, Repr

inductive Exc
  | ray (fault : Fault)
  | keyError (instanceId : String)
  deriving DecidableEq, Repr

/-- `migrate_instance_pair[i]`, where `bool(i)` is `is_migrate_in`. -/
def pairId (pair : Pair) : Bool → String
  | false => pair.1
  | true => pair.2

/-- The calls to the two instances, by their index in the pair. -/
inductive Call
  | isReady (i : Bool)
  | clearMigrationStates (i : Bool)
  deriving DecidableEq, Repr

/-- The Manager's tables, and what became of the recovery calls. -/
structure World where
  instances : List String
  instanceMigrating : String → Option Bool
  requestInstance : String → Option String
  /-- `results` of `_check_instance_error`. -/
  results : Bool → Option Bool
  cleared : Bool → Bool
  failed : Bool → Bool

namespace World

def resetFlags (pair : Pair) (w : World) : World :=
  { w with
    instanceMigrating := resetFlag (resetFlag w.instanceMigrating pair.1) pair.2 }

def scaleDown (instanceId : String) (w : World) : World :=
  { w with
    instances := w.instances.filter (· ≠ instanceId)
    instanceMigrating :=
      if instanceId ∈ w.instances then Function.update w.instanceMigrating instanceId none
      else w.instanceMigrating }

/-- Only the first request of the answer is recorded. -/
def recordMigrated (pair : Pair) (requestIds : List String) (w : World) : World :=
  match requestIds with
  | [] => w
  | r :: _ => { w with requestInstance := Function.update w.requestInstance r (some pair.2) }

def start (instances : List String) (instanceMigrating : String → Option Bool)
    (requestInstance : String → Option String) : World where
  instances := instances
  instanceMigrating := instanceMigrating
  requestInstance := requestInstance
  results _ := none
  cleared _ := false
  failed _ := false

/-- A call is answered. The done callback of a probe stores its verdict: only a
`RayActorError` counts as dead. -/
def served (w : World) (outcome : Option Fault) : Call → World
  | .isReady i =>
    { w with results := Function.update w.results i (some (outcome == some .rayActorError)) }
  | .clearMigrationStates i =>
    match outcome with
    | none => { w with cleared := Function.update w.cleared i true }
    | some _ => { w with failed := Function.update w.failed i true }

end World

def answer : Option Fault → Except Exc Unit
  | none => .ok ()
  | some fault => .error (.ray fault)

/-- The calls are answered as `o` says. While the callback is suspended other tasks change the
tables; an instance that was scaled down does not come back under its id. -/
def host (o : Call → Option Fault) (pair : Pair) :
    Host World Call (fun _ => Unit) Exc where
  issue _ w := w
  serve c w r w' := r = answer (o c) ∧ w' = w.served (o c) c
  env w w' := w'.results = w.results ∧ w'.cleared = w.cleared ∧ w'.failed = w.failed ∧
    ∀ i, pairId pair i ∈ w'.instances → pairId pair i ∈ w.instances

abbrev Task (α : Type) := Prog World Call (fun _ => Unit) Exc α

def lookupInstance (instanceId : String) : Task Unit :=
  .read fun w => if instanceId ∈ w.instances then .ret () else .raise (.keyError instanceId)

/-- `_check_instance_error`. A probe changes nothing, so that the first is out before the second
look-up does not matter. -/
def checkInstanceError (pair : Pair) : Task (Bool → Bool) :=
  .write (fun w => { w with results := fun _ => none }) do
    lookupInstance (pairId pair false)
    lookupInstance (pairId pair true)
    .gather [.isReady false, .isReady true] (.read fun w => .ret fun i => w.results i == some true)

/-- An iteration of the first loop. The handler sets the loop variable, which is read no more. -/
def clearAlive (pair : Pair) (hasErrorPair : Bool → Bool) (i : Bool) : Task Unit :=
  if hasErrorPair i then .ret ()
  else
    ((lookupInstance (pairId pair i)).bind fun _ => Prog.call (.clearMigrationStates i)).tryCatch
      fun _ => .ret ()

def scaleDownDead (pair : Pair) (hasErrorPair : Bool → Bool) (i : Bool) : Task Unit :=
  if hasErrorPair i then .write (World.scaleDown (pairId pair i)) (.ret ()) else .ret ()

def recoverPair (pair : Pair) : Task Unit := do
  let hasErrorPair ← checkInstanceError pair
  Prog.forEach (clearAlive pair hasErrorPair) [false, true]
  Prog.forEach (scaleDownDead pair hasErrorPair) [false, true]

def migrateDoneCallback (pair : Pair) (ret : Except Exc (List String)) : Task Unit :=
  .write (World.resetFlags pair) <|
    match ret with
    | .error _ => recoverPair pair
    | .ok requestIds => .write (World.recordMigrated pair requestIds) (.ret ())

/-- Whoever is still registered has cleared its states, and whoever failed to is gone. -/
def Recovered (pair : Pair) (w : World) : Prop :=
  ∀ i, (pairId pair i ∈ w.instances → w.cleared i = true) ∧
    (w.failed i = true → pairId pair i ∉ w.instances)

def Dead (o : Call → Option Fault) (pair : Pair) (instanceId : String) : Prop :=
  ∃ i, pairId pair i = instanceId ∧ o (.isReady i) = some .rayActorError

/-- Both instances are registered or none is, and if they are, every one that is not found dead
clears its states. -/
structure Smooth (o : Call → Option Fault) (pair : Pair) (instances : List String) :
    Prop where
  both : pair.1 ∈ instances ↔ pair.2 ∈ instances
  clears : pair.1 ∈ instances → ∀ i, ¬Dead o pair (pairId pair i) →
    o (.clearMigrationStates i) = none

section Safe
variable {o : Call → Option Fault} {pair : Pair} {w w' : World}

/-- Recovery calls fail on dead instances only. -/
def FailsDead (o : Call → Option Fault) (pair : Pair) (w : World) : Prop :=
  ∀ i, w.failed i = true → Dead o pair (pairId pair i)

def Visited (o : Call → Option Fault) (pair : Pair) (i : Bool) (w : World) : Prop :=
  pairId pair i ∈ w.instances → w.cleared i = true ∨ Dead o pair (pairId pair i)

def Removed (o : Call → Option Fault) (pair : Pair) (i : Bool) (w : World) : Prop :=
  o (.isReady i) = some .rayActorError → pairId pair i ∉ w.instances

/-- The state of the first loop with the iterations `bs` to come. -/
def Clearing (o : Call → Option Fault) (pair : Pair) (bs : List Bool) (w : World) :
    Prop :=
  FailsDead o pair w ∧ ∀ i, i ∉ bs → Visited o pair i w

/-- The state of the second loop with the iterations `bs` to come. -/
def Removing (o : Call → Option Fault) (pair : Pair) (bs : List Bool) (w : World) :
    Prop :=
  Clearing o pair [] w ∧ ∀ i, i ∉ bs → Removed o pair i w

theorem clearing_env {bs : List Bool} (h : Clearing o pair bs w)
    (he : (host o pair).env w w') : Clearing o pair bs w' := by
  obtain ⟨-, hcleared, hfailed, hinst⟩ := he
  constructor
  · intro i hi
    rw [hfailed] at hi
    exact h.1 i hi
  · intro i hi hreg
    rw [hcleared]
    exact h.2 i hi (hinst i hreg)

theorem removing_env {bs : List Bool} (h : Removing o pair bs w)
    (he : (host o pair).env w w') : Removing o pair bs w' := by
  refine ⟨clearing_env h.1 he, fun i hi hdead hreg => ?_⟩
  exact h.2 i hi hdead (he.2.2.2 i hreg)

theorem recovered_of_removing (h : Removing o pair [] w) : Recovered pair w := by
  have hdead : ∀ i, Dead o pair (pairId pair i) → pairId pair i ∉ w.instances := by
    rintro i ⟨j, hj, hready⟩
    rw [← hj]
    exact h.2 j List.not_mem_nil hready
  intro i
  constructor
  · intro hreg
    rcases h.1.2 i List.not_mem_nil hreg with hcleared | hd
    · exact hcleared
    · exact absurd hreg (hdead i hd)
  · intro hfailed
    exact hdead i (h.1.1 i hfailed)

theorem safe_lookup {α : Type} {id : String} {k : Unit → Task α} {I : World → Prop}
    {Q : Except Exc α → World → Prop} (hi : I w)
    (hin : id ∈ w.instances → Safe (host o pair) I Q (k ()) w)
    (hout : id ∉ w.instances → Safe (host o pair) I Q (.raise (.keyError id)) w) :
    Safe (host o pair) I Q ((lookupInstance id).bind k) w := by
  refine .read hi ?_
  dsimp only
  by_cases h : id ∈ w.instances
  · rw [if_pos h]
    exact hin h
  · rw [if_neg h]
    exact hout h

/-- The probes still open, and the verdicts of the others. -/
structure Probing (o : Call → Option Fault) (pair : Pair) (cs : List Call) (w : World) : Prop where
  fails : FailsDead o pair w
  probes : ∀ c ∈ cs, ∃ i, c = .isReady i
  verdicts : ∀ i, Call.isReady i ∉ cs →
    w.results i = some (o (.isReady i) == some .rayActorError)

theorem probing_env {cs : List Call} (h : Probing o pair cs w) (he : (host o pair).env w w') :
    Probing o pair cs w' := by
  obtain ⟨hresults, -, hfailed, -⟩ := he
  refine ⟨fun i hi => h.fails i ?_, h.probes, fun i hi => ?_⟩
  · rw [← hfailed]
    exact hi
  · rw [hresults]
    exact h.verdicts i hi

theorem probing_served {as bs : List Call} {c : Call} (h : Probing o pair (as ++ c :: bs) w) :
    Probing o pair (as ++ bs) (w.served (o c) c) := by
  obtain ⟨i, rfl⟩ := h.probes c (by simp)
  refine ⟨h.fails, fun c hc => h.probes c ?_, fun j hj => ?_⟩
  · simp only [List.mem_append, List.mem_cons] at hc ⊢
    exact hc.imp id Or.inr
  · by_cases hji : j = i
    · rw [hji]
      exact Function.update_self i _ _
    · refine (Function.update_of_ne hji _ _).trans (h.verdicts j ?_)
      simp only [List.mem_append, List.mem_cons, Call.isReady.injEq, not_or] at hj ⊢
      exact ⟨hj.1, hji, hj.2⟩

theorem safe_checkInstanceError (h1 : pair.1 ∈ w.instances) (h2 : pair.2 ∈ w.instances)
    (hf : FailsDead o pair w) :
    Safe (host o pair) (fun _ => True)
      (Post (fun hasErrorPair w => FailsDead o pair w ∧
        ∀ i, hasErrorPair i = (o (.isReady i) == some .rayActorError)) (fun _ _ => False))
      (checkInstanceError pair) w := by
  refine .write trivial (safe_lookup trivial (fun _ => ?_) fun hout => absurd h1 hout)
  refine safe_lookup trivial (fun _ => ?_) fun hout => absurd h2 hout
  refine Safe.gatherOf (J := Probing o pair) trivial ?_ (fun _ _ _ h he => probing_env h he)
    (fun _ _ _ => trivial) ?_ fun w hw => ?_
  · refine ⟨hf, fun c hc => ?_, fun i hi => ?_⟩
    · simp only [List.mem_cons, List.not_mem_nil, or_false] at hc
      rcases hc with rfl | rfl
      · exact ⟨false, rfl⟩
      · exact ⟨true, rfl⟩
    · cases i <;> simp at hi
  · rintro as c bs w r w' hw ⟨-, rfl⟩
    exact probing_served hw
  · refine .read trivial (.retOf (P := FailsDead o pair) hw.fails ?_ fun w' hw' => ?_)
    · intro w w' h he i hi
      rw [he.2.2.1] at hi
      exact h i hi
    · refine ⟨trivial, hw', fun i => ?_⟩
      dsimp only
      rw [hw.verdicts i List.not_mem_nil]
      cases o (.isReady i) == some .rayActorError <;> rfl

theorem clearing_of_visited {b : Bool} {bs : List Bool} (h : Clearing o pair (b :: bs) w)
    (hb : Visited o pair b w) : Clearing o pair bs w := by
  refine ⟨h.1, fun i hi => ?_⟩
  by_cases hib : i = b
  · rw [hib]
    exact hb
  · exact h.2 i (by simp [hib, hi])

theorem clearing_served {b : Bool} {bs : List Bool}
    (hclears : ∀ i, ¬Dead o pair (pairId pair i) → o (.clearMigrationStates i) = none)
    (h : Clearing o pair (b :: bs) w) :
    Clearing o pair bs (w.served (o (.clearMigrationStates b)) (.clearMigrationStates b)) := by
  cases hcall : o (.clearMigrationStates b) with
  | none =>
    refine clearing_of_visited (b := b) ⟨h.1, fun i hi hreg => ?_⟩ fun _ => .inl ?_
    · have hib : i ≠ b := fun hib => hi (by simp [hib])
      change Function.update w.cleared b true i = true ∨ _
      rw [Function.update_of_ne hib]
      exact h.2 i hi hreg
    · exact Function.update_self b _ _
  | some fault =>
    have hdead : Dead o pair (pairId pair b) := by
      apply Classical.byContradiction
      intro hnot
      rw [hclears b hnot] at hcall
      cases hcall
    refine clearing_of_visited (b := b) ⟨fun i hi => ?_, h.2⟩ fun _ => .inr hdead
    by_cases hib : i = b
    · rw [hib]
      exact hdead
    · change Function.update w.failed b true i = true at hi
      rw [Function.update_of_ne hib] at hi
      exact h.1 i hi

section Loops
variable {hasErrorPair : Bool → Bool}
  (herr : ∀ i, hasErrorPair i = (o (.isReady i) == some .rayActorError))
include herr

theorem hasError_iff (i : Bool) : hasErrorPair i = true ↔ o (.isReady i) = some .rayActorError := by
  rw [herr i]
  exact beq_iff_eq

theorem safe_clearAlive {b : Bool} {bs : List Bool}
    (hclears : ∀ i, ¬Dead o pair (pairId pair i) → o (.clearMigrationStates i) = none)
    (h : Clearing o pair (b :: bs) w) :
    Safe (host o pair) (fun _ => True)
      (Post (fun _ => Clearing o pair bs) (fun _ _ => False)) (clearAlive pair hasErrorPair b)
      w := by
  have hdone : ∀ {w : World}, Clearing o pair bs w → Safe (host o pair) (fun _ => True)
      (Post (fun _ => Clearing o pair bs) (fun _ _ => False)) (.ret () : Task Unit) w :=
    fun hw => .retOf hw (fun _ _ => clearing_env) fun _ hw => ⟨trivial, hw⟩
  unfold clearAlive
  split
  · rename_i herror
    refine hdone (clearing_of_visited h fun _ => .inr ⟨b, rfl, ?_⟩)
    exact (hasError_iff herr b).mp herror
  · refine Safe.catching (E := fun _ => Clearing o pair bs) ?_ fun _ w hw => hdone hw
    refine safe_lookup trivial (fun hin => ?_) fun hout => ?_
    · refine Safe.call (c := .clearMigrationStates b) (P := Clearing o pair (b :: bs)) h
        (fun _ _ => clearing_env) (fun _ _ => trivial) ?_
      rintro w r w' hw ⟨rfl, rfl⟩ w'' he
      refine ⟨trivial, ?_⟩
      have hfinal := he.keep (fun _ _ => clearing_env) (clearing_served hclears hw)
      cases o (.clearMigrationStates b) with
      | none => exact hfinal
      | some fault => exact hfinal
    · have hvisited := clearing_of_visited h fun hin => absurd hin hout
      exact .raiseOf hvisited (fun _ _ => clearing_env) fun _ hw => ⟨trivial, hw⟩

theorem safe_scaleDownDead {b : Bool} {bs : List Bool} (h : Removing o pair (b :: bs) w) :
    Safe (host o pair) (fun _ => True)
      (Post (fun _ => Removing o pair bs) (fun _ _ => False)) (scaleDownDead pair hasErrorPair b)
      w := by
  have hdone : ∀ {w : World}, Removing o pair (b :: bs) w → Removed o pair b w →
      Safe (host o pair) (fun _ => True)
        (Post (fun _ => Removing o pair bs) (fun _ _ => False)) (.ret () : Task Unit) w := by
    intro w hw hb
    have hremoved : Removing o pair bs w := by
      refine ⟨hw.1, fun i hi => ?_⟩
      by_cases hib : i = b
      · rw [hib]
        exact hb
      · exact hw.2 i (by simp [hib, hi])
    exact .retOf hremoved (fun _ _ => removing_env) fun _ hw => ⟨trivial, hw⟩
  have hless : ∀ i, pairId pair i ∈ (w.scaleDown (pairId pair b)).instances →
      pairId pair i ∈ w.instances := fun i hi => List.mem_of_mem_filter hi
  unfold scaleDownDead
  split
  · refine .write trivial (hdone ⟨⟨h.1.1, fun i hi hreg => h.1.2 i hi (hless i hreg)⟩, ?_⟩ ?_)
    · exact fun i hi hdead hreg => h.2 i hi hdead (hless i hreg)
    · intro _ hreg
      have hne := (List.mem_filter.mp hreg).2
      simp at hne
  · rename_i hnot
    exact hdone h fun hdead => absurd ((hasError_iff herr b).mpr hdead) hnot

end Loops

theorem safe_recoverPair (hs : Smooth o pair w.instances) (hreg : pair.1 ∈ w.instances)
    (hf : FailsDead o pair w) :
    Safe (host o pair) (fun _ => True) (Post (fun _ => Recovered pair) (fun _ _ => False))
      (recoverPair pair) w := by
  have hall : ∀ b : Bool, b ∉ [false, true] → False := by decide
  refine Safe.seq (safe_checkInstanceError hreg (hs.both.mp hreg) hf) fun hasErrorPair w hw => ?_
  obtain ⟨hfails, herr⟩ := hw
  refine Safe.seq (M := fun _ => Clearing o pair []) ?_ fun _ w hw => ?_
  · refine Safe.forEach (J := Clearing o pair) (fun b bs w hw => ?_) (fun w hw w' he => ?_) _ w
      ⟨hfails, fun b hb => (hall b hb).elim⟩
    · refine (safe_clearAlive herr (hs.clears hreg) hw).mono fun r w' h => ?_
      cases r <;> exact h
    · exact ⟨trivial, he.keep (fun _ _ => clearing_env) hw⟩
  · refine Safe.forEach (J := Removing o pair) (fun b bs w hw => ?_) (fun w hw w' he => ?_) _ w
      ⟨hw, fun b hb => (hall b hb).elim⟩
    · refine (safe_scaleDownDead herr hw).mono fun r w' h => ?_
      cases r <;> exact h
    · exact ⟨trivial, recovered_of_removing (he.keep (fun _ _ => removing_env) hw)⟩

theorem safe_unregistered {Q : Except Exc Unit → World → Prop}
    (hq : ∀ w e, (∀ i, pairId pair i ∉ w.instances) → w.failed = (fun _ => false) → Q (.error e) w)
    (hnone : ∀ i, pairId pair i ∉ w.instances) (hf : w.failed = fun _ => false) :
    Safe (host o pair) (fun _ => True) Q (recoverPair pair) w := by
  let P (w : World) : Prop := (∀ i, pairId pair i ∉ w.instances) ∧ w.failed = fun _ => false
  refine Safe.bind (.write trivial (safe_lookup trivial (fun hin => ?_) fun _ => ?_))
  · exact absurd hin (hnone false)
  · refine .raiseOf (P := P) ⟨hnone, hf⟩ ?_ fun w hw => ⟨trivial, hq w _ hw.1 hw.2⟩
    intro w w' h he
    exact ⟨fun i hi => h.1 i (he.2.2.2 i hi), he.2.2.1.trans h.2⟩

end Safe

section Runs
variable {o : Call → Option Fault} {pair : Pair} {w : World}

theorem runs_lookup {α : Type} (id : String) {k : Unit → Task α} {r : Except Exc α} {w' : World}
    (hin : id ∈ w.instances) (h : Runs (host o pair) (k ()) w r w') :
    Runs (host o pair) ((lookupInstance id).bind k) w r w' := by
  refine .read ?_
  dsimp only
  rw [if_pos hin]
  exact h

theorem runs_lookup_raises {α : Type} (id : String) {k : Unit → Task α}
    (hout : id ∉ w.instances) :
    Runs (host o pair) ((lookupInstance id).bind k) w (.error (.keyError id)) w := by
  refine .read ?_
  dsimp only
  rw [if_neg hout]
  exact .raise _ _

theorem runs_checkInstanceError (h1 : pair.1 ∈ w.instances) (h2 : pair.2 ∈ w.instances) :
    ∃ hasErrorPair w', Runs (host o pair) (checkInstanceError pair) w (.ok hasErrorPair) w' ∧
      (∀ i, hasErrorPair i = (o (.isReady i) == some .rayActorError)) ∧
      w'.instances = w.instances ∧ w'.failed = w.failed := by
  have hserve : ∀ i (w : World), (host o pair).serve (.isReady i) w (answer (o (.isReady i)))
      (w.served (o (.isReady i)) (.isReady i)) := fun _ _ => ⟨rfl, rfl⟩
  refine ⟨_, _, .write (runs_lookup _ h1 (runs_lookup _ h2 (.gather
    (.serve (c := Call.isReady false) [] [Call.isReady true] (hserve false _)
      (.serve (c := Call.isReady true) [] [] (hserve true _)
        (.join (.read (.ret _ _)))))))), fun i => ?_, rfl, rfl⟩
  cases i with
  | false =>
    change (some (o (.isReady false) == some .rayActorError) == some true) = _
    cases o (.isReady false) == some .rayActorError <;> rfl
  | true =>
    change (some (o (.isReady true) == some .rayActorError) == some true) = _
    cases o (.isReady true) == some .rayActorError <;> rfl

section Loops
variable (o : Call → Option Fault) (pair : Pair) (hasErrorPair : Bool → Bool) (w : World)

theorem runs_clearAlive (b : Bool) : ∃ w',
    Runs (host o pair) (clearAlive pair hasErrorPair b) w (.ok ()) w' ∧
      w'.instances = w.instances ∧ (∀ i, w.failed i = true → w'.failed i = true) ∧
      (hasErrorPair b = false → pairId pair b ∈ w.instances →
        o (.clearMigrationStates b) ≠ none → w'.failed b = true) := by
  unfold clearAlive
  split
  · rename_i herror
    refine ⟨w, .ret _ _, rfl, fun _ h => h, fun hno => ?_⟩
    rw [herror] at hno
    cases hno
  · by_cases hin : pairId pair b ∈ w.instances
    · have hcall : Runs (host o pair) (Prog.call (.clearMigrationStates b)) w
          (answer (o (.clearMigrationStates b)))
          (w.served (o (.clearMigrationStates b)) (.clearMigrationStates b)) :=
        .call ⟨rfl, rfl⟩
      refine ⟨w.served (o (.clearMigrationStates b)) (.clearMigrationStates b),
        Runs.tryCatch (runs_lookup _ hin hcall) ?_, ?_⟩
      · cases o (.clearMigrationStates b) <;> exact .ret _ _
      · cases hc : o (.clearMigrationStates b) with
        | none => exact ⟨rfl, fun _ h => h, fun _ _ hne => absurd rfl hne⟩
        | some fault =>
          refine ⟨rfl, fun i hi => ?_, fun _ _ _ => Function.update_self b _ _⟩
          change Function.update w.failed b true i = true
          by_cases hib : i = b
          · rw [hib, Function.update_self]
          · rw [Function.update_of_ne hib, hi]
    · refine ⟨w, Runs.tryCatch (runs_lookup_raises _ hin) (.ret _ _), rfl, fun _ h => h, ?_⟩
      exact fun _ hin' => absurd hin' hin

theorem runs_clearLoop (bs : List Bool) : ∃ w',
    Runs (host o pair) (Prog.forEach (clearAlive pair hasErrorPair) bs) w (.ok ()) w' ∧
      w'.instances = w.instances ∧ (∀ i, w.failed i = true → w'.failed i = true) ∧
      ∀ b ∈ bs, hasErrorPair b = false → pairId pair b ∈ w.instances →
        o (.clearMigrationStates b) ≠ none → w'.failed b = true := by
  induction bs generalizing w with
  | nil => exact ⟨w, .ret _ _, rfl, fun _ h => h, nofun⟩
  | cons b bs ih =>
    obtain ⟨w₁, hrun₁, hinst₁, hkeep₁, hfail₁⟩ :=
      runs_clearAlive o pair hasErrorPair w b
    obtain ⟨w₂, hrun₂, hinst₂, hkeep₂, hfail₂⟩ := ih w₁
    refine ⟨w₂, .bind hrun₁ hrun₂, hinst₂.trans hinst₁, fun i hi => hkeep₂ i (hkeep₁ i hi), ?_⟩
    intro c hc hno hin hne
    rcases List.mem_cons.mp hc with rfl | hc
    · exact hkeep₂ c (hfail₁ hno hin hne)
    · refine hfail₂ c hc hno ?_ hne
      rw [hinst₁]
      exact hin

theorem runs_scaleDownLoop (bs : List Bool) : ∃ w',
    Runs (host o pair) (Prog.forEach (scaleDownDead pair hasErrorPair) bs) w (.ok ()) w' ∧
      w'.failed = w.failed ∧
      ∀ id ∈ w.instances, (∀ b ∈ bs, hasErrorPair b = true → pairId pair b ≠ id) →
        id ∈ w'.instances := by
  induction bs generalizing w with
  | nil => exact ⟨w, .ret _ _, rfl, fun _ h _ => h⟩
  | cons b bs ih =>
    obtain ⟨w₁, hrun₁, hfailed₁, hstay₁⟩ : ∃ w₁,
        Runs (host o pair) (scaleDownDead pair hasErrorPair b) w (.ok ()) w₁ ∧
          w₁.failed = w.failed ∧ ∀ id ∈ w.instances,
            (hasErrorPair b = true → pairId pair b ≠ id) → id ∈ w₁.instances := by
      unfold scaleDownDead
      split
      · rename_i herror
        refine ⟨_, .write (.ret _ _), rfl, fun id hid hne => ?_⟩
        refine List.mem_filter.mpr ⟨hid, ?_⟩
        simpa using fun heq : id = pairId pair b => hne herror heq.symm
      · exact ⟨w, .ret _ _, rfl, fun _ hid _ => hid⟩
    obtain ⟨w₂, hrun₂, hfailed₂, hstay₂⟩ := ih w₁
    refine ⟨w₂, .bind hrun₁ hrun₂, hfailed₂.trans hfailed₁, fun id hid hne => ?_⟩
    refine hstay₂ id (hstay₁ id hid (hne b List.mem_cons_self)) fun c hc => ?_
    exact hne c (List.mem_cons_of_mem b hc)

end Loops

theorem runs_recoverPair_fails (h1 : pair.1 ∈ w.instances) (h2 : pair.2 ∈ w.instances) {i : Bool}
    (halive : ¬Dead o pair (pairId pair i)) (hne : o (.clearMigrationStates i) ≠ none) :
    ∃ w', Runs (host o pair) (recoverPair pair) w (.ok ()) w' ∧ w'.failed i = true ∧
      pairId pair i ∈ w'.instances := by
  obtain ⟨hasErrorPair, w₁, hrun₁, herr, hinst₁, -⟩ :=
    runs_checkInstanceError (o := o) (w := w) h1 h2
  obtain ⟨w₂, hrun₂, hinst₂, -, hfail⟩ :=
    runs_clearLoop o pair hasErrorPair w₁ [false, true]
  obtain ⟨w₃, hrun₃, hfailed, hstay⟩ :=
    runs_scaleDownLoop o pair hasErrorPair w₂ [false, true]
  have hin : pairId pair i ∈ w.instances := by
    cases i with
    | false => exact h1
    | true => exact h2
  have hno : hasErrorPair i = false := by
    rw [Bool.eq_false_iff]
    intro htrue
    exact halive ⟨i, rfl, (hasError_iff herr i).mp htrue⟩
  have hmem : i ∈ [false, true] := by cases i <;> decide
  refine ⟨w₃, .bind hrun₁ (.bind hrun₂ hrun₃), ?_, ?_⟩
  · rw [hfailed]
    exact hfail i hmem hno (by rw [hinst₁]; exact hin) hne
  · refine hstay _ (by rw [hinst₂, hinst₁]; exact hin) fun b _ htrue heq => halive ⟨b, heq, ?_⟩
    exact (hasError_iff herr b).mp htrue

end Runs

theorem both_of_recovered {o : Call → Option Fault} {pair : Pair} {w : World}
    (hw : ∀ i, w.cleared i = false)
    (h : ∀ {r w'}, Runs (host o pair) (recoverPair pair) w r w' → Recovered pair w') :
    pair.1 ∈ w.instances ↔ pair.2 ∈ w.instances := by
  have hfirst : pair.1 ∉ w.instances → Recovered pair { w with results := fun _ => none } :=
    fun h1 => h (.bind (.write (runs_lookup_raises (pairId pair false) h1)) (.raise _ _))
  have hsecond : pair.1 ∈ w.instances → pair.2 ∉ w.instances →
      Recovered pair { w with results := fun _ => none } := fun h1 h2 =>
    h (.bind (.write (runs_lookup (pairId pair false) h1
      (runs_lookup_raises (pairId pair true) h2))) (.raise _ _))
  constructor
  · intro h1
    apply Classical.byContradiction
    intro h2
    have hcleared : w.cleared false = true := (hsecond h1 h2 false).1 h1
    rw [hw false] at hcleared
    cases hcleared
  · intro h2
    apply Classical.byContradiction
    intro h1
    have hcleared : w.cleared true = true := (hfirst h1 true).1 h2
    rw [hw true] at hcleared
    cases hcleared

theorem ends_recovered_of_smooth {o : Call → Option Fault} {pair : Pair} {e : Exc}
    {instances : List String} {flags : String → Option Bool}
    {requestInstance : String → Option String} {r : Except Exc Unit} {w' : World}
    (hs : Smooth o pair instances)
    (hr : (host o pair).Ends (migrateDoneCallback pair (.error e))
      (.start instances flags requestInstance) r w') : Recovered pair w' := by
  let w := (World.start instances flags requestInstance).resetFlags pair
  by_cases hreg : pair.1 ∈ instances
  · have hsafe := safe_recoverPair (w := w) hs hreg nofun
    have hpost := Safe.ends (.write trivial hsafe) hr
    cases r with
    | ok _ => exact hpost
    | error _ => exact hpost.elim
  · have hnone : ∀ i, pairId pair i ∉ w.instances := by
      intro i
      cases i with
      | false => exact hreg
      | true => exact fun h2 => hreg (hs.both.mpr h2)
    have hsafe := safe_unregistered (o := o) (Q := fun _ w => Recovered pair w)
      (fun w e hw hf i => ⟨fun hin => absurd hin (hw i), fun _ => hw i⟩) hnone rfl
    exact Safe.ends (.write trivial hsafe) hr

/-- The callback leaves nobody half-recovered, whatever other tasks do meanwhile, exactly if it
starts with both instances or with none and no live instance fails to clear its states. -/
theorem recovered_iff_smooth (o : Call → Option Fault) (pair : Pair) (e : Exc)
    (instances : List String) (flags : String → Option Bool)
    (requestInstance : String → Option String) :
    (∀ r w', (host o pair).Ends (migrateDoneCallback pair (.error e))
      (.start instances flags requestInstance) r w' → Recovered pair w') ↔
        Smooth o pair instances := by
  let w := (World.start instances flags requestInstance).resetFlags pair
  constructor
  · intro hall
    have hends : ∀ {r w'}, Runs (host o pair) (recoverPair pair) w r w' → Recovered pair w' :=
      fun hrun => hall _ _ (Runs.write hrun).ends
    have hboth : pair.1 ∈ instances ↔ pair.2 ∈ instances :=
      both_of_recovered (fun _ => rfl) hends
    refine ⟨hboth, fun h1 i halive => ?_⟩
    apply Classical.byContradiction
    intro hne
    obtain ⟨w', hrun, hfailed, hin⟩ :=
      runs_recoverPair_fails (w := w) h1 (hboth.mp h1) halive hne
    exact (hends hrun i).2 hfailed hin
  · exact fun hs r w' hr => ends_recovered_of_smooth hs hr

section Sample

def sampleCalls : Call → Option Fault
  | .clearMigrationStates true => some .rayTaskError
  | _ => none

/-- Both instances answer the probe, but the second fails to clear its states: it stays
registered. -/
theorem failed_recovery_stays_registered : ∃ w',
    (host sampleCalls ("a", "b")).Ends
      (migrateDoneCallback ("a", "b") (.error (.ray .rayActorError)))
      (.start ["a", "b"] (fun _ => some true) (fun _ => none)) (.ok ()) w' ∧
      w'.failed true = true ∧ "b" ∈ w'.instances ∧ ¬Recovered ("a", "b") w' := by
  have halive : ¬Dead sampleCalls ("a", "b") (pairId ("a", "b") true) := by
    rintro ⟨i, -, hready⟩
    cases hready
  obtain ⟨w', hrun, hfailed, hin⟩ := runs_recoverPair_fails
    (w := (World.start ["a", "b"] (fun _ => some true) fun _ => none).resetFlags ("a", "b"))
    (by decide) (by decide) halive nofun
  exact ⟨w', (Runs.write hrun).ends, hfailed, hin, fun h => (h true).2 hfailed hin⟩

end Sample

end Llumnix.Legacy.Callback
