import Llumnix.Coroutine.Segment
import Llumnix.Scaling.Loop
import Llumnix.Scheduler.Registries

/-! The body of `_auto_scale_up_loop` with every call that can raise and every point at which it can
be suspended. -/
namespace Llumnix.Scaling

open Coroutine Python Scheduler

inductive LoopExc
  | serverUnavailable
  | timeout
  | other
  deriving DecidableEq

/-- What the calls of an iteration return or raise. -/
structure Outcomes (G : Type) where
  /-- The number of groups with the name of the instance that timed out last. -/
  named : Except LoopExc ℕ
  getPlacementGroup : Except LoopExc G
  /-- The instances in the names of the groups. -/
  pending : Except LoopExc (List String)
  rescheduling : Except LoopExc (List String)
  alive : Except LoopExc ℕ
  scaleDown : String → Except LoopExc Unit
  newInstanceId : String
  initPlacementGroup : Except LoopExc G
  /-- `new_pg.ready()`, which is not yet awaited. -/
  ready : Except LoopExc Unit
  fault : Option Fault

structure LoopWorld (H G : Type) where
  state : Autoscaler H G
  outcomes : Outcomes G

inductive Suspension
  | sleep
  | waitFor

abbrev Body (H G α : Type) := Prog (LoopWorld H G) Suspension (fun _ => Unit) LoopExc α

namespace Body
variable {H G α : Type}

def get (f : Outcomes G → Except LoopExc α) : Body H G α :=
  .read fun w => .ofExcept (f w.outcomes)

def modify (f : Autoscaler H G → Autoscaler H G) : Body H G Unit :=
  .write (fun w => { w with state := f w.state }) (.ret ())

/-- `try: p except ServerUnavailable: h`. -/
def onUnavailable (p h : Body H G α) : Body H G α :=
  p.tryCatch fun e => if e = .serverUnavailable then h else .raise e

def disable : Body H G Unit := modify fun s => { s with stateApiAvailable := false }

/-- The group of the instance that timed out last. -/
def lookUp (instanceId : String) : Body H G (Option (String × G)) := do
  let n ← get (·.named)
  let resumed ← if 0 < n then do
      let pg ← get (·.getPlacementGroup)
      pure (some (instanceId, pg))
    else pure none
  modify fun s => { s with lastTimeoutInstanceId := none }
  pure resumed

def resumeByName : Body H G (Option (String × G)) :=
  onUnavailable
    (.read fun w =>
      match w.state.stateApiAvailable, w.state.lastTimeoutInstanceId with
      | true, some instanceId => lookUp instanceId
      | _, _ => pure none)
    (do
      disable
      modify fun s => { s with lastTimeoutInstanceId := none }
      pure none)

/-- Without the State API, the first group that is retained. -/
def resumeRetained (resumed : Option (String × G)) : Body H G (Option (String × G)) :=
  .read fun w =>
    if w.state.stateApiAvailable then pure resumed
    else pure (w.state.pendingPlacementGroups.items.head?.or resumed)

/-- `pending_pg_states` and the number of `alive_pg_states`. -/
def survey : Body H G (List String × ℕ) :=
  onUnavailable
    (.read fun w =>
      if w.state.stateApiAvailable then do
        let pending ← get (·.pending)
        let rescheduling ← get (·.rescheduling)
        let alive ← get (·.alive)
        pure (pending ++ rescheduling, alive)
      else pure ([], 0))
    (do
      disable
      pure ([], 0))

def reclaim (resumed : Option (String × G)) (instanceIds : List String) : Body H G Unit :=
  .forEach
    (fun i => if resumed.map Prod.fst = some i then pure () else do
      get (·.scaleDown i)
      modify (·.scaleDown [i] true))
    instanceIds

def create : Body H G (String × G) := do
  let pg ← get (·.initPlacementGroup)
  let instanceId ← get (.ok ·.newInstanceId)
  modify (·.create instanceId pg)
  pure (instanceId, pg)

/-- `await asyncio.wait_for(new_pg.ready(), ...)`, and what follows it. -/
def waitAndDeploy (instanceId : String) (pg : G) : Body H G Unit := do
  let ready ← Prog.tryCatch
    (do
      get (·.ready)
      modify fun s => { s with point := .waiting instanceId pg }
      .call .waitFor
      pure true)
    (fun e => if e = .timeout then do
        modify fun s => { s with point := .idle, lastTimeoutInstanceId := some instanceId }
        .call .sleep
        pure false
      else .raise e)
  if ready then do
    let fault ← get (.ok ·.fault)
    modify (·.deploy instanceId fault)
  else pure ()

/-- From the test of the capacity on. -/
def scaleUpOnce (resumed : Option (String × G)) (alive : ℕ) : Body H G Unit :=
  .read fun w =>
    if Checkpoint.Full ⟨w.state, resumed, alive⟩ then .call .sleep
    else do
      let (instanceId, pg) ← match resumed with
        | some r => pure r
        | none => create
      waitAndDeploy instanceId pg

def attempt : Body H G Unit := do
  let resumed ← resumeByName.bind resumeRetained
  let (instanceIds, alive) ← survey
  reclaim resumed instanceIds
  scaleUpOnce resumed alive

def iteration : Body H G Unit :=
  attempt.tryCatch fun e =>
    if e = .serverUnavailable then do
      disable
      .call .sleep
    else pure ()

end Body

def Reply.of {α : Type} : Except LoopExc α → Reply α
  | .ok a => .ok a
  | .error .serverUnavailable => .serverUnavailable
  | .error _ => .raises

namespace Outcomes
variable {G : Type} (o : Outcomes G)

def lookUp : Except LoopExc (Option G) :=
  match o.named with
  | .error e => .error e
  | .ok 0 => .ok none
  | .ok (_ + 1) => o.getPlacementGroup.map some

def survey : Except LoopExc (List String × ℕ) :=
  match o.pending, o.rescheduling, o.alive with
  | .error e, _, _ | .ok _, .error e, _ | .ok _, .ok _, .error e => .error e
  | .ok pending, .ok rescheduling, .ok alive => .ok (pending ++ rescheduling, alive)

def error? {α : Type} : Except LoopExc α → Option LoopExc
  | .ok _ => none
  | .error e => some e

/-- The first exception of the calls of `scale_down`. -/
def failure (resumed : Option (String × G)) (instanceIds : List String) : Option LoopExc :=
  (instanceIds.filter fun i => resumed.map Prod.fst ≠ some i).findSome? fun i =>
    error? (o.scaleDown i)

/-- An exception other than `ServerUnavailable` comes out of a call before `wait_for` is awaited. -/
def RaisesEarly {H : Type} (s : Autoscaler H G) : Prop :=
  match s.resume (.of o.lookUp) with
  | none => True
  | some (s, resumed) =>
    match s.survey (.of o.survey) with
    | none => True
    | some (s, instanceIds, alive) =>
      match o.failure resumed instanceIds with
      | some e => e ≠ .serverUnavailable
      | none =>
        ¬Checkpoint.Full ⟨s.reclaim resumed instanceIds, resumed, alive⟩ ∧
          ((resumed = none ∧ ∃ e, o.initPlacementGroup = .error e ∧ e ≠ .serverUnavailable) ∨
            ((resumed ≠ none ∨ ∃ pg, o.initPlacementGroup = .ok pg) ∧
              ∃ e, o.ready = .error e ∧ e ≠ .serverUnavailable ∧ e ≠ .timeout))

def answers : Answers G where
  lookup := .of o.lookUp
  states := .of o.survey
  newInstanceId := o.newInstanceId
  newPg := o.initPlacementGroup.toOption

end Outcomes

namespace Body
variable {H G α : Type} {s s' : Autoscaler H G} {o : Outcomes G} {resumed : Option (String × G)}
  {w w' : LoopWorld H G}

@[simp] theorem segment_get (f : Outcomes G → Except LoopExc α) (w : LoopWorld H G) :
    (get f : Body H G α).segment w = .ended (f w.outcomes) w := by
  change (Prog.ofExcept (f w.outcomes) : Body H G α).segment w = _
  cases f w.outcomes <;> rfl

@[simp] theorem segment_modify (f : Autoscaler H G → Autoscaler H G) (w : LoopWorld H G) :
    (modify f).segment w = .ended (.ok ()) { w with state := f w.state } := rfl

theorem segment_lookUp (instanceId : String) (s : Autoscaler H G) (o : Outcomes G) :
    (lookUp instanceId).segment ⟨s, o⟩ =
      match o.lookUp with
      | .ok pg => .ended (.ok (pg.map (instanceId, ·)))
          ⟨{ s with lastTimeoutInstanceId := none }, o⟩
      | .error e => .ended (.error e) ⟨s, o⟩ := by
  unfold lookUp Outcomes.lookUp
  rw [Prog.bind_eq, Prog.segment_bind, segment_get]
  cases o.named with
  | error e => rfl
  | ok n =>
    cases n with
    | zero => rfl
    | succ n =>
      simp only [Nat.succ_pos, if_true, Prog.bind_eq, Prog.segment_bind, segment_get]
      cases o.getPlacementGroup <;> rfl

theorem segment_onUnavailable (p h : Body H G α) (w : LoopWorld H G) :
    (onUnavailable p h).segment w =
      match p.segment w with
      | .ended (.error .serverUnavailable) w' => h.segment w'
      | r => r := by
  unfold onUnavailable
  rw [Prog.segment_tryCatch]
  rcases p.segment w with ⟨_ | a, w'⟩ | w'
  · rename_i e
    cases e <;> rfl
  · rfl
  · rfl

/-- The exception that `resume` and `survey` of the loop leave out. -/
def raised (r : Except LoopExc α) : LoopExc := (Outcomes.error? r).getD .other

theorem segment_resumeByName (s : Autoscaler H G) (o : Outcomes G) :
    (resumeByName : Body H G _).segment ⟨s, o⟩ =
      match s.resumeByName (.of o.lookUp) with
      | some (s', resumed) => .ended (.ok resumed) ⟨s', o⟩
      | none => .ended (.error (raised o.lookUp)) ⟨s, o⟩ := by
  obtain ⟨_, _, _, _, _, _, last, api, _, _, _, _, _, _⟩ := s
  unfold resumeByName Autoscaler.resumeByName
  rw [segment_onUnavailable, Prog.segment]
  cases api with
  | false => rfl
  | true =>
    cases last with
    | none => rfl
    | some i =>
      dsimp only
      rw [segment_lookUp]
      rcases o.lookUp with (_ | _ | _) | pg <;> rfl

theorem segment_resume (s : Autoscaler H G) (o : Outcomes G) :
    (resumeByName.bind resumeRetained : Body H G _).segment ⟨s, o⟩ =
      match s.resume (.of o.lookUp) with
      | some (s', resumed) => .ended (.ok resumed) ⟨s', o⟩
      | none => .ended (.error (raised o.lookUp)) ⟨s, o⟩ := by
  rw [Prog.segment_bind, segment_resumeByName]
  unfold Autoscaler.resume
  cases s.resumeByName (.of o.lookUp) with
  | none => rfl
  | some r =>
    obtain ⟨s', resumed⟩ := r
    simp only [Option.map_some, resumeRetained, Prog.segment]
    split_ifs <;> rfl

theorem segment_survey (s : Autoscaler H G) (o : Outcomes G) :
    (survey : Body H G _).segment ⟨s, o⟩ =
      match s.survey (.of o.survey) with
      | some (s', instanceIds, alive) => .ended (.ok (instanceIds, alive)) ⟨s', o⟩
      | none => .ended (.error (raised o.survey)) ⟨s, o⟩ := by
  obtain ⟨_, _, _, _, _, _, last, api, _, _, _, _, _, _⟩ := s
  obtain ⟨_, _, pending, rescheduling, alive, _, _, _, _, _⟩ := o
  unfold survey Autoscaler.survey
  rw [segment_onUnavailable, Prog.segment]
  cases api with
  | false => rfl
  | true =>
    rcases pending with (_ | _ | _) | pending <;> try rfl
    rcases rescheduling with (_ | _ | _) | rescheduling <;> try rfl
    rcases alive with (_ | _ | _) | alive <;> rfl

theorem reclaim_cons (i : String) (is : List String) (resumed : Option (String × G)) :
    (reclaim resumed (i :: is) : Body H G Unit) =
      (if resumed.map Prod.fst = some i then .ret () else
        (get (·.scaleDown i)).bind fun _ => modify (·.scaleDown [i] true)).bind fun _ =>
          reclaim resumed is := rfl

theorem segment_reclaim (resumed : Option (String × G)) (is : List String) (s : Autoscaler H G)
    (o : Outcomes G) :
    (o.failure resumed is = none →
        (reclaim resumed is).segment ⟨s, o⟩ = .ended (.ok ()) ⟨s.reclaim resumed is, o⟩) ∧
      ∀ e, o.failure resumed is = some e →
        ∃ s', (reclaim resumed is).segment ⟨s, o⟩ = .ended (.error e) ⟨s', o⟩ := by
  induction is generalizing s with
  | nil => exact ⟨fun _ => rfl, fun e he => by cases he⟩
  | cons i is ih =>
    rw [reclaim_cons, Prog.segment_bind]
    unfold Outcomes.failure Autoscaler.reclaim at ih ⊢
    by_cases hi : resumed.map Prod.fst = some i
    · simpa [hi, Prog.segment] using ih s
    · cases hdown : o.scaleDown i with
      | error e =>
        simp [hi, Prog.segment_bind, hdown, Outcomes.error?]
      | ok u =>
        simpa [hi, Prog.segment_bind, hdown, Outcomes.error?] using ih (s.scaleDown [i] true)

theorem segment_create (s : Autoscaler H G) (o : Outcomes G) :
    (create : Body H G _).segment ⟨s, o⟩ =
      match o.initPlacementGroup with
      | .ok pg => .ended (.ok (o.newInstanceId, pg)) ⟨s.create o.newInstanceId pg, o⟩
      | .error e => .ended (.error e) ⟨s, o⟩ := by
  unfold create
  simp only [Prog.bind_eq, Prog.segment_bind, segment_get]
  cases o.initPlacementGroup <;> rfl

theorem segment_waitAndDeploy (i : String) (pg : G) (s : Autoscaler H G) (o : Outcomes G) :
    (waitAndDeploy i pg).segment ⟨s, o⟩ =
      match o.ready with
      | .ok _ => .suspended ⟨{ s with point := .waiting i pg }, o⟩
      | .error .timeout =>
        .suspended ⟨{ s with point := .idle, lastTimeoutInstanceId := some i }, o⟩
      | .error e => .ended (.error e) ⟨s, o⟩ := by
  unfold waitAndDeploy
  simp only [Prog.bind_eq, Prog.segment_bind, Prog.segment_tryCatch, segment_get]
  rcases o.ready with (_ | _ | _) | u <;> rfl

theorem segment_scaleUpOnce (resumed : Option (String × G)) (alive : ℕ) (s : Autoscaler H G)
    (o : Outcomes G) :
    (scaleUpOnce resumed alive).segment ⟨s, o⟩ =
      if Checkpoint.Full ⟨s, resumed, alive⟩ then .suspended ⟨s, o⟩
      else match resumed, o.initPlacementGroup with
        | some (i, pg), _ => (waitAndDeploy i pg).segment ⟨s, o⟩
        | none, .ok pg =>
          (waitAndDeploy o.newInstanceId pg).segment ⟨s.create o.newInstanceId pg, o⟩
        | none, .error e => .ended (.error e) ⟨s, o⟩ := by
  unfold scaleUpOnce
  rw [Prog.segment]
  dsimp only
  split_ifs with hfull
  · rfl
  · cases resumed with
    | some r => rfl
    | none =>
      dsimp only
      rw [Prog.bind_eq, Prog.segment_bind, segment_create]
      cases o.initPlacementGroup <;> rfl

def Suspends (p : Body H G α) (w : LoopWorld H G) : Prop := ∃ w', p.segment w = .suspended w'

theorem not_suspends_of_ended {p : Body H G α} {r : Except LoopExc α}
    (h : p.segment w = .ended r w') : ¬Suspends p w := by
  rintro ⟨w'', hs⟩
  rw [h] at hs
  cases hs

theorem suspends_iteration_of_error {e : LoopExc}
    (h : (attempt : Body H G Unit).segment w = .ended (.error e) w') :
    Suspends (iteration : Body H G Unit) w ↔ e = .serverUnavailable := by
  unfold Suspends iteration
  rw [Prog.segment_tryCatch, h]
  dsimp only
  split_ifs with he
  · exact iff_of_true ⟨_, rfl⟩ he
  · exact iff_of_false (fun ⟨_, h⟩ => by cases h) he

theorem suspends_iteration_of_attempt (h : Suspends (attempt : Body H G Unit) w) :
    Suspends (iteration : Body H G Unit) w := by
  obtain ⟨w', h⟩ := h
  refine ⟨w', ?_⟩
  rw [iteration, Prog.segment_tryCatch, h]

theorem segment_attempt (s : Autoscaler H G) (o : Outcomes G) :
    (attempt : Body H G Unit).segment ⟨s, o⟩ =
      match s.resume (.of o.lookUp) with
      | none => .ended (.error (raised o.lookUp)) ⟨s, o⟩
      | some (s, resumed) =>
        match s.survey (.of o.survey) with
        | none => .ended (.error (raised o.survey)) ⟨s, o⟩
        | some (s, instanceIds, alive) =>
          ((reclaim resumed instanceIds).bind fun _ =>
            scaleUpOnce resumed alive).segment ⟨s, o⟩ := by
  unfold attempt
  rw [Prog.bind_eq, Prog.segment_bind, segment_resume]
  cases s.resume (.of o.lookUp) with
  | none => rfl
  | some r =>
    dsimp only
    rw [Prog.bind_eq, Prog.segment_bind, segment_survey]
    cases r.1.survey (.of o.survey) <;> rfl

theorem eq_of_raised {r : Except LoopExc α} (h : raised r = .serverUnavailable) :
    r = .error .serverUnavailable := by
  rcases r with (_ | _ | _) | a <;> first | rfl | cases h

theorem raised_of_resume {r : Except LoopExc (Option G)} (h : s.resume (.of r) = none) :
    raised r ≠ .serverUnavailable := by
  intro hraised
  rw [eq_of_raised hraised, Autoscaler.resume, Option.map_eq_none_iff, Autoscaler.resumeByName,
    Reply.of] at h
  split at h <;> cases h

theorem raised_of_survey {r : Except LoopExc (List String × ℕ)} (h : s.survey (.of r) = none) :
    raised r ≠ .serverUnavailable := by
  intro hraised
  rw [eq_of_raised hraised] at h
  unfold Autoscaler.survey at h
  split at h <;> cases h

theorem suspends_iteration_of_wait {i : String} {pg : G}
    (h : (attempt : Body H G Unit).segment w = (waitAndDeploy i pg).segment ⟨s, o⟩) :
    Suspends (iteration : Body H G Unit) w ↔
      ¬∃ e, o.ready = .error e ∧ e ≠ .serverUnavailable ∧ e ≠ .timeout := by
  rw [segment_waitAndDeploy] at h
  rcases hready : o.ready with (_ | _ | _) | u
  all_goals rw [hready] at h
  · rw [suspends_iteration_of_error h]
    simp
  · exact iff_of_true (suspends_iteration_of_attempt ⟨_, h⟩) (by simp)
  · rw [suspends_iteration_of_error h]
    simp
  · exact iff_of_true (suspends_iteration_of_attempt ⟨_, h⟩) (by simp)

theorem suspends_iteration_of_scaleUpOnce {alive : ℕ}
    (h : (attempt : Body H G Unit).segment w = (scaleUpOnce resumed alive).segment ⟨s, o⟩) :
    Suspends (iteration : Body H G Unit) w ↔
      ¬(¬Checkpoint.Full ⟨s, resumed, alive⟩ ∧
        ((resumed = none ∧ ∃ e, o.initPlacementGroup = .error e ∧ e ≠ .serverUnavailable) ∨
          ((resumed ≠ none ∨ ∃ pg, o.initPlacementGroup = .ok pg) ∧
            ∃ e, o.ready = .error e ∧ e ≠ .serverUnavailable ∧ e ≠ .timeout))) := by
  rw [segment_scaleUpOnce] at h
  split_ifs at h with hfull
  · exact iff_of_true (suspends_iteration_of_attempt ⟨_, h⟩) fun hnot => hnot.1 hfull
  cases resumed with
  | some r =>
    rw [suspends_iteration_of_wait h]
    simp [hfull]
  | none =>
    cases hinit : o.initPlacementGroup with
    | ok pg =>
      rw [hinit] at h
      rw [suspends_iteration_of_wait h]
      simp [hfull]
    | error e =>
      rw [hinit] at h
      rw [suspends_iteration_of_error h]
      simp [hfull]

/-- An iteration is suspended at least once exactly if no exception but `ServerUnavailable` comes
before it waits. -/
theorem suspends_iteration_iff (s : Autoscaler H G) (o : Outcomes G) :
    Suspends (iteration : Body H G Unit) ⟨s, o⟩ ↔ ¬o.RaisesEarly s := by
  have hattempt := segment_attempt s o
  unfold Outcomes.RaisesEarly
  cases hresume : s.resume (.of o.lookUp) with
  | none =>
    rw [hresume] at hattempt
    rw [suspends_iteration_of_error hattempt]
    exact iff_of_false (raised_of_resume hresume) (not_not_intro trivial)
  | some r =>
    obtain ⟨s₁, resumed⟩ := r
    rw [hresume] at hattempt
    dsimp only at hattempt ⊢
    cases hsurvey : s₁.survey (.of o.survey) with
    | none =>
      rw [hsurvey] at hattempt
      rw [suspends_iteration_of_error hattempt]
      exact iff_of_false (raised_of_survey hsurvey) (not_not_intro trivial)
    | some v =>
      obtain ⟨s₂, is, alive⟩ := v
      rw [hsurvey] at hattempt
      dsimp only at hattempt ⊢
      rw [Prog.segment_bind] at hattempt
      obtain ⟨hok, herror⟩ := segment_reclaim resumed is s₂ o
      cases hfail : o.failure resumed is with
      | some e =>
        obtain ⟨s', hs'⟩ := herror e hfail
        rw [hs'] at hattempt
        rw [suspends_iteration_of_error hattempt]
        simp
      | none =>
        rw [hok hfail] at hattempt
        exact suspends_iteration_of_scaleUpOnce hattempt

/-- Where no call raises, the iteration comes to wait in the state that the loop gives it. -/
theorem suspended_iterate {c : Checkpoint H G} {pg : G}
    (hc : s.checkpoint o.answers = .ok c) (hdown : ∀ i, o.scaleDown i = .ok ())
    (hinit : o.initPlacementGroup = .ok pg) (hready : o.ready = .ok ())
    (hnew : o.newInstanceId ∉ s.known) :
    ∃ s', s.iterate o.answers = some s' ∧
      (iteration : Body H G Unit).segment ⟨s, o⟩ = .suspended ⟨s', o⟩ := by
  have hattempt : (attempt : Body H G Unit).segment ⟨s, o⟩ =
      (scaleUpOnce c.resumed c.alive).segment ⟨c.state, o⟩ := by
    unfold Autoscaler.checkpoint at hc
    split at hc
    · cases hc
    rename_i s₁ resumed hresume
    split at hc
    · cases hc
    rename_i s₂ is alive hsurvey
    cases hc
    have hfail : o.failure resumed is = none := by
      simp [Outcomes.failure, hdown, Outcomes.error?]
    rw [segment_attempt, show s.resume (.of o.lookUp) = _ from hresume]
    dsimp only
    rw [show s₁.survey (.of o.survey) = _ from hsurvey]
    dsimp only
    rw [Prog.segment_bind, (segment_reclaim resumed is s₂ o).1 hfail]
  rw [segment_scaleUpOnce] at hattempt
  have hkeep : ∀ {s'}, (attempt : Body H G Unit).segment ⟨s, o⟩ = .suspended ⟨s', o⟩ →
      (iteration : Body H G Unit).segment ⟨s, o⟩ = .suspended ⟨s', o⟩ := by
    intro s' h
    rw [iteration, Prog.segment_tryCatch, h]
  unfold Autoscaler.iterate
  rw [hc]
  dsimp only
  by_cases hfull : c.Full
  · rw [if_pos hfull] at hattempt ⊢
    exact ⟨_, rfl, hkeep hattempt⟩
  rw [if_neg hfull] at hattempt ⊢
  have hpg : o.answers.newPg = some pg := by
    rw [Outcomes.answers, hinit]
    rfl
  cases hresumed : c.resumed with
  | some r =>
    rw [hresumed] at hattempt
    dsimp only at hattempt
    rw [segment_waitAndDeploy, hready] at hattempt
    exact ⟨_, rfl, hkeep hattempt⟩
  | none =>
    rw [hresumed, hinit] at hattempt
    dsimp only at hattempt
    rw [segment_waitAndDeploy, hready] at hattempt
    rw [hpg]
    exact ⟨_, if_neg hnew, hkeep hattempt⟩

/-! ### The loop -/

/-- The loop when iteration `n` begins. What happens between two iterations happens while the first
of them is suspended; `meanwhile` is how it leaves the Manager. -/
def world (s : Autoscaler H G) (o : ℕ → Outcomes G) (meanwhile : ℕ → Autoscaler H G) :
    ℕ → LoopWorld H G
  | 0 => ⟨s, o 0⟩
  | n + 1 =>
    match (iteration : Body H G Unit).segment (world s o meanwhile n) with
    | .ended _ w => ⟨w.state, o (n + 1)⟩
    | .suspended _ => ⟨meanwhile n, o (n + 1)⟩

theorem outcomes_world (s : Autoscaler H G) (o : ℕ → Outcomes G) (meanwhile : ℕ → Autoscaler H G)
    (n : ℕ) : (world s o meanwhile n).outcomes = o n := by
  cases n with
  | zero => rfl
  | succ n =>
    unfold world
    split <;> rfl

/-- Every iteration is suspended, so that the event loop runs, exactly if no exception but
`ServerUnavailable` comes out of a call before it waits. -/
theorem every_iteration_suspends_iff (s : Autoscaler H G) (o : ℕ → Outcomes G)
    (meanwhile : ℕ → Autoscaler H G) :
    (∀ n, Suspends (iteration : Body H G Unit) (world s o meanwhile n)) ↔
      ∀ n, ¬(o n).RaisesEarly (world s o meanwhile n).state := by
  refine forall_congr' fun n => ?_
  rw [← outcomes_world s o meanwhile n]
  exact suspends_iteration_iff _ _

/-- The group of the last instance that timed out has been removed, and looking its name up raises
every time. -/
def removedGroup : Outcomes Unit where
  named := .ok 1
  getPlacementGroup := .error .other
  pending := .ok []
  rescheduling := .ok []
  alive := .ok 0
  scaleDown _ := .ok ()
  newInstanceId := "b"
  initPlacementGroup := .ok ()
  ready := .ok ()
  fault := none

def timedOut : Autoscaler Unit Unit :=
  { Autoscaler.start (.init false false false .load 1 .balanced (.fin 0)) {}
      ⟨8000, 9000⟩ (-1) [] with
    lastTimeoutInstanceId := some "a" }

/-- The loop goes round for ever without being suspended, since the id is not reset. -/
theorem loop_starves : ∃ (s : Autoscaler Unit Unit) (o : ℕ → Outcomes Unit),
    ∀ meanwhile n, ¬Suspends (iteration : Body Unit Unit Unit) (world s o meanwhile n) ∧
      ∀ S, Runs S (iteration : Body Unit Unit Unit) (world s o meanwhile n) (.ok ())
        (world s o meanwhile n) := by
  refine ⟨timedOut, fun _ => removedGroup, fun meanwhile n => ?_⟩
  have hended : (iteration : Body Unit Unit Unit).segment ⟨timedOut, removedGroup⟩ =
      .ended (.ok ()) ⟨timedOut, removedGroup⟩ := rfl
  have hworld : world timedOut (fun _ => removedGroup) meanwhile n =
      ⟨timedOut, removedGroup⟩ := by
    induction n with
    | zero => rfl
    | succ n ih => rw [world, ih, hended]
  rw [hworld]
  exact ⟨not_suspends_of_ended hended, fun S => Prog.runs_of_segment S hended⟩

end Body
end Llumnix.Scaling
