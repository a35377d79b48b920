import Llumnix.Output.Order
import Llumnix.Routing.Fanout

/-! The client in the API server: it hands out a stream for each request, gets the request to an
instance through the Manager or, in an outage, by itself, and puts what comes back in the streams.
-/
namespace Llumnix.Client

open Machine Python Output

/-- The end of a stream is `none` in its queue. `since` is how many outputs the client had got when
the stream was made. -/
structure AsyncStream where
  requestId : String
  since : ℕ
  queue : List (Option RequestOutput) := []
  finished : Bool := false
  deriving DecidableEq

namespace AsyncStream

def put (t : AsyncStream) (o : RequestOutput) : AsyncStream :=
  if t.finished then t else { t with queue := t.queue ++ [some o] }

def finish (t : AsyncStream) : AsyncStream :=
  if t.finished then t else { t with queue := t.queue ++ [none], finished := true }

/-- What the loop does with the stream of an output. -/
def receive (t : AsyncStream) (o : RequestOutput) : AsyncStream :=
  if o.finished then (t.put o).finish else t.put o

end AsyncStream

/-- `request_streams`, by positions in the list of all streams made so far, and all outputs that
the loop has got. -/
structure Streams where
  requestStreams : Dict String ℕ := .empty
  made : List AsyncStream := []
  log : List RequestOutput := []

namespace Streams

def register (s : Streams) (requestId : String) : Streams :=
  { s with
    requestStreams := s.requestStreams.set requestId s.made.length
    made := s.made ++ [⟨requestId, s.log.length, [], false⟩] }

/-- One round of the inner loop of `get_request_outputs_loop`, as far as it is about streams. -/
def deliver (s : Streams) (o : RequestOutput) : Streams :=
  match s.requestStreams.get? o.requestId with
  | none => { s with log := s.log ++ [o] }
  | some t =>
    { requestStreams :=
        if o.finished then s.requestStreams.erase o.requestId else s.requestStreams
      made := s.made.modify t (·.receive o)
      log := s.log ++ [o] }

end Streams

/-- The instances behind the server and what is known of the requests sent to them. `counted` has an
entry for each increment of a counter that has not been taken back. -/
structure Fallback (H : Type) where
  instances : Dict String H
  instanceNumRequests : Dict String ℕ
  fallbackRequestInstance : Dict String String := .empty
  counted : List (String × String) := []

namespace Fallback
variable {H : Type}

/-- The first half of `_generate_by_instance`, with the instance chosen. -/
def choose (f : Fallback H) (requestId : String) : Option (String × Fallback H) :=
  (extreme (fun a b => decide (a.2 < b.2)) f.instanceNumRequests.items).map fun e =>
    (e.1, { f with
      instanceNumRequests := f.instanceNumRequests.set e.1 (e.2 + 1)
      fallbackRequestInstance := f.fallbackRequestInstance.set requestId e.1
      counted := (e.1, requestId) :: f.counted })

def remove (f : Fallback H) (instanceId : String) : Fallback H :=
  { f with
    instances := f.instances.erase instanceId
    instanceNumRequests := f.instanceNumRequests.erase instanceId
    counted := f.counted.filter (·.1 ≠ instanceId) }

def pop (f : Fallback H) (requestId : String) : Fallback H :=
  { f with fallbackRequestInstance := f.fallbackRequestInstance.erase requestId }

def uncount (f : Fallback H) (instanceId requestId : String) : Fallback H :=
  match f.instanceNumRequests.get? instanceId with
  | none => f
  | some n =>
    { f with
      instanceNumRequests := f.instanceNumRequests.set instanceId (n - 1)
      counted := f.counted.erase (instanceId, requestId) }

def release (f : Fallback H) (requestId : String) : Fallback H :=
  match f.fallbackRequestInstance.get? requestId with
  | none => f
  | some instanceId => (f.pop requestId).uncount instanceId requestId

end Fallback

/-- How a remote call ends. -/
inductive Answer
  | ok
  | actorError
  | keyError
  | raises
  deriving DecidableEq

/-- Where a call of `generate` is. A call that it makes of itself runs in its place. -/
inductive Point
  /-- Awaits `_generate_by_manager`. -/
  | manager
  /-- Awaits the instance. -/
  | onInstance (instanceId : String)
  /-- Sleeps, or has made the task that calls `generate` again. -/
  | again
  /-- Has returned its own stream; `acceptedBy` is the instance that took the request. -/
  | returned (acceptedBy : Option String)
  | raised
  deriving DecidableEq

structure Call where
  requestId : String
  stream : ℕ
  point : Point
  deriving DecidableEq

inductive AbortPoint
  | manager
  | onInstance (instanceId : String)
  | done
  | raised
  deriving DecidableEq

/-- A call of `abort`; `outage` says that the Manager was found dead. -/
structure Abort where
  requestId : String
  point : AbortPoint := .manager
  outage : Bool := false
  deriving DecidableEq

/-- A Manager that answers `abort`. -/
structure Running (H : Type) (requestId : String) where
  tables : Routing.Tables
  instances : Dict String H
  it : Routing.Iteration tables [requestId]

namespace Running
variable {H : Type} {requestId : String} (m : Running H requestId)

def sends : List (String × String) :=
  (Routing.abort m.instances m.it).1.map fun call => (call.instanceId, requestId)

def fails : Bool := (Routing.abort m.instances m.it).2

end Running

/-- `sent` are the aborts that have been sent to instances, by the client or the Manager. -/
structure LlumnixClientVLLM (H : Type) where
  managerAvailable : Bool := true
  streams : Streams := {}
  fallback : Fallback H
  calls : List Call := []
  aborts : List Abort := []
  sent : List (String × String) := []

inductive Action (H : Type)
  | generate (requestId : String) (n : ℕ)
  | managerAnswers (k : ℕ) (answer : Answer)
  | instanceAnswers (k : ℕ) (answer : Answer)
  | restart (k : ℕ)
  | outputs (batch : List RequestOutput)
  | abort (requestId : String)
  | abortAnswered (j : ℕ) (requestId : String) (manager : Running H requestId)
  | abortFails (j : ℕ) (outage : Bool)
  | abortInstance (j : ℕ) (answer : Answer)

namespace LlumnixClientVLLM
variable {H : Type}

def new (instances : Dict String H) : LlumnixClientVLLM H where
  fallback := { instances, instanceNumRequests := instances.fromkeys 0 }

def goTo (s : LlumnixClientVLLM H) (k : ℕ) (point : Point) : LlumnixClientVLLM H :=
  { s with calls := s.calls.modify k ({ · with point }) }

def abortTo (s : LlumnixClientVLLM H) (j : ℕ) (point : AbortPoint) (outage : Bool) :
    LlumnixClientVLLM H :=
  { s with aborts := s.aborts.modify j ({ · with point, outage }) }

/-- `_generate_by_instance`, up to the first point where it waits. -/
def generateByInstance (s : LlumnixClientVLLM H) (k : ℕ) (requestId : String) :
    LlumnixClientVLLM H :=
  match s.fallback.choose requestId with
  | none => s.goTo k .again
  | some (instanceId, fallback) =>
    -- an instance that is counted and not there is a `KeyError`, and then the call returns
    { s with fallback }.goTo k
      (if instanceId ∈ s.fallback.instances then .onInstance instanceId else .returned none)

def deliver (s : LlumnixClientVLLM H) (o : RequestOutput) : LlumnixClientVLLM H :=
  { s with
    streams := s.streams.deliver o
    fallback :=
      if o.finished ∧ o.requestId ∈ s.streams.requestStreams then s.fallback.release o.requestId
      else s.fallback }

/-- `abort` when the Manager is dead. -/
def abortByInstance (s : LlumnixClientVLLM H) (j : ℕ) (requestId : String) :
    LlumnixClientVLLM H :=
  let popped := { s with fallback := s.fallback.pop requestId }
  match s.fallback.fallbackRequestInstance.get? requestId with
  | none => popped.abortTo j .done true
  | some instanceId =>
    if instanceId ∈ s.fallback.instances then
      { popped with sent := (instanceId, requestId) :: s.sent }.abortTo j (.onInstance instanceId)
        true
    else popped.abortTo j .done true

def step (s : LlumnixClientVLLM H) : Action H → Option (LlumnixClientVLLM H)
  | .generate requestId n =>
    -- the `ValueError` comes before anything else
    if 1 < n then some s
    else some { s with
      streams := s.streams.register requestId
      calls := s.calls ++ [⟨requestId, s.streams.made.length, .manager⟩] }
  | .managerAnswers k answer =>
    match s.calls[k]? with
    | some ⟨requestId, _, .manager⟩ =>
      match answer with
      | .ok => some ({ s with managerAvailable := true }.goTo k (.returned none))
      | .actorError =>
        if s.managerAvailable then
          some ({ s with managerAvailable := false }.goTo k (.returned none))
        else some (s.generateByInstance k requestId)
      | _ => some (s.goTo k .raised)
    | _ => none
  | .instanceAnswers k answer =>
    match s.calls[k]? with
    | some ⟨_, _, .onInstance instanceId⟩ =>
      match answer with
      | .ok => some (s.goTo k (.returned (some instanceId)))
      | .raises => some (s.goTo k .raised)
      | _ =>
        if instanceId ∈ s.fallback.instances then
          some ({ s with fallback := s.fallback.remove instanceId }.goTo k .again)
        else some (s.goTo k (.returned none))
    | _ => none
  | .restart k =>
    match s.calls[k]? with
    | some ⟨requestId, _, .again⟩ =>
      some ({ s with streams := s.streams.register requestId }.goTo k .manager)
    | _ => none
  | .outputs batch => some (batch.foldl deliver s)
  | .abort requestId => some { s with aborts := s.aborts ++ [{ requestId }] }
  | .abortAnswered j requestId manager =>
    if s.aborts[j]? = some { requestId } then
      -- a `KeyError` in the Manager is raised here, and is not a dead actor
      some ({ s with sent := manager.sends ++ s.sent }.abortTo j
        (if manager.fails then .raised else .done) false)
    else none
  | .abortFails j outage =>
    match s.aborts[j]? with
    | some ⟨requestId, .manager, found⟩ =>
      if outage then some (s.abortByInstance j requestId) else some (s.abortTo j .raised found)
    | _ => none
  | .abortInstance j answer =>
    match s.aborts[j]? with
    | some ⟨requestId, .onInstance instanceId, outage⟩ =>
      some ({ s with fallback := s.fallback.uncount instanceId requestId }.abortTo j
        (if answer = Answer.raises then .raised else .done) outage)
    | _ => none

/-- What a step can be, with what it finds. -/
inductive Steps (s : LlumnixClientVLLM H) : Action H → LlumnixClientVLLM H → Prop
  | refused {requestId : String} {n : ℕ} (hn : 1 < n) : Steps s (.generate requestId n) s
  | generate {requestId : String} {n : ℕ} (hn : n ≤ 1) : Steps s (.generate requestId n)
      { s with
        streams := s.streams.register requestId
        calls := s.calls ++ [⟨requestId, s.streams.made.length, .manager⟩] }
  | managerEnds {k stream : ℕ} {requestId : String} {answer : Answer} {managerAvailable : Bool}
      {p : Point} (hcall : s.calls[k]? = some ⟨requestId, stream, .manager⟩)
      (hp : p = .returned none ∨ p = .raised) :
      Steps s (.managerAnswers k answer) ({ s with managerAvailable }.goTo k p)
  | fallsBack {k stream : ℕ} {requestId : String}
      (hcall : s.calls[k]? = some ⟨requestId, stream, .manager⟩) :
      Steps s (.managerAnswers k .actorError) (s.generateByInstance k requestId)
  | accepted {k stream : ℕ} {requestId instanceId : String}
      (hcall : s.calls[k]? = some ⟨requestId, stream, .onInstance instanceId⟩) :
      Steps s (.instanceAnswers k .ok) (s.goTo k (.returned (some instanceId)))
  | instanceEnds {k stream : ℕ} {requestId instanceId : String} {answer : Answer} {p : Point}
      (hcall : s.calls[k]? = some ⟨requestId, stream, .onInstance instanceId⟩)
      (hp : p = .returned none ∨ p = .raised) : Steps s (.instanceAnswers k answer) (s.goTo k p)
  | instanceDies {k stream : ℕ} {requestId instanceId : String} {answer : Answer}
      (hcall : s.calls[k]? = some ⟨requestId, stream, .onInstance instanceId⟩) :
      Steps s (.instanceAnswers k answer)
        ({ s with fallback := s.fallback.remove instanceId }.goTo k .again)
  | restart {k stream : ℕ} {requestId : String}
      (hcall : s.calls[k]? = some ⟨requestId, stream, .again⟩) :
      Steps s (.restart k) ({ s with streams := s.streams.register requestId }.goTo k .manager)
  | outputs (batch : List RequestOutput) : Steps s (.outputs batch) (batch.foldl deliver s)
  | abort (requestId : String) :
      Steps s (.abort requestId) { s with aborts := s.aborts ++ [{ requestId }] }
  | abortAnswered {j : ℕ} {requestId : String} {manager : Running H requestId} {p : AbortPoint}
      (hf : s.aborts[j]? = some { requestId }) (hp : p = .done ∨ p = .raised) :
      Steps s (.abortAnswered j requestId manager)
        ({ s with sent := manager.sends ++ s.sent }.abortTo j p false)
  | abortRaises {j : ℕ} {f : Abort} (hf : s.aborts[j]? = some f) (hpoint : f.point = .manager) :
      Steps s (.abortFails j false) (s.abortTo j .raised f.outage)
  | abortOutage {j : ℕ} {f : Abort} (hf : s.aborts[j]? = some f) (hpoint : f.point = .manager) :
      Steps s (.abortFails j true) (s.abortByInstance j f.requestId)
  | abortInstance {j : ℕ} {f : Abort} {instanceId : String} {answer : Answer} {p : AbortPoint}
      (hf : s.aborts[j]? = some f) (hpoint : f.point = .onInstance instanceId)
      (hp : p = .done ∨ p = .raised) : Steps s (.abortInstance j answer)
        ({ s with fallback := s.fallback.uncount instanceId f.requestId }.abortTo j p f.outage)

theorem steps_of_step {s s' : LlumnixClientVLLM H} {a : Action H} (h : s.step a = some s') :
    Steps s a s' := by
  cases a with
  | generate requestId n =>
    simp only [step] at h
    split_ifs at h with hn <;> cases h
    · exact .refused hn
    · exact .generate (by omega)
  | managerAnswers k answer =>
    simp only [step] at h
    split at h
    · rename_i hcall
      split at h
      · cases h
        exact .managerEnds hcall (.inl rfl)
      · split_ifs at h <;> cases h
        · exact .managerEnds hcall (.inl rfl)
        · exact .fallsBack hcall
      · cases h
        exact .managerEnds hcall (.inr rfl)
    · cases h
  | instanceAnswers k answer =>
    simp only [step] at h
    split at h
    · rename_i hcall
      split at h
      · cases h
        exact .accepted hcall
      · cases h
        exact .instanceEnds hcall (.inr rfl)
      · split_ifs at h <;> cases h
        · exact .instanceDies hcall
        · exact .instanceEnds hcall (.inl rfl)
    · cases h
  | restart k =>
    simp only [step] at h
    split at h
    · rename_i hcall
      cases h
      exact .restart hcall
    · cases h
  | outputs batch =>
    cases h
    exact .outputs batch
  | abort requestId =>
    cases h
    exact .abort requestId
  | abortAnswered j requestId manager =>
    simp only [step] at h
    split at h
    · rename_i hf
      cases h
      refine .abortAnswered hf ?_
      split_ifs
      · exact .inr rfl
      · exact .inl rfl
    · cases h
  | abortFails j outage =>
    simp only [step] at h
    split at h
    · rename_i hf
      cases outage <;> cases h
      · exact .abortRaises hf rfl
      · exact .abortOutage hf rfl
    · cases h
  | abortInstance j answer =>
    simp only [step] at h
    split at h
    · rename_i hf
      cases h
      refine .abortInstance hf rfl ?_
      split_ifs
      · exact .inr rfl
      · exact .inl rfl
    · cases h

end LlumnixClientVLLM
end Llumnix.Client
