import Llumnix.Client.Basic
import Llumnix.Python.Json

/-! The client of BladeLLM, which numbers the requests anew: it draws an id for each of them, sends
the request on under that id, and has to translate outputs and drops between the two. -/
namespace Llumnix.Client.Blade

open Machine Python

/-- An id as the Manager and the engines know it. -/
abbrev RequestId := List Char

def str (n : ℤ) : RequestId := Json.intText n

theorem str_inj {m n : ℤ} (h : str m = str n) : m = n := by
  have hnil : Json.Ends [] := nofun
  exact (Json.intText_inj hnil hnil (congrArg (· ++ []) h)).1

/-- `n` and `useBeamSearch` are those of the sampling parameters. -/
structure ServerRequest where
  id : ℤ
  n : ℤ := 1
  useBeamSearch : Bool := false

structure ErrorResponse where
  id : ℤ
  errCode : ℕ
  errMsg : String

/-- `error_resp` for what `_add_request` refuses. -/
def ServerRequest.unsupported (request : ServerRequest) : Option ErrorResponse :=
  if 1 < request.n ∨ request.useBeamSearch then
    some ⟨request.id, 400, "Unsupported feature: multiple sequence decoding in Llumnix."⟩
  else none

/-- A response that has been read back from its JSON; `body` stands for its other fields. -/
structure GenerateStreamResponse (β : Type) where
  isFinished : Bool
  body : β
  deriving DecidableEq

inductive DropPoint
  /-- Awaits `abort` of the Manager. -/
  | manager
  | done
  | raised
  deriving DecidableEq

/-- A call of `drop_request`. -/
structure Drop where
  reqId : ℤ
  /-- The id under which the request had been submitted, if it was live. -/
  submitted : Option ℕ
  /-- The id that the Manager is asked to abort. -/
  asked : Option RequestId
  point : DropPoint
  deriving DecidableEq

/-- `drop_request` up to the point where it waits, by the id that it looks up. An id of zero is
taken for none. -/
def Drop.start (reqId : ℤ) (submitted : Option ℕ) : Option ℕ → Drop
  | none | some 0 => ⟨reqId, submitted, none, .done⟩
  | some _ => ⟨reqId, submitted, some (str reqId), .manager⟩

/-- The tables that go by ids. `request_streams` holds positions in the list of all queues, and
`raised` says that `background_process_outputs` has ended with a `KeyError`. `added` are all ids so
far, `live` those neither finished nor dropped, with the ids they were submitted under. -/
structure Translation (β : Type) where
  entrypointId2llumnixId : Dict ℤ ℕ := .empty
  llumnixId2entrypointId : Dict RequestId ℤ := .empty
  requestStreams : Dict RequestId ℕ := .empty
  queues : List (List (GenerateStreamResponse β)) := []
  raised : Bool := false
  drops : List Drop := []
  added : List ℤ := []
  live : List (ℤ × ℕ) := []

namespace Translation
variable {β : Type}

/-- `_add_request`, up to the call of `_manager_generate`. -/
def add (t : Translation β) (id : ℤ) (llumnixId : ℕ) : Translation β :=
  { t with
    llumnixId2entrypointId := t.llumnixId2entrypointId.set (str llumnixId) id
    entrypointId2llumnixId := t.entrypointId2llumnixId.set id llumnixId
    added := id :: t.added
    live := (id, llumnixId) :: t.live }

/-- The new queue of `_manager_generate`. -/
def register (t : Translation β) (requestId : RequestId) : Translation β :=
  { t with
    requestStreams := t.requestStreams.set requestId t.queues.length
    queues := t.queues ++ [[]] }

/-- The ids are those that clients and chance may come up with: clients do not repeat one, and the
one that is drawn is not in use. -/
def Fresh (t : Translation β) (id : ℤ) (llumnixId : ℕ) : Prop :=
  id ∉ t.added ∧ ∀ r ∈ t.live, r.2 ≠ llumnixId

instance (t : Translation β) (id : ℤ) (llumnixId : ℕ) : Decidable (t.Fresh id llumnixId) :=
  inferInstanceAs (Decidable (_ ∧ _))

/-- The clean-up after a finished output; each look-up and each `del` may be a `KeyError`. -/
def finish (t : Translation β) (requestId : RequestId) : Translation β :=
  match t.llumnixId2entrypointId.get? requestId with
  | none => { t with raised := true }
  | some id =>
    if id ∈ t.entrypointId2llumnixId then
      { t with
        entrypointId2llumnixId := t.entrypointId2llumnixId.erase id
        llumnixId2entrypointId := t.llumnixId2entrypointId.erase requestId
        requestStreams := t.requestStreams.erase requestId
        live := t.live.filter fun r => str r.2 ≠ requestId }
    else { t with raised := true }

def put (t : Translation β) (stream : ℕ) (response : GenerateStreamResponse β) : Translation β :=
  { t with queues := t.queues.modify stream (· ++ [response]) }

/-- One round of the inner loop of `background_process_outputs`. -/
def deliver (t : Translation β) (requestId : RequestId) (response : GenerateStreamResponse β) :
    Translation β :=
  match t.requestStreams.get? requestId with
  | none => t
  | some stream =>
    if response.isFinished then (t.put stream response).finish requestId
    else t.put stream response

/-- A batch, up to the first exception. The queues have no bound, so that a `put` does not wait. -/
def processOutputs (t : Translation β) :
    List (RequestId × GenerateStreamResponse β) → Translation β
  | [] => t
  | (requestId, response) :: outputs =>
    let t' := t.deliver requestId response
    if t'.raised then t' else t'.processOutputs outputs

def drop (t : Translation β) (reqId : ℤ) : Translation β :=
  { t with
    drops := t.drops ++
      [.start reqId (t.live.lookup reqId) (t.entrypointId2llumnixId.get? reqId)] }

def dropTo (t : Translation β) (j : ℕ) (point : DropPoint) : Translation β :=
  { t with drops := t.drops.modify j ({ · with point }) }

/-- What `drop_request` does once the Manager has aborted. -/
def forget (t : Translation β) (reqId : ℤ) : Translation β :=
  { t with
    entrypointId2llumnixId := t.entrypointId2llumnixId.erase reqId
    live := t.live.filter (·.1 ≠ reqId) }

end Translation

/-- What the client uses of `llumnix_context`. An `EntrypointsContext` is made without the last two
attributes, and to read one that is not there is an `AttributeError`. -/
structure Context (H : Type) where
  instances : Dict String H
  managerAvailable : Option Bool := none
  instanceNumRequests : Option (Dict String ℕ) := none

/-- A call of `_manager_generate`. A call that it makes of itself runs in its place. -/
structure Call where
  requestId : RequestId
  stream : ℕ
  point : Point
  deriving DecidableEq

structure LlumnixClientBladeLLM (H β : Type) where
  context : Context H
  tables : Translation β := {}
  calls : List Call := []

inductive Action (β : Type)
  | addRequest (request : ServerRequest) (llumnixId : Fin (2 ^ 31))
  | managerAnswers (k : ℕ) (answer : Answer)
  | instanceAnswers (k : ℕ) (answer : Answer)
  | restart (k : ℕ)
  | outputs (batch : Option (List (RequestId × GenerateStreamResponse β)))
  | dropRequest (reqId : ℤ)
  | abortAnswered (j : ℕ) (answer : Answer)

namespace LlumnixClientBladeLLM
variable {H β : Type}

def goTo (s : LlumnixClientBladeLLM H β) (k : ℕ) (point : Point) : LlumnixClientBladeLLM H β :=
  { s with calls := s.calls.modify k ({ · with point }) }

/-- What follows when `generate` of the Manager raises, whatever it raises. -/
def managerFails (s : LlumnixClientBladeLLM H β) (k : ℕ) : LlumnixClientBladeLLM H β :=
  match s.context.managerAvailable with
  | none => s.goTo k .raised
  | some true =>
    { s with context := { s.context with managerAvailable := some false } }.goTo k (.returned none)
  | some false =>
    match s.context.instanceNumRequests with
    | none => s.goTo k .raised
    | some counts =>
      match extreme (fun a b => decide (a.2 < b.2)) counts.items with
      | none => s.goTo k .again
      | some (instanceId, n) =>
        -- an instance that is counted and not there is a `KeyError`, and then the call returns
        { s with
          context := { s.context with
            instanceNumRequests := some (counts.set instanceId (n + 1)) } }.goTo k
          (if instanceId ∈ s.context.instances then .onInstance instanceId else .returned none)

/-- What follows when the instance is dead. -/
def instanceFails (s : LlumnixClientBladeLLM H β) (k : ℕ) (instanceId : String) :
    LlumnixClientBladeLLM H β :=
  if instanceId ∈ s.context.instances then
    let context := { s.context with instances := s.context.instances.erase instanceId }
    match s.context.instanceNumRequests with
    | none => { s with context }.goTo k .raised
    | some counts =>
      if instanceId ∈ counts then
        { s with
          context := { context with
            instanceNumRequests := some (counts.erase instanceId) } }.goTo k .again
      else { s with context }.goTo k .raised
  else s.goTo k (.returned none)

def step (s : LlumnixClientBladeLLM H β) : Action β → Option (LlumnixClientBladeLLM H β)
  | .addRequest request llumnixId =>
    if s.tables.Fresh request.id llumnixId then
      match request.unsupported with
      | some _ => some s
      | none => some { s with
          tables := (s.tables.add request.id llumnixId).register (str llumnixId)
          calls := s.calls ++ [⟨str llumnixId, s.tables.queues.length, .manager⟩] }
    else none
  | .managerAnswers k answer =>
    match s.calls[k]? with
    | some ⟨_, _, .manager⟩ =>
      match answer with
      | .ok =>
        some ({ s with context := { s.context with managerAvailable := some true } }.goTo k
          (.returned none))
      | _ => some (s.managerFails k)
    | _ => none
  | .instanceAnswers k answer =>
    match s.calls[k]? with
    | some ⟨_, _, .onInstance instanceId⟩ =>
      match answer with
      | .ok => some (s.goTo k (.returned (some instanceId)))
      | .raises => some (s.goTo k .raised)
      | _ => some (s.instanceFails k instanceId)
    | _ => none
  | .restart k =>
    match s.calls[k]? with
    | some ⟨requestId, _, .again⟩ =>
      some { s with
        tables := s.tables.register requestId
        calls := s.calls.set k ⟨requestId, s.tables.queues.length, .manager⟩ }
    | _ => none
  | .outputs batch =>
    if s.tables.raised then none
    else some { s with tables := s.tables.processOutputs (batch.getD []) }
  | .dropRequest reqId => some { s with tables := s.tables.drop reqId }
  | .abortAnswered j answer =>
    match s.tables.drops[j]? with
    | some ⟨reqId, _, _, .manager⟩ =>
      match answer with
      | .ok => some { s with tables := (s.tables.forget reqId).dropTo j .done }
      | .actorError => some { s with tables := s.tables.dropTo j .done }
      | _ => some { s with tables := s.tables.dropTo j .raised }
    | _ => none

end LlumnixClientBladeLLM

end Llumnix.Client.Blade
