import Llumnix.Machine.Run
import Llumnix.Routing
import Llumnix.Scheduler.Registries

/-! `Manager.generate`, one stretch from an `await` to the next at a time, while instances come and
go and the request may be aborted. -/
namespace Llumnix.Generate

open Machine Python Scheduler

/-- The exceptions that `generate` tells apart. -/
inductive Error
  | rayActorError
  | keyError
  | attributeError
  | other
  deriving DecidableEq, Repr

/-- How what was awaited ends. A probe for the hashes of the prompt gives them. -/
inductive Answer
  | ok (blockHashes : List String)
  | error (e : Error)
  deriving DecidableEq, Repr

/-- What one call of `generate` is given. -/
structure Call where
  requestId : String
  /-- `pd_v1`: vLLM V1 with disaggregated prefill and decode. -/
  pdV1 : Bool
  /-- The hashes from the keyword arguments, given or computed from the token ids. -/
  blockHashes : Option (List String)
  /-- `args and isinstance(args[0], str)`. -/
  hasPrompt : Bool
  validP2pEndpoint : Option String → Bool
  /-- The rounding of the loads that the scheduler compares. -/
  round : ℚ → Number

/-- The two submissions of a P/D request. -/
inductive Half
  | prefill
  | decode
  deriving DecidableEq, Repr

/-- Where `generate` waits, or how it ended. -/
inductive Point
  | start
  /-- For an instance to be registered. -/
  | noInstance
  /-- For the hashes that an instance computes; `left` more will be asked. -/
  | probing (left size : ℕ)
  /-- For both roles to be there. -/
  | roles (blockHashes : List String)
  /-- For the only submission of the request. -/
  | single (instanceId : String)
  /-- For one of the two submissions of a P/D request. -/
  | submitted (half : Half) (prefillId decodeId : String)
  /-- For the aborts after a failed submission. -/
  | cleanup (half : Half) (prefillId decodeId : String) (e : Error)
  | returned
  | raised (e : Error)
  deriving DecidableEq, Repr

/-- A P/D submission that failed, and which of the two instances were registered then. -/
structure Failure where
  half : Half
  prefillId : String
  decodeId : String
  error : Error
  prefillIn : Bool
  decodeIn : Bool
  deriving DecidableEq, Repr

/-- Ghost: what `generate` has done. -/
structure Trace where
  /-- The instances that were sent the request, and those that took it. -/
  submitted : List String := []
  accepted : List String := []
  /-- The instances that were sent an abort. -/
  aborted : List String := []
  failure : Option Failure := none
  /-- It went on with one instance since an endpoint was not valid. -/
  fellBack : Bool := false
  /-- It wrote the tables. -/
  recorded : Bool := false
  /-- The instance that it scaled down, and whether that was registered. -/
  blamed : Option (String × Bool) := none
  deriving DecidableEq, Repr

structure World (H : Type) where
  manager : Manager H
  tables : Routing.Tables
  /-- The keys of `request_server_info`. -/
  serverInfo : Finset String
  /-- Whether `_waiting_pd_request_ids` has the request. -/
  waiting : Bool
  /-- The event that `_pd_wait_events` has for the request, and whether it is set. -/
  event : Option Bool
  point : Point
  /-- Ghost: it was aborted while it was waiting. -/
  cancelled : Bool
  trace : Trace

/-- What a resumed stretch meets: an answer, the numbers that the scheduler draws, and whether the
iterator over the instances finds another one. -/
structure Input where
  answer : Answer
  drawn : ℕ := 0
  drawn' : ℕ := 0
  more : Bool := true

namespace World
variable {H : Type}

def raise (w : World H) (e : Error) : World H := { w with point := .raised e }

/-- The outer handler. It announces that the request will be generated again. -/
def handle (w : World H) (instanceId : String) (e : Error) : World H :=
  if e = .rayActorError ∨ e = .keyError then
    { w with
      manager := (w.manager.scaleDown [instanceId] true).1
      point := .returned
      trace := { w.trace with blamed := some (instanceId, instanceId ∈ w.manager.instances) } }
  else w.raise e

/-- `await self.instances[instance_id].generate.remote(..)`, up to the `await`. -/
def submit (w : World H) (instanceId : String) (point : Point) : World H :=
  { w with
    point := point
    trace := { w.trace with submitted := w.trace.submitted ++ [instanceId] } }

def submitSingle (w : World H) (instanceId : String) : World H :=
  if instanceId ∈ w.manager.instances then w.submit instanceId (.single instanceId)
  else w.handle instanceId .keyError

def sendAbort (w : World H) (instanceId : String) : World H :=
  { w with trace := { w.trace with aborted := w.trace.aborted ++ [instanceId] } }

def setFailure (w : World H) (f : Failure) : World H :=
  { w with trace := { w.trace with failure := some f } }

/-- The inner handler, up to its `await`. The instances are looked up one after the other, and a
`KeyError` there leaves the handler. -/
def cleanup (w : World H) (half : Half) (p d : String) (e : Error) : World H :=
  let prefillIn : Bool := p ∈ w.manager.instances
  let decodeIn : Bool := d ∈ w.manager.instances
  let w := w.setFailure ⟨half, p, d, e, prefillIn, decodeIn⟩
  if prefillIn then
    if decodeIn then { (w.sendAbort p).sendAbort d with point := .cleanup half p d e }
    else (w.sendAbort p).handle p .keyError
  else w.handle p .keyError

def target (half : Half) (p d : String) : String :=
  match half with
  | .prefill => p
  | .decode => d

def submitHalf (w : World H) (half : Half) (p d : String) : World H :=
  if target half p d ∈ w.manager.instances then
    w.submit (target half p d) (.submitted half p d)
  else w.cleanup half p d .keyError

section Call
variable (c : Call)

/-- From the look-up of the two infos. -/
def submitPd (w : World H) (p d : String) : World H :=
  let infos := w.manager.globalScheduler.instanceInfo
  match infos.get? p, infos.get? d with
  | some prefillInfo, some decodeInfo =>
    if c.validP2pEndpoint prefillInfo.kvEndpoint ∧ c.validP2pEndpoint decodeInfo.kvEndpoint then
      w.submitHalf .prefill p d
    else { w with trace := { w.trace with fellBack := true } }.submitSingle p
  | _, _ => w.handle p .keyError

/-- The last look at the cancellation signal. -/
def selected (w : World H) (p d : String) : World H :=
  if w.waiting then submitPd c { w with waiting := false, event := none } p d
  else { w with event := none, point := .returned }

/-- From the choice of the instances. -/
def choose (x : Input) (w : World H) (blockHashes : List String) : World H :=
  if c.pdV1 then
    match w.manager.selectV1PdInstances c.round blockHashes x.drawn x.drawn' with
    | (.error _, m) => { w with manager := m }.raise .other
    | (.ok none, m) => { w with manager := m, point := .roles blockHashes }
    | (.ok (some (p, d)), m) => selected c { w with manager := m } p d
  else
    match w.manager.globalScheduler.dispatch c.round blockHashes x.drawn with
    | (.error _, g) => { w with manager := { w.manager with globalScheduler := g } }.raise .other
    | (.ok (i, _), g) =>
      { w with manager := { w.manager with globalScheduler := g } }.submitSingle i

/-- The head of the loop over `self.instances.values()`, which raises when the dictionary has
another size than at the start, or more entries than it had. -/
def probe (x : Input) (w : World H) (left size : ℕ) (more : Bool) : World H :=
  if w.manager.instances.items.length = size then
    match left, more with
    | _, false => choose c x w []
    | 0, true => w.raise .other
    | left + 1, true => { w with point := .probing left size }
  else w.raise .other

def findHashes (x : Input) (w : World H) : World H :=
  match c.blockHashes with
  | some blockHashes => choose c x w blockHashes
  | none =>
    if c.hasPrompt then
      let size := w.manager.instances.items.length
      probe c x w size size (0 < size)
    else choose c x w []

/-- The head of `while self.num_instances == 0`. -/
def waitInstances (x : Input) (w : World H) : World H :=
  if w.manager.numInstances = 0 then
    if c.pdV1 ∧ ¬w.waiting then { w with event := none, point := .returned }
    else { w with point := .noInstance }
  else findHashes c x w

def enter (x : Input) (w : World H) : World H :=
  waitInstances c x
    (if c.pdV1 then { w with waiting := true, event := some (w.event.getD false) } else w)

def probed (x : Input) (w : World H) (left size : ℕ) : World H :=
  match x.answer with
  | .ok (h :: hs) => choose c x w (h :: hs)
  | .ok [] => probe c x w left size x.more
  | .error e =>
    if e = .rayActorError ∨ e = .attributeError then probe c x w left size x.more else w.raise e

/-- From the wait in the loop for the roles. -/
def rolesWaited (x : Input) (w : World H) (blockHashes : List String) : World H :=
  if w.event = some true then { w with waiting := false, event := none, point := .returned }
  else if w.waiting then choose c x w blockHashes
  else { w with event := none, point := .returned }

def record (w : World H) (a : Routing.Action) : World H :=
  { w with
    tables := w.tables.apply a
    serverInfo := insert c.requestId w.serverInfo
    point := .returned
    trace := { w.trace with recorded := true } }

def accept (w : World H) (instanceId : String) : World H :=
  { w with trace := { w.trace with accepted := w.trace.accepted ++ [instanceId] } }

def singleAnswered (x : Input) (w : World H) (i : String) : World H :=
  match x.answer with
  | .ok _ => record c (w.accept i) (.generate c.requestId i)
  | .error e => w.handle i e

def halfAnswered (x : Input) (w : World H) (half : Half) (p d : String) : World H :=
  match x.answer, half with
  | .ok _, .prefill => (w.accept p).submitHalf .decode p d
  | .ok _, .decode => record c (w.accept d) (.generatePd c.requestId p d)
  | .error e, half => w.cleanup half p d e

def resume (x : Input) (w : World H) : Option (World H) :=
  match w.point with
  | .start => some (enter c x w)
  | .noInstance => some (waitInstances c x w)
  | .probing left size => some (probed c x w left size)
  | .roles blockHashes => some (rolesWaited c x w blockHashes)
  | .single i => some (singleAnswered c x w i)
  | .submitted half p d => some (halfAnswered c x w half p d)
  | .cleanup _ p _ e => some (w.handle p e)
  | .returned => none
  | .raised _ => none

end Call

/-- The cancellation signal of `abort`. -/
def abort (w : World H) : World H :=
  { w with
    waiting := false
    event := w.event.map fun _ => true
    cancelled := w.cancelled || w.waiting }

end World

/-- The call is made, whatever instances there are and whatever the tables say. -/
def init {H : Type} (manager : Manager H) (tables : Routing.Tables) (serverInfo : Finset String) :
    World H where
  manager := manager
  tables := tables
  serverInfo := serverInfo
  waiting := false
  event := none
  point := .start
  cancelled := false
  trace := {}

inductive Action (H : Type)
  | resume (x : Input)
  /-- Anything that the schedulers are called for: instances come and go, are polled, chosen. -/
  | scheduler (a : Scheduler.Action H)
  /-- Anything else that writes the tables of the requests. -/
  | routing (a : Routing.Action)
  /-- `abort` of the request. -/
  | abort

def step {H : Type} (c : Call) (w : World H) : Action H → Option (World H)
  | .resume x => w.resume c x
  | .scheduler a => some { w with manager := w.manager.apply c.round a }
  | .routing a => some { w with tables := w.tables.apply a }
  | .abort => some w.abort

end Llumnix.Generate
