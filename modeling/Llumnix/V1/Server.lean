import Llumnix.Coroutine.Iterate
import Llumnix.V1.Adapter
import Mathlib.Data.Rat.Init

/-! The handlers of the V1 HTTP server, from the body of a request to the end of the response. -/
namespace Llumnix.V1.Server

open Coroutine Python Llumnix.Transfer

inductive Route
  | generate
  | generateBenchmark
  deriving DecidableEq

/-- A value in the body, as far as the handlers look at it. -/
inductive Field
  | str (s : Text)
  | bool (b : Bool)
  | other

/-- `body` is what `request.json()` raises or returns, `none` for what is not an object. -/
structure HttpRequest where
  body : Except Text (Option (Dict Text Field))
  timeNs : Text

structure Submission (P : Type) where
  prompt : Text
  stream : Bool
  requestId : Text
  params : P

structure Completion where
  text : Text
  tokenIds : List ℕ

structure RequestOutput where
  outputs : List Completion
  promptTokenIds : List ℕ

inductive Response
  | text (texts : List Text)
  | noOutput
  | disconnected
  | streaming
  | benchmark (requestId generatedText : Text) (numOutputTokens numInputTokens : ℕ)
      (perTokenLatency : List (ℚ × ℚ))

/-- `closed` is what the response stream sees when it is closed or cancelled. -/
inductive ApiExc
  | httpException (status : ℕ) (detail : Text)
  | invalidId (e : Llumnix.Transfer.Exc)
  | engine
  | closed

namespace Route

def label : Route → Text
  | generate => "generate".toList
  | generateBenchmark => "benchmark".toList

def idPrefix : Route → Text
  | generate => "v1-".toList
  | generateBenchmark => "bench-".toList

/-- Only `/generate` looks at `stream`. -/
def stream : Route → Field → Except Text Bool
  | generateBenchmark, _ => .ok false
  | generate, .bool b => .ok b
  | generate, _ => .error "stream must be a boolean".toList

/-- The body of a request, or what is wrong with it. -/
def parse {P : Type} (route : Route) (samplingParams : Dict Text Field → Except Text P)
    (request : HttpRequest) : Except Text (Submission P) := do
  let some body ← request.body | .error "request body must be a JSON object".toList
  let some prompt := body.get? "prompt".toList | .error "'prompt'".toList
  let .str prompt := prompt | .error "prompt must be a string".toList
  let body := body.erase "prompt".toList
  let stream ← route.stream ((body.get? "stream".toList).getD (.bool false))
  let body := body.erase "stream".toList
  let default := Field.str (route.idPrefix ++ request.timeNs)
  let .str requestId := (body.get? "request_id".toList).getD default
    | .error "request_id must be a non-empty string".toList
  if requestId = [] then .error "request_id must be a non-empty string".toList
  let params ← samplingParams (body.erase "request_id".toList)
  return ⟨prompt, stream, requestId, params⟩

end Route

/-- What the handler has seen of the generator that the engine gave it. -/
inductive GeneratorState
  | fresh
  | suspended
  | finished
  | raised
  | cancelled
  deriving DecidableEq

/-- `aborted` are the ids for which the handler has called the engine's `abort`. -/
structure World (I T : Type) where
  adapter : Adapter I T
  generator : Option GeneratorState := none
  aborted : List Text := []
  time : T
  monotonic : ℚ

/-- `start` is the moment at which the response stream is taken up. A call that is made `inStream`
can be cut short by the end of the connection. -/
inductive Call
  | start
  | anext (yields : Yields RequestOutput) (inStream : Bool)
  | yield (texts : List Text)
  | isDisconnected
  | abort (internalIds : List Text)

def Call.Reply : Call → Type
  | .isDisconnected => Bool
  | _ => Unit

variable {I T : Type}

/-- What other handlers and tasks do, none of them with this request id. -/
inductive Elsewhere (requestId : Text) : World I T → World I T → Prop
  | record {w : World I T} (id internalId : Text) (entry : Option I × T) (h : id ≠ requestId) :
      Elsewhere requestId w { w with adapter := w.adapter.record id internalId entry }
  | release {w : World I T} (ids : List Text) (h : requestId ∉ ids) :
      Elsewhere requestId w { w with adapter := w.adapter.releaseAll ids }
  | tick {w : World I T} (time : T) (monotonic : ℚ) :
      Elsewhere requestId w { w with time, monotonic }

inductive Serves : (c : Call) → World I T → Except ApiExc c.Reply → World I T → Prop
  | start (w : World I T) : Serves .start w (.ok ()) w
  | unstarted (w : World I T) : Serves .start w (.error .closed) w
  | item (o : RequestOutput) (rest : Yields RequestOutput) (inStream : Bool) (w : World I T) :
      Serves (.anext (.item o rest) inStream) w (.ok ()) { w with generator := some .suspended }
  | stop (inStream : Bool) (w : World I T) :
      Serves (.anext (.ended false) inStream) w (.ok ()) { w with generator := some .finished }
  | error (inStream : Bool) (w : World I T) : Serves (.anext (.ended true) inStream) w
      (.error .engine) { w with generator := some .raised }
  | cancelled (yields : Yields RequestOutput) (w : World I T) :
      Serves (.anext yields true) w (.error .closed) { w with generator := some .cancelled }
  | yield (texts : List Text) (w : World I T) : Serves (.yield texts) w (.ok ()) w
  | closed (texts : List Text) (w : World I T) : Serves (.yield texts) w (.error .closed) w
  | isDisconnected (b : Bool) (w : World I T) : Serves .isDisconnected w (.ok b) w
  | abort (internalIds : List Text) (w : World I T) :
      Serves (.abort internalIds) w (.ok ()) { w with aborted := w.aborted ++ internalIds }

def host (requestId : Text) : Host (World I T) Call Call.Reply ApiExc where
  issue _ w := w
  serve := Serves
  env := Elsewhere requestId

abbrev Handler (I T α : Type) := Prog (World I T) Call Call.Reply ApiExc α

def modify (f : Adapter I T → Adapter I T) : Handler I T Unit :=
  .write (fun w => { w with adapter := f w.adapter }) (.ret ())

def release (requestId : Text) : Handler I T Unit := modify (·.releaseRequest requestId)

def abort (requestId : Text) : Handler I T Unit :=
  .read fun w => (Prog.call (Call.abort (w.adapter.internalIds [requestId]))).bind fun _ =>
    modify (·.releaseAll [requestId])

/-- `V1EngineAdapter.generate`; `refused` if the engine raises when it is called. -/
def submit (args : AdapterArgs) (refused : Bool) (requestId : Text) : Handler I T Unit :=
  match args.generateId requestId none with
  | .error e => .raise (.invalidId e)
  | .ok internalId =>
    .read fun w => (modify (·.record requestId internalId (none, w.time))).bind fun _ =>
      if refused then (release requestId).bind fun _ => .raise .engine
      else .write (fun w => { w with generator := some .fresh }) (.ret ())

def advance (inStream : Bool) (yields : Yields RequestOutput) : Handler I T Unit :=
  Prog.call (Call.anext yields inStream)

section Handlers
variable {P : Type} (sub : Submission P) (yields : Yields RequestOutput)

def texts (o : RequestOutput) : List Text := o.outputs.map (sub.prompt ++ ·.text)

def streamResults : Handler I T (Unit ⊕ Response) :=
  Prog.tryFinally
    (.asyncFor (advance true)
      (fun _ o => (Prog.call (Call.yield (texts sub o))).bind fun _ => .ret (.inl ())) yields ())
    fun completed => if completed then release sub.requestId else abort sub.requestId

/-- What `/generate` and `/generate_benchmark` do with an output once the client is known to listen
is `f`. -/
def whileConnected {σ : Type} (f : σ → RequestOutput → Handler I T σ) (s : σ) (o : RequestOutput) :
    Handler I T (σ ⊕ Response) :=
  (Prog.call Call.isDisconnected).bind fun (gone : Bool) =>
    if gone then (abort sub.requestId).bind fun _ => .ret (.inr .disconnected)
    else (f s o).bind fun s => .ret (.inl s)

/-- `/generate` without streaming. -/
def collect : Handler I T Response :=
  (Prog.asyncFor (advance false) (whileConnected sub fun _ o => .ret (some o)) yields none).bind fun
    | .inr response => .ret response
    | .inl none => (release sub.requestId).bind fun _ => .ret .noOutput
    | .inl (some final) => (release sub.requestId).bind fun _ => .ret (.text (texts sub final))

def benchmarkResponse (final : Option RequestOutput) (timestamps : List (ℚ × ℚ)) : Response :=
  match final with
  | none => .noOutput
  | some final =>
    match final.outputs with
    | [] => .noOutput
    | completion :: _ => .benchmark sub.requestId completion.text completion.tokenIds.length
        final.promptTokenIds.length timestamps

/-- `try: p except Exception: h; raise`. -/
def onException {α : Type} (p : Handler I T α) (h : Handler I T Unit) : Handler I T α :=
  p.tryCatch fun
    | .closed => .raise .closed
    | e => h.bind fun _ => .raise e

def measure (started : ℚ) : Handler I T (Option RequestOutput × List (ℚ × ℚ) ⊕ Response) :=
  Prog.asyncFor (advance false)
    (whileConnected sub fun s o => .read fun w =>
      .ret (some o, s.2 ++ [(w.monotonic, (w.monotonic - started) * 1000)]))
    yields (none, [])

def benchmark (started : ℚ) : Handler I T Response :=
  (Prog.tryFinally (onException (measure sub yields started) (abort sub.requestId))
    fun _ => release sub.requestId).bind fun
    | .inr response => .ret response
    | .inl (final, timestamps) => .ret (benchmarkResponse sub final timestamps)

end Handlers

/-- A call of a route, the response stream included. -/
def respond {P : Type} (args : AdapterArgs) (samplingParams : Dict Text Field → Except Text P)
    (route : Route) (request : HttpRequest) (refused : Bool) (yields : Yields RequestOutput) :
    Handler I T Response :=
  match route.parse samplingParams request with
  | .error e =>
    .raise (.httpException 400
      ("invalid ".toList ++ route.label ++ " request: ".toList ++ e))
  | .ok sub =>
    match route with
    | .generate => (submit args refused sub.requestId).bind fun _ =>
      if sub.stream then
        (Prog.call Call.start).bind fun _ => (streamResults sub yields).bind fun _ =>
          .ret .streaming
      else collect sub yields
    | .generateBenchmark => .read fun w => (submit args refused sub.requestId).bind fun _ =>
      benchmark sub yields w.monotonic

end Llumnix.V1.Server
