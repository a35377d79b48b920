import Llumnix.Rpc.Service

/-! The output queue of an API server, to which the engines put their outputs over ZMQ. Every put
opens a socket of its own, so that messages of one engine can overtake each other. -/
namespace Llumnix.Queue

open Machine Rpc

variable {α : Type}

/-- `unknown` is every message that is none of the three requests. -/
inductive RPCRequest (α : Type)
  | isServerReady
  | putNowait (item : α)
  | putNowaitBatch (items : List α)
  | unknown
  deriving DecidableEq

inductive QueueException
  | queueFull
  | full (message : String)
  deriving DecidableEq

inductive Response
  | success
  | error (e : QueueException)
  deriving DecidableEq

/-- A queue with the capacity 0 is unbounded. -/
structure ZmqServer (α : Type) where
  maxsize : ℕ
  queue : List α
  fits : 0 < maxsize → queue.length ≤ maxsize
  deriving DecidableEq

namespace ZmqServer

def init (maxsize : ℕ) : ZmqServer α where
  maxsize
  queue := []
  fits := fun _ => Nat.zero_le maxsize

def full (s : ZmqServer α) : Bool :=
  0 < s.maxsize && s.maxsize ≤ s.queue.length

theorem fits_concat {s : ZmqServer α} (h : ¬s.full) (item : α) (hpos : 0 < s.maxsize) :
    (s.queue ++ [item]).length ≤ s.maxsize := by
  simp only [full, hpos, decide_true, Bool.true_and, decide_eq_true_eq] at h
  rw [List.length_append, List.length_singleton]
  omega

def putNowait (s : ZmqServer α) (item : α) : Response × ZmqServer α :=
  if h : s.full then (.error .queueFull, s)
  else (.success, { s with queue := s.queue ++ [item], fits := fits_concat h item })

/-- The loop of `put_nowait_batch`, which an exception of `put_nowait` would end half way. -/
def putAll (s : ZmqServer α) : List α → Response × ZmqServer α
  | [] => (.success, s)
  | item :: items =>
    match s.putNowait item with
    | (.success, s') => s'.putAll items
    | (.error e, s') => (.error e, s')

def fullMessage (n : ℕ) (s : ZmqServer α) : String :=
  s!"Cannot add {n} items to queue of size {s.queue.length} and maxsize {s.maxsize}."

def putNowaitBatch (s : ZmqServer α) (items : List α) : Response × ZmqServer α :=
  if 0 < s.maxsize && s.maxsize < items.length + s.queue.length then
    (.error (.full (fullMessage items.length s)), s)
  else s.putAll items

/-- What `_make_handler_coro` has run for a request. -/
def handle (s : ZmqServer α) : RPCRequest α → Response × ZmqServer α
  | .isServerReady | .unknown => (.success, s)
  | .putNowait item => s.putNowait item
  | .putNowaitBatch items => s.putNowaitBatch items

/-- `get_nowait_batch`; `get` and `get_nowait` are the case of one item. -/
def getNowaitBatch (s : ZmqServer α) (n : ℕ) : Option (List α × ZmqServer α) :=
  if n ≤ s.queue.length then
    some (s.queue.take n, { s with
      queue := s.queue.drop n
      fits := fun h => Nat.le_trans (List.drop_sublist n s.queue).length_le (s.fits h) })
  else none

end ZmqServer

def accepts : RPCRequest α → Bool
  | .unknown => false
  | _ => true

/-- What the API server does with its own queue. -/
inductive Local (α : Type)
  | get (items : List α)
  | put (request : RPCRequest α) (response : Response)
  deriving DecidableEq

def act [DecidableEq α] (s : ZmqServer α) : Local α → Option (ZmqServer α)
  | .get items =>
    (s.getNowaitBatch items.length).bind fun got => if got.1 = items then some got.2 else none
  | .put request response =>
    if (s.handle request).1 = response then some (s.handle request).2 else none

def zmq [DecidableEq α] : Object (ZmqServer α) (RPCRequest α) Response (Local α) where
  accepts
  handle := ZmqServer.handle
  act

abbrev Deployment (α : Type) := System (ZmqServer α) (RPCRequest α) Response (Local α)

abbrev History (α : Type) := List (Event (RPCRequest α) Response (Local α))

def RPCRequest.items : RPCRequest α → List α
  | .isServerReady | .unknown => []
  | .putNowait item => [item]
  | .putNowaitBatch items => items

def added (request : RPCRequest α) : Response → List α
  | .success => request.items
  | .error _ => []

def entered (history : History α) : List α :=
  history.flatMap fun
    | .handled _ request response | .acted (.put request response) => added request response
    | .acted (.get _) => []

def taken (history : History α) : List α :=
  history.flatMap fun
    | .acted (.get items) => items
    | _ => []

/-! ### One request -/

namespace ZmqServer
variable {s : ZmqServer α}

theorem putAll_eq {items : List α}
    (h : 0 < s.maxsize → items.length + s.queue.length ≤ s.maxsize) :
    (s.putAll items).1 = .success ∧ (s.putAll items).2.queue = s.queue ++ items ∧
      (s.putAll items).2.maxsize = s.maxsize := by
  induction items generalizing s with
  | nil => simp [putAll]
  | cons item items ih =>
    have hroom : ¬s.full := by
      simp only [full, Bool.and_eq_true, decide_eq_true_eq, not_and]
      intro hpos
      have := h hpos
      simp only [List.length_cons] at this
      omega
    have hput : s.putNowait item = (.success, { s with
        queue := s.queue ++ [item], fits := fits_concat hroom item }) := dif_neg hroom
    rw [putAll, hput]
    obtain ⟨hok, hqueue, hsize⟩ := ih (s := { s with
        queue := s.queue ++ [item], fits := fits_concat hroom item }) (by
      intro hpos
      have := h hpos
      simp only [List.length_append, List.length_cons, List.length_nil] at this ⊢
      omega)
    refine ⟨hok, ?_, hsize⟩
    rw [hqueue, List.append_assoc]
    rfl

theorem queue_handle (s : ZmqServer α) (request : RPCRequest α) :
    (s.handle request).2.queue = s.queue ++ added request (s.handle request).1 ∧
      (s.handle request).2.maxsize = s.maxsize := by
  cases request with
  | isServerReady | unknown => simp [handle, added, RPCRequest.items]
  | putNowait item =>
    simp only [handle, putNowait]
    split <;> simp [added, RPCRequest.items]
  | putNowaitBatch items =>
    simp only [handle, putNowaitBatch]
    split
    · simp [added]
    · rename_i hroom
      simp only [Bool.and_eq_true, decide_eq_true_eq, not_and, Nat.not_lt] at hroom
      obtain ⟨hok, hqueue, hsize⟩ := putAll_eq hroom
      rw [hok]
      exact ⟨hqueue, hsize⟩

theorem success_of_unbounded (h : s.maxsize = 0) (request : RPCRequest α) :
    (s.handle request).1 = .success := by
  cases request with
  | isServerReady | unknown => rfl
  | putNowait item =>
    have hroom : ¬s.full := by simp [full, h]
    simp [handle, putNowait, hroom]
  | putNowaitBatch items =>
    simp only [handle, putNowaitBatch, h]
    exact (putAll_eq (by omega)).1

end ZmqServer

/-! ### Histories -/

@[simp] theorem entered_append (xs ys : History α) :
    entered (xs ++ ys) = entered xs ++ entered ys :=
  List.flatMap_append

section History
variable {history : History α}

theorem entered_of_answers {k : ℕ} {request : RPCRequest α}
    (h : (request, .success) ∈ answers k history) :
    ∃ xs ys, entered history = xs ++ request.items ++ ys := by
  obtain ⟨event, hevent, hsome⟩ := List.mem_filterMap.mp h
  obtain ⟨xs, ys, rfl⟩ := List.append_of_mem hevent
  have hitems : entered [event] = request.items := by
    cases event with
    | handled sender request' response =>
      simp only at hsome
      split at hsome <;> cases hsome
      exact List.append_nil _
    | acted op => cases hsome
  refine ⟨entered xs, entered ys, ?_⟩
  rw [entered_append, ← List.singleton_append, entered_append, hitems, List.append_assoc]

variable [DecidableEq α] {x y : ZmqServer α}

theorem queue_get {items : List α} (h : act x (.get items) = some y) :
    x.queue = items ++ y.queue ∧ y.maxsize = x.maxsize := by
  obtain ⟨got, hgot, h⟩ := Option.bind_eq_some_iff.mp h
  unfold ZmqServer.getNowaitBatch at hgot
  split at hgot <;> cases hgot
  split at h <;> cases h
  rename_i hitems
  have hsplit := List.take_append_drop items.length x.queue
  rw [show x.queue.take items.length = items from hitems] at hsplit
  exact ⟨hsplit.symm, rfl⟩

/-- What has entered is what has been taken, then what is still in the queue. -/
theorem queue_replay (h : replay zmq x history = some y) :
    x.queue ++ entered history = taken history ++ y.queue ∧ y.maxsize = x.maxsize := by
  induction history generalizing x with
  | nil =>
    cases h
    exact ⟨List.append_nil _, rfl⟩
  | cons e history ih =>
    cases e with
    | handled sender request response =>
      simp only [replay] at h
      split at h
      · rename_i hresponse
        obtain ⟨hqueue, hsize⟩ := ih h
        obtain ⟨hadded, hkept⟩ := x.queue_handle request
        refine ⟨?_, hsize.trans hkept⟩
        simp only [zmq] at hresponse hqueue
        rw [hadded, hresponse, List.append_assoc] at hqueue
        exact hqueue
      · cases h
    | acted op =>
      obtain ⟨z, hz, h⟩ := Option.bind_eq_some_iff.mp h
      obtain ⟨hqueue, hsize⟩ := ih h
      cases op with
      | get items =>
        obtain ⟨hgot, hkept⟩ := queue_get hz
        refine ⟨?_, hsize.trans hkept⟩
        rw [hgot]
        simp only [entered, taken, List.flatMap_cons, List.nil_append, List.append_assoc]
        exact congrArg (items ++ ·) hqueue
      | put request response =>
        simp only [zmq, act] at hz
        split at hz <;> cases hz
        rename_i hresponse
        obtain ⟨hadded, hkept⟩ := x.queue_handle request
        refine ⟨?_, hsize.trans hkept⟩
        rw [hadded, hresponse, List.append_assoc] at hqueue
        exact hqueue

theorem success_replay (hx : x.maxsize = 0) (h : replay zmq x history = some y) {k : ℕ}
    {e : RPCRequest α × Response} (he : e ∈ answers k history) : e.2 = .success := by
  induction history generalizing x with
  | nil => cases he
  | cons event history ih =>
    rw [← List.singleton_append, answers_append, List.mem_append] at he
    cases event with
    | handled sender request response =>
      simp only [replay] at h
      split at h
      · rename_i hresponse
        rcases he with he | he
        · rw [answers_handled] at he
          split at he
          · cases List.mem_singleton.mp he
            exact hresponse.symm.trans (ZmqServer.success_of_unbounded hx request)
          · cases he
        · exact ih ((x.queue_handle request).2.trans hx) h he
      · cases h
    | acted op =>
      obtain ⟨z, hz, h⟩ := Option.bind_eq_some_iff.mp h
      have hone : replay zmq x [.acted op] = some z := by
        rw [replay, hz]
        rfl
      exact ih ((queue_replay hone).2.trans hx) h (he.resolve_left (by simp))

end History

/-! ### Runs -/

section Runs
variable [DecidableEq α] {maxsize : ℕ} {as bs : List (Action (RPCRequest α) (Local α))}
  {s s' : Deployment α}

/-- What a put has added is handed out once, in one piece and in order. A put that returns has added
its items if and only if it returns without an exception, and one that gives up has added them at
most once. -/
theorem put_exactly_once
    (hrun : run (System.step zmq) { object := ZmqServer.init maxsize } as = some s) :
    taken s.history ++ s.object.queue = entered s.history ∧
      (0 < maxsize → s.object.queue.length ≤ maxsize) ∧
      ∀ k c, s.calls[k]? = some c →
        (answers k s.history = [] ∨ ∃ p, answers k s.history = [(c.request, p)]) ∧
        ∀ p, c.phase = .returned p →
          answers k s.history = [(c.request, p)] ∧ (maxsize = 0 → p = .success) := by
  have hsound := (System.Sound.init zmq (ZmqServer.init maxsize)).of_run hrun
  obtain ⟨hqueue, hsize⟩ := queue_replay hsound.replay
  refine ⟨hqueue.symm, fun hpos => ?_, fun k c hc => ⟨?_, fun p hp => ?_⟩⟩
  · have hfits := s.object.fits
    rw [hsize] at hfits
    exact hfits hpos
  · have hle := System.length_answers_le hsound.copies k
    match hans : answers k s.history with
    | [] => exact .inl rfl
    | [e] =>
      refine .inr ⟨e.2, ?_⟩
      rw [← hsound.request_eq hc (p := e.2) hans]
    | _ :: _ :: _ => simp [hans] at hle
  · obtain ⟨r, hr⟩ := hsound.returned k c p hc hp
    obtain rfl := hsound.request_eq hc hr
    refine ⟨hr, fun hzero => ?_⟩
    exact success_replay hzero hsound.replay (k := k) (e := (c.request, p)) (by rw [hr]; simp)

/-- The batch of two overtakes the first item, whose sender gives up before it is answered. -/
def overtaken : List (Action (RPCRequest ℕ) (Local ℕ)) :=
  [.call (.putNowait 1), .call (.putNowaitBatch [2, 3]), .receive 1, .receive 0, .handle,
    .timeout 0, .handle, .reply 0, .act (.get [2])]

theorem put_exactly_once_overtaken : ∃ s, run (System.step zmq)
    { object := ZmqServer.init 0 } overtaken = some s ∧ s.object.queue = [3, 1] ∧
      s.calls.map Call.phase = [.timedOut, .returned .success] ∧
      taken s.history ++ s.object.queue = entered s.history :=
  ⟨_, rfl, rfl, rfl, (@put_exactly_once ℕ _ 0 overtaken _ rfl).1⟩

/-- The items of a put that has returned come before those of every put that starts later, whether
that one is answered or gives up once the server has added its items. -/
theorem puts_in_order {j k : ℕ} {c : Call (RPCRequest α) Response} {request : RPCRequest α}
    (hrun : run (System.step zmq) { object := ZmqServer.init maxsize } as = some s)
    (hj : s.calls[j]? = some c) (hreturned : c.phase = .returned .success)
    (hk : s.calls.length ≤ k) (hlater : run (System.step zmq) s bs = some s')
    (hadded : (request, .success) ∈ answers k s'.history) :
    ∃ xs ys zs, taken s'.history ++ s'.object.queue =
      xs ++ c.request.items ++ ys ++ request.items ++ zs := by
  have hsound := (System.Sound.init zmq (ZmqServer.init maxsize)).of_run hrun
  have hsound' := hsound.of_run hlater
  obtain ⟨r, hr⟩ := hsound.returned j c _ hj hreturned
  obtain rfl := hsound.request_eq hj hr
  obtain ⟨later, hhistory, -, hnew⟩ := hsound.order hlater hj hreturned hk
  rw [hhistory, answers_append, hnew] at hadded
  obtain ⟨xs, ys, hfirst⟩ := entered_of_answers (hr ▸ List.mem_singleton_self _)
  obtain ⟨ys', zs, hsecond⟩ := entered_of_answers hadded
  refine ⟨xs, ys ++ ys', zs, ?_⟩
  rw [← (queue_replay hsound'.replay).1, hhistory, entered_append, hfirst, hsecond]
  simp [ZmqServer.init]

/-- A queue of two, on which the first put has returned and one item has been taken when the second
one starts, which gives up before its answer arrives. -/
def first : List (Action (RPCRequest ℕ) (Local ℕ)) :=
  [.call (.putNowaitBatch [1, 2]), .receive 0, .handle, .reply 0]

def second : List (Action (RPCRequest ℕ) (Local ℕ)) :=
  [.act (.get [1]), .call (.putNowait 3), .receive 0, .handle, .timeout 1]

theorem puts_in_order_second : ∃ s s', run (System.step zmq) { object := ZmqServer.init 2 }
    first = some s ∧ run (System.step zmq) s second = some s' ∧
      s'.calls.map Call.phase = [.returned .success, .timedOut] ∧
      ∃ xs ys zs, taken s'.history ++ s'.object.queue = xs ++ [1, 2] ++ ys ++ [3] ++ zs :=
  ⟨_, _, rfl, rfl, rfl, @puts_in_order ℕ _ 2 first second _ _ 0 1 _ _ rfl rfl rfl
    (by decide) rfl (List.mem_singleton_self _)⟩

/-- A put or a probe that starts now can return if and only if the server has never read a message
that is none of the three requests: the first one ends `run_server_loop` for all clients. -/
theorem can_return_iff {request : RPCRequest α} (hrequest : request ≠ .unknown)
    (hrun : run (System.step zmq) { object := ZmqServer.init maxsize } as = some s) :
    (∃ bs s', run (System.step zmq) s (.call request :: bs) = some s' ∧
      System.Returned s.calls.length s') ↔
      Meets (System.step zmq) (fun s a => ¬System.Fatal zmq s a)
        ({ object := ZmqServer.init maxsize } : Deployment α) as := by
  have hsound := (System.Sound.init zmq (ZmqServer.init maxsize)).of_run hrun
  rw [← end_iff_meets (I := fun _ => True) (K := fun s => s.running = true)
    (fun _ _ _ _ _ => trivial) (fun _ _ _ _ h => System.running_step h) trivial rfl hrun]
  constructor
  · rintro ⟨bs, s', hrun', hreturned⟩
    cases hrunning : s.running with
    | true => rfl
    | false =>
      exact absurd hreturned ((hsound.unheard hrunning (Nat.le_refl _)).of_run hrun').returned
  · intro hrunning
    refine System.exists_returned hrunning ?_
    cases request with
    | unknown => exact absurd rfl hrequest
    | _ => rfl

theorem can_return_iff_second : ∃ s, run (System.step zmq) { object := ZmqServer.init 2 }
    first = some s ∧ ∃ bs s', run (System.step zmq) s (.call .isServerReady :: bs) = some s' ∧
      System.Returned s.calls.length s' :=
  ⟨_, rfl, (@can_return_iff ℕ _ 2 first _ _ (by decide) rfl).mpr (by
    simp [Meets, first, System.step, System.Fatal, zmq, accepts])⟩

end Runs

end Llumnix.Queue
