import Llumnix.Machine.Run
import Llumnix.Python.Dict
import Mathlib.Algebra.Ring.Nat
import Mathlib.Data.Fintype.EquivFin

/-! The CPU-staged transport: `send_tensor` calls of one sender over one cached socket, and the
`_listen` loop of the peer. Replies carry no id, so that they are matched by their order alone. -/
namespace Llumnix.Transfer

open Machine Python

inductive DType where
  | bool
  | uint8
  | int8
  | int16
  | int32
  | int64
  | float16
  | bfloat16
  | float32
  | float64
  deriving DecidableEq

namespace DType

/-- `str(dtype).replace("torch.", "")`. -/
def name : DType → String
  | bool => "bool"
  | uint8 => "uint8"
  | int8 => "int8"
  | int16 => "int16"
  | int32 => "int32"
  | int64 => "int64"
  | float16 => "float16"
  | bfloat16 => "bfloat16"
  | float32 => "float32"
  | float64 => "float64"

def itemsize : DType → ℕ
  | bool | uint8 | int8 => 1
  | int16 | float16 | bfloat16 => 2
  | int32 | float32 => 4
  | int64 | float64 => 8

/-- `getattr(torch, name)`. -/
def ofName (s : String) : Option DType :=
  [bool, uint8, int8, int16, int32, int64, float16, bfloat16, float32, float64].find? (·.name = s)

theorem ofName_name (t : DType) : ofName t.name = some t := by
  cases t <;> decide

end DType

structure Tensor where
  dtype : DType
  shape : List ℕ
  bytes : List UInt8
  size : bytes.length = dtype.itemsize * shape.prod
  deriving DecidableEq

structure Header where
  cmd : String
  tensorId : String
  shape : List ℕ
  dtype : String
  deriving DecidableEq

/-- What the router receives: how many frames, the header if it unpacks, and the raw bytes. -/
structure Message where
  frames : ℕ
  header : Option Header
  payload : List UInt8
  deriving DecidableEq

inductive Outcome where
  | silent
  | rejected
  | stored (tensorId : String) (tensor : Tensor)

/-- One message in `_listen`. Whatever raises is rejected; an empty buffer makes `frombuffer`
raise. -/
def listen (m : Message) : Outcome :=
  if m.frames ≠ 3 then .silent
  else
    match m.header with
    | none => .rejected
    | some header =>
      if header.cmd ≠ "PUT_CPU" then .silent
      else
        match DType.ofName header.dtype with
        | none => .rejected
        | some dtype =>
          if m.payload = [] then .rejected
          else if h : m.payload.length = dtype.itemsize * header.shape.prod then
            .stored header.tensorId ⟨dtype, header.shape, m.payload, h⟩
          else .rejected

/-- The reply to a message: `b"0"`, `b"1"`, or none. -/
def Outcome.reply : Outcome → Option Bool
  | .silent => none
  | .rejected => some false
  | .stored _ _ => some true

def Message.reply (m : Message) : Option Bool := (listen m).reply

/-- What `send_tensor` puts on the socket. -/
def encode (tensorId : String) (t : Tensor) : Message where
  frames := 3
  header := some ⟨"PUT_CPU", tensorId, t.shape, t.dtype.name⟩
  payload := t.bytes

theorem listen_encode (tensorId : String) (t : Tensor) :
    listen (encode tensorId t) = if t.bytes = [] then .rejected else .stored tensorId t := by
  obtain ⟨dtype, shape, bytes, size⟩ := t
  by_cases hbytes : bytes = []
  · simp [listen, encode, DType.ofName_name, hbytes]
  · simp [listen, encode, DType.ofName_name, hbytes, size]

/-- A sender and its peer: the two directions of the connection, the calls that wait for a reply,
and the store of the peer. `stored` is all that it ever stored; the calls of `unbacked` returned
`True` before. -/
structure Link where
  requests : List Message := []
  replies : List Bool := []
  calls : List (String × Tensor) := []
  recvStore : Dict String Tensor := .empty
  stored : List (String × Tensor) := []
  unbacked : List (String × Tensor) := []

inductive Action where
  | send (tensorId : String) (tensor : Tensor)
  | inject (m : Message)
  | listen (lost : Bool)
  | recv (k : ℕ)
  | timeout (k : ℕ)

namespace Link

def keep (s : Link) : Outcome → Link
  | .stored tensorId tensor =>
    { s with
      recvStore := s.recvStore.set tensorId tensor
      stored := s.stored ++ [(tensorId, tensor)] }
  | _ => s

/-- `view(torch.uint8)` refuses a scalar whose items are not single bytes, before anything is
sent. -/
def Sendable (t : Tensor) : Prop := t.shape ≠ [] ∨ t.dtype.itemsize = 1

instance (t : Tensor) : Decidable (Sendable t) := inferInstanceAs (Decidable (_ ∨ _))

/-- The call returns what the next reply says, whatever message that answers. -/
def returns (s : Link) (call : String × Tensor) (reply : Bool) : Link :=
  if reply ∧ call ∉ s.stored then { s with unbacked := s.unbacked ++ [call] } else s

def step (s : Link) : Action → Option Link
  | .send tensorId t =>
    if Sendable t then
      some { s with
        requests := s.requests ++ [encode tensorId t]
        calls := s.calls ++ [(tensorId, t)] }
    else some s
  | .inject m => some { s with requests := s.requests ++ [m] }
  | .listen lost =>
    match s.requests with
    | [] => none
    | m :: requests =>
      some ({ s with
        requests := requests
        replies := s.replies ++ if lost then [] else m.reply.toList }.keep (Transfer.listen m))
  | .recv k =>
    match s.calls[k]?, s.replies with
    | some call, reply :: replies =>
      some ({ s with calls := s.calls.eraseIdx k, replies := replies }.returns call reply)
    | _, _ => none
  | .timeout k => if k < s.calls.length then some { s with calls := s.calls.eraseIdx k } else none

/-- The replies that are still to come, if none gets lost. -/
def answers (s : Link) : List Bool := s.replies ++ s.requests.filterMap Message.reply

/-- Calls are made one at a time, none is given up while an answer is to come, and what else is on
the connection gets no answer. -/
def Orderly (s : Link) : Action → Prop
  | .send _ _ => s.calls = []
  | .inject m => m.reply = none
  | .listen _ => True
  | .recv _ => True
  | .timeout _ => s.answers = []

/-- From here on, `True` means that the peer has the tensor. -/
def Trusted (s : Link) : Prop :=
  ∀ as s', Meets step Orderly s as → run step s as = some s' → s'.unbacked = s.unbacked

/-- At most one call waits, and the only answer to come is the one to its message. -/
structure InStep (s : Link) : Prop where
  one : s.calls.length ≤ 1
  few : s.answers.length ≤ s.calls.length
  own : ∀ call ∈ s.calls, ∀ m ∈ s.requests, m.reply ≠ none → m = encode call.1 call.2
  backed : ∀ call ∈ s.calls, true ∈ s.replies → call ∈ s.stored

section InStep
variable {s s' : Link}

theorem inStep_of_idle (hcalls : s.calls = []) (hanswers : s.answers = []) : s.InStep where
  one := by simp [hcalls]
  few := by simp [hcalls, hanswers]
  own := by simp [hcalls]
  backed := by simp [hcalls]

theorem keep_calls (o : Outcome) : (s.keep o).calls = s.calls := by
  cases o <;> rfl

theorem keep_requests (o : Outcome) : (s.keep o).requests = s.requests := by
  cases o <;> rfl

theorem keep_replies (o : Outcome) : (s.keep o).replies = s.replies := by
  cases o <;> rfl

theorem keep_unbacked (o : Outcome) : (s.keep o).unbacked = s.unbacked := by
  cases o <;> rfl

theorem subset_stored_keep (o : Outcome) : s.stored ⊆ (s.keep o).stored := by
  cases o with
  | stored tensorId tensor => exact List.subset_append_left _ _
  | silent | rejected => exact List.Subset.refl _

theorem InStep.send (h : s.InStep) (hcalls : s.calls = []) (tensorId : String) (t : Tensor) :
    InStep { s with
      requests := s.requests ++ [encode tensorId t]
      calls := s.calls ++ [(tensorId, t)] } := by
  have hnone : s.answers = [] := by
    have hfew := h.few
    simpa [hcalls] using hfew
  obtain ⟨hreplies, hrequests⟩ := List.append_eq_nil_iff.mp hnone
  have hsilent : ∀ m ∈ s.requests, m.reply = none := List.filterMap_eq_nil_iff.mp hrequests
  refine ⟨by simp [hcalls], ?_, ?_, ?_⟩
  · have hone : ([encode tensorId t].filterMap Message.reply).length ≤ 1 :=
      List.length_filterMap_le _ _
    simpa [answers, hreplies, hrequests, hcalls] using hone
  · intro call hcall m hm hreply
    have hcall : call = (tensorId, t) := by simpa [hcalls] using hcall
    rcases List.mem_append.mp hm with hm | hm
    · exact absurd (hsilent m hm) hreply
    · rw [List.mem_singleton.mp hm, hcall]
  · simp [hreplies]

theorem InStep.inject (h : s.InStep) {m : Message} (hm : m.reply = none) :
    InStep { s with requests := s.requests ++ [m] } := by
  refine ⟨h.one, ?_, ?_, h.backed⟩
  · have hfew := h.few
    simpa [answers, hm] using hfew
  · intro call hcall n hn hreply
    rcases List.mem_append.mp hn with hn | hn
    · exact h.own call hcall n hn hreply
    · rw [List.mem_singleton.mp hn] at hreply
      exact absurd hm hreply

/-- The reply moves from the message to the queue, or is lost. -/
theorem InStep.listen (h : s.InStep) {m : Message} {requests : List Message}
    (hrequests : s.requests = m :: requests) (lost : Bool) :
    ({ s with
      requests := requests
      replies := s.replies ++ if lost then [] else m.reply.toList }.keep
        (Transfer.listen m)).InStep := by
  have hfew := h.few
  rw [answers, hrequests, List.filterMap_cons] at hfew
  refine ⟨?_, ?_, ?_, ?_⟩
  · rw [keep_calls]
    exact h.one
  · rw [answers, keep_calls, keep_requests, keep_replies]
    cases hreply : m.reply <;> cases lost <;> simp [hreply] at hfew ⊢ <;> omega
  · rw [keep_calls, keep_requests]
    intro call hcall n hn
    exact h.own call hcall n (hrequests ▸ List.mem_cons_of_mem m hn)
  · rw [keep_calls, keep_replies]
    intro call hcall htrue
    rcases List.mem_append.mp htrue with htrue | htrue
    · exact subset_stored_keep _ (h.backed call hcall htrue)
    · have hreply : m.reply = some true := by
        cases lost with
        | true => simp at htrue
        | false => simpa using htrue
      -- a message that is answered is the one of the call that waits
      have hm := h.own call hcall m (hrequests ▸ List.mem_cons_self) (by simp [hreply])
      have houtcome := listen_encode call.1 call.2
      rw [← hm] at houtcome
      by_cases hbytes : call.2.bytes = []
      · simp [Message.reply, houtcome, hbytes, Outcome.reply] at hreply
      · simp [houtcome, hbytes, keep]

theorem InStep.recv (h : s.InStep) {k : ℕ} {call : String × Tensor} {reply : Bool}
    {replies : List Bool} (hcall : s.calls[k]? = some call)
    (hreplies : s.replies = reply :: replies) :
    ({ s with calls := s.calls.eraseIdx k, replies := replies }.returns call reply).InStep ∧
      ({ s with calls := s.calls.eraseIdx k, replies := replies }.returns call reply).unbacked =
        s.unbacked := by
  obtain ⟨hk, -⟩ := List.getElem?_eq_some_iff.mp hcall
  have hmem : call ∈ s.calls := List.mem_of_getElem? hcall
  have hone := h.one
  have hfew := h.few
  have hbacked : reply = true → call ∈ s.stored := by
    intro htrue
    exact h.backed call hmem (by simp [hreplies, htrue])
  have hreturns : ({ s with calls := s.calls.eraseIdx k, replies := replies }.returns call reply) =
      { s with calls := s.calls.eraseIdx k, replies := replies } := by
    refine if_neg ?_
    rintro ⟨htrue, hnot⟩
    exact hnot (hbacked htrue)
  rw [hreturns]
  refine ⟨inStep_of_idle ?_ ?_, rfl⟩
  · rw [← List.length_eq_zero_iff, List.length_eraseIdx_of_lt hk]
    omega
  · rw [answers, hreplies] at hfew
    simp only [List.cons_append, List.length_cons] at hfew
    rw [← List.length_eq_zero_iff]
    change (replies ++ s.requests.filterMap Message.reply).length = 0
    omega

theorem InStep.timeout (h : s.InStep) (hanswers : s.answers = []) {k : ℕ}
    (hk : k < s.calls.length) : InStep { s with calls := s.calls.eraseIdx k } := by
  have hone := h.one
  refine inStep_of_idle ?_ hanswers
  rw [← List.length_eq_zero_iff, List.length_eraseIdx_of_lt hk]
  omega

theorem inStep_step (h : s.InStep) {a : Action} (ha : s.Orderly a) (hstep : s.step a = some s') :
    s'.InStep ∧ s'.unbacked = s.unbacked := by
  cases a with
  | send tensorId t =>
    simp only [step] at hstep
    split at hstep
    · cases hstep
      exact ⟨h.send ha tensorId t, rfl⟩
    · cases hstep
      exact ⟨h, rfl⟩
  | inject m =>
    cases hstep
    exact ⟨h.inject ha, rfl⟩
  | listen lost =>
    simp only [step] at hstep
    split at hstep
    · cases hstep
    · rename_i m requests hrequests
      cases hstep
      exact ⟨h.listen hrequests lost, keep_unbacked _⟩
  | recv k =>
    simp only [step] at hstep
    split at hstep
    · rename_i call reply replies hcall hreplies
      cases hstep
      exact h.recv hcall hreplies
    · cases hstep
  | timeout k =>
    simp only [step] at hstep
    split at hstep
    · rename_i hk
      cases hstep
      exact ⟨h.timeout ha hk, rfl⟩
    · cases hstep

theorem trusted_of_inStep (h : s.InStep) : s.Trusted := by
  intro as s' hok hrun
  have hboth : s'.InStep ∧ s'.unbacked = s.unbacked := by
    refine run_invariant (I := fun t => t.InStep ∧ t.unbacked = s.unbacked) ?_ ⟨h, rfl⟩ hok hrun
    intro t a t' ht ha hstep
    obtain ⟨hin, heq⟩ := inStep_step ht.1 ha hstep
    exact ⟨hin, heq.trans ht.2⟩
  exact hboth.2

end InStep

section OutOfStep
variable {s t : Link}

theorem Trusted.step (h : s.Trusted) {a : Action} (hstep : s.step a = some t) (ha : s.Orderly a) :
    t.unbacked = s.unbacked ∧ t.Trusted := by
  have hone : t.unbacked = s.unbacked := by
    refine h [a] t ?_ ?_
    · exact (meets_cons_some hstep).mpr ⟨ha, trivial⟩
    · simp [run, hstep]
  refine ⟨hone, fun as t' hok hrun => ?_⟩
  have hrest : t'.unbacked = s.unbacked := by
    refine h (a :: as) t' ?_ ?_
    · exact (meets_cons_some hstep).mpr ⟨ha, hok⟩
    · simpa [run, hstep] using hrun
  rw [hrest, hone]

theorem Trusted.drain (h : s.Trusted) : ∃ t : Link, t.Trusted ∧ t.requests = [] ∧
    t.replies = s.answers ∧ t.calls = s.calls := by
  generalize hrequests : s.requests = requests
  induction requests generalizing s with
  | nil => exact ⟨s, h, hrequests, by simp [answers, hrequests], rfl⟩
  | cons m requests ih =>
    have hstep : s.step (.listen false) = some ({ s with
        requests := requests
        replies := s.replies ++ m.reply.toList }.keep (Transfer.listen m)) := by
      simp [Link.step, hrequests]
    obtain ⟨-, hnext⟩ := h.step hstep trivial
    obtain ⟨t, htrust, hempty, hreplies, hcalls⟩ := ih hnext (keep_requests _)
    refine ⟨t, htrust, hempty, ?_, ?_⟩
    · rw [hreplies, answers, answers, keep_replies, keep_requests, hrequests]
      cases hreply : m.reply <;> simp [hreply]
    · rw [hcalls, keep_calls]

def byteTensor : Tensor := ⟨.uint8, [1], [0], rfl⟩

theorem step_send_byte (tensorId : String) : s.step (.send tensorId byteTensor) = some { s with
    requests := s.requests ++ [encode tensorId byteTensor]
    calls := s.calls ++ [(tensorId, byteTensor)] } := by
  simp [Link.step, Sendable, byteTensor]

theorem step_recv_only {call : String × Tensor} {reply : Bool} {replies : List Bool}
    (hcalls : s.calls = [call]) (hreplies : s.replies = reply :: replies) :
    s.step (.recv 0) = some ({ s with calls := [], replies := replies }.returns call reply) := by
  simp [Link.step, hcalls, hreplies]

theorem Trusted.cycle (h : s.Trusted) (hrequests : s.requests = []) (hcalls : s.calls = [])
    {replies : List Bool} (hreplies : s.replies = false :: replies) :
    ∃ t : Link, t.Trusted ∧ t.requests = [] ∧ t.calls = [] ∧ t.replies = replies ++ [true] := by
  obtain ⟨-, hsent⟩ := h.step (step_send_byte "") hcalls
  obtain ⟨-, hreceived⟩ := hsent.step (step_recv_only (by rw [hcalls]; rfl) hreplies) trivial
  have hreply : (encode "" byteTensor).reply = some true := by decide
  obtain ⟨-, hstored⟩ := hreceived.step (a := .listen false) (by
    simp only [returns, Link.step, hrequests, List.nil_append, Bool.false_eq_true, false_and,
      if_false]
    rfl) trivial
  refine ⟨_, hstored, ?_, ?_, ?_⟩
  · rw [keep_requests]
  · rw [keep_calls]
  · rw [keep_replies]
    simp [hreply]

theorem not_trusted_of_stale (hrequests : s.requests = []) (hcalls : s.calls = []) {n : ℕ}
    {replies : List Bool} (hreplies : s.replies = List.replicate n false ++ true :: replies) :
    ¬s.Trusted := by
  intro h
  induction n generalizing s replies with
  | zero =>
    -- a tensor that the peer has never seen, acknowledged by the reply to another one
    obtain ⟨tensorId, hfresh⟩ := Infinite.exists_notMem_finset (s.stored.map Prod.fst).toFinset
    have hnot : (tensorId, byteTensor) ∉ s.stored := fun hmem =>
      hfresh (List.mem_toFinset.mpr (List.mem_map_of_mem hmem))
    obtain ⟨-, hsent⟩ := h.step (step_send_byte tensorId) hcalls
    obtain ⟨hsame, -⟩ := hsent.step (step_recv_only (by rw [hcalls]; rfl) hreplies) trivial
    simp [returns, hnot] at hsame
  | succ n ih =>
    rw [List.replicate_succ, List.cons_append] at hreplies
    obtain ⟨t, htrust, htrequests, htcalls, htreplies⟩ := h.cycle hrequests hcalls hreplies
    have hshorter : t.replies = List.replicate n false ++ true :: (replies ++ [true]) := by
      rw [htreplies, List.append_assoc, List.cons_append]
    exact ih htrequests htcalls hshorter htrust

theorem split_at_true (bs : List Bool) : (∃ n, bs = List.replicate n false) ∨
    ∃ n rest, bs = List.replicate n false ++ true :: rest := by
  induction bs with
  | nil => exact .inl ⟨0, rfl⟩
  | cons b bs ih =>
    cases b with
    | true => exact .inr ⟨0, bs, rfl⟩
    | false =>
      rcases ih with ⟨n, rfl⟩ | ⟨n, rest, rfl⟩
      · exact .inl ⟨n + 1, rfl⟩
      · exact .inr ⟨n + 1, rest, rfl⟩

theorem answers_eq_nil_of_trusted (h : s.Trusted) (hcalls : s.calls = []) : s.answers = [] := by
  obtain ⟨t, htrust, hrequests, hreplies, htcalls⟩ := h.drain
  rw [hcalls] at htcalls
  rcases split_at_true s.answers with ⟨n, hn⟩ | ⟨n, rest, hn⟩
  · cases n with
    | zero => exact hn
    | succ n =>
      rw [hn, List.replicate_succ] at hreplies
      obtain ⟨u, hutrust, hurequests, hucalls, hureplies⟩ := htrust.cycle hrequests htcalls hreplies
      exact absurd hutrust (not_trusted_of_stale hurequests hucalls hureplies)
  · rw [hn] at hreplies
    exact absurd htrust (not_trusted_of_stale hrequests htcalls hreplies)

end OutOfStep

/-- Between two calls: `True` can be relied on, in every interleaving of orderly calls with the
peer, if and only if no answer to an earlier message is still to come. -/
theorem trusted_iff_no_answer_to_come (s : Link) (hcalls : s.calls = []) :
    s.Trusted ↔ s.answers = [] := by
  constructor
  · intro h
    exact answers_eq_nil_of_trusted h hcalls
  · intro h
    exact trusted_of_inStep (inStep_of_idle hcalls h)

/-- Two overlapping calls, both of them answered. -/
theorem trusted_after_answered_calls : ∃ s : Link,
    run step {} [.send "a" byteTensor, .send "b" byteTensor, .listen false, .recv 0, .listen false,
      .recv 0] = some s ∧ s.stored = [("a", byteTensor), ("b", byteTensor)] ∧ s.calls = [] ∧
      s.Trusted :=
  ⟨_, rfl, rfl, rfl, (trusted_iff_no_answer_to_come _ rfl).mpr rfl⟩

/-- A call that timed out; its late reply acknowledges the tensor of the next call, which the peer
has not seen. -/
theorem acknowledged_by_late_reply : ∃ s : Link,
    run step {} [.send "a" byteTensor, .timeout 0, .listen false, .send "b" byteTensor, .recv 0] =
      some s ∧ s.stored = [("a", byteTensor)] ∧ s.unbacked = [("b", byteTensor)] :=
  ⟨_, rfl, rfl, rfl⟩

end Link
end Llumnix.Transfer
