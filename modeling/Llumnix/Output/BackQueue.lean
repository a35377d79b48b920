import Llumnix.Log.LastWrite
import Llumnix.Machine.Run
import Llumnix.Output.FanOut
import Mathlib.Data.List.Induction

/-! `AsyncBackQueueWrapper` of the BladeLLM engine: the engine puts its responses in a queue, and a
thread takes them out in batches and hands each batch to the actor that sends it. -/
namespace Llumnix.Output.BackQueue

open Log Machine Python

variable {β : Type}

structure GenerateStreamResponse (β : Type) where
  body : β
  isFinished : Bool

/-- The entry of `put_queue_args_queue`, with `str(req_id)` in the response. -/
abbrev Args (β : Type) := Output.Response β × ServerInfo

/-- Where `_put_request_outputs_loop` is: before the first `get`, between it and the two calls of
`qsize`, or with so many calls of `get` to go. -/
inductive PutLoop (β : Type)
  | idle
  | first (args : Args β)
  | sizing (args : Args β)
  | filling (batch : List (Args β)) (left : ℕ)

def PutLoop.batch : PutLoop β → List (Args β)
  | .idle => []
  | .first args | .sizing args => [args]
  | .filling batch _ => batch

/-- The `_loop` of the base class, which comes from BladeLLM. -/
structure BaseLoop where
  catchesKeyError : Bool

/-- The `KeyError` of `send` and of a drop comes out of the base loop, and `_loop` then ends as
crashed. -/
def BaseLoop.LetsThrough (base : BaseLoop) : Prop := base.catchesKeyError = false

/-- `calls` are the arguments of `_put_request_outputs_to_server`, and `sent` is all that the engine
has ever put in the queue. -/
structure Wrapper (β : Type) where
  requestServerMap : Dict ℕ ServerInfo := .empty
  putQueueArgsQueue : List (Args β) := []
  putLoop : PutLoop β := .idle
  crashed : Bool := false
  calls : List (List (Args β)) := []
  sent : List (Args β) := []

inductive Action (β : Type)
  | addRequest (requestId : ℕ) (serverInfo : ServerInfo)
  | send (reqId : ℕ) (msg : GenerateStreamResponse β)
  | drop (reqIds : List ℕ)
  | get
  | qsize
  | flush

/-- The loop of `_handle_dropped_request` and of `_handle_abort`, up to a `KeyError`. -/
def dropRequests (d : Dict ℕ ServerInfo) : List ℕ → Dict ℕ ServerInfo × Bool
  | [] => (d, true)
  | r :: rs => if r ∈ d then dropRequests (d.erase r) rs else (d, false)

namespace Wrapper

def step (base : BaseLoop) (s : Wrapper β) : Action β → Option (Wrapper β)
  | .addRequest r server => some { s with requestServerMap := s.requestServerMap.set r server }
  | .send r msg =>
    if s.crashed then none
    else
      match s.requestServerMap.get? r with
      | none => some { s with crashed := !base.catchesKeyError }
      | some server =>
        some { s with
          putQueueArgsQueue := s.putQueueArgsQueue ++ [(⟨toString r, msg.body⟩, server)]
          sent := s.sent ++ [(⟨toString r, msg.body⟩, server)]
          requestServerMap :=
            if msg.isFinished then s.requestServerMap.erase r else s.requestServerMap }
  | .drop rs =>
    if s.crashed then none
    else
      let dropped := dropRequests s.requestServerMap rs
      some { s with
        requestServerMap := dropped.1
        crashed := !dropped.2 && !base.catchesKeyError }
  | .get =>
    match s.putLoop, s.putQueueArgsQueue with
    | .idle, args :: queue => some { s with putLoop := .first args, putQueueArgsQueue := queue }
    | .filling batch (left + 1), args :: queue =>
      some { s with putLoop := .filling (batch ++ [args]) left, putQueueArgsQueue := queue }
    | _, _ => none
  | .qsize =>
    match s.putLoop with
    | .first args =>
      some { s with
        putLoop := if s.putQueueArgsQueue = [] then .filling [args] 0 else .sizing args }
    | .sizing args => some { s with putLoop := .filling [args] s.putQueueArgsQueue.length }
    | _ => none
  | .flush =>
    match s.putLoop with
    | .filling batch 0 => some { s with putLoop := .idle, calls := s.calls ++ [batch] }
    | _ => none

/-- What the calls have handed to the actor for a server. -/
def handedTo (s : Wrapper β) (serverId : String) : List (Payload β) :=
  s.calls.flatMap fun call =>
    ((Backend.bladellm.putRequestOutputsToServer call).1.get? serverId).getD []

/-! ### The thread -/

section Thread
variable {base : BaseLoop} {s s' : Wrapper β}

/-- What the thread has to do before it can wait again, given what is in the queue. -/
def Pending (queue : List (Args β)) : PutLoop β → Prop
  | .filling batch left => batch ≠ [] ∧ left ≤ queue.length
  | .sizing _ => queue ≠ []
  | _ => True

structure Conserves (s : Wrapper β) : Prop where
  all : s.calls.flatten ++ s.putLoop.batch ++ s.putQueueArgsQueue = s.sent
  calls : ∀ call ∈ s.calls, call ≠ []
  pending : Pending s.putQueueArgsQueue s.putLoop

theorem pending_concat {queue : List (Args β)} {l : PutLoop β} (h : Pending queue l)
    (args : Args β) : Pending (queue ++ [args]) l := by
  cases l with
  | filling batch left => exact ⟨h.1, by rw [List.length_append]; have := h.2; omega⟩
  | sizing args => simp [Pending]
  | idle | first args => trivial

theorem Conserves.step {a : Action β} (h : Conserves s) (hstep : step base s a = some s') :
    Conserves s' := by
  cases a with
  | addRequest r server =>
    cases hstep
    exact ⟨h.all, h.calls, h.pending⟩
  | send r msg =>
    simp only [Wrapper.step] at hstep
    split at hstep
    · cases hstep
    · split at hstep <;> cases hstep
      · exact ⟨h.all, h.calls, h.pending⟩
      · refine ⟨?_, h.calls, pending_concat h.pending _⟩
        rw [← h.all]
        simp
  | drop rs =>
    simp only [Wrapper.step] at hstep
    split at hstep <;> cases hstep
    exact ⟨h.all, h.calls, h.pending⟩
  | get =>
    have hall := h.all
    have hpending := h.pending
    simp only [Wrapper.step] at hstep
    split at hstep <;> cases hstep
    · rename_i hloop hqueue
      rw [hloop, hqueue] at hall
      exact ⟨by simpa [PutLoop.batch] using hall, h.calls, trivial⟩
    · rename_i hloop hqueue
      rw [hloop, hqueue] at hall hpending
      refine ⟨by simpa [PutLoop.batch] using hall, h.calls, by simp, ?_⟩
      exact Nat.le_of_succ_le_succ hpending.2
  | qsize =>
    have hall := h.all
    have hpending := h.pending
    simp only [Wrapper.step] at hstep
    split at hstep <;> cases hstep
    · rename_i hloop
      rw [hloop] at hall
      split
      · exact ⟨hall, h.calls, by simp [Pending]⟩
      · rename_i hne
        exact ⟨hall, h.calls, hne⟩
    · rename_i hloop
      rw [hloop] at hall
      exact ⟨hall, h.calls, by simp [Pending]⟩
  | flush =>
    have hall := h.all
    have hpending := h.pending
    simp only [Wrapper.step] at hstep
    split at hstep <;> cases hstep
    rename_i hloop
    rw [hloop] at hall hpending
    refine ⟨by simpa [PutLoop.batch] using hall, fun call hcall => ?_, trivial⟩
    rcases List.mem_append.mp hcall with hold | hnew
    · exact h.calls call hold
    · cases List.mem_singleton.mp hnew
      exact hpending.1

theorem handed_eq (call : List (Args β)) (v : String) :
    ((Backend.bladellm.putRequestOutputsToServer call).1.get? v).getD [] =
      (call.filter (·.2.serverId = v)).map (Backend.bladellm.payload ·.1) := by
  rw [putRequestOutputsToServer_eq, byServer_fst, List.map_map, Dict.getD_group,
    List.filter_map, List.map_map]
  rfl

theorem handedTo_eq (s : Wrapper β) (v : String) :
    s.handedTo v =
      (s.calls.flatten.filter (·.2.serverId = v)).map (Backend.bladellm.payload ·.1) := by
  unfold handedTo
  induction s.calls with
  | nil => rfl
  | cons call calls ih =>
    rw [List.flatMap_cons, ih, handed_eq, List.flatten_cons, List.filter_append, List.map_append]

/-! ### Progress -/

def threadOnly : Action β → Prop
  | .get | .qsize | .flush => True
  | _ => False

theorem run_fill (batch : List (Args β)) (s : Wrapper β) (left : ℕ)
    (hloop : s.putLoop = .filling batch left) (hleft : left ≤ s.putQueueArgsQueue.length) :
    run (step base) s (List.replicate left .get ++ [.flush]) = some { s with
      putLoop := .idle
      putQueueArgsQueue := s.putQueueArgsQueue.drop left
      calls := s.calls ++ [batch ++ s.putQueueArgsQueue.take left] } := by
  induction left generalizing s batch with
  | zero => simp [run, step, hloop]
  | succ left ih =>
    cases hqueue : s.putQueueArgsQueue with
    | nil => simp [hqueue] at hleft
    | cons args queue =>
      have hget : step base s .get = some { s with
          putLoop := .filling (batch ++ [args]) left, putQueueArgsQueue := queue } := by
        simp [step, hloop, hqueue]
      rw [List.replicate_succ, List.cons_append, run, hget, Option.bind_some]
      rw [hqueue] at hleft
      rw [ih (batch ++ [args]) _ rfl (by simpa using hleft)]
      simp

/-- The thread comes to the next wait by itself. -/
def Settles (base : BaseLoop) (s : Wrapper β) : Prop :=
  ∃ as s', (∀ a ∈ as, threadOnly a) ∧ run (step base) s as = some s' ∧ s'.putLoop = .idle ∧
    s'.sent = s.sent ∧ s'.putQueueArgsQueue.length ≤ s.putQueueArgsQueue.length

theorem Settles.of_qsize (h : Settles base s') (hstep : step base s .qsize = some s')
    (hsent : s'.sent = s.sent) (hqueue : s'.putQueueArgsQueue = s.putQueueArgsQueue) :
    Settles base s := by
  obtain ⟨as, u, has, hrun, hidle, hsent', hlen⟩ := h
  refine ⟨.qsize :: as, u, List.forall_mem_cons.mpr ⟨trivial, has⟩, ?_, hidle, hsent'.trans hsent,
    hqueue ▸ hlen⟩
  rw [run, hstep]
  exact hrun

theorem settles_filling {batch : List (Args β)} {left : ℕ} (hloop : s.putLoop = .filling batch left)
    (hleft : left ≤ s.putQueueArgsQueue.length) : Settles base s := by
  refine ⟨_, _, ?_, run_fill batch s left hloop hleft, rfl, rfl, by simp⟩
  intro a ha
  rcases List.mem_append.mp ha with ha | ha
  · rw [List.eq_of_mem_replicate ha]
    trivial
  · rw [List.mem_singleton.mp ha]
    trivial

theorem settles_sizing {args : Args β} (hloop : s.putLoop = .sizing args) : Settles base s := by
  have hnext : Settles base { s with putLoop := .filling [args] s.putQueueArgsQueue.length } :=
    settles_filling rfl (Nat.le_refl _)
  exact hnext.of_qsize (by simp only [step, hloop]) rfl rfl

theorem Conserves.settles (h : Conserves s) (base : BaseLoop) : Settles base s := by
  cases hloop : s.putLoop with
  | idle => exact ⟨[], s, by simp, rfl, hloop, rfl, Nat.le_refl _⟩
  | filling batch left =>
    have hpending := h.pending
    rw [hloop] at hpending
    exact settles_filling hloop hpending.2
  | sizing args => exact settles_sizing hloop
  | first args =>
    by_cases hempty : s.putQueueArgsQueue = []
    · have hnext : Settles base { s with putLoop := .filling [args] 0 } :=
        settles_filling rfl (Nat.zero_le _)
      exact hnext.of_qsize (by simp only [Wrapper.step, hloop, if_pos hempty]) rfl rfl
    · have hnext : Settles base { s with putLoop := .sizing args } := settles_sizing rfl
      exact hnext.of_qsize (by simp only [Wrapper.step, hloop, if_neg hempty]) rfl rfl

/-- The thread works off everything by itself. -/
theorem exists_drained (base : BaseLoop) (h : Conserves s) :
    ∃ as s', (∀ a ∈ as, threadOnly a) ∧ run (step base) s as = some s' ∧
      s'.calls.flatten = s.sent := by
  induction hn : s.putQueueArgsQueue.length using Nat.strong_induction_on generalizing s with
  | _ n ih =>
    obtain ⟨as, u, has, hrun, hidle, hsent, hlen⟩ := h.settles base
    have hu := run_invariant (fun _ _ _ h _ hstep => h.step hstep) h meets_true hrun
    match hqueue : u.putQueueArgsQueue with
    | [] =>
      refine ⟨as, u, has, hrun, ?_⟩
      have hall := hu.all
      rw [hidle, hqueue, List.append_nil, hsent] at hall
      simpa [PutLoop.batch] using hall
    | args :: queue =>
      have hget : step base u .get = some { u with
          putLoop := .first args, putQueueArgsQueue := queue } := by
        simp [step, hidle, hqueue]
      rw [hqueue, List.length_cons] at hlen
      obtain ⟨bs, s', hbs, hrun', hall⟩ := ih queue.length (by omega) (hu.step hget) rfl
      refine ⟨as ++ .get :: bs, s', ?_, ?_, hall.trans hsent⟩
      · intro a ha
        rcases List.mem_append.mp ha with ha | ha
        · exact has a ha
        · rcases List.mem_cons.mp ha with rfl | ha
          · trivial
          · exact hbs a ha
      · rw [run_append, hrun, Option.bind_some, run, hget]
        exact hrun'

/-- Every server is handed its responses once and in order; those that are missing come without any
further help of the engine, even if it has crashed. -/
theorem responses_conserved {s : Wrapper β} {as : List (Action β)}
    (hrun : run (step base) ({} : Wrapper β) as = some s) :
    (∀ call ∈ s.calls, call ≠ []) ∧
    (∀ v, s.handedTo v <+:
      (s.sent.filter (·.2.serverId = v)).map (Backend.bladellm.payload ·.1)) ∧
    ∃ bs s', (∀ a ∈ bs, threadOnly a) ∧ run (step base) s bs = some s' ∧
      ∀ v, s'.handedTo v =
        (s.sent.filter (·.2.serverId = v)).map (Backend.bladellm.payload ·.1) := by
  have hinit : Conserves ({} : Wrapper β) := ⟨rfl, by simp, trivial⟩
  have hs := run_invariant (fun _ _ _ h _ hstep => h.step hstep) hinit meets_true hrun
  refine ⟨hs.calls, fun v => ?_, ?_⟩
  · rw [handedTo_eq, ← hs.all, List.append_assoc, List.filter_append, List.map_append]
    exact List.prefix_append _ _
  · obtain ⟨bs, s', hbs, hrun', hall⟩ := exists_drained base hs
    exact ⟨bs, s', hbs, hrun', fun v => by rw [handedTo_eq, hall]⟩

def lettingThrough : BaseLoop := ⟨false⟩

/-- The second response comes between the two calls of `qsize`. -/
def overlapping : List (Action String) :=
  [.addRequest 1 ⟨"v"⟩, .addRequest 2 ⟨"w"⟩, .send 1 ⟨"x", false⟩, .get, .send 2 ⟨"y", true⟩,
    .qsize, .send 1 ⟨"z", true⟩, .qsize, .get, .get, .flush]

theorem responses_conserved_overlapping : ∃ s,
    run (step lettingThrough) ({} : Wrapper String) overlapping = some s ∧
    s.calls.map List.length = [3] ∧ s.handedTo "v" = [.pair "1" "x", .pair "1" "z"] ∧
      s.handedTo "v" <+: (s.sent.filter (·.2.serverId = "v")).map (Backend.bladellm.payload ·.1) :=
  ⟨_, rfl, rfl, rfl, (@responses_conserved String lettingThrough _ overlapping rfl).2.1 "v"⟩

end Thread

/-! ### Crashes -/

end Wrapper

namespace Action

def uses : Action β → List ℕ
  | .send r _ => [r]
  | .drop rs => rs
  | _ => []

def Adds (r : ℕ) (a : Action β) : Prop := ∃ server, a = .addRequest r server

def Closes (r : ℕ) : Action β → Prop
  | .send r' msg => r' = r ∧ msg.isFinished = true
  | .drop rs => r ∈ rs
  | _ => False

end Action

/-- The request has been added, and since then it has neither finished nor been dropped. -/
def Open (r : ℕ) : List (Action β) → Prop := Since (Action.Adds r) (Action.Closes r)

theorem dropRequests_ok {d : Dict ℕ ServerInfo} {rs : List ℕ} :
    (dropRequests d rs).2 = true ↔ rs.Nodup ∧ ∀ r ∈ rs, r ∈ d := by
  induction rs generalizing d with
  | nil => simp [dropRequests]
  | cons r rs ih =>
    unfold dropRequests
    split
    · rename_i hr
      rw [ih, List.nodup_cons, List.forall_mem_cons]
      simp only [Dict.mem_erase]
      constructor
      · rintro ⟨hnodup, hall⟩
        exact ⟨⟨fun hmem => (hall r hmem).1 rfl, hnodup⟩, hr, fun q hq => (hall q hq).2⟩
      · rintro ⟨⟨hnot, hnodup⟩, -, hall⟩
        exact ⟨hnodup, fun q hq => ⟨fun heq => hnot (heq ▸ hq), hall q hq⟩⟩
    · rename_i hr
      simp [hr]

theorem mem_dropRequests {d : Dict ℕ ServerInfo} {rs : List ℕ} {q : ℕ}
    (h : (dropRequests d rs).2 = true) : q ∈ (dropRequests d rs).1 ↔ q ∈ d ∧ q ∉ rs := by
  induction rs generalizing d with
  | nil => simp [dropRequests]
  | cons r rs ih =>
    unfold dropRequests at h ⊢
    split
    · rename_i hr
      rw [if_pos hr] at h
      rw [ih h, Dict.mem_erase, List.mem_cons]
      tauto
    · rename_i hr
      rw [if_neg hr] at h
      cases h

namespace Wrapper
variable {base : BaseLoop} {s s' : Wrapper β} {a : Action β} {as : List (Action β)}

theorem crashed_of_crashed (h : s.crashed = true) (hstep : step base s a = some s') :
    s'.crashed = true := by
  cases a with
  | send r msg | drop rs => simp [step, h] at hstep
  | addRequest r server =>
    cases hstep
    exact h
  | get | qsize | flush =>
    simp only [step] at hstep
    split at hstep <;> cases hstep <;> exact h

theorem crashed_step (hbase : base.LetsThrough) (h : s.crashed = false)
    (hstep : step base s a = some s') :
    s'.crashed = false ↔ a.uses.Nodup ∧ ∀ r ∈ a.uses, r ∈ s.requestServerMap := by
  unfold BaseLoop.LetsThrough at hbase
  cases a with
  | addRequest r server =>
    cases hstep
    simp [Action.uses, h]
  | send r msg =>
    simp only [step, h, Bool.false_eq_true, if_false] at hstep
    split at hstep
    · rename_i hnone
      cases hstep
      simp [Action.uses, Dict.get?_eq_none.mp hnone, hbase]
    · rename_i server hsome
      cases hstep
      simp [Action.uses, Dict.mem_of_get? hsome]
  | drop rs =>
    simp only [step, h, Bool.false_eq_true, if_false] at hstep
    cases hstep
    simp only [Action.uses, hbase, Bool.not_false, Bool.and_true, Bool.not_eq_eq_eq_not]
    exact dropRequests_ok
  | get | qsize | flush =>
    simp only [step] at hstep
    split at hstep <;> cases hstep <;> simp [Action.uses, h]

theorem mem_map_step (hbase : base.LetsThrough) (h : s.crashed = false)
    (hstep : step base s a = some s') (h' : s'.crashed = false) (r : ℕ) : r ∈ s'.requestServerMap ↔
      a.Adds r ∨ r ∈ s.requestServerMap ∧ ¬a.Closes r := by
  unfold BaseLoop.LetsThrough at hbase
  cases a with
  | addRequest q server =>
    cases hstep
    simp [Action.Adds, Action.Closes, eq_comm]
  | send q msg =>
    simp only [step, h, Bool.false_eq_true, if_false] at hstep
    split at hstep <;> cases hstep
    · simp [hbase] at h'
    · simp only [Action.Adds, Action.Closes]
      by_cases hfinished : msg.isFinished = true
      · simp [hfinished, and_comm, eq_comm]
      · simp [hfinished]
  | drop rs =>
    simp only [step, h, Bool.false_eq_true, if_false] at hstep
    cases hstep
    have hok : (dropRequests s.requestServerMap rs).2 = true := by simpa [hbase] using h'
    simp [Action.Adds, Action.Closes, mem_dropRequests hok]
  | get | qsize | flush =>
    simp only [step] at hstep
    split at hstep <;> cases hstep <;> simp [Action.Adds, Action.Closes]

theorem mem_map_iff_open (hbase : base.LetsThrough)
    (hrun : run (step base) ({} : Wrapper β) as = some s) (h : s.crashed = false) (r : ℕ) :
    r ∈ s.requestServerMap ↔ Open r as := by
  induction as using List.reverseRecOn generalizing s with
  | nil =>
    cases hrun
    simp [Open, Since]
  | append_singleton as a ih =>
    obtain ⟨u, hu, hstep⟩ := run_concat hrun
    have hrunning : u.crashed = false := by
      cases hc : u.crashed with
      | false => rfl
      | true => simp [crashed_of_crashed hc hstep] at h
    rw [mem_map_step hbase hrunning hstep h, ih hu hrunning]
    exact since_concat.symm

/-- The engine keeps running if and only if every response and every drop is for a request that has
been added and has neither finished nor been dropped: one late drop takes all requests of the
instance with it. -/
theorem loop_survives_iff (hbase : base.LetsThrough)
    (hrun : run (step base) ({} : Wrapper β) as = some s) :
    s.crashed = false ↔ ∀ xs a ys, as = xs ++ a :: ys → a.uses.Nodup ∧ ∀ r ∈ a.uses, Open r xs := by
  induction as using List.reverseRecOn generalizing s with
  | nil =>
    cases hrun
    simp
  | append_singleton as a ih =>
    obtain ⟨u, hu, hstep⟩ := run_concat hrun
    rw [forall_cut_concat (C := fun xs (a : Action β) => a.uses.Nodup ∧ ∀ r ∈ a.uses, Open r xs),
      ← ih hu]
    cases hc : u.crashed with
    | true => simp [crashed_of_crashed hc hstep]
    | false =>
      rw [crashed_step hbase hc hstep]
      simp only [mem_map_iff_open hbase hu hc, true_and]

/-- The client gives up just when the last response has been sent. -/
theorem loop_survives_iff_late : ∃ s, run (step lettingThrough) ({} : Wrapper String)
    [.addRequest 1 ⟨"v"⟩, .send 1 ⟨"x", true⟩, .drop [1]] = some s ∧ s.crashed = true := by
  refine ⟨_, rfl, ?_⟩
  rw [← Bool.not_eq_false, @loop_survives_iff String lettingThrough _
    [.addRequest 1 ⟨"v"⟩, .send 1 ⟨"x", true⟩, .drop [1]] rfl rfl]
  intro h
  have hopen : Open 1 ([.addRequest 1 ⟨"v"⟩] ++ [.send 1 ⟨"x", true⟩] : List (Action String)) :=
    (h _ (.drop [1]) [] rfl).2 1 List.mem_cons_self
  rcases since_concat.mp hopen with ⟨server, hadds⟩ | ⟨-, hnot⟩
  · cases hadds
  · exact hnot ⟨rfl, rfl⟩

end Wrapper
end Llumnix.Output.BackQueue
