import Llumnix.Machine.Run
import Mathlib.Data.List.Perm.Basic

/-! Calls of an object over a network: every call is a message of its own, the server handles the
messages one after the other, and a caller waits for its reply or gives up. Messages and replies may
be lost and overtake each other. -/
namespace Rpc

open Machine

/-- An object that is called by requests of type `ρ` and also acts on its own. -/
structure Object (σ ρ π κ : Type) where
  /-- Whether a message is a request; one that is not ends the loop of the server. -/
  accepts : ρ → Bool
  handle : σ → ρ → π × σ
  act : σ → κ → Option σ

inductive Phase (π : Type)
  | waiting
  | returned (reply : π)
  | timedOut
  deriving DecidableEq

structure Call (ρ π : Type) where
  request : ρ
  phase : Phase π
  deriving DecidableEq

inductive Event (ρ π κ : Type)
  /-- `sender` is the number of the call, or `none` for a message of somebody else. -/
  | handled (sender : Option ℕ) (request : ρ) (reply : π)
  | acted (op : κ)

/-- `flying` are the messages that have not been received, `tasks` those that are received and not
handled, and `history` is what has happened to the object. -/
structure System (σ ρ π κ : Type) where
  object : σ
  running : Bool := true
  calls : List (Call ρ π) := []
  flying : List (Option ℕ × ρ) := []
  tasks : List (Option ℕ × ρ) := []
  replies : List (ℕ × π) := []
  history : List (Event ρ π κ) := []

inductive Action (ρ κ : Type)
  | call (request : ρ)
  | inject (message : ρ)
  | lose (i : ℕ)
  | receive (i : ℕ)
  | handle
  | reply (i : ℕ)
  | loseReply (i : ℕ)
  | timeout (k : ℕ)
  | act (op : κ)

variable {σ ρ π κ : Type}

/-- A reply comes too late for a caller that has given up. -/
def Call.take (reply : π) (c : Call ρ π) : Call ρ π :=
  match c.phase with
  | .waiting => { c with phase := .returned reply }
  | _ => c

namespace System

def step (O : Object σ ρ π κ) (s : System σ ρ π κ) : Action ρ κ → Option (System σ ρ π κ)
  | .call request =>
    some { s with
      calls := s.calls ++ [⟨request, .waiting⟩]
      flying := s.flying ++ [(some s.calls.length, request)] }
  | .inject message => some { s with flying := s.flying ++ [(none, message)] }
  | .lose i => if i < s.flying.length then some { s with flying := s.flying.eraseIdx i } else none
  | .receive i =>
    if s.running then
      s.flying[i]?.map fun m =>
        if O.accepts m.2 then { s with flying := s.flying.eraseIdx i, tasks := s.tasks ++ [m] }
        else { s with flying := s.flying.eraseIdx i, running := false }
    else none
  | .handle =>
    match s.tasks with
    | [] => none
    | m :: tasks =>
      let handled := O.handle s.object m.2
      some { s with
        object := handled.2
        tasks
        replies := s.replies ++ (m.1.map (·, handled.1)).toList
        history := s.history ++ [.handled m.1 m.2 handled.1] }
  | .reply i =>
    s.replies[i]?.map fun r =>
      { s with replies := s.replies.eraseIdx i, calls := s.calls.modify r.1 (Call.take r.2) }
  | .loseReply i =>
    if i < s.replies.length then some { s with replies := s.replies.eraseIdx i } else none
  | .timeout k =>
    match s.calls[k]? with
    | some ⟨request, .waiting⟩ => some { s with calls := s.calls.set k ⟨request, .timedOut⟩ }
    | _ => none
  | .act op =>
    (O.act s.object op).map fun object =>
      { s with object, history := s.history ++ [.acted op] }

end System

/-! ### The sequential object -/

/-- What the events do to the object when nothing is in between. A reply has to be the one that the
object gives. -/
def replay [DecidableEq π] (O : Object σ ρ π κ) (x : σ) : List (Event ρ π κ) → Option σ
  | [] => some x
  | .handled _ request reply :: events =>
    if (O.handle x request).1 = reply then replay O (O.handle x request).2 events else none
  | .acted op :: events => (O.act x op).bind fun x => replay O x events

section Replay
variable [DecidableEq π] {O : Object σ ρ π κ} {x y : σ}

theorem replay_append {xs : List (Event ρ π κ)} (h : replay O x xs = some y)
    (ys : List (Event ρ π κ)) : replay O x (xs ++ ys) = replay O y ys := by
  induction xs generalizing x with
  | nil =>
    cases h
    rfl
  | cons e xs ih =>
    cases e with
    | handled sender request reply =>
      simp only [replay] at h
      split at h
      · rename_i hreply
        rw [List.cons_append, replay, if_pos hreply]
        exact ih h
      · cases h
    | acted op =>
      obtain ⟨z, hz, h⟩ := Option.bind_eq_some_iff.mp h
      rw [List.cons_append, replay, hz]
      exact ih h

end Replay

/-- The handled requests of a call, with the replies. -/
def answers (k : ℕ) (history : List (Event ρ π κ)) : List (ρ × π) :=
  history.filterMap fun
    | .handled sender request reply => if sender = some k then some (request, reply) else none
    | .acted _ => none

@[simp] theorem answers_append (k : ℕ) (xs ys : List (Event ρ π κ)) :
    answers k (xs ++ ys) = answers k xs ++ answers k ys :=
  List.filterMap_append

@[simp] theorem answers_acted (k : ℕ) (op : κ) :
    answers k ([.acted op] : List (Event ρ π κ)) = [] := rfl

theorem answers_handled (k : ℕ) (sender : Option ℕ) (request : ρ) (reply : π) :
    answers k ([.handled sender request reply] : List (Event ρ π κ)) =
      if sender = some k then [(request, reply)] else [] := by
  unfold answers
  split <;> simp [*]

/-- The requests among the messages that are of a call. -/
def sent (k : ℕ) (ms : List (Option ℕ × ρ)) : List ρ :=
  ms.filterMap fun m => if m.1 = some k then some m.2 else none

@[simp] theorem sent_append (k : ℕ) (xs ys : List (Option ℕ × ρ)) :
    sent k (xs ++ ys) = sent k xs ++ sent k ys :=
  List.filterMap_append

theorem sent_singleton (k : ℕ) (m : Option ℕ × ρ) :
    sent k [m] = if m.1 = some k then [m.2] else [] := by
  unfold sent
  split <;> simp [*]

theorem sent_eraseIdx {ms : List (Option ℕ × ρ)} {i : ℕ} {m : Option ℕ × ρ}
    (h : ms[i]? = some m) (k : ℕ) : (sent k ms).Perm (sent k [m] ++ sent k (ms.eraseIdx i)) := by
  obtain ⟨hi, rfl⟩ := List.getElem?_eq_some_iff.mp h
  rw [← sent_append]
  exact ((List.getElem_cons_eraseIdx_perm hi).filterMap _).symm

end Rpc
