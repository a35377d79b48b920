import Mathlib.Algebra.Ring.Nat
import Mathlib.Data.List.Basic
import Mathlib.Data.Nat.Notation

/-! A sender and a receiver with a channel from one to the other. The receiver also hands the sender
its work. However the two take their turns, they come to the end that they come to when the sender
does its work as soon as it has it. -/
namespace Machine

/-- Every run from here is finite, and where it cannot go on, `Q` holds. -/
inductive Completes {α : Type} (Step : α → α → Prop) (Q : α → Prop) : α → Prop
  | intro {s : α} (hend : (∀ s', ¬Step s s') → Q s)
      (hstep : ∀ s', Step s s' → Completes Step Q s') : Completes Step Q s

theorem Completes.mono {α : Type} {Step : α → α → Prop} {Q Q' : α → Prop} {s : α}
    (h : Completes Step Q s) (hQ : ∀ s, Q s → Q' s) : Completes Step Q' s := by
  induction h with
  | intro hend _ ih => exact .intro (fun hstuck => hQ _ (hend hstuck)) ih

variable {σ μ τ : Type}

inductive SendOp (σ μ : Type)
  | act (f : σ → σ)
  | send (out : σ → μ)

inductive RecvOp (σ μ τ : Type)
  | issue (ops : List (SendOp σ μ))
  | act (f : τ → τ)
  | recv (put : μ → τ → τ)

structure Link (σ μ τ : Type) where
  /-- What the sender has been handed and has not done. -/
  pending : List (SendOp σ μ)
  sender : σ
  queue : List μ
  rest : List (RecvOp σ μ τ)
  receiver : τ

namespace Link

/-- The sender goes on only if at most `ahead` of its messages wait in the channel: with `0`, a send
lasts until the message is received. -/
inductive Step (ahead : ℕ) : Link σ μ τ → Link σ μ τ → Prop
  | act {ops : List (SendOp σ μ)} {a : σ} {ms : List μ} {rest : List (RecvOp σ μ τ)} {b : τ}
      (f : σ → σ) (h : ms.length ≤ ahead) :
      Step ahead ⟨.act f :: ops, a, ms, rest, b⟩ ⟨ops, f a, ms, rest, b⟩
  | send {ops : List (SendOp σ μ)} {a : σ} {ms : List μ} {rest : List (RecvOp σ μ τ)} {b : τ}
      (out : σ → μ) (h : ms.length ≤ ahead) :
      Step ahead ⟨.send out :: ops, a, ms, rest, b⟩ ⟨ops, a, ms ++ [out a], rest, b⟩
  | issue {ops : List (SendOp σ μ)} {a : σ} {ms : List μ} {rest : List (RecvOp σ μ τ)} {b : τ}
      (more : List (SendOp σ μ)) :
      Step ahead ⟨ops, a, ms, .issue more :: rest, b⟩ ⟨ops ++ more, a, ms, rest, b⟩
  | work {ops : List (SendOp σ μ)} {a : σ} {ms : List μ} {rest : List (RecvOp σ μ τ)} {b : τ}
      (f : τ → τ) : Step ahead ⟨ops, a, ms, .act f :: rest, b⟩ ⟨ops, a, ms, rest, f b⟩
  | recv {ops : List (SendOp σ μ)} {a : σ} {m : μ} {ms : List μ} {rest : List (RecvOp σ μ τ)}
      {b : τ} (put : μ → τ → τ) :
      Step ahead ⟨ops, a, m :: ms, .recv put :: rest, b⟩ ⟨ops, a, ms, rest, put m b⟩

/-- The messages of some work, and the state of the sender after it. -/
def messages : List (SendOp σ μ) → σ → List μ
  | [], _ => []
  | .act f :: ops, a => messages ops (f a)
  | .send out :: ops, a => out a :: messages ops a

def after : List (SendOp σ μ) → σ → σ
  | [], a => a
  | .act f :: ops, a => after ops (f a)
  | .send _ :: ops, a => after ops a

/-- The receiver runs, and the sender does its work as soon as it is handed it. -/
def serve : List (RecvOp σ μ τ) → σ → List μ → τ → Option (σ × List μ × τ)
  | [], a, ms, b => some (a, ms, b)
  | .issue ops :: rest, a, ms, b => serve rest (after ops a) (ms ++ messages ops a) b
  | .act f :: rest, a, ms, b => serve rest a ms (f b)
  | .recv _ :: _, _, [], _ => none
  | .recv put :: rest, a, m :: ms, b => serve rest a ms (put m b)

def outcome (s : Link σ μ τ) : Option (σ × List μ × τ) :=
  serve s.rest (after s.pending s.sender) (s.queue ++ messages s.pending s.sender) s.receiver

theorem messages_append (ops ops' : List (SendOp σ μ)) (a : σ) :
    messages (ops ++ ops') a = messages ops a ++ messages ops' (after ops a) := by
  induction ops generalizing a with
  | nil => rfl
  | cons op ops ih =>
    cases op with
    | act f => exact ih (f a)
    | send out => exact congrArg (out a :: ·) (ih a)

theorem after_append (ops ops' : List (SendOp σ μ)) (a : σ) :
    after (ops ++ ops') a = after ops' (after ops a) := by
  induction ops generalizing a with
  | nil => rfl
  | cons op ops ih =>
    cases op with
    | act f => exact ih (f a)
    | send out => exact ih a

/-- A piece of the receiver's program takes the messages `ms`. -/
def Takes (ops : List (RecvOp σ μ τ)) (ms : List μ) (b b' : τ) : Prop :=
  ∀ a rest ms', serve (ops ++ rest) a (ms ++ ms') b = serve rest a ms' b'

section Takes
variable {ops ops' : List (RecvOp σ μ τ)} {ms ms' : List μ} {b b' b'' : τ}

theorem takes_nil (b : τ) : Takes ([] : List (RecvOp σ μ τ)) [] b b := fun _ _ _ => rfl

theorem takes_act (f : τ → τ) (b : τ) : Takes [(.act f : RecvOp σ μ τ)] [] b (f b) :=
  fun _ _ _ => rfl

theorem takes_recv (put : μ → τ → τ) (m : μ) (b : τ) :
    Takes [(.recv put : RecvOp σ μ τ)] [m] b (put m b) :=
  fun _ _ _ => rfl

theorem Takes.append (h : Takes ops ms b b') (h' : Takes ops' ms' b' b'') :
    Takes (ops ++ ops') (ms ++ ms') b b'' := by
  intro a rest ms''
  rw [List.append_assoc, List.append_assoc, h, h']

end Takes

variable {ahead : ℕ} {s s' : Link σ μ τ}

theorem outcome_step (h : Step ahead s s') : s'.outcome = s.outcome := by
  cases h with
  | act f _ => rfl
  | send out _ => simp [outcome, messages, after]
  | issue more => simp [outcome, serve, messages_append, after_append]
  | work f => rfl
  | recv put => rfl

def size (s : Link σ μ τ) : ℕ :=
  s.pending.length + (s.rest.map fun | .issue ops => ops.length + 1 | _ => 1).sum

theorem size_step (h : Step ahead s s') : s'.size < s.size := by
  cases h <;> simp only [size, List.length_cons, List.length_append, List.map_cons,
    List.sum_cons] <;> omega

/-- If no message is missing and none is left over, something can be done until all is done: a
receiver that waits has handed out the work that ends its wait. -/
theorem step_or_ended {a : σ} {b : τ} (h : s.outcome = some (a, [], b)) :
    (∃ s', Step ahead s s') ∨ s = ⟨[], a, [], [], b⟩ := by
  obtain ⟨ops, a₀, ms, rest, b₀⟩ := s
  have hsender : ms = [] → ops ≠ [] → ∃ s', Step ahead ⟨ops, a₀, ms, rest, b₀⟩ s' := by
    rintro rfl hops
    cases ops with
    | nil => exact absurd rfl hops
    | cons op ops =>
      cases op with
      | act f => exact ⟨_, .act f (Nat.zero_le ahead)⟩
      | send out => exact ⟨_, .send out (Nat.zero_le ahead)⟩
  cases rest with
  | nil =>
    simp only [outcome, serve, Option.some.injEq, Prod.mk.injEq, List.append_eq_nil_iff] at h
    obtain ⟨ha, ⟨rfl, -⟩, rfl⟩ := h
    cases ops with
    | nil => exact .inr (by rw [← ha]; rfl)
    | cons op ops => exact .inl (hsender rfl (List.cons_ne_nil op ops))
  | cons op rest =>
    left
    cases op with
    | issue more => exact ⟨_, .issue more⟩
    | act f => exact ⟨_, .work f⟩
    | recv put =>
      cases ms with
      | cons m ms => exact ⟨_, .recv put⟩
      | nil =>
        refine hsender rfl fun hops => ?_
        rw [hops] at h
        cases h

theorem completes {a : σ} {b : τ} (h : s.outcome = some (a, [], b)) :
    Completes (Step ahead) (· = ⟨[], a, [], [], b⟩) s := by
  generalize hn : s.size = n
  induction n using Nat.strongRecOn generalizing s with
  | ind n ih =>
    refine .intro (fun hstuck => ?_) fun s' hs' => ?_
    · exact (step_or_ended h).resolve_left fun ⟨s', hs'⟩ => hstuck s' hs'
    · exact ih s'.size (hn ▸ size_step hs') ((outcome_step hs').trans h) rfl

end Link
end Machine
