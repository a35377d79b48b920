import Mathlib.Data.Nat.Notation
import Mathlib.Logic.Relation

/-! Coroutines of a cooperative scheduler over a shared world. A coroutine runs
atomically between its suspension points; the environment moves only while it is
suspended on an awaited call, on a gathered batch of calls, or has ended. -/
namespace Coroutine

/-- `read` and `write` touch the world without suspending. `await` resumes with the reply of one
call. `gather` issues a batch and resumes once all replies are in; `join` is its suspended form
with the calls still open. -/
inductive Prog (W C : Type) (R : C → Type) (ε α : Type) : Type
  | ret (a : α)
  | raise (e : ε)
  | read (k : W → Prog W C R ε α)
  | write (f : W → W) (k : Prog W C R ε α)
  | await (c : C) (k : Except ε (R c) → Prog W C R ε α)
  | gather (cs : List C) (k : Prog W C R ε α)
  | join (cs : List C) (k : Prog W C R ε α)

/-- What the world does with calls. `issue` is the sending of a call, `serve` the moment
it takes effect (or fails) and its reply is fixed, `env` an unrelated move. -/
structure Host (W C : Type) (R : C → Type) (ε : Type) where
  issue : C → W → W
  serve : (c : C) → W → Except ε (R c) → W → Prop
  env : W → W → Prop

variable {W C : Type} {R : C → Type} {ε α β : Type}

namespace Prog

def bind : Prog W C R ε α → (α → Prog W C R ε β) → Prog W C R ε β
  | .ret a, f => f a
  | .raise e, _ => .raise e
  | .read k, f => .read fun w => (k w).bind f
  | .write g k, f => .write g (k.bind f)
  | .await c k, f => .await c fun r => (k r).bind f
  | .gather cs k, f => .gather cs (k.bind f)
  | .join cs k, f => .join cs (k.bind f)

/-- `try p except e: h e`. -/
def tryCatch : Prog W C R ε α → (ε → Prog W C R ε α) → Prog W C R ε α
  | .ret a, _ => .ret a
  | .raise e, h => h e
  | .read k, h => .read fun w => (k w).tryCatch h
  | .write g k, h => .write g (k.tryCatch h)
  | .await c k, h => .await c fun r => (k r).tryCatch h
  | .gather cs k, h => .gather cs (k.tryCatch h)
  | .join cs k, h => .join cs (k.tryCatch h)

instance : Monad (Prog W C R ε) where
  pure := .ret
  bind := .bind

/-- `await c`, raising the exception the call failed with. -/
def call (c : C) : Prog W C R ε (R c) :=
  .await c fun
    | .ok v => .ret v
    | .error e => .raise e

/-- `for b in bs: f b`. -/
def forEach (f : β → Prog W C R ε Unit) : List β → Prog W C R ε Unit
  | [] => .ret ()
  | b :: bs => (f b).bind fun _ => forEach f bs

/-- The points at which the scheduler may run something else. -/
def Suspended : Prog W C R ε α → Prop
  | .read _ | .write _ _ | .gather _ _ => False
  | _ => True

/-- Every call of the coroutine satisfies `K` and every write satisfies `F`; no batch is
open yet. -/
def Uses (K : C → Prop) (F : (W → W) → Prop) : Prog W C R ε α → Prop
  | .ret _ | .raise _ => True
  | .read k => ∀ w, (k w).Uses K F
  | .write f k => F f ∧ k.Uses K F
  | .await c k => K c ∧ ∀ r, (k r).Uses K F
  | .gather cs k => (∀ c ∈ cs, K c) ∧ k.Uses K F
  | .join _ _ => False

/-- As `Uses`, of a coroutine that may have a batch open. -/
def Within (K : C → Prop) (F : (W → W) → Prop) : Prog W C R ε α → Prop
  | .join cs k => (∀ c ∈ cs, K c) ∧ k.Uses K F
  | p => p.Uses K F

@[simp] theorem bind_eq (p : Prog W C R ε α) (f : α → Prog W C R ε β) : p >>= f = p.bind f := rfl

section Uses
variable {K : C → Prop} {F : (W → W) → Prop} {p : Prog W C R ε α}

theorem uses_bind {f : α → Prog W C R ε β} (hp : p.Uses K F) (hf : ∀ a, (f a).Uses K F) :
    (p.bind f).Uses K F := by
  induction p with
  | ret a => exact hf a
  | raise e => trivial
  | read k ih => exact fun w => ih w (hp w)
  | write g k ih => exact ⟨hp.1, ih hp.2⟩
  | await c k ih => exact ⟨hp.1, fun r => ih r (hp.2 r)⟩
  | gather cs k ih => exact ⟨hp.1, ih hp.2⟩
  | join cs k _ => exact hp

theorem Uses.mono {K' : C → Prop} {F' : (W → W) → Prop} (hp : p.Uses K F) (hK : ∀ c, K c → K' c)
    (hF : ∀ f, F f → F' f) : p.Uses K' F' := by
  induction p with
  | ret a => trivial
  | raise e => trivial
  | read k ih => exact fun w => ih w (hp w)
  | write g k ih => exact ⟨hF g hp.1, ih hp.2⟩
  | await c k ih => exact ⟨hK c hp.1, fun r => ih r (hp.2 r)⟩
  | gather cs k ih => exact ⟨fun c hc => hK c (hp.1 c hc), ih hp.2⟩
  | join cs k _ => exact hp

theorem uses_tryCatch {h : ε → Prog W C R ε α} (hp : p.Uses K F) (hh : ∀ e, (h e).Uses K F) :
    (p.tryCatch h).Uses K F := by
  induction p with
  | ret a => trivial
  | raise e => exact hh e
  | read k ih => exact fun w => ih w (hp w)
  | write g k ih => exact ⟨hp.1, ih hp.2⟩
  | await c k ih => exact ⟨hp.1, fun r => ih r (hp.2 r)⟩
  | gather cs k ih => exact ⟨hp.1, ih hp.2⟩
  | join cs k _ => exact hp

theorem uses_call {c : C} (hc : K c) :
    (call c : Prog W C R ε (R c)).Uses K F := by
  refine ⟨hc, fun r => ?_⟩
  cases r <;> trivial

theorem uses_forEach {f : β → Prog W C R ε Unit} (hf : ∀ b, (f b).Uses K F) (bs : List β) :
    (forEach f bs).Uses K F := by
  induction bs with
  | nil => trivial
  | cons b bs ih => exact uses_bind (hf b) fun _ => ih

theorem Uses.within (hp : p.Uses K F) : p.Within K F := by
  cases p with
  | join cs k => exact hp.elim
  | _ => exact hp

end Uses
end Prog

namespace Host
variable (S : Host W C R ε)

def issueAll (cs : List C) (w : W) : W := cs.foldl (fun w c => S.issue c w) w

def Envs : W → W → Prop := Relation.ReflTransGen S.env

variable {S} in
theorem Envs.keep {P : W → Prop} {w w' : W} (h : S.Envs w w')
    (henv : ∀ w w', P w → S.env w w' → P w') (hw : P w) : P w' := by
  induction h with
  | refl => exact hw
  | tail _ he ih => exact henv _ _ ih he

inductive Step : Prog W C R ε α × W → Prog W C R ε α × W → Prop
  | read (k : W → Prog W C R ε α) (w : W) : Step (.read k, w) (k w, w)
  | write (f : W → W) (k : Prog W C R ε α) (w : W) : Step (.write f k, w) (k, f w)
  | await {c : C} {r : Except ε (R c)} {w w' : W} (k : Except ε (R c) → Prog W C R ε α)
      (h : S.serve c (S.issue c w) r w') : Step (.await c k, w) (k r, w')
  | gather (cs : List C) (k : Prog W C R ε α) (w : W) :
      Step (.gather cs k, w) (.join cs k, S.issueAll cs w)
  | serve {c : C} {r : Except ε (R c)} {w w' : W} (as bs : List C) (k : Prog W C R ε α)
      (h : S.serve c w r w') : Step (.join (as ++ c :: bs) k, w) (.join (as ++ bs) k, w')
  | join (k : Prog W C R ε α) (w : W) : Step (.join [] k, w) (k, w)
  | env {w w' : W} (p : Prog W C R ε α) (hp : p.Suspended) (h : S.env w w') : Step (p, w) (p, w')

variable {S} in
theorem Step.within {K : C → Prop} {F : (W → W) → Prop} {p p' : Prog W C R ε α} {w w' : W}
    (h : S.Step (p, w) (p', w')) (hp : p.Within K F) : p'.Within K F := by
  cases h with
  | read k => exact (hp w).within
  | write f => exact hp.2.within
  | await k _ => exact (hp.2 _).within
  | gather cs k => exact hp
  | serve as bs k _ =>
    refine ⟨fun c hc => hp.1 c ?_, hp.2⟩
    simp only [List.mem_append, List.mem_cons] at hc ⊢
    exact hc.imp id .inr
  | join => exact hp.2.within
  | env _ _ _ => exact hp

/-- Configurations a coroutine passes through, the environment moving in between. -/
def Reaches : Prog W C R ε α × W → Prog W C R ε α × W → Prop := Relation.ReflTransGen S.Step

/-- The coroutine ends with a value or an uncaught exception in world `w'`. -/
def Ends (p : Prog W C R ε α) (w : W) : Except ε α → W → Prop
  | .ok a, w' => S.Reaches (p, w) (.ret a, w')
  | .error e, w' => S.Reaches (p, w) (.raise e, w')

end Host
end Coroutine
