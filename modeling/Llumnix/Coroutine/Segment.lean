import Llumnix.Coroutine.Run

/-! What a coroutine does before it is first suspended: nothing else runs until then. -/
namespace Coroutine

variable {W C : Type} {R : C → Type} {ε α β : Type}

inductive Segment (W ε α : Type)
  | ended (r : Except ε α) (w : W)
  | suspended (w : W)

namespace Prog

def segment : Prog W C R ε α → W → Segment W ε α
  | .ret a, w => .ended (.ok a) w
  | .raise e, w => .ended (.error e) w
  | .read k, w => (k w).segment w
  | .write f k, w => k.segment (f w)
  | .await _ _, w | .gather _ _, w | .join _ _, w => .suspended w

variable {p : Prog W C R ε α} {w w' : W}

theorem segment_bind (p : Prog W C R ε α) (f : α → Prog W C R ε β) (w : W) :
    (p.bind f).segment w =
      match p.segment w with
      | .ended (.ok a) w' => (f a).segment w'
      | .ended (.error e) w' => .ended (.error e) w'
      | .suspended w' => .suspended w' := by
  induction p generalizing w with
  | ret a => rfl
  | raise e => rfl
  | read k ih => exact ih w w
  | write g k ih => exact ih (g w)
  | await c k _ => rfl
  | gather cs k _ => rfl
  | join cs k _ => rfl

theorem segment_tryCatch (p : Prog W C R ε α) (h : ε → Prog W C R ε α) (w : W) :
    (p.tryCatch h).segment w =
      match p.segment w with
      | .ended (.ok a) w' => .ended (.ok a) w'
      | .ended (.error e) w' => (h e).segment w'
      | .suspended w' => .suspended w' := by
  induction p generalizing w with
  | ret a => rfl
  | raise e => rfl
  | read k ih => exact ih w w
  | write g k ih => exact ih (g w)
  | await c k _ => rfl
  | gather cs k _ => rfl
  | join cs k _ => rfl

theorem runs_of_segment (S : Host W C R ε) {r : Except ε α}
    (h : p.segment w = .ended r w') : Runs S p w r w' := by
  induction p generalizing w with
  | ret a =>
    cases h
    exact .refl
  | raise e =>
    cases h
    exact .refl
  | read k ih => exact .head (.read k w) (ih w h)
  | write g k ih => exact .head (.write g k w) (ih h)
  | await c k _ => cases h
  | gather cs k _ => cases h
  | join cs k _ => cases h

end Prog
end Coroutine
