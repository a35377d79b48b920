import Llumnix.Coroutine.Basic

/-! Changes of the world that a coroutine does not see: it runs in the changed world as it does in
the other. -/
namespace Coroutine

variable {W C : Type} {R : C → Type} {ε α β : Type}

namespace Prog

/-- No read of the coroutine tells `g w` from `w`; its calls satisfy `K` and its writes `F`. -/
def Blind (g : W → W) (K : C → Prop) (F : (W → W) → Prop) : Prog W C R ε α → Prop
  | .ret _ | .raise _ => True
  | .read k => ∀ w, k (g w) = k w ∧ (k w).Blind g K F
  | .write f k => F f ∧ k.Blind g K F
  | .await c k => K c ∧ ∀ r, (k r).Blind g K F
  | .gather cs k => (∀ c ∈ cs, K c) ∧ k.Blind g K F
  | .join _ k => k.Blind g K F

variable {g : W → W} {K : C → Prop} {F : (W → W) → Prop}

theorem blind_read {k : W → Prog W C R ε α} (hk : ∀ w, k (g w) = k w)
    (h : ∀ w, (k w).Blind g K F) : (Prog.read k).Blind g K F :=
  fun w => ⟨hk w, h w⟩

theorem blind_bind {p : Prog W C R ε α} {f : α → Prog W C R ε β} (hp : p.Blind g K F)
    (hf : ∀ a, (f a).Blind g K F) : (p.bind f).Blind g K F := by
  induction p with
  | ret a => exact hf a
  | raise e => trivial
  | read k ih => exact fun w => ⟨congrArg (·.bind f) (hp w).1, ih w (hp w).2⟩
  | write h k ih => exact ⟨hp.1, ih hp.2⟩
  | await c k ih => exact ⟨hp.1, fun r => ih r (hp.2 r)⟩
  | gather cs k ih => exact ⟨hp.1, ih hp.2⟩
  | join cs k ih => exact ih hp

theorem blind_call {c : C} (hc : K c) : (call c : Prog W C R ε (R c)).Blind g K F := by
  refine ⟨hc, fun r => ?_⟩
  cases r <;> trivial

theorem Blind.mono {K' : C → Prop} {F' : (W → W) → Prop} {p : Prog W C R ε α}
    (hp : p.Blind g K F) (hK : ∀ c, K c → K' c) (hF : ∀ f, F f → F' f) : p.Blind g K' F' := by
  induction p with
  | ret a => trivial
  | raise e => trivial
  | read k ih => exact fun w => ⟨(hp w).1, ih w (hp w).2⟩
  | write h k ih => exact ⟨hF h hp.1, ih hp.2⟩
  | await c k ih => exact ⟨hK c hp.1, fun r => ih r (hp.2 r)⟩
  | gather cs k ih => exact ⟨fun c hc => hK c (hp.1 c hc), ih hp.2⟩
  | join cs k ih => exact ih hp

end Prog

/-- The world does with `g w` what it does with `w`. -/
structure Host.Blind (S : Host W C R ε) (g : W → W) : Prop where
  issue : ∀ c w, S.issue c (g w) = g (S.issue c w)
  serve : ∀ c w r w', S.serve c w r w' → S.serve c (g w) r (g w')
  env : ∀ w w', S.env w w' → S.env (g w) (g w')

section Blind
variable {S : Host W C R ε} {g : W → W} {K : C → Prop} {F : (W → W) → Prop} {p p' : Prog W C R ε α}

theorem Host.Blind.issueAll (hS : S.Blind g) (cs : List C) (w : W) :
    S.issueAll cs (g w) = g (S.issueAll cs w) := by
  induction cs generalizing w with
  | nil => rfl
  | cons c cs ih =>
    change S.issueAll cs (S.issue c (g w)) = _
    rw [hS.issue, ih]
    rfl

theorem Prog.Blind.step {w w' : W} (hp : p.Blind g K F) (h : S.Step (p, w) (p', w')) :
    p'.Blind g K F := by
  cases h with
  | read k => exact (hp w).2
  | write f k => exact hp.2
  | await k hs => exact hp.2 _
  | gather cs k => exact hp.2
  | serve | join | env => exact hp

theorem Host.Blind.step (hS : S.Blind g) (hF : ∀ f, F f → ∀ w, f (g w) = g (f w)) {w w' : W}
    (hp : p.Blind g K F) (h : S.Step (p, w) (p', w')) : S.Step (p, g w) (p', g w') := by
  cases h with
  | read k =>
    have hstep := Host.Step.read (S := S) k (g w)
    rwa [(hp w).1] at hstep
  | write f k =>
    have hstep := Host.Step.write (S := S) f p' (g w)
    rwa [hF f hp.1 w] at hstep
  | await k hs =>
    refine .await k ?_
    rw [hS.issue]
    exact hS.serve _ _ _ _ hs
  | gather cs k =>
    have hstep := Host.Step.gather (S := S) cs k (g w)
    rwa [hS.issueAll] at hstep
  | serve as bs k hs => exact .serve as bs k (hS.serve _ _ _ _ hs)
  | join => exact .join _ _
  | env _ hsuspended he => exact .env _ hsuspended (hS.env _ _ he)

theorem Prog.Blind.reaches {w w' : W} (hp : p.Blind g K F) (h : S.Reaches (p, w) (p', w')) :
    p'.Blind g K F := by
  have key : ∀ c : Prog W C R ε α × W, S.Reaches (p, w) c → c.1.Blind g K F := by
    intro c hc
    induction hc with
    | refl => exact hp
    | tail _ hs ih => exact ih.step hs
  exact key _ h

theorem Host.Blind.reaches (hS : S.Blind g) (hF : ∀ f, F f → ∀ w, f (g w) = g (f w)) {w w' : W}
    (hp : p.Blind g K F) (h : S.Reaches (p, w) (p', w')) : S.Reaches (p, g w) (p', g w') := by
  have key : ∀ c : Prog W C R ε α × W, S.Reaches (p, w) c → S.Reaches (p, g w) (c.1, g c.2) := by
    intro c hc
    induction hc with
    | refl => exact .refl
    | tail hbefore hs ih => exact ih.tail (hS.step hF (hp.reaches hbefore) hs)
  exact key _ h

end Blind
end Coroutine
