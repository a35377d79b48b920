import Llumnix.Coroutine.Basic

/-! Runs, composed the way coroutines are, and taken apart again. -/
namespace Coroutine

variable {W C : Type} {R : C → Type} {ε α β : Type}

/-- The environment does not move. -/
def Host.alone (S : Host W C R ε) : Host W C R ε := { S with env := fun _ _ => False }

namespace Prog

def ofExcept : Except ε α → Prog W C R ε α
  | .ok a => .ret a
  | .error e => .raise e

end Prog

/-- A run to the end, undisturbed. -/
def Runs (S : Host W C R ε) (p : Prog W C R ε α) (w : W) (r : Except ε α) (w' : W) : Prop :=
  S.alone.Reaches (p, w) (.ofExcept r, w')

section Alone
variable {S : Host W C R ε} {c c' : Prog W C R ε α × W}

theorem Host.Step.of_alone (h : S.alone.Step c c') : S.Step c c' := by
  cases h with
  | read k w => exact .read k w
  | write f k w => exact .write f k w
  | await k hs => exact .await k hs
  | gather cs k w => exact .gather cs k w
  | serve as bs k hs => exact .serve as bs k hs
  | join k w => exact .join k w
  | env _ _ he => exact he.elim

theorem reaches_alone_bind (f : α → Prog W C R ε β) (h : S.alone.Reaches c c') :
    S.alone.Reaches (c.1.bind f, c.2) (c'.1.bind f, c'.2) := by
  refine h.lift (fun c => (c.1.bind f, c.2)) fun c c' hs => ?_
  cases hs with
  | read k w => exact .read (fun w => (k w).bind f) w
  | write g k w => exact .write g (k.bind f) w
  | await k hs => exact .await (fun r => (k r).bind f) hs
  | gather cs k w => exact .gather cs (k.bind f) w
  | serve as bs k hs => exact .serve as bs (k.bind f) hs
  | join k w => exact .join (k.bind f) w
  | env _ _ he => exact he.elim

theorem reaches_alone_tryCatch (f : ε → Prog W C R ε α) (h : S.alone.Reaches c c') :
    S.alone.Reaches (c.1.tryCatch f, c.2) (c'.1.tryCatch f, c'.2) := by
  refine h.lift (fun c => (c.1.tryCatch f, c.2)) fun c c' hs => ?_
  cases hs with
  | read k w => exact .read (fun w => (k w).tryCatch f) w
  | write g k w => exact .write g (k.tryCatch f) w
  | await k hs => exact .await (fun r => (k r).tryCatch f) hs
  | gather cs k w => exact .gather cs (k.tryCatch f) w
  | serve as bs k hs => exact .serve as bs (k.tryCatch f) hs
  | join k w => exact .join (k.tryCatch f) w
  | env _ _ he => exact he.elim

end Alone

namespace Runs
variable {S : Host W C R ε} {k : Prog W C R ε α} {c : C} {r : Except ε α} {w w' w₁ : W}

theorem ends (h : Runs S k w r w') : S.Ends k w r w' := by
  have hreach : S.Reaches (k, w) (.ofExcept r, w') :=
    Relation.ReflTransGen.mono (fun _ _ => Host.Step.of_alone) _ _ h
  cases r with
  | ok a => exact hreach
  | error e => exact hreach

theorem ret (a : α) (w : W) : Runs S (.ret a) w (.ok a) w := .refl

theorem raise (e : ε) (w : W) : Runs S (.raise e : Prog W C R ε α) w (.error e) w := .refl

theorem read {k : W → Prog W C R ε α} (h : Runs S (k w) w r w') : Runs S (.read k) w r w' :=
  .head (.read k w) h

theorem write {f : W → W} (h : Runs S k (f w) r w') : Runs S (.write f k) w r w' :=
  .head (.write f k w) h

theorem gather {cs : List C} (h : Runs S (.join cs k) (S.issueAll cs w) r w') :
    Runs S (.gather cs k) w r w' :=
  .head (.gather cs k w) h

theorem serve (as bs : List C) {v : Except ε (R c)} (hs : S.serve c w v w₁)
    (h : Runs S (.join (as ++ bs) k) w₁ r w') : Runs S (.join (as ++ c :: bs) k) w r w' :=
  .head (.serve as bs k hs) h

theorem join (h : Runs S k w r w') : Runs S (.join [] k) w r w' :=
  .head (.join k w) h

theorem call {v : Except ε (R c)} (hs : S.serve c (S.issue c w) v w₁) :
    Runs S (Prog.call c) w v w₁ := by
  refine .head (.await _ hs) ?_
  cases v with
  | ok a => exact .refl
  | error e => exact .refl

theorem bind {p : Prog W C R ε β} {f : β → Prog W C R ε α} {v : Except ε β} (hp : Runs S p w v w₁)
    (hf : Runs S (match v with
      | .ok b => f b
      | .error e => .raise e) w₁ r w') : Runs S (p.bind f) w r w' := by
  refine (reaches_alone_bind f hp).trans ?_
  cases v with
  | ok b => exact hf
  | error e => exact hf

theorem tryCatch {p : Prog W C R ε α} {f : ε → Prog W C R ε α} {v : Except ε α}
    (hp : Runs S p w v w₁)
    (hf : Runs S (match v with
      | .ok a => .ret a
      | .error e => f e) w₁ r w') : Runs S (p.tryCatch f) w r w' := by
  refine (reaches_alone_tryCatch f hp).trans ?_
  cases v with
  | ok a => exact hf
  | error e => exact hf

end Runs

section Apart
variable {S : Host W C R ε}

theorem reaches_read {k : W → Prog W C R ε α} {w : W} {c : Prog W C R ε α × W}
    (h : S.Reaches (.read k, w) c) : c = (.read k, w) ∨ S.Reaches (k w, w) c := by
  rcases Relation.ReflTransGen.cases_head h with rfl | ⟨d, hd, hrest⟩
  · exact .inl rfl
  · cases hd with
    | read => exact .inr hrest
    | env _ hp _ => exact hp.elim

theorem reaches_write {f : W → W} {k : Prog W C R ε α} {w : W} {c : Prog W C R ε α × W}
    (h : S.Reaches (.write f k, w) c) : c = (.write f k, w) ∨ S.Reaches (k, f w) c := by
  rcases Relation.ReflTransGen.cases_head h with rfl | ⟨d, hd, hrest⟩
  · exact .inl rfl
  · cases hd with
    | write => exact .inr hrest
    | env _ hp _ => exact hp.elim

theorem step_bind {p : Prog W C R ε α} {f : α → Prog W C R ε β} {q : Prog W C R ε β} {w w' : W}
    (h : S.Step (p.bind f, w) (q, w')) :
    (∃ p', S.Step (p, w) (p', w') ∧ q = p'.bind f) ∨ ∃ a, p = .ret a := by
  cases p with
  | ret a => exact .inr ⟨a, rfl⟩
  | raise e =>
    cases h with
    | env _ hp he => exact .inl ⟨_, .env _ hp he, rfl⟩
  | read k =>
    cases h with
    | read => exact .inl ⟨_, .read k w, rfl⟩
    | env _ hp _ => exact hp.elim
  | write g k =>
    cases h with
    | write => exact .inl ⟨_, .write g k w, rfl⟩
    | env _ hp _ => exact hp.elim
  | await c k =>
    cases h with
    | await _ hs => exact .inl ⟨_, .await k hs, rfl⟩
    | env _ hp he => exact .inl ⟨_, .env _ trivial he, rfl⟩
  | gather cs k =>
    cases h with
    | gather => exact .inl ⟨_, .gather cs k w, rfl⟩
    | env _ hp _ => exact hp.elim
  | join cs k =>
    generalize hq : (Prog.join cs k).bind f = q' at h
    cases h with
    | serve as bs k' hs =>
      cases hq
      exact .inl ⟨_, .serve as bs k hs, rfl⟩
    | join =>
      cases hq
      exact .inl ⟨_, .join k w, rfl⟩
    | env _ hp he =>
      subst hq
      exact .inl ⟨_, .env _ trivial he, rfl⟩
    | _ => cases hq

theorem reaches_bind {p : Prog W C R ε α} {f : α → Prog W C R ε β} {q : Prog W C R ε β} {w w' : W}
    (h : S.Reaches (p.bind f, w) (q, w')) :
    (∃ p', S.Reaches (p, w) (p', w') ∧ q = p'.bind f) ∨
      ∃ a v, S.Reaches (p, w) (.ret a, v) ∧ S.Reaches (f a, v) (q, w') := by
  have key : ∀ c : Prog W C R ε β × W, S.Reaches (p.bind f, w) c →
      (∃ p', S.Reaches (p, w) (p', c.2) ∧ c.1 = p'.bind f) ∨
        ∃ a v, S.Reaches (p, w) (.ret a, v) ∧ S.Reaches (f a, v) c := by
    intro c hc
    induction hc with
    | refl => exact .inl ⟨p, .refl, rfl⟩
    | @tail c c' _ hs ih =>
      rcases ih with ⟨p', hp', hc'⟩ | ⟨a, v, hret, hrest⟩
      · obtain ⟨q', v⟩ := c
        dsimp only at hc'
        subst hc'
        rcases step_bind hs with ⟨p'', hstep, hq⟩ | ⟨a, rfl⟩
        · exact .inl ⟨p'', hp'.tail hstep, hq⟩
        · exact .inr ⟨a, v, hp', .single hs⟩
      · exact .inr ⟨a, v, hret, hrest.tail hs⟩
  exact key _ h

end Apart
end Coroutine
