import Llumnix.Coroutine.Replay
import Llumnix.Coroutine.Safe
import Mathlib.Logic.Function.Basic

/-! A coroutine at one part of a larger world, whose other parts the environment moves. -/
namespace Coroutine

/-- A world with a part for every index. -/
structure Parts (W ι V : Type) [DecidableEq ι] where
  get : W → ι → V
  set : ι → V → W → W
  get_set : ∀ i v w, get (set i v w) = Function.update (get w) i v
  set_get : ∀ i w, set i (get w i) w = w
  set_set : ∀ i v v' w, set i v' (set i v w) = set i v' w

variable {W ι V C : Type} [DecidableEq ι] {R : C → Type} {ε α : Type}

theorem Parts.get_set_self (P : Parts W ι V) (i : ι) (v : V) (w : W) :
    P.get (P.set i v w) i = v := by
  rw [P.get_set, Function.update_self]

theorem Parts.get_set_of_ne (P : Parts W ι V) {i j : ι} (h : j ≠ i) (v : V) (w : W) :
    P.get (P.set i v w) j = P.get w j := by
  rw [P.get_set, Function.update_of_ne h]

theorem Parts.keep_set (P : Parts W ι V) {i j : ι} {v : V} {w : W} {Q : V → Prop}
    (h : Q (P.get w j)) (hv : j = i → Q (P.get w i) → Q v) : Q (P.get (P.set i v w) j) := by
  by_cases hij : j = i
  · subst hij
    rw [P.get_set_self]
    exact hv rfl h
  · rwa [P.get_set_of_ne hij]

/-- The coroutine at part `i`. -/
def Prog.within (P : Parts W ι V) (i : ι) :
    Prog V C R ε α → Prog W (ι × C) (fun c => R c.2) ε α
  | .ret a => .ret a
  | .raise e => .raise e
  | .read k => .read fun w => (k (P.get w i)).within P i
  | .write f k => .write (fun w => P.set i (f (P.get w i)) w) (k.within P i)
  | .await c k => .await (i, c) fun r => (k r).within P i
  | .gather cs k => .gather (cs.map (Prod.mk i)) (k.within P i)
  | .join cs k => .join (cs.map (Prod.mk i)) (k.within P i)

/-- Calls are about one part, and any part may be moved. -/
def Host.parts (S : Host V C R ε) (P : Parts W ι V) : Host W (ι × C) (fun c => R c.2) ε where
  issue c w := P.set c.1 (S.issue c.2 (P.get w c.1)) w
  serve c w r w' := ∃ v, S.serve c.2 (P.get w c.1) r v ∧ w' = P.set c.1 v w
  env w w' := ∃ i v, S.env (P.get w i) v ∧ w' = P.set i v w

section Moves
variable {S : Host V C R ε} {P : Parts W ι V} {w w' : W}

theorem envs_get (h : (S.parts P).Envs w w') (i : ι) : S.Envs (P.get w i) (P.get w' i) := by
  induction h with
  | refl => exact .refl
  | tail _ he ih =>
    obtain ⟨j, v, hv, rfl⟩ := he
    by_cases hij : i = j
    · subst hij
      rw [P.get_set_self]
      exact ih.tail hv
    · rw [P.get_set_of_ne hij]
      exact ih

theorem issueAll_within (i : ι) (cs : List C) (w : W) :
    (S.parts P).issueAll (cs.map (Prod.mk i)) w = P.set i (S.issueAll cs (P.get w i)) w := by
  induction cs generalizing w with
  | nil => exact (P.set_get i w).symm
  | cons c cs ih =>
    refine (ih _).trans ?_
    change P.set i (S.issueAll cs (P.get (P.set i _ w) i)) (P.set i _ w) = _
    rw [P.get_set_self, P.set_set]
    rfl

end Moves

/-- What holds of the coroutine holds of it at part `i`, and `F` of the other parts is kept. -/
theorem Safe.within {S : Host V C R ε} {P : Parts W ι V} {i : ι} {I : V → Prop}
    {Q : Except ε α → V → Prop} {F : W → Prop} {p : Prog V C R ε α} {w : W}
    (h : Safe S I Q p (P.get w i)) (hF : F w)
    (henv : ∀ j v w, F w → S.env (P.get w j) v → F (P.set j v w))
    (hset : ∀ v w, F w → F (P.set i v w)) :
    Safe (S.parts P) (fun w => I (P.get w i) ∧ F w) (fun r w => Q r (P.get w i) ∧ F w)
      (p.within P i) w := by
  have hkeep : ∀ {w w'}, F w → (S.parts P).Envs w w' → F w' := by
    intro w w' hF he
    refine he.keep ?_ hF
    rintro w _ hF ⟨j, v, hv, rfl⟩
    exact henv j v w hF hv
  generalize hv : P.get w i = v at h
  induction h generalizing w with
  | ret h =>
    subst hv
    refine .ret fun w' he => ?_
    have hpart := h _ (envs_get he i)
    exact ⟨⟨hpart.1, hkeep hF he⟩, hpart.2, hkeep hF he⟩
  | raise h =>
    subst hv
    refine .raise fun w' he => ?_
    have hpart := h _ (envs_get he i)
    exact ⟨⟨hpart.1, hkeep hF he⟩, hpart.2, hkeep hF he⟩
  | read hi _ ih =>
    subst hv
    exact .read ⟨hi, hF⟩ (ih hF rfl)
  | write hi _ ih =>
    subst hv
    exact .write ⟨hi, hF⟩ (ih (hset _ _ hF) (P.get_set_self _ _ _))
  | await hi _ ih =>
    subst hv
    refine .await (fun w' he => ⟨hi _ (envs_get he i), hkeep hF he⟩) ?_
    rintro w' r _ he ⟨v', hs, rfl⟩
    change S.serve _ (P.get (P.set i _ w') i) r v' at hs
    rw [P.get_set_self] at hs
    refine ih _ r v' (envs_get he i) hs ?_ (P.get_set_self _ _ _)
    exact hset _ _ (hset _ _ (hkeep hF he))
  | gather hi _ ih =>
    subst hv
    refine .gather ⟨hi, hF⟩ ?_
    rw [issueAll_within]
    exact ih (hset _ _ hF) (P.get_set_self _ _ _)
  | @join cs k _ hi _ _ ihk ih =>
    subst hv
    refine .join (fun w' he => ⟨hi _ (envs_get he i), hkeep hF he⟩) ?_ ?_
    · intro hnil w' he
      exact ihk (List.map_eq_nil_iff.mp hnil) _ (envs_get he i) (hkeep hF he) rfl
    · rintro as c bs w' r _ hcs he ⟨v', hs, rfl⟩
      obtain ⟨as', rest, rfl, rfl, hrest⟩ := List.map_eq_append_iff.mp hcs
      obtain ⟨c', bs', rfl, rfl, rfl⟩ := List.map_eq_cons_iff.mp hrest
      have hstep := ih as' c' bs' _ r v' rfl (envs_get he i) hs (hset v' w' (hkeep hF he))
        (P.get_set_self _ _ _)
      rwa [Prog.within, List.map_append] at hstep

/-- What happens at part `i`, or in answer to its calls. -/
def Cue.within {S : Host V C R ε} (P : Parts W ι V) (i : ι) : Cue S → Cue (S.parts P)
  | .env move => .env fun w => (move (P.get w i)).map fun v => ⟨P.set i v.1 w, i, v.1, v.2, rfl⟩
  | .serve n answer => .serve n fun c w => (answer c.2 (P.get w c.1)).map fun x =>
      ⟨(x.1.1, P.set c.1 x.1.2 w), x.1.2, x.2, rfl⟩

end Coroutine
