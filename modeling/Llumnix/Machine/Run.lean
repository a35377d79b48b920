import Mathlib.Logic.Basic

/-! Runs of a machine given by a partial step function over actions. -/
namespace Machine

variable {σ α : Type} (step : σ → α → Option σ) {good fits : σ → α → Prop} {I L K : σ → Prop}

def run (s : σ) : List α → Option σ
  | [] => some s
  | a :: as => (step s a).bind fun s' => run s' as

/-- Every action is taken in a state in which `ok` allows it. -/
def Meets (ok : σ → α → Prop) (s : σ) : List α → Prop
  | [] => True
  | a :: as => ok s a ∧ ∀ s', step s a = some s' → Meets ok s' as

variable {step} {ok : σ → α → Prop} {s s' : σ} {as : List α}

theorem meets_cons_none {a : α} (h : step s a = none) : Meets step ok s (a :: as) ↔ ok s a := by
  simp [Meets, h]

theorem meets_cons_some {a : α} (h : step s a = some s') :
    Meets step ok s (a :: as) ↔ ok s a ∧ Meets step ok s' as := by
  simp [Meets, h]

instance Meets.decidable [∀ s a, Decidable (ok s a)] :
    (s : σ) → (as : List α) → Decidable (Meets step ok s as)
  | _, [] => isTrue trivial
  | s, a :: as =>
    match h : step s a with
    | none => decidable_of_iff _ (meets_cons_none h).symm
    | some s' =>
      have := Meets.decidable s' as
      decidable_of_iff _ (meets_cons_some h).symm

theorem meets_true : Meets step (fun _ _ => True) s as := by
  induction as generalizing s with
  | nil => trivial
  | cons a as ih => exact ⟨trivial, fun _ _ => ih⟩

theorem Meets.mono (h : Meets step ok s as) (himp : ∀ s a, ok s a → good s a) :
    Meets step good s as := by
  induction as generalizing s with
  | nil => trivial
  | cons a as ih => exact ⟨himp s a h.1, fun s' hs' => ih (h.2 s' hs')⟩

theorem Meets.and (h : Meets step ok s as) (h' : Meets step good s as) :
    Meets step (fun s a => ok s a ∧ good s a) s as := by
  induction as generalizing s with
  | nil => trivial
  | cons a as ih => exact ⟨⟨h.1, h'.1⟩, fun s' hs' => ih (h.2 s' hs') (h'.2 s' hs')⟩

theorem run_append (s : σ) (as bs : List α) :
    run step s (as ++ bs) = (run step s as).bind fun s' => run step s' bs := by
  induction as generalizing s with
  | nil => rfl
  | cons a as ih =>
    rw [List.cons_append, run, run, Option.bind_assoc]
    exact congrArg _ (funext ih)

theorem run_concat {a : α} (h : run step s (as ++ [a]) = some s') :
    ∃ t, run step s as = some t ∧ step t a = some s' := by
  rw [run_append] at h
  obtain ⟨t, ht, hlast⟩ := Option.bind_eq_some_iff.mp h
  obtain ⟨u, hu, hrest⟩ := Option.bind_eq_some_iff.mp hlast
  cases hrest
  exact ⟨t, ht, hu⟩

theorem ok_of_meets {a : α} {bs : List α} (h : Meets step ok s (as ++ a :: bs))
    (hrun : run step s as = some s') : ok s' a := by
  induction as generalizing s with
  | nil =>
    cases hrun
    exact h.1
  | cons b as ih =>
    obtain ⟨t, ht, hrun⟩ := Option.bind_eq_some_iff.mp hrun
    exact ih (h.2 t ht) hrun

theorem run_invariant (hstep : ∀ s a s', I s → ok s a → step s a = some s' → I s') (hs : I s)
    (hok : Meets step ok s as) (hrun : run step s as = some s') : I s' := by
  induction as generalizing s with
  | nil =>
    cases hrun
    exact hs
  | cons a as ih =>
    obtain ⟨ha, hrest⟩ := hok
    obtain ⟨t, ht, hrun⟩ := Option.bind_eq_some_iff.mp hrun
    exact ih (hstep s a t hs ha ht) (hrest t ht) hrun

theorem meets_iff (hstep : ∀ s a s', I s → fits s a → ok s a → step s a = some s' → I s')
    (hiff : ∀ s a, I s → fits s a → (ok s a ↔ good s a)) (hs : I s) (hfits : Meets step fits s as) :
    Meets step ok s as ↔ Meets step good s as := by
  induction as generalizing s with
  | nil => exact Iff.rfl
  | cons a as ih =>
    obtain ⟨ha, hrest⟩ := hfits
    constructor
    · rintro ⟨hok, hoks⟩
      refine ⟨(hiff s a hs ha).mp hok, fun t ht => ?_⟩
      exact (ih (hstep s a t hs ha hok ht) (hrest t ht)).mp (hoks t ht)
    · rintro ⟨hgood, hgoods⟩
      have hok := (hiff s a hs ha).mpr hgood
      refine ⟨hok, fun t ht => ?_⟩
      exact (ih (hstep s a t hs ha hok ht) (hrest t ht)).mpr (hgoods t ht)

theorem meets_concat {a : α} (hrun : run step s as = some s') :
    Meets step ok s (as ++ [a]) ↔ Meets step ok s as ∧ ok s' a := by
  induction as generalizing s with
  | nil =>
    cases hrun
    simp [Meets]
  | cons b as ih =>
    obtain ⟨t, ht, hrun⟩ := Option.bind_eq_some_iff.mp hrun
    rw [List.cons_append, meets_cons_some ht, meets_cons_some ht, ih hrun, and_assoc]

theorem start_of_run (hlive : ∀ s a s', step s a = some s' → L s' → L s)
    (hrun : run step s as = some s') (hL : L s') : L s := by
  induction as generalizing s with
  | nil =>
    cases hrun
    exact hL
  | cons a as ih =>
    obtain ⟨t, ht, hrun⟩ := Option.bind_eq_some_iff.mp hrun
    exact hlive s a t ht (ih hrun)

/-- The condition that decides, step by step, whether `K` is kept decides whether `K` holds in the
end; a run that ends in `L` was in `L` all along. -/
theorem kept_iff_meets (hstep : ∀ s a s', I s → fits s a → step s a = some s' → I s')
    (hlive : ∀ s a s', step s a = some s' → L s' → L s)
    (hkept : ∀ s a s', I s → fits s a → step s a = some s' → L s' → (K s' ↔ K s ∧ ok s a))
    (hI : I s) (hfits : Meets step fits s as) (hrun : run step s as = some s') (hL : L s') :
    K s' ↔ K s ∧ Meets step ok s as := by
  induction as generalizing s with
  | nil =>
    cases hrun
    exact (and_iff_left trivial).symm
  | cons a as ih =>
    obtain ⟨t, ht, hrun⟩ := Option.bind_eq_some_iff.mp hrun
    obtain ⟨ha, hrest⟩ := hfits
    have hlast := hkept s a t hI ha ht (start_of_run hlive hrun hL)
    rw [ih (hstep s a t hI ha ht) (hrest t ht) hrun, hlast, meets_cons_some ht, and_assoc]

theorem end_iff_meets (hstep : ∀ s a s', I s → step s a = some s' → I s')
    (hkept : ∀ s a s', I s → step s a = some s' → (K s' ↔ K s ∧ ok s a)) (hI : I s) (hK : K s)
    (hrun : run step s as = some s') : K s' ↔ Meets step ok s as :=
  (kept_iff_meets (L := fun _ => True) (fun s a s' h _ => hstep s a s' h) (fun _ _ _ _ _ => trivial)
    (fun s a s' h _ hs _ => hkept s a s' h hs) hI meets_true hrun trivial).trans (and_iff_right hK)

/-- Every state that the run visits satisfies `P`. -/
def Always (step : σ → α → Option σ) (P : σ → Prop) (s : σ) : List α → Prop
  | [] => P s
  | a :: as => P s ∧ ∀ s', step s a = some s' → Always step P s' as

theorem always_iff_meets {P : σ → Prop}
    (hstep : ∀ s a s', I s → P s → step s a = some s' → P s' → I s')
    (hiff : ∀ s a, I s → P s → ((∀ s', step s a = some s' → P s') ↔ ok s a)) (hI : I s) (hP : P s) :
    Always step P s as ↔ Meets step ok s as := by
  induction as generalizing s with
  | nil => exact iff_of_true hP trivial
  | cons a as ih =>
    have hrest : ∀ s', step s a = some s' → P s' →
        (Always step P s' as ↔ Meets step ok s' as) := fun s' hs' hP' =>
      ih (hstep s a s' hI hP hs' hP') hP'
    have hhead : ∀ s', Always step P s' as → P s' := fun s' h => by
      cases as with
      | nil => exact h
      | cons b bs => exact h.1
    constructor
    · rintro ⟨-, h⟩
      refine ⟨(hiff s a hI hP).mp fun s' hs' => hhead s' (h s' hs'), fun s' hs' => ?_⟩
      exact (hrest s' hs' (hhead s' (h s' hs'))).mp (h s' hs')
    · rintro ⟨ha, h⟩
      refine ⟨hP, fun s' hs' => ?_⟩
      exact (hrest s' hs' ((hiff s a hI hP).mpr ha s' hs')).mpr (h s' hs')

end Machine
