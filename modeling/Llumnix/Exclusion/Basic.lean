import Mathlib.Data.List.Perm.Basic
import Mathlib.Logic.Function.Basic

/-! Tasks that work on two resources each: how many work on a resource, and marks on the
resources that are meant to keep it at one. -/
namespace Exclusion

variable {ι γ : Type}

def Uses (p : ι × ι) (i : ι) : Prop := p.1 = i ∨ p.2 = i

variable [DecidableEq ι]

instance (p : ι × ι) (i : ι) : Decidable (Uses p i) := inferInstanceAs (Decidable (_ ∨ _))

/-- How many of the pairs use `i`. -/
def load (ps : List (ι × ι)) (i : ι) : ℕ := ps.countP (Uses · i)

/-- No resource is used twice. -/
def Exclusive (ps : List (ι × ι)) : Prop := ∀ i, load ps i ≤ 1

def mark (p : ι × ι) (v : γ) (f : ι → γ) : ι → γ :=
  Function.update (Function.update f p.1 v) p.2 v

section Load
variable {ps qs : List (ι × ι)} {p : ι × ι} {i : ι} {n : ℕ}

@[simp] theorem load_append : load (ps ++ qs) i = load ps i + load qs i := List.countP_append

theorem load_perm (h : ps.Perm qs) : load ps i = load qs i := h.countP_eq _

theorem load_singleton_of_uses (h : Uses p i) : load [p] i = 1 := by
  unfold load
  rw [List.countP_cons_of_pos (by simpa using h)]
  rfl

theorem load_singleton_of_not_uses (h : ¬Uses p i) : load [p] i = 0 := by
  unfold load
  rw [List.countP_cons_of_neg (by simpa using h)]
  rfl

theorem not_uses_of_load (h : load [p] i + n ≤ 1) (hn : 0 < n) : ¬Uses p i := by
  intro hu
  rw [load_singleton_of_uses hu] at h
  omega

theorem load_pos_iff : 0 < load ps i ↔ ∃ p ∈ ps, Uses p i := by
  unfold load
  rw [List.countP_pos_iff]
  simp only [decide_eq_true_eq]

theorem load_eraseIdx (h : ps[n]? = some p) : load ps i = load [p] i + load (ps.eraseIdx n) i := by
  obtain ⟨hn, rfl⟩ := List.getElem?_eq_some_iff.mp h
  rw [← load_append, List.singleton_append]
  exact (load_perm (List.getElem_cons_eraseIdx_perm hn)).symm

theorem exclusive_iff : Exclusive ps ↔ ∀ p ∈ ps, load ps p.1 ≤ 1 ∧ load ps p.2 ≤ 1 := by
  constructor
  · exact fun h p _ => ⟨h p.1, h p.2⟩
  · intro h i
    by_cases hi : 0 < load ps i
    · obtain ⟨p, hp, rfl | rfl⟩ := load_pos_iff.mp hi
      · exact (h p hp).1
      · exact (h p hp).2
    · omega

instance : Decidable (Exclusive ps) := decidable_of_iff _ exclusive_iff.symm

end Load

section Mark
variable {p : ι × ι} {v : γ} {f : ι → γ} {i : ι}

theorem mark_of_uses (h : Uses p i) : mark p v f i = v := by
  unfold mark
  by_cases h2 : i = p.2
  · rw [h2, Function.update_self]
  · rcases h with rfl | rfl
    · rw [Function.update_of_ne h2, Function.update_self]
    · exact absurd rfl h2

theorem mark_of_not_uses (h : ¬Uses p i) : mark p v f i = f i := by
  have h1 : i ≠ p.1 := fun he => h (.inl he.symm)
  have h2 : i ≠ p.2 := fun he => h (.inr he.symm)
  unfold mark
  rw [Function.update_of_ne h2, Function.update_of_ne h1]

end Mark
end Exclusion
