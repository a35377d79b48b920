import Mathlib.Algebra.Order.Ring.Rat

/-! Floating-point numbers as they are compared: rationals, two infinities, and a NaN that every
comparison rejects. How a finite result is rounded is left to a parameter. -/
namespace Python

inductive Number
  | nan
  | negInf
  | fin (q : ℚ)
  | posInf
  deriving DecidableEq

namespace Number

variable {x y z : Number}

def Lt : Number → Number → Prop
  | nan, _ => False
  | _, nan => False
  | negInf, negInf => False
  | negInf, _ => True
  | fin _, negInf => False
  | fin p, fin q => p < q
  | fin _, posInf => True
  | posInf, _ => False

instance : LT Number := ⟨Lt⟩

instance : DecidableRel (α := Number) (β := Number) (· < ·)
  | nan, _ => isFalse nofun
  | negInf, nan | fin _, nan | posInf, nan => isFalse nofun
  | negInf, negInf => isFalse nofun
  | negInf, fin _ | negInf, posInf => isTrue trivial
  | fin _, negInf => isFalse nofun
  | fin p, fin q => inferInstanceAs (Decidable (p < q))
  | fin _, posInf => isTrue trivial
  | posInf, negInf | posInf, fin _ | posInf, posInf => isFalse nofun

/-- `x <= y`: a NaN is not even equal to itself. -/
def Le (x y : Number) : Prop := x < y ∨ x = y ∧ x ≠ nan

instance : LE Number := ⟨Le⟩

instance : DecidableRel (α := Number) (β := Number) (· ≤ ·) := fun x y =>
  inferInstanceAs (Decidable (x < y ∨ x = y ∧ x ≠ nan))

def neg : Number → Number
  | nan => nan
  | negInf => posInf
  | fin q => fin (-q)
  | posInf => negInf

def add (round : ℚ → Number) : Number → Number → Number
  | nan, _ => nan
  | _, nan => nan
  | negInf, posInf => nan
  | posInf, negInf => nan
  | negInf, _ => negInf
  | _, negInf => negInf
  | posInf, _ => posInf
  | _, posInf => posInf
  | fin p, fin q => round (p + q)

def sub (round : ℚ → Number) (x y : Number) : Number := add round x y.neg

@[simp] theorem fin_lt_fin {p q : ℚ} : (fin p : Number) < fin q ↔ p < q := Iff.rfl

@[simp] theorem fin_le_fin {p q : ℚ} : (fin p : Number) ≤ fin q ↔ p ≤ q := by
  change (fin p < fin q ∨ fin p = fin q ∧ fin p ≠ nan) ↔ _
  simp [le_iff_lt_or_eq]

theorem negInf_lt_fin (q : ℚ) : negInf < fin q := trivial

theorem negInf_le (h : x ≠ nan) : negInf ≤ x := by
  cases x with
  | nan => exact absurd rfl h
  | negInf => exact .inr ⟨rfl, nofun⟩
  | fin q => exact .inl trivial
  | posInf => exact .inl trivial

theorem le_refl (h : x ≠ nan) : x ≤ x := .inr ⟨rfl, h⟩

theorem lt_irrefl (x : Number) : ¬x < x := by
  cases x with
  | nan => exact id
  | negInf => exact id
  | fin q => exact fun h => absurd (show q < q from h) (by simp)
  | posInf => exact id

theorem lt_trans (h : x < y) (h' : y < z) : x < z := by
  have hfin : ∀ {p q r : ℚ}, p < q → q < r → p < r := fun h h' => h.trans h'
  cases x <;> cases y <;> cases z <;> first
    | exact h.elim
    | exact h'.elim
    | trivial
    | exact hfin h h'

theorem le_trans (h : x ≤ y) (h' : y ≤ z) : x ≤ z := by
  rcases h with h | ⟨rfl, hx⟩
  · rcases h' with h' | ⟨rfl, -⟩
    · exact .inl (lt_trans h h')
    · exact .inl h
  · exact h'

theorem lt_trichotomy (hx : x ≠ nan) (hy : y ≠ nan) : x < y ∨ x = y ∨ y < x := by
  cases x with
  | nan => exact absurd rfl hx
  | negInf => exact (negInf_le hy).imp_right fun h => .inl h.1
  | fin p =>
    cases y with
    | nan => exact absurd rfl hy
    | negInf => exact .inr (.inr trivial)
    | fin q =>
      rcases trichotomous_of (α := ℚ) (· < ·) p q with h | rfl | h
      · exact .inl h
      · exact .inr (.inl rfl)
      · exact .inr (.inr h)
    | posInf => exact .inl trivial
  | posInf =>
    cases y with
    | nan => exact absurd rfl hy
    | negInf => exact .inr (.inr trivial)
    | fin q => exact .inr (.inr trivial)
    | posInf => exact .inr (.inl rfl)

theorem le_of_not_lt (hx : x ≠ nan) (hy : y ≠ nan) (h : ¬y < x) : x ≤ y := by
  rcases lt_trichotomy hx hy with hlt | heq | hlt
  · exact .inl hlt
  · exact .inr ⟨heq, hx⟩
  · exact absurd hlt h

theorem not_lt_of_le (h : x ≤ y) : ¬y < x := by
  rcases h with h | ⟨rfl, -⟩
  · exact fun h' => lt_irrefl x (lt_trans h h')
  · exact lt_irrefl x

theorem neg_lt_neg : x.neg < y.neg ↔ y < x := by
  have hfin : ∀ {p q : ℚ}, fin (-p) < fin (-q) ↔ fin q < fin p := by simp
  cases x <;> cases y <;> first
    | exact Iff.rfl
    | exact hfin

theorem add_fin_le_add_fin (h : x ≤ y) (q : ℚ) : add fin x (fin q) ≤ add fin y (fin q) := by
  rcases h with h | ⟨rfl, hx⟩
  · refine .inl ?_
    cases x <;> cases y <;> first
      | exact h.elim
      | trivial
      | exact fin_lt_fin.mpr (by simpa using fin_lt_fin.mp h)
  · refine le_refl ?_
    cases x <;> first
      | exact absurd rfl hx
      | nofun

theorem le_add_fin (hx : x ≠ nan) {q : ℚ} (hq : 0 ≤ q) : x ≤ add fin x (fin q) := by
  cases x with
  | nan => exact absurd rfl hx
  | negInf => exact le_refl nofun
  | fin p => exact fin_le_fin.mpr (le_add_of_nonneg_right hq)
  | posInf => exact le_refl nofun

end Number
end Python
