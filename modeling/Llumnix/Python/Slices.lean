import Mathlib.Data.List.Basic
import Mathlib.Data.Nat.Notation

/-! A list cut into slices of equal length, of which the last one may be shorter. -/
namespace Python

variable {α : Type} {b n : ℕ}

/-- `[xs[i:i + b] for i in range(0, n, b)]`. -/
def slices (b n : ℕ) (xs : List α) : List (List α) :=
  (List.range ((n + b - 1) / b)).map fun k => (xs.drop (k * b)).take b

theorem slices_nil (hb : 0 < b) (xs : List α) : slices b 0 xs = [] := by
  have hzero : (0 + b - 1) / b = 0 := Nat.div_eq_of_lt (by omega)
  rw [slices, hzero]
  rfl

theorem slices_cons (hb : 0 < b) (hn : 0 < n) (xs : List α) :
    slices b n xs = xs.take b :: slices b (n - b) (xs.drop b) := by
  have hcount : (n + b - 1) / b = (n - b + b - 1) / b + 1 := by
    by_cases hle : b ≤ n
    · have hsplit : n + b - 1 = (n - b + b - 1) + b := by omega
      rw [hsplit, Nat.add_div_right _ hb]
    · have hone : n + b - 1 = (n - 1) + b := by omega
      have hzero : (n - b + b - 1) / b = 0 := Nat.div_eq_of_lt (by omega)
      rw [hzero, hone, Nat.add_div_right _ hb, Nat.div_eq_of_lt (by omega)]
  rw [slices, hcount, List.range_succ_eq_map, List.map_cons, List.map_map]
  refine congrArg₂ List.cons (by simp) (List.map_congr_left fun k _ => ?_)
  rw [Function.comp_apply, List.drop_drop, Nat.succ_mul, Nat.add_comm]

end Python
