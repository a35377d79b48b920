import Mathlib.Data.List.Basic
import Mathlib.Data.Set.Function
import Mathlib.Data.Nat.Notation

/-! Chains of hashes, each made of the one before it and the next block. -/
namespace Hash

variable {α β : Type} (f : Option β → α → β) {us vs : List (Option β × α)} {xs ys : List α}

/-- No two different inputs at the same place of two chains have the same hash. -/
def Distinct (us vs : List (Option β × α)) : Prop :=
  ∀ (k : ℕ) (u v : Option β × α),
    us[k]? = some u → vs[k]? = some v → f u.1 u.2 = f v.1 v.2 → u = v

variable {f} {p q : Option β}

theorem Distinct.tail {u v : Option β × α} (h : Distinct f (u :: us) (v :: vs)) :
    Distinct f us vs :=
  fun k => h (k + 1)

end Hash
