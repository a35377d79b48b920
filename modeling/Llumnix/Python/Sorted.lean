import Mathlib.Data.List.Sort
import Mathlib.Data.Nat.Notation

/-! `sorted` with a key: what comes before an element. -/
namespace Python

variable {α κ : Type}

theorem countP_getElem_le {xs : List α} {lt : α → α → Bool} (h : xs.Pairwise fun x y => ¬lt y x)
    {i : ℕ} (hi : i < xs.length) (hirrefl : ¬lt xs[i] xs[i]) : xs.countP (lt · xs[i]) ≤ i := by
  have hsplit : xs.take i ++ xs.drop i = xs := List.take_append_drop i xs
  have hdrop : xs.drop i = xs[i] :: xs.drop (i + 1) := List.drop_eq_getElem_cons hi
  have htail : (xs.drop i).countP (lt · xs[i]) = 0 := by
    have hpairwise := h.sublist (List.drop_sublist i xs)
    rw [hdrop, List.pairwise_cons] at hpairwise
    rw [hdrop, List.countP_eq_zero]
    intro x hx
    rcases List.mem_cons.mp hx with rfl | hx
    · exact hirrefl
    · exact hpairwise.1 x hx
  have hhead := List.countP_le_length (p := (lt · xs[i])) (l := xs.take i)
  rw [List.length_take] at hhead
  calc xs.countP (lt · xs[i])
      = (xs.take i).countP (lt · xs[i]) + (xs.drop i).countP (lt · xs[i]) := by
        rw [← List.countP_append, hsplit]
    _ ≤ i := by omega

theorem pairwise_sorted [LT κ] [DecidableRel (α := κ) (β := κ) (· < ·)] (key : α → κ)
    {xs : List α} (hasymm : ∀ x ∈ xs, ∀ y ∈ xs, key x < key y → ¬key y < key x)
    (htrans : ∀ x ∈ xs, ∀ y ∈ xs, ∀ z ∈ xs, ¬key y < key x → ¬key z < key y → ¬key z < key x) :
    (xs.insertionSort fun x y => ¬key y < key x).Pairwise fun x y => ¬key y < key x := by
  -- The order is total and transitive only on the list, so its elements are sorted as such.
  let r : {x // x ∈ xs} → {x // x ∈ xs} → Prop := fun x y => ¬key y.1 < key x.1
  have : IsTrans _ r := ⟨fun x y z => htrans x x.2 y y.2 z z.2⟩
  have : Std.Total r := ⟨fun x y => by
    by_cases h : key y.1 < key x.1
    · exact .inr (hasymm y y.2 x x.2 h)
    · exact .inl h⟩
  have hmap := List.map_insertionSort r (fun x y => ¬key y < key x) Subtype.val xs.attach
    fun _ _ _ _ => Iff.rfl
  rw [List.attach_map_subtype_val] at hmap
  rw [← hmap, List.pairwise_map]
  exact List.pairwise_insertionSort r xs.attach

end Python
