import Mathlib.Algebra.Order.Ring.Nat
import Mathlib.Data.List.Basic
import Mathlib.Data.List.TakeWhile

/-! Lists in which equal values stand next to each other. -/
namespace Python

variable {α β : Type} {f : α → β} {xs : List α}

/-- Between two elements with the same value there are only elements with this value. -/
def Grouped (f : α → β) (xs : List α) : Prop :=
  ∀ (i j k : ℕ) (x y z : α), i ≤ j → j ≤ k → xs[i]? = some x → xs[j]? = some y →
    xs[k]? = some z → f x = f z → f y = f z

theorem grouped_of_pairwise {κ : Type} [PartialOrder κ] {key : α → κ}
    (h : xs.Pairwise fun x y => key x ≤ key y)
    (hkey : ∀ x ∈ xs, ∀ y ∈ xs, f x = f y ↔ key x = key y) : Grouped f xs := by
  intro i j k x y z hij hjk hx hy hz hxz
  have hle : ∀ {m n : ℕ} {u v : α}, m ≤ n → xs[m]? = some u → xs[n]? = some v →
      key u ≤ key v := by
    intro m n u v hmn hu hv
    rcases Nat.lt_or_eq_of_le hmn with hlt | rfl
    · obtain ⟨hm, rfl⟩ := List.getElem?_eq_some_iff.mp hu
      obtain ⟨hn, rfl⟩ := List.getElem?_eq_some_iff.mp hv
      exact List.pairwise_iff_getElem.mp h m n hm hn hlt
    · rw [hu] at hv
      cases hv
      exact le_refl _
  have hmem : ∀ {n : ℕ} {u : α}, xs[n]? = some u → u ∈ xs := List.mem_of_getElem?
  have heq := (hkey x (hmem hx) z (hmem hz)).mp hxz
  exact (hkey y (hmem hy) z (hmem hz)).mpr
    (le_antisymm (hle hjk hy hz) (heq ▸ hle hij hx hy))

theorem Grouped.of_append {ys : List α} (h : Grouped f (ys ++ xs)) : Grouped f xs := by
  have hshift : ∀ i : ℕ, (ys ++ xs)[ys.length + i]? = xs[i]? := by
    intro i
    rw [List.getElem?_append_right (by omega), Nat.add_sub_cancel_left]
  intro i j k x y z hij hjk hx hy hz
  rw [← hshift] at hx hy hz
  exact h _ _ _ x y z (by omega) (by omega) hx hy hz

variable [DecidableEq β]

/-- What has the value of the first element stands in front. -/
theorem Grouped.split {x : α} (h : Grouped f (x :: xs)) :
    ∃ ys zs, x :: xs = ys ++ zs ∧ ys ≠ [] ∧ (∀ y ∈ ys, f y = f x) ∧ (∀ z ∈ zs, f z ≠ f x) ∧
      Grouped f zs := by
  have hcut : x :: xs = (x :: xs.takeWhile (f · = f x)) ++ xs.dropWhile (f · = f x) := by
    rw [List.cons_append, List.takeWhile_append_dropWhile]
  refine ⟨_, _, hcut, List.cons_ne_nil _ _, ?_, ?_, ?_⟩
  · intro y hy
    rcases List.mem_cons.mp hy with rfl | hy
    · rfl
    · have hp := List.mem_takeWhile_imp hy
      simpa using hp
  · intro z hz heq
    -- The first element behind the block would stand between two equal values.
    obtain ⟨y, rest, hrest⟩ := List.exists_cons_of_ne_nil (List.ne_nil_of_mem hz)
    have hy : f y ≠ f x := by
      have hhead := List.head?_dropWhile_not (f · = f x) xs
      rw [hrest] at hhead
      simpa using hhead
    obtain ⟨k, hk⟩ := List.mem_iff_getElem?.mp hz
    have hxs := hcut
    rw [hrest] at hk hxs
    have hy' : (x :: xs)[(x :: xs.takeWhile (f · = f x)).length]? = some y := by
      rw [hxs, List.getElem?_append_right (Nat.le_refl _), Nat.sub_self]
      rfl
    have hz' : (x :: xs)[(x :: xs.takeWhile (f · = f x)).length + k]? = some z := by
      rw [hxs, List.getElem?_append_right (by omega), Nat.add_sub_cancel_left]
      exact hk
    exact hy ((h 0 _ _ x y z (by omega) (by omega) rfl hy' hz' heq.symm).trans heq)
  · rw [hcut] at h
    exact h.of_append

theorem countP_of_const {ys : List α} {u : β} (h : ∀ y ∈ ys, f y = u) (v : β) :
    ys.countP (f · = v) = if u = v then ys.length else 0 := by
  split
  · rename_i huv
    rw [List.countP_eq_length]
    intro y hy
    simp [h y hy, huv]
  · rename_i huv
    rw [List.countP_eq_zero]
    intro y hy
    simp [h y hy, huv]

def positions (f : α → β) (v : β) (xs : List α) (start : ℕ) : List ℕ :=
  ((xs.zipIdx start).filter fun e => f e.1 = v).map Prod.snd

theorem positions_append (v : β) (ys zs : List α) (start : ℕ) :
    positions f v (ys ++ zs) start =
      positions f v ys start ++ positions f v zs (start + ys.length) := by
  rw [positions, List.zipIdx_append, List.filter_append, List.map_append]
  rfl

theorem positions_of_const {ys : List α} {u : β} (h : ∀ y ∈ ys, f y = u) (v : β) (start : ℕ) :
    positions f v ys start = if u = v then List.range' start ys.length else [] := by
  have hfst : ∀ e ∈ ys.zipIdx start, f e.1 = u := fun e he => h e.1 (List.fst_mem_of_mem_zipIdx he)
  unfold positions
  split
  · rename_i huv
    rw [List.filter_eq_self.mpr (by simpa [huv] using hfst)]
    exact List.zipIdx_map_snd start ys
  · rename_i huv
    rw [List.filter_eq_nil_iff.mpr (fun e he => by simp [hfst e he, huv])]
    rfl

theorem positions_of_absent {zs : List α} {v : β} (h : ∀ z ∈ zs, f z ≠ v) (start : ℕ) :
    positions f v zs start = [] := by
  have hnone : (zs.zipIdx start).filter (fun e => f e.1 = v) = [] := by
    rw [List.filter_eq_nil_iff]
    intro e he
    simpa using h e.1 (List.fst_mem_of_mem_zipIdx he)
  rw [positions, hnone]
  rfl

theorem length_positions (v : β) (xs : List α) (start : ℕ) :
    (positions f v xs start).length = xs.countP (f · = v) := by
  conv_rhs => rw [← List.zipIdx_map_fst start xs, List.countP_map]
  rw [positions, List.length_map, List.countP_eq_length_filter]
  rfl

theorem Grouped.positions_eq (h : Grouped f xs) (v : β) :
    ∃ first, ∀ start, positions f v xs start =
      List.range' (start + first) (xs.countP (f · = v)) := by
  induction hn : xs.length using Nat.strong_induction_on generalizing xs with
  | _ n ih =>
    cases xs with
    | nil => exact ⟨0, fun _ => rfl⟩
    | cons x xs =>
      obtain ⟨ys, zs, hcut, hne, hys, hzs, hgrouped⟩ := h.split
      rw [hcut] at hn ⊢
      have hpos := List.length_pos_iff.mpr hne
      rw [List.length_append] at hn
      by_cases hv : f x = v
      · subst hv
        have hnone : zs.countP (f · = f x) = 0 := by
          rw [List.countP_eq_zero]
          simpa using hzs
        refine ⟨0, fun start => ?_⟩
        rw [positions_append, positions_of_const hys, positions_of_absent hzs, if_pos rfl,
          List.countP_append, countP_of_const hys, if_pos rfl, hnone, List.append_nil]
        rfl
      · obtain ⟨first, hfirst⟩ := ih zs.length (by omega) hgrouped rfl
        refine ⟨ys.length + first, fun start => ?_⟩
        rw [positions_append, positions_of_const hys, if_neg hv, List.nil_append, hfirst,
          List.countP_append, countP_of_const hys, if_neg hv, Nat.zero_add, Nat.add_assoc]

theorem mem_positions {v : β} {k : ℕ} {x : α} (hx : xs[k]? = some x) :
    k ∈ positions f v xs 0 ↔ f x = v := by
  constructor
  · intro h
    obtain ⟨e, he, rfl⟩ := List.mem_map.mp h
    obtain ⟨he, hv⟩ := List.mem_filter.mp he
    have hget := List.mk_mem_zipIdx_iff_getElem?.mp (show (e.1, e.2) ∈ xs.zipIdx from he)
    rw [hx] at hget
    cases hget
    exact of_decide_eq_true hv
  · intro hv
    refine List.mem_map.mpr ⟨(x, k), List.mem_filter.mpr ⟨?_, decide_eq_true hv⟩, rfl⟩
    exact List.mk_mem_zipIdx_iff_getElem?.mpr hx

/-- If every value occurs a multiple of `n` times, every slice of length `n` has one value. -/
theorem Grouped.slice_eq (h : Grouped f xs) {n : ℕ} (hpos : 0 < n)
    (hn : ∀ x ∈ xs, n ∣ xs.countP (f · = f x)) {i j : ℕ} {x y : α} (hx : xs[i]? = some x)
    (hy : xs[j]? = some y) (hij : i / n = j / n) : f x = f y := by
  induction hlen : xs.length using Nat.strong_induction_on generalizing xs i j with
  | _ len ih =>
    cases xs with
    | nil => cases hx
    | cons u xs =>
      obtain ⟨ys, zs, hcut, hne, hys, hzs, hgrouped⟩ := h.split
      rw [hcut] at hn hx hy hlen
      have hlong := List.length_pos_iff.mpr hne
      rw [List.length_append] at hlen
      have hdvd : n ∣ ys.length := by
        obtain ⟨y₀, hy₀⟩ := List.exists_mem_of_ne_nil ys hne
        have hcount := hn y₀ (List.mem_append_left _ hy₀)
        rw [hys y₀ hy₀, List.countP_append] at hcount
        have hnone : zs.countP (f · = f u) = 0 := by
          rw [List.countP_eq_zero]
          simpa using hzs
        rwa [countP_of_const hys, if_pos rfl, hnone] at hcount
      obtain ⟨m, hm⟩ := hdvd
      -- A slice does not reach across the end of the block.
      have hside : ∀ k, k < ys.length ↔ k / n < m := by
        intro k
        rw [hm, Nat.mul_comm, Nat.div_lt_iff_lt_mul hpos]
      rw [List.getElem?_append] at hx hy
      by_cases hi : i < ys.length
      · have hj : j < ys.length := by rwa [hside, ← hij, ← hside]
        rw [if_pos hi] at hx
        rw [if_pos hj] at hy
        rw [hys x (List.mem_of_getElem? hx), hys y (List.mem_of_getElem? hy)]
      · have hj : ¬j < ys.length := by rwa [hside, ← hij, ← hside]
        rw [if_neg hi] at hx
        rw [if_neg hj] at hy
        refine ih zs.length (by omega) hgrouped ?_ hx hy ?_ rfl
        · intro z hz
          have hcount := hn z (List.mem_append_right _ hz)
          rwa [List.countP_append, countP_of_const hys, if_neg (Ne.symm (hzs z hz)),
            Nat.zero_add] at hcount
        · rw [hm, Nat.sub_mul_div, Nat.sub_mul_div, hij]

end Python
