import Mathlib.Algebra.BigOperators.Group.Finset.Basic
import Mathlib.Algebra.Order.BigOperators.Group.Finset
import Mathlib.Algebra.Order.Floor.Div

/-! A log of choices in a finite set, no element of which is ever chosen twice more than another:
each has its share of the choices, up to rounding. -/
namespace Balance

variable {α : Type} [DecidableEq α] {S : Finset α} {log : List α}

def Even (S : Finset α) (log : List α) : Prop :=
  ∀ i ∈ S, ∀ j ∈ S, log.count i ≤ log.count j + 1

theorem count_append_singleton (log : List α) (i j : α) :
    (log ++ [i]).count j = log.count j + if i = j then 1 else 0 := by
  rw [List.count_append, List.count_singleton]
  simp only [beq_iff_eq]

theorem Even.append {i : α} (h : Even S log) (hmin : ∀ j ∈ S, log.count i ≤ log.count j) :
    Even S (log ++ [i]) := by
  intro j hj k hk
  have hle := h j hj k hk
  have hmink := hmin k hk
  rw [count_append_singleton, count_append_singleton]
  by_cases hij : i = j
  · rw [if_pos hij, ← hij]
    omega
  · rw [if_neg hij]
    omega

theorem sum_count (hlog : ∀ j ∈ log, j ∈ S) : ∑ j ∈ S, log.count j = log.length := by
  rw [← List.sum_toFinset_count_eq_length]
  refine (Finset.sum_subset (fun j hj => hlog j (List.mem_toFinset.mp hj)) fun j _ hj => ?_).symm
  exact List.count_eq_zero_of_not_mem fun hmem => hj (List.mem_toFinset.mpr hmem)

theorem Even.count_eq {i : α} (h : Even S log) (hlog : ∀ j ∈ log, j ∈ S) (hi : i ∈ S) :
    log.count i = log.length / S.card ∨ log.count i = log.length ⌈/⌉ S.card := by
  have hcard : 0 < S.card := Finset.card_pos.mpr ⟨i, hi⟩
  have hbelow : log.length < S.card * (log.count i + 1) := by
    have hlt : ∑ j ∈ S, log.count j < ∑ _j ∈ S, (log.count i + 1) :=
      Finset.sum_lt_sum (fun j hj => h j hj i hi) ⟨i, hi, Nat.lt_succ_self _⟩
    rwa [sum_count hlog, Finset.sum_const, smul_eq_mul] at hlt
  have habove : S.card * log.count i < log.length + S.card := by
    have hlt : ∑ _j ∈ S, log.count i < ∑ j ∈ S, (log.count j + 1) :=
      Finset.sum_lt_sum (fun j hj => h i hi j hj) ⟨i, hi, Nat.lt_succ_self _⟩
    rwa [Finset.sum_add_distrib, sum_count hlog, Finset.sum_const, Finset.sum_const, smul_eq_mul,
      smul_eq_mul, mul_one] at hlt
  have hfloor : log.length / S.card < log.count i + 1 := Nat.div_lt_of_lt_mul hbelow
  have hceil : log.count i ≤ log.length ⌈/⌉ S.card := by
    rw [Nat.ceilDiv_eq_add_pred_div, Nat.le_div_iff_mul_le hcard, mul_comm]
    omega
  have hstep : log.length ⌈/⌉ S.card ≤ log.length / S.card + 1 := by
    rw [Nat.ceilDiv_eq_add_pred_div, ← Nat.add_div_right _ hcard]
    exact Nat.div_le_div_right (Nat.sub_le _ _)
  omega

/-! ### Taking turns -/

variable {L : List α} {p : ℕ}

/-- The elements before position `p` have been chosen once more than the others. -/
def InTurn (L : List α) (p : ℕ) (log : List α) : Prop :=
  ∃ q, ∀ (k : ℕ) (hk : k < L.length), log.count L[k] = q + if k < p then 1 else 0

theorem InTurn.init (L : List α) : InTurn L 0 [] := ⟨0, fun k _ => by simp⟩

theorem InTurn.count_le (h : InTurn L p log) (hp : p < L.length) :
    ∀ j ∈ L, log.count L[p] ≤ log.count j := by
  obtain ⟨q, hq⟩ := h
  intro j hj
  obtain ⟨k, hk, rfl⟩ := List.getElem_of_mem hj
  rw [hq p hp, hq k hk, if_neg (lt_irrefl p)]
  exact Nat.le_add_right _ _

theorem InTurn.next (h : InTurn L p log) (hnodup : L.Nodup) (hp : p < L.length) :
    InTurn L ((p + 1) % L.length) (log ++ [L[p]]) := by
  obtain ⟨q, hq⟩ := h
  have hcount : ∀ (k : ℕ) (hk : k < L.length),
      (log ++ [L[p]]).count L[k] = q + if k < p + 1 then 1 else 0 := by
    intro k hk
    rw [count_append_singleton, hq k hk]
    simp only [hnodup.getElem_inj_iff]
    split_ifs <;> omega
  by_cases hlast : p + 1 = L.length
  · -- After the last element everybody has had a turn, and the next round starts.
    refine ⟨q + 1, fun k hk => ?_⟩
    rw [hcount k hk, if_pos (by omega), hlast, Nat.mod_self, if_neg (Nat.not_lt_zero k)]
  · rw [Nat.mod_eq_of_lt (by omega)]
    exact ⟨q, hcount⟩

end Balance
