import Mathlib.Data.List.Infix

/-! Searching for a pattern in a text, as the methods of `str` do, over any type of characters. -/
namespace Python

variable {α : Type} [DecidableEq α]

/-- `s.find(p)`, where `none` stands for `-1`. -/
def find (p : List α) : List α → Option ℕ
  | [] => if p = [] then some 0 else none
  | c :: s => if p <+: c :: s then some 0 else (find p s).map (· + 1)

/-- `s.split(p, 1)[0]`. -/
def before (p s : List α) : List α := ((find p s).map s.take).getD s

/-- `s.rpartition(c)`, where `none` stands for a text without `c`. -/
def rpartition (c : α) : List α → Option (List α × List α)
  | [] => none
  | x :: s =>
    match rpartition c s with
    | some (left, right) => some (x :: left, right)
    | none => if x = c then some ([], s) else none

section Infix
omit [DecidableEq α]
variable {p a b t : List α}

theorem infix_append_cases (h : p <:+: a ++ b) :
    p <:+: a ∨ p <:+: b ∨ ∃ u v, p = u ++ v ∧ u ≠ [] ∧ v ≠ [] ∧ u <:+ a ∧ v <+: b := by
  obtain ⟨x, y, hxy⟩ := h
  rw [List.append_assoc] at hxy
  rcases List.append_eq_append_iff.mp hxy with ⟨u, ha, hpy⟩ | ⟨z, -, hb⟩
  · rcases List.append_eq_append_iff.mp hpy with ⟨w, hu, hy⟩ | ⟨v, hp, hb⟩
    · left
      exact ⟨x, w, by rw [ha, hu, List.append_assoc]⟩
    · by_cases hunil : u = []
      · right; left
        exact ⟨[], y, by simp [hp, hunil, hb]⟩
      by_cases hvnil : v = []
      · left
        exact ⟨x, [], by simp [hp, hvnil, ha]⟩
      · right; right
        exact ⟨u, v, hp, hunil, hvnil, ⟨x, ha.symm⟩, ⟨y, hb.symm⟩⟩
  · right; left
    exact ⟨z, y, by rw [hb, List.append_assoc]⟩

/-- A pattern of which only the last character can be the beginning of `b` does not occur across the
seam, unless that character completes it. -/
theorem infix_append_take (hborder : ∀ k, 0 < k → k + 1 < p.length → ¬p.drop k <+: b)
    (hb : ¬p <:+: b) (h : p <:+: a ++ b) : p <:+: a ++ b.take 1 := by
  rcases infix_append_cases h with ha | hin | ⟨u, v, rfl, hu, hv, hua, hvb⟩
  · exact ha.trans (List.prefix_append a _).isInfix
  · exact absurd hin hb
  · have hupos : 0 < u.length := List.length_pos_iff.mpr hu
    have hvpos : 0 < v.length := List.length_pos_iff.mpr hv
    have hdrop : (u ++ v).drop u.length = v := List.drop_left
    have hlen : v.length = 1 := by
      by_contra hne
      have hlong : u.length + 1 < (u ++ v).length := by
        rw [List.length_append]
        omega
      exact hborder u.length hupos hlong (hdrop.symm ▸ hvb)
    obtain ⟨w, hw⟩ := hvb
    have htake : b.take 1 = v := by
      rw [← hw, ← hlen]
      exact List.take_left
    obtain ⟨x, hx⟩ := hua
    exact ⟨x, [], by simp [htake, ← hx]⟩

theorem not_infix_of_not_mem {c : α} (hp : c ∈ p) (ha : c ∉ a) : ¬p <:+: a :=
  fun h => ha (h.subset hp)

theorem infix_append_of_head {c : α} {q : List α} (ha : c ∉ a) (h : c :: q <:+: a ++ b) :
    c :: q <:+: b := by
  rcases infix_append_cases h with hin | hin | ⟨u, v, hp, hu, -, hua, -⟩
  · exact absurd hin (not_infix_of_not_mem List.mem_cons_self ha)
  · exact hin
  · obtain ⟨d, u, rfl⟩ := List.exists_cons_of_ne_nil hu
    have hc : c = d := (List.cons.inj hp).1
    exact absurd (hua.subset (hc ▸ List.mem_cons_self)) ha

end Infix

variable {p a s t : List α}

theorem find_eq_some {n : ℕ} (h : find p s = some n) : n ≤ s.length ∧ p <+: s.drop n := by
  induction s generalizing n with
  | nil =>
    unfold find at h
    split at h
    · rename_i hp
      cases h
      simp [hp]
    · cases h
  | cons c s ih =>
    unfold find at h
    split at h
    · rename_i hp
      cases h
      exact ⟨Nat.zero_le _, hp⟩
    · obtain ⟨m, hm, rfl⟩ := Option.map_eq_some_iff.mp h
      obtain ⟨hle, hpre⟩ := ih hm
      exact ⟨by simpa using hle, by simpa using hpre⟩

theorem find_le {n : ℕ} (hn : n ≤ s.length) (h : p <+: s.drop n) : ∃ m ≤ n, find p s = some m := by
  induction s generalizing n with
  | nil =>
    have hp : p = [] := by simpa using h
    exact ⟨0, Nat.zero_le n, by simp [find, hp]⟩
  | cons c s ih =>
    unfold find
    by_cases hp : p <+: c :: s
    · exact ⟨0, Nat.zero_le n, if_pos hp⟩
    · cases n with
      | zero => exact absurd h hp
      | succ n =>
        obtain ⟨m, hm, hfind⟩ := ih (by simpa using hn) (by simpa using h)
        exact ⟨m + 1, by omega, by simp [hp, hfind]⟩

theorem find_of_infix_append (h : p <:+: a) :
    ∃ m, m + p.length ≤ a.length ∧ find p (a ++ t) = some m := by
  obtain ⟨x, y, hxy⟩ := h
  have hpre : p <+: (a ++ t).drop x.length := by
    rw [← hxy, List.append_assoc, List.append_assoc, List.drop_left]
    exact List.prefix_append p _
  have hlen : x.length + p.length ≤ a.length := by
    rw [← hxy]
    simp
  obtain ⟨m, hm, hfind⟩ := find_le (by simp; omega) hpre
  exact ⟨m, by omega, hfind⟩

/-- A pattern that has been appended is found where it was appended, unless it is already there or
begins before. -/
theorem find_append (hp : p ≠ []) (h : ¬p <:+: a ++ p.dropLast) :
    find p (a ++ p ++ t) = some a.length := by
  have hpre : p <+: (a ++ p ++ t).drop a.length := by
    rw [List.append_assoc, List.drop_left]
    exact List.prefix_append p t
  obtain ⟨m, hm, hfind⟩ := find_le (by simp) hpre
  have hlt : ¬m < a.length := by
    intro hlt
    obtain ⟨-, y, hy⟩ := find_eq_some hfind
    have hpos : 0 < p.length := List.length_pos_iff.mpr hp
    have htext : a ++ p ++ t = (a ++ p.dropLast) ++ ([p.getLast hp] ++ t) := by
      conv_lhs => rw [← List.dropLast_append_getLast hp]
      simp
    have hin : (a ++ p ++ t).take m ++ p <+: a ++ p.dropLast := by
      have hall : (a ++ p ++ t).take m ++ p <+: (a ++ p.dropLast) ++ ([p.getLast hp] ++ t) := by
        refine ⟨y, ?_⟩
        rw [List.append_assoc, hy, List.take_append_drop, htext]
      refine List.prefix_of_prefix_length_le hall (List.prefix_append _ _) ?_
      simp
      omega
    exact h ((List.suffix_append _ p).isInfix.trans hin.isInfix)
  rw [hfind, show m = a.length by omega]

theorem before_append (hp : p ≠ []) (h : ¬p <:+: a ++ p.dropLast) : before p (a ++ p ++ t) = a := by
  unfold before
  rw [find_append hp h, List.append_assoc]
  simp

theorem rpartition_eq_none {c : α} : rpartition c s = none ↔ c ∉ s := by
  induction s with
  | nil => simp [rpartition]
  | cons x s ih =>
    unfold rpartition
    cases hs : rpartition c s with
    | some parts =>
      have hmem : c ∈ s := by
        by_contra hnot
        simp [ih.mpr hnot] at hs
      simp [hmem]
    | none =>
      have hnot := ih.mp hs
      by_cases hx : x = c
      · simp [hx]
      · simp [hx, hnot, Ne.symm hx]

theorem rpartition_append {c : α} {left right : List α} (h : c ∉ right) :
    rpartition c (left ++ c :: right) = some (left, right) := by
  induction left with
  | nil => simp [rpartition, rpartition_eq_none.mpr h]
  | cons x left ih => simp [rpartition, ih]

theorem rpartition_eq_some {c : α} {left right : List α}
    (h : rpartition c s = some (left, right)) : s = left ++ c :: right ∧ c ∉ right := by
  induction s generalizing left with
  | nil => cases h
  | cons x s ih =>
    unfold rpartition at h
    cases hs : rpartition c s with
    | some parts =>
      rw [hs] at h
      cases h
      obtain ⟨hs', hnot⟩ := ih hs
      exact ⟨by rw [hs', List.cons_append], hnot⟩
    | none =>
      rw [hs] at h
      by_cases hx : x = c
      · obtain ⟨rfl, rfl⟩ : left = [] ∧ s = right := by simpa [hx, eq_comm] using h
        exact ⟨by rw [hx, List.nil_append], rpartition_eq_none.mp hs⟩
      · simp [hx] at h

end Python
