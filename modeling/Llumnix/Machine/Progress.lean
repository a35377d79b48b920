import Llumnix.Machine.Run
import Mathlib.Order.WellFounded

/-! Infinite runs of a machine: what is bound to happen when some actions are taken again and
again. -/
namespace Machine

variable {σ α : Type} {step : σ → α → Option σ} {s : ℕ → σ} {a : ℕ → α}

/-- A run that never stops, with the states that it visits. -/
def Forever (step : σ → α → Option σ) (s : ℕ → σ) (a : ℕ → α) : Prop :=
  ∀ k, step (s k) (a k) = some (s (k + 1))

theorem forever_invariant {I : σ → Prop} (hrun : Forever step s a)
    (hstep : ∀ s a s', I s → step s a = some s' → I s') {k : ℕ} (hk : I (s k)) :
    ∀ j ≥ k, I (s j) := by
  intro j hj
  induction j, hj using Nat.le_induction with
  | base => exact hk
  | succ j _ ih => exact hstep _ _ _ ih (hrun j)

section Rank
variable {ρ : Type} [Preorder ρ] (rank : σ → ρ) {I done : σ → Prop}
  {moves : α → Prop}

/-- Up to the next move the rank does not rise, and with the move it falls. -/
theorem done_or_lower (hrun : Forever step s a)
    (hstep : ∀ s a s', I s → step s a = some s' → I s')
    (hstay : ∀ s a s', I s → ¬moves a → step s a = some s' → rank s' ≤ rank s)
    (hmove : ∀ s a s', I s → moves a → step s a = some s' → done s' ∨ rank s' < rank s)
    (n : ℕ) {k : ℕ} (hk : I (s k)) (hn : moves (a (k + n)) ∨ done (s (k + n))) :
    (∃ j ≥ k, done (s j)) ∨ ∃ j ≥ k, rank (s j) < rank (s k) := by
  have hhead : moves (a k) → (∃ j ≥ k, done (s j)) ∨ ∃ j ≥ k, rank (s j) < rank (s k) := by
    intro hmoves
    rcases hmove _ _ _ hk hmoves (hrun k) with hdone | hlt
    · exact .inl ⟨k + 1, Nat.le_succ k, hdone⟩
    · exact .inr ⟨k + 1, Nat.le_succ k, hlt⟩
  induction n generalizing k with
  | zero =>
    rcases hn with hmoves | hdone
    · exact hhead hmoves
    · exact .inl ⟨k, le_rfl, hdone⟩
  | succ n ih =>
    by_cases hmoves : moves (a k)
    · exact hhead hmoves
    · have hle := hstay _ _ _ hk hmoves (hrun k)
      have hnext : I (s (k + 1)) := hstep _ _ _ hk (hrun k)
      rw [show k + (n + 1) = k + 1 + n by omega] at hn
      have hrest := ih hnext hn fun hmoves' => by
        rcases hmove _ _ _ hnext hmoves' (hrun (k + 1)) with hdone | hlt
        · exact .inl ⟨k + 1 + 1, Nat.le_succ _, hdone⟩
        · exact .inr ⟨k + 1 + 1, Nat.le_succ _, hlt⟩
      rcases hrest with ⟨j, hj, hdone⟩ | ⟨j, hj, hlt⟩
      · exact .inl ⟨j, Nat.le_of_succ_le hj, hdone⟩
      · exact .inr ⟨j, Nat.le_of_succ_le hj, hlt.trans_le hle⟩

/-- A rank that no step raises and that every move lowers until it is done: if there is always
another move, it is done at some time. -/
theorem eventually_done [WellFoundedLT ρ] (hrun : Forever step s a)
    (hstep : ∀ s a s', I s → step s a = some s' → I s')
    (hstay : ∀ s a s', I s → ¬moves a → step s a = some s' → rank s' ≤ rank s)
    (hmove : ∀ s a s', I s → moves a → step s a = some s' → done s' ∨ rank s' < rank s)
    (hfair : ∀ k, ∃ j ≥ k, moves (a j) ∨ done (s j)) {k : ℕ} (hk : I (s k)) :
    ∃ j ≥ k, done (s j) := by
  generalize hr : rank (s k) = r
  induction r using WellFoundedLT.induction generalizing k with
  | ind r ih =>
    obtain ⟨j, hj, hnext⟩ := hfair k
    obtain ⟨n, rfl⟩ := Nat.exists_eq_add_of_le hj
    rcases done_or_lower rank hrun hstep hstay hmove n hk hnext with hdone | ⟨j, hj, hlt⟩
    · exact hdone
    · have hIj := forever_invariant hrun hstep hk j hj
      obtain ⟨i, hi, hdone⟩ := ih (rank (s j)) (hr ▸ hlt) hIj rfl
      exact ⟨i, hj.trans hi, hdone⟩

end Rank
end Machine
