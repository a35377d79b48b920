import Mathlib.Data.List.Nodup
import Mathlib.Logic.Function.Basic

/-! Pools of blocks: a free list and the blocks handed to each owner. No block is in two
places, and blocks are only ever passed on. -/

/-- `blocks none` is the free list, `blocks (some k)` what the owner `k` holds. -/
structure Pool (κ β : Type) where
  blocks : Option κ → List β
  nodup : ∀ k, (blocks k).Nodup
  disjoint : ∀ k k', k ≠ k' → (blocks k).Disjoint (blocks k')

namespace Pool
variable {κ β : Type} (p : Pool κ β)

/-- Nothing is handed out yet. -/
def ofFree (l : List β) (h : l.Nodup) : Pool κ β where
  blocks k := if k.isNone then l else []
  nodup k := by
    cases k with
    | none => exact h
    | some k => exact List.nodup_nil
  disjoint k k' hk := by
    cases k with
    | some k => exact fun _ hx => absurd hx List.not_mem_nil
    | none =>
      cases k' with
      | none => exact absurd rfl hk
      | some k' => exact fun _ _ hx => absurd hx List.not_mem_nil

def free : List β := p.blocks none

def owned (k : κ) : List β := p.blocks (some k)

theorem free_disjoint_owned (k : κ) : p.free.Disjoint (p.owned k) :=
  p.disjoint none (some k) nofun

variable [DecidableEq κ]

/-- The first `n` blocks of `a` go to `b`, behind what `b` has. -/
def passed (a b : Option κ) (n : ℕ) : Option κ → List β :=
  Function.update (Function.update p.blocks a ((p.blocks a).drop n)) b
    (p.blocks b ++ (p.blocks a).take n)

section Passed
variable {p} {a b : Option κ} {n : ℕ}

theorem passed_to : p.passed a b n b = p.blocks b ++ (p.blocks a).take n := Function.update_self ..

theorem passed_from (h : a ≠ b) : p.passed a b n a = (p.blocks a).drop n := by
  unfold passed
  rw [Function.update_of_ne h, Function.update_self]

theorem passed_other {k : Option κ} (ha : k ≠ a) (hb : k ≠ b) : p.passed a b n k = p.blocks k := by
  unfold passed
  rw [Function.update_of_ne hb, Function.update_of_ne ha]

private theorem mem_passed {k : Option κ} {x : β} (h : a ≠ b) (hx : x ∈ p.passed a b n k) :
    x ∈ p.blocks k ∧ (k = a → x ∈ (p.blocks a).drop n) ∨ k = b ∧ x ∈ (p.blocks a).take n := by
  by_cases hb : k = b
  · subst hb
    rw [passed_to] at hx
    rcases List.mem_append.mp hx with hx | hx
    · exact .inl ⟨hx, fun ha => absurd ha.symm h⟩
    · exact .inr ⟨rfl, hx⟩
  by_cases ha : k = a
  · subst ha
    rw [passed_from h] at hx
    exact .inl ⟨List.mem_of_mem_drop hx, fun _ => hx⟩
  · rw [passed_other ha hb] at hx
    exact .inl ⟨hx, fun h => absurd h ha⟩

omit [DecidableEq κ] in
private theorem not_mem_drop_of_mem_take {x : β} (ht : x ∈ (p.blocks a).take n)
    (hd : x ∈ (p.blocks a).drop n) : False := by
  have hn := p.nodup a
  rw [← List.take_append_drop n (p.blocks a)] at hn
  exact List.disjoint_of_nodup_append hn ht hd

end Passed

def pass (a b : Option κ) (n : ℕ) (h : a ≠ b) : Pool κ β where
  blocks := p.passed a b n
  nodup k := by
    by_cases hb : k = b
    · subst hb
      rw [passed_to]
      refine (p.nodup k).append ((p.nodup a).sublist (List.take_sublist _ _)) ?_
      exact fun x hx hx' => p.disjoint k a h.symm hx (List.mem_of_mem_take hx')
    by_cases ha : k = a
    · subst ha
      rw [passed_from h]
      exact (p.nodup k).sublist (List.drop_sublist _ _)
    · rw [passed_other ha hb]
      exact p.nodup k
  disjoint k k' hk := by
    intro x hx hx'
    rcases mem_passed h hx with ⟨hx, hd⟩ | ⟨hb, hx⟩ <;>
      rcases mem_passed h hx' with ⟨hx', hd'⟩ | ⟨hb', hx'⟩
    · exact p.disjoint k k' hk hx hx'
    · by_cases ha : k = a
      · exact not_mem_drop_of_mem_take hx' (hd ha)
      · exact p.disjoint k a ha hx (List.mem_of_mem_take hx')
    · by_cases ha : k' = a
      · exact not_mem_drop_of_mem_take hx (hd' ha)
      · exact p.disjoint k' a ha hx' (List.mem_of_mem_take hx)
    · exact hk (hb.trans hb'.symm)

/-- `n` free blocks go to `k`. -/
def take (k : κ) (n : ℕ) : Pool κ β := p.pass none (some k) n nofun

/-- `k` gives everything back. -/
def release (k : κ) : Pool κ β := p.pass (some k) none (p.owned k).length nofun

/-- Everything `k` holds goes to `k'`. -/
def move (k k' : κ) (h : k ≠ k') : Pool κ β :=
  p.pass (some k) (some k') (p.owned k).length fun he => h (Option.some.inj he)

section Operations
variable {p} {k k' j : κ} {n : ℕ}

@[simp] theorem owned_take_self : (p.take k n).owned k = p.owned k ++ p.free.take n := passed_to

theorem owned_take_of_ne (h : j ≠ k) : (p.take k n).owned j = p.owned j :=
  passed_other (Option.some_ne_none j) fun he => h (Option.some.inj he)

@[simp] theorem free_release : (p.release k).free = p.free ++ p.owned k := by
  have h : (p.release k).free = p.free ++ (p.owned k).take (p.owned k).length :=
    passed_to (p := p) (a := some k) (b := none)
  rwa [List.take_length] at h

@[simp] theorem owned_release_self : (p.release k).owned k = [] := by
  have h : (p.release k).owned k = (p.owned k).drop (p.owned k).length :=
    passed_from (Option.some_ne_none k)
  rwa [List.drop_length] at h

theorem owned_release_of_ne (h : j ≠ k) : (p.release k).owned j = p.owned j :=
  passed_other (fun he => h (Option.some.inj he)) (Option.some_ne_none j)

@[simp] theorem owned_move_from (h : k ≠ k') : (p.move k k' h).owned k = [] := by
  have h' : (p.move k k' h).owned k = (p.owned k).drop (p.owned k).length :=
    passed_from fun he => h (Option.some.inj he)
  rwa [List.drop_length] at h'

@[simp] theorem owned_move_to (h : k ≠ k') :
    (p.move k k' h).owned k' = p.owned k' ++ p.owned k := by
  have h' : (p.move k k' h).owned k' = p.owned k' ++ (p.owned k).take (p.owned k).length :=
    passed_to
  rwa [List.take_length] at h'

theorem owned_move_of_ne (h : k ≠ k') (hk : j ≠ k) (hk' : j ≠ k') :
    (p.move k k' h).owned j = p.owned j :=
  passed_other (fun he => hk (Option.some.inj he)) fun he => hk' (Option.some.inj he)

end Operations

/-! What an owner gets from the free list and gives back, between two pools. -/
section Accounts
variable [DecidableEq β]

def gained (k : κ) (p p' : Pool κ β) : List β := (p'.owned k).filter (· ∈ p.free)

def givenBack (k : κ) (p p' : Pool κ β) : List β := (p.owned k).filter (· ∈ p'.free)

variable {p} {p' : Pool κ β} {k j : κ} {n : ℕ}

omit [DecidableEq κ] in
theorem gained_eq_nil (h : p'.owned k ⊆ p.owned j) : gained k p p' = [] := by
  refine List.filter_eq_nil_iff.mpr fun x hx => ?_
  have hf : x ∉ p.free := fun hf => p.free_disjoint_owned j hf (h hx)
  simpa using hf

omit [DecidableEq κ] in
theorem givenBack_eq_nil (h : p.owned k ⊆ p'.owned j) : givenBack k p p' = [] :=
  gained_eq_nil h

omit [DecidableEq κ] in
theorem givenBack_eq_owned (h : p.owned k ⊆ p'.free) : givenBack k p p' = p.owned k :=
  List.filter_eq_self.mpr fun _ hx => decide_eq_true (h hx)

@[simp] theorem gained_take : gained k p (p.take k n) = p.free.take n := by
  have howned : gained k p p = [] := gained_eq_nil (List.Subset.refl (p.owned k))
  have hfree : (p.free.take n).filter (· ∈ p.free) = p.free.take n :=
    List.filter_eq_self.mpr fun _ hx => decide_eq_true (List.mem_of_mem_take hx)
  unfold gained at howned ⊢
  rw [owned_take_self, List.filter_append, howned, hfree, List.nil_append]

end Accounts
end Pool
