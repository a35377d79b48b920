import Mathlib.Data.List.Basic

/-! Logs of writes to keys, of which the last one to a key wins, read by two readers whose parts of
the log overlap. -/
namespace Log

variable {ε κ ν : Type}

/-- The orders in which two readers can work off their lists. -/
inductive Merge : List ε → List ε → List ε → Prop
  | nil : Merge [] [] []
  | left (e : ε) {xs ys zs : List ε} : Merge xs ys zs → Merge (e :: xs) ys (e :: zs)
  | right (e : ε) {xs ys zs : List ε} : Merge xs ys zs → Merge xs (e :: ys) (e :: zs)

theorem merge_nil_right (xs : List ε) : Merge xs [] xs := by
  induction xs with
  | nil => exact .nil
  | cons x xs ih => exact .left x ih

theorem merge_append (xs ys : List ε) : Merge xs ys (ys ++ xs) := by
  induction ys with
  | nil => exact merge_nil_right xs
  | cons y ys ih => exact .right y ih

section Last
variable (writes : ε → κ → Option ν)

def last : List ε → κ → Option ν
  | [], _ => none
  | e :: es, k => (last es k).or (writes e k)

def write (f : κ → ν) (e : ε) : κ → ν := fun k => (writes e k).getD (f k)

variable {writes}

theorem foldl_write (es : List ε) (f : κ → ν) (k : κ) :
    es.foldl (write writes) f k = (last writes es k).getD (f k) := by
  induction es generalizing f with
  | nil => rfl
  | cons e es ih =>
    rw [List.foldl_cons, ih, last]
    cases last writes es k with
    | none => simp [write]
    | some v => simp

variable (writes) in
theorem last_append (xs ys : List ε) (k : κ) :
    last writes (xs ++ ys) k = (last writes ys k).or (last writes xs k) := by
  induction xs with
  | nil => simp [last]
  | cons x xs ih => rw [List.cons_append, last, ih, last, Option.or_assoc]

/-- The last write is `v` if and only if there is a write of `v` after which nothing else is
written. -/
theorem last_eq_some {es : List ε} {k : κ} {v : ν} :
    last writes es k = some v ↔ ∃ xs e ys, es = xs ++ e :: ys ∧ writes e k = some v ∧
      ∀ f ∈ ys, ∀ u, writes f k = some u → u = v := by
  induction es generalizing v with
  | nil => simp [last]
  | cons e es ih =>
    rw [last]
    constructor
    · intro h
      cases hlast : last writes es k with
      | none =>
        rw [hlast, Option.none_or] at h
        refine ⟨[], e, es, rfl, h, fun f hf u hu => ?_⟩
        obtain ⟨xs, ys, rfl⟩ := List.append_of_mem hf
        rw [last_append, last, hu] at hlast
        simp at hlast
      | some u =>
        rw [hlast, Option.some_or] at h
        obtain ⟨xs, f, ys, rfl, hf, hys⟩ := (ih (v := u)).mp hlast
        cases h
        exact ⟨e :: xs, f, ys, rfl, hf, hys⟩
    · rintro ⟨xs, f, ys, heq, hf, hys⟩
      cases xs with
      | nil =>
        obtain ⟨rfl, rfl⟩ := List.cons.inj heq
        cases hlast : last writes es k with
        | none => rwa [Option.none_or]
        | some u =>
          obtain ⟨xs, g, zs, rfl, hg, -⟩ := (ih (v := u)).mp hlast
          rw [hys g (by simp) u hg, Option.some_or]
      | cons x xs =>
        obtain ⟨rfl, rfl⟩ := List.cons.inj heq
        rw [(ih (v := v)).mpr ⟨xs, f, ys, rfl, hf, hys⟩, Option.some_or]

variable (writes) in
theorem Merge.last_eq {xs ys zs : List ε} (h : Merge xs ys zs) (k : κ) :
    last writes zs k = (last writes xs k).or (last writes ys k) ∨
      last writes zs k = (last writes ys k).or (last writes xs k) := by
  induction h with
  | nil => simp [last]
  | left e _ ih =>
    simp only [last]
    rcases ih with ih | ih
    · rw [ih]
      cases last writes _ k with
      | some v => simp
      | none => simp
    · right
      rw [ih, Option.or_assoc]
  | right e _ ih =>
    simp only [last]
    rcases ih with ih | ih
    · left
      rw [ih, Option.or_assoc]
    · rw [ih]
      cases last writes _ k with
      | some v => simp
      | none => simp

/-- The whole log leaves every key as the part `xs` does, if `xs` writes it at all. -/
def Settled (writes : ε → κ → Option ν) (xs whole : List ε) : Prop :=
  ∀ k v, last writes xs k = some v → last writes whole k = some v

/-- One reader gets the first two parts of a log and the other gets the last two: every order ends
as the log does if and only if the first reader's parts leave nothing that the log changes. -/
theorem overlap_iff (f : κ → ν) (a b c : List ε) :
    (∀ zs, Merge (a ++ b) (b ++ c) zs →
        zs.foldl (write writes) f = (a ++ b ++ c).foldl (write writes) f) ↔
      Settled writes (a ++ b) (a ++ b ++ c) := by
  constructor
  · intro h k v hv
    have hworst := congrFun (h _ (merge_append (a ++ b) (b ++ c))) k
    rw [foldl_write, foldl_write, last_append, hv, Option.some_or, Option.getD_some] at hworst
    rw [last_append, hv] at hworst ⊢
    cases hc : last writes c k with
    | none => simp
    | some u => simpa [hc, eq_comm] using hworst
  · intro h zs hzs
    funext k
    rw [foldl_write, foldl_write]
    congr 1
    have hwhole := last_append writes (a ++ b) c k
    have hrest := last_append writes b c k
    cases hfirst : last writes (a ++ b) k with
    | some v =>
      have hlast := h k v hfirst
      have hsecond : last writes (b ++ c) k = none ∨ last writes (b ++ c) k = some v := by
        rw [hfirst, hlast] at hwhole
        rw [last_append] at hfirst
        cases hc : last writes c k with
        | some u =>
          have hu : u = v := by simpa [hc, eq_comm] using hwhole
          simp [hrest, hc, hu]
        | none =>
          cases hb : last writes b k with
          | none => simp [hrest, hc, hb]
          | some u =>
            have hu : u = v := by simpa [hb] using hfirst
            simp [hrest, hc, hb, hu]
      rcases hzs.last_eq writes k with heq | heq <;> rw [heq, hfirst, hlast]
      · simp
      · rcases hsecond with hs | hs <;> simp [hs]
    | none =>
      have hb : last writes b k = none := by
        rw [last_append] at hfirst
        exact (Option.or_eq_none_iff.mp hfirst).1
      rw [hfirst, Option.or_none] at hwhole
      rw [hb, Option.or_none] at hrest
      rcases hzs.last_eq writes k with heq | heq <;> rw [heq, hfirst, hrest, hwhole]
      · simp
      · simp

end Last

/-- What events bring about and others undo holds in the end if and only if it was brought about and
has not been undone since. -/
theorem foldl_since {σ : Type} {step : σ → ε → σ} {P : σ → Prop} {adds clears : ε → Prop}
    (hstep : ∀ s e, P (step s e) ↔ adds e ∨ P s ∧ ¬clears e) (s : σ) (es : List ε) :
    P (es.foldl step s) ↔ (P s ∧ ∀ e ∈ es, ¬clears e) ∨
      ∃ xs e ys, es = xs ++ e :: ys ∧ adds e ∧ ∀ f ∈ ys, ¬clears f := by
  induction es generalizing s with
  | nil => simp
  | cons e es ih =>
    rw [List.foldl_cons, ih, hstep, List.forall_mem_cons]
    constructor
    · rintro (⟨hadds | ⟨hs, he⟩, hes⟩ | ⟨xs, f, ys, rfl, hf, hys⟩)
      · exact .inr ⟨[], e, es, rfl, hadds, hes⟩
      · exact .inl ⟨hs, he, hes⟩
      · exact .inr ⟨e :: xs, f, ys, rfl, hf, hys⟩
    · rintro (⟨hs, he, hes⟩ | ⟨xs, f, ys, heq, hf, hys⟩)
      · exact .inl ⟨.inr ⟨hs, he⟩, hes⟩
      · cases xs with
        | nil =>
          obtain ⟨rfl, rfl⟩ := List.cons.inj heq
          exact .inl ⟨.inl hf, hys⟩
        | cons x xs =>
          obtain ⟨rfl, rfl⟩ := List.cons.inj heq
          exact .inr ⟨xs, f, ys, rfl, hf, hys⟩

theorem concat_eq_cut {es xs ys : List ε} {a e : ε} : es ++ [a] = xs ++ e :: ys ↔
    (xs = es ∧ e = a ∧ ys = []) ∨ ∃ zs, es = xs ++ e :: zs ∧ ys = zs ++ [a] := by
  constructor
  · intro h
    rcases List.eq_nil_or_concat ys with rfl | ⟨zs, b, rfl⟩
    · obtain ⟨rfl, heq⟩ := List.append_inj' h rfl
      cases heq
      exact .inl ⟨rfl, rfl, rfl⟩
    · rw [List.concat_eq_append, ← List.cons_append, ← List.append_assoc] at h
      obtain ⟨rfl, heq⟩ := List.append_inj' h rfl
      cases heq
      exact .inr ⟨zs, rfl, List.concat_eq_append⟩
  · rintro (⟨rfl, rfl, rfl⟩ | ⟨zs, rfl, rfl⟩)
    · rfl
    · simp

theorem forall_cut_concat {C : List ε → ε → Prop} {es : List ε} {a : ε} :
    (∀ xs e ys, es ++ [a] = xs ++ e :: ys → C xs e) ↔
      (∀ xs e ys, es = xs ++ e :: ys → C xs e) ∧ C es a := by
  constructor
  · intro h
    refine ⟨fun xs e ys hes => h xs e (ys ++ [a]) ?_, h es a [] rfl⟩
    exact concat_eq_cut.mpr (.inr ⟨ys, hes, rfl⟩)
  · rintro ⟨h, ha⟩ xs e ys heq
    rcases concat_eq_cut.mp heq with ⟨rfl, rfl, -⟩ | ⟨zs, hes, -⟩
    · exact ha
    · exact h xs e zs hes

theorem exists_cut_concat {C : List ε → Prop} {es : List ε} {a b : ε} :
    (∃ xs ys, es ++ [a] = xs ++ b :: ys ∧ C xs) ↔
      (∃ xs ys, es = xs ++ b :: ys ∧ C xs) ∨ (a = b ∧ C es) := by
  constructor
  · rintro ⟨xs, ys, heq, hxs⟩
    rcases concat_eq_cut.mp heq with ⟨rfl, rfl, -⟩ | ⟨zs, hes, -⟩
    · exact .inr ⟨rfl, hxs⟩
    · exact .inl ⟨xs, zs, hes, hxs⟩
  · rintro (⟨xs, ys, rfl, hxs⟩ | ⟨rfl, hes⟩)
    · exact ⟨xs, ys ++ [a], by simp, hxs⟩
    · exact ⟨es, [], rfl, hes⟩

/-- An event of the one kind, and none of the other kind since. -/
def Since (adds clears : ε → Prop) (es : List ε) : Prop :=
  ∃ xs e ys, es = xs ++ e :: ys ∧ adds e ∧ ∀ f ∈ ys, ¬clears f

/-- Nothing is open if and only if every opening is followed by a closing. -/
theorem not_since_iff {adds clears : ε → Prop} {es : List ε} : ¬Since adds clears es ↔
    ∀ xs e ys, es = xs ++ e :: ys → adds e → ∃ f ∈ ys, clears f := by
  unfold Since
  push Not
  rfl

theorem since_concat {adds clears : ε → Prop} {es : List ε} {a : ε} :
    Since adds clears (es ++ [a]) ↔ adds a ∨ Since adds clears es ∧ ¬clears a := by
  constructor
  · rintro ⟨xs, e, ys, heq, he, hys⟩
    rcases concat_eq_cut.mp heq with ⟨rfl, rfl, -⟩ | ⟨zs, hes, rfl⟩
    · exact .inl he
    · exact .inr ⟨⟨xs, e, zs, hes, he, fun f hf => hys f (by simp [hf])⟩, hys a (by simp)⟩
  · rintro (ha | ⟨⟨xs, e, ys, rfl, he, hys⟩, ha⟩)
    · exact ⟨es, a, [], rfl, ha, by simp⟩
    · refine ⟨xs, e, ys ++ [a], by simp, he, fun f hf => ?_⟩
      rcases List.mem_append.mp hf with hf | hf
      · exact hys f hf
      · rwa [List.mem_singleton.mp hf]

theorem since_cons {adds clears : ε → Prop} {es : List ε} {a : ε} :
    Since adds clears (a :: es) ↔ adds a ∧ (∀ f ∈ es, ¬clears f) ∨ Since adds clears es := by
  constructor
  · rintro ⟨_ | ⟨b, xs⟩, e, ys, heq, he, hys⟩
    · cases heq
      exact .inl ⟨he, hys⟩
    · cases heq
      exact .inr ⟨xs, e, ys, rfl, he, hys⟩
  · rintro (⟨ha, hes⟩ | ⟨xs, e, ys, rfl, he, hys⟩)
    · exact ⟨[], a, es, rfl, ha, hes⟩
    · exact ⟨a :: xs, e, ys, rfl, he, hys⟩

instance Since.decidable {adds clears : ε → Prop} [DecidablePred adds] [DecidablePred clears] :
    (es : List ε) → Decidable (Since adds clears es)
  | [] => isFalse fun ⟨_, _, _, heq, _⟩ => by simp at heq
  | a :: es =>
    have : Decidable (Since adds clears es) := Since.decidable es
    decidable_of_iff (adds a ∧ (∀ f ∈ es, ¬clears f) ∨ Since adds clears es) since_cons.symm

end Log
