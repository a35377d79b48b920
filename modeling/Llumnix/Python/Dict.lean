import Mathlib.Data.Finset.Card

/-! Dictionaries in order of insertion, and the choice of an extreme element of a list. -/
namespace Python

/-- A dictionary as the list of its items, the oldest key first. -/
structure Dict (κ ν : Type) where
  items : List (κ × ν)
  nodup : (items.map Prod.fst).Nodup

namespace Dict
variable {κ ν : Type} {es : List (κ × ν)}

def empty : Dict κ ν := ⟨[], List.nodup_nil⟩

def keys (d : Dict κ ν) : List κ := d.items.map Prod.fst

def values (d : Dict κ ν) : List ν := d.items.map Prod.snd

def keySet (d : Dict κ ν) : Finset κ := ⟨d.keys, d.nodup⟩

instance : Membership κ (Dict κ ν) where
  mem d k := k ∈ d.keys

theorem mem_def {d : Dict κ ν} {k : κ} : k ∈ d ↔ k ∈ d.keys := Iff.rfl

@[simp] theorem mem_keySet {d : Dict κ ν} {k : κ} : k ∈ d.keySet ↔ k ∈ d := Iff.rfl

@[simp] theorem not_mem_empty (k : κ) : k ∉ (empty : Dict κ ν) := List.not_mem_nil

@[simp] theorem keySet_empty : (empty : Dict κ ν).keySet = ∅ := rfl

theorem card_keySet (d : Dict κ ν) : d.keySet.card = d.items.length := by
  simp [keySet, keys]

theorem mem_of_item {d : Dict κ ν} {k : κ} {v : ν} (h : (k, v) ∈ d.items) : k ∈ d :=
  List.mem_map_of_mem (f := Prod.fst) h

theorem item_of_mem {d : Dict κ ν} {k : κ} (h : k ∈ d) : ∃ v, (k, v) ∈ d.items := by
  obtain ⟨⟨k, v⟩, hmem, rfl⟩ := List.mem_map.mp h
  exact ⟨v, hmem⟩

theorem item_unique {d : Dict κ ν} {k : κ} {v v' : ν} (h : (k, v) ∈ d.items)
    (h' : (k, v') ∈ d.items) : v = v' := by
  have heq := List.inj_on_of_nodup_map d.nodup h h' rfl
  exact congrArg Prod.snd heq

variable [DecidableEq κ]

instance (d : Dict κ ν) (k : κ) : Decidable (k ∈ d) := inferInstanceAs (Decidable (k ∈ d.keys))

/-- `d.get(k)`. -/
def get? (d : Dict κ ν) (k : κ) : Option ν := (d.items.find? (·.1 = k)).map Prod.snd

/-- `del d[k]`, or `d.pop(k, None)`. -/
def erase (d : Dict κ ν) (k : κ) : Dict κ ν where
  items := d.items.filter (·.1 ≠ k)
  nodup := d.nodup.sublist (List.filter_sublist.map Prod.fst)

/-- `d[k] = v`: a key that is there keeps its place. -/
def set (d : Dict κ ν) (k : κ) (v : ν) : Dict κ ν where
  items :=
    if k ∈ d then d.items.map fun e => if e.1 = k then (k, v) else e else d.items ++ [(k, v)]
  nodup := by
    split
    · have hkeys : (d.items.map fun e => if e.1 = k then (k, v) else e).map Prod.fst =
          d.items.map Prod.fst := by
        rw [List.map_map]
        refine List.map_congr_left fun e _ => ?_
        by_cases he : e.1 = k <;> simp [he]
      rw [hkeys]
      exact d.nodup
    · rename_i hk
      rw [List.map_append]
      refine List.nodup_append.mpr ⟨d.nodup, List.nodup_singleton k, ?_⟩
      rintro a ha b hb rfl
      have hak : a = k := List.mem_singleton.mp hb
      exact hk (hak ▸ ha)

def setAll (d : Dict κ ν) (es : List (κ × ν)) : Dict κ ν := es.foldl (fun d e => d.set e.1 e.2) d

def update (d d' : Dict κ ν) : Dict κ ν := d.setAll d'.items

variable {d : Dict κ ν} {k : κ} {v : ν}

theorem mem_items_erase {e : κ × ν} : e ∈ (d.erase k).items ↔ e ∈ d.items ∧ e.1 ≠ k := by
  simp [erase]

theorem mem_items_set {e : κ × ν} :
    e ∈ (d.set k v).items ↔ e = (k, v) ∨ e ∈ d.items ∧ e.1 ≠ k := by
  by_cases hk : k ∈ d
  · obtain ⟨u, hu⟩ := item_of_mem hk
    simp only [set, if_pos hk, List.mem_map]
    constructor
    · rintro ⟨x, hx, rfl⟩
      by_cases hxk : x.1 = k
      · simp [hxk]
      · simp [hxk, hx]
    · rintro (rfl | ⟨he, hne⟩)
      · exact ⟨(k, u), hu, by simp⟩
      · exact ⟨e, he, by simp [hne]⟩
  · have hne : ∀ x ∈ d.items, x.1 ≠ k := fun x hx heq => hk (heq ▸ mem_of_item hx)
    simp only [set, if_neg hk, List.mem_append, List.mem_singleton]
    constructor
    · rintro (he | rfl)
      · exact .inr ⟨he, hne e he⟩
      · exact .inl rfl
    · rintro (rfl | ⟨he, -⟩)
      · exact .inr rfl
      · exact .inl he

theorem forall_items_set {Q : κ × ν → Prop} (h : ∀ e ∈ d.items, Q e) (hkv : Q (k, v)) :
    ∀ e ∈ (d.set k v).items, Q e := by
  intro e he
  rcases mem_items_set.mp he with rfl | ⟨he, -⟩
  · exact hkv
  · exact h e he

@[simp] theorem mem_set {j : κ} : j ∈ d.set k v ↔ j = k ∨ j ∈ d := by
  constructor
  · intro h
    obtain ⟨u, hu⟩ := item_of_mem h
    rcases mem_items_set.mp hu with heq | ⟨hu, -⟩
    · exact .inl (congrArg Prod.fst heq)
    · exact .inr (mem_of_item hu)
  · intro h
    by_cases hjk : j = k
    · exact hjk ▸ mem_of_item (mem_items_set.mpr (.inl rfl))
    · obtain ⟨u, hu⟩ := item_of_mem (h.resolve_left hjk)
      exact mem_of_item (mem_items_set.mpr (.inr ⟨hu, hjk⟩))

theorem keys_set_of_mem (hk : k ∈ d) : (d.set k v).keys = d.keys := by
  unfold keys set
  dsimp only
  rw [if_pos hk, List.map_map]
  refine List.map_congr_left fun e _ => ?_
  by_cases he : e.1 = k <;> simp [he]

@[simp] theorem mem_erase {j : κ} : j ∈ d.erase k ↔ j ≠ k ∧ j ∈ d := by
  constructor
  · intro h
    obtain ⟨u, hu⟩ := item_of_mem h
    obtain ⟨hu, hne⟩ := mem_items_erase.mp hu
    exact ⟨hne, mem_of_item hu⟩
  · rintro ⟨hne, h⟩
    obtain ⟨u, hu⟩ := item_of_mem h
    exact mem_of_item (mem_items_erase.mpr ⟨hu, hne⟩)

@[simp] theorem keySet_set : (d.set k v).keySet = insert k d.keySet := by
  ext j
  simp

@[simp] theorem keySet_erase : (d.erase k).keySet = d.keySet.erase k := by
  ext j
  simp

theorem forall_items_setAll {Q : κ × ν → Prop} (h : ∀ e ∈ d.items, Q e) (hes : ∀ e ∈ es, Q e) :
    ∀ e ∈ (d.setAll es).items, Q e := by
  induction es generalizing d with
  | nil => exact h
  | cons x xs ih =>
    have hx : Q x := hes x List.mem_cons_self
    exact ih (forall_items_set h hx) fun e he => hes e (List.mem_cons_of_mem x he)

theorem mem_setAll {j : κ} : j ∈ d.setAll es ↔ j ∈ es.map Prod.fst ∨ j ∈ d := by
  induction es generalizing d with
  | nil => simp [setAll]
  | cons x xs ih =>
    change j ∈ (d.set x.1 x.2).setAll xs ↔ _
    rw [ih, mem_set, List.map_cons, List.mem_cons]
    tauto

theorem get?_eq_some : d.get? k = some v ↔ (k, v) ∈ d.items := by
  unfold get?
  constructor
  · intro h
    obtain ⟨e, he, rfl⟩ := Option.map_eq_some_iff.mp h
    have hk : e.1 = k := by simpa using List.find?_some he
    exact hk ▸ List.mem_of_find?_eq_some he
  · intro h
    cases hf : d.items.find? (·.1 = k) with
    | none => simpa using List.find?_eq_none.mp hf (k, v) h
    | some e =>
      have hk : e.1 = k := by simpa using List.find?_some hf
      have he : (k, e.2) ∈ d.items := hk ▸ List.mem_of_find?_eq_some hf
      simp [item_unique he h]

theorem get?_eq_none : d.get? k = none ↔ k ∉ d := by
  constructor
  · intro h hk
    obtain ⟨v, hv⟩ := item_of_mem hk
    rw [get?_eq_some.mpr hv] at h
    cases h
  · intro hk
    cases h : d.get? k with
    | none => rfl
    | some v => exact absurd (mem_of_item (get?_eq_some.mp h)) hk

@[simp] theorem get?_empty : (empty : Dict κ ν).get? k = none := rfl

theorem get?_set {j : κ} : (d.set k v).get? j = if j = k then some v else d.get? j := by
  by_cases hjk : j = k
  · rw [if_pos hjk, get?_eq_some, mem_items_set, hjk]
    exact .inl rfl
  · rw [if_neg hjk]
    cases hj : d.get? j with
    | none =>
      have hnot := get?_eq_none.mp hj
      exact get?_eq_none.mpr (by simp [hjk, hnot])
    | some u => exact get?_eq_some.mpr (mem_items_set.mpr (.inr ⟨get?_eq_some.mp hj, hjk⟩))

theorem get?_erase {j : κ} : (d.erase k).get? j = if j = k then none else d.get? j := by
  by_cases hjk : j = k
  · rw [if_pos hjk, get?_eq_none, hjk]
    simp
  · rw [if_neg hjk]
    cases hj : d.get? j with
    | none =>
      have hnot := get?_eq_none.mp hj
      exact get?_eq_none.mpr (by simp [hnot])
    | some u => exact get?_eq_some.mpr (mem_items_erase.mpr ⟨get?_eq_some.mp hj, hjk⟩)

theorem mem_of_get? (h : d.get? k = some v) : k ∈ d := mem_of_item (get?_eq_some.mp h)

theorem get?_set_eq_some (hk : k ∉ d) {j : κ} {u : ν} :
    (d.set k v).get? j = some u ↔ j = k ∧ u = v ∨ d.get? j = some u := by
  have hnone : d.get? k = none := get?_eq_none.mpr hk
  rw [get?_set]
  by_cases hjk : j = k
  · simp [hjk, hnone, eq_comm]
  · simp [hjk]

theorem get?_erase_eq_some {j : κ} {u : ν} :
    (d.erase k).get? j = some u ↔ j ≠ k ∧ d.get? j = some u := by
  rw [get?_erase]
  by_cases hjk : j = k
  · simp [hjk]
  · simp [hjk]

theorem erase_of_not_mem (hk : k ∉ d) : d.erase k = d := by
  have hitems : d.items.filter (·.1 ≠ k) = d.items := by
    refine List.filter_eq_self.mpr fun e he => ?_
    have hne : e.1 ≠ k := fun heq => hk (heq ▸ mem_of_item he)
    simpa using hne
  unfold erase
  simp only [hitems]

def fromkeys {μ : Type} (d : Dict κ ν) (v : μ) : Dict κ μ where
  items := d.items.map fun e => (e.1, v)
  nodup := by
    rw [List.map_map]
    exact d.nodup

theorem get?_fromkeys {μ : Type} {u : μ} (h : k ∈ d) : (d.fromkeys u).get? k = some u := by
  obtain ⟨v, hv⟩ := item_of_mem h
  exact get?_eq_some.mpr (List.mem_map.mpr ⟨(k, v), hv, rfl⟩)

theorem filter_items (d : Dict κ ν) (k : κ) :
    d.items.filter (·.1 = k) = (d.get? k).toList.map (k, ·) := by
  obtain ⟨items, hnodup⟩ := d
  induction items with
  | nil => rfl
  | cons e es ih =>
    obtain ⟨hnot, hes⟩ := List.nodup_cons.mp hnodup
    by_cases he : e.1 = k
    · have hrest : es.filter (·.1 = k) = [] := by
        refine List.filter_eq_nil_iff.mpr fun x hx hxk => hnot ?_
        have hxk : x.1 = k := by simpa using hxk
        exact List.mem_map.mpr ⟨x, hx, hxk.trans he.symm⟩
      simp [get?, he, hrest, Prod.ext_iff]
    · simpa [get?, he] using ih hes

/-- `d[k].append(v)`, where a missing key has the empty list. -/
def append (d : Dict κ (List ν)) (k : κ) (v : ν) : Dict κ (List ν) :=
  d.set k ((d.get? k).getD [] ++ [v])

/-- The values of each key, in order of arrival. -/
def group (es : List (κ × ν)) : Dict κ (List ν) := es.foldl (fun d e => d.append e.1 e.2) .empty

theorem getD_group (es : List (κ × ν)) (k : κ) :
    ((group es).get? k).getD [] = (es.filter (·.1 = k)).map Prod.snd := by
  have hfold : ∀ d : Dict κ (List ν),
      ((es.foldl (fun d e => d.append e.1 e.2) d).get? k).getD [] =
        (d.get? k).getD [] ++ (es.filter (·.1 = k)).map Prod.snd := by
    induction es with
    | nil => simp
    | cons e es ih =>
      intro d
      rw [List.foldl_cons, ih, append, get?_set]
      by_cases he : e.1 = k
      · simp [he]
      · simp [he, Ne.symm he]
  simpa [group] using hfold .empty

theorem ne_nil_of_group {vs : List ν} (h : (group es).get? k = some vs) : vs ≠ [] := by
  have hfold : ∀ d : Dict κ (List ν), (∀ e ∈ d.items, e.2 ≠ []) →
      ∀ e ∈ (es.foldl (fun d e => d.append e.1 e.2) d).items, e.2 ≠ [] := by
    clear h
    induction es with
    | nil => exact fun _ hd => hd
    | cons e es ih => exact fun d hd => ih _ (forall_items_set hd (by simp))
  exact hfold .empty (by simp [empty]) _ (get?_eq_some.mp h)

theorem filter_flatMap_items (d : Dict κ (List ν)) (k : κ) :
    (d.items.flatMap fun m => m.2.map (m.1, ·)).filter (·.1 = k) =
      ((d.get? k).getD []).map (k, ·) := by
  have hone : ∀ m : κ × List ν, (m.2.map (m.1, ·)).filter (·.1 = k) =
      if m.1 = k then m.2.map (k, ·) else [] := by
    intro m
    rw [List.filter_map]
    split_ifs with hm
    · simp [hm, Function.comp_def]
    · simp [hm, Function.comp_def]
  have hsplit : d.items.flatMap (fun m => if m.1 = k then m.2.map (k, ·) else []) =
      (d.items.filter (·.1 = k)).flatMap fun m => m.2.map (k, ·) := by
    induction d.items with
    | nil => rfl
    | cons m ms ih =>
      rw [List.flatMap_cons, ih]
      by_cases hm : m.1 = k <;> simp [hm]
  rw [List.filter_flatMap]
  simp only [hone, hsplit, filter_items]
  cases d.get? k <;> simp

theorem perm_group (es : List (κ × ν)) :
    ((group es).items.flatMap fun m => m.2.map (m.1, ·)).Perm es := by
  classical
  refine List.perm_iff_count.mpr fun e => ?_
  have hfilter : ((group es).items.flatMap fun m => m.2.map (m.1, ·)).filter (·.1 = e.1) =
      es.filter (·.1 = e.1) := by
    rw [filter_flatMap_items, getD_group, List.map_map]
    refine (List.map_congr_left fun x hx => ?_).trans (List.map_id _)
    have hkey : x.1 = e.1 := by simpa using (List.mem_filter.mp hx).2
    exact Prod.ext hkey.symm rfl
  have hcount : ∀ xs : List (κ × ν), xs.count e = (xs.filter (·.1 = e.1)).count e := fun xs =>
    (List.count_filter (by simp)).symm
  rw [hcount, hfilter, ← hcount]

theorem mem_group : k ∈ group es ↔ k ∈ es.map Prod.fst := by
  have hvalues := getD_group es k
  have hfilter : (es.filter (·.1 = k)).map Prod.snd = [] ↔ k ∉ es.map Prod.fst := by
    rw [List.map_eq_nil_iff, List.filter_eq_nil_iff, List.mem_map, not_exists]
    simp only [decide_eq_true_eq, not_and]
  cases h : (group es).get? k with
  | none =>
    rw [h] at hvalues
    have hnot := hfilter.mp hvalues.symm
    exact iff_of_false (get?_eq_none.mp h) hnot
  | some vs =>
    rw [h] at hvalues
    have hne : (es.filter (·.1 = k)).map Prod.snd ≠ [] := hvalues ▸ ne_nil_of_group h
    exact iff_of_true (mem_of_get? h) (not_not.mp fun hnot => hne (hfilter.mpr hnot))

section Inverse
variable {κ' : Type} [DecidableEq κ'] {name : ν → κ'} {d' : Dict κ' κ}

/-- `d'` takes the names of the values of `d` back to their keys, and has no other entries. -/
structure Inverse (name : ν → κ') (d : Dict κ ν) (d' : Dict κ' κ) : Prop where
  forth : ∀ k v, d.get? k = some v → d'.get? (name v) = some k
  back : ∀ t k, d'.get? t = some k → ∃ v, d.get? k = some v ∧ name v = t

theorem inverse_empty : Inverse name (empty : Dict κ ν) empty := ⟨nofun, nofun⟩

theorem Inverse.set (h : Inverse name d d') (hk : k ∉ d) (hv : name v ∉ d') :
    Inverse name (d.set k v) (d'.set (name v) k) where
  forth j u hj := by
    rcases (get?_set_eq_some hk).mp hj with ⟨rfl, rfl⟩ | hj
    · rw [get?_set, if_pos rfl]
    · exact (get?_set_eq_some hv).mpr (.inr (h.forth j u hj))
  back t j ht := by
    rcases (get?_set_eq_some hv).mp ht with ⟨rfl, rfl⟩ | ht
    · exact ⟨v, by rw [get?_set, if_pos rfl], rfl⟩
    · obtain ⟨u, hj, hu⟩ := h.back t j ht
      exact ⟨u, (get?_set_eq_some hk).mpr (.inr hj), hu⟩

theorem Inverse.erase (h : Inverse name d d') (hk : d.get? k = some v) :
    Inverse name (d.erase k) (d'.erase (name v)) where
  forth j u hj := by
    obtain ⟨hjk, hj⟩ := get?_erase_eq_some.mp hj
    refine get?_erase_eq_some.mpr ⟨fun hname => ?_, h.forth j u hj⟩
    have heq := (h.forth j u hj).symm.trans (hname ▸ h.forth k v hk)
    exact hjk (Option.some.inj heq)
  back t j ht := by
    obtain ⟨htv, ht⟩ := get?_erase_eq_some.mp ht
    obtain ⟨u, hj, hu⟩ := h.back t j ht
    refine ⟨u, get?_erase_eq_some.mpr ⟨?_, hj⟩, hu⟩
    rintro rfl
    cases hj.symm.trans hk
    exact htv hu.symm

theorem Inverse.not_erase (h : Inverse name d d') (hk : d.get? k = some v) :
    ¬Inverse name (d.erase k) d' := by
  intro h'
  obtain ⟨u, hu, -⟩ := h'.back (name v) k (h.forth k v hk)
  exact (get?_erase_eq_some.mp hu).1 rfl

end Inverse

end Dict

section Extreme
variable {α : Type} {better : α → α → Bool}

/-- `max(xs)` and `min(xs)`: the first element that no later one is better than. -/
def extreme (better : α → α → Bool) : List α → Option α
  | [] => none
  | x :: xs => some (xs.foldl (fun m y => if better y m then y else m) x)

theorem mem_of_extreme {xs : List α} {x : α} (h : extreme better xs = some x) : x ∈ xs := by
  cases xs with
  | nil => cases h
  | cons a as =>
    have hfold : ∀ (as : List α) (a : α),
        as.foldl (fun m y => if better y m then y else m) a ∈ a :: as := by
      intro as
      induction as with
      | nil => simp
      | cons b bs ih =>
        intro a
        rw [List.foldl_cons]
        by_cases hba : better b a
        · rw [if_pos hba]
          exact List.mem_cons_of_mem a (ih b)
        · rw [if_neg hba]
          have ha := ih a
          simp only [List.mem_cons] at ha ⊢
          exact ha.imp id .inr
    have hx : as.foldl (fun m y => if better y m then y else m) a = x := Option.some.inj h
    exact hx ▸ hfold as a

theorem extreme_isSome (better : α → α → Bool) {xs : List α} (h : xs ≠ []) :
    ∃ x, extreme better xs = some x := by
  cases xs with
  | nil => exact absurd rfl h
  | cons a as => exact ⟨_, rfl⟩

/-- Nothing is better than what is chosen. -/
theorem not_better_of_extreme (hirrefl : ∀ x, ¬better x x)
    (htrans : ∀ x y z, better x y → better y z → better x z) {xs : List α} {m : α}
    (h : extreme better xs = some m) : ∀ x ∈ xs, ¬better x m := by
  cases xs with
  | nil => cases h
  | cons a as =>
    have hfold : ∀ (as : List α) (a : α),
        (∀ x, better x (as.foldl (fun m y => if better y m then y else m) a) → better x a) ∧
          ∀ x ∈ as, ¬better x (as.foldl (fun m y => if better y m then y else m) a) := by
      intro as
      induction as with
      | nil => simp
      | cons b bs ih =>
        intro a
        rw [List.foldl_cons]
        by_cases hba : better b a
        · rw [if_pos hba]
          obtain ⟨hstart, hrest⟩ := ih b
          refine ⟨fun x hx => htrans x b a (hstart x hx) hba, fun x hx => ?_⟩
          rcases List.mem_cons.mp hx with rfl | hx
          · exact fun hbetter => hirrefl x (hstart x hbetter)
          · exact hrest x hx
        · rw [if_neg hba]
          obtain ⟨hstart, hrest⟩ := ih a
          refine ⟨hstart, fun x hx => ?_⟩
          rcases List.mem_cons.mp hx with rfl | hx
          · exact fun hbetter => hba (hstart x hbetter)
          · exact hrest x hx
    obtain ⟨hstart, hrest⟩ := hfold as a
    have hm : as.foldl (fun m y => if better y m then y else m) a = m := Option.some.inj h
    rw [hm] at hstart hrest
    intro x hx
    rcases List.mem_cons.mp hx with rfl | hx
    · exact fun hbetter => hirrefl x (hstart x hbetter)
    · exact hrest x hx

end Extreme
end Python
