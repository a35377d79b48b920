import Llumnix.Client.Basic

/-! The counters of the fallback instances. Each increment is owed back by the entry of its request
or by an `abort` that waits for the instance. -/
namespace Llumnix.Client

open Machine Python Output

theorem countP_modify {α : Type} {l : List α} {j : ℕ} {x : α} (h : l[j]? = some x) (g : α → α)
    (p : α → Bool) :
    (l.modify j g).countP p + (if p x then 1 else 0) =
      l.countP p + (if p (g x) then 1 else 0) := by
  induction l generalizing j with
  | nil => cases h
  | cons y l ih =>
    cases j with
    | zero =>
      cases h
      simp only [List.modify_zero_cons, List.countP_cons]
      omega
    | succ j =>
      have hrest := ih h
      simp only [List.modify_succ_cons, List.countP_cons]
      omega

namespace Fallback
variable {H : Type} {f f' : Fallback H} {i j q r : String}

/-- The instances are the counted ones, and the counters count. -/
structure Counts (f : Fallback H) : Prop where
  keys : ∀ i, i ∈ f.instances ↔ i ∈ f.instanceNumRequests
  counter : ∀ i n, f.instanceNumRequests.get? i = some n → n = f.counted.countP (·.1 = i)

def entry (f : Fallback H) (i r : String) : ℕ :=
  if f.fallbackRequestInstance.get? r = some i then 1 else 0

theorem choose_eq_some (h : f.choose q = some (j, f')) : ∃ n,
    f.instanceNumRequests.get? j = some n ∧ f' = { f with
      instanceNumRequests := f.instanceNumRequests.set j (n + 1)
      fallbackRequestInstance := f.fallbackRequestInstance.set q j
      counted := (j, q) :: f.counted } := by
  obtain ⟨⟨i, n⟩, he, heq⟩ := Option.map_eq_some_iff.mp h
  cases heq
  exact ⟨n, Dict.get?_eq_some.mpr (mem_of_extreme he), rfl⟩

theorem Counts.choose (h : f.Counts) (hc : f.choose q = some (j, f')) : f'.Counts := by
  obtain ⟨n, hn, rfl⟩ := choose_eq_some hc
  refine ⟨fun i => ?_, fun i m hm => ?_⟩
  · have hj : j ∈ f.instanceNumRequests := Dict.mem_of_get? hn
    rw [h.keys, Dict.mem_set]
    exact ⟨.inr, fun hi => hi.elim (fun hij => hij ▸ hj) id⟩
  · simp only [Dict.get?_set] at hm
    by_cases hij : i = j
    · rw [if_pos hij] at hm
      cases hm
      simp [hij, h.counter j n hn]
    · rw [if_neg hij] at hm
      simp [Ne.symm hij, h.counter i m hm]

theorem Counts.remove (h : f.Counts) (j : String) : (f.remove j).Counts := by
  refine ⟨fun i => ?_, fun i n hn => ?_⟩
  · simp only [Fallback.remove, Dict.mem_erase, h.keys]
  · simp only [Fallback.remove, Dict.get?_erase] at hn
    split_ifs at hn with hij
    have hfilter : (f.counted.filter (·.1 ≠ j)).countP (·.1 = i) = f.counted.countP (·.1 = i) := by
      rw [List.countP_filter]
      refine List.countP_congr fun e _ => ?_
      simp only [decide_eq_true_eq, Bool.and_eq_true, and_iff_left_iff_imp]
      rintro rfl
      simpa using hij
    simp only [Fallback.remove]
    rw [hfilter]
    exact h.counter i n hn

theorem Counts.pop (h : f.Counts) (q : String) : (f.pop q).Counts := ⟨h.keys, h.counter⟩

theorem Counts.uncount (h : f.Counts) (hq : j ∈ f.instances → (j, q) ∈ f.counted) :
    (f.uncount j q).Counts := by
  unfold Fallback.uncount
  cases hj : f.instanceNumRequests.get? j with
  | none => exact h
  | some n =>
    have hmem : j ∈ f.instanceNumRequests := Dict.mem_of_get? hj
    have hcounted := hq ((h.keys j).mpr hmem)
    refine ⟨fun i => ?_, fun i m hm => ?_⟩
    · rw [h.keys, Dict.mem_set]
      exact ⟨.inr, fun hi => hi.elim (fun hij => hij ▸ hmem) id⟩
    · simp only [Dict.get?_set] at hm ⊢
      rw [List.countP_erase]
      by_cases hij : i = j
      · rw [if_pos hij] at hm
        cases hm
        simp [hij, hcounted, h.counter j n hj]
      · rw [if_neg hij] at hm
        simp [Ne.symm hij, h.counter i m hm]

theorem count_uncount (hj : i ∈ f.instanceNumRequests) :
    (f.uncount j q).counted.count (i, r) =
      f.counted.count (i, r) - if (j, q) = (i, r) then 1 else 0 := by
  unfold Fallback.uncount
  cases h : f.instanceNumRequests.get? j with
  | none =>
    have hne : (j, q) ≠ (i, r) := by
      intro heq
      cases heq
      exact Dict.get?_eq_none.mp h hj
    simp [hne]
  | some n =>
    simp only [List.count_erase, beq_iff_eq]

@[simp] theorem uncount_instances : (f.uncount j q).instances = f.instances := by
  unfold Fallback.uncount
  split <;> rfl

@[simp] theorem uncount_fallback :
    (f.uncount j q).fallbackRequestInstance = f.fallbackRequestInstance := by
  unfold Fallback.uncount
  split <;> rfl

end Fallback

namespace LlumnixClientVLLM
variable {H : Type} {s s' : LlumnixClientVLLM H} {a : Action H} {i j q r : String}
  {more : String → Prop}

def count (s : LlumnixClientVLLM H) (i r : String) : ℕ := s.fallback.counted.count (i, r)

def awaiting (s : LlumnixClientVLLM H) (i r : String) : ℕ :=
  s.aborts.countP fun f => f.requestId = r ∧ f.point = .onInstance i

def owed (s : LlumnixClientVLLM H) (i r : String) : ℕ := s.fallback.entry i r + s.awaiting i r

structure Ledger (s : LlumnixClientVLLM H) : Prop where
  counts : s.fallback.Counts
  covered : ∀ i ∈ s.fallback.instances, ∀ r, s.owed i r ≤ s.count i r

/-- The request is sent to an instance while its entry is for one that is still there. -/
def Redispatches (s : LlumnixClientVLLM H) (r : String) : Action H → Prop
  | .managerAnswers k .actorError => ∃ call, s.calls[k]? = some call ∧ call.requestId = r ∧
      ∃ i ∈ s.fallback.instances, s.fallback.fallbackRequestInstance.get? r = some i
  | _ => False

/-- What is counted and what is owed change alike, except for the requests in `more`. -/
structure Balanced (s s' : LlumnixClientVLLM H) (more : String → Prop) : Prop where
  counts : s'.fallback.Counts
  alive : ∀ i ∈ s'.fallback.instances, i ∈ s.fallback.instances
  le : ∀ i ∈ s'.fallback.instances, ∀ r, s.count i r + s'.owed i r ≤ s'.count i r + s.owed i r
  eq : ∀ i ∈ s'.fallback.instances, ∀ r, ¬more r →
    s.count i r + s'.owed i r = s'.count i r + s.owed i r

theorem Balanced.of_eq (counts : s'.fallback.Counts)
    (alive : ∀ i ∈ s'.fallback.instances, i ∈ s.fallback.instances)
    (eq : ∀ i ∈ s'.fallback.instances, ∀ r, s.count i r + s'.owed i r = s'.count i r + s.owed i r) :
    Balanced s s' more :=
  ⟨counts, alive, fun i hi r => (eq i hi r).le, fun i hi r _ => eq i hi r⟩

theorem Ledger.unchanged (h : s.Ledger) (hf : s'.fallback = s.fallback)
    (hw : ∀ i r, s'.awaiting i r = s.awaiting i r) : Balanced s s' more := by
  refine .of_eq (hf ▸ h.counts) (fun i hi => hf ▸ hi) fun i _ r => ?_
  simp only [count, owed, hf, hw]

theorem Balanced.trans {t : LlumnixClientVLLM H} (h : Balanced s t more) (h' : Balanced t s' more) :
    Balanced s s' more where
  counts := h'.counts
  alive i hi := h.alive i (h'.alive i hi)
  le i hi r := by
    have hst := h.le i (h'.alive i hi) r
    have hts := h'.le i hi r
    omega
  eq i hi r hr := by
    have hst := h.eq i (h'.alive i hi) r hr
    have hts := h'.eq i hi r hr
    omega

theorem Ledger.balanced (h : s.Ledger) (hb : Balanced s s' more) : s'.Ledger where
  counts := hb.counts
  covered i hi r := by
    have hle := hb.le i hi r
    have hcovered := h.covered i (hb.alive i hi) r
    omega

/-! ### The steps -/

theorem awaiting_abortTo {k : ℕ} {f : Abort} (hf : s.aborts[k]? = some f) (point : AbortPoint)
    (outage : Bool) (i r : String) :
    (s.abortTo k point outage).awaiting i r +
        (if f.requestId = r ∧ f.point = .onInstance i then 1 else 0) =
      s.awaiting i r + if f.requestId = r ∧ point = .onInstance i then 1 else 0 := by
  have hmodify := countP_modify hf ({ · with point, outage })
    fun f => decide (f.requestId = r ∧ f.point = .onInstance i)
  simpa [awaiting, abortTo] using hmodify

theorem Ledger.generateByInstance (h : s.Ledger) (k : ℕ) (q : String) :
    Balanced s (s.generateByInstance k q) fun r => r = q ∧
      ∃ i ∈ s.fallback.instances, s.fallback.fallbackRequestInstance.get? r = some i := by
  unfold LlumnixClientVLLM.generateByInstance
  cases hc : s.fallback.choose q with
  | none => exact h.unchanged rfl fun _ _ => rfl
  | some e =>
    obtain ⟨j, f⟩ := e
    obtain ⟨n, -, hf⟩ := Fallback.choose_eq_some hc
    have hcount : ∀ i r, f.counted.count (i, r) =
        s.count i r + if (j, q) = (i, r) then 1 else 0 := by
      intro i r
      simp [hf, count, List.count_cons]
    have hentry : ∀ i r, f.entry i r =
        if r = q then if j = i then 1 else 0 else s.fallback.entry i r := by
      intro i r
      by_cases hr : r = q <;> simp [hf, Fallback.entry, Dict.get?_set, hr]
    have halive : ∀ i ∈ f.instances, i ∈ s.fallback.instances := by
      intro i hi
      rwa [hf] at hi
    refine ⟨h.counts.choose hc, halive, fun i hi r => ?_, fun i hi r hr => ?_⟩
    · change s.count i r + (f.entry i r + s.awaiting i r) ≤ f.counted.count (i, r) + s.owed i r
      rw [hcount, hentry, owed]
      by_cases hrq : r = q
      · simp only [hrq, Prod.mk.injEq, and_true, if_true]
        omega
      · simp [hrq, Ne.symm hrq]
    · change s.count i r + (f.entry i r + s.awaiting i r) = f.counted.count (i, r) + s.owed i r
      rw [hcount, hentry, owed]
      by_cases hrq : r = q
      · have hnone : s.fallback.entry i r = 0 := by
          refine if_neg fun hri => hr ⟨hrq, i, halive i hi, hri⟩
        rw [hrq] at hnone ⊢
        simp only [hnone, Prod.mk.injEq, and_true, if_true]
        omega
      · simp [hrq, Ne.symm hrq]

theorem Ledger.remove (h : s.Ledger) (j : String) :
    Balanced s { s with fallback := s.fallback.remove j } more := by
  refine .of_eq (h.counts.remove j) (fun i hi => (Dict.mem_erase.mp hi).2) fun i hi r => ?_
  have hij : i ≠ j := (Dict.mem_erase.mp hi).1
  have hcount : (s.fallback.remove j).counted.count (i, r) = s.count i r :=
    List.count_filter (by simpa using hij)
  change s.count i r + s.owed i r = (s.fallback.remove j).counted.count (i, r) + s.owed i r
  rw [hcount]

theorem entry_pop (f : Fallback H) (i q r : String) :
    (f.pop q).entry i r = if r = q then 0 else f.entry i r := by
  by_cases hr : r = q <;> simp [Fallback.entry, Fallback.pop, Dict.get?_erase, hr]

theorem Ledger.release (h : s.Ledger) (q : String) :
    Balanced s { s with fallback := s.fallback.release q } more := by
  unfold Fallback.release
  cases hq : s.fallback.fallbackRequestInstance.get? q with
  | none => exact h.unchanged rfl fun _ _ => rfl
  | some j =>
    have hentry : ∀ i, s.fallback.entry i q = if j = i then 1 else 0 := by
      intro i
      simp [Fallback.entry, hq]
    have hcounted : j ∈ s.fallback.instances → (j, q) ∈ s.fallback.counted := by
      intro hj
      have hcovered := h.covered j hj q
      rw [owed, hentry, if_pos rfl] at hcovered
      exact List.count_pos_iff.mp (by unfold count at hcovered; omega)
    have halive : ∀ i ∈ ((s.fallback.pop q).uncount j q).instances, i ∈ s.fallback.instances := by
      intro i hi
      simpa [Fallback.pop] using hi
    refine .of_eq ((h.counts.pop q).uncount hcounted) halive fun i hi r => ?_
    have hi' : i ∈ s.fallback.instances := halive i hi
    have hcount := Fallback.count_uncount (f := s.fallback.pop q) (j := j) (q := q) (r := r)
      ((h.counts.keys i).mp hi')
    have hcovered := h.covered i hi' r
    have hentry' : ((s.fallback.pop q).uncount j q).entry i r =
        if r = q then 0 else s.fallback.entry i r := by
      rw [← entry_pop]
      simp [Fallback.entry]
    change s.count i r + (((s.fallback.pop q).uncount j q).entry i r + s.awaiting i r) =
      ((s.fallback.pop q).uncount j q).counted.count (i, r) + s.owed i r
    rw [hcount, hentry']
    change s.count i r + _ = s.count i r - _ + _
    unfold owed at hcovered ⊢
    by_cases hrq : r = q
    · subst hrq
      rw [hentry] at hcovered ⊢
      simp only [Prod.mk.injEq, and_true, if_true] at hcovered ⊢
      omega
    · simp [hrq, Ne.symm hrq]

theorem Ledger.deliver (h : s.Ledger) (o : RequestOutput) : Balanced s (s.deliver o) more := by
  have hstreams : ∀ f, Balanced s { s with fallback := f } more →
      Balanced s { s with streams := s.streams.deliver o, fallback := f } more :=
    fun f hf => ⟨hf.counts, hf.alive, hf.le, hf.eq⟩
  refine hstreams _ ?_
  split_ifs
  · exact h.release o.requestId
  · exact h.unchanged rfl fun _ _ => rfl

theorem Ledger.deliverAll (h : s.Ledger) (batch : List RequestOutput) :
    Balanced s (batch.foldl LlumnixClientVLLM.deliver s) more := by
  induction batch generalizing s with
  | nil => exact h.unchanged rfl fun _ _ => rfl
  | cons o batch ih =>
    have hb : Balanced s (s.deliver o) more := h.deliver o
    exact hb.trans (ih (h.balanced hb))

theorem Ledger.abortByInstance (h : s.Ledger) {k : ℕ} {f : Abort} (hf : s.aborts[k]? = some f)
    (hpoint : f.point = .manager) : Balanced s (s.abortByInstance k f.requestId) more := by
  have hwait : ∀ (t : LlumnixClientVLLM H) (point : AbortPoint) (i r : String),
      t.aborts = s.aborts → (t.abortTo k point true).awaiting i r =
        s.awaiting i r + if f.requestId = r ∧ point = .onInstance i then 1 else 0 := by
    intro t point i r ht
    have hto := awaiting_abortTo (ht ▸ hf) point true i r
    simp only [hpoint, reduceCtorEq, and_false, if_false, Nat.add_zero] at hto
    rw [hto]
    simp only [awaiting, ht]
  unfold LlumnixClientVLLM.abortByInstance
  cases hq : s.fallback.fallbackRequestInstance.get? f.requestId with
  | none =>
    refine .of_eq (h.counts.pop _) (fun _ hi => hi) fun i _ r => ?_
    have hentry : (s.fallback.pop f.requestId).entry i r = s.fallback.entry i r := by
      rw [entry_pop]
      by_cases hr : r = f.requestId
      · rw [if_pos hr, hr, Fallback.entry, hq]
        rfl
      · rw [if_neg hr]
    have hw := hwait { s with fallback := s.fallback.pop f.requestId } .done i r rfl
    simp only [reduceCtorEq, and_false, if_false, Nat.add_zero] at hw
    change s.count i r + ((s.fallback.pop f.requestId).entry i r + _) = s.count i r + s.owed i r
    rw [hw, hentry]
    rfl
  | some j =>
    have hentry : ∀ i r, s.fallback.entry i r =
        (s.fallback.pop f.requestId).entry i r + if f.requestId = r ∧ j = i then 1 else 0 := by
      intro i r
      rw [entry_pop]
      by_cases hr : r = f.requestId
      · subst hr
        simp [Fallback.entry, hq]
      · simp [hr, Ne.symm hr]
    dsimp only
    split_ifs with hj
    · refine .of_eq (h.counts.pop _) (fun _ hi => hi) fun i _ r => ?_
      have hw := hwait { s with
        fallback := s.fallback.pop f.requestId, sent := (j, f.requestId) :: s.sent }
        (.onInstance j) i r rfl
      change s.count i r + ((s.fallback.pop f.requestId).entry i r + _) = s.count i r + s.owed i r
      rw [hw, owed, hentry]
      simp only [AbortPoint.onInstance.injEq]
      omega
    · refine .of_eq (h.counts.pop _) (fun _ hi => hi) fun i hi r => ?_
      have hji : j ≠ i := fun hji => hj (hji ▸ hi)
      have hw := hwait { s with fallback := s.fallback.pop f.requestId } .done i r rfl
      simp only [reduceCtorEq, and_false, if_false, Nat.add_zero] at hw
      change s.count i r + ((s.fallback.pop f.requestId).entry i r + _) = s.count i r + s.owed i r
      rw [hw, owed, hentry]
      simp [hji]

theorem Ledger.abortInstance (h : s.Ledger) {k : ℕ} {f : Abort} (hf : s.aborts[k]? = some f)
    (hpoint : f.point = .onInstance j) {point : AbortPoint} (hover : ∀ i, point ≠ .onInstance i) :
    Balanced s ({ s with fallback := s.fallback.uncount j f.requestId }.abortTo k point f.outage)
      more := by
  have hwait : ∀ i r, s.awaiting i r =
      ({ s with fallback := s.fallback.uncount j f.requestId }.abortTo k point f.outage).awaiting i
        r + if (j, f.requestId) = (i, r) then 1 else 0 := by
    intro i r
    have hto := awaiting_abortTo (s := { s with fallback := s.fallback.uncount j f.requestId }) hf
      point f.outage i r
    simp only [hpoint, hover, and_false, if_false, Nat.add_zero, AbortPoint.onInstance.injEq] at hto
    simp only [Prod.mk.injEq, and_comm (a := j = i)]
    exact hto.symm
  have hcounted : j ∈ s.fallback.instances → (j, f.requestId) ∈ s.fallback.counted := by
    intro hj
    have hcovered := h.covered j hj f.requestId
    rw [owed, hwait, if_pos rfl] at hcovered
    exact List.count_pos_iff.mp (by unfold count at hcovered; omega)
  refine .of_eq (h.counts.uncount hcounted) (fun i hi => by simpa [abortTo] using hi)
    fun i hi r => ?_
  have hi' : i ∈ s.fallback.instances := by simpa [abortTo] using hi
  have hcount := Fallback.count_uncount (f := s.fallback) (j := j) (q := f.requestId) (r := r)
    ((h.counts.keys i).mp hi')
  have hcovered := h.covered i hi' r
  have hw := hwait i r
  have hentry : (s.fallback.uncount j f.requestId).entry i r = s.fallback.entry i r := by
    simp [Fallback.entry]
  change s.count i r + ((s.fallback.uncount j f.requestId).entry i r + _) =
    (s.fallback.uncount j f.requestId).counted.count (i, r) + s.owed i r
  rw [hcount, hentry]
  change s.count i r + _ = s.count i r - _ + _
  unfold owed at hcovered ⊢
  omega

theorem over_ne {p : AbortPoint} (h : p = .done ∨ p = .raised) : p ≠ .onInstance i := by
  rcases h with rfl | rfl <;> simp

theorem Ledger.step (h : s.Ledger) (hstep : s.step a = some s') :
    Balanced s s' fun r => s.Redispatches r a := by
  cases steps_of_step hstep with
  | @fallsBack k stream q hcall =>
    have hb := h.generateByInstance k q
    refine ⟨hb.counts, hb.alive, hb.le, fun i hi r hr => hb.eq i hi r ?_⟩
    rintro ⟨rfl, hentry⟩
    exact hr ⟨_, hcall, rfl, hentry⟩
  | @instanceDies k stream q i answer hcall =>
    have hb : Balanced s { s with fallback := s.fallback.remove i } fun _ => False := h.remove i
    exact ⟨hb.counts, hb.alive, hb.le, fun i hi r _ => hb.eq i hi r id⟩
  | outputs batch => exact h.deliverAll batch
  | abort r =>
    refine h.unchanged rfl fun i r => ?_
    simp [awaiting]
  | @abortAnswered k q manager p hf hp =>
    refine h.unchanged rfl fun i r => ?_
    have hto := awaiting_abortTo (s := { s with sent := manager.sends ++ s.sent }) hf p false i r
    simp only [reduceCtorEq, over_ne hp, and_false, if_false, Nat.add_zero] at hto
    exact hto
  | @abortRaises k f hf hpoint =>
    refine h.unchanged rfl fun i r => ?_
    have hto := awaiting_abortTo hf .raised f.outage i r
    simpa [hpoint] using hto
  | abortOutage hf hpoint => exact h.abortByInstance hf hpoint
  | abortInstance hf hpoint hp => exact h.abortInstance hf hpoint fun i => over_ne hp
  | _ => exact h.unchanged rfl fun _ _ => rfl

theorem ledger_new (instances : Dict String H) : (new instances).Ledger where
  counts := by
    refine ⟨fun i => ?_, fun i n hn => ?_⟩
    · simp [new, Dict.mem_def, Dict.keys, Dict.fromkeys]
    · have hzero : n = 0 := by
        have hmem := Dict.get?_eq_some.mp hn
        obtain ⟨e, -, he⟩ := List.mem_map.mp hmem
        exact (congrArg Prod.snd he).symm
      simp [new, hzero]
  covered i _ r := by
    have hnone : (new instances).owed i r = 0 := by
      simp [owed, awaiting, Fallback.entry, new, Dict.get?, Dict.empty]
    rw [hnone]
    exact Nat.zero_le _

end LlumnixClientVLLM
end Llumnix.Client
