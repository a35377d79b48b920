import Llumnix.Client.Ledger
import Llumnix.Client.Streams

/-! What `abort` does for a request that the client has sent to an instance by itself. The entry of
the request is looked up only if the Manager is found dead. -/
namespace Llumnix.Client

open Machine Python Output

theorem Running.sends_of_unlisted {H : Type} {r : String} (m : Running H r)
    (h : m.tables.abortTargets r = []) : m.sends = [] ∧ m.fails = false := by
  have hids : m.it.ids = [r] := by
    have hperm := m.it.ids_perm
    simpa using hperm
  have htargets : m.it.targets r = [] := by
    have hperm := m.it.targets_perm r
    simpa [h] using hperm
  have hitems : m.it.instanceRequests.items = [] := by
    simp [Routing.Iteration.instanceRequests, Routing.Iteration.pairs, hids, htargets, Dict.group,
      Dict.empty]
  simp [sends, fails, Routing.abort, hitems, Routing.fanOut]

namespace LlumnixClientVLLM
variable {H : Type} {s s' : LlumnixClientVLLM H} {a : Action H} {i j q r : String} {k : ℕ}
  {stream k' : ℕ}

/-- `_fallback_request_instance.get(r)`. -/
abbrev lookup (s : LlumnixClientVLLM H) (r : String) : Option String :=
  s.fallback.fallbackRequestInstance.get? r

def Outaged (s : LlumnixClientVLLM H) (r : String) : Prop :=
  ∃ f ∈ s.aborts, f.requestId = r ∧ f.outage = true

def Unfinished (s : LlumnixClientVLLM H) (r : String) : Prop :=
  ∀ o ∈ s.streams.log, o.requestId = r → o.finished = false

/-- No other call of `generate` is for the request. -/
def Only (k : ℕ) (r : String) (s : LlumnixClientVLLM H) : Prop :=
  ∀ k' call, s.calls[k']? = some call → call.requestId = r → k' = k

/-- A Manager that answers an `abort` of the request has not got it in its tables. -/
def Unrouted (r : String) : Action H → Prop
  | .abortAnswered _ requestId m => requestId = r →
      m.tables.requestInstance r = none ∧ m.tables.requestInstances r = none
  | _ => True

/-- The abort has been sent to the instance, and the counter of the instance is the number of the
other requests. -/
structure Cancelled (s : LlumnixClientVLLM H) (i r : String) : Prop where
  sent : (i, r) ∈ s.sent
  uncounted : (i, r) ∉ s.fallback.counted
  counter : s.fallback.instanceNumRequests.get? i = some (s.fallback.counted.countP (·.1 = i))

def phase (s : LlumnixClientVLLM H) (k : ℕ) (r : String) : Option Point :=
  (s.calls[k]?.filter (·.requestId = r)).map Call.point

/-- Nothing that `abort` looks at changes for the request. -/
structure Quiet (s s' : LlumnixClientVLLM H) (r : String) : Prop where
  lookup : s'.lookup r = s.lookup r
  outaged : s'.Outaged r ↔ s.Outaged r
  sent : ∀ i, (i, r) ∈ s'.sent ↔ (i, r) ∈ s.sent

/-- What a step does to a request, from one phase of its call to the next. -/
inductive Turn (s s' : LlumnixClientVLLM H) (a : Action H) (r : String) :
    Option Point → Option Point → Prop
  | stays (p : Option Point) (h : Quiet s s' r) : Turn s s' a r p p
  | finished (p : Option Point) (h : s'.lookup r = none) (hlog : ¬s'.Unfinished r) :
      Turn s s' a r p p
  | routed (p : Option Point) (h : s'.lookup r = s.lookup r) (ho : s'.Outaged r ↔ s.Outaged r)
      (hr : ¬Unrouted r a) : Turn s s' a r p p
  | cancelled (p : Option Point) (h : s'.lookup r = none) (ho : s'.Outaged r)
      (hsent : ∀ i, (i, r) ∈ s'.sent ↔
        (i, r) ∈ s.sent ∨ s.lookup r = some i ∧ i ∈ s.fallback.instances) : Turn s s' a r p p
  | starts (h : Quiet s s' r) : Turn s s' a r none (some .manager)
  | leaves {p : Point} (h : Quiet s s' r) (hp : p = .returned none ∨ p = .raised ∨ p = .again) :
      Turn s s' a r (some .manager) (some p)
  | chosen {p : Point} {i : String} (h : s'.lookup r = some i)
      (hp : p = .onInstance i ∨ p = .returned none) : Turn s s' a r (some .manager) (some p)
  | repeats (h : Quiet s s' r) : Turn s s' a r (some .again) (some .manager)
  | accepted {i : String} (h : Quiet s s' r) :
      Turn s s' a r (some (.onInstance i)) (some (.returned (some i)))
  | gives {i : String} {p : Point} (h : Quiet s s' r) (hp : p = .returned none ∨ p = .raised) :
      Turn s s' a r (some (.onInstance i)) (some p)
  | dies {i : String} (h : Quiet s s' r) (hi : i ∉ s'.fallback.instances) :
      Turn s s' a r (some (.onInstance i)) (some .again)

/-! ### The calls -/

theorem phase_of_call {p : Point} (h : s.calls[k]? = some ⟨r, stream, p⟩) :
    s.phase k r = some p := by
  simp [phase, h]

theorem phase_goTo {p : Point} (h : s.calls[k]? = some ⟨r, stream, p⟩) (p' : Point) :
    (s.goTo k p').phase k r = some p' := by
  simp [phase, goTo, h]

theorem phase_goTo_of_ne {p : Point} (h : s.calls[k']? = some ⟨q, stream, p⟩) (hq : q ≠ r)
    (p' : Point) : (s.goTo k' p').phase k r = s.phase k r := by
  by_cases hk : k' = k
  · rw [hk] at h ⊢
    simp [phase, goTo, h, Option.filter, hq]
  · simp [phase, goTo, hk]

theorem calls_deliverAll (s : LlumnixClientVLLM H) (batch : List RequestOutput) :
    (batch.foldl deliver s).calls = s.calls ∧ (batch.foldl deliver s).aborts = s.aborts ∧
      (batch.foldl deliver s).sent = s.sent := by
  induction batch generalizing s with
  | nil => exact ⟨rfl, rfl, rfl⟩
  | cons o batch ih => exact ih (s.deliver o)

theorem step_calls (hstep : s.step a = some s') {call : Call} (h : s.calls[k]? = some call) :
    ∃ call', s'.calls[k]? = some call' ∧ call'.requestId = call.requestId := by
  have hgoTo : ∀ (t : LlumnixClientVLLM H) (k' : ℕ) (p : Point), t.calls = s.calls →
      ∃ call', (t.goTo k' p).calls[k]? = some call' ∧ call'.requestId = call.requestId := by
    intro t k' p ht
    by_cases hk : k' = k <;> simp [goTo, ht, h, hk]
  have hsame : ∃ call', s.calls[k]? = some call' ∧ call'.requestId = call.requestId :=
    ⟨call, h, rfl⟩
  cases steps_of_step hstep with
  | generate _ =>
    have hlt := (List.getElem?_eq_some_iff.mp h).1
    exact ⟨call, by rw [List.getElem?_append_left hlt, h], rfl⟩
  | managerEnds _ _ => exact hgoTo _ _ _ rfl
  | fallsBack _ =>
    unfold generateByInstance
    split <;> exact hgoTo _ _ _ rfl
  | accepted _ => exact hgoTo _ _ _ rfl
  | instanceEnds _ _ => exact hgoTo _ _ _ rfl
  | instanceDies _ => exact hgoTo _ _ _ rfl
  | restart _ => exact hgoTo _ _ _ rfl
  | outputs batch =>
    rw [(calls_deliverAll s batch).1]
    exact hsame
  | abortOutage _ _ =>
    unfold abortByInstance
    dsimp only
    split
    · exact hsame
    · split_ifs <;> exact hsame
  | _ => exact hsame

theorem Only.of_step (h : s'.Only k r) (hstep : s.step a = some s') : s.Only k r := by
  intro k' call hcall hr
  obtain ⟨call', hcall', hid⟩ := step_calls hstep hcall
  exact h k' call' hcall' (hid.trans hr)

/-! ### The turns -/

theorem quiet_of_eq (hl : s'.lookup r = s.lookup r) (ha : s'.aborts = s.aborts)
    (hs : s'.sent = s.sent) : Quiet s s' r := by
  refine ⟨hl, ?_, fun i => by rw [hs]⟩
  unfold Outaged
  rw [ha]

theorem outaged_iff :
    s.Outaged r ↔ 0 < s.aborts.countP fun f => f.requestId = r ∧ f.outage = true := by
  simp [Outaged, List.countP_pos_iff]

theorem outaged_abortTo {f : Abort} (hf : s.aborts[k]? = some f) (point : AbortPoint)
    {outage : Bool} (h : outage = f.outage ∨ f.requestId ≠ r) :
    (s.abortTo k point outage).Outaged r ↔ s.Outaged r := by
  have hmodify := countP_modify hf ({ · with point, outage })
    fun f => decide (f.requestId = r ∧ f.outage = true)
  rw [outaged_iff, outaged_iff]
  rcases h with rfl | hne
  · simp only [Nat.add_right_cancel_iff] at hmodify
    simp only [abortTo, hmodify]
  · simp only [hne, false_and, decide_false, Bool.false_eq_true, if_false, Nat.add_zero] at hmodify
    simp only [abortTo, hmodify]

theorem outaged_abortTo_self {f : Abort} (hf : s.aborts[k]? = some f) (point : AbortPoint) :
    (s.abortTo k point true).Outaged f.requestId := by
  have hmem : (s.abortTo k point true).aborts[k]? = some { f with point, outage := true } := by
    simp [abortTo, hf]
  exact ⟨_, List.mem_of_getElem? hmem, rfl, rfl⟩

theorem lookup_uncount (f : Fallback H) :
    (f.uncount i q).fallbackRequestInstance.get? r = f.fallbackRequestInstance.get? r := by
  rw [Fallback.uncount_fallback]

theorem lookup_pop (f : Fallback H) : (f.pop q).fallbackRequestInstance.get? r =
    if r = q then none else f.fallbackRequestInstance.get? r :=
  Dict.get?_erase

theorem lookup_release (f : Fallback H) : (f.release q).fallbackRequestInstance.get? r =
    if r = q then none else f.fallbackRequestInstance.get? r := by
  unfold Fallback.release
  cases hq : f.fallbackRequestInstance.get? q with
  | none =>
    by_cases hr : r = q
    · simp [hr, hq]
    · simp [hr]
  | some i => rw [lookup_uncount, lookup_pop]

theorem lookup_deliverAll (s : LlumnixClientVLLM H) (batch : List RequestOutput) :
    (batch.foldl deliver s).lookup r = s.lookup r ∨
      (batch.foldl deliver s).lookup r = none ∧ ¬(batch.foldl deliver s).Unfinished r := by
  induction batch generalizing s with
  | nil => exact .inl rfl
  | cons o batch ih =>
    have hlookup : (s.deliver o).lookup r =
        if (o.finished ∧ o.requestId ∈ s.streams.requestStreams) ∧ o.requestId = r then none
        else s.lookup r := by
      unfold deliver
      dsimp only [lookup]
      by_cases hdone : o.finished ∧ o.requestId ∈ s.streams.requestStreams
      · simp only [hdone, and_self, if_true, lookup_release, true_and, eq_comm (a := r)]
      · simp only [hdone, if_false, false_and]
    rw [List.foldl_cons]
    rcases ih (s.deliver o) with hsame | hnone
    · rw [hsame, hlookup]
      split_ifs with hpop
      · refine .inr ⟨rfl, fun h => ?_⟩
        have hmem : o ∈ (batch.foldl deliver (s.deliver o)).streams.log := by
          rw [streams_deliverAll, Streams.log_deliverAll]
          exact List.mem_append_left _ (by simp [deliver, Streams.log_deliver])
        rw [h o hmem hpop.2] at hpop
        simp at hpop
      · exact .inl rfl
    · exact .inr hnone

theorem phase_of_calls (h : s'.calls = s.calls) : s'.phase k r = s.phase k r := by
  unfold phase
  rw [h]

theorem turn_goTo {t : LlumnixClientVLLM H} {p p' : Point} (ht : t.calls = s.calls)
    (hcall : s.calls[k']? = some ⟨q, stream, p⟩) (honly : (t.goTo k' p').Only k r)
    (hother : q ≠ r → Quiet s (t.goTo k' p') r)
    (hself : q = r → Turn s (t.goTo k' p') a r (some p) (some p')) :
    Turn s (t.goTo k' p') a r (s.phase k r) ((t.goTo k' p').phase k r) := by
  have hcall' : t.calls[k']? = some ⟨q, stream, p⟩ := by rw [ht, hcall]
  by_cases hq : q = r
  · subst hq
    have hk : k' = k := by
      refine honly k' { requestId := q, stream, point := p' } ?_ rfl
      simp [goTo, hcall']
    subst hk
    rw [phase_of_call hcall, phase_goTo hcall']
    exact hself rfl
  · rw [phase_goTo_of_ne hcall' hq, phase_of_calls ht]
    exact .stays _ (hother hq)

theorem turn_generate (honly : Only k r { s with
      streams := s.streams.register q
      calls := s.calls ++ [⟨q, s.streams.made.length, .manager⟩] }) :
    Turn s { s with
        streams := s.streams.register q
        calls := s.calls ++ [⟨q, s.streams.made.length, .manager⟩] } a r (s.phase k r)
      (phase { s with
        streams := s.streams.register q
        calls := s.calls ++ [⟨q, s.streams.made.length, .manager⟩] } k r) := by
  by_cases hq : q = r
  · subst hq
    have hk : s.calls.length = k := honly _ ⟨q, s.streams.made.length, .manager⟩ (by simp) rfl
    have hphase : s.phase k q = none := by simp [phase, ← hk]
    have hphase' : phase { s with
        streams := s.streams.register q
        calls := s.calls ++ [⟨q, s.streams.made.length, .manager⟩] } k q = some .manager := by
      simp [phase, ← hk]
    rw [hphase, hphase']
    exact .starts (quiet_of_eq rfl rfl rfl)
  · have hphase : phase { s with
        streams := s.streams.register q
        calls := s.calls ++ [⟨q, s.streams.made.length, .manager⟩] } k r = s.phase k r := by
      rcases Nat.lt_trichotomy k s.calls.length with hlt | rfl | hgt
      · simp [phase, List.getElem?_append_left hlt]
      · simp [phase, Option.filter, hq]
      · have hnone : s.calls[k]? = none := List.getElem?_eq_none (by omega)
        have hnone' : (s.calls ++ [⟨q, s.streams.made.length, .manager⟩])[k]? = none :=
          List.getElem?_eq_none (by simp; omega)
        simp only [phase, hnone, hnone']
    rw [hphase]
    exact .stays _ (quiet_of_eq rfl rfl rfl)

theorem turn_generateByInstance (hcall : s.calls[k']? = some ⟨q, stream, .manager⟩)
    (honly : (s.generateByInstance k' q).Only k r) :
    Turn s (s.generateByInstance k' q) a r (s.phase k r)
      ((s.generateByInstance k' q).phase k r) := by
  unfold generateByInstance at honly ⊢
  cases hc : s.fallback.choose q with
  | none =>
    simp only [hc] at honly ⊢
    exact turn_goTo rfl hcall honly (fun _ => quiet_of_eq rfl rfl rfl)
      fun _ => .leaves (quiet_of_eq rfl rfl rfl) (.inr (.inr rfl))
  | some e =>
    obtain ⟨i, f⟩ := e
    obtain ⟨n, -, hf⟩ := Fallback.choose_eq_some hc
    have hlookup : f.fallbackRequestInstance.get? r =
        if r = q then some i else s.lookup r := by
      rw [hf]
      exact Dict.get?_set
    simp only [hc] at honly ⊢
    refine turn_goTo rfl hcall honly (fun hq => ?_) fun hq => ?_
    · refine quiet_of_eq ?_ rfl rfl
      exact hlookup.trans (if_neg (Ne.symm hq))
    · refine .chosen (hlookup.trans (if_pos hq.symm)) ?_
      split_ifs
      · exact .inl rfl
      · exact .inr rfl

theorem turn_abortByInstance {f : Abort} (hf : s.aborts[k']? = some f) :
    Turn s (s.abortByInstance k' f.requestId) a r (s.phase k r)
      ((s.abortByInstance k' f.requestId).phase k r) := by
  have hlookup : (s.fallback.pop f.requestId).fallbackRequestInstance.get? r =
      if r = f.requestId then none else s.lookup r := lookup_pop _
  -- the three ends differ in what they send
  have hturn : ∀ (sent : List (String × String)) (point : AbortPoint),
      (∀ i, (i, f.requestId) ∈ sent ↔ (i, f.requestId) ∈ s.sent ∨
        s.lookup f.requestId = some i ∧ i ∈ s.fallback.instances) →
      (∀ i, f.requestId ≠ r → ((i, r) ∈ sent ↔ (i, r) ∈ s.sent)) →
      Turn s ({ s with fallback := s.fallback.pop f.requestId, sent }.abortTo k' point true) a r
        (s.phase k r) (s.phase k r) := by
    intro sent point hmine hothers
    by_cases hr : f.requestId = r
    · subst hr
      exact .cancelled _ (hlookup.trans (if_pos rfl))
        (outaged_abortTo_self (s := { s with fallback := s.fallback.pop f.requestId, sent }) hf
          point) hmine
    · refine .stays _ ⟨hlookup.trans (if_neg (Ne.symm hr)), ?_, fun i => hothers i hr⟩
      exact outaged_abortTo (s := { s with fallback := s.fallback.pop f.requestId, sent }) hf point
        (.inr hr)
  unfold abortByInstance
  cases hq : s.fallback.fallbackRequestInstance.get? f.requestId with
  | none => exact hturn s.sent .done (by simp [lookup, hq]) fun _ _ => Iff.rfl
  | some i =>
    dsimp only
    split_ifs with hi
    · refine hturn ((i, f.requestId) :: s.sent) (.onInstance i) (fun i' => ?_) fun i' hr => ?_
      · simp only [List.mem_cons, Prod.mk.injEq, and_true, lookup, hq, Option.some.injEq]
        constructor
        · rintro (rfl | hsent)
          · exact .inr ⟨rfl, hi⟩
          · exact .inl hsent
        · rintro (hsent | ⟨rfl, -⟩)
          · exact .inr hsent
          · exact .inl rfl
      · simp [Ne.symm hr]
    · refine hturn s.sent .done (fun i' => ?_) fun _ _ => Iff.rfl
      simp only [lookup, hq, Option.some.injEq, iff_self_or]
      rintro ⟨rfl, hi'⟩
      exact absurd hi' hi

theorem step_turn (honly : s'.Only k r) (hstep : s.step a = some s') :
    Turn s s' a r (s.phase k r) (s'.phase k r) := by
  cases steps_of_step hstep with
  | refused _ => exact .stays _ (quiet_of_eq rfl rfl rfl)
  | @generate q n _ => exact turn_generate honly
  | managerEnds hcall hp =>
    refine turn_goTo rfl hcall honly (fun _ => quiet_of_eq rfl rfl rfl)
      fun _ => .leaves (quiet_of_eq rfl rfl rfl) ?_
    exact hp.imp_right .inl
  | fallsBack hcall => exact turn_generateByInstance hcall honly
  | accepted hcall =>
    exact turn_goTo rfl hcall honly (fun _ => quiet_of_eq rfl rfl rfl)
      fun _ => .accepted (quiet_of_eq rfl rfl rfl)
  | instanceEnds hcall hp =>
    exact turn_goTo rfl hcall honly (fun _ => quiet_of_eq rfl rfl rfl)
      fun _ => .gives (quiet_of_eq rfl rfl rfl) hp
  | instanceDies hcall =>
    refine turn_goTo rfl hcall honly (fun _ => quiet_of_eq rfl rfl rfl)
      fun _ => .dies (quiet_of_eq rfl rfl rfl) ?_
    simp [goTo, Fallback.remove]
  | restart hcall =>
    exact turn_goTo rfl hcall honly (fun _ => quiet_of_eq rfl rfl rfl)
      fun _ => .repeats (quiet_of_eq rfl rfl rfl)
  | outputs batch =>
    obtain ⟨hcalls, haborts, hsent⟩ := calls_deliverAll s batch
    rw [phase_of_calls hcalls]
    rcases lookup_deliverAll s batch with hsame | ⟨hnone, hlog⟩
    · exact .stays _ (quiet_of_eq hsame haborts hsent)
    · exact .finished _ hnone hlog
  | abort q =>
    refine .stays _ ⟨rfl, ?_, fun i => Iff.rfl⟩
    simp [outaged_iff]
  | @abortAnswered j q manager p hf hp =>
    have houtaged := outaged_abortTo (s := { s with sent := manager.sends ++ s.sent }) (r := r) hf
      p (.inl (Eq.refl false))
    by_cases hr : Unrouted r (.abortAnswered j q manager)
    · refine .stays _ ⟨rfl, houtaged, fun i => ?_⟩
      change (i, r) ∈ manager.sends ++ s.sent ↔ _
      by_cases hq : q = r
      · subst hq
        have hlisted : manager.tables.abortTargets q = [] := by
          simp [Routing.Tables.abortTargets, hr rfl]
        simp [manager.sends_of_unlisted hlisted]
      · simp [Running.sends, hq]
    · exact .routed _ rfl houtaged hr
  | abortRaises hf _ =>
    exact .stays _ ⟨rfl, outaged_abortTo hf .raised (.inl rfl), fun i => Iff.rfl⟩
  | abortOutage hf _ => exact turn_abortByInstance hf
  | @abortInstance j f i answer p hf _ _ =>
    refine .stays _ ⟨lookup_uncount _, ?_, fun i => Iff.rfl⟩
    exact outaged_abortTo (s := { s with fallback := s.fallback.uncount i f.requestId }) hf p
      (.inl rfl)

theorem unfinished_of_step (h : s'.Unfinished r) (hstep : s.step a = some s') :
    s.Unfinished r := by
  intro o ho
  refine h o ?_
  rcases step_streams hstep with ⟨q, -, hs'⟩ | ⟨-, batch, hs'⟩
  · rw [hs']
    exact ho
  · rw [hs', Streams.log_deliverAll]
    exact List.mem_append_left _ ho

/-! ### The entry of a request that is generated once -/

/-- There is reason for the entry of the request to be there still. -/
def Pending (s : LlumnixClientVLLM H) (r : String) : Prop := s.Unfinished r ∧ ¬s.Outaged r

/-- What the entry is in each phase of the call. -/
def Follows (s : LlumnixClientVLLM H) (r : String) : Option Point → Prop
  | none => s.lookup r = none
  | some .manager => ∀ i ∈ s.fallback.instances, s.lookup r ≠ some i
  | some .again => ∀ i ∈ s.fallback.instances, s.lookup r ≠ some i
  | some (.onInstance i) =>
    (∀ i', s.lookup r = some i' → i' = i) ∧ (s.Pending r → s.lookup r = some i)
  | some (.returned (some i)) => s.Pending r → s.lookup r = some i
  | some (.returned none) => True
  | some .raised => True

theorem Follows.kept {p : Option Point} (h : s.Follows r p) (hl : s'.lookup r = s.lookup r)
    (ho : s'.Outaged r ↔ s.Outaged r)
    (halive : ∀ i ∈ s'.fallback.instances, i ∈ s.fallback.instances)
    (hlog : s'.Unfinished r → s.Unfinished r) : s'.Follows r p := by
  have hpending : s'.Pending r → s.Pending r := fun h =>
    ⟨hlog h.1, fun hold => h.2 (ho.mpr hold)⟩
  unfold Follows at h ⊢
  rw [hl]
  split
  · exact h
  · exact fun i hi => h i (halive i hi)
  · exact fun i hi => h i (halive i hi)
  · exact ⟨h.1, fun hp => h.2 (hpending hp)⟩
  · exact fun hp => h (hpending hp)
  · trivial
  · trivial

theorem Follows.popped {p : Option Point} (hnone : s'.lookup r = none) (hp : ¬s'.Pending r) :
    s'.Follows r p := by
  unfold Follows
  rw [hnone]
  split <;> simp [hp]

theorem Follows.turn {p p' : Option Point} (h : s.Follows r p) (ht : Turn s s' a r p p')
    (halive : ∀ i ∈ s'.fallback.instances, i ∈ s.fallback.instances)
    (hlog : s'.Unfinished r → s.Unfinished r) : s'.Follows r p' := by
  cases ht with
  | stays _ hq => exact h.kept hq.lookup hq.outaged halive hlog
  | finished _ hnone hover => exact .popped hnone fun hp => hover hp.1
  | routed _ hl ho _ => exact h.kept hl ho halive hlog
  | cancelled _ hnone ho _ => exact .popped hnone fun hp => hp.2 ho
  | starts hq =>
    intro i _
    rw [hq.lookup]
    have hnone : s.lookup r = none := h
    simp [hnone]
  | leaves hq hp =>
    rcases hp with rfl | rfl | rfl
    · trivial
    · trivial
    · exact Follows.kept (p := some .again) h hq.lookup hq.outaged halive hlog
  | chosen hl hp =>
    rcases hp with rfl | rfl
    · refine ⟨fun i' hi' => ?_, fun _ => hl⟩
      rw [hl] at hi'
      exact (Option.some.inj hi').symm
    · trivial
  | repeats hq =>
    exact Follows.kept (p := some .manager) h hq.lookup hq.outaged halive hlog
  | accepted hq => exact (h.kept hq.lookup hq.outaged halive hlog).2
  | gives hq hp =>
    rcases hp with rfl | rfl <;> trivial
  | dies hq hi =>
    intro i' hi' hl
    rw [hq.lookup] at hl
    rw [h.1 i' hl] at hi'
    exact hi hi'

/-- The count of a request that is generated once is what is owed. -/
structure Accounted (k : ℕ) (r : String) (s : LlumnixClientVLLM H) : Prop where
  ledger : s.Ledger
  follows : s.Only k r → s.Follows r (s.phase k r)
  exact : s.Only k r → ∀ i ∈ s.fallback.instances, s.count i r = s.owed i r

theorem accounted_new (instances : Dict String H) : (new instances).Accounted k r where
  ledger := ledger_new instances
  follows _ := rfl
  exact _ i _ := by simp [count, owed, awaiting, Fallback.entry, new, Dict.get?, Dict.empty]

theorem Accounted.step (h : s.Accounted k r) (hstep : s.step a = some s') :
    s'.Accounted k r := by
  have hb := h.ledger.step hstep
  refine ⟨h.ledger.balanced hb, fun honly => ?_, fun honly i hi => ?_⟩
  · exact (h.follows (honly.of_step hstep)).turn (step_turn honly hstep) hb.alive
      fun hlog => unfinished_of_step hlog hstep
  · have hold := honly.of_step hstep
    have hnew : ¬s.Redispatches r a := by
      intro hr
      unfold Redispatches at hr
      split at hr
      · rename_i k'
        obtain ⟨⟨q, stream, p⟩, hcall, rfl, i, hi, hl⟩ := hr
        have hk : k' = k := hold k' _ hcall rfl
        subst hk
        have hp : p = .manager := by
          by_contra hp
          cases p <;> simp [LlumnixClientVLLM.step, hcall] at hstep hp
        have hfollows := h.follows hold
        rw [phase_of_call hcall, hp] at hfollows
        exact hfollows i hi hl
      · exact hr
    have hbalance := hb.eq i hi r hnew
    have hexact := h.exact hold i (hb.alive i hi)
    omega

/-! ### The abort -/

def Aborted (s : LlumnixClientVLLM H) (r : String) : Prop := ∃ f ∈ s.aborts, f.requestId = r

theorem aborted_abortTo {f : Abort} (hf : s.aborts[k]? = some f) (point : AbortPoint)
    (outage : Bool) : (s.abortTo k point outage).Aborted r ↔ s.Aborted r := by
  have hmodify := countP_modify hf ({ · with point, outage }) fun f => decide (f.requestId = r)
  have hiff : ∀ t : LlumnixClientVLLM H,
      t.Aborted r ↔ 0 < t.aborts.countP fun f => decide (f.requestId = r) := by
    intro t
    simp [Aborted, List.countP_pos_iff]
  rw [hiff, hiff]
  simp only [Nat.add_right_cancel_iff] at hmodify
  simp only [abortTo, hmodify]

theorem sent_of_step (h : ∀ i r, (i, r) ∈ s.sent → s.Aborted r) (hstep : s.step a = some s')
    (i r : String) (hs : (i, r) ∈ s'.sent) : s'.Aborted r := by
  cases steps_of_step hstep with
  | fallsBack _ =>
    unfold generateByInstance at hs ⊢
    split at hs
    all_goals exact h i r hs
  | outputs batch =>
    obtain ⟨-, haborts, hsent⟩ := calls_deliverAll s batch
    rw [hsent] at hs
    unfold Aborted
    rw [haborts]
    exact h i r hs
  | abort q =>
    obtain ⟨f, hf, hr⟩ := h i r hs
    exact ⟨f, List.mem_append_left _ hf, hr⟩
  | @abortAnswered j q manager p hf _ =>
    rw [aborted_abortTo (s := { s with sent := manager.sends ++ s.sent }) hf]
    rcases List.mem_append.mp hs with hnew | hold
    · obtain ⟨call, -, heq⟩ := List.mem_map.mp hnew
      cases heq
      exact ⟨_, List.mem_of_getElem? hf, rfl⟩
    · exact h i r hold
  | abortRaises hf _ =>
    rw [aborted_abortTo hf]
    exact h i r hs
  | @abortOutage j f hf _ =>
    have hmine : s.Aborted f.requestId := ⟨f, List.mem_of_getElem? hf, rfl⟩
    unfold abortByInstance at hs ⊢
    dsimp only at hs ⊢
    split at hs
    · rw [aborted_abortTo (s := { s with fallback := s.fallback.pop f.requestId }) hf]
      exact h i r hs
    · rename_i i' _
      split_ifs at hs ⊢
      · rw [aborted_abortTo (s := { s with
          fallback := s.fallback.pop f.requestId, sent := (i', f.requestId) :: s.sent }) hf]
        rcases List.mem_cons.mp hs with heq | hold
        · cases heq
          exact hmine
        · exact h i r hold
      · rw [aborted_abortTo (s := { s with fallback := s.fallback.pop f.requestId }) hf]
        exact h i r hs
  | @abortInstance j f i' answer p hf _ _ =>
    rw [aborted_abortTo (s := { s with fallback := s.fallback.uncount i' f.requestId }) hf]
    exact h i r hs
  | _ => exact h i r hs

/-- The request is on its instance as the client knows, or an outage has been found and the abort
been sent. -/
def Settles (s : LlumnixClientVLLM H) (i r : String) : Prop :=
  s.Outaged r ∧ s.lookup r = none ∧ (i, r) ∈ s.sent ∨
    ¬s.Outaged r ∧ s.lookup r = some i ∧ (i, r) ∉ s.sent

theorem Settles.turn {p : Option Point} (h : s.Settles i r)
    (ht : Turn s s' a r (some (.returned (some i))) p) (hlog : s'.Unfinished r)
    (hr : Unrouted r a) (hi : i ∈ s.fallback.instances) :
    s'.Settles i r ∧ p = some (.returned (some i)) := by
  cases ht with
  | stays _ hq =>
    unfold Settles
    rw [hq.lookup, hq.outaged, hq.sent]
    exact ⟨h, rfl⟩
  | finished _ _ hover => exact absurd hlog hover
  | routed _ _ _ hrouted => exact absurd hr hrouted
  | cancelled _ hnone ho hsent =>
    refine ⟨.inl ⟨ho, hnone, (hsent i).mpr ?_⟩, rfl⟩
    rcases h with ⟨-, -, h⟩ | ⟨-, hl, -⟩
    · exact .inl h
    · exact .inr ⟨hl, hi⟩

/-- A live instance has accepted the request in an outage, and it is neither finished nor generated
again. When the calls of `abort` for it are over, the instance has aborted it exactly if one of them
found the Manager dead: a restarted one answers, and nothing is done. -/
theorem fallback_abort_cancels_iff (instances : Dict String H) (as bs : List (Action H))
    (hrun : run step (.new instances) as = some s) {stream : ℕ}
    (hcall : s.calls[k]? = some ⟨r, stream, .returned (some i)⟩) (hfirst : ¬s.Aborted r)
    (hrest : run step s bs = some s') (hrouted : Meets step (fun _ => Unrouted r) s bs)
    (honly : s'.Only k r) (hlog : s'.Unfinished r) (hi : i ∈ s'.fallback.instances)
    (hover : ∀ f ∈ s'.aborts, f.requestId = r → f.point = .done ∨ f.point = .raised) :
    s'.Cancelled i r ↔ s'.Outaged r := by
  have hstart : s.Accounted k r := run_invariant (I := Accounted k r)
    (fun _ _ _ h _ hstep => h.step hstep) (accounted_new instances) meets_true hrun
  have hsent : ∀ i r, (i, r) ∈ s.sent → s.Aborted r :=
    run_invariant (I := fun s => ∀ i r, (i, r) ∈ s.sent → s.Aborted r)
      (fun _ _ _ h _ hstep => sent_of_step h hstep) (by simp [new]) meets_true hrun
  -- along the rest of the run, for as long as the request is there
  have hend : s'.Accounted k r ∧ (s'.Only k r → s'.Unfinished r → i ∈ s'.fallback.instances →
      s'.Settles i r ∧ s'.phase k r = some (.returned (some i))) := by
    refine run_invariant (I := fun u => u.Accounted k r ∧ (u.Only k r → u.Unfinished r →
      i ∈ u.fallback.instances → u.Settles i r ∧ u.phase k r = some (.returned (some i))))
      (fun u a u' h hr hstep => ?_) ⟨hstart, fun honly hlog _ => ?_⟩ hrouted hrest
    · refine ⟨h.1.step hstep, fun honly hlog hi => ?_⟩
      have hi' := (h.1.ledger.step hstep).alive i hi
      obtain ⟨hsettles, hphase⟩ := h.2 (honly.of_step hstep) (unfinished_of_step hlog hstep) hi'
      have hturn := step_turn honly hstep
      rw [hphase] at hturn
      exact hsettles.turn hturn hlog hr hi'
    · have hphase := phase_of_call hcall
      have hcalm : ¬s.Outaged r := by
        rintro ⟨f, hf, hr, -⟩
        exact hfirst ⟨f, hf, hr⟩
      have hfollows := hstart.follows honly
      rw [hphase] at hfollows
      exact ⟨.inr ⟨hcalm, hfollows ⟨hlog, hcalm⟩, fun h => hfirst (hsent i r h)⟩, hphase⟩
  obtain ⟨haccounted, hsettles⟩ := hend
  have hidle : s'.awaiting i r = 0 := by
    refine List.countP_eq_zero.mpr fun f hf hwaits => ?_
    obtain ⟨hr, hpoint⟩ := of_decide_eq_true hwaits
    rcases hover f hf hr with h | h <;> simp [h] at hpoint
  rcases (hsettles honly hlog hi).1 with ⟨ho, hnone, hs⟩ | ⟨ho, -, hs⟩
  · have hcount : s'.count i r = 0 := by
      rw [haccounted.exact honly i hi, owed, hidle, Fallback.entry, if_neg (by simp [hnone])]
    refine iff_of_true ⟨hs, List.count_eq_zero.mp hcount, ?_⟩ ho
    have hcounts := haccounted.ledger.counts
    cases hn : s'.fallback.instanceNumRequests.get? i with
    | none => exact absurd ((hcounts.keys i).mp hi) (Dict.get?_eq_none.mp hn)
    | some n => rw [hcounts.counter i n hn]
  · exact iff_of_false (fun h => hs h.sent) ho

/-- The second request of an outage is accepted by the instance behind the server. -/
def accepted : List (Action Unit) :=
  [.generate "q" 1, .managerAnswers 0 .actorError, .generate "r" 1, .managerAnswers 1 .actorError,
    .instanceAnswers 1 .ok]

theorem fallback_abort_cancels_in_outage : ∃ s s' : LlumnixClientVLLM Unit,
    run step (.new behind) accepted = some s ∧
      run step s [.abort "r", .abortFails 0 true, .abortInstance 0 .ok] = some s' ∧
      s'.Cancelled "a" "r" := by
  refine ⟨_, _, rfl, rfl, ?_⟩
  refine (fallback_abort_cancels_iff (k := 1) behind accepted
    [.abort "r", .abortFails 0 true, .abortInstance 0 .ok] rfl rfl ?_ rfl ?_ ?_ ?_ (by decide)
    ?_).mpr ⟨⟨"r", .done, true⟩, by decide, rfl, rfl⟩
  · rintro ⟨f, hf, -⟩
    exact absurd hf (List.not_mem_nil)
  · exact ⟨trivial, fun _ _ => ⟨trivial, fun _ _ => ⟨trivial, fun _ _ => trivial⟩⟩⟩
  · rintro (_ | _ | k') call hk hr
    · cases hk
      exact absurd hr (by decide)
    · rfl
    · cases hk
  · intro o ho
    exact absurd ho (List.not_mem_nil)
  · intro f hf _
    rw [List.mem_singleton.mp hf]
    exact .inl rfl

def restarted : Running Unit "r" where
  tables := .empty
  instances := .empty
  it :=
    { ids := ["r"]
      targets := fun _ => []
      ids_perm := .refl _
      targets_perm := fun _ => .refl _ }

/-- The Manager is back when the request is aborted: the request stays on the instance, and stays
counted. -/
theorem fallback_abort_lost : ∃ s s' : LlumnixClientVLLM Unit,
    run step (.new behind) accepted = some s ∧
      s.calls[1]? = some ⟨"r", 1, .returned (some "a")⟩ ∧
      run step s [.abort "r", .abortAnswered 0 "r" restarted] = some s' ∧
      s'.aborts = [⟨"r", .done, false⟩] ∧ "a" ∈ s'.fallback.instances ∧ s'.streams.log = [] ∧
      s'.sent = [] ∧ s'.fallback.instanceNumRequests.get? "a" = some 1 ∧
      ¬s'.Cancelled "a" "r" := by
  refine ⟨_, _, rfl, rfl, rfl, by decide, by decide, rfl, by decide, by decide, fun h => ?_⟩
  have hsent := h.sent
  revert hsent
  decide

end LlumnixClientVLLM
end Llumnix.Client
