import Llumnix.Generate.Ends

/-! When a request is lost although `generate` returns, and when a failed P/D submission is undone
and blamed on the right instance. -/
namespace Llumnix.Generate

open Machine Python Scheduler

variable {H : Type} {c : Call} {m : Manager H} {tables : Routing.Tables}
  {serverInfo : Finset String} {as : List (Action H)} {w w' : World H} {x : Input}

/-- Taken by an instance, or by both halves, that are registered, and in `request_instance`. -/
def Served (c : Call) (w : World H) : Prop :=
  (if c.pdV1 then ∃ p d, w.trace.accepted = [p, d] else ∃ i, w.trace.accepted = [i]) ∧
    (∀ i ∈ w.trace.accepted, i ∈ w.manager.instances) ∧
    w.tables.requestInstance c.requestId ≠ none

def NotAborted (_ : World H) : Action H → Prop
  | .abort => False
  | _ => True

/-! What a request that is not aborted meets: which instances are registered, with which endpoints,
and how they answer. -/

def probeHashes (w : World H) (size : ℕ) (more : Bool) : Option (List String) :=
  if w.manager.instances.items.length = size ∧ more = false then some [] else none

/-- The hashes with which a stretch comes to the choice of the instances, if it does. -/
def choiceHashes (c : Call) (x : Input) (w : World H) : Option (List String) :=
  match w.point with
  | .start | .noInstance =>
    if w.manager.numInstances = 0 then none
    else if c.blockHashes = none ∧ c.hasPrompt then
      probeHashes w w.manager.instances.items.length (0 < w.manager.instances.items.length)
    else some (c.blockHashes.getD [])
  | .probing _ size =>
    match x.answer with
    | .ok (h :: hs) => some (h :: hs)
    | .ok [] => probeHashes w size x.more
    | .error e =>
      if e = .rayActorError ∨ e = .attributeError then probeHashes w size x.more else none
  | .roles blockHashes => some blockHashes
  | _ => none

def validEndpoint (c : Call) (m : Manager H) (instanceId : String) : Bool :=
  (m.globalScheduler.instanceInfo.get? instanceId).any fun info =>
    c.validP2pEndpoint info.kvEndpoint

/-- The instance that the scheduler chooses is registered, and both of a P/D pair have valid
endpoints. -/
def available (c : Call) (x : Input) (m : Manager H) (blockHashes : List String) : Bool :=
  if c.pdV1 then
    match m.selectV1PdInstances c.round blockHashes x.drawn x.drawn' with
    | (.ok (some (p, d)), m) =>
      p ∈ m.instances && validEndpoint c m p && validEndpoint c m d
    | _ => true
  else
    match m.globalScheduler.dispatch c.round blockHashes x.drawn with
    | (.ok (i, _), _) => i ∈ m.instances
    | _ => true

/-- No submission ends with `RayActorError` or `KeyError`, and when one ends, the instances are
registered: those that took the request, the next one that it is sent to, those that an abort is
sent to. -/
def answered (x : Input) (w : World H) : Bool :=
  match w.point, x.answer with
  | .single i, .ok _ => i ∈ w.manager.instances
  | .single _, .error e => ¬e.Caught
  | .submitted .prefill _ d, .ok _ => d ∈ w.manager.instances
  | .submitted .decode p d, .ok _ => p ∈ w.manager.instances ∧ d ∈ w.manager.instances
  | .submitted _ p d, .error e =>
      ¬e.Caught ∧ p ∈ w.manager.instances ∧ d ∈ w.manager.instances
  | _, _ => true

def undisturbed (c : Call) (w : World H) : Action H → Bool
  | .resume x => (choiceHashes c x w).all (available c x w.manager) && answered x w
  | _ => true

/-- Not lost so far, as far as that shows. -/
structure Clear (w : World H) : Prop where
  blamed : w.trace.blamed = none
  fellBack : w.trace.fellBack = false
  escaping : ∀ half p d e, w.point = .cleanup half p d e → ¬e.Caught

/-- `Clear`, and whoever took the request is there when `generate` returns. -/
structure Fine (w : World H) : Prop extends Clear w where
  registered : w.point = .returned → ∀ i ∈ w.trace.accepted, i ∈ w.manager.instances

abbrev Raises (w : World H) : Prop := ∃ e, w.point = .raised e

section Fine
variable {i p d : String} {half : Half} {e : Error} {waiting cancelled : Bool}
  {event : Option Bool}

theorem not_fine_handle (hpass : ¬Raises (w.handle i e)) : ¬Fine (w.handle i e) := by
  unfold World.handle at hpass ⊢
  split
  · intro h
    cases h.blamed
  · rename_i hcaught
    rw [if_neg hcaught] at hpass
    exact absurd ⟨e, rfl⟩ hpass

theorem fine_of_trace {t : Trace} (ht : w.trace = t) (hblamed : t.blamed = none)
    (hcleanup : ∀ half p d e, w.point ≠ .cleanup half p d e) (hreturned : w.point ≠ .returned) :
    Fine w ↔ t.fellBack = false := by
  subst ht
  refine ⟨fun h => h.fellBack, fun h => ⟨⟨hblamed, h, ?_⟩, ?_⟩⟩
  · intro half p d e hpoint
    exact absurd hpoint (hcleanup half p d e)
  · intro hpoint
    exact absurd hpoint hreturned

theorem fine_submitSingle {b : Bool} (ht : w.trace = { fellBack := b })
    (hpass : ¬Raises (w.submitSingle i)) :
    Fine (w.submitSingle i) ↔ b = false ∧ i ∈ w.manager.instances := by
  unfold World.submitSingle at hpass ⊢
  by_cases hi : i ∈ w.manager.instances
  · rw [if_pos hi]
    have htrace : (w.submit i (.single i)).trace = { submitted := [i], fellBack := b } := by
      simp [World.submit, ht]
    have hfine := fine_of_trace htrace rfl (fun _ _ _ _ h => by cases h) fun h => by cases h
    exact hfine.trans (and_iff_left hi).symm
  · rw [if_neg hi] at hpass ⊢
    exact iff_of_false (not_fine_handle hpass) fun h => hi h.2

theorem fine_cleanup (hblamed : w.trace.blamed = none) (hfell : w.trace.fellBack = false)
    (hpass : ¬Raises (w.cleanup half p d e)) :
    Fine (w.cleanup half p d e) ↔
      ¬e.Caught ∧ p ∈ w.manager.instances ∧ d ∈ w.manager.instances := by
  unfold World.cleanup at hpass ⊢
  dsimp only at hpass ⊢
  by_cases hp : p ∈ w.manager.instances
  · by_cases hd : d ∈ w.manager.instances
    · simp only [hp, hd, decide_true, if_true, and_true]
      constructor
      · intro h
        exact h.escaping half p d e rfl
      · intro he
        refine ⟨⟨hblamed, hfell, fun half' p' d' e' hpoint => ?_⟩, fun h => by cases h⟩
        cases hpoint
        exact he
    · simp only [hp, hd, decide_true, decide_false, if_true, Bool.false_eq_true, if_false]
        at hpass ⊢
      exact iff_of_false (not_fine_handle hpass) fun h => h.2.2
  · simp only [hp, decide_false, Bool.false_eq_true, if_false] at hpass ⊢
    exact iff_of_false (not_fine_handle hpass) fun h => h.2.1

theorem flags_before (half : Half) (p : String) :
    (half.before p).blamed = none ∧ (half.before p).fellBack = false := by
  cases half <;> exact ⟨rfl, rfl⟩

theorem fine_submitHalf (ht : w.trace = half.before p) (hpass : ¬Raises (w.submitHalf half p d)) :
    Fine (w.submitHalf half p d) ↔ World.target half p d ∈ w.manager.instances := by
  obtain ⟨hblamed, hfell⟩ := flags_before half p
  rw [← ht] at hblamed hfell
  unfold World.submitHalf at hpass ⊢
  split
  · rename_i hin
    have hfine := fine_of_trace (w := w.submit (World.target half p d) (.submitted half p d)) rfl
      hblamed (fun _ _ _ _ h => by cases h) fun h => by cases h
    exact hfine.trans (iff_of_true hfell hin)
  · rename_i hout
    rw [if_neg hout] at hpass
    rw [fine_cleanup hblamed hfell hpass]
    exact iff_of_false (fun h => h.1 (.inr rfl)) hout

theorem fine_submitPd (ht : w.trace = {}) (hpass : ¬Raises (w.submitPd c p d)) :
    Fine (w.submitPd c p d) ↔ p ∈ w.manager.instances ∧ validEndpoint c w.manager p = true ∧
      validEndpoint c w.manager d = true := by
  unfold World.submitPd at hpass ⊢
  unfold validEndpoint
  dsimp only at hpass ⊢
  cases hp : w.manager.globalScheduler.instanceInfo.get? p with
  | none =>
    simp only [hp] at hpass ⊢
    exact iff_of_false (not_fine_handle hpass) (by simp)
  | some prefillInfo =>
    cases hd : w.manager.globalScheduler.instanceInfo.get? d with
    | none =>
      simp only [hp, hd] at hpass ⊢
      exact iff_of_false (not_fine_handle hpass) (by simp)
    | some decodeInfo =>
      simp only [hp, hd, Option.any_some] at hpass ⊢
      split
      · rename_i hvalid
        rw [if_pos hvalid] at hpass
        exact (fine_submitHalf ht hpass).trans (and_iff_left hvalid).symm
      · rename_i hinvalid
        rw [if_neg hinvalid] at hpass
        rw [fine_submitSingle (b := true) (by simp [ht]) hpass]
        exact iff_of_false (fun h => Bool.noConfusion h.1) fun h => hinvalid h.2

theorem fine_of_waits (h : Pending c w.trace waiting event cancelled)
    (hcleanup : ∀ half p d e, w.point ≠ .cleanup half p d e) (hreturned : w.point ≠ .returned) :
    Fine w :=
  (fine_of_trace h.trace rfl hcleanup hreturned).mpr rfl

/-- The scheduler's choice is all that decides, if the request is not aborted. -/
theorem fine_choose (h : Waits c w) (hcancelled : w.cancelled = false) (blockHashes : List String)
    (hpass : ¬Raises (w.choose c x blockHashes)) :
    Fine (w.choose c x blockHashes) ↔ available c x w.manager blockHashes = true := by
  unfold World.choose at hpass ⊢
  unfold available
  by_cases hpd : c.pdV1 = true
  · have hwaiting : w.waiting = true := by
      rw [h.cancelled, hpd] at hcancelled
      simpa using hcancelled
    rw [if_pos hpd] at hpass ⊢
    rw [if_pos hpd]
    generalize w.manager.selectV1PdInstances c.round blockHashes x.drawn x.drawn' = chosen
      at hpass ⊢
    obtain ⟨chosen, m⟩ := chosen
    rcases chosen with e | pair
    · exact absurd ⟨.other, rfl⟩ hpass
    cases pair with
    | none =>
      exact iff_of_true (fine_of_waits h (fun _ _ _ _ h => by cases h) fun h => by cases h) rfl
    | some pair =>
      dsimp only [World.selected] at hpass ⊢
      rw [if_pos hwaiting] at hpass ⊢
      refine (fine_submitPd ?_ hpass).trans ?_
      · exact h.trace
      · simp [and_assoc]
  · have hplain : c.pdV1 = false := by simpa using hpd
    rw [if_neg hpd] at hpass ⊢
    rw [if_neg hpd]
    generalize w.manager.globalScheduler.dispatch c.round blockHashes x.drawn = chosen at hpass ⊢
    obtain ⟨chosen, g⟩ := chosen
    rcases chosen with e | ⟨i, steps⟩
    · exact absurd ⟨.other, rfl⟩ hpass
    · refine (fine_submitSingle (b := false) ?_ hpass).trans ?_
      · exact h.trace
      · simp

theorem fine_probe (h : Waits c w) (hcancelled : w.cancelled = false) {left size : ℕ} {more : Bool}
    (hpass : ¬Raises (w.probe c x left size more)) : Fine (w.probe c x left size more) ↔
      (probeHashes w size more).all (available c x w.manager) = true := by
  unfold World.probe at hpass ⊢
  unfold probeHashes
  by_cases hsize : w.manager.instances.items.length = size
  · rw [if_pos hsize] at hpass ⊢
    cases more with
    | false =>
      rw [if_pos ⟨hsize, rfl⟩]
      have hchoose : ¬Raises (w.choose c x []) := by cases left <;> exact hpass
      have hfine := fine_choose h hcancelled [] hchoose
      cases left <;> simpa using hfine
    | true =>
      rw [if_neg fun h => Bool.noConfusion h.2]
      cases left with
      | zero => exact absurd ⟨.other, rfl⟩ hpass
      | succ left =>
        exact iff_of_true (fine_of_waits h (fun _ _ _ _ h => by cases h) fun h => by cases h) rfl
  · rw [if_neg hsize] at hpass
    exact absurd ⟨.other, rfl⟩ hpass

/-- Before the request waits for anything, it is entered in the set. -/
theorem fine_waitInstances {v : World H} (h : Waits c w) (hcancelled : w.cancelled = false)
    (hmanager : w.manager = v.manager) (hpoint : v.point = .start ∨ v.point = .noInstance)
    (hpass : ¬Raises (w.waitInstances c x)) : Fine (w.waitInstances c x) ↔
      (choiceHashes c x v).all (available c x v.manager) = true := by
  have hhashes : choiceHashes c x v = if v.manager.numInstances = 0 then none
      else if c.blockHashes = none ∧ c.hasPrompt then
        probeHashes v v.manager.instances.items.length (0 < v.manager.instances.items.length)
      else some (c.blockHashes.getD []) := by
    unfold choiceHashes
    rcases hpoint with hpoint | hpoint <;> rw [hpoint]
  rw [hhashes, ← hmanager]
  unfold World.waitInstances at hpass ⊢
  split
  · rename_i hzero
    rw [if_pos hzero] at hpass
    have hwaits : ¬(c.pdV1 = true ∧ ¬w.waiting = true) := by
      rintro ⟨hpd, hwaiting⟩
      rw [h.cancelled, hpd] at hcancelled
      simp [hwaiting] at hcancelled
    rw [if_neg hwaits]
    exact iff_of_true (fine_of_waits h (fun _ _ _ _ h => by cases h) fun h => by cases h) rfl
  · rename_i hsome
    rw [if_neg hsome] at hpass
    unfold World.findHashes at hpass ⊢
    cases hgiven : c.blockHashes with
    | some blockHashes =>
      simp only [hgiven] at hpass ⊢
      simpa using fine_choose h hcancelled blockHashes hpass
    | none =>
      simp only [hgiven] at hpass ⊢
      by_cases hprompt : c.hasPrompt = true
      · simp only [hprompt, if_true, and_self] at hpass ⊢
        have hfine := fine_probe h hcancelled hpass
        unfold probeHashes at hfine ⊢
        rwa [hmanager] at hfine ⊢
      · rw [if_neg hprompt] at hpass ⊢
        rw [if_neg fun h => hprompt h.2]
        simpa using fine_choose h hcancelled [] hpass

theorem fine_probed (h : Waits c w) (hcancelled : w.cancelled = false) {left size : ℕ}
    (hpoint : w.point = .probing left size) (hpass : ¬Raises (w.probed c x left size)) :
    Fine (w.probed c x left size) ↔
      (choiceHashes c x w).all (available c x w.manager) = true := by
  unfold World.probed at hpass ⊢
  simp only [choiceHashes, hpoint]
  cases hanswer : x.answer with
  | ok blockHashes =>
    cases blockHashes with
    | nil =>
      simp only [hanswer] at hpass ⊢
      exact fine_probe h hcancelled hpass
    | cons first rest =>
      simp only [hanswer] at hpass ⊢
      simpa using fine_choose h hcancelled _ hpass
  | error e =>
    simp only [hanswer] at hpass ⊢
    split
    · rename_i hcontinue
      rw [if_pos hcontinue] at hpass
      exact fine_probe h hcancelled hpass
    · rename_i hraise
      rw [if_neg hraise] at hpass
      exact absurd ⟨e, rfl⟩ hpass

theorem fine_rolesWaited (h : Waits c w) (hpd : c.pdV1 = true) (hcancelled : w.cancelled = false)
    {blockHashes : List String} (hpoint : w.point = .roles blockHashes)
    (hpass : ¬Raises (w.rolesWaited c x blockHashes)) :
    Fine (w.rolesWaited c x blockHashes) ↔
      (choiceHashes c x w).all (available c x w.manager) = true := by
  have hwaiting : w.waiting = true := by
    rw [h.cancelled, hpd] at hcancelled
    simpa using hcancelled
  have hunset : w.event ≠ some true := by
    rw [h.event, hpd, hwaiting]
    decide
  unfold World.rolesWaited at hpass ⊢
  rw [if_neg hunset, if_pos hwaiting] at hpass ⊢
  simpa [choiceHashes, hpoint] using fine_choose h hcancelled blockHashes hpass

theorem caught_of_handle (hpass : ¬Raises (w.handle i e)) : e.Caught := by
  by_contra hcaught
  exact hpass ⟨e, congrArg World.point (if_neg hcaught)⟩

theorem fine_record {a : Routing.Action} (hblamed : w.trace.blamed = none) :
    Fine (w.record c a) ↔
      w.trace.fellBack = false ∧ ∀ i ∈ w.trace.accepted, i ∈ w.manager.instances := by
  constructor
  · intro h
    exact ⟨h.fellBack, h.registered rfl⟩
  · rintro ⟨hfell, hregistered⟩
    exact ⟨⟨hblamed, hfell, fun _ _ _ _ h => by cases h⟩, fun _ => hregistered⟩

theorem fine_singleAnswered (ht : w.trace = { submitted := [i], fellBack := c.pdV1 })
    (hpoint : w.point = .single i) (hpass : ¬Raises (w.singleAnswered c x i)) :
    Fine (w.singleAnswered c x i) ↔ c.pdV1 = false ∧ answered x w = true := by
  unfold World.singleAnswered at hpass ⊢
  simp only [answered, hpoint]
  cases hanswer : x.answer with
  | ok blockHashes =>
    simp only [hanswer] at hpass ⊢
    rw [fine_record (by simp [World.accept, ht])]
    simp [World.accept, ht]
  | error e =>
    simp only [hanswer] at hpass ⊢
    refine iff_of_false (not_fine_handle hpass) fun h => ?_
    exact of_decide_eq_true h.2 (caught_of_handle hpass)

theorem fine_halfAnswered (ht : w.trace = half.sent p d) (hpoint : w.point = .submitted half p d)
    (hpass : ¬Raises (w.halfAnswered c x half p d)) :
    Fine (w.halfAnswered c x half p d) ↔ answered x w = true := by
  have hflags := flags_before half p
  unfold World.halfAnswered at hpass ⊢
  simp only [answered, hpoint]
  cases hanswer : x.answer with
  | ok blockHashes =>
    cases half with
    | prefill =>
      simp only [hanswer] at hpass ⊢
      refine (fine_submitHalf ?_ hpass).trans (by simp [World.target, World.accept])
      simp only [World.accept, ht]
      rfl
    | decode =>
      simp only [hanswer] at hpass ⊢
      rw [fine_record (by rw [World.accept, ht]; rfl)]
      simp [World.accept, ht, Half.sent, Half.before]
  | error e =>
    have hcleanup : ¬Raises (w.cleanup half p d e) → _ :=
      fine_cleanup (by rw [ht]; exact hflags.1) (by rw [ht]; exact hflags.2)
    cases half with
    | prefill =>
      simp only [hanswer] at hpass ⊢
      exact (hcleanup hpass).trans decide_eq_true_iff.symm
    | decode =>
      simp only [hanswer] at hpass ⊢
      exact (hcleanup hpass).trans decide_eq_true_iff.symm

theorem clear_of_trace {t : Trace} (ht : w.trace = t) (hblamed : t.blamed = none)
    (hcleanup : ∀ half p d e, w.point ≠ .cleanup half p d e) : Clear w ↔ t.fellBack = false := by
  subst ht
  refine ⟨fun h => h.fellBack, fun h => ⟨hblamed, h, ?_⟩⟩
  intro half p d e hpoint
  exact absurd hpoint (hcleanup half p d e)

theorem waiting_iff {P : Prop} (ht : w.trace = {})
    (hcleanup : ∀ half p d e, w.point ≠ .cleanup half p d e) (hanswered : answered x w = true) :
    Clear w ∧ P ∧ answered x w = true ↔ P := by
  rw [and_iff_right ((clear_of_trace ht rfl hcleanup).mpr rfl), and_iff_left hanswered]

/-- One stretch. -/
theorem fine_resume (h : Inv c w) (hcancelled : w.cancelled = false)
    (hstep : w.resume c x = some w') (hpass : ¬Raises w') :
    Fine w' ↔ Clear w ∧ undisturbed c w (.resume x) = true := by
  unfold World.resume at hstep
  unfold Inv at h
  simp only [undisturbed, Bool.and_eq_true]
  cases hpoint : w.point with
  | start =>
    simp only [hpoint] at h hstep
    cases hstep
    rw [waiting_iff h.1 (by simp [hpoint]) (by simp [answered, hpoint])]
    unfold World.enter at hpass ⊢
    by_cases hpd : c.pdV1 = true
    · rw [if_pos hpd] at hpass ⊢
      refine fine_waitInstances ?_ hcancelled rfl (.inl hpoint) hpass
      exact ⟨h.1, by simp [hpd, h.2.event], by simpa using hcancelled, by simp [hpd]⟩
    · rw [if_neg hpd] at hpass ⊢
      refine fine_waitInstances ?_ hcancelled rfl (.inl hpoint) hpass
      exact ⟨h.1, by simp [hpd, h.2.event], by simp [hpd, hcancelled], fun _ => h.2.waiting⟩
  | noInstance =>
    simp only [hpoint] at h hstep
    cases hstep
    rw [waiting_iff h.trace (by simp [hpoint]) (by simp [answered, hpoint])]
    exact fine_waitInstances h hcancelled rfl (.inr hpoint) hpass
  | probing left size =>
    simp only [hpoint] at h hstep
    cases hstep
    rw [waiting_iff h.trace (by simp [hpoint]) (by simp [answered, hpoint])]
    exact fine_probed h hcancelled hpoint hpass
  | roles blockHashes =>
    simp only [hpoint] at h hstep
    cases hstep
    rw [waiting_iff h.1.trace (by simp [hpoint]) (by simp [answered, hpoint])]
    exact fine_rolesWaited h.1 h.2 hcancelled hpoint hpass
  | single i =>
    simp only [hpoint] at h hstep
    cases hstep
    have hnone : choiceHashes c x w = none := by simp [choiceHashes, hpoint]
    rw [hnone, clear_of_trace h.2 rfl (by simp [hpoint])]
    simpa using fine_singleAnswered h.2 hpoint hpass
  | submitted half p d =>
    simp only [hpoint] at h hstep
    cases hstep
    have hflags := flags_before half p
    have hnone : choiceHashes c x w = none := by simp [choiceHashes, hpoint]
    have hclear : Clear w := (clear_of_trace h.2.2 hflags.1 (by simp [hpoint])).mpr hflags.2
    rw [hnone, and_iff_right hclear]
    simpa using fine_halfAnswered h.2.2 hpoint hpass
  | cleanup half p d e =>
    simp only [hpoint] at h hstep
    cases hstep
    refine iff_of_false (not_fine_handle hpass) fun hclear => ?_
    exact hclear.1.escaping half p d e hpoint (caught_of_handle hpass)
  | returned =>
    simp only [hpoint] at hstep
    cases hstep
  | raised e =>
    simp only [hpoint] at hstep
    cases hstep

end Fine

theorem inv_of_run (hrun : run (step c) (init m tables serverInfo) as = some w) : Inv c w :=
  run_invariant (fun _ _ _ h _ hstep => inv_step h hstep) (inv_init m tables serverInfo) meets_true
    hrun

theorem uncancelled_step {a : Action H} (h : Inv c w ∧ w.cancelled = false) (ha : NotAborted w a)
    (hstep : step c w a = some w') : Inv c w' ∧ w'.cancelled = false := by
  have hne : a ≠ .abort := by
    rintro rfl
    exact ha
  exact ⟨inv_step h.1 hstep, (cancelled_of_not_abort h.1 hne hstep).trans h.2⟩

theorem ended_step {a : Action H} (h : Ended w) (hstep : step c w a = some w') : Ended w' := by
  cases a with
  | resume x =>
    unfold step World.resume at hstep
    rcases h with hpoint | ⟨e, hpoint⟩
    · simp only [hpoint] at hstep
      cases hstep
    · simp only [hpoint] at hstep
      cases hstep
  | scheduler a =>
    cases hstep
    exact h
  | routing a =>
    cases hstep
    exact h
  | abort =>
    cases hstep
    exact h

theorem clear_step {a : Action H} (h : Inv c w ∧ w.cancelled = false) (ha : NotAborted w a)
    (hstep : step c w a = some w') (hgoing : ¬Ended w') :
    Clear w' ↔ Clear w ∧ undisturbed c w a = true := by
  cases a with
  | resume x =>
    have hfine := fine_resume h.1 h.2 hstep fun hr => hgoing (.inr hr)
    refine Iff.trans ⟨fun hclear => ⟨hclear, fun hr => ?_⟩, Fine.toClear⟩ hfine
    exact absurd (.inl hr) hgoing
  | scheduler a =>
    cases hstep
    exact ⟨fun h => ⟨⟨h.blamed, h.fellBack, h.escaping⟩, rfl⟩,
      fun h => ⟨h.1.blamed, h.1.fellBack, h.1.escaping⟩⟩
  | routing a =>
    cases hstep
    exact ⟨fun h => ⟨⟨h.blamed, h.fellBack, h.escaping⟩, rfl⟩,
      fun h => ⟨h.1.blamed, h.1.fellBack, h.1.escaping⟩⟩
  | abort => exact ha.elim

theorem served_iff_fine (hentry : w.trace.recorded = true →
      w.tables.requestInstance c.requestId ≠ none) (hpoint : w.point = .returned)
    (h : Returned c false w.trace) : Served c w ↔ Fine w := by
  have hfine : Fine w ↔ (w.trace.blamed = none ∧ w.trace.fellBack = false) ∧
      ∀ i ∈ w.trace.accepted, i ∈ w.manager.instances := by
    constructor
    · intro h
      exact ⟨⟨h.blamed, h.fellBack⟩, h.registered hpoint⟩
    · rintro ⟨⟨hblamed, hfell⟩, hregistered⟩
      exact ⟨⟨hblamed, hfell, by simp [hpoint]⟩, fun _ => hregistered⟩
  rw [hfine]
  unfold Served
  generalize w.trace = t at h hentry
  cases h with
  | single i =>
    have hin := hentry rfl
    cases hpd : c.pdV1 with
    | false => simp [hin]
    | true => simp
  | pd p d hpd =>
    have hin := hentry rfl
    simp [hpd, hin]
  | blamed i b ht hf =>
    -- the handler has been reached, and too few have taken the request
    refine iff_of_false (fun hserved => ?_) (by simp)
    have hshort := ht.short
    unfold Call.submissions at hshort
    obtain ⟨haccepted, -⟩ := hserved
    split at haccepted <;> rename_i hpd
    · obtain ⟨p, d, heq⟩ := haccepted
      dsimp only at heq
      simp [heq, hpd] at hshort
    · obtain ⟨i, heq⟩ := haccepted
      dsimp only at heq
      simp [heq, hpd] at hshort

/-- Without an abort, a request for which `generate` returns is served exactly if, at every stretch,
the instances that it comes to are registered, for a P/D request with valid endpoints, and none
answers with `RayActorError` or `KeyError`. -/
theorem generate_serves_iff
    (hok : Meets (step c) NotAborted (init m tables serverInfo) as)
    (hrun : run (step c) (init m tables serverInfo) as = some w)
    (hstep : step c w (.resume x) = some w') (hreturned : w'.point = .returned) :
    Served c w' ↔ Meets (step c) (fun w a => undisturbed c w a = true)
      (init m tables serverInfo) (as ++ [.resume x]) := by
  have hstart : Inv c (init m tables serverInfo) ∧ (init m tables serverInfo).cancelled = false :=
    ⟨inv_init m tables serverInfo, rfl⟩
  have hinv := run_invariant (fun _ _ _ h ha hs => uncancelled_step h ha hs) hstart hok hrun
  have hgoing : ¬Ended w := by
    rintro (hpoint | ⟨e, hpoint⟩)
    · simp [step, World.resume, hpoint] at hstep
    · simp [step, World.resume, hpoint] at hstep
  have hclear : Clear w ↔ Clear (init m tables serverInfo) ∧ Meets (step c)
      (fun w a => undisturbed c w a = true) (init m tables serverInfo) as :=
    kept_iff_meets (fun _ _ _ h ha hs => uncancelled_step h ha hs)
      (fun _ _ _ hs h hend => h (ended_step hend hs))
      (fun _ _ _ h ha hs hgoing => clear_step h ha hs hgoing) hstart hok hrun hgoing
  have hfresh : Clear (init m tables serverInfo) := ⟨rfl, rfl, fun _ _ _ _ h => by cases h⟩
  have hsound := sound_resume hinv.1 hstep
  have hend := hsound.inv
  unfold Inv at hend
  rw [hreturned] at hend
  have hreturn := hend.2.2
  rw [hsound.cancelled, hinv.2] at hreturn
  rw [served_iff_fine hsound.entry hreturned hreturn, meets_concat hrun,
    fine_resume hinv.1 hinv.2 hstep (by simp [hreturned]), hclear, and_iff_right hfresh]

/-- The call of this instance itself failed, since it died. -/
def Failure.OwnCall (f : Failure) (instanceId : String) : Prop :=
  World.target f.half f.prefillId f.decodeId = instanceId ∧ f.error = .rayActorError

/-- The instances that are left were told, nothing was written, and none was scaled down that was
registered and had not died in its own call. -/
structure RolledBack (f : Failure) (t : Trace) : Prop where
  prefill : f.prefillIn = true → f.prefillId ∈ t.aborted
  decode : f.decodeIn = true → f.decodeId ∈ t.aborted
  unwritten : t.recorded = false
  blamed : ∀ i, t.blamed = some (i, true) → f.OwnCall i

theorem aborts_iff (f : Failure) :
    ((f.prefillIn = true → f.prefillId ∈ f.aborts) ∧ (f.decodeIn = true → f.decodeId ∈ f.aborts)) ↔
      f.prefillIn = true ∨ f.decodeIn = false := by
  unfold Failure.aborts
  cases f.prefillIn <;> cases f.decodeIn <;> simp

theorem rolledBack_iff {f : Failure} {t : Trace} (haborted : t.aborted = f.aborts)
    (hrecorded : t.recorded = false) : RolledBack f t ↔
      (f.prefillIn = true ∨ f.decodeIn = false) ∧ ∀ i, t.blamed = some (i, true) → f.OwnCall i := by
  rw [← aborts_iff, ← haborted]
  constructor
  · intro h
    exact ⟨⟨h.prefill, h.decode⟩, h.blamed⟩
  · rintro ⟨⟨hprefill, hdecode⟩, hblamed⟩
    exact ⟨hprefill, hdecode, hrecorded, hblamed⟩

/-- After a failed submission, `generate` ends with everything undone exactly if the prefill
instance is left or the decode instance is not; and the exception of the inner handler is not caught
outside, or the prefill instance is gone by then, or it died in its own call. -/
theorem failed_submission_rolled_back_iff {f : Failure}
    (hrun : run (step c) (init m tables serverInfo) as = some w)
    (hstep : step c w (.resume x) = some w')
    (hended : w'.point = .returned ∨ ∃ e, w'.point = .raised e)
    (hfailed : w'.trace.failure = some f) :
    RolledBack f w'.trace ↔ (f.prefillIn = true ∨ f.decodeIn = false) ∧
      (¬f.escaping.Caught ∨ f.prefillId ∉ w.manager.instances ∨ f.OwnCall f.prefillId) := by
  have hsound := sound_resume (inv_of_run hrun) hstep
  have hinv := hsound.inv
  have hflag := hsound.blamed
  unfold Inv at hinv
  generalize htrace : w'.trace = t at hinv hfailed hflag ⊢
  rcases hended with hpoint | ⟨e, hpoint⟩
  · rw [hpoint] at hinv
    obtain ⟨-, -, hreturned⟩ := hinv
    generalize w'.cancelled = cancelled at hreturned
    cases hreturned with
    | cancelled => cases hfailed
    | single i => cases hfailed
    | pd p d hpd => cases hfailed
    | @blamed t i b ht hf =>
      obtain ⟨rfl, hcaught⟩ := hf f hfailed
      have hb := hflag _ _ rfl
      have hrolled := rolledBack_iff (t := { t with blamed := some (f.prefillId, b) })
        (ht.failed f hfailed) ht.recorded
      refine hrolled.trans (and_congr_right fun _ => ?_)
      constructor
      · intro hblamed
        by_cases hin : f.prefillId ∈ w.manager.instances
        · exact .inr (.inr (hblamed _ (by simp [hb, hin])))
        · exact .inr (.inl hin)
      · rintro (hnot | hout | hown) i hi
        · exact absurd hcaught hnot
        · simp [hb, hout] at hi
        · have heq : f.prefillId = i := (Prod.mk.inj (Option.some.inj hi)).1
          exact heq ▸ hown
  · rw [hpoint] at hinv
    obtain ⟨hunserved, hescapes⟩ := hinv
    refine (rolledBack_iff (hunserved.failed f hfailed) hunserved.recorded).trans
      (and_congr_right fun _ => ?_)
    refine iff_of_true (fun i hi => ?_) (.inl (hescapes f hfailed))
    rw [hunserved.blamed] at hi
    cases hi

section Sample

def noInstances : Manager Unit := .init false false true .load 1 .balanced (.fin 0)

/-- A prefill and a decode instance, with or without endpoints. -/
def arrivals (endpoint : Option String) : List (Scheduler.Action Unit) :=
  [.scaleUp [⟨"p", (), .prefill⟩, ⟨"d", (), .decode⟩],
    .updateInstanceInfos
      [{ instanceId := "p", instanceType := some .prefill, kvEndpoint := endpoint },
        { instanceId := "d", instanceType := some .decode, kvEndpoint := endpoint }]]

def twoRoles (endpoint : Option String) : Manager Unit := noInstances.run .fin (arrivals endpoint)

def call (pd : Bool) : Call where
  requestId := "r"
  pdV1 := pd
  blockHashes := some []
  hasPrompt := false
  validP2pEndpoint := Option.isSome
  round := .fin

def ok : Action Unit := .resume { answer := .ok [] }

def fails (e : Error) : Action Unit := .resume { answer := .error e }

def runCall (pd : Bool) (endpoint : Option String) (as : List (Action Unit)) :
    Option (World Unit) :=
  run (step (call pd)) (init (twoRoles endpoint) .empty ∅) as

/-- The instance dies, and `generate` returns with nothing taken or written; without endpoints it
returns with the prefill instance alone. -/
theorem generate_loses_request :
    ((runCall false none [ok, fails .rayActorError]).map fun w =>
      (w.point, w.trace.accepted, w.tables.requestInstance "r")) = some (.returned, [], none) ∧
    ((runCall true none [ok, ok]).map fun w =>
      (w.point, w.trace.accepted, w.tables.requestInstance "r")) =
        some (.returned, ["p"], some "p") := by
  decide

/-- The decode instance dies, and the prefill instance is scaled down; the prefill instance is gone
when its call fails, and the decode instance is not told. -/
theorem failed_submission_misblamed :
    ((runCall true (some "h:1") [ok, ok, fails .rayActorError, ok]).map fun w =>
      (w.point, w.trace.blamed)) = some (.returned, some ("p", true)) ∧
    ((runCall true (some "h:1") [ok, .scheduler (.scaleDown ["p"] true),
      fails .rayActorError]).map fun w =>
        (w.point, w.trace.aborted, decide ("d" ∈ w.manager.instances))) =
          some (.returned, [], true) := by
  decide

/-- The request waits for the two roles, and another instance comes and goes between its halves. -/
def patientRun : List (Action Unit) :=
  ok :: (arrivals (some "h:1")).map .scheduler ++
    [ok, .scheduler (.scaleUp [⟨"q", (), .prefill⟩]), .scheduler (.scaleDown ["q"] true), ok]

theorem generate_serves_iff_sample :
    ∃ w, run (step (call true)) (init noInstances .empty ∅) (patientRun ++ [ok]) = some w ∧
      Served (call true) w := by
  have hend : (run (step (call true)) (init noInstances .empty ∅) (patientRun ++ [ok])).map
      (fun w => w.point) = some .returned := by decide
  obtain ⟨w', hw', hpoint⟩ := Option.map_eq_some_iff.mp hend
  obtain ⟨w, hw, hlast⟩ := run_concat hw'
  have hok : Meets (step (call true)) NotAborted (init noInstances .empty ∅) patientRun :=
    ⟨trivial, fun _ _ => ⟨trivial, fun _ _ => ⟨trivial, fun _ _ => ⟨trivial, fun _ _ =>
      ⟨trivial, fun _ _ => ⟨trivial, fun _ _ => ⟨trivial, fun _ _ => trivial⟩⟩⟩⟩⟩⟩⟩
  exact ⟨w', hw', (generate_serves_iff hok hw hlast hpoint).mpr (by decide)⟩

theorem failed_submission_rolled_back_iff_sample :
    ∃ w, runCall true (some "h:1") [ok, fails .other, ok] = some w ∧
      RolledBack ⟨.prefill, "p", "d", .other, true, true⟩ w.trace := by
  have hend : (runCall true (some "h:1") ([ok, fails .other] ++ [ok])).map (fun w =>
      (w.point, w.trace.failure)) =
        some (.raised .other, some ⟨.prefill, "p", "d", .other, true, true⟩) := by decide
  obtain ⟨w', hw', heq⟩ := Option.map_eq_some_iff.mp hend
  obtain ⟨hpoint, hfailure⟩ := Prod.mk.inj heq
  obtain ⟨w, hw, hlast⟩ := run_concat hw'
  have hiff := failed_submission_rolled_back_iff hw hlast (.inr ⟨.other, hpoint⟩) hfailure
  exact ⟨w', hw', hiff.mpr ⟨.inl rfl, .inl (by decide)⟩⟩

end Sample

end Llumnix.Generate
