import Llumnix.Generate.Basic

/-! What `generate` has done at each point where it waits, and all the ways in which it ends. -/
namespace Llumnix.Generate

open Machine Python Scheduler

variable {H : Type} {c : Call}

def Error.Caught (e : Error) : Prop := e = .rayActorError ∨ e = .keyError

instance (e : Error) : Decidable e.Caught := inferInstanceAs (Decidable (_ ∨ _))

/-- The instances that the inner handler comes to. -/
def Failure.aborts (f : Failure) : List String :=
  if f.prefillIn then if f.decodeIn then [f.prefillId, f.decodeId] else [f.prefillId] else []

/-- The exception that leaves the inner handler. -/
def Failure.escaping (f : Failure) : Error :=
  if f.prefillIn ∧ f.decodeIn then f.error else .keyError

def Call.submissions (c : Call) : ℕ := if c.pdV1 then 2 else 1

/-- Not taken by all that it needs, and not written down; a failed submission was cleaned up. -/
structure Unserved (c : Call) (t : Trace) : Prop where
  recorded : t.recorded = false
  blamed : t.blamed = none
  short : t.accepted.length < c.submissions
  failed : ∀ f, t.failure = some f → t.aborted = f.aborts

/-- The ways in which `generate` returns, cancelled or not. -/
inductive Returned (c : Call) : Bool → Trace → Prop
  | cancelled : Returned c true {}
  | single (i : String) : Returned c false
      { submitted := [i], accepted := [i], fellBack := c.pdV1, recorded := true }
  | pd (p d : String) (hpd : c.pdV1 = true) : Returned c false
      { submitted := [p, d], accepted := [p, d], recorded := true }
  | blamed {t : Trace} (i : String) (b : Bool) (ht : Unserved c t)
      (hf : ∀ f, t.failure = some f → i = f.prefillId ∧ f.escaping.Caught) :
      Returned c false { t with blamed := some (i, b) }

/-- The ways in which it raises. -/
structure Raised (c : Call) (t : Trace) : Prop where
  unserved : Unserved c t
  escapes : ∀ f, t.failure = some f → ¬f.escaping.Caught

/-- Nothing is done yet. A P/D request is in the set until it is aborted, which also sets the
event. -/
structure Pending (c : Call) (t : Trace) (waiting : Bool) (event : Option Bool) (cancelled : Bool) :
    Prop where
  trace : t = {}
  event : event = if c.pdV1 then some !waiting else none
  cancelled : cancelled = (c.pdV1 && !waiting)
  plain : c.pdV1 = false → waiting = false

/-- The request is not in the set: not yet, or no more since it is submitted. -/
structure Absent (waiting : Bool) (event : Option Bool) (cancelled : Bool) : Prop where
  waiting : waiting = false
  event : event = none
  cancelled : cancelled = false

abbrev Waits (c : Call) (w : World H) : Prop := Pending c w.trace w.waiting w.event w.cancelled

abbrev Gone (w : World H) : Prop := Absent w.waiting w.event w.cancelled

def Half.before (p : String) : Half → Trace
  | .prefill => {}
  | .decode => { submitted := [p], accepted := [p] }

def Half.sent (half : Half) (p d : String) : Trace :=
  { half.before p with
    submitted := (half.before p).submitted ++ [World.target half p d] }

def Inv (c : Call) (w : World H) : Prop :=
  match w.point with
  | .start => w.trace = {} ∧ Gone w
  | .noInstance => Waits c w
  | .probing _ _ => Waits c w
  | .roles _ => Waits c w ∧ c.pdV1 = true
  | .single i => Gone w ∧ w.trace = { submitted := [i], fellBack := c.pdV1 }
  | .submitted half p d => Gone w ∧ c.pdV1 = true ∧ w.trace = half.sent p d
  | .cleanup half p d e => Gone w ∧ c.pdV1 = true ∧ w.trace =
      { half.sent p d with aborted := [p, d], failure := some ⟨half, p, d, e, true, true⟩ }
  | .returned => w.waiting = false ∧ w.event = none ∧ Returned c w.cancelled w.trace
  | .raised _ => Raised c w.trace

def Ended (w : World H) : Prop := w.point = .returned ∨ ∃ e, w.point = .raised e

abbrev Same (w₀ w : World H) : Prop :=
  w.manager.instances = w₀.manager.instances ∧ w.cancelled = w₀.cancelled

/-- What a stretch that starts from `w₀` leaves. -/
structure Sound (c : Call) (w₀ w : World H) : Prop where
  inv : Inv c w
  cancelled : w.cancelled = w₀.cancelled
  blamed : ∀ i b, w.trace.blamed = some (i, b) → b = decide (i ∈ w₀.manager.instances)
  entry : w.trace.recorded = true → w.tables.requestInstance c.requestId ≠ none

section Submit
variable {w w₀ : World H}

theorem sound_of_inv (hsame : Same w₀ w) (h : Inv c w) (hblamed : w.trace.blamed = none)
    (hrecorded : w.trace.recorded = false) : Sound c w₀ w where
  inv := h
  cancelled := hsame.2
  blamed := by
    intro i b hb
    rw [hblamed] at hb
    cases hb
  entry := by
    intro hr
    rw [hrecorded] at hr
    cases hr

theorem sound_raise (hsame : Same w₀ w) (h : Unserved c w.trace) (e : Error)
    (hescapes : ∀ f, w.trace.failure = some f → ¬f.escaping.Caught) :
    Sound c w₀ (w.raise e) :=
  sound_of_inv hsame ⟨h, hescapes⟩ h.blamed h.recorded

theorem sound_handle (hsame : Same w₀ w) (hgone : Gone w) (h : Unserved c w.trace) {i : String}
    {e : Error} (hf : ∀ f, w.trace.failure = some f → i = f.prefillId ∧ f.escaping = e) :
    Sound c w₀ (w.handle i e) := by
  unfold World.handle
  split
  · rename_i hcaught
    refine ⟨⟨hgone.waiting, hgone.event, ?_⟩, hsame.2, fun j b hb => ?_, fun hr => ?_⟩
    · change Returned c w.cancelled _
      rw [hgone.cancelled]
      refine .blamed i _ h fun f hfail => ?_
      obtain ⟨hi, he⟩ := hf f hfail
      exact ⟨hi, he ▸ hcaught⟩
    · cases hb
      rw [hsame.1]
    · have hrecorded : w.trace.recorded = true := hr
      rw [h.recorded] at hrecorded
      cases hrecorded
  · rename_i hpass
    refine sound_raise hsame h e fun f hfail hcaught => hpass ?_
    rw [(hf f hfail).2] at hcaught
    exact hcaught

theorem unserved_of_nil {t : Trace} (hrecorded : t.recorded = false) (hblamed : t.blamed = none)
    (haccepted : t.accepted = []) (hfailure : t.failure = none) : Unserved c t where
  recorded := hrecorded
  blamed := hblamed
  short := by
    rw [haccepted]
    unfold Call.submissions
    split <;> simp
  failed := by
    intro f hf
    rw [hfailure] at hf
    cases hf

theorem sound_handle_of_nil (hsame : Same w₀ w) (hgone : Gone w)
    (hrecorded : w.trace.recorded = false) (hblamed : w.trace.blamed = none)
    (haccepted : w.trace.accepted = []) (hfailure : w.trace.failure = none)
    (i : String) (e : Error) :
    Sound c w₀ (w.handle i e) := by
  refine sound_handle hsame hgone (unserved_of_nil hrecorded hblamed haccepted hfailure) ?_
  intro f hf
  rw [hfailure] at hf
  cases hf

theorem sound_submitSingle (hsame : Same w₀ w) (hgone : Gone w)
    (ht : w.trace = { fellBack := c.pdV1 }) (i : String) : Sound c w₀ (w.submitSingle i) := by
  unfold World.submitSingle
  split
  · have htrace : (w.submit i (.single i)).trace = { submitted := [i], fellBack := c.pdV1 } := by
      simp [World.submit, ht]
    refine sound_of_inv hsame ⟨hgone, htrace⟩ ?_ ?_
    · rw [htrace]
    · rw [htrace]
  · apply sound_handle_of_nil hsame hgone <;> simp [ht]

theorem unserved_before (hpd : c.pdV1 = true) (half : Half) (p : String) :
    Unserved c (half.before p) := by
  cases half with
  | prefill => exact unserved_of_nil rfl rfl rfl rfl
  | decode => exact ⟨rfl, rfl, by simp [Half.before, Call.submissions, hpd], nofun⟩

theorem unserved_failed {t : Trace} (h : Unserved c t) (f : Failure) :
    Unserved c { t with failure := some f, aborted := f.aborts } where
  recorded := h.recorded
  blamed := h.blamed
  short := h.short
  failed := by
    intro g hg
    cases hg
    rfl

theorem sound_cleanup (hsame : Same w₀ w) (hgone : Gone w) (hpd : c.pdV1 = true)
    (h : Unserved c w.trace) (haborted : w.trace.aborted = [])
    {half : Half} {p d : String} {e : Error}
    (hsent : p ∈ w.manager.instances → d ∈ w.manager.instances → w.trace = half.sent p d) :
    Sound c w₀ (w.cleanup half p d e) := by
  have hfailed := unserved_failed h
    ⟨half, p, d, e, p ∈ w.manager.instances, d ∈ w.manager.instances⟩
  unfold World.cleanup
  dsimp only
  by_cases hp : p ∈ w.manager.instances
  · by_cases hd : d ∈ w.manager.instances
    · simp only [hp, hd, decide_true, if_true]
      refine sound_of_inv hsame ⟨hgone, hpd, ?_⟩ h.blamed
        h.recorded
      have htrace := hsent hp hd
      simp only [World.sendAbort, World.setFailure, haborted, List.nil_append, List.cons_append]
      rw [htrace]
    · simp only [hp, hd, decide_true, decide_false, if_true, Bool.false_eq_true, if_false]
      apply sound_handle
      · exact hsame
      · exact hgone
      · simpa [World.sendAbort, World.setFailure, haborted, Failure.aborts, hp, hd] using hfailed
      · intro f hf
        cases hf
        exact ⟨rfl, by simp [Failure.escaping]⟩
  · simp only [hp, decide_false, Bool.false_eq_true, if_false]
    apply sound_handle
    · exact hsame
    · exact hgone
    · simpa [World.setFailure, haborted, Failure.aborts, hp] using hfailed
    · intro f hf
      cases hf
      exact ⟨rfl, by simp [Failure.escaping]⟩

theorem aborted_before (half : Half) (p : String) : (half.before p).aborted = [] := by
  cases half <;> rfl

theorem sound_submitHalf (hsame : Same w₀ w) (hgone : Gone w) (hpd : c.pdV1 = true) {half : Half}
    {p : String} (ht : w.trace = half.before p) (d : String) :
    Sound c w₀ (w.submitHalf half p d) := by
  have hunserved := unserved_before hpd half p
  unfold World.submitHalf
  split
  · have htrace : (w.submit (World.target half p d) (.submitted half p d)).trace =
        half.sent p d := by
      simp only [World.submit, ht]
      rfl
    refine sound_of_inv hsame ⟨hgone, hpd, htrace⟩ ?_ ?_
    · rw [htrace]
      exact hunserved.blamed
    · rw [htrace]
      exact hunserved.recorded
  · rename_i hgone'
    refine sound_cleanup hsame hgone hpd (ht ▸ hunserved) ?_ fun hp hd => absurd ?_ hgone'
    · rw [ht]
      exact aborted_before half p
    · cases half with
      | prefill => exact hp
      | decode => exact hd

theorem sound_submitPd (hsame : Same w₀ w) (hgone : Gone w) (hpd : c.pdV1 = true)
    (ht : w.trace = {}) (p d : String) : Sound c w₀ (w.submitPd c p d) := by
  unfold World.submitPd
  dsimp only
  split
  · split
    · have hbefore : w.trace = Half.prefill.before p := ht
      exact sound_submitHalf hsame hgone hpd hbefore d
    · apply sound_submitSingle
      · exact hsame
      · exact hgone
      · simp [ht, hpd]
  · apply sound_handle_of_nil hsame hgone <;> simp [ht]

end Submit

section Wait
variable {w w₀ : World H}

theorem sound_of_waits (hsame : Same w₀ w) (h : Waits c w) (hinv : Inv c w) : Sound c w₀ w := by
  refine sound_of_inv hsame hinv ?_ ?_
  · rw [h.trace]
  · rw [h.trace]

theorem sound_raise_of_waits (hsame : Same w₀ w) (h : Waits c w) (e : Error) :
    Sound c w₀ (w.raise e) := by
  refine sound_raise hsame ?_ e ?_
  · rw [h.trace]
    exact unserved_of_nil rfl rfl rfl rfl
  · rw [h.trace]
    exact nofun

theorem sound_returned (hsame : Same w₀ w) (h : Waits c w) (hpd : c.pdV1 = true)
    (hwaiting : w.waiting = false) :
    Sound c w₀ { w with event := none, point := .returned } := by
  have hcancelled : w.cancelled = true := by
    rw [h.cancelled, hpd, hwaiting]
    rfl
  refine sound_of_inv hsame ⟨hwaiting, rfl, ?_⟩ ?_ ?_
  · change Returned c w.cancelled w.trace
    rw [hcancelled, h.trace]
    exact .cancelled
  · change w.trace.blamed = none
    rw [h.trace]
  · change w.trace.recorded = false
    rw [h.trace]

theorem sound_selected (hsame : Same w₀ w) (h : Waits c w)
    (hpd : c.pdV1 = true) (p d : String) : Sound c w₀ (w.selected c p d) := by
  unfold World.selected
  split
  · rename_i hwaiting
    have hcancelled : w.cancelled = false := by
      rw [h.cancelled, hwaiting]
      simp
    apply sound_submitPd
    · exact hsame
    · exact ⟨rfl, rfl, hcancelled⟩
    · exact hpd
    · exact h.trace
  · rename_i hwaiting
    exact sound_returned hsame h hpd (by simpa using hwaiting)

theorem instances_selectV1PdInstances (m : Manager H) (blockHashes : List String)
    (drawn drawn' : ℕ) :
    (m.selectV1PdInstances c.round blockHashes drawn drawn').2.instances = m.instances := by
  rcases selectV1PdInstances_samePool m c.round blockHashes drawn drawn' with heq | ⟨d, -, heq⟩
  · rw [heq]
  · rw [heq]

theorem sound_choose (hsame : Same w₀ w) (h : Waits c w) (x : Input)
    (blockHashes : List String) : Sound c w₀ (w.choose c x blockHashes) := by
  unfold World.choose
  by_cases hpd : c.pdV1 = true
  · rw [if_pos hpd]
    have hkept := instances_selectV1PdInstances (c := c) w.manager blockHashes x.drawn x.drawn'
    split
    · rename_i e m heq
      rw [heq] at hkept
      apply sound_raise_of_waits
      · exact ⟨hkept.trans hsame.1, hsame.2⟩
      · exact h
    · rename_i m heq
      rw [heq] at hkept
      apply sound_of_waits
      · exact ⟨hkept.trans hsame.1, hsame.2⟩
      · exact h
      · exact ⟨h, hpd⟩
    · rename_i p d m heq
      rw [heq] at hkept
      apply sound_selected
      · exact ⟨hkept.trans hsame.1, hsame.2⟩
      · exact h
      · exact hpd
  · have hplain : c.pdV1 = false := by simpa using hpd
    rw [if_neg hpd]
    split
    · apply sound_raise_of_waits
      · exact hsame
      · exact h
    · rename_i i _ g heq
      have hgone : Gone w := by
        refine ⟨h.plain hplain, ?_, ?_⟩
        · rw [h.event, hplain]
          rfl
        · rw [h.cancelled, hplain]
          rfl
      apply sound_submitSingle
      · exact hsame
      · exact hgone
      · simp [h.trace, hplain]

theorem sound_probe (hsame : Same w₀ w) (h : Waits c w) (x : Input)
    (left size : ℕ) (more : Bool) : Sound c w₀ (w.probe c x left size more) := by
  unfold World.probe
  split
  · split
    · exact sound_choose hsame h x []
    · exact sound_raise_of_waits hsame h .other
    · exact sound_of_waits hsame h h
  · exact sound_raise_of_waits hsame h .other

theorem sound_findHashes (hsame : Same w₀ w) (h : Waits c w) (x : Input) :
    Sound c w₀ (w.findHashes c x) := by
  unfold World.findHashes
  split
  · exact sound_choose hsame h x _
  · split
    · exact sound_probe hsame h x _ _ _
    · exact sound_choose hsame h x []

theorem sound_waitInstances (hsame : Same w₀ w) (h : Waits c w)
    (x : Input) : Sound c w₀ (w.waitInstances c x) := by
  unfold World.waitInstances
  split
  · split
    · rename_i hcancel
      exact sound_returned hsame h hcancel.1 (by simpa using hcancel.2)
    · exact sound_of_waits hsame h h
  · exact sound_findHashes hsame h x

theorem sound_enter (hsame : Same w₀ w) (ht : w.trace = {}) (hgone : Gone w)
    (x : Input) : Sound c w₀ (w.enter c x) := by
  unfold World.enter
  split
  · rename_i hpd
    apply sound_waitInstances
    · exact hsame
    · exact ⟨ht, by simp [hpd, hgone.event], by simpa using hgone.cancelled, by simp [hpd]⟩
  · rename_i hpd
    apply sound_waitInstances
    · exact hsame
    · exact ⟨ht, by simp [hpd, hgone.event], by simp [hpd, hgone.cancelled],
        fun _ => hgone.waiting⟩

theorem sound_probed (hsame : Same w₀ w) (h : Waits c w) (x : Input)
    (left size : ℕ) : Sound c w₀ (w.probed c x left size) := by
  unfold World.probed
  split
  · exact sound_choose hsame h x _
  · exact sound_probe hsame h x left size x.more
  · split
    · exact sound_probe hsame h x left size x.more
    · exact sound_raise_of_waits hsame h _

theorem sound_rolesWaited (hsame : Same w₀ w) (h : Waits c w)
    (hpd : c.pdV1 = true) (x : Input) (blockHashes : List String) :
    Sound c w₀ (w.rolesWaited c x blockHashes) := by
  unfold World.rolesWaited
  split
  · rename_i hset
    have hwaiting : w.waiting = false := by
      rw [h.event, hpd] at hset
      simpa using hset
    rw [← hwaiting]
    exact sound_returned hsame h hpd hwaiting
  · split
    · exact sound_choose hsame h x blockHashes
    · rename_i hwaiting
      exact sound_returned hsame h hpd (by simpa using hwaiting)

end Wait

section Answer
variable {w w₀ : World H}

theorem sound_record (hsame : Same w₀ w) (hgone : Gone w) {a : Routing.Action}
    (ht : Returned c false { w.trace with recorded := true })
    (hblamed : w.trace.blamed = none)
    (hentry : (w.tables.apply a).requestInstance c.requestId ≠ none) :
    Sound c w₀ (w.record c a) where
  inv := by
    refine ⟨hgone.waiting, hgone.event, ?_⟩
    change Returned c w.cancelled _
    rw [hgone.cancelled]
    exact ht
  cancelled := hsame.2
  blamed := by
    intro i b hb
    rw [show w.trace.blamed = some (i, b) from hb] at hblamed
    cases hblamed
  entry := fun _ => hentry

theorem sound_singleAnswered (hsame : Same w₀ w) (hgone : Gone w) {i : String}
    (ht : w.trace = { submitted := [i], fellBack := c.pdV1 }) (x : Input) :
    Sound c w₀ (w.singleAnswered c x i) := by
  unfold World.singleAnswered
  split
  · apply sound_record
    · exact hsame
    · exact hgone
    · simp only [World.accept, ht]
      exact .single i
    · simp [World.accept, ht]
    · simp [Routing.Tables.apply, Routing.Tables.set, World.accept]
  · apply sound_handle_of_nil hsame hgone <;> simp [ht]

theorem unserved_sent (hpd : c.pdV1 = true) (half : Half) (p d : String) :
    Unserved c (half.sent p d) := by
  have hbefore := unserved_before hpd half p
  exact ⟨hbefore.recorded, hbefore.blamed, hbefore.short, hbefore.failed⟩

theorem sound_halfAnswered (hsame : Same w₀ w) (hgone : Gone w)
    (hpd : c.pdV1 = true) {half : Half} {p d : String} (ht : w.trace = half.sent p d) (x : Input) :
    Sound c w₀ (w.halfAnswered c x half p d) := by
  unfold World.halfAnswered
  split
  · apply sound_submitHalf
    · exact hsame
    · exact hgone
    · exact hpd
    · simp only [World.accept, ht]
      rfl
  · apply sound_record
    · exact hsame
    · exact hgone
    · simp only [World.accept, ht]
      exact .pd p d hpd
    · simp only [World.accept, ht]
      rfl
    · simp [Routing.Tables.apply, Routing.Tables.set, World.accept]
  · refine sound_cleanup hsame hgone hpd (ht ▸ unserved_sent hpd _ p d) ?_ fun _ _ => ht
    rw [ht]
    exact aborted_before _ p

end Answer

section Step
variable {w w' : World H}

theorem sound_cleanedUp (hgone : Gone w) (hpd : c.pdV1 = true) {half : Half} {p d : String}
    {e : Error} (ht : w.trace =
      { half.sent p d with aborted := [p, d], failure := some ⟨half, p, d, e, true, true⟩ }) :
    Sound c w (w.handle p e) := by
  refine sound_handle ⟨rfl, rfl⟩ hgone ?_ ?_
  · rw [ht]
    exact unserved_failed (unserved_sent hpd half p d) ⟨half, p, d, e, true, true⟩
  · rw [ht]
    intro f hf
    cases hf
    exact ⟨rfl, rfl⟩

theorem sound_resume (h : Inv c w) {x : Input} (hstep : w.resume c x = some w') :
    Sound c w w' := by
  unfold World.resume at hstep
  unfold Inv at h
  cases hpoint : w.point with
  | start =>
    simp only [hpoint] at h hstep
    cases hstep
    exact sound_enter ⟨rfl, rfl⟩ h.1 h.2 x
  | noInstance =>
    simp only [hpoint] at h hstep
    cases hstep
    exact sound_waitInstances ⟨rfl, rfl⟩ h x
  | probing left size =>
    simp only [hpoint] at h hstep
    cases hstep
    exact sound_probed ⟨rfl, rfl⟩ h x left size
  | roles blockHashes =>
    simp only [hpoint] at h hstep
    cases hstep
    exact sound_rolesWaited ⟨rfl, rfl⟩ h.1 h.2 x blockHashes
  | single i =>
    simp only [hpoint] at h hstep
    cases hstep
    exact sound_singleAnswered ⟨rfl, rfl⟩ h.1 h.2 x
  | submitted half p d =>
    simp only [hpoint] at h hstep
    cases hstep
    exact sound_halfAnswered ⟨rfl, rfl⟩ h.1 h.2.1 h.2.2 x
  | cleanup half p d e =>
    simp only [hpoint] at h hstep
    cases hstep
    exact sound_cleanedUp h.1 h.2.1 h.2.2
  | returned =>
    simp only [hpoint] at hstep
    cases hstep
  | raised e =>
    simp only [hpoint] at hstep
    cases hstep

theorem waits_abort (h : Waits c w) : Waits c w.abort := by
  refine ⟨h.trace, ?_, ?_, fun _ => rfl⟩
  · change w.event.map (fun _ => true) = _
    rw [h.event]
    split <;> rfl
  · change (w.cancelled || w.waiting) = _
    rw [h.cancelled]
    cases hpd : c.pdV1 with
    | false => simpa using h.plain hpd
    | true => simp [World.abort]

theorem gone_abort (h : Gone w) : Gone w.abort := by
  refine ⟨rfl, ?_, ?_⟩
  · change w.event.map (fun _ => true) = none
    rw [h.event]
    rfl
  · change (w.cancelled || w.waiting) = false
    rw [h.cancelled, h.waiting]
    rfl

theorem inv_abort (h : Inv c w) : Inv c w.abort := by
  have hpoint : w.abort.point = w.point := rfl
  unfold Inv at h ⊢
  rw [hpoint]
  split at h
  · exact ⟨h.1, gone_abort h.2⟩
  · exact waits_abort h
  · exact waits_abort h
  · exact ⟨waits_abort h.1, h.2⟩
  · exact ⟨gone_abort h.1, h.2⟩
  · exact ⟨gone_abort h.1, h.2⟩
  · exact ⟨gone_abort h.1, h.2⟩
  · obtain ⟨hwaiting, hevent, hreturned⟩ := h
    refine ⟨rfl, ?_, ?_⟩
    · change w.event.map (fun _ => true) = none
      rw [hevent]
      rfl
    · change Returned c (w.cancelled || w.waiting) w.trace
      rw [hwaiting, Bool.or_false]
      exact hreturned
  · exact h

theorem inv_step (h : Inv c w) {a : Action H} (hstep : step c w a = some w') : Inv c w' := by
  cases a with
  | resume x => exact (sound_resume h hstep).inv
  | scheduler a =>
    cases hstep
    exact h
  | routing a =>
    cases hstep
    exact h
  | abort =>
    cases hstep
    exact inv_abort h

theorem cancelled_of_not_abort (h : Inv c w) {a : Action H} (ha : a ≠ .abort)
    (hstep : step c w a = some w') : w'.cancelled = w.cancelled := by
  cases a with
  | resume x => exact (sound_resume h hstep).cancelled
  | scheduler a =>
    cases hstep
    rfl
  | routing a =>
    cases hstep
    rfl
  | abort => exact absurd rfl ha

theorem inv_init (m : Manager H) (tables : Routing.Tables) (serverInfo : Finset String) :
    Inv c (init m tables serverInfo) :=
  ⟨rfl, rfl, rfl, rfl⟩

end Step

end Llumnix.Generate
