import Llumnix.Client.Blade

/-! When the translation of ids in the client of BladeLLM stays sound. -/
namespace Llumnix.Client.Blade

open Machine Python

/-! ### The tables of live requests -/

namespace Translation
variable {β : Type} {t : Translation β} {id : ℤ} {llumnixId : ℕ} {requestId : RequestId}

/-- The translation is sound: the two maps are inverse, every drop of a live request was passed on
under the id of that request, and outputs are still processed. -/
structure Sound (t : Translation β) : Prop where
  inverse : Dict.Inverse (fun n : ℕ => str n) t.entrypointId2llumnixId t.llumnixId2entrypointId
  asked : ∀ d ∈ t.drops, ∀ n : ℕ, d.submitted = some n → d.asked = some (str n)
  running : t.raised = false

/-- The first map is that of the live requests, and their streams are open. -/
structure Intact (t : Translation β) : Prop where
  inverse : Dict.Inverse (fun n : ℕ => str n) t.entrypointId2llumnixId t.llumnixId2entrypointId
  live : ∀ id n, (id, n) ∈ t.live ↔ t.entrypointId2llumnixId.get? id = some n
  added : ∀ r ∈ t.live, r.1 ∈ t.added
  streams : ∀ r ∈ t.live, str r.2 ∈ t.requestStreams
  running : t.raised = false

/-- No stream of the id is left over from a request that is gone. -/
def Clear (t : Translation β) (requestId : RequestId) : Prop :=
  requestId ∈ t.requestStreams → ∃ r ∈ t.live, str r.2 = requestId

namespace Intact

theorem unique (h : t.Intact) {r r' : ℤ × ℕ} (hr : r ∈ t.live) (hr' : r' ∈ t.live)
    (heq : r.2 = r'.2) : r = r' := by
  have hid := h.inverse.forth r.1 r.2 ((h.live r.1 r.2).mp hr)
  have hid' := h.inverse.forth r'.1 r'.2 ((h.live r'.1 r'.2).mp hr')
  rw [heq, hid'] at hid
  exact Prod.ext (Option.some.inj hid).symm heq

theorem live_of_mem (h : t.Intact) (hmem : id ∈ t.entrypointId2llumnixId) :
    ∃ r ∈ t.live, r.1 = id := by
  obtain ⟨n, hn⟩ := Dict.item_of_mem hmem
  exact ⟨(id, n), (h.live id n).mpr (Dict.get?_eq_some.mpr hn), rfl⟩

theorem live_of_translated (h : t.Intact) (hmem : requestId ∈ t.llumnixId2entrypointId) :
    ∃ r ∈ t.live, str r.2 = requestId := by
  obtain ⟨id, hid⟩ := Dict.item_of_mem hmem
  obtain ⟨n, hn, hname⟩ := h.inverse.back requestId id (Dict.get?_eq_some.mpr hid)
  exact ⟨(id, n), (h.live id n).mpr hn, hname⟩

theorem add (h : t.Intact) (hfresh : t.Fresh id llumnixId) :
    ((t.add id llumnixId).register (str llumnixId)).Intact := by
  have hid : id ∉ t.entrypointId2llumnixId := by
    intro hmem
    obtain ⟨r, hr, rfl⟩ := h.live_of_mem hmem
    exact hfresh.1 (h.added r hr)
  have hllumnix : str llumnixId ∉ t.llumnixId2entrypointId := by
    intro hmem
    obtain ⟨r, hr, hname⟩ := h.live_of_translated hmem
    have hn : r.2 = llumnixId := by exact_mod_cast str_inj hname
    exact hfresh.2 r hr hn
  exact
    { inverse := h.inverse.set hid hllumnix
      live := fun e n => by
        change (e, n) ∈ (id, llumnixId) :: t.live ↔ _
        rw [List.mem_cons, Prod.mk.injEq, h.live]
        exact (Dict.get?_set_eq_some hid).symm
      added := fun r hr => by
        rcases List.mem_cons.mp hr with rfl | hr
        · exact List.mem_cons_self
        · exact List.mem_cons_of_mem id (h.added r hr)
      streams := fun r hr => by
        rcases List.mem_cons.mp hr with rfl | hr
        · exact Dict.mem_set.mpr (.inl rfl)
        · exact Dict.mem_set.mpr (.inr (h.streams r hr))
      running := h.running }

theorem register (h : t.Intact) (requestId : RequestId) : (t.register requestId).Intact where
  inverse := h.inverse
  live := h.live
  added := h.added
  streams r hr := Dict.mem_set.mpr (.inr (h.streams r hr))
  running := h.running

theorem forget_eq (h : t.Intact) (hgone : ∀ r ∈ t.live, r.1 ≠ id) : t.forget id = t := by
  have hid : id ∉ t.entrypointId2llumnixId := by
    intro hmem
    obtain ⟨r, hr, hid⟩ := h.live_of_mem hmem
    exact hgone r hr hid
  have hlive : t.live.filter (·.1 ≠ id) = t.live :=
    List.filter_eq_self.mpr fun r hr => decide_eq_true (hgone r hr)
  unfold forget
  rw [Dict.erase_of_not_mem hid, hlive]

theorem gone_of_sound (h : t.Intact) {j : ℕ} {point : DropPoint}
    (hs : ((t.forget id).dropTo j point).Sound) : ∀ r ∈ t.live, r.1 ≠ id := by
  rintro r hr rfl
  exact h.inverse.not_erase ((h.live r.1 r.2).mp hr) hs.inverse

/-! ### Outputs -/

theorem put (h : t.Intact) (stream : ℕ) (response : GenerateStreamResponse β) :
    (t.put stream response).Intact where
  inverse := h.inverse
  live := h.live
  added := h.added
  streams := h.streams
  running := h.running

theorem finish_eq (h : t.Intact) {r : ℤ × ℕ} (hr : r ∈ t.live) :
    t.finish (str r.2) =
      { t with
        entrypointId2llumnixId := t.entrypointId2llumnixId.erase r.1
        llumnixId2entrypointId := t.llumnixId2entrypointId.erase (str r.2)
        requestStreams := t.requestStreams.erase (str r.2)
        live := t.live.filter fun r' => str r'.2 ≠ str r.2 } := by
  have hid := (h.live r.1 r.2).mp hr
  have hback := h.inverse.forth r.1 r.2 hid
  unfold finish
  rw [hback]
  exact if_pos (Dict.mem_of_get? hid)

theorem finish (h : t.Intact) {r : ℤ × ℕ} (hr : r ∈ t.live) : (t.finish (str r.2)).Intact := by
  have hid := (h.live r.1 r.2).mp hr
  have hmem : ∀ r', r' ∈ t.live.filter (fun r' => str r'.2 ≠ str r.2) ↔
      r' ∈ t.live ∧ str r'.2 ≠ str r.2 := fun r' => by
    rw [List.mem_filter, decide_eq_true_iff]
  rw [h.finish_eq hr]
  exact
    { inverse := h.inverse.erase hid
      live := fun id n => by
        rw [hmem, h.live, Dict.get?_erase_eq_some, and_comm]
        refine and_congr_left fun hn => not_congr ⟨fun hname => ?_, ?_⟩
        · have heq : n = r.2 := by exact_mod_cast str_inj hname
          exact congrArg Prod.fst (h.unique ((h.live id n).mpr hn) hr heq)
        · rintro rfl
          cases hn.symm.trans hid
          rfl
      added := fun r' hr' => h.added r' ((hmem r').mp hr').1
      streams := fun r' hr' => by
        obtain ⟨hr', hne⟩ := (hmem r').mp hr'
        exact Dict.mem_erase.mpr ⟨hne, h.streams r' hr'⟩
      running := h.running }

theorem clear_finish (h : t.Intact) {r : ℤ × ℕ} (hr : r ∈ t.live) (requestId : RequestId) :
    (t.finish (str r.2)).Clear requestId ↔ t.Clear requestId := by
  unfold Clear
  rw [h.finish_eq hr]
  by_cases heq : requestId = str r.2
  · subst heq
    exact iff_of_true (fun hmem => absurd rfl (Dict.mem_erase.mp hmem).1) fun _ => ⟨r, hr, rfl⟩
  · refine imp_congr (by simp [heq]) (exists_congr fun r' => ?_)
    rw [List.mem_filter, decide_eq_true_iff, and_assoc, and_congr_right_iff]
    refine fun _ => ⟨And.right, ?_⟩
    rintro rfl
    exact ⟨heq, rfl⟩

theorem raised_finish (h : t.Intact) (hgone : ¬∃ r ∈ t.live, str r.2 = requestId) :
    (t.finish requestId).raised = true := by
  have hnone : t.llumnixId2entrypointId.get? requestId = none :=
    Dict.get?_eq_none.mpr fun hmem => hgone (h.live_of_translated hmem)
  unfold Translation.finish
  rw [hnone]

theorem deliver (h : t.Intact) {response : GenerateStreamResponse β}
    (hclear : response.isFinished = true → t.Clear requestId) :
    (t.deliver requestId response).Intact ∧
      ∀ requestId', (t.deliver requestId response).Clear requestId' ↔ t.Clear requestId' := by
  unfold Translation.deliver
  cases hstream : t.requestStreams.get? requestId with
  | none => exact ⟨h, fun _ => Iff.rfl⟩
  | some stream =>
    have hput := h.put stream response
    dsimp only
    split
    · rename_i hfinished
      obtain ⟨r, hr, rfl⟩ := hclear hfinished (Dict.mem_of_get? hstream)
      exact ⟨hput.finish hr, hput.clear_finish hr⟩
    · exact ⟨hput, fun _ => Iff.rfl⟩

theorem raised_deliver (h : t.Intact) {response : GenerateStreamResponse β}
    (hfinished : response.isFinished = true) (hclear : ¬t.Clear requestId) :
    (t.deliver requestId response).raised = true := by
  obtain ⟨hmem, hgone⟩ := Classical.not_imp.mp hclear
  unfold Translation.deliver
  cases hstream : t.requestStreams.get? requestId with
  | none => exact absurd hmem (Dict.get?_eq_none.mp hstream)
  | some stream =>
    dsimp only
    rw [if_pos hfinished]
    exact (h.put stream response).raised_finish hgone

end Intact

theorem drops_finish (t : Translation β) (requestId : RequestId) :
    (t.finish requestId).drops = t.drops := by
  unfold finish
  split
  · rfl
  · split <;> rfl

theorem drops_deliver (t : Translation β) (requestId : RequestId)
    (response : GenerateStreamResponse β) : (t.deliver requestId response).drops = t.drops := by
  unfold deliver
  split
  · rfl
  · split
    · exact drops_finish _ requestId
    · rfl

variable {outputs : List (RequestId × GenerateStreamResponse β)}

theorem drops_processOutputs (t : Translation β) :
    (t.processOutputs outputs).drops = t.drops := by
  induction outputs generalizing t with
  | nil => rfl
  | cons o outputs ih =>
    unfold processOutputs
    dsimp only
    split
    · exact drops_deliver t o.1 o.2
    · rw [ih, drops_deliver]

theorem Intact.processOutputs (h : t.Intact)
    (hrunning : (t.processOutputs outputs).raised = false) : (t.processOutputs outputs).Intact := by
  induction outputs generalizing t with
  | nil => exact h
  | cons o outputs ih =>
    unfold Translation.processOutputs at hrunning ⊢
    dsimp only at hrunning ⊢
    split at hrunning
    · rename_i hraised
      rw [hraised] at hrunning
      cases hrunning
    · rename_i hraised
      rw [if_neg hraised]
      refine ih (h.deliver fun hfinished => ?_).1 hrunning
      by_contra hclear
      exact hraised (h.raised_deliver hfinished hclear)

/-- A batch is processed without an exception if and only if none of its finished outputs is for a
stream that was left over. -/
theorem Intact.running_iff (h : t.Intact) :
    (t.processOutputs outputs).raised = false ↔
      ∀ o ∈ outputs, o.2.isFinished = true → t.Clear o.1 := by
  induction outputs generalizing t with
  | nil => exact iff_of_true h.running nofun
  | cons o outputs ih =>
    rw [List.forall_mem_cons]
    unfold Translation.processOutputs
    dsimp only
    by_cases hclear : o.2.isFinished = true → t.Clear o.1
    · obtain ⟨hintact, hsame⟩ := h.deliver hclear
      rw [if_neg (by simp [hintact.running]), ih hintact, and_iff_right hclear]
      simp only [hsame]
    · obtain ⟨hfinished, hgone⟩ := Classical.not_imp.mp hclear
      have hraised := h.raised_deliver hfinished hgone
      rw [if_pos hraised]
      exact iff_of_false (by simp [hraised]) fun hall => hclear hall.1

end Translation

/-! ### Steps -/

namespace Translation
variable {β : Type} {t t' : Translation β} {a : Action β} {reqId : ℤ}

/-- What a step does to the tables, with what it finds there. -/
inductive Turn (t : Translation β) : Action β → Translation β → Prop
  | refused {request : ServerRequest} {llumnixId : Fin (2 ^ 31)} :
      Turn t (.addRequest request llumnixId) t
  | added {request : ServerRequest} {llumnixId : Fin (2 ^ 31)}
      (hfresh : t.Fresh request.id llumnixId) :
      Turn t (.addRequest request llumnixId)
        ((t.add request.id llumnixId).register (str llumnixId))
  | managerAnswers {k : ℕ} {answer : Answer} : Turn t (.managerAnswers k answer) t
  | instanceAnswers {k : ℕ} {answer : Answer} : Turn t (.instanceAnswers k answer) t
  | restart {k : ℕ} (requestId : RequestId) : Turn t (.restart k) (t.register requestId)
  | outputs (batch : Option (List (RequestId × GenerateStreamResponse β))) :
      Turn t (.outputs batch) (t.processOutputs (batch.getD []))
  | dropped (reqId : ℤ) : Turn t (.dropRequest reqId) (t.drop reqId)
  | aborted {j : ℕ} {d : Drop} (hd : t.drops[j]? = some d) (hpoint : d.point = .manager) :
      Turn t (.abortAnswered j .ok) ((t.forget d.reqId).dropTo j .done)
  | abortFails {j : ℕ} {answer : Answer} {point : DropPoint} (hanswer : answer ≠ .ok) :
      Turn t (.abortAnswered j answer) (t.dropTo j point)

/-- A drop is of a request whose two ids are one number other than zero, the Manager has not aborted
it before it is finished, and no finished output is for a stream that was left over. -/
def Kept (t : Translation β) : Action β → Prop
  | .dropRequest reqId => ∀ n : ℕ, (reqId, n) ∈ t.live → n = reqId ∧ n ≠ 0
  | .abortAnswered j .ok =>
    ∀ d, t.drops[j]? = some d → d.point = .manager → ∀ r ∈ t.live, r.1 ≠ d.reqId
  | .outputs batch => ∀ o ∈ batch.getD [], o.2.isFinished = true → t.Clear o.1
  | _ => True

theorem Intact.lookup_live (h : t.Intact) (id : ℤ) :
    t.live.lookup id = t.entrypointId2llumnixId.get? id := by
  cases hlookup : t.live.lookup id with
  | none =>
    cases hid : t.entrypointId2llumnixId.get? id with
    | none => rfl
    | some n =>
      have hne := List.lookup_eq_none_iff.mp hlookup _ ((h.live id n).mpr hid)
      simp at hne
  | some n =>
    obtain ⟨xs, ys, heq, -⟩ := List.lookup_eq_some_iff.mp hlookup
    have hmem : (id, n) ∈ t.live := heq ▸ List.mem_append_right xs List.mem_cons_self
    exact ((h.live id n).mp hmem).symm

theorem asked_dropTo {j : ℕ} {point : DropPoint}
    (h : ∀ d ∈ t.drops, ∀ n : ℕ, d.submitted = some n → d.asked = some (str n)) :
    ∀ d ∈ (t.dropTo j point).drops, ∀ n : ℕ, d.submitted = some n → d.asked = some (str n) := by
  intro d hd
  obtain ⟨i, hi⟩ := List.mem_iff_getElem?.mp hd
  rw [dropTo, List.getElem?_modify] at hi
  obtain ⟨d₀, hd₀, rfl⟩ := Option.map_eq_some_iff.mp hi
  have hasked := h d₀ (List.mem_of_getElem? hd₀)
  split <;> exact hasked

theorem asked_start_iff (reqId : ℤ) (submitted llumnixId : Option ℕ) :
    (∀ n : ℕ, llumnixId = some n → (Drop.start reqId submitted llumnixId).asked = some (str n)) ↔
      ∀ n : ℕ, llumnixId = some n → n = reqId ∧ n ≠ 0 := by
  cases llumnixId with
  | none => exact iff_of_true nofun nofun
  | some m =>
    cases m with
    | zero => exact iff_of_false (fun h => nomatch h 0 rfl) fun h => (h 0 rfl).2 rfl
    | succ m =>
      refine forall₂_congr fun n hn => ?_
      cases hn
      constructor
      · intro hstr
        exact ⟨(str_inj (Option.some.inj hstr)).symm, Nat.succ_ne_zero m⟩
      · rintro ⟨rfl, -⟩
        rfl

theorem sound_drop_iff (h : t.Intact) (hs : t.Sound) (reqId : ℤ) :
    (t.drop reqId).Sound ↔ ∀ n : ℕ, (reqId, n) ∈ t.live → n = reqId ∧ n ≠ 0 := by
  simp only [h.live]
  rw [← asked_start_iff reqId (t.live.lookup reqId)]
  have hsubmitted : ∀ llumnixId : Option ℕ,
      (Drop.start reqId (t.live.lookup reqId) llumnixId).submitted =
        t.entrypointId2llumnixId.get? reqId := by
    intro llumnixId
    rw [← h.lookup_live]
    unfold Drop.start
    split <;> rfl
  constructor
  · intro hs' n hn
    exact hs'.asked _ (List.mem_append_right _ List.mem_cons_self) n ((hsubmitted _).trans hn)
  · intro hasked
    refine ⟨hs.inverse, fun d hd n hn => ?_, hs.running⟩
    rcases List.mem_append.mp hd with hd | hd
    · exact hs.asked d hd n hn
    · cases List.mem_singleton.mp hd
      exact hasked n ((hsubmitted _).symm.trans hn)

theorem sound_of_turn_iff (h : t.Intact) (hs : t.Sound) (hturn : Turn t a t') :
    t'.Sound ↔ t.Kept a := by
  cases hturn with
  | refused => exact iff_of_true hs trivial
  | added hfresh => exact iff_of_true ⟨(h.add hfresh).inverse, hs.asked, hs.running⟩ trivial
  | managerAnswers => exact iff_of_true hs trivial
  | instanceAnswers => exact iff_of_true hs trivial
  | restart requestId => exact iff_of_true ⟨hs.inverse, hs.asked, hs.running⟩ trivial
  | outputs batch =>
    refine Iff.trans ⟨Sound.running, fun hrunning => ?_⟩ h.running_iff
    refine ⟨(h.processOutputs hrunning).inverse, ?_, hrunning⟩
    rw [drops_processOutputs]
    exact hs.asked
  | dropped reqId => exact sound_drop_iff h hs reqId
  | aborted hd hpoint =>
    rename_i j d
    constructor
    · intro hs' d' hd' _
      cases hd.symm.trans hd'
      exact h.gone_of_sound hs'
    · intro hkept
      rw [h.forget_eq (hkept d hd hpoint)]
      exact ⟨hs.inverse, asked_dropTo hs.asked, hs.running⟩
  | abortFails hanswer =>
    refine iff_of_true ⟨hs.inverse, asked_dropTo hs.asked, hs.running⟩ ?_
    rename_i answer _
    cases answer with
    | ok => exact absurd rfl hanswer
    | actorError => trivial
    | keyError => trivial
    | raises => trivial

theorem intact_of_turn (h : t.Intact) (hs' : t'.Sound) (hturn : Turn t a t') : t'.Intact := by
  have hdropTo : ∀ {u : Translation β} {j : ℕ} {point : DropPoint}, u.Intact →
      (u.dropTo j point).Intact :=
    fun hu => ⟨hu.inverse, hu.live, hu.added, hu.streams, hu.running⟩
  cases hturn with
  | refused => exact h
  | added hfresh => exact h.add hfresh
  | managerAnswers => exact h
  | instanceAnswers => exact h
  | restart requestId => exact h.register requestId
  | outputs batch => exact h.processOutputs hs'.running
  | dropped reqId => exact ⟨h.inverse, h.live, h.added, h.streams, h.running⟩
  | aborted hd hpoint =>
    rw [h.forget_eq (h.gone_of_sound hs')]
    exact hdropTo h
  | abortFails hanswer => exact hdropTo h

end Translation

namespace LlumnixClientBladeLLM
variable {H β : Type} {s s' : LlumnixClientBladeLLM H β} {a : Action β}

theorem tables_managerFails (s : LlumnixClientBladeLLM H β) (k : ℕ) :
    (s.managerFails k).tables = s.tables := by
  unfold managerFails
  split
  · rfl
  · rfl
  · split
    · rfl
    · split <;> rfl

theorem tables_instanceFails (s : LlumnixClientBladeLLM H β) (k : ℕ) (instanceId : String) :
    (s.instanceFails k instanceId).tables = s.tables := by
  unfold instanceFails
  split
  · dsimp only
    split
    · rfl
    · split <;> rfl
  · rfl

theorem turn_of_step (h : s.step a = some s') : s.tables.Turn a s'.tables := by
  cases a with
  | addRequest request llumnixId =>
    simp only [step] at h
    split at h
    · rename_i hfresh
      split at h <;> cases h
      · exact .refused
      · exact .added hfresh
    · cases h
  | managerAnswers k answer =>
    simp only [step] at h
    split at h
    · split at h <;> cases h
      · exact .managerAnswers
      · exact tables_managerFails s k ▸ .managerAnswers
    · cases h
  | instanceAnswers k answer =>
    simp only [step] at h
    split at h
    · split at h <;> cases h
      · exact .instanceAnswers
      · exact .instanceAnswers
      · exact tables_instanceFails s k _ ▸ .instanceAnswers
    · cases h
  | restart k =>
    simp only [step] at h
    split at h <;> cases h
    exact .restart _
  | outputs batch =>
    simp only [step] at h
    split at h <;> cases h
    exact .outputs batch
  | dropRequest reqId =>
    cases h
    exact .dropped reqId
  | abortAnswered j answer =>
    simp only [step] at h
    split at h
    · rename_i hd
      cases answer <;> cases h
      · exact .aborted hd rfl
      · exact .abortFails nofun
      · exact .abortFails nofun
      · exact .abortFails nofun
    · cases h

theorem kept_of_step_eq_none (hrunning : s.tables.raised = false) (h : s.step a = none) :
    s.tables.Kept a := by
  cases a with
  | addRequest request llumnixId => trivial
  | managerAnswers k answer => trivial
  | instanceAnswers k answer => trivial
  | restart k => trivial
  | outputs batch =>
    simp only [step, hrunning] at h
    cases h
  | dropRequest reqId => cases h
  | abortAnswered j answer =>
    cases answer with
    | ok =>
      intro d hd hpoint
      obtain ⟨reqId, submitted, asked, point⟩ := d
      cases hpoint
      simp only [step, hd] at h
      cases h
    | actorError => trivial
    | keyError => trivial
    | raises => trivial

theorem sound_step_iff (h : s.tables.Intact) (hs : s.tables.Sound) :
    (∀ s', s.step a = some s' → s'.tables.Sound) ↔ s.tables.Kept a := by
  cases hstep : s.step a with
  | none => exact iff_of_true nofun (kept_of_step_eq_none hs.running hstep)
  | some s' =>
    rw [← Translation.sound_of_turn_iff h hs (turn_of_step hstep)]
    constructor
    · intro hall
      exact hall s' rfl
    · rintro hs' _ ⟨⟩
      exact hs'

/-- The translation of ids stays sound if and only if every drop of a live request is of one whose
two ids are the same number other than zero, none of these drops is completed while the request is
live, and no finished output is for a stream that a retry opened after the request was finished. -/
theorem always_sound_iff (context : Context H) (as : List (Action β)) :
    Always step (fun s => s.tables.Sound) { context } as ↔
      Meets step (fun s a => s.tables.Kept a) { context } as := by
  refine always_iff_meets (I := fun s => s.tables.Intact)
    (fun s a s' h _ hstep hs' => Translation.intact_of_turn h hs' (turn_of_step hstep))
    (fun s a h hs => sound_step_iff h hs) ?_ ?_
  · exact ⟨Dict.inverse_empty, fun _ _ => ⟨nofun, nofun⟩, nofun, nofun, rfl⟩
  · exact ⟨Dict.inverse_empty, nofun, rfl⟩

/-- A request with the id 1 is submitted under 5 and dropped, and then its last output comes. -/
def dropped : List (Action Unit) :=
  [.addRequest ⟨1, 1, false⟩ ⟨5, by decide⟩, .managerAnswers 0 .ok, .dropRequest 1,
    .abortAnswered 0 .ok]

/-- The Manager is asked to abort 1 in place of 5, the maps do not match any more, and the loop over
the outputs ends. A request under the id 0 is not aborted at all. -/
theorem drop_breaks :
    (∃ s, run step { context := ({ instances := .empty } : Context Unit) } dropped = some s ∧
      s.tables.drops = [⟨1, some 5, some (str 1), .done⟩] ∧
      s.tables.entrypointId2llumnixId.get? 1 = none ∧
      s.tables.llumnixId2entrypointId.get? (str 5) = some 1 ∧ s.tables.raised = false ∧
      ∃ s', s.step (.outputs (some [(str 5, ⟨true, ()⟩)])) = some s' ∧ s'.tables.raised = true) ∧
    ∃ s, run step { context := ({ instances := .empty } : Context Unit) }
        [.addRequest ⟨1, 1, false⟩ ⟨0, by decide⟩, .dropRequest (β := Unit) 1] = some s ∧
      s.tables.drops = [⟨1, some 0, none, .done⟩] := by
  refine ⟨⟨_, rfl, by decide, by decide, by decide, by decide, _, rfl, by decide⟩, _, rfl, ?_⟩
  decide

end LlumnixClientBladeLLM
end Llumnix.Client.Blade
