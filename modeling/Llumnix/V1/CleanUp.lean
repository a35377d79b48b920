import Llumnix.Coroutine.Replay
import Llumnix.V1.Server

/-! What the handlers of the V1 HTTP server leave behind of a request. -/
namespace Llumnix.V1.Server

open Coroutine Python Llumnix.Transfer

variable {I T : Type}

/-- No table has an entry of the request, and a generator that has not finished is aborted. -/
structure Clean (args : AdapterArgs) (requestId : Text) (w : World I T) : Prop where
  requests : requestId ∉ w.adapter.requests
  aliases : requestId ∉ w.adapter.requestIdAliases
  running : requestId ∉ w.adapter.running
  aborted : ∀ g ∈ w.generator, g ≠ .finished →
    ∀ internalId, args.generateId requestId none = .ok internalId → internalId ∈ w.aborted

/-- The request id is idle, and the handler has done nothing. -/
structure Idle (requestId : Text) (w : World I T) : Prop where
  requests : requestId ∉ w.adapter.requests
  aliases : requestId ∉ w.adapter.requestIdAliases
  running : requestId ∉ w.adapter.running
  generator : w.generator = none
  aborted : w.aborted = []

/-- The two ways past the clean-up: without streaming, `/generate` lets the exception of the engine
through; a response stream that is never taken up does not run its `finally` block. -/
def Missed (route : Route) (stream : Bool) (g : Option GeneratorState) : Prop :=
  route = .generate ∧ g = some (if stream then .fresh else .raised)

/-- What there is of the request. -/
structure View where
  requested : Bool
  internalId : Option Text
  queued : ℕ
  generator : Option GeneratorState
  aborted : List Text

def view (requestId : Text) (w : World I T) : View where
  requested := decide (requestId ∈ w.adapter.requests)
  internalId := w.adapter.requestIdAliases.get? requestId
  queued := w.adapter.running.count requestId
  generator := w.generator
  aborted := w.aborted

namespace View

def released (v : View) : View :=
  { v with requested := false, internalId := none, queued := v.queued - 1 }

def idle : View := ⟨false, none, 0, none, []⟩

/-- The generator is there, and nothing is cleaned up. -/
def held (internalId : Text) (g : GeneratorState) : View := ⟨true, some internalId, 1, some g, []⟩

/-- `Clean`, read off the view. -/
def Clean (args : AdapterArgs) (requestId : Text) (v : View) : Prop :=
  v.requested = false ∧ v.internalId = none ∧ v.queued = 0 ∧ ∀ g ∈ v.generator, g ≠ .finished →
    ∀ internalId, args.generateId requestId none = .ok internalId → internalId ∈ v.aborted

def dropped (internalId : Text) (g : GeneratorState) : View :=
  ⟨false, none, 0, some g, [internalId]⟩

end View

section Views
variable {requestId : Text} {w w' : World I T}

theorem view_releaseRequest (w : World I T) (requestId : Text) :
    view requestId { w with adapter := w.adapter.releaseRequest requestId } =
      (view requestId w).released := by
  simp [view, View.released, Adapter.releaseRequest, Dict.get?_erase]

theorem view_releaseRequest_ne {id : Text} (h : id ≠ requestId) :
    view requestId { w with adapter := w.adapter.releaseRequest id } = view requestId w := by
  simp [view, Adapter.releaseRequest, Dict.get?_erase, h.symm, List.count_erase_of_ne h.symm]

theorem view_record_ne {id internalId : Text} {entry : Option I × T} (h : id ≠ requestId) :
    view requestId { w with adapter := w.adapter.record id internalId entry } =
      view requestId w := by
  simp [view, Adapter.record, Dict.get?_set, h, h.symm]

theorem view_elsewhere (h : Elsewhere requestId w w') : view requestId w' = view requestId w := by
  cases h with
  | record id internalId entry h => exact view_record_ne h
  | release ids h =>
    induction ids generalizing w with
    | nil => rfl
    | cons id ids ih =>
      obtain ⟨hid, hids⟩ := not_or.mp (List.mem_cons.not.mp h)
      have hrest := ih (w := { w with adapter := w.adapter.releaseRequest id }) hids
      exact hrest.trans (view_releaseRequest_ne (Ne.symm hid))
  | tick time monotonic => rfl

theorem view_idle (h : Idle requestId w) : view requestId w = .idle := by
  simp [view, View.idle, h.requests, h.generator, h.aborted, Dict.get?_eq_none.mpr h.aliases,
    List.count_eq_zero.mpr h.running]

theorem clean_iff {args : AdapterArgs} :
    Clean args requestId w ↔ (view requestId w).Clean args requestId := by
  constructor
  · intro h
    refine ⟨decide_eq_false h.requests, Dict.get?_eq_none.mpr h.aliases, ?_, h.aborted⟩
    exact List.count_eq_zero.mpr h.running
  · intro ⟨hrequests, haliases, hrunning, haborted⟩
    refine ⟨of_decide_eq_false hrequests, Dict.get?_eq_none.mp haliases, ?_, haborted⟩
    exact List.count_eq_zero.mp hrunning

end Views

/-- A triple over what there is of the request. -/
def Triple {α : Type} (requestId : Text) (Q : View → Prop) (p : Handler I T α)
    (N : α → View → Prop) (E : ApiExc → View → Prop) : Prop :=
  ∀ w, Q (view requestId w) → Safe (host requestId) (fun _ => True)
    (Post (fun a w => N a (view requestId w)) fun e w => E e (view requestId w)) p w

def never : ApiExc → View → Prop := fun _ _ => False

namespace Triple
variable {α β σ : Type} {requestId : Text} {Q : View → Prop} {E F : ApiExc → View → Prop}
  {p : Handler I T α} {M N : α → View → Prop}

theorem stable {P : View → Prop} (w w' : World I T) (h : P (view requestId w))
    (henv : (host requestId).env w w') : P (view requestId w') := by
  rw [view_elsewhere henv]
  exact h

theorem mono (h : Triple requestId Q p M E) (hN : ∀ a v, M a v → N a v)
    (hF : ∀ e v, E e v → F e v) : Triple requestId Q p N F := by
  intro w hw
  refine (h w hw).mono fun r w' hr => ?_
  cases r with
  | ok a => exact hN a _ hr
  | error e => exact hF e _ hr

theorem quiet (h : Triple requestId Q p N never) : Triple requestId Q p N E :=
  h.mono (fun _ _ h => h) fun _ _ h => h.elim

theorem pre {A : View → Prop} (h : Triple requestId Q p N E) (hA : ∀ v, A v → Q v) :
    Triple requestId A p N E :=
  fun w hw => h w (hA _ hw)

theorem ofExists {ι : Type} {A : ι → View → Prop} (h : ∀ x, Triple requestId (A x) p N E) :
    Triple requestId (fun v => ∃ x, A x v) p N E :=
  fun w ⟨x, hw⟩ => h x w hw

theorem ofAnd {c : Prop} (h : c → Triple requestId Q p N E) :
    Triple requestId (fun v => c ∧ Q v) p N E :=
  fun w ⟨hc, hw⟩ => h hc w hw

theorem ret {a : α} (h : ∀ v, Q v → N a v) : Triple requestId Q (.ret a : Handler I T α) N E :=
  fun _ hw => .retOf (h _ hw) (stable (P := N a)) fun _ hw => ⟨trivial, hw⟩

theorem raise {e : ApiExc} (h : ∀ v, Q v → E e v) :
    Triple requestId Q (.raise e : Handler I T α) N E :=
  fun _ hw => .raiseOf (h _ hw) (stable (P := E e)) fun _ hw => ⟨trivial, hw⟩

theorem seq {f : α → Handler I T β} {N : β → View → Prop} (hp : Triple requestId Q p M E)
    (hf : ∀ a, Triple requestId (M a) (f a) N E) : Triple requestId Q (p.bind f) N E :=
  fun w hw => .seq (hp w hw) fun a w hw => hf a w hw

theorem read {k : World I T → Handler I T α} (h : ∀ w, Triple requestId Q (k w) N E) :
    Triple requestId Q (.read k) N E :=
  fun w hw => .read trivial (h w w hw)

theorem write {f : World I T → World I T} {M : View → Prop}
    (hf : ∀ w, Q (view requestId w) → M (view requestId (f w))) (hp : Triple requestId M p N E) :
    Triple requestId Q (.write f p) N E :=
  fun w hw => .write trivial (hp (f w) (hf w hw))

theorem call {c : Call} {N : c.Reply → View → Prop}
    (h : ∀ (w : World I T) r w', Q (view requestId w) → Serves c w r w' →
      Post (fun a w => N a (view requestId w)) (fun e w => E e (view requestId w)) r w') :
    Triple requestId Q (Prog.call c : Handler I T c.Reply) N E := by
  intro w hw
  refine .call hw (stable (P := Q)) (fun _ _ => trivial) fun w r w' hw hs w'' he => ?_
  have hr := h w r w' hw hs
  refine ⟨trivial, ?_⟩
  cases r with
  | ok a => exact he.keep (stable (P := N a)) hr
  | error e => exact he.keep (stable (P := E e)) hr

theorem tryFinally {q : Bool → Handler I T Unit} (hp : Triple requestId Q p M E)
    (hdone : ∀ a, Triple requestId (M a) (q true) (fun _ => N a) F)
    (hfail : ∀ e, Triple requestId (E e) (q false) (fun _ => F e) F) :
    Triple requestId Q (p.tryFinally q) N F :=
  fun w hw => .tryFinally (hp w hw) (fun a w hw => hdone a w hw) (fun e w hw => hfail e w hw)
    (fun a => stable (P := N a)) (fun e => stable (P := F e)) (fun _ _ _ => trivial)
    fun _ _ _ => trivial

theorem catching {h : ApiExc → Handler I T α} (hp : Triple requestId Q p N E)
    (hh : ∀ e, Triple requestId (E e) (h e) N F) : Triple requestId Q (p.tryCatch h) N F :=
  fun w hw => .catching (hp w hw) fun e w hw => hh e w hw

theorem asyncFor {adv : Yields RequestOutput → Handler I T Unit}
    {body : σ → RequestOutput → Handler I T (σ ⊕ β)} {J : σ → View → Prop}
    {K : σ → RequestOutput → View → Prop} {N : σ ⊕ β → View → Prop}
    (hitem : ∀ o rest s, Triple requestId (J s) (adv (.item o rest)) (fun _ => K s o) E)
    (hended : ∀ raises s, Triple requestId (J s) (adv (.ended raises)) (fun _ => N (.inl s)) E)
    (hbody : ∀ s o, Triple requestId (K s o) (body s o) (Sum.elim J fun b => N (.inr b)) E)
    (yields : Yields RequestOutput) (s : σ) :
    Triple requestId (J s) (.asyncFor adv body yields s) N E := by
  intro w hw
  refine .asyncFor (J := fun s w => J s (view requestId w))
    (K := fun s o w => K s o (view requestId w)) (fun o rest s w hw => hitem o rest s w hw)
    (fun raises s w hw => hended raises s w hw) (fun s o w hw => (hbody s o w hw).mono ?_)
    (fun r => stable (P := N r)) (fun _ _ _ => trivial) yields s w hw
  intro r w hr
  rcases r with e | s | b
  · exact hr
  · exact hr
  · exact hr

end Triple

section Calls
variable {requestId : Text}

theorem release_spec (requestId : Text) (v : View) :
    Triple requestId (· = v) (release requestId : Handler I T Unit) (fun _ => (· = v.released))
      never := by
  refine .write (M := (· = v.released)) (fun w hw => ?_) (.ret fun _ h => h)
  rw [view_releaseRequest, hw]

theorem abort_spec (requestId : Text) (v : View) :
    Triple requestId (· = v) (abort requestId : Handler I T Unit)
      (fun _ => (· = { v.released with
        aborted := v.aborted ++ [v.internalId.getD requestId] })) never := by
  intro w hw
  have hids : w.adapter.internalIds [requestId] = [v.internalId.getD requestId] := by
    rw [← hw]
    rfl
  have hcall : Triple requestId (· = v)
      (Prog.call (Call.abort [v.internalId.getD requestId]) : Handler I T Unit)
      (fun _ => (· = { v with aborted := v.aborted ++ [v.internalId.getD requestId] })) never := by
    refine .call fun w r w' hw hs => ?_
    cases hs
    rw [← hw]
    rfl
  have hrelease : Triple requestId
      (· = { v with aborted := v.aborted ++ [v.internalId.getD requestId] })
      (modify (·.releaseAll [requestId]) : Handler I T Unit)
      (fun _ => (· = { v.released with
        aborted := v.aborted ++ [v.internalId.getD requestId] })) never := by
    refine .write (fun w hw => ?_) (.ret fun _ h => h)
    exact (view_releaseRequest w requestId).trans (congrArg View.released hw)
  refine .read trivial ?_
  rw [hids]
  exact (hcall.seq fun _ => hrelease) w hw

theorem item_spec (v : View) (o : RequestOutput) (rest : Yields RequestOutput) (inStream : Bool) :
    Triple requestId (· = v) (advance inStream (.item o rest) : Handler I T Unit)
      (fun _ => (· = { v with generator := some .suspended })) fun e u =>
        inStream = true ∧ e = .closed ∧ u = { v with generator := some .cancelled } := by
  refine .call fun w r w' hw hs => ?_
  cases hs with
  | item => exact congrArg (fun v : View => { v with generator := some .suspended }) hw
  | cancelled =>
    exact ⟨rfl, rfl, congrArg (fun v : View => { v with generator := some .cancelled }) hw⟩

theorem ended_spec (v : View) (raises inStream : Bool) :
    Triple requestId (· = v) (advance inStream (.ended raises) : Handler I T Unit)
      (fun _ => (· = { v with generator := some .finished })) fun e u =>
        e = .engine ∧ u = { v with generator := some .raised } ∨
          inStream = true ∧ e = .closed ∧ u = { v with generator := some .cancelled } := by
  refine .call fun w r w' hw hs => ?_
  cases hs with
  | stop => exact congrArg (fun v : View => { v with generator := some .finished }) hw
  | error =>
    exact .inl ⟨rfl, congrArg (fun v : View => { v with generator := some .raised }) hw⟩
  | cancelled =>
    exact .inr ⟨rfl, rfl, congrArg (fun v : View => { v with generator := some .cancelled }) hw⟩

/-- What the call of the engine leaves: the request is there with a generator, or not at all. -/
theorem submit_spec (args : AdapterArgs) (refused : Bool) (requestId : Text) :
    Triple requestId (· = .idle) (submit args refused requestId : Handler I T Unit)
      (fun _ v => ∃ i, args.generateId requestId none = .ok i ∧ v = .held i .fresh)
      fun _ v => v = .idle := by
  unfold submit
  cases hid : args.generateId requestId none with
  | error e => exact .raise fun v hv => hv
  | ok i =>
    let recorded : View := ⟨true, some i, 1, none, []⟩
    have hrecord : ∀ entry : Option I × T, Triple requestId (· = .idle)
        (modify (·.record requestId i entry) : Handler I T Unit) (fun _ => (· = recorded))
        fun _ v => v = .idle := by
      intro entry
      refine .write (M := (· = recorded)) (fun w hw => ?_) (.ret fun _ h => h)
      simp only [view, View.idle, View.mk.injEq, List.count_eq_zero] at hw
      obtain ⟨-, -, hrunning, hg, ha⟩ := hw
      simp [view, recorded, Adapter.record, Dict.get?_set, List.count_eq_zero.mpr hrunning, hg, ha]
    refine .read fun w => .seq (hrecord _) fun _ => ?_
    cases refused with
    | true =>
      exact .seq (release_spec requestId recorded).quiet fun _ => .raise fun v hv => hv
    | false =>
      refine .write (M := (· = .held i .fresh)) (fun w hw => ?_) (.ret fun v hv => ⟨i, rfl, hv⟩)
      exact congrArg (fun v : View => { v with generator := some .fresh }) hw

end Calls

section Loops
variable {P σ : Type} {sub : Submission P} {i : Text}

/-- The loop of both handlers that wait for the last output. -/
theorem connected_spec {f : σ → RequestOutput → Handler I T σ}
    (hf : ∀ s o Q, Triple sub.requestId Q (f s o) (fun _ => Q) never) (g : GeneratorState)
    (yields : Yields RequestOutput) (s : σ) :
    Triple sub.requestId (· = .held i g)
      (.asyncFor (advance false) (whileConnected sub f) yields s)
      (Sum.elim (fun _ v => v = .held i .finished) fun _ v => v = .dropped i .suspended)
      fun e v => e = .engine ∧ v = .held i .raised := by
  refine (Triple.asyncFor (J := fun _ v => ∃ g, v = .held i g)
    (K := fun _ _ v => v = .held i .suspended) ?_ ?_ ?_ yields s).pre fun v hv => ⟨g, hv⟩
  · intro o rest s
    refine .ofExists fun g => (item_spec (.held i g) o rest false).mono (fun _ _ h => h) ?_
    rintro e u ⟨hfalse, -⟩
    cases hfalse
  · intro raises s
    refine .ofExists fun g => (ended_spec (.held i g) raises false).mono (fun _ _ h => h) ?_
    rintro e u (h | ⟨hfalse, -⟩)
    · exact h
    · cases hfalse
  · intro s o
    refine .seq (M := fun _ v => v = .held i .suspended) (.call ?_) fun gone => ?_
    · intro w r w' hw hs
      cases hs
      exact hw
    · cases gone with
      | true =>
        exact .seq (abort_spec sub.requestId (.held i .suspended)).quiet fun _ =>
          .ret fun v hv => hv
      | false =>
        exact .seq (hf s o _).quiet fun _ => .ret fun v hv => ⟨.suspended, hv⟩

theorem collect_spec (sub : Submission P) (yields : Yields RequestOutput) :
    Triple sub.requestId (· = .held i .fresh) (collect sub yields : Handler I T Response)
      (fun _ v => v = (View.held i .finished).released ∨ v = .dropped i .suspended)
      fun _ v => v = .held i .raised := by
  have hloop : Triple sub.requestId (· = .held i .fresh) (.asyncFor (advance false)
      (whileConnected sub fun _ o => .ret (some o)) yields none : Handler I T _) _ _ :=
    connected_spec (fun s o Q => .ret fun _ h => h) .fresh yields none
  refine .seq (hloop.mono (fun _ _ h => h) fun _ _ h => h.2) fun r => ?_
  have hrelease : ∀ response : Response, Triple sub.requestId (· = .held i .finished)
      ((release sub.requestId).bind fun _ => .ret response : Handler I T Response)
      (fun _ v => v = (View.held i .finished).released ∨ v = .dropped i .suspended)
      fun _ v => v = .held i .raised := by
    intro response
    exact .seq (release_spec sub.requestId _).quiet fun _ => .ret fun v hv => .inl hv
  rcases r with (_ | final) | response
  · exact hrelease .noOutput
  · exact hrelease (.text (texts sub final))
  · exact .ret fun v hv => .inr hv

theorem benchmark_spec (sub : Submission P) (yields : Yields RequestOutput) (started : ℚ) :
    Triple sub.requestId (· = .held i .fresh) (benchmark sub yields started : Handler I T Response)
      (fun _ v => v = (View.held i .finished).released ∨ v = .dropped i .suspended)
      fun _ v => v = .dropped i .raised := by
  have hloop : Triple sub.requestId (· = .held i .fresh)
      (measure sub yields started : Handler I T _) _ _ :=
    connected_spec (fun s o Q => .read fun w => .ret fun _ h => h) .fresh yields (none, [])
  have htry : Triple sub.requestId (· = .held i .fresh)
      (onException (measure sub yields started) (abort sub.requestId) : Handler I T _)
      (Sum.elim (fun _ v => v = .held i .finished) fun _ v => v = .dropped i .suspended)
      fun _ v => v = .dropped i .raised := by
    refine hloop.catching fun e => .ofAnd ?_
    rintro rfl
    exact .seq (abort_spec sub.requestId _).quiet fun _ => .raise fun v hv => hv
  -- What is dropped already stays so when it is released again.
  have hfinally := htry.tryFinally (q := fun _ => release sub.requestId)
    (N := Sum.elim (fun _ v => v = (View.held i .finished).released)
      fun _ v => v = .dropped i .suspended)
    (F := fun _ v => v = .dropped i .raised) ?_ ?_
  · refine .seq hfinally fun r => ?_
    rcases r with ⟨final, timestamps⟩ | response
    · exact .ret fun v hv => .inl hv
    · exact .ret fun v hv => .inr hv
  · rintro (s | response)
    · exact (release_spec sub.requestId _).quiet
    · exact (release_spec sub.requestId _).quiet
  · exact fun e => (release_spec sub.requestId _).quiet

theorem streamLoop_spec (sub : Submission P) (yields : Yields RequestOutput) :
    Triple sub.requestId (· = .held i .fresh)
      (.asyncFor (advance true)
        (fun _ o => (Prog.call (Call.yield (texts sub o))).bind fun _ => .ret (.inl ())) yields () :
        Handler I T (Unit ⊕ Response))
      (fun _ v => v = .held i .finished) fun _ v => ∃ g, g ≠ .fresh ∧ v = .held i g := by
  refine (Triple.asyncFor (J := fun _ v => ∃ g, v = .held i g)
    (K := fun _ _ v => v = .held i .suspended) ?_ ?_ ?_ yields ()).pre fun v hv => ⟨.fresh, hv⟩
  · intro o rest s
    refine .ofExists fun g => (item_spec (.held i g) o rest true).mono (fun _ _ h => h) ?_
    rintro e u ⟨-, -, hu⟩
    exact ⟨.cancelled, by decide, hu⟩
  · intro raises s
    refine .ofExists fun g => (ended_spec (.held i g) raises true).mono (fun _ _ h => h) ?_
    rintro e u (⟨-, hu⟩ | ⟨-, -, hu⟩)
    · exact ⟨.raised, by decide, hu⟩
    · exact ⟨.cancelled, by decide, hu⟩
  · intro s o
    refine .seq (M := fun _ v => v = .held i .suspended) (.call ?_)
      fun _ => .ret fun v hv => ⟨.suspended, hv⟩
    intro w r w' hw hs
    cases hs with
    | yield => exact hw
    | closed => exact ⟨.suspended, by decide, hw⟩

theorem streamResults_spec (sub : Submission P) (yields : Yields RequestOutput) :
    Triple sub.requestId (· = .held i .fresh)
      (streamResults sub yields : Handler I T (Unit ⊕ Response))
      (fun _ v => v = (View.held i .finished).released)
      fun _ v => ∃ g, g ≠ .fresh ∧ v = .dropped i g := by
  refine (streamLoop_spec sub yields).tryFinally (fun r => (release_spec sub.requestId _).quiet) ?_
  refine fun e => .ofExists fun g => .ofAnd fun hg => ?_
  exact (abort_spec sub.requestId _).mono (fun _ v hv => ⟨g, hg, hv⟩) fun _ _ h => h.elim

end Loops

section CleanUp
variable {P : Type} {args : AdapterArgs} {route : Route} {sub : Submission P}

/-- The request is cleaned up unless the clean-up is missed. -/
def Settled (args : AdapterArgs) (route : Route) (sub : Submission P) (v : View) : Prop :=
  v.Clean args sub.requestId ↔ ¬Missed route sub.stream v.generator

theorem settled_idle : Settled args route sub .idle :=
  iff_of_true ⟨rfl, rfl, rfl, nofun⟩ nofun

theorem settled_finished {i : Text} :
    Settled args route sub (View.held i .finished).released := by
  refine iff_of_true ⟨rfl, rfl, rfl, fun g hg hne => ?_⟩ ?_
  · exact absurd (Option.some.inj hg).symm hne
  · rintro ⟨-, hmissed⟩
    cases hstream : sub.stream <;> simp [hstream, View.held, View.released] at hmissed

theorem settled_dropped {i : Text} {g : GeneratorState}
    (hid : args.generateId sub.requestId none = .ok i) (hg : ¬Missed route sub.stream (some g)) :
    Settled args route sub (.dropped i g) := by
  refine iff_of_true ⟨rfl, rfl, rfl, fun _ _ _ j hj => ?_⟩ hg
  rw [hid] at hj
  cases hj
  exact List.mem_singleton_self i

theorem settled_held {i : Text} {g : GeneratorState} (hg : Missed route sub.stream (some g)) :
    Settled args route sub (.held i g) :=
  iff_of_false (fun h => by cases h.1) (not_not.mpr hg)

theorem respond_spec {samplingParams : Dict Text Field → Except Text P} {request : HttpRequest}
    (hparse : route.parse samplingParams request = .ok sub) (refused : Bool)
    (yields : Yields RequestOutput) :
    Triple sub.requestId (· = .idle)
      (respond args samplingParams route request refused yields : Handler I T Response)
      (fun _ => Settled args route sub) fun _ => Settled args route sub := by
  unfold respond
  rw [hparse]
  have hsubmit := (submit_spec (I := I) (T := T) args refused sub.requestId).mono (fun _ _ h => h)
    (F := fun _ => Settled args route sub) fun _ v hv => hv ▸ settled_idle
  cases route with
  | generateBenchmark =>
    refine .read fun w => hsubmit.seq fun _ => .ofExists fun i => .ofAnd fun hid => ?_
    refine (benchmark_spec sub yields w.monotonic).mono (fun _ v hv => ?_) fun _ v hv => ?_
    · rcases hv with rfl | rfl
      · exact settled_finished
      · exact settled_dropped hid nofun
    · exact hv ▸ settled_dropped hid nofun
  | generate =>
    refine hsubmit.seq fun _ => .ofExists fun i => .ofAnd fun hid => ?_
    cases hstream : sub.stream with
    | true =>
      refine .seq (M := fun _ v => v = .held i .fresh) (.call fun w r w' hw hs => ?_) fun _ => ?_
      · cases hs with
        | start => exact hw
        | unstarted => exact hw ▸ settled_held ⟨rfl, by rw [hstream]; rfl⟩
      · refine .seq ((streamResults_spec sub yields).mono (fun _ v hv => hv) fun _ v hv => ?_)
          fun _ => .ret fun v hv => hv ▸ settled_finished
        obtain ⟨g, hg, rfl⟩ := hv
        refine settled_dropped hid fun hmissed => hg ?_
        simpa [hstream] using hmissed.2
    | false =>
      refine (collect_spec sub yields).mono (fun _ v hv => ?_) fun _ v hv => ?_
      · rcases hv with rfl | rfl
        · exact settled_finished
        · refine settled_dropped hid fun hmissed => ?_
          simp [hstream, Missed] at hmissed
      · exact hv ▸ settled_held ⟨rfl, by rw [hstream]; rfl⟩

/-- The request is cleaned up at the end of the response, unless `/generate` waits for the last
output and the engine raises, or the response stream of `/generate` is dropped before it is taken
up. -/
theorem cleaned_up_iff {samplingParams : Dict Text Field → Except Text P} {request : HttpRequest}
    (hparse : route.parse samplingParams request = .ok sub) {refused : Bool}
    {yields : Yields RequestOutput} {w w' : World I T} {r : Except ApiExc Response}
    (hidle : Idle sub.requestId w) (hends : (host sub.requestId).Ends
      (respond args samplingParams route request refused yields) w r w') :
    Clean args sub.requestId w' ↔ ¬Missed route sub.stream w'.generator := by
  have hend := (respond_spec hparse refused yields w (view_idle hidle)).ends hends
  rw [clean_iff]
  cases r with
  | ok response => exact hend
  | error e => exact hend

end CleanUp

section Sample

def sampleRequest : HttpRequest where
  body := .ok (some ⟨[("prompt".toList, .str "p".toList), ("request_id".toList, .str "r".toList)],
    by decide⟩)
  timeNs := "0".toList

def sampleSub : Submission Unit := ⟨"p".toList, false, "r".toList, ()⟩

def sampleWorld : World Unit Unit := { adapter := {}, time := (), monotonic := 0 }

theorem parse_sample (route : Route) :
    route.parse (fun _ => .ok ()) sampleRequest = .ok sampleSub := by
  cases route <;> rfl

theorem idle_sample : Idle sampleSub.requestId sampleWorld where
  requests := Dict.not_mem_empty _
  aliases := Dict.not_mem_empty _
  running := List.not_mem_nil
  generator := rfl
  aborted := rfl

/-- The sample, answered by an engine that raises when its generator is advanced. -/
def sampleCall (route : Route) : Handler Unit Unit Response :=
  respond Frontend.plainArgs (fun _ => .ok ()) route sampleRequest false (.ended true)

/-- The engine answers, and nobody else interferes. -/
def answered {requestId : Text} : Cue (host (I := Unit) (T := Unit) requestId) := .serve 0 fun
  | .start, w => some ⟨(.ok (), _), .start w⟩
  | .anext (.item o rest) inStream, w => some ⟨(.ok (), _), .item o rest inStream w⟩
  | .anext (.ended false) inStream, w => some ⟨(.ok (), _), .stop inStream w⟩
  | .anext (.ended true) inStream, w => some ⟨(.error .engine, _), .error inStream w⟩
  | .yield texts, w => some ⟨(.ok (), _), .yield texts w⟩
  | .isDisconnected, w => some ⟨(.ok false, _), .isDisconnected false w⟩
  | .abort internalIds, w => some ⟨(.ok (), _), .abort internalIds w⟩

theorem cleaned_up_benchmark : ∃ w', (host "r".toList).Ends (sampleCall .generateBenchmark)
    sampleWorld (.error .engine) w' ∧ Clean Frontend.plainArgs "r".toList w' := by
  have hends : (host "r".toList).Ends (sampleCall .generateBenchmark) sampleWorld (.error .engine)
      _ := ends_replay [answered, answered] rfl
  exact ⟨_, hends, (cleaned_up_iff (parse_sample .generateBenchmark) idle_sample hends).mpr nofun⟩

/-- The exception goes through `/generate`, and the request stays. -/
theorem engine_error_leaks : ∃ w', (host "r".toList).Ends (sampleCall .generate) sampleWorld
    (.error .engine) w' ∧ "r".toList ∈ w'.adapter.requests ∧
    "r".toList ∈ w'.adapter.requestIdAliases ∧ "r".toList ∈ w'.adapter.running ∧ w'.aborted = [] ∧
    ¬Clean Frontend.plainArgs "r".toList w' :=
  ⟨_, ends_replay [answered] rfl, by decide, by decide, by decide, rfl, fun h =>
    h.requests (by decide)⟩

end Sample

end Llumnix.V1.Server
