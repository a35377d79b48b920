import Llumnix.Client.Streams
import Llumnix.Log.LastWrite

/-! The two ways in which `/generate` answers: as a stream of chunks, which the server may close at
any time, and with one response at the end. Both read the stream of the request while the client
puts outputs in it. -/
namespace Llumnix.Client

open Machine Output Log

variable {os : List RequestOutput}

theorem AsyncStream.receive_of_finished {t : AsyncStream} (h : t.finished = true)
    (o : RequestOutput) : t.receive o = t := by
  unfold AsyncStream.receive AsyncStream.finish AsyncStream.put
  simp [h]

theorem AsyncStream.Serves.feed {t : AsyncStream} {o : RequestOutput} (h : t.Serves os)
    (hsince : t.since = 0) (ho : o.requestId = t.requestId) : (t.receive o).Serves (os ++ [o]) := by
  have hle : t.since ≤ os.length := by omega
  cases hfinished : t.finished with
  | true =>
    rw [receive_of_finished hfinished]
    exact h.skip hle (.inl hfinished)
  | false => exact h.receive hle hfinished ho

theorem none_mem_received {r : String} : none ∈ received r os ↔ ended r os = true := by
  induction os with
  | nil => simp [received, ended]
  | cons o os ih =>
    by_cases hr : o.requestId = r
    · by_cases hf : o.finished
      · simp [received, ended, hr, hf]
      · simpa [received, ended, hr, hf] using ih
    · simpa [received, ended, hr] using ih

theorem received_of_ended {r : String} (h : ended r os = true) :
    ∃ xs o, received r os = List.map some xs ++ [some o, none] := by
  induction os with
  | nil => simp [ended] at h
  | cons o os ih =>
    by_cases hr : o.requestId = r
    · by_cases hf : o.finished
      · exact ⟨[], o, by simp [received, hr, hf]⟩
      · have hrest : ended r os = true := by simpa [ended, hr, hf] using h
        obtain ⟨xs, p, hxs⟩ := ih hrest
        exact ⟨o :: xs, p, by simp [received, hr, hf, hxs]⟩
    · have hrest : ended r os = true := by simpa [ended, hr] using h
      obtain ⟨xs, p, hxs⟩ := ih hrest
      exact ⟨xs, p, by simp [received, hr, hxs]⟩

/-- A handler has taken so many items off a queue: the outputs, and the end if it has come to it. -/
def Took (queue : List (Option RequestOutput)) (taken : ℕ) (outputs : List RequestOutput)
    (atEnd : Bool) : Prop :=
  taken ≤ queue.length ∧
    queue.take taken = outputs.map some ++ if atEnd then [none] else []

namespace Took
variable {queue more : List (Option RequestOutput)} {taken : ℕ} {outputs : List RequestOutput}
variable {atEnd : Bool} {o : RequestOutput}

theorem append (h : Took queue taken outputs atEnd) : Took (queue ++ more) taken outputs atEnd := by
  refine ⟨?_, ?_⟩
  · rw [List.length_append]
    exact Nat.le_add_right_of_le h.1
  · rw [List.take_append_of_le_length h.1]
    exact h.2

theorem get {item : Option RequestOutput} (h : Took queue taken outputs false)
    (hitem : queue[taken]? = some item) :
    taken + 1 ≤ queue.length ∧ queue.take (taken + 1) = outputs.map some ++ [item] := by
  obtain ⟨hlt, -⟩ := List.getElem?_eq_some_iff.mp hitem
  refine ⟨hlt, ?_⟩
  have htake := h.2
  rw [if_neg Bool.false_ne_true, List.append_nil] at htake
  rw [List.take_add_one, hitem, htake]
  rfl

theorem get_output (h : Took queue taken outputs false)
    (hitem : queue[taken]? = some (some o)) : Took queue (taken + 1) (outputs ++ [o]) false := by
  obtain ⟨hle, htake⟩ := h.get hitem
  exact ⟨hle, by simp [htake]⟩

theorem get_end (h : Took queue taken outputs false) (hitem : queue[taken]? = some none) :
    Took queue (taken + 1) outputs true := by
  obtain ⟨hle, htake⟩ := h.get hitem
  exact ⟨hle, by simp [htake]⟩

theorem isPrefix (h : Took queue taken outputs atEnd) : outputs.map some <+: queue := by
  have hpre : outputs.map some <+: queue.take taken := by
    rw [h.2]
    exact List.prefix_append _ _
  exact hpre.trans (List.take_prefix _ _)

end Took

def Completed (r : String) (os : List RequestOutput) (taken : ℕ) : Prop :=
  ended r os = true ∧ taken = (received r os).length

theorem Completed.append {r : String} {taken : ℕ} (h : Completed r os taken) (o : RequestOutput) :
    Completed r (os ++ [o]) taken := by
  obtain ⟨hended, htaken⟩ := h
  refine ⟨by simp [ended_concat, hended], ?_⟩
  rw [received_concat, if_pos hended, List.append_nil]
  exact htaken

/-- Whoever has taken everything has come to the end, and only they. -/
theorem Took.completed_iff {r : String} {taken : ℕ} {outputs : List RequestOutput} {atEnd : Bool}
    (h : Took (received r os) taken outputs atEnd) : Completed r os taken ↔ atEnd = true := by
  obtain ⟨hle, htake⟩ := h
  constructor
  · rintro ⟨hended, htaken⟩
    by_contra hnot
    rw [htaken, List.take_length, if_neg hnot, List.append_nil] at htake
    have hnone := none_mem_received.mpr hended
    rw [htake] at hnone
    simp at hnone
  · intro hend
    rw [if_pos hend] at htake
    have hended : ended r os = true := by
      rw [← none_mem_received]
      have hmem : none ∈ (received r os).take taken := by simp [htake]
      exact List.mem_of_mem_take hmem
    refine ⟨hended, ?_⟩
    -- the end is the last item of the stream, so that nothing is left behind it
    obtain ⟨xs, o, hxs⟩ := received_of_ended hended
    by_contra hne
    have hlt : taken < (received r os).length := by omega
    have hsplit : received r os = List.map some (xs ++ [o]) ++ [none] := by simp [hxs]
    have hshort : taken ≤ (List.map some (xs ++ [o])).length := by
      rw [hsplit, List.length_append, List.length_singleton] at hlt
      omega
    rw [hsplit, List.take_append_of_le_length hshort] at htake
    have hnone : none ∈ (List.map some (xs ++ [o])).take taken := by
      rw [htake]
      simp
    have habsurd := List.mem_of_mem_take hnone
    simp at habsurd

theorem Took.all {r : String} {taken : ℕ} {outputs : List RequestOutput} {atEnd : Bool}
    (h : Took (received r os) taken outputs atEnd) (hend : atEnd = true) :
    received r os = outputs.map some ++ [none] := by
  have htaken := (h.completed_iff.mpr hend).2
  have htake := h.2
  rwa [htaken, List.take_length, if_pos hend] at htake

/-! ### Readers -/

/-- The stream of a request, and how many items have been read off its queue. -/
structure Reader where
  stream : AsyncStream
  taken : ℕ := 0

/-- The actions by which the client puts an output in the stream that is read. -/
class Delivery (α : Type) where
  output? : α → Option RequestOutput

def outputs {α : Type} [Delivery α] (as : List α) : List RequestOutput :=
  as.filterMap Delivery.output?

theorem outputs_concat {α : Type} [Delivery α] {as : List α} {a : α} :
    outputs (as ++ [a]) = outputs as ++ (Delivery.output? a).toList := by
  cases ha : Delivery.output? a <;> simp [outputs, ha]

namespace Reader

def new (requestId : String) : Reader where
  stream := ⟨requestId, 0, [], false⟩

def feed (t : Reader) (o : RequestOutput) : Option Reader :=
  if o.requestId = t.stream.requestId then some { t with stream := t.stream.receive o } else none

def get (t : Reader) : Option (Option RequestOutput × Reader) :=
  t.stream.queue[t.taken]?.map (·, { t with taken := t.taken + 1 })

variable {α : Type} [Delivery α] {t t' : Reader} {r : String} {a : α} {as : List α} {gets : ℕ}
variable {o : RequestOutput}

/-- What is left of the actions in the reader. -/
structure Follows (t : Reader) (r : String) (as : List α) (gets : ℕ) : Prop where
  request : t.stream.requestId = r
  since : t.stream.since = 0
  serves : t.stream.Serves (outputs as)
  gets : t.taken = gets

theorem follows_new (r : String) : (new r).Follows r ([] : List α) 0 := ⟨rfl, rfl, ⟨rfl, rfl⟩, rfl⟩

theorem Follows.turn (h : t.Follows r as gets) (ha : Delivery.output? a = none) :
    t.Follows r (as ++ [a]) gets := by
  refine ⟨h.request, h.since, ?_, h.gets⟩
  rw [outputs_concat, ha, Option.toList_none, List.append_nil]
  exact h.serves

theorem Follows.feed (h : t.Follows r as gets) (ha : Delivery.output? a = some o)
    (hfeed : t.feed o = some t') : t'.Follows r (as ++ [a]) gets ∧ t'.taken = t.taken := by
  simp only [Reader.feed, Option.ite_none_right_eq_some, Option.some.injEq] at hfeed
  obtain ⟨ho, rfl⟩ := hfeed
  refine ⟨⟨?_, ?_, ?_, h.gets⟩, rfl⟩
  · simpa using h.request
  · simpa using h.since
  · rw [outputs_concat, ha]
    exact h.serves.feed h.since ho

theorem Follows.get {item : Option RequestOutput} (h : t.Follows r as gets)
    (hget : t.get = some (item, t')) : (received r (outputs as))[t.taken]? = some item ∧
      t'.taken = t.taken + 1 ∧ t'.Follows r as (gets + 1) := by
  obtain ⟨i, hitem, heq⟩ := Option.map_eq_some_iff.mp hget
  cases heq
  have hqueue := h.serves.1
  rw [h.request, h.since, List.drop_zero] at hqueue
  exact ⟨hqueue ▸ hitem, rfl, h.request, h.since, h.serves, congrArg (· + 1) h.gets⟩

end Reader

/-- Counted once if `P`, and otherwise not at all. -/
def OnceIf (n : ℕ) (P : Prop) : Prop := n = 1 ∧ P ∨ n = 0 ∧ ¬P

theorem OnceIf.congr {n : ℕ} {P Q : Prop} (h : OnceIf n P) (hiff : Q ↔ P) : OnceIf n Q := by
  rw [OnceIf, hiff]
  exact h

theorem OnceIf.spec {n : ℕ} {P : Prop} (h : OnceIf n P) : n ≤ 1 ∧ (n = 1 ↔ P) := by
  rcases h with ⟨rfl, hp⟩ | ⟨rfl, hp⟩
  · simp [hp]
  · simp [hp]

/-! ### The streaming handler -/

/-- Where `stream_results` stands. It is a generator: nothing of it runs before the first chunk is
asked for, its `finally` included. -/
inductive StreamPoint
  | fresh
  | reading
  | yielded
  | completed
  | closed
  deriving DecidableEq, Repr

structure StreamResults extends Reader where
  sent : List RequestOutput := []
  point : StreamPoint := .fresh
  aborts : ℕ := 0

/-- The client puts an output in the stream; the server asks for the next chunk or closes the
generator, as it does when the user has gone; and the generator gets an item. -/
inductive StreamAction
  | output (o : RequestOutput)
  | next
  | get
  | close
  deriving DecidableEq

instance : Delivery StreamAction where
  output?
    | .output o => some o
    | _ => none

namespace StreamResults

def new (requestId : String) : StreamResults where
  toReader := .new requestId

def step (s : StreamResults) : StreamAction → Option StreamResults
  | .output o => (s.feed o).map fun t => { s with toReader := t }
  | .next =>
    if s.point = .fresh ∨ s.point = .yielded then some { s with point := .reading } else none
  | .get =>
    if s.point = .reading then
      match s.toReader.get with
      | none => none
      | some (some o, t) => some { s with toReader := t, sent := s.sent ++ [o], point := .yielded }
      | some (none, t) => some { s with toReader := t, point := .completed }
    else none
  | .close =>
    match s.point with
    | .fresh => some { s with point := .closed }
    | .reading => some { s with point := .closed, aborts := s.aborts + 1 }
    | .yielded => some { s with point := .closed, aborts := s.aborts + 1 }
    | .completed => some s
    | .closed => some s

/-- The generator was closed while it was at work. -/
def Interrupted (r : String) (as : List StreamAction) : Prop :=
  ∃ xs ys, as = xs ++ .close :: ys ∧ .close ∉ xs ∧ .next ∈ xs ∧
    ¬Completed r (outputs xs) (xs.count .get)

variable {s s' : StreamResults} {a : StreamAction} {as : List StreamAction} {r : String}

theorem interrupted_concat : Interrupted r (as ++ [a]) ↔ Interrupted r as ∨
    (a = .close ∧ .close ∉ as ∧ .next ∈ as ∧ ¬Completed r (outputs as) (as.count .get)) :=
  exists_cut_concat

theorem close_mem_of_interrupted (h : Interrupted r as) : .close ∈ as := by
  obtain ⟨xs, ys, rfl, -⟩ := h
  simp

/-- What the actions so far say of each point of the generator. -/
def Reached (r : String) (as : List StreamAction) : StreamPoint → Prop
  | .fresh => .next ∉ as ∧ .close ∉ as
  | .reading => .next ∈ as ∧ .close ∉ as
  | .yielded => .next ∈ as ∧ .close ∉ as
  | .completed => Completed r (outputs as) (as.count .get)
  | .closed => .close ∈ as

structure Follows (s : StreamResults) (r : String) (as : List StreamAction) : Prop where
  reader : s.toReader.Follows r as (as.count .get)
  took : Took (received r (outputs as)) s.taken s.sent (s.point = .completed)
  reached : Reached r as s.point
  aborts : OnceIf s.aborts (Interrupted r as)

theorem Follows.aborts_of_ne (h : s.Follows r as) (ha : a ≠ .close) :
    OnceIf s.aborts (Interrupted r (as ++ [a])) := by
  refine h.aborts.congr ?_
  rw [interrupted_concat]
  simp [ha]

theorem Follows.output (h : s.Follows r as) {o : RequestOutput}
    (hstep : s.step (.output o) = some s') : s'.Follows r (as ++ [.output o]) := by
  obtain ⟨t, hfeed, rfl⟩ := Option.map_eq_some_iff.mp hstep
  have houtputs : outputs (as ++ [.output o]) = outputs as ++ [o] := outputs_concat
  have hcount : (as ++ [StreamAction.output o]).count .get = as.count .get := by simp
  obtain ⟨hreader, htaken⟩ := h.reader.feed (a := StreamAction.output o) rfl hfeed
  refine ⟨hcount ▸ hreader, ?_, ?_, h.aborts_of_ne (by simp)⟩
  · rw [houtputs, received_concat, htaken]
    exact h.took.append
  · have hreached := h.reached
    cases hpoint : s.point with
    | completed =>
      rw [hpoint] at hreached
      unfold Reached at hreached ⊢
      rw [houtputs, hcount]
      exact Completed.append hreached o
    | fresh => simpa [Reached, hpoint] using hreached
    | reading => simpa [Reached, hpoint] using hreached
    | yielded => simpa [Reached, hpoint] using hreached
    | closed => simpa [Reached, hpoint] using hreached

theorem Follows.next (h : s.Follows r as) (hstep : s.step .next = some s') :
    s'.Follows r (as ++ [.next]) := by
  simp only [step, Option.ite_none_right_eq_some, Option.some.injEq] at hstep
  obtain ⟨hpoint, rfl⟩ := hstep
  have hreached := h.reached
  have hopen : .close ∉ as := by
    rcases hpoint with hpoint | hpoint <;> rw [hpoint] at hreached <;> exact hreached.2
  have hnot : s.point ≠ .completed := by
    rcases hpoint with hpoint | hpoint <;> simp [hpoint]
  have htook := h.took
  rw [decide_eq_false hnot] at htook
  refine ⟨?_, ?_, ⟨by simp, by simpa using hopen⟩, h.aborts_of_ne (by simp)⟩
  · simpa using h.reader.turn (a := StreamAction.next) rfl
  · simpa [outputs_concat, Delivery.output?] using htook

theorem Follows.get (h : s.Follows r as) (hstep : s.step .get = some s') :
    s'.Follows r (as ++ [.get]) := by
  simp only [step, Option.ite_none_right_eq_some] at hstep
  obtain ⟨hpoint, hstep⟩ := hstep
  have hreached := h.reached
  rw [hpoint] at hreached
  have htook := h.took
  rw [hpoint] at htook
  have houtputs : outputs (as ++ [StreamAction.get]) = outputs as := by
    simp [outputs_concat, Delivery.output?]
  cases hget : s.toReader.get with
  | none => simp [hget] at hstep
  | some next =>
    obtain ⟨item, t⟩ := next
    obtain ⟨hitem, htaken, hreader⟩ := h.reader.get hget
    have hreader' : t.Follows r (as ++ [.get]) ((as ++ [StreamAction.get]).count .get) := by
      simpa using hreader.turn (a := StreamAction.get) rfl
    cases item with
    | some o =>
      simp only [hget, Option.some.injEq] at hstep
      subst hstep
      refine ⟨hreader', ?_, ⟨by simp [hreached.1], by simp [hreached.2]⟩,
        h.aborts_of_ne (by simp)⟩
      rw [houtputs, htaken]
      exact htook.get_output hitem
    | none =>
      simp only [hget, Option.some.injEq] at hstep
      subst hstep
      have hend := htook.get_end hitem
      refine ⟨hreader', ?_, ?_, h.aborts_of_ne (by simp)⟩
      · rw [houtputs, htaken]
        exact hend
      · unfold Reached
        rw [houtputs, ← hreader'.gets, htaken]
        exact hend.completed_iff.mpr rfl

theorem Follows.close (h : s.Follows r as) (hstep : s.step .close = some s') :
    s'.Follows r (as ++ [.close]) := by
  have hreached := h.reached
  have htook := h.took
  have houtputs : outputs (as ++ [StreamAction.close]) = outputs as := by
    simp [outputs_concat, Delivery.output?]
  have hcount : (as ++ [StreamAction.close]).count .get = as.count .get := by simp
  have hreader : s.toReader.Follows r (as ++ [.close]) ((as ++ [StreamAction.close]).count .get) :=
    hcount ▸ h.reader.turn rfl
  have hended : ∀ {p}, Took (received r (outputs as)) s.taken s.sent p →
      Took (received r (outputs (as ++ [StreamAction.close]))) s.taken s.sent p := by
    rw [houtputs]
    exact id
  -- only the closing of a generator at work is an interruption
  have hwork : s.point = .reading ∨ s.point = .yielded →
      s.aborts = 0 ∧ Interrupted r (as ++ [.close]) := by
    intro hpoint
    have hopen : .next ∈ as ∧ .close ∉ as := by
      rcases hpoint with hpoint | hpoint <;> rw [hpoint] at hreached <;> exact hreached
    have hnot : s.point ≠ .completed := by
      rcases hpoint with hpoint | hpoint <;> simp [hpoint]
    have hincomplete : ¬Completed r (outputs as) (as.count .get) := by
      rw [← h.reader.gets, htook.completed_iff]
      simpa using hnot
    refine ⟨?_, interrupted_concat.mpr (.inr ⟨rfl, hopen.2, hopen.1, hincomplete⟩)⟩
    rcases h.aborts with ⟨-, hint⟩ | ⟨hzero, -⟩
    · exact absurd (close_mem_of_interrupted hint) hopen.2
    · exact hzero
  have hidle : ¬(.close ∉ as ∧ .next ∈ as ∧ ¬Completed r (outputs as) (as.count .get)) →
      OnceIf s.aborts (Interrupted r (as ++ [.close])) := fun hnot =>
    h.aborts.congr (interrupted_concat.trans (or_iff_left fun hnew => hnot hnew.2))
  cases hpoint : s.point with
  | fresh =>
    simp only [step, hpoint, Option.some.injEq] at hstep
    subst hstep
    rw [hpoint] at hreached htook
    exact ⟨hreader, hended htook, by simp [Reached], hidle fun hnew => hreached.1 hnew.2.1⟩
  | reading =>
    simp only [step, hpoint, Option.some.injEq] at hstep
    subst hstep
    obtain ⟨hzero, hint⟩ := hwork (.inl hpoint)
    rw [hpoint] at htook
    exact ⟨hreader, hended htook, by simp [Reached], .inl ⟨by simp [hzero], hint⟩⟩
  | yielded =>
    simp only [step, hpoint, Option.some.injEq] at hstep
    subst hstep
    obtain ⟨hzero, hint⟩ := hwork (.inr hpoint)
    rw [hpoint] at htook
    exact ⟨hreader, hended htook, by simp [Reached], .inl ⟨by simp [hzero], hint⟩⟩
  | completed =>
    simp only [step, hpoint, Option.some.injEq] at hstep
    subst hstep
    rw [hpoint] at hreached
    refine ⟨hreader, hended htook, ?_, hidle fun hnew => hnew.2.2 hreached⟩
    rw [hpoint]
    unfold Reached
    rw [houtputs, hcount]
    exact hreached
  | closed =>
    simp only [step, hpoint, Option.some.injEq] at hstep
    subst hstep
    rw [hpoint] at hreached
    refine ⟨hreader, hended htook, ?_, hidle fun hnew => hnew.1 hreached⟩
    rw [hpoint]
    simp [Reached]

theorem follows_run (hrun : run step (new r) as = some s) : s.Follows r as := by
  induction as using List.reverseRecOn generalizing s with
  | nil =>
    cases hrun
    refine ⟨Reader.follows_new r, ⟨Nat.le_refl 0, rfl⟩, ⟨by simp, by simp⟩, .inr ⟨rfl, ?_⟩⟩
    intro hint
    simpa using close_mem_of_interrupted hint
  | append_singleton as a ih =>
    obtain ⟨t, ht, hstep⟩ := run_concat hrun
    cases a with
    | output o => exact (ih ht).output hstep
    | next => exact (ih ht).next hstep
    | get => exact (ih ht).get hstep
    | close => exact (ih ht).close hstep

/-- The chunks are the outputs of the request in their order, all of them if the generator came to
its end. It aborts the request, once, if and only if it is closed after its first chunk was asked
for and before it has read the end. -/
theorem streaming_aborts_iff (hrun : run step (new r) as = some s) :
    s.sent.map some <+: received r (outputs as) ∧
      (s.point = .completed → s.sent.map some ++ [none] = received r (outputs as)) ∧
      s.aborts ≤ 1 ∧ (s.aborts = 1 ↔ Interrupted r as) := by
  have h := follows_run hrun
  refine ⟨h.took.isPrefix, fun hpoint => ?_, h.aborts.spec⟩
  exact (h.took.all (decide_eq_true hpoint)).symm

/-- Two users leave: one while the first chunk is on its way, the other before it was asked for. -/
theorem streaming_aborts_iff_interrupted :
    (∃ s, run step (new "r") [.next, .output ⟨"r", false, 0⟩, .get, .close] = some s ∧
      s.aborts = 1) ∧
    ∃ s, run step (new "r") [.output ⟨"r", false, 0⟩, .close] = some s ∧ s.aborts ≠ 1 := by
  refine ⟨⟨_, rfl, ?_⟩, ⟨_, rfl, ?_⟩⟩
  · refine (@streaming_aborts_iff _ [.next, .output ⟨"r", false, 0⟩, .get, .close] "r"
      rfl).2.2.2.mpr ⟨[.next, .output ⟨"r", false, 0⟩, .get], [], rfl, by decide, by decide, ?_⟩
    rintro ⟨hended, -⟩
    revert hended
    decide
  · rw [Ne, (@streaming_aborts_iff _ [.output ⟨"r", false, 0⟩, .close] "r" rfl).2.2.2]
    intro hint
    rcases interrupted_concat.mp (show Interrupted "r" ([.output ⟨"r", false, 0⟩] ++ [.close])
      from hint) with hint | ⟨-, -, hnext, -⟩
    · exact absurd (close_mem_of_interrupted hint) (by decide)
    · exact absurd hnext (by decide)

end StreamResults

/-! ### The handler with one response -/

inductive Reply
  | json (finalOutput : RequestOutput)
  /-- Status code 499. -/
  | disconnected
  deriving DecidableEq

inductive GeneratePoint
  | reading
  | checking (o : RequestOutput)
  | aborting
  | replied (reply : Reply)
  /-- `final_output` was `None` at the end. -/
  | assertionError
  deriving DecidableEq

structure Generate extends Reader where
  finalOutput : Option RequestOutput := none
  connected : Bool := true
  point : GeneratePoint := .reading
  aborts : ℕ := 0

/-- The user may leave at any time, of which the handler learns when it asks. -/
inductive GenerateAction
  | output (o : RequestOutput)
  | disconnect
  | get
  | isDisconnected
  | aborted
  deriving DecidableEq

instance : Delivery GenerateAction where
  output?
    | .output o => some o
    | _ => none

namespace Generate

def new (requestId : String) : Generate where
  toReader := .new requestId

def step (s : Generate) : GenerateAction → Option Generate
  | .output o => (s.feed o).map fun t => { s with toReader := t }
  | .disconnect => some { s with connected := false }
  | .get =>
    if s.point = .reading then
      match s.toReader.get with
      | none => none
      | some (some o, t) => some { s with toReader := t, point := .checking o }
      | some (none, t) =>
        match s.finalOutput with
        | none => some { s with toReader := t, point := .assertionError }
        | some o => some { s with toReader := t, point := .replied (.json o) }
    else none
  | .isDisconnected =>
    match s.point with
    | .checking o =>
      if s.connected then some { s with finalOutput := some o, point := .reading }
      else some { s with point := .aborting, aborts := s.aborts + 1 }
    | _ => none
  | .aborted =>
    match s.point with
    | .aborting => some { s with point := .replied .disconnected }
    | _ => none

def Noticed (as : List GenerateAction) : Prop :=
  ∃ xs ys, as = xs ++ .isDisconnected :: ys ∧ .disconnect ∈ xs

variable {s s' : Generate} {a : GenerateAction} {as : List GenerateAction} {r : String}

theorem noticed_concat : Noticed (as ++ [a]) ↔
    Noticed as ∨ (a = .isDisconnected ∧ .disconnect ∈ as) :=
  exists_cut_concat

/-- What has been taken, with the output that is being checked. -/
def Holds (queue : List (Option RequestOutput)) (s : Generate) : GeneratePoint → Prop
  | .reading => ∃ xs, Took queue s.taken xs false ∧ s.finalOutput = xs.getLast?
  | .checking o => ∃ xs, Took queue s.taken (xs ++ [o]) false
  | .aborting => ∃ xs, Took queue s.taken xs false
  | .replied .disconnected => ∃ xs, Took queue s.taken xs false
  | .replied (.json o) => ∃ xs, Took queue s.taken (xs ++ [o]) true
  | .assertionError => False

/-- The points after the user was found to be gone. -/
def Gone : GeneratePoint → Prop
  | .aborting => True
  | .replied .disconnected => True
  | _ => False

structure Follows (s : Generate) (r : String) (as : List GenerateAction) : Prop where
  reader : s.toReader.Follows r as (as.count .get)
  holds : Holds (received r (outputs as)) s s.point
  connected : s.connected = false ↔ .disconnect ∈ as
  gone : Gone s.point ↔ Noticed as
  aborts : OnceIf s.aborts (Gone s.point)

theorem noticed_concat_of_ne (ha : a ≠ .isDisconnected) : Noticed (as ++ [a]) ↔ Noticed as := by
  rw [noticed_concat]
  simp [ha]

theorem Holds.of_eq {queue : List (Option RequestOutput)} {p : GeneratePoint}
    (h : Holds queue s p) (htaken : s'.taken = s.taken) (hfinal : s'.finalOutput = s.finalOutput) :
    Holds queue s' p := by
  unfold Holds at h ⊢
  rw [htaken, hfinal]
  exact h

theorem Holds.append {queue more : List (Option RequestOutput)} {p : GeneratePoint}
    (h : Holds queue s p) : Holds (queue ++ more) s p := by
  cases p with
  | reading =>
    obtain ⟨xs, htook, hlast⟩ := h
    exact ⟨xs, htook.append, hlast⟩
  | checking o =>
    obtain ⟨xs, htook⟩ := h
    exact ⟨xs, htook.append⟩
  | aborting =>
    obtain ⟨xs, htook⟩ := h
    exact ⟨xs, htook.append⟩
  | replied reply =>
    cases reply with
    | json o =>
      obtain ⟨xs, htook⟩ := h
      exact ⟨xs, htook.append⟩
    | disconnected =>
      obtain ⟨xs, htook⟩ := h
      exact ⟨xs, htook.append⟩
  | assertionError => exact h

theorem Follows.output (h : s.Follows r as) {o : RequestOutput}
    (hstep : s.step (.output o) = some s') : s'.Follows r (as ++ [.output o]) := by
  obtain ⟨t, hfeed, rfl⟩ := Option.map_eq_some_iff.mp hstep
  have houtputs : outputs (as ++ [.output o]) = outputs as ++ [o] := outputs_concat
  have hcount : (as ++ [GenerateAction.output o]).count .get = as.count .get := by simp
  have hsame : Noticed (as ++ [.output o]) ↔ Noticed as := noticed_concat_of_ne (by simp)
  obtain ⟨hreader, htaken⟩ := h.reader.feed (a := GenerateAction.output o) rfl hfeed
  refine ⟨hcount ▸ hreader, ?_, by simpa using h.connected, h.gone.trans hsame.symm, h.aborts⟩
  rw [houtputs, received_concat]
  have hholds : Holds (received r (outputs as)) { s with toReader := t } s.point :=
    h.holds.of_eq htaken rfl
  exact hholds.append

theorem Follows.turn (h : s.Follows r as) (ha : Delivery.output? a = none) (hget : a ≠ .get)
    (hreader : s'.toReader = s.toReader)
    (holds : Holds (received r (outputs as)) s' s'.point)
    (connected : s'.connected = false ↔ .disconnect ∈ as ++ [a])
    (gone : Gone s'.point ↔ Noticed (as ++ [a])) (aborts : OnceIf s'.aborts (Gone s'.point)) :
    s'.Follows r (as ++ [a]) where
  reader := by
    have hcount : (as ++ [a]).count .get = as.count .get := by simp [hget]
    rw [hreader, hcount]
    exact h.reader.turn ha
  holds := by
    rw [outputs_concat, ha, Option.toList_none, List.append_nil]
    exact holds
  connected := connected
  gone := gone
  aborts := aborts

theorem Follows.disconnect (h : s.Follows r as) (hstep : s.step .disconnect = some s') :
    s'.Follows r (as ++ [.disconnect]) := by
  cases hstep
  have hsame : Noticed (as ++ [.disconnect]) ↔ Noticed as := noticed_concat_of_ne (by simp)
  exact h.turn rfl (by simp) rfl (h.holds.of_eq rfl rfl) (by simp) (h.gone.trans hsame.symm)
    h.aborts

theorem Follows.get (h : s.Follows r as) (hstep : s.step .get = some s') :
    s'.Follows r (as ++ [.get]) := by
  simp only [step, Option.ite_none_right_eq_some] at hstep
  obtain ⟨hpoint, hstep⟩ := hstep
  have houtputs : outputs (as ++ [GenerateAction.get]) = outputs as := by
    simp [outputs_concat, Delivery.output?]
  have hsame : Noticed (as ++ [.get]) ↔ Noticed as := noticed_concat_of_ne (by simp)
  have hconnected : s.connected = false ↔ .disconnect ∈ as ++ [.get] := by
    simpa using h.connected
  have hunseen : ¬Noticed (as ++ [.get]) := by
    rw [hsame, ← h.gone, hpoint]
    exact id
  have haborts : OnceIf s.aborts (Gone .reading) := hpoint ▸ h.aborts
  obtain ⟨xs, htook, hlast⟩ : Holds (received r (outputs as)) s .reading := hpoint ▸ h.holds
  cases hget : s.toReader.get with
  | none => simp [hget] at hstep
  | some next =>
    obtain ⟨item, t⟩ := next
    obtain ⟨hitem, htaken, hreader⟩ := h.reader.get hget
    have hreader' : t.Follows r (as ++ [.get]) ((as ++ [GenerateAction.get]).count .get) := by
      simpa using hreader.turn (a := GenerateAction.get) rfl
    cases item with
    | some o =>
      simp only [hget, Option.some.injEq] at hstep
      subst hstep
      refine ⟨hreader', ⟨xs, ?_⟩, hconnected, iff_of_false id hunseen, haborts⟩
      rw [houtputs, htaken]
      exact htook.get_output hitem
    | none =>
      have hend := htook.get_end hitem
      -- the finished output comes before the end, so that there is one to answer with
      obtain ⟨ys, o, hys⟩ : ∃ ys o, xs = ys ++ [o] := by
        have hall := hend.all rfl
        obtain ⟨zs, o, hzs⟩ := received_of_ended (hend.completed_iff.mpr rfl).1
        have hmap : List.map some xs = List.map some (zs ++ [o]) := by
          have heq : List.map some xs ++ [none] = List.map some (zs ++ [o]) ++ [none] := by
            rw [← hall, hzs]
            simp
          exact List.append_cancel_right heq
        exact ⟨zs, o, (List.map_injective_iff.mpr (Option.some_injective _)) hmap⟩
      have hfinal : s.finalOutput = some o := by simp [hlast, hys]
      simp only [hget, hfinal, Option.some.injEq] at hstep
      subst hstep
      refine ⟨hreader', ⟨ys, ?_⟩, hconnected, iff_of_false id hunseen, haborts⟩
      rw [houtputs, htaken, ← hys]
      exact hend

theorem Follows.isDisconnected (h : s.Follows r as) (hstep : s.step .isDisconnected = some s') :
    s'.Follows r (as ++ [.isDisconnected]) := by
  simp only [step] at hstep
  split at hstep
  · rename_i o hpoint
    have hconnected : s.connected = false ↔ .disconnect ∈ as ++ [.isDisconnected] := by
      simpa using h.connected
    have hunseen : ¬Noticed as := by
      rw [← h.gone, hpoint]
      exact id
    have haborts : OnceIf s.aborts (Gone (.checking o)) := hpoint ▸ h.aborts
    have hseen : Noticed (as ++ [.isDisconnected]) ↔ s.connected = false := by
      rw [noticed_concat, h.connected]
      simp [hunseen]
    obtain ⟨xs, htook⟩ : Holds (received r (outputs as)) s (.checking o) := hpoint ▸ h.holds
    split_ifs at hstep with hconn
    · cases hstep
      have hnot : ¬Noticed (as ++ [.isDisconnected]) := by
        rw [hseen, hconn]
        simp
      exact h.turn rfl (by simp) rfl ⟨xs ++ [o], htook, by simp⟩ hconnected
        (iff_of_false id hnot) haborts
    · cases hstep
      have hyes : Noticed (as ++ [.isDisconnected]) := by
        rw [hseen]
        simpa using hconn
      exact h.turn rfl (by simp) rfl ⟨xs ++ [o], htook⟩ hconnected
        (iff_of_true trivial hyes) (.inl ⟨by simpa [OnceIf, Gone] using haborts, trivial⟩)
  · cases hstep

theorem Follows.aborted (h : s.Follows r as) (hstep : s.step .aborted = some s') :
    s'.Follows r (as ++ [.aborted]) := by
  simp only [step] at hstep
  split at hstep
  · rename_i hpoint
    cases hstep
    have hsame : Noticed (as ++ [.aborted]) ↔ Noticed as := noticed_concat_of_ne (by simp)
    obtain ⟨xs, htook⟩ : Holds (received r (outputs as)) s .aborting := hpoint ▸ h.holds
    have hseen : Noticed as := h.gone.mp (hpoint ▸ trivial)
    exact h.turn rfl (by simp) rfl ⟨xs, htook⟩ (by simpa using h.connected)
      (iff_of_true trivial (hsame.mpr hseen))
      (h.aborts.congr (iff_of_true trivial (h.gone.mpr hseen)))
  · cases hstep

theorem follows_run (hrun : run step (new r) as = some s) : s.Follows r as := by
  induction as using List.reverseRecOn generalizing s with
  | nil =>
    cases hrun
    have hunseen : ¬Noticed [] := by rintro ⟨xs, ys, heq, -⟩; simp at heq
    refine ⟨Reader.follows_new r, ⟨[], ⟨Nat.le_refl 0, rfl⟩, rfl⟩, by simp [new], ?_, ?_⟩
    · exact iff_of_false id hunseen
    · exact .inr ⟨rfl, id⟩
  | append_singleton as a ih =>
    obtain ⟨t, ht, hstep⟩ := run_concat hrun
    cases a with
    | output o => exact (ih ht).output hstep
    | disconnect => exact (ih ht).disconnect hstep
    | get => exact (ih ht).get hstep
    | isDisconnected => exact (ih ht).isDisconnected hstep
    | aborted => exact (ih ht).aborted hstep

/-- Whoever has read the end answers with the output before it. -/
theorem Follows.replied_of_completed (h : s.Follows r as)
    (hcompleted : Completed r (outputs as) (as.count .get)) :
    ∃ o xs, s.point = .replied (.json o) ∧
      received r (outputs as) = List.map some xs ++ [some o, none] := by
  rw [← h.reader.gets] at hcompleted
  have hholds := h.holds
  -- at every other point the end has not been read
  have hnot : ∀ ys, ¬Took (received r (outputs as)) s.taken ys false :=
    fun ys htook => Bool.false_ne_true (htook.completed_iff.mp hcompleted)
  cases hpoint : s.point with
  | reading =>
    rw [hpoint] at hholds
    obtain ⟨ys, htook, -⟩ := hholds
    exact absurd htook (hnot ys)
  | checking o =>
    rw [hpoint] at hholds
    obtain ⟨ys, htook⟩ := hholds
    exact absurd htook (hnot _)
  | aborting =>
    rw [hpoint] at hholds
    obtain ⟨ys, htook⟩ := hholds
    exact absurd htook (hnot ys)
  | assertionError =>
    rw [hpoint] at hholds
    exact hholds.elim
  | replied reply =>
    rw [hpoint] at hholds
    cases reply with
    | disconnected =>
      obtain ⟨ys, htook⟩ := hholds
      exact absurd htook (hnot ys)
    | json o =>
      obtain ⟨xs, htook⟩ := hholds
      exact ⟨o, xs, rfl, by simp [htook.all rfl]⟩

/-- The handler aborts the request, once, if and only if it checks after the user has gone. It
answers with an output if and only if it has read all of the stream, and that is the last one; the
assertion that there is one never fails. -/
theorem generate_replies_iff (hrun : run step (new r) as = some s) :
    s.point ≠ .assertionError ∧ s.aborts ≤ 1 ∧ (s.aborts = 1 ↔ Noticed as) ∧
      ∀ o, s.point = .replied (.json o) ↔ Completed r (outputs as) (as.count .get) ∧
        ∃ xs, received r (outputs as) = List.map some xs ++ [some o, none] := by
  have h := follows_run hrun
  refine ⟨?_, (h.aborts.congr h.gone.symm).spec.1, (h.aborts.congr h.gone.symm).spec.2,
    fun o => ⟨fun hpoint => ?_, ?_⟩⟩
  · intro hpoint
    have hholds := h.holds
    rw [hpoint] at hholds
    exact hholds
  · obtain ⟨xs, htook⟩ : Holds (received r (outputs as)) s (.replied (.json o)) :=
      hpoint ▸ h.holds
    rw [← h.reader.gets]
    exact ⟨htook.completed_iff.mpr rfl, xs, by simp [htook.all rfl]⟩
  · rintro ⟨hcompleted, xs, hxs⟩
    obtain ⟨p, ys, hpoint, hys⟩ := h.replied_of_completed hcompleted
    have hlast := (List.append_inj' (hys.symm.trans hxs) rfl).2
    cases hlast
    exact hpoint

/-- The user leaves after the only output was checked and gets an answer all the same. -/
def late : List GenerateAction :=
  [.output ⟨"r", true, 0⟩, .get, .isDisconnected, .disconnect, .get]

theorem generate_replies_iff_late : ∃ s, run step (new "r") late = some s ∧
    s.point = .replied (.json ⟨"r", true, 0⟩) ∧ s.aborts ≠ 1 := by
  obtain ⟨s, hs⟩ : ∃ s, run step (new "r") late = some s := ⟨_, rfl⟩
  obtain ⟨-, -, haborts, hreply⟩ := generate_replies_iff hs
  refine ⟨s, hs, (hreply _).mpr ⟨⟨by decide, by decide⟩, [], by decide⟩, ?_⟩
  rw [Ne, haborts]
  rintro ⟨xs, ys, heq, hxs⟩
  cases hs
  exact absurd (haborts.mpr ⟨xs, ys, heq, hxs⟩) (by decide)

end Generate
end Llumnix.Client
