import Mathlib.Data.Nat.Notation
import Llumnix.Machine.Run

/-! Delivery of the generated tokens to the API server across a V1 migration. -/
namespace Llumnix.V1.Delivery

/-- The frontend stream of a request and the chunk its `_forward_v1_outputs` task holds
between taking it from the stream and putting it to the API server queue. -/
structure Forwarder (τ : Type) where
  stream : List (List τ)
  held : Option (List τ)
  deriving DecidableEq, Repr

namespace Forwarder
variable {τ : Type} {f f' : Forwarder τ}

def empty : Forwarder τ := ⟨[], none⟩

def push (f : Forwarder τ) (chunk : List τ) : Forwarder τ :=
  { f with stream := f.stream ++ [chunk] }

/-- `async for output in request`. -/
def take (f : Forwarder τ) : Option (Forwarder τ) :=
  match f.held, f.stream with
  | none, chunk :: rest => some ⟨rest, some chunk⟩
  | _, _ => none

/-- `_put_v1_outputs([output], server_info)`. -/
def put (f : Forwarder τ) : Option (List τ × Forwarder τ) :=
  f.held.map fun chunk => (chunk, { f with held := none })

def drained (f : Forwarder τ) : Bool := f.held.isNone && f.stream.isEmpty

def pending (f : Forwarder τ) : List τ := f.held.getD [] ++ f.stream.flatten

@[simp] theorem pending_push (f : Forwarder τ) (chunk : List τ) :
    (f.push chunk).pending = f.pending ++ chunk := by
  simp [pending, push]

theorem pending_take (h : f.take = some f') : f'.pending = f.pending := by
  unfold take at h
  split at h
  · next hheld hstream =>
    cases h
    simp [pending, hheld, hstream]
  · cases h

theorem pending_put {chunk : List τ} (h : f.put = some (chunk, f')) :
    f.pending = chunk ++ f'.pending := by
  obtain ⟨c, hheld, heq⟩ := Option.map_eq_some_iff.mp h
  cases heq
  simp [pending, hheld]

theorem pending_of_drained (h : f.drained = true) : f.pending = [] := by
  simp only [drained, Bool.and_eq_true, Option.isNone_iff_eq_none, List.isEmpty_iff] at h
  simp [pending, h.1, h.2]

end Forwarder

/-- How far the migration of the request has come. -/
inductive Phase
  | running
  | frozen
  | committedIn
  | registered
  | committedOut
  | finished
  deriving DecidableEq, Repr

structure State (τ : Type) where
  phase : Phase
  source : Forwarder τ
  target : Forwarder τ
  /-- The request's tokens, by whichever engine generated them. -/
  generated : List τ
  /-- What the API server queue received. -/
  queue : List τ
  deriving DecidableEq, Repr

inductive Action (τ : Type)
  | sourceOutput (chunk : List τ)
  | freeze
  | commitIn
  | register
  | commitOut
  | finish
  | targetOutput (chunk : List τ)
  | sourceTake
  | sourcePut
  | targetTake
  | targetPut

namespace State
variable {τ : Type} {s s' : State τ}

def initial : State τ := ⟨.running, .empty, .empty, [], []⟩

/-- The next step of `_migrate_v1_request`. -/
def advance (s : State τ) (before after : Phase) : Option (State τ) :=
  if s.phase = before then some { s with phase := after } else none

/-- An output of the target engine between its commit and `register_migrated_request` has no
frontend stream and is dropped. `finish_migrated_out` cancels the source forwarder, whatever
it still holds. -/
def step (s : State τ) : Action τ → Option (State τ)
  | .sourceOutput chunk =>
      if s.phase = .running then
        some { s with generated := s.generated ++ chunk, source := s.source.push chunk }
      else none
  | .freeze => s.advance .running .frozen
  | .commitIn => s.advance .frozen .committedIn
  | .register => s.advance .committedIn .registered
  | .commitOut => s.advance .registered .committedOut
  | .finish => (s.advance .committedOut .finished).map fun s => { s with source := .empty }
  | .targetOutput chunk =>
      match s.phase with
      | .running | .frozen => none
      | .committedIn => some { s with generated := s.generated ++ chunk }
      | _ => some { s with generated := s.generated ++ chunk, target := s.target.push chunk }
  | .sourceTake => s.source.take.map fun f => { s with source := f }
  | .sourcePut => s.source.put.map fun x => { s with source := x.2, queue := s.queue ++ x.1 }
  | .targetTake => s.target.take.map fun f => { s with target := f }
  | .targetPut => s.target.put.map fun x => { s with target := x.2, queue := s.queue ++ x.1 }

/-- The target generates nothing before its frontend stream is registered, and the source
forwarder has delivered everything when the target delivers and when it is cancelled. -/
def Orderly (s : State τ) : Action τ → Prop
  | .targetOutput _ => s.phase ≠ .committedIn
  | .targetPut | .finish => s.source.drained = true
  | _ => True

instance (s : State τ) : (a : Action τ) → Decidable (s.Orderly a)
  | .targetOutput _ => inferInstanceAs (Decidable (s.phase ≠ .committedIn))
  | .targetPut | .finish => inferInstanceAs (Decidable (s.source.drained = true))
  | .sourceOutput _ | .freeze | .commitIn | .register | .commitOut | .sourceTake | .sourcePut
  | .targetTake => inferInstanceAs (Decidable True)

/-- The migration is over and the target forwarder has caught up. -/
def Complete (s : State τ) : Prop := s.phase = .finished ∧ s.target.drained = true

/-- Nothing is lost, and what is on its way arrives in order. -/
structure Sound (s : State τ) : Prop where
  tokens : s.queue ++ s.source.pending ++ s.target.pending = s.generated
  target : s.phase = .running → s.target.pending = []
  source : s.phase = .finished → s.source.pending = []

theorem advance_eq {p q : Phase} (h : s.advance p q = some s') :
    s.phase = p ∧ s' = { s with phase := q } := by
  unfold advance at h
  split at h
  · next hp => exact ⟨hp, (Option.some.inj h).symm⟩
  · cases h

theorem sound_advance {p q : Phase} (h : Sound s) (hs : s.advance p q = some s') (hr : q ≠ .running)
    (hf : q ≠ .finished) : Sound s' := by
  obtain ⟨-, rfl⟩ := advance_eq hs
  exact ⟨h.tokens, fun hq => absurd hq hr, fun hq => absurd hq hf⟩

theorem sound_finish (h : Sound s) (hd : s.source.drained = true) (hs : s.step .finish = some s') :
    Sound s' := by
  obtain ⟨t, ht, rfl⟩ := Option.map_eq_some_iff.mp hs
  obtain ⟨-, rfl⟩ := advance_eq ht
  have htokens := h.tokens
  rw [Forwarder.pending_of_drained hd] at htokens
  exact ⟨htokens, nofun, fun _ => rfl⟩

theorem sound_sourceOutput {chunk : List τ} (h : Sound s)
    (hs : s.step (.sourceOutput chunk) = some s') : Sound s' := by
  simp only [step] at hs
  split at hs
  · next hp =>
    cases hs
    have htarget := h.target hp
    have htokens := h.tokens
    rw [htarget, List.append_nil] at htokens
    refine ⟨?_, fun _ => htarget, fun hq => ?_⟩
    · simp [htarget, ← htokens]
    · rw [hp] at hq
      cases hq
  · cases hs

theorem sound_targetOutput {chunk : List τ} (h : Sound s) (hp : s.phase ≠ .committedIn)
    (hs : s.step (.targetOutput chunk) = some s') : Sound s' := by
  -- the stream is registered: only the phases after `register` are left
  have hpush : s.phase ≠ .running ∧
      s' = { s with generated := s.generated ++ chunk, target := s.target.push chunk } := by
    cases hphase : s.phase <;> simp_all [step]
  obtain ⟨hrun, rfl⟩ := hpush
  refine ⟨?_, fun hq => absurd hq hrun, h.source⟩
  simp [← h.tokens]

theorem sound_sourceTake (h : Sound s) (hs : s.step .sourceTake = some s') : Sound s' := by
  obtain ⟨f, hf, rfl⟩ := Option.map_eq_some_iff.mp hs
  have hpending := Forwarder.pending_take hf
  refine ⟨?_, h.target, fun hq => ?_⟩
  · change s.queue ++ f.pending ++ s.target.pending = s.generated
    rw [hpending, h.tokens]
  · exact hpending.trans (h.source hq)

theorem sound_sourcePut (h : Sound s) (hs : s.step .sourcePut = some s') : Sound s' := by
  obtain ⟨⟨chunk, f⟩, hf, rfl⟩ := Option.map_eq_some_iff.mp hs
  have hpending := Forwarder.pending_put hf
  refine ⟨?_, h.target, fun hq => ?_⟩
  · have htokens := h.tokens
    rw [hpending] at htokens
    simpa using htokens
  · have := h.source hq
    rw [hpending] at this
    exact (List.append_eq_nil_iff.mp this).2

theorem sound_targetTake (h : Sound s) (hs : s.step .targetTake = some s') : Sound s' := by
  obtain ⟨f, hf, rfl⟩ := Option.map_eq_some_iff.mp hs
  have hpending := Forwarder.pending_take hf
  refine ⟨?_, fun hq => hpending.trans (h.target hq), h.source⟩
  change s.queue ++ s.source.pending ++ f.pending = s.generated
  rw [hpending, h.tokens]

theorem sound_targetPut (h : Sound s) (hd : s.source.drained = true)
    (hs : s.step .targetPut = some s') : Sound s' := by
  obtain ⟨⟨chunk, f⟩, hf, rfl⟩ := Option.map_eq_some_iff.mp hs
  have hpending := Forwarder.pending_put hf
  have hsource := Forwarder.pending_of_drained hd
  refine ⟨?_, fun hq => ?_, h.source⟩
  · have htokens := h.tokens
    rw [hpending, hsource] at htokens
    simpa [hsource] using htokens
  · have := h.target hq
    rw [hpending] at this
    exact (List.append_eq_nil_iff.mp this).2

theorem sound_step {a : Action τ} (h : Sound s) (ha : s.Orderly a) (hs : s.step a = some s') :
    Sound s' := by
  cases a with
  | sourceOutput chunk => exact sound_sourceOutput h hs
  | freeze => exact sound_advance h hs nofun nofun
  | commitIn => exact sound_advance h hs nofun nofun
  | register => exact sound_advance h hs nofun nofun
  | commitOut => exact sound_advance h hs nofun nofun
  | finish => exact sound_finish h ha hs
  | targetOutput chunk => exact sound_targetOutput h ha hs
  | sourceTake => exact sound_sourceTake h hs
  | sourcePut => exact sound_sourcePut h hs
  | targetTake => exact sound_targetTake h hs
  | targetPut => exact sound_targetPut h ha hs

/-- In an orderly run the API server receives the request's tokens exactly once and in
order: a prefix at any time, all of them once the migration is over. -/
theorem delivered_exactly_once {s : State τ} {as : List (Action τ)}
    (hok : Machine.Meets step Orderly .initial as) (hrun : Machine.run step .initial as = some s) :
    s.queue <+: s.generated ∧ (s.Complete → s.queue = s.generated) := by
  have hinit : Sound (initial : State τ) := ⟨rfl, fun _ => rfl, fun _ => rfl⟩
  have h : Sound s := Machine.run_invariant (fun _ _ _ => sound_step) hinit hok hrun
  constructor
  · exact ⟨s.source.pending ++ s.target.pending, by rw [← List.append_assoc, h.tokens]⟩
  · rintro ⟨hphase, hdrained⟩
    have htokens := h.tokens
    rwa [h.source hphase, Forwarder.pending_of_drained hdrained, List.append_nil,
      List.append_nil] at htokens

/-- A migration in which the source forwarder keeps up and the target waits for its stream. -/
def orderlyMigration : List (Action ℕ) :=
  [.sourceOutput [1, 2], .sourceTake, .freeze, .sourcePut, .commitIn, .register,
    .targetOutput [3], .targetTake, .commitOut, .targetPut, .finish]

theorem delivered_exactly_once_sample : ∃ s : State ℕ,
    Machine.run step .initial orderlyMigration = some s ∧ s.Complete ∧ s.queue = s.generated := by
  have hok : Machine.Meets step Orderly (.initial : State ℕ) orderlyMigration := by decide
  exact ⟨_, rfl, ⟨rfl, rfl⟩, (delivered_exactly_once hok rfl).2 ⟨rfl, rfl⟩⟩

/-- Three migrations that go through: the target generates a token before it is registered,
the source forwarder is cancelled with a chunk in its hands, the target overtakes it. -/
theorem tokens_lost_or_reordered :
    (∃ s : State ℕ, Machine.run step .initial [.sourceOutput [1], .sourceTake, .sourcePut, .freeze,
      .commitIn, .targetOutput [2], .register, .commitOut, .finish] = some s ∧ s.Complete ∧
      s.generated = [1, 2] ∧ s.queue = [1]) ∧
    (∃ s : State ℕ, Machine.run step .initial [.sourceOutput [1], .sourceTake, .freeze, .commitIn,
      .register, .commitOut, .finish] = some s ∧ s.Complete ∧
      s.generated = [1] ∧ s.queue = []) ∧
    ∃ s : State ℕ, Machine.run step .initial [.sourceOutput [1], .sourceTake, .freeze, .commitIn,
      .register, .targetOutput [2], .targetTake, .targetPut, .sourcePut, .commitOut,
      .finish] = some s ∧ s.Complete ∧ s.generated = [1, 2] ∧ s.queue = [2, 1] :=
  ⟨⟨_, rfl, ⟨rfl, rfl⟩, rfl, rfl⟩, ⟨_, rfl, ⟨rfl, rfl⟩, rfl, rfl⟩, ⟨_, rfl, ⟨rfl, rfl⟩, rfl, rfl⟩⟩

end State
end Llumnix.V1.Delivery
