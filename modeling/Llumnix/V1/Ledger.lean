import Llumnix.V1.Protocol

/-! What the log of a run says about the request, and that the EngineCores agree with it. -/
namespace Llumnix.V1

variable {w w' : World} {s s' : Option MigrationState}

/-- Frozen on the source, committed on the target, released by the source. -/
@[ext] structure Ledger where
  frozen : Bool
  committed : Bool
  released : Bool
  deriving DecidableEq, Repr

namespace Ledger

def start : Ledger := ⟨false, false, false⟩

def apply (l : Ledger) : Effect → Ledger
  | .freeze => { l with frozen := true }
  | .activate => { l with committed := true }
  | .release => { l with frozen := false, released := true }
  | .unfreeze => { l with frozen := false }
  | .remove => { l with committed := false }
  | _ => l

def step (l : Ledger) : Event → Ledger
  | .served (.rpc i m) true _ => l.apply (m.effect i)
  | _ => l

/-- Frozen with no committed copy: only the source can resume the request. -/
def stranded (l : Ledger) : Bool := l.frozen && !l.committed

def settled (l : Ledger) : Bool := (!l.frozen && !l.released) || l.committed

end Ledger

def ledger (tr : List Event) : Ledger := tr.foldl Ledger.step .start

@[simp] theorem ledger_nil : ledger [] = .start := rfl

@[simp] theorem ledger_concat (tr : List Event) (ev : Event) :
    ledger (tr ++ [ev]) = (ledger tr).step ev := by
  simp [ledger, List.foldl_append]

namespace World

@[simp] theorem log_source (w : World) (ev : Event) : (w.log ev).source = w.source := rfl
@[simp] theorem log_target (w : World) (ev : Event) : (w.log ev).target = w.target := rfl
@[simp] theorem log_targetAlive (w : World) (ev : Event) :
    (w.log ev).targetAlive = w.targetAlive := rfl
@[simp] theorem log_targetLost (w : World) (ev : Event) :
    (w.log ev).targetLost = w.targetLost := rfl
@[simp] theorem log_trace (w : World) (ev : Event) : (w.log ev).trace = w.trace ++ [ev] := rfl

@[simp] theorem setState_trace (w : World) (i : Side) (s : Option MigrationState) :
    (w.setState i s).trace = w.trace := by cases i <;> rfl
@[simp] theorem setState_targetLost (w : World) (i : Side) (s : Option MigrationState) :
    (w.setState i s).targetLost = w.targetLost := by cases i <;> rfl

end World

theorem issueAll_eq (strict : Bool) (cs : List Call) (w : World) :
    (host strict).issueAll cs w = { w with trace := w.trace ++ cs.map .issued } := by
  induction cs generalizing w with
  | nil => simp [Coroutine.Host.issueAll]
  | cons c cs ih =>
    change (host strict).issueAll cs (w.log (.issued c)) = _
    rw [ih]
    simp [World.log]

theorem trace_of_env (h : EnvMoves w w') :
    w'.trace = w.trace ∧ (w.targetLost = true → w'.targetLost = true) := by
  cases h with
  | die => exact ⟨rfl, fun h => by simp [World.killTarget, h]⟩
  | register ids => exact ⟨rfl, id⟩
  | tick t _ => exact ⟨rfl, id⟩

theorem trace_of_serves {strict : Bool} {c : Call} {r : Except Exc c.Reply}
    (h : Serves strict c w r w') :
    ∃ effective, w'.trace = w.trace ++ [.served c effective r] ∧ w'.targetLost = w.targetLost ∧
      (effective = false → ∃ e, r = .error e) := by
  cases h with
  | sleep n => exact ⟨true, rfl, rfl, nofun⟩
  | dead i m _ msg => exact ⟨false, rfl, rfl, fun _ => ⟨_, rfl⟩⟩
  | done i m _ s r => exact ⟨true, by simp, by simp, nofun⟩
  | failed i m _ e => exact ⟨false, rfl, rfl, fun _ => ⟨_, rfl⟩⟩

theorem tables_of_serves {strict : Bool} {c : Call} {r : Except Exc c.Reply}
    (h : Serves strict c w r w') : w'.requestInstance = w.requestInstance ∧
      w'.requestInstances = w.requestInstances := by
  cases h with
  | done i m _ s r => cases i <;> exact ⟨rfl, rfl⟩
  | _ => exact ⟨rfl, rfl⟩

def Effect.side : Effect → Option Side
  | .freeze | .ship | .release | .unfreeze => some .source
  | .reserve | .fill | .activate | .dropImport | .remove => some .target
  | .keep => none

theorem effect_side (i : Side) (m : Method) :
    (m.effect i).side = some i ∨ m.effect i = .keep := by
  cases i <;> cases m <;> first | exact .inr rfl | exact .inl rfl | skip
  all_goals rename_i incoming; cases incoming <;> first | exact .inr rfl | exact .inl rfl

/-- The state of the request on the source, as the ledger has it. -/
def SourceAgrees (l : Ledger) (s : Option MigrationState) : Prop :=
  (s = some .running ∧ l.frozen = false ∧ l.released = false) ∨
    ((s = some .migratingOut ∨ s = some .outReady) ∧ l.frozen = true ∧ l.released = false) ∨
    (s = some .released ∧ l.frozen = false ∧ l.released = true)

/-- The state of the request on the target, as long as it did not die running it. -/
structure TargetAgrees (l : Ledger) (s : Option MigrationState) (alive lost : Bool) : Prop where
  committed : s = some .running → l.committed = true
  running : l.committed = true → lost = false → alive = true ∧ s = some .running

theorem sourceAgrees_apply {l : Ledger} {ef : Effect} (h : SourceAgrees l s)
    (hside : ef.side = some .source) (hm : ef.Moves s s') : SourceAgrees (l.apply ef) s' := by
  cases ef with
  | freeze => obtain ⟨rfl, rfl⟩ := hm; simp_all [SourceAgrees, Ledger.apply]
  | ship =>
    obtain ⟨rfl | rfl, rfl | rfl⟩ := hm <;> simpa [SourceAgrees, Ledger.apply] using h
  | release => obtain ⟨rfl, rfl⟩ := hm; simp [SourceAgrees, Ledger.apply]
  | unfreeze =>
    obtain ⟨rfl | rfl, rfl⟩ := hm <;> simp_all [SourceAgrees, Ledger.apply]
  | _ => simp [Effect.side] at hside

theorem targetAgrees_apply {l : Ledger} {lost : Bool} {ef : Effect} (h : TargetAgrees l s true lost)
    (hside : ef.side = some .target) (hm : ef.Moves s s') :
    TargetAgrees (l.apply ef) s' true lost := by
  obtain ⟨hc, hr⟩ := h
  cases ef with
  | reserve =>
    obtain ⟨rfl | rfl, rfl⟩ := hm <;> exact ⟨by simp, fun h hl => absurd (hr h hl).2 (by simp)⟩
  | fill =>
    obtain ⟨rfl | rfl, rfl | rfl⟩ := hm <;>
      exact ⟨by simp, fun h hl => absurd (hr h hl).2 (by simp)⟩
  | activate => obtain ⟨rfl, rfl⟩ := hm; exact ⟨fun _ => rfl, fun _ _ => ⟨rfl, rfl⟩⟩
  | dropImport =>
    obtain ⟨rfl | rfl, rfl⟩ := hm <;> exact ⟨by simp, fun h hl => absurd (hr h hl).2 (by simp)⟩
  | remove =>
    obtain rfl := hm
    exact ⟨by simp, fun h => by simp [Ledger.apply] at h⟩
  | _ => simp [Effect.side] at hside

theorem sourceAgrees_of_target {l : Ledger} {ef : Effect} (h : SourceAgrees l s)
    (hside : ef.side = some .target) : SourceAgrees (l.apply ef) s := by
  cases ef <;> simp [Effect.side] at hside <;> exact h

theorem targetAgrees_of_source {l : Ledger} {alive lost : Bool} {ef : Effect}
    (h : TargetAgrees l s alive lost) (hside : ef.side = some .source) :
    TargetAgrees (l.apply ef) s alive lost := by
  cases ef <;> simp [Effect.side] at hside <;> exact ⟨h.committed, h.running⟩

/-- The EngineCores hold what the log says. -/
structure Agrees (w : World) : Prop where
  source : SourceAgrees (ledger w.trace) w.source
  target : TargetAgrees (ledger w.trace) w.target w.targetAlive w.targetLost

theorem agrees_of_step_eq {ev : Event} (h : Agrees w)
    (he : (ledger w.trace).step ev = ledger w.trace) : Agrees (w.log ev) := by
  have ht : ledger (w.log ev).trace = ledger w.trace := by simp [he]
  constructor
  · rw [ht]; exact h.source
  · rw [ht]; exact h.target

theorem agrees_issue (c : Call) (h : Agrees w) : Agrees (w.log (.issued c)) :=
  agrees_of_step_eq h rfl

theorem agrees_lookup (id : String) (b : Bool) (h : Agrees w) : Agrees (w.log (.lookup id b)) :=
  agrees_of_step_eq h rfl

theorem agrees_done {i : Side} {m : Method} (r : Except Exc m.Reply) (h : Agrees w)
    (ha : w.alive i = true) (hs : (m.effect i).Moves (w.state i) s) :
    Agrees ((w.setState i s).log (.served (.rpc i m) true r)) := by
  have hl : ledger ((w.setState i s).log (.served (.rpc i m) true r)).trace =
      (ledger w.trace).apply (m.effect i) := by simp [Ledger.step]
  rcases effect_side i m with hside | hk
  · cases i with
    | source =>
      constructor
      · rw [hl]; exact sourceAgrees_apply h.source hside hs
      · rw [hl]; exact targetAgrees_of_source h.target hside
    | target =>
      have ht : TargetAgrees (ledger w.trace) w.target true w.targetLost := by
        rw [← show w.targetAlive = true from ha]; exact h.target
      constructor
      · rw [hl]; exact sourceAgrees_of_target h.source hside
      · rw [hl, show ((w.setState .target s).log _).targetAlive = true from ha]
        exact targetAgrees_apply ht hside hs
  · have hw : w.setState i s = w := by
      have : s = w.state i := by rw [hk] at hs; exact hs
      subst s
      cases i <;> rfl
    rw [hk] at hl
    constructor
    · rw [hl, hw]; exact h.source
    · rw [hl, hw]; exact h.target

theorem agrees_serve {strict : Bool} {c : Call} {r : Except Exc c.Reply} (h : Agrees w)
    (hs : Serves strict c w r w') : Agrees w' := by
  cases hs with
  | sleep n => exact agrees_of_step_eq h rfl
  | dead i m msg => exact agrees_of_step_eq h rfl
  | done i m _ s r ha hm => exact agrees_done r h ha hm
  | failed i m e => exact agrees_of_step_eq h rfl

theorem agrees_env (h : Agrees w) (he : EnvMoves w w') : Agrees w' := by
  cases he with
  | die =>
    refine ⟨h.source, by simp [World.killTarget], ?_⟩
    intro hc hl
    simp only [World.killTarget, Bool.or_eq_false_iff] at hl
    obtain ⟨ha, hr⟩ := h.target.running hc hl.1
    simp [ha, hr] at hl
  | register ids => exact ⟨h.source, h.target⟩
  | tick t _ => exact ⟨h.source, h.target⟩

/-- The request runs, or can be run, somewhere. -/
def Settled (w : World) : Prop :=
  w.source = some .running ∨ (w.targetAlive = true ∧ w.target = some .running)

theorem settled_iff (h : Agrees w) (hl : w.targetLost = false) :
    Settled w ↔ (ledger w.trace).settled = true := by
  have ht : (w.targetAlive = true ∧ w.target = some .running) ↔
      (ledger w.trace).committed = true :=
    ⟨fun ht => h.target.committed ht.2, fun hc => h.target.running hc hl⟩
  unfold Settled Ledger.settled
  rw [ht]
  rcases h.source with ⟨hs, hf, hr⟩ | ⟨hs, hf, hr⟩ | ⟨hs, hf, hr⟩
  · simp [hs, hf, hr]
  · rcases hs with hs | hs <;> simp [hs, hf]
  · simp [hs, hr]

end Llumnix.V1
