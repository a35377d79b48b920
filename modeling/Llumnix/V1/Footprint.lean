import Mathlib.Tactic.SplitIfs
import Llumnix.V1.Migrate

/-! Which calls and writes each coroutine can make. -/
namespace Llumnix.V1
open Coroutine

variable {F : (World → World) → Prop}

/-- Calls for pre-copy bookkeeping and liveness: they do nothing to the request. -/
def Method.auxiliary : Method → Bool
  | .migrationLayerNames | .incrementalBeginWire _ _ | .incrementalImmutableBlocks _
  | .incrementalPrepareInWire _ _ | .incrementalPreviewWire _ _ _
  | .incrementalSendLayerWire _ _ _ _ _ | .incrementalReceiveLayer _ _ _
  | .incrementalCommitInWire _ | .incrementalAppendWire _ _ _ | .incrementalAbort _
  | .isReady => true
  | _ => false

def Call.Auxiliary : Call → Prop
  | .rpc _ m => m.auxiliary = true
  | .sleep _ => True

theorem effect_auxiliary {m : Method} (h : m.auxiliary = true) (i : Side) :
    m.effect i = .keep := by
  cases m <;> first | cases i <;> rfl | cases h

/-- Appending a look-up to the log. -/
def IsLookup (f : World → World) : Prop := ∃ id found, f = fun w => w.log (.lookup id found)

theorem uses_rpc {K : Call → Prop} {i : Side} {m : Method} (h : K (.rpc i m)) :
    (rpc i m).Uses K F :=
  Prog.uses_call h

theorem uses_lookupInstance {K : Call → Prop} (id : String) :
    (lookupInstance id).Uses K IsLookup := by
  intro w
  dsimp only
  split_ifs
  · exact ⟨⟨id, true, rfl⟩, trivial⟩
  · exact ⟨⟨id, false, rfl⟩, trivial⟩

theorem uses_cleanupV1IncrementalPrecopy (p : Params) :
    (cleanupV1IncrementalPrecopy p).Uses Call.Auxiliary IsLookup := by
  refine ⟨?_, trivial⟩
  simp [Call.Auxiliary, Method.auxiliary]

theorem uses_probes (p : Params) :
    (checkInstanceError p).Uses (fun c => ∃ i, c = .rpc i .isReady) IsLookup := by
  refine Prog.uses_bind (uses_lookupInstance _) fun _ => ?_
  refine Prog.uses_bind (uses_lookupInstance _) fun _ => ⟨?_, trivial⟩
  simp

theorem uses_checkInstanceError (p : Params) :
    (checkInstanceError p).Uses Call.Auxiliary IsLookup := by
  refine (uses_probes p).mono (fun c hc => ?_) fun _ h => h
  obtain ⟨i, rfl⟩ := hc
  rfl

/-- The epoch with which a call opens a migration or a pre-copy session on the source. -/
def Call.opened : Call → Option ℕ
  | .rpc _ (.migrationPrepareOutWire _ epoch) | .rpc _ (.incrementalBeginWire _ epoch)
  | .rpc _ (.incrementalPreviewWire _ epoch _) | .rpc _ (.incrementalAppendWire _ epoch _) =>
      some epoch
  | _ => none

/-- The two calls that reach for the epoch after the one that was drawn. -/
def Call.previews : Call → Bool
  | .rpc _ (.incrementalPreviewWire ..) | .rpc _ (.incrementalAppendWire ..) => true
  | _ => false

def Call.OpensUnder (p : Params) (c : Call) : Prop :=
  ∀ epoch, c.opened = some epoch →
    epoch = p.epoch ∨ epoch = p.epoch + 1 ∧ c.previews = true

theorem Call.opensUnder_of_none {p : Params} {c : Call} (h : c.opened = none) :
    c.OpensUnder p := by
  intro epoch hc
  rw [h] at hc
  cases hc

theorem uses_precopy (p : Params) :
    (runV1IncrementalPrecopy p).Uses (fun c => c.Auxiliary ∧ c.OpensUnder p) IsLookup := by
  have hr : ∀ {i : Side} {m : Method}, m.auxiliary = true → (Call.rpc i m).OpensUnder p →
      (rpc i m).Uses (fun c => c.Auxiliary ∧ c.OpensUnder p) IsLookup :=
    fun hm hc => uses_rpc ⟨hm, hc⟩
  have hn : ∀ {i : Side} {m : Method}, m.auxiliary = true → (Call.rpc i m).opened = none →
      (rpc i m).Uses (fun c => c.Auxiliary ∧ c.OpensUnder p) IsLookup :=
    fun hm hc => hr hm (Call.opensUnder_of_none hc)
  have hnext : ∀ {c : Call}, c.opened = some (p.epoch + 1) → c.previews = true →
      c.OpensUnder p := fun hc hv epoch h => .inr ⟨Option.some.inj (h.symm.trans hc), hv⟩
  refine Prog.uses_tryCatch ?_ fun _ => Prog.uses_bind ?_ fun _ => trivial
  · refine Prog.uses_bind (hr rfl fun epoch h => .inl (Option.some.inj h).symm) fun session => ?_
    refine Prog.uses_bind (hn rfl rfl) fun ⟨sourceGroups, blockCounts⟩ => ?_
    dsimp only
    split_ifs
    · exact Prog.uses_bind (hn rfl rfl) fun _ => trivial
    refine Prog.uses_bind (hn rfl rfl) fun targetGroups => ?_
    split_ifs
    · exact Prog.uses_bind (hn rfl rfl) fun _ => Prog.uses_bind (hn rfl rfl) fun _ => trivial
    refine Prog.uses_bind (hr rfl (hnext rfl rfl)) fun preview => ?_
    refine Prog.uses_bind (hn rfl rfl) fun layers => ?_
    refine Prog.uses_bind (Prog.uses_forEach (fun layer => ?_) layers) fun _ => ?_
    · exact Prog.uses_bind (hn rfl rfl) fun _ => hn rfl rfl
    refine Prog.uses_bind (hn rfl rfl) fun _ => ?_
    exact Prog.uses_bind (hr rfl (hnext rfl rfl)) fun _ => trivial
  · refine ⟨?_, trivial⟩
    simp [Call.Auxiliary, Method.auxiliary, Call.OpensUnder, Call.opened]

theorem uses_runV1IncrementalPrecopy (p : Params) :
    (runV1IncrementalPrecopy p).Uses Call.Auxiliary IsLookup :=
  (uses_precopy p).mono (fun _ h => h.1) fun _ h => h

/-- The calls of the transfer loops. -/
def Call.Transfer : Call → Prop
  | .rpc .source (.migrationSendLayer ..) | .rpc .target (.migrationReceiveLayer ..) => True
  | _ => False

theorem uses_transferLayers (p : Params) (synced : List (ℕ × ℕ)) (src dst : List (List ℕ))
    (layers : List String) : (transferLayers p synced src dst layers).Uses Call.Transfer F := by
  refine Prog.uses_forEach (fun g => Prog.uses_forEach (fun layer => ?_) _) _
  exact Prog.uses_bind (uses_rpc trivial) fun _ => uses_rpc (m := .migrationReceiveLayer ..) trivial

theorem uses_cleanupV1Migration (p : Params) :
    (cleanupV1Migration p).Uses (· ∈ cleanupCalls p) IsLookup := by
  refine Prog.uses_bind (uses_lookupInstance _) fun _ => ?_
  exact Prog.uses_bind (uses_lookupInstance _) fun _ => ⟨fun c hc => hc, trivial⟩

theorem uses_handleFailure {K : Call → Prop} {p : Params} (hcheck : (checkInstanceError p).Uses K F)
    (hclean : (cleanupV1Migration p).Uses K F) (hsleep : ∀ n, K (.sleep n))
    (hcount : F World.countRetry) (hdrop : F World.dropRetries) (attempt : ℕ) (e : Exc) :
    (handleFailure p attempt e).Uses K F := by
  unfold handleFailure
  split_ifs
  · exact Prog.uses_bind hcheck fun _ => trivial
  · trivial
  · refine Prog.uses_bind hclean fun _ => ⟨hcount, ?_⟩
    exact Prog.uses_bind (Prog.uses_call (hsleep _)) fun _ => trivial
  · exact Prog.uses_bind hclean fun _ => ⟨hdrop, trivial⟩

theorem uses_cutover (p : Params) (synced : List (ℕ × ℕ)) :
    (cutover p synced).Uses (Call.OpensUnder p) F := by
  have hn : ∀ {i : Side} {m : Method}, (Call.rpc i m).opened = none →
      (rpc i m).Uses (Call.OpensUnder p) F :=
    fun h => uses_rpc (Call.opensUnder_of_none h)
  refine Prog.uses_bind (uses_rpc fun epoch h => .inl (Option.some.inj h).symm) fun wire => ?_
  refine Prog.uses_bind (hn rfl) fun dst => Prog.uses_bind (hn rfl) fun src => ?_
  refine Prog.uses_bind (hn rfl) fun layers => Prog.uses_bind ?_ fun _ => ?_
  · refine (uses_transferLayers p synced src dst layers).mono (fun c hc => ?_) fun _ h => h
    unfold Call.Transfer at hc
    split at hc
    · exact Call.opensUnder_of_none rfl
    · exact Call.opensUnder_of_none rfl
    · exact hc.elim
  refine Prog.uses_bind (hn rfl) fun _ => Prog.uses_bind (hn rfl) fun _ => ?_
  refine Prog.uses_bind (hn rfl) fun _ => Prog.uses_bind (hn rfl) fun _ => ?_
  split_ifs
  · refine ⟨?_, trivial⟩
    simp [Call.OpensUnder, Call.opened]
  · trivial

theorem uses_retryLoop {K : Call → Prop} {p : Params} (hlookup : ∀ id, (lookupInstance id).Uses K F)
    (hprecopy : (runV1IncrementalPrecopy p).Uses K F)
    (hcutover : ∀ synced, (cutover p synced).Uses K F)
    (hfailure : ∀ attempt e, (handleFailure p attempt e).Uses K F)
    (hrecord : F (World.recordMigrated p)) (n : ℕ) : (retryLoop p n).Uses K F := by
  have hattempt : ∀ attempt, (attemptOnce p attempt).Uses K F := by
    intro attempt
    refine Prog.uses_tryCatch (Prog.uses_bind ?_ fun _ => ⟨hrecord, trivial⟩) (hfailure attempt)
    refine Prog.uses_bind (hlookup _) fun _ => Prog.uses_bind (hlookup _) fun _ => ?_
    dsimp only
    split_ifs
    · exact Prog.uses_bind hprecopy hcutover
    · exact hcutover []
  induction n with
  | zero => trivial
  | succ n ih =>
    refine Prog.uses_bind (hattempt _) fun done => ?_
    cases done with
    | true => trivial
    | false => exact ih

end Llumnix.V1
