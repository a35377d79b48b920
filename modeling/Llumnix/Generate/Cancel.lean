import Llumnix.Generate.Ends
import Llumnix.Machine.Progress
import Mathlib.Data.Prod.Lex
import Mathlib.Order.WellFoundedSet

/-! A P/D request that is aborted while it waits is never submitted, and `generate` returns. -/
namespace Llumnix.Generate

open Machine Python Scheduler

variable {H : Type} {c : Call} {w w' : World H}

/-- How far a cancelled request is from its end: a look at the instances, then those that are
still to be probed, then a look at the roles. -/
def Point.rank : Point → ℕ ×ₗ ℕ
  | .noInstance => toLex (2, 0)
  | .probing left _ => toLex (1, left)
  | _ => toLex (0, 0)

/-- Ended, or at a point of a lower rank. -/
def Fades (w : World H) (r : ℕ ×ₗ ℕ) : Prop := Ended w ∨ w.point.rank < r

section Fades
variable {r : ℕ ×ₗ ℕ}

theorem fades_raise (w : World H) (e : Error) : Fades (w.raise e) r := .inl (.inr ⟨e, rfl⟩)

theorem fades_choose (hpd : c.pdV1 = true) (hwaiting : w.waiting = false)
    (hr : toLex (0, 0) < r) (x : Input) (blockHashes : List String) :
    Fades (w.choose c x blockHashes) r := by
  unfold World.choose
  rw [if_pos hpd]
  split
  · exact fades_raise _ .other
  · exact .inr hr
  · unfold World.selected
    simp only [hwaiting]
    exact .inl (.inl rfl)

theorem fades_probe (hpd : c.pdV1 = true) (hwaiting : w.waiting = false) (x : Input)
    {left : ℕ} (size : ℕ) (more : Bool) (hr : toLex (1, left) ≤ r) :
    Fades (w.probe c x left size more) r := by
  have hroles : toLex (0, 0) < r := by
    refine lt_of_lt_of_le ?_ hr
    exact Prod.Lex.toLex_lt_toLex.mpr (.inl Nat.zero_lt_one)
  unfold World.probe
  split
  · split
    · exact fades_choose hpd hwaiting hroles x []
    · exact fades_raise _ .other
    · rename_i left
      refine .inr (lt_of_lt_of_le ?_ hr)
      exact Prod.Lex.toLex_lt_toLex.mpr (.inr ⟨rfl, Nat.lt_succ_self left⟩)
  · exact fades_raise _ .other

theorem fades_waitInstances (hpd : c.pdV1 = true) (hwaiting : w.waiting = false) (x : Input) :
    Fades (w.waitInstances c x) (toLex (2, 0)) := by
  have hroles : toLex (0, 0) < (toLex (2, 0) : ℕ ×ₗ ℕ) :=
    Prod.Lex.toLex_lt_toLex.mpr (.inl Nat.zero_lt_two)
  unfold World.waitInstances
  split
  · rw [if_pos ⟨hpd, by simp [hwaiting]⟩]
    exact .inl (.inl rfl)
  · unfold World.findHashes
    split
    · exact fades_choose hpd hwaiting hroles x _
    · split
      · refine fades_probe hpd hwaiting x _ _ (le_of_lt ?_)
        exact Prod.Lex.toLex_lt_toLex.mpr (.inl Nat.one_lt_two)
      · exact fades_choose hpd hwaiting hroles x []

theorem fades_probed (hpd : c.pdV1 = true) (hwaiting : w.waiting = false) (x : Input)
    (left size : ℕ) : Fades (w.probed c x left size) (toLex (1, left)) := by
  have hroles : toLex (0, 0) < (toLex (1, left) : ℕ ×ₗ ℕ) :=
    Prod.Lex.toLex_lt_toLex.mpr (.inl Nat.zero_lt_one)
  unfold World.probed
  split
  · exact fades_choose hpd hwaiting hroles x _
  · exact fades_probe hpd hwaiting x size x.more le_rfl
  · split
    · exact fades_probe hpd hwaiting x size x.more le_rfl
    · exact fades_raise _ _

theorem fades_rolesWaited (h : Waits c w) (hpd : c.pdV1 = true) (hwaiting : w.waiting = false)
    (x : Input) (blockHashes : List String) : Fades (w.rolesWaited c x blockHashes) r := by
  have hset : w.event = some true := by
    rw [h.event, hpd, hwaiting]
    rfl
  unfold World.rolesWaited
  rw [if_pos hset]
  exact .inl (.inl rfl)

end Fades

def Cancelled (c : Call) (w : World H) : Prop := Inv c w ∧ w.cancelled = true

theorem cancelled_step {a : Action H} (h : Cancelled c w) (hstep : step c w a = some w') :
    Cancelled c w' := by
  refine ⟨inv_step h.1 hstep, ?_⟩
  by_cases ha : a = .abort
  · subst ha
    cases hstep
    change (w.cancelled || w.waiting) = true
    rw [h.2]
    rfl
  · exact (cancelled_of_not_abort h.1 ha hstep).trans h.2

theorem pd_of_cancelled (h : Waits c w) (hcancelled : w.cancelled = true) :
    c.pdV1 = true ∧ w.waiting = false := by
  rw [h.cancelled] at hcancelled
  simpa using hcancelled

theorem not_gone_of_cancelled (hcancelled : w.cancelled = true) : ¬Gone w := fun hgone => by
  rw [hgone.cancelled] at hcancelled
  cases hcancelled

/-- Each time it is resumed, a cancelled request comes nearer to its end. -/
theorem fades_resume (h : Cancelled c w) {x : Input} (hstep : w.resume c x = some w') :
    Fades w' w.point.rank := by
  obtain ⟨hinv, hcancelled⟩ := h
  have hgone := not_gone_of_cancelled hcancelled
  unfold World.resume at hstep
  unfold Inv at hinv
  cases hpoint : w.point with
  | start =>
    simp only [hpoint] at hinv
    exact absurd hinv.2 hgone
  | noInstance =>
    simp only [hpoint] at hinv hstep
    obtain ⟨hpd, hwaiting⟩ := pd_of_cancelled hinv hcancelled
    cases hstep
    exact fades_waitInstances hpd hwaiting x
  | probing left size =>
    simp only [hpoint] at hinv hstep
    obtain ⟨hpd, hwaiting⟩ := pd_of_cancelled hinv hcancelled
    cases hstep
    exact fades_probed hpd hwaiting x left size
  | roles blockHashes =>
    simp only [hpoint] at hinv hstep
    obtain ⟨hpd, hwaiting⟩ := pd_of_cancelled hinv.1 hcancelled
    cases hstep
    exact fades_rolesWaited hinv.1 hpd hwaiting x blockHashes
  | single i =>
    simp only [hpoint] at hinv
    exact absurd hinv.1 hgone
  | submitted half p d =>
    simp only [hpoint] at hinv
    exact absurd hinv.1 hgone
  | cleanup half p d e =>
    simp only [hpoint] at hinv
    exact absurd hinv.1 hgone
  | returned =>
    simp only [hpoint] at hstep
    cases hstep
  | raised e =>
    simp only [hpoint] at hstep
    cases hstep

theorem point_of_not_resumed {a : Action H} (ha : ¬∃ x, a = .resume x)
    (hstep : step c w a = some w') : w'.point = w.point := by
  cases a with
  | resume x => exact absurd ⟨x, rfl⟩ ha
  | scheduler a =>
    cases hstep
    rfl
  | routing a =>
    cases hstep
    rfl
  | abort =>
    cases hstep
    rfl

theorem returned_step {a : Action H} (h : w.point = .returned) (hstep : step c w a = some w') :
    w'.point = .returned := by
  by_cases ha : ∃ x, a = .resume x
  · obtain ⟨x, rfl⟩ := ha
    have hnone : step c w (.resume x) = none := by
      simp only [step, World.resume, h]
    rw [hnone] at hstep
    cases hstep
  · exact (point_of_not_resumed ha hstep).trans h

theorem nothing_of_returned (h : Cancelled c w) (hreturned : w.point = .returned) :
    w.trace.submitted = [] ∧ w.waiting = false ∧ w.event = none := by
  obtain ⟨hinv, hcancelled⟩ := h
  unfold Inv at hinv
  rw [hreturned] at hinv
  obtain ⟨hwaiting, hevent, hreturn⟩ := hinv
  rw [hcancelled] at hreturn
  generalize w.trace = t at hreturn ⊢
  cases hreturn with
  | cancelled => exact ⟨rfl, hwaiting, hevent⟩

section Result
variable {m : Manager H} {tables : Routing.Tables} {serverInfo : Finset String}
  {s : ℕ → World H} {a : ℕ → Action H}

/-- If the request is aborted while it is in the set, and `generate` is resumed until it ends and
does not raise, then it returns, with nothing submitted and neither the set nor the events holding
the request any more. -/
theorem cancelled_request_returns (hinit : s 0 = init m tables serverInfo)
    (hrun : Forever (step c) s a)
    (hfair : ∀ k, ∃ j ≥ k, (∃ x, a j = .resume x) ∨ Ended (s j))
    (hraise : ∀ k e, (s k).point ≠ .raised e) {k : ℕ} (hk : a k = .abort)
    (hwaiting : (s k).waiting = true) :
    ∃ j, ∀ i ≥ j, (s i).point = .returned ∧ (s i).trace.submitted = [] ∧
      (s i).waiting = false ∧ (s i).event = none := by
  have hinv : ∀ i, Inv c (s i) := fun i =>
    forever_invariant hrun (fun _ _ _ h hstep => inv_step h hstep)
      (hinit ▸ inv_init m tables serverInfo) i (Nat.zero_le i)
  have hcancel : Cancelled c (s (k + 1)) := by
    refine ⟨hinv (k + 1), ?_⟩
    have hstep := hrun k
    rw [hk] at hstep
    have heq : (s k).abort = s (k + 1) := Option.some.inj hstep
    rw [← heq]
    change ((s k).cancelled || (s k).waiting) = true
    rw [hwaiting, Bool.or_true]
  obtain ⟨j, hj, hended⟩ := eventually_done (fun w : World H => w.point.rank) hrun
    (fun _ _ _ h hstep => cancelled_step h hstep)
    (fun _ _ _ _ ha hstep => by rw [point_of_not_resumed ha hstep])
    (fun _ _ _ h ha hstep => by
      obtain ⟨x, rfl⟩ := ha
      exact fades_resume h hstep) hfair hcancel
  have hreturned : (s j).point = .returned := hended.resolve_right fun ⟨e, he⟩ => hraise j e he
  refine ⟨j, fun i hi => ?_⟩
  have hi' := forever_invariant hrun (fun _ _ _ h hstep => returned_step h hstep) hreturned i hi
  have hcancel' :=
    forever_invariant hrun (fun _ _ _ h hstep => cancelled_step h hstep) hcancel i (hj.trans hi)
  exact ⟨hi', nothing_of_returned hcancel' hi'⟩

end Result

section Sample

def waitingCall : Call := ⟨"r", true, none, false, fun _ => true, .fin⟩

def calledAlone : World Unit := init (.init false false true .load 1 .balanced (.fin 0)) .empty ∅

def waitingAlone : World Unit :=
  { calledAlone with waiting := true, event := some false, point := .noInstance }

def cancelStates : ℕ → World Unit
  | 0 => calledAlone
  | 1 => waitingAlone
  | 2 => waitingAlone.abort
  | _ + 3 => { waitingAlone.abort with event := none, point := .returned }

def cancelActions : ℕ → Action Unit
  | 0 => .resume { answer := .ok [] }
  | 1 => .abort
  | 2 => .resume { answer := .ok [] }
  | _ + 3 => .routing (.abortDone [])

theorem cancelled_request_returns_sample :
    ∃ j, ∀ i ≥ j, (cancelStates i).point = .returned ∧ (cancelStates i).trace.submitted = [] ∧
      (cancelStates i).waiting = false ∧ (cancelStates i).event = none := by
  have hrun : Forever (step waitingCall) cancelStates cancelActions := by
    intro k
    match k with
    | 0 => rfl
    | 1 => rfl
    | 2 => rfl
    | _ + 3 => rfl
  have hfair : ∀ k, ∃ j ≥ k, (∃ x, cancelActions j = .resume x) ∨ Ended (cancelStates j) :=
    fun k => ⟨k + 3, Nat.le_add_right k 3, .inr (.inl rfl)⟩
  have hraise : ∀ k e, (cancelStates k).point ≠ .raised e := by
    intro k e
    match k with
    | 0 => exact nofun
    | 1 => exact nofun
    | 2 => exact nofun
    | _ + 3 => exact nofun
  exact cancelled_request_returns rfl hrun hfair hraise (k := 1) rfl rfl

end Sample

end Llumnix.Generate
