import Llumnix.Coroutine.Run
import Mathlib.Data.List.Chain

/-! Runs that can be computed: a script says what happens while the coroutine is suspended. -/
namespace Coroutine

variable {W C : Type} {R : C → Type} {ε α : Type}

/-- The environment moves, or the open call at a position is served. Each is a function that finds
out whether this can happen. -/
inductive Cue (S : Host W C R ε)
  | env (move : (w : W) → Option {w' // S.env w w'})
  | serve (n : ℕ) (answer : (c : C) → (w : W) →
      Option {x : Except ε (R c) × W // S.serve c w x.1 x.2})

namespace Host
variable (S : Host W C R ε)

/-- The configurations up to the next suspension. -/
def settle : Prog W C R ε α → W → List (Prog W C R ε α × W)
  | .read k, w => (k w, w) :: settle (k w) w
  | .write f k, w => (k, f w) :: settle k (f w)
  | .gather cs k, w => [(.join cs k, S.issueAll cs w)]
  | .join [] k, w => (k, w) :: settle k w
  | _, _ => []

/-- The configurations that follow a cue; one that does not fit is passed over. -/
def follow : Prog W C R ε α × W → Cue S → List (Prog W C R ε α × W)
  | (.await c k, w), .serve _ answer =>
    match answer c (S.issue c w) with
    | some x => (k x.1.1, x.1.2) :: S.settle (k x.1.1) x.1.2
    | none => []
  | (.join cs k, w), .serve n answer =>
    match cs.drop n with
    | [] => []
    | c :: bs =>
      match answer c w with
      | some x => (.join (cs.take n ++ bs) k, x.1.2) ::
          S.settle (.join (cs.take n ++ bs) k) x.1.2
      | none => []
  | (.await c k, w), .env move =>
    match move w with
    | some w' => [(.await c k, w'.1)]
    | none => []
  | (.join cs k, w), .env move =>
    match move w with
    | some w' => [(.join cs k, w'.1)]
    | none => []
  | _, _ => []

def followAll (c : Prog W C R ε α × W) : List (Cue S) → List (Prog W C R ε α × W)
  | [] => []
  | cue :: cues => S.follow c cue ++ followAll ((S.follow c cue).getLastD c) cues

def course (p : Prog W C R ε α) (w : W) (cues : List (Cue S)) : List (Prog W C R ε α × W) :=
  S.settle p w ++ S.followAll ((S.settle p w).getLastD (p, w)) cues

/-- Where the run comes to. -/
def replay (p : Prog W C R ε α) (w : W) (cues : List (Cue S)) : Prog W C R ε α × W :=
  ((p, w) :: S.course p w cues).getLast (List.cons_ne_nil _ _)

end Host

section Course
variable {S : Host W C R ε}

theorem chain_append {β : Type} {r : β → β → Prop} {a : β} {xs ys : List β}
    (h : (a :: xs).IsChain r) (h' : (xs.getLastD a :: ys).IsChain r) :
    (a :: (xs ++ ys)).IsChain r := by
  induction xs generalizing a with
  | nil => exact h'
  | cons b xs ih =>
    obtain ⟨hab, hxs⟩ := List.isChain_cons_cons.mp h
    rw [List.getLastD_cons] at h'
    exact .cons_cons hab (ih hxs h')

theorem chain_settle (p : Prog W C R ε α) (w : W) : ((p, w) :: S.settle p w).IsChain S.Step := by
  induction p generalizing w with
  | read k ih => exact .cons_cons (.read k w) (ih w w)
  | write f k ih => exact .cons_cons (.write f k w) (ih (f w))
  | gather cs k => exact .cons_cons (.gather cs k w) (.singleton _)
  | join cs k ih =>
    cases cs with
    | nil => exact .cons_cons (.join k w) (ih w)
    | cons c cs => exact .singleton _
  | _ => exact .singleton _

theorem chain_follow (c : Prog W C R ε α × W) (cue : Cue S) :
    (c :: S.follow c cue).IsChain S.Step := by
  obtain ⟨p, w⟩ := c
  fun_cases Host.follow S (p, w) cue with
  | case1 c k w n answer x => exact .cons_cons (.await k x.2) (chain_settle _ _)
  | case4 cs k w n answer c bs hcs x =>
    have hstep := Host.Step.serve (S := S) (cs.take n) bs k x.2
    rw [← hcs, List.take_append_drop] at hstep
    exact .cons_cons hstep (chain_settle _ _)
  | case6 c k w move w' => exact .cons_cons (.env _ trivial w'.2) (.singleton _)
  | case8 cs k w move w' => exact .cons_cons (.env _ trivial w'.2) (.singleton _)
  | _ => exact .singleton _

theorem chain_followAll (c : Prog W C R ε α × W) (cues : List (Cue S)) :
    (c :: S.followAll c cues).IsChain S.Step := by
  induction cues generalizing c with
  | nil => exact .singleton c
  | cons cue cues ih => exact chain_append (chain_follow c cue) (ih _)

theorem chain_course (p : Prog W C R ε α) (w : W) (cues : List (Cue S)) :
    ((p, w) :: S.course p w cues).IsChain S.Step :=
  chain_append (chain_settle p w) (chain_followAll _ cues)

/-- Every configuration of a course is reached. -/
theorem reaches_course {p : Prog W C R ε α} {w : W} {cues : List (Cue S)}
    {c : Prog W C R ε α × W} (h : c ∈ S.course p w cues) : S.Reaches (p, w) c :=
  (chain_course p w cues).induction (S.Reaches (p, w) ·) _ (fun _ _ hs hr => hr.tail hs)
    (fun _ => .refl) c (List.mem_cons_of_mem _ h)

theorem reaches_replay (p : Prog W C R ε α) (w : W) (cues : List (Cue S)) :
    S.Reaches (p, w) (S.replay p w cues) :=
  List.relationReflTransGen_of_exists_isChain_cons _ (chain_course p w cues) rfl

theorem ends_replay {p : Prog W C R ε α} {w : W} (cues : List (Cue S)) {r : Except ε α}
    (h : (S.replay p w cues).1 = .ofExcept r) : S.Ends p w r (S.replay p w cues).2 := by
  have hrun := reaches_replay p w cues
  generalize S.replay p w cues = c at h hrun
  obtain ⟨q, w'⟩ := c
  dsimp only at h
  subst h
  cases r with
  | ok a => exact hrun
  | error e => exact hrun

end Course
end Coroutine
