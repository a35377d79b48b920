import Llumnix.Coroutine.Basic

/-! A program logic for coroutines. `Safe S I Q p w` says that every run of `p` from `w`
stays within the invariant `I` and ends, if it ends, in the postcondition `Q`. -/
namespace Coroutine

variable {W C : Type} {R : C → Type} {ε α β : Type}

/-- Suspension points are closed under environment moves, so `Safe` is stable there. -/
inductive Safe (S : Host W C R ε) (I : W → Prop) (Q : Except ε α → W → Prop) :
    Prog W C R ε α → W → Prop
  | ret {a : α} {w : W} (h : ∀ w', S.Envs w w' → I w' ∧ Q (.ok a) w') : Safe S I Q (.ret a) w
  | raise {e : ε} {w : W} (h : ∀ w', S.Envs w w' → I w' ∧ Q (.error e) w') :
      Safe S I Q (.raise e) w
  | read {k : W → Prog W C R ε α} {w : W} (hi : I w) (h : Safe S I Q (k w) w) :
      Safe S I Q (.read k) w
  | write {f : W → W} {k : Prog W C R ε α} {w : W} (hi : I w) (h : Safe S I Q k (f w)) :
      Safe S I Q (.write f k) w
  | await {c : C} {k : Except ε (R c) → Prog W C R ε α} {w : W}
      (hi : ∀ w', S.Envs w w' → I w')
      (h : ∀ w' r w'', S.Envs w w' → S.serve c (S.issue c w') r w'' → Safe S I Q (k r) w'') :
      Safe S I Q (.await c k) w
  | gather {cs : List C} {k : Prog W C R ε α} {w : W} (hi : I w)
      (h : Safe S I Q (.join cs k) (S.issueAll cs w)) : Safe S I Q (.gather cs k) w
  | join {cs : List C} {k : Prog W C R ε α} {w : W}
      (hi : ∀ w', S.Envs w w' → I w')
      (hk : cs = [] → ∀ w', S.Envs w w' → Safe S I Q k w')
      (h : ∀ as c bs w' r w'', cs = as ++ c :: bs → S.Envs w w' → S.serve c w' r w'' →
        Safe S I Q (.join (as ++ bs) k) w'') : Safe S I Q (.join cs k) w

/-- A postcondition by parts: for the value returned and for the exception raised. -/
def Post (N : α → W → Prop) (E : ε → W → Prop) : Except ε α → W → Prop
  | .ok a, w => N a w
  | .error e, w => E e w

namespace Safe
variable {S : Host W C R ε} {I : W → Prop} {Q : Except ε α → W → Prop} {p p' k : Prog W C R ε α}
  {w w' : W}

theorem inv (h : Safe S I Q p w) : I w := by
  cases h with
  | ret h => exact (h w .refl).1
  | raise h => exact (h w .refl).1
  | read hi _ => exact hi
  | write hi _ => exact hi
  | await hi _ => exact hi w .refl
  | gather hi _ => exact hi
  | join hi _ _ => exact hi w .refl

private theorem env (h : Safe S I Q p w) (hp : p.Suspended) (he : S.env w w') :
    Safe S I Q p w' := by
  have ht : ∀ {v}, S.Envs w' v → S.Envs w v := fun hv => .head he hv
  cases h with
  | ret h => exact .ret fun v hv => h v (ht hv)
  | raise h => exact .raise fun v hv => h v (ht hv)
  | read _ _ => exact hp.elim
  | write _ _ => exact hp.elim
  | await hi h => exact .await (fun v hv => hi v (ht hv)) fun v r u hv hs => h v r u (ht hv) hs
  | gather _ _ => exact hp.elim
  | join hi hk h =>
    exact .join (fun v hv => hi v (ht hv)) (fun hc v hv => hk hc v (ht hv))
      fun as c bs v r u hc hv hs => h as c bs v r u hc (ht hv) hs

theorem step (h : Safe S I Q p w) (hs : S.Step (p, w) (p', w')) : Safe S I Q p' w' := by
  cases hs with
  | read k => cases h with | read _ h => exact h
  | write f => cases h with | write _ h => exact h
  | await k hs => cases h with | await _ h => exact h w _ w' .refl hs
  | gather cs => cases h with | gather _ h => exact h
  | serve as bs k hs => cases h with | join _ _ h => exact h as _ bs w _ w' rfl .refl hs
  | join => cases h with | join _ hk _ => exact hk rfl _ .refl
  | env _ hp he => exact h.env hp he

theorem reaches (h : Safe S I Q p w) (hr : S.Reaches (p, w) (p', w')) : Safe S I Q p' w' := by
  have key : ∀ c : Prog W C R ε α × W, S.Reaches (p, w) c → Safe S I Q c.1 c.2 := by
    intro c hc
    induction hc with
    | refl => exact h
    | tail _ hs ih => exact ih.step hs
  exact key _ hr

theorem ends {r : Except ε α} (h : Safe S I Q p w) (hr : S.Ends p w r w') : Q r w' := by
  cases r with
  | ok a => cases h.reaches hr with | ret h => exact (h w' .refl).2
  | error e => cases h.reaches hr with | raise h => exact (h w' .refl).2

theorem mono {Q' : Except ε α → W → Prop} (h : Safe S I Q p w) (hq : ∀ r w, Q r w → Q' r w) :
    Safe S I Q' p w := by
  induction h with
  | ret h => exact .ret fun v hv => ⟨(h v hv).1, hq _ _ (h v hv).2⟩
  | raise h => exact .raise fun v hv => ⟨(h v hv).1, hq _ _ (h v hv).2⟩
  | read hi _ ih => exact .read hi ih
  | write hi _ ih => exact .write hi ih
  | await hi _ ih => exact .await hi ih
  | gather hi _ ih => exact .gather hi ih
  | join hi _ _ ihk ih => exact .join hi ihk ih

theorem weaken {J : W → Prop} (h : Safe S I Q p w) (hij : ∀ w, I w → J w) : Safe S J Q p w := by
  induction h with
  | ret h => exact .ret fun v hv => ⟨hij _ (h v hv).1, (h v hv).2⟩
  | raise h => exact .raise fun v hv => ⟨hij _ (h v hv).1, (h v hv).2⟩
  | read hi _ ih => exact .read (hij _ hi) ih
  | write hi _ ih => exact .write (hij _ hi) ih
  | await hi _ ih => exact .await (fun v hv => hij _ (hi v hv)) ih
  | gather hi _ ih => exact .gather (hij _ hi) ih
  | join hi _ _ ihk ih => exact .join (fun v hv => hij _ (hi v hv)) ihk ih

theorem bind {Q : Except ε β → W → Prop} {f : α → Prog W C R ε β}
    (h : Safe S I (fun r w => match r with
      | .ok a => Safe S I Q (f a) w
      | .error e => Q (.error e) w) p w) : Safe S I Q (p.bind f) w := by
  induction h with
  | ret h => exact (h _ .refl).2
  | raise h => exact .raise h
  | read hi _ ih => exact .read hi ih
  | write hi _ ih => exact .write hi ih
  | await hi _ ih => exact .await hi ih
  | gather hi _ ih => exact .gather hi ih
  | join hi _ _ ihk ih => exact .join hi ihk ih

theorem tryCatch {f : ε → Prog W C R ε α} (h : Safe S I (fun r w => match r with
      | .ok a => Q (.ok a) w
      | .error e => Safe S I Q (f e) w) p w) : Safe S I Q (p.tryCatch f) w := by
  induction h with
  | ret h => exact .ret h
  | raise h => exact (h _ .refl).2
  | read hi _ ih => exact .read hi ih
  | write hi _ ih => exact .write hi ih
  | await hi _ ih => exact .await hi ih
  | gather hi _ ih => exact .gather hi ih
  | join hi _ _ ihk ih => exact .join hi ihk ih

theorem retOf {P : W → Prop} {a : α} (hw : P w) (henv : ∀ w w', P w → S.env w w' → P w')
    (h : ∀ w, P w → I w ∧ Q (.ok a) w) : Safe S I Q (.ret a) w :=
  .ret fun w' he => h w' (he.keep henv hw)

theorem raiseOf {P : W → Prop} {e : ε} (hw : P w) (henv : ∀ w w', P w → S.env w w' → P w')
    (h : ∀ w, P w → I w ∧ Q (.error e) w) : Safe S I Q (.raise e) w :=
  .raise fun w' he => h w' (he.keep henv hw)

/-- Awaiting one call. `P` is stable under the environment; every reply leads to the
postcondition, which is itself stable. -/
theorem call {c : C} {Q : Except ε (R c) → W → Prop} {P : W → Prop} (hw : P w)
    (henv : ∀ w w', P w → S.env w w' → P w') (hinv : ∀ w, P w → I w)
    (hpost : ∀ w r w', P w → S.serve c (S.issue c w) r w' →
      ∀ w'', S.Envs w' w'' → I w'' ∧ Q r w'') : Safe S I Q (Prog.call c) w := by
  have hP : ∀ w', S.Envs w w' → P w' := fun w' h => h.keep henv hw
  refine .await (fun w' he => hinv w' (hP w' he)) fun w' r w'' he hs => ?_
  cases r with
  | ok v => exact .ret (hpost w' _ w'' (hP w' he) hs)
  | error e => exact .raise (hpost w' _ w'' (hP w' he) hs)

/-- A gathered batch: `J` describes the world by the calls still open. Whatever order
they are served in, `J` carries the batch to its end. -/
theorem joinOf {J : List C → W → Prop} (henv : ∀ cs w w', J cs w → S.env w w' → J cs w')
    (hinv : ∀ cs w, J cs w → I w)
    (hserve : ∀ as c bs w r w', J (as ++ c :: bs) w → S.serve c w r w' → J (as ++ bs) w')
    (hk : ∀ w, J [] w → Safe S I Q k w) :
    ∀ (n : ℕ) (cs : List C) (w : W), cs.length = n → J cs w → Safe S I Q (.join cs k) w := by
  have hJ : ∀ {cs w w'}, J cs w → S.Envs w w' → J cs w' := fun hw h => h.keep (henv _) hw
  intro n
  induction n with
  | zero =>
    intro cs w hn hw
    obtain rfl := List.length_eq_zero_iff.mp hn
    refine .join (fun w' he => hinv _ _ (hJ hw he)) (fun _ w' he => hk w' (hJ hw he)) ?_
    intro as c bs _ _ _ hc
    simp at hc
  | succ n ih =>
    intro cs w hn hw
    refine .join (fun w' he => hinv _ _ (hJ hw he)) ?_ ?_
    · rintro rfl
      simp at hn
    · rintro as c bs w' r w'' rfl he hs
      refine ih (as ++ bs) w'' ?_ (hserve as c bs w' r w'' (hJ hw he) hs)
      simp only [List.length_append, List.length_cons] at hn ⊢
      omega

theorem gatherOf {J : List C → W → Prop} {cs : List C} (hi : I w) (hw : J cs (S.issueAll cs w))
    (henv : ∀ cs w w', J cs w → S.env w w' → J cs w') (hinv : ∀ cs w, J cs w → I w)
    (hserve : ∀ as c bs w r w', J (as ++ c :: bs) w → S.serve c w r w' → J (as ++ bs) w')
    (hk : ∀ w, J [] w → Safe S I Q k w) : Safe S I Q (.gather cs k) w :=
  .gather hi (joinOf henv hinv hserve hk cs.length cs _ rfl hw)

theorem forEach {f : β → Prog W C R ε Unit} {Q : Except ε Unit → W → Prop}
    {J : List β → W → Prop}
    (hbody : ∀ b bs w, J (b :: bs) w → Safe S I (fun r w => match r with
      | .ok _ => J bs w
      | .error e => Q (.error e) w) (f b) w)
    (hdone : ∀ w, J [] w → ∀ w', S.Envs w w' → I w' ∧ Q (.ok ()) w') :
    ∀ (bs : List β) (w : W), J bs w → Safe S I Q (Prog.forEach f bs) w := by
  intro bs
  induction bs with
  | nil => intro w hw; exact .ret (hdone w hw)
  | cons b bs ih =>
    intro w hw
    refine bind ((hbody b bs w hw).mono fun r w' h => ?_)
    cases r with
    | ok _ => exact ih w' h
    | error _ => exact h

section Post
variable {M : α → W → Prop} {N : β → W → Prop} {E F : ε → W → Prop}

theorem seq {p : Prog W C R ε α} {f : α → Prog W C R ε β} {w : W} (hp : Safe S I (Post M E) p w)
    (hf : ∀ a w, M a w → Safe S I (Post N E) (f a) w) : Safe S I (Post N E) (p.bind f) w := by
  refine bind (hp.mono fun r w' h => ?_)
  cases r with
  | ok a => exact hf a w' h
  | error e => exact h

theorem catching {p : Prog W C R ε α} {f : ε → Prog W C R ε α} {w : W}
    (hp : Safe S I (Post M E) p w) (hf : ∀ e w, E e w → Safe S I (Post M F) (f e) w) :
    Safe S I (Post M F) (p.tryCatch f) w := by
  refine tryCatch (hp.mono fun r w' h => ?_)
  cases r with
  | ok a => exact h
  | error e => exact hf e w' h

theorem loop {L : W → Prop} {f : β → Prog W C R ε Unit}
    (henv : ∀ w w', L w → S.env w w' → L w') (hinv : ∀ w, L w → I w)
    (hbody : ∀ b w, L w → Safe S I (Post (fun _ => L) E) (f b) w) (bs : List β) (w : W) (hw : L w) :
    Safe S I (Post (fun _ => L) E) (Prog.forEach f bs) w := by
  refine forEach (J := fun _ => L)
    (fun b bs w hw => (hbody b w hw).mono fun r w' h => ?_) ?_ bs w hw
  · cases r <;> exact h
  · intro w hw w' he
    have hL := he.keep henv hw
    exact ⟨hinv w' hL, hL⟩

end Post

/-- Frame rule: what every issued call, every answer and every write of a coroutine
preserves, the coroutine does. `J` may depend on the calls that are still open. -/
theorem frameOpen {K : C → Prop} {F : (W → W) → Prop} {J : List C → W → Prop} (hp : p.Uses K F)
    (hw : J [] w) (hinv : ∀ cs w, J cs w → I w) (henv : ∀ cs w w', J cs w → S.env w w' → J cs w')
    (hissue : ∀ cs c w, K c → J cs w → J (cs ++ [c]) (S.issue c w))
    (hserve : ∀ as c bs w r w', K c → J (as ++ c :: bs) w → S.serve c w r w' → J (as ++ bs) w')
    (hwrite : ∀ f w, F f → J [] w → J [] (f w)) : Safe S I (fun _ w => J [] w) p w := by
  have hJ : ∀ {cs w w'}, J cs w → S.Envs w w' → J cs w' := fun hw h => h.keep (henv _) hw
  have hall : ∀ (cs as : List C) (w : W), (∀ c ∈ cs, K c) → J as w →
      J (as ++ cs) (S.issueAll cs w) := by
    intro cs
    induction cs with
    | nil => intro as w _ hw; rwa [List.append_nil]
    | cons c cs ih =>
      intro as w hc hw
      have := ih (as ++ [c]) (S.issue c w) (fun c' h => hc c' (List.mem_cons_of_mem _ h))
        (hissue as c w (hc c List.mem_cons_self) hw)
      rwa [List.append_assoc] at this
  induction p generalizing w with
  | ret a => exact .retOf hw (henv []) fun w h => ⟨hinv _ w h, h⟩
  | raise e => exact .raiseOf hw (henv []) fun w h => ⟨hinv _ w h, h⟩
  | read k ih => exact .read (hinv _ w hw) (ih w (hp w) hw)
  | write f k ih => exact .write (hinv _ w hw) (ih hp.2 (hwrite f w hp.1 hw))
  | await c k ih =>
    refine .await (fun w' he => hinv _ _ (hJ hw he)) fun w' r w'' he hs => ih r (hp.2 r) ?_
    exact hserve [] c [] _ r w'' hp.1 (hissue [] c w' hp.1 (hJ hw he)) hs
  | gather cs k ih =>
    refine gatherOf (J := fun cs w => (∀ c ∈ cs, K c) ∧ J cs w) (hinv _ w hw)
      ⟨hp.1, hall cs [] w hp.1 hw⟩ ?_ ?_ ?_ fun w h => ih hp.2 h.2
    · exact fun cs w w' h he => ⟨h.1, henv cs w w' h.2 he⟩
    · exact fun cs w h => hinv cs w h.2
    · intro as c bs w r w' h hs
      refine ⟨fun c' hc' => h.1 c' ?_, hserve as c bs w r w' (h.1 c (by simp)) h.2 hs⟩
      simp only [List.mem_append, List.mem_cons] at hc' ⊢
      exact hc'.imp id Or.inr
  | join cs k _ => exact hp.elim

theorem frame {K : C → Prop} {F : (W → W) → Prop} {J : W → Prop} (hp : p.Uses K F) (hw : J w)
    (hinv : ∀ w, J w → I w) (henv : ∀ w w', J w → S.env w w' → J w')
    (hissue : ∀ c w, K c → J w → J (S.issue c w))
    (hserve : ∀ c w r w', K c → J w → S.serve c w r w' → J w')
    (hwrite : ∀ f w, F f → J w → J (f w)) : Safe S I (fun _ w => J w) p w :=
  frameOpen (J := fun _ => J) hp hw (fun _ => hinv) (fun _ => henv)
    (fun _ c w hc => hissue c w hc) (fun _ c _ w r w' hc => hserve c w r w' hc) hwrite

end Safe
end Coroutine
