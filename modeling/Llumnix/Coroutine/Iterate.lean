import Llumnix.Coroutine.Safe

/-! `try` with `finally`, and `async for` over a generator that yields items and then ends. -/
namespace Coroutine

variable {W C : Type} {R : C → Type} {ε α β σ ω : Type}

/-- What a generator yields, and whether it ends by raising. -/
inductive Yields (ω : Type)
  | item (o : ω) (rest : Yields ω)
  | ended (raises : Bool)

namespace Prog

/-- `try: p finally: q`, where `q` is told whether `p` ended without an exception. -/
def tryFinally (p : Prog W C R ε α) (q : Bool → Prog W C R ε Unit) : Prog W C R ε α :=
  (p.tryCatch fun e => (q false).bind fun _ => .raise e).bind fun a =>
    (q true).bind fun _ => .ret a

/-- `async for`: `advance` is the `__anext__` of the generator. The body hands on its variables, or
returns from the function. -/
def asyncFor (advance : Yields ω → Prog W C R ε Unit) (body : σ → ω → Prog W C R ε (σ ⊕ β)) :
    Yields ω → σ → Prog W C R ε (σ ⊕ β)
  | .item o rest, s => (advance (.item o rest)).bind fun _ => (body s o).bind fun
    | .inl s => asyncFor advance body rest s
    | .inr b => .ret (.inr b)
  | .ended raises, s => (advance (.ended raises)).bind fun _ => .ret (.inl s)

end Prog

namespace Safe
variable {S : Host W C R ε} {I : W → Prop}

theorem tryFinally {p : Prog W C R ε α} {q : Bool → Prog W C R ε Unit} {w : W}
    {M N : α → W → Prop} {E F : ε → W → Prop} (hp : Safe S I (Post M E) p w)
    (hdone : ∀ a w, M a w → Safe S I (Post (fun _ => N a) F) (q true) w)
    (hfail : ∀ e w, E e w → Safe S I (Post (fun _ => F e) F) (q false) w)
    (hN : ∀ a w w', N a w → S.env w w' → N a w') (hF : ∀ e w w', F e w → S.env w w' → F e w')
    (hNinv : ∀ a w, N a w → I w) (hFinv : ∀ e w, F e w → I w) :
    Safe S I (Post N F) (p.tryFinally q) w := by
  refine seq (catching hp fun e w he => ?_) fun a w ha => ?_
  · exact seq (hfail e w he) fun _ w h => raiseOf h (hF e) fun w h => ⟨hFinv e w h, h⟩
  · exact seq (hdone a w ha) fun _ w h => retOf h (hN a) fun w h => ⟨hNinv a w h, h⟩

theorem asyncFor {advance : Yields ω → Prog W C R ε Unit}
    {body : σ → ω → Prog W C R ε (σ ⊕ β)} {J : σ → W → Prop} {K : σ → ω → W → Prop}
    {N : σ ⊕ β → W → Prop} {E : ε → W → Prop}
    (hitem : ∀ o rest s w, J s w → Safe S I (Post (fun _ => K s o) E) (advance (.item o rest)) w)
    (hended : ∀ raises s w, J s w →
      Safe S I (Post (fun _ => N (.inl s)) E) (advance (.ended raises)) w)
    (hbody : ∀ s o w, K s o w →
      Safe S I (Post (fun | .inl s => J s | .inr b => N (.inr b)) E) (body s o) w)
    (hN : ∀ r w w', N r w → S.env w w' → N r w') (hinv : ∀ r w, N r w → I w) :
    ∀ yields s w, J s w → Safe S I (Post N E) (Prog.asyncFor advance body yields s) w := by
  intro yields
  induction yields with
  | item o rest ih =>
    intro s w hw
    refine seq (hitem o rest s w hw) fun _ w hw => seq (hbody s o w hw) fun r w hw => ?_
    cases r with
    | inl s => exact ih s w hw
    | inr b => exact retOf hw (hN (.inr b)) fun w hw => ⟨hinv _ w hw, hw⟩
  | ended raises =>
    intro s w hw
    refine seq (hended raises s w hw) fun _ w hw => ?_
    exact retOf hw (hN (.inl s)) fun w hw => ⟨hinv _ w hw, hw⟩

end Safe
end Coroutine
