import Llumnix.Rpc.Linear

/-! Calls return as long as the loop of the server runs, and a single message that is not a request
ends it for all callers. -/
namespace Rpc.System

open Machine

variable {σ ρ π κ : Type} {O : Object σ ρ π κ} {x₀ : σ} {s s' : System σ ρ π κ} {a : Action ρ κ}
  {as : List (Action ρ κ)} {k : ℕ}

def Returned (k : ℕ) (s : System σ ρ π κ) : Prop :=
  ∃ c p, s.calls[k]? = some c ∧ c.phase = .returned p

/-- The message that the server takes next is not a request. -/
def Fatal (O : Object σ ρ π κ) (s : System σ ρ π κ) : Action ρ κ → Prop
  | .receive i => ∃ m, s.flying[i]? = some m ∧ O.accepts m.2 = false
  | _ => False

theorem running_step (h : s.step O a = some s') :
    s'.running = true ↔ s.running = true ∧ ¬Fatal O s a := by
  cases a with
  | receive i =>
    simp only [step] at h
    split at h
    · rename_i hrunning
      obtain ⟨m, hm, rfl⟩ := Option.map_eq_some_iff.mp h
      simp only [Fatal, hm, Option.some.injEq, exists_eq_left']
      split <;> simp [*]
    · cases h
  | act op =>
    obtain ⟨x, hx, rfl⟩ := Option.map_eq_some_iff.mp h
    simp [Fatal]
  | reply i =>
    obtain ⟨r, -, rfl⟩ := Option.map_eq_some_iff.mp h
    simp [Fatal]
  | _ =>
    simp only [step] at h
    try split at h
    all_goals
      cases h
      try simp [Fatal]

/-! ### After the loop -/

/-- Nothing of the call has reached a server that reads no more. -/
structure Unheard (k : ℕ) (s : System σ ρ π κ) : Prop where
  ended : s.running = false
  tasks : sent k s.tasks = []
  replies : ∀ p, (k, p) ∉ s.replies
  returned : ¬Returned k s

theorem Unheard.step (h : Unheard k s) (hstep : s.step O a = some s') : Unheard k s' where
  ended := by
    have hiff := running_step hstep
    simpa [h.ended] using hiff
  tasks := by
    cases a with
    | receive i =>
      simp [System.step, h.ended] at hstep
    | handle =>
      have htasks := h.tasks
      simp only [System.step] at hstep
      split at hstep <;> cases hstep
      rename_i m tasks heq
      rw [heq, ← List.singleton_append, sent_append] at htasks
      exact (List.append_eq_nil_iff.mp htasks).2
    | act op =>
      obtain ⟨x, -, rfl⟩ := Option.map_eq_some_iff.mp hstep
      exact h.tasks
    | reply i =>
      obtain ⟨r, -, rfl⟩ := Option.map_eq_some_iff.mp hstep
      exact h.tasks
    | _ =>
      simp only [System.step] at hstep
      try split at hstep
      all_goals
        cases hstep
        try exact h.tasks
  replies := by
    intro p hp
    rcases replies_step hstep hp with hold | ⟨r, hr, -⟩
    · exact h.replies p hold
    · rw [h.tasks] at hr
      cases hr
  returned := by
    rintro ⟨c, p, hc, hp⟩
    rcases returned_step hstep hc hp with ⟨c, hc, hp⟩ | hmem
    · exact h.returned ⟨c, p, hc, hp⟩
    · exact h.replies p hmem

theorem Unheard.of_run (h : Unheard k s) (hrun : run (System.step O) s as = some s') :
    Unheard k s' :=
  run_invariant (fun _ _ _ h _ hstep => h.step hstep) h meets_true hrun

theorem Sound.unheard [DecidableEq π] (h : s.Sound O x₀) (hended : s.running = false)
    (hk : s.calls.length ≤ k) : Unheard k s where
  ended := hended
  tasks := (List.append_eq_nil_iff.mp (List.append_eq_nil_iff.mp (h.nothing_of_le hk)).1).2
  replies := by
    intro p hp
    obtain ⟨r, hr⟩ := h.replies _ hp
    rw [h.answers_eq_nil hk] at hr
    cases hr
  returned := by
    rintro ⟨c, p, hc, -⟩
    rw [List.getElem?_eq_none hk] at hc
    cases hc

/-! ### While the loop runs -/

theorem run_handle {xs : List (Option ℕ × ρ)} {r : ρ} (htasks : s.tasks = xs ++ [(some k, r)]) :
    ∃ s' qs p, run (step O) s (List.replicate (xs.length + 1) .handle) = some s' ∧
      s'.calls = s.calls ∧ s'.replies = qs ++ [(k, p)] := by
  induction xs generalizing s with
  | nil =>
    obtain ⟨t, ht, hcalls, hreplies⟩ : ∃ t, s.step O .handle = some t ∧ t.calls = s.calls ∧
        t.replies = s.replies ++ [(k, (O.handle s.object r).1)] := by
      simp only [step, htasks, List.nil_append]
      exact ⟨_, rfl, rfl, rfl⟩
    refine ⟨t, s.replies, _, ?_, hcalls, hreplies⟩
    rw [List.length_nil, List.replicate_succ, run, ht]
    rfl
  | cons x xs ih =>
    obtain ⟨t, ht, hcalls, hrest⟩ : ∃ t, s.step O .handle = some t ∧ t.calls = s.calls ∧
        t.tasks = xs ++ [(some k, r)] := by
      simp only [step, htasks, List.cons_append]
      exact ⟨_, rfl, rfl, rfl⟩
    obtain ⟨s', qs, p, hrun, hcalls', hreplies⟩ := ih hrest
    refine ⟨s', qs, p, ?_, hcalls'.trans hcalls, hreplies⟩
    rw [List.length_cons, List.replicate_succ, run, ht]
    exact hrun

theorem exists_returned {r : ρ} (hrunning : s.running = true) (haccepts : O.accepts r = true) :
    ∃ as s', run (step O) s (.call r :: as) = some s' ∧ Returned s.calls.length s' := by
  let called : System σ ρ π κ :=
    { s with
      calls := s.calls ++ [⟨r, .waiting⟩]
      flying := s.flying ++ [(some s.calls.length, r)] }
  let received : System σ ρ π κ :=
    { called with
      flying := called.flying.eraseIdx s.flying.length
      tasks := s.tasks ++ [(some s.calls.length, r)] }
  have hreceive : called.step O (.receive s.flying.length) = some received := by
    simp [step, called, received, hrunning, haccepts]
  obtain ⟨t, qs, p, hrun, hcalls, hreplies⟩ :=
    run_handle (O := O) (s := received) rfl
  refine ⟨.receive s.flying.length :: (List.replicate (s.tasks.length + 1) .handle ++
    [.reply qs.length]), { t with
      replies := t.replies.eraseIdx qs.length
      calls := t.calls.modify s.calls.length (Call.take p) }, ?_, ⟨r, .returned p⟩, p, ?_, rfl⟩
  · rw [run]
    change run (step O) called _ = _
    rw [run, hreceive]
    change run (step O) received _ = _
    rw [run_append, hrun]
    simp [run, step, hreplies]
  · rw [List.getElem?_modify, hcalls]
    simp [received, called, Call.take]

end Rpc.System
