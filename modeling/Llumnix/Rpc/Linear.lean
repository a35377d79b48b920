import Llumnix.Rpc.Basic
import Mathlib.Data.List.Perm.Subperm

/-! An object that is called over a network answers as if it was called directly: a call that
returns has been handled exactly once, between its start and its end, and its reply is the one of
the object at that time. -/
namespace Rpc

open Machine

variable {σ ρ π κ : Type} {O : Object σ ρ π κ} {x₀ : σ}
  {s s' : System σ ρ π κ} {a : Action ρ κ}

namespace System

def requests (k : ℕ) (s : System σ ρ π κ) : List ρ :=
  (s.calls[k]?.map Call.request).toList

/-- The request of a call, wherever it is: on the way, received, or handled. -/
def copies (k : ℕ) (s : System σ ρ π κ) : List ρ :=
  sent k s.flying ++ sent k s.tasks ++ (answers k s.history).map Prod.fst

structure Sound [DecidableEq π] (O : Object σ ρ π κ) (x₀ : σ)
    (s : System σ ρ π κ) : Prop where
  replay : replay O x₀ s.history = some s.object
  copies : ∀ k, (s.copies k).Subperm (s.requests k)
  replies : ∀ e ∈ s.replies, ∃ r, answers e.1 s.history = [(r, e.2)]
  returned : ∀ k c p, s.calls[k]? = some c → c.phase = .returned p →
    ∃ r, answers k s.history = [(r, p)]

theorem length_requests_le (k : ℕ) (s : System σ ρ π κ) : (s.requests k).length ≤ 1 :=
  Option.length_toList_le

theorem length_answers_le (h : ∀ k, (s.copies k).Subperm (s.requests k)) (k : ℕ) :
    (answers k s.history).length ≤ 1 := by
  have hle := Nat.le_trans (h k).length_le (length_requests_le k s)
  rw [System.copies, List.length_append, List.length_map] at hle
  omega

/-! ### Steps -/

theorem history_step (h : s.step O a = some s') : ∃ later, s'.history = s.history ++ later := by
  cases a with
  | handle =>
    simp only [step] at h
    split at h <;> cases h
    exact ⟨_, rfl⟩
  | act op =>
    obtain ⟨x, -, rfl⟩ := Option.map_eq_some_iff.mp h
    exact ⟨_, rfl⟩
  | receive i =>
    simp only [step] at h
    split at h
    · obtain ⟨m, -, rfl⟩ := Option.map_eq_some_iff.mp h
      split <;> exact ⟨[], (List.append_nil _).symm⟩
    · cases h
  | reply i =>
    obtain ⟨r, -, rfl⟩ := Option.map_eq_some_iff.mp h
    exact ⟨[], (List.append_nil _).symm⟩
  | _ =>
    simp only [step] at h
    try split at h
    all_goals
      cases h
      try exact ⟨[], (List.append_nil _).symm⟩

theorem requests_modify (k i : ℕ) (s : System σ ρ π κ) (p : π) :
    ((s.calls.modify i (Call.take p))[k]?.map Call.request).toList = s.requests k := by
  rw [requests, List.getElem?_modify]
  split
  · cases s.calls[k]? with
    | none => rfl
    | some c =>
      simp only [Option.map_some, Option.map_eq_map, Call.take]
      split <;> rfl
  · simp

theorem requests_call (k : ℕ) (s : System σ ρ π κ) (request : ρ) :
    ((s.calls ++ [⟨request, .waiting⟩])[k]?.map Call.request).toList =
      s.requests k ++ sent k [(some s.calls.length, request)] := by
  rw [sent_singleton, requests]
  rcases Nat.lt_trichotomy k s.calls.length with hk | rfl | hk
  · rw [List.getElem?_append_left hk, if_neg (by simp; omega), List.append_nil]
  · simp
  · rw [List.getElem?_eq_none (by simp; omega), List.getElem?_eq_none (by omega),
      if_neg (by simp; omega)]
    rfl

/-- A step moves the request of a call or loses it, and makes it only when the call starts. -/
theorem copies_step (h : s.step O a = some s') (k : ℕ) :
    ∃ new, (s'.copies k).Subperm (s.copies k ++ new) ∧ s'.requests k = s.requests k ++ new := by
  cases a with
  | call request =>
    cases h
    refine ⟨_, List.Perm.subperm ?_, requests_call k s request⟩
    simp only [copies, sent_append, List.append_assoc]
    refine List.Perm.append_left _ ?_
    rw [← List.append_assoc (sent k s.tasks)]
    exact List.perm_append_comm
  | inject message =>
    cases h
    refine ⟨[], List.Perm.subperm ?_, (List.append_nil _).symm⟩
    simp [copies, sent_singleton]
  | lose i =>
    simp only [step] at h
    split at h <;> cases h
    rename_i hi
    refine ⟨[], ?_, (List.append_nil _).symm⟩
    have hperm := sent_eraseIdx (List.getElem?_eq_getElem hi) k
    rw [List.append_nil, copies, copies, List.append_assoc, List.append_assoc]
    refine List.Subperm.append ?_ (List.Subperm.refl _)
    exact (List.sublist_append_right _ _).subperm.trans hperm.symm.subperm
  | receive i =>
    simp only [step] at h
    split at h
    · obtain ⟨m, hm, rfl⟩ := Option.map_eq_some_iff.mp h
      have hperm := sent_eraseIdx hm k
      refine ⟨[], ?_, ?_⟩
      · rw [List.append_nil]
        split
        · simp only [copies, sent_append]
          refine (List.Perm.append_right _ ?_).subperm
          refine List.Perm.trans ?_ (hperm.append_right _).symm
          rw [← List.append_assoc]
          exact List.perm_append_comm.trans (by rw [List.append_assoc])
        · simp only [copies, List.append_assoc]
          refine List.Subperm.append ?_ (List.Subperm.refl _)
          exact (List.sublist_append_right _ _).subperm.trans hperm.symm.subperm
      · split <;> exact (List.append_nil _).symm
    · cases h
  | handle =>
    simp only [step] at h
    split at h <;> cases h
    rename_i m tasks htasks
    refine ⟨[], List.Perm.subperm ?_, (List.append_nil _).symm⟩
    have hcons : sent k s.tasks = sent k [m] ++ sent k tasks := by
      rw [htasks, ← sent_append]
      rfl
    have hevent : (answers k ([.handled m.1 m.2 (O.handle s.object m.2).1] :
        List (Event ρ π κ))).map Prod.fst = sent k [m] := by
      rw [answers_handled, sent_singleton]
      split <;> rfl
    simp only [copies, answers_append, List.map_append, hevent, hcons, List.append_nil,
      List.append_assoc]
    refine List.Perm.append_left _ ?_
    rw [← List.append_assoc]
    exact List.perm_append_comm
  | reply i =>
    obtain ⟨r, -, rfl⟩ := Option.map_eq_some_iff.mp h
    refine ⟨[], List.Perm.subperm (by rw [List.append_nil]; rfl), ?_⟩
    rw [List.append_nil]
    exact requests_modify k r.1 s r.2
  | loseReply i =>
    simp only [step] at h
    split at h <;> cases h
    exact ⟨[], List.Perm.subperm (by rw [List.append_nil]; rfl), (List.append_nil _).symm⟩
  | timeout j =>
    simp only [step] at h
    split at h <;> cases h
    rename_i request hj
    refine ⟨[], List.Perm.subperm (by rw [List.append_nil]; rfl), ?_⟩
    rw [List.append_nil, requests, requests, List.getElem?_set]
    split
    · rename_i heq
      subst heq
      rw [hj, if_pos (List.getElem?_eq_some_iff.mp hj).1]
      rfl
    · rfl
  | act op =>
    obtain ⟨x, -, rfl⟩ := Option.map_eq_some_iff.mp h
    refine ⟨[], List.Perm.subperm ?_, (List.append_nil _).symm⟩
    simp [copies]

theorem replies_step (h : s.step O a = some s') {e : ℕ × π} (he : e ∈ s'.replies) :
    e ∈ s.replies ∨ ∃ r ∈ sent e.1 s.tasks,
      answers e.1 s'.history = answers e.1 s.history ++ [(r, e.2)] := by
  cases a with
  | handle =>
    simp only [step] at h
    split at h <;> cases h
    rename_i m tasks htasks
    rcases List.mem_append.mp he with hold | hnew
    · exact .inl hold
    · obtain ⟨k, hk, rfl⟩ := Option.map_eq_some_iff.mp (Option.mem_toList.mp hnew)
      refine .inr ⟨m.2, ?_, by rw [answers_append, answers_handled, if_pos hk]⟩
      rw [htasks]
      exact List.mem_filterMap.mpr ⟨m, List.mem_cons_self, if_pos hk⟩
  | reply i =>
    obtain ⟨r, -, rfl⟩ := Option.map_eq_some_iff.mp h
    exact .inl (List.mem_of_mem_eraseIdx he)
  | loseReply i =>
    simp only [step] at h
    split at h <;> cases h
    exact .inl (List.mem_of_mem_eraseIdx he)
  | receive i =>
    simp only [step] at h
    split at h
    · obtain ⟨m, -, rfl⟩ := Option.map_eq_some_iff.mp h
      split at he <;> exact .inl he
    · cases h
  | act op =>
    obtain ⟨x, -, rfl⟩ := Option.map_eq_some_iff.mp h
    exact .inl he
  | _ =>
    simp only [step] at h
    try split at h
    all_goals
      cases h
      try exact .inl he

theorem phase_take {c : Call ρ π} {p q : π} (h : (c.take q).phase = .returned p) :
    c.phase = .returned p ∨ q = p := by
  unfold Call.take at h
  split at h
  · cases h
    exact .inr rfl
  · exact .inl h

theorem returned_step (h : s.step O a = some s') {k : ℕ} {c' : Call ρ π} {p : π}
    (hc : s'.calls[k]? = some c') (hp : c'.phase = .returned p) :
    (∃ c, s.calls[k]? = some c ∧ c.phase = .returned p) ∨ (k, p) ∈ s.replies := by
  cases a with
  | call request =>
    cases h
    rw [List.getElem?_append] at hc
    split at hc
    · exact .inl ⟨c', hc, hp⟩
    · cases List.mem_singleton.mp (List.mem_of_getElem? hc)
      cases hp
  | reply i =>
    obtain ⟨r, hr, rfl⟩ := Option.map_eq_some_iff.mp h
    simp only [List.getElem?_modify] at hc
    obtain ⟨c, hold, rfl⟩ := Option.map_eq_some_iff.mp hc
    split at hp
    · rename_i heq
      rcases phase_take hp with hp | rfl
      · exact .inl ⟨c, hold, hp⟩
      · exact .inr (heq ▸ List.mem_of_getElem? hr)
    · exact .inl ⟨c, hold, hp⟩
  | timeout j =>
    simp only [step] at h
    split at h <;> cases h
    rename_i request hj
    simp only [List.getElem?_set] at hc
    split at hc
    · split at hc <;> cases hc
      cases hp
    · exact .inl ⟨c', hc, hp⟩
  | receive i =>
    simp only [step] at h
    split at h
    · obtain ⟨m, -, rfl⟩ := Option.map_eq_some_iff.mp h
      split at hc <;> exact .inl ⟨c', hc, hp⟩
    · cases h
  | act op =>
    obtain ⟨x, -, rfl⟩ := Option.map_eq_some_iff.mp h
    exact .inl ⟨c', hc, hp⟩
  | _ =>
    simp only [step] at h
    try split at h
    all_goals
      cases h
      try exact .inl ⟨c', hc, hp⟩

theorem history_run {as : List (Action ρ κ)} (h : run (step O) s as = some s') :
    ∃ later, s'.history = s.history ++ later := by
  refine run_invariant (I := fun t => ∃ later, t.history = s.history ++ later) ?_
    ⟨[], (List.append_nil _).symm⟩ meets_true h
  rintro t a t' ⟨xs, hxs⟩ - hstep
  obtain ⟨ys, hys⟩ := history_step hstep
  exact ⟨xs ++ ys, by rw [hys, hxs, List.append_assoc]⟩

section Sound
variable [DecidableEq π]

theorem replay_step (hreplay : replay O x₀ s.history = some s.object)
    (h : s.step O a = some s') : replay O x₀ s'.history = some s'.object := by
  cases a with
  | handle =>
    simp only [step] at h
    split at h <;> cases h
    rw [replay_append hreplay, replay, if_pos rfl]
    rfl
  | act op =>
    obtain ⟨x, hx, rfl⟩ := Option.map_eq_some_iff.mp h
    rw [replay_append hreplay, replay, hx]
    rfl
  | receive i =>
    simp only [step] at h
    split at h
    · obtain ⟨m, -, rfl⟩ := Option.map_eq_some_iff.mp h
      split <;> exact hreplay
    · cases h
  | reply i =>
    obtain ⟨r, -, rfl⟩ := Option.map_eq_some_iff.mp h
    exact hreplay
  | _ =>
    simp only [step] at h
    try split at h
    all_goals
      cases h
      try exact hreplay

theorem Sound.init (O : Object σ ρ π κ) (x₀ : σ) : Sound O x₀ { object := x₀ } where
  replay := rfl
  copies := fun _ => List.nil_subperm
  replies := by simp
  returned := by simp

theorem Sound.step (h : s.Sound O x₀) (hstep : s.step O a = some s') : s'.Sound O x₀ := by
  obtain ⟨later, hlater⟩ := history_step hstep
  have hcopies : ∀ k, (s'.copies k).Subperm (s'.requests k) := by
    intro k
    obtain ⟨new, hsub, hreq⟩ := copies_step hstep k
    rw [hreq]
    exact hsub.trans ((h.copies k).append (List.Subperm.refl _))
  -- A call is handled once, so what is known of its answer stays.
  have hkeep : ∀ {k e}, answers k s.history = [e] → answers k s'.history = [e] := by
    intro k e he
    have hle := length_answers_le hcopies k
    rw [hlater, answers_append, he, List.length_append, List.length_singleton] at hle
    rw [hlater, answers_append, he,
      List.length_eq_zero_iff.mp (by omega : (answers k later).length = 0)]
    rfl
  refine ⟨replay_step h.replay hstep, hcopies, ?_, ?_⟩
  · intro e he
    rcases replies_step hstep he with hold | ⟨r, -, hr⟩
    · obtain ⟨r, hr⟩ := h.replies e hold
      exact ⟨r, hkeep hr⟩
    · have hle := length_answers_le hcopies e.1
      rw [hr, List.length_append, List.length_singleton] at hle
      refine ⟨r, ?_⟩
      rw [hr, List.length_eq_zero_iff.mp (by omega : (answers e.1 s.history).length = 0)]
      rfl
  · intro k c p hc hp
    rcases returned_step hstep hc hp with ⟨c, hc, hp⟩ | hmem
    · obtain ⟨r, hr⟩ := h.returned k c p hc hp
      exact ⟨r, hkeep hr⟩
    · obtain ⟨r, hr⟩ := h.replies _ hmem
      exact ⟨r, hkeep hr⟩

/-! ### Runs -/

variable {as : List (Action ρ κ)}

theorem Sound.of_run (h : s.Sound O x₀) (hrun : run (System.step O) s as = some s') :
    s'.Sound O x₀ :=
  run_invariant (fun _ _ _ h _ hstep => h.step hstep) h meets_true hrun

theorem Sound.request_eq (h : s.Sound O x₀) {k : ℕ} {c : Call ρ π} {r : ρ} {p : π}
    (hc : s.calls[k]? = some c) (hans : answers k s.history = [(r, p)]) : r = c.request := by
  have hmem : r ∈ s.copies k := by
    refine List.mem_append_right _ ?_
    rw [hans]
    exact List.mem_singleton_self r
  have hreq := (h.copies k).subset hmem
  rw [requests, hc] at hreq
  exact List.mem_singleton.mp hreq

theorem Sound.nothing_of_le (h : s.Sound O x₀) {k : ℕ} (hk : s.calls.length ≤ k) :
    s.copies k = [] := by
  have hsub := h.copies k
  rw [requests, List.getElem?_eq_none hk] at hsub
  exact List.subperm_nil.mp hsub

theorem Sound.answers_eq_nil (h : s.Sound O x₀) {k : ℕ} (hk : s.calls.length ≤ k) :
    answers k s.history = [] :=
  List.map_eq_nil_iff.mp (List.append_eq_nil_iff.mp (h.nothing_of_le hk)).2

theorem Sound.order (h : s.Sound O x₀) (hrun : run (System.step O) s as = some s') {j k : ℕ}
    {c : Call ρ π} {p : π} (hj : s.calls[j]? = some c) (hp : c.phase = .returned p)
    (hk : s.calls.length ≤ k) :
    ∃ later, s'.history = s.history ++ later ∧ answers j later = [] ∧
      answers k s.history = [] := by
  obtain ⟨later, hlater⟩ := history_run hrun
  refine ⟨later, hlater, ?_, h.answers_eq_nil hk⟩
  obtain ⟨r, hr⟩ := h.returned j c p hj hp
  have hle := length_answers_le (h.of_run hrun).copies j
  rw [hlater, answers_append, hr, List.length_append, List.length_singleton] at hle
  exact List.length_eq_zero_iff.mp (by omega)

end Sound

end System
end Rpc
