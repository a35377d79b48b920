import Llumnix.Client.Basic

/-! What the stream that `generate` returns receives. A call that goes through `generate` again
registers a new stream and returns the old one. -/
namespace Llumnix.Client

open Machine Python Output

/-- What a request is to receive of some outputs: its own up to the finished one, and the end. -/
def received (r : String) : List RequestOutput → List (Option RequestOutput)
  | [] => []
  | o :: os =>
    if o.requestId ≠ r then received r os
    else if o.finished then [some o, none] else some o :: received r os

def ended (r : String) (os : List RequestOutput) : Bool :=
  os.any fun o => o.requestId = r ∧ o.finished

theorem received_concat (r : String) (os : List RequestOutput) (o : RequestOutput) :
    received r (os ++ [o]) = received r os ++ if ended r os then [] else received r [o] := by
  induction os with
  | nil => simp [received, ended]
  | cons p os ih =>
    by_cases hr : p.requestId = r
    · by_cases hp : p.finished <;> simp [received, ended, hr, hp] at ih ⊢
      exact ih
    · simp [received, ended, hr] at ih ⊢
      exact ih

theorem ended_concat (r : String) (os : List RequestOutput) (o : RequestOutput) :
    ended r (os ++ [o]) = (ended r os || ended r [o]) := by
  simp [ended]

theorem received_of_ne {r : String} {o : RequestOutput} (h : o.requestId ≠ r) :
    received r [o] = [] ∧ ended r [o] = false := by
  simp [received, ended, h]

theorem received_self {r : String} {o : RequestOutput} (h : o.requestId = r) :
    received r [o] = (if o.finished then [some o, none] else [some o]) ∧
      ended r [o] = o.finished := by
  simp [received, ended, h]

/-- The stream has got the outputs of its request since it was made, up to the finished one. -/
def AsyncStream.Serves (t : AsyncStream) (log : List RequestOutput) : Prop :=
  t.queue = received t.requestId (log.drop t.since) ∧
    t.finished = ended t.requestId (log.drop t.since)

namespace AsyncStream
variable {t : AsyncStream} {log : List RequestOutput} {o : RequestOutput}

@[simp] theorem receive_requestId : (t.receive o).requestId = t.requestId := by
  unfold AsyncStream.receive finish put
  split_ifs <;> rfl

@[simp] theorem receive_since : (t.receive o).since = t.since := by
  unfold AsyncStream.receive finish put
  split_ifs <;> rfl

theorem receive_finished (h : t.finished = false) : (t.receive o).finished = o.finished := by
  cases ho : o.finished <;> simp [AsyncStream.receive, finish, put, h, ho]

theorem Serves.receive (h : t.Serves log) (hsince : t.since ≤ log.length)
    (hfinished : t.finished = false) (ho : o.requestId = t.requestId) :
    (t.receive o).Serves (log ++ [o]) := by
  obtain ⟨hqueue, hended⟩ := h
  have hself := received_self ho
  unfold Serves
  rw [receive_requestId, receive_since, List.drop_append_of_le_length hsince, received_concat,
    ended_concat, ← hended, ← hqueue, hself.1, hself.2, hfinished]
  cases hf : o.finished <;> simp [AsyncStream.receive, put, finish, hf, hfinished]

theorem Serves.skip (h : t.Serves log) (hsince : t.since ≤ log.length)
    (hskip : t.finished = true ∨ o.requestId ≠ t.requestId) : t.Serves (log ++ [o]) := by
  obtain ⟨hqueue, hended⟩ := h
  unfold Serves
  rw [List.drop_append_of_le_length hsince, received_concat, ended_concat, ← hended, ← hqueue]
  rcases hskip with hfinished | hne
  · simp [hfinished]
  · simp [received_of_ne hne]

end AsyncStream

namespace Streams
variable {s : Streams} {r : String} {t : ℕ} {o : RequestOutput}

/-- The stream is the registered one of its request, or over. -/
def Kept (s : Streams) (t : ℕ) : Prop :=
  ∀ stream, s.made[t]? = some stream →
    stream.finished = true ∨ s.requestStreams.get? stream.requestId = some t

def Serves (s : Streams) (t : ℕ) : Prop :=
  ∀ stream, s.made[t]? = some stream → stream.Serves s.log

structure Sound (s : Streams) : Prop where
  registered : ∀ r t, s.requestStreams.get? r = some t →
    ∃ stream, s.made[t]? = some stream ∧ stream.requestId = r ∧ stream.finished = false
  since : ∀ stream ∈ s.made, stream.since ≤ s.log.length
  serves : ∀ t, s.Kept t → s.Serves t

theorem sound_empty : Sound {} where
  registered r t h := by cases h
  since stream h := by cases h
  serves t _ stream h := by cases h

theorem Sound.lt_length (h : s.Sound) (hr : s.requestStreams.get? r = some t) :
    t < s.made.length := by
  obtain ⟨stream, hstream, -⟩ := h.registered r t hr
  exact (List.getElem?_eq_some_iff.mp hstream).1

/-! ### Registration -/

theorem kept_register (h : s.Sound) :
    (s.register r).Kept t ↔ s.Kept t ∧ s.requestStreams.get? r ≠ some t := by
  unfold Kept register
  rcases Nat.lt_trichotomy t s.made.length with hlt | heq | hgt
  · obtain ⟨stream, hstream⟩ : ∃ stream, s.made[t]? = some stream :=
      ⟨_, List.getElem?_eq_getElem hlt⟩
    simp only [List.getElem?_append_left hlt, hstream, Option.some.injEq, forall_eq',
      Dict.get?_set]
    have hfresh : s.made.length ≠ t := by omega
    by_cases hr : s.requestStreams.get? r = some t
    · obtain ⟨stream', hstream', hid, hfinished⟩ := h.registered r t hr
      rw [hstream] at hstream'
      cases hstream'
      simp [hid, hfinished, hfresh, hr]
    · by_cases hid : stream.requestId = r
      · simp [hid, hfresh, hr]
      · simp [hid, hr]
  · have hr : s.requestStreams.get? r ≠ some t := fun hr => by
      have hlt := h.lt_length hr
      omega
    rw [heq] at hr ⊢
    simp [hr, Dict.get?_set]
  · have hr : s.requestStreams.get? r ≠ some t := fun hr => by
      have hlt := h.lt_length hr
      omega
    have hnone : s.made[t]? = none := List.getElem?_eq_none (by omega)
    have hnone' : (s.made ++ [⟨r, s.log.length, [], false⟩])[t]? = none :=
      List.getElem?_eq_none (by simp; omega)
    simp [hnone, hnone', hr]

theorem Sound.register (h : s.Sound) (r : String) : (s.register r).Sound where
  registered q t hq := by
    simp only [Streams.register, Dict.get?_set] at hq ⊢
    split_ifs at hq with hqr
    · cases hq
      exact ⟨⟨r, s.log.length, [], false⟩, by simp, hqr.symm, rfl⟩
    · obtain ⟨stream, hstream, hid, hfinished⟩ := h.registered q t hq
      have hlt := h.lt_length hq
      exact ⟨stream, by rw [List.getElem?_append_left hlt, hstream], hid, hfinished⟩
  since stream hstream := by
    rcases List.mem_append.mp hstream with hold | hnew
    · exact h.since stream hold
    · rw [List.mem_singleton.mp hnew]
      exact Nat.le_refl _
  serves t hkept stream hstream := by
    have hold := ((kept_register h).mp hkept).1
    simp only [Streams.register] at hstream ⊢
    by_cases hlt : t < s.made.length
    · rw [List.getElem?_append_left hlt] at hstream
      exact h.serves t hold stream hstream
    · rw [List.getElem?_append_right (by omega)] at hstream
      obtain ⟨-, rfl⟩ := List.getElem?_eq_some_iff.mp hstream
      simp [AsyncStream.Serves, received, ended]

/-! ### Outputs -/

theorem made_deliver (t : ℕ) : (s.deliver o).made[t]? =
    if s.requestStreams.get? o.requestId = some t then s.made[t]?.map (·.receive o)
    else s.made[t]? := by
  unfold deliver
  cases hreg : s.requestStreams.get? o.requestId with
  | none => simp
  | some u =>
    simp only [Option.some.injEq, List.getElem?_modify]
    by_cases hut : u = t <;> simp [hut]

theorem log_deliver : (s.deliver o).log = s.log ++ [o] := by
  unfold deliver
  split <;> rfl

theorem log_deliverAll (s : Streams) (batch : List RequestOutput) :
    (batch.foldl Streams.deliver s).log = s.log ++ batch := by
  induction batch generalizing s with
  | nil => simp
  | cons o batch ih =>
    rw [List.foldl_cons, ih, log_deliver, List.append_assoc, List.singleton_append]

theorem get?_deliver {q : String} : (s.deliver o).requestStreams.get? q =
    if o.finished ∧ q = o.requestId then none else s.requestStreams.get? q := by
  unfold deliver
  cases hreg : s.requestStreams.get? o.requestId with
  | none =>
    by_cases hq : q = o.requestId
    · simp [hq, hreg]
    · simp [hq]
  | some u =>
    by_cases hf : o.finished = true <;> simp [hf, Dict.get?_erase]

theorem kept_deliver (h : s.Sound) : (s.deliver o).Kept t ↔ s.Kept t := by
  unfold Kept
  rw [made_deliver]
  cases hmade : s.made[t]? with
  | none => simp
  | some stream =>
    by_cases hreg : s.requestStreams.get? o.requestId = some t
    · obtain ⟨stream', hstream', hid, hfinished⟩ := h.registered _ t hreg
      rw [hmade] at hstream'
      cases hstream'
      cases hf : o.finished <;>
        simp [hreg, get?_deliver, AsyncStream.receive_finished hfinished, hid, hf, hfinished]
    · simp only [if_neg hreg, Option.some.injEq, forall_eq', get?_deliver]
      by_cases hid : stream.requestId = o.requestId
      · by_cases hf : o.finished = true <;> simp [hid, hf, hreg]
      · simp [hid]

theorem Sound.deliver (h : s.Sound) (o : RequestOutput) : (s.deliver o).Sound where
  registered q t hq := by
    rw [get?_deliver] at hq
    split_ifs at hq with hdone
    obtain ⟨stream, hstream, hid, hfinished⟩ := h.registered q t hq
    rw [made_deliver, hstream]
    by_cases hreg : s.requestStreams.get? o.requestId = some t
    · obtain ⟨stream', hstream', hid', -⟩ := h.registered _ t hreg
      rw [hstream] at hstream'
      cases hstream'
      have hof : o.finished = false := by
        by_contra hof
        exact hdone ⟨by simpa using hof, hid.symm.trans hid'⟩
      refine ⟨stream.receive o, by simp [hreg], by simp [hid], ?_⟩
      rw [AsyncStream.receive_finished hfinished, hof]
    · exact ⟨stream, by simp [hreg], hid, hfinished⟩
  since stream hstream := by
    obtain ⟨t, ht⟩ := List.mem_iff_getElem?.mp hstream
    have hold : ∃ old ∈ s.made, stream.since = old.since := by
      rw [made_deliver] at ht
      split_ifs at ht
      · obtain ⟨old, hmem, rfl⟩ := Option.map_eq_some_iff.mp ht
        exact ⟨old, List.mem_of_getElem? hmem, AsyncStream.receive_since⟩
      · exact ⟨stream, List.mem_of_getElem? ht, rfl⟩
    obtain ⟨old, hmem, hsince⟩ := hold
    have hle := h.since old hmem
    rw [log_deliver, List.length_append, hsince]
    omega
  serves t hkept stream hstream := by
    have hold := (kept_deliver h).mp hkept
    rw [made_deliver] at hstream
    rw [log_deliver]
    by_cases hreg : s.requestStreams.get? o.requestId = some t
    · obtain ⟨old, hmade, hid, hfinished⟩ := h.registered _ t hreg
      simp only [hreg, if_true, hmade, Option.map_some, Option.some.injEq] at hstream
      rw [← hstream]
      exact (h.serves t hold old hmade).receive (h.since old (List.mem_of_getElem? hmade))
        hfinished hid.symm
    · rw [if_neg hreg] at hstream
      refine (h.serves t hold stream hstream).skip (h.since _ (List.mem_of_getElem? hstream)) ?_
      rcases hold stream hstream with hfinished | hmine
      · exact .inl hfinished
      · refine .inr fun hid => hreg ?_
        rw [hid, hmine]

theorem Sound.deliverAll (h : s.Sound) (batch : List RequestOutput) :
    (batch.foldl Streams.deliver s).Sound := by
  induction batch generalizing s with
  | nil => exact h
  | cons o batch ih => exact ih (h.deliver o)

theorem kept_deliverAll (h : s.Sound) (batch : List RequestOutput) :
    (batch.foldl Streams.deliver s).Kept t ↔ s.Kept t := by
  induction batch generalizing s with
  | nil => exact Iff.rfl
  | cons o batch ih =>
    rw [List.foldl_cons, ih (h.deliver o)]
    exact kept_deliver h

theorem kept_of_serves (h : s.Sound)
    (hserves : ∀ batch : List RequestOutput, (batch.foldl Streams.deliver s).Serves t) :
    s.Kept t := by
  intro stream hstream
  by_contra hlost
  obtain ⟨hrunning, hreg⟩ := not_or.mp hlost
  let o : RequestOutput := ⟨stream.requestId, true, 0⟩
  have hmade : (s.deliver o).made[t]? = some stream := by
    rw [made_deliver, if_neg hreg, hstream]
  have hend := (hserves [o] stream hmade).2
  have hsince := h.since stream (List.mem_of_getElem? hstream)
  change stream.finished = ended stream.requestId ((s.deliver o).log.drop stream.since) at hend
  rw [log_deliver, List.drop_append_of_le_length hsince, ended_concat] at hend
  simp [ended, o] at hend
  exact hrunning hend

end Streams

namespace LlumnixClientVLLM
variable {H : Type} {s s' : LlumnixClientVLLM H} {a : Action H}

def Registers (s : LlumnixClientVLLM H) (r : String) : Action H → Prop
  | .generate requestId n => n ≤ 1 ∧ requestId = r
  | .restart k => ∃ call, s.calls[k]? = some call ∧ call.requestId = r
  | _ => False

/-- The action puts a new stream in the place of this one. -/
def Replaces (t : ℕ) (s : LlumnixClientVLLM H) (a : Action H) : Prop :=
  ∃ r, s.Registers r a ∧ s.streams.requestStreams.get? r = some t

def registered (s : LlumnixClientVLLM H) : Action H → Option String
  | .generate requestId n => if n ≤ 1 then some requestId else none
  | .restart k => s.calls[k]?.map Call.requestId
  | _ => none

theorem registers_iff {r : String} : s.Registers r a ↔ r ∈ s.registered a := by
  cases a <;> simp [Registers, registered]

instance (t : ℕ) (s : LlumnixClientVLLM H) (a : Action H) : Decidable (Replaces t s a) :=
  decidable_of_iff _ (exists_congr fun _ => and_congr_left' registers_iff.symm)

theorem streams_deliverAll (s : LlumnixClientVLLM H) (batch : List RequestOutput) :
    (batch.foldl deliver s).streams = batch.foldl Streams.deliver s.streams := by
  induction batch generalizing s with
  | nil => rfl
  | cons o batch ih => exact ih (s.deliver o)

theorem streams_generateByInstance (s : LlumnixClientVLLM H) (k : ℕ) (r : String) :
    (s.generateByInstance k r).streams = s.streams := by
  unfold generateByInstance
  split <;> rfl

theorem streams_abortByInstance (s : LlumnixClientVLLM H) (j : ℕ) (r : String) :
    (s.abortByInstance j r).streams = s.streams := by
  unfold abortByInstance
  dsimp only
  split
  · rfl
  · split_ifs <;> rfl

theorem step_streams (hstep : s.step a = some s') :
    (∃ r, (∀ q, s.Registers q a ↔ q = r) ∧ s'.streams = s.streams.register r) ∨
      (∀ q, ¬s.Registers q a) ∧
        ∃ batch : List RequestOutput, s'.streams = batch.foldl Streams.deliver s.streams := by
  cases steps_of_step hstep with
  | refused hn => exact .inr ⟨fun q hq => absurd hq.1 (by omega), [], rfl⟩
  | @generate r n hn =>
    refine .inl ⟨r, fun q => ?_, rfl⟩
    simp only [Registers, eq_comm (a := r), and_iff_right_iff_imp]
    omega
  | @restart k stream r hcall =>
    refine .inl ⟨r, fun q => ?_, rfl⟩
    simp [Registers, hcall, eq_comm]
  | outputs batch => exact .inr ⟨fun _ h => h, batch, streams_deliverAll s batch⟩
  | fallsBack _ => exact .inr ⟨fun _ h => h, [], streams_generateByInstance _ _ _⟩
  | abortOutage _ _ => exact .inr ⟨fun _ h => h, [], streams_abortByInstance _ _ _⟩
  | _ => exact .inr ⟨fun _ h => h, [], rfl⟩

theorem sound_step (h : s.streams.Sound) (hstep : s.step a = some s') : s'.streams.Sound := by
  rcases step_streams hstep with ⟨r, -, hs'⟩ | ⟨-, batch, hs'⟩
  · rw [hs']
    exact h.register r
  · rw [hs']
    exact h.deliverAll batch

theorem kept_step {t : ℕ} (h : s.streams.Sound) (hstep : s.step a = some s') :
    s'.streams.Kept t ↔ s.streams.Kept t ∧ ¬Replaces t s a := by
  rcases step_streams hstep with ⟨r, hr, hs'⟩ | ⟨hnone, batch, hs'⟩
  · rw [hs', Streams.kept_register h]
    simp [Replaces, hr]
  · rw [hs', Streams.kept_deliverAll h]
    simp [Replaces, hnone]

theorem run_outputs (s : LlumnixClientVLLM H) (batches : List (List RequestOutput)) :
    ∃ s', run step s (batches.map .outputs) = some s' ∧
      s'.streams = batches.flatten.foldl Streams.deliver s.streams := by
  induction batches generalizing s with
  | nil => exact ⟨s, rfl, rfl⟩
  | cons batch batches ih =>
    obtain ⟨s', hrun, hs'⟩ := ih (batch.foldl deliver s)
    refine ⟨s', hrun, ?_⟩
    rw [hs', streams_deliverAll, List.flatten_cons, List.foldl_append]

/-- Whatever outputs come from here on, the stream gets those of its request. -/
def WillServe (s : LlumnixClientVLLM H) (t : ℕ) : Prop :=
  ∀ (batches : List (List RequestOutput)) s',
    run step s (batches.map .outputs) = some s' → s'.streams.Serves t

theorem willServe_iff_kept {t : ℕ} (h : s.streams.Sound) : s.WillServe t ↔ s.streams.Kept t := by
  constructor
  · intro hserve
    refine Streams.kept_of_serves h fun batch => ?_
    obtain ⟨s', hrun, hs'⟩ := run_outputs s [batch]
    rw [List.flatten_singleton] at hs'
    rw [← hs']
    exact hserve [batch] s' hrun
  · intro hkept batches s' hrun
    obtain ⟨s'', hrun', hs''⟩ := run_outputs s batches
    rw [hrun] at hrun'
    cases hrun'
    rw [hs'']
    exact (h.deliverAll _).serves t ((Streams.kept_deliverAll h _).mpr hkept)

/-- A call of `generate`, whatever failed on the way, has handed out a stream that gets the outputs
of its request exactly if no other stream was put in its place. -/
theorem returned_stream_serves_iff (instances : Dict String H) (as : List (Action H))
    (hrun : run step (.new instances) as = some s) {call : Call} {acceptedBy : Option String}
    (_ : call ∈ s.calls) (_ : call.point = .returned acceptedBy) :
    s.WillServe call.stream ↔
      Meets step (fun u a => ¬Replaces call.stream u a) (.new instances) as := by
  have hstart : (new instances).streams.Sound := Streams.sound_empty
  have hsound : s.streams.Sound := run_invariant (I := fun s => s.streams.Sound)
    (fun _ _ _ h _ hstep => sound_step h hstep) hstart meets_true hrun
  rw [willServe_iff_kept hsound]
  refine end_iff_meets (I := fun s => s.streams.Sound) (K := fun s => s.streams.Kept call.stream)
    (fun _ _ _ h hstep => sound_step h hstep) (fun _ _ _ h hstep => kept_step h hstep) hstart ?_
    hrun
  intro stream hstream
  cases hstream

def behind : Dict String Unit := Dict.empty.set "a" ()

/-- The Manager is down; the instance takes one request and dies at the next one, which goes through
`generate` again. -/
def takenOver : List (Action Unit) :=
  [.generate "p" 1, .managerAnswers 0 .actorError, .generate "r" 1, .managerAnswers 1 .actorError,
    .instanceAnswers 1 .ok, .generate "q" 1, .managerAnswers 2 .actorError,
    .instanceAnswers 2 .actorError, .restart 2, .managerAnswers 2 .ok]

theorem returned_stream_serves_takenOver : ∃ s : LlumnixClientVLLM Unit,
    run step (.new behind) takenOver = some s ∧ ⟨"r", 1, .returned (some "a")⟩ ∈ s.calls ∧
      s.WillServe 1 := by
  have hmem : (⟨"r", 1, .returned (some "a")⟩ : Call) ∈ [⟨"p", 0, .returned none⟩,
      ⟨"r", 1, .returned (some "a")⟩, ⟨"q", 2, .returned none⟩] := by decide
  exact ⟨_, rfl, hmem, (returned_stream_serves_iff behind takenOver rfl hmem rfl).mpr (by decide)⟩

/-- The Manager is down, and then the instance dies. -/
def outage : List (Action Unit) :=
  [.generate "q" 1, .managerAnswers 0 .actorError, .generate "r" 1, .managerAnswers 1 .actorError,
    .instanceAnswers 1 .actorError, .restart 1, .managerAnswers 1 .ok]

/-- All outputs go to a stream that nobody reads. -/
theorem returned_stream_starves : ∃ s s' : LlumnixClientVLLM Unit,
    run step (.new behind) outage = some s ∧ ⟨"r", 1, .returned none⟩ ∈ s.calls ∧
      s.step (.outputs [⟨"r", false, 0⟩, ⟨"r", true, 1⟩]) = some s' ∧
      s'.streams.made[1]? = some ⟨"r", 0, [], false⟩ ∧
      s'.streams.made[2]? = some ⟨"r", 0, [some ⟨"r", false, 0⟩, some ⟨"r", true, 1⟩, none], true⟩ ∧
      ¬s.WillServe 1 := by
  refine ⟨_, _, rfl, by decide, rfl, by decide, by decide, fun h => ?_⟩
  have hserves := h [[⟨"r", false, 0⟩, ⟨"r", true, 1⟩]] _ rfl ⟨"r", 0, [], false⟩ (by decide)
  have hqueue := hserves.1
  revert hqueue
  decide

end LlumnixClientVLLM
end Llumnix.Client
