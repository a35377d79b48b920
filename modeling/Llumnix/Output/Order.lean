import Llumnix.Machine.Run
import Llumnix.Python.Dict
import Mathlib.Data.List.Infix

/-! How the outputs of the legacy engine get to the queues of the API servers: through a queue and a
thread in the engine, calls of an actor that nobody awaits, and one connection for each message. -/
namespace Llumnix.Output

open Machine Python

/-- `serial` tells outputs apart: the engine has put that many before. -/
structure RequestOutput where
  requestId : String
  finished : Bool
  serial : ℕ
  deriving DecidableEq

abbrev Addressed := RequestOutput × String

/-- The arguments of `put_nowait_to_servers`: a list of outputs for each server. -/
abbrev ServerRequestOutputs := Dict String (List RequestOutput)

/-- From `put_queue_args_queue` to the queues of the servers. `flying` are the messages on the way,
the oldest first; `arrived` and `produced` are all that the servers and the engine have put in their
queues. -/
structure Pipeline where
  putQueueArgsQueue : List (List Addressed) := []
  submitted : List ServerRequestOutputs := []
  flying : List (String × List RequestOutput) := []
  arrived : List (String × List RequestOutput) := []
  produced : List Addressed := []

inductive Action where
  | put (outputs : List (String × Bool × String))
  | take
  | start
  | arrive (k : ℕ)

def numbered (n : ℕ) : List (String × Bool × String) → List Addressed
  | [] => []
  | (requestId, finished, serverId) :: outputs =>
    (⟨requestId, finished, n⟩, serverId) :: numbered (n + 1) outputs

/-- `_put_request_outputs_to_server`: the outputs by server. -/
def serverRequestOutputs (outputs : List Addressed) : ServerRequestOutputs :=
  Dict.group (outputs.map Prod.swap)

namespace Pipeline

def step (s : Pipeline) : Action → Option Pipeline
  -- the end of `_process_request_outputs`
  | .put outputs =>
    let batch := numbered s.produced.length outputs
    some { s with
      putQueueArgsQueue := s.putQueueArgsQueue ++ if batch = [] then [] else [batch]
      produced := s.produced ++ batch }
  -- `_start_put_queue_loop`
  | .take =>
    match s.putQueueArgsQueue with
    | [] => none
    | batch :: batches =>
      some { s with
        putQueueArgsQueue := batches
        submitted := s.submitted ++ [serverRequestOutputs batch] }
  -- `put_nowait_to_servers`: one task and one connection for each server
  | .start =>
    match s.submitted with
    | [] => none
    | call :: calls => some { s with submitted := calls, flying := s.flying ++ call.items }
  -- `_put_nowait` of the server
  | .arrive k =>
    match s.flying[k]? with
    | none => none
    | some m => some { s with flying := s.flying.eraseIdx k, arrived := s.arrived ++ [m] }

end Pipeline

def select (v r : String) (outputs : List Addressed) : List RequestOutput :=
  (outputs.filter fun e => e.2 = v ∧ e.1.requestId = r).map Prod.fst

def unpacked (messages : List (String × List RequestOutput)) : List Addressed :=
  messages.flatMap fun m => m.2.map (·, m.1)

namespace Pipeline

/-- All that is under way, as it would arrive in order. -/
def outstanding (s : Pipeline) : List Addressed :=
  unpacked s.flying ++ unpacked (s.submitted.flatMap Dict.items) ++ s.putQueueArgsQueue.flatten

/-- The queue of each server has the outputs of each request as the engine put them, as far as they
have got, and all of them once nothing is under way. -/
def InOrder (s : Pipeline) : Prop :=
  ∀ v r, select v r (unpacked s.arrived) <+: select v r s.produced ∧
    (s.outstanding = [] → select v r (unpacked s.arrived) = select v r s.produced)

/-- No message overtakes an older one to the same server that has outputs of the same request. -/
def NotOvertaking (s : Pipeline) : Action → Prop
  | .arrive k => ∀ m, s.flying[k]? = some m → ∀ m' ∈ s.flying.take k, m'.1 = m.1 →
      ∀ o ∈ m.2, ∀ o' ∈ m'.2, o'.requestId ≠ o.requestId
  | _ => True

/-- What has arrived and what is under way is what the engine put, in this order. -/
structure Conserves (s : Pipeline) : Prop where
  select_eq : ∀ v r, select v r s.produced =
    select v r (unpacked s.arrived) ++ select v r s.outstanding
  serials : s.produced.map (·.1.serial) = List.range s.produced.length

end Pipeline

section Select
variable (v r : String)

@[simp] theorem select_nil : select v r [] = [] := rfl

@[simp] theorem select_append (xs ys : List Addressed) :
    select v r (xs ++ ys) = select v r xs ++ select v r ys := by
  simp [select]

@[simp] theorem unpacked_nil : unpacked [] = [] := rfl

@[simp] theorem unpacked_append (xs ys : List (String × List RequestOutput)) :
    unpacked (xs ++ ys) = unpacked xs ++ unpacked ys := by
  simp [unpacked]

@[simp] theorem unpacked_cons (m : String × List RequestOutput)
    (ms : List (String × List RequestOutput)) :
    unpacked (m :: ms) = m.2.map (·, m.1) ++ unpacked ms := by
  simp [unpacked]

theorem select_message (m : String × List RequestOutput) : select v r (m.2.map (·, m.1)) =
    if m.1 = v then m.2.filter (·.requestId = r) else [] := by
  unfold select
  rw [List.filter_map, List.map_map]
  by_cases hv : m.1 = v
  · simp [hv, Function.comp_def]
  · simp [hv, Function.comp_def]

theorem mem_select {o : RequestOutput} {xs : List Addressed} :
    o ∈ select v r xs ↔ (o, v) ∈ xs ∧ o.requestId = r := by
  simp only [select, List.mem_map, List.mem_filter, decide_eq_true_eq]
  constructor
  · rintro ⟨⟨o', v'⟩, ⟨hmem, rfl, hr⟩, rfl⟩
    exact ⟨hmem, hr⟩
  · rintro ⟨hmem, hr⟩
    exact ⟨(o, v), ⟨hmem, rfl, hr⟩, rfl⟩

theorem select_serverRequestOutputs (outputs : List Addressed) :
    select v r (unpacked (serverRequestOutputs outputs).items) = select v r outputs := by
  have hserver : ∀ ms : List (String × List RequestOutput), select v r (unpacked ms) =
      ((ms.filter (·.1 = v)).flatMap Prod.snd).filter (·.requestId = r) := by
    intro ms
    induction ms with
    | nil => rfl
    | cons m ms ih =>
      rw [unpacked_cons, select_append, ih, select_message]
      by_cases hv : m.1 = v
      · simp [hv]
      · simp [hv]
  have hvalues := Dict.getD_group (outputs.map Prod.swap) v
  rw [hserver, Dict.filter_items]
  have hflat : (((serverRequestOutputs outputs).get? v).toList.map (v, ·)).flatMap Prod.snd =
      ((serverRequestOutputs outputs).get? v).getD [] := by
    cases (serverRequestOutputs outputs).get? v <;> simp
  rw [hflat, serverRequestOutputs, hvalues]
  clear hvalues hflat hserver
  induction outputs with
  | nil => rfl
  | cons e outputs ih =>
    unfold select at ih ⊢
    by_cases hv : e.2 = v
    · by_cases hr : e.1.requestId = r
      · simpa [hv, hr] using ih
      · simpa [hv, hr] using ih
    · simpa [hv] using ih

end Select

theorem serials_numbered (n : ℕ) (outputs : List (String × Bool × String)) :
    (numbered n outputs).map (·.1.serial) =
      (List.range (numbered n outputs).length).map (n + ·) := by
  induction outputs generalizing n with
  | nil => rfl
  | cons o outputs ih =>
    obtain ⟨requestId, finished, serverId⟩ := o
    simp only [numbered, List.map_cons, List.length_cons, List.range_succ_eq_map, ih]
    simp only [List.map_map, Function.comp_def, Nat.add_zero]
    congr 1
    refine List.map_congr_left fun k _ => ?_
    omega

namespace Pipeline
variable {s s' : Pipeline} {m : String × List RequestOutput}

theorem Conserves.inOrder (h : s.Conserves) : s.InOrder := by
  intro v r
  rw [h.select_eq v r]
  refine ⟨List.prefix_append _ _, fun hnone => ?_⟩
  simp [hnone]

theorem Conserves.nodup (h : s.Conserves) (v r : String) : (select v r s.produced).Nodup := by
  have hserials : (s.produced.map (·.1.serial)).Nodup := h.serials ▸ List.nodup_range
  have hselected : ((select v r s.produced).map (·.serial)).Nodup := by
    unfold select
    rw [List.map_map]
    exact hserials.sublist (List.filter_sublist.map _)
  exact hselected.of_map

theorem Conserves.put (h : s.Conserves) {batch : List Addressed}
    (hserials : batch.map (·.1.serial) = (List.range batch.length).map (s.produced.length + ·)) :
    Conserves { s with
      putQueueArgsQueue := s.putQueueArgsQueue ++ if batch = [] then [] else [batch]
      produced := s.produced ++ batch } where
  select_eq v r := by
    have hflatten : (if batch = [] then [] else [batch]).flatten = batch := by
      by_cases hb : batch = [] <;> simp [hb]
    have hold := h.select_eq v r
    simp only [outstanding, select_append] at hold ⊢
    rw [List.flatten_append, hflatten, select_append, hold]
    simp only [List.append_assoc]
  serials := by
    rw [List.map_append, h.serials, hserials, List.length_append, List.range_add]

theorem Conserves.take (h : s.Conserves) {batch : List Addressed} {batches : List (List Addressed)}
    (hqueue : s.putQueueArgsQueue = batch :: batches) :
    Conserves { s with
      putQueueArgsQueue := batches
      submitted := s.submitted ++ [serverRequestOutputs batch] } where
  select_eq v r := by
    have hold := h.select_eq v r
    simp only [outstanding, hqueue, select_append, List.flatten_cons] at hold ⊢
    rw [hold, List.flatMap_append]
    simp only [unpacked_append, select_append, List.flatMap_singleton, select_serverRequestOutputs,
      List.append_assoc]
  serials := h.serials

theorem Conserves.start (h : s.Conserves) {call : ServerRequestOutputs}
    {calls : List ServerRequestOutputs} (hcalls : s.submitted = call :: calls) :
    Conserves { s with submitted := calls, flying := s.flying ++ call.items } where
  select_eq v r := by
    have hold := h.select_eq v r
    simp only [outstanding, hcalls, List.flatMap_cons, unpacked_append, select_append] at hold ⊢
    rw [hold]
    simp only [List.append_assoc]
  serials := h.serials

theorem flying_split {k : ℕ} (hm : s.flying[k]? = some m) :
    s.flying = s.flying.take k ++ m :: s.flying.drop (k + 1) ∧
      s.flying.eraseIdx k = s.flying.take k ++ s.flying.drop (k + 1) := by
  obtain ⟨hk, hget⟩ := List.getElem?_eq_some_iff.mp hm
  refine ⟨?_, List.eraseIdx_eq_take_drop_succ _ _⟩
  rw [← hget, List.getElem_cons_drop, List.take_append_drop]

theorem Conserves.arrive (h : s.Conserves) {k : ℕ} (hm : s.flying[k]? = some m)
    (hfirst : s.NotOvertaking (.arrive k)) :
    Conserves { s with flying := s.flying.eraseIdx k, arrived := s.arrived ++ [m] } where
  select_eq v r := by
    obtain ⟨hsplit, herase⟩ := flying_split hm
    have hold := h.select_eq v r
    -- either nothing older is under way to the server for the request, or the message has nothing
    have hswap : select v r (unpacked (s.flying.take k)) ++ select v r (m.2.map (·, m.1)) =
        select v r (m.2.map (·, m.1)) ++ select v r (unpacked (s.flying.take k)) := by
      by_cases hnone : select v r (m.2.map (·, m.1)) = []
      · simp [hnone]
      · obtain ⟨o, ho⟩ := List.exists_mem_of_ne_nil _ hnone
        obtain ⟨hov, hor⟩ := (mem_select v r).mp ho
        obtain ⟨o, hom, heq⟩ := List.mem_map.mp hov
        cases heq
        have holder : select m.1 r (unpacked (s.flying.take k)) = [] := by
          rw [List.eq_nil_iff_forall_not_mem]
          intro o' ho'
          obtain ⟨ho', hr'⟩ := (mem_select _ r).mp ho'
          obtain ⟨m', hm', hin⟩ := List.mem_flatMap.mp ho'
          obtain ⟨o'', ho'', heq⟩ := List.mem_map.mp hin
          obtain ⟨rfl, hserver⟩ : o'' = o' ∧ m'.1 = m.1 := by simpa using heq
          exact hfirst m hm m' hm' hserver o hom o'' ho'' (hr'.trans hor.symm)
        simp [holder]
    rw [outstanding, hsplit] at hold
    rw [outstanding, herase]
    simp only [unpacked_append, unpacked_cons, unpacked_nil, select_append, List.append_nil,
      List.append_assoc] at hold hswap ⊢
    rw [hold, ← List.append_assoc (select v r (unpacked (s.flying.take k))), hswap,
      List.append_assoc]
  serials := h.serials

theorem conserves_step (h : s.Conserves) {a : Action} (ha : s.NotOvertaking a)
    (hstep : s.step a = some s') : s'.Conserves := by
  cases a with
  | put outputs =>
    cases hstep
    exact h.put (serials_numbered _ outputs)
  | take =>
    simp only [step] at hstep
    split at hstep
    · cases hstep
    · rename_i batch batches hqueue
      cases hstep
      exact h.take hqueue
  | start =>
    simp only [step] at hstep
    split at hstep
    · cases hstep
    · rename_i call calls hcalls
      cases hstep
      exact h.start hcalls
  | arrive k =>
    simp only [step] at hstep
    split at hstep
    · cases hstep
    · rename_i m hm
      cases hstep
      exact h.arrive hm ha

/-- An output that arrives before an older one of its request is out of order at once. -/
theorem notOvertaking_of_inOrder (h : s.Conserves) {k : ℕ} (hm : s.flying[k]? = some m)
    (hin : InOrder { s with flying := s.flying.eraseIdx k, arrived := s.arrived ++ [m] }) :
    s.NotOvertaking (.arrive k) := by
  intro n hn m' hm' hserver o ho o' ho' hr
  obtain rfl : m = n := Option.some.inj (hm.symm.trans hn)
  obtain ⟨hsplit, -⟩ := flying_split hm
  have hnodup := h.nodup m.1 o.requestId
  have hprefix := (hin m.1 o.requestId).1
  have hold := h.select_eq m.1 o.requestId
  rw [outstanding, hsplit] at hold
  simp only [unpacked_append, unpacked_cons, unpacked_nil, select_append, List.append_nil,
    List.append_assoc] at hold hprefix
  rw [hold] at hnodup hprefix
  rw [List.prefix_append_right_inj] at hprefix
  have hmine : o ∈ select m.1 o.requestId (m.2.map (·, m.1)) :=
    (mem_select _ _).mpr ⟨List.mem_map_of_mem ho, rfl⟩
  have holder : o' ∈ select m.1 o.requestId (unpacked (s.flying.take k)) := by
    refine (mem_select _ _).mpr ⟨List.mem_flatMap.mpr ⟨m', hm', ?_⟩, hr⟩
    rw [hserver]
    exact List.mem_map_of_mem ho'
  -- the first output that arrives now would be the first one under way, which is another
  generalize select m.1 o.requestId (m.2.map (·, m.1)) = mine at *
  generalize select m.1 o.requestId (unpacked (s.flying.take k)) = older at *
  obtain ⟨x, mine, rfl⟩ := List.exists_cons_of_ne_nil (List.ne_nil_of_mem hmine)
  obtain ⟨y, older, rfl⟩ := List.exists_cons_of_ne_nil (List.ne_nil_of_mem holder)
  obtain ⟨rest, hrest⟩ := hprefix
  have hxy : x = y := by
    simpa using congrArg List.head? hrest
  have hdisjoint := List.disjoint_of_nodup_append (List.Nodup.of_append_right hnodup)
  exact hdisjoint (List.mem_cons_self) (by simp [hxy])

theorem notOvertaking_of_step (h : s.Conserves) {a : Action}
    (hin : ∀ s', s.step a = some s' → s'.InOrder) : s.NotOvertaking a := by
  cases a with
  | arrive k =>
    intro m hm
    have hstep : s.step (.arrive k) =
        some { s with flying := s.flying.eraseIdx k, arrived := s.arrived ++ [m] } := by
      simp [step, hm]
    exact notOvertaking_of_inOrder h hm (hin _ hstep) m hm
  | put | take | start => trivial

/-- The outputs of every request stand in the queues as the engine put them if and only if no
message overtakes an older one to the same server with outputs of the same request. -/
theorem outputs_in_order_iff (as : List Action) :
    Always step InOrder {} as ↔ Meets step NotOvertaking {} as := by
  have hinit : Conserves {} := ⟨fun v r => rfl, rfl⟩
  refine always_iff_meets (I := Conserves) (fun s a s' hs _ hstep hin => ?_)
    (fun s a hs _ => ⟨notOvertaking_of_step hs, fun ha s' hstep => ?_⟩) hinit hinit.inOrder
  · have ha : s.NotOvertaking a := by
      refine notOvertaking_of_step hs fun t ht => ?_
      rw [hstep] at ht
      cases ht
      exact hin
    exact conserves_step hs ha hstep
  · exact (conserves_step hs ha hstep).inOrder

/-- Two steps of one request: the message with the finished output overtakes the one before. -/
theorem finished_output_arrives_first : ∃ s, run step {} [.put [("r", false, "v")], .take, .start,
      .put [("r", true, "v")], .take, .start, .arrive 1, .arrive 0] = some s ∧
    s.arrived = [("v", [⟨"r", true, 1⟩]), ("v", [⟨"r", false, 0⟩])] ∧ ¬s.InOrder := by
  refine ⟨_, rfl, rfl, fun h => ?_⟩
  have hprefix := (h "v" "r").1
  exact absurd hprefix (by decide)

end Pipeline

end Llumnix.Output
