import Llumnix.Coroutine.Safe
import Llumnix.V1.Footprint
import Llumnix.V1.Ledger

/-! When a run of `_migrate_v1_request_with_retry` leaves the request stranded. -/
namespace Llumnix.V1
open Coroutine

namespace Ledger

def shipping : Ledger := ⟨true, false, false⟩
/-- Committed on the target, not yet released. -/
def confirmed : Ledger := ⟨true, true, false⟩
def handedOver : Ledger := ⟨false, true, true⟩
/-- Released by the source and removed from the target. -/
def gone : Ledger := ⟨false, false, true⟩

/-- The ledgers of an undisturbed attempt. -/
def course : List Ledger := [start, shipping, confirmed, handedOver]

theorem not_stranded_of_settled {l : Ledger} (h : l.settled = true) : l.stranded = false := by
  obtain ⟨f, c, r⟩ := l
  revert h
  cases f <;> cases c <;> simp [settled, stranded]

end Ledger

namespace Stranding

/-- How far an ordinary exception of an awaited call has come on its way to the clean-up, which
looks up both instances before it sends anything. -/
inductive Alarm
  | off
  | raised
  | sourceFound
  deriving DecidableEq, Repr

def Alarm.of (e : Exc) : Alarm := if e.skipsCleanup then .off else .raised

def Alarm.step : Alarm → Event → Alarm
  | _, .served (.rpc _ m) _ (.error e) => if m.gathered then .off else .of e
  | .raised, .lookup _ true => .sourceFound
  | _, _ => .off

def alarm (tr : List Event) : Alarm := tr.foldl Alarm.step .off

@[simp] theorem alarm_concat (tr : List Event) (ev : Event) :
    alarm (tr ++ [ev]) = (alarm tr).step ev := by
  simp [alarm, List.foldl_append]

/-- The event does not strand the request. While only the source can resume it, no awaited call
fails with an exception that skips the clean-up and no instance is missing; once the source let go,
no awaited call fails with another exception, unless an instance is missing afterwards. -/
def benignAt (l : Ledger) (a : Alarm) : Event → Bool
  | .served (.rpc i m) effective (.error e) =>
      m.gathered ||
        !(e.skipsCleanup && (l.step (.served (.rpc i m) effective (.error e))).stranded)
  | .lookup _ false => !l.stranded
  | .lookup _ true => !(l.released && decide (a = .sourceFound))
  | _ => true

def benignFrom (l : Ledger) (a : Alarm) : List Event → Bool
  | [] => true
  | ev :: tr => benignAt l a ev && benignFrom (l.step ev) (a.step ev) tr

def benign (tr : List Event) : Bool := benignFrom .start .off tr

theorem benignFrom_concat (l : Ledger) (a : Alarm) (tr : List Event) (ev : Event) :
    benignFrom l a (tr ++ [ev]) =
      (benignFrom l a tr && benignAt (tr.foldl Ledger.step l) (tr.foldl Alarm.step a) ev) := by
  induction tr generalizing l a with
  | nil => simp [benignFrom]
  | cons ev' tr ih => simp [benignFrom, ih, Bool.and_assoc]

@[simp] theorem benign_concat (tr : List Event) (ev : Event) :
    benign (tr ++ [ev]) = (benign tr && benignAt (ledger tr) (alarm tr) ev) :=
  benignFrom_concat .start .off tr ev

theorem benignAt_congr {l : Ledger} {a a' : Alarm} (h : l.released = true → a = a') (ev : Event) :
    benignAt l a ev = benignAt l a' ev := by
  cases hl : l.released with
  | true => rw [h hl]
  | false =>
    cases ev with
    | lookup id found => cases found <;> simp [benignAt, hl]
    | issued c => rfl
    | served c effective r =>
      cases c with
      | sleep n => rfl
      | rpc i m => cases r <;> rfl

/-- The ledger and the verdict on the log so far, as long as the target did not take a
running request down with it. -/
def At (l : Ledger) (b : Bool) (w : World) : Prop :=
  Agrees w ∧ (w.targetLost = true ∨ ledger w.trace = l ∧ benign w.trace = b)

/-- `At` with the alarm, for as long as it can still cost the request. -/
def Alarmed (a : Alarm) (l : Ledger) (b : Bool) (w : World) : Prop :=
  Agrees w ∧ (w.targetLost = true ∨ ledger w.trace = l ∧ benign w.trace = b ∧
    (l.released = true → b = true → alarm w.trace = a))

def Judged (w : World) : Prop :=
  Agrees w ∧ (w.targetLost = true ∨ benign w.trace = (ledger w.trace).settled)

section At
variable {l : Ledger} {a : Alarm} {b : Bool} {w w' : World}

theorem at_of_lost (h : Agrees w) (hl : w.targetLost = true) : At l b w := ⟨h, .inl hl⟩

theorem at_env (h : At l b w) (he : EnvMoves w w') : At l b w' := by
  obtain ⟨ht, hl⟩ := trace_of_env he
  refine ⟨agrees_env h.1 he, ?_⟩
  rw [ht]
  exact h.2.imp hl id

theorem judged_env (h : Judged w) (he : EnvMoves w w') : Judged w' := by
  obtain ⟨ht, hl⟩ := trace_of_env he
  refine ⟨agrees_env h.1 he, ?_⟩
  rw [ht]
  exact h.2.imp hl id

theorem at_of_trace {ev : Event} (h : At l b w) (ha : Agrees w') (ht : w'.trace = w.trace ++ [ev])
    (hl : w'.targetLost = w.targetLost) :
    At (l.step ev) (b && benignAt l (alarm w.trace) ev) w' := by
  refine ⟨ha, ?_⟩
  rcases h.2 with h | ⟨rfl, rfl⟩
  · exact .inl (hl.trans h)
  · exact .inr ⟨by rw [ht, ledger_concat], by rw [ht, benign_concat]⟩

theorem at_tables (h : At l b w) (hs : w'.source = w.source) (ht : w'.trace = w.trace)
    (hd : w'.target = w.target ∧ w'.targetAlive = w.targetAlive)
    (hl : w'.targetLost = w.targetLost) : At l b w' := by
  obtain ⟨⟨ha, hb⟩, h⟩ := h
  rw [← ht, ← hs] at ha
  rw [← ht, ← hd.1, ← hd.2, ← hl] at hb
  rw [← ht, ← hl] at h
  exact ⟨⟨ha, hb⟩, h⟩

theorem judged_of_at (h : At l b w) (hb : b = l.settled) : Judged w := by
  refine ⟨h.1, h.2.imp id ?_⟩
  rintro ⟨rfl, rfl⟩
  exact hb

theorem at_served {c : Call} {r : Except Exc c.Reply} (h : At l b w) (hs : Serves true c w r w') :
    ∃ effective, w'.trace = w.trace ++ [.served c effective r] ∧
      At (l.step (.served c effective r))
        (b && benignAt l (alarm w.trace) (.served c effective r)) w' ∧
      (effective = false → ∃ e, r = .error e) := by
  obtain ⟨effective, ht, hl, hr⟩ := trace_of_serves hs
  exact ⟨effective, ht, at_of_trace h (agrees_serve h.1 hs) ht hl, hr⟩

theorem at_issue (c : Call) (h : At l b w) : At l b ((host true).issue c w) := by
  have hissued := at_of_trace h (agrees_issue c h.1) rfl rfl
  rwa [show benignAt l (alarm w.trace) (.issued c) = true from rfl, Bool.and_true] at hissued

theorem at_of_alarmed (h : Alarmed a l b w) : At l b w :=
  ⟨h.1, h.2.imp id fun h => ⟨h.1, h.2.1⟩⟩

theorem alarmed_of_at (h : At l b w) (ha : w.targetLost = true ∨
    (l.released = true → b = true → alarm w.trace = a)) : Alarmed a l b w := by
  refine ⟨h.1, h.2.elim .inl fun hat => ha.imp id fun ha => ?_⟩
  exact ⟨hat.1, hat.2, ha⟩

theorem alarmed_env (h : Alarmed a l b w) (he : EnvMoves w w') : Alarmed a l b w' := by
  obtain ⟨ht, hl⟩ := trace_of_env he
  refine ⟨agrees_env h.1 he, ?_⟩
  rw [ht]
  exact h.2.imp hl id

theorem alarmed_of_trace {ev : Event} (h : Alarmed a l b w) (hstep : l.step ev = l)
    (ha : Agrees w') (ht : w'.trace = w.trace ++ [ev]) (hl : w'.targetLost = w.targetLost) :
    Alarmed (a.step ev) l (b && benignAt l a ev) w' := by
  refine ⟨ha, ?_⟩
  rcases h.2 with h | ⟨rfl, rfl, halarm⟩
  · exact .inl (hl.trans h)
  right
  rw [ht, ledger_concat, benign_concat, alarm_concat]
  refine ⟨hstep, ?_, fun hr hb => ?_⟩
  · cases hb : benign w.trace with
    | false => rfl
    | true => rw [benignAt_congr (halarm · hb)]
  · rw [Bool.and_eq_true] at hb
    rw [halarm hr hb.1]

end At

/-! Calls and look-ups that leave the ledger alone. -/

def Quiet (ev : Event) : Prop :=
  ∀ l : Ledger, l.step ev = l ∧ (l.stranded = false → benignAt l .off ev = true)

theorem quiet_lookup (id : String) (found : Bool) : Quiet (.lookup id found) := by
  intro l
  refine ⟨rfl, fun h => ?_⟩
  cases found with
  | false => simp [benignAt, h]
  | true => simp [benignAt]

theorem quiet_issued (c : Call) : Quiet (.issued c) := fun _ => ⟨rfl, fun _ => rfl⟩

theorem auxiliary_served {c : Call} (hc : c.Auxiliary) (l : Ledger) (effective : Bool)
    (r : Except Exc c.Reply) : l.step (.served c effective r) = l ∧
      (l.stranded = false → ∀ a, benignAt l a (.served c effective r) = true) := by
  cases c with
  | sleep n => exact ⟨rfl, fun _ _ => rfl⟩
  | rpc i m =>
    have hstep : ∀ r : Except Exc (Call.rpc i m).Reply,
        l.step (.served (.rpc i m) effective r) = l := by
      intro r
      cases effective
      · rfl
      · simp [Ledger.step, effect_auxiliary hc, Ledger.apply]
    refine ⟨hstep r, fun h a => ?_⟩
    cases r with
    | ok v => rfl
    | error e =>
      change (m.gathered || !(e.skipsCleanup && (l.step _).stranded)) = true
      rw [hstep, h, Bool.and_false, Bool.not_false, Bool.or_true]

theorem quiet_served {c : Call} (hc : c.Auxiliary) (effective : Bool) (r : Except Exc c.Reply) :
    Quiet (.served c effective r) := fun l =>
  (auxiliary_served hc l effective r).imp id fun h hl => h hl .off

/-- Quiet, and no exception that would lead to the clean-up. -/
def Calm (ev : Event) : Prop := Quiet ev ∧ Alarm.off.step ev = .off

theorem calm_lookup (id : String) (found : Bool) : Calm (.lookup id found) := by
  refine ⟨quiet_lookup id found, ?_⟩
  cases found <;> rfl

theorem calm_probe (i : Side) : Calm (.issued (.rpc i .isReady)) ∧
    ∀ effective r, Calm (.served (.rpc i .isReady) effective r) := by
  refine ⟨⟨quiet_issued _, rfl⟩, fun effective r => ?_⟩
  refine ⟨quiet_served (c := .rpc i .isReady) rfl effective r, ?_⟩
  cases r <;> rfl

section Quiet
variable {l : Ledger} {b : Bool} {w w' : World} {ev : Event}

theorem alarmed_quiet (hs : b = true → l.stranded = false) (hq : Quiet ev)
    (h : Alarmed .off l b w) (ha : Agrees w') (ht : w'.trace = w.trace ++ [ev])
    (hl : w'.targetLost = w.targetLost) : Alarmed (Alarm.off.step ev) l b w' := by
  have hnext := alarmed_of_trace h (hq l).1 ha ht hl
  cases b with
  | false => exact hnext
  | true => rwa [(hq l).2 (hs rfl)] at hnext

theorem at_quiet (hs : l.stranded = false) (hn : l.released = false ∨ b = false) (hq : Quiet ev)
    (h : At l b w) (ha : Agrees w') (ht : w'.trace = w.trace ++ [ev])
    (hl : w'.targetLost = w.targetLost) : At l b w' := by
  have hoff : Alarmed .off l b w := by
    refine alarmed_of_at h (.inr fun hr hb => ?_)
    rcases hn with hn | hn
    · rw [hr] at hn
      cases hn
    · rw [hb] at hn
      cases hn
  exact at_of_alarmed (alarmed_quiet (fun _ => hs) hq hoff ha ht hl)

/-- The rule for coroutines that only look up and make certain calls: what one of their events
keeps, the coroutine keeps. -/
theorem safe_events {α : Type} {q : Coro α} {K : Call → Prop} {E : Event → Prop}
    {J : World → Prop} (hq : q.Uses K IsLookup) (hw : J w)
    (hag : ∀ w, J w → Agrees w) (henv : ∀ w w', J w → EnvMoves w w' → J w')
    (hcall : ∀ c, K c → E (.issued c) ∧ ∀ effective r, E (.served c effective r))
    (hlookup : ∀ id found, E (.lookup id found))
    (hev : ∀ w w' ev, E ev → J w → Agrees w' → w'.trace = w.trace ++ [ev] →
      w'.targetLost = w.targetLost → J w') :
    Safe (host true) (fun _ => True) (Post (fun _ => J) (fun _ => J)) q w := by
  have h : Safe (host true) (fun _ => True) (fun _ => J) q w := by
    refine Safe.frame hq hw (fun _ _ => trivial) henv ?_ ?_ ?_
    · intro c w hc hw
      exact hev w _ _ (hcall c hc).1 hw (agrees_issue c (hag w hw)) rfl rfl
    · intro c w r w' hc hw hs
      obtain ⟨effective, ht, hl, -⟩ := trace_of_serves hs
      exact hev w w' _ ((hcall c hc).2 effective r) hw (agrees_serve (hag w hw) hs) ht hl
    · rintro f w ⟨id, found, rfl⟩ hw
      exact hev w _ _ (hlookup id found) hw (agrees_lookup id found (hag w hw)) rfl rfl
  exact h.mono fun r w h => by cases r <;> exact h

end Quiet

/-! The attempt. -/

/-- Before an attempt: on the source, or already lost. -/
def Ready (w : World) : Prop := At .start true w ∨ At .gone false w

/-- After an attempt failed with `e`. -/
def Failed (e : Exc) (w : World) : Prop :=
  (∃ l ∈ Ledger.course, Alarmed (.of e) l (!(e.skipsCleanup && l.stranded)) w) ∨ At .gone false w

section Attempt
variable {l l' : Ledger} {b : Bool} {w w' : World} {i : Side} {m : Method}

theorem ready_env (h : Ready w) (he : EnvMoves w w') : Ready w' :=
  h.imp (at_env · he) (at_env · he)

theorem failed_of_ready (e : Exc) (h : Ready w) : Failed e w := by
  refine h.imp (fun h => ⟨.start, by decide, alarmed_of_at ?_ (.inr nofun)⟩) id
  simpa [Ledger.start, Ledger.stranded] using h

theorem at_reply {r : Except Exc m.Reply} (hm : m.gathered = false) (h : At l b w)
    (hs : Serves true (.rpc i m) w r w') :
    Post (fun _ => At (l.apply (m.effect i)) b) (fun e w => ∃ l', (l' = l ∨
      l' = l.apply (m.effect i)) ∧ Alarmed (.of e) l' (b && !(e.skipsCleanup && l'.stranded)) w)
      r w' := by
  obtain ⟨effective, ht, hA, hr⟩ := at_served h hs
  cases r with
  | ok v =>
    cases effective with
    | false =>
      obtain ⟨e, he⟩ := hr rfl
      cases he
    | true => simpa [Post, Ledger.step, benignAt] using hA
  | error e =>
    change At _ (b && (m.gathered || _)) w' at hA
    rw [hm, Bool.false_or] at hA
    have halarm : alarm w'.trace = .of e := by
      rw [ht, alarm_concat]
      exact if_neg (by simp [hm])
    refine ⟨_, ?_, alarmed_of_at hA (.inr fun _ _ => halarm)⟩
    cases effective with
    | false => exact .inl rfl
    | true => exact .inr rfl

theorem safe_rpc (hm : m.gathered = false) (h : At l b w) :
    Safe (host true) (fun _ => True) (Post (fun _ => At (l.apply (m.effect i)) b)
      (fun e w => ∃ l', (l' = l ∨ l' = l.apply (m.effect i)) ∧
        Alarmed (.of e) l' (b && !(e.skipsCleanup && l'.stranded)) w)) (rpc i m) w := by
  refine Safe.call (S := host true) (c := Call.rpc i m) h (fun _ _ => at_env)
    (fun _ _ => trivial) ?_
  intro w r w' hw hs w'' he
  have hpost := at_reply hm (at_issue _ hw) hs
  refine ⟨trivial, ?_⟩
  cases r with
  | ok v => exact he.keep (fun _ _ => at_env) hpost
  | error e =>
    obtain ⟨l', hl', hA⟩ := hpost
    exact ⟨l', hl', he.keep (fun _ _ => alarmed_env) hA⟩

theorem safe_rpc_course (i : Side) (m : Method) (l l' : Ledger) (hstep : l.apply (m.effect i) = l')
    (hm : m.gathered = false) (hl : l ∈ Ledger.course ∧ l' ∈ Ledger.course) (h : At l true w) :
    Safe (host true) (fun _ => True) (Post (fun _ => At l' true) Failed) (rpc i m) w := by
  subst hstep
  refine (safe_rpc hm h).mono fun r w h => ?_
  cases r with
  | ok v => exact h
  | error e =>
    obtain ⟨k, rfl | rfl, hA⟩ := h
    · exact .inl ⟨_, hl.1, by simpa using hA⟩
    · exact .inl ⟨_, hl.2, by simpa using hA⟩

theorem freeze_gone {id : String} {n : ℕ} {r : Except Exc String} (h : At .gone b w)
    (hs : Serves true (.rpc .source (.migrationPrepareOutWire id n)) w r w') :
    (At .gone b w' ∧ ∃ e, r = .error e) ∨ (Agrees w' ∧ w'.targetLost = true) := by
  have ha := agrees_serve h.1 hs
  cases hs with
  | dead _ _ _ msg halive => cases halive
  | done _ _ _ s _ _ hm =>
    right
    refine ⟨ha, ?_⟩
    rcases h.2 with hlost | ⟨hl, -⟩
    · simpa using hlost
    · have hsource : SourceAgrees .gone (some .running) := by
        rw [← hl, ← show w.source = some .running from hm.1]
        exact h.1.source
      simp [SourceAgrees, Ledger.gone] at hsource
  | failed _ _ _ e _ _ =>
    left
    refine ⟨?_, e, rfl⟩
    have := at_of_trace h ha rfl rfl
    simpa [benignAt, Ledger.step, Ledger.gone, Ledger.stranded] using this

theorem safe_prepareOut (id : String) (n : ℕ) (h : Ready w) :
    Safe (host true) (fun _ => True) (Post (fun _ => At .shipping true) Failed)
      (rpc .source (.migrationPrepareOutWire id n)) w := by
  rcases h with h | h
  · exact safe_rpc_course .source (.migrationPrepareOutWire id n) .start .shipping rfl rfl
      (by decide) h
  · refine Safe.call (S := host true) (c := Call.rpc .source (.migrationPrepareOutWire id n)) h
      (fun _ _ => at_env) (fun _ _ => trivial) ?_
    intro w r w' hw hs w'' he
    refine ⟨trivial, ?_⟩
    rcases freeze_gone (at_issue _ hw) hs with ⟨hA, e, rfl⟩ | ⟨ha, hl⟩
    · exact .inr (he.keep (fun _ _ => at_env) hA)
    · have hA : ∀ l b, At l b w'' := fun l b => he.keep (fun _ _ => at_env) (at_of_lost ha hl)
      cases r with
      | ok v => exact hA _ _
      | error e => exact .inr (hA _ _)

theorem safe_transferLayers (p : Params) (synced : List (ℕ × ℕ)) (src dst : List (List ℕ))
    (layers : List String) (h : At .shipping true w) :
    Safe (host true) (fun _ => True) (Post (fun _ => At .shipping true) Failed)
      (transferLayers p synced src dst layers) w := by
  refine Safe.loop (fun _ _ => at_env) (fun _ _ => trivial) (fun g w hw => ?_) _ w h
  refine Safe.loop (fun _ _ => at_env) (fun _ _ => trivial) (fun layer w hw => ?_) _ w hw
  refine Safe.seq (safe_rpc_course _ _ .shipping .shipping rfl rfl (by decide) hw) fun m w hw => ?_
  exact safe_rpc_course .target (.migrationReceiveLayer p.requestId p.epoch m p.sourceEndpoint
    synced) .shipping .shipping rfl rfl (by decide) hw

theorem safe_cleanupPrecopy {E : Exc → World → Prop} (p : Params) (h : At .handedOver true w) :
    Safe (host true) (fun _ => True) (Post (fun _ => At .handedOver true) E)
      (cleanupV1IncrementalPrecopy p) w := by
  let J (cs : List Call) (w : World) : Prop := (∀ c ∈ cs, c.Auxiliary) ∧ At .handedOver true w
  refine Safe.gatherOf (J := J) trivial
    ⟨(uses_cleanupV1IncrementalPrecopy p).1, at_issue _ (at_issue _ h)⟩
    (fun _ _ _ h he => h.imp id (at_env · he)) (fun _ _ _ => trivial) ?_ fun w h =>
      .retOf h.2 (fun _ _ => at_env) fun _ h => ⟨trivial, h⟩
  intro as c bs w r w' h hs
  refine ⟨fun c' hc' => h.1 c' ?_, ?_⟩
  · simp only [List.mem_append, List.mem_cons] at hc' ⊢
    exact hc'.imp id .inr
  · obtain ⟨effective, -, hA, -⟩ := at_served h.2 hs
    obtain ⟨hstep, hb⟩ := auxiliary_served (h.1 c (by simp)) .handedOver effective r
    rwa [hstep, hb rfl] at hA

theorem safe_commitBoth (p : Params) (snapshotWire : String) (h : At .shipping true w) :
    Safe (host true) (fun _ => True) (Post (fun _ => At .handedOver true) Failed)
      (commitBoth p snapshotWire) w := by
  refine Safe.seq (safe_rpc_course .target (.migrationCommit p.requestId p.epoch true)
    .shipping .confirmed rfl rfl (by decide) h) fun _ w hw => ?_
  refine Safe.seq (safe_rpc_course .target (.registerMigratedRequest p.requestId snapshotWire
    p.serverInfo) .confirmed .confirmed rfl rfl (by decide) hw) fun _ w hw => ?_
  refine Safe.seq (safe_rpc_course .source (.migrationCommit p.requestId p.epoch false)
    .confirmed .handedOver rfl rfl (by decide) hw) fun _ w hw => ?_
  refine Safe.seq (safe_rpc_course .source (.finishMigratedOut p.requestId)
    .handedOver .handedOver rfl rfl (by decide) hw) fun _ w hw => ?_
  split_ifs
  · exact safe_cleanupPrecopy p hw
  · exact .retOf hw (fun _ _ => at_env) fun w hw => ⟨trivial, hw⟩

theorem safe_cutover (p : Params) (synced : List (ℕ × ℕ)) (h : Ready w) :
    Safe (host true) (fun _ => True) (Post (fun _ => At .handedOver true) Failed)
      (cutover p synced) w := by
  refine Safe.seq (safe_prepareOut _ _ h) fun snapshotWire w hw => ?_
  refine Safe.seq (safe_rpc_course _ _ .shipping .shipping rfl rfl (by decide) hw)
    fun dst w hw => ?_
  refine Safe.seq (safe_rpc_course _ _ .shipping .shipping rfl rfl (by decide) hw)
    fun src w hw => ?_
  refine Safe.seq (safe_rpc_course _ _ .shipping .shipping rfl rfl (by decide) hw)
    fun layers w hw => ?_
  refine Safe.seq (safe_transferLayers p synced src dst layers hw) fun _ w hw => ?_
  exact safe_commitBoth p snapshotWire hw

theorem safe_quiet_ready {α : Type} {q : Coro α} (hq : q.Uses Call.Auxiliary IsLookup)
    (h : Ready w) :
    Safe (host true) (fun _ => True) (Post (fun _ => Ready) Failed) q w := by
  refine (safe_events (E := Quiet) (J := Ready) hq h ?_ (fun _ _ => ready_env) ?_ quiet_lookup
    ?_).mono fun r w h => ?_
  · exact fun w h => h.elim (·.1) (·.1)
  · exact fun c hc => ⟨quiet_issued c, quiet_served hc⟩
  · intro w w' ev hev h ha ht hl
    exact h.imp (at_quiet rfl (.inl rfl) hev · ha ht hl) (at_quiet rfl (.inr rfl) hev · ha ht hl)
  · cases r with
    | ok _ => exact h
    | error e => exact failed_of_ready e h

theorem safe_migrateV1Request (p : Params) (h : Ready w) :
    Safe (host true) (fun _ => True) (Post (fun _ => At .handedOver true) Failed)
      (migrateV1Request p) w := by
  refine Safe.seq (safe_quiet_ready (uses_lookupInstance _) h) fun _ w hw => ?_
  refine Safe.seq (safe_quiet_ready (uses_lookupInstance _) hw) fun _ w hw => ?_
  dsimp only
  split_ifs
  · refine Safe.seq (safe_quiet_ready (uses_runV1IncrementalPrecopy p) hw) fun synced w hw => ?_
    exact safe_cutover p synced hw
  · exact safe_cutover p [] hw

end Attempt

/-! The clean-up. -/

section Cleanup
variable {p : Params} {w w' : World}

/-- While the clean-up calls `cs` are open: a frozen request is still to be unfrozen, a
committed copy is still to be removed. -/
def Cleaning (p : Params) (cs : List Call) (w : World) : Prop :=
  Agrees w ∧ (∀ c ∈ cs, c ∈ cleanupCalls p) ∧ (w.targetLost = true ∨
    benign w.trace = !(ledger w.trace).released ∧
    ((ledger w.trace).frozen = true →
      Call.rpc .source (.migrationAbort p.requestId p.epoch false) ∈ cs) ∧
    ((ledger w.trace).committed = true → Call.rpc .target (.abortMigratedRequest p.requestId) ∈ cs))

theorem unfreezes {id : String} {n : ℕ} {r : Except Exc Unit} (h : Agrees w)
    (hs : Serves true (.rpc .source (.migrationAbort id n false)) w r w') :
    (ledger w'.trace).frozen = false := by
  cases hs with
  | dead _ _ _ msg halive => cases halive
  | done _ _ _ s _ _ hm =>
    rw [World.log_trace, ledger_concat]
    rfl
  | failed _ _ _ e _ hno =>
    rw [World.log_trace, ledger_concat]
    change (ledger w.trace).frozen = false
    rcases h.source with ⟨-, hf, -⟩ | ⟨hsrc, -, -⟩ | ⟨-, hf, -⟩
    · exact hf
    · exact absurd ⟨hsrc, rfl⟩ (hno rfl (.inl rfl) (some .running))
    · exact hf

theorem removes {id : String} {r : Except Exc Unit} (h : Agrees w)
    (hs : Serves true (.rpc .target (.abortMigratedRequest id)) w r w')
    (hl : w'.targetLost = false) : (ledger w'.trace).committed = false := by
  cases hs with
  | dead _ _ _ msg halive =>
    rw [World.log_trace, ledger_concat]
    change (ledger w.trace).committed = false
    cases hc : (ledger w.trace).committed with
    | false => rfl
    | true =>
      have hrun := h.target.running hc hl
      rw [show w.targetAlive = false from halive] at hrun
      cases hrun.1
  | done _ _ _ s _ _ hm =>
    rw [World.log_trace, ledger_concat]
    rfl
  | failed _ _ _ e _ hno => exact absurd rfl (hno rfl (.inr (.inr rfl)) none)

theorem cleanup_served {c : Call} (hc : c ∈ cleanupCalls p) (l : Ledger) (effective : Bool)
    (r : Except Exc c.Reply) :
    (∀ a, benignAt l a (.served c effective r) = true) ∧
      (l.step (.served c effective r)).released = l.released ∧
      ((l.step (.served c effective r)).frozen = true → l.frozen = true) ∧
      ((l.step (.served c effective r)).committed = true → l.committed = true) := by
  simp only [cleanupCalls, List.mem_cons, List.not_mem_nil, or_false] at hc
  rcases hc with rfl | rfl | rfl | rfl | rfl <;> cases r <;> cases effective <;>
    simp [benignAt, Method.gathered, Ledger.step, Ledger.apply, Method.effect]

theorem cleaning_env {cs : List Call} (h : Cleaning p cs w) (he : EnvMoves w w') :
    Cleaning p cs w' := by
  obtain ⟨ht, hl⟩ := trace_of_env he
  refine ⟨agrees_env h.1 he, h.2.1, ?_⟩
  rw [ht]
  exact h.2.2.imp hl id

theorem cleaning_serve {as bs : List Call} {c : Call} {r : Except Exc c.Reply}
    (h : Cleaning p (as ++ c :: bs) w) (hs : Serves true c w r w') : Cleaning p (as ++ bs) w' := by
  obtain ⟨ha, hsub, hl⟩ := h
  have hrest : ∀ c' ∈ as ++ c :: bs, c' ≠ c → c' ∈ as ++ bs := by
    intro c' hc' hne
    simp only [List.mem_append, List.mem_cons] at hc' ⊢
    exact hc'.imp id fun h => h.resolve_left hne
  refine ⟨agrees_serve ha hs, fun c' hc' => hsub c' ?_, ?_⟩
  · simp only [List.mem_append, List.mem_cons] at hc' ⊢
    exact hc'.imp id .inr
  obtain ⟨effective, ht, hlost, -⟩ := trace_of_serves hs
  by_cases hl' : w'.targetLost = true
  · exact .inl hl'
  right
  rcases hl with hl | ⟨hb, hf, hc⟩
  · exact absurd (hlost.trans hl) hl'
  obtain ⟨hb', hr', hf', hc'⟩ := cleanup_served (hsub c (by simp)) (ledger w.trace) effective r
  have hledger : ledger w'.trace = (ledger w.trace).step (.served c effective r) := by
    rw [ht, ledger_concat]
  refine ⟨?_, fun hfr => ?_, fun hco => ?_⟩
  · rw [hledger, hr', ht, benign_concat, hb', Bool.and_true, hb]
  · refine hrest _ (hf (hf' (hledger ▸ hfr))) ?_
    rintro rfl
    rw [unfreezes ha hs] at hfr
    cases hfr
  · refine hrest _ (hc (hc' (hledger ▸ hco))) ?_
    rintro rfl
    rw [removes ha hs (by simpa using hl')] at hco
    cases hco

theorem ready_of_cleaning (h : Cleaning p [] w) : Ready w := by
  obtain ⟨ha, -, hl | ⟨hb, hf, hc⟩⟩ := h
  · exact .inl (at_of_lost ha hl)
  have hfrozen : (ledger w.trace).frozen = false := by simpa using hf
  have hcommitted : (ledger w.trace).committed = false := by simpa using hc
  cases hr : (ledger w.trace).released with
  | false =>
    exact .inl ⟨ha, .inr ⟨Ledger.ext hfrozen hcommitted hr, by rw [hb, hr]; rfl⟩⟩
  | true =>
    exact .inr ⟨ha, .inr ⟨Ledger.ext hfrozen hcommitted hr, by rw [hb, hr]; rfl⟩⟩

theorem cleaning_of_at {l : Ledger} (h : At l (!l.released) w) :
    Cleaning p (cleanupCalls p) ((host true).issueAll (cleanupCalls p) w) := by
  have hissued : At l (!l.released) ((host true).issueAll (cleanupCalls p) w) :=
    at_issue _ (at_issue _ (at_issue _ (at_issue _ (at_issue _ h))))
  refine ⟨hissued.1, fun c hc => hc, hissued.2.imp id ?_⟩
  rintro ⟨rfl, hb⟩
  exact ⟨hb, fun _ => by simp [cleanupCalls], fun _ => by simp [cleanupCalls]⟩

theorem safe_lookupInstance {a : Alarm} {l : Ledger} {b : Bool} (id : String)
    (h : Alarmed a l b w) : Safe (host true) (fun _ => True)
      (Post (fun _ => Alarmed (a.step (.lookup id true)) l (b && benignAt l a (.lookup id true)))
        (fun _ => At l (b && !l.stranded))) (lookupInstance id) w := by
  refine .read trivial ?_
  split_ifs
  · exact .write trivial (.retOf (alarmed_of_trace h rfl (agrees_lookup id true h.1) rfl rfl)
      (fun _ _ => alarmed_env) fun _ h => ⟨trivial, h⟩)
  · exact .write trivial (.raiseOf
      (at_of_alarmed (alarmed_of_trace h rfl (agrees_lookup id false h.1) rfl rfl))
      (fun _ _ => at_env) fun _ h => ⟨trivial, h⟩)

theorem alarmed_of_failed {e : Exc} (he : e.skipsCleanup = false) (h : Failed e w) :
    ∃ l b, Alarmed .raised l b w ∧ (b && !l.released) = !l.released ∧
      (b && !l.stranded) = l.settled := by
  rcases h with ⟨l, hl, h⟩ | h
  · rw [Alarm.of, he, Bool.false_and, Bool.not_false] at h
    have hcourse : ∀ l ∈ Ledger.course, (true && !l.stranded) = l.settled := by decide
    exact ⟨l, true, h, Bool.true_and _, hcourse l hl⟩
  · exact ⟨_, _, alarmed_of_at h (.inr nofun), rfl, rfl⟩

theorem safe_cleanupV1Migration {e : Exc} (he : e.skipsCleanup = false) (h : Failed e w) :
    Safe (host true) (fun _ => True) (Post (fun _ => Ready) (fun _ => Judged))
      (cleanupV1Migration p) w := by
  obtain ⟨l, b, h, hrel, hset⟩ := alarmed_of_failed he h
  have hlookup : ∀ {a : Alarm} {id : String} {w : World}, Alarmed a l b w →
      Safe (host true) (fun _ => True)
        (Post (fun _ => Alarmed (a.step (.lookup id true)) l
          (b && benignAt l a (.lookup id true))) (fun _ => Judged)) (lookupInstance id) w := by
    intro a id w h
    refine (safe_lookupInstance id h).mono fun r w h => ?_
    cases r with
    | ok _ => exact h
    | error e => exact judged_of_at h hset
  refine Safe.seq (hlookup h) fun _ w hfound => ?_
  have hsource : Alarmed .sourceFound l b w := by
    simpa [Alarm.step, benignAt] using hfound
  refine Safe.seq (hlookup hsource) fun _ w hboth => ?_
  have hsent : At l (!l.released) w := by
    simpa [benignAt, hrel] using at_of_alarmed hboth
  refine Safe.gatherOf (J := Cleaning p) trivial (cleaning_of_at hsent) (fun _ _ _ => cleaning_env)
    (fun _ _ _ => trivial) (fun _ _ _ _ _ _ => cleaning_serve) fun w h => ?_
  exact .retOf (ready_of_cleaning h) (fun _ _ => ready_env) fun _ h => ⟨trivial, h⟩

end Cleanup

section Retry
variable {w w' : World}

theorem settled_of_failed {e : Exc} (he : e.skipsCleanup = true) (h : Failed e w) :
    ∃ l : Ledger, Alarmed .off l l.settled w := by
  rcases h with ⟨l, hl, h⟩ | h
  · have hcourse : ∀ l ∈ Ledger.course, (!(true && l.stranded)) = l.settled := by decide
    rw [Alarm.of, he, if_pos rfl, hcourse l hl] at h
    exact ⟨l, h⟩
  · exact ⟨.gone, alarmed_of_at h (.inr nofun)⟩

theorem judged_of_ready (h : Ready w) : Judged w :=
  h.elim (judged_of_at · rfl) (judged_of_at · rfl)

theorem ready_of_sleep {n : ℕ} {r : Except Exc Unit} (h : Ready w)
    (hs : Serves true (.sleep n) ((host true).issue (.sleep n) w) r w') : Ready w' := by
  have hkeep : ∀ {l : Ledger} {b : Bool}, l.stranded = false → At l b w → At l b w' := by
    intro l b hl h
    have hi : At l b ((host true).issue (.sleep n) w) :=
      at_issue _ h
    obtain ⟨effective, -, hA, -⟩ := at_served hi hs
    obtain ⟨hstep, hb⟩ := auxiliary_served (c := .sleep n) trivial l effective r
    rwa [hstep, hb hl, Bool.and_true] at hA
  exact h.imp (hkeep rfl) (hkeep rfl)

theorem ready_tables (h : Ready w) (hs : w'.source = w.source) (ht : w'.trace = w.trace)
    (hd : w'.target = w.target ∧ w'.targetAlive = w.targetAlive)
    (hl : w'.targetLost = w.targetLost) : Ready w' :=
  h.imp (at_tables · hs ht hd hl) (at_tables · hs ht hd hl)

/-- Either the function returns, with the right verdict, or another attempt may follow. -/
def Handled (done : Bool) (w : World) : Prop := if done then Judged w else Ready w

theorem safe_handleFailure (p : Params) (attempt : ℕ) {e : Exc} (h : Failed e w) :
    Safe (host true) (fun _ => True) (Post Handled (fun _ => Judged))
      (handleFailure p attempt e) w := by
  unfold handleFailure
  by_cases ha : e.isActorError = true
  · rw [if_pos ha]
    obtain ⟨l, hl⟩ := settled_of_failed (by simp [Exc.skipsCleanup, ha]) h
    have hprobed := safe_events (E := Calm) (uses_probes p) hl (fun _ h => h.1)
      (fun _ _ => alarmed_env) (fun c hc => by obtain ⟨i, rfl⟩ := hc; exact calm_probe i)
      calm_lookup fun w w' ev hev h ha ht hlost => by
        rw [← hev.2]
        exact alarmed_quiet Ledger.not_stranded_of_settled hev.1 h ha ht hlost
    have hjudged := hprobed.mono (show ∀ r w, _ → Post (fun _ => Judged) (fun _ => Judged) r w from
      fun r w h => by cases r <;> exact judged_of_at (at_of_alarmed h) rfl)
    exact Safe.seq hjudged fun _ w hw =>
      .retOf hw (fun _ _ => judged_env) fun _ h => ⟨trivial, h⟩
  by_cases hn : e.notMigratable = true
  · rw [if_neg ha, if_pos hn]
    obtain ⟨l, hl⟩ := settled_of_failed (by simp [Exc.skipsCleanup, hn]) h
    exact .retOf (judged_of_at (at_of_alarmed hl) rfl) (fun _ _ => judged_env)
      fun _ h => ⟨trivial, h⟩
  rw [if_neg ha, if_neg hn]
  have he : e.skipsCleanup = false := by simp [Exc.skipsCleanup, ha, hn]
  refine Safe.seq (safe_cleanupV1Migration he h) fun _ w hw => ?_
  split_ifs
  · refine .write trivial (Safe.seq (M := fun _ => Ready) ?_ fun _ w hw =>
      .retOf hw (fun _ _ => ready_env) fun _ h => ⟨trivial, h⟩)
    have hw' : Ready w.countRetry := ready_tables hw rfl rfl ⟨rfl, rfl⟩ rfl
    refine Safe.call (S := host true) (c := Call.sleep (attempt + 1)) hw' (fun _ _ => ready_env)
      (fun _ _ => trivial) fun w r w' hw hs w'' hE => ⟨trivial, ?_⟩
    have hready := hE.keep (fun _ _ => ready_env) (ready_of_sleep hw hs)
    cases r with
    | ok _ => exact hready
    | error e => exact judged_of_ready hready
  · have hw' : Ready w.dropRetries := ready_tables hw rfl rfl ⟨rfl, rfl⟩ rfl
    exact .write trivial (.retOf hw' (fun _ _ => ready_env) fun _ h => ⟨trivial, h⟩)

theorem safe_attemptOnce (p : Params) (attempt : ℕ) (h : Ready w) :
    Safe (host true) (fun _ => True) (Post Handled (fun _ => Judged))
      (attemptOnce p attempt) w := by
  refine Safe.catching (E := Failed) ?_ fun e w h => safe_handleFailure p attempt h
  refine Safe.seq (safe_migrateV1Request p h) fun _ w hw => .write trivial ?_
  have hw' : At _ _ (w.recordMigrated p) := at_tables hw rfl rfl ⟨rfl, rfl⟩ rfl
  exact .retOf (judged_of_at hw' rfl) (fun _ _ => judged_env) fun _ h => ⟨trivial, h⟩

theorem safe_retryLoop (p : Params) (n : ℕ) (h : Ready w) :
    Safe (host true) (fun _ => True) (Post (fun _ => Judged) (fun _ => Judged))
      (retryLoop p n) w := by
  induction n generalizing w with
  | zero => exact .retOf (judged_of_ready h) (fun _ _ => judged_env) fun _ h => ⟨trivial, h⟩
  | succ n ih =>
    refine Safe.seq (safe_attemptOnce p _ h) fun done w hw => ?_
    cases done with
    | true => exact .retOf hw (fun _ _ => judged_env) fun _ h => ⟨trivial, h⟩
    | false => exact ih hw

/-- The request is left stranded exactly by the runs with an event that is not benign. The
source stays up; `targetLost` says that the target died while it was running the request. -/
theorem settled_iff_benign (p : Params) {r : Except Exc Unit} (hsource : w.source = some .running)
    (htarget : w.target ≠ some .running) (htrace : w.trace = [])
    (hrun : (host true).Ends (migrateV1RequestWithRetry p) w r w') (hlost : w'.targetLost = false) :
    Settled w' ↔ benign w'.trace = true := by
  have ha : Agrees w := by
    constructor
    · rw [htrace]; exact .inl ⟨hsource, rfl, rfl⟩
    · rw [htrace]; exact ⟨fun h => absurd h htarget, fun h => nomatch h⟩
  have hready : Ready w := .inl ⟨ha, .inr (by rw [htrace]; exact ⟨rfl, rfl⟩)⟩
  have hjudged : Judged w' := by
    have := (safe_retryLoop p maxAttempts hready).ends hrun
    cases r <;> exact this
  rw [settled_iff hjudged.1 hlost]
  rcases hjudged.2 with hl | hb
  · rw [hlost] at hl
    cases hl
  · rw [hb]

end Retry

/-- A run that strands the request. -/
theorem stranded_after_target_death : sampleWorld.source = some .running ∧
    sampleWorld.target ≠ some .running ∧ sampleWorld.trace = [] ∧
    ∃ w', (host true).Ends (migrateV1RequestWithRetry sampleParams) sampleWorld (.ok ()) w' ∧
      w'.targetLost = false ∧ ¬Settled w' :=
  ⟨rfl, by decide, rfl, _, ends_replay [done 0 none, dies, unanswered 0 "actor died", done 0 none,
    unanswered 0 "actor died"] rfl, rfl, by simp only [Settled]; decide⟩

/-- The target reserves its blocks too late; the clean-up takes all of it back, and the second
attempt is refused. -/
theorem settled_after_cleanup :
    ∃ w', (host true).Ends (migrateV1RequestWithRetry sampleParams) sampleWorld (.ok ()) w' ∧
      (∃ tr, tr <+: w'.trace ∧ (ledger tr).frozen = true) ∧ benign w'.trace = true ∧
      Settled w' := by
  have hends : (host true).Ends (migrateV1RequestWithRetry sampleParams) sampleWorld (.ok ()) _ :=
    ends_replay ([done 0 none, done 0 (some (.exception "timed out"))] ++
      List.replicate 6 (done 0 none) ++ [fails 0 (.exception "request is not migratable")]) rfl
  exact ⟨_, hends, ⟨_, List.take_prefix 4 _, by decide⟩, by decide,
    (settled_iff_benign sampleParams rfl (by decide) rfl hends rfl).mpr (by decide)⟩

end Stranding
end Llumnix.V1
