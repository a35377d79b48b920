import Mathlib.Data.List.Basic
import Llumnix.Coroutine.Safe
import Llumnix.V1.Footprint
import Llumnix.V1.Ledger

/-! The source gives up its copy only after the target confirmed everything, and the
Manager's tables change only after that. -/
namespace Llumnix.V1
open Coroutine

def acked (i : Side) (m : Method) (v : m.Reply) : Event := .served (.rpc i m) true (.ok v)

namespace Event

def isAck : Event → Bool
  | .served _ _ (.ok _) => true
  | _ => false

def issues (c : Call) : Event → Bool
  | .issued c' => c' == c
  | _ => false

def answers (c : Call) : Event → Bool
  | .served c' _ _ => c' == c
  | _ => false

/-- A step that raises: a failed call outside the swallowed batches, a missing instance. -/
def fails : Event → Bool
  | .served (.rpc _ m) _ (.error _) => !m.gathered
  | .lookup _ found => !found
  | _ => false

end Event

namespace Params

def prepareOut (p : Params) : Method := .migrationPrepareOutWire p.requestId p.epoch
def commitIn (p : Params) : Method := .migrationCommit p.requestId p.epoch true
def commitOut (p : Params) : Method := .migrationCommit p.requestId p.epoch false
def register (p : Params) (snapshotWire : String) : Method :=
  .registerMigratedRequest p.requestId snapshotWire p.serverInfo
def finish (p : Params) : Method := .finishMigratedOut p.requestId

end Params

/-- `migration_abort` or `abort_migrated_request` for the request, sent to the target. -/
def Aborts (p : Params) : Call → Prop
  | .rpc .target (.migrationAbort id _ _) | .rpc .target (.abortMigratedRequest id) =>
      id = p.requestId
  | _ => False

/-- One layer of one group, moved. -/
structure Transfer where
  groupSrc : List ℕ
  groupDst : List ℕ
  layerName : String
  manifest : List String

def Transfer.acks (p : Params) (synced : List (ℕ × ℕ)) (d : Transfer) : List Event :=
  [acked .source (.migrationSendLayer p.requestId p.epoch d.layerName d.groupSrc d.groupDst
      p.targetEndpoint synced.length) d.manifest,
    acked .target
      (.migrationReceiveLayer p.requestId p.epoch d.manifest p.sourceEndpoint synced) ()]

/-- The acknowledgements of an attempt up to the end of the transfer. -/
def transferAcks (p : Params) (synced : List (ℕ × ℕ)) (snapshotWire : String)
    (targetBlocks sourceBlocks : List (List ℕ)) (layers : List String) (done : List Transfer) :
    List Event :=
  [acked .source p.prepareOut snapshotWire,
    acked .target (.migrationPrepareInWire snapshotWire) targetBlocks,
    acked .source (.migrationSourceBlocks p.requestId p.epoch) sourceBlocks,
    acked .source .migrationLayerNames layers] ++ done.flatMap (Transfer.acks p synced)

/-- `post` is what the log holds since the attempt's freeze was issued, `acks` the
acknowledgements in it, and the target was sent no abort. -/
def Attempt (p : Params) (acks : List Event) (tr : List Event) : Prop :=
  ∃ old post, tr = old ++ .issued (.rpc .source p.prepareOut) :: post ∧
    post.filter Event.isAck = acks ∧
    ∀ c, .issued c ∈ post → c ≠ .rpc .source p.prepareOut ∧ ¬Aborts p c

/-- Every layer of every group was received, then the target committed, then the frontend
was registered, all in the current attempt; and no abort is on its way to the target. -/
def Confirmed (p : Params) (tr : List Event) : Prop :=
  (∃ synced snapshotWire targetBlocks sourceBlocks layers done,
    Attempt p (transferAcks p synced snapshotWire targetBlocks sourceBlocks layers done ++
      [acked .target p.commitIn (), acked .target (p.register snapshotWire) ()]) tr ∧
    (sourceBlocks.length = targetBlocks.length →
      done.map (fun d => (d.groupSrc, d.layerName)) =
        sourceBlocks.flatMap (fun g => layers.map (g, ·)) ∧
      done.map (fun d => (d.groupDst, d.layerName)) =
        targetBlocks.flatMap (fun g => layers.map (g, ·)))) ∧
  ∀ c, Aborts p c → tr.countP (Event.issues c) = tr.countP (Event.answers c)

/-- Wherever the source commit is issued, the target had confirmed. -/
def CommitOrdered (p : Params) (tr : List Event) : Prop :=
  ∀ before after, tr = before ++ .issued (.rpc .source p.commitOut) :: after → Confirmed p before

/-- Some attempt had its source commit and `finish_migrated_out` acknowledged and did not
fail after that. -/
def Completed (p : Params) (tr : List Event) : Prop :=
  ∃ before between after, tr = before ++ acked .source p.commitOut () :: between ++
      acked .source p.finish () :: after ∧
    (∀ c, .issued c ∈ between → c ≠ .rpc .source p.prepareOut) ∧ ∀ ev ∈ after, ev.fails = false

def TablesKept (w₀ w : World) : Prop :=
  w.requestInstance = w₀.requestInstance ∧ w.requestInstances = w₀.requestInstances

def TablesMoved (p : Params) (w : World) : Prop :=
  w.requestInstance = some p.targetId ∧ w.requestInstances = some [p.targetId]

namespace CommitOrder

theorem commitOrdered_concat {p : Params} {tr : List Event} {ev : Event} (h : CommitOrdered p tr)
    (hev : ev = .issued (.rpc .source p.commitOut) → Confirmed p tr) :
    CommitOrdered p (tr ++ [ev]) := by
  intro before after heq
  rcases List.eq_nil_or_concat after with rfl | ⟨after', ev', rfl⟩
  · obtain ⟨rfl, hlast⟩ := List.append_inj' heq rfl
    exact hev (List.cons.inj hlast).1
  · rw [List.concat_eq_append, ← List.cons_append, ← List.append_assoc] at heq
    exact h before after' (List.append_inj' heq rfl).1

/-- The books at a point where the calls `cs` are open and no attempt has finished yet. -/
structure Books (p : Params) (w₀ : World) (cs : List Call) (w : World) : Prop where
  balanced : ∀ c, w.trace.countP (Event.issues c) = w.trace.countP (Event.answers c) + cs.count c
  ordered : CommitOrdered p w.trace
  unfinished : ∀ ev ∈ w.trace, ev ≠ acked .source p.finish ()
  kept : TablesKept w₀ w

/-- An attempt has finished. -/
structure Finished (p : Params) (w₀ w : World) : Prop where
  ordered : CommitOrdered p w.trace
  completed : Completed p w.trace
  kept : TablesKept w₀ w

def Inv (p : Params) (w₀ w : World) : Prop :=
  CommitOrdered p w.trace ∧ (TablesKept w₀ w ∨ Completed p w.trace ∧ TablesMoved p w)

section Books
variable {p : Params} {w₀ w w' : World} {cs : List Call}

theorem Books.inv (h : Books p w₀ cs w) : Inv p w₀ w := ⟨h.ordered, .inl h.kept⟩

theorem Books.env (h : Books p w₀ cs w) (he : EnvMoves w w') : Books p w₀ cs w' := by
  cases he <;> exact ⟨h.balanced, h.ordered, h.unfinished, h.kept⟩

theorem Books.issue {c : Call} (h : Books p w₀ cs w)
    (hc : c = .rpc .source p.commitOut → Confirmed p w.trace) :
    Books p w₀ (cs ++ [c]) (w.log (.issued c)) := by
  constructor
  · intro c'
    have hb := h.balanced c'
    rw [World.log_trace, List.countP_append, List.countP_append, List.countP_singleton,
      List.countP_singleton, List.count_append, List.count_singleton]
    cases hcc : (c == c') <;> simp only [Event.issues, Event.answers, hcc, if_true, if_false,
      Bool.false_eq_true] <;> omega
  · exact commitOrdered_concat h.ordered fun heq => hc (Event.issued.inj heq)
  · intro ev hev
    rcases List.mem_append.mp hev with hev | hev
    · exact h.unfinished ev hev
    · rw [List.mem_singleton.mp hev]
      nofun
  · exact h.kept

theorem Books.serve (as bs : List Call) {c : Call} {r : Except Exc c.Reply}
    (h : Books p w₀ (as ++ c :: bs) w) (hs : Serves false c w r w')
    (hr : ∀ effective, Event.served c effective r ≠ acked .source p.finish ()) :
    Books p w₀ (as ++ bs) w' := by
  obtain ⟨effective, ht, -, -⟩ := trace_of_serves hs
  obtain ⟨hi, his⟩ := tables_of_serves hs
  constructor
  · intro c'
    have hb := h.balanced c'
    rw [ht, List.countP_append, List.countP_append, List.countP_singleton, List.countP_singleton,
      List.count_append]
    rw [List.count_append, List.count_cons] at hb
    cases hcc : (c == c') <;> simp only [Event.issues, Event.answers, hcc, if_true, if_false,
      Bool.false_eq_true] at hb ⊢ <;> omega
  · rw [ht]
    exact commitOrdered_concat h.ordered nofun
  · intro ev hev
    rw [ht] at hev
    rcases List.mem_append.mp hev with hev | hev
    · exact h.unfinished ev hev
    · rw [List.mem_singleton.mp hev]
      exact hr effective
  · exact ⟨hi.trans h.kept.1, his.trans h.kept.2⟩

/-- Every call but the source commit and `finish_migrated_out`. -/
def Ordinary (p : Params) (c : Call) : Prop :=
  c ≠ .rpc .source p.commitOut ∧ c ≠ .rpc .source p.finish

theorem served_ne_finish {c : Call} (hc : c ≠ .rpc .source p.finish) (effective : Bool)
    (r : Except Exc c.Reply) : Event.served c effective r ≠ acked .source p.finish () := by
  intro heq
  exact hc (Event.served.inj heq).1

theorem safe_books {α : Type} {q : Coro α} {F : (World → World) → Prop}
    (hq : q.Uses (Ordinary p) F) (hF : ∀ f w, F f → Books p w₀ [] w → Books p w₀ [] (f w))
    (h : Books p w₀ [] w) :
    Safe (host false) (Inv p w₀) (Post (fun _ => Books p w₀ []) (fun _ => Books p w₀ [])) q w := by
  have hframe : Safe (host false) (Inv p w₀) (fun _ => Books p w₀ []) q w := by
    refine Safe.frameOpen (J := Books p w₀) hq h (fun _ _ => Books.inv) (fun _ _ _ => Books.env)
      ?_ ?_ hF
    · intro cs c w hc h
      exact h.issue fun heq => absurd heq hc.1
    · intro as c bs w r w' hc h hs
      exact h.serve _ _ hs (served_ne_finish hc.2 · r)
  exact hframe.mono fun r w h => by cases r <;> exact h

end Books

/-- Between two calls of the attempt, the last of which was just acknowledged. -/
structure Mid (p : Params) (w₀ : World) (acks : List Event) (w : World) : Prop where
  books : Books p w₀ [] w
  attempt : Attempt p acks w.trace
  last : w.trace.getLast? = acks.getLast?

section Mid
variable {p : Params} {w₀ w w' : World} {acks : List Event} {i : Side} {m : Method}

theorem Mid.env (h : Mid p w₀ acks w) (he : EnvMoves w w') : Mid p w₀ acks w' := by
  have ht := (trace_of_env he).1
  exact ⟨h.books.env he, by rw [ht]; exact h.attempt, by rw [ht]; exact h.last⟩

theorem attempt_concat {tr : List Event} {c : Call} {v : m.Reply} (h : Attempt p acks tr)
    (hc : c ≠ .rpc .source p.prepareOut ∧ ¬Aborts p c) :
    Attempt p (acks ++ [acked i m v]) (tr ++ [.issued c] ++ [acked i m v]) := by
  obtain ⟨old, post, rfl, hacks, hpost⟩ := h
  refine ⟨old, post ++ [.issued c] ++ [acked i m v], by simp, ?_, ?_⟩
  · rw [List.filter_append, List.filter_append, hacks]
    simp [Event.isAck, acked]
  · intro c' hc'
    simp only [List.mem_append, List.mem_singleton, Event.issued.injEq] at hc'
    rcases hc' with (hc' | rfl) | hc'
    · exact hpost c' hc'
    · exact hc
    · cases hc'

/-- One awaited call, `finish_migrated_out` apart. -/
theorem safe_rpc_log {P : World → Prop} (i : Side) (m : Method)
    (hfin : Call.rpc i m ≠ .rpc .source p.finish) (henv : ∀ w w', P w → EnvMoves w w' → P w')
    (hbooks : ∀ w, P w → Books p w₀ [] w)
    (hconf : Call.rpc i m = .rpc .source p.commitOut → ∀ w, P w → Confirmed p w.trace) (h : P w) :
    Safe (host false) (Inv p w₀) (Post (fun v w' => Books p w₀ [] w' ∧ ∃ w, P w ∧
        w'.trace = w.trace ++ [.issued (.rpc i m)] ++ [acked i m v])
      (fun _ => Books p w₀ [])) (rpc i m) w := by
  refine Safe.call (S := host false) (c := Call.rpc i m) h henv (fun w h => (hbooks w h).inv) ?_
  intro w r w' hw hs w'' he
  have hissue : Books p w₀ [.rpc i m] (w.log (.issued (.rpc i m))) :=
    (hbooks w hw).issue fun heq => hconf heq w hw
  have hserve : Books p w₀ [] w' :=
    hissue.serve [] [] hs (served_ne_finish hfin · r)
  have hbooks' : Books p w₀ [] w'' := he.keep (fun _ _ => Books.env) hserve
  refine ⟨hbooks'.inv, ?_⟩
  cases r with
  | error e => exact hbooks'
  | ok v =>
    refine ⟨hbooks', w, hw, ?_⟩
    have ht' : w''.trace = w'.trace :=
      he.keep (P := fun v => v.trace = w'.trace) (fun _ _ h he => (trace_of_env he).1.trans h) rfl
    obtain ⟨effective, ht, -, heff⟩ := trace_of_serves hs
    cases effective with
    | false =>
      obtain ⟨e, herr⟩ := heff rfl
      cases herr
    | true => exact ht'.trans ht

theorem safe_rpc_attempt (i : Side) (m : Method) (hfin : Call.rpc i m ≠ .rpc .source p.finish)
    (hc : Call.rpc i m ≠ .rpc .source p.prepareOut ∧ ¬Aborts p (.rpc i m))
    (hconf : Call.rpc i m = .rpc .source p.commitOut → ∀ w, Mid p w₀ acks w → Confirmed p w.trace)
    (h : Mid p w₀ acks w) :
    Safe (host false) (Inv p w₀) (Post (fun v => Mid p w₀ (acks ++ [acked i m v]))
      (fun _ => Books p w₀ [])) (rpc i m) w := by
  refine (safe_rpc_log i m hfin (fun _ _ => Mid.env) (fun _ h => h.books) hconf h).mono ?_
  intro r w' h
  cases r with
  | error e => exact h
  | ok v =>
    obtain ⟨hb, w, hw, ht⟩ := h
    refine ⟨hb, ?_, ?_⟩
    · rw [ht]
      exact attempt_concat hw.attempt hc
    · rw [ht, List.getLast?_concat, List.getLast?_concat]

theorem safe_freeze (h : Books p w₀ [] w) :
    Safe (host false) (Inv p w₀) (Post (fun v => Mid p w₀ [acked .source p.prepareOut v])
      (fun _ => Books p w₀ [])) (rpc .source p.prepareOut) w := by
  refine (safe_rpc_log .source p.prepareOut nofun (fun _ _ => Books.env) (fun _ h => h) nofun
    h).mono ?_
  intro r w' h
  cases r with
  | error e => exact h
  | ok v =>
    obtain ⟨hb, w, hw, ht⟩ := h
    refine ⟨hb, ⟨w.trace, [acked .source p.prepareOut v], ?_, rfl, ?_⟩, ?_⟩
    · rw [ht, List.append_assoc]; rfl
    · intro c hc
      cases List.mem_singleton.mp hc
    · rw [ht, List.getLast?_concat]; rfl

/-! The transfer loops. -/

def Transfer.key (d : Transfer) : (List ℕ × List ℕ) × String :=
  ((d.groupSrc, d.groupDst), d.layerName)

def plan (groups : List (List ℕ × List ℕ)) (layers : List String) :
    List ((List ℕ × List ℕ) × String) :=
  groups.flatMap fun g => layers.map (g, ·)

/-- The transfers made so far, `rest` being those still to come. -/
def Progress (p : Params) (w₀ : World) (synced : List (ℕ × ℕ)) (snapshotWire : String)
    (targetBlocks sourceBlocks : List (List ℕ)) (layers : List String)
    (rest : List ((List ℕ × List ℕ) × String)) (w : World) : Prop :=
  ∃ done : List Transfer, Mid p w₀
      (transferAcks p synced snapshotWire targetBlocks sourceBlocks layers done) w ∧
    done.map Transfer.key ++ rest = plan (sourceBlocks.zip targetBlocks) layers

section Progress
variable {synced : List (ℕ × ℕ)} {snapshotWire : String} {targetBlocks sourceBlocks : List (List ℕ)}
  {layers : List String} {rest : List ((List ℕ × List ℕ) × String)}

theorem Progress.env (h : Progress p w₀ synced snapshotWire targetBlocks sourceBlocks layers rest w)
    (he : EnvMoves w w') :
    Progress p w₀ synced snapshotWire targetBlocks sourceBlocks layers rest w' := by
  obtain ⟨done, hmid, hplan⟩ := h
  exact ⟨done, hmid.env he, hplan⟩

theorem Progress.inv
    (h : Progress p w₀ synced snapshotWire targetBlocks sourceBlocks layers rest w) :
    Inv p w₀ w := by
  obtain ⟨done, hmid, -⟩ := h
  exact hmid.books.inv

theorem transferAcks_concat (done : List Transfer) (d : Transfer) :
    transferAcks p synced snapshotWire targetBlocks sourceBlocks layers (done ++ [d]) =
      transferAcks p synced snapshotWire targetBlocks sourceBlocks layers done ++
        d.acks p synced := by
  simp [transferAcks, List.flatMap_append]

theorem safe_transferLayer (g : List ℕ × List ℕ) (layer : String)
    (h : Progress p w₀ synced snapshotWire targetBlocks sourceBlocks layers
      ((g, layer) :: rest) w) :
    Safe (host false) (Inv p w₀) (Post
      (fun _ => Progress p w₀ synced snapshotWire targetBlocks sourceBlocks layers rest)
      (fun _ => Books p w₀ [])) (transferLayer p synced g.1 g.2 layer) w := by
  obtain ⟨done, hmid, hplan⟩ := h
  refine Safe.seq (safe_rpc_attempt .source _ nofun ⟨nofun, id⟩ nofun hmid) fun manifest w hw => ?_
  refine (safe_rpc_attempt .target (.migrationReceiveLayer p.requestId p.epoch manifest
    p.sourceEndpoint synced) nofun ⟨nofun, id⟩ nofun hw).mono fun r w h => ?_
  cases r with
  | error e => exact h
  | ok v =>
    refine ⟨done ++ [⟨g.1, g.2, layer, manifest⟩], ?_, ?_⟩
    · have h : Mid p w₀ _ w := h
      rw [List.append_assoc] at h
      rw [transferAcks_concat]
      exact h
    · rw [List.map_append, List.append_assoc]
      exact hplan

theorem safe_transferLayers (h : Progress p w₀ synced snapshotWire targetBlocks sourceBlocks layers
      (plan (sourceBlocks.zip targetBlocks) layers) w) :
    Safe (host false) (Inv p w₀) (Post
      (fun _ => Progress p w₀ synced snapshotWire targetBlocks sourceBlocks layers [])
      (fun _ => Books p w₀ [])) (transferLayers p synced sourceBlocks targetBlocks layers) w := by
  refine Safe.forEach (J := fun gs => Progress p w₀ synced snapshotWire targetBlocks sourceBlocks
    layers (plan gs layers)) ?_ ?_ _ w h
  · intro g gs w hw
    have hinner : Safe (host false) (Inv p w₀) (Post (fun _ => Progress p w₀ synced snapshotWire
        targetBlocks sourceBlocks layers (plan gs layers)) (fun _ => Books p w₀ []))
        (Prog.forEach (transferLayer p synced g.1 g.2) layers) w := by
      refine Safe.forEach (J := fun ls => Progress p w₀ synced snapshotWire targetBlocks
        sourceBlocks layers (ls.map (g, ·) ++ plan gs layers)) ?_ ?_ _ w hw
      · intro layer ls w hw
        exact (safe_transferLayer g layer hw).mono fun r w h => by cases r <;> exact h
      · intro w hw w' he
        have hw' := he.keep (fun _ _ => Progress.env) hw
        exact ⟨hw'.inv, hw'⟩
    exact hinner.mono fun r w h => by cases r <;> exact h
  · intro w hw w' he
    have hw' := he.keep (fun _ _ => Progress.env) hw
    exact ⟨hw'.inv, hw'⟩

theorem confirmed_of_mid {done : List Transfer}
    (hplan : done.map Transfer.key = plan (sourceBlocks.zip targetBlocks) layers)
    (h : Mid p w₀ (transferAcks p synced snapshotWire targetBlocks sourceBlocks layers done ++
      [acked .target p.commitIn ()] ++ [acked .target (p.register snapshotWire) ()]) w) :
    Confirmed p w.trace := by
  refine ⟨⟨synced, snapshotWire, targetBlocks, sourceBlocks, layers, done, ?_, fun hlen => ?_⟩, ?_⟩
  · have := h.attempt
    rwa [List.append_assoc] at this
  · have hsrc : done.map (fun d => (d.groupSrc, d.layerName)) =
        (done.map Transfer.key).map fun x => (x.1.1, x.2) := by
      rw [List.map_map]; rfl
    have hdst : done.map (fun d => (d.groupDst, d.layerName)) =
        (done.map Transfer.key).map fun x => (x.1.2, x.2) := by
      rw [List.map_map]; rfl
    rw [hsrc, hdst, hplan, plan, List.map_flatMap, List.map_flatMap]
    simp only [List.map_map]
    constructor
    · conv_rhs => rw [← List.map_fst_zip (Nat.le_of_eq hlen), List.flatMap_map]
      rfl
    · conv_rhs => rw [← List.map_snd_zip (Nat.le_of_eq hlen.symm), List.flatMap_map]
      rfl
  · intro c _
    have := h.books.balanced c
    simpa using this

end Progress

/-! The commits, and what follows them. -/

theorem completed_concat {tr : List Event} {ev : Event} (h : Completed p tr)
    (hev : ev.fails = false) : Completed p (tr ++ [ev]) := by
  obtain ⟨before, between, after, rfl, hbetween, hafter⟩ := h
  refine ⟨before, between, after ++ [ev], by simp, hbetween, ?_⟩
  intro ev' hev'
  rcases List.mem_append.mp hev' with hev' | hev'
  · exact hafter ev' hev'
  · rw [List.mem_singleton.mp hev']
    exact hev

theorem not_completed_of_unfinished (h : Books p w₀ [] w) : ¬Completed p w.trace := by
  rintro ⟨before, between, after, ht, -⟩
  refine h.unfinished (acked .source p.finish ()) ?_ rfl
  rw [ht]
  simp

theorem Finished.inv (h : Finished p w₀ w) : Inv p w₀ w := ⟨h.ordered, .inl h.kept⟩

theorem Finished.env (h : Finished p w₀ w) (he : EnvMoves w w') : Finished p w₀ w' := by
  cases he <;> exact ⟨h.ordered, h.completed, h.kept⟩

theorem Finished.log (ev : Event) (h : Finished p w₀ w) (ht : w'.trace = w.trace ++ [ev])
    (hk : TablesKept w w') (hev : ev.fails = false)
    (hne : ev ≠ .issued (.rpc .source p.commitOut)) : Finished p w₀ w' := by
  constructor
  · rw [ht]
    exact commitOrdered_concat h.ordered fun heq => absurd heq hne
  · rw [ht]
    exact completed_concat h.completed hev
  · exact ⟨hk.1.trans h.kept.1, hk.2.trans h.kept.2⟩

theorem safe_finished (h : Finished p w₀ w) :
    Safe (host false) (Inv p w₀) (Post (fun _ => Finished p w₀) (fun _ => Books p w₀ []))
      (cleanupV1IncrementalPrecopy p) w := by
  refine Safe.gatherOf (J := fun cs w =>
      (∀ c ∈ cs, ∃ i, c = .rpc i (.incrementalAbort p.requestId)) ∧ Finished p w₀ w)
    h.inv ?_ ?_ (fun _ _ h => h.2.inv) ?_ ?_
  · refine ⟨by simp, ?_⟩
    have hsource : Finished p w₀
        (w.log (.issued (.rpc .source (.incrementalAbort p.requestId)))) :=
      h.log (.issued _) rfl ⟨rfl, rfl⟩ rfl nofun
    exact hsource.log (.issued (.rpc .target (.incrementalAbort p.requestId))) rfl ⟨rfl, rfl⟩
      rfl nofun
  · exact fun cs w w' h he => ⟨h.1, h.2.env he⟩
  · intro as c bs w r w' h hs
    refine ⟨fun c' hc' => h.1 c' ?_, ?_⟩
    · simp only [List.mem_append, List.mem_cons] at hc' ⊢
      exact hc'.imp id Or.inr
    · obtain ⟨i, rfl⟩ := h.1 c (by simp)
      obtain ⟨effective, ht, -, -⟩ := trace_of_serves hs
      refine h.2.log _ ht (tables_of_serves hs) ?_ nofun
      cases r <;> rfl
  · intro w h
    exact .retOf h.2 (fun _ _ => Finished.env) fun w h => ⟨h.inv, h⟩

theorem safe_finish {acks : List Event} (h : Mid p w₀ (acks ++ [acked .source p.commitOut ()]) w) :
    Safe (host false) (Inv p w₀) (Post (fun _ => Finished p w₀) (fun _ => Books p w₀ []))
      (rpc .source p.finish) w := by
  refine Safe.call (S := host false) (c := Call.rpc .source p.finish) h (fun _ _ => Mid.env)
    (fun _ h => h.books.inv) ?_
  intro w r w' hw hs w'' he
  have hissue : Books p w₀ [.rpc .source p.finish] (w.log (.issued (.rpc .source p.finish))) :=
    hw.books.issue nofun
  cases r with
  | error e =>
    have hb : Books p w₀ [] w' := hissue.serve [] [] hs nofun
    have hb' := he.keep (fun _ _ => Books.env) hb
    exact ⟨hb'.inv, hb'⟩
  | ok v =>
    obtain ⟨effective, ht, -, heff⟩ := trace_of_serves hs
    have htrue : effective = true := by
      cases effective with
      | true => rfl
      | false =>
        obtain ⟨e, herr⟩ := heff rfl
        cases herr
    subst htrue
    obtain ⟨before, hbefore⟩ := List.getLast?_eq_some_iff.mp
      (hw.last.trans List.getLast?_concat)
    have hfin : Finished p w₀ w' := by
      constructor
      · rw [ht]
        exact commitOrdered_concat hissue.ordered nofun
      · refine ⟨before, [.issued (.rpc .source p.finish)], [], ?_, ?_, by simp⟩
        · rw [ht]
          change w.trace ++ [_] ++ [_] = _
          rw [hbefore, List.append_assoc, List.append_assoc, List.append_assoc]
          rfl
        · intro c hc
          rw [Event.issued.inj (List.mem_singleton.mp hc)]
          nofun
      · exact ⟨(tables_of_serves hs).1.trans hissue.kept.1,
          (tables_of_serves hs).2.trans hissue.kept.2⟩
    have hfin' := he.keep (fun _ _ => Finished.env) hfin
    exact ⟨hfin'.inv, hfin'⟩

theorem safe_commitBoth {synced : List (ℕ × ℕ)} {snapshotWire : String}
    {targetBlocks sourceBlocks : List (List ℕ)} {layers : List String}
    (h : Progress p w₀ synced snapshotWire targetBlocks sourceBlocks layers [] w) :
    Safe (host false) (Inv p w₀) (Post (fun _ => Finished p w₀) (fun _ => Books p w₀ []))
      (commitBoth p snapshotWire) w := by
  obtain ⟨done, hmid, hplan⟩ := h
  rw [List.append_nil] at hplan
  refine Safe.seq (safe_rpc_attempt .target p.commitIn nofun ⟨nofun, id⟩ nofun hmid)
    fun _ w hw => ?_
  refine Safe.seq (safe_rpc_attempt .target (p.register snapshotWire) nofun ⟨nofun, id⟩ nofun hw)
    fun _ w hw => ?_
  refine Safe.seq (safe_rpc_attempt .source p.commitOut nofun ⟨nofun, id⟩
    (fun _ w hw => confirmed_of_mid hplan hw) hw) fun _ w hw => ?_
  refine Safe.seq (safe_finish hw) fun _ w hw => ?_
  split_ifs
  · exact safe_finished hw
  · exact .retOf hw (fun _ _ => Finished.env) fun w h => ⟨h.inv, h⟩

theorem safe_cutover (synced : List (ℕ × ℕ)) (h : Books p w₀ [] w) :
    Safe (host false) (Inv p w₀) (Post (fun _ => Finished p w₀) (fun _ => Books p w₀ []))
      (cutover p synced) w := by
  refine Safe.seq (safe_freeze h) fun snapshotWire w hw => ?_
  refine Safe.seq (safe_rpc_attempt .target (.migrationPrepareInWire snapshotWire) nofun
    ⟨nofun, id⟩ nofun hw) fun targetBlocks w hw => ?_
  refine Safe.seq (safe_rpc_attempt .source (.migrationSourceBlocks p.requestId p.epoch) nofun
    ⟨nofun, id⟩ nofun hw) fun sourceBlocks w hw => ?_
  refine Safe.seq (safe_rpc_attempt .source .migrationLayerNames nofun ⟨nofun, id⟩ nofun hw)
    fun layers w hw => ?_
  have hstart : Progress p w₀ synced snapshotWire targetBlocks sourceBlocks layers
      (plan (sourceBlocks.zip targetBlocks) layers) w :=
    ⟨[], by simpa [transferAcks] using hw, rfl⟩
  exact Safe.seq (safe_transferLayers hstart) fun _ w hw => safe_commitBoth hw

end Mid

section Retry
variable {p : Params} {w₀ w w' : World}

theorem Books.lookup (id : String) (found : Bool) (h : Books p w₀ [] w) :
    Books p w₀ [] (w.log (.lookup id found)) := by
  constructor
  · intro c
    have hb := h.balanced c
    rw [World.log_trace, List.countP_append, List.countP_append]
    simpa [Event.issues, Event.answers] using hb
  · exact commitOrdered_concat h.ordered nofun
  · intro ev hev
    rcases List.mem_append.mp hev with hev | hev
    · exact h.unfinished ev hev
    · rw [List.mem_singleton.mp hev]
      nofun
  · exact h.kept

theorem ordinary_of_auxiliary {c : Call} (h : c.Auxiliary) : Ordinary p c := by
  constructor
  · rintro rfl
    cases h
  · rintro rfl
    cases h

theorem ordinary_of_cleanup {c : Call} (h : c ∈ cleanupCalls p) : Ordinary p c := by
  simp only [cleanupCalls, List.mem_cons, List.not_mem_nil, or_false] at h
  rcases h with rfl | rfl | rfl | rfl | rfl <;> exact ⟨nofun, nofun⟩

theorem safe_auxiliary {α : Type} {q : Coro α} (hq : q.Uses Call.Auxiliary IsLookup)
    (h : Books p w₀ [] w) :
    Safe (host false) (Inv p w₀) (Post (fun _ => Books p w₀ []) (fun _ => Books p w₀ [])) q w := by
  refine safe_books (hq.mono (fun _ => ordinary_of_auxiliary) fun _ h => h) ?_ h
  rintro f w ⟨id, found, rfl⟩ h
  exact h.lookup id found

theorem safe_cleanupV1Migration (h : Books p w₀ [] w) :
    Safe (host false) (Inv p w₀) (Post (fun _ => Books p w₀ []) (fun _ => Books p w₀ []))
      (cleanupV1Migration p) w := by
  refine safe_books ((uses_cleanupV1Migration p).mono (fun _ => ordinary_of_cleanup)
    fun _ h => h) ?_ h
  rintro f w ⟨id, found, rfl⟩ h
  exact h.lookup id found

theorem safe_migrateV1Request (h : Books p w₀ [] w) :
    Safe (host false) (Inv p w₀) (Post (fun _ => Finished p w₀) (fun _ => Books p w₀ []))
      (migrateV1Request p) w := by
  refine Safe.seq (safe_auxiliary (uses_lookupInstance _) h) fun _ w hw => ?_
  refine Safe.seq (safe_auxiliary (uses_lookupInstance _) hw) fun _ w hw => ?_
  dsimp only
  split_ifs
  · exact Safe.seq (safe_auxiliary (uses_runV1IncrementalPrecopy p) hw) fun synced w hw =>
      safe_cutover synced hw
  · exact safe_cutover [] hw

def Moved (p : Params) (w : World) : Prop :=
  CommitOrdered p w.trace ∧ Completed p w.trace ∧ TablesMoved p w

theorem Moved.env (h : Moved p w) (he : EnvMoves w w') : Moved p w' := by
  cases he <;> exact h

/-- The function returns: either nothing was recorded, or the migration completed. -/
def Outcome (p : Params) (w₀ w : World) : Prop := Books p w₀ [] w ∨ Moved p w

theorem Outcome.env (h : Outcome p w₀ w) (he : EnvMoves w w') : Outcome p w₀ w' :=
  h.imp (·.env he) (·.env he)

theorem Outcome.inv (h : Outcome p w₀ w) : Inv p w₀ w :=
  h.elim Books.inv fun h => ⟨h.1, .inr h.2⟩

/-- Another attempt may only follow a failed one. -/
def Handled (p : Params) (w₀ : World) (done : Bool) (w : World) : Prop :=
  if done then Outcome p w₀ w else Books p w₀ [] w

theorem safe_handleFailure (attempt : ℕ) (e : Exc) (h : Books p w₀ [] w) :
    Safe (host false) (Inv p w₀) (Post (Handled p w₀) (fun _ => Books p w₀ []))
      (handleFailure p attempt e) w := by
  have hret : ∀ {done : Bool} {w : World}, Books p w₀ [] w → Safe (host false) (Inv p w₀)
      (Post (Handled p w₀) (fun _ => Books p w₀ [])) (.ret done : Coro Bool) w := by
    intro done w h
    refine .retOf h (fun _ _ => Books.env) fun w h => ⟨h.inv, ?_⟩
    cases done with
    | true => exact .inl h
    | false => exact h
  unfold handleFailure
  split_ifs
  · exact Safe.seq (safe_auxiliary (uses_checkInstanceError p) h) fun _ w hw => hret hw
  · exact hret h
  · refine Safe.seq (safe_cleanupV1Migration h) fun _ w hw => .write hw.inv ?_
    have hw' : Books p w₀ [] w.countRetry := ⟨hw.balanced, hw.ordered, hw.unfinished, hw.kept⟩
    exact Safe.seq (safe_auxiliary (Prog.uses_call (c := Call.sleep _) trivial) hw')
      fun _ w hw => hret hw
  · refine Safe.seq (safe_cleanupV1Migration h) fun _ w hw => .write hw.inv (hret ?_)
    exact ⟨hw.balanced, hw.ordered, hw.unfinished, hw.kept⟩

theorem safe_attemptOnce (attempt : ℕ) (h : Books p w₀ [] w) :
    Safe (host false) (Inv p w₀) (Post (Handled p w₀) (fun _ => Books p w₀ []))
      (attemptOnce p attempt) w := by
  refine Safe.catching ?_ fun e w h => safe_handleFailure attempt e h
  refine Safe.seq (safe_migrateV1Request h) fun _ w hw => .write hw.inv ?_
  have hmoved : Moved p (w.recordMigrated p) := ⟨hw.ordered, hw.completed, rfl, rfl⟩
  exact .retOf hmoved (fun _ _ => Moved.env) fun w h => ⟨Outcome.inv (.inr h), .inr h⟩

theorem safe_retryLoop (n : ℕ) (h : Books p w₀ [] w) :
    Safe (host false) (Inv p w₀) (Post (fun _ => Outcome p w₀) (fun _ => Outcome p w₀))
      (retryLoop p n) w := by
  induction n generalizing w with
  | zero => exact .retOf (.inl h) (fun _ _ => Outcome.env) fun w h => ⟨h.inv, h⟩
  | succ n ih =>
    have hattempt : Safe (host false) (Inv p w₀) (Post (Handled p w₀) (fun _ => Outcome p w₀))
        (attemptOnce p (maxAttempts - (n + 1))) w := by
      refine (safe_attemptOnce (maxAttempts - (n + 1)) h).mono fun r w h => ?_
      cases r with
      | ok done => exact h
      | error e => exact .inl h
    refine Safe.seq hattempt fun done w hw => ?_
    cases done with
    | true => exact .retOf hw (fun _ _ => Outcome.env) fun w h => ⟨h.inv, h⟩
    | false => exact ih hw

/-- The source commit is issued only after the target confirmed everything in the same attempt,
with no abort on its way to the target; and the tables name the target exactly if some attempt had
its source commit and `finish_migrated_out` acknowledged. -/
theorem committed_after_confirmation (p : Params) (htrace : w.trace = []) :
    (∀ q w', (host false).Reaches (migrateV1RequestWithRetry p, w) (q, w') →
      CommitOrdered p w'.trace ∧ (TablesKept w w' ∨ Completed p w'.trace ∧ TablesMoved p w')) ∧
    ∀ r w', (host false).Ends (migrateV1RequestWithRetry p) w r w' →
      (Completed p w'.trace → TablesMoved p w') ∧ (¬Completed p w'.trace → TablesKept w w') := by
  have hbooks : Books p w [] w := by
    constructor
    · intro c
      rw [htrace]; rfl
    · intro before after heq
      rw [htrace] at heq
      simp at heq
    · rw [htrace]
      exact fun ev hev => absurd hev List.not_mem_nil
    · exact ⟨rfl, rfl⟩
  have hsafe := safe_retryLoop maxAttempts hbooks
  constructor
  · intro q w' hr
    exact (hsafe.reaches hr).inv
  · intro r w' hr
    have hout : Outcome p w w' := by
      have := hsafe.ends hr
      cases r <;> exact this
    rcases hout with hb | hm
    · exact ⟨fun hc => absurd hc (not_completed_of_unfinished hb), fun _ => hb.kept⟩
    · exact ⟨fun _ => hm.2.2, fun hc => absurd hm.2.1 hc⟩

end Retry

theorem committed_after_confirmation_sample :
    ∃ w', (host false).Ends (migrateV1RequestWithRetry sampleParams) sampleWorld (.ok ()) w' ∧
      w'.trace.any (Event.issues (.rpc .source sampleParams.commitOut)) = true ∧
      CommitOrdered sampleParams w'.trace ∧ Completed sampleParams w'.trace ∧
      TablesMoved sampleParams w' := by
  have hends : (host false).Ends (migrateV1RequestWithRetry sampleParams) sampleWorld (.ok ()) _ :=
    ends_replay (List.replicate 10 (done 0 none)) rfl
  obtain ⟨hordered, hkept | ⟨hcompleted, hmoved⟩⟩ :=
    (committed_after_confirmation sampleParams rfl).1 _ _ hends
  · exact absurd hkept.1 (by decide)
  · exact ⟨_, hends, by decide, hordered, hcompleted, hmoved⟩

end CommitOrder
end Llumnix.V1
