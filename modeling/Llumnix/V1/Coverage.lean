import Mathlib.Data.List.Forall2
import Llumnix.V1.CommitOrder

/-! What has been transferred when a migration returns, by a pre-copy or by the cut-over. -/
namespace Llumnix.V1.Coverage
open Coroutine

/-! ### Transfers in the log -/

section Transfers
variable (evs : List Event) (layer : String) (i s t : ℕ)

/-- The source has appended the pre-copied blocks to its session. -/
def PrecopyCompleted : Prop :=
  ∃ requestId epoch pairs session,
    acked .source (.incrementalAppendWire requestId epoch pairs) session ∈ evs

/-- The pre-copy sent block `s`, at index `i`, for block `t`. -/
def PrecopySent : Prop :=
  ∃ session sourceIds targetIds endpoint r,
    .served (.rpc .source (.incrementalSendLayerWire session layer sourceIds targetIds endpoint))
      true r ∈ evs ∧ sourceIds[i]? = some s ∧ targetIds[i]? = some t

/-- And the target received it. -/
def PrecopyTransferred : Prop :=
  ∃ session sourceIds targetIds endpoint manifest,
    acked .source (.incrementalSendLayerWire session layer sourceIds targetIds endpoint) manifest
      ∈ evs ∧ sourceIds[i]? = some s ∧ targetIds[i]? = some t ∧
    ∃ sourceEndpoint, acked .target (.incrementalReceiveLayer session manifest sourceEndpoint) ()
      ∈ evs

/-- The cut-over sent block `s`, at index `i`, for block `t`: a send leaves out the synced prefix,
and only that. -/
def CutoverSent : Prop :=
  ∃ requestId epoch groupSrc groupDst endpoint skip r,
    .served (.rpc .source (.migrationSendLayer requestId epoch layer groupSrc groupDst endpoint
      skip)) true r ∈ evs ∧ skip ≤ i ∧ groupSrc[i]? = some s ∧ groupDst[i]? = some t

/-- And the target received it. -/
def CutoverTransferred : Prop :=
  ∃ requestId epoch groupSrc groupDst endpoint skip manifest,
    acked .source (.migrationSendLayer requestId epoch layer groupSrc groupDst endpoint skip)
      manifest ∈ evs ∧ skip ≤ i ∧ groupSrc[i]? = some s ∧ groupDst[i]? = some t ∧
    ∃ sourceEndpoint synced,
      acked .target (.migrationReceiveLayer requestId epoch manifest sourceEndpoint synced) ()
        ∈ evs

end Transfers

/-- The tables that were reported in the course of a migration. The source has one list of layers;
at the freeze its table extends what was pre-copied, and so does the reservation of the target. -/
structure Tables (evs : List Event) (layers : List String)
    (sourceBlocks targetBlocks : List (List ℕ)) : Prop where
  layers : ∀ names, acked .source .migrationLayerNames names ∈ evs → names = layers
  source : ∃ requestId epoch,
    acked .source (.migrationSourceBlocks requestId epoch) sourceBlocks ∈ evs
  target : ∃ snapshotWire, acked .target (.migrationPrepareInWire snapshotWire) targetBlocks ∈ evs
  shapes : List.Forall₂ (fun src dst => src.length = dst.length) sourceBlocks targetBlocks
  sourceExtends : PrecopyCompleted evs → ∀ requestId groups counts,
    acked .source (.incrementalImmutableBlocks requestId) (groups, counts) ∈ evs →
      List.Forall₂ (· <+: ·) groups sourceBlocks
  targetExtends : PrecopyCompleted evs → ∀ sessionWire counts groups,
    acked .target (.incrementalPrepareInWire sessionWire counts) groups ∈ evs →
      List.Forall₂ (· <+: ·) groups targetBlocks

/-! ### What the coroutines log -/

def exchange (i : Side) (m : Method) (v : m.Reply) : List Event := [.issued (.rpc i m), acked i m v]

def About (K : Call → Prop) : Event → Prop
  | .lookup _ _ => True
  | .issued c | .served c _ _ => K c

section Log
variable {strict : Bool} {α : Type} {w : World} {tr evs : List Event} {E : Exc → World → Prop}

theorem safe_rpc (i : Side) (m : Method) (h : w.trace = tr ++ evs)
    (hE : ∀ e effective w', w'.trace = tr ++ (evs ++ [.issued (.rpc i m),
      .served (.rpc i m) effective (.error e)]) → E e w') :
    Safe (host strict) (fun _ => True)
      (Post (fun v w' => w'.trace = tr ++ (evs ++ exchange i m v)) E) (rpc i m) w := by
  refine Safe.call (S := host strict) (c := Call.rpc i m) (P := fun w => w.trace = tr ++ evs) h
    (fun _ _ h he => (trace_of_env he).1.trans h) (fun _ _ => trivial) ?_
  intro w r w' hw hs w'' he
  have hkeep : w''.trace = w'.trace :=
    he.keep (P := fun v => v.trace = w'.trace) (fun _ _ h he => (trace_of_env he).1.trans h) rfl
  obtain ⟨effective, ht, -, heff⟩ := trace_of_serves hs
  change w'.trace = w.trace ++ [.issued (.rpc i m)] ++ _ at ht
  rw [← hkeep, hw, List.append_assoc, List.append_assoc] at ht
  refine ⟨trivial, ?_⟩
  cases r with
  | error e => exact hE e effective w'' ht
  | ok v =>
    cases effective with
    | true => exact ht
    | false =>
      obtain ⟨e, he⟩ := heff rfl
      cases he

theorem safe_rpc_seq {i : Side} {m : Method} {f : m.Reply → Coro α} {Q : α → World → Prop}
    (h : w.trace = tr ++ evs)
    (hE : ∀ e effective w', w'.trace = tr ++ (evs ++ [.issued (.rpc i m),
      .served (.rpc i m) effective (.error e)]) → E e w')
    (hf : ∀ v w', w'.trace = tr ++ (evs ++ exchange i m v) →
      Safe (host strict) (fun _ => True) (Post Q E) (f v) w') :
    Safe (host strict) (fun _ => True) (Post Q E) ((rpc i m).bind f) w :=
  Safe.seq (safe_rpc i m h hE) hf

theorem safe_logged {a : α} {N : α → List Event → Prop} (h : w.trace = tr ++ evs) (hN : N a evs) :
    Safe (host strict) (fun _ => True)
      (Post (fun a w' => ∃ evs, w'.trace = tr ++ evs ∧ N a evs) E) (.ret a) w :=
  .retOf (P := fun w => w.trace = tr ++ evs) h (fun _ _ h he => (trace_of_env he).1.trans h)
    fun _ h => ⟨trivial, evs, h, hN⟩

theorem safe_about {K : Call → Prop} {q : Coro α} (hq : q.Uses K IsLookup) (h : w.trace = tr) :
    Safe (host strict) (fun _ => True)
      (fun _ w' => ∃ evs, w'.trace = tr ++ evs ∧ ∀ ev ∈ evs, About K ev) q w := by
  have hlog : ∀ {w w' : World} {ev : Event},
      (∃ evs, w.trace = tr ++ evs ∧ ∀ ev ∈ evs, About K ev) → w'.trace = w.trace ++ [ev] →
      About K ev → ∃ evs, w'.trace = tr ++ evs ∧ ∀ ev ∈ evs, About K ev := by
    rintro w w' ev ⟨evs, hevs, habout⟩ ht hev
    refine ⟨evs ++ [ev], ?_, ?_⟩
    · rw [ht, hevs, List.append_assoc]
    · rw [List.forall_mem_append, List.forall_mem_singleton]
      exact ⟨habout, hev⟩
  refine Safe.frame (J := fun w' => ∃ evs, w'.trace = tr ++ evs ∧ ∀ ev ∈ evs, About K ev) hq
    ⟨[], ?_, ?_⟩ (fun _ _ => trivial) ?_ ?_ ?_ ?_
  · rw [h, List.append_nil]
  · exact fun ev hev => absurd hev List.not_mem_nil
  · intro w w' hw he
    rwa [(trace_of_env he).1]
  · exact fun c w hc hw => hlog hw rfl hc
  · intro c w r w' hc hw hs
    obtain ⟨effective, ht, -, -⟩ := trace_of_serves hs
    exact hlog hw ht hc
  · rintro f w ⟨id, found, rfl⟩ hw
    exact hlog hw rfl trivial

end Log

/-! ### The pre-copy -/

/-- Entries of a pre-copy that has not completed. -/
def Quiet : Event → Prop
  | .served (.rpc _ (.incrementalAppendWire _ _ _)) _ (.ok _) => False
  | .served c _ _ => c.Auxiliary
  | _ => True

/-- The log of a pre-copy up to the layers. -/
def precopyOpening (p : Params) (session : String) (sourceIds counts targetIds : List ℕ)
    (preview : String) (layers : List String) : List Event :=
  exchange .source (.incrementalBeginWire p.requestId p.epoch) session ++
  exchange .source (.incrementalImmutableBlocks p.requestId) ([sourceIds], counts) ++
  exchange .target (.incrementalPrepareInWire session counts) [targetIds] ++
  exchange .source
    (.incrementalPreviewWire p.requestId (p.epoch + 1) (sourceIds.zip targetIds)) preview ++
  exchange .source .migrationLayerNames layers

/-- The log of one layer of it, with the manifest of the source. -/
def precopyEntry (p : Params) (preview : String) (sourceIds targetIds : List ℕ)
    (layer : String × String) : List Event :=
  exchange .source (.incrementalSendLayerWire preview layer.1 sourceIds targetIds p.targetEndpoint)
    layer.2 ++
  exchange .target (.incrementalReceiveLayer preview layer.2 p.sourceEndpoint) ()

def precopyClosing (p : Params) (preview committed : String) (pairs : List (ℕ × ℕ))
    (appended : String) : List Event :=
  exchange .target (.incrementalCommitInWire preview) committed ++
  exchange .source (.incrementalAppendWire p.requestId (p.epoch + 1) pairs) appended

/-- A pre-copy has not completed, and nothing is synced, or it has gone through all layers. -/
inductive Precopied (p : Params) : List (ℕ × ℕ) → List Event → Prop
  | skipped (evs : List Event) (h : ∀ ev ∈ evs, Quiet ev) : Precopied p [] evs
  | completed (session preview committed appended : String) (sourceIds counts targetIds : List ℕ)
      (done : List (String × String)) :
      Precopied p (sourceIds.zip targetIds)
        (precopyOpening p session sourceIds counts targetIds preview (done.map Prod.fst) ++
          done.flatMap (precopyEntry p preview sourceIds targetIds) ++
          precopyClosing p preview committed (sourceIds.zip targetIds) appended)

section Precopy
variable {strict : Bool} {α : Type} {w : World} {tr evs : List Event} {p : Params}

theorem quiet_exchange {i : Side} {m : Method} (v : m.Reply) (hm : m.auxiliary = true)
    (happend : ∀ id epoch pairs, m ≠ .incrementalAppendWire id epoch pairs) :
    ∀ ev ∈ exchange i m v, Quiet ev := by
  intro ev hev
  rcases List.mem_pair.mp hev with rfl | rfl
  · trivial
  · cases m with
    | incrementalAppendWire id epoch pairs => exact absurd rfl (happend id epoch pairs)
    | _ => exact hm

theorem quiet_error {i : Side} {m : Method} {e : Exc} (effective : Bool) (hm : m.auxiliary = true) :
    ∀ ev ∈ [Event.issued (.rpc i m), .served (.rpc i m) effective (.error e)], Quiet ev := by
  intro ev hev
  rcases List.mem_pair.mp hev with rfl | rfl
  · trivial
  · cases m <;> exact hm

theorem quiet_append {evs' : List Event} (h : ∀ ev ∈ evs, Quiet ev) (h' : ∀ ev ∈ evs', Quiet ev) :
    ∀ ev ∈ evs ++ evs', Quiet ev :=
  List.forall_mem_append.mpr ⟨h, h'⟩

theorem quiet_opening (session : String) (sourceIds counts targetIds : List ℕ)
    (preview : String) (layers : List String) :
    ∀ ev ∈ precopyOpening p session sourceIds counts targetIds preview layers, Quiet ev := by
  unfold precopyOpening
  simp only [List.forall_mem_append]
  exact ⟨⟨⟨⟨quiet_exchange _ rfl nofun, quiet_exchange _ rfl nofun⟩, quiet_exchange _ rfl nofun⟩,
    quiet_exchange _ rfl nofun⟩, quiet_exchange _ rfl nofun⟩

theorem quiet_entry (preview : String) (sourceIds targetIds : List ℕ) (layer : String × String) :
    ∀ ev ∈ precopyEntry p preview sourceIds targetIds layer, Quiet ev := by
  unfold precopyEntry
  rw [List.forall_mem_append]
  exact ⟨quiet_exchange _ rfl nofun, quiet_exchange _ rfl nofun⟩

theorem quiet_entries (preview : String) (sourceIds targetIds : List ℕ)
    (done : List (String × String)) :
    ∀ ev ∈ done.flatMap (precopyEntry p preview sourceIds targetIds), Quiet ev := by
  intro ev hev
  obtain ⟨layer, -, hlayer⟩ := List.mem_flatMap.mp hev
  exact quiet_entry preview sourceIds targetIds layer ev hlayer

/-- The log has grown by so much, and only quietly if the coroutine raises. -/
abbrev Precopies (strict : Bool) (tr : List Event) (N : α → List Event → Prop) (q : Coro α)
    (w : World) : Prop :=
  Safe (host strict) (fun _ => True) (Post (fun a w' => ∃ evs, w'.trace = tr ++ evs ∧ N a evs)
    fun _ w' => ∃ evs, w'.trace = tr ++ evs ∧ ∀ ev ∈ evs, Quiet ev) q w

theorem precopies_seq {i : Side} {m : Method} {f : m.Reply → Coro α} {N : α → List Event → Prop}
    (hm : m.auxiliary = true)
    (happend : ∀ id epoch pairs, m ≠ .incrementalAppendWire id epoch pairs)
    (h : w.trace = tr ++ evs) (hquiet : ∀ ev ∈ evs, Quiet ev)
    (hf : ∀ v w', w'.trace = tr ++ (evs ++ exchange i m v) →
      (∀ ev ∈ evs ++ exchange i m v, Quiet ev) → Precopies strict tr N (f v) w') :
    Precopies strict tr N ((rpc i m).bind f) w := by
  refine safe_rpc_seq h (fun e effective w' ht => ⟨_, ht, ?_⟩) fun v w' ht => hf v w' ht ?_
  · exact quiet_append hquiet (quiet_error effective hm)
  · exact quiet_append hquiet (quiet_exchange v hm happend)

theorem precopies_layer (preview : String) (sourceIds targetIds : List ℕ) (layer : String)
    (h : w.trace = tr ++ evs) (hquiet : ∀ ev ∈ evs, Quiet ev) :
    Precopies strict tr
      (fun _ evs' => ∃ manifest, evs' = evs ++ precopyEntry p preview sourceIds targetIds
        (layer, manifest))
      (precopyLayer p preview sourceIds targetIds layer) w := by
  refine precopies_seq rfl nofun h hquiet fun manifest w hw hsent => ?_
  refine (safe_rpc .target (.incrementalReceiveLayer preview manifest p.sourceEndpoint)
    (E := fun _ w' => ∃ evs, w'.trace = tr ++ evs ∧ ∀ ev ∈ evs, Quiet ev) hw
    fun e effective w' ht => ⟨_, ht, quiet_append hsent (quiet_error effective rfl)⟩).mono
    fun r w' hr => ?_
  cases r with
  | error e => exact hr
  | ok v => exact ⟨_, hr, manifest, List.append_assoc ..⟩

theorem precopies_layers (preview : String) (sourceIds targetIds : List ℕ) (layers : List String)
    (h : w.trace = tr ++ evs) (hquiet : ∀ ev ∈ evs, Quiet ev) :
    Precopies strict tr
      (fun _ evs' => ∃ done : List (String × String), done.map Prod.fst = layers ∧
        evs' = evs ++ done.flatMap (precopyEntry p preview sourceIds targetIds))
      (Prog.forEach (precopyLayer p preview sourceIds targetIds) layers) w := by
  induction layers generalizing w evs with
  | nil => exact safe_logged h ⟨[], rfl, (List.append_nil evs).symm⟩
  | cons layer layers ih =>
    refine Safe.seq (precopies_layer preview sourceIds targetIds layer h hquiet) fun _ w' hw => ?_
    obtain ⟨_, ht, manifest, rfl⟩ := hw
    have hentry := quiet_append hquiet
      (quiet_entry (p := p) preview sourceIds targetIds (layer, manifest))
    refine (ih ht hentry).mono fun r w' hr => ?_
    cases r with
    | error e => exact hr
    | ok v =>
      obtain ⟨evs', ht, done, hdone, rfl⟩ := hr
      exact ⟨_, ht, (layer, manifest) :: done, congrArg (layer :: ·) hdone, List.append_assoc ..⟩

theorem singleton_of_length {groups : List (List ℕ)}
    (h : ¬(groups.length ≠ 1 ∨ (groups.headD []).isEmpty = true)) :
    groups = [groups.headD []] := by
  rw [not_or, Decidable.not_not, List.length_eq_one_iff] at h
  obtain ⟨⟨group, rfl⟩, -⟩ := h
  rfl

theorem precopies_try (p : Params) (h : w.trace = tr) :
    Precopies strict tr (Precopied p) (tryV1IncrementalPrecopy p) w := by
  have hnil : ∀ ev ∈ ([] : List Event), Quiet ev := fun ev hev => absurd hev List.not_mem_nil
  have hstart : w.trace = tr ++ [] := by rw [h, List.append_nil]
  refine precopies_seq rfl nofun hstart hnil fun session w hw hquiet => ?_
  rw [List.nil_append] at hw hquiet
  refine precopies_seq rfl nofun hw hquiet fun ⟨sourceGroups, counts⟩ w hw hquiet => ?_
  dsimp only
  split_ifs with hskip
  · refine precopies_seq rfl nofun hw hquiet fun _ w hw hquiet => ?_
    exact safe_logged hw (.skipped _ hquiet)
  refine precopies_seq rfl nofun hw hquiet fun targetGroups w hw hquiet => ?_
  split_ifs with hrefuse
  · refine precopies_seq rfl nofun hw hquiet fun _ w hw hquiet => ?_
    refine precopies_seq rfl nofun hw hquiet fun _ w hw hquiet => ?_
    exact safe_logged hw (.skipped _ hquiet)
  rw [singleton_of_length hskip, singleton_of_length hrefuse] at hw hquiet
  rw [singleton_of_length hskip, singleton_of_length hrefuse]
  generalize sourceGroups.headD [] = sourceIds at hw hquiet ⊢
  generalize targetGroups.headD [] = targetIds at hw hquiet ⊢
  refine precopies_seq rfl nofun hw hquiet fun preview w hw hquiet => ?_
  refine precopies_seq rfl nofun hw hquiet fun layers w hw hquiet => ?_
  refine Safe.seq (precopies_layers preview sourceIds targetIds layers hw hquiet) fun _ w hw => ?_
  obtain ⟨_, ht, done, rfl, rfl⟩ := hw
  have hdone := quiet_append hquiet (quiet_entries (p := p) preview sourceIds targetIds done)
  refine precopies_seq rfl nofun ht hdone fun committed w hw hquiet => ?_
  -- The answer to the last call is what completes it.
  refine safe_rpc_seq hw (fun e effective w' ht => ⟨_, ht, ?_⟩) fun appended w hw => ?_
  · exact quiet_append hquiet (quiet_error effective rfl)
  refine safe_logged hw ?_
  rw [List.append_assoc]
  exact .completed session preview committed appended sourceIds counts targetIds done

theorem precopies_run (p : Params) (h : w.trace = tr) :
    Safe (host strict) (fun _ => True)
      (Post (fun synced w' => ∃ evs, w'.trace = tr ++ evs ∧ Precopied p synced evs)
        fun _ _ => True) (runV1IncrementalPrecopy p) w := by
  refine Safe.catching (precopies_try p h) fun e w hw => ?_
  obtain ⟨evs, ht, hquiet⟩ := hw
  have hcleanup : (cleanupV1IncrementalPrecopy p).Uses
      (fun c => ∃ i id, c = .rpc i (.incrementalAbort id)) IsLookup := by
    refine ⟨fun c hc => ?_, trivial⟩
    rcases List.mem_pair.mp hc with rfl | rfl
    · exact ⟨_, _, rfl⟩
    · exact ⟨_, _, rfl⟩
  refine Safe.seq (M := fun _ w' => ∃ evs', w'.trace = tr ++ evs ++ evs' ∧ ∀ ev ∈ evs', Quiet ev)
    ((safe_about hcleanup ht).mono fun r w' hr => ?_) fun _ w' hw => ?_
  · obtain ⟨evs', ht, habout⟩ := hr
    have hquiet' : ∀ ev ∈ evs', Quiet ev := by
      intro ev hev
      have hev := habout ev hev
      cases ev with
      | served c effective r =>
        obtain ⟨i, id, rfl⟩ := hev
        rfl
      | _ => trivial
    cases r with
    | ok v => exact ⟨evs', ht, hquiet'⟩
    | error e => trivial
  · obtain ⟨evs', ht, hquiet'⟩ := hw
    rw [List.append_assoc] at ht
    exact safe_logged ht (.skipped _ (quiet_append hquiet hquiet'))

end Precopy

/-! ### The cut-over -/

def transferEntry (p : Params) (synced : List (ℕ × ℕ)) (d : Transfer) : List Event :=
  exchange .source (.migrationSendLayer p.requestId p.epoch d.layerName d.groupSrc d.groupDst
    p.targetEndpoint synced.length) d.manifest ++
  exchange .target (.migrationReceiveLayer p.requestId p.epoch d.manifest p.sourceEndpoint synced)
    ()

/-- The log of the cut-over up to the commits. -/
def cutoverEntries (p : Params) (synced : List (ℕ × ℕ)) (snapshotWire : String)
    (targetBlocks sourceBlocks : List (List ℕ)) (layers : List String) (done : List Transfer) :
    List Event :=
  exchange .source (.migrationPrepareOutWire p.requestId p.epoch) snapshotWire ++
  exchange .target (.migrationPrepareInWire snapshotWire) targetBlocks ++
  exchange .source (.migrationSourceBlocks p.requestId p.epoch) sourceBlocks ++
  exchange .source .migrationLayerNames layers ++
  done.flatMap (transferEntry p synced)

def Closing : Call → Prop
  | .rpc _ (.migrationCommit _ _ _) | .rpc _ (.registerMigratedRequest _ _ _)
  | .rpc _ (.finishMigratedOut _) | .rpc _ (.incrementalAbort _) => True
  | _ => False

section Cutover
variable {strict : Bool} {α : Type} {w : World} {tr evs : List Event} {p : Params}

/-- The log has grown by so much if the coroutine returns. -/
abbrev Logs (strict : Bool) (tr : List Event) (N : α → List Event → Prop) (q : Coro α)
    (w : World) : Prop :=
  Safe (host strict) (fun _ => True) (Post (fun a w' => ∃ evs, w'.trace = tr ++ evs ∧ N a evs)
    fun _ _ => True) q w

theorem logs_seq {i : Side} {m : Method} {f : m.Reply → Coro α} {N : α → List Event → Prop}
    (h : w.trace = tr ++ evs)
    (hf : ∀ v w', w'.trace = tr ++ (evs ++ exchange i m v) → Logs strict tr N (f v) w') :
    Logs strict tr N ((rpc i m).bind f) w :=
  safe_rpc_seq h (fun _ _ _ _ => trivial) hf

theorem logs_layers (synced : List (ℕ × ℕ)) (g : List ℕ × List ℕ) (layers : List String)
    (h : w.trace = tr ++ evs) :
    Logs strict tr
      (fun _ evs' => ∃ done : List Transfer,
        done.map CommitOrder.Transfer.key = layers.map (g, ·) ∧
        evs' = evs ++ done.flatMap (transferEntry p synced))
      (Prog.forEach (transferLayer p synced g.1 g.2) layers) w := by
  induction layers generalizing w evs with
  | nil => exact safe_logged h ⟨[], rfl, (List.append_nil evs).symm⟩
  | cons layer layers ih =>
    refine Safe.seq (M := fun _ w' => ∃ manifest, w'.trace = tr ++ (evs ++
      transferEntry p synced ⟨g.1, g.2, layer, manifest⟩)) ?_ fun _ w' hw => ?_
    · refine safe_rpc_seq (E := fun _ _ => True) h (fun _ _ _ _ => trivial) fun manifest w hw => ?_
      refine (safe_rpc .target (.migrationReceiveLayer p.requestId p.epoch manifest
        p.sourceEndpoint synced) hw fun _ _ _ _ => trivial).mono fun r w' hr => ?_
      cases r with
      | error e => trivial
      | ok v =>
        refine ⟨manifest, Eq.trans hr ?_⟩
        rw [List.append_assoc evs]
        rfl
    · obtain ⟨manifest, ht⟩ := hw
      refine (ih ht).mono fun r w' hr => ?_
      cases r with
      | error e => trivial
      | ok v =>
        obtain ⟨_, ht, done, hdone, rfl⟩ := hr
        exact ⟨_, ht, ⟨g.1, g.2, layer, manifest⟩ :: done, congrArg ((g, layer) :: ·) hdone,
          List.append_assoc ..⟩

theorem logs_groups (synced : List (ℕ × ℕ)) (groups : List (List ℕ × List ℕ))
    (layers : List String) (h : w.trace = tr ++ evs) :
    Logs strict tr
      (fun _ evs' => ∃ done : List Transfer,
        done.map CommitOrder.Transfer.key = CommitOrder.plan groups layers ∧
        evs' = evs ++ done.flatMap (transferEntry p synced))
      (Prog.forEach (fun g => Prog.forEach (transferLayer p synced g.1 g.2) layers) groups) w := by
  induction groups generalizing w evs with
  | nil => exact safe_logged h ⟨[], rfl, (List.append_nil evs).symm⟩
  | cons g groups ih =>
    refine Safe.seq (logs_layers synced g layers h) fun _ w' hw => ?_
    obtain ⟨_, ht, done, hdone, rfl⟩ := hw
    refine (ih ht).mono fun r w' hr => ?_
    cases r with
    | error e => trivial
    | ok v =>
      obtain ⟨_, ht, done', hdone', rfl⟩ := hr
      refine ⟨_, ht, done ++ done', ?_, ?_⟩
      · rw [List.map_append, hdone, hdone']
        rfl
      · rw [List.flatMap_append, List.append_assoc]

theorem uses_commitBoth (p : Params) (snapshotWire : String) :
    (commitBoth p snapshotWire).Uses Closing IsLookup := by
  refine Prog.uses_bind (uses_rpc trivial) fun _ => Prog.uses_bind (uses_rpc trivial) fun _ =>
    Prog.uses_bind (uses_rpc trivial) fun _ => Prog.uses_bind (uses_rpc trivial) fun _ => ?_
  split_ifs
  · refine ⟨fun c hc => ?_, trivial⟩
    rcases List.mem_pair.mp hc with rfl | rfl <;> trivial
  · trivial

theorem logs_cutover (p : Params) (synced : List (ℕ × ℕ)) (h : w.trace = tr) :
    Logs strict tr
      (fun _ evs => ∃ snapshotWire targetBlocks sourceBlocks layers done closing,
        done.map CommitOrder.Transfer.key =
          CommitOrder.plan (sourceBlocks.zip targetBlocks) layers ∧
        (∀ ev ∈ closing, About Closing ev) ∧
        evs = cutoverEntries p synced snapshotWire targetBlocks sourceBlocks layers done ++ closing)
      (cutover p synced) w := by
  have hstart : w.trace = tr ++ [] := by rw [h, List.append_nil]
  refine logs_seq hstart fun snapshotWire w hw => logs_seq hw fun targetBlocks w hw =>
    logs_seq hw fun sourceBlocks w hw => logs_seq hw fun layers w hw => ?_
  rw [List.nil_append] at hw
  refine Safe.seq (logs_groups synced (sourceBlocks.zip targetBlocks) layers hw) fun _ w hw => ?_
  obtain ⟨_, ht, done, hdone, rfl⟩ := hw
  refine (safe_about (uses_commitBoth p snapshotWire) ht).mono fun r w' hr => ?_
  obtain ⟨closing, ht, hclosing⟩ := hr
  cases r with
  | error e => trivial
  | ok v =>
    refine ⟨_, ht.trans (List.append_assoc ..), snapshotWire, targetBlocks, sourceBlocks, layers,
      done, closing, hdone, hclosing, rfl⟩

/-- The log of a migration that returned: the look-ups, the pre-copy if there was one, the
cut-over and the commits. -/
structure Course (p : Params) where
  looks : List Event
  precopy : List Event
  synced : List (ℕ × ℕ)
  snapshotWire : String
  targetBlocks : List (List ℕ)
  sourceBlocks : List (List ℕ)
  layers : List String
  done : List Transfer
  closing : List Event
  looks_about : ∀ ev ∈ looks, About (fun _ => False) ev
  precopied : Precopied p synced precopy
  plan_done : done.map CommitOrder.Transfer.key =
    CommitOrder.plan (sourceBlocks.zip targetBlocks) layers
  closing_about : ∀ ev ∈ closing, About Closing ev

def Course.entries (c : Course p) : List Event :=
  c.looks ++ c.precopy ++
    cutoverEntries p c.synced c.snapshotWire c.targetBlocks c.sourceBlocks c.layers c.done ++
    c.closing

theorem logs_migrate (p : Params) (h : w.trace = tr) :
    Logs strict tr (fun _ evs => ∃ c : Course p, evs = c.entries) (migrateV1Request p) w := by
  have hlooks : ∀ {id : String} {w : World} {tr : List Event}, w.trace = tr →
      Logs strict tr (fun _ looks => ∀ ev ∈ looks, About (fun _ => False) ev)
        (lookupInstance id) w := by
    intro id w tr h
    have huses : (lookupInstance id).Uses (fun _ => False) IsLookup := uses_lookupInstance id
    refine (safe_about huses h).mono fun r w' hr => ?_
    cases r with
    | error e => trivial
    | ok v => exact hr
  refine Safe.seq (hlooks h) fun _ w hw => ?_
  obtain ⟨looks, ht, habout⟩ := hw
  refine Safe.seq (hlooks ht) fun _ w hw => ?_
  obtain ⟨looks', ht, habout'⟩ := hw
  rw [List.append_assoc] at ht
  have hrest : ∀ synced w, (∃ precopy, w.trace = tr ++ (looks ++ looks') ++ precopy ∧
      Precopied p synced precopy) →
      Logs strict tr (fun _ evs => ∃ c : Course p, evs = c.entries) (cutover p synced) w := by
    rintro synced w ⟨precopy, ht, hsynced⟩
    refine (logs_cutover p synced ht).mono fun r w' hr => ?_
    cases r with
    | error e => trivial
    | ok v =>
      obtain ⟨_, ht, snapshotWire, targetBlocks, sourceBlocks, layers, done, closing, hdone,
        hclosing, rfl⟩ := hr
      refine ⟨_, ?_, ⟨looks ++ looks', precopy, synced, snapshotWire, targetBlocks, sourceBlocks,
        layers, done, closing, List.forall_mem_append.mpr ⟨habout, habout'⟩, hsynced, hdone,
        hclosing⟩, rfl⟩
      rw [ht]
      simp only [Course.entries, List.append_assoc]
  dsimp only
  split_ifs
  · exact Safe.seq (precopies_run p ht) hrest
  · refine hrest [] w ⟨[], ?_, .skipped [] fun ev hev => absurd hev List.not_mem_nil⟩
    rw [ht, List.append_nil]

end Cutover

/-! ### What the log says -/

section Entries
variable {p : Params} {c : Course p} {synced : List (ℕ × ℕ)} {evs : List Event} {i : Side}
  {m : Method} {effective : Bool} {requestId layer : String} {epoch j s t : ℕ}
  {sourceIds targetIds : List ℕ}

theorem served_mem_exchange {call : Call} {r : Except Exc call.Reply} {v : m.Reply} :
    .served call effective r ∈ exchange i m v ↔ .served call effective r = acked i m v := by
  simp [exchange]

theorem acked_mem_exchange (v : m.Reply) : acked i m v ∈ exchange i m v :=
  List.mem_cons_of_mem _ List.mem_cons_self

theorem auxiliary_of_precopied {r : Except Exc m.Reply} (h : Precopied p synced evs)
    (hev : .served (.rpc i m) effective r ∈ evs) : m.auxiliary = true := by
  have hquiet : Quiet (.served (.rpc i m) effective r) → m.auxiliary = true := by
    intro h
    cases m with
    | incrementalAppendWire => rfl
    | _ => exact h
  cases h with
  | skipped _ h => exact hquiet (h _ hev)
  | completed session preview committed appended sourceIds counts targetIds done =>
    rcases List.mem_append.mp hev with hev | hev
    · exact hquiet (quiet_append (quiet_opening session sourceIds counts targetIds preview _)
        (quiet_entries preview sourceIds targetIds done) _ hev)
    · rcases List.mem_append.mp hev with hev | hev
      · cases served_mem_exchange.mp hev
        rfl
      · cases served_mem_exchange.mp hev
        rfl

theorem served_of_cutover {call : Call} {r : Except Exc call.Reply}
    (hev : .served call effective r ∈ cutoverEntries p c.synced c.snapshotWire c.targetBlocks
      c.sourceBlocks c.layers c.done) :
    .served call effective r = acked .source (.migrationPrepareOutWire p.requestId p.epoch)
      c.snapshotWire ∨
    .served call effective r = acked .target (.migrationPrepareInWire c.snapshotWire)
      c.targetBlocks ∨
    .served call effective r = acked .source (.migrationSourceBlocks p.requestId p.epoch)
      c.sourceBlocks ∨
    .served call effective r = acked .source .migrationLayerNames c.layers ∨
    ∃ d ∈ c.done,
      .served call effective r = acked .source (.migrationSendLayer p.requestId p.epoch
        d.layerName d.groupSrc d.groupDst p.targetEndpoint c.synced.length) d.manifest ∨
      .served call effective r = acked .target (.migrationReceiveLayer p.requestId p.epoch
        d.manifest p.sourceEndpoint c.synced) () := by
  unfold cutoverEntries at hev
  rw [List.mem_append, List.mem_append, List.mem_append, List.mem_append, List.mem_flatMap] at hev
  rcases hev with (((hev | hev) | hev) | hev) | ⟨d, hd, hev⟩
  · exact .inl (served_mem_exchange.mp hev)
  · exact .inr (.inl (served_mem_exchange.mp hev))
  · exact .inr (.inr (.inl (served_mem_exchange.mp hev)))
  · exact .inr (.inr (.inr (.inl (served_mem_exchange.mp hev))))
  · refine .inr (.inr (.inr (.inr ⟨d, hd, ?_⟩)))
    exact (List.mem_append.mp hev).imp served_mem_exchange.mp served_mem_exchange.mp

theorem mem_cutover_of_mem {r : Except Exc m.Reply} (hm : m.auxiliary = false)
    (hclosing : ¬Closing (.rpc i m)) (hev : .served (.rpc i m) effective r ∈ c.entries) :
    .served (.rpc i m) effective r ∈ cutoverEntries p c.synced c.snapshotWire c.targetBlocks
      c.sourceBlocks c.layers c.done := by
  unfold Course.entries at hev
  rw [List.mem_append, List.mem_append, List.mem_append] at hev
  rcases hev with ((hev | hev) | hev) | hev
  · exact (c.looks_about _ hev).elim
  · rw [auxiliary_of_precopied c.precopied hev] at hm
    cases hm
  · exact hev
  · exact absurd (c.closing_about _ hev) hclosing

theorem entries_of_cutover {ev : Event}
    (hev : ev ∈ cutoverEntries p c.synced c.snapshotWire c.targetBlocks c.sourceBlocks c.layers
      c.done) : ev ∈ c.entries :=
  List.mem_append_left _ (List.mem_append_right _ hev)

theorem entries_of_precopy {ev : Event} (hev : ev ∈ c.precopy) : ev ∈ c.entries :=
  List.mem_append_left _ (List.mem_append_left _ (List.mem_append_right _ hev))

theorem sourceBlocks_eq {blocks : List (List ℕ)}
    (h : acked .source (.migrationSourceBlocks requestId epoch) blocks ∈ c.entries) :
    blocks = c.sourceBlocks := by
  rcases served_of_cutover (mem_cutover_of_mem rfl id h) with h | h | h | h | ⟨d, -, h | h⟩
  all_goals cases h
  rfl

theorem targetBlocks_eq {snapshotWire : String} {blocks : List (List ℕ)}
    (h : acked .target (.migrationPrepareInWire snapshotWire) blocks ∈ c.entries) :
    blocks = c.targetBlocks := by
  rcases served_of_cutover (mem_cutover_of_mem rfl id h) with h | h | h | h | ⟨d, -, h | h⟩
  all_goals cases h
  rfl

theorem skip_eq {endpoint : String} {skip : ℕ} {groupSrc groupDst : List ℕ}
    {r : Except Exc (List String)}
    (h : .served (.rpc .source (.migrationSendLayer requestId epoch layer groupSrc groupDst endpoint
      skip)) effective r ∈ c.entries) : skip = c.synced.length := by
  rcases served_of_cutover (mem_cutover_of_mem rfl id h) with h | h | h | h | ⟨d, -, h | h⟩
  all_goals cases h
  rfl

theorem layers_mem : acked .source .migrationLayerNames c.layers ∈ c.entries := by
  refine entries_of_cutover (List.mem_append_left _ (List.mem_append_right _ ?_))
  exact acked_mem_exchange (m := .migrationLayerNames) c.layers

theorem cutover_transfers {src dst : List ℕ}
    (hgroup : (src, dst) ∈ c.sourceBlocks.zip c.targetBlocks) (hlayer : layer ∈ c.layers)
    (hj : c.synced.length ≤ j) (hs : src[j]? = some s) (ht : dst[j]? = some t) :
    CutoverTransferred c.entries layer j s t := by
  have hplan : ((src, dst), layer) ∈ c.done.map CommitOrder.Transfer.key := by
    rw [c.plan_done]
    exact List.mem_flatMap.mpr ⟨(src, dst), hgroup, List.mem_map_of_mem hlayer⟩
  obtain ⟨d, hd, hkey⟩ := List.mem_map.mp hplan
  obtain ⟨hgroups, hname⟩ := Prod.mk.inj hkey
  obtain ⟨hsrc, hdst⟩ := Prod.mk.inj hgroups
  have hentry : ∀ ev ∈ transferEntry p c.synced d, ev ∈ c.entries := fun ev hev =>
    entries_of_cutover (List.mem_append_right _ (List.mem_flatMap.mpr ⟨d, hd, hev⟩))
  refine ⟨p.requestId, p.epoch, d.groupSrc, d.groupDst, p.targetEndpoint, c.synced.length,
    d.manifest, ?_, hj, ?_, ?_, p.sourceEndpoint, c.synced, ?_⟩
  · rw [← hname]
    exact hentry _ (List.mem_append_left _ (acked_mem_exchange _))
  · rw [hsrc, hs]
  · rw [hdst, ht]
  · exact hentry _ (List.mem_append_right _ (acked_mem_exchange _))

/-! The pre-copy of the course. -/

theorem precopy_of_mem {r : Except Exc m.Reply} (hm : m.auxiliary = true)
    (hlayers : m ≠ .migrationLayerNames) (habort : ¬Closing (.rpc i m))
    (hev : .served (.rpc i m) effective r ∈ c.entries) :
    .served (.rpc i m) effective r ∈ c.precopy := by
  unfold Course.entries at hev
  rw [List.mem_append, List.mem_append, List.mem_append] at hev
  rcases hev with ((hev | hev) | hev) | hev
  · exact (c.looks_about _ hev).elim
  · exact hev
  · rcases served_of_cutover hev with h | h | h | h | ⟨d, -, h | h⟩
    · cases h
      cases hm
    · cases h
      cases hm
    · cases h
      cases hm
    · cases h
      exact absurd rfl hlayers
    · cases h
      cases hm
    · cases h
      cases hm
  · exact absurd (c.closing_about _ hev) habort

/-- A pre-copy that has completed has gone through every layer, with the same blocks. -/
structure Whole (p : Params) (synced : List (ℕ × ℕ)) (evs : List Event)
    (sourceIds targetIds : List ℕ) (names : List String) : Prop where
  synced : synced = sourceIds.zip targetIds
  layers : acked .source .migrationLayerNames names ∈ evs
  source : ∃ counts, acked .source (.incrementalImmutableBlocks p.requestId) ([sourceIds], counts)
    ∈ evs
  target : ∃ session counts, acked .target (.incrementalPrepareInWire session counts) [targetIds]
    ∈ evs
  transfers : ∀ layer ∈ names, ∀ j s t, sourceIds[j]? = some s → targetIds[j]? = some t →
    PrecopyTransferred evs layer j s t
  sent : ∀ layer j s t, PrecopySent evs layer j s t →
    sourceIds[j]? = some s ∧ targetIds[j]? = some t

theorem precopyTransferred_of_entry (p : Params) (preview : String) {manifest : String}
    (h : ∀ ev ∈ precopyEntry p preview sourceIds targetIds (layer, manifest), ev ∈ evs)
    (hs : sourceIds[j]? = some s) (ht : targetIds[j]? = some t) :
    PrecopyTransferred evs layer j s t := by
  refine ⟨preview, sourceIds, targetIds, p.targetEndpoint, manifest, ?_, hs, ht, p.sourceEndpoint,
    ?_⟩
  · exact h _ (List.mem_append_left _
      (acked_mem_exchange (m := .incrementalSendLayerWire ..) manifest))
  · exact h _ (List.mem_append_right _ (acked_mem_exchange (m := .incrementalReceiveLayer ..) ()))

theorem sent_of_completed {session preview committed appended : String} {counts : List ℕ}
    {names : List String} {done : List (String × String)} {pairs : List (ℕ × ℕ)}
    (h : PrecopySent (precopyOpening p session sourceIds counts targetIds preview names ++
      done.flatMap (precopyEntry p preview sourceIds targetIds) ++
      precopyClosing p preview committed pairs appended) layer j s t) :
    sourceIds[j]? = some s ∧ targetIds[j]? = some t := by
  obtain ⟨session', sourceIds', targetIds', endpoint, r, hev, hs, ht⟩ := h
  unfold precopyOpening precopyClosing at hev
  simp only [List.mem_append] at hev
  rcases hev with ((((((hev | hev) | hev) | hev) | hev) | hev) | (hev | hev))
  case inl.inr =>
    obtain ⟨d, -, hev⟩ := List.mem_flatMap.mp hev
    rcases List.mem_append.mp hev with hev | hev
    · cases served_mem_exchange.mp hev
      exact ⟨hs, ht⟩
    · cases served_mem_exchange.mp hev
  all_goals cases served_mem_exchange.mp hev

theorem precopied_cases (h : Precopied p synced evs) :
    synced = [] ∧ ¬PrecopyCompleted evs ∨
      PrecopyCompleted evs ∧ ∃ sourceIds targetIds names,
        Whole p synced evs sourceIds targetIds names := by
  cases h with
  | skipped _ h =>
    refine .inl ⟨rfl, ?_⟩
    rintro ⟨requestId, epoch, pairs, session, hev⟩
    exact h _ hev
  | completed session preview committed appended sourceIds counts targetIds done =>
    have hopening : ∀ ev ∈ precopyOpening p session sourceIds counts targetIds preview
        (done.map Prod.fst), ev ∈ precopyOpening p session sourceIds counts targetIds preview
          (done.map Prod.fst) ++ done.flatMap (precopyEntry p preview sourceIds targetIds) ++
          precopyClosing p preview committed (sourceIds.zip targetIds) appended :=
      fun ev hev => List.mem_append_left _ (List.mem_append_left _ hev)
    refine .inr ⟨⟨p.requestId, p.epoch + 1, sourceIds.zip targetIds, appended, ?_⟩,
      sourceIds, targetIds, done.map Prod.fst, rfl, ?_, ⟨counts, ?_⟩, ⟨session, counts, ?_⟩, ?_, ?_⟩
    · exact List.mem_append_right _ (List.mem_append_right _
        (acked_mem_exchange (m := .incrementalAppendWire ..) appended))
    · exact hopening _ (List.mem_append_right _
        (acked_mem_exchange (m := .migrationLayerNames) (done.map Prod.fst)))
    · exact hopening _ (List.mem_append_left _ (List.mem_append_left _ (List.mem_append_left _
        (List.mem_append_right _
          (acked_mem_exchange (m := .incrementalImmutableBlocks _) ([sourceIds], counts))))))
    · exact hopening _ (List.mem_append_left _ (List.mem_append_left _ (List.mem_append_right _
        (acked_mem_exchange (m := .incrementalPrepareInWire ..) [targetIds]))))
    · intro layer hlayer j s t hs ht
      obtain ⟨⟨_, manifest⟩, hd, rfl⟩ := List.mem_map.mp hlayer
      exact precopyTransferred_of_entry p preview (fun ev hev =>
        List.mem_append_left _ (List.mem_append_right _ (List.mem_flatMap.mpr ⟨_, hd, hev⟩))) hs ht
    · exact fun layer j s t h => sent_of_completed h

theorem completed_iff : PrecopyCompleted c.entries ↔ PrecopyCompleted c.precopy := by
  constructor
  · rintro ⟨requestId, epoch, pairs, session, hev⟩
    exact ⟨requestId, epoch, pairs, session, precopy_of_mem rfl nofun id hev⟩
  · rintro ⟨requestId, epoch, pairs, session, hev⟩
    exact ⟨requestId, epoch, pairs, session, entries_of_precopy hev⟩

theorem precopySent_of_entries (h : PrecopySent c.entries layer j s t) :
    PrecopySent c.precopy layer j s t := by
  obtain ⟨session, sourceIds, targetIds, endpoint, r, hev, hs, ht⟩ := h
  exact ⟨session, sourceIds, targetIds, endpoint, r, precopy_of_mem rfl nofun id hev, hs, ht⟩

theorem precopyTransferred_entries (h : PrecopyTransferred c.precopy layer j s t) :
    PrecopyTransferred c.entries layer j s t := by
  obtain ⟨session, sourceIds, targetIds, endpoint, manifest, hsend, hs, ht, source, hreceive⟩ := h
  exact ⟨session, sourceIds, targetIds, endpoint, manifest, entries_of_precopy hsend, hs, ht,
    source, entries_of_precopy hreceive⟩

end Entries

/-! ### Coverage -/

section Coverage
variable {p : Params} {c : Course p} {layers : List String}
  {sourceBlocks targetBlocks : List (List ℕ)} {g i s t : ℕ} {src dst : List ℕ}

theorem counterpart (h : List.Forall₂ (fun src dst => src.length = dst.length) sourceBlocks
    targetBlocks) (hg : sourceBlocks[g]? = some src) (hi : src[i]? = some s) :
    ∃ dst t, targetBlocks[g]? = some dst ∧ dst[i]? = some t := by
  obtain ⟨hlen, hshape⟩ := List.forall₂_iff_get.mp h
  obtain ⟨hglt, rfl⟩ := List.getElem?_eq_some_iff.mp hg
  obtain ⟨hilt, -⟩ := List.getElem?_eq_some_iff.mp hi
  have hg' : g < targetBlocks.length := hlen ▸ hglt
  have hi' : i < targetBlocks[g].length := (hshape g hglt hg') ▸ hilt
  exact ⟨targetBlocks[g], targetBlocks[g][i], List.getElem?_eq_getElem hg',
    List.getElem?_eq_getElem hi'⟩

theorem only_group {ids group : List ℕ} {blocks : List (List ℕ)}
    (h : List.Forall₂ (· <+: ·) [ids] blocks) (hg : blocks[g]? = some group) : ids <+: group := by
  obtain ⟨only, rest, hprefix, hrest, rfl⟩ := List.forall₂_cons_left_iff.mp h
  obtain rfl := List.forall₂_nil_left_iff.mp hrest
  cases g with
  | zero => exact Option.some.inj hg ▸ hprefix
  | succ g => cases hg

/-- Transferred by the cut-over or by a pre-copy that completed, and not sent by both. -/
def CoveredOnce (evs : List Event) (layer : String) (i s t : ℕ) : Prop :=
  (CutoverTransferred evs layer i s t ∨
    PrecopyCompleted evs ∧ PrecopyTransferred evs layer i s t) ∧
  ¬(CutoverSent evs layer i s t ∧ PrecopyCompleted evs ∧ PrecopySent evs layer i s t)

theorem covered_of_skipped {layer : String} (hsynced : c.synced = [])
    (hnot : ¬PrecopyCompleted c.entries) (hgroup : (src, dst) ∈ c.sourceBlocks.zip c.targetBlocks)
    (hlayer : layer ∈ c.layers) (hs : src[i]? = some s) (ht : dst[i]? = some t) :
    CoveredOnce c.entries layer i s t := by
  refine ⟨.inl (cutover_transfers hgroup hlayer ?_ hs ht), fun h => hnot h.2.1⟩
  rw [hsynced]
  exact Nat.zero_le i

/-- A prefix of the only group was pre-copied: the cut-over transfers what lies behind it. -/
theorem covered_of_whole {sourceIds targetIds : List ℕ} {names : List String} {layer : String}
    (hcompleted : PrecopyCompleted c.entries)
    (hwhole : Whole p c.synced c.precopy sourceIds targetIds names) (hsrc : sourceIds <+: src)
    (hdst : targetIds <+: dst) (hgroup : (src, dst) ∈ c.sourceBlocks.zip c.targetBlocks)
    (hlayer : layer ∈ c.layers) (hname : layer ∈ names) (hs : src[i]? = some s)
    (ht : dst[i]? = some t) :
    CoveredOnce c.entries layer i s t := by
  have hlength : c.synced.length = min sourceIds.length targetIds.length := by
    rw [hwhole.synced, List.length_zip]
  by_cases hi : i < c.synced.length
  · have hsource : sourceIds[i]? = some s := by
      obtain ⟨rest, rfl⟩ := hsrc
      rwa [List.getElem?_append_left (by omega)] at hs
    have htarget : targetIds[i]? = some t := by
      obtain ⟨rest, rfl⟩ := hdst
      rwa [List.getElem?_append_left (by omega)] at ht
    have htransferred := hwhole.transfers layer hname i s t hsource htarget
    refine ⟨.inr ⟨hcompleted, precopyTransferred_entries htransferred⟩, fun h => ?_⟩
    obtain ⟨requestId, epoch, groupSrc, groupDst, endpoint, skip, r, hev, hskip, -⟩ := h.1
    have hsynced := skip_eq hev
    omega
  · refine ⟨.inl (cutover_transfers hgroup hlayer (Nat.le_of_not_lt hi) hs ht), fun h => ?_⟩
    obtain ⟨hsource, htarget⟩ := hwhole.sent layer i s t (precopySent_of_entries h.2.2)
    have hs' := (List.getElem?_eq_some_iff.mp hsource).1
    have ht' := (List.getElem?_eq_some_iff.mp htarget).1
    omega

end Coverage

/-- When a migration returns, each block of the source's table at the freeze has been transferred
to its counterpart on the target, in every layer: by the cut-over or by a pre-copy that completed,
and not by both. -/
theorem transfer_covers (strict : Bool) (p : Params) {w w' : World} {evs : List Event}
    {layers : List String} {sourceBlocks targetBlocks : List (List ℕ)}
    (hends : (host strict).Ends (migrateV1Request p) w (.ok ()) w')
    (hevs : w'.trace = w.trace ++ evs) (htables : Tables evs layers sourceBlocks targetBlocks)
    {g i s : ℕ} {src : List ℕ} (hg : sourceBlocks[g]? = some src) (hi : src[i]? = some s) :
    ∃ dst t, targetBlocks[g]? = some dst ∧ dst[i]? = some t ∧ ∀ layer ∈ layers,
      (CutoverTransferred evs layer i s t ∨
        PrecopyCompleted evs ∧ PrecopyTransferred evs layer i s t) ∧
      ¬(CutoverSent evs layer i s t ∧ PrecopyCompleted evs ∧ PrecopySent evs layer i s t) := by
  obtain ⟨_, htrace, c, rfl⟩ := (logs_migrate p rfl).ends hends
  obtain rfl : evs = c.entries := List.append_cancel_left (hevs.symm.trans htrace)
  obtain ⟨requestId, epoch, hsource⟩ := htables.source
  obtain ⟨snapshotWire, htarget⟩ := htables.target
  have hsourceBlocks := sourceBlocks_eq hsource
  have htargetBlocks := targetBlocks_eq htarget
  have hlayers := htables.layers c.layers layers_mem
  subst hsourceBlocks htargetBlocks hlayers
  obtain ⟨dst, t, hdst, ht⟩ := counterpart htables.shapes hg hi
  have hgroup : (src, dst) ∈ c.sourceBlocks.zip c.targetBlocks :=
    List.mem_of_getElem? (List.getElem?_zip_eq_some.mpr ⟨hg, hdst⟩)
  refine ⟨dst, t, hdst, ht, fun layer hlayer => ?_⟩
  rcases precopied_cases c.precopied with ⟨hsynced, hnot⟩ |
    ⟨hcompleted, sourceIds, targetIds, names, hwhole⟩
  · exact covered_of_skipped hsynced (fun h => hnot (completed_iff.mp h)) hgroup hlayer hi ht
  · have hdone := completed_iff.mpr hcompleted
    obtain ⟨counts, hsourceIds⟩ := hwhole.source
    obtain ⟨session, counts', htargetIds⟩ := hwhole.target
    have hprefix := only_group
      (htables.sourceExtends hdone _ _ _ (entries_of_precopy hsourceIds)) hg
    have hprefix' := only_group
      (htables.targetExtends hdone _ _ _ (entries_of_precopy htargetIds)) hdst
    have hnames := htables.layers names (entries_of_precopy hwhole.layers)
    exact covered_of_whole hdone hwhole hprefix hprefix' hgroup hlayer (hnames ▸ hlayer) hi ht

section Sample

/-- The first of two blocks is pre-copied. -/
def precopyParams : Params := { sampleParams with incrementalPrecopy := true }

def sampleCourse : Course precopyParams where
  looks := [.lookup "s" true, .lookup "t" true]
  precopy := precopyOpening precopyParams "session" [7] [1] [3] "preview" ["attn.0"] ++
    precopyEntry precopyParams "preview" [7] [3] ("attn.0", "kv.0") ++
    precopyClosing precopyParams "preview" "committed" [(7, 3)] "appended"
  synced := [(7, 3)]
  snapshotWire := "snapshot"
  targetBlocks := [[3, 4]]
  sourceBlocks := [[7, 8]]
  layers := ["attn.0"]
  done := [⟨[7, 8], [3, 4], "attn.0", ["kv.1"]⟩]
  closing :=
    exchange .target (.migrationCommit "r" 1 true) () ++
    exchange .target (.registerMigratedRequest "r" "snapshot" ⟨"api"⟩) () ++
    exchange .source (.migrationCommit "r" 1 false) () ++
    exchange .source (.finishMigratedOut "r") () ++
    [.issued (.rpc .source (.incrementalAbort "r")), .issued (.rpc .target (.incrementalAbort "r")),
      acked .source (.incrementalAbort "r") (), acked .target (.incrementalAbort "r") ()]
  looks_about := by simp [About]
  precopied :=
    .completed "session" "preview" "committed" "appended" [7] [1] [3] [("attn.0", "kv.0")]
  plan_done := rfl
  closing_about := by simp [About, exchange, acked, Closing]

/-- What the log says about the tables. -/
def namesIn : Event → Option (List String)
  | .served (.rpc .source .migrationLayerNames) true (.ok names) => some names
  | _ => none

def sourceGroupsIn : Event → Option (List (List ℕ))
  | .served (.rpc .source (.incrementalImmutableBlocks _)) true (.ok (groups, _)) => some groups
  | _ => none

def targetGroupsIn : Event → Option (List (List ℕ))
  | .served (.rpc .target (.incrementalPrepareInWire _ _)) true (.ok groups) => some groups
  | _ => none

theorem sample_tables : Tables sampleCourse.entries ["attn.0"] [[7, 8]] [[3, 4]] where
  layers names h := by
    have hall : ∀ names ∈ sampleCourse.entries.filterMap namesIn, names = ["attn.0"] := by decide
    exact hall names (List.mem_filterMap.mpr ⟨_, h, rfl⟩)
  source := ⟨"r", 1, List.mem_of_getElem? (i := 25) rfl⟩
  target := ⟨"snapshot", List.mem_of_getElem? (i := 23) rfl⟩
  shapes := .cons rfl .nil
  sourceExtends _ requestId groups counts h := by
    have hall : ∀ groups ∈ sampleCourse.entries.filterMap sourceGroupsIn, groups = [[7]] := by
      decide
    rw [hall groups (List.mem_filterMap.mpr ⟨_, h, rfl⟩)]
    exact .cons ⟨[8], rfl⟩ .nil
  targetExtends _ sessionWire counts groups h := by
    have hall : ∀ groups ∈ sampleCourse.entries.filterMap targetGroupsIn, groups = [[3]] := by
      decide
    rw [hall groups (List.mem_filterMap.mpr ⟨_, h, rfl⟩)]
    exact .cons ⟨[4], rfl⟩ .nil

theorem transfer_covers_sample : ∃ w',
    (host true).Ends (migrateV1Request precopyParams) sampleWorld (.ok ()) w' ∧
    w'.trace = sampleWorld.trace ++ sampleCourse.entries ∧ PrecopyCompleted sampleCourse.entries ∧
    ∃ dst t, [[3, 4]][0]? = some dst ∧ dst[1]? = some t ∧ ∀ layer ∈ ["attn.0"],
      (CutoverTransferred sampleCourse.entries layer 1 8 t ∨
        PrecopyCompleted sampleCourse.entries ∧
          PrecopyTransferred sampleCourse.entries layer 1 8 t) ∧
      ¬(CutoverSent sampleCourse.entries layer 1 8 t ∧ PrecopyCompleted sampleCourse.entries ∧
        PrecopySent sampleCourse.entries layer 1 8 t) := by
  have hends : (host true).Ends (migrateV1Request precopyParams) sampleWorld (.ok ()) _ :=
    ends_replay (List.replicate 21 (done 0 none)) rfl
  exact ⟨_, hends, rfl, ⟨"r", 2, [(7, 3)], "appended", List.mem_of_getElem? (i := 19) rfl⟩,
    transfer_covers true precopyParams hends rfl sample_tables (g := 0) rfl rfl⟩

end Sample
end Llumnix.V1.Coverage
