import Llumnix.Machine.Run
import Llumnix.Python.Dict
import Llumnix.Transfer.RequestId

/-! The tables of the V1 adapter, and the output streams of the requests that they are about. -/
namespace Llumnix.V1

open Machine Python Llumnix.Transfer

/-- The `kv_role` of the transfer configuration. -/
inductive KvRole
  | kvProducer
  | kvConsumer
  | kvBoth
  deriving DecidableEq

/-- What the adapter reads of its arguments and of the environment. -/
structure AdapterArgs where
  digits : Digits
  p2pConnectorEnabled : Bool
  kvRole : Option KvRole
  kvDecodeAddress : Option Text

/-- The texts that Python takes for true. -/
def Given (a : Option Text) : Prop := a ≠ none ∧ a ≠ some []

instance (a : Option Text) : Decidable (Given a) := inferInstanceAs (Decidable (_ ∧ _))

namespace AdapterArgs

/-- The request id under which `generate` hands the request to the engine. -/
def generateId (args : AdapterArgs) (requestId : Text) (decodeAddress : Option Text) :
    Except Llumnix.Transfer.Exc Text :=
  if args.p2pConnectorEnabled ∧ (args.kvRole = some .kvProducer ∨ args.kvRole = some .kvBoth) then
    decorateP2pRequestId args.digits requestId
      (if Given decodeAddress then decodeAddress else args.kvDecodeAddress)
  else .ok requestId

/-- The one under which `add_request` does. -/
def addRequestId (args : AdapterArgs) (requestId : Text)
    (decodeAddress prefillAddress p2pRequestId : Option Text) : Except Llumnix.Transfer.Exc Text :=
  match p2pRequestId with
  | some p2pRequestId => .ok (if p2pRequestId = [] then requestId else p2pRequestId)
  | none =>
    if args.p2pConnectorEnabled then
      if (args.kvRole = some .kvProducer ∨ args.kvRole = some .kvBoth) ∧ Given decodeAddress then
        decorateP2pRequestId args.digits requestId decodeAddress
      else if args.kvRole = some .kvConsumer ∧ Given prefillAddress then
        decorateP2pConsumerRequestId args.digits requestId prefillAddress
      else .ok requestId
    else .ok requestId

end AdapterArgs

/-- The bookkeeping of `V1EngineAdapter`: an entry of `requests` is the server info and the time. -/
structure Adapter (I T : Type) where
  requests : Dict Text (Option I × T) := .empty
  requestIdAliases : Dict Text Text := .empty
  running : List Text := []

namespace Adapter
variable {I T : Type}

/-- What `generate`, `add_request` and `add_migrated_request` note about a request. -/
def record (b : Adapter I T) (requestId internalId : Text) (entry : Option I × T) :
    Adapter I T where
  requests := b.requests.set requestId entry
  requestIdAliases := b.requestIdAliases.set requestId internalId
  running := b.running ++ [requestId]

/-- Also the clean-up of `_forward_v1_outputs`, which does the same by hand. -/
def releaseRequest (b : Adapter I T) (requestId : Text) : Adapter I T where
  requests := b.requests.erase requestId
  requestIdAliases := b.requestIdAliases.erase requestId
  running := b.running.erase requestId

/-- The ids that `abort` hands to the engine. -/
def internalIds (b : Adapter I T) (ids : List Text) : List Text :=
  ids.map fun rid => (b.requestIdAliases.get? rid).getD rid

/-- What `abort` does to the tables, once the engine has aborted. -/
def releaseAll (b : Adapter I T) (ids : List Text) : Adapter I T := ids.foldl releaseRequest b

def numRunningRequests (b : Adapter I T) : ℕ := b.running.length

/-- The three tables are about the same requests. -/
structure Agree (b : Adapter I T) : Prop where
  aliases : ∀ id, id ∈ b.requestIdAliases ↔ id ∈ b.requests
  queue : ∀ id, id ∈ b.running ↔ id ∈ b.requests
  nodup : b.running.Nodup

variable {b : Adapter I T} {requestId internalId : Text} {entry : Option I × T} {ids : List Text}

theorem Agree.release (h : b.Agree) (requestId : Text) : (b.releaseRequest requestId).Agree where
  aliases id := by simp [releaseRequest, h.aliases]
  queue id := by simp [releaseRequest, h.nodup.mem_erase_iff, h.queue]
  nodup := h.nodup.erase requestId

theorem Agree.releaseAll (h : b.Agree) (ids : List Text) : (b.releaseAll ids).Agree := by
  induction ids generalizing b with
  | nil => exact h
  | cons id ids ih => exact ih (h.release id)

theorem agree_record_iff (h : b.Agree) :
    (b.record requestId internalId entry).Agree ↔ requestId ∉ b.running := by
  constructor
  · intro hrecord hmem
    have hnodup : (b.running ++ [requestId]).Nodup := hrecord.nodup
    exact (List.nodup_append.mp hnodup).2.2 requestId hmem requestId (by simp) rfl
  · intro hfresh
    refine ⟨fun id => by simp [record, h.aliases], fun id => ?_, ?_⟩
    · simp [record, h.queue, or_comm]
    · refine List.nodup_append.mpr ⟨h.nodup, List.nodup_singleton requestId, ?_⟩
      rintro id hid _ hlast rfl
      exact hfresh (List.mem_singleton.mp hlast ▸ hid)

/-- A request that the engine refuses at once takes an earlier one of the same id with it, but not
out of the queue. -/
theorem agree_rollback_iff (h : b.Agree) :
    ((b.record requestId internalId entry).releaseRequest requestId).Agree ↔
      requestId ∉ b.running := by
  constructor
  · intro hback hmem
    have hstill : requestId ∈ ((b.record requestId internalId entry).releaseRequest
        requestId).running := by
      simp only [releaseRequest, record, List.erase_append_left [requestId] hmem]
      exact List.mem_append_right _ (List.mem_singleton_self requestId)
    have hgone := (hback.queue requestId).mp hstill
    simp [releaseRequest] at hgone
  · exact fun hfresh => ((agree_record_iff h).mpr hfresh).release requestId

theorem mem_requests_releaseAll {id : Text} :
    id ∈ (b.releaseAll ids).requests ↔ id ∉ ids ∧ id ∈ b.requests := by
  induction ids generalizing b with
  | nil => simp [releaseAll]
  | cons x xs ih =>
    change id ∈ ((b.releaseRequest x).releaseAll xs).requests ↔ _
    rw [ih]
    simp only [releaseRequest, Dict.mem_erase, List.mem_cons, not_or]
    tauto

theorem get?_aliases_releaseAll {id : Text} (h : id ∉ ids) :
    (b.releaseAll ids).requestIdAliases.get? id = b.requestIdAliases.get? id := by
  induction ids generalizing b with
  | nil => rfl
  | cons x xs ih =>
    obtain ⟨hx, hxs⟩ := not_or.mp (List.mem_cons.not.mp h)
    change ((b.releaseRequest x).releaseAll xs).requestIdAliases.get? id = _
    rw [ih hxs, releaseRequest, Dict.get?_erase, if_neg hx]

end Adapter

/-- The stream of a request: `migrated` if it came with `add_migrated_request`, `active` as long as
the engine works on it. -/
structure OutputStream where
  requestId : Text
  internalId : Text
  migrated : Bool
  active : Bool
  deriving DecidableEq

/-- How the forwarding of a stream ends: with the stream or by being cancelled; because the stream
raises; or because an output cannot be handed on. In the last two cases the request is aborted, and
the abort can fail. -/
inductive Termination
  | closed
  | raised (abortFails : Bool)
  | undelivered (abortFails : Bool)
  deriving DecidableEq

namespace Termination

/-- The generator of the stream has run to its end, its own `finally` block included. -/
def endsGenerator : Termination → Bool
  | closed => true
  | raised _ => true
  | undelivered _ => false

def aborts : Termination → Bool
  | closed => false
  | raised abortFails => !abortFails
  | undelivered abortFails => !abortFails

end Termination

/-- The adapter with the streams that have been handed out and not ended. -/
structure Frontend (I T : Type) where
  adapter : Adapter I T := {}
  streams : List OutputStream := []

/-- `finish` is the engine's doing; `raises` says that it does not take the request. -/
inductive FrontendAction (I T : Type)
  | generate (requestId : Text) (decodeAddress : Option Text) (now : T) (raises : Bool)
  | addRequest (requestId : Text) (serverInfo : I)
      (decodeAddress prefillAddress p2pRequestId : Option Text) (now : T) (raises : Bool)
  | addMigratedRequest (requestId : Text) (serverInfo : I) (now : T) (raises : Bool)
  | releaseRequest (requestId : Text)
  | abort (ids : List Text)
  | finish (k : ℕ)
  | terminate (k : ℕ) (how : Termination)

namespace Frontend
variable {I T : Type} (args : AdapterArgs)

/-- The engine fails a stream whose id is that of an active one. -/
def opened (s : Frontend I T) (requestId internalId : Text) (migrated : Bool) : OutputStream where
  requestId := requestId
  internalId := internalId
  migrated := migrated
  active := !s.streams.any fun t => t.active && t.internalId = internalId

/-- `generate` and `add_request`, which record the request first. -/
def submit (s : Frontend I T) (internalId : Except Llumnix.Transfer.Exc Text) (requestId : Text)
    (entry : Option I × T) (raises : Bool) : Frontend I T :=
  match internalId with
  | .error _ => s
  | .ok internalId =>
    let recorded := s.adapter.record requestId internalId entry
    if raises then { s with adapter := recorded.releaseRequest requestId }
    else
      { adapter := recorded, streams := s.streams ++ [s.opened requestId internalId false] }

/-- The output processor is asked before anything is recorded. -/
def addMigratedRequest (s : Frontend I T) (requestId : Text) (entry : Option I × T)
    (raises : Bool) : Frontend I T :=
  if raises then s
  else
    { adapter := s.adapter.record requestId requestId entry
      streams := s.streams ++ [s.opened requestId requestId true] }

def releaseRequest (s : Frontend I T) (requestId : Text) : Frontend I T :=
  { s with adapter := s.adapter.releaseRequest requestId }

def deactivate (internalIds : List Text) (t : OutputStream) : OutputStream :=
  if t.internalId ∈ internalIds then { t with active := false } else t

def abort (s : Frontend I T) (ids : List Text) : Frontend I T where
  adapter := s.adapter.releaseAll ids
  streams := s.streams.map (deactivate (s.adapter.internalIds ids))

def finish (s : Frontend I T) (k : ℕ) : Option (Frontend I T) :=
  s.streams[k]?.map fun t => { s with streams := s.streams.set k { t with active := false } }

/-- The end of `_forward_v1_outputs`. A migrated stream releases its request itself, in the
`finally` block of `_migrated_outputs`. -/
def terminate (s : Frontend I T) (k : ℕ) (how : Termination) : Option (Frontend I T) :=
  s.streams[k]?.map fun t =>
    let s := { s with streams := s.streams.eraseIdx k }
    let s := if t.migrated ∧ how.endsGenerator then s.releaseRequest t.requestId else s
    let s := if how.aborts then s.abort [t.requestId] else s
    s.releaseRequest t.requestId

def step (s : Frontend I T) : FrontendAction I T → Option (Frontend I T)
  | .generate requestId decodeAddress now raises =>
    some (s.submit (args.generateId requestId decodeAddress) requestId (none, now) raises)
  | .addRequest requestId serverInfo decodeAddress prefillAddress p2pRequestId now raises =>
    some (s.submit (args.addRequestId requestId decodeAddress prefillAddress p2pRequestId)
      requestId (some serverInfo, now) raises)
  | .addMigratedRequest requestId serverInfo now raises =>
    some (s.addMigratedRequest requestId (some serverInfo, now) raises)
  | .releaseRequest requestId => some (s.releaseRequest requestId)
  | .abort ids => some (s.abort ids)
  | .finish k => s.finish k
  | .terminate k how => s.terminate k how

def activeStreams (s : Frontend I T) : List OutputStream := s.streams.filter (·.active)

/-- The tables are about the same requests, and an active one is in them, with the id under which
the engine knows it. -/
structure Consistent (s : Frontend I T) : Prop where
  agree : s.adapter.Agree
  active : ∀ t ∈ s.activeStreams, t.requestId ∈ s.adapter.requests ∧
    s.adapter.requestIdAliases.get? t.requestId = some t.internalId

/-- The engine knows a request by its id. -/
def Distinct (s : Frontend I T) : Prop :=
  s.activeStreams.Pairwise fun t u => t.internalId ≠ u.internalId

/-- No active stream has one of the ids. -/
def Unused (ts : List OutputStream) (ids : List Text) : Prop :=
  ∀ t ∈ ts, t.active = true → t.requestId ∉ ids

/-- What keeps the tables consistent: a request has an id that none in the queue has; a release is
not about an active stream, unless the engine has aborted that one before. -/
def Kept (s : Frontend I T) : FrontendAction I T → Prop
  | .generate requestId decodeAddress _ _ =>
    (args.generateId requestId decodeAddress).isOk → requestId ∉ s.adapter.running
  | .addRequest requestId _ decodeAddress prefillAddress p2pRequestId _ _ =>
    (args.addRequestId requestId decodeAddress prefillAddress p2pRequestId).isOk →
      requestId ∉ s.adapter.running
  | .addMigratedRequest requestId _ _ raises => raises = false → requestId ∉ s.adapter.running
  | .releaseRequest requestId => Unused s.streams [requestId]
  | .abort _ => True
  | .finish _ => True
  | .terminate k how => ∀ t ∈ s.streams[k]?, ∀ u ∈ s.streams.eraseIdx k,
    u.active = true → u.requestId = t.requestId →
      how.aborts ∧ (t.migrated ∧ how.endsGenerator → u.internalId = u.requestId)

section Steps
variable {args} {s s' : Frontend I T} {ts : List OutputStream} {requestId internalId : Text}

theorem mem_activeStreams {t : OutputStream} :
    t ∈ s.activeStreams ↔ t ∈ s.streams ∧ t.active = true := List.mem_filter

/-- The active streams of `ts` are among those of `s`. -/
def Fewer (s : Frontend I T) (ts : List OutputStream) : Prop :=
  (ts.filter (·.active)).Sublist s.activeStreams

theorem Fewer.mem (h : Fewer s ts) {t : OutputStream} (ht : t ∈ ts) (hactive : t.active = true) :
    t ∈ s.activeStreams :=
  h.subset (List.mem_filter.mpr ⟨ht, hactive⟩)

theorem fewer_eraseIdx (k : ℕ) : Fewer s (s.streams.eraseIdx k) :=
  (List.eraseIdx_sublist s.streams k).filter _

theorem fewer_deactivate (ids : List Text) (h : Fewer s ts) :
    Fewer s (ts.map (deactivate ids)) := by
  refine List.Sublist.trans ?_ h
  clear h
  induction ts with
  | nil => exact .slnil
  | cons t ts ih =>
    rw [List.map_cons, deactivate]
    split_ifs
    · cases hactive : t.active
      · simpa [hactive] using ih
      · simpa [hactive] using ih.cons t
    · cases hactive : t.active
      · simpa [hactive] using ih
      · simpa [hactive] using ih

theorem fewer_set (k : ℕ) {t : OutputStream} (ht : t.active = false) :
    Fewer s (s.streams.set k t) := by
  unfold Fewer activeStreams
  generalize s.streams = ts
  induction ts generalizing k with
  | nil => simp
  | cons u us ih =>
    cases k with
    | zero => cases hactive : u.active <;> simp [ht, hactive]
    | succ k => cases hactive : u.active <;> simpa [hactive] using ih k

theorem active_of_deactivate {ids : List Text} {t u : OutputStream} (h : deactivate ids u = t)
    (hactive : t.active = true) : u = t ∧ t.internalId ∉ ids := by
  unfold deactivate at h
  split_ifs at h with hmem
  · rw [← h] at hactive
    cases hactive
  · exact ⟨h, h ▸ hmem⟩

theorem unused_deactivate_iff {ids internalIds : List Text} :
    Unused (ts.map (deactivate internalIds)) ids ↔
      ∀ t ∈ ts, t.active = true → t.requestId ∈ ids → t.internalId ∈ internalIds := by
  constructor
  · intro h t ht hactive hid
    by_contra hnot
    have hsame : deactivate internalIds t = t := if_neg hnot
    exact h t (List.mem_map.mpr ⟨t, ht, hsame⟩) hactive hid
  · intro h t ht hactive hid
    obtain ⟨u, hu, hut⟩ := List.mem_map.mp ht
    obtain ⟨rfl, hnot⟩ := active_of_deactivate hut hactive
    exact hnot (h u hu hactive hid)

theorem consistent_releaseAll_iff (h : s.Consistent) (hts : Fewer s ts) (ids : List Text) :
    Consistent ⟨s.adapter.releaseAll ids, ts⟩ ↔ Unused ts ids := by
  constructor
  · intro hafter t ht hactive hmem
    have hthere := (hafter.active t (mem_activeStreams.mpr ⟨ht, hactive⟩)).1
    exact (Adapter.mem_requests_releaseAll.mp hthere).1 hmem
  · intro hunused
    refine ⟨h.agree.releaseAll ids, fun t ht => ?_⟩
    obtain ⟨ht, hactive⟩ := mem_activeStreams.mp ht
    have hnot : t.requestId ∉ ids := hunused t ht hactive
    obtain ⟨hreq, halias⟩ := h.active t (hts.mem ht hactive)
    refine ⟨Adapter.mem_requests_releaseAll.mpr ⟨hnot, hreq⟩, ?_⟩
    rw [Adapter.get?_aliases_releaseAll hnot]
    exact halias

theorem consistent_abort (h : s.Consistent) (ids : List Text) : (s.abort ids).Consistent := by
  refine (consistent_releaseAll_iff h (fewer_deactivate _ (.refl _)) ids).mpr ?_
  refine unused_deactivate_iff.mpr fun t ht hactive hid => ?_
  obtain ⟨-, halias⟩ := h.active t (mem_activeStreams.mpr ⟨ht, hactive⟩)
  exact List.mem_map.mpr ⟨t.requestId, hid, by rw [halias]; rfl⟩

theorem consistent_finish (h : s.Consistent) {k : ℕ} (hstep : s.finish k = some s') :
    s'.Consistent := by
  obtain ⟨t, -, rfl⟩ := Option.map_eq_some_iff.mp hstep
  have hfewer : Fewer s (s.streams.set k { t with active := false }) := fewer_set k rfl
  have hnone := consistent_releaseAll_iff h hfewer []
  exact hnone.mpr fun _ _ _ => List.not_mem_nil

/-- The id that a task ends up aborting: a migrated stream has given up its alias by then. -/
def abortedId (s : Frontend I T) (t : OutputStream) (how : Termination) : Text :=
  if t.migrated ∧ how.endsGenerator then t.requestId
  else (s.adapter.requestIdAliases.get? t.requestId).getD t.requestId

theorem terminate_cases {k : ℕ} {how : Termination} (h : s.terminate k how = some s') :
    ∃ t, s.streams[k]? = some t ∧ ∃ ids, (∀ id, id ∈ ids ↔ id = t.requestId) ∧
      s' = ⟨s.adapter.releaseAll ids,
        if how.aborts then (s.streams.eraseIdx k).map (deactivate [s.abortedId t how])
        else s.streams.eraseIdx k⟩ := by
  obtain ⟨t, ht, rfl⟩ := Option.map_eq_some_iff.mp h
  refine ⟨t, ht, ?_⟩
  unfold abortedId
  by_cases hown : t.migrated ∧ how.endsGenerator
  · by_cases habort : how.aborts
    · refine ⟨[t.requestId, t.requestId, t.requestId], by simp, ?_⟩
      have hown_id : (s.adapter.releaseRequest t.requestId).internalIds [t.requestId] =
          [t.requestId] := by
        simp [Adapter.internalIds, Adapter.releaseRequest, Dict.get?_erase]
      simp only [if_pos hown, if_pos habort]
      change (⟨_, List.map (deactivate ((s.adapter.releaseRequest t.requestId).internalIds
        [t.requestId])) _⟩ : Frontend I T) = _
      rw [hown_id]
      rfl
    · refine ⟨[t.requestId, t.requestId], by simp, ?_⟩
      simp only [if_pos hown, if_neg habort]
      rfl
  · by_cases habort : how.aborts
    · refine ⟨[t.requestId, t.requestId], by simp, ?_⟩
      simp only [if_neg hown, if_pos habort]
      rfl
    · refine ⟨[t.requestId], by simp, ?_⟩
      simp only [if_neg hown, if_neg habort]
      rfl

theorem consistent_terminate_iff (h : s.Consistent) {k : ℕ} {how : Termination}
    (hstep : s.terminate k how = some s') : s'.Consistent ↔ s.Kept args (.terminate k how) := by
  obtain ⟨t, ht, ids, hids, rfl⟩ := terminate_cases hstep
  have hkept : s.Kept args (.terminate k how) ↔ ∀ u ∈ s.streams.eraseIdx k, u.active = true →
      u.requestId ∈ ids → how.aborts ∧ u.internalId ∈ [s.abortedId t how] := by
    simp only [Kept, ht, Option.mem_some_iff, forall_eq', hids, List.mem_singleton]
    refine forall₄_congr fun u hu hactive hid => and_congr_right fun _ => ?_
    obtain ⟨-, halias⟩ := h.active u ((fewer_eraseIdx k).mem hu hactive)
    rw [hid] at halias
    unfold abortedId
    split_ifs with hown
    · rw [hid]
      exact ⟨fun heq => heq hown, fun heq _ => heq⟩
    · rw [halias]
      exact iff_of_true (fun hno => absurd hno hown) rfl
  rw [hkept]
  split_ifs with habort
  · rw [consistent_releaseAll_iff h (fewer_deactivate _ (fewer_eraseIdx k)), unused_deactivate_iff]
    simp only [habort, true_and]
  · rw [consistent_releaseAll_iff h (fewer_eraseIdx k)]
    simp only [habort, Bool.false_eq_true, false_and, imp_false, Unused]

theorem consistent_record_iff (h : s.Consistent) {entry : Option I × T} {migrated active : Bool} :
    Consistent ⟨s.adapter.record requestId internalId entry,
        s.streams ++ [⟨requestId, internalId, migrated, active⟩]⟩ ↔
      requestId ∉ s.adapter.running := by
  refine ⟨fun hafter => (Adapter.agree_record_iff h.agree).mp hafter.agree, fun hfresh => ?_⟩
  refine ⟨(Adapter.agree_record_iff h.agree).mpr hfresh, fun t ht => ?_⟩
  obtain ⟨ht, hactive⟩ := mem_activeStreams.mp ht
  simp only [Adapter.record, Dict.mem_set, Dict.get?_set]
  rcases List.mem_append.mp ht with ht | ht
  · obtain ⟨hreq, halias⟩ := h.active t (mem_activeStreams.mpr ⟨ht, hactive⟩)
    have hne : t.requestId ≠ requestId :=
      fun heq => hfresh ((h.agree.queue requestId).mpr (heq ▸ hreq))
    rw [if_neg hne]
    exact ⟨.inr hreq, halias⟩
  · rw [List.mem_singleton.mp ht, if_pos rfl]
    exact ⟨.inl rfl, rfl⟩

theorem consistent_rollback_iff (h : s.Consistent) {entry : Option I × T} :
    Consistent { s with adapter :=
        (s.adapter.record requestId internalId entry).releaseRequest requestId } ↔
      requestId ∉ s.adapter.running := by
  refine ⟨fun hafter => (Adapter.agree_rollback_iff h.agree).mp hafter.agree, fun hfresh => ?_⟩
  refine ⟨(Adapter.agree_rollback_iff h.agree).mpr hfresh, fun t ht => ?_⟩
  obtain ⟨hreq, halias⟩ := h.active t ht
  have hne : t.requestId ≠ requestId :=
    fun heq => hfresh ((h.agree.queue requestId).mpr (heq ▸ hreq))
  simp only [Adapter.record, Adapter.releaseRequest, Dict.mem_erase, Dict.mem_set, Dict.get?_erase,
    Dict.get?_set, if_neg hne]
  exact ⟨⟨hne, .inr hreq⟩, halias⟩

theorem consistent_submit_iff (h : s.Consistent) (internalId : Except Llumnix.Transfer.Exc Text)
    {entry : Option I × T} {raises : Bool} :
    (s.submit internalId requestId entry raises).Consistent ↔
      (internalId.isOk → requestId ∉ s.adapter.running) := by
  cases internalId with
  | error e => exact iff_of_true h fun hok => by cases hok
  | ok internalId =>
    have hok : (Except.ok internalId : Except Llumnix.Transfer.Exc Text).isOk = true := rfl
    rw [forall_prop_of_true hok]
    unfold submit
    cases raises with
    | true => exact consistent_rollback_iff h
    | false => exact consistent_record_iff h

/-- Whether a step keeps the tables consistent. -/
theorem consistent_step_iff (h : s.Consistent) (a : FrontendAction I T) :
    (∀ s', s.step args a = some s' → s'.Consistent) ↔ s.Kept args a := by
  cases a with
  | generate requestId decodeAddress now raises =>
    simp only [step, Option.some.injEq, forall_eq']
    exact consistent_submit_iff h _
  | addRequest requestId serverInfo decodeAddress prefillAddress p2pRequestId now raises =>
    simp only [step, Option.some.injEq, forall_eq']
    exact consistent_submit_iff h _
  | addMigratedRequest requestId serverInfo now raises =>
    simp only [step, Option.some.injEq, forall_eq', addMigratedRequest, Kept]
    cases raises with
    | true => exact iff_of_true h fun hno => by cases hno
    | false =>
      rw [forall_prop_of_true rfl]
      exact consistent_record_iff h
  | releaseRequest requestId =>
    simp only [step, Option.some.injEq, forall_eq']
    exact consistent_releaseAll_iff h (.refl _) [requestId]
  | abort ids =>
    simp only [step, Option.some.injEq, forall_eq']
    exact iff_of_true (consistent_abort h ids) trivial
  | finish k => exact iff_of_true (fun s' hs' => consistent_finish h hs') trivial
  | terminate k how =>
    constructor
    · intro hafter
      cases hstep : s.terminate k how with
      | none =>
        have hout : s.streams[k]? = none := by simpa [terminate] using hstep
        simp [Kept, hout]
      | some s' => exact (consistent_terminate_iff h hstep).mp (hafter s' hstep)
    · exact fun hkept s' hs' => (consistent_terminate_iff h hs').mpr hkept

theorem distinct_of_fewer (h : s.Distinct) (hfewer : Fewer s s'.streams) : s'.Distinct :=
  h.sublist hfewer

theorem distinct_opened (h : s.Distinct) (b : Adapter I T) (requestId internalId : Text)
    (migrated : Bool) :
    Distinct ⟨b, s.streams ++ [s.opened requestId internalId migrated]⟩ := by
  unfold Distinct activeStreams
  rw [List.filter_append]
  refine List.pairwise_append.mpr ⟨h, ?_, ?_⟩
  · exact (List.pairwise_singleton _ _).sublist List.filter_sublist
  · intro t ht u hu
    obtain ⟨hu, hactive⟩ := List.mem_filter.mp hu
    rw [List.mem_singleton.mp hu] at hactive ⊢
    obtain ⟨ht, htactive⟩ := List.mem_filter.mp ht
    intro (heq : t.internalId = internalId)
    have hnone : (s.streams.any fun t => t.active && t.internalId = internalId) = false := by
      simpa only [opened, Bool.not_eq_true'] using hactive
    have hdiffers := List.any_eq_false.mp hnone t ht
    exact hdiffers (by simp [htactive, heq])

theorem distinct_step (h : s.Distinct) {a : FrontendAction I T} (hstep : s.step args a = some s') :
    s'.Distinct := by
  have hsubmit : ∀ (internalId : Except Llumnix.Transfer.Exc Text) (requestId : Text)
      (entry : Option I × T) (raises : Bool),
      (s.submit internalId requestId entry raises).Distinct := by
    intro internalId requestId entry raises
    cases internalId with
    | error e => exact h
    | ok internalId =>
      cases raises with
      | true => exact h
      | false => exact distinct_opened h _ _ _ _
  cases a with
  | generate requestId decodeAddress now raises =>
    cases hstep
    exact hsubmit _ _ _ _
  | addRequest requestId serverInfo decodeAddress prefillAddress p2pRequestId now raises =>
    cases hstep
    exact hsubmit _ _ _ _
  | addMigratedRequest requestId serverInfo now raises =>
    cases hstep
    cases raises with
    | true => exact h
    | false => exact distinct_opened h _ _ _ _
  | releaseRequest requestId =>
    cases hstep
    exact h
  | abort ids =>
    cases hstep
    exact distinct_of_fewer h (fewer_deactivate _ (.refl _))
  | finish k =>
    obtain ⟨t, -, rfl⟩ := Option.map_eq_some_iff.mp hstep
    exact distinct_of_fewer h (fewer_set k rfl)
  | terminate k how =>
    obtain ⟨t, -, ids, -, rfl⟩ := terminate_cases hstep
    refine distinct_of_fewer h ?_
    change Fewer s (if _ then _ else _)
    split_ifs
    · exact fewer_deactivate _ (fewer_eraseIdx k)
    · exact fewer_eraseIdx k

end Steps

/-- The queue is at least as long as the active streams are many, and not longer exactly if each of
its requests has one. An abort of an active request reaches the engine under the right id. -/
def Reported (s : Frontend I T) : Prop :=
  s.activeStreams.length ≤ s.adapter.numRunningRequests ∧
    (s.adapter.numRunningRequests = s.activeStreams.length ↔
      ∀ id ∈ s.adapter.running, ∃ t ∈ s.activeStreams, t.requestId = id) ∧
    ∀ t ∈ s.activeStreams, s.adapter.internalIds [t.requestId] = [t.internalId]

theorem reported_of_consistent {s : Frontend I T} (h : s.Consistent) (hdistinct : s.Distinct) :
    s.Reported := by
  have hnodup : (s.activeStreams.map (·.requestId)).Nodup := by
    refine List.pairwise_map.mpr (hdistinct.imp_of_mem fun ht hu hne heq => hne ?_)
    have ht := (h.active _ ht).2
    rw [heq, (h.active _ hu).2] at ht
    exact (Option.some.inj ht).symm
  have hsub : s.activeStreams.map (·.requestId) ⊆ s.adapter.running := by
    intro id hid
    obtain ⟨t, ht, rfl⟩ := List.mem_map.mp hid
    exact (h.agree.queue t.requestId).mpr (h.active t ht).1
  have hsubperm := List.subperm_of_subset hnodup hsub
  have hle : s.activeStreams.length ≤ s.adapter.running.length := by
    simpa using hsubperm.length_le
  refine ⟨hle, ⟨fun heq id hid => ?_, fun hall => ?_⟩, fun t ht => ?_⟩
  · have hperm : (s.activeStreams.map (·.requestId)).Perm s.adapter.running :=
      hsubperm.perm_of_length_le (by rw [List.length_map]; exact heq.le)
    exact List.mem_map.mp (hperm.mem_iff.mpr hid)
  · have hback : s.adapter.running ⊆ s.activeStreams.map (·.requestId) :=
      fun id hid => List.mem_map.mpr (hall id hid)
    have hge := (List.subperm_of_subset h.agree.nodup hback).length_le
    rw [List.length_map] at hge
    exact Nat.le_antisymm hge hle
  · simp [Adapter.internalIds, (h.active t ht).2]

/-- The tables stay consistent exactly as long as no request is added under an id that is in the
queue and no active stream loses its entries to a release. -/
theorem always_consistent_iff (as : List (FrontendAction I T)) :
    Always (step args) (fun s => s.Consistent ∧ s.Reported) {} as ↔
      Meets (step args) (Kept args) {} as := by
  have hdistinct : ({} : Frontend I T).Distinct := List.Pairwise.nil
  have hstart : ({} : Frontend I T).Consistent := by
    refine ⟨⟨fun id => ?_, fun id => ?_, List.nodup_nil⟩, fun t ht => by cases ht⟩
    · exact iff_of_false (Dict.not_mem_empty id) (Dict.not_mem_empty id)
    · exact iff_of_false List.not_mem_nil (Dict.not_mem_empty id)
  refine always_iff_meets (I := Distinct) (fun s a s' hI _ hs' _ => distinct_step hI hs') ?_
    hdistinct ⟨hstart, reported_of_consistent hstart hdistinct⟩
  intro s a hI hP
  rw [← consistent_step_iff hP.1]
  refine ⟨fun h s' hs' => (h s' hs').1, fun h s' hs' => ?_⟩
  exact ⟨h s' hs', reported_of_consistent (h s' hs') (distinct_step hI hs')⟩

def plainArgs : AdapterArgs := ⟨asciiDigits, false, none, none⟩

def repeated : List (FrontendAction Unit Unit) :=
  List.replicate 2 (.addRequest "r".toList () none none none () false)

/-- Two requests of one id count twice while one is active. When the second fails and its abort does
as well, the first stays active with its id in the queue only. -/
theorem repeated_id_breaks :
    (∃ s, run (step plainArgs) {} repeated = some s ∧ s.adapter.numRunningRequests = 2 ∧
      s.activeStreams.length = 1 ∧ ¬s.adapter.running.Nodup) ∧
    ∃ s, run (step plainArgs) {} (repeated ++ [.terminate 1 (.raised true)]) = some s ∧
      s.activeStreams.map (·.requestId) = ["r".toList] ∧ s.adapter.running = ["r".toList] ∧
      "r".toList ∉ s.adapter.requests ∧ "r".toList ∉ s.adapter.requestIdAliases := by
  refine ⟨⟨_, rfl, by decide, by decide, by decide⟩, _, rfl, by decide, by decide, by decide, ?_⟩
  decide

end Frontend
end Llumnix.V1
