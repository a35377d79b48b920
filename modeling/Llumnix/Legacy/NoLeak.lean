import Llumnix.Legacy.Scheduler
import Llumnix.Legacy.Stages

/-! What becomes of the blocks that the destination takes for a request, over one attempt at
migrating it: both sides decide who gives them back. -/
namespace Llumnix.Legacy.NoLeak

open Coroutine Scheduler

/-- The destination, with a record of the blocks that passed between its free pool and the
table of the request. -/
structure Account where
  scheduler : Scheduler
  taken : List ℕ
  returned : List ℕ
  /-- The block table of the sequence that `commit_dst_request` registered. -/
  registered : Option (List ℕ)
  /-- The table was dropped from outside the attempt. -/
  cleared : Bool

namespace Account

def record (r : String) (d : Account) (s : Scheduler) : Account :=
  { d with
    scheduler := s
    taken := d.taken ++ Pool.gained (.preAlloc r) d.scheduler.pool s.pool
    returned := d.returned ++ Pool.givenBack (.preAlloc r) d.scheduler.pool s.pool }

def commit (r : String) (d : Account) (request : Request) : Except Exc Unit × Account :=
  let (reply, s) :=
    d.scheduler.commitDstRequest request.requestId request.status request.arrivalTime
  (reply, { d.record r s with
    registered := if request.requestId ∈ d.scheduler.preAllocCacheDict
      then some (s.pool.owned (.seq d.scheduler.seqCounter)) else d.registered })

def other (r : String) (d : Account) (op : Op) : Account :=
  { d.record r (d.scheduler.apply op) with
    cleared := d.cleared || decide (r ∈ d.scheduler.preAllocCacheDict ∧
      r ∉ (d.scheduler.apply op).preAllocCacheDict) }

end Account

/-- A pre-allocation is recorded before and after the refusal. -/
def destination (r : String) : Destination Account where
  serve
    | .migrateInPreAlloc a, d, reply, d' =>
      (∃ blocks s s', d.scheduler.preAlloc a = .ok (blocks, s) ∧
        d.scheduler.migrateInPreAlloc a = .ok (blocks, s') ∧
        reply = .ok blocks ∧ d' = (d.record r s).record r s') ∨
      ∃ e, d.scheduler.migrateInPreAlloc a = .error e ∧ reply = .error e ∧ d' = d
    | .sendBlocks _ _, d, _, d' => d' = d
    | .freeDstPreAllocCache q, d, reply, d' =>
      reply = .ok () ∧ d' = d.record r (d.scheduler.freeDstPreAllocCache (some q))
    | .commitDstRequest request, d, reply, d' => (reply, d') = d.commit r request
  loses _ := True
  env d d' := ∃ op : Op, ¬op.For r ∧ d' = d.other r op

/-- Blocks that were not given back are in the table. -/
structure Balanced (r : String) (d : Account) : Prop where
  sum : d.returned ++ d.scheduler.table r = d.taken
  kept : d.cleared = false → d.returned = []

structure Dropped (r : String) (d : Account) : Prop where
  gone : r ∉ d.scheduler.preAllocCacheDict
  returned : d.returned = d.taken

/-- Blocks that were not given back are in the table that the commit registered. -/
structure Registered (r : String) (d : Account) : Prop where
  gone : r ∉ d.scheduler.preAllocCacheDict
  table : ∃ table, d.registered = some table ∧ d.returned ++ table = d.taken ∧
    (d.cleared = false → table = d.taken)

section Account
variable {r : String} {d d' : Account} {s : Scheduler}

theorem record_same (h : s.table r = d.scheduler.table r) :
    (d.record r s).taken = d.taken ∧ (d.record r s).returned = d.returned := by
  have hsub : s.table r ⊆ d.scheduler.table r := by
    rw [h]
    exact List.Subset.refl _
  have hsup : d.scheduler.table r ⊆ s.table r := by
    rw [h]
    exact List.Subset.refl _
  have hgained : Pool.gained (.preAlloc r) d.scheduler.pool s.pool = [] := Pool.gained_eq_nil hsub
  have hgiven : Pool.givenBack (.preAlloc r) d.scheduler.pool s.pool = [] :=
    Pool.givenBack_eq_nil hsup
  unfold Account.record
  rw [hgained, hgiven, List.append_nil, List.append_nil]
  exact ⟨rfl, rfl⟩

theorem gained_of_gone (hs : r ∉ s.preAllocCacheDict) :
    Pool.gained (.preAlloc r) d.scheduler.pool s.pool = [] := by
  refine Pool.gained_eq_nil (j := Holder.preAlloc r) ?_
  rw [s.cached r hs]
  exact List.nil_subset _

theorem record_dropped (hs : r ∉ s.preAllocCacheDict) (hf : d.scheduler.table r ⊆ s.pool.free) :
    (d.record r s).taken = d.taken ∧
      (d.record r s).returned = d.returned ++ d.scheduler.table r := by
  unfold Account.record
  rw [gained_of_gone hs, Pool.givenBack_eq_owned hf, List.append_nil]
  exact ⟨rfl, rfl⟩

theorem balanced_same (h : Balanced r d) (hs : s.table r = d.scheduler.table r) :
    Balanced r (d.record r s) := by
  obtain ⟨ht, hr⟩ := record_same hs
  refine ⟨?_, fun hc => ?_⟩
  · rw [ht, hr]
    change d.returned ++ s.table r = d.taken
    rw [hs]
    exact h.sum
  · rw [hr]
    exact h.kept hc

theorem balanced_grow (h : Balanced r d) (n k : ℕ) :
    Balanced r (d.record r (d.scheduler.grow r n k)) := by
  have hgained : Pool.gained (.preAlloc r) d.scheduler.pool (d.scheduler.grow r n k).pool =
      d.scheduler.pool.free.take n := Pool.gained_take
  have hgiven :
      Pool.givenBack (.preAlloc r) d.scheduler.pool (d.scheduler.grow r n k).pool = [] := by
    refine Pool.givenBack_eq_nil (j := Holder.preAlloc r) ?_
    change d.scheduler.table r ⊆ (d.scheduler.grow r n k).table r
    rw [table_grow_self]
    exact List.subset_append_left _ _
  unfold Account.record
  rw [hgained, hgiven, List.append_nil]
  refine ⟨?_, h.kept⟩
  change d.returned ++ (d.scheduler.grow r n k).table r = d.taken ++ _
  rw [table_grow_self, ← List.append_assoc, h.sum]

theorem dropped_of_balanced (h : Balanced r d) (hs : r ∉ s.preAllocCacheDict)
    (hf : d.scheduler.table r ⊆ s.pool.free) : Dropped r (d.record r s) := by
  obtain ⟨ht, hr⟩ := record_dropped hs hf
  refine ⟨hs, ?_⟩
  rw [ht, hr]
  exact h.sum

theorem serve_preAlloc {a : PreAlloc} {blocks : List ℕ} (ha : a.requestId = r) (h : Balanced r d)
    (hs : (destination r).serve (.migrateInPreAlloc a) d (.ok blocks) d') :
    if blocks.length = a.blockNum then Balanced r d' else Dropped r d' := by
  rcases hs with ⟨_, s, s', hp, hm, hb, rfl⟩ | ⟨e, -, he, -⟩
  · cases hb
    have hgrow : Balanced r (d.record r s) := by
      rcases preAlloc_cases hp with rfl | ⟨n, k, rfl⟩
      · exact balanced_same h rfl
      · rw [ha]
        exact balanced_grow h n k
    rw [migrateInPreAlloc_eq hp] at hm
    obtain ⟨-, rfl⟩ := Prod.mk.inj (Except.ok.inj hm)
    by_cases hlen : blocks.length = a.blockNum
    · rw [if_pos hlen, if_neg (not_not_intro hlen)]
      exact balanced_same hgrow rfl
    · rw [if_neg hlen, if_pos hlen, ha]
      exact dropped_of_balanced hgrow not_mem_freeDstPreAllocCache
        (table_subset_free not_mem_freeDstPreAllocCache)
  · cases he

theorem serve_free (h : Balanced r d)
    (hs : (destination r).serve (.freeDstPreAllocCache r) d (.ok ()) d') : Dropped r d' := by
  obtain ⟨-, rfl⟩ := hs
  exact dropped_of_balanced h not_mem_freeDstPreAllocCache
    (table_subset_free not_mem_freeDstPreAllocCache)

theorem commitDstRequest_ok {q : String} {status : RequestStatus} {t : ℕ} {s' : Scheduler}
    (h : s.commitDstRequest q status t = (.ok (), s')) :
    q ∈ s.preAllocCacheDict ∧ q ∉ s'.preAllocCacheDict ∧
      s'.pool.owned (.seq s.seqCounter) = s.table q := by
  have hmem : q ∉ (s.register q).preAllocCacheDict := fun hm => (mem_register.mp hm).2 rfl
  have howned : (s.register q).pool.owned (.seq s.seqCounter) = s.table q := by
    refine (Pool.owned_move_to Holder.noConfusion).trans ?_
    rw [s.fresh _ (Nat.le_refl _)]
    rfl
  unfold Scheduler.commitDstRequest at h
  split_ifs at h with hq hstatus hwaiting <;> cases h
  · exact ⟨hq, hmem, howned⟩
  · exact ⟨hq, hmem, howned⟩

theorem serve_commit {request : Request} (ha : request.requestId = r) (h : Balanced r d)
    (hs : (destination r).serve (.commitDstRequest request) d (.ok ()) d') : Registered r d' := by
  cases hcommit :
      d.scheduler.commitDstRequest request.requestId request.status request.arrivalTime with
  | mk reply s =>
  change (Except.ok (), d') = d.commit r request at hs
  unfold Account.commit at hs
  rw [hcommit] at hs
  obtain ⟨hreply, rfl⟩ := Prod.mk.inj hs
  rw [← hreply] at hcommit
  obtain ⟨hmem, hgone, htable⟩ := commitDstRequest_ok hcommit
  rw [ha] at hmem hgone htable
  rw [ha, if_pos hmem, htable]
  have hgiven : Pool.givenBack (.preAlloc r) d.scheduler.pool s.pool = [] := by
    refine Pool.givenBack_eq_nil (j := Holder.seq d.scheduler.seqCounter) ?_
    rw [htable]
    exact List.Subset.refl _
  unfold Account.record
  rw [gained_of_gone hgone, hgiven, List.append_nil, List.append_nil]
  refine ⟨hgone, d.scheduler.table r, rfl, h.sum, fun hc => ?_⟩
  have hsum := h.sum
  rwa [h.kept hc, List.nil_append] at hsum

private theorem keeps_other {op : Op} (hop : ¬op.For r) :
    Keeps r d.scheduler (d.scheduler.apply op) := by
  refine keeps_apply ?_
  rintro a rfl hr
  exact hop hr

theorem other_cases {op : Op} (hop : ¬op.For r) :
    (d.scheduler.apply op).table r = d.scheduler.table r ∧ (d.other r op).cleared = d.cleared ∨
      r ∉ (d.scheduler.apply op).preAllocCacheDict ∧
        d.scheduler.table r ⊆ (d.scheduler.apply op).pool.free ∧ (d.other r op).cleared = true := by
  unfold Account.other
  by_cases hm : r ∈ (d.scheduler.apply op).preAllocCacheDict
  · refine .inl ⟨(keeps_other hop hm).2, ?_⟩
    simp [hm]
  by_cases hr : r ∈ d.scheduler.preAllocCacheDict
  · refine .inr ⟨hm, table_subset_apply hop hr hm, ?_⟩
    simp [hm, hr]
  · refine .inl ⟨?_, ?_⟩
    · rw [table_of_not_mem hm, table_of_not_mem hr]
    · simp [hr]

theorem balanced_env (h : Balanced r d) (he : (destination r).env d d') : Balanced r d' := by
  obtain ⟨op, hop, rfl⟩ := he
  rcases other_cases (d := d) hop with ⟨hsame, hc⟩ | ⟨hgone, hfree, hc⟩
  · have hb := balanced_same h hsame
    exact ⟨hb.sum, fun hc' => hb.kept (hc.symm.trans hc')⟩
  · have hd := dropped_of_balanced h hgone hfree
    refine ⟨?_, fun hc' => ?_⟩
    · change (d.record r _).returned ++ (d.scheduler.apply op).table r = (d.record r _).taken
      rw [table_of_not_mem hgone, List.append_nil]
      exact hd.returned
    · rw [hc] at hc'
      cases hc'

theorem gone_env (h : r ∉ d.scheduler.preAllocCacheDict) (he : (destination r).env d d') :
    r ∉ d'.scheduler.preAllocCacheDict ∧ d'.taken = d.taken ∧ d'.returned = d.returned ∧
      d'.registered = d.registered ∧ d'.cleared = d.cleared := by
  obtain ⟨op, hop, rfl⟩ := he
  have hgone : r ∉ (d.scheduler.apply op).preAllocCacheDict := fun hm => h (keeps_other hop hm).1
  have hsame : (d.scheduler.apply op).table r = d.scheduler.table r := by
    rw [table_of_not_mem hgone, table_of_not_mem h]
  obtain ⟨ht, hr⟩ := record_same hsame
  refine ⟨hgone, ht, hr, rfl, ?_⟩
  unfold Account.other
  simp [h]

theorem dropped_env (h : Dropped r d) (he : (destination r).env d d') : Dropped r d' := by
  obtain ⟨hgone, ht, hr, -, -⟩ := gone_env h.gone he
  exact ⟨hgone, by rw [ht, hr]; exact h.returned⟩

theorem registered_env (h : Registered r d) (he : (destination r).env d d') : Registered r d' := by
  obtain ⟨hgone, ht, hr, hreg, hc⟩ := gone_env h.gone he
  refine ⟨hgone, ?_⟩
  rw [ht, hr, hreg, hc]
  exact h.table

end Account

/-! The attempt. -/
section Attempt
variable {r : String} {blockSize : ℕ} {w w' : World Account}

/-- The attempt is at the request `r`, and the record of the destination satisfies `P`. -/
def At (r : String) (P : Account → Prop) (w : World Account) : Prop :=
  w.request.requestId = r ∧ P w.dst

theorem at_env {P : Account → Prop} (hP : ∀ d d', P d → (destination r).env d d' → P d') :
    Stable (destination r) blockSize (At r P) := by
  intro w w' h he
  cases he with
  | dst d hd => exact ⟨h.1, hP _ _ h.2 hd⟩
  | _ => exact h

theorem balancedAt_env : Stable (destination r) blockSize (At r (Balanced r)) :=
  at_env fun _ _ => balanced_env

theorem droppedAt_env : Stable (destination r) blockSize (At r (Dropped r)) :=
  at_env fun _ _ => dropped_env

/-- The answer to a pre-allocation of `n` blocks. -/
def Granted (r : String) (n : ℕ) (blocks : List ℕ) (d : Account) : Prop :=
  if blocks.length = n then Balanced r d else Dropped r d

theorem grantedAt_env (n : ℕ) (blocks : List ℕ) :
    Stable (destination r) blockSize (At r (Granted r n blocks)) := by
  unfold Granted
  split
  · exact balancedAt_env
  · exact droppedAt_env

/-- Who is to free the table, by the status a stage returns. -/
def Outcome (r : String) : MigrationStatus → World Account → Prop
  | .abortedDst => At r (Dropped r)
  | _ => At r (Balanced r)

theorem outcome_env (s : MigrationStatus) : Stable (destination r) blockSize (Outcome r s) := by
  cases s with
  | abortedDst => exact droppedAt_env
  | _ => exact balancedAt_env

/-- Both sides compare with the same number, so they agree on what a refusal is. -/
def outline (r : String) : Outline Account where
  inv _ := True
  outcome := Outcome r
  raised _ := True
  live := At r (Balanced r)
  queued _ := At r (Balanced r)
  taken _ := At r (Balanced r)
  asked _ _ := At r (Balanced r)
  granted _ src dst := At r (Granted r src.length dst)
  sending _ _ := At r (Balanced r)
  sent _ := At r (Balanced r)

theorem balanced_of_granted {n : ℕ} {dst : List ℕ} (h : At r (Granted r n dst) w)
    (hlen : dst.length = n) : At r (Balanced r) w := by
  have hd := h.2
  unfold Granted at hd
  rw [if_pos hlen] at hd
  exact ⟨h.1, hd⟩

theorem dropped_of_granted {n : ℕ} {dst : List ℕ} (h : At r (Granted r n dst) w)
    (hlen : dst.length ≠ n) : At r (Dropped r) w := by
  have hd := h.2
  unfold Granted at hd
  rw [if_neg hlen] at hd
  exact ⟨h.1, hd⟩

theorem outline_valid (r : String) (blockSize : ℕ) :
    (outline r).Valid (destination r) blockSize where
  ends := ⟨fun s => ⟨outcome_env s, fun _ _ => trivial⟩,
    ⟨fun _ _ _ _ => trivial, fun _ _ => trivial⟩⟩
  queued _ := ⟨balancedAt_env, fun _ _ => trivial⟩
  taken _ := ⟨balancedAt_env, fun _ _ => trivial⟩
  asked _ _ := ⟨balancedAt_env, fun _ _ => trivial⟩
  granted _ src dst := ⟨grantedAt_env src.length dst, fun _ _ => trivial⟩
  sending _ _ := ⟨balancedAt_env, fun _ _ => trivial⟩
  sent _ := ⟨balancedAt_env, fun _ _ => trivial⟩
  live_inv _ _ := trivial
  live_aborted _ h := h
  last _ h _ := ⟨trivial, h.1, h.2⟩
  ask _ h _ := ⟨h.1, h.2⟩
  found _ _ h _ := ⟨h.1, h.2⟩
  notFound _ _ h := ⟨h.1, h.2⟩
  finished _ _ h _ := h
  list _ _ h _ := ⟨h.1, h.2⟩
  grant _ _ _ _ _ _ _ h h' hs := ⟨h'.1, serve_preAlloc h.1 h'.2 hs⟩
  grant_raised _ _ _ _ _ _ _ _ _ _ := trivial
  refused _ _ _ h hlen := dropped_of_granted h hlen
  refused_last _ _ _ h hlen :=
    have hd := dropped_of_granted h hlen
    ⟨trivial, fun _ => trivial, fun _ => ⟨hd.1, hd.2⟩⟩
  granted_aborted _ _ _ _ h hlen _ := balanced_of_granted h hlen
  stamp _ _ _ _ h hlen _ :=
    have hb := balanced_of_granted h hlen
    ⟨hb.1, hb.2⟩
  send _ _ _ _ _ h hs := ⟨h.1, hs ▸ h.2⟩
  send_raised _ _ _ _ _ _ _ _ := trivial
  sent_aborted _ h _ := h
  sent_last _ h := h
  sent_live _ h _ := h
  again _ h := h

/-- The status that the stages end with says who frees the table. -/
structure Ended (r : String) (s : MigrationStatus) (w : World Account) : Prop where
  status : s ≠ .running
  outcome : Outcome r s w

theorem returns_stages (cfg : Config) (n : ℕ) (h : At r (Balanced r) w) :
    Returns (destination r) blockSize (Ended r) (migrateOutStages cfg n) w := by
  refine ((outline_valid r blockSize).safe_stages cfg n h).mono fun reply w h => ?_
  cases reply with
  | ok s => exact ⟨h.1, h.2⟩
  | error e => exact h

/-- Out of every queue, so its tokens stay as they are. -/
def Frozen (blockSize n : ℕ) (w : World Account) : Prop :=
  w.running + w.waiting + w.swapped = 0 ∧ w.taken = false ∧ w.request.nBlocks blockSize = n

theorem frozen_env {n : ℕ} : Stable (destination r) blockSize (Frozen blockSize n) := by
  rintro w w' ⟨hq, ht, hn⟩ he
  cases he with
  | tick => exact ⟨hq, ht, hn⟩
  | dst => exact ⟨hq, ht, hn⟩
  | output _ h =>
    rw [hq, ht] at h
    simp at h
  | finish h =>
    rw [hq, ht] at h
    simp at h
  | _ => omega

theorem returns_waiting (cfg : Config) (h : At r (Balanced r) w)
    (hq : w.running + w.waiting + w.swapped ≤ 1) :
    Returns (destination r) cfg.blockSize (Ended r) (migrateOutWaitingRequest cfg) w := by
  let n := w.request.nBlocks cfg.blockSize
  let O : WaitingOutline Account := {
    inv := fun _ => True
    outcome := Ended r
    raised := fun _ => True
    asked := fun w => Frozen cfg.blockSize n w ∧ At r (Balanced r) w
    granted := fun dst w => Frozen cfg.blockSize n w ∧ At r (Granted r n dst) w }
  refine WaitingOutline.Valid.safe (O := O) {
    ends := ⟨fun s => ⟨fun w w' h he => ⟨h.status, outcome_env s w w' h.outcome he⟩,
      fun _ _ => trivial⟩, ⟨fun _ _ _ _ => trivial, fun _ _ => trivial⟩⟩
    asked := ⟨fun w w' h he => ⟨frozen_env w w' h.1 he, balancedAt_env w w' h.2 he⟩,
      fun _ _ => trivial⟩
    granted := fun dst => ⟨fun w w' h he =>
      ⟨frozen_env w w' h.1 he, grantedAt_env n dst w w' h.2 he⟩, fun _ _ => trivial⟩
    inv := trivial
    aborted := ⟨nofun, h⟩
    list := fun hr => ⟨⟨?_, rfl, rfl⟩, h.1, h.2⟩
    grant := fun w' dst d h' hs => ⟨h'.1, h'.2.1, serve_preAlloc h.1 h'.2.2 hs⟩
    grant_raised := fun _ _ _ _ _ => trivial
    refused := fun dst w h hlen => ⟨trivial, fun _ => trivial, fun _ => ⟨nofun, ?_⟩⟩
    accepted := fun dst w h hlen => ⟨nofun, balanced_of_granted h.2 (hlen.trans h.1.2.2)⟩ }
  · have hpos := hr.1
    change w.running + (w.waiting - 1) + w.swapped = 0
    omega
  · have hd := dropped_of_granted h.2 (fun heq => hlen (heq.trans h.1.2.2.symm))
    exact ⟨hd.1, hd.2⟩

/-- What an attempt leaves behind, by what it returns. -/
def Settled (r : String) (out : List String) (d : Account) : Prop :=
  out = [] ∧ Dropped r d ∨ out = [r] ∧ Registered r d

theorem settledAt_env (out : List String) :
    Stable (destination r) blockSize (At r (Settled r out)) :=
  at_env fun _ _ h he => h.imp (fun h => ⟨h.1, dropped_env h.2 he⟩)
    fun h => ⟨h.1, registered_env h.2 he⟩

theorem returns_settle {s : MigrationStatus} (he : Ended r s w) :
    Returns (destination r) blockSize (fun out => At r (Settled r out)) (settle s) w := by
  have hdropped : ∀ w, At r (Dropped r) w → Returns (destination r) blockSize
      (fun out => At r (Settled r out)) (.ret []) w := fun w h =>
    returns_ret ⟨h.1, .inl ⟨rfl, h.2⟩⟩ (settledAt_env [])
  obtain ⟨hs, h⟩ := he
  cases s with
  | running => exact absurd rfl hs
  | abortedDst => exact .write trivial (hdropped _ ⟨h.1, h.2⟩)
  | abortedSrc =>
    have hid : w.reset.request.requestId = r := h.1
    refine .write trivial (.read trivial ?_)
    rw [hid]
    refine Safe.seq (M := fun _ => At r (Dropped r)) ?_ fun _ => hdropped
    exact returns_remote (m := .freeDstPreAllocCache r) ⟨h.1, h.2⟩ balancedAt_env
      (fun _ => droppedAt_env) fun _ _ _ hw hserve => ⟨hw.1, serve_free hw.2 hserve⟩
  | finished =>
    refine .read trivial (Safe.seq (M := fun _ => At r (Registered r)) ?_ fun _ w h => ?_)
    · exact returns_remote (m := .commitDstRequest _) h balancedAt_env
        (fun _ => at_env fun _ _ => registered_env) fun _ _ _ hw hserve =>
          ⟨hw.1, serve_commit h.1 hw.2 hserve⟩
    · refine .write trivial (returns_removeLastStage (.read trivial ?_))
      have hid : w.request.requestId = r := h.1
      refine returns_ret ⟨hid, .inr ⟨?_, h.2⟩⟩ (settledAt_env _)
      change [w.request.requestId] = [r]
      rw [hid]

/-- An attempt at a request that is in one queue of the source. The destination may hold a
table for it that an earlier attempt left behind, unless the attempt has nothing to do. -/
structure Begins (r : String) (w : World Account) : Prop where
  request : w.request.requestId = r
  queued : w.running + w.waiting + w.swapped ≤ 1
  taken : w.dst.taken = w.dst.scheduler.table r
  returned : w.dst.returned = []
  status : w.request.status = .running ∨ w.request.status = .waiting ∨
    r ∉ w.dst.scheduler.preAllocCacheDict

theorem balanced_of_begins (h : Begins r w) : At r (Balanced r) w := by
  refine ⟨h.request, ?_, fun _ => h.returned⟩
  rw [h.returned, h.taken, List.nil_append]

theorem returns_oneRequest (cfg : Config) (h : Begins r w) :
    Returns (destination r) cfg.blockSize (fun out => At r (Settled r out))
      (migrateOutOneRequest cfg) w := by
  have hb := balanced_of_begins h
  refine .read trivial ?_
  split
  · exact .write trivial (Safe.seq (returns_stages cfg _ ⟨hb.1, hb.2⟩)
      fun _ _ => returns_settle)
  · exact .write trivial (Safe.seq (returns_waiting cfg ⟨hb.1, hb.2⟩ h.queued)
      fun _ _ => returns_settle)
  · rename_i hrunning hwaiting
    have hgone := (h.status.resolve_left hrunning).resolve_left hwaiting
    refine returns_ret ⟨hb.1, .inl ⟨rfl, hgone, ?_⟩⟩ (settledAt_env [])
    rw [h.returned, h.taken, table_of_not_mem hgone]

/-- However an attempt ends, the destination has no table for the request any more. The blocks
it took are given back if it was aborted; if it finished they are in the table that the commit
registered, except those that a clearing from outside gave back before. -/
theorem no_block_leaked (cfg : Config) (r : String) {w w' : World Account} {out : List String}
    (h : Begins r w)
    (hr : (host (destination r) cfg.blockSize).Ends (migrateOutOneRequest cfg) w (.ok out) w') :
    r ∉ w'.dst.scheduler.preAllocCacheDict ∧
      (out = [] ∧ w'.dst.returned = w'.dst.taken ∨
        out = [r] ∧ ∃ table, w'.dst.registered = some table ∧
          w'.dst.returned ++ table = w'.dst.taken ∧
          (w'.dst.cleared = false → table = w'.dst.taken)) := by
  have hsettled : At r (Settled r out) w' := (returns_oneRequest cfg h).ends hr
  rcases hsettled.2 with ⟨hout, hd⟩ | ⟨hout, hg⟩
  · exact ⟨hd.gone, .inl ⟨hout, hd.returned⟩⟩
  · exact ⟨hg.gone, .inr ⟨hout, hg.table⟩⟩

end Attempt

/-! A waiting request of one block that is migrated. -/
section Sample

def sampleScheduler : Scheduler where
  blockSize := 2
  watermarkBlocks := 0
  maxBlockSlidingWindow := none
  pool := .ofFree [0, 1, 2] (by decide)
  preAllocCacheDict := []
  numFullSlots _ := 0
  waiting := []
  seqCounter := 1
  cached _ _ := rfl
  fresh _ _ := rfl

def sample : World Account where
  request := {
    requestId := "r", arrivalTime := 0, seqStatus := .waiting, statusOverride := none
    tokenIds := [11, 12], outputLen := 0, expectedSteps := none
    blockTable := [], numFullSlots := 0, lastPreemptionTime := none
    stageTimestamps := [], stageNumBlocksList := [], migrationStartTime := none
    isMigrating := true }
  running := 0
  waiting := 1
  swapped := 0
  lastStage := 0
  stepDoneQueued := false
  taken := false
  now := 0
  dst := ⟨sampleScheduler, [], [], none, false⟩
  sent := []
  snapshot := []
  removed := none

def sampleAnswer : (destination "r").Answer
  | .migrateInPreAlloc a, d =>
    match h : d.scheduler.preAlloc a, h' : d.scheduler.migrateInPreAlloc a with
    | .ok (blocks, _), .ok (blocks', _) =>
      if hb : blocks' = blocks then some ⟨(.ok blocks, _), .inl ⟨_, _, _, h, hb ▸ h', rfl, rfl⟩⟩
      else none
    | _, _ => none
  | .sendBlocks _ _, d => some ⟨(.ok (), d), rfl⟩
  | .freeDstPreAllocCache _, _ => some ⟨(.ok (), _), rfl, rfl⟩
  | .commitDstRequest request, d => some ⟨d.commit "r" request, rfl⟩

def sampleCommitted : World Account :=
  ((host (destination "r") 2).replay (migrateOutOneRequest (sampleConfig 1 true)) sample
    (List.replicate 2 (answers sampleAnswer))).2

theorem sample_begins : Begins "r" sample :=
  ⟨rfl, Nat.le_refl _, rfl, rfl, .inr (.inl rfl)⟩

/-- The block that was taken is in the table that was registered. -/
theorem no_block_leaked_sample :
    "r" ∉ sampleCommitted.dst.scheduler.preAllocCacheDict ∧ sampleCommitted.dst.taken = [0] ∧
      ∃ table, sampleCommitted.dst.registered = some table ∧ table = sampleCommitted.dst.taken := by
  have hends : (host (destination "r") 2).Ends (migrateOutOneRequest (sampleConfig 1 true)) sample
      (.ok ["r"]) sampleCommitted := ends_replay (List.replicate 2 (answers sampleAnswer)) rfl
  obtain ⟨hgone, h⟩ := no_block_leaked (sampleConfig 1 true) "r" sample_begins hends
  obtain ⟨-, table, hreg, -, hall⟩ := h.resolve_left (by nofun)
  exact ⟨hgone, by decide, table, hreg, hall rfl⟩

end Sample

end Llumnix.Legacy.NoLeak
