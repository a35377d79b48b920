import Llumnix.Legacy.Request
import Llumnix.Pool.Basic
import Mathlib.Tactic.SplitIfs

/-! The block manager of an instance as the requests that migrate in use it:
`SchedulerLlumnix` and `BlockManagerLlumnix`. -/
namespace Llumnix.Legacy

/-- Who holds blocks: a table of `pre_alloc_cache_dict`, or one of `block_tables`. -/
inductive Holder
  | preAlloc (requestId : String)
  | seq (seqId : ℕ)
  deriving DecidableEq, Repr

/-- A `BlockTable` is known by its holder; the pool has its blocks. -/
structure Scheduler where
  blockSize : ℕ
  watermarkBlocks : ℕ
  maxBlockSlidingWindow : Option ℕ
  pool : Pool Holder ℕ
  /-- The keys of `pre_alloc_cache_dict`. -/
  preAllocCacheDict : List String
  numFullSlots : String → ℕ
  /-- Arrival times of the waiting requests. -/
  waiting : List ℕ
  seqCounter : ℕ
  cached : ∀ r, r ∉ preAllocCacheDict → pool.owned (.preAlloc r) = []
  fresh : ∀ i, seqCounter ≤ i → pool.owned (.seq i) = []

/-- `xs[-n:]`. -/
def lastBlocks (n : ℕ) (xs : List ℕ) : List ℕ := if n = 0 then xs else xs.drop (xs.length - n)

def bisectRight (xs : List ℕ) (x lo hi : ℕ) : ℕ :=
  if h : lo < hi then
    let mid := (lo + hi) / 2
    if x < xs.getD mid 0 then bisectRight xs x lo mid else bisectRight xs x (mid + 1) hi
  else lo
termination_by hi - lo

namespace Scheduler

def numFreeGpuBlocks (s : Scheduler) : ℕ := s.pool.free.length

/-- `pre_alloc_cache_dict[r].physical_block_ids`. -/
def table (s : Scheduler) (r : String) : List ℕ := s.pool.owned (.preAlloc r)

/-- The table of `r`, new if there is none, gets `n` blocks and has `slots` slots filled. -/
def grow (s : Scheduler) (r : String) (n slots : ℕ) : Scheduler :=
  { s with
    pool := s.pool.take (.preAlloc r) n
    preAllocCacheDict :=
      if r ∈ s.preAllocCacheDict then s.preAllocCacheDict else s.preAllocCacheDict ++ [r]
    numFullSlots := Function.update s.numFullSlots r slots
    cached := fun r' h => by
      have hne : r' ≠ r := by
        rintro rfl
        split at h
        · contradiction
        · simp at h
      rw [Pool.owned_take_of_ne fun he => hne (Holder.preAlloc.inj he)]
      refine s.cached r' fun hm => h ?_
      split
      · exact hm
      · exact List.mem_append_left _ hm
    fresh := fun i h => (Pool.owned_take_of_ne (by nofun)).trans (s.fresh i h) }

/-- `pre_alloc_cache_dict.pop(r, None)` and `block_table.free()`. -/
def drop (s : Scheduler) (r : String) : Scheduler :=
  { s with
    pool := s.pool.release (.preAlloc r)
    preAllocCacheDict := s.preAllocCacheDict.filter (· ≠ r)
    cached := fun r' h => by
      by_cases hr : r' = r
      · rw [hr, Pool.owned_release_self]
      rw [Pool.owned_release_of_ne fun he => hr (Holder.preAlloc.inj he)]
      exact s.cached r' fun hm => h (List.mem_filter.mpr ⟨hm, by simpa using hr⟩)
    fresh := fun i h => (Pool.owned_release_of_ne (by nofun)).trans (s.fresh i h) }

/-- The table of `r` leaves `pre_alloc_cache_dict` and becomes that of a new sequence. -/
def register (s : Scheduler) (r : String) : Scheduler :=
  { s with
    pool := s.pool.move (.preAlloc r) (.seq s.seqCounter) nofun
    preAllocCacheDict := s.preAllocCacheDict.filter (· ≠ r)
    seqCounter := s.seqCounter + 1
    cached := fun r' h => by
      by_cases hr : r' = r
      · rw [hr, Pool.owned_move_from]
      refine (Pool.owned_move_of_ne _ (fun he => hr (Holder.preAlloc.inj he)) (by nofun)).trans ?_
      exact s.cached r' fun hm => h (List.mem_filter.mpr ⟨hm, by simpa using hr⟩)
    fresh := fun i h => by
      have hi : i ≠ s.seqCounter := by omega
      refine (Pool.owned_move_of_ne _ (by nofun) fun he => hi (Holder.seq.inj he)).trans ?_
      exact s.fresh i (by omega) }

/-- `BlockManagerLlumnix.get_free_blocks`, stored in `pre_alloc_cache_dict`. -/
def getFreeBlocks (s : Scheduler) (r : String) (numRequiredBlocks : ℕ) (tokenIds : List ℕ) :
    Except Exc Scheduler :=
  if s.watermarkBlocks + numRequiredBlocks ≤ s.numFreeGpuBlocks then
    let n := blocksFor s.blockSize tokenIds.length
    if n ≤ s.numFreeGpuBlocks then .ok (s.grow r n tokenIds.length) else .error .noFreeBlocks
  else .ok (s.grow r 0 0)

def appendTokenIds (s : Scheduler) (r : String) (tokenIds : List ℕ) : Except Exc Scheduler :=
  if s.table r = [] then .error .assertionError
  else
    let slots := s.numFullSlots r + tokenIds.length
    let n := blocksFor s.blockSize slots - (s.table r).length
    if n ≤ s.numFreeGpuBlocks then .ok (s.grow r n slots) else .error .noFreeBlocks

/-- Only the earliest arrival may migrate into the waiting queue. -/
def Refuses (s : Scheduler) (a : PreAlloc) : Prop :=
  a.requestStatus = .waitingMigrating ∧ ∃ t ∈ s.waiting.head?, t < a.requestArrivalTime

instance (s : Scheduler) (a : PreAlloc) : Decidable (s.Refuses a) :=
  inferInstanceAs (Decidable (_ ∧ _))

/-- What `pre_alloc` allocates. -/
def reserve (s : Scheduler) (a : PreAlloc) : Except Exc Scheduler :=
  if a.requestId ∈ s.preAllocCacheDict then
    if a.blockNum ≤ s.numFreeGpuBlocks then s.appendTokenIds a.requestId a.tokenIds else .ok s
  else s.getFreeBlocks a.requestId a.blockNum a.tokenIds

def preAlloc (s : Scheduler) (a : PreAlloc) : Except Exc (List ℕ × Scheduler) :=
  if s.Refuses a then .ok ([], s)
  else (s.reserve a).map fun s' =>
    if some (s'.table a.requestId).length = s'.maxBlockSlidingWindow then ([], s')
    else (lastBlocks a.blockNum (s'.table a.requestId), s')

def dropAll (s : Scheduler) : Scheduler := s.preAllocCacheDict.foldl drop s

/-- `free_dst_pre_alloc_cache`; an empty request id counts as none. -/
def freeDstPreAllocCache (s : Scheduler) : Option String → Scheduler
  | some r => if r = "" then s.dropAll else s.drop r
  | none => s.dropAll

def migrateInPreAlloc (s : Scheduler) (a : PreAlloc) : Except Exc (List ℕ × Scheduler) :=
  (s.preAlloc a).map fun (blocks, s') =>
    (blocks, if blocks.length ≠ a.blockNum then s'.freeDstPreAllocCache (some a.requestId) else s')

def addWaitingRequest (s : Scheduler) (arrivalTime : ℕ) : Scheduler :=
  { s with waiting :=
      s.waiting.insertIdx (bisectRight s.waiting arrivalTime 0 s.waiting.length) arrivalTime }

def commitDstRequest (s : Scheduler) (r : String) (status : RequestStatus) (arrivalTime : ℕ) :
    Except Exc Unit × Scheduler :=
  if r ∉ s.preAllocCacheDict then (.error .keyError, s)
  else if status.isMigrating = false then (.error .assertionError, s.register r)
  else if status = .waitingMigrating then (.ok (), (s.register r).addWaitingRequest arrivalTime)
  else (.ok (), s.register r)

/-- What the instance's block manager is asked to do: by migrating requests, and by its own
engine for sequences it has numbered before. -/
inductive Op
  | migrateInPreAlloc (a : PreAlloc)
  | freeDstPreAllocCache (requestId : Option String)
  | commitDstRequest (requestId : String) (status : RequestStatus) (arrivalTime : ℕ)
  | newSeq
  | allocate (seqId n : ℕ)
  | free (seqId : ℕ)
  | setWaiting (arrivals : List ℕ)
  deriving DecidableEq, Repr

/-- The operation gives `r` blocks, or registers them. -/
def Op.For (r : String) : Op → Prop
  | .migrateInPreAlloc a => a.requestId = r
  | .commitDstRequest q _ _ => q = r
  | _ => False

def allocate (s : Scheduler) (seqId n : ℕ) (h : seqId < s.seqCounter) : Scheduler :=
  { s with
    pool := s.pool.take (.seq seqId) n
    cached := fun r hr => (Pool.owned_take_of_ne (by nofun)).trans (s.cached r hr)
    fresh := fun i hi => by
      have hne : i ≠ seqId := by omega
      exact (Pool.owned_take_of_ne fun he => hne (Holder.seq.inj he)).trans (s.fresh i hi) }

def free (s : Scheduler) (seqId : ℕ) : Scheduler :=
  { s with
    pool := s.pool.release (.seq seqId)
    cached := fun r hr => (Pool.owned_release_of_ne (by nofun)).trans (s.cached r hr)
    fresh := fun i hi => by
      by_cases h : i = seqId
      · rw [h, Pool.owned_release_self]
      · exact (Pool.owned_release_of_ne fun he => h (Holder.seq.inj he)).trans (s.fresh i hi) }

def newSeq (s : Scheduler) : Scheduler :=
  { s with seqCounter := s.seqCounter + 1, fresh := fun i hi => s.fresh i (by omega) }

/-- An operation that raises leaves the scheduler as it is. -/
def apply (s : Scheduler) : Op → Scheduler
  | .migrateInPreAlloc a =>
    match s.migrateInPreAlloc a with
    | .ok (_, s') => s'
    | .error _ => s
  | .freeDstPreAllocCache requestId => s.freeDstPreAllocCache requestId
  | .commitDstRequest r status arrivalTime => (s.commitDstRequest r status arrivalTime).2
  | .newSeq => s.newSeq
  | .allocate seqId n =>
    if h : seqId < s.seqCounter then
      if n ≤ s.numFreeGpuBlocks then s.allocate seqId n h else s
    else s
  | .free seqId => s.free seqId
  | .setWaiting arrivals => { s with waiting := arrivals }

/-! What the operations do to the table of one request. -/
section Table
variable {s s' : Scheduler} {r r' : String} {n k : ℕ} {a : PreAlloc} {out : List ℕ}

theorem table_of_not_mem (h : r ∉ s.preAllocCacheDict) : s.table r = [] := s.cached r h

theorem mem_grow : r' ∈ (s.grow r n k).preAllocCacheDict ↔ r' = r ∨ r' ∈ s.preAllocCacheDict := by
  unfold grow
  by_cases h : r ∈ s.preAllocCacheDict
  · simp only [h, if_true]
    constructor
    · exact .inr
    · rintro (rfl | h')
      · exact h
      · exact h'
  · simp only [h, if_false, List.mem_append, List.mem_singleton]
    exact or_comm

theorem table_grow_self : (s.grow r n k).table r = s.table r ++ s.pool.free.take n :=
  Pool.owned_take_self

theorem table_grow_of_ne (h : r' ≠ r) : (s.grow r n k).table r' = s.table r' :=
  Pool.owned_take_of_ne fun he => h (Holder.preAlloc.inj he)

theorem mem_drop : r' ∈ (s.drop r).preAllocCacheDict ↔ r' ∈ s.preAllocCacheDict ∧ r' ≠ r := by
  unfold drop
  simp

theorem table_drop_of_ne (h : r' ≠ r) : (s.drop r).table r' = s.table r' :=
  Pool.owned_release_of_ne fun he => h (Holder.preAlloc.inj he)

theorem mem_register :
    r' ∈ (s.register r).preAllocCacheDict ↔ r' ∈ s.preAllocCacheDict ∧ r' ≠ r := by
  unfold register
  simp

theorem table_register_of_ne (h : r' ≠ r) : (s.register r).table r' = s.table r' :=
  Pool.owned_move_of_ne (by nofun) (fun he => h (Holder.preAlloc.inj he)) (by nofun)

theorem mem_foldl_drop {l : List String} (h : r ∈ (l.foldl drop s).preAllocCacheDict) :
    r ∈ s.preAllocCacheDict ∧ r ∉ l := by
  induction l generalizing s with
  | nil => exact ⟨h, List.not_mem_nil⟩
  | cons q l ih =>
    obtain ⟨hm, hl⟩ := ih h
    obtain ⟨hm, hq⟩ := mem_drop.mp hm
    exact ⟨hm, fun h => (List.mem_cons.mp h).elim hq hl⟩

theorem not_mem_dropAll : r ∉ s.dropAll.preAllocCacheDict := fun h =>
  (mem_foldl_drop h).2 (mem_foldl_drop h).1

theorem not_mem_freeDstPreAllocCache :
    r ∉ (s.freeDstPreAllocCache (some r)).preAllocCacheDict := by
  change r ∉ (if r = "" then s.dropAll else s.drop r).preAllocCacheDict
  split
  · exact not_mem_dropAll
  · exact fun h => (mem_drop.mp h).2 rfl

theorem reserve_eq (h : s.reserve a = .ok s') : s' = s ∨ ∃ n k, s' = s.grow a.requestId n k := by
  unfold reserve appendTokenIds getFreeBlocks at h
  dsimp only at h
  split_ifs at h <;> cases h
  · exact .inr ⟨_, _, rfl⟩
  · exact .inl rfl
  · exact .inr ⟨_, _, rfl⟩
  · exact .inr ⟨_, _, rfl⟩

theorem preAlloc_eq (hrefuse : ¬s.Refuses a) (h : s.reserve a = .ok s') :
    s.preAlloc a = .ok (if some (s'.table a.requestId).length = s'.maxBlockSlidingWindow
      then ([], s') else (lastBlocks a.blockNum (s'.table a.requestId), s')) := by
  unfold preAlloc
  rw [if_neg hrefuse, h]
  rfl

theorem preAlloc_cases (h : s.preAlloc a = .ok (out, s')) :
    s' = s ∨ ∃ n k, s' = s.grow a.requestId n k := by
  by_cases hrefuse : s.Refuses a
  · unfold preAlloc at h
    rw [if_pos hrefuse] at h
    cases h
    exact .inl rfl
  cases hres : s.reserve a with
  | error e =>
    unfold preAlloc at h
    rw [if_neg hrefuse, hres] at h
    cases h
  | ok t =>
    rw [preAlloc_eq hrefuse hres] at h
    have ht : s' = t := by
      split at h <;> exact (Prod.mk.inj (Except.ok.inj h)).2.symm
    rw [ht]
    exact reserve_eq hres

theorem migrateInPreAlloc_eq (h : s.preAlloc a = .ok (out, s')) :
    s.migrateInPreAlloc a = .ok (out,
      if out.length ≠ a.blockNum then s'.freeDstPreAllocCache (some a.requestId) else s') := by
  unfold migrateInPreAlloc
  rw [h]
  rfl

theorem migrateInPreAlloc_cases (h : s.migrateInPreAlloc a = .ok (out, s')) :
    ∃ t, (t = s ∨ ∃ n k, t = s.grow a.requestId n k) ∧
      s' = if out.length ≠ a.blockNum then t.freeDstPreAllocCache (some a.requestId) else t := by
  cases hp : s.preAlloc a with
  | error e =>
    unfold migrateInPreAlloc at h
    rw [hp] at h
    cases h
  | ok res =>
    obtain ⟨out', t⟩ := res
    rw [migrateInPreAlloc_eq hp] at h
    obtain ⟨rfl, hs⟩ := Prod.mk.inj (Except.ok.inj h)
    exact ⟨t, preAlloc_cases hp, hs.symm⟩

theorem apply_call (h : s.migrateInPreAlloc a = .ok (out, s')) :
    s.apply (.migrateInPreAlloc a) = s' := by
  simp only [apply, h]

theorem apply_call_raised {e : Exc} (h : s.migrateInPreAlloc a = .error e) :
    s.apply (.migrateInPreAlloc a) = s := by
  simp only [apply, h]

/-- If `r` still has a table, it is the one it had. -/
def Keeps (r : String) (s s' : Scheduler) : Prop :=
  r ∈ s'.preAllocCacheDict → r ∈ s.preAllocCacheDict ∧ s'.table r = s.table r

theorem Keeps.refl (s : Scheduler) : Keeps r s s := fun h => ⟨h, rfl⟩

theorem Keeps.trans {t : Scheduler} (h : Keeps r s s') (h' : Keeps r s' t) : Keeps r s t := by
  intro hm
  obtain ⟨hm', ht'⟩ := h' hm
  obtain ⟨hm, ht⟩ := h hm'
  exact ⟨hm, ht'.trans ht⟩

theorem keeps_grow (h : r' ≠ r) : Keeps r' s (s.grow r n k) := fun hm =>
  ⟨(mem_grow.mp hm).resolve_left h, table_grow_of_ne h⟩

theorem keeps_drop : Keeps r' s (s.drop r) := fun hm =>
  ⟨(mem_drop.mp hm).1, table_drop_of_ne (mem_drop.mp hm).2⟩

theorem keeps_register : Keeps r' s (s.register r) := fun hm =>
  ⟨(mem_register.mp hm).1, table_register_of_ne (mem_register.mp hm).2⟩

theorem keeps_freeDstPreAllocCache (q : Option String) : Keeps r s (s.freeDstPreAllocCache q) := by
  cases q with
  | none => exact fun hm => absurd hm not_mem_dropAll
  | some q =>
    change Keeps r s (if q = "" then s.dropAll else s.drop q)
    split
    · exact fun hm => absurd hm not_mem_dropAll
    · exact keeps_drop

theorem keeps_commitDstRequest (q : String) (status : RequestStatus) (t : ℕ) :
    Keeps r s (s.commitDstRequest q status t).2 := by
  unfold commitDstRequest
  split_ifs
  · exact keeps_register
  · exact (keeps_register (r := q)).trans fun hm => ⟨hm, rfl⟩
  · exact keeps_register
  · exact .refl s

theorem keeps_migrateInPreAlloc (hr : r ≠ a.requestId) (h : s.migrateInPreAlloc a = .ok (out, s')) :
    Keeps r s s' := by
  obtain ⟨t, ht, rfl⟩ := migrateInPreAlloc_cases h
  have hgrow : Keeps r s t := by
    rcases ht with rfl | ⟨n, k, rfl⟩
    · exact .refl t
    · exact keeps_grow hr
  split
  · exact hgrow.trans (keeps_freeDstPreAllocCache _)
  · exact hgrow

theorem keeps_apply {op : Op} (hop : ∀ a, op = .migrateInPreAlloc a → a.requestId ≠ r) :
    Keeps r s (s.apply op) := by
  cases op with
  | migrateInPreAlloc a =>
    cases hcall : s.migrateInPreAlloc a with
    | error e =>
      rw [apply_call_raised hcall]
      exact .refl s
    | ok res =>
      rw [apply_call hcall]
      exact keeps_migrateInPreAlloc (hop a rfl).symm hcall
  | freeDstPreAllocCache q => exact keeps_freeDstPreAllocCache q
  | commitDstRequest q status t => exact keeps_commitDstRequest q status t
  | allocate i n =>
    intro hm
    change r ∈ (if h : i < s.seqCounter then
      if n ≤ s.numFreeGpuBlocks then s.allocate i n h else s else s).preAllocCacheDict at hm
    change _ ∧ (if h : i < s.seqCounter then
      if n ≤ s.numFreeGpuBlocks then s.allocate i n h else s else s).table r = _
    split_ifs at hm ⊢
    · exact ⟨hm, Pool.owned_take_of_ne (by nofun)⟩
    · exact ⟨hm, rfl⟩
    · exact ⟨hm, rfl⟩
  | free i => exact fun hm => ⟨hm, Pool.owned_release_of_ne (by nofun)⟩
  | newSeq => exact fun hm => ⟨hm, rfl⟩
  | setWaiting arrivals => exact fun hm => ⟨hm, rfl⟩

/-! A table that is dropped goes back to the pool. -/

theorem free_drop : (s.drop r).pool.free = s.pool.free ++ s.table r := Pool.free_release

theorem subset_free_foldl_drop (l : List String) : s.pool.free ⊆ (l.foldl drop s).pool.free := by
  induction l generalizing s with
  | nil => exact List.Subset.refl _
  | cons q l ih =>
    have hdrop : s.pool.free ⊆ (s.drop q).pool.free := by
      rw [free_drop]
      exact List.subset_append_left _ _
    exact List.Subset.trans hdrop ih

theorem table_subset_foldl_drop {l : List String} (h : r ∈ l) :
    s.table r ⊆ (l.foldl drop s).pool.free := by
  induction l generalizing s with
  | nil => exact absurd h List.not_mem_nil
  | cons q l ih =>
    by_cases hq : r = q
    · have hdrop : s.table r ⊆ (s.drop q).pool.free := by
        rw [free_drop, hq]
        exact List.subset_append_right _ _
      exact List.Subset.trans hdrop (subset_free_foldl_drop l)
    · have hkeep : (s.drop q).table r = s.table r := table_drop_of_ne hq
      rw [← hkeep]
      exact ih ((List.mem_cons.mp h).resolve_left hq)

theorem table_subset_free {q : Option String}
    (h : r ∉ (s.freeDstPreAllocCache q).preAllocCacheDict) :
    s.table r ⊆ (s.freeDstPreAllocCache q).pool.free := by
  by_cases hr : r ∈ s.preAllocCacheDict
  · have hall : s.table r ⊆ s.dropAll.pool.free := table_subset_foldl_drop hr
    cases q with
    | none => exact hall
    | some q =>
      change r ∉ (if q = "" then s.dropAll else s.drop q).preAllocCacheDict at h
      change s.table r ⊆ (if q = "" then s.dropAll else s.drop q).pool.free
      split at h
      · rwa [if_pos ‹_›]
      · have hq : r = q := Decidable.not_not.mp fun hne => h (mem_drop.mpr ⟨hr, hne⟩)
        rw [if_neg ‹_›, free_drop, hq]
        exact List.subset_append_right _ _
  · rw [table_of_not_mem hr]
    exact List.nil_subset _

theorem table_subset_migrateInPreAlloc (hne : r ≠ a.requestId)
    (hcall : s.migrateInPreAlloc a = .ok (out, s')) (hr : r ∈ s.preAllocCacheDict)
    (h : r ∉ s'.preAllocCacheDict) : s.table r ⊆ s'.pool.free := by
  obtain ⟨t, ht, hs⟩ := migrateInPreAlloc_cases hcall
  have hkept : r ∈ t.preAllocCacheDict ∧ t.table r = s.table r := by
    rcases ht with rfl | ⟨n, k, rfl⟩
    · exact ⟨hr, rfl⟩
    · exact ⟨mem_grow.mpr (.inr hr), table_grow_of_ne hne⟩
  rw [hs] at h ⊢
  rw [← hkept.2]
  split at h
  · rw [if_pos ‹_›]
    exact table_subset_free h
  · exact absurd hkept.1 h

theorem table_subset_apply {op : Op} (hop : ¬op.For r) (hr : r ∈ s.preAllocCacheDict)
    (h : r ∉ (s.apply op).preAllocCacheDict) : s.table r ⊆ (s.apply op).pool.free := by
  cases op with
  | migrateInPreAlloc a =>
    have hne : r ≠ a.requestId := fun he => hop he.symm
    cases hcall : s.migrateInPreAlloc a with
    | error e =>
      rw [apply_call_raised hcall] at h
      exact absurd hr h
    | ok res =>
      rw [apply_call hcall] at h ⊢
      exact table_subset_migrateInPreAlloc hne hcall hr h
  | freeDstPreAllocCache q => exact table_subset_free h
  | commitDstRequest q status t =>
    have hne : r ≠ q := fun he => hop he.symm
    refine absurd ?_ h
    change r ∈ (s.commitDstRequest q status t).2.preAllocCacheDict
    unfold commitDstRequest
    split_ifs
    · exact mem_register.mpr ⟨hr, hne⟩
    · exact mem_register.mpr ⟨hr, hne⟩
    · exact mem_register.mpr ⟨hr, hne⟩
    · exact hr
  | allocate i n =>
    refine absurd ?_ h
    change r ∈ (if h : i < s.seqCounter then
      if n ≤ s.numFreeGpuBlocks then s.allocate i n h else s else s).preAllocCacheDict
    split_ifs <;> exact hr
  | free i => exact absurd hr h
  | newSeq => exact absurd hr h
  | setWaiting arrivals => exact absurd hr h

end Table

end Scheduler
end Llumnix.Legacy
