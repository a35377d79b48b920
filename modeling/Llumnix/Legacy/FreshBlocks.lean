import Llumnix.Legacy.Scheduler
import Llumnix.Machine.Run

/-! The blocks that `pre_alloc` hands out, stage after stage, while other requests allocate
and free blocks. -/
namespace Llumnix.Legacy.FreshBlocks

open Machine Scheduler

structure State where
  sched : Scheduler
  /-- What the calls for the request have returned since its table was made. -/
  handed : List (List ℕ)

/-- The list that the call `op`, if it is one for `r`, returns. -/
def returned (r : String) (s : Scheduler) : Op → List (List ℕ)
  | .migrateInPreAlloc a =>
    if a.requestId = r then
      match s.migrateInPreAlloc a with
      | .ok (out, _) => [out]
      | .error _ => []
    else []
  | _ => []

/-- When the table of `r` goes, a new sequence of calls begins. -/
def step (r : String) (s : State) (op : Op) : Option State :=
  let sched := s.sched.apply op
  some ⟨sched, if r ∈ sched.preAllocCacheDict then s.handed ++ returned r s.sched op else []⟩

def OnCall (r : String) (P : PreAlloc → Prop) : Op → Prop
  | .migrateInPreAlloc a => a.requestId = r → P a
  | _ => True

instance (r : String) (P : PreAlloc → Prop) [DecidablePred P] : DecidablePred (OnCall r P)
  | .migrateInPreAlloc a => inferInstanceAs (Decidable (a.requestId = r → P a))
  | .freeDstPreAllocCache _ | .commitDstRequest _ _ _ | .newSeq | .allocate _ _ | .free _
  | .setWaiting _ => isTrue trivial

def filledSlots (s : Scheduler) (r : String) : ℕ :=
  if r ∈ s.preAllocCacheDict then s.numFullSlots r else 0

/-- The call asks for blocks and passes the tokens that fill them. -/
def Fits (r : String) (s : State) (op : Op) : Prop :=
  OnCall r (fun a => 1 ≤ a.blockNum ∧
    blocksFor s.sched.blockSize (filledSlots s.sched r + a.tokenIds.length) =
      (s.sched.table r).length + a.blockNum) op

instance (r : String) (s : State) (op : Op) : Decidable (Fits r s op) :=
  inferInstanceAs (Decidable (OnCall r _ op))

/-- The table is long enough to look like a grant although there is not enough space. -/
def Stale (s : Scheduler) (a : PreAlloc) : Prop :=
  a.requestId ∈ s.preAllocCacheDict ∧ ¬s.Refuses a ∧ s.numFreeGpuBlocks < a.blockNum ∧
    a.blockNum ≤ (s.table a.requestId).length ∧
    some (s.table a.requestId).length ≠ s.maxBlockSlidingWindow

instance (s : Scheduler) (a : PreAlloc) : Decidable (Stale s a) :=
  inferInstanceAs (Decidable (_ ∧ _))

def NotStale (r : String) (s : State) (op : Op) : Prop := OnCall r (fun a => ¬Stale s.sched a) op

instance (r : String) (s : State) (op : Op) : Decidable (NotStale r s op) :=
  inferInstanceAs (Decidable (OnCall r _ op))

/-- The call returns, and a list of the length asked for is one of new blocks. Any other list
ends the migration. -/
def Fresh (r : String) (s : State) (op : Op) : Prop :=
  OnCall r (fun a => ∃ out s', s.sched.migrateInPreAlloc a = .ok (out, s') ∧
    (out.length = a.blockNum → (∀ b ∈ out, b ∈ s.sched.pool.free) ∧
      out.Disjoint s.handed.flatten ∧ (s.handed ++ [out]).flatten = s'.table r) ∧
    (out.length ≠ a.blockNum → r ∉ s'.preAllocCacheDict)) op

/-- Everything in the table has been handed out, and a table is never empty. -/
structure Inv (r : String) (s : State) : Prop where
  handed : s.handed.flatten = s.sched.table r
  nonempty : r ∈ s.sched.preAllocCacheDict → s.sched.table r ≠ []

section LastBlocks

theorem length_lastBlocks {n : ℕ} (xs : List ℕ) (h : 1 ≤ n) :
    (lastBlocks n xs).length = min n xs.length := by
  unfold lastBlocks
  rw [if_neg (by omega), List.length_drop]
  omega

theorem lastBlocks_append {n : ℕ} {xs ys : List ℕ} (h : 1 ≤ n) (hy : ys.length = n) :
    lastBlocks n (xs ++ ys) = ys := by
  unfold lastBlocks
  have hd : (xs ++ ys).length - n = xs.length := by
    rw [List.length_append]
    omega
  rw [if_neg (by omega), hd, List.drop_left]

theorem mem_of_mem_lastBlocks {n b : ℕ} {xs : List ℕ} (h : b ∈ lastBlocks n xs) : b ∈ xs := by
  unfold lastBlocks at h
  split at h
  · exact h
  · exact List.mem_of_mem_drop h

end LastBlocks

section Call
variable {s : State} {r : String} {a : PreAlloc}

/-- The three ways in which a call that is not refused leaves the table. -/
theorem reserve_cases (hi : Inv r s) (hr : a.requestId = r) (hn : 1 ≤ a.blockNum)
    (hf : blocksFor s.sched.blockSize (filledSlots s.sched r + a.tokenIds.length) =
      (s.sched.table r).length + a.blockNum) :
    (∃ s', s.sched.reserve a = .ok s' ∧ a.blockNum ≤ s.sched.numFreeGpuBlocks ∧
      r ∈ s'.preAllocCacheDict ∧
      s'.table r = s.sched.table r ++ s.sched.pool.free.take a.blockNum) ∨
    (r ∉ s.sched.preAllocCacheDict ∧ ∃ s', s.sched.reserve a = .ok s' ∧ s'.table r = []) ∨
    (r ∈ s.sched.preAllocCacheDict ∧ s.sched.reserve a = .ok s.sched ∧
      s.sched.numFreeGpuBlocks < a.blockNum) := by
  subst hr
  unfold reserve
  by_cases hm : a.requestId ∈ s.sched.preAllocCacheDict
  · rw [if_pos hm]
    by_cases hfree : a.blockNum ≤ s.sched.numFreeGpuBlocks
    · rw [if_pos hfree]
      left
      have hneed : blocksFor s.sched.blockSize
          (s.sched.numFullSlots a.requestId + a.tokenIds.length) -
            (s.sched.table a.requestId).length = a.blockNum := by
        unfold filledSlots at hf
        rw [if_pos hm] at hf
        omega
      refine ⟨s.sched.grow a.requestId a.blockNum
        (s.sched.numFullSlots a.requestId + a.tokenIds.length), ?_, hfree,
        mem_grow.mpr (.inl rfl), table_grow_self⟩
      unfold appendTokenIds
      rw [if_neg (hi.nonempty hm)]
      dsimp only
      rw [hneed, if_pos hfree]
    · rw [if_neg hfree]
      exact .inr (.inr ⟨hm, rfl, by omega⟩)
  · rw [if_neg hm]
    have ht := table_of_not_mem hm
    unfold getFreeBlocks
    by_cases hw : s.sched.watermarkBlocks + a.blockNum ≤ s.sched.numFreeGpuBlocks
    · left
      have hneed : blocksFor s.sched.blockSize a.tokenIds.length = a.blockNum := by
        unfold filledSlots at hf
        rw [if_neg hm, ht] at hf
        simpa using hf
      have hfree : a.blockNum ≤ s.sched.numFreeGpuBlocks := by omega
      refine ⟨s.sched.grow a.requestId a.blockNum a.tokenIds.length, ?_, hfree,
        mem_grow.mpr (.inl rfl), table_grow_self⟩
      rw [if_pos hw]
      dsimp only
      rw [hneed, if_pos hfree]
    · rw [if_neg hw]
      refine .inr (.inl ⟨hm, _, rfl, ?_⟩)
      rw [table_grow_self, ht]
      rfl

theorem fresh_of_refused (hr : a.requestId = r) {out : List ℕ} {s' : Scheduler}
    (h : s.sched.preAlloc a = .ok (out, s')) (hlen : out.length ≠ a.blockNum) :
    Fresh r s (.migrateInPreAlloc a) := by
  intro _
  refine ⟨out, _, migrateInPreAlloc_eq h, fun he => absurd he hlen, fun _ => ?_⟩
  rw [if_pos hlen, hr]
  exact not_mem_freeDstPreAllocCache

private theorem length_nil_ne (hn : 1 ≤ a.blockNum) : ([] : List ℕ).length ≠ a.blockNum := by
  simp only [List.length_nil]
  omega

theorem fresh_of_grown (hi : Inv r s) (hr : a.requestId = r) (hn : 1 ≤ a.blockNum)
    (hrefuse : ¬s.sched.Refuses a) {s' : Scheduler} (hs : s.sched.reserve a = .ok s')
    (hfree : a.blockNum ≤ s.sched.numFreeGpuBlocks)
    (ht : s'.table r = s.sched.table r ++ s.sched.pool.free.take a.blockNum) :
    Fresh r s (.migrateInPreAlloc a) := by
  have hp := preAlloc_eq hrefuse hs
  rw [hr] at hp
  by_cases hwin : some (s'.table r).length = s'.maxBlockSlidingWindow
  · rw [if_pos hwin] at hp
    exact fresh_of_refused hr hp (length_nil_ne hn)
  rw [if_neg hwin] at hp
  have hlen : (s.sched.pool.free.take a.blockNum).length = a.blockNum := by
    unfold numFreeGpuBlocks at hfree
    rw [List.length_take]
    omega
  rw [ht, lastBlocks_append hn hlen] at hp
  intro _
  refine ⟨_, s', ?_, fun _ => ⟨?_, ?_, ?_⟩, fun h => absurd hlen h⟩
  · rw [migrateInPreAlloc_eq hp, if_neg (not_not_intro hlen)]
  · exact fun b hb => List.mem_of_mem_take hb
  · rw [hi.handed]
    exact fun b hb ht =>
      s.sched.pool.free_disjoint_owned (.preAlloc r) (List.mem_of_mem_take hb) ht
  · rw [List.flatten_append, hi.handed, ht]
    simp

theorem fresh_of_unfit (hr : a.requestId = r) (hn : 1 ≤ a.blockNum)
    (hrefuse : ¬s.sched.Refuses a) {s' : Scheduler} (hs : s.sched.reserve a = .ok s')
    (ht : s'.table r = []) : Fresh r s (.migrateInPreAlloc a) := by
  have hp := preAlloc_eq hrefuse hs
  rw [hr, ht] at hp
  have hl : lastBlocks a.blockNum [] = [] := by
    unfold lastBlocks
    split
    · rfl
    · exact List.drop_nil
  rw [hl, ite_self] at hp
  exact fresh_of_refused hr hp (length_nil_ne hn)

theorem not_fresh_of_stale (hi : Inv r s) (hr : a.requestId = r) (hn : 1 ≤ a.blockNum)
    {s' : Scheduler} (hp : s.sched.preAlloc a = .ok (lastBlocks a.blockNum (s.sched.table r), s'))
    (hlong : a.blockNum ≤ (s.sched.table r).length) : ¬Fresh r s (.migrateInPreAlloc a) := by
  intro h
  obtain ⟨out, _, ho, hgood, -⟩ := h hr
  rw [migrateInPreAlloc_eq hp] at ho
  obtain ⟨rfl, -⟩ := Prod.mk.inj (Except.ok.inj ho)
  have hlen := length_lastBlocks (s.sched.table r) hn
  rw [Nat.min_eq_left hlong] at hlen
  obtain ⟨b, hb⟩ := List.exists_mem_of_length_pos (l := lastBlocks a.blockNum (s.sched.table r))
    (by omega)
  have hb' := mem_of_mem_lastBlocks hb
  rw [← hi.handed] at hb'
  exact (hgood hlen).2.1 hb hb'

theorem fresh_iff_of_full (hi : Inv r s) (hr : a.requestId = r) (hn : 1 ≤ a.blockNum)
    (hrefuse : ¬s.sched.Refuses a) (hm : r ∈ s.sched.preAllocCacheDict)
    (hs : s.sched.reserve a = .ok s.sched) (hfree : s.sched.numFreeGpuBlocks < a.blockNum) :
    ¬Stale s.sched a ↔ Fresh r s (.migrateInPreAlloc a) := by
  have hp := preAlloc_eq hrefuse hs
  rw [hr] at hp
  by_cases hwin : some (s.sched.table r).length = s.sched.maxBlockSlidingWindow
  · rw [if_pos hwin] at hp
    exact iff_of_true (fun h => h.2.2.2.2 (hr ▸ hwin)) (fresh_of_refused hr hp (length_nil_ne hn))
  rw [if_neg hwin] at hp
  by_cases hlong : a.blockNum ≤ (s.sched.table r).length
  · refine iff_of_false (fun h => h ?_) (not_fresh_of_stale hi hr hn hp hlong)
    exact ⟨hr ▸ hm, hrefuse, hfree, hr ▸ hlong, hr ▸ hwin⟩
  · refine iff_of_true (fun h => hlong (hr ▸ h.2.2.2.1)) (fresh_of_refused hr hp ?_)
    have hlen := length_lastBlocks (s.sched.table r) hn
    omega

theorem fresh_iff (hi : Inv r s) (hr : a.requestId = r) (hn : 1 ≤ a.blockNum)
    (hf : blocksFor s.sched.blockSize (filledSlots s.sched r + a.tokenIds.length) =
      (s.sched.table r).length + a.blockNum) :
    ¬Stale s.sched a ↔ Fresh r s (.migrateInPreAlloc a) := by
  by_cases hrefuse : s.sched.Refuses a
  · have hp : s.sched.preAlloc a = .ok ([], s.sched) := if_pos hrefuse
    exact iff_of_true (fun h => h.2.1 hrefuse) (fresh_of_refused hr hp (length_nil_ne hn))
  rcases reserve_cases hi hr hn hf with ⟨s', hs, hfree, -, ht⟩ | ⟨hm, s', hs, ht⟩ | ⟨hm, hs, hfree⟩
  · refine iff_of_true (fun h => ?_) (fresh_of_grown hi hr hn hrefuse hs hfree ht)
    have := h.2.2.1
    omega
  · exact iff_of_true (fun h => hm (hr ▸ h.1)) (fresh_of_unfit hr hn hrefuse hs ht)
  · exact fresh_iff_of_full hi hr hn hrefuse hm hs hfree

end Call

section Run
variable {s s' : State} {r : String} {op : Op}

theorem inv_of_not_mem {sched : Scheduler} (h : r ∉ sched.preAllocCacheDict) :
    Inv r ⟨sched, []⟩ :=
  ⟨(table_of_not_mem h).symm, fun hm => absurd hm h⟩

theorem inv_call {a : PreAlloc} (hr : a.requestId = r) (hn : 1 ≤ a.blockNum)
    (hf : Fresh r s (.migrateInPreAlloc a)) (hs : step r s (.migrateInPreAlloc a) = some s') :
    Inv r s' := by
  cases hs
  obtain ⟨out, sched, ho, hgood, hbad⟩ := hf hr
  have hret : returned r s.sched (.migrateInPreAlloc a) = [out] := by
    simp only [returned, hr, ho, if_true]
  rw [apply_call ho, hret]
  by_cases hlen : out.length = a.blockNum
  · obtain ⟨-, -, ht⟩ := hgood hlen
    split
    · refine ⟨ht, fun _ he => ?_⟩
      rw [he, List.flatten_append, List.append_eq_nil_iff] at ht
      have hout : out = [] := by simpa using ht.2
      rw [hout] at hlen
      simp only [List.length_nil] at hlen
      omega
    · rename_i hm
      exact inv_of_not_mem hm
  · rw [if_neg (hbad hlen)]
    exact inv_of_not_mem (hbad hlen)

theorem inv_other (hi : Inv r s) (hop : ∀ a, op = .migrateInPreAlloc a → a.requestId ≠ r)
    (hs : step r s op = some s') : Inv r s' := by
  cases hs
  by_cases hm : r ∈ (s.sched.apply op).preAllocCacheDict
  · obtain ⟨hmem, ht⟩ := keeps_apply hop hm
    have hret : returned r s.sched op = [] := by
      unfold returned
      split
      · exact if_neg (hop _ rfl)
      · rfl
    rw [if_pos hm, hret, List.append_nil]
    exact ⟨hi.handed.trans ht.symm, fun _ => ht ▸ hi.nonempty hmem⟩
  · rw [if_neg hm]
    exact inv_of_not_mem hm

theorem inv_step (hi : Inv r s) (hfit : Fits r s op) (hok : NotStale r s op)
    (hs : step r s op = some s') : Inv r s' := by
  cases op with
  | migrateInPreAlloc a =>
    by_cases hr : a.requestId = r
    · obtain ⟨hn, hf⟩ := hfit hr
      exact inv_call hr hn ((fresh_iff hi hr hn hf).mp (hok hr)) hs
    · refine inv_other hi ?_ hs
      rintro _ ⟨⟩
      exact hr
  | _ => exact inv_other hi (by rintro _ ⟨⟩) hs

theorem notStale_iff_fresh (hi : Inv r s) (hfit : Fits r s op) :
    NotStale r s op ↔ Fresh r s op := by
  cases op with
  | migrateInPreAlloc a =>
    constructor
    · intro h hr
      obtain ⟨hn, hf⟩ := hfit hr
      exact (fresh_iff hi hr hn hf).mp (h hr) hr
    · intro h hr
      obtain ⟨hn, hf⟩ := hfit hr
      exact (fresh_iff hi hr hn hf).mpr fun _ => h hr
  | _ => exact Iff.rfl

/-- Along every run, the blocks handed out are new at every call if and only if no call of a
later stage meets too little space with a table at least as long as what it asks for. -/
theorem fresh_iff_notStale (r : String) (s : Scheduler) (hr : r ∉ s.preAllocCacheDict)
    (ops : List Op) (hfits : Meets (step r) (Fits r) ⟨s, []⟩ ops) :
    Meets (step r) (NotStale r) ⟨s, []⟩ ops ↔ Meets (step r) (Fresh r) ⟨s, []⟩ ops :=
  meets_iff (fun _ _ _ => inv_step) (fun _ _ => notStale_iff_fresh) (inv_of_not_mem hr) hfits

end Run

/-! Four blocks of two slots, and a sequence of the engine that takes what is left. -/
section Sample

def small : Scheduler where
  blockSize := 2
  watermarkBlocks := 0
  maxBlockSlidingWindow := none
  pool := .ofFree [0, 1, 2, 3] (by decide)
  preAllocCacheDict := []
  numFullSlots _ := 0
  waiting := []
  seqCounter := 1
  cached _ _ := rfl
  fresh _ _ := rfl

def stage (blockNum : ℕ) (tokenIds : List ℕ) : PreAlloc where
  requestId := "r"
  requestStatus := .running
  requestArrivalTime := 0
  blockNum := blockNum
  tokenIds := tokenIds

/-- The last call finds no free block and returns one that holds KV already migrated. -/
theorem stale_block_handed_out :
    Meets (step "r") (Fits "r") ⟨small, []⟩ [.migrateInPreAlloc (stage 2 [11, 12, 13, 14]),
      .allocate 0 2, .migrateInPreAlloc (stage 1 [15, 16])] ∧
    ∃ s s', run (step "r") ⟨small, []⟩ [.migrateInPreAlloc (stage 2 [11, 12, 13, 14]),
      .allocate 0 2] = some s ∧ s.handed = [[0, 1]] ∧ s.sched.pool.free = [] ∧
      s.sched.migrateInPreAlloc (stage 1 [15, 16]) = .ok ([1], s') := by
  exact ⟨by decide, _, _, rfl, by decide, by decide, rfl⟩

theorem fresh_iff_notStale_sample :
    Meets (step "r") (Fresh "r") ⟨small, []⟩ [.migrateInPreAlloc (stage 2 [11, 12, 13, 14]),
      .allocate 0 1, .migrateInPreAlloc (stage 1 [15, 16])] :=
  (fresh_iff_notStale "r" small (by decide) _ (by decide)).mp (by decide)

end Sample

end Llumnix.Legacy.FreshBlocks
