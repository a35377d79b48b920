import Llumnix.Log.LastWrite
import Llumnix.Python.Dict

/-! The index of cached blocks, fed with the events of an instance by the live thread and by the
replay thread of the subscriber. -/
namespace Llumnix.Cache

open Python Log

/-- A block hash as it comes with an event. -/
inductive RawHash where
  | bytes (value : List UInt8)
  | bytearray (value : List UInt8)
  | int (value : ℤ)

inductive BlockHash where
  | bytes (value : List UInt8)
  | int (value : ℤ)
  deriving DecidableEq

def RawHash.normalized : RawHash → BlockHash
  | .bytes value | .bytearray value => .bytes value
  | .int value => .int value

inductive KvEvent where
  | blockStored (blockHashes : List RawHash) (tokenIds : List ℕ) (blockSize : ℕ)
      (medium : Option String)
  | blockRemoved (blockHashes : List RawHash)
  | allBlocksCleared
  | other (name : String)

structure KVBlockLocation where
  instanceId : String
  blockHash : BlockHash
  tokenIds : List ℕ := []
  blockSize : ℕ := 0
  medium : String := "GPU"
  lastSeenStep : ℕ := 0

abbrev Blocks := Dict BlockHash KVBlockLocation

structure KVCacheAffinityIndex where
  blocks : Dict String Blocks := .empty
  step : ℕ := 0

def applyEvent (instanceId : String) (step : ℕ) (blocks : Blocks) : KvEvent → Blocks
  | .blockStored blockHashes tokenIds blockSize medium =>
    blocks.setAll (blockHashes.map fun blockHash =>
      (blockHash.normalized, ⟨instanceId, blockHash.normalized, tokenIds, blockSize,
        if medium = some "" then "GPU" else medium.getD "GPU", step⟩))
  | .blockRemoved blockHashes =>
    blockHashes.foldl (fun blocks blockHash => blocks.erase blockHash.normalized) blocks
  | .allBlocksCleared => .empty
  | .other _ => blocks

namespace KVCacheAffinityIndex

def known (x : KVCacheAffinityIndex) (instanceId : String) : Blocks :=
  (x.blocks.get? instanceId).getD .empty

def apply (x : KVCacheAffinityIndex) (instanceId : String) (events : List KvEvent) :
    KVCacheAffinityIndex where
  blocks := x.blocks.set instanceId
    (events.foldl (applyEvent instanceId x.step) (x.known instanceId))
  step := x.step + 1

def blockHashes (x : KVCacheAffinityIndex) (instanceId : String) : Finset BlockHash :=
  (x.known instanceId).keySet

def receive (x : KVCacheAffinityIndex) (instanceId : String) (batches : List (List KvEvent)) :
    KVCacheAffinityIndex :=
  batches.foldl (fun x batch => x.apply instanceId batch) x

def applyAll (x : KVCacheAffinityIndex) (calls : List (String × List KvEvent)) :
    KVCacheAffinityIndex :=
  calls.foldl (fun x call => x.apply call.1 call.2) x

end KVCacheAffinityIndex

def eventsOf (instanceId : String) (calls : List (String × List KvEvent)) : List KvEvent :=
  (calls.filter (·.1 = instanceId)).flatMap Prod.snd

/-- A multipart message: how many frames, the sequence number, and the batch if it decodes. -/
structure Message where
  frames : ℕ
  sequence : ℤ
  batch : Option (List KvEvent)

/-- `_run`: what is malformed is skipped. -/
def runBatches : List Message → List (List KvEvent)
  | [] => []
  | m :: ms =>
    if m.frames ≠ 3 then runBatches ms
    else
      match m.batch with
      | none => runBatches ms
      | some batch => batch :: runBatches ms

/-- `_replay`: the sentinel or anything malformed ends it. -/
def replayBatches : List Message → List (List KvEvent)
  | [] => []
  | m :: ms =>
    if m.frames < 2 ∨ m.sequence < 0 then []
    else
      match m.batch with
      | none => []
      | some batch => batch :: replayBatches ms

/-- The publisher's messages for the batches from number `n` on. -/
def published (n : ℕ) : List (List KvEvent) → List Message
  | [] => []
  | batch :: batches => ⟨3, n, some batch⟩ :: published (n + 1) batches

/-- What the publisher answers to a replay request from number 0 on. -/
def replayed (batches : List (List KvEvent)) : List Message :=
  published 0 batches ++ [⟨3, -1, none⟩]

theorem runBatches_published (n : ℕ) (batches : List (List KvEvent)) :
    runBatches (published n batches) = batches := by
  induction batches generalizing n with
  | nil => rfl
  | cons batch batches ih => simp [published, runBatches, ih]

theorem replayBatches_replayed (batches : List (List KvEvent)) :
    replayBatches (replayed batches) = batches := by
  have hfrom : ∀ n, replayBatches (published n batches ++ [⟨3, -1, none⟩]) = batches := by
    induction batches with
    | nil => simp [published, replayBatches]
    | cons batch batches ih =>
      intro n
      have hn : ¬((n : ℤ) < 0) := by omega
      simp [published, replayBatches, ih, hn]
  exact hfrom 0

/-- What an event says about a hash: that it is cached, that it is not, or nothing. -/
def KvEvent.tells (e : KvEvent) (h : BlockHash) : Option Bool :=
  match e with
  | .blockStored blockHashes _ _ _ =>
    if h ∈ blockHashes.map RawHash.normalized then some true else none
  | .blockRemoved blockHashes =>
    if h ∈ blockHashes.map RawHash.normalized then some false else none
  | .allBlocksCleared => some false
  | .other _ => none

def KvEvent.Stores (e : KvEvent) (h : BlockHash) : Prop :=
  ∃ blockHashes tokenIds blockSize medium,
    e = .blockStored blockHashes tokenIds blockSize medium ∧
      h ∈ blockHashes.map RawHash.normalized

def KvEvent.Drops (e : KvEvent) (h : BlockHash) : Prop :=
  (∃ blockHashes, e = .blockRemoved blockHashes ∧ h ∈ blockHashes.map RawHash.normalized) ∨
    e = .allBlocksCleared

theorem tells_eq_true {e : KvEvent} {h : BlockHash} : e.tells h = some true ↔ e.Stores h := by
  cases e <;> simp [KvEvent.tells, KvEvent.Stores]

theorem tells_eq_false {e : KvEvent} {h : BlockHash} : e.tells h = some false ↔ e.Drops h := by
  cases e <;> simp [KvEvent.tells, KvEvent.Drops]

def batchTells (batch : List KvEvent) : BlockHash → Option Bool := last KvEvent.tells batch

section Refine
variable {x : KVCacheAffinityIndex} {i : String} {h : BlockHash}

theorem mem_foldl_erase (hashes : List RawHash) (blocks : Blocks) :
    h ∈ hashes.foldl (fun blocks r => blocks.erase r.normalized) blocks ↔
      h ∉ hashes.map RawHash.normalized ∧ h ∈ blocks := by
  induction hashes generalizing blocks with
  | nil => simp
  | cons r hashes ih =>
    rw [List.foldl_cons, ih, Dict.mem_erase]
    simp only [List.map_cons, List.mem_cons]
    tauto

theorem mem_applyEvent (step : ℕ) (blocks : Blocks) (e : KvEvent) :
    decide (h ∈ applyEvent i step blocks e) = (e.tells h).getD (decide (h ∈ blocks)) := by
  cases e with
  | blockStored hashes tokenIds blockSize medium =>
    simp only [applyEvent, KvEvent.tells, Dict.mem_setAll, List.map_map, Function.comp_def]
    by_cases hin : h ∈ hashes.map RawHash.normalized
    · simp [hin]
    · simp [hin]
  | blockRemoved hashes =>
    simp only [applyEvent, KvEvent.tells, mem_foldl_erase]
    by_cases hin : h ∈ hashes.map RawHash.normalized
    · simp [hin]
    · simp [hin]
  | allBlocksCleared => simp [applyEvent, KvEvent.tells]
  | other name => rfl

theorem mem_foldl_applyEvent (step : ℕ) (blocks : Blocks) (events : List KvEvent) :
    decide (h ∈ events.foldl (applyEvent i step) blocks) =
      (batchTells events h).getD (decide (h ∈ blocks)) := by
  induction events generalizing blocks with
  | nil => rfl
  | cons e events ih =>
    rw [List.foldl_cons, ih, mem_applyEvent, batchTells, batchTells, last]
    cases last KvEvent.tells events h with
    | none => simp
    | some b => simp

theorem mem_blockHashes_receive (batches : List (List KvEvent)) :
    (fun h => decide (h ∈ (x.receive i batches).blockHashes i)) =
      batches.foldl (write batchTells) fun h => decide (h ∈ x.blockHashes i) := by
  unfold KVCacheAffinityIndex.receive
  induction batches generalizing x with
  | nil => rfl
  | cons batch batches ih =>
    rw [List.foldl_cons, List.foldl_cons, ih]
    congr 1
    funext h
    have hknown : (x.apply i batch).known i =
        batch.foldl (applyEvent i x.step) (x.known i) := by
      simp [KVCacheAffinityIndex.apply, KVCacheAffinityIndex.known, Dict.get?_set]
    simp only [KVCacheAffinityIndex.blockHashes, Dict.mem_keySet, hknown, write]
    exact mem_foldl_applyEvent x.step (x.known i) batch

/-- The calls for other instances do not matter, nor does where the events are cut. -/
theorem mem_blockHashes_applyAll (calls : List (String × List KvEvent)) :
    decide (h ∈ (x.applyAll calls).blockHashes i) =
      (last KvEvent.tells (eventsOf i calls) h).getD (decide (h ∈ x.blockHashes i)) := by
  unfold KVCacheAffinityIndex.applyAll
  induction calls generalizing x with
  | nil => rfl
  | cons call calls ih =>
    rw [List.foldl_cons, ih]
    by_cases hi : call.1 = i
    · have hknown : (x.apply call.1 call.2).known i =
          call.2.foldl (applyEvent i x.step) (x.known i) := by
        simp [KVCacheAffinityIndex.apply, KVCacheAffinityIndex.known, Dict.get?_set, hi]
      have hevents : eventsOf i (call :: calls) = call.2 ++ eventsOf i calls := by
        simp [eventsOf, hi]
      have hbatch := mem_foldl_applyEvent (i := i) (h := h) x.step (x.known i) call.2
      simp only [KVCacheAffinityIndex.blockHashes, Dict.mem_keySet, hknown, hevents, hbatch]
      rw [last_append]
      cases last KvEvent.tells (eventsOf i calls) h with
      | none => simp [batchTells]
      | some b => simp
    · have hknown : (x.apply call.1 call.2).known i = x.known i := by
        simp [KVCacheAffinityIndex.apply, KVCacheAffinityIndex.known, Dict.get?_set, Ne.symm hi]
      have hhashes : (x.apply call.1 call.2).blockHashes i = x.blockHashes i :=
        congrArg Dict.keySet hknown
      have hevents : eventsOf i (call :: calls) = eventsOf i calls := by
        simp [eventsOf, hi]
      rw [hhashes, hevents]

theorem blockHashes_eq_iff {y : KVCacheAffinityIndex} : x.blockHashes i = y.blockHashes i ↔
    (fun h => decide (h ∈ x.blockHashes i)) = fun h => decide (h ∈ y.blockHashes i) := by
  rw [Finset.ext_iff, funext_iff]
  simp

end Refine

/-- The replay brings the first two parts of a stream and the publisher the last two. The index ends
up as after the stream in every order of the threads if and only if the stream leaves every hash
as its replayed part does, if that touches it. -/
theorem replay_harmless_iff (x : KVCacheAffinityIndex) (i : String) (a b c : List (List KvEvent)) :
    (∀ received, Merge (replayBatches (replayed (a ++ b)))
        (runBatches (published a.length (b ++ c))) received →
        (x.receive i received).blockHashes i = (x.receive i (a ++ b ++ c)).blockHashes i) ↔
      Settled batchTells (a ++ b) (a ++ b ++ c) := by
  rw [replayBatches_replayed, runBatches_published,
    ← overlap_iff (fun h => decide (h ∈ x.blockHashes i))]
  refine forall_congr' fun received => forall_congr' fun _ => ?_
  rw [blockHashes_eq_iff, mem_blockHashes_receive, mem_blockHashes_receive]

/-- A hash is in the index for an instance if and only if one of the instance's own events stores it
and none after that drops it, however the events were cut into calls. -/
theorem blockHashes_lastWriter (i : String) (calls : List (String × List KvEvent)) :
    (∀ h, h ∈ (KVCacheAffinityIndex.applyAll {} calls).blockHashes i ↔
      ∃ before e after, eventsOf i calls = before ++ e :: after ∧ e.Stores h ∧
        ∀ f ∈ after, ¬f.Drops h) ∧
    ∀ calls', eventsOf i calls' = eventsOf i calls →
      (KVCacheAffinityIndex.applyAll {} calls').blockHashes i =
        (KVCacheAffinityIndex.applyAll {} calls).blockHashes i := by
  have hlast : ∀ calls h, h ∈ (KVCacheAffinityIndex.applyAll {} calls).blockHashes i ↔
      last KvEvent.tells (eventsOf i calls) h = some true := by
    intro calls h
    have hempty : h ∉ KVCacheAffinityIndex.blockHashes {} i := by
      simp [KVCacheAffinityIndex.blockHashes, KVCacheAffinityIndex.known]
    have htells := mem_blockHashes_applyAll (x := {}) (i := i) (h := h) calls
    rw [decide_eq_false hempty] at htells
    refine decide_eq_true_iff.symm.trans ?_
    rw [htells]
    cases last KvEvent.tells (eventsOf i calls) h <;> simp
  refine ⟨fun h => ?_, fun calls' heq => Finset.ext fun h => ?_⟩
  · rw [hlast, last_eq_some]
    refine exists_congr fun before => exists_congr fun e => exists_congr fun after =>
      and_congr_right' (and_congr tells_eq_true (forall₂_congr fun f _ => ?_))
    rw [← tells_eq_false]
    cases f.tells h with
    | none => simp
    | some b => cases b <;> simp
  · rw [hlast, hlast, heq]

section Sample

def sampleStored : List KvEvent := [.blockStored [.int 7] [1, 2] 2 none]

def sampleRemoved : List KvEvent := [.blockRemoved [.int 7]]

/-- A block that is stored, then removed; the replay of the first batch comes after the live second
one, and the block stays in the index. -/
theorem replay_resurrects_block :
    Merge (replayBatches (replayed [sampleStored])) (runBatches (published 1 [sampleRemoved]))
        [sampleRemoved, sampleStored] ∧
      (KVCacheAffinityIndex.receive {} "i" [sampleRemoved, sampleStored]).blockHashes "i" =
        {.int 7} ∧
      (KVCacheAffinityIndex.receive {} "i" [sampleStored, sampleRemoved]).blockHashes "i" = ∅ := by
  refine ⟨?_, by decide, by decide⟩
  exact .right _ (.left _ .nil)

end Sample

end Llumnix.Cache
