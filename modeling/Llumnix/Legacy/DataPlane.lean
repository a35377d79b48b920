import Llumnix.Machine.Link
import Llumnix.Python.Slices
import Mathlib.Data.List.Nodup
import Mathlib.Data.List.Zip
import Mathlib.Logic.Function.Basic

/-! The two backends that move the blocks of a legacy migration: the destination asks the source for
one chunk of blocks after the other, and writes each into its own cache. -/
namespace Llumnix.Legacy.DataPlane

open Machine Python

/-- A cell of a GPU cache: the layer, the key or the value half of it, the block. -/
abbrev Cell := ℕ × Bool × ℕ

abbrev Cache (X : Type) := Cell → X

/-- The cells of `dummy_cache`, or of a part of it that is sent, one after the other. -/
abbrev Buffer (X : Type) := ℕ → X

/-- What a worker moves blocks with. -/
structure Worker (X : Type) where
  gpuCache : Cache X
  dummyCache : Buffer X

/-- The configuration of both workers, with `migration_config.migration_num_layers` as it is set. -/
structure Config where
  numLayers : ℕ
  migrationBufferBlocks : ℕ
  configNumLayers : ℕ
  numLayers_pos : 0 < numLayers
  buffer_pos : 0 < migrationBufferBlocks
  config_pos : 0 < configNumLayers

/-- `migration_num_layers` of the collective backend. -/
def Config.migrationNumLayers (c : Config) : ℕ := min c.configNumLayers c.numLayers

section Copy
variable {A X : Type} [DecidableEq A]

def assign (ws : List (A × X)) (mem : A → X) : A → X :=
  ws.foldl (fun mem w => Function.update mem w.1 w.2) mem

/-- `swap_blocks(src, dst, mapping)`: the keys, then the values. -/
def swapBlocks (src : Bool → ℕ → X) (dst : Bool → ℕ → A) (mapping : List (ℕ × ℕ)) (mem : A → X) :
    A → X :=
  assign ([false, true].flatMap fun half => mapping.map fun p => (dst half p.2, src half p.1)) mem

theorem assign_of_not_mem {ws : List (A × X)} {mem : A → X} {a : A} (h : ∀ w ∈ ws, w.1 ≠ a) :
    assign ws mem a = mem a := by
  induction ws generalizing mem with
  | nil => rfl
  | cons w ws ih =>
    obtain ⟨hw, hws⟩ := List.forall_mem_cons.mp h
    exact (ih hws).trans (Function.update_of_ne (Ne.symm hw) w.2 mem)

theorem assign_of_mem {ws : List (A × X)} {mem : A → X} {a : A} {x : X} (hmem : (a, x) ∈ ws)
    (hsame : ∀ w ∈ ws, w.1 = a → w.2 = x) : assign ws mem a = x := by
  induction ws generalizing mem with
  | nil => cases hmem
  | cons w ws ih =>
    obtain ⟨hw, hws⟩ := List.forall_mem_cons.mp hsame
    by_cases hlater : ∃ y, (a, y) ∈ ws
    · obtain ⟨y, hy⟩ := hlater
      have hyx : y = x := hws (a, y) hy rfl
      exact ih (hyx ▸ hy) hws
    · have hhead : w = (a, x) := by
        rcases List.mem_cons.mp hmem with heq | htail
        · exact heq.symm
        · exact absurd ⟨x, htail⟩ hlater
      have hrest : ∀ v ∈ ws, v.1 ≠ a := fun v hv heq => hlater ⟨v.2, heq ▸ hv⟩
      rw [hhead]
      exact (assign_of_not_mem hrest).trans (Function.update_self a x mem)

variable {src : Bool → ℕ → X} {dst : Bool → ℕ → A} {mapping : List (ℕ × ℕ)} {mem : A → X}

omit [DecidableEq A] in
theorem mem_writes {w : A × X} :
    (w ∈ [false, true].flatMap fun half => mapping.map fun p => (dst half p.2, src half p.1)) ↔
      ∃ half, ∃ p ∈ mapping, w = (dst half p.2, src half p.1) := by
  simp only [List.mem_flatMap, List.mem_map, eq_comm (a := w)]
  constructor
  · rintro ⟨half, -, h⟩
    exact ⟨half, h⟩
  · rintro ⟨half, h⟩
    exact ⟨half, by cases half <;> simp, h⟩

theorem swapBlocks_of_mem (hnodup : (mapping.map Prod.snd).Nodup)
    (hinj : ∀ p ∈ mapping, ∀ q ∈ mapping, ∀ half half', dst half p.2 = dst half' q.2 →
      half = half' ∧ p.2 = q.2)
    {p : ℕ × ℕ} (hp : p ∈ mapping) (half : Bool) :
    swapBlocks src dst mapping mem (dst half p.2) = src half p.1 := by
  refine assign_of_mem (mem_writes.mpr ⟨half, p, hp, rfl⟩) fun w hw heq => ?_
  obtain ⟨half', q, hq, rfl⟩ := mem_writes.mp hw
  obtain ⟨rfl, hdst⟩ := hinj q hq p hp half' half heq
  rw [List.inj_on_of_nodup_map hnodup hq hp hdst]

theorem swapBlocks_of_not_mem {a : A} (h : ∀ p ∈ mapping, ∀ half, dst half p.2 ≠ a) :
    swapBlocks src dst mapping mem a = mem a := by
  refine assign_of_not_mem fun w hw => ?_
  obtain ⟨half, p, hp, rfl⟩ := mem_writes.mp hw
  exact h p hp half

end Copy

/-- Where `dummy_cache[:n].view(_, 2, n, _)` has a block. -/
def cell (n cacheIdx : ℕ) (half : Bool) (idx : ℕ) : ℕ := (cacheIdx * 2 + half.toNat) * n + idx

theorem cell_lt {n m cacheIdx idx : ℕ} (half : Bool) (hc : cacheIdx < m) (hidx : idx < n) :
    cell n cacheIdx half idx < m * 2 * n := by
  have hrow : cacheIdx * 2 + half.toNat + 1 ≤ m * 2 := by cases half <;> simp <;> omega
  calc
    cell n cacheIdx half idx < (cacheIdx * 2 + half.toNat + 1) * n := by
      rw [cell, Nat.succ_mul]
      omega
    _ ≤ m * 2 * n := Nat.mul_le_mul_right n hrow

theorem cell_inj {n c c' idx idx' : ℕ} {half half' : Bool} (hidx : idx < n) (hidx' : idx' < n)
    (h : cell n c half idx = cell n c' half' idx') : c = c' ∧ half = half' ∧ idx = idx' := by
  have hn : 0 < n := by omega
  have hrow : c * 2 + half.toNat = c' * 2 + half'.toNat := by
    have hdiv := congrArg (· / n) h
    simpa only [cell, Nat.mul_comm _ n, Nat.mul_add_div hn, Nat.div_eq_of_lt hidx,
      Nat.div_eq_of_lt hidx', Nat.add_zero] using hdiv
  have hcol : idx = idx' := by
    rw [cell, cell, hrow] at h
    omega
  cases half <;> cases half' <;> simp at hrow ⊢ <;> omega

namespace Worker
variable {X : Type}

/-- Layer `layer` of the blocks into the row `cacheIdx` of the buffer. -/
def load (blocks : List ℕ) (layer cacheIdx : ℕ) (w : Worker X) : Worker X where
  gpuCache := w.gpuCache
  dummyCache := swapBlocks (fun half block => w.gpuCache (layer, half, block))
    (cell blocks.length cacheIdx) blocks.zipIdx w.dummyCache

def store (blocks : List ℕ) (layer cacheIdx : ℕ) (w : Worker X) : Worker X where
  gpuCache := swapBlocks (fun half idx => w.dummyCache (cell blocks.length cacheIdx half idx))
    (fun half block => (layer, half, block)) (blocks.zipIdx.map Prod.swap) w.gpuCache
  dummyCache := w.dummyCache

/-- The part of the buffer that holds `n` blocks of `m` layers is overwritten. -/
def fill (n m : ℕ) (message : Buffer X) (w : Worker X) : Worker X :=
  { w with dummyCache := fun p => if p < m * 2 * n then message p else w.dummyCache p }

end Worker

/-- `(src_blocks[start_idx:start_idx+offset], dst_blocks[start_idx:start_idx+offset])` for
`start_idx in range(0, tot_blocks, self.num_migration_buffer_blocks)`. -/
def chunks (bufferBlocks : ℕ) (srcBlocks dstBlocks : List ℕ) : List (List ℕ × List ℕ) :=
  let totBlocks := srcBlocks.length
  (List.range ((totBlocks + bufferBlocks - 1) / bufferBlocks)).map fun k =>
    let startIdx := k * bufferBlocks
    let offset := min bufferBlocks (totBlocks - startIdx)
    ((srcBlocks.drop startIdx).take offset, (dstBlocks.drop startIdx).take offset)

namespace Rpc
variable {X : Type}

/-- The destination, with the result of `ray.get`. -/
structure Destination (X : Type) where
  worker : Worker X
  rpcNumpyCache : Option (Buffer X) := none

/-- The view of the buffer raises if the blocks do not fit. -/
def doSend (c : Config) (blocks : List ℕ) : List (SendOp (Worker X) (Buffer X)) :=
  if blocks.length ≤ c.migrationBufferBlocks then
    (List.range c.numLayers).map (fun layerIdx => .act (·.load blocks layerIdx layerIdx)) ++
      [.send (·.dummyCache)]
  else []

def doRecv (c : Config) (blocks : List ℕ) :
    List (RecvOp (Worker X) (Buffer X) (Destination X)) :=
  if blocks.length ≤ c.migrationBufferBlocks then
    .act (fun d => { d with worker := (d.rpcNumpyCache.map fun message =>
      d.worker.fill blocks.length c.numLayers message).getD d.worker }) ::
    (List.range c.numLayers).map fun layerIdx =>
      .act fun d => { d with worker := d.worker.store blocks layerIdx layerIdx }
  else []

/-- `recvBlocks` are the blocks of the chunk that has been fetched and not written. -/
def migrateCache (c : Config) (recvBlocks : Option (List ℕ)) :
    List (List ℕ × List ℕ) → List (RecvOp (Worker X) (Buffer X) (Destination X))
  | [] => (recvBlocks.map (doRecv c)).getD []
  | (send, recv) :: rest =>
    .issue (doSend c send) :: (recvBlocks.map (doRecv c)).getD [] ++
      .recv (fun message d => { d with rpcNumpyCache := some message }) ::
        migrateCache c (some recv) rest

def start (c : Config) (source destination : Worker X) (srcBlocks dstBlocks : List ℕ) :
    Link (Worker X) (Buffer X) (Destination X) where
  pending := []
  sender := source
  queue := []
  rest := migrateCache c none (chunks c.migrationBufferBlocks srcBlocks dstBlocks)
  receiver := { worker := destination }

end Rpc

namespace Col
variable {X : Type}

/-- A layer into its row, and the buffer on its way when it is full or the last. -/
def sendLayer (c : Config) (blocks : List ℕ) (layerIdx : ℕ) :
    List (SendOp (Worker X) (Buffer X)) :=
  let cacheIdx := layerIdx % c.migrationNumLayers
  .act (·.load blocks layerIdx cacheIdx) ::
    if cacheIdx + 1 = c.migrationNumLayers ∨ layerIdx + 1 = c.numLayers then
      [.send (·.dummyCache)]
    else []

def doSend (c : Config) (blocks : List ℕ) : List (SendOp (Worker X) (Buffer X)) :=
  if blocks.length ≤ c.migrationBufferBlocks then
    (List.range c.numLayers).flatMap (sendLayer c blocks)
  else []

def recvLayer (c : Config) (blocks : List ℕ) (layerIdx : ℕ) :
    List (RecvOp (Worker X) (Buffer X) (Worker X)) :=
  let cacheIdx := layerIdx % c.migrationNumLayers
  (if cacheIdx = 0 then [.recv (Worker.fill blocks.length c.migrationNumLayers)] else []) ++
    [.act (·.store blocks layerIdx cacheIdx)]

def doRecv (c : Config) (blocks : List ℕ) : List (RecvOp (Worker X) (Buffer X) (Worker X)) :=
  if blocks.length ≤ c.migrationBufferBlocks then
    (List.range c.numLayers).flatMap (recvLayer c blocks)
  else []

def migrateCache (c : Config) :
    List (List ℕ × List ℕ) → List (RecvOp (Worker X) (Buffer X) (Worker X))
  | [] => []
  | (send, recv) :: rest => .issue (doSend c send) :: doRecv c recv ++ migrateCache c rest

def start (c : Config) (source destination : Worker X) (srcBlocks dstBlocks : List ℕ) :
    Link (Worker X) (Buffer X) (Worker X) where
  pending := []
  sender := source
  queue := []
  rest := migrateCache c (chunks c.migrationBufferBlocks srcBlocks dstBlocks)
  receiver := destination

end Col

end Llumnix.Legacy.DataPlane
