import Llumnix.Legacy.DataPlane
import Mathlib.Algebra.Order.Group.Nat

/-! Both backends copy the blocks, whatever the buffers held before and however the two workers take
their turns. -/
namespace Llumnix.Legacy.DataPlane

open Machine Machine.Link Python

variable {X : Type}

/-- Row `cacheIdx` of a buffer holds layer `layer` of the blocks. -/
def Holds (source : Cache X) (blocks : List ℕ) (layer cacheIdx : ℕ) (buffer : Buffer X) : Prop :=
  ∀ p ∈ blocks.zipIdx, ∀ half,
    buffer (cell blocks.length cacheIdx half p.2) = source (layer, half, p.1)

/-- The first layers of the second blocks are those of the first in the source, and the rest is as
before. -/
structure Copied (numLayers : ℕ) (source before after : Cache X) (pairs : List (ℕ × ℕ)) : Prop where
  copied : ∀ p ∈ pairs, ∀ layer < numLayers, ∀ half,
    after (layer, half, p.2) = source (layer, half, p.1)
  kept : ∀ layer half block, (layer < numLayers → block ∉ pairs.map Prod.snd) →
    after (layer, half, block) = before (layer, half, block)

section Rows
variable {source before : Cache X} {src dst blocks : List ℕ} {w : Worker X} {layer cacheIdx : ℕ}

theorem nodup_zipIdx (blocks : List ℕ) : (blocks.zipIdx.map Prod.snd).Nodup := by
  rw [List.zipIdx_map_snd]
  exact List.nodup_range'

theorem load_holds (w : Worker X) (blocks : List ℕ) (layer cacheIdx : ℕ) :
    Holds w.gpuCache blocks layer cacheIdx (w.load blocks layer cacheIdx).dummyCache := by
  intro p hp half
  simp only [Worker.load]
  refine swapBlocks_of_mem (nodup_zipIdx blocks) (fun p hp q hq half half' heq => ?_) hp half
  exact (cell_inj (List.snd_lt_of_mem_zipIdx hp) (List.snd_lt_of_mem_zipIdx hq) heq).2

theorem Holds.load {layer' cacheIdx' : ℕ} (h : Holds source blocks layer' cacheIdx' w.dummyCache)
    (hne : cacheIdx ≠ cacheIdx') :
    Holds source blocks layer' cacheIdx' (w.load blocks layer cacheIdx).dummyCache := by
  intro p hp half
  simp only [Worker.load]
  refine (swapBlocks_of_not_mem fun q hq half' heq => ?_).trans (h p hp half)
  exact hne (cell_inj (List.snd_lt_of_mem_zipIdx hq) (List.snd_lt_of_mem_zipIdx hp) heq).1

theorem Holds.fill {n m : ℕ} {message : Buffer X} (h : Holds source blocks layer cacheIdx message)
    (hn : n = blocks.length) (hm : cacheIdx < m) :
    Holds source blocks layer cacheIdx (w.fill n m message).dummyCache := by
  intro p hp half
  subst hn
  exact (if_pos (cell_lt half hm (List.snd_lt_of_mem_zipIdx hp))).trans (h p hp half)

theorem store_of_mem (hdst : dst.Nodup) {p : ℕ × ℕ} (hp : p ∈ dst.zipIdx) (half : Bool) :
    (w.store dst layer cacheIdx).gpuCache (layer, half, p.1) =
      w.dummyCache (cell dst.length cacheIdx half p.2) := by
  have hswap : p.swap ∈ dst.zipIdx.map Prod.swap := List.mem_map_of_mem hp
  simp only [Worker.store]
  refine swapBlocks_of_mem (p := p.swap) ?_ (fun _ _ _ _ _ _ heq => ?_) hswap half
  · rw [List.map_map]
    exact (List.zipIdx_map_fst 0 dst).symm ▸ hdst
  · simpa using heq

theorem store_of_not_mem {layer' block : ℕ} (h : layer' = layer → block ∉ dst) (half : Bool) :
    (w.store dst layer cacheIdx).gpuCache (layer', half, block) =
      w.gpuCache (layer', half, block) := by
  simp only [Worker.store]
  refine swapBlocks_of_not_mem fun p hp half' heq => ?_
  obtain ⟨q, hq, rfl⟩ := List.mem_map.mp hp
  simp only [Prod.snd_swap, Prod.mk.injEq] at heq
  exact h heq.1.symm (heq.2.2 ▸ List.fst_mem_of_mem_zipIdx hq)

theorem Copied.store (h : Copied layer source before w.gpuCache (src.zip dst))
    (hlen : src.length = dst.length) (hdst : dst.Nodup)
    (hholds : Holds source src layer cacheIdx w.dummyCache) :
    Copied (layer + 1) source before (w.store dst layer cacheIdx).gpuCache (src.zip dst) := by
  have hsnd : (src.zip dst).map Prod.snd = dst := List.map_snd_zip hlen.ge
  constructor
  · intro p hp l hl half
    rcases Nat.lt_succ_iff_lt_or_eq.mp hl with hlt | rfl
    · rw [store_of_not_mem (fun heq => absurd heq hlt.ne)]
      exact h.copied p hp l hlt half
    · obtain ⟨i, hi, rfl⟩ := List.mem_iff_getElem.mp hp
      have hisrc : i < src.length := by simpa using hi.trans_le (by simp)
      have hidst : i < dst.length := hlen ▸ hisrc
      rw [List.getElem_zip]
      have hd : (dst[i], i) ∈ dst.zipIdx := by simp [List.mk_mem_zipIdx_iff_getElem?]
      have hs : (src[i], i) ∈ src.zipIdx := by simp [List.mk_mem_zipIdx_iff_getElem?]
      rw [store_of_mem hdst hd half, ← hlen]
      exact hholds (src[i], i) hs half
  · intro l half block hblock
    rw [hsnd] at hblock
    have hstore : l = layer → block ∉ dst := fun heq => hblock (by omega)
    rw [store_of_not_mem hstore]
    exact h.kept l half block fun hl => hsnd.symm ▸ hblock (by omega)

theorem Copied.append {L : ℕ} {middle after : Cache X} {ps qs : List (ℕ × ℕ)}
    (hps : Copied L source before middle ps) (hqs : Copied L source middle after qs)
    (hdisjoint : ∀ b ∈ ps.map Prod.snd, b ∉ qs.map Prod.snd) :
    Copied L source before after (ps ++ qs) := by
  constructor
  · intro p hp l hl half
    rcases List.mem_append.mp hp with hp | hp
    · rw [hqs.kept l half p.2 fun _ => hdisjoint p.2 (List.mem_map_of_mem hp)]
      exact hps.copied p hp l hl half
    · exact hqs.copied p hp l hl half
  · intro l half block hblock
    rw [List.map_append] at hblock
    rw [hqs.kept l half block fun hl hmem => hblock hl (List.mem_append_right _ hmem)]
    exact hps.kept l half block fun hl hmem => hblock hl (List.mem_append_left _ hmem)

theorem copied_nil (L : ℕ) (source before : Cache X) : Copied L source before before [] :=
  ⟨nofun, fun _ _ _ _ => rfl⟩

theorem copied_zero (source before : Cache X) (pairs : List (ℕ × ℕ)) :
    Copied 0 source before before pairs :=
  ⟨fun _ _ _ hl => absurd hl (Nat.not_lt_zero _), fun _ _ _ _ => rfl⟩

end Rows

def pairs (chunks : List (List ℕ × List ℕ)) : List (ℕ × ℕ) := chunks.flatMap fun q => q.1.zip q.2

/-- Chunks that fit the buffer, with every block of the destination in one of them. -/
structure Apt (c : Config) (chunks : List (List ℕ × List ℕ)) : Prop where
  fits : ∀ q ∈ chunks, q.1.length = q.2.length ∧ q.1.length ≤ c.migrationBufferBlocks
  nodup : ((pairs chunks).map Prod.snd).Nodup

section Chunks
variable {c : Config} {q : List ℕ × List ℕ} {rest : List (List ℕ × List ℕ)} {src dst : List ℕ}

theorem Apt.tail (h : Apt c (q :: rest)) : Apt c rest where
  fits q' hq' := h.fits q' (List.mem_cons_of_mem q hq')
  nodup := by
    have hnodup := h.nodup
    rw [pairs, List.flatMap_cons, List.map_append] at hnodup
    exact hnodup.of_append_right

theorem Apt.head (h : Apt c (q :: rest)) : q.1.length = q.2.length ∧
    q.1.length ≤ c.migrationBufferBlocks ∧ q.2.Nodup := by
  obtain ⟨hlen, hfit⟩ := h.fits q List.mem_cons_self
  refine ⟨hlen, hfit, ?_⟩
  have hnodup := h.nodup
  rw [pairs, List.flatMap_cons, List.map_append, List.map_snd_zip hlen.ge] at hnodup
  exact hnodup.of_append_left

theorem Apt.disjoint (h : Apt c (q :: rest)) :
    ∀ b ∈ (q.1.zip q.2).map Prod.snd, b ∉ (pairs rest).map Prod.snd := by
  have hnodup := h.nodup
  rw [pairs, List.flatMap_cons, List.map_append] at hnodup
  exact fun b hb hrest => (List.nodup_append.mp hnodup).2.2 b hb b hrest rfl

theorem chunks_eq_zip {b : ℕ} (hlen : src.length = dst.length) :
    chunks b src dst = (slices b src.length src).zip (slices b dst.length dst) := by
  unfold chunks slices
  rw [← hlen, List.zip_map']
  refine List.map_congr_left fun k _ => ?_
  have htake : ∀ xs : List ℕ, xs.length = src.length →
      (xs.drop (k * b)).take (min b (src.length - k * b)) = (xs.drop (k * b)).take b := by
    intro xs hxs
    rw [← hxs, ← List.length_drop, ← List.take_eq_take_min]
  exact Prod.ext (htake src rfl) (htake dst hlen.symm)

theorem chunks_nil {b : ℕ} (hb : 0 < b) : chunks b [] [] = [] := by
  rw [chunks_eq_zip rfl, List.length_nil, slices_nil hb]
  rfl

theorem chunks_cons {b : ℕ} (hb : 0 < b) (hlen : src.length = dst.length) (hne : src ≠ []) :
    chunks b src dst = (src.take b, dst.take b) :: chunks b (src.drop b) (dst.drop b) := by
  have hdrop : (src.drop b).length = (dst.drop b).length := by simp [hlen]
  have hpos : 0 < src.length := List.length_pos_of_ne_nil hne
  have hsrc := slices_cons hb hpos src
  have hdst := slices_cons hb (hlen ▸ hpos) dst
  rw [chunks_eq_zip hlen, chunks_eq_zip hdrop, hsrc, hdst, List.length_drop, List.length_drop,
    List.zip_cons_cons]

theorem pairs_chunks {b : ℕ} (hb : 0 < b) (hlen : src.length = dst.length) :
    pairs (chunks b src dst) = src.zip dst ∧
      ∀ q ∈ chunks b src dst, q.1.length = q.2.length ∧ q.1.length ≤ b := by
  generalize hn : src.length = n
  induction n using Nat.strongRecOn generalizing src dst with
  | ind n ih =>
    by_cases hne : src = []
    · have hdst : dst = [] := List.length_eq_zero_iff.mp (by rw [← hlen, hne]; rfl)
      rw [hne, hdst, chunks_nil hb]
      exact ⟨rfl, nofun⟩
    · have hpos : 0 < src.length := List.length_pos_of_ne_nil hne
      have hdrop : (src.drop b).length = (dst.drop b).length := by simp [hlen]
      obtain ⟨hrest, hfits⟩ := ih (src.drop b).length (by rw [List.length_drop]; omega) hdrop rfl
      rw [chunks_cons hb hlen hne]
      refine ⟨?_, List.forall_mem_cons.mpr ⟨⟨by simp [hlen], by simp⟩, hfits⟩⟩
      change (src.take b).zip (dst.take b) ++ pairs (chunks b (src.drop b) (dst.drop b)) = _
      rw [hrest, ← List.zip_append (by simp [hlen]), List.take_append_drop, List.take_append_drop]

theorem apt_chunks (c : Config) (hlen : src.length = dst.length) (hdst : dst.Nodup) :
    Apt c (chunks c.migrationBufferBlocks src dst) := by
  obtain ⟨hpairs, hfits⟩ := pairs_chunks c.buffer_pos hlen
  refine ⟨hfits, ?_⟩
  rw [hpairs, List.map_snd_zip hlen.ge]
  exact hdst

end Chunks

namespace Rpc
variable {c : Config} {source : Cache X}

theorem loads_spec (w : Worker X) (blocks : List ℕ) (k : ℕ) :
    let ops : List (SendOp (Worker X) (Buffer X)) :=
      (List.range k).map fun layerIdx => .act (·.load blocks layerIdx layerIdx)
    messages ops w = [] ∧ (after ops w).gpuCache = w.gpuCache ∧
      ∀ l < k, Holds w.gpuCache blocks l l (after ops w).dummyCache := by
  induction k with
  | zero => exact ⟨rfl, rfl, fun l hl => absurd hl (Nat.not_lt_zero l)⟩
  | succ k ih =>
    obtain ⟨hms, hgpu, hholds⟩ := ih
    simp only [List.range_succ, List.map_append, messages_append, after_append, hms]
    refine ⟨rfl, hgpu, fun l hl => ?_⟩
    rcases Nat.lt_succ_iff_lt_or_eq.mp hl with hlt | rfl
    · exact (hholds l hlt).load hlt.ne'
    · have hload := load_holds (after ((List.range l).map fun layerIdx =>
        (.act (·.load blocks layerIdx layerIdx) : SendOp (Worker X) (Buffer X))) w) blocks l l
      rw [hgpu] at hload
      exact hload

theorem doSend_spec (w : Worker X) {blocks : List ℕ}
    (hfit : blocks.length ≤ c.migrationBufferBlocks) :
    ∃ message, messages (doSend c blocks) w = [message] ∧
      (after (doSend c blocks) w).gpuCache = w.gpuCache ∧
      ∀ l < c.numLayers, Holds w.gpuCache blocks l l message := by
  obtain ⟨hms, hgpu, hholds⟩ := loads_spec w blocks c.numLayers
  refine ⟨_, ?_, ?_, hholds⟩
  · rw [doSend, if_pos hfit, messages_append, hms]
    rfl
  · rw [doSend, if_pos hfit, after_append]
    exact hgpu

theorem stores_spec {src dst : List ℕ} (hlen : src.length = dst.length) (hdst : dst.Nodup)
    (d : Destination X) {L : ℕ} (hholds : ∀ l < L, Holds source src l l d.worker.dummyCache)
    (k : ℕ) (hk : k ≤ L) :
    ∃ w, Takes ((List.range k).map fun layerIdx =>
        (.act fun d => { d with worker := d.worker.store dst layerIdx layerIdx } :
          RecvOp (Worker X) (Buffer X) (Destination X))) [] d { d with worker := w } ∧
      w.dummyCache = d.worker.dummyCache ∧
      Copied k source d.worker.gpuCache w.gpuCache (src.zip dst) := by
  induction k with
  | zero => exact ⟨d.worker, takes_nil d, rfl, copied_zero _ _ _⟩
  | succ k ih =>
    obtain ⟨w, htakes, hdummy, hcopied⟩ := ih (by omega)
    refine ⟨w.store dst k k, ?_, hdummy, ?_⟩
    · rw [List.range_succ, List.map_append]
      exact htakes.append (takes_act _ _)
    · refine hcopied.store hlen hdst ?_
      rw [hdummy]
      exact hholds k hk

theorem doRecv_spec {src dst : List ℕ} (hlen : src.length = dst.length) (hdst : dst.Nodup)
    (hfit : src.length ≤ c.migrationBufferBlocks) {message : Buffer X}
    (hholds : ∀ l < c.numLayers, Holds source src l l message) (w : Worker X) :
    ∃ w', Takes (doRecv c dst) [] ⟨w, some message⟩ ⟨w', some message⟩ ∧
      Copied c.numLayers source w.gpuCache w'.gpuCache (src.zip dst) := by
  let filled := w.fill dst.length c.numLayers message
  obtain ⟨w', htakes, -, hcopied⟩ := stores_spec hlen hdst ⟨filled, some message⟩
    (fun l hl => (hholds l hl).fill hlen.symm hl) c.numLayers le_rfl
  refine ⟨w', ?_, hcopied⟩
  rw [doRecv, if_pos (hlen ▸ hfit)]
  exact (takes_act _ _).append htakes

/-- The chunk that has been fetched is written while the next one is on its way. -/
theorem migrateCache_spec {q : List ℕ × List ℕ} {rest : List (List ℕ × List ℕ)}
    (hapt : Apt c (q :: rest)) {a : Worker X} {message : Buffer X}
    (hholds : ∀ l < c.numLayers, Holds a.gpuCache q.1 l l message) (w : Worker X) :
    ∃ a' d, serve (migrateCache c (some q.2) rest) a [] ⟨w, some message⟩ = some (a', [], d) ∧
      a'.gpuCache = a.gpuCache ∧ Copied c.numLayers a.gpuCache w.gpuCache d.worker.gpuCache
        (pairs (q :: rest)) := by
  induction rest generalizing q a message w with
  | nil =>
    obtain ⟨hlen, hfit, hdst⟩ := hapt.head
    obtain ⟨w₁, htakes, hcopied⟩ := doRecv_spec hlen hdst hfit hholds w
    have hserve := htakes a [] []
    rw [List.append_nil] at hserve
    refine ⟨a, ⟨w₁, some message⟩, hserve, rfl, ?_⟩
    simpa [pairs] using hcopied
  | cons r rest ih =>
    obtain ⟨hlen, hfit, hdst⟩ := hapt.head
    obtain ⟨w₁, htakes, hcopied⟩ := doRecv_spec hlen hdst hfit hholds w
    obtain ⟨next, hms, hgpu, hnext⟩ := doSend_spec a hapt.tail.head.2.1
    rw [← hgpu] at hnext
    obtain ⟨a', d, hserve, ha', hrest⟩ := ih hapt.tail hnext w₁
    refine ⟨a', d, ?_, ha'.trans hgpu, ?_⟩
    · have hfirst := htakes (after (doSend c r.1) a)
        (.recv (fun message d => { d with rpcNumpyCache := some message }) ::
          migrateCache c (some r.2) rest) [next]
      change serve (doRecv c q.2 ++ _) (after (doSend c r.1) a)
        ([] ++ messages (doSend c r.1) a) _ = _
      rw [hms]
      exact hfirst.trans hserve
    · rw [hgpu] at hrest
      exact hcopied.append hrest hapt.disjoint

end Rpc

theorem Config.migrationNumLayers_pos (c : Config) : 0 < c.migrationNumLayers :=
  Nat.lt_min.mpr ⟨c.config_pos, c.numLayers_pos⟩

namespace Col
variable {c : Config} {source before : Cache X} {src dst blocks : List ℕ} {layer : ℕ}
  {ms : List (Buffer X)}

/-- The message for a layer is there, and holds it. -/
def Carried (c : Config) (source : Cache X) (blocks : List ℕ) (ms : List (Buffer X)) (layer : ℕ) :
    Prop :=
  ∃ message, ms[layer / c.migrationNumLayers]? = some message ∧
    Holds source blocks layer (layer % c.migrationNumLayers) message

/-- After the first layers of a chunk: each of them is sent, or in the buffer that is sent next. -/
structure Sent (c : Config) (source : Cache X) (blocks : List ℕ) (layer : ℕ)
    (ms : List (Buffer X)) (w : Worker X) : Prop where
  gpuCache : w.gpuCache = source
  count : ms.length = if layer < c.numLayers then layer / c.migrationNumLayers
    else (layer + c.migrationNumLayers - 1) / c.migrationNumLayers
  layers : ∀ l < layer, Carried c source blocks ms l ∨
    l / c.migrationNumLayers = ms.length ∧
      Holds source blocks l (l % c.migrationNumLayers) w.dummyCache

theorem carried_append {ms' : List (Buffer X)} (h : Carried c source blocks ms layer) :
    Carried c source blocks (ms ++ ms') layer := by
  obtain ⟨message, hmessage, hholds⟩ := h
  obtain ⟨hlt, -⟩ := List.getElem?_eq_some_iff.mp hmessage
  exact ⟨message, by rw [List.getElem?_append_left hlt, hmessage], hholds⟩

theorem dvd_succ_iff {m n : ℕ} (hm : 0 < m) : m ∣ n + 1 ↔ n % m + 1 = m := by
  have hlt := Nat.mod_lt n hm
  have hsplit : n + 1 = m * (n / m) + (n % m + 1) := by rw [← Nat.add_assoc, Nat.div_add_mod]
  rw [hsplit, Nat.dvd_add_right (Nat.dvd_mul_right m _)]
  refine ⟨fun h => ?_, fun h => h.symm ▸ Nat.dvd_refl m⟩
  have hle := Nat.le_of_dvd (Nat.succ_pos _) h
  omega

theorem after_sendLayer (w : Worker X) : after (sendLayer c blocks layer) w =
    w.load blocks layer (layer % c.migrationNumLayers) := by
  unfold sendLayer
  dsimp only
  split_ifs <;> rfl

theorem messages_sendLayer (w : Worker X) : messages (sendLayer c blocks layer) w =
    if layer % c.migrationNumLayers + 1 = c.migrationNumLayers ∨ layer + 1 = c.numLayers then
      [(w.load blocks layer (layer % c.migrationNumLayers)).dummyCache]
    else [] := by
  unfold sendLayer
  dsimp only
  split_ifs <;> rfl

/-- A layer more: those that wait in the buffer share its message and have other rows. -/
theorem Sent.step {w : Worker X} (h : Sent c source blocks layer ms w)
    (hlayer : layer < c.numLayers) :
    Sent c source blocks (layer + 1) (ms ++ messages (sendLayer c blocks layer) w)
      (after (sendLayer c blocks layer) w) := by
  have hm := c.migrationNumLayers_pos
  have hcount : ms.length = layer / c.migrationNumLayers := by rw [h.count, if_pos hlayer]
  let w' := w.load blocks layer (layer % c.migrationNumLayers)
  have hbuffer : ∀ l < layer + 1, Carried c source blocks ms l ∨
      l / c.migrationNumLayers = ms.length ∧
        Holds source blocks l (l % c.migrationNumLayers) w'.dummyCache := by
    intro l hl
    rcases Nat.lt_succ_iff_lt_or_eq.mp hl with hlt | rfl
    · refine (h.layers l hlt).imp id fun ⟨hdiv, hholds⟩ => ⟨hdiv, hholds.load fun hmod => ?_⟩
      have hl := Nat.div_add_mod l c.migrationNumLayers
      rw [hdiv, hcount, ← hmod, Nat.div_add_mod] at hl
      exact hlt.ne' hl
    · exact .inr ⟨hcount.symm, h.gpuCache ▸ load_holds w blocks l _⟩
  rw [after_sendLayer, messages_sendLayer]
  split_ifs with hsend
  · refine ⟨h.gpuCache, ?_, fun l hl => .inl ?_⟩
    · rw [List.length_append, hcount, List.length_singleton]
      split_ifs with hmore
      · have hfull := (dvd_succ_iff hm).mpr (hsend.resolve_right hmore.ne)
        exact (Nat.succ_div_of_dvd hfull).symm
      · rw [show layer + 1 + c.migrationNumLayers - 1 = layer + c.migrationNumLayers by omega,
          Nat.add_div_right _ hm]
    · rcases hbuffer l hl with hcarried | ⟨hdiv, hholds⟩
      · exact carried_append hcarried
      · refine ⟨w'.dummyCache, ?_, hholds⟩
        rw [hdiv, List.getElem?_concat_length]
  · obtain ⟨hfull, hlast⟩ := not_or.mp hsend
    rw [List.append_nil]
    refine ⟨h.gpuCache, ?_, hbuffer⟩
    have hopen : ¬c.migrationNumLayers ∣ layer + 1 := (dvd_succ_iff hm).not.mpr hfull
    rw [if_pos (by omega), Nat.succ_div_of_not_dvd hopen, hcount]

/-- The messages of a chunk carry all its layers. -/
theorem doSend_spec (w : Worker X) (hfit : blocks.length ≤ c.migrationBufferBlocks) :
    (messages (doSend c blocks) w).length =
        (c.numLayers + c.migrationNumLayers - 1) / c.migrationNumLayers ∧
      (after (doSend c blocks) w).gpuCache = w.gpuCache ∧
      ∀ l < c.numLayers, Carried c w.gpuCache blocks (messages (doSend c blocks) w) l := by
  have hsent : ∀ k ≤ c.numLayers, Sent c w.gpuCache blocks k
      (messages ((List.range k).flatMap (sendLayer c blocks)) w)
      (after ((List.range k).flatMap (sendLayer c blocks)) w) := by
    intro k hk
    induction k with
    | zero =>
      refine ⟨rfl, ?_, fun l hl => absurd hl (Nat.not_lt_zero l)⟩
      rw [if_pos c.numLayers_pos, Nat.zero_div]
      rfl
    | succ k ih =>
      rw [List.range_succ, List.flatMap_append, List.flatMap_singleton, messages_append,
        after_append]
      exact (ih (by omega)).step hk
  obtain ⟨hgpu, hcount, hlayers⟩ := hsent c.numLayers le_rfl
  rw [doSend, if_pos hfit]
  rw [if_neg (lt_irrefl _)] at hcount
  refine ⟨hcount, hgpu, fun l hl => (hlayers l hl).resolve_right fun ⟨hdiv, _⟩ => ?_⟩
  have hlt : l / c.migrationNumLayers <
      (c.numLayers + c.migrationNumLayers - 1) / c.migrationNumLayers := by
    have hm := c.migrationNumLayers_pos
    calc
      l / c.migrationNumLayers < l / c.migrationNumLayers + 1 := Nat.lt_succ_self _
      _ = (l + c.migrationNumLayers) / c.migrationNumLayers := (Nat.add_div_right _ hm).symm
      _ ≤ _ := Nat.div_le_div_right (by omega)
  exact absurd (hdiv.trans hcount) hlt.ne

/-- After the first layers of a chunk have been written: those of a message that is not used up are
in the buffer. -/
structure Received (c : Config) (source before : Cache X) (src dst : List ℕ)
    (ms : List (Buffer X)) (layer : ℕ) (w : Worker X) : Prop where
  copied : Copied layer source before w.gpuCache (src.zip dst)
  buffer : layer % c.migrationNumLayers ≠ 0 → ∀ l < c.numLayers,
    l / c.migrationNumLayers = layer / c.migrationNumLayers →
      Holds source src l (l % c.migrationNumLayers) w.dummyCache

theorem fetch_spec {w : Worker X} (hlen : src.length = dst.length)
    (hms : ∀ l < c.numLayers, Carried c source src ms l) (hlayer : layer < c.numLayers)
    (h : Received c source before src dst ms layer w) :
    ∃ w', Takes (if layer % c.migrationNumLayers = 0 then
          [(.recv (Worker.fill dst.length c.migrationNumLayers) :
            RecvOp (Worker X) (Buffer X) (Worker X))] else [])
        (if layer % c.migrationNumLayers = 0 then ms[layer / c.migrationNumLayers]?.toList else [])
        w w' ∧ w'.gpuCache = w.gpuCache ∧
      ∀ l < c.numLayers, l / c.migrationNumLayers = layer / c.migrationNumLayers →
        Holds source src l (l % c.migrationNumLayers) w'.dummyCache := by
  by_cases hfirst : layer % c.migrationNumLayers = 0
  · obtain ⟨message, hmessage, -⟩ := hms layer hlayer
    simp only [if_pos hfirst, hmessage, Option.toList_some]
    refine ⟨_, takes_recv _ message w, rfl, fun l hl hdiv => ?_⟩
    obtain ⟨message', hmessage', hholds⟩ := hms l hl
    rw [hdiv, hmessage] at hmessage'
    cases hmessage'
    exact hholds.fill hlen.symm (Nat.mod_lt l c.migrationNumLayers_pos)
  · simp only [if_neg hfirst]
    exact ⟨w, takes_nil w, rfl, h.buffer hfirst⟩

theorem Received.step {w : Worker X} (hlen : src.length = dst.length) (hdst : dst.Nodup)
    (hms : ∀ l < c.numLayers, Carried c source src ms l) (hlayer : layer < c.numLayers)
    (h : Received c source before src dst ms layer w) :
    ∃ w', Takes (recvLayer c dst layer)
        (if layer % c.migrationNumLayers = 0 then ms[layer / c.migrationNumLayers]?.toList else [])
        w w' ∧ Received c source before src dst ms (layer + 1) w' := by
  obtain ⟨w', htakes, hgpu, hholds⟩ := fetch_spec hlen hms hlayer h
  refine ⟨w'.store dst layer (layer % c.migrationNumLayers), ?_, ?_, fun hmod l hl hdiv => ?_⟩
  · have happend := htakes.append
      (takes_act (·.store dst layer (layer % c.migrationNumLayers)) w')
    rw [List.append_nil] at happend
    exact happend
  · have hcopied := h.copied
    rw [← hgpu] at hcopied
    exact hcopied.store hlen hdst (hholds layer hlayer rfl)
  · have hndvd : ¬c.migrationNumLayers ∣ layer + 1 := fun hdvd =>
      hmod (Nat.mod_eq_zero_of_dvd hdvd)
    rw [Nat.succ_div_of_not_dvd hndvd] at hdiv
    exact hholds l hl hdiv

theorem take_layers {m : ℕ} (hm : 0 < m) (ms : List (Buffer X)) (k : ℕ) :
    ms.take ((k + m - 1) / m) ++ (if k % m = 0 then ms[k / m]?.toList else []) =
      ms.take ((k + 1 + m - 1) / m) := by
  have hnext : (k + 1 + m - 1) / m = k / m + 1 := by
    rw [show k + 1 + m - 1 = k + m by omega, Nat.add_div_right _ hm]
  have hthis : (k + m - 1) / m = if k % m = 0 then k / m else k / m + 1 := by
    cases k with
    | zero => simp [Nat.div_eq_of_lt (show m - 1 < m by omega)]
    | succ k =>
      rw [show k + 1 + m - 1 = k + m by omega, Nat.add_div_right _ hm]
      split_ifs with hmod
      · exact (Nat.succ_div_of_dvd (Nat.dvd_of_mod_eq_zero hmod)).symm
      · rw [Nat.succ_div_of_not_dvd fun hdvd => hmod (Nat.mod_eq_zero_of_dvd hdvd)]
  rw [hnext, hthis]
  split_ifs with hmod
  · exact List.take_add_one.symm
  · exact List.append_nil _

/-- A chunk that is sent is received and written. -/
theorem doRecv_spec (hlen : src.length = dst.length) (hdst : dst.Nodup)
    (hfit : src.length ≤ c.migrationBufferBlocks)
    (hcount : ms.length = (c.numLayers + c.migrationNumLayers - 1) / c.migrationNumLayers)
    (hms : ∀ l < c.numLayers, Carried c source src ms l) (w : Worker X) :
    ∃ w', Takes (doRecv c dst) ms w w' ∧
      Copied c.numLayers source w.gpuCache w'.gpuCache (src.zip dst) := by
  have hlayers : ∀ k ≤ c.numLayers, ∃ w', Takes ((List.range k).flatMap (recvLayer c dst))
      (ms.take ((k + c.migrationNumLayers - 1) / c.migrationNumLayers)) w w' ∧
      Received c source w.gpuCache src dst ms k w' := by
    intro k hk
    induction k with
    | zero =>
      have hm := c.migrationNumLayers_pos
      have hzero : (0 + c.migrationNumLayers - 1) / c.migrationNumLayers = 0 :=
        Nat.div_eq_of_lt (by omega)
      rw [hzero]
      exact ⟨w, takes_nil w, copied_zero _ _ _, fun h => absurd (Nat.zero_mod _) h⟩
    | succ k ih =>
      obtain ⟨w₁, htakes, hreceived⟩ := ih (by omega)
      obtain ⟨w₂, hnext, hreceived₂⟩ := hreceived.step hlen hdst hms hk
      refine ⟨w₂, ?_, hreceived₂⟩
      rw [List.range_succ, List.flatMap_append, List.flatMap_singleton,
        ← take_layers c.migrationNumLayers_pos]
      exact htakes.append hnext
  obtain ⟨w', htakes, hreceived⟩ := hlayers c.numLayers le_rfl
  rw [← hcount, List.take_length] at htakes
  refine ⟨w', ?_, hreceived.copied⟩
  rw [doRecv, if_pos (hlen ▸ hfit)]
  exact htakes

theorem migrateCache_spec {chunks : List (List ℕ × List ℕ)} (hapt : Apt c chunks) (a w : Worker X) :
    ∃ a' w', serve (migrateCache c chunks) a [] w = some (a', [], w') ∧
      a'.gpuCache = a.gpuCache ∧
      Copied c.numLayers a.gpuCache w.gpuCache w'.gpuCache (pairs chunks) := by
  induction chunks generalizing a w with
  | nil => exact ⟨a, w, rfl, rfl, copied_nil _ _ _⟩
  | cons q rest ih =>
    obtain ⟨hlen, hfit, hdst⟩ := hapt.head
    obtain ⟨hcount, hgpu, hms⟩ := doSend_spec a hfit
    obtain ⟨w₁, htakes, hcopied⟩ := doRecv_spec hlen hdst hfit hcount hms w
    obtain ⟨a', w', hserve, ha', hrest⟩ := ih hapt.tail (after (doSend c q.1) a) w₁
    refine ⟨a', w', ?_, ha'.trans hgpu, ?_⟩
    · have hfirst := htakes (after (doSend c q.1) a) (migrateCache c rest) []
      rw [List.append_nil] at hfirst
      exact hfirst.trans hserve
    · rw [hgpu] at hrest
      exact hcopied.append hrest hapt.disjoint

end Col

/-- Both workers are done, nothing is left in the channel, the source is as it was and the blocks
are copied. -/
structure Delivered {τ : Type} (c : Config) (source destination : Worker X)
    (srcBlocks dstBlocks : List ℕ) (worker : τ → Worker X) (s : Link (Worker X) (Buffer X) τ) :
    Prop where
  pending : s.pending = []
  queue : s.queue = []
  rest : s.rest = []
  unchanged : s.sender.gpuCache = source.gpuCache
  copied : Copied c.numLayers source.gpuCache destination.gpuCache (worker s.receiver).gpuCache
    (srcBlocks.zip dstBlocks)

theorem Rpc.outcome_start (c : Config) {srcBlocks dstBlocks : List ℕ} (hne : srcBlocks ≠ [])
    (hlen : srcBlocks.length = dstBlocks.length) (hdst : dstBlocks.Nodup)
    (source destination : Worker X) :
    ∃ a d, (start c source destination srcBlocks dstBlocks).outcome = some (a, [], d) ∧
      a.gpuCache = source.gpuCache ∧ Copied c.numLayers source.gpuCache destination.gpuCache
        d.worker.gpuCache (srcBlocks.zip dstBlocks) := by
  have hapt := apt_chunks c hlen hdst
  have hpairs := (pairs_chunks c.buffer_pos hlen).1
  rw [chunks_cons c.buffer_pos hlen hne] at hapt hpairs
  obtain ⟨message, hms, hgpu, hholds⟩ := doSend_spec source hapt.head.2.1
  rw [← hgpu] at hholds
  obtain ⟨a, d, hserve, ha, hcopied⟩ := migrateCache_spec hapt hholds destination
  refine ⟨a, d, ?_, ha.trans hgpu, ?_⟩
  · simp only [outcome, start, chunks_cons c.buffer_pos hlen hne]
    change serve (.recv _ :: _) _ ([] ++ messages (doSend c _) source) _ = _
    rw [hms]
    exact hserve
  · rw [hgpu, hpairs] at hcopied
    exact hcopied

/-- Whatever the turns that the two workers take and however far the source may run ahead, either
backend comes to an end, with the blocks copied. -/
theorem migrate_cache_copies (c : Config) {srcBlocks dstBlocks : List ℕ} (hne : srcBlocks ≠ [])
    (hlen : srcBlocks.length = dstBlocks.length) (hdst : dstBlocks.Nodup) (ahead : ℕ)
    (source destination : Worker X) :
    Completes (Step ahead)
        (Delivered c source destination srcBlocks dstBlocks Rpc.Destination.worker)
        (Rpc.start c source destination srcBlocks dstBlocks) ∧
      Completes (Step ahead) (Delivered c source destination srcBlocks dstBlocks id)
        (Col.start c source destination srcBlocks dstBlocks) := by
  constructor
  · obtain ⟨a, d, houtcome, ha, hcopied⟩ :=
      Rpc.outcome_start c hne hlen hdst source destination
    refine (completes houtcome).mono ?_
    rintro s rfl
    exact ⟨rfl, rfl, rfl, ha, hcopied⟩
  · obtain ⟨a, w, houtcome, ha, hcopied⟩ :=
      Col.migrateCache_spec (apt_chunks c hlen hdst) source destination
    rw [(pairs_chunks c.buffer_pos hlen).1] at hcopied
    refine (completes (s := Col.start c source destination srcBlocks dstBlocks) houtcome).mono ?_
    rintro s rfl
    exact ⟨rfl, rfl, rfl, ha, hcopied⟩

/-- Three layers in messages of two, three blocks in chunks of two. -/
def sampleConfig : Config where
  numLayers := 3
  migrationBufferBlocks := 2
  configNumLayers := 2
  numLayers_pos := by decide
  buffer_pos := by decide
  config_pos := by decide

def sampleWorker (n : ℕ) : Worker ℕ := ⟨fun p => n + 10 * p.1 + p.2.2, fun _ => 0⟩

theorem migrate_cache_copies_sample :
    Completes (Step 0)
        (Delivered sampleConfig (sampleWorker 0) (sampleWorker 100) [4, 5, 6] [6, 5, 4]
          Rpc.Destination.worker)
        (Rpc.start sampleConfig (sampleWorker 0) (sampleWorker 100) [4, 5, 6] [6, 5, 4]) ∧
      Completes (Step 0)
        (Delivered sampleConfig (sampleWorker 0) (sampleWorker 100) [4, 5, 6] [6, 5, 4] id)
        (Col.start sampleConfig (sampleWorker 0) (sampleWorker 100) [4, 5, 6] [6, 5, 4]) :=
  @migrate_cache_copies ℕ sampleConfig [4, 5, 6] [6, 5, 4] (by decide) rfl (by decide) 0
    (sampleWorker 0) (sampleWorker 100)

end Llumnix.Legacy.DataPlane
