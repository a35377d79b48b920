import Llumnix.Python.Dict
import Llumnix.Python.Grouped
import Llumnix.Python.Raise
import Mathlib.Data.List.Sort
import Mathlib.Data.Prod.Lex
import Mathlib.Data.Rat.Init
import Mathlib.Data.String.Basic

/-! `LlumnixRayGPUExecutor._init_workers_ray`: the workers that Ray has placed get their ranks, the
ranks on their nodes and the devices that they see. -/
namespace Llumnix.Legacy.Ranks

open Python

/-- What `get_node_ip` and `get_node_and_gpu_ids` answer for a worker. -/
structure RayWorker where
  ip : String
  nodeId : String
  gpuIds : List ℕ
  deriving DecidableEq, Repr

/-- A bundle of the placement group with the worker that is created in it. -/
structure Bundle where
  gpu : ℚ
  worker : RayWorker

inductive Exc
  | exception (message : String)
  | valueError (message : String)
  | runtimeError (nodeIds : List String) (allIps : Finset String)

structure ParallelConfig where
  tensorParallelSize : ℕ
  pipelineParallelSize : ℕ

structure Executor where
  driverDummyWorker : Option RayWorker
  workers : List RayWorker
  nodeWorkers : Dict String (List ℕ)
  nodeGpus : Dict String (List ℕ)
  initIp : String

def noGpus : Exc := .exception "GPU resource cannot be 0."

def noDriver : Exc := .valueError ("Ray does not allocate any GPUs on the driver node. Consider " ++
  "adjusting the Ray placement group or running the driver on a GPU node.")

/-- The driver's own worker, and the remaining ones. -/
def createWorkers (useRaySpmdWorker : Bool) (driverIp : String) :
    Option RayWorker × List RayWorker → List Bundle →
      Except Exc (Option RayWorker × List RayWorker)
  | acc, [] => .ok acc
  | (driver, workers), b :: bundles =>
    if b.gpu = 0 then .error noGpus
    else if useRaySpmdWorker = false ∧ b.worker.ip = driverIp ∧ driver = none then
      createWorkers useRaySpmdWorker driverIp (some b.worker, workers) bundles
    else createWorkers useRaySpmdWorker driverIp (driver, workers ++ [b.worker]) bundles

/-- `sort_by_driver_then_worker_ip`. -/
def sortKey (driverIp : String) (workers : List RayWorker) (w : RayWorker) : Bool ×ₗ ℕ ×ₗ String :=
  toLex (w.ip ≠ driverIp, toLex (workers.countP (·.ip = w.ip), w.ip))

def sortWorkers (driverIp : String) (workers : List RayWorker) : List RayWorker :=
  workers.insertionSort fun a b => sortKey driverIp workers a ≤ sortKey driverIp workers b

/-- `defaultdict(list)` with `d[k].extend(vs)`. -/
def extend (d : Dict String (List ℕ)) (e : String × List ℕ) : Dict String (List ℕ) :=
  d.set e.1 ((d.get? e.1).getD [] ++ e.2)

/-- `worker_node_and_gpu_ids`: the driver's worker answers first. -/
def ranked (driver : Option RayWorker) (workers : List RayWorker) : List RayWorker :=
  driver.toList ++ workers

def initWorkersRay (useRaySpmdWorker : Bool) (driverIp : String) (bundles : List Bundle) :
    Except Exc Executor := do
  let (driver, workers) ← createWorkers useRaySpmdWorker driverIp (none, []) bundles
  let allIps := insert driverIp (workers.map RayWorker.ip).toFinset
  let workers := sortWorkers driverIp workers
  let answers := ranked driver workers
  let nodeWorkers := (answers.zipIdx.map fun e => (e.1.nodeId, [e.2])).foldl extend Dict.empty
  let nodeGpus := (answers.map fun w => (w.nodeId, w.gpuIds)).foldl extend Dict.empty
  if useRaySpmdWorker = false ∧ driver = none then .error noDriver
  else if nodeWorkers.keys.length ≠ allIps.card then
    .error (.runtimeError nodeWorkers.keys allIps)
  else
    .ok {
      driverDummyWorker := driver
      workers
      nodeWorkers
      nodeGpus
      initIp := if nodeGpus.keys.length = 1 then "127.0.0.1" else driverIp }

namespace Executor

def ranked (e : Executor) : List RayWorker := Ranks.ranked e.driverDummyWorker e.workers

/-- `node_workers[node_id].index(rank)`. -/
def localRank (e : Executor) (rank : ℕ) (w : RayWorker) : ℕ :=
  ((e.nodeWorkers.get? w.nodeId).getD []).idxOf rank

/-- `CUDA_VISIBLE_DEVICES`, which is the same for all workers of a node. -/
def cudaVisibleDevices (e : Executor) (w : RayWorker) : List ℕ :=
  ((e.nodeGpus.get? w.nodeId).getD []).insertionSort (· ≤ ·)

/-- The device that `init_device` chooses: the one at the local rank among the visible ones. -/
def device (e : Executor) (rank : ℕ) (w : RayWorker) : Option ℕ :=
  (e.cudaVisibleDevices w)[e.localRank rank w]?

end Executor

/-! ### Tables by node -/

section Extend
variable {es : List (String × List ℕ)} {d : Dict String (List ℕ)} {k : String}

theorem mem_foldl_extend : k ∈ es.foldl extend d ↔ k ∈ es.map Prod.fst ∨ k ∈ d := by
  induction es generalizing d with
  | nil => simp
  | cons e es ih =>
    rw [List.foldl_cons, ih, extend, Dict.mem_set, List.map_cons, List.mem_cons]
    tauto

theorem getD_foldl_extend : ((es.foldl extend d).get? k).getD [] =
    (d.get? k).getD [] ++ (es.filter (·.1 = k)).flatMap Prod.snd := by
  induction es generalizing d with
  | nil => simp
  | cons e es ih =>
    rw [List.foldl_cons, ih, extend, Dict.get?_set]
    by_cases hk : e.1 = k
    · simp [hk]
    · simp [hk, Ne.symm hk]

theorem length_keys_foldl_extend : (es.foldl extend Dict.empty).keys.length =
    (es.map Prod.fst).toFinset.card := by
  have hset : (es.foldl extend Dict.empty).keySet = (es.map Prod.fst).toFinset := by
    ext k
    simp [mem_foldl_extend]
  rw [← hset]
  rfl

end Extend

/-- Of two quantities one of which determines the other, equally many values occur if and only if
the other one determines the first. -/
theorem card_image_eq_iff {α β γ : Type} [DecidableEq β] [DecidableEq γ] {W : Finset α}
    {g : α → β} {h : α → γ} (hd : ∀ a ∈ W, ∀ b ∈ W, g a = g b → h a = h b) :
    (W.image g).card = (W.image h).card ↔ ∀ a ∈ W, ∀ b ∈ W, h a = h b → g a = g b := by
  let pairs := W.image fun a => (g a, h a)
  have hfst : pairs.image Prod.fst = W.image g := by rw [Finset.image_image]; rfl
  have hsnd : pairs.image Prod.snd = W.image h := by rw [Finset.image_image]; rfl
  have hpair : ∀ {p}, p ∈ pairs ↔ ∃ a ∈ W, (g a, h a) = p := Finset.mem_image
  have hcard : (W.image g).card = pairs.card := by
    rw [← hfst, Finset.card_image_iff]
    intro p hp q hq heq
    obtain ⟨a, ha, rfl⟩ := hpair.mp hp
    obtain ⟨b, hb, rfl⟩ := hpair.mp hq
    exact Prod.ext heq (hd a ha b hb heq)
  rw [hcard, ← hsnd, eq_comm, Finset.card_image_iff]
  constructor
  · intro hinj a ha b hb heq
    have := hinj (hpair.mpr ⟨a, ha, rfl⟩) (hpair.mpr ⟨b, hb, rfl⟩) heq
    exact congrArg Prod.fst this
  · intro hall p hp q hq heq
    obtain ⟨a, ha, rfl⟩ := hpair.mp hp
    obtain ⟨b, hb, rfl⟩ := hpair.mp hq
    exact Prod.ext (hall a ha b hb heq) heq

/-! ### The driver's worker and the others -/

section Create
variable {driverIp : String} {bundles : List Bundle} {driver driver' : Option RayWorker}
  {workers workers' : List RayWorker} {spmd : Bool}

theorem createWorkers_ok
    (h : createWorkers spmd driverIp (driver, workers) bundles = .ok (driver', workers')) :
    (∀ b ∈ bundles, b.gpu ≠ 0) ∧
      (ranked driver' workers').Perm (ranked driver workers ++ bundles.map Bundle.worker) := by
  induction bundles generalizing driver workers with
  | nil =>
    cases h
    simp
  | cons b bundles ih =>
    unfold createWorkers at h
    split at h
    · cases h
    · rename_i hgpu
      split at h
      · rename_i hdriver
        obtain ⟨hrest, hperm⟩ := ih h
        refine ⟨List.forall_mem_cons.mpr ⟨hgpu, hrest⟩, hperm.trans ?_⟩
        rw [hdriver.2.2]
        simp only [ranked, Option.toList_some, Option.toList_none, List.nil_append,
          List.map_cons, List.cons_append]
        exact List.perm_middle.symm
      · obtain ⟨hrest, hperm⟩ := ih h
        refine ⟨List.forall_mem_cons.mpr ⟨hgpu, hrest⟩, hperm.trans ?_⟩
        simp [ranked]

/-- The driver's worker is on the driver's node; without SPMD workers there is one if there is such
a worker. -/
theorem createWorkers_driver (hdriver : ∀ w ∈ driver, w.ip = driverIp)
    (hworkers : spmd = false → driver = none → ∀ w ∈ workers, w.ip ≠ driverIp)
    (h : createWorkers spmd driverIp (driver, workers) bundles = .ok (driver', workers')) :
    (∀ w ∈ driver', w.ip = driverIp) ∧
      (spmd = false → driver' = none → ∀ w ∈ workers', w.ip ≠ driverIp) := by
  induction bundles generalizing driver workers with
  | nil =>
    cases h
    exact ⟨hdriver, hworkers⟩
  | cons b bundles ih =>
    unfold createWorkers at h
    split at h
    · cases h
    · split at h
      · rename_i hfirst
        refine ih ?_ (by simp) h
        rintro w ⟨⟩
        exact hfirst.2.1
      · rename_i hother
        refine ih hdriver (fun hspmd hnone w hw => ?_) h
        rcases List.mem_append.mp hw with hw | hw
        · exact hworkers hspmd hnone w hw
        · cases List.mem_singleton.mp hw
          exact fun hip => hother ⟨hspmd, hip, hnone⟩

theorem exists_createWorkers (spmd : Bool) (driverIp : String)
    (acc : Option RayWorker × List RayWorker) (h : ∀ b ∈ bundles, b.gpu ≠ 0) :
    ∃ r, createWorkers spmd driverIp acc bundles = .ok r := by
  induction bundles generalizing acc with
  | nil => exact ⟨_, rfl⟩
  | cons b bundles ih =>
    obtain ⟨hb, hrest⟩ := List.forall_mem_cons.mp h
    unfold createWorkers
    rw [if_neg hb]
    split <;> exact ih _ hrest

end Create

/-! ### Which placements are accepted -/

def Addressed (bundles : List Bundle) : Prop :=
  ∀ b ∈ bundles, ∀ b' ∈ bundles, b.worker.nodeId = b'.worker.nodeId → b.worker.ip = b'.worker.ip

def UniqueAddresses (bundles : List Bundle) : Prop :=
  ∀ b ∈ bundles, ∀ b' ∈ bundles, b.worker.ip = b'.worker.ip → b.worker.nodeId = b'.worker.nodeId

def OnDriver (driverIp : String) (bundles : List Bundle) : Prop :=
  ∃ b ∈ bundles, b.worker.ip = driverIp

instance (driverIp : String) (bundles : List Bundle) : Decidable (OnDriver driverIp bundles) :=
  inferInstanceAs (Decidable (∃ b ∈ bundles, b.worker.ip = driverIp))

def nodeIds (bundles : List Bundle) : Finset String :=
  (bundles.map Bundle.worker).toFinset.image RayWorker.nodeId

def addresses (bundles : List Bundle) : Finset String :=
  (bundles.map Bundle.worker).toFinset.image RayWorker.ip

section Accepted
variable {spmd : Bool} {driverIp : String} {bundles : List Bundle} {e : Executor} {r r' : ℕ}
  {w w' : RayWorker} {workers : List RayWorker}

/-- What is known of the placement when it has been accepted. -/
structure Accepted (driverIp : String) (bundles : List Bundle) (e : Executor) : Prop where
  gpus : ∀ b ∈ bundles, b.gpu ≠ 0
  perm : e.ranked.Perm (bundles.map Bundle.worker)
  driver : ∀ w ∈ e.driverDummyWorker, w.ip = driverIp
  sorted : ∃ workers : List RayWorker, e.workers = sortWorkers driverIp workers
  nodeWorkers : ∀ k, (e.nodeWorkers.get? k).getD [] = positions RayWorker.nodeId k e.ranked 0
  nodeGpus : ∀ k, (e.nodeGpus.get? k).getD [] =
    (e.ranked.filter (·.nodeId = k)).flatMap RayWorker.gpuIds
  count : (nodeIds bundles).card = (insert driverIp (addresses bundles)).card

theorem flatMap_zipIdx (k : String) (xs : List RayWorker) :
    ((xs.zipIdx.map fun e => (e.1.nodeId, [e.2])).filter (·.1 = k)).flatMap Prod.snd =
      positions RayWorker.nodeId k xs 0 := by
  rw [List.filter_map, List.flatMap_map]
  exact List.map_eq_flatMap.symm

theorem toFinset_map_eq (f : RayWorker → String) {workers' : List RayWorker}
    (h : workers.Perm workers') : (workers.map f).toFinset = workers'.toFinset.image f := by
  rw [← List.toFinset_eq_of_perm _ _ h]
  ext k
  simp

theorem allIps_eq {driver : Option RayWorker} (hdriver : ∀ w ∈ driver, w.ip = driverIp)
    (hperm : (ranked driver workers).Perm (bundles.map Bundle.worker)) :
    insert driverIp (workers.map RayWorker.ip).toFinset = insert driverIp (addresses bundles) := by
  rw [addresses, ← toFinset_map_eq RayWorker.ip hperm]
  cases driver with
  | none => rfl
  | some w =>
    rw [← hdriver w rfl]
    simp [ranked]

theorem ranked_sorted (driverIp : String) (driver : Option RayWorker)
    (workers : List RayWorker) :
    (ranked driver (sortWorkers driverIp workers)).Perm (ranked driver workers) :=
  List.Perm.append_left _ (List.perm_insertionSort _ workers)

theorem nodes_eq (hperm : workers.Perm (bundles.map Bundle.worker)) :
    ((workers.zipIdx.map fun e => (e.1.nodeId, [e.2])).foldl extend Dict.empty).keys.length =
      (nodeIds bundles).card := by
  have hfst : (workers.zipIdx.map fun e => (e.1.nodeId, [e.2])).map Prod.fst =
      workers.map RayWorker.nodeId := by
    conv_rhs => rw [← List.zipIdx_map_fst 0 workers, List.map_map]
    rw [List.map_map]
    rfl
  rw [length_keys_foldl_extend, hfst, toFinset_map_eq RayWorker.nodeId hperm, nodeIds]

theorem accepted_of_ok (h : initWorkersRay spmd driverIp bundles = .ok e) :
    Accepted driverIp bundles e ∧ (spmd = false → OnDriver driverIp bundles) := by
  obtain ⟨⟨driver, workers⟩, hcreate, h⟩ := bind_eq_ok.mp h
  obtain ⟨hgpus, hperm⟩ := createWorkers_ok hcreate
  obtain ⟨hdriver, -⟩ := createWorkers_driver (by simp) (by simp) hcreate
  have hranked := (ranked_sorted driverIp driver workers).trans hperm
  simp only at h
  split at h
  · cases h
  · rename_i hsome
    split at h
    · cases h
    · rename_i hcount
      cases h
      refine ⟨⟨hgpus, hranked, hdriver, ⟨workers, rfl⟩, fun k => ?_, fun k => ?_, ?_⟩, ?_⟩
      · rw [getD_foldl_extend]
        exact flatMap_zipIdx k _
      · rw [getD_foldl_extend, List.filter_map, List.flatMap_map]
        rfl
      · rw [← allIps_eq hdriver hperm, ← nodes_eq hranked]
        exact not_not.mp hcount
      · intro hspmd
        obtain ⟨w, rfl⟩ := Option.ne_none_iff_exists'.mp fun hnone => hsome ⟨hspmd, hnone⟩
        have hmem : w ∈ bundles.map Bundle.worker := hperm.mem_iff.mp List.mem_cons_self
        obtain ⟨b, hb, rfl⟩ := List.mem_map.mp hmem
        exact ⟨b, hb, hdriver _ rfl⟩

theorem onDriver_of_ok (hon : spmd = true → OnDriver driverIp bundles)
    (h : initWorkersRay spmd driverIp bundles = .ok e) : OnDriver driverIp bundles := by
  cases spmd with
  | false => exact (accepted_of_ok h).2 rfl
  | true => exact hon rfl

theorem card_addresses : (insert driverIp (addresses bundles)).card =
    (addresses bundles).card + if OnDriver driverIp bundles then 0 else 1 := by
  have hmem : driverIp ∈ addresses bundles ↔ OnDriver driverIp bundles := by
    simp [addresses, OnDriver]
  rw [Finset.card_insert_eq_ite]
  simp only [hmem]
  split <;> rfl

theorem uniqueAddresses_iff (haddressed : Addressed bundles) :
    (nodeIds bundles).card = (addresses bundles).card ↔ UniqueAddresses bundles := by
  rw [nodeIds, addresses, card_image_eq_iff (by simpa [Addressed] using haddressed)]
  simp [UniqueAddresses]

/-- A placement with a worker on the driver's node is accepted if and only if all bundles have a GPU
and no two nodes one address. One without is accepted only for SPMD workers, if there is one node
more than there are addresses. -/
theorem accepted_iff (haddressed : Addressed bundles) :
    (∃ e, initWorkersRay spmd driverIp bundles = .ok e) ↔ (∀ b ∈ bundles, b.gpu ≠ 0) ∧
      (OnDriver driverIp bundles ∧ UniqueAddresses bundles ∨ spmd = true ∧
        ¬OnDriver driverIp bundles ∧ (nodeIds bundles).card = (addresses bundles).card + 1) := by
  constructor
  · rintro ⟨e, he⟩
    obtain ⟨h, hspmd⟩ := accepted_of_ok he
    have hcount := h.count
    rw [card_addresses] at hcount
    refine ⟨h.gpus, ?_⟩
    by_cases hon : OnDriver driverIp bundles
    · rw [if_pos hon] at hcount
      exact .inl ⟨hon, (uniqueAddresses_iff haddressed).mp hcount⟩
    · rw [if_neg hon] at hcount
      exact .inr ⟨by simpa [hon] using hspmd, hon, hcount⟩
  · rintro ⟨hgpus, hcases⟩
    obtain ⟨⟨driver, workers⟩, hcreate⟩ := exists_createWorkers spmd driverIp (none, []) hgpus
    obtain ⟨-, hperm⟩ := createWorkers_ok hcreate
    obtain ⟨hdriver, hnone⟩ := createWorkers_driver (by simp) (by simp) hcreate
    have hranked := (ranked_sorted driverIp driver workers).trans hperm
    have hsome : ¬(spmd = false ∧ driver = none) := by
      rintro ⟨hspmd, rfl⟩
      rcases hcases with ⟨⟨b, hb, hip⟩, -⟩ | ⟨hspmd', -⟩
      · exact hnone hspmd rfl b.worker (hperm.mem_iff.mpr (List.mem_map.mpr ⟨b, hb, rfl⟩)) hip
      · simp [hspmd] at hspmd'
    have hcount : (nodeIds bundles).card = (insert driverIp (addresses bundles)).card := by
      rw [card_addresses]
      rcases hcases with ⟨hon, hunique⟩ | ⟨-, hon, hcount⟩
      · rw [if_pos hon]
        exact (uniqueAddresses_iff haddressed).mpr hunique
      · rw [if_neg hon]
        exact hcount
    rw [← allIps_eq hdriver hperm, ← nodes_eq hranked] at hcount
    unfold initWorkersRay
    rw [hcreate]
    simp only [bind, Except.bind]
    rw [if_neg hsome, if_neg (not_not.mpr hcount)]
    exact ⟨_, rfl⟩

/-- Two nodes with two GPUs each, of which Ray has filled first the one without the driver. -/
def twoNodes : List Bundle :=
  [⟨1, ⟨"10.0.0.2", "b", [1]⟩⟩, ⟨1, ⟨"10.0.0.1", "a", [1]⟩⟩, ⟨1, ⟨"10.0.0.2", "b", [0]⟩⟩,
    ⟨1, ⟨"10.0.0.1", "a", [0]⟩⟩]

theorem addressed_twoNodes : Addressed twoNodes := by
  unfold Addressed twoNodes
  decide

/-- The same nodes are refused to a driver elsewhere, with SPMD workers because three addresses are
counted. -/
theorem accepted_iff_twoNodes : (∃ e, initWorkersRay false "10.0.0.1" twoNodes = .ok e) ∧
    ¬∃ e, initWorkersRay true "10.0.0.3" twoNodes = .ok e := by
  rw [accepted_iff addressed_twoNodes, accepted_iff addressed_twoNodes]
  unfold UniqueAddresses OnDriver twoNodes
  decide

/-! ### Ranks -/

theorem sortKey_eq_iff :
    sortKey driverIp workers w = sortKey driverIp workers w' ↔ w.ip = w'.ip := by
  constructor
  · intro h
    exact congrArg (fun k => (ofLex (ofLex k).2).2) h
  · intro h
    simp only [sortKey, h]

theorem Accepted.pairwise (h : Accepted driverIp bundles e) :
    ∃ workers, e.ranked.Pairwise fun v w =>
      sortKey driverIp workers v ≤ sortKey driverIp workers w := by
  obtain ⟨workers, hworkers⟩ := h.sorted
  have hsorted := List.pairwise_insertionSort
    (fun a b => sortKey driverIp workers a ≤ sortKey driverIp workers b) workers
  refine ⟨workers, ?_⟩
  rw [Executor.ranked, ranked, hworkers]
  cases hd : e.driverDummyWorker with
  | none => exact hsorted
  | some d =>
    refine List.pairwise_cons.mpr ⟨fun w _ => ?_, hsorted⟩
    have hip := h.driver d hd
    by_cases hw : w.ip = driverIp
    · exact (sortKey_eq_iff.mpr (hip.trans hw.symm)).le
    · refine (Prod.Lex.toLex_le_toLex).mpr (.inl ?_)
      simp [hip, hw]

theorem Accepted.nodeId_eq_iff (h : Accepted driverIp bundles e) (haddressed : Addressed bundles)
    (hon : OnDriver driverIp bundles) (hw : w ∈ e.ranked) (hw' : w' ∈ e.ranked) :
    w.nodeId = w'.nodeId ↔ w.ip = w'.ip := by
  have hcount := h.count
  rw [card_addresses, if_pos hon] at hcount
  have hunique := (uniqueAddresses_iff haddressed).mp hcount
  obtain ⟨b, hb, rfl⟩ := List.mem_map.mp (h.perm.mem_iff.mp hw)
  obtain ⟨b', hb', rfl⟩ := List.mem_map.mp (h.perm.mem_iff.mp hw')
  exact ⟨haddressed b hb b' hb', hunique b hb b' hb'⟩

theorem Accepted.grouped (h : Accepted driverIp bundles e) (haddressed : Addressed bundles)
    (hon : OnDriver driverIp bundles) : Grouped RayWorker.nodeId e.ranked := by
  obtain ⟨workers, hpairwise⟩ := h.pairwise
  refine grouped_of_pairwise hpairwise fun v hv w hw => ?_
  rw [sortKey_eq_iff, h.nodeId_eq_iff haddressed hon hv hw]

theorem Accepted.zero_on_driver (h : Accepted driverIp bundles e) (hw : w ∈ e.ranked)
    (hip : w.ip = driverIp) : ∃ d, e.ranked[0]? = some d ∧ d.ip = driverIp := by
  obtain ⟨workers, hpairwise⟩ := h.pairwise
  cases hranked : e.ranked with
  | nil => simp [hranked] at hw
  | cons d rest =>
    refine ⟨d, rfl, ?_⟩
    rw [hranked, List.pairwise_cons] at hpairwise
    rw [hranked] at hw
    rcases List.mem_cons.mp hw with rfl | hw
    · exact hip
    · have hle := (Prod.Lex.toLex_le_toLex).mp (hpairwise.1 w hw)
      by_contra hne
      have hlt : true < false := by simpa [hip, hne] using hle
      exact absurd hlt (by decide)

theorem Accepted.countP_eq (h : Accepted driverIp bundles e) (k : String) :
    e.ranked.countP (·.nodeId = k) = bundles.countP (·.worker.nodeId = k) := by
  rw [h.perm.countP_eq, List.countP_map]
  rfl

/-- The workers of a node have consecutive ranks, as many as it has bundles, and are numbered from
the first one on; the node of the driver comes first. -/
theorem ranks_consecutive (haddressed : Addressed bundles)
    (hon : spmd = true → OnDriver driverIp bundles)
    (h : initWorkersRay spmd driverIp bundles = .ok e) (hr : e.ranked[r]? = some w) :
    ∃ first, (∀ k v, e.ranked[k]? = some v → (v.nodeId = w.nodeId ↔
        first ≤ k ∧ k < first + bundles.countP (·.worker.nodeId = w.nodeId))) ∧
      r = first + e.localRank r w ∧ (w.ip = driverIp → first = 0) := by
  have haccepted := (accepted_of_ok h).1
  have hon := onDriver_of_ok hon h
  obtain ⟨first, hfirst⟩ := (haccepted.grouped haddressed hon).positions_eq w.nodeId
  have hpositions := hfirst 0
  rw [Nat.zero_add, haccepted.countP_eq] at hpositions
  have hmem : ∀ k v, e.ranked[k]? = some v → (v.nodeId = w.nodeId ↔
      first ≤ k ∧ k < first + bundles.countP (·.worker.nodeId = w.nodeId)) := by
    intro k v hv
    rw [← mem_positions hv, hpositions, List.mem_range'_1]
  obtain ⟨hle, hlt⟩ := (hmem r w hr).mp rfl
  refine ⟨first, hmem, ?_, fun hip => ?_⟩
  · have hlocal : e.localRank r w = r - first := by
      rw [Executor.localRank, haccepted.nodeWorkers, hpositions]
      have hget : (List.range' first (bundles.countP (·.worker.nodeId = w.nodeId)))[r - first]? =
          some r := by
        rw [List.getElem?_range' (by omega)]
        simp
        omega
      obtain ⟨hlen, hget⟩ := List.getElem?_eq_some_iff.mp hget
      have hidx := List.Nodup.idxOf_getElem List.nodup_range' (r - first) hlen
      rwa [hget] at hidx
    omega
  · obtain ⟨d, hzero, hdip⟩ := haccepted.zero_on_driver (List.mem_of_getElem? hr) hip
    have hnode : d.nodeId = w.nodeId :=
      (haccepted.nodeId_eq_iff haddressed hon (List.mem_of_getElem? hzero)
        (List.mem_of_getElem? hr)).mpr (hdip.trans hip.symm)
    have := ((hmem 0 d hzero).mp hnode).1
    omega

theorem ranks_consecutive_twoNodes : ∃ e w, initWorkersRay false "10.0.0.1" twoNodes = .ok e ∧
    e.ranked[3]? = some w ∧ w.nodeId = "b" ∧ ∃ first, 3 = first + e.localRank 3 w := by
  obtain ⟨e, he⟩ : ∃ e, initWorkersRay false "10.0.0.1" twoNodes = .ok e := ⟨_, rfl⟩
  obtain ⟨w, hw, hnode⟩ : ∃ w, e.ranked[3]? = some w ∧ w.nodeId = "b" := by
    cases he
    exact ⟨_, rfl, rfl⟩
  obtain ⟨first, -, hrank, -⟩ := ranks_consecutive addressed_twoNodes (by simp) he hw
  exact ⟨e, w, he, hw, hnode, first, hrank⟩

/-- If every node has a multiple of `tensor_parallel_size` bundles, no group of tensor-parallel
workers is spread over two nodes. -/
theorem tp_group_on_one_node {config : ParallelConfig} (haddressed : Addressed bundles)
    (hsize : 0 < config.tensorParallelSize)
    (hfull : ∀ b ∈ bundles, config.tensorParallelSize ∣
      bundles.countP (·.worker.nodeId = b.worker.nodeId))
    (hon : spmd = true → OnDriver driverIp bundles)
    (h : initWorkersRay spmd driverIp bundles = .ok e) (hr : e.ranked[r]? = some w)
    (hr' : e.ranked[r']? = some w')
    (hgroup : r / config.tensorParallelSize = r' / config.tensorParallelSize) :
    w.nodeId = w'.nodeId := by
  have haccepted := (accepted_of_ok h).1
  have hon := onDriver_of_ok hon h
  refine (haccepted.grouped haddressed hon).slice_eq hsize (fun v hv => ?_) hr hr' hgroup
  obtain ⟨b, hb, rfl⟩ := List.mem_map.mp (haccepted.perm.mem_iff.mp hv)
  rw [haccepted.countP_eq]
  exact hfull b hb

theorem tp_group_on_one_node_twoNodes : ∃ e w w', initWorkersRay false "10.0.0.1" twoNodes =
    .ok e ∧ e.ranked[2]? = some w ∧ e.ranked[3]? = some w' ∧ w.nodeId = w'.nodeId := by
  obtain ⟨e, he⟩ : ∃ e, initWorkersRay false "10.0.0.1" twoNodes = .ok e := ⟨_, rfl⟩
  obtain ⟨w, w', hw, hw'⟩ : ∃ w w', e.ranked[2]? = some w ∧ e.ranked[3]? = some w' := by
    cases he
    exact ⟨_, _, rfl, rfl⟩
  exact ⟨e, w, w', he, hw, hw', @tp_group_on_one_node _ _ _ _ 2 3 _ _ ⟨2, 2⟩ addressed_twoNodes
    (by decide) (by unfold twoNodes; decide) (by simp) he hw hw' rfl⟩

/-! ### Devices -/

theorem Accepted.localRank_lt (h : Accepted driverIp bundles e) (hr : e.ranked[r]? = some w) :
    e.localRank r w < (positions RayWorker.nodeId w.nodeId e.ranked 0).length := by
  rw [Executor.localRank, h.nodeWorkers, List.idxOf_lt_length_iff]
  exact (mem_positions hr).mpr rfl

theorem Accepted.localRank_inj (h : Accepted driverIp bundles e) (hr : e.ranked[r]? = some w)
    (hnode : w.nodeId = w'.nodeId)
    (heq : e.localRank r w = e.localRank r' w') : r = r' := by
  rw [Executor.localRank, Executor.localRank, h.nodeWorkers, h.nodeWorkers, hnode] at heq
  exact (List.idxOf_inj ((mem_positions hr).mpr hnode)).mp heq

theorem Accepted.visible_perm (h : Accepted driverIp bundles e)
    (hone : ∀ b ∈ bundles, ∃ g, b.worker.gpuIds = [g]) (w : RayWorker) :
    (e.cudaVisibleDevices w).Perm
      ((e.ranked.filter (·.nodeId = w.nodeId)).map fun v => v.gpuIds.headD 0) := by
  refine (List.perm_insertionSort _ _).trans ?_
  rw [h.nodeGpus, List.map_eq_flatMap]
  refine List.Perm.of_eq (List.flatMap_congr fun v hv => ?_)
  obtain ⟨b, hb, rfl⟩ := List.mem_map.mp (h.perm.mem_iff.mp (List.mem_filter.mp hv).1)
  obtain ⟨g, hg⟩ := hone b hb
  rw [hg]
  rfl

theorem Accepted.visible_nodup (h : Accepted driverIp bundles e)
    (hone : ∀ b ∈ bundles, ∃ g, b.worker.gpuIds = [g])
    (hdistinct : (bundles.map fun b => (b.worker.nodeId, b.worker.gpuIds)).Nodup) (w : RayWorker) :
    (e.cudaVisibleDevices w).Nodup := by
  rw [(h.visible_perm hone w).nodup_iff]
  have hranked : (e.ranked.map fun v => (v.nodeId, v.gpuIds)).Nodup := by
    rw [(h.perm.map _).nodup_iff, List.map_map]
    exact hdistinct
  have hfilter := List.pairwise_map.mp
    (hranked.sublist (List.Sublist.map _ (List.filter_sublist (p := (·.nodeId = w.nodeId)))))
  refine List.pairwise_map.mpr (hfilter.imp_of_mem ?_)
  intro u v hu hv hne heq
  obtain ⟨hu, hunode⟩ := List.mem_filter.mp hu
  obtain ⟨hv, hvnode⟩ := List.mem_filter.mp hv
  obtain ⟨b, hb, rfl⟩ := List.mem_map.mp (h.perm.mem_iff.mp hu)
  obtain ⟨b', hb', rfl⟩ := List.mem_map.mp (h.perm.mem_iff.mp hv)
  obtain ⟨g, hg⟩ := hone b hb
  obtain ⟨g', hg'⟩ := hone b' hb'
  rw [hg, hg'] at heq hne
  have hnode := (of_decide_eq_true hunode).trans (of_decide_eq_true hvnode).symm
  exact hne (Prod.ext hnode (congrArg (fun g => [g]) heq))

/-- When Ray has given every worker a GPU of its own, every worker ends up with a device of its own,
one of those that Ray has reserved on its node, though not always the one it was given. -/
theorem devices_distinct (hone : ∀ b ∈ bundles, ∃ g, b.worker.gpuIds = [g])
    (hdistinct : (bundles.map fun b => (b.worker.nodeId, b.worker.gpuIds)).Nodup)
    (h : initWorkersRay spmd driverIp bundles = .ok e) (hr : e.ranked[r]? = some w) :
    (∃ g, e.device r w = some g ∧
      ∃ b ∈ bundles, b.worker.nodeId = w.nodeId ∧ b.worker.gpuIds = [g]) ∧
    ∀ r' w', w.nodeId = w'.nodeId → e.device r w = e.device r' w' → r = r' := by
  have haccepted := (accepted_of_ok h).1
  have hlen : ∀ {k v}, e.ranked[k]? = some v →
      e.localRank k v < (e.cudaVisibleDevices v).length := by
    intro k v hv
    have hlt := haccepted.localRank_lt hv
    rw [length_positions, List.countP_eq_length_filter] at hlt
    rwa [(haccepted.visible_perm hone v).length_eq, List.length_map]
  constructor
  · refine ⟨_, List.getElem?_eq_getElem (hlen hr), ?_⟩
    have hmem := (haccepted.visible_perm hone w).mem_iff.mp (List.getElem_mem (hlen hr))
    obtain ⟨v, hv, hg⟩ := List.mem_map.mp hmem
    obtain ⟨hv, hnode⟩ := List.mem_filter.mp hv
    obtain ⟨b, hb, rfl⟩ := List.mem_map.mp (haccepted.perm.mem_iff.mp hv)
    obtain ⟨g, hone⟩ := hone b hb
    refine ⟨b, hb, of_decide_eq_true hnode, ?_⟩
    rw [← hg, hone]
    rfl
  · intro r' w' hnode heq
    refine haccepted.localRank_inj hr hnode ?_
    have hvisible : e.cudaVisibleDevices w' = e.cudaVisibleDevices w := by
      unfold Executor.cudaVisibleDevices
      rw [hnode]
    unfold Executor.device at heq
    rw [hvisible] at heq
    exact (List.getElem?_inj (hlen hr) (haccepted.visible_nodup hone hdistinct w)).mp heq

theorem devices_distinct_twoNodes : ∃ e w, initWorkersRay false "10.0.0.1" twoNodes = .ok e ∧
    e.ranked[2]? = some w ∧ w.gpuIds = [1] ∧ e.device 2 w = some 0 ∧
      ∀ r' w', w.nodeId = w'.nodeId → e.device 2 w = e.device r' w' → 2 = r' := by
  obtain ⟨e, he⟩ : ∃ e, initWorkersRay false "10.0.0.1" twoNodes = .ok e := ⟨_, rfl⟩
  obtain ⟨w, hw, hgpus, hdevice⟩ : ∃ w, e.ranked[2]? = some w ∧ w.gpuIds = [1] ∧
      e.device 2 w = some 0 := by
    cases he
    exact ⟨_, rfl, rfl, rfl⟩
  exact ⟨e, w, he, hw, hgpus, hdevice, (devices_distinct (by simp [twoNodes])
    (by unfold twoNodes; decide) he hw).2⟩

end Accepted

end Llumnix.Legacy.Ranks
