import Llumnix.Python.Dict

/-! The outputs of a step on their way to the servers, for both backends of the legacy engine, and
what becomes of the requests of a server that is dead. -/
namespace Llumnix.Output

open Python

/-- A response of the engine; `body` stands for all of it but the id. -/
structure Response (β : Type) where
  requestId : String
  body : β
  deriving DecidableEq

/-- What is put in the queue of a server: the output of vLLM, or a pair of BladeLLM with
`model_dump_json()` for the body. -/
inductive Payload (β : Type)
  | output (response : Response β)
  | pair (reqId : String) (json : β)
  deriving DecidableEq

structure ServerInfo where
  serverId : String
  deriving DecidableEq

inductive PyError
  | attributeError
  | keyError
  | indexError
  deriving DecidableEq

variable {β π : Type} {entries : List (Response β × ServerInfo)}

/-- `req_output.request_id`, which a tuple does not have. -/
def Payload.requestId : Payload β → Except PyError String
  | .output response => .ok response.requestId
  | .pair _ _ => .error .attributeError

/-- The loop of `_put_request_outputs_to_server`: the outputs by server, and the first information
of each server. -/
def byServer (entries : List (ServerInfo × π)) : Dict String (List π) × Dict String ServerInfo :=
  entries.foldl
    (fun d e => (d.1.append e.1.serverId e.2,
      if e.1.serverId ∈ d.2 then d.2 else d.2.set e.1.serverId e.1))
    (.empty, .empty)

/-- `LLMEngineLlumnix._put_request_outputs_to_server`. -/
def putVllmOutputs (requestOutputs : List (Response β)) (serverInfos : List ServerInfo) :
    Dict String (List (Payload β)) × Dict String ServerInfo :=
  byServer (serverInfos.zip (requestOutputs.map .output))

/-- `AsyncBackQueueWrapper._put_request_outputs_to_server`. -/
def putBladellmOutputs (requestOutputs : List β) (reqIds : List String)
    (serverInfos : List ServerInfo) :
    Dict String (List (Payload β)) × Dict String ServerInfo :=
  byServer (serverInfos.zip ((reqIds.zip requestOutputs).map fun e => .pair e.1 e.2))

/-- The loop over `rets`: the calls of `abort`, up to an exception. -/
def abortDead (serverRequestOutputs : Dict String (List (Payload β))) :
    ℕ → List Bool → List (List String) × Option PyError
  | _, [] => ([], none)
  | idx, failed :: rets =>
    if failed then
      match serverRequestOutputs.keys[idx]?, serverRequestOutputs.values[idx]? with
      | some _, some reqOutputs =>
        match reqOutputs.mapM Payload.requestId with
        | .error e => ([], some e)
        | .ok requestIds =>
          let rest := abortDead serverRequestOutputs (idx + 1) rets
          (requestIds :: rest.1, rest.2)
      | _, _ => ([], some .indexError)
    else abortDead serverRequestOutputs (idx + 1) rets

/-- The calls of `abort`, and the exception it ends with if there is one. `fails` are the servers
whose put raises. -/
def putNowaitToServers (fails : String → Bool)
    (serverRequestOutputs : Dict String (List (Payload β)))
    (serverInfoDict : Dict String ServerInfo) : List (List String) × Option PyError :=
  if ∀ v ∈ serverRequestOutputs.keys, v ∈ serverInfoDict then
    abortDead serverRequestOutputs 0 (serverRequestOutputs.keys.map fails)
  else ([], some .keyError)

inductive Backend
  | vllm
  | bladellm
  deriving DecidableEq

namespace Backend

def payload : Backend → Response β → Payload β
  | .vllm, r => .output r
  | .bladellm, r => .pair r.requestId r.body

/-- The outputs of a step with their servers, as each backend has them. -/
def putRequestOutputsToServer (backend : Backend) (entries : List (Response β × ServerInfo)) :
    Dict String (List (Payload β)) × Dict String ServerInfo :=
  match backend with
  | .vllm => putVllmOutputs (entries.map (·.1)) (entries.map (·.2))
  | .bladellm =>
    putBladellmOutputs (entries.map (·.1.body)) (entries.map (·.1.requestId)) (entries.map (·.2))

end Backend

/-! ### Batches -/

theorem byServer_fst (entries : List (ServerInfo × π)) :
    (byServer entries).1 = Dict.group (entries.map fun e => (e.1.serverId, e.2)) := by
  have hfold : ∀ d : Dict String (List π) × Dict String ServerInfo,
      (entries.foldl (fun d e => (d.1.append e.1.serverId e.2,
        if e.1.serverId ∈ d.2 then d.2 else d.2.set e.1.serverId e.1)) d).1 =
        (entries.map fun e => (e.1.serverId, e.2)).foldl (fun d e => d.append e.1 e.2) d.1 := by
    induction entries with
    | nil => exact fun _ => rfl
    | cons e es ih => exact fun d => ih _
  exact hfold (.empty, .empty)

theorem mem_byServer_snd (entries : List (ServerInfo × π)) {v : String} :
    v ∈ (byServer entries).2 ↔ v ∈ entries.map (·.1.serverId) := by
  have hfold : ∀ d : Dict String (List π) × Dict String ServerInfo,
      v ∈ (entries.foldl (fun d e => (d.1.append e.1.serverId e.2,
        if e.1.serverId ∈ d.2 then d.2 else d.2.set e.1.serverId e.1)) d).2 ↔
        v ∈ d.2 ∨ v ∈ entries.map (·.1.serverId) := by
    induction entries with
    | nil => simp
    | cons e es ih =>
      intro d
      rw [List.foldl_cons, ih, List.map_cons, List.mem_cons]
      dsimp only
      split_ifs with hin
      · constructor
        · tauto
        · rintro (h | rfl | h) <;> tauto
      · rw [Dict.mem_set]
        tauto
  simpa [byServer] using hfold (.empty, .empty)

theorem putRequestOutputsToServer_eq (backend : Backend)
    (entries : List (Response β × ServerInfo)) :
    backend.putRequestOutputsToServer entries =
      byServer (entries.map fun e => (e.2, backend.payload e.1)) := by
  cases backend with
  | vllm =>
    simp only [Backend.putRequestOutputsToServer, putVllmOutputs, List.map_map]
    rw [List.zip_map', List.map_congr_left]
    intro e he
    rfl
  | bladellm =>
    simp only [Backend.putRequestOutputsToServer, putBladellmOutputs]
    rw [List.zip_map', List.map_map, List.zip_map']
    rfl

theorem batch_eq {backend : Backend} {v : String} {batch : List (Payload β)}
    (h : (backend.putRequestOutputsToServer entries).1.get? v = some batch) :
    batch = (entries.filter (·.2.serverId = v)).map (backend.payload ·.1) := by
  rw [putRequestOutputsToServer_eq, byServer_fst, List.map_map] at h
  have hgroup := Dict.getD_group (entries.map ((fun e : ServerInfo × Payload β =>
    (e.1.serverId, e.2)) ∘ fun e => (e.2, backend.payload e.1))) v
  rw [h, Option.getD_some, List.filter_map, List.map_map] at hgroup
  exact hgroup

theorem perm_batches (backend : Backend) (entries : List (Response β × ServerInfo)) :
    ((backend.putRequestOutputsToServer entries).1.items.flatMap fun m => m.2.map (m.1, ·)).Perm
      (entries.map fun e => (e.2.serverId, backend.payload e.1)) := by
  rw [putRequestOutputsToServer_eq, byServer_fst, List.map_map]
  exact Dict.perm_group _

/-! ### Aborts -/

variable {fails : String → Bool} {d : Dict String (List (Payload β))}

/-- The loop is one over the items: position and key belong together. -/
def abortItems (fails : String → Bool) :
    List (String × List (Payload β)) → List (List String) × Option PyError
  | [] => ([], none)
  | m :: ms =>
    if fails m.1 then
      match m.2.mapM Payload.requestId with
      | .error e => ([], some e)
      | .ok requestIds => (requestIds :: (abortItems fails ms).1, (abortItems fails ms).2)
    else abortItems fails ms

theorem abortDead_eq (done rest : List (String × List (Payload β)))
    (hitems : d.items = done ++ rest) :
    abortDead d done.length (rest.map (fails ·.1)) = abortItems fails rest := by
  induction rest generalizing done with
  | nil => rfl
  | cons m ms ih =>
    have hnext := ih (done ++ [m]) (by rw [hitems, List.append_assoc]; rfl)
    rw [List.length_append, List.length_singleton] at hnext
    have hkey : d.keys[done.length]? = some m.1 := by simp [Dict.keys, hitems]
    have hvalue : d.values[done.length]? = some m.2 := by simp [Dict.values, hitems]
    rw [List.map_cons, abortDead, hkey, hvalue, abortItems]
    simp only [hnext]

theorem putNowait_eq (entries : List (ServerInfo × Payload β)) :
    putNowaitToServers fails (byServer entries).1 (byServer entries).2 =
      abortItems fails (byServer entries).1.items := by
  have hknown : ∀ v ∈ (byServer entries).1.keys, v ∈ (byServer entries).2 := by
    intro v hv
    rw [mem_byServer_snd]
    rw [byServer_fst] at hv
    simpa using Dict.mem_group.mp hv
  rw [putNowaitToServers, if_pos hknown, Dict.keys, List.map_map]
  exact abortDead_eq [] _ rfl

theorem mapM_output (rs : List (Response β)) :
    (rs.map (Backend.payload .vllm)).mapM Payload.requestId = .ok (rs.map (·.requestId)) := by
  induction rs with
  | nil => rfl
  | cons r rs ih =>
    rw [List.map_cons, List.mapM_cons, ih]
    rfl

theorem mapM_pair {rs : List (Response β)} (hne : rs ≠ []) :
    (rs.map (Backend.payload .bladellm)).mapM Payload.requestId = .error .attributeError := by
  obtain ⟨r, rs, rfl⟩ := List.exists_cons_of_ne_nil hne
  rw [List.map_cons, List.mapM_cons]
  rfl

section Items
variable {own : String → List (Response β)} {ms : List (String × List (Payload β))}

theorem abortItems_vllm (h : ∀ m ∈ ms, m.2 = (own m.1).map (Backend.payload .vllm)) :
    abortItems fails ms =
      (((ms.map Prod.fst).filter fails).map fun v => (own v).map (·.requestId), none) := by
  induction ms with
  | nil => rfl
  | cons m ms ih =>
    have hrest := ih fun m' hm' => h m' (List.mem_cons_of_mem m hm')
    rw [abortItems, hrest, h m List.mem_cons_self, mapM_output]
    by_cases hm : fails m.1 = true <;> simp [hm]

theorem abortItems_spared (h : ∀ m ∈ ms, fails m.1 = false) : abortItems fails ms = ([], none) := by
  induction ms with
  | nil => rfl
  | cons m ms ih =>
    rw [abortItems, h m List.mem_cons_self, ih fun m' hm' => h m' (List.mem_cons_of_mem m hm')]
    rfl

theorem abortItems_bladellm (h : ∀ m ∈ ms, m.2 = (own m.1).map (Backend.payload .bladellm))
    (hown : ∀ m ∈ ms, own m.1 ≠ []) (hdead : ∃ m ∈ ms, fails m.1 = true) :
    abortItems fails ms = ([], some .attributeError) := by
  induction ms with
  | nil => simp at hdead
  | cons m ms ih =>
    rw [abortItems, h m List.mem_cons_self, mapM_pair (hown m List.mem_cons_self)]
    by_cases hm : fails m.1 = true
    · rw [if_pos hm]
    · rw [if_neg hm]
      have hdead' : ∃ m ∈ ms, fails m.1 = true := by simpa [hm] using hdead
      exact ih (fun m' hm' => h m' (List.mem_cons_of_mem m hm'))
        (fun m' hm' => hown m' (List.mem_cons_of_mem m hm')) hdead'

end Items

def ownResponses (entries : List (Response β × ServerInfo)) (v : String) : List (Response β) :=
  (entries.filter (·.2.serverId = v)).map (·.1)

theorem item_eq {backend : Backend} {m : String × List (Payload β)}
    (hm : m ∈ (backend.putRequestOutputsToServer entries).1.items) :
    m.2 = (ownResponses entries m.1).map backend.payload ∧ ownResponses entries m.1 ≠ [] := by
  have hget := Dict.get?_eq_some.mpr hm
  have hbatch := batch_eq hget
  rw [putRequestOutputsToServer_eq, byServer_fst] at hget
  have hne := Dict.ne_nil_of_group hget
  rw [hbatch] at hne ⊢
  rw [ownResponses, List.map_map]
  exact ⟨rfl, fun h => hne (by simpa using h)⟩

theorem mem_servers {backend : Backend} {v : String} :
    v ∈ (backend.putRequestOutputsToServer entries).1 ↔ v ∈ entries.map (·.2.serverId) := by
  rw [putRequestOutputsToServer_eq, byServer_fst, Dict.mem_group]
  simp

/-- The batches partition the outputs of a step; and the requests of the dead servers are aborted,
one call for each server, exactly if the backend is vLLM or no server is dead. -/
theorem fan_out_iff (backend : Backend) (entries : List (Response β × ServerInfo))
    (fails : String → Bool) :
    (∀ v batch, (backend.putRequestOutputsToServer entries).1.get? v = some batch →
        batch = (ownResponses entries v).map backend.payload) ∧
      ((backend.putRequestOutputsToServer entries).1.items.flatMap fun m =>
          m.2.map (m.1, ·)).Perm (entries.map fun e => (e.2.serverId, backend.payload e.1)) ∧
      (putNowaitToServers fails (backend.putRequestOutputsToServer entries).1
            (backend.putRequestOutputsToServer entries).2 =
          (((backend.putRequestOutputsToServer entries).1.keys.filter fails).map fun v =>
            (ownResponses entries v).map (·.requestId), none) ↔
        backend = .vllm ∨ ∀ e ∈ entries, fails e.2.serverId = false) := by
  refine ⟨fun v batch h => (item_eq (Dict.get?_eq_some.mp h)).1, perm_batches backend entries, ?_⟩
  have hput : putNowaitToServers fails (backend.putRequestOutputsToServer entries).1
      (backend.putRequestOutputsToServer entries).2 =
        abortItems fails (backend.putRequestOutputsToServer entries).1.items := by
    rw [putRequestOutputsToServer_eq]
    exact putNowait_eq _
  rw [hput]
  cases backend with
  | vllm => exact iff_of_true (abortItems_vllm fun m hm => (item_eq hm).1) (.inl rfl)
  | bladellm =>
    by_cases hdead : ∃ m ∈ (Backend.putRequestOutputsToServer .bladellm entries).1.items,
        fails m.1 = true
    · rw [abortItems_bladellm (fun m hm => (item_eq hm).1) (fun m hm => (item_eq hm).2) hdead]
      refine iff_of_false (by simp) fun h => ?_
      have hspared := h.resolve_left (by decide)
      obtain ⟨m, hm, hfails⟩ := hdead
      obtain ⟨e, he, hserver⟩ := List.mem_map.mp (mem_servers.mp (Dict.mem_of_item hm))
      rw [← hserver, hspared e he] at hfails
      cases hfails
    · have hspared : ∀ m ∈ (Backend.putRequestOutputsToServer .bladellm entries).1.items,
          fails m.1 = false := by simpa using hdead
      have hnone : (Backend.putRequestOutputsToServer .bladellm entries).1.keys.filter fails =
          [] := by
        refine List.filter_eq_nil_iff.mpr fun v hv => ?_
        obtain ⟨m, hm, rfl⟩ := List.mem_map.mp hv
        simp [hspared m hm]
      rw [abortItems_spared hspared, hnone]
      refine iff_of_true rfl (.inr fun e he => ?_)
      have hserver : e.2.serverId ∈ (Backend.putRequestOutputsToServer .bladellm entries).1 :=
        mem_servers.mpr (List.mem_map_of_mem he)
      obtain ⟨batch, hbatch⟩ := Dict.item_of_mem hserver
      exact hspared _ hbatch

/-- One response for one server, which is dead. -/
theorem fan_out_raises :
    let sent := Backend.putRequestOutputsToServer .bladellm
      [((⟨"q", "text"⟩ : Response String), (⟨"s"⟩ : ServerInfo))]
    putNowaitToServers (fun _ => true) sent.1 sent.2 = ([], some .attributeError) := by
  decide

end Llumnix.Output
