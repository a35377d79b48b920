import Llumnix.Log.LastWrite
import Llumnix.Python.Dict
import Llumnix.Transfer.RequestId

/-! What the CPU-staged transport holds of a request between the first tensor and the call of
`get_finished` that releases it. -/
namespace Llumnix.Transfer.Lifecycle

open Log Python

variable {τ : Type}

/-- The tables of `CoreXZmqP2pEngine`. -/
structure P2pEngine (τ : Type) where
  recvStore : Dict Text τ := .empty
  recvRequestIdToTensorIds : Dict Text (Finset Text) := .empty
  sendRequestIdToTensorIds : Dict Text (Finset Text) := .empty

/-- `f"{request_id}#{layer_name}"`. -/
def tensorId (requestId layerName : Text) : Text := requestId ++ '#' :: layerName

/-- `tensor_id.split("#")[0]`. -/
def requestIdOf (tensorId : Text) : Text := before ['#'] tensorId

/-- What a thread does while it has the lock: the listener stores what has arrived, `send_tensor`
stores or notes that the peer has, and `get_finished` releases one request after the other. -/
inductive Event (τ : Type)
  | arrived (tensorId : Text) (tensor : τ)
  | kept (tensorId : Text) (tensor : τ)
  | sent (tensorId : Text)
  | finished (requestId : Text) (noCompileLayers : List Text)

/-- `defaultdict(set)` with `d[k].add(v)`. -/
def add (d : Dict Text (Finset Text)) (k v : Text) : Dict Text (Finset Text) :=
  d.set k (insert v ((d.get? k).getD ∅))

namespace P2pEngine

def apply (s : P2pEngine τ) : Event τ → P2pEngine τ
  | .arrived i t =>
    { s with
      recvStore := s.recvStore.set i t
      recvRequestIdToTensorIds := add s.recvRequestIdToTensorIds (requestIdOf i) i }
  | .kept i t => { s with recvStore := s.recvStore.set i t }
  | .sent i =>
    { s with sendRequestIdToTensorIds := add s.sendRequestIdToTensorIds (requestIdOf i) i }
  | .finished r layers =>
    { recvStore := (layers.map (tensorId r)).foldl Dict.erase s.recvStore
      recvRequestIdToTensorIds := s.recvRequestIdToTensorIds.erase r
      sendRequestIdToTensorIds := s.sendRequestIdToTensorIds.erase r }

/-- `recv_tensor` returns as soon as the store has the tensor. -/
def recvTensor (s : P2pEngine τ) (i : Text) : Option τ := s.recvStore.get? i

def after (es : List (Event τ)) : P2pEngine τ := es.foldl apply {}

end P2pEngine

namespace Event

def Stores (i : Text) (t : τ) (e : Event τ) : Prop := e = .arrived i t ∨ e = .kept i t

def Releases (i : Text) (e : Event τ) : Prop :=
  ∃ r layers, e = .finished r layers ∧ ∃ l ∈ layers, i = tensorId r l

def Arrives (q i : Text) (e : Event τ) : Prop := (∃ t, e = .arrived i t) ∧ requestIdOf i = q

def Sends (q i : Text) (e : Event τ) : Prop := e = .sent i ∧ requestIdOf i = q

def Finishes (q : Text) (e : Event τ) : Prop := ∃ layers, e = .finished q layers

end Event

/-! ### Ids -/

theorem tensorId_inj {r r' l l' : Text} (hl : '#' ∉ l) (hl' : '#' ∉ l')
    (h : tensorId r l = tensorId r' l') : r = r' ∧ l = l' := by
  rcases List.append_eq_append_iff.mp h with ⟨a, rfl, ha⟩ | ⟨a, rfl, ha⟩
  · cases a with
    | nil => simpa using ha
    | cons c a =>
      obtain ⟨-, rfl⟩ := List.cons.inj ha
      simp at hl
  · cases a with
    | nil => simpa using ha.symm
    | cons c a =>
      obtain ⟨-, rfl⟩ := List.cons.inj ha
      simp at hl'

theorem requestIdOf_append {r : Text} (hr : '#' ∉ r) (l : Text) :
    requestIdOf (r ++ '#' :: l) = r := by
  have hnot : ¬['#'] <:+: r ++ ['#'].dropLast := by
    rw [List.dropLast_singleton, List.append_nil]
    exact not_infix_of_not_mem List.mem_cons_self hr
  have hbefore := before_append (t := l) (List.cons_ne_nil '#' []) hnot
  rwa [List.append_assoc] at hbefore

theorem requestIdOf_eq_self {r : Text} (hr : '#' ∉ r) : requestIdOf r = r := by
  unfold requestIdOf before
  cases hfind : find ['#'] r with
  | none => rfl
  | some n =>
    have hmem : '#' ∈ r.drop n := (find_eq_some hfind).2.subset List.mem_cons_self
    exact absurd (List.mem_of_mem_drop hmem) hr

theorem requestIdOf_tensorId (r l : Text) : requestIdOf (tensorId r l) = requestIdOf r := by
  by_cases hr : '#' ∈ r
  · obtain ⟨a, b, rfl, ha⟩ := List.eq_append_cons_of_mem hr
    rw [tensorId, List.append_assoc, List.cons_append, requestIdOf_append ha, requestIdOf_append ha]
  · rw [tensorId, requestIdOf_append hr, requestIdOf_eq_self hr]

/-! ### One event -/

section Tables
variable {s : P2pEngine τ} {e : Event τ} {d : Dict Text (Finset Text)}

theorem get?_foldl_erase {ν : Type} (d : Dict Text ν) (ks : List Text) (k : Text) :
    (ks.foldl Dict.erase d).get? k = if k ∈ ks then none else d.get? k := by
  induction ks generalizing d with
  | nil => simp
  | cons j ks ih =>
    rw [List.foldl_cons, ih, Dict.get?_erase]
    by_cases hk : k = j
    · simp [hk]
    · simp [hk]

theorem recvStore_apply (i : Text) (t : τ) : (s.apply e).recvStore.get? i = some t ↔
    e.Stores i t ∨ s.recvStore.get? i = some t ∧ ¬((∃ u, e.Stores i u) ∨ e.Releases i) := by
  cases e with
  | arrived j u =>
    simp only [P2pEngine.apply, Dict.get?_set, Event.Stores, Event.Releases]
    by_cases hij : i = j
    · simp [hij, eq_comm]
    · simp [hij, Ne.symm hij]
  | kept j u =>
    simp only [P2pEngine.apply, Dict.get?_set, Event.Stores, Event.Releases]
    by_cases hij : i = j
    · simp [hij, eq_comm]
    · simp [hij, Ne.symm hij]
  | sent j => simp [P2pEngine.apply, Event.Stores, Event.Releases]
  | finished r layers =>
    have hreleases : (Event.finished r layers : Event τ).Releases i ↔
        i ∈ layers.map (tensorId r) := by
      simp [Event.Releases, eq_comm]
    simp only [P2pEngine.apply, get?_foldl_erase, hreleases]
    by_cases hmem : i ∈ layers.map (tensorId r)
    · simp [hmem, Event.Stores]
    · simp [hmem, Event.Stores]

theorem mem_recvStore_apply (i : Text) : i ∈ (s.apply e).recvStore ↔
    (∃ t, e.Stores i t) ∨ i ∈ s.recvStore ∧ ¬e.Releases i := by
  have hmem : ∀ d : Dict Text τ, i ∈ d ↔ ∃ t, d.get? i = some t := by
    intro d
    rw [← Option.ne_none_iff_exists', ne_eq, Dict.get?_eq_none, not_not]
  simp only [hmem, recvStore_apply]
  constructor
  · rintro ⟨t, hstores | ⟨hold, hnot⟩⟩
    · exact .inl ⟨t, hstores⟩
    · exact .inr ⟨⟨t, hold⟩, fun h => hnot (.inr h)⟩
  · rintro (⟨t, hstores⟩ | ⟨⟨t, hold⟩, hnot⟩)
    · exact ⟨t, .inl hstores⟩
    · by_cases hstores : ∃ u, e.Stores i u
      · obtain ⟨u, hu⟩ := hstores
        exact ⟨u, .inl hu⟩
      · exact ⟨t, .inr ⟨hold, by tauto⟩⟩

theorem mem_recvIds_apply (q : Text) : q ∈ (s.apply e).recvRequestIdToTensorIds ↔
    (∃ i, e.Arrives q i) ∨ q ∈ s.recvRequestIdToTensorIds ∧ ¬e.Finishes q := by
  cases e with
  | arrived i t => simp [P2pEngine.apply, add, Event.Arrives, Event.Finishes, eq_comm]
  | kept i t => simp [P2pEngine.apply, Event.Arrives, Event.Finishes]
  | sent i => simp [P2pEngine.apply, Event.Arrives, Event.Finishes]
  | finished r layers =>
    simp [P2pEngine.apply, Event.Arrives, Event.Finishes, and_comm, eq_comm]

theorem mem_sendIds_apply (q : Text) : q ∈ (s.apply e).sendRequestIdToTensorIds ↔
    (∃ i, e.Sends q i) ∨ q ∈ s.sendRequestIdToTensorIds ∧ ¬e.Finishes q := by
  cases e with
  | arrived i t => simp [P2pEngine.apply, Event.Sends, Event.Finishes]
  | kept i t => simp [P2pEngine.apply, Event.Sends, Event.Finishes]
  | sent i => simp [P2pEngine.apply, add, Event.Sends, Event.Finishes, eq_comm]
  | finished r layers =>
    simp [P2pEngine.apply, Event.Sends, Event.Finishes, and_comm, eq_comm]

end Tables

/-! ### All that has happened -/

section Runs
variable {es : List (Event τ)}

/-- `recv_tensor` finds a tensor if and only if it was the last one stored under its id and the
request has not been finished since: the end of another request never takes it away. -/
theorem recv_iff (hfinished : ∀ r layers, .finished r layers ∈ es → ∀ l ∈ layers, '#' ∉ l)
    {r l : Text} (hl : '#' ∉ l) (t : τ) :
    (P2pEngine.after es).recvTensor (tensorId r l) = some t ↔
      ∃ xs e ys, es = xs ++ e :: ys ∧ e.Stores (tensorId r l) t ∧
        ∀ f ∈ ys, (∀ u, ¬f.Stores (tensorId r l) u) ∧
          ∀ layers, f = .finished r layers → l ∉ layers := by
  have hsince := foldl_since (P := fun s : P2pEngine τ => s.recvStore.get? (tensorId r l) = some t)
    (fun s e => recvStore_apply (s := s) (e := e) (tensorId r l) t) {} es
  rw [P2pEngine.recvTensor, P2pEngine.after, hsince]
  simp only [Dict.get?_empty, reduceCtorEq, false_and, false_or, not_or, not_exists]
  have hreleases : ∀ f ∈ es, ¬f.Releases (tensorId r l) ↔
      ∀ layers, f = .finished r layers → l ∉ layers := by
    intro f hf
    constructor
    · rintro hnot layers rfl hl
      exact hnot ⟨r, layers, rfl, l, hl, rfl⟩
    · rintro hnot ⟨r', layers, rfl, l', hl', heq⟩
      obtain ⟨rfl, rfl⟩ := tensorId_inj hl (hfinished r' layers hf l' hl') heq
      exact hnot layers rfl hl'
  constructor
  · rintro ⟨xs, e, ys, rfl, hstores, hys⟩
    exact ⟨xs, e, ys, rfl, hstores, fun f hf =>
      ⟨(hys f hf).1, (hreleases f (by simp [hf])).mp (hys f hf).2⟩⟩
  · rintro ⟨xs, e, ys, rfl, hstores, hys⟩
    exact ⟨xs, e, ys, rfl, hstores, fun f hf =>
      ⟨(hys f hf).1, (hreleases f (by simp [hf])).mpr (hys f hf).2⟩⟩

/-- The end of request `a#b` between the arrival for request `a` and its use. -/
theorem recv_iff_other : (P2pEngine.after [.arrived (tensorId ['a'] ['0']) 7,
    .finished ['a', '#', 'b'] [['0']]]).recvTensor (tensorId ['a'] ['0']) = some 7 :=
  (recv_iff (by simp) (by simp) 7).mpr
    ⟨[], _, [.finished ['a', '#', 'b'] [['0']]], rfl, .inl rfl, by simp [Event.Stores]⟩

/-- The request and the layer of what is stored or sent. -/
def Event.About (r l : Text) : Event τ → Prop
  | .arrived i _ | .kept i _ | .sent i => i = tensorId r l
  | .finished _ _ => False

/-- Layer names without a `#`, and a `get_finished` that knows all layers. -/
structure Proper (layers : List Text) (es : List (Event τ)) : Prop where
  known : ∀ r ls, .finished r ls ∈ es → layers ⊆ ls
  plain : ∀ r ls, .finished r ls ∈ es → ∀ l ∈ ls, '#' ∉ l
  layer : ∀ l ∈ layers, '#' ∉ l
  about : ∀ e ∈ es, (∃ r ls, e = .finished r ls) ∨ ∃ r, ∃ l ∈ layers, e.About r l

def P2pEngine.Drained (s : P2pEngine τ) : Prop :=
  (∀ i, i ∉ s.recvStore) ∧ (∀ q, q ∉ s.recvRequestIdToTensorIds) ∧
    ∀ q, q ∉ s.sendRequestIdToTensorIds

theorem not_after_iff {P : P2pEngine τ → Prop} {adds clears : Event τ → Prop} (hinit : ¬P {})
    (hstep : ∀ s e, P (s.apply e) ↔ adds e ∨ P s ∧ ¬clears e) : ¬P (P2pEngine.after es) ↔
      ∀ xs e ys, es = xs ++ e :: ys → adds e → ∃ f ∈ ys, clears f := by
  rw [← not_since_iff, P2pEngine.after, foldl_since hstep]
  simp [hinit, Since]

theorem drained_tables : (P2pEngine.after es).Drained ↔
    (∀ i xs e ys, es = xs ++ e :: ys → (∃ t, e.Stores i t) → ∃ f ∈ ys, f.Releases i) ∧
      (∀ q xs e ys, es = xs ++ e :: ys → (∃ i, e.Arrives q i) → ∃ f ∈ ys, f.Finishes q) ∧
        ∀ q xs e ys, es = xs ++ e :: ys → (∃ i, e.Sends q i) → ∃ f ∈ ys, f.Finishes q := by
  refine and_congr (forall_congr' fun i => ?_)
    (and_congr (forall_congr' fun q => ?_) (forall_congr' fun q => ?_))
  · exact not_after_iff (P := fun s => i ∈ s.recvStore) (by simp)
      fun s e => mem_recvStore_apply i
  · exact not_after_iff (P := fun s => q ∈ s.recvRequestIdToTensorIds) (by simp)
      fun s e => mem_recvIds_apply q
  · exact not_after_iff (P := fun s => q ∈ s.sendRequestIdToTensorIds) (by simp)
      fun s e => mem_sendIds_apply q

theorem Proper.releases_iff {layers : List Text} (h : Proper layers es) {f : Event τ} (hf : f ∈ es)
    {r l : Text} (hl : l ∈ layers) : f.Releases (tensorId r l) ↔ f.Finishes r := by
  constructor
  · rintro ⟨r', ls, rfl, l', hl', heq⟩
    obtain ⟨rfl, -⟩ := tensorId_inj (h.layer l hl) (h.plain r' ls hf l' hl') heq
    exact ⟨ls, rfl⟩
  · rintro ⟨ls, rfl⟩
    exact ⟨r, ls, rfl, l, h.known r ls hf hl, rfl⟩

/-- Nothing is left in any of the tables if and only if every tensor that came or was kept is
followed by the end of its request, and every one that came or was sent by the end of the request
that its id names up to the first `#`. -/
theorem drained_iff {layers : List Text} (hproper : Proper layers es) :
    (P2pEngine.after es).Drained ↔
      ∀ xs e ys r, ∀ l ∈ layers, es = xs ++ e :: ys → e.About r l →
        ((∀ i, e ≠ .sent i) → ∃ f ∈ ys, f.Finishes r) ∧
        ((∀ i t, e ≠ .kept i t) → ∃ f ∈ ys, f.Finishes (requestIdOf r)) := by
  rw [drained_tables]
  constructor
  · rintro ⟨hstore, hrecv, hsent⟩ xs e ys r l hl hes habout
    have hid := requestIdOf_tensorId r l
    have hlate : ∀ t, e.Stores (tensorId r l) t → ∃ f ∈ ys, f.Finishes r := by
      intro t hstores
      obtain ⟨f, hf, hreleases⟩ := hstore _ xs e ys hes ⟨t, hstores⟩
      exact ⟨f, hf, (hproper.releases_iff (by simp [hes, hf]) hl).mp hreleases⟩
    cases e with
    | arrived i t =>
      cases habout
      exact ⟨fun _ => hlate t (.inl rfl), fun _ => hrecv _ xs _ ys hes ⟨_, ⟨t, rfl⟩, hid⟩⟩
    | kept i t =>
      cases habout
      exact ⟨fun _ => hlate t (.inr rfl), fun h => absurd rfl (h _ t)⟩
    | sent i =>
      cases habout
      exact ⟨fun h => absurd rfl (h _), fun _ => hsent _ xs _ ys hes ⟨_, rfl, hid⟩⟩
    | finished r' ls => cases habout
  · intro hfollowed
    have habout : ∀ {xs e ys}, es = xs ++ e :: ys → (∀ r ls, e ≠ .finished r ls) →
        ∃ r, ∃ l ∈ layers, e.About r l := by
      intro xs e ys hes hother
      rcases hproper.about e (by simp [hes]) with ⟨r, ls, rfl⟩ | habout
      · exact absurd rfl (hother r ls)
      · exact habout
    refine ⟨fun i xs e ys hes hstores => ?_, fun q xs e ys hes harrives => ?_,
      fun q xs e ys hes hsends => ?_⟩
    · obtain ⟨t, rfl | rfl⟩ := hstores
      all_goals
        obtain ⟨r, l, hl, rfl⟩ := habout hes (by simp)
        obtain ⟨f, hf, hfinishes⟩ := (hfollowed xs _ ys r l hl hes rfl).1 (by simp)
        exact ⟨f, hf, (hproper.releases_iff (by simp [hes, hf]) hl).mpr hfinishes⟩
    · obtain ⟨i, ⟨t, rfl⟩, rfl⟩ := harrives
      obtain ⟨r, l, hl, rfl⟩ := habout hes (by simp)
      rw [requestIdOf_tensorId]
      exact (hfollowed xs _ ys r l hl hes rfl).2 (by simp)
    · obtain ⟨i, rfl, rfl⟩ := hsends
      obtain ⟨r, l, hl, rfl⟩ := habout hes (by simp)
      rw [requestIdOf_tensorId]
      exact (hfollowed xs _ ys r l hl hes rfl).2 (by simp)

/-- A tensor that arrives when its request has been finished stays for good. -/
theorem drained_iff_late : ¬(P2pEngine.after [.arrived (tensorId ['a'] ['0']) 7,
    .finished ['a'] [['0']], .arrived (tensorId ['a'] ['0']) 8]).Drained := by
  have hproper : Proper [['0']] [.arrived (tensorId ['a'] ['0']) 7, .finished ['a'] [['0']],
      .arrived (tensorId ['a'] ['0']) 8] := by
    refine ⟨by simp, by simp, by simp, ?_⟩
    simp only [List.forall_mem_cons]
    exact ⟨.inr ⟨['a'], ['0'], by simp, rfl⟩, .inl ⟨_, _, rfl⟩,
      .inr ⟨['a'], ['0'], by simp, rfl⟩, by simp⟩
  rw [drained_iff hproper]
  intro h
  obtain ⟨f, hf, -⟩ := (h [_, _] _ [] ['a'] ['0'] (by simp) rfl rfl).1 (by simp)
  cases hf

end Runs

end Llumnix.Transfer.Lifecycle
