import Llumnix.Python.Text
import Mathlib.Algebra.Ring.Nat

/-! The endpoints that a P/D request carries in its id: how they get in, and how the connector and
the outputs read them back. -/
namespace Llumnix.Transfer

open Python

abbrev Text := List Char

/-- What `str.isdigit` and `int` know about characters. Both know more than the ASCII digits:
`'²'.isdigit()` holds and `int('²')` raises. `maxStrDigits` is `sys.get_int_max_str_digits()`,
which is not set below 640. -/
structure Digits where
  isDigit : Char → Bool
  value : Char → Option ℕ
  maxStrDigits : Option ℕ
  ascii : ∀ c : Char, c.isDigit = true → isDigit c = true ∧ value c = some (c.toNat - 48)
  plain : ∀ c : Char, c.toNat < 128 → isDigit c = true → c.isDigit = true
  threshold : ∀ n ∈ maxStrDigits, 640 ≤ n

namespace Digits

def isdigit (D : Digits) (s : Text) : Bool := !s.isEmpty && s.all D.isDigit

/-- There are more digits than `int` converts. -/
def Excess (D : Digits) (s : Text) : Prop := ∃ n ∈ D.maxStrDigits, n < s.length

instance (D : Digits) (s : Text) : Decidable (D.Excess s) :=
  inferInstanceAs (Decidable (∃ n ∈ D.maxStrDigits, n < s.length))

/-- `int(s)` for an `s` that is made of digits. -/
def int (D : Digits) (s : Text) : Option ℕ :=
  if D.Excess s then none else s.foldlM (fun n c => (D.value c).map (10 * n + ·)) 0

end Digits

inductive Exc where
  | valueError (message : Text)
  | invalidLiteral (literal : Text)
  deriving DecidableEq

def p2pRequestIdPrefix : Text := "___decode_addr_".toList

def p2pRequestIdSuffix : Text := "___".toList

def p2pPrefillIdPrefix : Text := "___prefill_addr_".toList

variable (D : Digits)

def validP2pEndpoint : Option Text → Except Exc Bool
  | none => .ok false
  | some address =>
    match rpartition ':' address with
    | none => .ok false
    | some (host, port) =>
      if host = [] ∨ D.isdigit port = false then .ok false
      else
        match D.int port with
        | none => .error (.invalidLiteral port)
        | some n => .ok (decide (0 < n ∧ n < 65536))

def stripP2pRequestId (requestId : Text) : Text :=
  let markers := [find p2pRequestIdPrefix requestId, find p2pPrefillIdPrefix requestId]
  match markers.reduceOption.min? with
  | none => requestId
  | some marker => requestId.take marker

/-- Attach an address after its marker, unless the id has the marker already. -/
def decorate (marker message : Text) (requestId : Text) (address : Option Text) :
    Except Exc Text :=
  match address with
  | none | some [] => .ok requestId
  | some address =>
    if marker <:+: requestId then .ok requestId
    else
      match validP2pEndpoint D (some address) with
      | .error e => .error e
      | .ok false => .error (.valueError message)
      | .ok true => .ok (requestId ++ marker ++ address ++ p2pRequestIdSuffix)

def decorateP2pRequestId : Text → Option Text → Except Exc Text :=
  decorate D p2pRequestIdPrefix
    "LLUMNIX_KV_DECODE_ADDRESS must be a concrete host:port for P2pNcclConnector".toList

def decorateP2pConsumerRequestId : Text → Option Text → Except Exc Text :=
  decorate D p2pPrefillIdPrefix "prefill P2P endpoint must be a concrete host:port".toList

def decorateP2pPdRequestId (requestId decodeAddress prefillAddress : Text) : Except Exc Text :=
  (decorateP2pRequestId D requestId (some decodeAddress)).bind fun s =>
    decorateP2pConsumerRequestId D s (some prefillAddress)

def noEndpoint (requestId : Text) : Exc :=
  .valueError ("Request id ".toList ++ requestId ++ " does not contain hostname and port".toList)

def parseRequestId (requestId : Text) (isPrefill : Bool) : Except Exc (Text × ℕ) :=
  let marker := if isPrefill then p2pRequestIdPrefix else p2pPrefillIdPrefix
  match find marker requestId with
  | none => .error (noEndpoint requestId)
  | some start =>
    match rpartition ':' (before p2pRequestIdSuffix (requestId.drop (start + marker.length))) with
    | none => .error (noEndpoint requestId)
    | some (host, port) =>
      if host = [] ∨ D.isdigit port = false then .error (noEndpoint requestId)
      else
        match D.int port with
        | none => .error (.invalidLiteral port)
        | some n => .ok (host, n)

/-- The number that ASCII digits write. -/
def decimal (s : Text) : ℕ := s.foldl (fun n c => 10 * n + (c.toNat - 48)) 0

/-- An endpoint with a plain host and a plain port. -/
structure Endpoint where
  host : Text
  port : Text
  host_ne : host ≠ []
  host_plain : '_' ∉ host
  port_ascii : ∀ c ∈ port, c.isDigit = true
  port_lead : port.head? ≠ some '0'
  port_range : 0 < decimal port ∧ decimal port < 65536

namespace Endpoint

def address (e : Endpoint) : Text := e.host ++ ':' :: e.port

def number (e : Endpoint) : ℕ := decimal e.port

end Endpoint

section Port
variable {D} {s : Text}

theorem isdigit_of_ascii (hne : s ≠ []) (h : ∀ c ∈ s, c.isDigit = true) : D.isdigit s = true := by
  have hall : s.all D.isDigit = true := by
    rw [List.all_eq_true]
    intro c hc
    exact (D.ascii c (h c hc)).1
  simp [Digits.isdigit, hne, hall]

theorem foldlM_of_ascii (h : ∀ c ∈ s, c.isDigit = true) (n : ℕ) :
    s.foldlM (fun n c => (D.value c).map (10 * n + ·)) n =
      some (s.foldl (fun n c => 10 * n + (c.toNat - 48)) n) := by
  induction s generalizing n with
  | nil => simp
  | cons c s ih =>
    have hc := (D.ascii c (h c List.mem_cons_self)).2
    have hs := ih fun d hd => h d (List.mem_cons_of_mem c hd)
    simp [List.foldlM_cons, hc, hs]

theorem int_of_ascii (h : ∀ c ∈ s, c.isDigit = true) :
    D.int s = if D.Excess s then none else some (decimal s) := by
  rw [Digits.int, foldlM_of_ascii h]
  rfl

theorem mul_pow_le_foldl (s : Text) (n : ℕ) :
    n * 10 ^ s.length ≤ s.foldl (fun n c => 10 * n + (c.toNat - 48)) n := by
  induction s generalizing n with
  | nil => simp
  | cons c s ih =>
    refine le_trans ?_ (ih (10 * n + (c.toNat - 48)))
    rw [List.length_cons, Nat.pow_succ', ← Nat.mul_assoc, Nat.mul_comm n 10]
    exact Nat.mul_le_mul_right _ (Nat.le_add_right _ _)

theorem length_le_of_decimal_lt (h : ∀ c ∈ s, c.isDigit = true) (hlead : s.head? ≠ some '0')
    (hlt : decimal s < 65536) : s.length ≤ 5 := by
  cases s with
  | nil => simp
  | cons c s =>
    have hc := h c List.mem_cons_self
    have hzero : c ≠ '0' := fun h => hlead (congrArg some h)
    have hpos : 1 ≤ c.toNat - 48 := by
      have hbounds : 48 ≤ c.val ∧ c.val ≤ 57 := by simpa [Char.isDigit] using hc
      have hle : 48 ≤ c.toNat := UInt32.le_iff_toNat_le.mp hbounds.1
      have hne : c.toNat ≠ 48 := fun h => hzero (Char.toNat_inj.mp h)
      omega
    have hfold : 1 * 10 ^ s.length ≤ decimal (c :: s) := by
      refine le_trans (Nat.mul_le_mul_right _ ?_) (mul_pow_le_foldl s (10 * 0 + (c.toNat - 48)))
      omega
    by_contra hlong
    have hpow : 10 ^ 5 ≤ 10 ^ s.length :=
      Nat.pow_le_pow_right (by decide) (by rw [List.length_cons] at hlong; omega)
    omega

end Port

namespace Endpoint
variable {D} (e : Endpoint)

theorem port_ne : e.port ≠ [] := by
  intro h
  have hpos := e.port_range.1
  simp [h, decimal] at hpos

theorem isdigit_port : D.isdigit e.port = true := isdigit_of_ascii e.port_ne e.port_ascii

theorem int_port : D.int e.port = some e.number := by
  have hshort := length_le_of_decimal_lt e.port_ascii e.port_lead e.port_range.2
  rw [int_of_ascii e.port_ascii, if_neg]
  · rfl
  · rintro ⟨n, hn, hlt⟩
    have := D.threshold n hn
    omega

theorem not_mem_port {c : Char} (hc : c.isDigit = false) : c ∉ e.port := by
  intro h
  simp [e.port_ascii c h] at hc

theorem rpartition_address : rpartition ':' e.address = some (e.host, e.port) :=
  rpartition_append (e.not_mem_port (by decide))

theorem address_ne : e.address ≠ [] := by simp [address]

theorem address_plain : '_' ∉ e.address := by
  have hport : '_' ∉ e.port := e.not_mem_port (by decide)
  simp [address, e.host_plain, hport]

theorem valid_address : validP2pEndpoint D (some e.address) = .ok true := by
  have hrange : 0 < e.number ∧ e.number < 65536 := e.port_range
  simp [validP2pEndpoint, e.rpartition_address, e.host_ne, e.isdigit_port, e.int_port, hrange]

end Endpoint

/-- Neither marker is in the id, and neither becomes complete with the underscore that follows. -/
def Unmarked (r : Text) : Prop :=
  ¬p2pRequestIdPrefix <:+: r ++ ['_'] ∧ ¬p2pPrefillIdPrefix <:+: r ++ ['_']

instance (r : Text) : Decidable (Unmarked r) := inferInstanceAs (Decidable (_ ∧ _))

def decorated (r : Text) (d p : Endpoint) : Text :=
  r ++ p2pRequestIdPrefix ++ d.address ++ p2pRequestIdSuffix ++ p2pPrefillIdPrefix ++ p.address ++
    p2pRequestIdSuffix

section Unmarked
variable {D} {r : Text}

theorem infix_underscore {marker : Text} (h : marker <:+: r) : marker <:+: r ++ ['_'] :=
  h.trans (List.prefix_append r _).isInfix

theorem decode_first (h : ¬p2pRequestIdPrefix <:+: r ++ ['_']) :
    ¬p2pRequestIdPrefix <:+: r ++ p2pRequestIdPrefix.dropLast := by
  have hborder : ∀ k < 15, 0 < k → k + 1 < 15 →
      ¬p2pRequestIdPrefix.drop k <+: p2pRequestIdPrefix.dropLast := by decide
  have hlength : p2pRequestIdPrefix.length = 15 := by decide
  intro hin
  apply h
  refine infix_append_take (fun k hk hlen => ?_) (by decide) hin
  exact hborder k (by omega) hk (by omega)

theorem prefill_not_after (d : Endpoint) {t : Text} (ht : ¬p2pPrefillIdPrefix <:+: t) :
    ¬p2pPrefillIdPrefix <:+: p2pRequestIdPrefix ++ (d.address ++ t) := by
  have hseam : ∀ k < 16, 0 < k → p2pPrefillIdPrefix.take k <:+ p2pRequestIdPrefix →
      (p2pPrefillIdPrefix.drop k).head? = some '_' := by decide
  intro hin
  rcases infix_append_cases hin with hin | hin | ⟨u, v, hp, hu, hv, hua, hvb⟩
  · exact absurd hin (by decide)
  · exact ht (infix_append_of_head d.address_plain hin)
  · have hlength : u.length + v.length = 16 := by
      rw [← List.length_append, ← hp]
      decide
    have hupos : 0 < u.length := List.length_pos_iff.mpr hu
    have hvpos : 0 < v.length := List.length_pos_iff.mpr hv
    have htake : p2pPrefillIdPrefix.take u.length = u := by
      rw [hp]
      exact List.take_left
    have hdrop : p2pPrefillIdPrefix.drop u.length = v := by
      rw [hp]
      exact List.drop_left
    have hhead := hseam u.length (by omega) hupos (htake.symm ▸ hua)
    rw [hdrop] at hhead
    -- what follows the decode marker is the address, which has no underscore
    obtain ⟨c, host, hhost⟩ := List.exists_cons_of_ne_nil d.address_ne
    obtain ⟨w, hw⟩ := hvb
    obtain ⟨x, v, rfl⟩ := List.exists_cons_of_ne_nil hv
    have hx : x = '_' := by simpa using hhead
    have hc : x = c := by
      rw [hhost] at hw
      exact (List.cons.inj hw).1
    have hmem : '_' ∈ d.address := by
      rw [hhost, ← hx, hc]
      exact List.mem_cons_self
    exact d.address_plain hmem

theorem prefill_first (d : Endpoint) (h : ¬p2pPrefillIdPrefix <:+: r ++ ['_']) :
    ¬p2pPrefillIdPrefix <:+: r ++ p2pRequestIdPrefix ++ d.address ++ p2pRequestIdSuffix ++
      p2pPrefillIdPrefix.dropLast := by
  have hborder : ∀ k < 16, 0 < k → k + 1 < 16 →
      ¬p2pPrefillIdPrefix.drop k <+: p2pRequestIdPrefix := by decide
  have hlength : p2pPrefillIdPrefix.length = 16 := by decide
  have hlength' : p2pRequestIdPrefix.length = 15 := by decide
  simp only [List.append_assoc]
  intro hin
  apply h
  refine infix_append_take (fun k hk hlen hpre => ?_) (prefill_not_after d (by decide)) hin
  refine hborder k (by omega) hk (by omega) ?_
  refine List.prefix_of_prefix_length_le hpre (List.prefix_append _ _) ?_
  rw [List.length_drop]
  omega

theorem suffix_first (e : Endpoint) :
    ¬p2pRequestIdSuffix <:+: e.address ++ p2pRequestIdSuffix.dropLast := by
  intro hin
  have hrest := infix_append_of_head e.address_plain hin
  exact absurd hrest (by decide)

end Unmarked

section Routed
variable {D} {r : Text} (d p : Endpoint)

theorem decorate_of_absent {marker message : Text} (e : Endpoint) (h : ¬marker <:+: r) :
    decorate D marker message r (some e.address) =
      .ok (r ++ marker ++ e.address ++ p2pRequestIdSuffix) := by
  obtain ⟨c, s, hs⟩ := List.exists_cons_of_ne_nil e.address_ne
  have hvalid : validP2pEndpoint D (some e.address) = .ok true := e.valid_address
  rw [hs] at hvalid ⊢
  simp [decorate, h, hvalid]

theorem decorate_of_present {marker message : Text} (e : Endpoint) (h : marker <:+: r) :
    decorate D marker message r (some e.address) = .ok r := by
  obtain ⟨c, s, hs⟩ := List.exists_cons_of_ne_nil e.address_ne
  rw [hs]
  simp [decorate, h]

theorem decorate_pd (h : Unmarked r) :
    decorateP2pPdRequestId D r d.address p.address = .ok (decorated r d p) := by
  have hdecode : ¬p2pRequestIdPrefix <:+: r := fun hin => h.1 (infix_underscore hin)
  have hprefill : ¬p2pPrefillIdPrefix <:+:
      r ++ p2pRequestIdPrefix ++ d.address ++ p2pRequestIdSuffix := fun hin =>
    prefill_first d h.2 (hin.trans (List.prefix_append _ _).isInfix)
  unfold decorateP2pPdRequestId decorateP2pRequestId decorateP2pConsumerRequestId
  rw [decorate_of_absent d hdecode]
  exact decorate_of_absent p hprefill

theorem find_decode (h : Unmarked r) :
    find p2pRequestIdPrefix (decorated r d p) = some r.length := by
  have hfind := find_append (t := d.address ++ (p2pRequestIdSuffix ++ (p2pPrefillIdPrefix ++
    (p.address ++ p2pRequestIdSuffix)))) (by decide) (decode_first h.1)
  simpa only [decorated, List.append_assoc] using hfind

theorem find_prefill (h : Unmarked r) : find p2pPrefillIdPrefix (decorated r d p) =
    some (r ++ p2pRequestIdPrefix ++ d.address ++ p2pRequestIdSuffix).length := by
  have hfind := find_append (t := p.address ++ p2pRequestIdSuffix) (by decide) (prefill_first d h.2)
  simpa only [decorated, List.append_assoc] using hfind

theorem parse_eq {s t : Text} {isPrefill : Bool} {start : ℕ} (e : Endpoint)
    (hfind : find (if isPrefill then p2pRequestIdPrefix else p2pPrefillIdPrefix) s = some start)
    (hdrop : s.drop
      (start + (if isPrefill then p2pRequestIdPrefix else p2pPrefillIdPrefix).length) =
        e.address ++ p2pRequestIdSuffix ++ t) :
    parseRequestId D s isPrefill = .ok (e.host, e.number) := by
  have hvalue : before p2pRequestIdSuffix (e.address ++ p2pRequestIdSuffix ++ t) = e.address :=
    before_append (by decide) (suffix_first e)
  unfold parseRequestId
  simp only [hfind, hdrop, hvalue, e.rpartition_address]
  simp [e.host_ne, e.isdigit_port, e.int_port]

theorem parse_decode (h : Unmarked r) :
    parseRequestId D (decorated r d p) true = .ok (d.host, d.number) := by
  refine parse_eq (t := p2pPrefillIdPrefix ++ (p.address ++ p2pRequestIdSuffix)) d
    (find_decode d p h) ?_
  have hsplit : decorated r d p = (r ++ p2pRequestIdPrefix) ++ (d.address ++ p2pRequestIdSuffix ++
      (p2pPrefillIdPrefix ++ (p.address ++ p2pRequestIdSuffix))) := by
    simp only [decorated, List.append_assoc]
  rw [hsplit]
  exact List.drop_left' (List.length_append)

theorem parse_prefill (h : Unmarked r) :
    parseRequestId D (decorated r d p) false = .ok (p.host, p.number) := by
  refine parse_eq (t := []) p (find_prefill d p h) ?_
  have hsplit : decorated r d p = (r ++ p2pRequestIdPrefix ++ d.address ++ p2pRequestIdSuffix ++
      p2pPrefillIdPrefix) ++ (p.address ++ p2pRequestIdSuffix ++ []) := by
    simp only [decorated, List.append_assoc, List.append_nil]
  rw [hsplit]
  exact List.drop_left' (List.length_append)

theorem strip_decorated (h : Unmarked r) : stripP2pRequestId (decorated r d p) = r := by
  unfold stripP2pRequestId
  rw [find_decode d p h, find_prefill d p h]
  have hmin : ∀ m n : ℕ, [some m, some n].reduceOption.min? = some (min m n) := fun _ _ => rfl
  have hle : r.length ≤ (r ++ p2pRequestIdPrefix ++ d.address ++ p2pRequestIdSuffix).length := by
    simp only [List.length_append]
    omega
  simp only [hmin, Nat.min_eq_left hle]
  simp [decorated]

/-- A marker that ends before the id does cuts the id short. -/
theorem strip_ne {marker s : Text} (hmarker : marker ∈ [p2pRequestIdPrefix, p2pPrefillIdPrefix])
    (hin : marker <:+: r ++ ['_']) (hs : r ++ ['_'] <+: s ∨ marker <:+: r ∧ r <+: s) :
    stripP2pRequestId s ≠ r := by
  have hlong : 15 ≤ marker.length := by
    rcases List.mem_pair.mp hmarker with rfl | rfl <;> decide
  obtain ⟨n, hn, hfind⟩ : ∃ n < r.length, find marker s = some n := by
    rcases hs with ⟨t, rfl⟩ | ⟨hr, t, rfl⟩
    · obtain ⟨n, hn, hfind⟩ := find_of_infix_append (t := t) hin
      rw [List.length_append, List.length_singleton] at hn
      exact ⟨n, by omega, hfind⟩
    · obtain ⟨n, hn, hfind⟩ := find_of_infix_append (t := t) hr
      exact ⟨n, by omega, hfind⟩
  have hmem : n ∈ [find p2pRequestIdPrefix s, find p2pPrefillIdPrefix s].reduceOption := by
    have hsome : some n ∈ [find p2pRequestIdPrefix s, find p2pPrefillIdPrefix s] := by
      rw [← hfind]
      rcases List.mem_pair.mp hmarker with rfl | rfl <;> simp
    exact List.mem_filterMap.mpr ⟨some n, hsome, rfl⟩
  intro heq
  unfold stripP2pRequestId at heq
  cases hmin : [find p2pRequestIdPrefix s, find p2pPrefillIdPrefix s].reduceOption.min? with
  | none =>
    rw [List.min?_eq_none_iff] at hmin
    rw [hmin] at hmem
    cases hmem
  | some m =>
    have hle : m ≤ n := (List.min?_eq_some_iff.mp hmin).2 n hmem
    have hlen : (s.take m).length = r.length := by
      simp only [hmin] at heq
      rw [heq]
    rw [List.length_take] at hlen
    omega

end Routed

/-- Both sides of the transfer read their own peer out of the id, and the outputs get the id of the
client back. -/
def Routed (r : Text) (d p : Endpoint) : Prop :=
  ∃ s, decorateP2pPdRequestId D r d.address p.address = .ok s ∧
    parseRequestId D s true = .ok (d.host, d.number) ∧
    parseRequestId D s false = .ok (p.host, p.number) ∧ stripP2pRequestId s = r

theorem strip_ne_of_marked {D} {r s : Text} {d p : Endpoint} (h : ¬Unmarked r)
    (hs : decorateP2pPdRequestId D r d.address p.address = .ok s) : stripP2pRequestId s ≠ r := by
  unfold decorateP2pPdRequestId decorateP2pRequestId decorateP2pConsumerRequestId at hs
  have hgrows : ∀ {marker message r' s' : Text} {e : Endpoint},
      decorate D marker message r' (some e.address) = .ok s' → r' <+: s' := by
    intro marker message r' s' e heq
    by_cases hin : marker <:+: r'
    · rw [decorate_of_present e hin] at heq
      cases heq
      exact List.prefix_rfl
    · rw [decorate_of_absent e hin] at heq
      cases heq
      simp only [List.append_assoc]
      exact List.prefix_append r' _
  by_cases hdecode : p2pRequestIdPrefix <:+: r
  · rw [decorate_of_present d hdecode] at hs
    exact strip_ne (by simp) (infix_underscore hdecode) (.inr ⟨hdecode, hgrows hs⟩)
  · rw [decorate_of_absent d hdecode] at hs
    have hpre : r ++ ['_'] <+: s := by
      refine List.IsPrefix.trans ⟨p2pRequestIdPrefix.tail ++ d.address ++ p2pRequestIdSuffix, ?_⟩
        (hgrows hs)
      simp only [List.append_assoc]
      rfl
    unfold Unmarked at h
    rw [not_and_or, not_not, not_not] at h
    rcases h with h | h
    · exact strip_ne (by simp) h (.inl hpre)
    · exact strip_ne (by simp) h (.inl hpre)

/-- For every id and all plain endpoints: the routing is as intended if and only if neither marker
is in the id or becomes complete with the underscore that follows. -/
theorem routed_iff_unmarked (r : Text) (d p : Endpoint) : Routed D r d p ↔ Unmarked r := by
  constructor
  · rintro ⟨s, hs, -, -, hstrip⟩
    by_contra h
    exact strip_ne_of_marked h hs hstrip
  · intro h
    refine ⟨decorated r d p, decorate_pd d p h, ?_, ?_, ?_⟩
    · exact parse_decode d p h
    · exact parse_prefill d p h
    · exact strip_decorated d p h

section Sample

theorem threshold_default : ∀ n ∈ some 4300, 640 ≤ n := by
  intro n hn
  cases hn
  decide

def asciiDigits : Digits where
  isDigit c := c.isDigit
  value c := if c.isDigit then some (c.toNat - 48) else none
  maxStrDigits := some 4300
  ascii c hc := by simp [hc]
  plain _ _ hc := hc
  threshold := threshold_default

def sampleDecode : Endpoint where
  host := "d".toList
  port := "1".toList
  host_ne := by decide
  host_plain := by decide
  port_ascii := List.all_eq_true.mp (by decide)
  port_lead := by decide
  port_range := by decide

def samplePrefill : Endpoint where
  host := "p".toList
  port := "2".toList
  host_ne := by decide
  host_plain := by decide
  port_ascii := List.all_eq_true.mp (by decide)
  port_lead := by decide
  port_range := by decide

/-- An id that brings a decode address of its own is routed there; one that ends in all of the
marker but its last underscore does not get through either. -/
theorem routed_by_client :
    (∃ s, decorateP2pPdRequestId asciiDigits "q___decode_addr_x:9___".toList sampleDecode.address
        samplePrefill.address = .ok s ∧ parseRequestId asciiDigits s true = .ok (['x'], 9)) ∧
      ¬Routed asciiDigits "q___decode_addr_x:9___".toList sampleDecode samplePrefill ∧
      ¬Routed asciiDigits "q___decode_addr".toList sampleDecode samplePrefill := by
  have hlost : ∀ r, ¬Unmarked r → ¬Routed asciiDigits r sampleDecode samplePrefill := by
    rintro r hr ⟨s, hs, -, -, hstrip⟩
    exact strip_ne_of_marked hr hs hstrip
  have hbrought : decorateP2pPdRequestId asciiDigits "q___decode_addr_x:9___".toList
      sampleDecode.address samplePrefill.address =
        .ok "q___decode_addr_x:9______prefill_addr_p:2___".toList := by decide
  refine ⟨⟨_, hbrought, by decide⟩, ?_, ?_⟩
  · exact hlost _ (by decide)
  · exact hlost _ (by decide)

end Sample

end Llumnix.Transfer
