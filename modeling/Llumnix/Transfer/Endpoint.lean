import Llumnix.Transfer.RequestId

/-! What the check of an endpoint accepts, and that the parser reads what it accepts. -/
namespace Llumnix.Transfer

open Python

/-- A host and a port in ASCII digits. -/
def WellFormed (a : Text) : Prop :=
  ∃ host port, a = host ++ ':' :: port ∧ host ≠ [] ∧ port ≠ [] ∧
    (∀ c ∈ port, c.isDigit = true) ∧ 1 ≤ decimal port ∧ decimal port ≤ 65535

variable (D : Digits)

/-- The port passes for digits, but `int` raises, or reads a port where there are other digits than
ASCII ones. -/
def Misread (port : Text) : Prop :=
  D.isdigit port = true ∧ (D.Excess port ∨ (∃ c ∈ port, D.value c = none) ∨
    (∃ c ∈ port, c.isDigit = false) ∧ ∃ n, D.int port = some n ∧ 0 < n ∧ n < 65536)

section Check
variable {D} {a s : Text} {host port : Text}

theorem int_eq_none_iff : D.int s = none ↔ D.Excess s ∨ ∃ c ∈ s, D.value c = none := by
  have hfold : ∀ n, s.foldlM (fun n c => (D.value c).map (10 * n + ·)) n = none ↔
      ∃ c ∈ s, D.value c = none := by
    induction s with
    | nil => simp
    | cons c s ih =>
      intro n
      cases hc : D.value c with
      | none => simp [List.foldlM_cons, hc]
      | some m => simp [List.foldlM_cons, hc, ih]
  unfold Digits.int
  split_ifs with hexcess
  · simp [hexcess]
  · simp [hexcess, hfold]

theorem ne_of_isdigit (h : D.isdigit s = true) : s ≠ [] := by
  rintro rfl
  cases h

theorem not_mem_of_isdigit {c : Char} (h : D.isdigit s = true) (hlow : c.toNat < 128)
    (hc : c.isDigit = false) : c ∉ s := by
  intro hin
  have hall := (Bool.and_eq_true_iff.mp h).2
  have := D.plain c hlow (List.all_eq_true.mp hall c hin)
  simp [hc] at this

theorem wellFormed_iff (h : rpartition ':' a = some (host, port)) :
    WellFormed a ↔ host ≠ [] ∧ port ≠ [] ∧ (∀ c ∈ port, c.isDigit = true) ∧
      1 ≤ decimal port ∧ decimal port ≤ 65535 := by
  constructor
  · rintro ⟨host', port', ha, hrest⟩
    have hcolon : ':' ∉ port' := fun hin => absurd (hrest.2.2.1 ':' hin) (by decide)
    rw [ha, rpartition_append hcolon] at h
    cases h
    exact hrest
  · exact fun hrest => ⟨host, port, (rpartition_eq_some h).1, hrest⟩

theorem not_wellFormed_of_none (h : rpartition ':' a = none) : ¬WellFormed a := by
  rintro ⟨host, port, rfl, -⟩
  exact rpartition_eq_none.mp h (by simp)

theorem valid_of_none (h : rpartition ':' a = none) : validP2pEndpoint D (some a) = .ok false := by
  simp [validP2pEndpoint, h]

theorem valid_of_undigit (h : rpartition ':' a = some (host, port))
    (hno : host = [] ∨ D.isdigit port = false) : validP2pEndpoint D (some a) = .ok false := by
  simp [validP2pEndpoint, h, hno]

theorem valid_of_int (h : rpartition ':' a = some (host, port)) (hhost : host ≠ [])
    (hport : D.isdigit port = true) {n : ℕ} (hint : D.int port = some n) :
    validP2pEndpoint D (some a) = .ok (decide (0 < n ∧ n < 65536)) := by
  simp [validP2pEndpoint, h, hhost, hport, hint]

theorem valid_of_int_none (h : rpartition ':' a = some (host, port)) (hhost : host ≠ [])
    (hport : D.isdigit port = true) (hint : D.int port = none) :
    validP2pEndpoint D (some a) = .error (.invalidLiteral port) := by
  simp [validP2pEndpoint, h, hhost, hport, hint]

theorem valid_of_excess (hhost : host ≠ []) {k : ℕ} (hexcess : ∃ n ∈ D.maxStrDigits, n < k) :
    validP2pEndpoint D (some (host ++ ':' :: List.replicate k '1')) =
      .error (.invalidLiteral (List.replicate k '1')) := by
  have hpos : k ≠ 0 := by
    rintro rfl
    obtain ⟨n, -, hn⟩ := hexcess
    omega
  have hones : ∀ c ∈ List.replicate k '1', c = '1' := fun c => List.eq_of_mem_replicate
  have hparts : rpartition ':' (host ++ ':' :: List.replicate k '1') =
      some (host, List.replicate k '1') :=
    rpartition_append fun hin => absurd (hones ':' hin) (by decide)
  have hport : D.isdigit (List.replicate k '1') = true :=
    isdigit_of_ascii (by simpa using hpos) fun c hc => by rw [hones c hc]; rfl
  refine valid_of_int_none hparts hhost hport (int_eq_none_iff.mpr (.inl ?_))
  simpa [Digits.Excess] using hexcess

theorem misread_of_int_none (hport : D.isdigit port = true) (hint : D.int port = none) :
    Misread D port := by
  rcases int_eq_none_iff.mp hint with h | h
  · exact ⟨hport, .inl h⟩
  · exact ⟨hport, .inr (.inl h)⟩

theorem misread_iff_of_int (hport : D.isdigit port = true) {n : ℕ} (hint : D.int port = some n) :
    Misread D port ↔ (∃ c ∈ port, c.isDigit = false) ∧ 0 < n ∧ n < 65536 := by
  have hread : ¬(D.Excess port ∨ ∃ c ∈ port, D.value c = none) := by
    rw [← int_eq_none_iff, hint]
    nofun
  obtain ⟨hexcess, hvalue⟩ := not_or.mp hread
  constructor
  · rintro ⟨-, h | h | ⟨hother, m, hm, hrange⟩⟩
    · exact absurd h hexcess
    · exact absurd h hvalue
    · cases hint.symm.trans hm
      exact ⟨hother, hrange⟩
  · exact fun ⟨hother, hrange⟩ => ⟨hport, .inr (.inr ⟨hother, n, hint, hrange⟩)⟩

theorem verdict_of_int (hport : D.isdigit port = true) {n : ℕ} (hint : D.int port = some n) :
    (decide (0 < n ∧ n < 65536) = true ↔
        (∀ c ∈ port, c.isDigit = true) ∧ 1 ≤ decimal port ∧ decimal port ≤ 65535) ↔
      ¬Misread D port := by
  rw [misread_iff_of_int hport hint, decide_eq_true_iff]
  by_cases hascii : ∀ c ∈ port, c.isDigit = true
  · have hn : n = decimal port := by
      rw [int_of_ascii hascii] at hint
      split_ifs at hint
      exact (Option.some.inj hint).symm
    have hnone : ¬∃ c ∈ port, c.isDigit = false := by
      rintro ⟨c, hc, hfalse⟩
      rw [hascii c hc] at hfalse
      cases hfalse
    rw [hn]
    refine iff_of_true ?_ fun h => hnone h.1
    rw [and_iff_right hascii]
    omega
  · have hsome : ∃ c ∈ port, c.isDigit = false := by simpa using hascii
    simp only [hascii, false_and, iff_false, hsome, true_and]

/-- The check answers for every address whose port is not misread, and rightly. -/
theorem verdict_iff (a : Text) :
    (∃ v, validP2pEndpoint D (some a) = .ok v ∧ (v = true ↔ WellFormed a)) ↔
      ¬∃ host port, rpartition ':' a = some (host, port) ∧ host ≠ [] ∧ Misread D port := by
  cases hparts : rpartition ':' a with
  | none =>
    refine iff_of_true ⟨false, valid_of_none hparts, ?_⟩ (by simp)
    simp [not_wellFormed_of_none hparts]
  | some parts =>
    obtain ⟨host, port⟩ := parts
    rw [wellFormed_iff hparts]
    by_cases hno : host = [] ∨ D.isdigit port = false
    · refine iff_of_true ⟨false, valid_of_undigit hparts hno, ?_⟩ ?_
      · simp only [Bool.false_eq_true, false_iff]
        rintro ⟨hhost, hport, hascii, -⟩
        rcases hno with hno | hno
        · exact hhost hno
        · rw [isdigit_of_ascii hport hascii] at hno
          cases hno
      · rintro ⟨_, _, ⟨⟩, hhost, hport, -⟩
        rcases hno with hno | hno
        · exact hhost hno
        · rw [hport] at hno
          cases hno
    obtain ⟨hhost, hport⟩ := not_or.mp hno
    rw [Bool.not_eq_false] at hport
    have hmis : (∃ host' port', some (host, port) = some (host', port') ∧ host' ≠ [] ∧
        Misread D port') ↔ Misread D port :=
      ⟨fun ⟨_, _, h, _, hm⟩ => by cases h; exact hm, fun hm => ⟨host, port, rfl, hhost, hm⟩⟩
    rw [hmis]
    cases hint : D.int port with
    | none =>
      rw [valid_of_int_none hparts hhost hport hint]
      exact iff_of_false (by simp) (not_not_intro (misread_of_int_none hport hint))
    | some n =>
      rw [valid_of_int hparts hhost hport hint, ← verdict_of_int hport hint]
      simp [hhost, ne_of_isdigit hport]

end Check

section Parse
variable {D} {r a : Text}

theorem accepted_cases (h : validP2pEndpoint D (some a) = .ok true) :
    ∃ host port n, a = host ++ ':' :: port ∧ ':' ∉ port ∧ host ≠ [] ∧ D.isdigit port = true ∧
      D.int port = some n ∧ 0 < n ∧ n < 65536 := by
  cases hparts : rpartition ':' a with
  | none =>
    rw [valid_of_none hparts] at h
    cases h
  | some parts =>
    obtain ⟨host, port⟩ := parts
    obtain ⟨ha, hcolon⟩ := rpartition_eq_some hparts
    by_cases hno : host = [] ∨ D.isdigit port = false
    · rw [valid_of_undigit hparts hno] at h
      cases h
    obtain ⟨hhost, hport⟩ := not_or.mp hno
    rw [Bool.not_eq_false] at hport
    cases hint : D.int port with
    | none =>
      rw [valid_of_int_none hparts hhost hport hint] at h
      cases h
    | some n =>
      rw [valid_of_int hparts hhost hport hint] at h
      have hrange : 0 < n ∧ n < 65536 := by simpa using h
      exact ⟨host, port, n, ha, hcolon, hhost, hport, hint, hrange⟩

theorem closing_first {s port : Text} (hs : ¬p2pRequestIdSuffix <:+: s ++ port)
    (hne : port ≠ []) (hport : '_' ∉ port) :
    ¬p2pRequestIdSuffix <:+: s ++ port ++ p2pRequestIdSuffix.dropLast := by
  intro hin
  rcases infix_append_cases hin with hin | hin | ⟨u, v, huv, hu, hv, hus, -⟩
  · exact hs hin
  · exact absurd hin (by decide)
  · obtain ⟨x, hx⟩ := hus
    have hlast : u.getLast hu ∈ port := by
      have hends := congrArg List.getLast? hx
      rw [List.getLast?_append_of_ne_nil _ hu, List.getLast?_append_of_ne_nil _ hne,
        List.getLast?_eq_getLast_of_ne_nil hu] at hends
      exact List.mem_of_getLast? hends.symm
    have hunder : u.getLast hu = '_' := by
      have hmem : u.getLast hu ∈ p2pRequestIdSuffix := by
        rw [huv]
        exact List.mem_append_left v (List.getLast_mem hu)
      simpa [p2pRequestIdSuffix] using hmem
    exact hport (hunder ▸ hlast)

theorem parse_of_first {s text port t : Text} {n : ℕ} (hfind : ¬p2pRequestIdPrefix <:+:
      s ++ p2pRequestIdPrefix.dropLast) (hclose : ¬p2pRequestIdSuffix <:+: text ++ ':' :: port)
    (htext : text ≠ []) (hcolon : ':' ∉ port) (hport : D.isdigit port = true)
    (hint : D.int port = some n) :
    parseRequestId D (s ++ p2pRequestIdPrefix ++ (text ++ ':' :: port ++ p2pRequestIdSuffix ++ t))
      true = .ok (text, n) := by
  have hunder : '_' ∉ port := not_mem_of_isdigit hport (by decide) (by decide)
  have hfirst := closing_first (s := text ++ [':']) (by simpa using hclose) (ne_of_isdigit hport)
    hunder
  have hvalue : before p2pRequestIdSuffix (text ++ ':' :: port ++ p2pRequestIdSuffix ++ t) =
      text ++ ':' :: port := before_append (by decide) (by simpa using hfirst)
  have hdrop : (s ++ p2pRequestIdPrefix ++ (text ++ ':' :: port ++ p2pRequestIdSuffix ++ t)).drop
      (s.length + p2pRequestIdPrefix.length) =
        text ++ ':' :: port ++ p2pRequestIdSuffix ++ t := List.drop_left' List.length_append
  unfold parseRequestId
  simp only [if_true, find_append (by decide : p2pRequestIdPrefix ≠ []) hfind, hdrop, hvalue,
    rpartition_append hcolon]
  simp [htext, hport, hint]

theorem marker_eq : p2pRequestIdPrefix = p2pRequestIdPrefix.dropLast ++ ['_'] := by decide

/-- A marker that is not in the id, but becomes complete with the underscore that follows, ends
it. -/
theorem ends_of_completed (hr : ¬p2pRequestIdPrefix <:+: r)
    (h : p2pRequestIdPrefix <:+: r ++ ['_']) : ∃ x, r = x ++ p2pRequestIdPrefix.dropLast := by
  obtain ⟨x, y, hxy⟩ := h
  rcases List.eq_nil_or_concat' y with rfl | ⟨y, c, rfl⟩
  · rw [List.append_nil, marker_eq, ← List.append_assoc] at hxy
    exact ⟨x, (List.append_inj' hxy rfl).1.symm⟩
  · rw [← List.append_assoc] at hxy
    exact absurd ⟨x, y, (List.append_inj' hxy rfl).1⟩ hr

theorem decorate_of_valid (hr : ¬p2pRequestIdPrefix <:+: r)
    (ha : validP2pEndpoint D (some a) = .ok true) : decorateP2pRequestId D r (some a) =
      .ok (r ++ p2pRequestIdPrefix ++ a ++ p2pRequestIdSuffix) := by
  cases a with
  | nil => cases ha
  | cons c a => simp [decorateP2pRequestId, decorate, hr, ha]

/-- The rest of the second marker, which follows a first one that the id has brought. -/
def restOfMarker : Text := "__decode_addr_".toList

theorem marker_twice : p2pRequestIdPrefix.dropLast ++ p2pRequestIdPrefix =
    p2pRequestIdPrefix ++ restOfMarker := by decide

theorem rest_open (hclose : ¬p2pRequestIdSuffix <:+: a) (hstart : ¬['_', '_'] <+: a) :
    ¬p2pRequestIdSuffix <:+: restOfMarker ++ a := by
  intro hin
  rcases infix_append_cases hin with hin | hin | ⟨u, v, huv, hu, hv, hus, hva⟩
  · exact absurd hin (by decide)
  · exact hclose hin
  · match u, hu with
    | [c], _ =>
      obtain ⟨-, rfl⟩ : '_' = c ∧ ['_', '_'] = v := by simpa [p2pRequestIdSuffix] using huv
      exact hstart hva
    | [c, e], _ =>
      obtain ⟨rfl, rfl, -⟩ : '_' = c ∧ '_' = e ∧ ['_'] = v := by
        simpa [p2pRequestIdSuffix] using huv
      exact absurd hus (by decide)
    | c :: e :: f :: u, _ =>
      have hlen : 3 = (c :: e :: f :: u).length + v.length := by
        rw [← List.length_append, ← huv]
        rfl
      have hpos : 0 < v.length := List.length_pos_iff.mpr hv
      simp only [List.length_cons] at hlen
      omega

theorem parse_of_cut {x t : Text} (hx : ¬p2pRequestIdPrefix <:+: x ++ p2pRequestIdPrefix.dropLast) :
    ∃ e, parseRequestId D (x ++ p2pRequestIdPrefix ++ (restOfMarker ++ (['_', '_'] ++ t))) true =
      .error e := by
  have hrest : restOfMarker ++ (['_', '_'] ++ t) =
      restOfMarker.dropLast ++ p2pRequestIdSuffix ++ t := rfl
  have hvalue : before p2pRequestIdSuffix (restOfMarker ++ (['_', '_'] ++ t)) =
      restOfMarker.dropLast := by
    rw [hrest]
    exact before_append (by decide) (by decide)
  have hdrop : (x ++ p2pRequestIdPrefix ++ (restOfMarker ++ (['_', '_'] ++ t))).drop
      (x.length + p2pRequestIdPrefix.length) = restOfMarker ++ (['_', '_'] ++ t) :=
    List.drop_left' List.length_append
  have hnone : rpartition ':' restOfMarker.dropLast = none := by decide
  unfold parseRequestId
  simp only [if_true, find_append (by decide : p2pRequestIdPrefix ≠ []) hx, hdrop, hvalue, hnone]
  exact ⟨_, rfl⟩

/-- An accepted address without the closing underscores is read back, unless its first underscores
close what a marker at the end of the id has opened. -/
theorem parse_decorated_iff (hr : ¬p2pRequestIdPrefix <:+: r)
    (ha : validP2pEndpoint D (some a) = .ok true) (hclose : ¬p2pRequestIdSuffix <:+: a) :
    (∃ s host port, decorateP2pRequestId D r (some a) = .ok s ∧
        parseRequestId D s true = .ok (host, port) ∧ 1 ≤ port ∧ port ≤ 65535) ↔
      ¬(p2pRequestIdPrefix.dropLast <:+ r ∧ ['_', '_'] <+: a) := by
  have hdecorate : decorateP2pRequestId D r (some a) =
      .ok (r ++ p2pRequestIdPrefix ++ a ++ p2pRequestIdSuffix) := decorate_of_valid hr ha
  obtain ⟨host, port, n, rfl, hcolon, hhost, hport, hint, hrange⟩ := accepted_cases ha
  simp only [hdecorate]
  by_cases hseam : p2pRequestIdPrefix <:+: r ++ ['_']
  · obtain ⟨x, rfl⟩ := ends_of_completed hr hseam
    -- the marker is found where the id ends, and the value begins with the rest of the second one
    have htext : ∀ t, x ++ p2pRequestIdPrefix.dropLast ++ p2pRequestIdPrefix ++ t =
        x ++ p2pRequestIdPrefix ++ (restOfMarker ++ t) := by
      intro t
      rw [List.append_assoc x, marker_twice]
      simp only [List.append_assoc]
    rw [List.append_assoc, htext]
    by_cases hstart : ['_', '_'] <+: host ++ ':' :: port
    · refine iff_of_false ?_ (not_not_intro ⟨List.suffix_append x _, hstart⟩)
      rintro ⟨s, host', port', hs, hparse, -⟩
      cases hs
      obtain ⟨t, ht⟩ := hstart
      obtain ⟨e, he⟩ := parse_of_cut (D := D) (t := t ++ p2pRequestIdSuffix) hr
      rw [← ht, List.append_assoc ['_', '_'], he] at hparse
      cases hparse
    · have hopen := rest_open hclose hstart
      rw [← List.append_assoc] at hopen
      have hrest : restOfMarker ++ host ≠ [] := List.append_ne_nil_of_left_ne_nil (by decide) _
      have hparse := parse_of_first (t := []) hr hopen hrest hcolon hport hint
      rw [List.append_nil, List.append_assoc restOfMarker, List.append_assoc restOfMarker] at hparse
      exact iff_of_true ⟨_, restOfMarker ++ host, n, rfl, hparse, hrange.1, by omega⟩
        fun h => hstart h.2
  · have hparse := parse_of_first (t := []) (decode_first hseam) hclose hhost hcolon hport hint
    rw [List.append_nil] at hparse
    refine iff_of_true ⟨_, host, n, rfl, ?_, hrange.1, by omega⟩ ?_
    · rw [List.append_assoc (r ++ p2pRequestIdPrefix)]
      exact hparse
    · rintro ⟨⟨x, rfl⟩, -⟩
      rw [List.append_assoc, ← marker_eq] at hseam
      exact hseam (List.suffix_append x _).isInfix

end Parse

/-- The check is total and exact if and only if the port is not misread. For ids without the marker
and accepted addresses without the closing underscores, the parser reads an endpoint back if and
only if the two do not meet in a marker. -/
theorem endpoint_check_iff :
    (∀ a, (∃ v, validP2pEndpoint D (some a) = .ok v ∧ (v = true ↔ WellFormed a)) ↔
        ¬∃ host port, rpartition ':' a = some (host, port) ∧ host ≠ [] ∧ Misread D port) ∧
      ∀ r a, ¬p2pRequestIdPrefix <:+: r → validP2pEndpoint D (some a) = .ok true →
        ¬p2pRequestIdSuffix <:+: a →
        ((∃ s host port, decorateP2pRequestId D r (some a) = .ok s ∧
            parseRequestId D s true = .ok (host, port) ∧ 1 ≤ port ∧ port ≤ 65535) ↔
          ¬(p2pRequestIdPrefix.dropLast <:+ r ∧ ['_', '_'] <+: a)) :=
  ⟨verdict_iff, fun _ _ hr ha hclose => parse_decorated_iff hr ha hclose⟩

/-- Two of the digits that Python knows beyond ASCII: a superscript, which `int` does not take, and
an Arabic-Indic one, which it does. -/
def unicodeDigits : Digits where
  isDigit c := c.isDigit || c == '²' || c == '١'
  value c := if c.isDigit then some (c.toNat - 48) else if c = '١' then some 1 else none
  maxStrDigits := some 4300
  ascii c hc := by simp [hc]
  plain c hlow hc := by
    simp only [Bool.or_eq_true, beq_iff_eq] at hc
    rcases hc with (hc | rfl) | rfl
    · exact hc
    · exact absurd hlow (by decide)
    · exact absurd hlow (by decide)
  threshold := threshold_default

/-- A port that `int` refuses or finds too long, a port that is not ASCII, and an address whose
first underscores are lost. -/
theorem endpoint_check_fails :
    validP2pEndpoint unicodeDigits (some "h:²".toList) = .error (.invalidLiteral ['²']) ∧
      validP2pEndpoint unicodeDigits (some (['h'] ++ ':' :: List.replicate 4301 '1')) =
        .error (.invalidLiteral (List.replicate 4301 '1')) ∧
      (validP2pEndpoint unicodeDigits (some "h:١".toList) = .ok true ∧
        ¬WellFormed "h:١".toList) ∧
      ∃ s, decorateP2pRequestId unicodeDigits "q___decode_addr".toList (some "__h:1".toList) =
          .ok s ∧ parseRequestId unicodeDigits s true = .error (noEndpoint s) := by
  refine ⟨by decide, ?_, ⟨by decide, ?_⟩, ⟨_, rfl, by decide⟩⟩
  · exact valid_of_excess (by decide) ⟨4300, rfl, by decide⟩
  · have hparts : rpartition ':' "h:١".toList = some (['h'], ['١']) := by decide
    rw [wellFormed_iff hparts]
    rintro ⟨-, -, hascii, -⟩
    exact absurd (hascii '١' List.mem_cons_self) (by decide)

end Llumnix.Transfer
