import Mathlib.Data.List.Nodup
import Mathlib.Data.Nat.Notation
import Mathlib.Data.String.Basic

/-! `json.dumps` with `sort_keys=True`, `separators=(",", ":")` and `ensure_ascii=False`, for a
dictionary of integers, strings, `None` and lists of these. Different values are written
differently, and where one ends can be told from the text. -/
namespace Python.Json

variable {c l d : Char} {r s a b : List Char}

/-- Values of a dictionary. Tuples are written as lists. -/
inductive Value
  | null
  | int (n : ℤ)
  | str (s : String)
  | list (vs : List Value)

/-- Characters with a letter of their own behind the backslash. -/
def escapes : List (Char × Char) :=
  [('\\', '\\'), ('"', '"'), ('\x08', 'b'), ('\x0c', 'f'), ('\n', 'n'), ('\r', 'r'), ('\t', 't')]

theorem Value.induction {P : Value → Prop} (null : P .null) (int : ∀ n, P (.int n))
    (str : ∀ s, P (.str s)) (list : ∀ vs, (∀ v ∈ vs, P v) → P (.list vs)) : ∀ v, P v
  | .null => null
  | .int n => int n
  | .str s => str s
  | .list vs => list vs fun v _ => Value.induction null int str list v

def escape (c : Char) : List Char :=
  match escapes.lookup c with
  | some letter => ['\\', letter]
  | none =>
    if c.toNat < 32 then
      ['\\', 'u', '0', '0', (c.toNat / 16).digitChar, (c.toNat % 16).digitChar]
    else [c]

def quote (s : String) : List Char := '"' :: (s.toList.flatMap escape ++ ['"'])

def intText : ℤ → List Char
  | .ofNat n => Nat.toDigits 10 n
  | .negSucc n => '-' :: Nat.toDigits 10 (n + 1)

mutual

def Value.text : Value → List Char
  | .null => ['n', 'u', 'l', 'l']
  | .int n => intText n
  | .str s => quote s
  | .list [] => ['[', ']']
  | .list (v :: vs) => '[' :: (v.text ++ (moreText vs ++ [']']))

/-- The elements of a list behind the first. -/
def moreText : List Value → List Char
  | [] => []
  | v :: vs => ',' :: (v.text ++ moreText vs)

end

def fieldText (field : String × Value) : List Char := quote field.1 ++ ':' :: field.2.text

/-- The fields of a dictionary, in the order of their keys. -/
def sortKeys (fields : List (String × Value)) : List (String × Value) :=
  fields.mergeSort fun a b => decide (a.1 ≤ b.1)

def dumps (fields : List (String × Value)) : List Char :=
  match sortKeys fields with
  | [] => ['{', '}']
  | field :: rest => '{' :: (fieldText field ++ (rest.flatMap (',' :: fieldText ·) ++ ['}']))

def utf8 (text : List Char) : List UInt8 := text.flatMap String.utf8EncodeChar

def hex (data : List UInt8) : String :=
  String.ofList (data.flatMap fun b => [(b.toNat / 16).digitChar, (b.toNat % 16).digitChar])

/-! ### Characters and strings -/

theorem digitChar_inj {m n : ℕ} (hm : m < 16) (hn : n < 16) (h : m.digitChar = n.digitChar) :
    m = n := by
  have key : ∀ a b : Fin 16, a.val.digitChar = b.val.digitChar → a = b := by decide
  exact congrArg Fin.val (key ⟨m, hm⟩ ⟨n, hn⟩ h)

theorem mem_escapes (h : escapes.lookup c = some l) : (c, l) ∈ escapes := by
  obtain ⟨before, after, heq, -⟩ := List.lookup_eq_some_iff.mp h
  rw [heq]
  exact List.mem_append_right _ List.mem_cons_self

theorem letter_inj (hc : escapes.lookup c = some l) (hd : escapes.lookup d = some l) : c = d := by
  have hnodup : (escapes.map Prod.snd).Nodup := by decide
  exact congrArg Prod.fst
    (List.inj_on_of_nodup_map hnodup (mem_escapes hc) (mem_escapes hd) rfl)

theorem letter_ne_u : escapes.lookup c ≠ some 'u' := by
  intro h
  have hnot : 'u' ∉ escapes.map Prod.snd := by decide
  exact hnot (List.mem_map_of_mem (mem_escapes h))

theorem eq_of_digits {m n : ℕ} (hm : m < 256) (hn : n < 256)
    (hhigh : (m / 16).digitChar = (n / 16).digitChar)
    (hlow : (m % 16).digitChar = (n % 16).digitChar) : m = n := by
  have hhigh := digitChar_inj (by omega) (by omega) hhigh
  have hlow := digitChar_inj (by omega) (by omega) hlow
  omega

theorem escape_cases (c : Char) :
    (∃ l, escapes.lookup c = some l ∧ escape c = ['\\', l]) ∨
    (escapes.lookup c = none ∧ c.toNat < 32 ∧ escape c =
      ['\\', 'u', '0', '0', (c.toNat / 16).digitChar, (c.toNat % 16).digitChar]) ∨
    (escapes.lookup c = none ∧ escape c = [c]) := by
  unfold escape
  cases h : escapes.lookup c with
  | some l => exact .inl ⟨l, rfl, rfl⟩
  | none =>
    by_cases hc : c.toNat < 32
    · exact .inr (.inl ⟨rfl, hc, if_pos hc⟩)
    · exact .inr (.inr ⟨rfl, if_neg hc⟩)

theorem escape_inj (h : escape c ++ r = escape d ++ s) : c = d ∧ r = s := by
  have hslash : escapes.lookup '\\' ≠ none := by decide
  rcases escape_cases c with ⟨l, hl, hc⟩ | ⟨hl, hlt, hc⟩ | ⟨hl, hc⟩ <;>
    rcases escape_cases d with ⟨m, hm, hd⟩ | ⟨hm, hlt', hd⟩ | ⟨hm, hd⟩ <;>
    rw [hc, hd] at h
  · obtain ⟨rfl, rfl⟩ : l = m ∧ r = s := by simpa using h
    exact ⟨letter_inj hl hm, rfl⟩
  · obtain ⟨rfl, -⟩ : l = 'u' ∧ _ := by simpa using h
    exact absurd hl letter_ne_u
  · obtain ⟨rfl, -⟩ : '\\' = d ∧ _ := by simpa using h
    exact absurd hm hslash
  · obtain ⟨rfl, -⟩ : 'u' = m ∧ _ := by simpa using h
    exact absurd hm letter_ne_u
  · obtain ⟨hhigh, hlow, rfl⟩ : (c.toNat / 16).digitChar = (d.toNat / 16).digitChar ∧
        (c.toNat % 16).digitChar = (d.toNat % 16).digitChar ∧ r = s := by simpa using h
    exact ⟨Char.toNat_inj.mp (eq_of_digits (by omega) (by omega) hhigh hlow), rfl⟩
  · obtain ⟨rfl, -⟩ : '\\' = d ∧ _ := by simpa using h
    exact absurd hm hslash
  · obtain ⟨rfl, -⟩ : c = '\\' ∧ _ := by simpa using h
    exact absurd hl hslash
  · obtain ⟨rfl, -⟩ : c = '\\' ∧ _ := by simpa using h
    exact absurd hl hslash
  · simpa using h

theorem escape_ne_quote (c : Char) (r : List Char) (s : List Char) :
    escape c ++ r ≠ '"' :: s := by
  intro h
  rcases escape_cases c with ⟨l, hl, hc⟩ | ⟨hl, hlt, hc⟩ | ⟨hl, hc⟩ <;> rw [hc] at h
  · cases h
  · cases h
  · obtain ⟨rfl, -⟩ := List.cons.inj h
    have hquote : escapes.lookup '"' ≠ none := by decide
    exact hquote hl

theorem escaped_inj (h : a.flatMap escape ++ '"' :: r = b.flatMap escape ++ '"' :: s) :
    a = b ∧ r = s := by
  induction a generalizing b with
  | nil =>
    cases b with
    | nil => exact ⟨rfl, (List.cons.inj h).2⟩
    | cons d b =>
      rw [List.flatMap_cons, List.append_assoc] at h
      exact absurd h.symm (escape_ne_quote d _ _)
  | cons c a ih =>
    cases b with
    | nil =>
      rw [List.flatMap_cons, List.append_assoc] at h
      exact absurd h (escape_ne_quote c _ _)
    | cons d b =>
      rw [List.flatMap_cons, List.flatMap_cons, List.append_assoc, List.append_assoc] at h
      obtain ⟨rfl, hrest⟩ := escape_inj h
      obtain ⟨rfl, hend⟩ := ih hrest
      exact ⟨rfl, hend⟩

theorem quote_inj {a b : String} (h : quote a ++ r = quote b ++ s) : a = b ∧ r = s := by
  unfold quote at h
  rw [List.cons_append, List.cons_append, List.append_assoc, List.append_assoc] at h
  obtain ⟨hlist, hrest⟩ := escaped_inj (List.cons.inj h).2
  exact ⟨String.toList_inj.mp hlist, hrest⟩

/-! ### Numbers -/

/-- What may follow a number. -/
def Ends (r : List Char) : Prop := ∀ c t, r = c :: t → c.isDigit = false

theorem ends_cons {t : List Char} (h : c.isDigit = false) : Ends (c :: t) := by
  rintro _ _ ⟨⟩
  exact h

theorem digits_inj (ha : ∀ c ∈ a, c.isDigit = true) (hb : ∀ c ∈ b, c.isDigit = true) (hr : Ends r)
    (hs : Ends s) (h : a ++ r = b ++ s) : a = b ∧ r = s := by
  induction a generalizing b with
  | nil =>
    cases b with
    | nil => exact ⟨rfl, h⟩
    | cons d b =>
      have hd := hr d (b ++ s) h
      rw [hb d List.mem_cons_self] at hd
      cases hd
  | cons c a ih =>
    cases b with
    | nil =>
      have hc := hs c (a ++ r) h.symm
      rw [ha c List.mem_cons_self] at hc
      cases hc
    | cons d b =>
      obtain ⟨rfl, hrest⟩ := List.cons.inj h
      obtain ⟨rfl, hend⟩ := ih (fun c hc => ha c (List.mem_cons_of_mem _ hc))
        (fun c hc => hb c (List.mem_cons_of_mem _ hc)) hrest
      exact ⟨rfl, hend⟩

theorem isDigit_toDigits {n : ℕ} (c : Char) (h : c ∈ Nat.toDigits 10 n) : c.isDigit = true :=
  Nat.isDigit_of_mem_toDigits (by decide) (by decide) h

theorem toDigits_inj {m n : ℕ} (hr : Ends r) (hs : Ends s)
    (h : Nat.toDigits 10 m ++ r = Nat.toDigits 10 n ++ s) : m = n ∧ r = s := by
  obtain ⟨hdigits, hrest⟩ := digits_inj isDigit_toDigits isDigit_toDigits hr hs h
  refine ⟨?_, hrest⟩
  rw [← Nat.ofDigitChars_ten_toDigits (n := m), hdigits, Nat.ofDigitChars_ten_toDigits]

theorem toDigits_ne_minus {n : ℕ} : Nat.toDigits 10 n ++ r ≠ '-' :: s := by
  intro h
  obtain ⟨c, t, hdigits⟩ := List.exists_cons_of_ne_nil (Nat.toDigits_ne_nil (n := n) (b := 10))
  rw [hdigits] at h
  obtain ⟨rfl, -⟩ := List.cons.inj h
  have hdigit := isDigit_toDigits (n := n) '-' (hdigits ▸ List.mem_cons_self)
  exact absurd hdigit (by decide)

theorem intText_inj {m n : ℤ} (hr : Ends r) (hs : Ends s) (h : intText m ++ r = intText n ++ s) :
    m = n ∧ r = s := by
  cases m with
  | ofNat m =>
    cases n with
    | ofNat n =>
      obtain ⟨rfl, hrest⟩ := toDigits_inj hr hs h
      exact ⟨rfl, hrest⟩
    | negSucc n => exact absurd h toDigits_ne_minus
  | negSucc m =>
    cases n with
    | ofNat n => exact absurd h.symm toDigits_ne_minus
    | negSucc n =>
      obtain ⟨hmn, hrest⟩ := toDigits_inj hr hs (List.cons.inj h).2
      exact ⟨congrArg Int.negSucc (Nat.succ.inj hmn), hrest⟩

/-! ### Values -/

/-- The kind of a value, which its first character tells; a bracket that closes begins none. -/
def kind : Char → Fin 5
  | 'n' => 0
  | '"' => 1
  | '[' => 2
  | ']' => 4
  | _ => 3

def Value.kind : Value → Fin 5
  | .null => 0
  | .str _ => 1
  | .list _ => 2
  | .int _ => 3

theorem kind_of_isDigit (h : c.isDigit = true) : Json.kind c = 3 := by
  unfold Json.kind
  split
  · cases h
  · cases h
  · cases h
  · cases h
  · rfl

theorem intText_head (n : ℤ) : ∃ c t, intText n = c :: t ∧ Json.kind c = 3 := by
  cases n with
  | ofNat n =>
    obtain ⟨c, t, hdigits⟩ := List.exists_cons_of_ne_nil (Nat.toDigits_ne_nil (n := n) (b := 10))
    exact ⟨c, t, hdigits, kind_of_isDigit (isDigit_toDigits (n := n) c
      (hdigits ▸ List.mem_cons_self))⟩
  | negSucc n => exact ⟨'-', _, rfl, rfl⟩

theorem Value.text_head (v : Value) : ∃ c t, v.text = c :: t ∧ Json.kind c = v.kind := by
  cases v with
  | null => exact ⟨'n', _, Value.text.eq_1, rfl⟩
  | int n =>
    rw [Value.text]
    exact intText_head n
  | str s =>
    rw [Value.text]
    exact ⟨'"', _, rfl, rfl⟩
  | list vs =>
    cases vs with
    | nil => exact ⟨'[', [']'], by rw [Value.text], rfl⟩
    | cons v vs => exact ⟨'[', _, by rw [Value.text], rfl⟩

theorem kind_eq_of_text {v w : Value} (h : v.text ++ r = w.text ++ s) : v.kind = w.kind := by
  obtain ⟨c, t, hv, hc⟩ := v.text_head
  obtain ⟨d, u, hw, hd⟩ := w.text_head
  rw [hv, hw] at h
  rw [← hc, ← hd, (List.cons.inj h).1]

/-! ### Lists and dictionaries -/

section Separated
variable {α : Type} {enc : α → List Char} {close : Char}

theorem ends_separated (as : List α) (r : List Char) (hdigit : close.isDigit = false) :
    Ends (as.flatMap (',' :: enc ·) ++ close :: r) := by
  cases as with
  | nil => exact ends_cons hdigit
  | cons a as => exact ends_cons rfl

theorem separated_inj {as bs : List α} {r s : List Char} (hcomma : close ≠ ',')
    (hdigit : close.isDigit = false)
    (henc : ∀ a ∈ as, ∀ b r s, Ends r → Ends s → enc a ++ r = enc b ++ s → a = b ∧ r = s)
    (h : as.flatMap (',' :: enc ·) ++ close :: r = bs.flatMap (',' :: enc ·) ++ close :: s) :
    as = bs ∧ r = s := by
  induction as generalizing bs with
  | nil =>
    cases bs with
    | nil => exact ⟨rfl, (List.cons.inj h).2⟩
    | cons b bs => exact absurd (List.cons.inj h).1 hcomma
  | cons a as ih =>
    cases bs with
    | nil => exact absurd (List.cons.inj h).1.symm hcomma
    | cons b bs =>
      rw [List.flatMap_cons, List.flatMap_cons, List.append_assoc, List.append_assoc] at h
      obtain ⟨rfl, hrest⟩ := henc a List.mem_cons_self b _ _ (ends_separated as r hdigit)
        (ends_separated bs s hdigit) (List.cons.inj h).2
      obtain ⟨rfl, hend⟩ := ih (fun a ha => henc a (List.mem_cons_of_mem _ ha)) hrest
      exact ⟨rfl, hend⟩

end Separated

theorem moreText_eq (vs : List Value) : moreText vs = vs.flatMap (',' :: ·.text) := by
  induction vs with
  | nil => rw [moreText, List.flatMap_nil]
  | cons v vs ih => rw [moreText, List.flatMap_cons, ih, List.cons_append]

theorem list_text_cons (v : Value) (vs : List Value) (r : List Char) :
    (Value.list (v :: vs)).text ++ r =
      '[' :: (v.text ++ (vs.flatMap (',' :: ·.text) ++ ']' :: r)) := by
  rw [Value.text, moreText_eq]
  simp

theorem text_ne_close (v : Value) (r s : List Char) : v.text ++ r ≠ ']' :: s := by
  intro h
  obtain ⟨c, t, hv, hc⟩ := v.text_head
  rw [hv] at h
  obtain ⟨rfl, -⟩ := List.cons.inj h
  cases v <;> cases hc

theorem list_text_inj {vs ws : List Value}
    (hvs : ∀ v ∈ vs, ∀ w r s, Ends r → Ends s → v.text ++ r = w.text ++ s → v = w ∧ r = s)
    (h : (Value.list vs).text ++ r = (Value.list ws).text ++ s) :
    Value.list vs = .list ws ∧ r = s := by
  cases vs with
  | nil =>
    cases ws with
    | nil => exact ⟨rfl, List.append_cancel_left h⟩
    | cons w ws =>
      rw [list_text_cons, Value.text] at h
      exact absurd (List.cons.inj h).2.symm (text_ne_close w _ _)
  | cons v vs =>
    cases ws with
    | nil =>
      rw [list_text_cons, Value.text] at h
      exact absurd (List.cons.inj h).2 (text_ne_close v _ _)
    | cons w ws =>
      rw [list_text_cons, list_text_cons] at h
      obtain ⟨rfl, htail⟩ := hvs v List.mem_cons_self w _ _ (ends_separated vs r rfl)
        (ends_separated ws s rfl) (List.cons.inj h).2
      obtain ⟨rfl, hrest⟩ := separated_inj (by decide) rfl
        (fun a ha => hvs a (List.mem_cons_of_mem _ ha)) htail
      exact ⟨rfl, hrest⟩

theorem Value.text_inj (v w : Value) (hr : Ends r) (hs : Ends s) (h : v.text ++ r = w.text ++ s) :
    v = w ∧ r = s := by
  have hkind := kind_eq_of_text h
  induction v using Value.induction generalizing w r s with
  | null =>
    cases w with
    | null => exact ⟨rfl, List.append_cancel_left h⟩
    | _ => cases hkind
  | int m =>
    cases w with
    | int n =>
      rw [Value.text, Value.text] at h
      obtain ⟨rfl, hrest⟩ := intText_inj hr hs h
      exact ⟨rfl, hrest⟩
    | _ => cases hkind
  | str a =>
    cases w with
    | str b =>
      rw [Value.text, Value.text] at h
      obtain ⟨rfl, hrest⟩ := quote_inj h
      exact ⟨rfl, hrest⟩
    | _ => cases hkind
  | list vs ih =>
    cases w with
    | list ws =>
      exact list_text_inj (fun a ha b r s hr hs h => ih a ha b hr hs h (kind_eq_of_text h)) h
    | _ => cases hkind

theorem fieldText_inj {a b : String × Value} (hr : Ends r) (hs : Ends s)
    (h : fieldText a ++ r = fieldText b ++ s) : a = b ∧ r = s := by
  unfold fieldText at h
  rw [List.append_assoc, List.append_assoc] at h
  obtain ⟨hkey, htail⟩ := quote_inj h
  obtain ⟨hvalue, hrest⟩ := Value.text_inj a.2 b.2 hr hs (List.cons.inj htail).2
  exact ⟨Prod.ext hkey hvalue, hrest⟩

theorem perm_of_dumps {f g : List (String × Value)} (h : dumps f = dumps g) : f.Perm g := by
  have hsorted : sortKeys f = sortKeys g := by
    unfold dumps at h
    split at h <;> split at h
    · rename_i hf _ hg
      rw [hf, hg]
    · cases h
    · cases h
    · rename_i a as hf _ b bs hg
      obtain ⟨rfl, htail⟩ := fieldText_inj (ends_separated as [] rfl) (ends_separated bs [] rfl)
        (List.cons.inj h).2
      obtain ⟨rfl, -⟩ := separated_inj (by decide) rfl
        (fun a _ b r s hr hs h => fieldText_inj hr hs h) htail
      rw [hf, hg]
  have hf : (sortKeys f).Perm f := List.mergeSort_perm f _
  have hg : (sortKeys g).Perm g := List.mergeSort_perm g _
  exact hf.symm.trans (hsorted ▸ hg)

/-! ### Bytes -/

theorem utf8_injective : Function.Injective utf8 := by
  intro a b h
  have hencode : a.utf8Encode = b.utf8Encode := congrArg List.toByteArray h
  have hdecode := congrArg ByteArray.utf8Decode? hencode
  rw [List.utf8Decode?_utf8Encode, List.utf8Decode?_utf8Encode] at hdecode
  exact congrArg Array.toList (Option.some.inj hdecode)

theorem hex_injective : Function.Injective hex := by
  intro a b h
  replace h := String.ofList_inj.mp h
  induction a generalizing b with
  | nil =>
    cases b with
    | nil => rfl
    | cons y b => cases h
  | cons x a ih =>
    cases b with
    | nil => cases h
    | cons y b =>
      obtain ⟨hhigh, htail⟩ := List.cons.inj h
      obtain ⟨hlow, hrest⟩ := List.cons.inj htail
      have hxy := eq_of_digits x.toNat_lt y.toNat_lt hhigh hlow
      rw [UInt8.toNat_inj.mp hxy, ih hrest]

end Python.Json
