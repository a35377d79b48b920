import Llumnix.Simulator.Profiling
import Mathlib.Algebra.Order.BigOperators.Group.List
import Mathlib.Algebra.Order.Group.Nat
import Mathlib.Algebra.Ring.Nat

/-! How long the simulator takes for a step, and when that is what has been profiled. -/
namespace Llumnix.Simulator

open Python
open Legacy (RequestInferenceType)

variable {step : List SequenceGroupMetadata}

/-- What the executor reads of a sequence group; `seqData` has the length of each sequence. -/
structure SequenceGroupMetadata where
  isPrompt : Bool
  tokenChunkSize : ℕ
  seqData : Dict ℕ ℕ

structure Totals where
  prefillSeqLen : ℤ := 0
  decodeSeqLen : ℤ := 0
  decodeBs : ℤ := 0

/-- The first loop of `execute_model_async`. Of a group that decodes, only the first sequence
counts. -/
def tally (t : Totals) : List SequenceGroupMetadata → Except PyError Totals
  | [] => .ok t
  | metaData :: rest =>
    if metaData.isPrompt then
      tally { t with prefillSeqLen := t.prefillSeqLen + metaData.tokenChunkSize } rest
    else
      match metaData.seqData.values with
      | [] => .error .indexError
      | len :: _ =>
        tally { t with
          decodeBs := t.decodeBs + metaData.tokenChunkSize
          decodeSeqLen := t.decodeSeqLen + len } rest

section Execute
-- all that is asked of the arithmetic of floats is that 0 is neutral
variable {F : Type} [AddZeroClass F] [Mul F] [Div F] [IntCast F]

def modelPrefill (x a b : F) : F := a * x + b

def modelDecode (bs totSeqLen a b c : F) : F := a * bs + b * totSeqLen + c

/-- The entry of a table, or else what the fitted model gives. Parameters that have not been fitted
cannot be unpacked. -/
def timeOf (entry : Option (List F)) (fitted : Option F) : Except PyError F :=
  match entry with
  | some latency => latency.head?.elim (.error .indexError) .ok
  | none => fitted.elim (.error .typeError) .ok

def LatencyMemData.prefillTime (m : LatencyMemData F) (prefillSeqLen : ℤ) : Except PyError F :=
  timeOf (m.prefillLatency.get? prefillSeqLen)
    (m.prefillModelParams.map fun (a, b) => modelPrefill prefillSeqLen a b)

def LatencyMemData.decodeTime (m : LatencyMemData F) (decodeBs decodeSeqLen : ℤ) :
    Except PyError F :=
  timeOf (m.decodeLatency.get? (decodeBs, decodeSeqLen))
    (m.decodeModelParams.map fun (a, b, c) => modelDecode decodeBs decodeSeqLen a b c)

/-- The milliseconds that a step takes. -/
def LatencyMemData.latency (m : LatencyMemData F) (t : Totals) : Except PyError F :=
  let decodeBs := padToAlignment t.decodeBs 8
  let prefillSeqLen := padToAlignment t.prefillSeqLen 8
  let latency := if prefillSeqLen ≠ 0 then (m.prefillTime prefillSeqLen).map (0 + ·) else .ok 0
  latency.bind fun latency =>
    if decodeBs ≠ 0 then (m.decodeTime decodeBs t.decodeSeqLen).map (latency + ·) else .ok latency

/-- The sequences that get an output, by their groups. -/
def samplerOutputs (seqGroupMetadataList : List SequenceGroupMetadata) : List (List ℕ) :=
  (seqGroupMetadataList.map (·.seqData.keys)).filter (· ≠ [])

/-- `execute_model_async`: the seconds that it sleeps, and its outputs. -/
def executeModelAsync (m : LatencyMemData F)
    (seqGroupMetadataList : List SequenceGroupMetadata) : Except PyError (F × List (List ℕ)) :=
  (tally {} seqGroupMetadataList).bind fun t => (m.latency t).map fun latency =>
    (latency / ((1000 : ℤ) : F), samplerOutputs seqGroupMetadataList)

end Execute

/-! ### Alignment -/

theorem le_padToAlignment (x : ℤ) {m : ℤ} (hm : 0 < m) : x ≤ padToAlignment x m := by
  have hmod := Int.emod_nonneg (-1 * x) hm.ne'
  unfold padToAlignment
  omega

theorem padToAlignment_eq_self_iff {x m : ℤ} : padToAlignment x m = x ↔ m ∣ x := by
  unfold padToAlignment
  rw [add_eq_left, ← Int.dvd_iff_emod_eq_zero, neg_one_mul, Int.dvd_neg]

theorem padToAlignment_ne_zero {x m : ℤ} (hm : 0 < m) (hx : 1 ≤ x) : padToAlignment x m ≠ 0 := by
  have hle := le_padToAlignment x hm
  omega

/-! ### Steps of one kind -/

/-- A step of prompts only, of `s` tokens in all. -/
structure PurePrefill (step : List SequenceGroupMetadata) (s : ℤ) : Prop where
  prompts : ∀ m ∈ step, m.isPrompt = true
  total : (step.map (·.tokenChunkSize)).sum = s

/-- A step of groups that decode, each with a chunk of one token, and of `n` sequences of length `s`
in all. -/
structure PureDecode (step : List SequenceGroupMetadata) (n s : ℤ) : Prop where
  decodes : ∀ m ∈ step, m.isPrompt = false ∧ m.tokenChunkSize = 1
  sequences : ∀ m ∈ step, m.seqData.values ≠ [] ∧ ∀ len ∈ m.seqData.values, 1 ≤ len
  count : (step.map (·.seqData.values.length)).sum = n
  total : (step.map (·.seqData.values.sum)).sum = s

def SequenceGroupMetadata.firstLen (m : SequenceGroupMetadata) : ℕ := m.seqData.values.headD 0

theorem tally_prompts (h : ∀ m ∈ step, m.isPrompt = true) (t : Totals) :
    tally t step =
      .ok { t with prefillSeqLen := t.prefillSeqLen + (step.map (·.tokenChunkSize)).sum } := by
  induction step generalizing t with
  | nil => simp [tally]
  | cons m step ih =>
    rw [List.forall_mem_cons] at h
    unfold tally
    rw [if_pos h.1, ih h.2, List.map_cons, List.sum_cons]
    push_cast
    rw [add_assoc]

theorem tally_decodes (h : ∀ m ∈ step, m.isPrompt = false ∧ m.seqData.values ≠ []) (t : Totals) :
    tally t step =
      .ok { t with
        decodeBs := t.decodeBs + (step.map (·.tokenChunkSize)).sum
        decodeSeqLen := t.decodeSeqLen + (step.map (·.firstLen)).sum } := by
  induction step generalizing t with
  | nil => simp [tally]
  | cons m step ih =>
    rw [List.forall_mem_cons] at h
    obtain ⟨len, lens, hvalues⟩ := List.exists_cons_of_ne_nil h.1.2
    have hfirst : m.firstLen = len := by rw [SequenceGroupMetadata.firstLen, hvalues]; rfl
    unfold tally
    rw [if_neg (by simp [h.1.1]), hvalues]
    dsimp only
    rw [ih h.2, List.map_cons, List.map_cons, List.sum_cons, List.sum_cons, hfirst]
    push_cast
    rw [add_assoc, add_assoc]

theorem sum_map_eq_length {f : SequenceGroupMetadata → ℕ} (h : ∀ m ∈ step, f m = 1) :
    (step.map f).sum = step.length := by
  rw [List.map_congr_left h, List.map_const', List.sum_replicate_nat, Nat.mul_one]

namespace PureDecode
variable {step : List SequenceGroupMetadata} {n s : ℤ}

theorem length_pos (h : PureDecode step n s) (hn : 1 ≤ n) : 1 ≤ (step.length : ℤ) := by
  cases step with
  | nil =>
    have hzero := h.count
    simp only [List.map_nil, List.sum_nil, Nat.cast_zero] at hzero
    omega
  | cons m step => simp

theorem length_eq (h : PureDecode step n s) (hone : ∀ m ∈ step, m.seqData.values.length = 1) :
    (step.length : ℤ) = n := by
  rw [← h.count, sum_map_eq_length hone]

end PureDecode

theorem firstLen_le (m : SequenceGroupMetadata) : m.firstLen ≤ m.seqData.values.sum := by
  unfold SequenceGroupMetadata.firstLen
  cases m.seqData.values with
  | nil => simp
  | cons len lens => simp

theorem sum_firstLen_le (step : List SequenceGroupMetadata) :
    (step.map (·.firstLen)).sum ≤ (step.map (·.seqData.values.sum)).sum :=
  List.sum_le_sum fun m _ => firstLen_le m

theorem firstLen_eq_iff {m : SequenceGroupMetadata} (hne : m.seqData.values ≠ [])
    (hlen : ∀ len ∈ m.seqData.values, 1 ≤ len) :
    m.firstLen = m.seqData.values.sum ↔ m.seqData.values.length = 1 := by
  unfold SequenceGroupMetadata.firstLen
  cases hvalues : m.seqData.values with
  | nil => exact absurd hvalues hne
  | cons len lens =>
    cases lens with
    | nil => simp
    | cons len' lens =>
      have hpos := hlen len' (by simp [hvalues])
      simp only [List.headD_cons, List.sum_cons, List.length_cons]
      omega

theorem sum_firstLen_eq_iff
    (h : ∀ m ∈ step, m.seqData.values ≠ [] ∧ ∀ len ∈ m.seqData.values, 1 ≤ len) :
    (step.map (·.firstLen)).sum = (step.map (·.seqData.values.sum)).sum ↔
      ∀ m ∈ step, m.seqData.values.length = 1 := by
  induction step with
  | nil => simp
  | cons m step ih =>
    rw [List.forall_mem_cons] at h
    have hhead := firstLen_le m
    have htail := sum_firstLen_le step
    rw [List.forall_mem_cons, ← firstLen_eq_iff h.1.1 h.1.2, ← ih h.2, List.map_cons, List.map_cons,
      List.sum_cons, List.sum_cons]
    omega

/-- The key that is read is the one that was recorded if and only if the lengths add up to a
multiple of eight and no group has a second sequence. -/
theorem PureDecode.key_eq_iff {n s : ℤ} (h : PureDecode step n s) :
    Key.decode (padToAlignment step.length 8) ((step.map (·.firstLen)).sum : ℕ) =
        .decode (padToAlignment n 8) (padToAlignment s 8) ↔
      8 ∣ s ∧ ∀ m ∈ step, m.seqData.values.length = 1 := by
  have hpad := le_padToAlignment s (m := 8) (by decide)
  have hle := sum_firstLen_le step
  have htotal := h.total
  rw [Key.decode.injEq, ← sum_firstLen_eq_iff h.sequences, ← padToAlignment_eq_self_iff]
  constructor
  · rintro ⟨-, hsum⟩
    omega
  · rintro ⟨hs, hsum⟩
    have hcount := h.length_eq ((sum_firstLen_eq_iff h.sequences).mp hsum)
    exact ⟨by rw [hcount], by omega⟩

/-! ### Latencies -/

section Latency
variable {F : Type} [AddZeroClass F] [Mul F] [IntCast F] {m : LatencyMemData F}
  {step : List SequenceGroupMetadata} {n s : ℤ}

theorem latency_prefill (hs : 1 ≤ s) :
    m.latency { prefillSeqLen := s } = m.prefillTime (padToAlignment s 8) := by
  have hpad := padToAlignment_ne_zero (m := 8) (by decide) hs
  have hzero : padToAlignment 0 8 = 0 := by decide
  unfold LatencyMemData.latency
  cases htime : m.prefillTime (padToAlignment s 8) <;>
    simp [Except.bind, Except.map, hpad, hzero, htime]

theorem latency_decode (hn : 1 ≤ n) :
    m.latency { decodeBs := n, decodeSeqLen := s } = m.decodeTime (padToAlignment n 8) s := by
  have hpad := padToAlignment_ne_zero (m := 8) (by decide) hn
  have hzero : padToAlignment 0 8 = 0 := by decide
  unfold LatencyMemData.latency
  cases htime : m.decodeTime (padToAlignment n 8) s <;>
    simp [Except.bind, Except.map, hpad, hzero, htime]

theorem prefillTime_of_recorded {x : F} (h : m.recorded (.prefill s) = some [x]) :
    m.prefillTime s = .ok x := by
  have hentry : m.prefillLatency.get? s = some [x] := h
  rw [LatencyMemData.prefillTime, hentry]
  rfl

theorem decodeTime_of_recorded {x : F} (h : m.recorded (.decode n s) = some [x]) :
    m.decodeTime n s = .ok x := by
  have hentry : m.decodeLatency.get? (n, s) = some [x] := h
  rw [LatencyMemData.decodeTime, hentry]
  rfl

/-- What the fitted model gives, if there is one. -/
def LatencyMemData.fittedDecode (m : LatencyMemData F) (n s : ℤ) : Except PyError F :=
  timeOf none (m.decodeModelParams.map fun (a, b, c) => modelDecode n s a b c)

theorem decodeTime_of_not_recorded (h : m.recorded (.decode n s) = none) :
    m.decodeTime n s = m.fittedDecode n s := by
  have hentry : m.decodeLatency.get? (n, s) = none := h
  rw [LatencyMemData.decodeTime, hentry]
  rfl

variable [Div F]

theorem executeModelAsync_eq {t : Totals} (h : tally {} step = .ok t) :
    (executeModelAsync m step).map Prod.fst = (m.latency t).map (· / ((1000 : ℤ) : F)) := by
  unfold executeModelAsync
  rw [h]
  cases hlatency : m.latency t <;> simp [Except.bind, Except.map, hlatency]

theorem executeModelAsync_of_prefill (h : PurePrefill step s) (hs : 1 ≤ s) :
    (executeModelAsync m step).map Prod.fst =
      (m.prefillTime (padToAlignment s 8)).map (· / ((1000 : ℤ) : F)) := by
  have htally : tally {} step = .ok { prefillSeqLen := s } := by
    rw [tally_prompts h.prompts, h.total, zero_add]
  rw [executeModelAsync_eq htally, latency_prefill hs]

theorem executeModelAsync_of_decode (h : PureDecode step n s) (hn : 1 ≤ n) :
    (executeModelAsync m step).map Prod.fst =
      (m.decodeTime (padToAlignment step.length 8) ((step.map (·.firstLen)).sum : ℕ)).map
        (· / ((1000 : ℤ) : F)) := by
  have htally : tally {} step =
      .ok { decodeBs := step.length, decodeSeqLen := ((step.map (·.firstLen)).sum : ℕ) } := by
    rw [tally_decodes fun m hm => ⟨(h.decodes m hm).1, (h.sequences m hm).1⟩,
      sum_map_eq_length fun m hm => (h.decodes m hm).2, zero_add, zero_add]
  rw [executeModelAsync_eq htally, latency_decode (h.length_pos hn)]

end Latency

/-! ### What has been profiled -/

section Taken
variable {F : Type} [AddZeroClass F] [Mul F] [Div F] [IntCast F] [DecidableEq F]

/-- A step of the kind, the batch size and the total length of a row. -/
def Profile.Describes (p : Profile F) (step : List SequenceGroupMetadata) : Prop :=
  match p.inferenceType with
  | .prefill => PurePrefill step p.totSeqLen
  | .decode => PureDecode step p.batchSize p.totSeqLen

/-- In every simulator whose database has the row as the last one for its key, the step takes the
latency of the row. -/
def Taken (b : Builtins F) (row : Row) (p : Profile F) (step : List SequenceGroupMetadata) : Prop :=
  ∀ (db : ProfilingDatabase F) (ops : List (Text × SimParallelConfig × Op F)) (modelPath : Text)
    (c : SimParallelConfig), RecordedLast b ops ⟨modelName modelPath, c, row, p⟩ →
      ∃ m, (db.run b ops).getLatencyMem modelPath c = .ok m ∧
        (executeModelAsync m step).map Prod.fst = .ok (p.latency / ((1000 : ℤ) : F))

variable {b : Builtins F} {row : Row} {p : Profile F} {step : List SequenceGroupMetadata}

theorem taken_of_found
    (h : ∀ m : LatencyMemData F, m.recorded p.key = some [p.latency] →
      (executeModelAsync m step).map Prod.fst = .ok (p.latency / ((1000 : ℤ) : F))) :
    Taken b row p step := by
  intro db ops modelPath c hlast
  have hrecorded := ProfilingDatabase.recorded_of_recordedLast db hlast
  obtain ⟨m, hm, hfound⟩ := ProfilingDatabase.exists_getLatencyMem hrecorded
  exact ⟨m, hm, h m hfound⟩

/-- Without its entry a step fails when there is nothing but the row in the database, since then no
model has been fitted. -/
theorem key_eq_of_taken (hrow : readProfile b row = .ok (some p)) (hbs : 0 < row.bs)
    (hn : 1 ≤ p.batchSize) (hstep : PureDecode step p.batchSize p.totSeqLen)
    (htaken : Taken b row p step) :
    Key.decode (padToAlignment step.length 8) ((step.map (·.firstLen)).sum : ℕ) = p.key := by
  by_contra hne
  let c : SimParallelConfig := ⟨1, 1⟩
  let ops : List (Text × SimParallelConfig × Op F) :=
    [(modelName [], c, .updateFromInstanceLog [row])]
  have hrecords : ops.flatMap (Op.records b) = [⟨modelName [], c, row, p⟩] := by
    simp [ops, Op.records, records, hbs, hrow]
  have hlast : RecordedLast b ops ⟨modelName [], c, row, p⟩ :=
    ⟨[], [], hrecords, fun _ hr => absurd hr List.not_mem_nil⟩
  obtain ⟨m, hm, htime⟩ := htaken {} ops [] c hlast
  rw [ProfilingDatabase.getLatencyMem_alone hrow hbs] at hm
  cases hm
  have hmiss := LatencyMemData.recorded_addLatencyResult {} p.inferenceType
    (padToAlignment p.batchSize 8) (padToAlignment p.totSeqLen 8) [p.latency]
    (.decode (padToAlignment step.length 8) ((step.map (·.firstLen)).sum : ℕ))
  rw [executeModelAsync_of_decode hstep hn, decodeTime_of_not_recorded (hmiss.trans (if_neg hne)),
    LatencyMemData.fittedDecode] at htime
  cases hkind : p.inferenceType <;> rw [hkind] at htime <;> cases htime

/-- A step of the kind and the size of the row recorded last for its key takes the row's latency
if and only if it is one of prompts, or the lengths of its sequences add up to a multiple of eight
and each group has one sequence. -/
theorem takes_profiled_iff (hrow : readProfile b row = .ok (some p)) (hbs : 0 < row.bs)
    (hn : 1 ≤ p.batchSize) (hs : 1 ≤ p.totSeqLen) (hstep : p.Describes step) :
    Taken b row p step ↔ p.inferenceType = .prefill ∨
      8 ∣ p.totSeqLen ∧ ∀ m ∈ step, m.seqData.values.length = 1 := by
  obtain ⟨t, n, s, latency⟩ := p
  cases t with
  | prefill =>
    refine iff_of_true (taken_of_found fun m hm => ?_) (.inl rfl)
    rw [executeModelAsync_of_prefill hstep hs, prefillTime_of_recorded hm]
    rfl
  | decode =>
    rw [or_iff_right nofun, ← PureDecode.key_eq_iff hstep]
    constructor
    · intro htaken
      exact key_eq_of_taken hrow hbs hn hstep htaken
    · intro hkey
      refine taken_of_found fun m hm => ?_
      have hfound := (congrArg m.recorded hkey).trans hm
      rw [executeModelAsync_of_decode hstep hn, decodeTime_of_recorded hfound]
      rfl

/-- `int` for plain digits. -/
def digits (t : Text) : Option ℤ :=
  let t := strip (· = ' ') t
  if t ≠ [] ∧ t.all Char.isDigit then some (t.foldl (fun n c => 10 * n + (c.toNat - 48)) 0)
  else none

def plain : Builtins ℚ where
  isSpace := (· = ' ')
  int := digits
  float t := (digits t).map (↑)

def prefillRow : Row := ⟨9, some "('prefill', 1, 9, 5)".toList⟩

def decodeRow : Row := ⟨1, some "('decode', 1, 9, 5)".toList⟩

def prefillProfile : Profile ℚ := ⟨.prefill, 1, 9, 5⟩

def decodeProfile : Profile ℚ := ⟨.decode, 1, 9, 5⟩

def group (isPrompt : Bool) (tokenChunkSize : ℕ) : SequenceGroupMetadata :=
  ⟨isPrompt, tokenChunkSize, .set .empty 0 9⟩

theorem describes_prompt : prefillProfile.Describes [group true 9] := ⟨by decide, by decide⟩

theorem describes_decode : decodeProfile.Describes [group false 1] :=
  ⟨by decide, by decide, by decide, by decide⟩

/-- A prompt of nine tokens takes what was recorded, and a step of a sequence of nine does not. -/
theorem takes_profiled_nine :
    Taken plain prefillRow prefillProfile [group true 9] ∧
      ¬Taken plain decodeRow decodeProfile [group false 1] := by
  have hprefill : readProfile plain prefillRow = .ok (some prefillProfile) := by decide
  have hdecode : readProfile plain decodeRow = .ok (some decodeProfile) := by decide
  constructor
  · exact (takes_profiled_iff hprefill (by decide) (by decide) (by decide) describes_prompt).mpr
      (.inl rfl)
  · rw [takes_profiled_iff hdecode (by decide) (by decide) (by decide) describes_decode]
    decide

def longPrefillRow : Row := ⟨17, some "('prefill', 1, 17, 6)".toList⟩

def wideDecodeRow : Row := ⟨9, some "('decode', 9, 9, 5)".toList⟩

def longDecodeRow : Row := ⟨1, some "('decode', 1, 17, 6)".toList⟩

/-- The rows are recorded, and the models that are fitted go through all of them. -/
def sampleOps : List (Text × SimParallelConfig × Op ℚ) :=
  [(['m'], ⟨1, 1⟩, .updateFromInstanceLog
      [prefillRow, longPrefillRow, decodeRow, wideDecodeRow, longDecodeRow]),
    (['m'], ⟨1, 1⟩, .fitFromDatabase (.ok (1 / 8, 3)) (.ok (0, 1 / 8, 3)))]

/-- The sequence of nine tokens takes 33/8 ms, as fitted, and not 5 ms, as recorded. -/
theorem decode_misses :
    RecordedLast plain sampleOps ⟨['m'], ⟨1, 1⟩, decodeRow, decodeProfile⟩ ∧
      ((({} : ProfilingDatabase ℚ).run plain sampleOps).getLatencyMem ['m'] ⟨1, 1⟩).bind
          (fun m => (executeModelAsync m [group false 1]).map Prod.fst) =
        .ok (33 / 8 / ((1000 : ℤ) : ℚ)) := by
  have hrecords : sampleOps.flatMap (Op.records plain) =
      [⟨['m'], ⟨1, 1⟩, prefillRow, prefillProfile⟩,
        ⟨['m'], ⟨1, 1⟩, longPrefillRow, ⟨.prefill, 1, 17, 6⟩⟩,
        ⟨['m'], ⟨1, 1⟩, decodeRow, decodeProfile⟩,
        ⟨['m'], ⟨1, 1⟩, wideDecodeRow, ⟨.decode, 9, 9, 5⟩⟩,
        ⟨['m'], ⟨1, 1⟩, longDecodeRow, ⟨.decode, 1, 17, 6⟩⟩] := by
    decide +kernel
  refine ⟨⟨[_, _], [_, _], hrecords, by decide⟩, ?_⟩
  decide +kernel

end Taken
end Llumnix.Simulator
