import Llumnix.Legacy.Selection
import Llumnix.Log.LastWrite
import Llumnix.Python.Text
import Mathlib.Data.List.DropRight

/-! The database of profiled latencies: how it is filled from the log of the instances, and what the
simulator finds in it. -/
namespace Llumnix.Simulator

open Python Log
open Legacy (RequestInferenceType)

abbrev Text := List Char

def padToAlignment (x multipleOf : ℤ) : ℤ := x + (-1 * x) % multipleOf

inductive PyError
  | assertionError
  | attributeError
  | indexError
  | keyError
  | typeError
  | valueError
  deriving DecidableEq

/-- What Python makes of texts: `str.isspace` of a character, and `int` and `float` of a text, with
`none` for a `ValueError`. -/
structure Builtins (F : Type) where
  isSpace : Char → Bool
  int : Text → Option ℤ
  float : Text → Option F

/-- The columns that are read of a row. A cell without a text is read as a NaN, and has no method
`strip`. -/
structure Row where
  bs : ℤ
  profilingData : Option Text
  deriving DecidableEq

/-- What a row says. -/
structure Profile (F : Type) where
  inferenceType : RequestInferenceType
  batchSize : ℤ
  totSeqLen : ℤ
  latency : F
  deriving DecidableEq

section Extract
variable {F : Type} (b : Builtins F)

def strip (p : Char → Bool) (s : Text) : Text := (s.dropWhile p).rdropWhile p

/-- The part of `_extract_data` that reads the row; `none` is a row that is not accepted. -/
def readProfile (row : Row) : Except PyError (Option (Profile F)) := do
  let some text := row.profilingData | throw .attributeError
  let profilingData := (strip (· ∈ ['"', '(', ')']) text).splitOn ','
  let field (i : ℕ) : Except PyError Text := (profilingData[i]?).elim (throw .indexError) pure
  let kind ← field 0
  if strip b.isSpace kind = [] then return none
  let batchSize ← field 1
  if strip b.isSpace batchSize = "None".toList then return none
  let totSeqLen ← field 2
  if totSeqLen = "0".toList then return none
  let latency ← field 3
  if latency = "0".toList then return none
  let inferenceType : RequestInferenceType :=
    if kind = "'prefill'".toList then .prefill else .decode
  let some batchSize := b.int batchSize | throw .valueError
  let some totSeqLen := b.int totSeqLen | throw .valueError
  let some latency := b.float latency | throw .valueError
  return some { inferenceType, batchSize, totSeqLen, latency }

def extractData (row : Row) :
    Except PyError (Option (List F × RequestInferenceType × ℤ × ℤ)) :=
  (readProfile b row).map fun accepted => accepted.map fun p =>
    ([p.latency], p.inferenceType, padToAlignment p.batchSize 8, padToAlignment p.totSeqLen 8)

end Extract

structure SimParallelConfig where
  tp : ℤ
  pp : ℤ
  deriving DecidableEq

structure SimCacheConfig (F : Type) where
  gpuMemoryUtilization : F
  blockSize : ℤ
  maxNumBatchedTokens : ℤ
  deriving DecidableEq

structure LatencyMemData (F : Type) where
  prefillLatency : Dict ℤ (List F) := .empty
  decodeLatency : Dict (ℤ × ℤ) (List F) := .empty
  cacheDict : Dict (SimCacheConfig F) ℤ := .empty
  decodeModelParams : Option (F × F × F) := none
  prefillModelParams : Option (F × F) := none

namespace LatencyMemData
variable {F : Type}

def addLatencyResult (m : LatencyMemData F) (inferenceType : RequestInferenceType)
    (batchSize totSeqLen : ℤ) (latency : List F) : LatencyMemData F :=
  match inferenceType with
  | .prefill => { m with prefillLatency := m.prefillLatency.set totSeqLen latency }
  | .decode => { m with decodeLatency := m.decodeLatency.set (batchSize, totSeqLen) latency }

def addCacheResult [DecidableEq F] (m : LatencyMemData F) (cacheConfig : SimCacheConfig F)
    (numBlocks : ℤ) : LatencyMemData F :=
  { m with cacheDict := m.cacheDict.set cacheConfig numBlocks }

/-- `fit_from_database` by the parameters that `curve_fit` finds, if it does. It cannot be called
without a point to fit. -/
def fit (m : LatencyMemData F) (prefillParams : Except PyError (F × F))
    (decodeParams : Except PyError (F × F × F)) : LatencyMemData F × Option PyError :=
  if m.prefillLatency.items.isEmpty then (m, some .valueError)
  else
    match prefillParams with
    | .error e => (m, some e)
    | .ok params =>
      let m := { m with prefillModelParams := some params }
      if m.decodeLatency.items.isEmpty then (m, some .valueError)
      else
        match decodeParams with
        | .error e => (m, some e)
        | .ok params => ({ m with decodeModelParams := some params }, none)

end LatencyMemData

structure ProfilingResult (F : Type) where
  modelName : Text
  paraDict : Dict SimParallelConfig (LatencyMemData F) := .empty

namespace ProfilingResult
variable {F : Type}

def addLatencyResult (r : ProfilingResult F) (parallelConfig : SimParallelConfig)
    (inferenceType : RequestInferenceType) (batchSize totSeqLen : ℤ) (stageLatency : List F) :
    ProfilingResult F :=
  match r.paraDict.get? parallelConfig with
  | none =>
    let m : LatencyMemData F :=
      match inferenceType with
      | .prefill => { prefillLatency := Dict.set .empty totSeqLen stageLatency }
      | .decode => { decodeLatency := Dict.set .empty (batchSize, totSeqLen) stageLatency }
    { r with paraDict := r.paraDict.set parallelConfig m }
  | some m =>
    let m := m.addLatencyResult inferenceType batchSize totSeqLen stageLatency
    { r with paraDict := r.paraDict.set parallelConfig m }

def addCacheResult [DecidableEq F] (r : ProfilingResult F) (parallelConfig : SimParallelConfig)
    (cacheConfig : SimCacheConfig F) (numBlocks : ℤ) : ProfilingResult F :=
  let m := (r.paraDict.get? parallelConfig).getD {}
  { r with paraDict := r.paraDict.set parallelConfig (m.addCacheResult cacheConfig numBlocks) }

def fitFromDatabase (r : ProfilingResult F) (parallelConfig : SimParallelConfig)
    (prefillParams : Except PyError (F × F)) (decodeParams : Except PyError (F × F × F)) :
    ProfilingResult F × Option PyError :=
  match r.paraDict.get? parallelConfig with
  | none => (r, some .keyError)
  | some m =>
    let fitted := m.fit prefillParams decodeParams
    ({ r with paraDict := r.paraDict.set parallelConfig fitted.1 }, fitted.2)

/-- The loop of `update_from_instance_log`. -/
def addRows (b : Builtins F) (parallelConfig : SimParallelConfig) (r : ProfilingResult F) :
    List Row → ProfilingResult F × Option PyError
  | [] => (r, none)
  | row :: rows =>
    match extractData b row with
    | .error e => (r, some e)
    | .ok none => r.addRows b parallelConfig rows
    | .ok (some (stageLatencies, inferenceType, batchSize, totSeqLen)) =>
      (r.addLatencyResult parallelConfig inferenceType batchSize totSeqLen stageLatencies).addRows b
        parallelConfig rows

end ProfilingResult

/-- What is done to a database for a model and a parallel configuration. -/
inductive Op (F : Type)
  | updateFromInstanceLog (rows : List Row)
  | fitFromDatabase (prefillParams : Except PyError (F × F))
      (decodeParams : Except PyError (F × F × F))
  | addCacheResult (cacheConfig : SimCacheConfig F) (numBlocks : ℤ)

structure ProfilingDatabase (F : Type) where
  results : Dict Text (ProfilingResult F) := .empty

def modelName (path : Text) : Text :=
  let path := if path.getLast? = some '/' then path.dropLast else path
  ((rpartition '/' path).map Prod.snd).getD path

namespace ProfilingDatabase
variable {F : Type}

def put (db : ProfilingDatabase F) (model : Text) (r : ProfilingResult F) : ProfilingDatabase F :=
  ⟨db.results.set model r⟩

def updateFromInstanceLog (b : Builtins F) (db : ProfilingDatabase F) (rows : List Row)
    (model : Text) (parallelConfig : SimParallelConfig) : ProfilingDatabase F × Option PyError :=
  let r := (db.results.get? model).getD { modelName := model }
  let updated := r.addRows b parallelConfig (rows.filter (0 < ·.bs))
  (db.put model updated.1, updated.2)

/-- What is left after an operation, also if it raises. -/
def apply [DecidableEq F] (b : Builtins F) (db : ProfilingDatabase F)
    (op : Text × SimParallelConfig × Op F) : ProfilingDatabase F :=
  let (model, parallelConfig, op) := op
  match op with
  | .updateFromInstanceLog rows => (db.updateFromInstanceLog b rows model parallelConfig).1
  | .fitFromDatabase prefillParams decodeParams =>
    match db.results.get? model with
    | none => db
    | some r => db.put model (r.fitFromDatabase parallelConfig prefillParams decodeParams).1
  | .addCacheResult cacheConfig numBlocks =>
    match db.results.get? model with
    | none => db
    | some r => db.put model (r.addCacheResult parallelConfig cacheConfig numBlocks)

def run [DecidableEq F] (b : Builtins F) (db : ProfilingDatabase F)
    (ops : List (Text × SimParallelConfig × Op F)) : ProfilingDatabase F :=
  ops.foldl (apply b) db

def getLatencyMem (db : ProfilingDatabase F) (modelPath : Text)
    (parallelConfig : SimParallelConfig) : Except PyError (LatencyMemData F) :=
  match db.results.get? (modelName modelPath) with
  | none => .error .assertionError
  | some r => (r.paraDict.get? parallelConfig).elim (.error .assertionError) .ok

end ProfilingDatabase

/-! ### What is recorded -/

/-- A key of one of the two tables. -/
inductive Key
  | prefill (totSeqLen : ℤ)
  | decode (batchSize totSeqLen : ℤ)
  deriving DecidableEq

def key : RequestInferenceType → ℤ → ℤ → Key
  | .prefill, _, totSeqLen => .prefill totSeqLen
  | .decode, batchSize, totSeqLen => .decode batchSize totSeqLen

/-- The key under which a row is recorded. -/
def Profile.key {F : Type} (p : Profile F) : Key :=
  Simulator.key p.inferenceType (padToAlignment p.batchSize 8) (padToAlignment p.totSeqLen 8)

structure Place where
  model : Text
  parallelConfig : SimParallelConfig
  key : Key
  deriving DecidableEq

/-- A row that has been recorded. -/
structure Record (F : Type) where
  model : Text
  parallelConfig : SimParallelConfig
  row : Row
  profile : Profile F
  deriving DecidableEq

def Record.place {F : Type} (r : Record F) : Place := ⟨r.model, r.parallelConfig, r.profile.key⟩

def Record.writes {F : Type} (r : Record F) (a : Place) : Option (Option (List F)) :=
  if a = r.place then some (some [r.profile.latency]) else none

section Records
variable {F : Type} (b : Builtins F)

/-- The rows that the loop of `update_from_instance_log` records, up to the first exception. -/
def records (model : Text) (parallelConfig : SimParallelConfig) : List Row → List (Record F)
  | [] => []
  | row :: rows =>
    match readProfile b row with
    | .error _ => []
    | .ok none => records model parallelConfig rows
    | .ok (some profile) =>
      ⟨model, parallelConfig, row, profile⟩ :: records model parallelConfig rows

def Op.records (op : Text × SimParallelConfig × Op F) : List (Record F) :=
  match op.2.2 with
  | .updateFromInstanceLog rows => Simulator.records b op.1 op.2.1 (rows.filter (0 < ·.bs))
  | .fitFromDatabase _ _ => []
  | .addCacheResult _ _ => []

/-- The row is recorded, and nothing is recorded in its place after it. -/
def RecordedLast (ops : List (Text × SimParallelConfig × Op F)) (r : Record F) : Prop :=
  ∃ before after, ops.flatMap (Op.records b) = before ++ r :: after ∧
    ∀ r' ∈ after, r'.place ≠ r.place

end Records

namespace LatencyMemData
variable {F : Type}

def recorded (m : LatencyMemData F) : Key → Option (List F)
  | .prefill totSeqLen => m.prefillLatency.get? totSeqLen
  | .decode batchSize totSeqLen => m.decodeLatency.get? (batchSize, totSeqLen)

@[simp] theorem recorded_empty (k : Key) : ({} : LatencyMemData F).recorded k = none := by
  cases k <;> rfl

theorem recorded_addLatencyResult (m : LatencyMemData F) (t : RequestInferenceType)
    (batchSize totSeqLen : ℤ) (latency : List F) (k : Key) :
    (m.addLatencyResult t batchSize totSeqLen latency).recorded k =
      if k = key t batchSize totSeqLen then some latency else m.recorded k := by
  cases t <;> cases k <;> simp [addLatencyResult, recorded, key, Dict.get?_set]

theorem recorded_fit (m : LatencyMemData F) (prefillParams : Except PyError (F × F))
    (decodeParams : Except PyError (F × F × F)) (k : Key) :
    (m.fit prefillParams decodeParams).1.recorded k = m.recorded k := by
  unfold fit
  split
  · rfl
  · split
    · rfl
    · dsimp only
      split
      · cases k <;> rfl
      · split <;> cases k <;> rfl

end LatencyMemData

namespace ProfilingResult
variable {F : Type}

def recorded (r : ProfilingResult F) (c : SimParallelConfig) (k : Key) : Option (List F) :=
  (r.paraDict.get? c).bind (·.recorded k)

theorem recorded_set (r : ProfilingResult F) (m : LatencyMemData F) (c c' : SimParallelConfig)
    (k : Key) :
    ({ r with paraDict := r.paraDict.set c m } : ProfilingResult F).recorded c' k =
      if c' = c then m.recorded k else r.recorded c' k := by
  unfold recorded
  rw [Dict.get?_set]
  split <;> rfl

theorem recorded_set_eq {r : ProfilingResult F} {m : LatencyMemData F} {c : SimParallelConfig}
    (h : ∀ k, m.recorded k = r.recorded c k) (c' : SimParallelConfig) (k : Key) :
    ({ r with paraDict := r.paraDict.set c m } : ProfilingResult F).recorded c' k =
      r.recorded c' k := by
  rw [recorded_set, h]
  split
  · rename_i hc
    rw [hc]
  · rfl

theorem recorded_getD (r : ProfilingResult F) (c : SimParallelConfig) (k : Key) :
    ((r.paraDict.get? c).getD {}).recorded k = r.recorded c k := by
  unfold recorded
  cases r.paraDict.get? c with
  | none => exact LatencyMemData.recorded_empty k
  | some m => rfl

theorem addLatencyResult_eq (r : ProfilingResult F) (c : SimParallelConfig)
    (t : RequestInferenceType) (batchSize totSeqLen : ℤ) (latency : List F) :
    r.addLatencyResult c t batchSize totSeqLen latency =
      { r with
        paraDict := r.paraDict.set c <|
          ((r.paraDict.get? c).getD {}).addLatencyResult t batchSize totSeqLen latency } := by
  unfold addLatencyResult
  cases r.paraDict.get? c with
  | none => cases t <;> rfl
  | some m => rfl

theorem recorded_addLatencyResult (r : ProfilingResult F) (c c' : SimParallelConfig)
    (t : RequestInferenceType) (batchSize totSeqLen : ℤ) (latency : List F) (k : Key) :
    (r.addLatencyResult c t batchSize totSeqLen latency).recorded c' k =
      if c' = c ∧ k = key t batchSize totSeqLen then some latency else r.recorded c' k := by
  rw [addLatencyResult_eq, recorded_set, LatencyMemData.recorded_addLatencyResult, recorded_getD,
    ite_and]
  refine ite_congr rfl (fun hc => ?_) fun _ => rfl
  rw [hc]

theorem recorded_fitFromDatabase (r : ProfilingResult F) (c c' : SimParallelConfig)
    (prefillParams : Except PyError (F × F)) (decodeParams : Except PyError (F × F × F)) (k : Key) :
    (r.fitFromDatabase c prefillParams decodeParams).1.recorded c' k = r.recorded c' k := by
  unfold fitFromDatabase
  cases hm : r.paraDict.get? c with
  | none => rfl
  | some m =>
    refine recorded_set_eq (fun k => ?_) c' k
    rw [LatencyMemData.recorded_fit, recorded, hm]
    rfl

theorem recorded_addCacheResult [DecidableEq F] (r : ProfilingResult F) (c c' : SimParallelConfig)
    (cacheConfig : SimCacheConfig F) (numBlocks : ℤ) (k : Key) :
    (r.addCacheResult c cacheConfig numBlocks).recorded c' k = r.recorded c' k := by
  refine recorded_set_eq (fun k => ?_) c' k
  rw [← recorded_getD]
  cases k <;> rfl

end ProfilingResult

namespace ProfilingDatabase
variable {F : Type} {b : Builtins F}

def recorded (db : ProfilingDatabase F) (a : Place) : Option (List F) :=
  (db.results.get? a.model).bind (·.recorded a.parallelConfig a.key)

theorem recorded_put (db : ProfilingDatabase F) (model : Text) (r : ProfilingResult F) (a : Place) :
    (db.put model r).recorded a =
      if a.model = model then r.recorded a.parallelConfig a.key else db.recorded a := by
  unfold recorded put
  rw [Dict.get?_set]
  split <;> rfl

theorem recorded_put_eq {db : ProfilingDatabase F} {model : Text} {r : ProfilingResult F}
    (h : ∀ c k, r.recorded c k = ((db.results.get? model).bind (·.recorded c k))) :
    (db.put model r).recorded = db.recorded := by
  funext a
  rw [recorded_put, h]
  split
  · rename_i hmodel
    rw [← hmodel]
    rfl
  · rfl

theorem recorded_put_addLatencyResult (db : ProfilingDatabase F) (r : ProfilingResult F)
    (e : Record F) :
    (db.put e.model (r.addLatencyResult e.parallelConfig e.profile.inferenceType
        (padToAlignment e.profile.batchSize 8) (padToAlignment e.profile.totSeqLen 8)
        [e.profile.latency])).recorded =
      write Record.writes (db.put e.model r).recorded e := by
  funext a
  obtain ⟨model, c, k⟩ := a
  rw [recorded_put, ProfilingResult.recorded_addLatencyResult, write, recorded_put]
  unfold Record.writes Record.place Profile.key
  simp only [Place.mk.injEq]
  by_cases hmodel : model = e.model
  · simp only [hmodel, true_and, if_true]
    split <;> rfl
  · simp only [hmodel, false_and, if_false]
    rfl

theorem recorded_addRows (db : ProfilingDatabase F) (model : Text) (c : SimParallelConfig)
    (r : ProfilingResult F) (rows : List Row) :
    (db.put model (r.addRows b c rows).1).recorded =
      (records b model c rows).foldl (write Record.writes) (db.put model r).recorded := by
  induction rows generalizing r with
  | nil => rfl
  | cons row rows ih =>
    unfold ProfilingResult.addRows records extractData
    cases readProfile b row with
    | error e => rfl
    | ok accepted =>
      cases accepted with
      | none => exact ih r
      | some p =>
        refine (ih _).trans ?_
        rw [List.foldl_cons, ← recorded_put_addLatencyResult db r ⟨model, c, row, p⟩]

theorem recorded_apply [DecidableEq F] (db : ProfilingDatabase F)
    (op : Text × SimParallelConfig × Op F) :
    (db.apply b op).recorded = (Op.records b op).foldl (write Record.writes) db.recorded := by
  obtain ⟨model, c, op⟩ := op
  cases op with
  | updateFromInstanceLog rows =>
    refine (recorded_addRows db model c _ _).trans ?_
    rw [recorded_put_eq]
    · rfl
    · intro c k
      cases db.results.get? model <;> rfl
  | fitFromDatabase prefillParams decodeParams =>
    unfold apply
    dsimp only
    cases hr : db.results.get? model with
    | none => rfl
    | some r =>
      refine recorded_put_eq fun c' k => ?_
      rw [ProfilingResult.recorded_fitFromDatabase, hr]
      rfl
  | addCacheResult cacheConfig numBlocks =>
    unfold apply
    dsimp only
    cases hr : db.results.get? model with
    | none => rfl
    | some r =>
      refine recorded_put_eq fun c' k => ?_
      rw [ProfilingResult.recorded_addCacheResult, hr]
      rfl

theorem recorded_run [DecidableEq F] (db : ProfilingDatabase F)
    (ops : List (Text × SimParallelConfig × Op F)) :
    (db.run b ops).recorded =
      (ops.flatMap (Op.records b)).foldl (write Record.writes) db.recorded := by
  induction ops generalizing db with
  | nil => rfl
  | cons op ops ih =>
    rw [List.flatMap_cons, List.foldl_append, ← recorded_apply]
    exact ih (db.apply b op)

theorem recorded_of_recordedLast [DecidableEq F] (db : ProfilingDatabase F)
    {ops : List (Text × SimParallelConfig × Op F)} {r : Record F} (h : RecordedLast b ops r) :
    (db.run b ops).recorded r.place = some [r.profile.latency] := by
  obtain ⟨before, after, heq, hafter⟩ := h
  have hlast : last Record.writes (ops.flatMap (Op.records b)) r.place =
      some (some [r.profile.latency]) := by
    refine last_eq_some.mpr ⟨before, r, after, heq, if_pos rfl, fun r' hr' v hv => ?_⟩
    rw [Record.writes, if_neg (hafter r' hr').symm] at hv
    cases hv
  rw [recorded_run, foldl_write, hlast]
  rfl

theorem exists_getLatencyMem {db : ProfilingDatabase F} {path : Text} {c : SimParallelConfig}
    {k : Key} {v : List F} (h : db.recorded ⟨modelName path, c, k⟩ = some v) :
    ∃ m, db.getLatencyMem path c = .ok m ∧ m.recorded k = some v := by
  obtain ⟨r, hr, h⟩ := Option.bind_eq_some_iff.mp h
  obtain ⟨m, hm, h⟩ := Option.bind_eq_some_iff.mp h
  refine ⟨m, ?_, h⟩
  unfold getLatencyMem
  rw [hr]
  exact congrArg (·.elim (Except.error PyError.assertionError) Except.ok) hm

theorem getLatencyMem_alone [DecidableEq F] {row : Row} {p : Profile F}
    (hrow : readProfile b row = .ok (some p)) (hbs : 0 < row.bs) (model : Text)
    (c : SimParallelConfig) :
    (({} : ProfilingDatabase F).run b [(modelName model, c, .updateFromInstanceLog [row])]
      ).getLatencyMem model c =
      .ok (LatencyMemData.addLatencyResult {} p.inferenceType (padToAlignment p.batchSize 8)
        (padToAlignment p.totSeqLen 8) [p.latency]) := by
  have hextract : extractData b row = .ok (some ([p.latency], p.inferenceType,
      padToAlignment p.batchSize 8, padToAlignment p.totSeqLen 8)) := by
    rw [extractData, hrow]
    rfl
  simp [run, apply, updateFromInstanceLog, put, getLatencyMem, ProfilingResult.addRows,
    ProfilingResult.addLatencyResult_eq, Dict.get?_set, hbs, hextract]

end ProfilingDatabase
end Llumnix.Simulator
