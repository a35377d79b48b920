import Llumnix.Python.Json
import Llumnix.V1.Coordinator
import Mathlib.Data.Finset.Sort

/-! The checksum of a snapshot, over the canonical JSON text of all its other fields. -/
namespace Llumnix.V1

open Python

/-- A stop reason is a token, a text or `None`. -/
def stopValue : Option StopReason → Json.Value
  | none => .null
  | some (.token id) => .int id
  | some (.text reason) => .str reason

def intsValue (ns : List ℤ) : Json.Value := .list (ns.map .int)

namespace SnapshotArgs

/-- `_checksum_fields`, as the dictionary that is written. The flags are a set, and sorted. -/
def checksumDict (a : SnapshotArgs) : List (String × Json.Value) :=
  [("protocol_version", .int a.protocolVersion),
    ("request_id", .str a.requestId),
    ("migration_epoch", .int a.migrationEpoch),
    ("prompt_token_ids", intsValue a.promptTokenIds),
    ("all_token_ids", intsValue a.allTokenIds),
    ("output_token_ids", intsValue a.outputTokenIds),
    ("num_computed_tokens", .int a.numComputedTokens),
    ("max_tokens", .int a.maxTokens),
    ("sampling_params", .str (Json.hex a.samplingParams)),
    ("stop_reason", stopValue a.stopReason),
    ("kv_layout_version", .str a.kvLayoutVersion),
    ("kv_group_block_counts", intsValue a.kvGroupBlockCounts),
    ("feature_flags", .list (a.featureFlags.toFinset.sort.map .str))]

def payload (a : SnapshotArgs) : List UInt8 := Json.utf8 (Json.dumps a.checksumDict)

/-- All fields agree but the checksum; the flags as sets. -/
structure SameFields (a b : SnapshotArgs) : Prop where
  requestId : a.requestId = b.requestId
  migrationEpoch : a.migrationEpoch = b.migrationEpoch
  promptTokenIds : a.promptTokenIds = b.promptTokenIds
  allTokenIds : a.allTokenIds = b.allTokenIds
  outputTokenIds : a.outputTokenIds = b.outputTokenIds
  numComputedTokens : a.numComputedTokens = b.numComputedTokens
  maxTokens : a.maxTokens = b.maxTokens
  samplingParams : a.samplingParams = b.samplingParams
  stopReason : a.stopReason = b.stopReason
  kvLayoutVersion : a.kvLayoutVersion = b.kvLayoutVersion
  kvGroupBlockCounts : a.kvGroupBlockCounts = b.kvGroupBlockCounts
  featureFlags : a.featureFlags.toFinset = b.featureFlags.toFinset
  protocolVersion : a.protocolVersion = b.protocolVersion

end SnapshotArgs

/-- SHA-256 over the canonical text. -/
def canonicalRuntime (limits : Limits) (sha256 : List UInt8 → String) : Runtime where
  toLimits := limits
  sha256 := sha256
  dumps := SnapshotArgs.payload

namespace Checksum

theorem stopValue_injective : Function.Injective stopValue := by
  intro a b h
  match a, b with
  | none, none => rfl
  | none, some (.token _) => cases h
  | none, some (.text _) => cases h
  | some (.token _), none => cases h
  | some (.text _), none => cases h
  | some (.token _), some (.token _) => cases h; rfl
  | some (.text _), some (.text _) => cases h; rfl
  | some (.token _), some (.text _) => cases h
  | some (.text _), some (.token _) => cases h

theorem intsValue_injective : Function.Injective intsValue := by
  intro a b h
  exact List.map_injective_iff.mpr (fun _ _ => Json.Value.int.inj) (Json.Value.list.inj h)

section Fields
variable {a b : SnapshotArgs}

theorem value_eq (h : a.payload = b.payload) (n : ℕ) {key : String} {v w : Json.Value}
    (hv : a.checksumDict[n]? = some (key, v)) (hw : b.checksumDict[n]? = some (key, w)) :
    v = w := by
  have hperm := Json.perm_of_dumps (Json.utf8_injective h)
  have hkeys : (b.checksumDict.map Prod.fst).Nodup := by
    change ["protocol_version", "request_id", "migration_epoch", "prompt_token_ids",
      "all_token_ids", "output_token_ids", "num_computed_tokens", "max_tokens", "sampling_params",
      "stop_reason", "kv_layout_version", "kv_group_block_counts", "feature_flags"].Nodup
    decide
  have hmem := hperm.subset (List.mem_of_getElem? hv)
  exact congrArg Prod.snd (List.inj_on_of_nodup_map hkeys hmem (List.mem_of_getElem? hw) rfl)

theorem same_of_payload (h : a.payload = b.payload) : a.SameFields b where
  protocolVersion := Json.Value.int.inj (value_eq h 0 rfl rfl)
  requestId := Json.Value.str.inj (value_eq h 1 rfl rfl)
  migrationEpoch := Json.Value.int.inj (value_eq h 2 rfl rfl)
  promptTokenIds := intsValue_injective (value_eq h 3 rfl rfl)
  allTokenIds := intsValue_injective (value_eq h 4 rfl rfl)
  outputTokenIds := intsValue_injective (value_eq h 5 rfl rfl)
  numComputedTokens := Json.Value.int.inj (value_eq h 6 rfl rfl)
  maxTokens := Json.Value.int.inj (value_eq h 7 rfl rfl)
  samplingParams := Json.hex_injective (Json.Value.str.inj (value_eq h 8 rfl rfl))
  stopReason := stopValue_injective (value_eq h 9 rfl rfl)
  kvLayoutVersion := Json.Value.str.inj (value_eq h 10 rfl rfl)
  kvGroupBlockCounts := intsValue_injective (value_eq h 11 rfl rfl)
  featureFlags := by
    have hflags := Json.Value.list.inj (value_eq h 12 rfl rfl)
    have hsorted := List.map_injective_iff.mpr (fun _ _ => Json.Value.str.inj) hflags
    rw [← Finset.sort_toFinset a.featureFlags.toFinset (· ≤ ·), hsorted, Finset.sort_toFinset]

end Fields

/-- No two snapshots with different fields are written in the same way; and so, if the digest has
no collisions, no two of them have the same valid checksum. -/
theorem checksum_authenticates (limits : Limits) {sha256 : List UInt8 → String}
    (hsha : Function.Injective sha256) (a b : RequestMigrationSnapshot) :
    (a.payload = b.payload → a.SameFields b.toSnapshotArgs) ∧
    (a.validateChecksum (canonicalRuntime limits sha256) = .ok () →
      b.validateChecksum (canonicalRuntime limits sha256) = .ok () → a.checksum = b.checksum →
      a.SameFields b.toSnapshotArgs) := by
  have hvalid : ∀ c : RequestMigrationSnapshot,
      c.validateChecksum (canonicalRuntime limits sha256) = .ok () →
        c.checksum = sha256 c.payload := by
    intro c hc
    by_cases hp : c.Printable limits
    · by_cases hintact : c.Intact (canonicalRuntime limits sha256)
      · exact hintact.2
      · rw [SnapshotArgs.validateChecksum_of_not_intact hp hintact] at hc
        cases hc
    · rw [SnapshotArgs.validateChecksum_of_not_printable hp] at hc
      cases hc
  refine ⟨same_of_payload, fun ha hb heq => same_of_payload (hsha ?_)⟩
  rw [← hvalid a ha, ← hvalid b hb, heq]

section Sample

def sampleArgs (featureFlags : List String) : SnapshotArgs where
  requestId := "r\u00e9\"1"
  migrationEpoch := 1
  promptTokenIds := [5]
  allTokenIds := [5, 6]
  outputTokenIds := [6]
  numComputedTokens := 2
  maxTokens := 8
  stopReason := some (.text "6")
  featureFlags := featureFlags

/-- A snapshot whose digest is its payload. -/
def sampleSnapshot (featureFlags : List String) : RequestMigrationSnapshot where
  toSnapshotArgs :=
    { sampleArgs featureFlags with checksum := Json.hex (sampleArgs featureFlags).payload }
  requestId_ne := (by decide : "r\u00e9\"1" ≠ "")
  migrationEpoch_pos := Int.one_pos
  numComputedTokens_nonneg := Int.natCast_nonneg 2
  maxTokens_nonneg := Int.natCast_nonneg 8
  numComputedTokens_le := Int.le_refl 2
  protocolVersion_eq := rfl
  kvGroupBlockCounts_nonneg := fun count h => absurd h List.not_mem_nil

theorem sample_valid (featureFlags : List String) :
    (sampleSnapshot featureFlags).validateChecksum
      (canonicalRuntime ⟨4300, 4294967296⟩ Json.hex) = .ok () := by
  have hprintable : (sampleArgs []).Printable ⟨4300, 4294967296⟩ := by decide
  exact SnapshotArgs.validateChecksum_of_intact ⟨hprintable, rfl⟩

theorem sample_checksum :
    (sampleSnapshot ["b", "a"]).checksum = (sampleSnapshot ["a", "b"]).checksum := by
  have hflags : ["b", "a"].toFinset = ["a", "b"].toFinset := by decide
  change Json.hex (sampleArgs ["b", "a"]).payload = Json.hex (sampleArgs ["a", "b"]).payload
  unfold SnapshotArgs.payload SnapshotArgs.checksumDict sampleArgs
  rw [hflags]

theorem checksum_authenticates_sample :
    Function.Injective Json.hex ∧
    (sampleSnapshot ["b", "a"]).checksum = (sampleSnapshot ["a", "b"]).checksum ∧
    (sampleSnapshot ["b", "a"]).SameFields (sampleSnapshot ["a", "b"]).toSnapshotArgs :=
  ⟨Json.hex_injective, sample_checksum, (checksum_authenticates _ Json.hex_injective _ _).2
    (sample_valid _) (sample_valid _) sample_checksum⟩

end Sample
end Checksum
end Llumnix.V1
