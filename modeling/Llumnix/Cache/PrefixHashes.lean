import Llumnix.Cache.Affinity
import Llumnix.Hash.Chain
import Llumnix.Python.Json
import Llumnix.Python.Slices

/-! The hashes that stand for the complete blocks of a token list, by which the router looks a
request up in the index. -/
namespace Llumnix.Cache

open Python Hash

variable {hashBlockTokens : Option (Option BlockHash → List ℤ → BlockHash)}
  {blake2b : List UInt8 → Digest} {b : ℕ} {s x t y : List ℤ}

/-! ### Blocks -/

end Llumnix.Cache
