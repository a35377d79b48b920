import Llumnix.Scheduler.Guard

/-! When a choice stays in the pool it was asked for. Two policies choose in the pool, and so does
the affinity to cached blocks. The other three choose among the counters, and then it depends on
who is counted there: a P/D selection may have counted a decode instance. -/
namespace Llumnix.Scheduler

open Python Machine

variable {H : Type}

section Hits
variable {round : ℚ → Number} {available : List InstanceInfo} {blockHashes : List String}

namespace DispatchScheduler
variable {d : DispatchScheduler}

end DispatchScheduler
end Hits

namespace DispatchScheduler
variable {d : DispatchScheduler} {round : ℚ → Number} {ids blockHashes : List String}

end DispatchScheduler

section Reached
variable {m : Manager H} {c : Cluster} {round : ℚ → Number} {blockHashes : List String}

end Reached

section Sample

end Sample
end Llumnix.Scheduler
