import Llumnix.Scheduler.Rebuild

/-! One task at a time: what the counter of pending instances says about the instances, and what is
left when the task has ended. -/
namespace Llumnix.Scheduler.Rebuild

open Machine Python

variable {H : Type}

section Manager
variable {m m' : Manager H}

abbrev migrationFilter (m : Manager H) : MigrationInstanceFilter :=
  m.globalScheduler.migrationScheduler.migrationFilter

/-- Instances come or go, and each is counted. -/
structure Moves (m m' : Manager H) (updated : Prop) : Prop where
  enable : m'.enableMigration = m.enableMigration
  group : m'.isGroupKindMigrationBackend = m.isGroupKindMigrationBackend
  filter : migrationFilter m' = migrationFilter m
  same : ¬updated → m'.instances = m.instances ∧
    m'.pendingRebuildMigrationInstances = m.pendingRebuildMigrationInstances
  grows : updated → m.pendingRebuildMigrationInstances < m'.pendingRebuildMigrationInstances

theorem Moves.le {updated : Prop} (h : Moves m m' updated) :
    m.pendingRebuildMigrationInstances ≤ m'.pendingRebuildMigrationInstances := by
  by_cases hu : updated
  · exact (h.grows hu).le
  · exact (h.same hu).2.ge

theorem moves_foldl {β : Type} {f : Manager H → β → Manager H} {new : Manager H → β → Prop}
    (hold : ∀ m x, ¬new m x → f m x = m) (hnew : ∀ m x, new m x → Moves m (f m x) True)
    (xs : List β) : Moves m (xs.foldl f m) (∃ x ∈ xs, new m x) := by
  induction xs generalizing m with
  | nil => exact ⟨rfl, rfl, rfl, fun _ => ⟨rfl, rfl⟩, by simp⟩
  | cons x xs ih =>
    rw [List.foldl_cons]
    by_cases hx : new m x
    · have hone := hnew m x hx
      have hrest := ih (m := f m x)
      refine ⟨hrest.enable.trans hone.enable, hrest.group.trans hone.group,
        hrest.filter.trans hone.filter, fun hno => ?_, fun _ => ?_⟩
      · exact absurd ⟨x, List.mem_cons_self, hx⟩ hno
      · exact (hone.grows trivial).trans_le hrest.le
    · rw [hold m x hx]
      simpa [hx] using ih (m := m)

theorem moves_foldl_scaleUpOne (launches : List (Launch H)) :
    Moves m (launches.foldl Manager.scaleUpOne m) (∃ l ∈ launches, l.instanceId ∉ m.instances) := by
  refine moves_foldl (fun m l hl => if_pos (not_not.mp hl)) (fun m l hl => ?_) launches
  rw [if_neg hl]
  exact ⟨rfl, rfl, rfl, fun hno => absurd trivial hno, fun _ => lt_add_one _⟩

theorem moves_foldl_scaleDownOne (instanceIds : List String) :
    Moves m (instanceIds.foldl Manager.scaleDownOne m) (∃ i ∈ instanceIds, i ∈ m.instances) := by
  refine moves_foldl (fun m i hi => if_neg hi) (fun m i hi => ?_) instanceIds
  rw [if_pos hi]
  exact ⟨rfl, rfl, rfl, fun hno => absurd trivial hno, fun _ => lt_add_one _⟩

theorem filter_foldl_scaleUpOne (g : GlobalScheduler) (launches : List (Launch H)) :
    (launches.foldl (fun g l => g.scaleUpOne l.instanceId l.instanceType)
      g).migrationScheduler.migrationFilter = g.migrationScheduler.migrationFilter := by
  induction launches generalizing g with
  | nil => rfl
  | cons l ls ih =>
    rw [List.foldl_cons, ih]
    unfold GlobalScheduler.scaleUpOne
    split <;> rfl

theorem filter_foldl_scaleDownOne (g : GlobalScheduler) (instanceIds : List String) :
    (instanceIds.foldl GlobalScheduler.scaleDownOne g).migrationScheduler.migrationFilter =
      g.migrationScheduler.migrationFilter := by
  induction instanceIds generalizing g with
  | nil => rfl
  | cons i is ih =>
    rw [List.foldl_cons, ih]
    unfold GlobalScheduler.scaleDownOne
    split <;> rfl

theorem moves_scaleUp (m : Manager H) (launches : List (Launch H)) :
    Moves m (m.scaleUp launches).1 (∃ l ∈ launches, l.instanceId ∉ m.instances) := by
  have h := moves_foldl_scaleUpOne (m := m) launches
  refine ⟨h.enable, h.group, ?_, h.same, h.grows⟩
  unfold migrationFilter
  rw [globalScheduler_scaleUp, filter_foldl_scaleUpOne]

/-- `scale_down` before it looks whether any instance is left. -/
def scaledDown (m : Manager H) (instanceIds : List String) : Manager H :=
  let m' := instanceIds.foldl Manager.scaleDownOne m
  m'.scaled (instanceIds.foldl GlobalScheduler.scaleDownOne m'.globalScheduler)

theorem scaleDown_eq (m : Manager H) (instanceIds : List String) (rebuild : Bool) :
    (m.scaleDown instanceIds rebuild).1 = (scaledDown m instanceIds).settlePending := rfl

theorem moves_scaledDown (m : Manager H) (instanceIds : List String) :
    Moves m (scaledDown m instanceIds) (∃ i ∈ instanceIds, i ∈ m.instances) := by
  have h := moves_foldl_scaleDownOne (m := m) instanceIds
  refine ⟨h.enable, h.group, ?_, h.same, h.grows⟩
  change (instanceIds.foldl GlobalScheduler.scaleDownOne
    (instanceIds.foldl Manager.scaleDownOne m).globalScheduler).migrationScheduler.migrationFilter
      = _
  rw [filter_foldl_scaleDownOne, scheduler_foldl_scaleDownOne]

theorem not_mem_foldl_scaleDownOne {instanceIds : List String} {i : String} :
    (i ∈ instanceIds ∨ i ∉ m.instances) →
      i ∉ (instanceIds.foldl Manager.scaleDownOne m).instances := by
  induction instanceIds generalizing m with
  | nil => simp
  | cons j js ih =>
    intro h
    refine ih ?_
    unfold Manager.scaleDownOne
    by_cases hj : j ∈ m.instances
    · rw [if_pos hj]
      by_cases hij : i = j
      · simp [hij]
      · simpa [hij] using h
    · rw [if_neg hj]
      by_cases hij : i = j
      · exact .inr (hij ▸ hj)
      · simpa [hij] using h

theorem settlePending_of_disabled (h : m.enableMigration = false) : m.settlePending = m := by
  simp [Manager.settlePending, h]

end Manager

/-- What the task knows: the counter has not fallen since it was read, and as long as it has not
risen either the instances are those that were read with it. -/
structure Active (m : Manager H) (locals : Locals) : Prop where
  disabled : m.enableMigration = false
  origin : locals.originConfig = true
  pos : 0 < locals.pendingTask
  le : locals.pendingTask ≤ m.pendingRebuildMigrationInstances
  current : m.pendingRebuildMigrationInstances = locals.pendingTask →
    locals.aliveInstances = sortedIds m.instances.keys

/-- Every worker of the instance says that it went well. -/
def Answer.Succeeds : Answer → Prop
  | .workers rets => ∀ ret ∈ rets, ret = true
  | .rayActorError | .exception => False

section Answers
variable (ok : Answer → Prop)

/-- Whatever a worker answers that is not a `RayActorError` is `ok`. -/
def Fits (_ : World H) : Action H → Prop
  | .resume _ answers _ => ∀ i, answers i ≠ .rayActorError → ok (answers i)
  | _ => True

def TaskInv (m : Manager H) (calls : List Calls) : Task → Prop
  | .waiting => m.enableMigration = true ∧ (0 < m.pendingRebuildMigrationInstances ∨
      m.pendingRebuildMigrationInstances = 0 ∧ m.instances.keys = [])
  | .rebuilding locals _ => Active m locals
  | .warming locals => Active m locals ∧ ∃ before groupName answers,
      calls = before ++ [.rebuildMigrationBackend locals.aliveInstances.zipIdx groupName
        (locals.aliveInstances.map answers)] ∧ ∀ i ∈ locals.aliveInstances, ok (answers i)

/-- The backend is of group kind, and its filter is registered. -/
structure Grouped (m : Manager H) : Prop where
  group : m.isGroupKindMigrationBackend = true
  filter : initFilter ∈ (migrationFilter m).registeredFilters

/-- One task at most. -/
structure Solo (w : World H) : Prop where
  grouped : Grouped w.manager
  one : w.tasks.length ≤ 1
  inv : ∀ t ∈ w.tasks, TaskInv ok w.manager w.calls t

/-- The group was built and warmed up in the last two rounds, with these instances and no answer
that is not `ok`. -/
def BuiltLast (calls : List Calls) (alive : List String) : Prop :=
  ∃ before groupName built warm, calls =
    before ++ [.rebuildMigrationBackend alive.zipIdx groupName (alive.map built),
      .warmup alive (alive.map warm)] ∧ ∀ i ∈ alive, ok (built i) ∧ ok (warm i)

/-- What a task leaves: nothing pending, the registered instances and no others admitted, and if
there are any, they are the group that was built last. -/
structure Completed (m : Manager H) (calls : List Calls) : Prop where
  pending : m.pendingRebuildMigrationInstances = 0
  admits : ∃ f, (migrationFilter m).registeredFilters.get? initFilter = some f ∧
    ∀ info, (f.srcFilter info = true ↔ info.instanceId ∈ m.instances) ∧
      (f.dstFilter info = true ↔ info.instanceId ∈ m.instances)
  built : m.instances.keys ≠ [] → BuiltLast ok calls (sortedIds m.instances.keys)

end Answers

section Task
variable {ok : Answer → Prop} {m m' : Manager H} {calls : List Calls} {t : Task} {locals : Locals}
  {ids alive dead : List String} {answers : String → Answer}

theorem mem_sortedIds {i : String} : i ∈ sortedIds ids ↔ i ∈ ids :=
  (List.perm_insertionSort (· ≤ ·) ids).mem_iff

theorem sortedIds_eq_nil : sortedIds ids = [] ↔ ids = [] := by
  have hperm := List.perm_insertionSort (· ≤ ·) ids
  constructor
  · intro h
    exact (h ▸ hperm : List.Perm [] ids).nil_eq.symm
  · rintro rfl
    rfl

theorem grouped_moves (h : Grouped m) {updated : Prop} (hm : Moves m m' updated) : Grouped m' where
  group := hm.group.trans h.group
  filter := hm.filter ▸ h.filter

theorem active_moves (h : Active m locals) {updated : Prop} (hm : Moves m m' updated) :
    Active m' locals where
  disabled := hm.enable.trans h.disabled
  origin := h.origin
  pos := h.pos
  le := h.le.trans hm.le
  current := by
    intro heq
    have hno : ¬updated := fun hu => by
      have hlt := hm.grows hu
      have hle := h.le
      omega
    obtain ⟨hinst, hpend⟩ := hm.same hno
    rw [hinst]
    exact h.current (hpend.symm.trans heq)

theorem taskInv_moves (h : TaskInv ok m calls t) {updated : Prop} (hm : Moves m m' updated) :
    TaskInv ok m' calls t := by
  cases t with
  | waiting =>
    obtain ⟨henable, hpend⟩ := h
    refine ⟨hm.enable.trans henable, ?_⟩
    have hle := hm.le
    by_cases hu : updated
    · have hlt := hm.grows hu
      left
      omega
    · obtain ⟨hinst, hsame⟩ := hm.same hu
      rw [hsame, hinst]
      exact hpend
  | rebuilding locals groupName => exact active_moves h hm
  | warming locals => exact ⟨active_moves h.1 hm, h.2⟩

theorem taskInv_settlePending (h : TaskInv ok m calls t) : TaskInv ok m.settlePending calls t := by
  cases t with
  | waiting =>
    unfold Manager.settlePending
    split
    · rename_i hsettle
      exact ⟨h.1, .inr ⟨rfl, hsettle.2.2⟩⟩
    · exact h
  | rebuilding locals groupName =>
    rw [settlePending_of_disabled h.disabled]
    exact h
  | warming locals =>
    rw [settlePending_of_disabled h.1.disabled]
    exact h

/-- What a task's stretch leaves, suspended or ended. -/
structure Sound (ok : Answer → Prop) (r : Manager H × Option Task) (calls : List Calls) : Prop where
  grouped : Grouped r.1
  suspended : ∀ t, r.2 = some t → TaskInv ok r.1 calls t
  ended : r.2 = none → Completed ok r.1 calls ∧ r.1.enableMigration = true

theorem admits_aliveFilter (halive : alive = sortedIds m.instances.keys) (info : InstanceInfo) :
    ((aliveFilter alive).srcFilter info = true ↔ info.instanceId ∈ m.instances) ∧
      ((aliveFilter alive).dstFilter info = true ↔ info.instanceId ∈ m.instances) := by
  have hmem : decide (info.instanceId ∈ alive) = true ↔ info.instanceId ∈ m.instances := by
    rw [decide_eq_true_iff, halive, mem_sortedIds]
    rfl
  exact ⟨hmem, hmem⟩

theorem sound_finish (hgrouped : Grouped m) (horigin : locals.originConfig = true)
    (halive : locals.aliveInstances = sortedIds m.instances.keys)
    (hzero : locals.aliveInstances ≠ [] → m.pendingRebuildMigrationInstances = 0 ∧
      BuiltLast ok calls locals.aliveInstances) : Sound ok (finish m locals) calls := by
  have hpending : (if locals.aliveInstances = [] then
      { m with pendingRebuildMigrationInstances := 0 } else m) =
        { m with pendingRebuildMigrationInstances := 0 } := by
    split
    · rfl
    · rename_i hne
      rw [← (hzero hne).1]
  unfold finish
  simp only [hpending]
  rw [if_pos hgrouped.filter]
  refine ⟨⟨hgrouped.group, Dict.mem_set.mpr (.inl rfl)⟩, nofun, fun _ => ⟨⟨rfl, ?_, ?_⟩, horigin⟩⟩
  · exact ⟨_, Dict.get?_set.trans (if_pos rfl), admits_aliveFilter halive⟩
  · intro hne
    change BuiltLast ok calls (sortedIds m.instances.keys)
    rw [← halive]
    refine (hzero fun hnil => hne ?_).2
    exact sortedIds_eq_nil.mp (halive.symm.trans hnil)

theorem sound_loop (hgrouped : Grouped m)
    (hdisabled : m.enableMigration = false) (horigin : locals.originConfig = true)
    (halive : locals.aliveInstances = sortedIds m.instances.keys)
    (hpending : locals.pendingTask = m.pendingRebuildMigrationInstances)
    (hnonneg : 0 ≤ m.pendingRebuildMigrationInstances)
    (hzero : m.pendingRebuildMigrationInstances = 0 → locals.aliveInstances ≠ [] →
      BuiltLast ok calls locals.aliveInstances) (groupName : String) :
    Sound ok (loop m locals groupName) calls := by
  unfold loop
  split
  · rename_i hgo
    have hfound : ∀ i ∈ locals.aliveInstances, i ∈ m.instances := by
      intro i hi
      rw [halive] at hi
      exact mem_sortedIds.mp hi
    unfold runTask
    rw [if_pos hfound]
    refine ⟨hgrouped, fun t ht => ?_, nofun⟩
    cases ht
    exact ⟨hdisabled, horigin, hpending ▸ hgo.2, hpending.le, fun _ => halive⟩
  · rename_i hstop
    refine sound_finish hgrouped horigin halive fun hne => ?_
    have hpend : m.pendingRebuildMigrationInstances = 0 := by
      have hnot := not_and.mp hstop hne
      omega
    exact ⟨hpend, hzero hpend hne⟩

theorem sound_begin (hgrouped : Grouped m)
    (h : TaskInv ok m calls .waiting) (groupName : String) :
    Sound ok (begin m groupName) calls := by
  obtain ⟨henable, hpend⟩ := h
  unfold begin
  apply sound_loop
  · exact ⟨hgrouped.group, hgrouped.filter⟩
  · rfl
  · exact henable
  · rfl
  · rfl
  · change 0 ≤ m.pendingRebuildMigrationInstances
    omega
  · intro hzero hne
    have hzero : m.pendingRebuildMigrationInstances = 0 := hzero
    have hkeys : m.instances.keys = [] := (hpend.resolve_left (by omega)).2
    exact absurd (sortedIds_eq_nil.mpr hkeys) hne

theorem reap_nil (m : Manager H) : reap m [] = m := if_pos rfl

theorem reap_eq (h : m.enableMigration = false) (hdead : dead ≠ []) :
    reap m dead = scaledDown m dead := by
  unfold reap
  rw [if_neg hdead, scaleDown_eq]
  exact settlePending_of_disabled ((moves_scaledDown m dead).enable.trans h)

theorem filter_keys_reap (h : m.enableMigration = false) (dead : List String) :
    (reap m dead).instances.keys.filter (· ∉ dead) = (reap m dead).instances.keys := by
  refine List.filter_eq_self.mpr fun i hi => ?_
  by_cases hdead : dead = []
  · simp [hdead]
  · rw [reap_eq h hdead] at hi
    have hnot : i ∉ dead := fun hin => not_mem_foldl_scaleDownOne (.inl hin) hi
    simpa using hnot

theorem sound_endRound_of_dead (hgrouped : Grouped m) (h : Active m locals) (hdead : dead ≠ [])
    (groupName : String) : Sound ok (endRound (reap m dead) locals dead groupName) calls := by
  have hmoves := moves_scaledDown m dead
  have hkeys := filter_keys_reap h.disabled dead
  rw [reap_eq h.disabled hdead] at hkeys ⊢
  have hpos : 0 < (scaledDown m dead).pendingRebuildMigrationInstances := by
    have hle := hmoves.le
    have hpending := h.le
    have htask := h.pos
    omega
  simp only [endRound, if_neg hdead]
  apply sound_loop
  · exact grouped_moves hgrouped hmoves
  · exact hmoves.enable.trans h.disabled
  · exact h.origin
  · exact congrArg sortedIds hkeys
  · rfl
  · exact hpos.le
  · exact fun hzero => absurd hzero hpos.ne'

theorem sound_endRound_of_alive (hgrouped : Grouped m) (h : Active m locals)
    (hbuilt : m.pendingRebuildMigrationInstances = locals.pendingTask →
      BuiltLast ok calls locals.aliveInstances) (groupName : String) :
    Sound ok (endRound m locals [] groupName) calls := by
  have hkeys : m.instances.keys.filter (· ∉ ([] : List String)) = m.instances.keys := by simp
  have hle := h.le
  simp only [endRound, if_pos]
  apply sound_loop
  · exact ⟨hgrouped.group, hgrouped.filter⟩
  · exact h.disabled
  · exact h.origin
  · exact congrArg sortedIds hkeys
  · rfl
  · change 0 ≤ m.pendingRebuildMigrationInstances - locals.pendingTask
    omega
  · intro hzero _
    have hzero : m.pendingRebuildMigrationInstances - locals.pendingTask = 0 := hzero
    have heq : m.pendingRebuildMigrationInstances = locals.pendingTask := by omega
    have hnow : sortedIds (m.instances.keys.filter (· ∉ ([] : List String))) =
        locals.aliveInstances := by
      rw [hkeys]
      exact (h.current heq).symm
    change BuiltLast ok calls (sortedIds (m.instances.keys.filter (· ∉ ([] : List String))))
    rw [hnow]
    exact hbuilt heq

theorem answers_of_alive (hok : ∀ i, answers i ≠ .rayActorError →
      ok (answers i)) (hdead : deadInstances alive answers = []) : ∀ i ∈ alive, ok (answers i) := by
  intro i hi
  refine hok i fun hray => ?_
  simpa [hray] using List.filter_eq_nil_iff.mp hdead i hi

theorem sound_rebuilt (hgrouped : Grouped m) (h : Active m locals)
    (hok : ∀ i, answers i ≠ .rayActorError → ok (answers i)) (built groupName : String) :
    Sound ok (rebuilt m locals (deadInstances locals.aliveInstances answers) groupName) (calls ++
      [.rebuildMigrationBackend locals.aliveInstances.zipIdx built
        (locals.aliveInstances.map answers)]) := by
  unfold rebuilt
  by_cases hdead : deadInstances locals.aliveInstances answers = []
  · have halive := answers_of_alive hok hdead
    rw [hdead, reap_nil]
    dsimp only
    by_cases heq : m.pendingRebuildMigrationInstances = locals.pendingTask
    · rw [if_pos ⟨rfl, heq⟩]
      have hfound : ∀ i ∈ locals.aliveInstances, i ∈ m.instances := by
        intro i hi
        rw [h.current heq] at hi
        exact mem_sortedIds.mp hi
      unfold runTask
      rw [if_pos hfound]
      refine ⟨hgrouped, fun t ht => ?_, nofun⟩
      cases ht
      exact ⟨h, calls, built, answers, rfl, halive⟩
    · rw [if_neg fun hand => heq hand.2]
      exact sound_endRound_of_alive hgrouped h (fun hpend => absurd hpend heq) groupName
  · dsimp only
    rw [if_neg fun hand => hdead hand.1]
    exact sound_endRound_of_dead hgrouped h hdead groupName

theorem sound_warmedUp (hgrouped : Grouped m) (h : TaskInv ok m calls (.warming locals))
    (hok : ∀ i, answers i ≠ .rayActorError → ok (answers i)) (groupName : String) :
    Sound ok (warmedUp m locals (deadInstances locals.aliveInstances answers) groupName)
      (calls ++ [.warmup locals.aliveInstances (locals.aliveInstances.map answers)]) := by
  obtain ⟨hactive, before, groupName', built, rfl, hbuilt⟩ := h
  unfold warmedUp
  by_cases hdead : deadInstances locals.aliveInstances answers = []
  · have halive := answers_of_alive hok hdead
    rw [hdead, reap_nil]
    refine sound_endRound_of_alive hgrouped hactive (fun _ => ?_) groupName
    exact ⟨before, groupName', built, answers, by simp, fun i hi => ⟨hbuilt i hi, halive i hi⟩⟩
  · exact sound_endRound_of_dead hgrouped hactive hdead groupName

end Task

section Step
variable {ok : Answer → Prop} {w w' : World H} {a : Action H} {m : Manager H}
  {calls : List Calls} {t : Task}

/-- No task is started while there is another. -/
def Alone (w : World H) : Action H → Prop
  | .scaleUp launches => (w.manager.scaleUp launches).2 = true → w.tasks = []
  | .scaleDown instanceIds rebuild =>
    (w.manager.scaleDown instanceIds rebuild).2 = true → w.tasks = []
  | _ => True

theorem grouped_settlePending (h : Grouped m) : Grouped m.settlePending := by
  unfold Manager.settlePending
  split
  · exact ⟨h.group, h.filter⟩
  · exact h

theorem taskInv_scaleUp (h : TaskInv ok m calls t) (launches : List (Launch H)) :
    TaskInv ok (m.scaleUp launches).1 calls t :=
  taskInv_moves h (moves_scaleUp m launches)

theorem taskInv_scaleDown (h : TaskInv ok m calls t) (instanceIds : List String) (rebuild : Bool) :
    TaskInv ok (m.scaleDown instanceIds rebuild).1 calls t :=
  taskInv_settlePending (taskInv_moves h (moves_scaledDown m instanceIds))

theorem taskInv_of_scaleUp {launches : List (Launch H)} (h : (m.scaleUp launches).2 = true) :
    TaskInv ok (m.scaleUp launches).1 calls .waiting := by
  have hmoves := moves_scaleUp m launches
  simp only [Manager.scaleUp, Bool.and_eq_true, decide_eq_true_eq] at h
  obtain ⟨⟨⟨henable, -⟩, hnew⟩, hzero⟩ := h
  have hgrows := hmoves.grows hnew
  exact ⟨hmoves.enable.trans henable, .inl (by omega)⟩

theorem taskInv_of_scaleDown {instanceIds : List String} {rebuild : Bool}
    (h : (m.scaleDown instanceIds rebuild).2 = true) :
    TaskInv ok (m.scaleDown instanceIds rebuild).1 calls .waiting := by
  have hmoves := moves_scaledDown m instanceIds
  simp only [Manager.scaleDown, Bool.and_eq_true, decide_eq_true_eq] at h
  obtain ⟨⟨⟨⟨⟨henable, -⟩, -⟩, hgone⟩, hzero⟩, -⟩ := h
  have hgrows := hmoves.grows hgone
  have hwaiting : TaskInv ok (scaledDown m instanceIds) calls .waiting :=
    ⟨hmoves.enable.trans henable, .inl (by omega)⟩
  exact taskInv_settlePending hwaiting

theorem solo_scaled (h : Solo ok w) {r : Manager H × Bool} (hgrouped : Grouped r.1)
    (hkept : ∀ t, TaskInv ok w.manager w.calls t → TaskInv ok r.1 w.calls t)
    (hstarted : r.2 = true → TaskInv ok r.1 w.calls .waiting) (halone : r.2 = true → w.tasks = []) :
    Solo ok (w.scaled r) := by
  unfold World.scaled
  by_cases hstart : r.2 = true
  · have hnone := halone hstart
    refine ⟨hgrouped, by simp [hstart, hnone], fun t ht => ?_⟩
    simp only [hstart, hnone, if_true, List.nil_append, List.mem_singleton] at ht
    rw [ht]
    exact hstarted hstart
  · simp only [hstart, if_false, Bool.false_eq_true]
    exact ⟨hgrouped, h.one, fun t ht => hkept t (h.inv t ht)⟩

theorem solo_ran (h : Solo ok w) {n : ℕ} (hn : w.tasks[n]? = some t)
    {r : Manager H × Option Task} {new : List Calls} (hr : Sound ok r (w.calls ++ new)) :
    Solo ok (w.ran n r new) ∧ ((w.ran n r new).tasks = [] →
      Completed ok r.1 (w.calls ++ new) ∧ r.1.enableMigration = true) := by
  have hlt : n < w.tasks.length := (List.getElem?_eq_some_iff.mp hn).1
  have hlen : w.tasks.length = 1 := by
    have hone := h.one
    omega
  obtain ⟨t', ht'⟩ := List.length_eq_one_iff.mp hlen
  obtain rfl : n = 0 := by omega
  unfold World.ran
  rw [ht']
  cases htask : r.2 with
  | none =>
    refine ⟨⟨hr.grouped, by simp, by simp⟩, fun _ => hr.ended htask⟩
  | some u =>
    refine ⟨⟨hr.grouped, by simp, fun x hx => ?_⟩, by simp⟩
    obtain rfl := List.mem_singleton.mp hx
    exact hr.suspended x htask

theorem tasks_scaled_ne_nil (h : w.tasks ≠ []) (r : Manager H × Bool) :
    (w.scaled r).tasks ≠ [] := by
  unfold World.scaled
  split <;> simp [h]

theorem solo_setMigrating (h : Solo ok w) (i : String) (migrating : Bool) :
    Solo ok (w.setMigrating i migrating) := by
  unfold World.setMigrating
  split
  · have hmoves : Moves w.manager
        { w.manager with
          instanceMigrating := w.manager.instanceMigrating.set i migrating } False :=
      ⟨rfl, rfl, rfl, fun _ => ⟨rfl, rfl⟩, False.elim⟩
    exact ⟨grouped_moves h.grouped hmoves, h.one, fun t ht => taskInv_moves (h.inv t ht) hmoves⟩
  · exact h

/-- What a step does, and in which task. -/
inductive Does (w : World H) : Action H → World H → Prop
  | scaleUp (launches : List (Launch H)) :
    Does w (.scaleUp launches) (w.scaled (w.manager.scaleUp launches))
  | scaleDown (instanceIds : List String) (rebuild : Bool) :
    Does w (.scaleDown instanceIds rebuild) (w.scaled (w.manager.scaleDown instanceIds rebuild))
  | setMigrating (i : String) (migrating : Bool) :
    Does w (.setMigrating i migrating) (w.setMigrating i migrating)
  | sleep (n : ℕ) (groupName : String) : Does w (.wake n groupName) w
  | begin {n : ℕ} (groupName : String) (hn : w.tasks[n]? = some .waiting) :
    Does w (.wake n groupName) (w.ran n (begin w.manager groupName) [])
  | rebuilt {n : ℕ} {locals : Locals} {built : String} (answers : String → Answer)
    (groupName : String) (hn : w.tasks[n]? = some (.rebuilding locals built)) :
    Does w (.resume n answers groupName)
      (w.ran n (rebuilt w.manager locals (deadInstances locals.aliveInstances answers) groupName)
        [.rebuildMigrationBackend locals.aliveInstances.zipIdx built
          (locals.aliveInstances.map answers)])
  | warmedUp {n : ℕ} {locals : Locals} (answers : String → Answer) (groupName : String)
    (hn : w.tasks[n]? = some (.warming locals)) :
    Does w (.resume n answers groupName)
      (w.ran n (warmedUp w.manager locals (deadInstances locals.aliveInstances answers) groupName)
        [.warmup locals.aliveInstances (locals.aliveInstances.map answers)])

theorem does_of_step (hstep : step w a = some w') : Does w a w' := by
  cases a with
  | scaleUp launches =>
    cases hstep
    exact .scaleUp launches
  | scaleDown instanceIds rebuild =>
    cases hstep
    exact .scaleDown instanceIds rebuild
  | setMigrating i migrating =>
    cases hstep
    exact .setMigrating i migrating
  | wake n groupName =>
    simp only [step] at hstep
    split at hstep
    · rename_i hn
      split at hstep
      · cases hstep
        exact .sleep n groupName
      · cases hstep
        exact .begin groupName hn
    · cases hstep
  | resume n answers groupName =>
    simp only [step] at hstep
    split at hstep
    · rename_i locals built hn
      cases hstep
      exact .rebuilt answers groupName hn
    · rename_i locals hn
      cases hstep
      exact .warmedUp answers groupName hn
    · cases hstep

/-- What every step keeps, and what the end of a task leaves. -/
theorem solo_step (h : Solo ok w) (halone : Alone w a) (hfits : Fits ok w a)
    (hstep : step w a = some w') : Solo ok w' ∧ (w.tasks ≠ [] → w'.tasks = [] →
      Completed ok w'.manager w'.calls ∧ w'.manager.enableMigration = true) := by
  cases does_of_step hstep with
  | scaleUp launches =>
    refine ⟨?_, fun hne hnil => absurd hnil (tasks_scaled_ne_nil hne _)⟩
    exact solo_scaled h (grouped_moves h.grouped (moves_scaleUp w.manager launches))
      (fun t ht => taskInv_scaleUp ht launches) taskInv_of_scaleUp halone
  | scaleDown instanceIds rebuild =>
    refine ⟨?_, fun hne hnil => absurd hnil (tasks_scaled_ne_nil hne _)⟩
    have hgrouped := grouped_moves h.grouped (moves_scaledDown w.manager instanceIds)
    exact solo_scaled h (grouped_settlePending hgrouped)
      (fun t ht => taskInv_scaleDown ht instanceIds rebuild) taskInv_of_scaleDown halone
  | setMigrating i migrating =>
    refine ⟨solo_setMigrating h i migrating, fun hne hnil => absurd ?_ hne⟩
    unfold World.setMigrating at hnil
    split at hnil <;> exact hnil
  | sleep n groupName => exact ⟨h, fun hne hnil => absurd hnil hne⟩
  | begin groupName hn =>
    have hinv := h.inv _ (List.mem_of_getElem? hn)
    have hsound : Sound ok (begin w.manager groupName) (w.calls ++ []) := by
      rw [List.append_nil]
      exact sound_begin h.grouped hinv groupName
    obtain ⟨hsolo, hended⟩ := solo_ran h hn hsound
    exact ⟨hsolo, fun _ => hended⟩
  | rebuilt answers groupName hn =>
    have hinv := h.inv _ (List.mem_of_getElem? hn)
    obtain ⟨hsolo, hended⟩ := solo_ran h hn (sound_rebuilt h.grouped hinv hfits _ groupName)
    exact ⟨hsolo, fun _ => hended⟩
  | warmedUp answers groupName hn =>
    have hinv := h.inv _ (List.mem_of_getElem? hn)
    obtain ⟨hsolo, hended⟩ := solo_ran h hn (sound_warmedUp h.grouped hinv hfits groupName)
    exact ⟨hsolo, fun _ => hended⟩

end Step

/-! The filter stays registered whatever the tasks do, be they one or many. -/
section Grouped
variable {w w' : World H} {a : Action H} {m : Manager H}

theorem grouped_finish (h : Grouped m) (locals : Locals) : Grouped (finish m locals).1 := by
  have hreset : Grouped (if locals.aliveInstances = [] then
      { m with pendingRebuildMigrationInstances := 0 } else m) := by
    split
    · exact ⟨h.group, h.filter⟩
    · exact h
  unfold finish
  dsimp only
  rw [if_pos hreset.filter]
  exact ⟨hreset.group, Dict.mem_set.mpr (.inl rfl)⟩

theorem grouped_loop (h : Grouped m) (locals : Locals) (groupName : String) :
    Grouped (loop m locals groupName).1 := by
  unfold loop
  split
  · exact h
  · exact grouped_finish h locals

theorem grouped_reap (h : Grouped m) (dead : List String) : Grouped (reap m dead) := by
  unfold reap
  split
  · exact h
  · exact grouped_settlePending (grouped_moves h (moves_scaledDown m dead))

theorem grouped_endRound (h : Grouped m) (locals : Locals) (dead : List String)
    (groupName : String) : Grouped (endRound m locals dead groupName).1 := by
  refine grouped_loop ?_ _ groupName
  split
  · exact ⟨h.group, h.filter⟩
  · exact h

theorem grouped_rebuilt (h : Grouped m) (locals : Locals) (dead : List String)
    (groupName : String) : Grouped (rebuilt m locals dead groupName).1 := by
  unfold rebuilt
  dsimp only
  split
  · exact grouped_reap h dead
  · exact grouped_endRound (grouped_reap h dead) locals dead groupName

theorem grouped_step (h : Grouped w.manager) (hstep : step w a = some w') :
    Grouped w'.manager := by
  cases does_of_step hstep with
  | scaleUp launches => exact grouped_moves h (moves_scaleUp w.manager launches)
  | scaleDown instanceIds rebuild =>
    exact grouped_settlePending (grouped_moves h (moves_scaledDown w.manager instanceIds))
  | setMigrating i migrating =>
    unfold World.setMigrating
    split
    · exact ⟨h.group, h.filter⟩
    · exact h
  | sleep n groupName => exact h
  | begin groupName hn =>
    have hdisabled : Grouped { w.manager with enableMigration := false } := ⟨h.group, h.filter⟩
    exact grouped_loop hdisabled _ groupName
  | rebuilt answers groupName hn => exact grouped_rebuilt h _ _ groupName
  | warmedUp answers groupName hn => exact grouped_endRound (grouped_reap h _) _ _ groupName

theorem grouped_init (pd : Bool) (policy : DispatchPolicy) (topk : ℕ)
    (pairPolicy : PairMigrationPolicy) (threshold : Number) :
    Grouped (init pd policy topk pairPolicy threshold : World H).manager :=
  ⟨rfl, Dict.mem_set.mpr (.inl rfl)⟩

end Grouped

/-- The counter is not negative, one task at most is past its wait, and when there is none
nothing is pending and migration is enabled. -/
def Quiesced (w : World H) : Prop :=
  0 ≤ w.manager.pendingRebuildMigrationInstances ∧ (w.tasks.filter Task.pastWait).length ≤ 1 ∧
    (w.tasks = [] →
      w.manager.pendingRebuildMigrationInstances = 0 ∧ w.manager.enableMigration = true)

/-- Nothing is registered while there is no instance and a task still waits; and instances are
scaled down without a rebuild only while a task exists. -/
def Orderly (w : World H) : Action H → Prop
  | .scaleUp launches => Task.waiting ∈ w.tasks → w.manager.instances.keys = [] → launches = []
  | .scaleDown _ rebuild => w.tasks = [] → rebuild = true
  | _ => True

/-- The invariant of orderly runs; the answers play no role. -/
structure Calm (w : World H) : Prop where
  solo : Solo (fun _ => True) w
  idle : w.tasks = [] →
    w.manager.pendingRebuildMigrationInstances = 0 ∧ w.manager.enableMigration = true

section Calm
variable {ok : Answer → Prop} {w w' : World H} {a : Action H} {m : Manager H}
  {calls : List Calls}

theorem waiting_of_enabled {t : Task} (h : TaskInv ok m calls t)
    (henable : m.enableMigration = true) (hzero : m.pendingRebuildMigrationInstances = 0) :
    t = .waiting ∧ m.instances.keys = [] := by
  have hdisabled : ∀ {locals : Locals}, ¬Active m locals := by
    intro locals hactive
    rw [hactive.disabled] at henable
    cases henable
  cases t with
  | waiting => exact ⟨rfl, (h.2.resolve_left (by omega)).2⟩
  | rebuilding locals groupName => exact absurd h hdisabled
  | warming locals => exact absurd h.1 hdisabled

theorem alone_of_orderly (h : Solo ok w) (horderly : Orderly w a) : Alone w a := by
  cases a with
  | scaleUp launches =>
    intro hstart
    simp only [Manager.scaleUp, Bool.and_eq_true, decide_eq_true_eq] at hstart
    obtain ⟨⟨⟨henable, -⟩, ⟨l, hl, -⟩⟩, hzero⟩ := hstart
    refine List.eq_nil_iff_forall_not_mem.mpr fun t ht => ?_
    obtain ⟨rfl, hkeys⟩ := waiting_of_enabled (h.inv t ht) henable hzero
    rw [horderly ht hkeys] at hl
    cases hl
  | scaleDown instanceIds rebuild =>
    intro hstart
    simp only [Manager.scaleDown, Bool.and_eq_true, decide_eq_true_eq] at hstart
    obtain ⟨⟨⟨⟨⟨henable, -⟩, -⟩, ⟨i, -, hi⟩⟩, hzero⟩, -⟩ := hstart
    refine List.eq_nil_iff_forall_not_mem.mpr fun t ht => ?_
    obtain ⟨-, hkeys⟩ := waiting_of_enabled (h.inv t ht) henable hzero
    rw [Dict.mem_def, hkeys] at hi
    cases hi
  | _ => trivial

theorem idle_scaleUp (h : Calm w) {launches : List (Launch H)} (hnone : w.tasks = [])
    (hno : (w.manager.scaleUp launches).2 = false) :
    (w.manager.scaleUp launches).1.pendingRebuildMigrationInstances = 0 ∧
      (w.manager.scaleUp launches).1.enableMigration = true := by
  obtain ⟨hzero, henable⟩ := h.idle hnone
  have hmoves := moves_scaleUp w.manager launches
  have hold : ¬∃ l ∈ launches, l.instanceId ∉ w.manager.instances := by
    simpa [Manager.scaleUp, henable, h.solo.grouped.group, hzero] using hno
  exact ⟨(hmoves.same hold).2.trans hzero, hmoves.enable.trans henable⟩

theorem idle_scaleDown (h : Calm w) {instanceIds : List String} (hnone : w.tasks = [])
    (hno : (w.manager.scaleDown instanceIds true).2 = false) :
    (w.manager.scaleDown instanceIds true).1.pendingRebuildMigrationInstances = 0 ∧
      (w.manager.scaleDown instanceIds true).1.enableMigration = true := by
  obtain ⟨hzero, henable⟩ := h.idle hnone
  have hmoves := moves_scaledDown w.manager instanceIds
  have henable' := hmoves.enable.trans henable
  have hgroup' := hmoves.group.trans h.solo.grouped.group
  rw [scaleDown_eq]
  unfold Manager.settlePending
  by_cases hkeys : (scaledDown w.manager instanceIds).instances.keys = []
  · rw [if_pos ⟨henable', hgroup', hkeys⟩]
    exact ⟨rfl, henable'⟩
  · rw [if_neg fun hand => hkeys hand.2.2]
    have hkeys' : (instanceIds.foldl Manager.scaleDownOne w.manager).instances.keys ≠ [] := hkeys
    have hold : ¬∃ i ∈ instanceIds, i ∈ w.manager.instances := by
      simpa [Manager.scaleDown, henable, h.solo.grouped.group, hzero, hkeys'] using hno
    exact ⟨(hmoves.same hold).2.trans hzero, henable'⟩

theorem not_started {r : Manager H × Bool} (h : (w.scaled r).tasks = []) : r.2 = false := by
  cases hstart : r.2 with
  | false => rfl
  | true => simp [World.scaled, hstart] at h

theorem calm_step (h : Calm w) (horderly : Orderly w a) (hstep : step w a = some w') : Calm w' := by
  have hfits : Fits (fun _ => True) w a := by cases a <;> simp [Fits]
  obtain ⟨hsolo, hended⟩ := solo_step h.solo (alone_of_orderly h.solo horderly) hfits hstep
  refine ⟨hsolo, fun hnone' => ?_⟩
  by_cases hnone : w.tasks = []
  · cases does_of_step hstep with
    | scaleUp launches => exact idle_scaleUp h hnone (not_started hnone')
    | scaleDown instanceIds rebuild =>
      obtain rfl := horderly hnone
      exact idle_scaleDown h hnone (not_started hnone')
    | setMigrating i migrating =>
      unfold World.setMigrating
      split <;> exact h.idle hnone
    | sleep n groupName => exact h.idle hnone
    | begin groupName hn => simp [hnone] at hn
    | rebuilt answers groupName hn => simp [hnone] at hn
    | warmedUp answers groupName hn => simp [hnone] at hn
  · obtain ⟨hcompleted, henable⟩ := hended hnone hnone'
    exact ⟨hcompleted.pending, henable⟩

theorem quiesced_of_calm (h : Calm w) : Quiesced w := by
  refine ⟨?_, (List.length_filter_le _ _).trans h.solo.one, h.idle⟩
  cases htasks : w.tasks with
  | nil => exact (h.idle htasks).1.ge
  | cons t ts =>
    have hinv := h.solo.inv t (htasks ▸ List.mem_cons_self)
    cases t with
    | waiting => exact hinv.2.elim (fun hpos => hpos.le) fun hzero => hzero.1.ge
    | rebuilding locals groupName => exact hinv.pos.le.trans hinv.le
    | warming locals => exact hinv.1.pos.le.trans hinv.1.le

end Calm

section Results
variable {pd : Bool} {policy : DispatchPolicy} {topk : ℕ} {pairPolicy : PairMigrationPolicy}
  {threshold : Number} {as bs : List (Action H)} {w w₀ w₁ w₂ : World H} {a c : Action H}

/-- Every state of an orderly run is quiesced. -/
theorem rebuilds_quiesce
    (horderly : Meets step Orderly (init pd policy topk pairPolicy threshold) as)
    (hrun : run step (init pd policy topk pairPolicy threshold) as = some w) : Quiesced w := by
  have hinit : Calm (init pd policy topk pairPolicy threshold : World H) :=
    ⟨⟨grouped_init .., by simp [init], by simp [init]⟩, fun _ => ⟨rfl, rfl⟩⟩
  exact quiesced_of_calm
    (run_invariant (fun _ _ _ h horderly hstep => calm_step h horderly hstep) hinit horderly hrun)

theorem solo_of_start {ok : Answer → Prop} (hgrouped : Grouped w.manager) (hnone : w.tasks = [])
    (hstart : step w a = some w₀) : Solo ok w₀ := by
  have hsolo : Solo ok w := ⟨hgrouped, by simp [hnone], by simp [hnone]⟩
  have hfits : Fits ok w a := by
    cases a with
    | resume n answers groupName => simp [step, hnone] at hstart
    | _ => trivial
  refine (solo_step hsolo ?_ hfits hstart).1
  cases a <;> simp [Alone, hnone]

theorem completed_of_fits {ok : Answer → Prop} (hgrouped : Grouped w.manager)
    (hnone : w.tasks = []) (hstart : step w a = some w₀) (halone : Meets step Alone w₀ bs)
    (hrun' : run step w₀ bs = some w₁) (hc : Alone w₁ c) (hend : step w₁ c = some w₂)
    (htask : w₁.tasks ≠ []) (hended : w₂.tasks = [])
    (hfits : Meets step (Fits ok) w₀ (bs ++ [c])) : Completed ok w₂.manager w₂.calls := by
  obtain ⟨hbs, hlast⟩ := (meets_concat hrun').mp hfits
  have hsolo : Solo ok w₁ :=
    run_invariant (fun _ _ _ h hboth hstep => (solo_step h hboth.1 hboth.2 hstep).1)
      (solo_of_start hgrouped hnone hstart) (halone.and hbs) hrun'
  exact ((solo_step hsolo hc hlast hend).2 htask hended).1

/-- A task with no other beside it leaves nothing pending, admits exactly the registered instances,
and has built and warmed up their group with no `RayActorError`; and with no failure at all, if no
worker answers `False` and none raises anything else. -/
theorem completed_rebuild_admits
    (hrun : run step (init pd policy topk pairPolicy threshold) as = some w) (hnone : w.tasks = [])
    (hstart : step w a = some w₀) (halone : Meets step Alone w₀ bs)
    (hrun' : run step w₀ bs = some w₁) (hc : Alone w₁ c) (hend : step w₁ c = some w₂)
    (htask : w₁.tasks ≠ []) (hended : w₂.tasks = []) :
    Completed (· ≠ .rayActorError) w₂.manager w₂.calls ∧
      (Meets step (Fits Answer.Succeeds) w₀ (bs ++ [c]) →
        Completed Answer.Succeeds w₂.manager w₂.calls) := by
  have hgrouped : Grouped w.manager :=
    run_invariant (I := fun w : World H => Grouped w.manager)
      (fun _ _ _ h _ hstep => grouped_step h hstep) (grouped_init ..) meets_true hrun
  have hanswers : Meets step (Fits (· ≠ .rayActorError)) w₀ (bs ++ [c]) :=
    meets_true.mono fun _ a _ => by cases a <;> simp [Fits]
  exact ⟨completed_of_fits hgrouped hnone hstart halone hrun' hc hend htask hended hanswers,
    completed_of_fits hgrouped hnone hstart halone hrun' hc hend htask hended⟩

end Results

section Sample

def start : World Unit := init false .load 1 .balanced (.fin 0)

def succeed : String → Answer := fun _ => .workers [true]

def dies (instanceId : String) : String → Answer :=
  Function.update succeed instanceId .rayActorError

/-- An instance comes while the task that was started for one that is gone still waits. -/
def overlap : List (Action Unit) :=
  [.scaleUp [⟨"a", (), .noConstraints⟩], .setMigrating "a" true, .wake 0 "g", .scaleDown ["a"] true,
    .scaleUp [⟨"b", (), .noConstraints⟩], .wake 0 "g", .wake 1 "h"]

/-- Both tasks are past their wait; when they have ended the counter is negative and migration
stays disabled. -/
theorem rebuilds_overlap :
    (run step start overlap).map (fun w => (w.tasks.filter Task.pastWait).length) = some 2 ∧
    (run step start (overlap ++
      [.resume 0 succeed "g", .resume 0 succeed "g", .resume 0 succeed "h"])).map (fun w =>
        (w.tasks.length, w.manager.pendingRebuildMigrationInstances, w.manager.enableMigration)) =
          some (0, -1, false) := by
  decide

def bothUp : Action Unit := .scaleUp [⟨"b", (), .noConstraints⟩, ⟨"a", (), .noConstraints⟩]

/-- One of two instances dies while the group is built, and the group is built without it. -/
def oneDies : List (Action Unit) := [.wake 0 "g", .resume 0 (dies "b") "h", .resume 0 succeed "h"]

theorem rebuilds_quiesce_sample :
    ∃ w, run step start (bothUp :: oneDies) = some w ∧ w.tasks.length = 1 ∧ Quiesced w := by
  have horderly : Meets step Orderly start (bothUp :: oneDies) := by
    refine ⟨fun h => absurd h List.not_mem_nil, fun _ _ => ?_⟩
    exact ⟨trivial, fun _ _ => ⟨trivial, fun _ _ => ⟨trivial, fun _ _ => trivial⟩⟩⟩
  obtain ⟨w, hw, hlength⟩ : ∃ w ∈ run step start (bothUp :: oneDies), w.tasks.length = 1 := by
    decide
  exact ⟨w, hw, hlength, rebuilds_quiesce horderly hw⟩

theorem completed_rebuild_admits_sample :
    ∃ w, run step start (bothUp :: oneDies ++ [.resume 0 succeed "h"]) = some w ∧
      w.manager.instances.keys = ["a"] ∧ Completed Answer.Succeeds w.manager w.calls := by
  have halone : ∀ w, Meets step Alone w oneDies := fun w =>
    ⟨trivial, fun _ _ => ⟨trivial, fun _ _ => ⟨trivial, fun _ _ => trivial⟩⟩⟩
  have hsucceed : ∀ i, succeed i ≠ .rayActorError → (succeed i).Succeeds := fun i _ ret hret =>
    List.mem_singleton.mp hret
  have hdies : ∀ i, dies "b" i ≠ .rayActorError → (dies "b" i).Succeeds := by
    intro i hi
    by_cases hb : i = "b"
    · rw [hb] at hi
      exact absurd rfl hi
    · rw [dies, Function.update_of_ne hb] at hi ⊢
      exact hsucceed i hi
  have hfits : ∀ w, Meets step (Fits Answer.Succeeds) w (oneDies ++ [.resume 0 succeed "h"]) :=
    fun w => ⟨trivial, fun _ _ => ⟨hdies, fun _ _ => ⟨hsucceed, fun _ _ =>
      ⟨hsucceed, fun _ _ => trivial⟩⟩⟩⟩
  obtain ⟨w₀, hw₀, w₁, hw₁, w₂, hlast, hlength₁, hlength₂, hkeys⟩ :
      ∃ w₀ ∈ step start bothUp, ∃ w₁ ∈ run step w₀ oneDies, ∃ w₂ ∈ step w₁ (.resume 0 succeed "h"),
        w₁.tasks.length = 1 ∧ w₂.tasks.length = 0 ∧ w₂.manager.instances.keys = ["a"] := by decide
  have hw₂ : run step start (bothUp :: oneDies ++ [.resume 0 succeed "h"]) = some w₂ := by
    rw [run_append, run, hw₀, Option.bind_some, hw₁, Option.bind_some, run, hlast]
    rfl
  have hresume : Alone w₁ (.resume 0 succeed "h") := trivial
  have hempty : run step start [] = some start := rfl
  refine ⟨w₂, hw₂, hkeys, ?_⟩
  exact (completed_rebuild_admits hempty rfl hw₀ (halone w₀) hw₁ hresume hlast
    (List.ne_nil_of_length_eq_add_one hlength₁) (List.eq_nil_of_length_eq_zero hlength₂)).2
      (hfits w₀)

/-- The group cannot be created on `b` in time, and its warm-up fails. -/
def failing : String → Answer := Function.update succeed "b" (.workers [false])

/-- The task ends after these two rounds, and `b` is admitted to migration. -/
theorem rebuild_admits_failed_instance : ∃ w,
    run step start [bothUp, .wake 0 "g", .resume 0 failing "h", .resume 0 failing "h"] = some w ∧
      w.tasks = [] ∧ w.manager.instances.keys = ["b", "a"] ∧
      w.calls =
        [.rebuildMigrationBackend [("a", 0), ("b", 1)] "g" [.workers [true], .workers [false]],
          .warmup ["a", "b"] [.workers [true], .workers [false]]] ∧
      ((migrationFilter w.manager).registeredFilters.get? initFilter).map (fun f =>
        f.srcFilter { instanceId := "b" }) = some true ∧
      ¬Completed Answer.Succeeds w.manager w.calls := by
  refine ⟨_, rfl, rfl, rfl, rfl, rfl, fun hcompleted => ?_⟩
  obtain ⟨before, groupName, built, warm, hcalls, hok⟩ := hcompleted.built (by decide)
  have hlast := (List.append_inj' ((List.nil_append _).trans hcalls) rfl).2
  have hrets := (Calls.warmup.inj (List.cons.inj (List.cons.inj hlast).2).1).2
  have hb : warm "b" = .workers [false] := (List.cons.inj (List.cons.inj hrets).2).1.symm
  have hsucceeds := (hok "b" (by decide)).2
  rw [hb] at hsucceeds
  cases hsucceeds false List.mem_cons_self

end Sample

end Llumnix.Scheduler.Rebuild
