import Llumnix.Scheduler.Registries
import Llumnix.Machine.Run
import Llumnix.Log.LastWrite

/-! The loop with which the Manager polls its instances. What an instance answers goes into the
scheduler's table, an instance whose answer is an exception is scaled down, and instances come and
go while a round waits for its answers. -/
namespace Llumnix.Scheduler.Poll

open Python Machine Log

/-- What `get_instance_info` comes back with: an exception, `None` or the information. -/
inductive Answer
  | failed
  | nothing
  | info (ret : InstanceInfo)
  deriving DecidableEq

/-- The tasks that the end of a round can start. -/
inductive Push
  | migrations
  | migrationsV1
  deriving DecidableEq

structure PollLoop (H : Type) where
  manager : Manager H
  enableV1Migration : Bool
  pairMigrationFrequency : ℕ
  numInstanceInfoUpdates : ℕ := 0
  /-- The instances that this round still waits for, and none while the loop sleeps. -/
  tasks : Option (List String) := none
  pushed : List Push := []

/-- The turns of the loop and its callbacks, and the calls of the Manager's other tasks. -/
inductive Action (H : Type)
  | poll
  | answered (instanceId : String) (ret : Answer)
  | gathered
  | call (a : Scheduler.Action H)

variable {H : Type}

namespace PollLoop

def getInstanceInfoDone (m : Manager H) (instanceId : String) : Answer → Manager H
  | .failed => (m.scaleDown [instanceId] true).1
  | .nothing => m
  | .info ret => { m with globalScheduler := m.globalScheduler.updateInstanceInfos [ret] }

def pushes (s : PollLoop H) (updates : ℕ) : List Push :=
  -- a frequency of 0 raises here, which the loop catches, and nothing is pushed either
  if updates ≠ 0 ∧ updates % s.pairMigrationFrequency = 0 then
    (if s.manager.enableMigration then [.migrations] else []) ++
      (if s.enableV1Migration then [.migrationsV1] else [])
  else []

def step (round : ℚ → Number) (s : PollLoop H) : Action H → Option (PollLoop H)
  | .poll =>
    match s.tasks with
    | none => some { s with tasks := some s.manager.instances.keys }
    | some _ => none
  | .answered instanceId ret =>
    match s.tasks with
    | none => none
    | some waiting =>
      if instanceId ∈ waiting then
        some { s with
          manager := getInstanceInfoDone s.manager instanceId ret
          tasks := some (waiting.erase instanceId) }
      else none
  | .gathered =>
    match s.tasks with
    | some [] =>
      some { s with
        tasks := none
        numInstanceInfoUpdates := s.numInstanceInfoUpdates + 1
        pushed := s.pushed ++ s.pushes (s.numInstanceInfoUpdates + 1) }
    | _ => none
  -- nobody but the loop itself updates the infos
  | .call (.updateInstanceInfos _) => none
  | .call a => some { s with manager := s.manager.apply round a }

def info (s : PollLoop H) (i : String) : Option InstanceInfo :=
  s.manager.globalScheduler.instanceInfo.get? i

end PollLoop

namespace Action

/-- What an action does to the tables of the Manager. -/
def effect : Action H → Option (Scheduler.Action H)
  | .answered i .failed => some (.scaleDown [i] true)
  | .answered _ (.info ret) => some (.updateInstanceInfos [ret])
  | .call a => some a
  | _ => none

def registers (i : String) : Action H → Prop
  | .call (.scaleUp launches) => i ∈ launches.map (·.instanceId)
  | _ => False

def removes (i : String) : Action H → Prop
  | .answered j .failed => j = i
  | .call (.scaleDown instanceIds _) => i ∈ instanceIds
  | _ => False

/-- The information that an answer brings about an instance, from whichever it comes. -/
def reports (i : String) : Action H → Option InstanceInfo
  | .answered _ (.info ret) => if ret.instanceId = i then some ret else none
  | _ => none

def answerOf (i : String) : Action H → Option Answer
  | .answered j ret => if j = i then some ret else none
  | _ => none

end Action

/-! ### What one call does to the table -/

section Table
variable {g : GlobalScheduler} {c : Cluster} {i : String}

theorem Describes.info_isSome (h : g.Describes c) : (g.instanceInfo.get? i).isSome ↔ i ∈ c := by
  rw [← Dict.mem_keySet, ← h.infos, Dict.mem_keySet, ← not_iff_not, Bool.not_eq_true,
    Option.isSome_eq_false_iff, Option.isNone_iff_eq_none, Dict.get?_eq_none]

theorem info_scaleUpOne (h : g.Describes c) (l : Launch H) :
    (g.scaleUpOne l.instanceId l.instanceType).instanceInfo.get? i =
      if i = l.instanceId then some ((g.instanceInfo.get? i).getD { instanceId := i })
      else g.instanceInfo.get? i := by
  have hsome := Describes.info_isSome (i := l.instanceId) h
  unfold GlobalScheduler.scaleUpOne
  by_cases hmem : l.instanceId ∈ g.instanceIdSet
  · rw [if_pos hmem]
    obtain ⟨x, hx⟩ := Option.isSome_iff_exists.mp (hsome.mpr (h.mem_ids.mp hmem))
    split_ifs with hi
    · rw [hi, hx, Option.getD_some]
    · rfl
  · rw [if_neg hmem]
    change (g.instanceInfo.set l.instanceId { instanceId := l.instanceId }).get? i = _
    have hnone : g.instanceInfo.get? l.instanceId = none := by
      have hnot := mt hsome.mp fun hc => hmem (h.mem_ids.mpr hc)
      simpa using hnot
    rw [Dict.get?_set]
    split_ifs with hi
    · rw [hi, hnone, Option.getD_none]
    · rfl

theorem info_scaleDownOne (h : g.Describes c) (j : String) :
    (g.scaleDownOne j).instanceInfo.get? i = if i = j then none else g.instanceInfo.get? i := by
  unfold GlobalScheduler.scaleDownOne
  by_cases hmem : j ∈ g.instanceIdSet
  · rw [if_pos hmem]
    exact Dict.get?_erase
  · rw [if_neg hmem]
    split_ifs with hi
    · have hnot := mt (Describes.info_isSome (i := j) h).mp fun hc => hmem (h.mem_ids.mpr hc)
      rw [hi]
      simpa using hnot
    · rfl

theorem info_scaleUp (h : g.Describes c) (launches : List (Launch H)) :
    (launches.foldl (fun g l => g.scaleUpOne l.instanceId l.instanceType) g).instanceInfo.get? i =
      if i ∈ launches.map (·.instanceId) then
        some ((g.instanceInfo.get? i).getD { instanceId := i })
      else g.instanceInfo.get? i := by
  induction launches generalizing g c with
  | nil => simp
  | cons l ls ih =>
    rw [List.foldl_cons, ih (describes_scaleUpOne h l), info_scaleUpOne h l, List.map_cons]
    by_cases hl : i = l.instanceId
    · simp [hl]
    · simp [hl]

theorem info_scaleDown (h : g.Describes c) (instanceIds : List String) :
    (instanceIds.foldl GlobalScheduler.scaleDownOne g).instanceInfo.get? i =
      if i ∈ instanceIds then none else g.instanceInfo.get? i := by
  induction instanceIds generalizing g c with
  | nil => simp
  | cons j js ih =>
    rw [List.foldl_cons, ih (describes_scaleDownOne h j), info_scaleDownOne h j]
    by_cases hj : i = j
    · simp [hj]
    · simp [hj]

theorem info_updateInstanceInfo (h : g.Describes c) (ret : InstanceInfo) :
    (g.updateInstanceInfo ret).instanceInfo.get? i =
      (g.instanceInfo.get? i).map fun x => if ret.instanceId = i then ret else x := by
  have hsome := Describes.info_isSome (i := ret.instanceId) h
  unfold GlobalScheduler.updateInstanceInfo
  by_cases hi : ret.instanceId = i
  · subst hi
    by_cases hmem : ret.instanceId ∈ g.instanceIdSet
    · obtain ⟨x, hx⟩ := Option.isSome_iff_exists.mp (hsome.mpr (h.mem_ids.mp hmem))
      simp [if_pos hmem, Dict.get?_set, hx]
    · have hnot := mt hsome.mp fun hc => hmem (h.mem_ids.mpr hc)
      have hnone : g.instanceInfo.get? ret.instanceId = none := by simpa using hnot
      simp [if_neg hmem, hnone]
  · have hi' : i ≠ ret.instanceId := fun heq => hi heq.symm
    split_ifs
    · simp [Dict.get?_set, hi']
    · simp

end Table

/-! ### Runs -/

namespace PollLoop
variable {round : ℚ → Number} {s s' : PollLoop H} {a : Action H} {as bs : List (Action H)}
variable {c : Cluster} {i : String}

theorem step_manager (hstep : s.step round a = some s') :
    s'.manager = a.effect.elim s.manager (s.manager.apply round) := by
  cases a with
  | poll =>
    cases htasks : s.tasks with
    | none =>
      simp only [step, htasks, Option.some.injEq] at hstep
      rw [← hstep]
      rfl
    | some waiting => simp [step, htasks] at hstep
  | answered j ret =>
    cases htasks : s.tasks with
    | none => simp [step, htasks] at hstep
    | some waiting =>
      simp only [step, htasks, Option.ite_none_right_eq_some, Option.some.injEq] at hstep
      rw [← hstep.2]
      cases ret with
      | failed => rfl
      | nothing => rfl
      | info ret => rfl
  | gathered =>
    simp only [step] at hstep
    split at hstep
    · cases hstep
      rfl
    · cases hstep
  | call a =>
    cases a with
    | updateInstanceInfos infos => cases hstep
    | scaleUp launches => cases hstep; rfl
    | scaleDown instanceIds rebuild => cases hstep; rfl
    | dispatch blockHashes drawn => cases hstep; rfl
    | selectV1PdInstances blockHashes drawn drawn' => cases hstep; rfl

def Sound (s : PollLoop H) : Prop := ∃ c, s.manager.Describes c

theorem Sound.step (h : s.Sound) (hstep : s.step round a = some s') : s'.Sound := by
  obtain ⟨c, hc⟩ := h
  unfold Sound
  rw [step_manager hstep]
  cases heffect : a.effect with
  | none => exact ⟨c, hc⟩
  | some b => exact ⟨c.apply b, describes_apply round hc b⟩

theorem Sound.run (h : s.Sound) (hrun : Machine.run (PollLoop.step round) s as = some s') :
    s'.Sound :=
  run_invariant (fun _ _ _ hs _ hstep => hs.step hstep) h meets_true hrun

theorem Sound.info_isSome (h : s.Sound) : (s.info i).isSome ↔ i ∈ s.manager.instances := by
  obtain ⟨c, hc⟩ := h
  rw [info, Describes.info_isSome hc.scheduler, ← Dict.mem_keySet, ← hc.instances,
    Dict.mem_keySet]

theorem info_selectV1PdInstances (m : Manager H) (blockHashes : List String) (drawn drawn' : ℕ) :
    (m.selectV1PdInstances round blockHashes drawn drawn').2.globalScheduler.instanceInfo =
      m.globalScheduler.instanceInfo := by
  rcases selectV1PdInstances_samePool m round blockHashes drawn drawn' with heq | ⟨d, -, heq⟩
  · rw [heq]
  · rw [heq]

/-- What one action leaves in the table about an instance. -/
structure Leaves (i : String) (a : Action H) (before after : Option InstanceInfo) : Prop where
  registered : a.registers i → after = some (before.getD { instanceId := i })
  removed : a.removes i → after = none
  otherwise : ¬a.registers i → ¬a.removes i → after = before.map fun x => (a.reports i).getD x

theorem leaves_same {before : Option InstanceInfo} (hregisters : ¬a.registers i)
    (hremoves : ¬a.removes i) (hreports : a.reports i = none) : Leaves i a before before where
  registered h := absurd h hregisters
  removed h := absurd h hremoves
  otherwise _ _ := by simp [hreports]

theorem leaves_scaleDown {instanceIds : List String} {before : Option InstanceInfo}
    (hregisters : ¬a.registers i) (hremoves : a.removes i ↔ i ∈ instanceIds)
    (hreports : a.reports i = none) :
    Leaves i a before (if i ∈ instanceIds then none else before) where
  registered h := absurd h hregisters
  removed h := if_pos (hremoves.mp h)
  otherwise _ h := by
    rw [if_neg (mt hremoves.mpr h)]
    simp [hreports]

theorem leaves_step (h : s.Sound) (hstep : s.step round a = some s') :
    Leaves i a (s.info i) (s'.info i) := by
  obtain ⟨c, hc⟩ := h
  unfold info
  rw [step_manager hstep]
  cases a with
  | poll => exact leaves_same id id rfl
  | gathered => exact leaves_same id id rfl
  | answered j ret =>
    cases ret with
    | nothing => exact leaves_same id id rfl
    | failed =>
      simp only [Action.effect, Option.elim_some, Manager.apply, globalScheduler_scaleDown,
        info_scaleDown hc.scheduler]
      refine leaves_scaleDown id ?_ rfl
      rw [List.mem_singleton]
      exact eq_comm
    | info ret =>
      refine ⟨fun hfalse => hfalse.elim, fun hfalse => hfalse.elim, fun _ _ => ?_⟩
      refine (info_updateInstanceInfo hc.scheduler ret).trans ?_
      by_cases hret : ret.instanceId = i
      · simp [Action.reports, hret]
      · simp [Action.reports, hret]
  | call b =>
    cases b with
    | updateInstanceInfos infos => cases hstep
    | scaleUp launches =>
      simp only [Action.effect, Option.elim_some, Manager.apply, globalScheduler_scaleUp,
        info_scaleUp hc.scheduler]
      refine ⟨fun hmem => if_pos hmem, fun hfalse => hfalse.elim, fun hnot _ => ?_⟩
      refine (if_neg hnot).trans ?_
      simp [Action.reports]
    | scaleDown instanceIds rebuild =>
      simp only [Action.effect, Option.elim_some, Manager.apply, globalScheduler_scaleDown,
        info_scaleDown hc.scheduler]
      exact leaves_scaleDown id Iff.rfl rfl
    | dispatch blockHashes drawn => exact leaves_same id id rfl
    | selectV1PdInstances blockHashes drawn drawn' =>
      simp only [Action.effect, Option.elim_some, Manager.apply, info_selectV1PdInstances]
      exact leaves_same id id rfl

/-! ### The table after any run -/

def new (manager : Manager H) (enableV1Migration : Bool) (pairMigrationFrequency : ℕ) :
    PollLoop H where
  manager := manager
  enableV1Migration := enableV1Migration
  pairMigrationFrequency := pairMigrationFrequency

/-- Scaled up, and neither scaled down nor failed since. -/
def Registered (i : String) (as : List (Action H)) : Prop :=
  Since (Action.registers i) (Action.removes i) as

/-- The last that was reported about the instance since it was registered, if anything was. -/
def Current (i : String) (x : InstanceInfo) (as : List (Action H)) : Prop :=
  ∃ xs a ys, as = xs ++ a :: ys ∧ a.registers i ∧ ¬Registered i xs ∧ (∀ b ∈ ys, ¬b.removes i) ∧
    x = (ys.filterMap (Action.reports i)).getLast?.getD { instanceId := i }

theorem not_registers_of_removes (h : a.removes i) : ¬a.registers i := by
  intro hregisters
  cases a with
  | poll => exact h
  | answered j ret => exact hregisters
  | gathered => exact h
  | call b =>
    cases b with
    | scaleUp launches => exact h
    | scaleDown instanceIds rebuild => exact hregisters
    | updateInstanceInfos infos => exact h
    | dispatch blockHashes drawn => exact h
    | selectV1PdInstances blockHashes drawn drawn' => exact h

theorem reports_eq_none_of_registers (h : a.registers i) : a.reports i = none := by
  cases a with
  | poll => rfl
  | answered j ret => exact h.elim
  | gathered => rfl
  | call b => rfl

theorem current_concat {x : InstanceInfo} : Current i x (as ++ [a]) ↔
    (a.registers i ∧ ¬Registered i as ∧ x = { instanceId := i }) ∨
      ∃ y, Current i y as ∧ ¬a.removes i ∧ x = (a.reports i).getD y := by
  constructor
  · rintro ⟨xs, b, ys, heq, hb, hxs, hys, hx⟩
    rcases concat_eq_cut.mp heq with ⟨rfl, rfl, rfl⟩ | ⟨zs, rfl, rfl⟩
    · exact .inl ⟨hb, hxs, hx⟩
    · refine .inr ⟨_, ⟨xs, b, zs, rfl, hb, hxs, fun f hf => hys f (by simp [hf]), rfl⟩,
        hys a (by simp), ?_⟩
      rw [hx, List.filterMap_append]
      cases hreports : a.reports i with
      | none => simp [hreports]
      | some y => simp [hreports]
  · rintro (⟨ha, has, rfl⟩ | ⟨y, ⟨xs, b, ys, rfl, hb, hxs, hys, rfl⟩, ha, rfl⟩)
    · exact ⟨as, a, [], rfl, ha, has, by simp, rfl⟩
    · refine ⟨xs, b, ys ++ [a], by simp, hb, hxs, fun f hf => ?_, ?_⟩
      · rcases List.mem_append.mp hf with hf | hf
        · exact hys f hf
        · rwa [List.mem_singleton.mp hf]
      · rw [List.filterMap_append]
        cases hreports : a.reports i with
        | none => simp [hreports]
        | some y => simp [hreports]

/-- The table follows the log of the actions. -/
structure Follows (s : PollLoop H) (as : List (Action H)) : Prop where
  sound : s.Sound
  registered : ∀ i, (s.info i).isSome ↔ Registered i as
  current : ∀ i x, s.info i = some x ↔ Current i x as

theorem Follows.step (h : s.Follows as) (hstep : s.step round a = some s') :
    s'.Follows (as ++ [a]) := by
  refine ⟨h.sound.step hstep, fun i => ?_, fun i x => ?_⟩
  · have hleaves := leaves_step (i := i) h.sound hstep
    rw [Registered, since_concat]
    change _ ↔ _ ∨ Registered i as ∧ _
    rw [← h.registered i]
    by_cases hregisters : a.registers i
    · simp [hleaves.registered hregisters, hregisters]
    · by_cases hremoves : a.removes i
      · simp [hleaves.removed hremoves, hregisters, hremoves]
      · simp [hleaves.otherwise hregisters hremoves, hregisters, hremoves]
  · have hleaves := leaves_step (i := i) h.sound hstep
    rw [current_concat, ← h.registered i]
    by_cases hregisters : a.registers i
    · have hremoves : ¬a.removes i := fun hr => not_registers_of_removes hr hregisters
      rw [hleaves.registered hregisters, reports_eq_none_of_registers hregisters]
      cases hinfo : s.info i with
      | none =>
        have hnone : ¬∃ y, Current i y as := by
          rintro ⟨y, hy⟩
          rw [← h.current, hinfo] at hy
          cases hy
        constructor
        · intro hx
          exact .inl ⟨hregisters, by simp, (Option.some.inj hx).symm⟩
        · rintro (⟨-, -, rfl⟩ | ⟨y, hy, -⟩)
          · rfl
          · exact absurd ⟨y, hy⟩ hnone
      | some y =>
        have hy := (h.current i y).mp hinfo
        constructor
        · intro hx
          cases hx
          exact .inr ⟨y, hy, hremoves, rfl⟩
        · rintro (⟨-, hnot, -⟩ | ⟨z, hz, -, rfl⟩)
          · exact absurd rfl hnot
          · rw [← h.current, hinfo] at hz
            exact hz
    · by_cases hremoves : a.removes i
      · rw [hleaves.removed hremoves]
        simp [hregisters, hremoves]
      · rw [hleaves.otherwise hregisters hremoves, Option.map_eq_some_iff]
        simp only [hregisters, hremoves, false_and, not_false_eq_true, true_and, false_or,
          ← h.current i]
        simp only [eq_comm]

theorem follows_run {s₀ : PollLoop H} (h₀ : s₀.Follows [])
    (hrun : Machine.run (PollLoop.step round) s₀ as = some s) : s.Follows as := by
  induction as using List.reverseRecOn generalizing s with
  | nil =>
    cases hrun
    exact h₀
  | append_singleton as a ih =>
    obtain ⟨t, ht, hstep⟩ := run_concat hrun
    exact (ih ht).step hstep

theorem follows_new (enableMigration isGroupKind pd : Bool) (policy : DispatchPolicy) (topk : ℕ)
    (pairPolicy : PairMigrationPolicy) (threshold : Number) (v1 : Bool) (frequency : ℕ) :
    (new (Manager.init enableMigration isGroupKind pd policy topk pairPolicy threshold :
      Manager H) v1 frequency).Follows [] where
  sound := ⟨_, describes_init ..⟩
  registered i := by simp [info, new, Manager.init, Registered, Since, Dict.get?, Dict.empty]
  current i x := by simp [info, new, Manager.init, Current, Dict.get?, Dict.empty]

/-- What the scheduler knows of an instance is the last that was reported about it since it was
registered. An answer that comes late counts for whoever is registered under the id by then. -/
theorem info_is_last_report (enableMigration isGroupKind pd : Bool) (policy : DispatchPolicy)
    (topk : ℕ) (pairPolicy : PairMigrationPolicy) (threshold : Number) (v1 : Bool) (frequency : ℕ)
    (hrun : Machine.run (PollLoop.step round) (new (Manager.init enableMigration isGroupKind pd
      policy topk pairPolicy threshold) v1 frequency) as = some s) :
    (∀ i, i ∈ s.manager.instances ↔ Registered i as) ∧
      ∀ i x, s.info i = some x ↔ Current i x as := by
  have hfollows := follows_run (follows_new ..) hrun
  refine ⟨fun i => ?_, hfollows.current⟩
  rw [← hfollows.sound.info_isSome, hfollows.registered]

/-- The instance "a" is scaled down while its first answer is on the way, and registered again
before the answer comes: the answer of the old instance stands for the new one. -/
def overtaken : List (Action Unit) :=
  [.call (.scaleUp [⟨"a", (), .noConstraints⟩]), .poll, .call (.scaleDown ["a"] true),
    .call (.scaleUp [⟨"a", (), .noConstraints⟩]),
    .answered "a" (.info { instanceId := "a", numWaitingRequests := 7 })]

theorem info_is_last_report_overtaken : ∃ s : PollLoop Unit,
    Machine.run (PollLoop.step .fin) (new (.init true false false .load 1 .balanced (.fin 1))
      true 1) overtaken = some s ∧
    "a" ∈ s.manager.instances ∧
    s.info "a" = some { instanceId := "a", numWaitingRequests := 7 } := by
  obtain ⟨s, hs⟩ : ∃ s : PollLoop Unit, Machine.run (PollLoop.step .fin)
      (new (.init true false false .load 1 .balanced (.fin 1)) true 1) overtaken = some s :=
    ⟨_, rfl⟩
  have hlast := info_is_last_report true false false .load 1 .balanced (.fin 1) true 1 hs
  have hcurrent : Current "a" { instanceId := "a", numWaitingRequests := 7 } overtaken := by
    refine ⟨[.call (.scaleUp [⟨"a", (), .noConstraints⟩]), .poll] ++
      [.call (.scaleDown ["a"] true)], .call (.scaleUp [⟨"a", (), .noConstraints⟩]),
      [.answered "a" (.info { instanceId := "a", numWaitingRequests := 7 })], rfl, ?_, ?_, ?_, rfl⟩
    · simp [Action.registers]
    · -- the instance is scaled down right before
      intro hfirst
      rcases since_concat.mp hfirst with hfalse | ⟨-, hnot⟩
      · exact hfalse
      · exact hnot List.mem_cons_self
    · simp [Action.removes]
  have hinfo := (hlast.2 "a" _).mpr hcurrent
  have hsound := (follows_run (follows_new ..) hs).sound
  exact ⟨s, hs, hsound.info_isSome.mp (by simp [hinfo]), hinfo⟩

/-! ### One round -/

/-- Of an instance that the round asks, either the answer is still awaited or it has come. -/
def Asked (i : String) (answers : ℕ) (s : PollLoop H) : Prop :=
  ∃ waiting, s.tasks = some waiting ∧ waiting.count i + answers = 1

theorem Asked.step {n : ℕ} (h : s.Asked i n) (hstep : s.step round a = some s')
    (hopen : a ≠ .gathered) : s'.Asked i (n + ([a].filterMap (Action.answerOf i)).length) := by
  obtain ⟨waiting, htasks, hcount⟩ := h
  cases a with
  | poll => simp [PollLoop.step, htasks] at hstep
  | gathered => exact absurd rfl hopen
  | answered j ret =>
    simp only [PollLoop.step, htasks, Option.ite_none_right_eq_some, Option.some.injEq] at hstep
    obtain ⟨hmem, rfl⟩ := hstep
    refine ⟨waiting.erase j, rfl, ?_⟩
    by_cases hj : j = i
    · subst hj
      have hpos := List.count_pos_iff.mpr hmem
      have hanswer : [Action.answered (H := H) j ret].filterMap (Action.answerOf j) = [ret] := by
        simp [Action.answerOf]
      rw [hanswer, List.count_erase_self, List.length_singleton]
      omega
    · have hanswer : [Action.answered (H := H) j ret].filterMap (Action.answerOf i) = [] := by
        simp [Action.answerOf, hj]
      rw [hanswer, List.count_erase_of_ne fun heq => hj heq.symm]
      exact hcount
  | call b =>
    cases b with
    | updateInstanceInfos infos => cases hstep
    | scaleUp launches => cases hstep; exact ⟨waiting, htasks, hcount⟩
    | scaleDown instanceIds rebuild => cases hstep; exact ⟨waiting, htasks, hcount⟩
    | dispatch blockHashes drawn => cases hstep; exact ⟨waiting, htasks, hcount⟩
    | selectV1PdInstances blockHashes drawn drawn' =>
      cases hstep
      exact ⟨waiting, htasks, hcount⟩

theorem Asked.run {n : ℕ} (h : s.Asked i n)
    (hrun : Machine.run (PollLoop.step round) s bs = some s') (hopen : .gathered ∉ bs) :
    s'.Asked i (n + (bs.filterMap (Action.answerOf i)).length) := by
  induction bs generalizing s n with
  | nil =>
    cases hrun
    exact h
  | cons b bs ih =>
    obtain ⟨t, ht, hrun⟩ := Option.bind_eq_some_iff.mp hrun
    have hb : b ≠ .gathered := fun heq => hopen (by simp [heq])
    have hnext := ih (h.step ht hb) hrun fun hmem => hopen (List.mem_cons_of_mem b hmem)
    have hsplit : ((b :: bs).filterMap (Action.answerOf i)).length =
        ([b].filterMap (Action.answerOf i)).length +
          (bs.filterMap (Action.answerOf i)).length := by
      rw [← List.singleton_append, List.filterMap_append, List.length_append]
    rw [hsplit, ← Nat.add_assoc]
    exact hnext

theorem answers_once {t : PollLoop H} (hpoll : s.step round .poll = some t)
    (hrun : Machine.run (PollLoop.step round) t bs = some s')
    (hend : (s'.step round .gathered).isSome) (hopen : .gathered ∉ bs)
    (hi : i ∈ s.manager.instances) : ∃ ret, bs.filterMap (Action.answerOf i) = [ret] := by
  have hasked : t.Asked i 0 := by
    cases htasks : s.tasks with
    | some waiting => simp [PollLoop.step, htasks] at hpoll
    | none =>
      simp only [PollLoop.step, htasks, Option.some.injEq] at hpoll
      subst hpoll
      exact ⟨_, rfl, List.count_eq_one_of_mem s.manager.instances.nodup hi⟩
  obtain ⟨waiting, htasks, hcount⟩ := hasked.run hrun hopen
  have hnil : waiting = [] := by
    cases waiting with
    | nil => rfl
    | cons j js => simp [PollLoop.step, htasks] at hend
  rw [hnil, List.count_nil] at hcount
  exact List.length_eq_one_iff.mp (by omega)

/-- No call of others is about the instance. -/
def Untouched (i : String) (b : Action H) : Prop :=
  ¬b.registers i ∧ ∀ instanceIds rebuild, b = .call (.scaleDown instanceIds rebuild) →
    i ∉ instanceIds

def Honest (b : Action H) : Prop :=
  ∀ j ret, b = .answered j (.info ret) → ret.instanceId = j

theorem info_unanswered (h : s.Sound) (hstep : s.step round a = some s') (ha : Untouched i a)
    (hhonest : Honest a) (hanswer : a.answerOf i = none) : s'.info i = s.info i := by
  have hleaves := leaves_step (i := i) h hstep
  have hremoves : ¬a.removes i := by
    intro hremoves
    cases a with
    | poll => exact hremoves
    | gathered => exact hremoves
    | answered j ret =>
      cases ret with
      | failed =>
        have hj : j = i := hremoves
        simp [Action.answerOf, hj] at hanswer
      | nothing => exact hremoves
      | info ret => exact hremoves
    | call b =>
      cases b with
      | scaleDown instanceIds rebuild => exact ha.2 instanceIds rebuild rfl hremoves
      | scaleUp launches => exact hremoves
      | updateInstanceInfos infos => exact hremoves
      | dispatch blockHashes drawn => exact hremoves
      | selectV1PdInstances blockHashes drawn drawn' => exact hremoves
  have hreports : a.reports i = none := by
    cases a with
    | answered j ret =>
      cases ret with
      | failed => rfl
      | nothing => rfl
      | info ret =>
        have hj := hhonest j ret rfl
        have hne : j ≠ i := fun heq => by simp [Action.answerOf, heq] at hanswer
        exact if_neg (hj ▸ hne)
    | poll => rfl
    | gathered => rfl
    | call b => rfl
  rw [hleaves.otherwise ha.1 hremoves, hreports]
  simp

theorem info_unanswered_run (h : s.Sound)
    (hrun : Machine.run (PollLoop.step round) s bs = some s') (hbs : ∀ b ∈ bs, Untouched i b)
    (hhonest : ∀ b ∈ bs, Honest b) (hanswer : ∀ b ∈ bs, b.answerOf i = none) :
    s'.info i = s.info i := by
  induction bs generalizing s with
  | nil =>
    cases hrun
    rfl
  | cons b bs ih =>
    obtain ⟨t, ht, hrun⟩ := Option.bind_eq_some_iff.mp hrun
    rw [List.forall_mem_cons] at hbs hhonest hanswer
    have hfirst := info_unanswered h ht hbs.1 hhonest.1 hanswer.1
    exact (ih (h.step ht) hrun hbs.2 hhonest.2 hanswer.2).trans hfirst

/-- What the answer of an instance leaves in the table about it. -/
def Answer.leaves (before : Option InstanceInfo) : Answer → Option InstanceInfo
  | .failed => none
  | .nothing => before
  | .info ret => some ret

theorem info_answered (h : s.Sound) {ret : Answer}
    (hstep : s.step round (.answered i ret) = some s') (hi : (s.info i).isSome)
    (hhonest : Honest (H := H) (.answered i ret)) :
    s'.info i = Answer.leaves (s.info i) ret := by
  have hleaves := leaves_step (i := i) h hstep
  cases ret with
  | failed => exact hleaves.removed rfl
  | nothing =>
    rw [hleaves.otherwise id id]
    exact Option.map_id'
  | info ret =>
    obtain ⟨x, hx⟩ := Option.isSome_iff_exists.mp hi
    have hreports : Action.reports (H := H) i (.answered i (.info ret)) = some ret :=
      if_pos (hhonest i ret rfl)
    rw [hleaves.otherwise id id, hx, hreports]
    rfl

/-- Every instance that is registered when a round begins answers exactly once before it is over.
Unless others scale it up or down, it is gone at the end if the answer was an exception, and the
table shows the answer otherwise. -/
theorem round_refreshes (enableMigration isGroupKind pd : Bool) (policy : DispatchPolicy)
    (topk : ℕ) (pairPolicy : PairMigrationPolicy) (threshold : Number) (v1 : Bool) (frequency : ℕ)
    (hrun : Machine.run (PollLoop.step round) (new (Manager.init enableMigration isGroupKind pd
      policy topk pairPolicy threshold) v1 frequency) as = some s)
    (hround : Machine.run (PollLoop.step round) s (.poll :: (bs ++ [.gathered])) = some s')
    (hopen : .gathered ∉ bs) (hi : i ∈ s.manager.instances) :
    ∃ ret, bs.filterMap (Action.answerOf i) = [ret] ∧
      ((∀ b ∈ bs, Untouched i b ∧ Honest b) → s'.info i = Answer.leaves (s.info i) ret) := by
  have hsound := (follows_run (follows_new ..) hrun).sound
  obtain ⟨t, hpoll, hrest⟩ := Option.bind_eq_some_iff.mp hround
  obtain ⟨u, hbs, hend⟩ := run_concat hrest
  obtain ⟨ret, hret⟩ := answers_once hpoll hbs (by simp [hend]) hopen hi
  refine ⟨ret, hret, fun hquiet => ?_⟩
  -- the round is what comes before the answer, the answer, and what comes after it
  obtain ⟨xs, b, ys, rfl, hxs, hb, hys⟩ := List.filterMap_eq_cons_iff.mp hret
  rw [List.filterMap_eq_nil_iff] at hys
  have hanswer : b = .answered i ret := by
    cases b with
    | answered j ret' =>
      simp only [Action.answerOf, Option.ite_none_right_eq_some, Option.some.injEq] at hb
      rw [hb.1, hb.2]
    | poll => cases hb
    | gathered => cases hb
    | call b => cases hb
  subst hanswer
  rw [run_append] at hbs
  obtain ⟨v, hbefore, hbs⟩ := Option.bind_eq_some_iff.mp hbs
  obtain ⟨w, hstep, hafter⟩ := Option.bind_eq_some_iff.mp hbs
  have ht := hsound.step hpoll
  have hv := ht.run hbefore
  have hw := hv.step hstep
  have hfirst : t.info i = s.info i :=
    info_unanswered hsound hpoll ⟨id, by simp⟩ (by simp [Honest]) rfl
  have hsecond : v.info i = t.info i :=
    info_unanswered_run ht hbefore (fun b hmem => (hquiet b (by simp [hmem])).1)
      (fun b hmem => (hquiet b (by simp [hmem])).2) hxs
  have hthird : s'.info i = u.info i :=
    info_unanswered (hw.run hafter) hend ⟨id, by simp⟩ (by simp [Honest]) rfl
  have hfourth : u.info i = w.info i :=
    info_unanswered_run hw hafter (fun b hmem => (hquiet b (by simp [hmem])).1)
      (fun b hmem => (hquiet b (by simp [hmem])).2) hys
  have hpresent : (v.info i).isSome := by
    rw [hsecond, hfirst, hsound.info_isSome]
    exact hi
  rw [hthird, hfourth, info_answered hv hstep hpresent (hquiet _ (by simp)).2, hsecond, hfirst]

/-- Two instances, of which one fails while the other answers. -/
def half : List (Action Unit) :=
  [.answered "b" .failed, .answered "a" (.info { instanceId := "a", numWaitingRequests := 7 })]

theorem round_refreshes_half : ∃ s s' : PollLoop Unit,
    Machine.run (PollLoop.step .fin) (new (.init true false false .load 1 .balanced (.fin 1))
      true 1) [.call (.scaleUp [⟨"a", (), .noConstraints⟩, ⟨"b", (), .noConstraints⟩])] = some s ∧
    Machine.run (PollLoop.step .fin) s (.poll :: (half ++ [.gathered])) = some s' ∧
    s'.info "b" = none ∧ s'.info "a" = some { instanceId := "a", numWaitingRequests := 7 } := by
  obtain ⟨s, hs, s', hs', hmem⟩ : ∃ s ∈ Machine.run (PollLoop.step .fin)
      (new (H := Unit) (.init true false false .load 1 .balanced (.fin 1)) true 1)
      [.call (.scaleUp [⟨"a", (), .noConstraints⟩, ⟨"b", (), .noConstraints⟩])],
      ∃ s' ∈ Machine.run (PollLoop.step .fin) s (.poll :: (half ++ [.gathered])),
        "a" ∈ s.manager.instances ∧ "b" ∈ s.manager.instances :=
    ⟨_, rfl, _, rfl, by decide⟩
  have hopen : Action.gathered ∉ half := by simp [half]
  have hquiet : ∀ i, ∀ b ∈ half, Untouched i b ∧ Honest b := by
    simp [half, Untouched, Honest, Action.registers]
  obtain ⟨ret, hret, hleaves⟩ := round_refreshes true false false .load 1 .balanced (.fin 1)
    true 1 hs hs' hopen hmem.2
  obtain ⟨ret', hret', hleaves'⟩ := round_refreshes true false false .load 1 .balanced (.fin 1)
    true 1 hs hs' hopen hmem.1
  cases hret
  cases hret'
  exact ⟨s, s', hs, hs', hleaves (hquiet _), hleaves' (hquiet _)⟩

end PollLoop
end Llumnix.Scheduler.Poll
