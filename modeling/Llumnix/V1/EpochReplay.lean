import Llumnix.Coroutine.Safe
import Llumnix.V1.Footprint
import Llumnix.V1.Ledger
import Llumnix.V1.Selection

/-! The epochs with which the Manager opens migrations and pre-copy sessions of a request. A
migration draws one epoch: its two attempts share it, and a pre-copy also uses the next. -/
namespace Llumnix.V1.EpochReplay

open Coroutine Selection

/-- The openings by attempt, the latest attempt first. The retry is where the task sleeps. -/
def record (attempts : List (List ℕ)) : Event → List (List ℕ)
  | .issued (.sleep _) => [] :: attempts
  | .issued c =>
    match c.opened with
    | some epoch => (attempts.headD [] ++ [epoch]) :: attempts.tail
    | none => attempts
  | _ => attempts

def attempts (trace : List Event) : List (List ℕ) := trace.foldl record [[]]

def previews : Event → Bool
  | .issued c => c.previews
  | _ => false

/-- The migrations of a request, in the order in which they drew their epochs. -/
def migrationsOf (s : State) (r : String) : List Migration :=
  (s.ended ++ s.active).filter (·.requestId = r)

/-- The attempts made for a request over all its migrations, with what each opened. -/
def attemptsOf (s : State) (r : String) : List (List ℕ) :=
  (migrationsOf s r).flatMap fun m => (attempts m.world.trace).reverse

/-- A later attempt opens everything under larger epochs. -/
def NeverReplayed (s : State) : Prop :=
  ∀ r, (attemptsOf s r).Pairwise fun earlier later => ∀ x ∈ earlier, ∀ y ∈ later, x < y

/-- At most one attempt of a migration opens anything. -/
def OpensOnce (trace : List Event) : Prop := (attempts trace).Pairwise fun a b => a = [] ∨ b = []

instance (trace : List Event) : Decidable (OpensOnce trace) :=
  inferInstanceAs (Decidable (List.Pairwise _ _))

/-- A migration whose pre-copy used the epoch after its own. -/
def Migration.Previewed (m : Migration) : Prop := m.world.trace.any previews = true

instance (m : Migration) : Decidable (Migration.Previewed m) :=
  inferInstanceAs (Decidable (_ = true))

/-- Steps that open nothing in an attempt after another attempt of the same migration did, and
draw no epoch that the pre-copy of an earlier migration of the request used. -/
structure Careful (s s' : State) : Prop where
  once : ∀ m ∈ s'.active, OpensOnce m.world.trace
  unused : ∀ m ∈ s.ended, ∀ m' ∈ s'.active, m.requestId = m'.requestId →
    Migration.Previewed m → m.params.epoch + 1 ≠ m'.params.epoch

instance (s s' : State) : Decidable (Careful s s') :=
  decidable_of_iff (_ ∧ _) ⟨fun h => ⟨h.1, h.2⟩, fun h => ⟨h.once, h.unused⟩⟩

def CarefullyReachable (S : Host World Call Call.Reply Exc) (s : State) : Prop :=
  Relation.ReflTransGen (fun s s' => Step S s s' ∧ Careful s s') .initial s

/-- Every opening is under the epoch drawn or, in a pre-copy, the next one. -/
def OpensWith (p : Params) (trace : List Event) : Prop :=
  ∀ a ∈ attempts trace, ∀ x ∈ a,
    x = p.epoch ∨ x = p.epoch + 1 ∧ trace.any previews = true

section Log
variable {p : Params} {tr : List Event}

theorem attempts_append_one (tr : List Event) (ev : Event) :
    attempts (tr ++ [ev]) = record (attempts tr) ev := by
  simp [attempts]

theorem mem_record {as : List (List ℕ)} {ev : Event} {a : List ℕ} {x : ℕ}
    (ha : a ∈ record as ev) (hx : x ∈ a) :
    (∃ b ∈ as, x ∈ b) ∨ ∃ c, ev = .issued c ∧ c.opened = some x := by
  unfold record at ha
  split at ha
  · rcases List.mem_cons.mp ha with rfl | ha
    · cases hx
    · exact .inl ⟨a, ha, hx⟩
  · rename_i c _
    split at ha
    · rename_i epoch hopened
      rcases List.mem_cons.mp ha with rfl | ha
      · rcases List.mem_append.mp hx with hx | hx
        · cases as with
          | nil => cases hx
          | cons b as => exact .inl ⟨b, List.mem_cons_self, hx⟩
        · rw [List.mem_singleton.mp hx]
          exact .inr ⟨c, rfl, hopened⟩
      · exact .inl ⟨a, List.mem_of_mem_tail ha, hx⟩
    · exact .inl ⟨a, ha, hx⟩
  · exact .inl ⟨a, ha, hx⟩

theorem opensWith_append {ev : Event} (h : OpensWith p tr)
    (hev : ∀ c, ev = .issued c → c.OpensUnder p) : OpensWith p (tr ++ [ev]) := by
  intro a ha x hx
  rw [attempts_append_one] at ha
  rw [List.any_append, Bool.or_eq_true]
  rcases mem_record ha hx with ⟨b, hb, hxb⟩ | ⟨c, rfl, hopened⟩
  · exact (h b hb x hxb).imp id fun ⟨hx, hany⟩ => ⟨hx, .inl hany⟩
  · refine (hev c rfl x hopened).imp id fun ⟨hx, hpre⟩ => ⟨hx, .inr ?_⟩
    simp [previews, hpre]

theorem opensWith_nil (p : Params) : OpensWith p [] := by
  intro a ha x hx
  simp only [attempts, List.foldl_nil, List.mem_singleton] at ha
  rw [ha] at hx
  cases hx

theorem opensOnce_nil : OpensOnce [] := List.pairwise_singleton _ _

end Log

/-! One migration. -/

/-- Writes that log nothing but look-ups. -/
def LogsLookups (f : World → World) : Prop := IsLookup f ∨ ∀ w, (f w).trace = w.trace

section Migration
variable (p : Params)

theorem handleFailure_opens (attempt : ℕ) (e : Exc) :
    (handleFailure p attempt e).Uses (Call.OpensUnder p) LogsLookups := by
  have hcheck : (checkInstanceError p).Uses (Call.OpensUnder p) LogsLookups := by
    refine (uses_probes p).mono (fun c hc => Call.opensUnder_of_none ?_) fun _ => .inl
    obtain ⟨i, rfl⟩ := hc
    rfl
  have hclean : (cleanupV1Migration p).Uses (Call.OpensUnder p) LogsLookups := by
    refine (uses_cleanupV1Migration p).mono (fun c hc => Call.opensUnder_of_none ?_) fun _ => .inl
    simp only [cleanupCalls, List.mem_cons, List.not_mem_nil, or_false] at hc
    rcases hc with rfl | rfl | rfl | rfl | rfl <;> rfl
  have hsleep : ∀ n, Call.OpensUnder p (.sleep n) := fun _ => Call.opensUnder_of_none rfl
  have hcount : LogsLookups World.countRetry := .inr fun _ => rfl
  have hdrop : LogsLookups World.dropRetries := .inr fun _ => rfl
  exact uses_handleFailure hcheck hclean hsleep hcount hdrop attempt e

theorem retryLoop_opens (n : ℕ) : (retryLoop p n).Uses (Call.OpensUnder p) LogsLookups :=
  uses_retryLoop (fun id => (uses_lookupInstance id).mono (fun _ h => h) fun _ => .inl)
    ((uses_precopy p).mono (fun _ h => h.2) fun _ => .inl) (uses_cutover p) (handleFailure_opens p)
    (.inr fun _ => rfl) n

theorem safe_opensWith (strict : Bool) {w : World} (hw : w.trace = []) :
    Safe (host strict) (fun w => OpensWith p w.trace) (fun _ w => OpensWith p w.trace)
      (migrateV1RequestWithRetry p) w := by
  refine Safe.frame (retryLoop_opens p maxAttempts) ?_ (fun _ h => h) ?_ ?_ ?_ ?_
  · rw [hw]
    exact opensWith_nil p
  · intro w w' h he
    rw [(trace_of_env he).1]
    exact h
  · intro c w hc h
    refine opensWith_append h fun c' hc' => ?_
    cases hc'
    exact hc
  · intro c w r w' hc h hs
    obtain ⟨effective, htrace, -⟩ := trace_of_serves hs
    rw [htrace]
    exact opensWith_append h fun _ => nofun
  · intro f w hf h
    rcases hf with ⟨id, found, rfl⟩ | hf
    · exact opensWith_append h fun _ => nofun
    · rw [hf w]
      exact h

end Migration

/-! All migrations. -/

/-- The later migration drew a larger epoch, which the pre-copy of the earlier did not use. -/
def Apart (m m' : Migration) : Prop :=
  m.params.epoch < m'.params.epoch ∧
    (Migration.Previewed m → m.params.epoch + 1 ≠ m'.params.epoch)

structure Ordered (strict : Bool) (s : State) : Prop where
  sound : Sound s
  safe : ∀ m ∈ s.active, Safe (host strict) (fun w => OpensWith m.params w.trace)
    (fun _ w => OpensWith m.params w.trace) m.prog m.world
  opens : ∀ m ∈ s.ended, OpensWith m.params m.world.trace
  once : ∀ m ∈ s.ended ++ s.active, OpensOnce m.world.trace
  drawn : ∀ m ∈ s.ended ++ s.active,
    m.params.epoch ≤ (s.v1MigrationEpochs m.requestId).getD 0
  apart : ∀ r, (migrationsOf s r).Pairwise Apart

section Run
variable {strict : Bool} {s s' : State} {m : Migration} {as bs : List Migration}

theorem migrationsOf_eq (h : Sound s) (hs : s.active = as ++ m :: bs) :
    migrationsOf s m.requestId = s.ended.filter (·.requestId = m.requestId) ++ [m] ∧
      as.filter (·.requestId = m.requestId) = [] ∧ bs.filter (·.requestId = m.requestId) = [] := by
  have hnodup := h.nodup
  rw [claims, hs, List.map_append, List.map_cons, List.perm_middle.nodup_iff, List.nodup_cons]
    at hnodup
  have hnone : ∀ x ∈ as ++ bs, ¬x.requestId = m.requestId := by
    intro x hx heq
    rw [← List.map_append, ← heq] at hnodup
    exact hnodup.1 (List.mem_map_of_mem hx)
  have has : as.filter (·.requestId = m.requestId) = [] := by
    rw [List.filter_eq_nil_iff]
    intro x hx
    simpa using hnone x (List.mem_append_left _ hx)
  have hbs : bs.filter (·.requestId = m.requestId) = [] := by
    rw [List.filter_eq_nil_iff]
    intro x hx
    simpa using hnone x (List.mem_append_right _ hx)
  refine ⟨?_, has, hbs⟩
  rw [migrationsOf, hs]
  simp [has, hbs]

theorem apart_of_drawn {p : Params} {prog : Coro Unit} {world : World} (h : Ordered strict s)
    (hfree : s.v1MigratingRequests p.requestId = false)
    (hepoch : p.epoch = (s.v1MigrationEpochs p.requestId).getD 0 + 1)
    (hunused : ∀ m ∈ s.ended, m.requestId = p.requestId → Migration.Previewed m →
      m.params.epoch + 1 ≠ p.epoch) (hm : m ∈ s.ended ++ s.active)
    (hr : m.requestId = p.requestId) : Apart m ⟨p, prog, world⟩ := by
  have hle := h.drawn m hm
  rw [hr] at hle
  have hended : m ∈ s.ended := by
    rcases List.mem_append.mp hm with hm | hm
    · exact hm
    · have hmarked := (h.sound.marked m.requestId).mpr (List.mem_map_of_mem hm)
      rw [hr, hfree] at hmarked
      cases hmarked
  constructor
  · change m.params.epoch < p.epoch
    omega
  · exact hunused m hended hr

theorem apart_append {m₀ : Migration} (h : ∀ r, (migrationsOf s r).Pairwise Apart)
    (hlast : ∀ m ∈ s.ended ++ s.active, m.requestId = m₀.requestId → Apart m m₀) (r : String) :
    ((s.ended ++ (s.active ++ [m₀])).filter (·.requestId = r)).Pairwise Apart := by
  rw [← List.append_assoc, List.filter_append, List.pairwise_append]
  refine ⟨h r, List.Pairwise.sublist List.filter_sublist (List.pairwise_singleton _ _), ?_⟩
  intro m hm m' hm'
  obtain ⟨hmem, hr⟩ := List.mem_filter.mp hm
  obtain ⟨hmem', hr'⟩ := List.mem_filter.mp hm'
  obtain rfl := List.mem_singleton.mp hmem'
  have hreq : m.requestId = m'.requestId :=
    (of_decide_eq_true hr).trans (of_decide_eq_true hr').symm
  exact hlast m hmem hreq

theorem drawn_begin {p : Params} (hepoch : p.epoch = (s.v1MigrationEpochs p.requestId).getD 0 + 1)
    (hle : m.params.epoch ≤ (s.v1MigrationEpochs m.requestId).getD 0) :
    m.params.epoch ≤
      (Function.update s.v1MigrationEpochs p.requestId (some p.epoch) m.requestId).getD 0 := by
  by_cases hr : m.requestId = p.requestId
  · rw [hr] at hle
    rw [hr, Function.update_self, Option.getD_some]
    omega
  · rw [Function.update_of_ne hr]
    exact hle

theorem ordered_begin {p : Params} {world : World} (h : Ordered strict s)
    (hfree : s.v1MigratingRequests p.requestId = false)
    (hepoch : p.epoch = (s.v1MigrationEpochs p.requestId).getD 0 + 1) (hw : world.trace = [])
    (hunused : ∀ m ∈ s.ended, m.requestId = p.requestId → Migration.Previewed m →
      m.params.epoch + 1 ≠ p.epoch) :
    Ordered strict { s with
      v1MigratingRequests := Function.update s.v1MigratingRequests p.requestId true
      v1MigrationEpochs := Function.update s.v1MigrationEpochs p.requestId (some p.epoch)
      active := s.active ++ [⟨p, migrateV1RequestWithRetry p, world⟩] } := by
  let m₀ : Migration := ⟨p, migrateV1RequestWithRetry p, world⟩
  have hmem : ∀ {m}, m ∈ s.ended ++ (s.active ++ [m₀]) → m ∈ s.ended ++ s.active ∨ m = m₀ := by
    intro m hm
    rw [← List.append_assoc] at hm
    exact (List.mem_append.mp hm).imp id List.mem_singleton.mp
  refine ⟨sound_begin h.sound hfree, ?_, h.opens, ?_, ?_, ?_⟩
  · intro m hm
    rcases List.mem_append.mp hm with hm | hm
    · exact h.safe m hm
    · rw [List.mem_singleton.mp hm]
      exact safe_opensWith p strict hw
  · intro m hm
    rcases hmem hm with hm | rfl
    · exact h.once m hm
    · change OpensOnce world.trace
      rw [hw]
      exact opensOnce_nil
  · intro m hm
    rcases hmem hm with hm | rfl
    · exact drawn_begin hepoch (h.drawn m hm)
    · change p.epoch ≤
        (Function.update s.v1MigrationEpochs p.requestId (some p.epoch) p.requestId).getD 0
      rw [Function.update_self, Option.getD_some]
  · exact apart_append h.apart fun m hm hr => apart_of_drawn h hfree hepoch hunused hm hr

theorem apart_replace {m' : Migration} (h : Sound s)
    (h' : Sound { s with active := as ++ m' :: bs }) (hs : s.active = as ++ m :: bs)
    (hp : m'.params = m.params) (r : String) (hold : (migrationsOf s r).Pairwise Apart) :
    (migrationsOf { s with active := as ++ m' :: bs } r).Pairwise Apart := by
  have hid : m'.requestId = m.requestId := congrArg Params.requestId hp
  by_cases hr : r = m'.requestId
  · rw [hr, hid, (migrationsOf_eq h hs).1, List.pairwise_append] at hold
    rw [hr, (migrationsOf_eq h' rfl).1, List.pairwise_append, hid]
    refine ⟨hold.1, List.pairwise_singleton _ _, fun x hx y hy => ?_⟩
    rw [List.mem_singleton.mp hy]
    have hlast := hold.2.2 x hx m List.mem_cons_self
    rw [Apart, ← hp] at hlast
    exact hlast
  · have hne' : ¬m'.requestId = r := fun heq => hr heq.symm
    have hne : ¬m.requestId = r := fun heq => hr (heq.symm.trans hid.symm)
    have hsame : migrationsOf { s with active := as ++ m' :: bs } r = migrationsOf s r := by
      simp [migrationsOf, hs, hne, hne']
    rw [hsame]
    exact hold

theorem ordered_advance {n : ℕ} {prog : Coro Unit} {world : World} (h : Ordered strict s)
    (hn : s.active[n]? = some m) (hstep : (host strict).Step (m.prog, m.world) (prog, world))
    (honce : OpensOnce world.trace) :
    Ordered strict { s with active := s.active.set n ⟨m.params, prog, world⟩ } := by
  obtain ⟨as, bs, hs, hset, -⟩ := exists_split hn
  let m' : Migration := ⟨m.params, prog, world⟩
  have hmem : ∀ {x}, x ∈ as ++ m' :: bs → x ∈ s.active ∨ x = m' := by
    intro x hx
    rw [hs]
    simp only [List.mem_append, List.mem_cons] at hx ⊢
    rcases hx with hx | hx | hx
    · exact .inl (.inl hx)
    · exact .inr hx
    · exact .inl (.inr (.inr hx))
  have hm : m ∈ s.active := List.mem_of_getElem? hn
  have hsound : Sound { s with active := as ++ m' :: bs } := by
    rw [← hset]
    exact sound_advance h.sound hn
  rw [hset]
  refine ⟨hsound, ?_, h.opens, ?_, ?_, ?_⟩
  · intro x hx
    rcases hmem hx with hx | rfl
    · exact h.safe x hx
    · exact (h.safe m hm).step hstep
  · intro x hx
    rcases List.mem_append.mp hx with hx | hx
    · exact h.once x (List.mem_append_left _ hx)
    · rcases hmem hx with hx | rfl
      · exact h.once x (List.mem_append_right _ hx)
      · exact honce
  · intro x hx
    rcases List.mem_append.mp hx with hx | hx
    · exact h.drawn x (List.mem_append_left _ hx)
    · rcases hmem hx with hx | rfl
      · exact h.drawn x (List.mem_append_right _ hx)
      · exact h.drawn m (List.mem_append_right _ hm)
  · intro r
    exact apart_replace h.sound hsound hs rfl r (h.apart r)

theorem migrationsOf_finish {n : ℕ} (h : Sound s) (hn : s.active[n]? = some m) (r : String) :
    migrationsOf (s.finish n m) r = migrationsOf s r := by
  obtain ⟨as, bs, hs, -, herase⟩ := exists_split hn
  change (s.ended ++ [m] ++ s.active.eraseIdx n).filter (·.requestId = r) = _
  rw [herase]
  by_cases hr : r = m.requestId
  · subst hr
    obtain ⟨heq, has, hbs⟩ := migrationsOf_eq h hs
    rw [heq]
    simp [has, hbs]
  · have hne : ¬m.requestId = r := fun heq => hr heq.symm
    simp [migrationsOf, hs, hne]

theorem ordered_finish {n : ℕ} (h : Ordered strict s) (hn : s.active[n]? = some m) :
    Ordered strict (s.finish n m) := by
  obtain ⟨as, bs, hs, -, herase⟩ := exists_split hn
  have hm : m ∈ s.active := List.mem_of_getElem? hn
  have hmem : ∀ {x}, x ∈ s.ended ++ [m] ++ s.active.eraseIdx n → x ∈ s.ended ++ s.active := by
    intro x hx
    rw [herase] at hx
    rw [hs]
    simp only [List.mem_append, List.mem_cons, List.not_mem_nil, or_false] at hx ⊢
    rcases hx with (hx | hx) | hx | hx
    · exact .inl hx
    · exact .inr (.inr (.inl hx))
    · exact .inr (.inl hx)
    · exact .inr (.inr (.inr hx))
  refine ⟨sound_finish h.sound hn, ?_, ?_, fun x hx => h.once x (hmem hx),
    fun x hx => h.drawn x (hmem hx), ?_⟩
  · intro x hx
    exact h.safe x (List.mem_of_mem_eraseIdx hx)
  · intro x hx
    rcases List.mem_append.mp hx with hx | hx
    · exact h.opens x hx
    · rw [List.mem_singleton.mp hx]
      exact (h.safe m hm).inv
  · intro r
    rw [migrationsOf_finish h.sound hn]
    exact h.apart r

theorem ordered_step (h : Ordered strict s) (hstep : Step (host strict) s s')
    (hc : Careful s s') : Ordered strict s' := by
  cases hstep with
  | start task => exact ⟨⟨h.sound.nodup, h.sound.marked⟩, h.safe, h.opens, h.once, h.drawn, h.apart⟩
  | resume n task reply now world hn hw =>
    have hpopped : Ordered strict { s with waiting := s.waiting.eraseIdx n } :=
      ⟨⟨h.sound.nodup, h.sound.marked⟩, h.safe, h.opens, h.once, h.drawn, h.apart⟩
    rcases resume_cases task reply now world with heq | ⟨p, hsel, hepoch, heq⟩
    · rw [heq]
      exact hpopped
    · have hunused := hc.unused
      rw [heq] at hunused ⊢
      refine ordered_begin hpopped (selected_free hsel) hepoch hw fun m hm hreq => ?_
      exact hunused m hm _ (List.mem_append_right _ List.mem_cons_self) hreq
  | advance n m prog world hn hstep =>
    have hlt := (List.getElem?_eq_some_iff.mp hn).1
    exact ordered_advance h hn hstep (hc.once ⟨m.params, prog, world⟩ (List.mem_set hlt _))
  | finish n m hn => exact ordered_finish h hn
  | tables => exact ⟨⟨h.sound.nodup, h.sound.marked⟩, h.safe, h.opens, h.once, h.drawn, h.apart⟩

theorem ordered_initial : Ordered strict .initial where
  sound := sound_initial
  safe _ hm := absurd hm List.not_mem_nil
  opens _ hm := absurd hm List.not_mem_nil
  once _ hm := absurd hm List.not_mem_nil
  drawn _ hm := absurd hm List.not_mem_nil
  apart _ := List.Pairwise.nil

theorem neverReplayed_of_ordered (h : Ordered strict s) : NeverReplayed s := by
  have hopens : ∀ m ∈ s.ended ++ s.active, OpensWith m.params m.world.trace := by
    intro m hm
    rcases List.mem_append.mp hm with hm | hm
    · exact h.opens m hm
    · exact (h.safe m hm).inv
  intro r
  have hin : ∀ m ∈ migrationsOf s r, m ∈ s.ended ++ s.active := fun m hm =>
    List.mem_of_mem_filter hm
  rw [attemptsOf, List.pairwise_flatMap]
  refine ⟨fun m hm => ?_, ?_⟩
  · rw [List.pairwise_reverse]
    refine (h.once m (hin m hm)).imp fun hab x hx y hy => ?_
    rcases hab with rfl | rfl
    · cases hy
    · cases hx
  · refine (h.apart r).imp_of_mem fun {m m'} hm hm' hapart a ha b hb x hx y hy => ?_
    have hlo := hopens m (hin m hm) a (List.mem_reverse.mp ha) x hx
    have hhi := hopens m' (hin m' hm') b (List.mem_reverse.mp hb) y hy
    obtain ⟨hlt, hne⟩ := hapart
    rcases hlo with rfl | ⟨rfl, hpre⟩
    · omega
    · have hne := hne hpre
      omega

end Run

/-- As long as no attempt opens anything after another of its migration did, and no migration
draws the epoch of an earlier pre-copy, epochs are never used twice. -/
theorem epochs_never_replayed (strict : Bool) {s : State}
    (h : CarefullyReachable (host strict) s) : NeverReplayed s := by
  suffices hordered : Ordered strict s from neverReplayed_of_ordered hordered
  induction h with
  | refl => exact ordered_initial
  | tail _ hstep ih => exact ordered_step ih hstep.1 hstep.2

/-- The state in which a migration has come to the configuration `c`. -/
def put (s : State) (n : ℕ) (p : Params) (c : Coro Unit × World) : State :=
  { s with active := s.active.set n ⟨p, c.1, c.2⟩ }

theorem step_put {S : Host World Call Call.Reply Exc} {s : State} {n : ℕ} {p : Params}
    {c c' : Coro Unit × World} (hn : n < s.active.length) (h : S.Step c c') :
    Step S (put s n p c) (put s n p c') := by
  have hget : (put s n p c).active[n]? = some ⟨p, c.1, c.2⟩ := List.getElem?_set_self hn
  have hnext := Step.advance (S := S) (put s n p c) n _ c'.1 c'.2 hget h
  simpa only [put, List.set_set] using hnext

/-- The retry of a migration opens it again under the epoch of the first attempt. -/
theorem epoch_replayed_by_retry : ∃ s, Reachable (host false) s ∧ attemptsOf s "r" = [[1], [1]] ∧
    ¬NeverReplayed s := by
  let c := (host false).replay (migrateV1RequestWithRetry sampleParams) sampleWorld
    (List.replicate 6 (fails 0 (.exception "timed out")) ++
      [done 0 none, fails 0 (.exception "timed out")])
  have hsteps := Relation.ReflTransGen.lift (put sampleClaimed 0 sampleParams)
    (fun _ _ h => step_put (S := host false) Nat.zero_lt_one h) _ c (reaches_replay _ _ _)
  have hattempts : attemptsOf (put sampleClaimed 0 sampleParams c) "r" = [[1], [1]] := by
    decide +kernel
  refine ⟨_, (sampleClaimed_reachable (host false)).trans hsteps, hattempts, fun h => ?_⟩
  have hpair := h "r"
  rw [hattempts] at hpair
  simp at hpair

section Sample

/-- The steps of the oldest migration, up to a failed call. -/
def opening (s : State) : List State :=
  s.active.head?.elim [] fun m =>
    ((host false).course m.prog m.world [fails 0 (.exception "request is not migratable")]).map
      (put s 0 m.params)

theorem chain_opening (s : State) : (s :: opening s).IsChain (Step (host false)) := by
  cases hactive : s.active with
  | nil => simp [opening, hactive]
  | cons m ms =>
    have hfirst : put s 0 m.params (m.prog, m.world) = s := by
      rw [put, hactive, List.set_cons_zero, ← hactive]
    have hsteps := (List.isChain_map (put s 0 m.params)).mpr <|
      (chain_course m.prog m.world [fails 0 (.exception "request is not migratable")]).imp
        fun _ _ h => step_put (S := host false) (by simp [hactive]) h
    rw [List.map_cons, hfirst] at hsteps
    simpa [opening, hactive] using hsteps

def closing (s : State) : List State := s.active.head?.elim [] fun m => [s.finish 0 m]

theorem chain_closing (s : State) : (s :: closing s).IsChain (Step (host false)) := by
  cases hactive : s.active with
  | nil => simp [closing, hactive]
  | cons m ms => simpa [closing, hactive] using Step.finish s 0 m (by simp [hactive])

/-- A task claims `r`, and its migration opens and comes to its end. -/
def trip (s : State) : List State :=
  let called : State := { s with waiting := s.waiting ++ [sampleTask] }
  let claimed := State.resume { called with waiting := called.waiting.eraseIdx s.waiting.length }
    sampleTask (.ok ["r"]) 5 sampleWorld
  called :: claimed :: (opening claimed ++ closing ((opening claimed).getLastD claimed))

theorem chain_trip (s : State) : (s :: trip s).IsChain (Step (host false)) := by
  refine .cons_cons (.start s sampleTask) (.cons_cons ?_ ?_)
  · exact Step.resume _ s.waiting.length sampleTask (.ok ["r"]) 5 sampleWorld
      List.getElem?_concat_length rfl
  · exact chain_append (chain_opening _) (chain_closing _)

def sampleTrips : List State :=
  sampleKnown :: (trip sampleKnown ++ trip ((trip sampleKnown).getLastD sampleKnown))

end Sample

/-- Two migrations of `r`, one after the other: the second opens under a larger epoch. -/
theorem epochs_never_replayed_twice : ∃ s, CarefullyReachable (host false) s ∧
    attemptsOf s "r" = [[1], [2]] ∧ NeverReplayed s := by
  have hsteps : (State.initial :: sampleTrips).IsChain (Step (host false)) :=
    .cons_cons (.tables _ _ _ _) (chain_append (chain_trip _) (chain_trip _))
  have hcareful : (State.initial :: sampleTrips).IsChain Careful := by decide +kernel
  have hreach : CarefullyReachable (host false) _ :=
    List.relationReflTransGen_of_exists_isChain_cons sampleTrips
      (List.isChain_iff_getElem.mpr fun i hi => ⟨List.isChain_iff_getElem.mp hsteps i hi,
        List.isChain_iff_getElem.mp hcareful i hi⟩) rfl
  exact ⟨_, hreach, by decide +kernel, epochs_never_replayed false hreach⟩

end Llumnix.V1.EpochReplay
