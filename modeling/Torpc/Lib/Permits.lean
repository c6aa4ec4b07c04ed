import Mathlib.Algebra.Order.BigOperators.Group.Finset
import Torpc.Lib.Interleave

/-!
# Effects — a server behind semaphores

Each job belongs to a service, and each service has a semaphore of its own with
`max` permits. A job that has arrived waits until it gets a permit, holds it
while its program runs, and gives it back with the end of its thread, whether
that returns or is dropped; a job can also be dropped while it waits.

* `Run.sound` — whatever the interleaving, the permits of a service that are free
  and those that its threads hold are `max`;
* `inside_card_le` — so there are at most `max` threads for each service that has
  jobs, and not fewer, if the jobs come like that (`exists_run_inside`);
* `Run.gone` — a thread that has ended holds nothing any more.
-/

namespace Effects

open Lts

variable {Op : Type} {Res : Op → Type} {α σ : Type}

/-- A state of the server: its threads, the free permits of each service, and the
jobs that wait. -/
structure Gated (S : System Op Res α) (σ : Type) where
  inner : S.Config
  available : σ → Nat
  waiting : List S.Job

inductive GatedLabel (S : System Op Res α) where
  | arrive (job : S.Job)
  | giveUp (job : S.Job)
  | inner (l : S.Label)

namespace Gated

variable {S : System Op Res α} [DecidableEq σ]

/-- The server before its first job. -/
def start (S : System Op Res α) (σ : Type) (max : Nat) (s : S.Shared) : Gated S σ :=
  ⟨S.start s, fun _ => max, []⟩

/-- Thread `i` is gone, and its permit is free. -/
def release (g : Gated S σ) (i : Nat) (a : σ) : Gated S σ :=
  { g with
    inner := ⟨g.inner.shared, Function.update g.inner.threads i none, g.inner.next⟩
    available := Function.update g.available a (g.available a + 1) }

/-- A job gets a permit and its thread. -/
def enter (g : Gated S σ) (job : S.Job) (a : σ) (waiting : List S.Job) : Gated S σ where
  inner := ⟨g.inner.shared,
    Function.update g.inner.threads g.inner.next (some ⟨job, S.prog job⟩), g.inner.next + 1⟩
  available := Function.update g.available a (g.available a - 1)
  waiting

/-- One step of the server. -/
inductive Step (service : S.Job → σ) : Gated S σ → GatedLabel S → Gated S σ → Prop where
  | arrive (g : Gated S σ) (job : S.Job) (h : S.accepts g.inner.shared job) :
      Step service g (.arrive job) { g with waiting := job :: g.waiting }
  | giveUp (g : Gated S σ) (pre : List S.Job) (job : S.Job) (post : List S.Job)
      (h : g.waiting = pre ++ job :: post) :
      Step service g (.giveUp job) { g with waiting := pre ++ post }
  | enter (g : Gated S σ) (pre : List S.Job) (job : S.Job) (post : List S.Job)
      (h : g.waiting = pre ++ job :: post) (hfree : 0 < g.available (service job)) :
      Step service g (.inner (.spawn g.inner.next job)) (g.enter job (service job) (pre ++ post))
  | act (g : Gated S σ) (i : Nat) (e : Event Op Res) (inner' : S.Config)
      (h : System.Step S g.inner (.act i e) inner') :
      Step service g (.inner (.act i e)) { g with inner := inner' }
  | done (g : Gated S σ) (i : Nat) (job : S.Job) (a : α)
      (h : g.inner.threads i = some ⟨job, .pure a⟩) :
      Step service g (.inner (.done i a)) (g.release i (service job))
  | cancel (g : Gated S σ) (i : Nat) (job : S.Job) (o : Op) (k : Res o → Prog Op Res α)
      (h : g.inner.threads i = some ⟨job, .op o k⟩) (hdrop : S.mayCancel g.inner.shared job o) :
      Step service g (.inner (.cancel i)) (g.release i (service job))
  | env (g : Gated S σ) (inner' : S.Config) (h : System.Step S g.inner .env inner') :
      Step service g (.inner .env) { g with inner := inner' }

/-- The threads there are. -/
def inside (g : Gated S σ) : Finset Nat :=
  (Finset.range g.inner.next).filter fun i => (g.inner.threads i).isSome

/-- The threads of a service. -/
def insideOf (service : S.Job → σ) (a : σ) (g : Gated S σ) : Finset Nat :=
  (Finset.range g.inner.next).filter fun i =>
    (g.inner.threads i).any fun t => decide (service t.job = a)

variable {service : S.Job → σ} {a : σ} {g : Gated S σ} {i : Nat}

omit [DecidableEq σ] in
/-- A thread is inside if it has its number and is still there. -/
theorem mem_inside : i ∈ g.inside ↔ i < g.inner.next ∧ ∃ t, g.inner.threads i = some t := by
  rw [inside, Finset.mem_filter, Finset.mem_range, Option.isSome_iff_exists]

/-- It is inside a service if its job is one for the service. -/
theorem mem_insideOf : i ∈ g.insideOf service a ↔
    i < g.inner.next ∧ ∃ t, g.inner.threads i = some t ∧ service t.job = a := by
  rw [insideOf, Finset.mem_filter, Finset.mem_range, Option.any_eq_true]
  simp only [decide_eq_true_eq]

-- ---------------------------------------------------------------------------
-- What a step does
-- ---------------------------------------------------------------------------

/-- Threads and permits are as they were, and only an arrival makes a job wait. -/
structure Kept (l : GatedLabel S) (g g' : Gated S σ) : Prop where
  next : g'.inner.next = g.inner.next
  available : g'.available = g.available
  jobs : ∀ i, (g'.inner.threads i).map (·.job) = (g.inner.threads i).map (·.job)
  waiting : ∀ job ∈ g'.waiting, job ∈ g.waiting ∨ l = .arrive job

/-- A step keeps the threads, gives a job that waits a permit and a thread, or ends
a thread. -/
theorem Step.effect {l : GatedLabel S} {g' : Gated S σ} (h : Step service g l g') :
    Kept l g g' ∨
    (∃ job waiting, job ∈ g.waiting ∧ waiting ⊆ g.waiting ∧ 0 < g.available (service job) ∧
      g' = g.enter job (service job) waiting) ∨
    ∃ i t, g.inner.threads i = some t ∧ g' = g.release i (service t.job) := by
  cases h with
  | arrive job hacc =>
    refine .inl ⟨rfl, rfl, fun _ => rfl, fun j hj => ?_⟩
    rcases List.mem_cons.mp hj with rfl | hj
    · exact .inr rfl
    · exact .inl hj
  | giveUp pre job post hw =>
    refine .inl ⟨rfl, rfl, fun _ => rfl, fun j hj => .inl ?_⟩
    rw [hw]
    exact ((List.sublist_cons_self job post).append_left pre).subset hj
  | enter pre job post hw hfree =>
    refine .inr (.inl ⟨job, pre ++ post, ?_, ?_, hfree, rfl⟩)
    · rw [hw]
      simp
    · rw [hw]
      exact ((List.sublist_cons_self job post).append_left pre).subset
  | act i e inner' hinner =>
    cases hinner with
    | act _ job o k r s' hi hexec =>
      -- the thread goes on with its job
      refine .inl ⟨rfl, rfl, fun j => ?_, fun j hj => .inl hj⟩
      by_cases hj : j = i
      · subst hj
        simp [hi]
      · simp [Function.update_of_ne hj]
  | done i job a hi => exact .inr (.inr ⟨i, _, hi, rfl⟩)
  | cancel i job o k hi hdrop => exact .inr (.inr ⟨i, _, hi, rfl⟩)
  | env inner' hinner =>
    cases hinner with
    | env s' henv => exact .inl ⟨rfl, rfl, fun _ => rfl, fun j hj => .inl hj⟩

-- ---------------------------------------------------------------------------
-- No permit is lost or made up
-- ---------------------------------------------------------------------------

/-- What holds of every state: threads have handed-out ids, and each permit of a
service is free or held by one of its threads. -/
structure Sound (service : S.Job → σ) (max : Nat) (g : Gated S σ) : Prop where
  fresh : ∀ i, g.inner.next ≤ i → g.inner.threads i = none
  permits : ∀ a, g.available a + (g.insideOf service a).card = max

/-- What is inside depends on the jobs of the threads alone. -/
theorem insideOf_congr {g' : Gated S σ} (hnext : g'.inner.next = g.inner.next)
    (hjobs : ∀ i, (g'.inner.threads i).map (·.job) = (g.inner.threads i).map (·.job)) (a : σ) :
    g'.insideOf service a = g.insideOf service a := by
  have hany : ∀ (i : Nat) (g : Gated S σ), ((g.inner.threads i).any fun t =>
      decide (service t.job = a)) = ((g.inner.threads i).map (·.job)).any fun job =>
      decide (service job = a) := by
    intro i g
    cases g.inner.threads i <;> rfl
  unfold insideOf
  rw [hnext]
  refine Finset.filter_congr fun i _ => ?_
  rw [hany i g', hany i g, hjobs i]

/-- Steps inside a thread, arrivals and departures from the queue leave the permits as they
are. -/
theorem Sound.kept {max : Nat} {l : GatedLabel S} {g' : Gated S σ} (h : g.Sound service max)
    (hkept : Kept l g g') : g'.Sound service max := by
  refine ⟨fun i hi => ?_, fun a => ?_⟩
  · rw [hkept.next] at hi
    have hnone := hkept.jobs i
    rw [h.fresh i hi] at hnone
    exact Option.map_eq_none_iff.mp hnone
  · rw [hkept.available, insideOf_congr hkept.next hkept.jobs]
    exact h.permits a

/-- A thread that ends is no longer inside its service. -/
theorem insideOf_release (b : σ) (i : Nat) (a : σ) :
    (g.release i b).insideOf service a = (g.insideOf service a).erase i := by
  ext j
  rw [Finset.mem_erase, mem_insideOf, mem_insideOf]
  by_cases hj : j = i
  · subst hj
    simp [release]
  · simp [release, hj]

/-- The permit of a thread that ends is free again, so the sum is what it was. -/
theorem Sound.release {max : Nat} {t : S.Thread} (h : g.Sound service max)
    (ht : g.inner.threads i = some t) : (g.release i (service t.job)).Sound service max := by
  have hlt : i < g.inner.next := by
    by_contra hle
    rw [h.fresh i (by omega)] at ht
    cases ht
  refine ⟨fun j hj => ?_, fun a => ?_⟩
  · show Function.update g.inner.threads i none j = none
    by_cases hji : j = i
    · rw [hji, Function.update_self]
    · rw [Function.update_of_ne hji]
      exact h.fresh j hj
  · rw [insideOf_release]
    have hpermits := h.permits a
    by_cases ha : a = service t.job
    · -- the thread was one of this service
      have hmem : i ∈ g.insideOf service a := mem_insideOf.mpr ⟨hlt, t, ht, ha.symm⟩
      have hpos := Finset.card_pos.mpr ⟨i, hmem⟩
      rw [Finset.card_erase_of_mem hmem, ha]
      rw [ha] at hpermits hpos
      simp only [Gated.release, Function.update_self]
      omega
    · have hnot : i ∉ g.insideOf service a := by
        intro hmem
        obtain ⟨-, t', ht', ha'⟩ := mem_insideOf.mp hmem
        rw [ht] at ht'
        obtain rfl := Option.some.inj ht'
        exact ha ha'.symm
      rw [Finset.erase_eq_of_notMem hnot]
      simp only [Gated.release, Function.update_of_ne ha]
      exact hpermits

/-- A job that enters is inside its own service, and the other services have whom they had.
-/
theorem insideOf_enter (hfresh : ∀ i, g.inner.next ≤ i → g.inner.threads i = none)
    (job : S.Job) (b : σ) (waiting : List S.Job) (a : σ) :
    (g.enter job b waiting).insideOf service a =
      if service job = a then insert g.inner.next (g.insideOf service a)
      else g.insideOf service a := by
  ext j
  have hnew : j = g.inner.next → g.inner.threads j = none := fun hj => hfresh j hj.ge
  have hmem : j ∈ (g.enter job b waiting).insideOf service a ↔
      (j = g.inner.next ∧ service job = a) ∨ j ∈ g.insideOf service a := by
    rw [mem_insideOf, mem_insideOf]
    by_cases hj : j = g.inner.next
    · simp [enter, hj, hfresh]
    · have hlt : j < g.inner.next + 1 ↔ j < g.inner.next := by omega
      simp [enter, hj, hlt]
  rw [hmem]
  split
  · next ha => simp [ha]
  · next ha => simp [ha]

/-- A job that enters takes a free permit of its service, so the sum is what it was. -/
theorem Sound.enter {max : Nat} (h : g.Sound service max) {job : S.Job}
    (hfree : 0 < g.available (service job)) (waiting : List S.Job) :
    (g.enter job (service job) waiting).Sound service max := by
  refine ⟨fun j hj => ?_, fun a => ?_⟩
  · have hle : g.inner.next + 1 ≤ j := hj
    show Function.update g.inner.threads g.inner.next _ j = none
    rw [Function.update_of_ne (by omega)]
    exact h.fresh j (by omega)
  · rw [insideOf_enter h.fresh]
    have hpermits := h.permits a
    have hnot : g.inner.next ∉ g.insideOf service a := by
      intro hmem
      exact absurd (mem_insideOf.mp hmem).1 (lt_irrefl _)
    by_cases ha : service job = a
    · rw [if_pos ha, Finset.card_insert_of_notMem hnot]
      subst ha
      simp only [Gated.enter, Function.update_self]
      omega
    · rw [if_neg ha]
      simp only [Gated.enter, Function.update_of_ne (Ne.symm ha)]
      exact hpermits

/-- Whatever happens, each service's permits are free or held by somebody inside. -/
theorem Sound.step {max : Nat} {l : GatedLabel S} {g' : Gated S σ} (h : g.Sound service max)
    (hstep : Step service g l g') : g'.Sound service max := by
  obtain hkept | ⟨job, waiting, -, -, hfree, rfl⟩ | ⟨i, t, ht, rfl⟩ := hstep.effect
  · exact h.kept hkept
  · exact h.enter hfree waiting
  · exact h.release ht

/-- At the start all permits are free and nobody is inside. -/
theorem sound_start (max : Nat) (s : S.Shared) : (start S σ max s).Sound service max := by
  refine ⟨fun i _ => rfl, fun a => ?_⟩
  have hnone : (start S σ max s).insideOf service a = ∅ := rfl
  rw [hnone]
  rfl

/-- Whatever happens, free and held permits are all the permits there are. -/
theorem Run.sound {max : Nat} {s : S.Shared} {ls : List (GatedLabel S)}
    (h : Run (Step service) (start S σ max s) ls g) : g.Sound service max :=
  h.invariant (sound_start max s) fun _ _ _ hg hstep => hg.step hstep

/-- The threads are at most `max` for each of the services that have any. -/
theorem Sound.inside_card_le {max : Nat} (h : g.Sound service max) {services : Finset σ}
    (hin : ∀ i t, g.inner.threads i = some t → service t.job ∈ services) :
    g.inside.card ≤ services.card * max := by
  have hsub : g.inside ⊆ services.biUnion fun a => g.insideOf service a := by
    intro i hi
    obtain ⟨hlt, t, ht⟩ := mem_inside.mp hi
    exact Finset.mem_biUnion.mpr ⟨_, hin i t ht, mem_insideOf.mpr ⟨hlt, t, ht, rfl⟩⟩
  calc g.inside.card ≤ (services.biUnion fun a => g.insideOf service a).card :=
        Finset.card_le_card hsub
    _ ≤ ∑ a ∈ services, (g.insideOf service a).card := Finset.card_biUnion_le
    _ ≤ ∑ _a ∈ services, max := Finset.sum_le_sum fun a _ => by
        have := h.permits a
        omega
    _ = services.card * max := Finset.sum_const_nat fun _ _ => rfl

-- ---------------------------------------------------------------------------
-- Where threads come from, and where they go
-- ---------------------------------------------------------------------------

/-- A job that waits or has a thread is one of `jobs`. -/
structure Within (jobs : S.Job → Prop) (g : Gated S σ) : Prop where
  waiting : ∀ job ∈ g.waiting, jobs job
  threads : ∀ i t, g.inner.threads i = some t → jobs t.job

/-- If only jobs of a kind arrive, only jobs of the kind wait or are inside. -/
theorem Within.step {jobs : S.Job → Prop} {l : GatedLabel S} {g' : Gated S σ}
    (h : g.Within jobs) (hstep : Step service g l g') (hl : ∀ job, l = .arrive job → jobs job) :
    g'.Within jobs := by
  obtain hkept | ⟨job, waiting, hjob, hsub, -, rfl⟩ | ⟨i, t, ht, rfl⟩ := hstep.effect
  · refine ⟨fun job hjob => ?_, fun i t ht => ?_⟩
    · rcases hkept.waiting job hjob with hwait | harrive
      · exact h.waiting job hwait
      · exact hl job harrive
    · have hjob := hkept.jobs i
      rw [ht, Option.map_some] at hjob
      obtain ⟨t', ht', heq⟩ := Option.map_eq_some_iff.mp hjob.symm
      rw [← heq]
      exact h.threads i t' ht'
  · refine ⟨fun j hj => h.waiting j (hsub hj), fun i t ht => ?_⟩
    by_cases hi : i = g.inner.next
    · subst hi
      simp only [enter, Function.update_self, Option.some.injEq] at ht
      rw [← ht]
      exact h.waiting job hjob
    · simp only [enter, Function.update_of_ne hi] at ht
      exact h.threads i t ht
  · refine ⟨h.waiting, fun j t' ht' => ?_⟩
    by_cases hj : j = i
    · subst hj
      simp [release] at ht'
    · simp only [release, Function.update_of_ne hj] at ht'
      exact h.threads j t' ht'

/-- A job that waits or has a thread has arrived. -/
theorem Run.arrived {max : Nat} {s : S.Shared} {ls : List (GatedLabel S)}
    (h : Run (Step service) (start S σ max s) ls g) : g.Within fun job => .arrive job ∈ ls := by
  induction h with
  | nil => exact ⟨fun _ => nofun, fun _ _ => nofun⟩
  | @snoc g g' ls l hrun hstep ih =>
    have hlater : g.Within fun job => .arrive job ∈ ls ++ [l] :=
      ⟨fun job hjob => List.mem_append_left _ (ih.waiting job hjob),
        fun i t ht => List.mem_append_left _ (ih.threads i t ht)⟩
    refine hlater.step hstep fun job hjob => ?_
    rw [hjob]
    exact List.mem_append_right _ (List.mem_singleton_self _)

/-- The step ends thread `i`: its program returns, or it is dropped. -/
def Ends (i : Nat) (l : GatedLabel S) : Prop :=
  (∃ a, l = .inner (.done i a)) ∨ l = .inner (.cancel i)

/-- The id is used up. -/
def Gone (i : Nat) (g : Gated S σ) : Prop := i < g.inner.next ∧ g.inner.threads i = none

/-- A thread that has ended does not come back: its number is not given away again. -/
theorem Gone.step {l : GatedLabel S} {g' : Gated S σ} (h : g.Gone i)
    (hstep : Step service g l g') : g'.Gone i := by
  obtain ⟨hlt, hnone⟩ := h
  obtain hkept | ⟨job, waiting, -, -, -, rfl⟩ | ⟨j, t, -, rfl⟩ := hstep.effect
  · have hjob := hkept.jobs i
    rw [hnone] at hjob
    exact ⟨hkept.next ▸ hlt, Option.map_eq_none_iff.mp hjob⟩
  · refine ⟨Nat.lt_succ_of_lt hlt, ?_⟩
    simp only [enter, Function.update_of_ne (show i ≠ g.inner.next by omega)]
    exact hnone
  · refine ⟨hlt, ?_⟩
    simp only [release, Function.update_apply]
    split
    · rfl
    · exact hnone

/-- A thread that has ended is gone for good. -/
theorem Run.gone {max : Nat} {s : S.Shared} {ls : List (GatedLabel S)}
    (h : Run (Step service) (start S σ max s) ls g) {l : GatedLabel S} (hl : l ∈ ls)
    (hends : Ends i l) : g.Gone i := by
  induction h with
  | nil => cases hl
  | @snoc g g' ls l' hrun hstep ih =>
    rcases List.mem_append.mp hl with hl | hl
    · exact (ih hl).step hstep
    · obtain rfl := List.mem_singleton.mp hl
      have hsound := Run.sound hrun
      have hlive : ∀ t, g.inner.threads i = some t → i < g.inner.next := by
        intro t ht
        by_contra hle
        rw [hsound.fresh i (by omega)] at ht
        cases ht
      have hreleased : ∀ a, (g.release i a).inner.threads i = none := fun a => by
        simp only [release, Function.update_self]
      rcases hends with ⟨a, rfl⟩ | rfl
      · cases hstep with
        | done _ job _ hi => exact ⟨hlive _ hi, hreleased _⟩
      · cases hstep with
        | cancel _ job o k hi hdrop => exact ⟨hlive _ hi, hreleased _⟩

omit [DecidableEq σ] in
/-- A job that has gone is not inside, so it holds no permit. -/
theorem Gone.notMem_inside (h : g.Gone i) : i ∉ g.inside := by
  intro hmem
  obtain ⟨-, t, ht⟩ := mem_inside.mp hmem
  rw [h.2] at ht
  cases ht

-- ---------------------------------------------------------------------------
-- The bound is reached
-- ---------------------------------------------------------------------------

/-- A job that enters is inside, with all who were. -/
theorem inside_enter (job : S.Job) (b : σ) (waiting : List S.Job) :
    (g.enter job b waiting).inside = insert g.inner.next g.inside := by
  ext j
  rw [Finset.mem_insert, mem_inside, mem_inside]
  by_cases hj : j = g.inner.next
  · simp [enter, hj]
  · have hlt : j < g.inner.next + 1 ↔ j < g.inner.next := by omega
    simp [enter, hj, hlt]

/-- Where nobody waits and a permit is free, a job is admitted as soon as it comes. -/
theorem run_enter (job : S.Job) (hjob : S.accepts g.inner.shared job) (hwaiting : g.waiting = [])
    (hfree : 0 < g.available (service job)) :
    Run (Step service) g [.arrive job, .inner (.spawn g.inner.next job)]
      (g.enter job (service job) []) :=
  (Run.single (.arrive g job hjob)).snoc
    (.enter { g with waiting := job :: g.waiting } [] job [] (by rw [hwaiting]; rfl) hfree)

/-- Jobs that come one after the other and are admitted at once. -/
theorem exists_run_inside {max : Nat} {s : S.Shared} {jobs : List S.Job}
    (haccepts : ∀ job ∈ jobs, S.accepts s job)
    (hcount : ∀ a, (jobs.countP fun job => decide (service job = a)) ≤ max) :
    ∃ (ls : List (GatedLabel S)) (g : Gated S σ), Run (Step service) (start S σ max s) ls g ∧
      (∀ job, .arrive job ∈ ls → job ∈ jobs) ∧ g.inner.shared = s ∧ g.waiting = [] ∧
      g.inside.card = jobs.length ∧
      ∀ a, (g.insideOf service a).card = jobs.countP fun job => decide (service job = a) := by
  induction jobs with
  | nil => exact ⟨[], _, .nil _, fun _ => nofun, rfl, rfl, rfl, fun _ => rfl⟩
  | cons job jobs ih =>
    have hfewer : ∀ a, (jobs.countP fun job => decide (service job = a)) ≤ max := fun a =>
      (List.Sublist.countP_le (List.sublist_cons_self job jobs)).trans (hcount a)
    obtain ⟨ls, g, hrun, harrive, hshared, hwaiting, hinside, hof⟩ :=
      ih (fun j hj => haccepts j (List.mem_cons_of_mem _ hj)) hfewer
    have hsound := Run.sound hrun
    have hnew : g.inner.next ∉ g.inside := fun hmem =>
      absurd (mem_inside.mp hmem).1 (lt_irrefl _)
    have hnewOf : ∀ a, g.inner.next ∉ g.insideOf service a := fun a hmem =>
      absurd (mem_insideOf.mp hmem).1 (lt_irrefl _)
    have hfree : 0 < g.available (service job) := by
      have hpermits := hsound.permits (service job)
      have hone := hcount (service job)
      rw [List.countP_cons, if_pos (decide_eq_true rfl), ← hof] at hone
      omega
    have hjob : S.accepts g.inner.shared job := by
      rw [hshared]
      exact haccepts job List.mem_cons_self
    have henter := hrun.append (run_enter job hjob hwaiting hfree)
    refine ⟨_, _, henter, ?_, hshared, rfl, ?_, fun a => ?_⟩
    · intro j hj
      rcases List.mem_append.mp hj with hj | hj
      · exact List.mem_cons_of_mem _ (harrive j hj)
      · obtain rfl : j = job := by simpa using hj
        exact List.mem_cons_self
    · rw [inside_enter, Finset.card_insert_of_notMem hnew, hinside, List.length_cons]
    · rw [insideOf_enter hsound.fresh, List.countP_cons]
      by_cases ha : service job = a
      · rw [if_pos ha, if_pos (decide_eq_true ha), Finset.card_insert_of_notMem (hnewOf a), hof]
      · rw [if_neg ha, if_neg (by simpa using ha), hof, Nat.add_zero]

/-- A thread that is inside does what its program does, and everybody's permits stay
where they are. -/
theorem run_performs {job : S.Job} {p q : Prog Op Res α} {s' : S.Shared} {tr : List (Event Op Res)}
    (h : Performs S.exec p g.inner.shared tr q s') (hi : g.inner.threads i = some ⟨job, p⟩) :
    Run (Step service) g (tr.map fun e => .inner (.act i e))
      { g with inner :=
          ⟨s', Function.update g.inner.threads i (some ⟨job, q⟩), g.inner.next⟩ } := by
  generalize hs : g.inner.shared = s at h
  induction h generalizing g with
  | nil =>
    subst hs
    rw [← hi, Function.update_eq_self]
    exact .nil g
  | @cons o k r s t s' tr q hex _ ih =>
    subst hs
    let inner' : S.Config := ⟨t, Function.update g.inner.threads i (some ⟨job, k r⟩), g.inner.next⟩
    have hstep : Step service g (.inner (.act i ⟨o, r⟩)) { g with inner := inner' } :=
      .act g i ⟨o, r⟩ inner' (.act g.inner i job o k r t hi hex)
    have hrest := @ih { g with inner := inner' } (Function.update_self ..) rfl
    simp only [inner', Function.update_idem] at hrest
    exact (Run.single hstep).append hrest

end Gated

end Effects
