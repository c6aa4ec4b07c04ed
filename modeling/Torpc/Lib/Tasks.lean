import Mathlib.Data.List.Basic
import Torpc.Lib.Lts

/-!
# Tasks that wait for locks, spawn each other and can be aborted

An asynchronous program as the tasks it is made of. Between two awaits a task
runs on by itself; what it does there is one step, given by `Machine.act`. A task
may wait for a lock: it then stands in the lock's queue, and the locks are fair,
so it gets its turn when nobody before it is in the way. It may spawn another
task, which outlives it, and it may be aborted, which takes effect at one of its
awaits and touches nothing it has spawned. Ids are handed out in order and never
reused.

Main results:

* `run_kept` — what a task's own steps preserve holds of it as long as it lives;
* `exclusive_step` — a lock that is only ever taken for writing has one holder.
-/

namespace Tasks

open Lts

inductive Mode where
  | read
  | write
  deriving DecidableEq, Repr

/-- What one step of a task does. -/
structure Effect (Shared Task Event : Type) where
  shared : Shared
  /-- where the task waits next, if it goes on -/
  task : Option Task
  spawned : Option Task
  event : Event

structure Machine where
  Shared : Type
  Task : Type
  Lock : Type
  /-- What can be called from outside. -/
  Call : Type
  /-- What a task leaves open: the answer of its surroundings. -/
  Choice : Type
  Event : Type
  enter : Call → Task
  /-- The lock that a task is waiting for. -/
  awaits : Task → Option (Lock × Mode)
  /-- A lock held by a task while it waits for something else. -/
  holds : Task → Lock → Option Mode
  /-- A step, given the tasks there are and the id a spawned task would get. -/
  act : Shared → (Nat → Option Task) → Nat → Task → Choice → Option (Effect Shared Task Event)
  /-- The task has been told to stop. -/
  aborted : Shared → Nat → Bool
  lockEq : DecidableEq Lock

namespace Machine

instance (M : Machine) : DecidableEq M.Lock := M.lockEq

structure State (M : Machine) where
  shared : M.Shared
  tasks : Nat → Option M.Task
  next : Nat
  queue : M.Lock → List (Nat × Mode)

inductive Label (M : Machine) where
  | call (i : Nat) (c : M.Call)
  | act (i : Nat) (e : M.Event) (spawned : Option Nat)
  | cancel (i : Nat)

variable {M : Machine}

namespace State

/-- Nobody's hold on the lock is in the way. -/
def free (s : M.State) (lock : M.Lock) (mode : Mode) : Bool :=
  (List.range s.next).all fun j => (s.tasks j).all fun t =>
    match M.holds t lock with
    | none => true
    | some held => decide (mode = .read ∧ held = .read)

/-- It is a task's turn: nobody before it in the queue is in the way either. -/
def granted (s : M.State) (i : Nat) (task : M.Task) : Bool :=
  match M.awaits task with
  | none => true
  | some (lock, mode) =>
    let before := (s.queue lock).takeWhile fun waiter => waiter.1 != i
    (s.queue lock).any (fun waiter => waiter.1 == i) &&
      before.all (fun waiter => decide (mode = .read ∧ waiter.2 = .read)) && s.free lock mode

/-- The queue of a lock once a task has come to wait. -/
def enqueue (queue : M.Lock → List (Nat × Mode)) (i : Nat) (task : Option M.Task) (lock : M.Lock) :
    List (Nat × Mode) :=
  match task.bind M.awaits with
  | none => queue lock
  | some (l, mode) => if l = lock then queue lock ++ [(i, mode)] else queue lock

/-- And once it has stopped waiting. -/
def dequeue (queue : M.Lock → List (Nat × Mode)) (i : Nat) (lock : M.Lock) : List (Nat × Mode) :=
  (queue lock).filter fun waiter => waiter.1 != i

/-- A task called from outside. -/
def add (s : M.State) (task : M.Task) : M.State where
  shared := s.shared
  tasks j := if j = s.next then some task else s.tasks j
  next := s.next + 1
  queue := enqueue s.queue s.next (some task)

/-- Task `i` has made a step. -/
def apply (s : M.State) (i : Nat) (eff : Effect M.Shared M.Task M.Event) : M.State where
  shared := eff.shared
  tasks j := if j = i then eff.task else if j = s.next then eff.spawned else s.tasks j
  next := if eff.spawned.isSome then s.next + 1 else s.next
  queue := enqueue (enqueue (dequeue s.queue i) i eff.task) s.next eff.spawned

/-- Task `i` has been dropped. -/
def remove (s : M.State) (i : Nat) : M.State where
  shared := s.shared
  tasks j := if j = i then none else s.tasks j
  next := s.next
  queue := dequeue s.queue i

end State

inductive Step (M : Machine) : M.State → M.Label → M.State → Prop where
  | call (s : M.State) (c : M.Call) : Step M s (.call s.next c) (s.add (M.enter c))
  | act (s : M.State) (i : Nat) (task : M.Task) (ch : M.Choice)
      (eff : Effect M.Shared M.Task M.Event) (hi : s.tasks i = some task)
      (hgrant : s.granted i task = true)
      (hact : M.act s.shared s.tasks s.next task ch = some eff) :
      Step M s (.act i eff.event (eff.spawned.map fun _ => s.next)) (s.apply i eff)
  | cancel (s : M.State) (i : Nat) (task : M.Task) (hi : s.tasks i = some task)
      (h : M.aborted s.shared i = true) : Step M s (.cancel i) (s.remove i)

/-- Before anything has been called. -/
def start (M : Machine) (shared : M.Shared) : M.State := ⟨shared, fun _ => none, 0, fun _ => []⟩

variable {s s' : M.State} {l : M.Label} {ls : List M.Label} {i j : Nat}

/-- Whose step a label is, and where it leads. -/
theorem step_act {e : M.Event} {spawned : Option Nat} (h : Step M s (.act i e spawned) s') :
    ∃ task ch eff, s.tasks i = some task ∧ s.granted i task = true ∧
      M.act s.shared s.tasks s.next task ch = some eff ∧ eff.event = e ∧
      (eff.spawned.map fun _ => s.next) = spawned ∧ s' = s.apply i eff := by
  cases h with
  | act i task ch eff hi hgrant hact =>
    exact ⟨task, ch, eff, hi, hgrant, hact, rfl, rfl, rfl⟩

/-- A call takes the next number, and its task is added. -/
theorem step_call {c : M.Call} (h : Step M s (.call i c) s') :
    i = s.next ∧ s' = s.add (M.enter c) := by
  cases h with
  | call c => exact ⟨rfl, rfl⟩

/-- After a step the task that has made it is what it goes on as, if it does. -/
theorem State.apply_self (s : M.State) (i : Nat) (eff : Effect M.Shared M.Task M.Event) :
    (s.apply i eff).tasks i = eff.task := if_pos rfl

/-- A step leaves the other tasks as they are. -/
theorem State.apply_ne (s : M.State) {i j : Nat} (hij : j ≠ i) (hj : j ≠ s.next)
    (eff : Effect M.Shared M.Task M.Event) : (s.apply i eff).tasks j = s.tasks j := by
  simp only [State.apply]
  rw [if_neg hij, if_neg hj]

/-- A task that a step spawns has the next number. -/
theorem State.apply_next (s : M.State) {i : Nat} (hi : s.next ≠ i)
    (eff : Effect M.Shared M.Task M.Event) : (s.apply i eff).tasks s.next = eff.spawned := by
  unfold State.apply
  exact (if_neg hi).trans (if_pos rfl)

/-- A task that is added has the next number. -/
theorem State.add_next (s : M.State) (task : M.Task) : (s.add task).tasks s.next = some task :=
  if_pos rfl

/-- Adding a task leaves the others as they were. -/
theorem State.add_ne (s : M.State) (hj : j ≠ s.next) (task : M.Task) :
    (s.add task).tasks j = s.tasks j := if_neg hj

/-- Dropping a task leaves the others as they are. -/
theorem State.remove_ne (s : M.State) (hj : j ≠ i) : (s.remove i).tasks j = s.tasks j := if_neg hj

/-- Where the tasks after a step come from. -/
theorem State.apply_cases {s : M.State} {i j : Nat} {eff : Effect M.Shared M.Task M.Event}
    {task : M.Task} (h : (s.apply i eff).tasks j = some task) :
    (j = i ∧ eff.task = some task) ∨ (j = s.next ∧ eff.spawned = some task) ∨
      (j ≠ i ∧ s.tasks j = some task) := by
  by_cases hij : j = i
  · subst hij
    rw [s.apply_self] at h
    exact .inl ⟨rfl, h⟩
  · by_cases hj : j = s.next
    · subst hj
      rw [s.apply_next hij] at h
      exact .inr (.inl ⟨rfl, h⟩)
    · rw [s.apply_ne hij hj] at h
      exact .inr (.inr ⟨hij, h⟩)

/-- Whoever is there after a task has been dropped is another one, and was there before. -/
theorem State.remove_some {s : M.State} {i j : Nat} {task : M.Task}
    (h : (s.remove i).tasks j = some task) : j ≠ i ∧ s.tasks j = some task := by
  by_cases hij : j = i
  · simp [State.remove, hij] at h
  · rw [s.remove_ne hij] at h
    exact ⟨hij, h⟩

/-- After a call a task is the new one or one of before. -/
theorem State.add_cases {s : M.State} {j : Nat} {task task' : M.Task}
    (h : (s.add task).tasks j = some task') :
    (j = s.next ∧ task' = task) ∨ (j ≠ s.next ∧ s.tasks j = some task') := by
  by_cases hj : j = s.next
  · subst hj
    rw [s.add_next] at h
    exact .inl ⟨rfl, (Option.some.inj h).symm⟩
  · rw [s.add_ne hj] at h
    exact .inr ⟨hj, h⟩

/-- Ids that have not been handed out belong to nobody. -/
def Fresh (s : M.State) : Prop := ∀ i, s.next ≤ i → s.tasks i = none

/-- A task that is there has a number that has been given away. -/
theorem Fresh.lt (h : Fresh s) {task : M.Task} (hi : s.tasks i = some task) : i < s.next := by
  by_contra hge
  rw [h i (by omega)] at hi
  cases hi

/-- Numbers from the next one on are free, and stay so until they are given away. -/
theorem fresh_step (h : Fresh s) (hstep : Step M s l s') : Fresh s' := by
  intro j hj
  cases hstep with
  | call c =>
    have hj : s.next + 1 ≤ j := hj
    rw [s.add_ne (by omega)]
    exact h j (by omega)
  | act i task ch eff hi hgrant hact =>
    have hlt := h.lt hi
    have hj : (if eff.spawned.isSome then s.next + 1 else s.next) ≤ j := hj
    by_cases hspawn : eff.spawned.isSome = true
    · rw [if_pos hspawn] at hj
      rw [s.apply_ne (by omega) (by omega)]
      exact h j (by omega)
    · -- nothing spawned: the next id is still free
      rw [if_neg hspawn] at hj
      simp only [State.apply]
      rw [if_neg (by omega)]
      split
      · simpa using hspawn
      · exact h j hj
  | cancel i task hi haborted =>
    simp only [State.remove]
    split
    · rfl
    · exact h j hj

/-- At the start all numbers are free. -/
theorem fresh_start (shared : M.Shared) : Fresh (M.start shared) := fun _ _ => rfl

/-- A step gives away one number at most, and takes none back. -/
theorem State.next_le_apply (s : M.State) (i : Nat) (eff : Effect M.Shared M.Task M.Event) :
    s.next ≤ (s.apply i eff).next := by
  simp only [State.apply]
  split <;> omega

/-- Numbers are given away in order, so that none is given twice. -/
theorem next_le_of_step (h : Step M s l s') : s.next ≤ s'.next := by
  cases h with
  | call c => exact Nat.le_succ _
  | act i task ch eff hi hgrant hact => exact s.next_le_apply i eff
  | cancel i task hi haborted => exact Nat.le_refl _

/-- So the next number does not become less in a run. -/
theorem run_next_le (h : Run (Step M) s ls s') : s.next ≤ s'.next := by
  induction h with
  | nil => exact Nat.le_refl _
  | snoc _ hstep ih => exact Nat.le_trans ih (next_le_of_step hstep)

/-- The tasks that a history has spawned. -/
def Spawned (i : Nat) (ls : List M.Label) : Prop := ∃ j e, .act j e (some i) ∈ ls

/-- A task that has been spawned in a run has had its number since. -/
theorem run_spawned_lt (h : Run (Step M) s ls s') (hi : Spawned i ls) : i < s'.next := by
  obtain ⟨j, e, hmem⟩ := hi
  obtain ⟨pre, post, rfl⟩ := List.append_of_mem hmem
  obtain ⟨t, t', -, hstep, hpost⟩ := h.at_label
  refine Nat.lt_of_lt_of_le ?_ (run_next_le hpost)
  obtain ⟨task, ch, eff, -, -, -, -, hspawn, rfl⟩ := step_act hstep
  obtain ⟨task', htask, rfl⟩ := Option.map_eq_some_iff.mp hspawn
  simp [State.apply, htask]

/-- What the steps of one task preserve, from a state in which its id has been
handed out: it holds of the task as long as there is one. -/
theorem run_kept {P : M.Task → Prop} (h : Run (Step M) s ls s') (hi : i < s.next)
    (hs : ∀ task, s.tasks i = some task → P task)
    (hact : ∀ (t : M.State) task ch eff, P task → M.act t.shared t.tasks t.next task ch = some eff →
      ∀ task', eff.task = some task' → P task') :
    i < s'.next ∧ ∀ task, s'.tasks i = some task → P task := by
  induction h with
  | nil => exact ⟨hi, hs⟩
  | @snoc t t' ls l hrun hstep ih =>
    obtain ⟨hlt, hP⟩ := ih
    refine ⟨Nat.lt_of_lt_of_le hlt (next_le_of_step hstep), fun task htask => ?_⟩
    cases hstep with
    | call c =>
      rw [t.add_ne (by omega)] at htask
      exact hP task htask
    | act j task' ch eff hj hgrant heff =>
      by_cases hij : i = j
      · -- its own step
        subst hij
        rw [t.apply_self] at htask
        exact hact t task' ch eff (hP task' hj) heff task htask
      · rw [t.apply_ne hij (by omega)] at htask
        exact hP task htask
    | cancel j task' hj haborted =>
      by_cases hij : i = j
      · subst hij
        simp [State.remove] at htask
      · rw [t.remove_ne hij] at htask
        exact hP task htask

/-- So it is for a task called from outside. -/
theorem run_called {P : M.Task → Prop} {c : M.Call} (h : Run (Step M) s ls s')
    (hcall : .call i c ∈ ls) (henter : P (M.enter c))
    (hact : ∀ (t : M.State) task ch eff, P task → M.act t.shared t.tasks t.next task ch = some eff →
      ∀ task', eff.task = some task' → P task') :
    i < s'.next ∧ ∀ task, s'.tasks i = some task → P task := by
  obtain ⟨pre, post, rfl⟩ := List.append_of_mem hcall
  obtain ⟨t, t', -, hstep, hpost⟩ := h.at_label
  obtain ⟨rfl, rfl⟩ := step_call hstep
  refine run_kept hpost (Nat.lt_succ_self _) (fun task htask => ?_) hact
  rcases State.add_cases htask with ⟨-, rfl⟩ | ⟨hne, -⟩
  · exact henter
  · exact absurd rfl hne

-- ---------------------------------------------------------------------------
-- Locks
-- ---------------------------------------------------------------------------

/-- Holding a lock for writing takes having waited for it. -/
def Disciplined (M : Machine) (lock : M.Lock) : Prop :=
  (∀ task, M.holds task lock ≠ some .read) ∧ (∀ c, M.holds (M.enter c) lock = none) ∧
  ∀ (shared : M.Shared) tasks next task ch eff, M.act shared tasks next task ch = some eff →
    (∀ task', eff.spawned = some task' → M.holds task' lock = none) ∧
    ∀ task', eff.task = some task' → M.holds task' lock ≠ none →
      M.holds task lock ≠ none ∨ M.awaits task = some (lock, .write)

/-- At most one task holds the lock. -/
def Exclusive (s : M.State) (lock : M.Lock) : Prop :=
  ∀ i j task task', s.tasks i = some task → s.tasks j = some task' →
    M.holds task lock ≠ none → M.holds task' lock ≠ none → i = j

/-- A lock that is granted for writing is held by nobody. -/
theorem State.not_held_of_granted {lock : M.Lock} {task task' : M.Task} (hfresh : Fresh s)
    (h : s.granted i task = true) (hawaits : M.awaits task = some (lock, .write))
    (hj : s.tasks j = some task') : M.holds task' lock = none := by
  unfold State.granted at h
  rw [hawaits] at h
  simp only [Bool.and_eq_true, State.free, List.all_eq_true, List.mem_range] at h
  have hfree := h.2 j (hfresh.lt hj)
  rw [hj, Option.all_some] at hfree
  cases hheld : M.holds task' lock with
  | none => rfl
  | some held => simp [hheld] at hfree

/-- What holds of the one that steps and of the others gives exclusion again. -/
theorem exclusive_step {lock : M.Lock} (hd : Disciplined M lock) (hfresh : Fresh s)
    (h : Exclusive s lock) (hstep : Step M s l s') : Exclusive s' lock := by
  obtain ⟨-, henter, hact⟩ := hd
  cases hstep with
  | call c =>
    -- a new call holds nothing
    have hold : ∀ j task, (s.add (M.enter c)).tasks j = some task → M.holds task lock ≠ none →
        s.tasks j = some task := by
      intro j task hj hheld
      rcases State.add_cases hj with ⟨-, rfl⟩ | ⟨-, hj⟩
      · exact absurd (henter c) hheld
      · exact hj
    intro i j task task' hi hj hheld hheld'
    exact h i j task task' (hold i task hi hheld) (hold j task' hj hheld') hheld hheld'
  | act k task ch eff hk hgrant heff =>
    obtain ⟨hspawn, hnext⟩ := hact _ _ _ _ _ _ heff
    have hold : ∀ j task', (s.apply k eff).tasks j = some task' → M.holds task' lock ≠ none →
        j ≠ k → s.tasks j = some task' := by
      intro j task' hj hheld hjk
      rcases State.apply_cases hj with ⟨rfl, -⟩ | ⟨-, hs⟩ | ⟨-, hj⟩
      · exact absurd rfl hjk
      · exact absurd (hspawn task' hs) hheld
      · exact hj
    -- whoever else holds it, held it before; then the stepping task did not take it now
    have hother : ∀ task₁ j task₂, (s.apply k eff).tasks k = some task₁ →
        (s.apply k eff).tasks j = some task₂ → M.holds task₁ lock ≠ none →
        M.holds task₂ lock ≠ none → j = k := by
      intro task₁ j task₂ hk₁ hj₂ hheld₁ hheld₂
      by_contra hjk
      have hj := hold j task₂ hj₂ hheld₂ hjk
      rw [s.apply_self] at hk₁
      rcases hnext task₁ hk₁ hheld₁ with hheld | hawaits
      · exact hjk (h j k task₂ task hj hk hheld₂ hheld)
      · exact hheld₂ (s.not_held_of_granted hfresh hgrant hawaits hj)
    intro i j task₁ task₂ hi hj hheld₁ hheld₂
    by_cases hik : i = k
    · subst hik
      exact (hother task₁ j task₂ hi hj hheld₁ hheld₂).symm
    · by_cases hjk : j = k
      · subst hjk
        exact hother task₂ i task₁ hj hi hheld₂ hheld₁
      · exact h i j task₁ task₂ (hold i task₁ hi hheld₁ hik) (hold j task₂ hj hheld₂ hjk)
          hheld₁ hheld₂
  | cancel k task hk haborted =>
    intro i j task₁ task₂ hi hj
    exact h i j task₁ task₂ (State.remove_some hi).2 (State.remove_some hj).2

/-- Task `i` waits for a lock that task `j` holds. -/
def State.WaitsFor (s : M.State) (i j : Nat) : Prop :=
  ∃ task task' lock mode held, s.tasks i = some task ∧ M.awaits task = some (lock, mode) ∧
    s.tasks j = some task' ∧ M.holds task' lock = some held ∧ ¬ (mode = .read ∧ held = .read)

/-- There are tasks of kind `P`, and each waits for a lock that another one holds. -/
def State.Deadlocked (s : M.State) (P : M.Task → Prop) : Prop :=
  (∃ i task, s.tasks i = some task ∧ P task) ∧
    ∀ i task, s.tasks i = some task → P task →
      ∃ j task', s.tasks j = some task' ∧ P task' ∧ s.WaitsFor i j

-- ---------------------------------------------------------------------------
-- Running a machine by hand
-- ---------------------------------------------------------------------------

instance [DecidableEq M.Call] [DecidableEq M.Event] : DecidableEq M.Label
  | .call i c, .call j d => decidable_of_iff (i = j ∧ c = d) (by simp)
  | .act i e sp, .act j f sq => decidable_of_iff (i = j ∧ e = f ∧ sp = sq) (by simp)
  | .cancel i, .cancel j => decidable_of_iff (i = j) (by simp)
  | .call _ _, .act _ _ _ | .call _ _, .cancel _ | .act _ _ _, .call _ _
  | .act _ _ _, .cancel _ | .cancel _, .call _ _ | .cancel _, .act _ _ _ => isFalse nofun

/-- Everything that a step leaves open. -/
inductive Action (M : Machine) where
  | call (c : M.Call)
  | act (i : Nat) (ch : M.Choice)
  | cancel (i : Nat)

def perform (s : M.State) : M.Action → Option (M.Label × M.State)
  | .call c => some (.call s.next c, s.add (M.enter c))
  | .act i ch =>
    match s.tasks i with
    | none => none
    | some task =>
      if s.granted i task then
        (M.act s.shared s.tasks s.next task ch).map fun eff =>
          (.act i eff.event (eff.spawned.map fun _ => s.next), s.apply i eff)
      else none
  | .cancel i =>
    if (s.tasks i).isSome && M.aborted s.shared i then some (.cancel i, s.remove i) else none

/-- What the executable step does is a step of the machine. -/
theorem step_of_perform {a : M.Action} (h : perform s a = some (l, s')) : Step M s l s' := by
  cases a with
  | call c =>
    cases h
    exact .call s c
  | act i ch =>
    simp only [perform] at h
    split at h
    · cases h
    · next task hi =>
      split at h
      · next hgrant =>
        obtain ⟨eff, hact, heff⟩ := Option.map_eq_some_iff.mp h
        cases heff
        exact .act s i task ch eff hi hgrant hact
      · cases h
  | cancel i =>
    simp only [perform] at h
    split at h
    · next hcond =>
      cases h
      simp only [Bool.and_eq_true] at hcond
      obtain ⟨task, hi⟩ := Option.isSome_iff_exists.mp hcond.1
      exact .cancel s i task hi hcond.2
    · cases h

/-- The actions in order, as long as every step passes the test. -/
def performAll (ok : M.State → M.Label → Bool) : M.State → List M.Action →
    Option (List M.Label × M.State)
  | s, [] => some ([], s)
  | s, a :: as =>
    match perform s a with
    | none => none
    | some (l, s') =>
      if ok s l then (performAll ok s' as).map fun rest => (l :: rest.1, rest.2) else none

/-- Actions performed in a row make a run, each of whose steps has passed the check. -/
theorem run_of_performAll {ok : M.State → M.Label → Bool} {as : List M.Action}
    (h : performAll ok s as = some (ls, s')) :
    Run (fun s l s' => Step M s l s' ∧ ok s l = true) s ls s' := by
  induction as generalizing s ls with
  | nil =>
    cases h
    exact .nil _
  | cons a as ih =>
    simp only [performAll] at h
    split at h
    · cases h
    · next l t hstep =>
      split at h
      · next hok =>
        obtain ⟨rest, hrest, heq⟩ := Option.map_eq_some_iff.mp h
        cases heq
        have hfirst : Run (fun s l s' => Step M s l s' ∧ ok s l = true) s [l] t :=
          .single ⟨step_of_perform hstep, hok⟩
        exact hfirst.append (ih hrest)
      · cases h

end Machine

end Tasks
