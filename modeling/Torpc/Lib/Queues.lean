import Mathlib.Data.List.Nodup
import Mathlib.Data.List.TakeWhile
import Torpc.Lib.Tasks

/-!
# Who waits for a lock

In the queue of a lock stand the tasks that wait for it, each once
(`queued_step`). So a task whose lock nobody holds waits for those before it in
the queue and for nobody else (`granted_iff`), and of these there are fewer and
fewer (`before_apply`).
-/

namespace Tasks

open Lts

namespace Machine

variable {M : Machine} {s s' : M.State} {l : M.Label} {i j : Nat}

structure Queued (s : M.State) : Prop where
  waiting : ∀ lock i mode, (i, mode) ∈ s.queue lock →
    ∃ task, s.tasks i = some task ∧ M.awaits task = some (lock, mode)
  listed : ∀ i task lock mode, s.tasks i = some task → M.awaits task = some (lock, mode) →
    (i, mode) ∈ s.queue lock
  once : ∀ lock, ((s.queue lock).map Prod.fst).Nodup

/-- At the start nobody waits and the queues are empty. -/
theorem queued_start (shared : M.Shared) : Queued (M.start shared) :=
  ⟨nofun, nofun, fun _ => List.nodup_nil⟩

-- ---------------------------------------------------------------------------
-- A queue as it changes
-- ---------------------------------------------------------------------------

namespace State

variable {queue : M.Lock → List (Nat × Mode)} {task : Option M.Task} {lock : M.Lock} {mode : Mode}

/-- In the queue afterwards is who was there, and the task itself if it waits for this lock.
-/
theorem mem_enqueue : (j, mode) ∈ enqueue queue i task lock ↔
    (j, mode) ∈ queue lock ∨ j = i ∧ ∃ t, task = some t ∧ M.awaits t = some (lock, mode) := by
  unfold enqueue
  cases hwait : task.bind M.awaits with
  | none =>
    refine ⟨.inl, fun h => h.resolve_right ?_⟩
    rintro ⟨-, t, rfl, ht⟩
    cases hwait.symm.trans ht
  | some w =>
    obtain ⟨lock', mode'⟩ := w
    obtain ⟨t, rfl, ht⟩ := Option.bind_eq_some_iff.mp hwait
    by_cases hlock : lock' = lock
    · subst hlock
      simp only [if_true, List.mem_append, List.mem_singleton, Prod.mk.injEq]
      constructor
      · rintro (h | ⟨rfl, rfl⟩)
        · exact .inl h
        · exact .inr ⟨rfl, t, rfl, ht⟩
      · rintro (h | ⟨rfl, t', ht', hmode⟩)
        · exact .inl h
        · cases ht'
          cases ht.symm.trans hmode
          exact .inr ⟨rfl, rfl⟩
    · simp only [if_neg hlock]
      refine ⟨.inl, fun h => h.resolve_right ?_⟩
      rintro ⟨-, t', ht', hmode⟩
      cases ht'
      cases ht.symm.trans hmode
      exact hlock rfl

/-- Everybody but the one who has been taken out is still in the queue. -/
theorem mem_dequeue : (j, mode) ∈ dequeue queue i lock ↔ (j, mode) ∈ queue lock ∧ j ≠ i := by
  simp [dequeue, List.mem_filter]

/-- What comes to a queue comes to its end. -/
theorem enqueue_longer : queue lock <+: enqueue queue i task lock := by
  unfold enqueue
  split
  · exact List.prefix_refl _
  · split
    · exact List.prefix_append _ _
    · exact List.prefix_refl _

/-- Nobody is in a queue twice, if the task was not in it before. -/
theorem nodup_enqueue (h : ((queue lock).map Prod.fst).Nodup)
    (hi : ∀ mode, (i, mode) ∉ queue lock) :
    ((enqueue queue i task lock).map Prod.fst).Nodup := by
  unfold enqueue
  split
  · exact h
  · split
    · rw [List.map_append, List.map_singleton, ← List.concat_eq_append]
      refine h.concat fun hmem => ?_
      obtain ⟨⟨i', mode'⟩, hmem, heq⟩ := List.mem_map.mp hmem
      cases heq
      exact hi mode' hmem
    · exact h

/-- Taking somebody out brings nobody in twice. -/
theorem nodup_dequeue (h : ((queue lock).map Prod.fst).Nodup) :
    ((dequeue queue i lock).map Prod.fst).Nodup :=
  h.sublist (List.filter_sublist.map _)

end State

-- ---------------------------------------------------------------------------
-- The invariant
-- ---------------------------------------------------------------------------

/-- A task that has just come stands in no queue. -/
theorem Queued.fresh (h : Queued s) (hfresh : Fresh s) (lock : M.Lock) (mode : Mode) :
    (s.next, mode) ∉ s.queue lock := by
  intro hmem
  obtain ⟨task, htask, -⟩ := h.waiting lock s.next mode hmem
  exact Nat.lt_irrefl _ (hfresh.lt htask)

/-- Each step keeps the queues in order: in them are just the tasks that wait for the lock,
each of them once. -/
theorem queued_step (h : Queued s) (hfresh : Fresh s) (hstep : Step M s l s') : Queued s' := by
  cases hstep with
  | call c =>
    constructor
    · intro lock i mode hmem
      rcases State.mem_enqueue.mp hmem with hmem | ⟨rfl, t, ht, hawaits⟩
      · obtain ⟨task, htask, hawaits⟩ := h.waiting lock i mode hmem
        exact ⟨task, by rw [s.add_ne (Nat.ne_of_lt (hfresh.lt htask)), htask], hawaits⟩
      · exact ⟨t, by rw [s.add_next, ht], hawaits⟩
    · intro i task lock mode hi hawaits
      refine State.mem_enqueue.mpr ?_
      rcases State.add_cases hi with ⟨rfl, rfl⟩ | ⟨-, hi⟩
      · exact .inr ⟨rfl, _, rfl, hawaits⟩
      · exact .inl (h.listed i task lock mode hi hawaits)
    · exact fun lock => State.nodup_enqueue (h.once lock) (h.fresh hfresh lock)
  | act k task ch eff hk hgrant hact =>
    have hlt := hfresh.lt hk
    constructor
    · intro lock i mode hmem
      rcases State.mem_enqueue.mp hmem with hmem | ⟨rfl, t, ht, hawaits⟩
      · rcases State.mem_enqueue.mp hmem with hmem | ⟨rfl, t, ht, hawaits⟩
        · obtain ⟨hmem, hne⟩ := State.mem_dequeue.mp hmem
          obtain ⟨t, ht, hawaits⟩ := h.waiting lock i mode hmem
          exact ⟨t, by rw [s.apply_ne hne (Nat.ne_of_lt (hfresh.lt ht)), ht], hawaits⟩
        · exact ⟨t, by rw [s.apply_self, ht], hawaits⟩
      · exact ⟨t, by rw [s.apply_next (Nat.ne_of_gt hlt), ht], hawaits⟩
    · intro i t lock mode hi hawaits
      refine State.mem_enqueue.mpr ?_
      rcases State.apply_cases hi with ⟨rfl, ht⟩ | ⟨rfl, ht⟩ | ⟨hne, hi⟩
      · exact .inl (State.mem_enqueue.mpr (.inr ⟨rfl, t, ht, hawaits⟩))
      · exact .inr ⟨rfl, t, ht, hawaits⟩
      · refine .inl (State.mem_enqueue.mpr (.inl (State.mem_dequeue.mpr ⟨?_, hne⟩)))
        exact h.listed i t lock mode hi hawaits
    · intro lock
      refine State.nodup_enqueue (State.nodup_enqueue (State.nodup_dequeue (h.once lock)) ?_) ?_
      · exact fun mode hmem => (State.mem_dequeue.mp hmem).2 rfl
      · intro mode hmem
        rcases State.mem_enqueue.mp hmem with hmem | ⟨heq, -⟩
        · exact h.fresh hfresh lock mode (State.mem_dequeue.mp hmem).1
        · exact Nat.ne_of_gt hlt heq
  | cancel k task hk haborted =>
    constructor
    · intro lock i mode hmem
      obtain ⟨hmem, hne⟩ := State.mem_dequeue.mp hmem
      obtain ⟨t, ht, hawaits⟩ := h.waiting lock i mode hmem
      exact ⟨t, by rw [s.remove_ne hne, ht], hawaits⟩
    · intro i t lock mode hi hawaits
      obtain ⟨hne, hi⟩ := State.remove_some hi
      exact State.mem_dequeue.mpr ⟨h.listed i t lock mode hi hawaits, hne⟩
    · exact fun lock => State.nodup_dequeue (h.once lock)

-- ---------------------------------------------------------------------------
-- Whose turn it is
-- ---------------------------------------------------------------------------

/-- The waiters before a task. -/
def State.before (s : M.State) (i : Nat) (lock : M.Lock) : List (Nat × Mode) :=
  (s.queue lock).takeWhile fun waiter => waiter.1 != i

/-- Nobody before the task is in its way. -/
def State.Next (s : M.State) (i : Nat) (lock : M.Lock) (mode : Mode) : Prop :=
  ∀ waiter ∈ s.before i lock, mode = .read ∧ waiter.2 = .read

variable {task : M.Task} {lock : M.Lock} {mode : Mode}

/-- A task that waits for a lock has it granted just if it is next in the queue and the lock
is free for it. -/
theorem Queued.granted_iff (h : Queued s) (hi : s.tasks i = some task)
    (hawaits : M.awaits task = some (lock, mode)) :
    s.granted i task = true ↔ s.Next i lock mode ∧ s.free lock mode = true := by
  have hlisted : (s.queue lock).any (fun waiter => waiter.1 == i) = true :=
    List.any_eq_true.mpr ⟨_, h.listed i task lock mode hi hawaits, beq_self_eq_true i⟩
  unfold State.granted State.Next State.before
  rw [hawaits]
  simp only [hlisted, Bool.true_and, Bool.and_eq_true, List.all_eq_true, decide_eq_true_eq]

/-- A lock that nobody holds is free. -/
theorem State.free_of_not_held (h : ∀ j task, s.tasks j = some task → M.holds task lock = none) :
    s.free lock mode = true := by
  unfold State.free
  rw [List.all_eq_true]
  intro j _
  cases hj : s.tasks j with
  | none => rfl
  | some t =>
    rw [Option.all_some, h j t hj]

/-- Those before a task in its queue are other tasks that wait for the same lock. -/
theorem Queued.of_mem_before (h : Queued s) {mode' : Mode} (hmem : (j, mode') ∈ s.before i lock) :
    j ≠ i ∧ ∃ task', s.tasks j = some task' ∧ M.awaits task' = some (lock, mode') := by
  refine ⟨?_, h.waiting lock j mode' (List.takeWhile_subset _ hmem)⟩
  have hne := List.mem_takeWhile_imp hmem
  exact fun heq => by simp [heq] at hne

/-- The first before a task is the first in the queue, and has nobody before it. -/
theorem State.next_of_first {mode' mode'' : Mode} {rest : List (Nat × Mode)}
    (h : s.before i lock = (j, mode') :: rest) : s.Next j lock mode'' := by
  have hfirst : (s.queue lock).head? = some (j, mode') := by
    have hhead := congrArg List.head? h
    rw [State.before, List.head?_takeWhile] at hhead
    exact (Option.filter_eq_some_iff.mp hhead).1
  obtain ⟨waiters, hq⟩ := List.head?_eq_some_iff.mp hfirst
  intro waiter hmem
  rw [State.before, hq, List.takeWhile_cons_of_neg (by simp)] at hmem
  cases hmem

/-- Where one task at most waits besides, one at most is before. -/
theorem Queued.before_le_one (h : Queued s)
    (hone : ∀ j j' t t' mode mode', s.tasks j = some t → s.tasks j' = some t' →
      M.awaits t = some (lock, mode) → M.awaits t' = some (lock, mode') → j ≠ i → j' ≠ i → j = j') :
    (s.before i lock).length ≤ 1 := by
  have hnodup : ((s.before i lock).map Prod.fst).Nodup :=
    (h.once lock).sublist ((List.takeWhile_sublist _).map _)
  match hb : s.before i lock with
  | [] => simp
  | [_] => simp
  | (j, mode) :: (j', mode') :: rest =>
    obtain ⟨hne, t, hj, hawaits⟩ := h.of_mem_before (hb ▸ List.mem_cons_self)
    obtain ⟨hne', t', hj', hawaits'⟩ :=
      h.of_mem_before (hb ▸ List.mem_cons_of_mem _ List.mem_cons_self)
    obtain rfl := hone j j' t t' mode mode' hj hj' hawaits hawaits' hne hne'
    rw [hb] at hnodup
    simp at hnodup

-- ---------------------------------------------------------------------------
-- Who is before a task, as the others go on
-- ---------------------------------------------------------------------------

section Before

variable {queue : List (Nat × Mode)}

/-- Who stands before a task does not depend on who stands behind it. -/
theorem takeWhile_longer {queue' : List (Nat × Mode)} (h : queue <+: queue')
    (hi : (i, mode) ∈ queue) :
    queue'.takeWhile (fun waiter => waiter.1 != i) =
      queue.takeWhile fun waiter => waiter.1 != i := by
  obtain ⟨more, rfl⟩ := h
  rw [List.takeWhile_append, if_neg]
  intro hlen
  have hall := (List.takeWhile_prefix _).eq_of_length hlen
  have hne := List.mem_takeWhile_imp (hall ▸ hi)
  simp at hne

/-- Somebody else who leaves the queue leaves it also among those who stand before a task.
-/
theorem takeWhile_ne_filter {k : Nat} (hik : i ≠ k) :
    (queue.filter fun waiter => waiter.1 != k).takeWhile (fun waiter => waiter.1 != i) =
      (queue.takeWhile fun waiter => waiter.1 != i).filter fun waiter => waiter.1 != k := by
  have hskip : (fun waiter : Nat × Mode => !(waiter.1 != k) || waiter.1 != i) =
      fun waiter => waiter.1 != i := by
    funext waiter
    by_cases hk : waiter.1 = k
    · simp [hk, Ne.symm hik]
    · simp [hk]
  rw [List.takeWhile_filter, hskip]

end Before

variable {k : Nat} {eff : Effect M.Shared M.Task M.Event}

/-- Another one steps: it is not before the task any more, and whoever comes to
wait comes behind it. -/
theorem State.before_apply (hi : (i, mode) ∈ s.queue lock) (hik : i ≠ k) :
    (s.apply k eff).before i lock = (s.before i lock).filter fun waiter => waiter.1 != k := by
  have hmem : (i, mode) ∈ dequeue s.queue k lock := mem_dequeue.mpr ⟨hi, hik⟩
  have hmem' : (i, mode) ∈ enqueue (dequeue s.queue k) k eff.task lock :=
    mem_enqueue.mpr (.inl hmem)
  unfold State.before State.apply
  dsimp only
  rw [takeWhile_longer enqueue_longer hmem', takeWhile_longer enqueue_longer hmem]
  exact takeWhile_ne_filter hik

/-- When another task is dropped, it is gone from those before this one, and nobody else is.
-/
theorem State.before_remove (hik : i ≠ k) :
    (s.remove k).before i lock = (s.before i lock).filter fun waiter => waiter.1 != k :=
  takeWhile_ne_filter hik

/-- Whose step it is. -/
def Label.actor : M.Label → Option Nat
  | .call _ _ => none
  | .act i _ _ => some i
  | .cancel i => some i

/-- A step of another task can only shorten what stands before this one, because those who
come stand behind. -/
theorem before_step (hstep : Step M s l s') (hk : l.actor = some k)
    (hi : (i, mode) ∈ s.queue lock) (hik : i ≠ k) :
    s'.before i lock = (s.before i lock).filter fun waiter => waiter.1 != k := by
  cases hstep with
  | call => cases hk
  | act j task ch eff =>
    cases hk
    exact State.before_apply hi hik
  | cancel j =>
    cases hk
    exact State.before_remove hik

/-- The step of one task leaves the others where they are. -/
theorem tasks_step (hstep : Step M s l s') (hk : l.actor = some k) (hi : i < s.next) (hik : i ≠ k) :
    s'.tasks i = s.tasks i := by
  cases hstep with
  | call => cases hk
  | act j task ch eff =>
    cases hk
    exact s.apply_ne hik (Nat.ne_of_lt hi) eff
  | cancel j =>
    cases hk
    exact s.remove_ne hik

/-- Only tasks that there are make steps. -/
theorem actor_step (hstep : Step M s l s') (hk : l.actor = some k) :
    ∃ task, s.tasks k = some task := by
  cases hstep with
  | call => cases hk
  | act j task ch eff hj =>
    cases hk
    exact ⟨task, hj⟩
  | cancel j task hj =>
    cases hk
    exact ⟨task, hj⟩

end Machine

end Tasks
