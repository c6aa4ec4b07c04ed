import Torpc.Lib.Lts
import Torpc.Lib.Prog
import Mathlib.Logic.Function.Basic

/-!
# Effects — many programs over one shared state

A server runs one program per request, all of them against the same shared
state, interleaved at their operations in any order. `System` collects what
has to be said about such a server: the jobs it accepts and the program of
each, what an operation does to the shared state and which answers it can get,
what the surroundings do between operations, and when a program that waits may
be dropped (a timeout tears down the future at an await point; what it has
done stays done).

The result everything else uses is the *projection*: whatever the
interleaving, the operations one thread has performed form a trace of the
program of its job (`run_thread`, `run_act`, `run_done`, `run_cancel`), and a thread
that was dropped or has returned performs nothing any more (`run_silent`).
-/

namespace Effects

open Lts

/-- A server of interleaved programs. -/
structure System (Op : Type) (Res : Op → Type) (α : Type) where
  /-- What the threads share. -/
  Shared : Type
  /-- What a thread is started for. -/
  Job : Type
  /-- The program of a job. -/
  prog : Job → Prog Op Res α
  /-- The jobs that can arrive in a shared state. -/
  accepts : Shared → Job → Prop
  /-- `exec s o r s'`: performed at `s`, operation `o` is answered `r` and leaves `s'`. -/
  exec : Shared → (o : Op) → Res o → Shared → Prop
  /-- Steps of the surroundings. -/
  env : Shared → Shared → Prop
  /-- A thread about to perform this operation may be dropped. -/
  mayCancel : Shared → Job → Op → Prop

namespace System

variable {Op : Type} {Res : Op → Type} {α : Type}

/-- A live thread: its job and what is left of its program. -/
structure Thread (S : System Op Res α) where
  job : S.Job
  rest : Prog Op Res α

/-- A state of the server. Thread ids are handed out in order and never reused. -/
structure Config (S : System Op Res α) where
  shared : S.Shared
  threads : Nat → Option S.Thread
  next : Nat

/-- What happens in one step. -/
inductive Label (S : System Op Res α) where
  | spawn (i : Nat) (job : S.Job)
  | act (i : Nat) (e : Event Op Res)
  | done (i : Nat) (a : α)
  | cancel (i : Nat)
  | env

variable {S : System Op Res α}

/-- The server before its first request. -/
def start (S : System Op Res α) (s : S.Shared) : S.Config := ⟨s, fun _ => none, 0⟩

/-- One step of the server. -/
inductive Step (S : System Op Res α) : S.Config → S.Label → S.Config → Prop where
  | spawn (c : S.Config) (job : S.Job) (h : S.accepts c.shared job) :
      Step S c (.spawn c.next job)
        ⟨c.shared, Function.update c.threads c.next (some ⟨job, S.prog job⟩), c.next + 1⟩
  | act (c : S.Config) (i : Nat) (job : S.Job) (o : Op) (k : Res o → Prog Op Res α)
      (r : Res o) (s' : S.Shared) (hi : c.threads i = some ⟨job, .op o k⟩)
      (h : S.exec c.shared o r s') :
      Step S c (.act i ⟨o, r⟩)
        ⟨s', Function.update c.threads i (some ⟨job, k r⟩), c.next⟩
  | done (c : S.Config) (i : Nat) (job : S.Job) (a : α)
      (hi : c.threads i = some ⟨job, .pure a⟩) :
      Step S c (.done i a) ⟨c.shared, Function.update c.threads i none, c.next⟩
  | cancel (c : S.Config) (i : Nat) (job : S.Job) (o : Op) (k : Res o → Prog Op Res α)
      (hi : c.threads i = some ⟨job, .op o k⟩) (h : S.mayCancel c.shared job o) :
      Step S c (.cancel i) ⟨c.shared, Function.update c.threads i none, c.next⟩
  | env (c : S.Config) (s' : S.Shared) (h : S.env c.shared s') :
      Step S c .env ⟨s', c.threads, c.next⟩

/-- The operations thread `i` performs in a history, in order. -/
def eventsOf (i : Nat) : List S.Label → List (Event Op Res)
  | [] => []
  | .act j e :: ls => if j = i then e :: eventsOf i ls else eventsOf i ls
  | _ :: ls => eventsOf i ls

/-- The events of a thread in a run are those in its parts, in order. -/
theorem eventsOf_append (i : Nat) (ls ls' : List S.Label) :
    eventsOf i (ls ++ ls') = eventsOf i ls ++ eventsOf i ls' := by
  induction ls with
  | nil => rfl
  | cons l ls ih =>
    cases l with
    | act j e =>
      simp only [List.cons_append, eventsOf]
      split <;> simp [ih]
    | _ => simpa only [List.cons_append, eventsOf] using ih

@[simp] theorem eventsOf_act_self (i : Nat) (e : Event Op Res) :
    eventsOf (S := S) i [.act i e] = [e] := by simp [eventsOf]

/-- A thread that acts on its own has just these events. -/
@[simp] theorem eventsOf_map_act (i : Nat) (tr : List (Event Op Res)) :
    eventsOf (S := S) i (tr.map (.act i)) = tr := by
  induction tr with
  | nil => rfl
  | cons e tr ih => simp [eventsOf, ih]

/-- What another thread does is no event of this one. -/
theorem eventsOf_act_ne {i j : Nat} (h : j ≠ i) (e : Event Op Res) :
    eventsOf (S := S) i [.act j e] = [] := by simp [eventsOf, h]

/-- An event is one of a thread's just if the run has the step in which the thread does it.
-/
theorem mem_eventsOf {i : Nat} {e : Event Op Res} {ls : List S.Label} :
    e ∈ eventsOf i ls ↔ .act i e ∈ ls := by
  induction ls with
  | nil => simp [eventsOf]
  | cons l ls ih =>
    cases l with
    | act j e' =>
      by_cases hj : j = i
      · subst hj
        simp [eventsOf, ih]
      · simp [eventsOf, hj, ih, Ne.symm hj]
    | _ => simpa [eventsOf] using ih

-- ---------------------------------------------------------------------------
-- Threads and their programs
-- ---------------------------------------------------------------------------

/-- What is known of a thread id after a run: it has not been handed out and
has done nothing, or it was started for a job and its operations are a trace of
that job's program, ending in what is left of it. -/
structure Known (ls : List S.Label) (c : S.Config) (i : Nat) : Prop where
  unborn : c.next ≤ i → c.threads i = none ∧ eventsOf i ls = []
  born : i < c.next → ∃ job q, .spawn i job ∈ ls ∧ Trace (S.prog job) (eventsOf i ls) q ∧
    (∀ t, c.threads i = some t → t = ⟨job, q⟩)

/-- Before the first step no thread has been started, and nothing is known of any. -/
theorem known_start (s : S.Shared) (i : Nat) : Known [] (S.start s) i :=
  ⟨fun _ => ⟨rfl, rfl⟩, fun h => absurd h (Nat.not_lt_zero i)⟩

/-- A step that is not an operation of thread `i`, and leaves `i` as it was or
removes it, preserves what is known of `i`. -/
theorem Known.frame {ls : List S.Label} {c c' : S.Config} {l : S.Label} {i : Nat}
    (h : Known ls c i) (hl : eventsOf i [l] = []) (hnext : c'.next = c.next)
    (ht : c'.threads i = c.threads i ∨ c'.threads i = none) : Known (ls ++ [l]) c' i := by
  refine ⟨fun hi => ?_, fun hi => ?_⟩
  · rw [hnext] at hi
    obtain ⟨h₁, h₂⟩ := h.unborn hi
    refine ⟨?_, by rw [eventsOf_append, h₂, hl]; rfl⟩
    rcases ht with ht | ht <;> simp [ht, h₁]
  · rw [hnext] at hi
    obtain ⟨job, q, hsp, htr, hq⟩ := h.born hi
    refine ⟨job, q, List.mem_append_left _ hsp, ?_, fun t htt => ?_⟩
    · rw [eventsOf_append, hl, List.append_nil]
      exact htr
    · rcases ht with ht | ht
      · exact hq t (ht ▸ htt)
      · rw [ht] at htt
        cases htt

/-- Each step keeps what is known: the thread that acts has one event more and the program
that is left of it, and the others stay as they were. -/
theorem Known.step {ls : List S.Label} {c c' : S.Config} {l : S.Label}
    (h : ∀ i, Known ls c i) (hstep : Step S c l c') (i : Nat) : Known (ls ++ [l]) c' i := by
  cases hstep with
  | spawn job hadm =>
    by_cases hi : i = c.next
    · -- the new thread: nothing performed yet
      subst hi
      obtain ⟨-, hev⟩ := (h c.next).unborn (Nat.le_refl _)
      refine ⟨fun hle => absurd hle (by simp), fun _ => ⟨job, S.prog job, by simp, ?_, ?_⟩⟩
      · rw [eventsOf_append, hev]
        exact .nil _
      · intro t ht
        simpa using ht.symm
    · -- any other id is what it was before
      refine ⟨fun hle => ?_, fun hlt => ?_⟩
      · obtain ⟨h₁, h₂⟩ := (h i).unborn (by simp only at hle; omega)
        exact ⟨by simp [Function.update_of_ne hi, h₁], by rw [eventsOf_append, h₂]; rfl⟩
      · obtain ⟨job', q, hsp, htr, hq⟩ := (h i).born (by simp only at hlt; omega)
        refine ⟨job', q, List.mem_append_left _ hsp, ?_, fun t ht => hq t ?_⟩
        · rw [eventsOf_append]
          simpa [eventsOf] using htr
        · simpa [Function.update_of_ne hi] using ht
  | act j job o k r s' hj hex =>
    by_cases hi : j = i
    · -- the thread itself: one more event of its trace
      subst hi
      refine ⟨fun hle => ?_, fun hlt => ?_⟩
      · rw [((h j).unborn hle).1] at hj
        cases hj
      · obtain ⟨job', q, hsp, htr, hq⟩ := (h j).born hlt
        obtain ⟨rfl, rfl⟩ : job = job' ∧ Prog.op o k = q := by
          have := hq _ hj
          simp only [Thread.mk.injEq] at this
          exact this
        refine ⟨job, k r, List.mem_append_left _ hsp, ?_, fun t ht => by simpa using ht.symm⟩
        rw [eventsOf_append, eventsOf_act_self]
        exact htr.snoc r
    · exact (h i).frame (eventsOf_act_ne hi _) rfl
        (Or.inl (by simp [Function.update_of_ne (Ne.symm hi)]))
  -- a thread that leaves keeps its history, and the others do not notice
  | done j job a hj =>
    refine (h i).frame rfl rfl ?_
    by_cases hi : i = j
    · exact Or.inr (by simp [hi])
    · exact Or.inl (by simp [Function.update_of_ne hi])
  | cancel j job o k hj hc =>
    refine (h i).frame rfl rfl ?_
    by_cases hi : i = j
    · exact Or.inr (by simp [hi])
    · exact Or.inl (by simp [Function.update_of_ne hi])
  | env s' henv => exact (h i).frame rfl rfl (Or.inl rfl)

/-- So in every run a thread's events are a trace of its job's program, and what is left of
the program is what the state has. -/
theorem run_known {s : S.Shared} {ls : List S.Label} {c : S.Config}
    (h : Run (Step S) (S.start s) ls c) : ∀ i, Known ls c i := by
  induction h with
  | nil => exact known_start s
  | snoc _ hstep ih => exact Known.step ih hstep

/-- Numbers of threads are given away in order, and none is taken back. -/
theorem next_le_of_step {c c' : S.Config} {l : S.Label} (h : Step S c l c') :
    c.next ≤ c'.next := by
  cases h with
  | spawn => exact Nat.le_succ _
  | _ => exact Nat.le_refl _

/-- The ids that a run has handed out are those below the next one. -/
theorem run_spawn_lt {c₀ c : S.Config} {ls : List S.Label} (h : Run (Step S) c₀ ls c)
    {i : Nat} {job : S.Job} (hi : .spawn i job ∈ ls) : i < c.next := by
  induction h with
  | nil => cases hi
  | snoc _ hstep ih =>
    rcases List.mem_append.mp hi with hi | hi
    · exact Nat.lt_of_lt_of_le (ih hi) (next_le_of_step hstep)
    · rw [List.mem_singleton] at hi
      subst hi
      cases hstep with
      | spawn job hacc => exact Nat.lt_succ_self _

/-- An id is handed out once, so its job is determined by the run. -/
theorem run_spawn_unique {c₀ c : S.Config} {ls : List S.Label} (h : Run (Step S) c₀ ls c)
    {i : Nat} {job job' : S.Job} (hi : .spawn i job ∈ ls) (hi' : .spawn i job' ∈ ls) :
    job = job' := by
  induction h with
  | nil => cases hi
  | @snoc c₁ c₂ ls l hrun hstep ih =>
    -- the id a step hands out has not been handed out before
    have hfresh : ∀ j, l = .spawn i j → ∀ j', .spawn i j' ∉ ls := by
      rintro j rfl j' hj'
      have hlt := run_spawn_lt hrun hj'
      cases hstep with
      | spawn j hacc => exact Nat.lt_irrefl _ hlt
    rcases List.mem_append.mp hi with hi | hi <;> rcases List.mem_append.mp hi' with hi' | hi'
    · exact ih hi hi'
    · exact absurd hi (hfresh job' (List.mem_singleton.mp hi').symm job)
    · exact absurd hi' (hfresh job (List.mem_singleton.mp hi).symm job')
    · have heq := (List.mem_singleton.mp hi).trans (List.mem_singleton.mp hi').symm
      cases heq
      rfl

/-- **Projection.** What a live thread has performed is a trace of its job's
program, up to what is left of it. -/
theorem run_thread {s : S.Shared} {ls : List S.Label} {c : S.Config}
    (h : Run (Step S) (S.start s) ls c) {i : Nat} {t : S.Thread} (ht : c.threads i = some t) :
    .spawn i t.job ∈ ls ∧ Trace (S.prog t.job) (eventsOf i ls) t.rest := by
  have hk := run_known h i
  by_cases hi : i < c.next
  · obtain ⟨job, q, hsp, htr, hq⟩ := hk.born hi
    obtain rfl := hq t ht
    exact ⟨hsp, htr⟩
  · rw [(hk.unborn (by omega)).1] at ht
    cases ht

/-- The operation a thread performs is the next one of its program. -/
theorem run_act {s : S.Shared} {pre post : List S.Label} {c : S.Config} {i : Nat}
    {e : Event Op Res} (h : Run (Step S) (S.start s) (pre ++ .act i e :: post) c) :
    ∃ job k, .spawn i job ∈ pre ∧ Trace (S.prog job) (eventsOf i pre) (.op e.op k) := by
  obtain ⟨m, m', hrun, hstep, -⟩ := h.at_label
  cases hstep with
  | act _ job o k r s' hj _ =>
    obtain ⟨hsp, htr⟩ := run_thread hrun hj
    exact ⟨job, k, hsp, htr⟩

/-- A thread that returns has performed a complete trace. -/
theorem run_done {s : S.Shared} {pre post : List S.Label} {c : S.Config} {i : Nat} {a : α}
    (h : Run (Step S) (S.start s) (pre ++ .done i a :: post) c) :
    ∃ job, .spawn i job ∈ pre ∧ Trace (S.prog job) (eventsOf i pre) (.pure a) := by
  obtain ⟨m, m', hrun, hstep, -⟩ := h.at_label
  cases hstep with
  | done _ job a hj => exact ⟨job, run_thread hrun hj⟩

/-- A thread that is dropped was about to perform an operation at which that
may happen. -/
theorem run_cancel {s : S.Shared} {pre post : List S.Label} {c : S.Config} {i : Nat}
    (h : Run (Step S) (S.start s) (pre ++ .cancel i :: post) c) :
    ∃ job o k m, .spawn i job ∈ pre ∧ Trace (S.prog job) (eventsOf i pre) (.op o k) ∧
      Run (Step S) (S.start s) pre m ∧ S.mayCancel m.shared job o := by
  obtain ⟨m, m', hrun, hstep, -⟩ := h.at_label
  cases hstep with
  | cancel _ job o k hj hc =>
    obtain ⟨hsp, htr⟩ := run_thread hrun hj
    exact ⟨job, o, k, m, hsp, htr, hrun, hc⟩

/-- If every program a run starts performs only operations with `P` (which may
depend on the job), every operation of the run has `P` for the job it is
performed for. -/
theorem run_ops {s : S.Shared} {ls : List S.Label} {c : S.Config}
    (h : Run (Step S) (S.start s) ls c) {P : S.Job → Op → Prop}
    (hP : ∀ i job, .spawn i job ∈ ls → (S.prog job).Ops (P job))
    {i : Nat} {e : Event Op Res} (he : .act i e ∈ ls) :
    ∃ job, .spawn i job ∈ ls ∧ P job e.op := by
  obtain ⟨pre, post, rfl⟩ := List.append_of_mem he
  obtain ⟨job, k, hsp, htr⟩ := run_act h
  have hsp' : .spawn i job ∈ pre ++ .act i e :: post := List.mem_append_left _ hsp
  exact ⟨job, hsp', ((hP i job hsp').rest htr).1⟩

-- ---------------------------------------------------------------------------
-- Threads that have left
-- ---------------------------------------------------------------------------

/-- A dead thread id stays dead, and performs nothing. -/
theorem run_silent {c c' : S.Config} {ls : List S.Label} {i : Nat}
    (h : Run (Step S) c ls c') (hi : i < c.next) (hdead : c.threads i = none) :
    i < c'.next ∧ c'.threads i = none ∧ eventsOf i ls = [] := by
  induction h with
  | nil => exact ⟨hi, hdead, rfl⟩
  | snoc _ hstep ih =>
    obtain ⟨hlt, hnone, hev⟩ := ih
    cases hstep with
    | spawn job hadm =>
      exact ⟨by simp only; omega, by simp [Function.update_of_ne (Nat.ne_of_lt hlt), hnone],
        by rw [eventsOf_append, hev]; rfl⟩
    | act j job o k r s' hj hex =>
      -- whoever acts is alive, so it is somebody else
      have hne : j ≠ i := by
        rintro rfl
        rw [hnone] at hj
        cases hj
      exact ⟨hlt, by simp [Function.update_of_ne (Ne.symm hne), hnone],
        by rw [eventsOf_append, hev, eventsOf_act_ne hne]; rfl⟩
    | done j job a hj =>
      exact ⟨hlt, by by_cases hij : i = j <;> simp [hij, Function.update, hnone],
        by rw [eventsOf_append, hev]; rfl⟩
    | cancel j job o k hj hc =>
      exact ⟨hlt, by by_cases hij : i = j <;> simp [hij, Function.update, hnone],
        by rw [eventsOf_append, hev]; rfl⟩
    | env s' henv => exact ⟨hlt, hnone, by rw [eventsOf_append, hev]; rfl⟩

/-- A thread that is there has been started, so its number has been given away. -/
theorem live_lt {s : S.Shared} {ls : List S.Label} {c : S.Config}
    (h : Run (Step S) (S.start s) ls c) {i : Nat} {t : S.Thread} (ht : c.threads i = some t) :
    i < c.next := by
  by_contra hge
  rw [((run_known h i).unborn (by omega)).1] at ht
  cases ht

/-- What a thread had performed when it returned is all it ever performs. -/
theorem events_done {s : S.Shared} {pre post : List S.Label} {c : S.Config} {i : Nat} {a : α}
    (h : Run (Step S) (S.start s) (pre ++ .done i a :: post) c) :
    eventsOf i (pre ++ .done i a :: post) = eventsOf i pre := by
  obtain ⟨m, m', hrun, hstep, hpost⟩ := h.at_label
  cases hstep with
  | done _ job a hj =>
    have hsilent := (run_silent hpost (live_lt hrun hj) (by simp)).2.2
    rw [eventsOf_append, eventsOf, hsilent, List.append_nil]
    rintro j e ⟨⟩

/-- So it is for a thread that was dropped. -/
theorem events_cancel {s : S.Shared} {pre post : List S.Label} {c : S.Config} {i : Nat}
    (h : Run (Step S) (S.start s) (pre ++ .cancel i :: post) c) :
    eventsOf i (pre ++ .cancel i :: post) = eventsOf i pre := by
  obtain ⟨m, m', hrun, hstep, hpost⟩ := h.at_label
  cases hstep with
  | cancel _ job o k hj hc =>
    have hsilent := (run_silent hpost (live_lt hrun hj) (by simp)).2.2
    rw [eventsOf_append, eventsOf, hsilent, List.append_nil]
    rintro j e ⟨⟩

/-- All a returned thread has performed is a complete trace of its program. -/
theorem returned_trace {s : S.Shared} {ls : List S.Label} {c : S.Config} {i : Nat} {a : α}
    (h : Run (Step S) (S.start s) ls c) (hdone : .done i a ∈ ls) :
    ∃ job, .spawn i job ∈ ls ∧ Trace (S.prog job) (eventsOf i ls) (.pure a) := by
  obtain ⟨pre, post, rfl⟩ := List.append_of_mem hdone
  obtain ⟨job, hjob, htr⟩ := run_done h
  rw [events_done h]
  exact ⟨job, List.mem_append_left _ hjob, htr⟩

/-- A thread that has returned has gone through its program from beginning to end. -/
theorem done_trace {s : S.Shared} {ls : List S.Label} {c : S.Config} {i : Nat} {job : S.Job}
    {a : α} (h : Run (Step S) (S.start s) ls c) (hjob : .spawn i job ∈ ls)
    (hdone : .done i a ∈ ls) : Trace (S.prog job) (eventsOf i ls) (.pure a) := by
  obtain ⟨job', hjob', htr⟩ := returned_trace h hdone
  obtain rfl : job' = job := run_spawn_unique h hjob' hjob
  exact htr

/-- A step of a thread is a step of the shared state that the operation allows. -/
theorem Step.exec {c c' : S.Config} {i : Nat} {e : Event Op Res} (h : Step S c (.act i e) c') :
    S.exec c.shared e.op e.res c'.shared := by
  cases h with
  | act _ job o k r s' hi hexec => exact hexec

/-- The run has thread `i` perform `e` between the states `m` and `m'`. -/
def StepIn (s : S.Shared) (ls : List S.Label) (c : S.Config) (i : Nat) (m : S.Config)
    (e : Event Op Res) (m' : S.Config) : Prop :=
  ∃ pre post, ls = pre ++ .act i e :: post ∧ Run (Step S) (S.start s) pre m ∧
    Step S m (.act i e) m' ∧ Run (Step S) m' post c

/-- A step in the middle of a run is one of its thread's events. -/
theorem StepIn.mem {s : S.Shared} {ls : List S.Label} {c m m' : S.Config} {i : Nat}
    {e : Event Op Res} (h : StepIn s ls c i m e m') : e ∈ eventsOf i ls := by
  obtain ⟨pre, post, rfl, -⟩ := h
  exact mem_eventsOf.mpr (List.mem_append_right _ List.mem_cons_self)

/-- And it does to the shared state what its operation does. -/
theorem StepIn.exec {s : S.Shared} {ls : List S.Label} {c m m' : S.Config} {i : Nat}
    {e : Event Op Res} (h : StepIn s ls c i m e m') : S.exec m.shared e.op e.res m'.shared := by
  obtain ⟨pre, post, -, -, hstep, -⟩ := h
  exact hstep.exec

/-- Every event of a thread is a step of the run. -/
theorem stepIn_of_mem {s : S.Shared} {ls : List S.Label} {c : S.Config} {i : Nat}
    {e : Event Op Res} (h : Run (Step S) (S.start s) ls c) (he : e ∈ eventsOf i ls) :
    ∃ m m', StepIn s ls c i m e m' := by
  obtain ⟨pre, post, rfl⟩ := List.append_of_mem (mem_eventsOf.mp he)
  obtain ⟨m, m', hpre, hstep, hpost⟩ := h.at_label
  exact ⟨m, m', pre, post, rfl, hpre, hstep, hpost⟩

end System

/-! ## One program by itself

A trace together with the states it goes through. A system with one thread can
follow it step by step, so what a program does alone is a run of the system. -/

section Alone

variable {Op : Type} {Res : Op → Type} {α β σ : Type}
variable {exec : σ → (o : Op) → Res o → σ → Prop}

/-- `Performs exec p s tr q s'`: from `s`, the events `tr` take `p` to `q` and
leave `s'`. -/
inductive Performs (exec : σ → (o : Op) → Res o → σ → Prop) :
    Prog Op Res α → σ → List (Event Op Res) → Prog Op Res α → σ → Prop where
  | nil (p : Prog Op Res α) (s : σ) : Performs exec p s [] p s
  | cons {o : Op} {k : Res o → Prog Op Res α} {r : Res o} {s t s' : σ}
      {tr : List (Event Op Res)} {q : Prog Op Res α} :
      exec s o r t → Performs exec (k r) t tr q s' → Performs exec (.op o k) s (⟨o, r⟩ :: tr) q s'

/-- What a program performs is one of its traces. -/
theorem Performs.trace {p q : Prog Op Res α} {s s' : σ} {tr : List (Event Op Res)}
    (h : Performs exec p s tr q s') : Trace p tr q := by
  induction h with
  | nil => exact .nil _
  | cons _ _ ih => exact .cons ih

/-- A program that goes on where it has stopped performs both parts in a row. -/
theorem Performs.append {p q r : Prog Op Res α} {s t u : σ} {tr tr' : List (Event Op Res)}
    (h : Performs exec p s tr q t) (h' : Performs exec q t tr' r u) :
    Performs exec p s (tr ++ tr') r u := by
  induction h with
  | nil => exact h'
  | cons hex _ ih => exact .cons hex (ih h')

/-- The first part of a program is performed as it would be alone. -/
theorem Performs.bind {p q : Prog Op Res α} {s s' : σ} {tr : List (Event Op Res)}
    (h : Performs exec p s tr q s') (f : α → Prog Op Res β) :
    Performs exec (p >>= f) s tr (q >>= f) s' := by
  induction h with
  | nil => exact .nil _ _
  | cons hex _ ih => exact .cons hex ih

/-- And when it ends well, the second part is what is left. -/
theorem Performs.andThen {ε : Type} {p : Prog Op Res (Except ε α)} {a : α} {s s' : σ}
    {tr : List (Event Op Res)} (h : Performs exec p s tr (.pure (.ok a)) s')
    (f : α → Prog Op Res (Except ε β)) : Performs exec (p.andThen f) s tr (f a) s' :=
  h.bind _

/-- The program can come to perform an event. -/
def Reaches (exec : σ → (o : Op) → Res o → σ → Prop) (p : Prog Op Res α) (s : σ)
    (e : Event Op Res) : Prop :=
  ∃ tr q s', Performs exec p s (tr ++ [e]) q s'

/-- A program reaches the event that it begins with. -/
theorem Reaches.here {o : Op} {k : Res o → Prog Op Res α} {r : Res o} {s s' : σ}
    (h : exec s o r s') : Reaches exec (.op o k) s ⟨o, r⟩ :=
  ⟨[], k r, s', .cons h (.nil _ _)⟩

/-- It reaches what the rest of it reaches. -/
theorem Reaches.after {p q : Prog Op Res α} {s t : σ} {tr : List (Event Op Res)}
    {e : Event Op Res} (h : Performs exec p s tr q t) (h' : Reaches exec q t e) :
    Reaches exec p s e := by
  obtain ⟨tr', q', s', hperf⟩ := h'
  refine ⟨tr ++ tr', q', s', ?_⟩
  rw [List.append_assoc]
  exact h.append hperf

/-- After one operation it reaches what the continuation reaches from there. -/
theorem Reaches.next {o : Op} {k : Res o → Prog Op Res α} {r : Res o} {s t : σ}
    {e : Event Op Res} (h : exec s o r t) (h' : Reaches exec (k r) t e) :
    Reaches exec (.op o k) s e :=
  Reaches.after (.cons h (.nil _ _)) h'

/-- What the first part reaches, the whole program reaches. -/
theorem Reaches.bind {p : Prog Op Res α} {s : σ} {e : Event Op Res} (h : Reaches exec p s e)
    (f : α → Prog Op Res β) : Reaches exec (p >>= f) s e := by
  obtain ⟨tr, q, s', hperf⟩ := h
  exact ⟨tr, q >>= f, s', hperf.bind f⟩

/-- And so for a program that may fail. -/
theorem Reaches.andThen {ε : Type} {p : Prog Op Res (Except ε α)} {s : σ} {e : Event Op Res}
    (h : Reaches exec p s e) (f : α → Prog Op Res (Except ε β)) :
    Reaches exec (p.andThen f) s e :=
  h.bind _

/-- A thread that is let alone performs its program step by step, and the others wait. -/
theorem System.run_performs {S : System Op Res α} {c : S.Config} {i : Nat} {job : S.Job}
    {p q : Prog Op Res α} {s' : S.Shared} {tr : List (Event Op Res)}
    (h : Performs S.exec p c.shared tr q s') (hi : c.threads i = some ⟨job, p⟩) :
    Run (Step S) c (tr.map (.act i))
      ⟨s', Function.update c.threads i (some ⟨job, q⟩), c.next⟩ := by
  generalize hs : c.shared = s at h
  induction h generalizing c with
  | nil =>
    subst hs
    rw [← hi, Function.update_eq_self]
    exact .nil c
  | @cons o k r s t s' tr q hex _ ih =>
    subst hs
    have hstep := Step.act c i job o k r t hi hex
    have hrest := ih (c := ⟨t, Function.update c.threads i (some ⟨job, k r⟩), c.next⟩)
      (by simp) rfl
    rw [Function.update_idem] at hrest
    exact (Run.single hstep).append hrest

/-- A job that arrives and is served before anything else happens. -/
theorem System.run_served {S : System Op Res α} {c : S.Config} {job : S.Job} {a : α}
    {s' : S.Shared} {tr : List (Event Op Res)} (hjob : S.accepts c.shared job)
    (h : Performs S.exec (S.prog job) c.shared tr (.pure a) s') :
    ∃ c', Run (Step S) c (.spawn c.next job :: tr.map (.act c.next) ++ [.done c.next a]) c' ∧
      c'.shared = s' ∧ c'.next = c.next + 1 ∧
      c'.threads = Function.update c.threads c.next none := by
  let c₁ : S.Config :=
    ⟨c.shared, Function.update c.threads c.next (some ⟨job, S.prog job⟩), c.next + 1⟩
  have hspawn : Run (Step S) c [.spawn c.next job] c₁ := Run.single (Step.spawn c job hjob)
  have hstart : c₁.threads c.next = some ⟨job, S.prog job⟩ := by simp [c₁]
  have hacts := run_performs (c := c₁) h hstart
  let c₂ : S.Config := ⟨s', Function.update c₁.threads c.next (some ⟨job, .pure a⟩), c₁.next⟩
  have hdone := Run.single (Step.done c₂ c.next job a (by simp [c₂]))
  exact ⟨_, (hspawn.append hacts).append hdone, rfl, rfl, by simp [c₂, c₁]⟩

/-- A job served alone, from the start. -/
theorem System.run_alone {S : System Op Res α} {s s' : S.Shared} {job : S.Job}
    {q : Prog Op Res α} {tr : List (Event Op Res)} (hjob : S.accepts s job)
    (h : Performs S.exec (S.prog job) s tr q s') :
    Run (Step S) (S.start s) (.spawn 0 job :: tr.map (.act 0))
      ⟨s', Function.update (fun _ => none) 0 (some ⟨job, q⟩), 1⟩ := by
  have hspawn := Run.single (Step.spawn (S.start s) job hjob)
  let c : S.Config := ⟨s, Function.update (fun _ => none) 0 (some ⟨job, S.prog job⟩), 1⟩
  have hi : c.threads 0 = some ⟨job, S.prog job⟩ := by simp [c]
  have hrest := run_performs h hi
  simp only [c, Function.update_idem] at hrest
  exact hspawn.append hrest

end Alone

end Effects
