import Mathlib.Logic.Basic

/-!
# Effects — programs over an operation signature

A handler of a server is a finite decision tree: it performs an operation
(take a lock and read the state behind it, put a request on the wire, wait for
the reply), looks at the answer, and goes on. `Prog` is that tree, for an
arbitrary type of operations `Op` in which an operation `o` is answered by a
value of `Res o`. Nothing here says what the operations *do*; that is the
business of whoever runs the program (`Interleave.lean` runs many at once).

Three ways of reasoning about a program are provided:

* `Trace p tr q` — performing the events `tr` takes `p` to the rest `q`;
* `Prog.Ops P p` — every operation `p` can ever perform satisfies `P`, with
  its bind rule and its consequence for traces;
* `Prog.Sat` — a Hoare logic against a *monitor*, an automaton that reads the
  events: an obligation before every operation and a postcondition;
* `Prog.eval` — the run against deterministic surroundings, for comparing two
  runs: `eval_congr` says that only the operations a program performs can tell
  two surroundings apart.
-/

namespace Effects

/-- A program over operations `Op`, an operation `o` being answered by a value
of `Res o`. -/
inductive Prog (Op : Type) (Res : Op → Type) (α : Type) : Type where
  | pure (a : α)
  | op (o : Op) (k : Res o → Prog Op Res α)

/-- An operation together with the answer it got. -/
structure Event (Op : Type) (Res : Op → Type) where
  op : Op
  res : Res op

variable {Op : Type} {Res : Op → Type} {α β : Type}

namespace Prog

/-- Sequential composition. -/
def bind : Prog Op Res α → (α → Prog Op Res β) → Prog Op Res β
  | .pure a, f => f a
  | .op o k, f => .op o fun r => (k r).bind f

instance : Monad (Prog Op Res) where
  pure := Prog.pure
  bind := Prog.bind

/-- The program that performs one operation and returns its answer. -/
def perform (o : Op) : Prog Op Res (Res o) := .op o .pure

@[simp] theorem op_bind (o : Op) (k : Res o → Prog Op Res α) (f : α → Prog Op Res β) :
    (Prog.op o k >>= f) = .op o fun r => k r >>= f := rfl

@[simp] theorem perform_bind (o : Op) (f : Res o → Prog Op Res β) :
    (perform o >>= f) = .op o f := rfl

/-- Rust's `?`: go on with a success, return an error as it is. -/
def andThen {ε : Type} (p : Prog Op Res (Except ε α)) (f : α → Prog Op Res (Except ε β)) :
    Prog Op Res (Except ε β) :=
  p >>= fun
    | .ok a => f a
    | .error e => .pure (.error e)

end Prog

-- ---------------------------------------------------------------------------
-- Traces
-- ---------------------------------------------------------------------------

/-- `Trace p tr q`: performing the events `tr`, in order, takes `p` to `q`. -/
inductive Trace : Prog Op Res α → List (Event Op Res) → Prog Op Res α → Prop where
  | nil (p : Prog Op Res α) : Trace p [] p
  | cons {o : Op} {k : Res o → Prog Op Res α} {r : Res o} {tr : List (Event Op Res)}
      {q : Prog Op Res α} : Trace (k r) tr q → Trace (.op o k) (⟨o, r⟩ :: tr) q

/-- A finished program performs nothing more. -/
theorem trace_pure {a : α} {tr : List (Event Op Res)} {q : Prog Op Res α}
    (h : Trace (.pure a) tr q) : tr = [] ∧ q = .pure a := by
  cases h with
  | nil => exact ⟨rfl, rfl⟩

/-- A trace goes on where another has stopped. -/
theorem Trace.append {p q r : Prog Op Res α} {tr tr' : List (Event Op Res)}
    (h : Trace p tr q) (h' : Trace q tr' r) : Trace p (tr ++ tr') r := by
  induction h with
  | nil => exact h'
  | cons _ ih => exact .cons (ih h')

/-- What a program returns, if it has nothing more to do. -/
def Prog.returned : Prog Op Res α → Option α
  | .pure a => some a
  | .op _ _ => none

/-- A program that has returned is its result. -/
theorem Prog.eq_pure_of_returned {p : Prog Op Res α} {a : α} (h : p.returned = some a) :
    p = .pure a := by
  cases p with
  | pure b =>
    cases h
    rfl
  | op o k => cases h

/-- One that has not waits for an operation. -/
theorem Prog.eq_op_of_returned {p : Prog Op Res α} (h : p.returned = none) :
    ∃ o k, p = .op o k := by
  cases p with
  | pure a => cases h
  | op o k => exact ⟨o, k, rfl⟩

/-- One more event at the end of a trace. -/
theorem Trace.snoc {p : Prog Op Res α} {tr : List (Event Op Res)} {o : Op}
    {k : Res o → Prog Op Res α} (h : Trace p tr (.op o k)) (r : Res o) :
    Trace p (tr ++ [⟨o, r⟩]) (k r) :=
  h.append (.cons (.nil _))

/-- The first part of a program can be followed as if it were alone. -/
theorem Trace.bind {p q : Prog Op Res α} {tr : List (Event Op Res)} (h : Trace p tr q)
    (f : α → Prog Op Res β) : Trace (p >>= f) tr (q >>= f) := by
  induction h with
  | nil => exact .nil _
  | cons _ ih => exact .cons ih

/-- When it ends well, what is left is the second part. -/
theorem Trace.andThen {ε : Type} {p : Prog Op Res (Except ε α)} {a : α}
    {tr : List (Event Op Res)} (h : Trace p tr (.pure (.ok a)))
    (f : α → Prog Op Res (Except ε β)) : Trace (p.andThen f) tr (f a) :=
  h.bind _

/-- A complete trace of a composition is one of each part. -/
theorem Trace.of_bind {p : Prog Op Res α} {f : α → Prog Op Res β} {tr : List (Event Op Res)}
    {b : β} (h : Trace (p >>= f) tr (.pure b)) :
    ∃ a tr₁ tr₂, tr = tr₁ ++ tr₂ ∧ Trace p tr₁ (.pure a) ∧ Trace (f a) tr₂ (.pure b) := by
  induction p generalizing tr with
  | pure a => exact ⟨a, [], tr, rfl, .nil _, h⟩
  | op o k ih =>
    rw [Prog.op_bind] at h
    cases h with
    | @cons _ _ r tr _ hrest =>
      obtain ⟨a, tr₁, tr₂, rfl, h₁, h₂⟩ := ih r hrest
      exact ⟨a, ⟨o, r⟩ :: tr₁, tr₂, rfl, .cons h₁, h₂⟩

/-- A program of two parts that has returned has gone through both, or has failed in the
first one and returned its error. -/
theorem Trace.of_andThen {ε : Type} {p : Prog Op Res (Except ε α)}
    {f : α → Prog Op Res (Except ε β)} {tr : List (Event Op Res)} {r : Except ε β}
    (h : Trace (p.andThen f) tr (.pure r)) :
    (∃ a tr₁ tr₂, tr = tr₁ ++ tr₂ ∧ Trace p tr₁ (.pure (.ok a)) ∧ Trace (f a) tr₂ (.pure r)) ∨
    (∃ e, r = .error e ∧ Trace p tr (.pure (.error e))) := by
  obtain ⟨a, tr₁, tr₂, rfl, h₁, h₂⟩ := h.of_bind
  cases a with
  | ok a => exact .inl ⟨a, tr₁, tr₂, rfl, h₁, h₂⟩
  | error e =>
    obtain ⟨rfl, hr⟩ := trace_pure h₂
    rw [List.append_nil]
    exact .inr ⟨e, Prog.pure.inj hr, h₁⟩

-- ---------------------------------------------------------------------------
-- The operations of a program
-- ---------------------------------------------------------------------------

/-- Whatever it is answered, what the program comes to satisfies `P`. -/
def Prog.Yields (P : α → Prop) : Prog Op Res α → Prop
  | .pure a => P a
  | .op _ k => ∀ r, (k r).Yields P

/-- Every operation the program can ever perform satisfies `P`. -/
def Prog.Ops (P : Op → Prop) : Prog Op Res α → Prop
  | .pure _ => True
  | .op o k => P o ∧ ∀ r, (k r).Ops P

namespace Prog

@[simp] theorem ops_op (P : Op → Prop) (o : Op) (k : Res o → Prog Op Res α) :
    (Prog.op o k).Ops P ↔ P o ∧ ∀ r, (k r).Ops P :=
  Iff.rfl

/-- What holds of every operation holds of all that a program performs. -/
theorem ops_of_forall {P : Op → Prop} (h : ∀ o, P o) (p : Prog Op Res α) : p.Ops P := by
  induction p with
  | pure a => trivial
  | op o k ih => exact ⟨h o, fun r => ih r⟩

/-- The bind rule: both parts perform nothing else. -/
theorem Ops.bind {P : Op → Prop} {p : Prog Op Res α} {f : α → Prog Op Res β}
    (hp : p.Ops P) (hf : ∀ a, (f a).Ops P) : (p >>= f).Ops P := by
  induction p with
  | pure a => exact hf a
  | op o k ih => exact ⟨hp.1, fun r => ih r (hp.2 r)⟩

/-- The same for programs that may fail. -/
theorem Ops.andThen {ε : Type} {P : Op → Prop} {p : Prog Op Res (Except ε α)}
    {f : α → Prog Op Res (Except ε β)} (hp : p.Ops P) (hf : ∀ a, (f a).Ops P) :
    (p.andThen f).Ops P := by
  refine hp.bind fun r => ?_
  cases r with
  | ok a => exact hf a
  | error e => trivial

/-- A weaker property holds of a program's operations as well. -/
theorem Ops.mono {P Q : Op → Prop} (hPQ : ∀ o, P o → Q o) {p : Prog Op Res α}
    (hp : p.Ops P) : p.Ops Q := by
  induction p with
  | pure a => trivial
  | op o k ih => exact ⟨hPQ o hp.1, fun r => ih r (hp.2 r)⟩

/-- What `Ops` says survives any number of events. -/
theorem Ops.rest {P : Op → Prop} {p q : Prog Op Res α} {tr : List (Event Op Res)}
    (hp : p.Ops P) (h : Trace p tr q) : q.Ops P := by
  induction h with
  | nil => exact hp
  | @cons o k r tr q _ ih => exact ih (hp.2 r)

/-- Every event of a trace is by an operation of the program. -/
theorem Ops.events {P : Op → Prop} {p q : Prog Op Res α} {tr : List (Event Op Res)}
    (hp : p.Ops P) (h : Trace p tr q) : ∀ e ∈ tr, P e.op := by
  induction h with
  | nil => intro e he; cases he
  | @cons o k r tr q _ ih =>
    intro e he
    rcases List.mem_cons.mp he with rfl | he'
    · exact hp.1
    · exact ih (hp.2 r) e he'

end Prog

/-! ## Monitors

A monitor is a state type `S` and a function `δ` that reads one event. `Sat`
asks that `J` holds of the monitor state and the operation before every
operation, and `Q` of the result and the monitor state at the end. -/

section Monitor

variable {S : Type} (δ : S → Event Op Res → S)

/-- The Hoare triple: from monitor state `s`, the program meets its obligation
`J` before every operation and its postcondition `Q`. -/
def Prog.Sat (J : S → Op → Prop) (Q : α → S → Prop) : Prog Op Res α → S → Prop
  | .pure a, s => Q a s
  | .op o k, s => J s o ∧ ∀ r, (k r).Sat J Q (δ s ⟨o, r⟩)

variable {δ} {J : S → Op → Prop} {Q : α → S → Prop}

@[simp] theorem Prog.sat_op (o : Op) (k : Res o → Prog Op Res α) (s : S) :
    (Prog.op o k).Sat δ J Q s ↔ J s o ∧ ∀ r, (k r).Sat δ J Q (δ s ⟨o, r⟩) :=
  Iff.rfl

/-- The bind rule: the postcondition of the first part is the precondition of
the second. -/
theorem Prog.Sat.bind {R : α → S → Prop} {Q : β → S → Prop} {p : Prog Op Res α}
    {f : α → Prog Op Res β} {s : S} (hp : p.Sat δ J R s)
    (hf : ∀ a s', R a s' → (f a).Sat δ J Q s') : (p >>= f).Sat δ J Q s := by
  induction p generalizing s with
  | pure a => exact hf a s hp
  | op o k ih => exact ⟨hp.1, fun r => ih r (hp.2 r)⟩

/-- The rule for a program that may fail: from what the first part ensures, the second one
goes on after a success, and the error stands after a failure. -/
theorem Prog.Sat.andThen {ε : Type} {R : Except ε α → S → Prop} {Q : Except ε β → S → Prop}
    {p : Prog Op Res (Except ε α)} {f : α → Prog Op Res (Except ε β)} {s : S}
    (hp : p.Sat δ J R s) (hok : ∀ a s', R (.ok a) s' → (f a).Sat δ J Q s')
    (herr : ∀ e s', R (.error e) s' → Q (.error e) s') : (p.andThen f).Sat δ J Q s := by
  refine hp.bind fun r s' hr => ?_
  cases r with
  | ok a => exact hok a s' hr
  | error e => exact herr e s' hr

/-- The rule of consequence: what is asked of the operations and of the result may be
weakened. -/
theorem Prog.Sat.mono {J' : S → Op → Prop} {Q' : α → S → Prop} {p : Prog Op Res α} {s : S}
    (hJ : ∀ s o, J s o → J' s o) (hQ : ∀ a s, Q a s → Q' a s) (hp : p.Sat δ J Q s) :
    p.Sat δ J' Q' s := by
  induction p generalizing s with
  | pure a => exact hQ a s hp
  | op o k ih => exact ⟨hJ s o hp.1, fun r => ih r (hp.2 r)⟩

/-- The frame rule: operations the monitor does not look at leave its state alone. -/
theorem Prog.sat_frame {P : Op → Prop} {p : Prog Op Res α} {s : S} (hp : p.Ops P)
    (hobserve : ∀ o, P o → ∀ r, δ s ⟨o, r⟩ = s) (hJ : ∀ o, P o → J s o) :
    p.Sat δ J (fun _ s' => s' = s) s := by
  induction p with
  | pure a => rfl
  | op o k ih =>
    refine ⟨hJ o hp.1, fun r => ?_⟩
    rw [hobserve o hp.1 r]
    exact ih r (hp.2 r)

/-- Soundness: after the events of a trace the rest of the program meets the
same triple from the monitor state reached. -/
theorem Prog.Sat.rest {p q : Prog Op Res α} {tr : List (Event Op Res)} {s : S}
    (hp : p.Sat δ J Q s) (h : Trace p tr q) : q.Sat δ J Q (tr.foldl δ s) := by
  induction h generalizing s with
  | nil => exact hp
  | @cons o k r tr q _ ih => exact ih (hp.2 r)

end Monitor

/-! ## Running a program

`answer` is what the surroundings do with an operation: the answer they give and
the state they are left in, or `none` if the program gets no further, because it
is dropped while it waits or has stopped for good. -/

section Eval

variable {σ : Type}

/-- The events of the run, the state of the surroundings after it, and what the
program returned, if it got that far. -/
def Prog.eval (answer : σ → (o : Op) → Option (Res o × σ)) :
    Prog Op Res α → σ → List (Event Op Res) × σ × Option α
  | .pure a, s => ([], s, some a)
  | .op o k, s =>
    match answer s o with
    | none => ([], s, none)
    | some (r, s') =>
      let (tr, t, a) := (k r).eval answer s'
      (⟨o, r⟩ :: tr, t, a)

variable {answer answer' : σ → (o : Op) → Option (Res o × σ)}

@[simp] theorem Prog.eval_pure (a : α) (s : σ) :
    (Prog.pure a : Prog Op Res α).eval answer s = ([], s, some a) := rfl

/-- An operation that is not answered ends the evaluation, and nothing is returned. -/
theorem Prog.eval_op_none {o : Op} {s : σ} (h : answer s o = none) (k : Res o → Prog Op Res α) :
    (Prog.op o k).eval answer s = ([], s, none) := by
  rw [Prog.eval, h]

/-- An answered one is the first event, and the evaluation goes on with its answer. -/
theorem Prog.eval_op_some {o : Op} {s s' : σ} {r : Res o} (h : answer s o = some (r, s'))
    (k : Res o → Prog Op Res α) :
    (Prog.op o k).eval answer s =
      (⟨o, r⟩ :: ((k r).eval answer s').1, ((k r).eval answer s').2) := by
  rw [Prog.eval, h]

/-- The run of a composition: the first part, and from where it returned the second. -/
theorem Prog.eval_bind (p : Prog Op Res α) (f : α → Prog Op Res β) (s : σ) :
    (p >>= f).eval answer s =
      match p.eval answer s with
      | (tr, t, some a) => (tr ++ ((f a).eval answer t).1, ((f a).eval answer t).2)
      | (tr, t, none) => (tr, t, none) := by
  induction p generalizing s with
  | pure a => rfl
  | op o k ih =>
    rw [Prog.op_bind]
    cases hans : answer s o with
    | none => rw [Prog.eval_op_none hans, Prog.eval_op_none hans]
    | some rs =>
      obtain ⟨r, s'⟩ := rs
      rw [Prog.eval_op_some hans, Prog.eval_op_some hans, ih]
      rcases (k r).eval answer s' with ⟨tr, t, _ | a⟩ <;> rfl

/-- Surroundings that agree on the operations of a program run it alike. -/
theorem Prog.eval_congr {P : Op → Prop} (h : ∀ s o, P o → answer s o = answer' s o)
    {p : Prog Op Res α} (hp : p.Ops P) (s : σ) : p.eval answer s = p.eval answer' s := by
  induction p generalizing s with
  | pure a => rfl
  | op o k ih =>
    have ho := h s o hp.1
    cases hans : answer s o with
    | none => rw [Prog.eval_op_none hans, Prog.eval_op_none (ho ▸ hans)]
    | some rs =>
      rw [Prog.eval_op_some hans, Prog.eval_op_some (ho ▸ hans), ih rs.1 (hp.2 rs.1)]

/-- What every answer to the program's operations preserves, its run preserves. -/
theorem Prog.eval_invariant {P : Op → Prop} {I : σ → Prop}
    (h : ∀ s o r s', P o → I s → answer s o = some (r, s') → I s')
    {p : Prog Op Res α} (hp : p.Ops P) {s : σ} (hs : I s) : I (p.eval answer s).2.1 := by
  induction p generalizing s with
  | pure a => exact hs
  | op o k ih =>
    cases hans : answer s o with
    | none =>
      rw [Prog.eval_op_none hans]
      exact hs
    | some rs =>
      rw [Prog.eval_op_some hans]
      exact ih rs.1 (hp.2 rs.1) (h s o rs.1 rs.2 hp.1 hs hans)

/-- A run is a trace, complete if the program returned. -/
theorem Prog.eval_trace (p : Prog Op Res α) (s : σ) :
    ∃ q, Trace p (p.eval answer s).1 q ∧ ∀ a, (p.eval answer s).2.2 = some a → q = .pure a := by
  induction p generalizing s with
  | pure a =>
    refine ⟨.pure a, .nil _, fun b hb => ?_⟩
    rw [Option.some.inj hb]
  | op o k ih =>
    cases hans : answer s o with
    | none =>
      rw [Prog.eval_op_none hans]
      exact ⟨_, .nil _, fun a ha => absurd ha (by simp)⟩
    | some rs =>
      obtain ⟨q, htr, hq⟩ := ih rs.1 rs.2
      rw [Prog.eval_op_some hans]
      exact ⟨q, .cons htr, hq⟩

end Eval

end Effects
