import Mathlib.Data.List.Basic
import Mathlib.Data.List.Induction

/-!
# The latest event of a kind

A machine reads events one after the other, `step s e` being the state after
`e`. Whether an event is of some kind `P` may depend on the state that it finds.
`Latest` splits a history at the most recent event of the kind, `Since` is what
has been read after it, or all of the history if there was none. Each comes
with its rules for one more event, so that an invariant that says what a state
remembers of its history is proved by one case split on that event.
-/

namespace History

variable {σ E : Type} (step : σ → E → σ) (P : σ → E → Prop) (s : σ)

/-- No event of the history is of the kind. -/
def Never (es : List E) : Prop :=
  ∀ pre e post, es = pre ++ e :: post → ¬ P (pre.foldl step s) e

/-- `e`, read between `pre` and `post`, is the latest event of the kind. -/
structure Latest (es pre : List E) (e : E) (post : List E) : Prop where
  split : es = pre ++ e :: post
  kind : P (pre.foldl step s) e
  last : ∀ mid e' rest, post = mid ++ e' :: rest → ¬ P ((pre ++ e :: mid).foldl step s) e'

/-- `since` has been read after the latest event of the kind. -/
def Since (es since : List E) : Prop :=
  (Never step P s es ∧ since = es) ∨ ∃ pre e, Latest step P s es pre e since

variable {step P s}

/-- Nothing has happened in an empty history. -/
theorem never_nil : Never step P s [] := by
  intro pre e post h
  simp at h

/-- The last event of a history is its end or lies before it. -/
theorem snoc_split {es pre post : List E} {e e' : E} (h : es ++ [e'] = pre ++ e :: post) :
    (pre = es ∧ e = e' ∧ post = []) ∨ ∃ post', post = post' ++ [e'] ∧ es = pre ++ e :: post' := by
  rcases List.eq_nil_or_concat' post with rfl | ⟨post', last, rfl⟩
  · obtain ⟨rfl, he⟩ := List.append_inj' h rfl
    exact .inl ⟨rfl, (List.head_eq_of_cons_eq he).symm, rfl⟩
  · rw [← List.cons_append, ← List.append_assoc] at h
    obtain ⟨rfl, he⟩ := List.append_inj' h rfl
    obtain rfl := List.head_eq_of_cons_eq he
    exact .inr ⟨post', rfl, rfl⟩

/-- What has not happened yet has not happened after one more event that is no such one. -/
theorem Never.snoc {es : List E} {e : E} (h : Never step P s es)
    (he : ¬ P (es.foldl step s) e) : Never step P s (es ++ [e]) := by
  intro pre e' post hsplit
  rcases snoc_split hsplit with ⟨rfl, rfl, -⟩ | ⟨post', -, rfl⟩
  · exact he
  · exact h pre e' post' rfl

/-- An event of the kind that comes last is the latest of its kind. -/
theorem latest_self {es : List E} {e : E} (he : P (es.foldl step s) e) :
    Latest step P s (es ++ [e]) es e [] :=
  ⟨rfl, he, fun _ _ _ h => by simp at h⟩

/-- The latest one stays the latest while nothing of the kind follows. -/
theorem Latest.snoc {es pre post : List E} {e e' : E} (h : Latest step P s es pre e post)
    (he : ¬ P (es.foldl step s) e') : Latest step P s (es ++ [e']) pre e (post ++ [e']) := by
  refine ⟨by simp [h.split], h.kind, ?_⟩
  intro mid c rest hsplit
  rcases snoc_split hsplit with ⟨rfl, rfl, -⟩ | ⟨rest', -, hrest⟩
  · rw [← h.split]
    exact he
  · exact h.last mid c rest' hrest

/-- In an empty history all of it counts. -/
theorem since_nil : Since step P s [] [] := .inl ⟨never_nil, rfl⟩

/-- After an event of the kind the count starts anew. -/
theorem since_self {es : List E} {e : E} (he : P (es.foldl step s) e) :
    Since step P s (es ++ [e]) [] :=
  .inr ⟨es, e, latest_self he⟩

/-- One more event of another kind is one more that counts. -/
theorem Since.snoc {es since : List E} {e : E} (h : Since step P s es since)
    (he : ¬ P (es.foldl step s) e) : Since step P s (es ++ [e]) (since ++ [e]) := by
  rcases h with ⟨hnever, rfl⟩ | ⟨pre, e', hlatest⟩
  · exact .inl ⟨hnever.snoc he, rfl⟩
  · exact .inr ⟨pre, e', hlatest.snoc he⟩

variable (step P s) in
/-- Every history has a latest event of the kind, or none at all. -/
theorem never_or_latest (es : List E) :
    Never step P s es ∨ ∃ pre e post, Latest step P s es pre e post := by
  induction es using List.reverseRecOn with
  | nil => exact .inl never_nil
  | append_singleton es e ih =>
    by_cases he : P (es.foldl step s) e
    · exact .inr ⟨es, e, [], latest_self he⟩
    · rcases ih with hnever | ⟨pre, e', post, hlatest⟩
      · exact .inl (hnever.snoc he)
      · exact .inr ⟨pre, e', post ++ [e], hlatest.snoc he⟩

/-- It is the latest event of the history up to any point after it. -/
theorem Latest.before {es pre mid rest : List E} {e : E}
    (h : Latest step P s es pre e (mid ++ rest)) : Latest step P s (pre ++ e :: mid) pre e mid :=
  ⟨rfl, h.kind, fun mid' c rest' hmid => h.last mid' c (rest' ++ rest) (by simp [hmid])⟩

/-- What has not happened in a history has not happened in the beginning of it. -/
theorem Never.of_append {es rest : List E} (h : Never step P s (es ++ rest)) :
    Never step P s es :=
  fun pre e post hsplit => h pre e (post ++ rest) (by simp [hsplit])

/-- Of two places in a history one is the first, if they are not the same. -/
theorem split_cases {pre pre' post post' : List E} {e e' : E}
    (h : pre ++ e :: post = pre' ++ e' :: post') :
    (∃ mid, pre' = pre ++ e :: mid ∧ post = mid ++ e' :: post') ∨
    (pre = pre' ∧ e = e' ∧ post = post') ∨
    ∃ mid, pre = pre' ++ e' :: mid ∧ post' = mid ++ e :: post := by
  rcases List.append_eq_append_iff.mp h with ⟨mid, rfl, hmid⟩ | ⟨mid, rfl, hmid⟩
  · cases mid with
    | nil =>
      obtain ⟨rfl, rfl⟩ := List.cons_eq_cons.mp hmid
      exact .inr (.inl ⟨(List.append_nil _).symm, rfl, rfl⟩)
    | cons c mid =>
      obtain ⟨rfl, rfl⟩ := List.cons_eq_cons.mp hmid
      exact .inl ⟨mid, rfl, rfl⟩
  · cases mid with
    | nil =>
      obtain ⟨rfl, rfl⟩ := List.cons_eq_cons.mp hmid
      exact .inr (.inl ⟨List.append_nil _, rfl, rfl⟩)
    | cons c mid =>
      obtain ⟨rfl, rfl⟩ := List.cons_eq_cons.mp hmid
      exact .inr (.inr ⟨mid, rfl, rfl⟩)

/-- There is one latest event of a kind. -/
theorem Latest.unique {es pre pre' post post' : List E} {e e' : E}
    (h : Latest step P s es pre e post) (h' : Latest step P s es pre' e' post') :
    pre = pre' ∧ e = e' ∧ post = post' := by
  -- if one came later, the other was not the last
  rcases split_cases (h.split.symm.trans h'.split) with ⟨mid, rfl, hmid⟩ | heq | ⟨mid, rfl, hmid⟩
  · exact absurd h'.kind (h.last mid e' post' hmid)
  · exact heq
  · exact absurd h.kind (h'.last mid e post hmid)

end History
