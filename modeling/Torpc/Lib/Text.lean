import Mathlib.Data.List.DropRight
import Mathlib.Data.List.Infix
import Mathlib.Data.List.TakeWhile

/-!
# Lines and words

Rust's `lines`, `trim` and `split_whitespace` on lists of characters. Which
characters stand between words is a parameter. `words_eq_cons_iff` says how a
text is written whose first word is given.
-/

namespace Text

/-- `char::is_whitespace`: the property White_Space of Unicode. -/
def isWhitespace (c : Char) : Bool :=
  let n := c.toNat
  n = 0x20 || (0x09 ≤ n && n ≤ 0x0d) || n = 0x85 || n = 0xa0 || n = 0x1680 ||
    (0x2000 ≤ n && n ≤ 0x200a) || n = 0x2028 || n = 0x2029 || n = 0x202f || n = 0x205f ||
    n = 0x3000

/-- Put a character in front of the first line. -/
def ontoFirst (c : Char) : List (List Char) → List (List Char)
  | [] => [[c]]
  | line :: lines => (c :: line) :: lines

/-- `str::lines`: a line ends with "\n" or "\r\n", the last one also with the text. -/
def lines : List Char → List (List Char)
  | [] => []
  | '\n' :: cs => [] :: lines cs
  | '\r' :: '\n' :: cs => [] :: lines cs
  | c :: cs => ontoFirst c (lines cs)

example : lines "a\r\n\n\rb\n".toList = ["a".toList, [], "\rb".toList] := by decide

variable {α : Type} {p : α → Bool}

/-- `trim_matches`. -/
def trim (p : α → Bool) (l : List α) : List α := (l.dropWhile p).rdropWhile p

/-- `split` without the empty parts, which is what `split_whitespace` is. -/
def words (p : α → Bool) (l : List α) : List (List α) := (l.splitOnP p).filter fun w => !w.isEmpty

/-- `split_once`: what stands before the first separator and after it. -/
def splitOnce [DecidableEq α] (sep : α) (l : List α) : Option (List α × List α) :=
  match l.dropWhile (· ≠ sep) with
  | [] => none
  | _ :: rest => some (l.takeWhile (· ≠ sep), rest)

/-- A text is split at the first separator, and what is in front has none. -/
theorem splitOnce_append [DecidableEq α] {sep : α} {l : List α} (h : sep ∉ l) (rest : List α) :
    splitOnce sep (l ++ sep :: rest) = some (l, rest) := by
  have hl : ∀ c ∈ l, decide (c ≠ sep) = true := by
    intro c hc
    rw [decide_eq_true_eq]
    rintro rfl
    exact h hc
  unfold splitOnce
  rw [List.dropWhile_append_of_pos hl, List.takeWhile_append_of_pos hl]
  simp

/-- `contains` with a text. -/
def contains [DecidableEq α] (pat l : List α) : Bool := decide (pat <:+: l)

/-- `find` with a text, and what stands before the first place and after it. -/
def splitFirst [DecidableEq α] (pat : List α) : List α → Option (List α × List α)
  | [] => if pat = [] then some ([], []) else none
  | c :: cs =>
    if pat <+: c :: cs then some ([], (c :: cs).drop pat.length)
    else (splitFirst pat cs).map fun (before, after) => (c :: before, after)

/-- A text is found where it is contained. -/
theorem splitFirst_isSome [DecidableEq α] (pat l : List α) :
    (splitFirst pat l).isSome = contains pat l := by
  induction l with
  | nil =>
    rw [splitFirst, contains]
    by_cases hpat : pat = [] <;> simp [hpat]
  | cons c cs ih =>
    rw [splitFirst, contains]
    by_cases hpat : pat <+: c :: cs
    · rw [if_pos hpat]
      simp [hpat.isInfix]
    · rw [if_neg hpat, Option.isSome_map, ih, contains]
      simp [List.infix_cons_iff, hpat]

/-- What stands before and after the first place, with the text between them. -/
theorem splitFirst_eq_append [DecidableEq α] {pat l before after : List α}
    (h : splitFirst pat l = some (before, after)) : l = before ++ (pat ++ after) := by
  induction l generalizing before with
  | nil =>
    rw [splitFirst] at h
    split at h
    · next hpat =>
      obtain ⟨rfl, rfl⟩ := Prod.mk.inj (Option.some.inj h)
      rw [hpat]
      rfl
    · cases h
  | cons c cs ih =>
    rw [splitFirst] at h
    split at h
    · next hpat =>
      obtain ⟨rfl, rfl⟩ := Prod.mk.inj (Option.some.inj h)
      obtain ⟨rest, hrest⟩ := hpat
      rw [← hrest, List.drop_left, List.nil_append]
    · obtain ⟨⟨before', after'⟩, hcs, heq⟩ := Option.map_eq_some_iff.mp h
      obtain ⟨rfl, rfl⟩ := Prod.mk.inj heq
      rw [List.cons_append, ← ih hcs]

/-- The first of `lines`. -/
def firstLine (l : List Char) : List Char := (lines l).headD []

/-- A line goes on unless it ends here. -/
theorem firstLine_cons {c : Char} {cs : List Char} (hn : c ≠ '\n')
    (hr : c = '\r' → ¬ ['\n'] <+: cs) : firstLine (c :: cs) = c :: firstLine cs := by
  have honto : ∀ ls : List (List Char), (ontoFirst c ls).headD [] = c :: ls.headD [] := by
    intro ls
    cases ls <;> rfl
  unfold firstLine
  rw [← honto, lines]
  · exact hn
  · rintro cs' rfl rfl
    exact hr rfl (by simp)

/-- A text without line ends is the first line of what begins with it, if nothing follows
or a line end does. -/
theorem firstLine_append {line rest : List Char} (hn : '\n' ∉ line) (hr : '\r' ∉ line)
    (hrest : rest = [] ∨ ∃ more, rest = '\r' :: '\n' :: more) :
    firstLine (line ++ rest) = line := by
  induction line with
  | nil =>
    rcases hrest with rfl | ⟨more, rfl⟩
    · rfl
    · rfl
  | cons c cs ih =>
    rw [List.mem_cons, not_or] at hn hr
    rw [List.cons_append, firstLine_cons (Ne.symm hn.1) (fun hc => absurd hc.symm hr.1),
      ih hn.2 hr.2]

/-- A word, as it stands in a text between separators. -/
structure IsWord (p : α → Bool) (w : List α) : Prop where
  ne_nil : w ≠ []
  plain : ∀ c ∈ w, p c = false

/-- A word is some characters, none of which is a separator. -/
theorem IsWord.of_all {w : List α} (hne : w ≠ []) (h : (w.all fun c => !p c) = true) :
    IsWord p w :=
  ⟨hne, fun c hc => by simpa using List.all_eq_true.mp h c hc⟩

/-- What follows a word: nothing, or a separator first. -/
def Ends (p : α → Bool) (rest : List α) : Prop := ∀ c ∈ rest.head?, p c = true

-- ---------------------------------------------------------------------------
-- Words
-- ---------------------------------------------------------------------------

/-- A separator at the front starts no word. -/
theorem words_sep {c : α} (h : p c = true) (l : List α) : words p (c :: l) = words p l := by
  unfold words
  rw [List.splitOnP_cons_eq_if_modifyHead, if_pos h]
  rfl

/-- Nor do several. -/
theorem words_seps {pre : List α} (h : ∀ c ∈ pre, p c = true) (l : List α) :
    words p (pre ++ l) = words p l := by
  induction pre with
  | nil => rfl
  | cons c pre ih =>
    rw [List.cons_append, words_sep (h c List.mem_cons_self)]
    exact ih fun c' hc' => h c' (List.mem_cons_of_mem _ hc')

/-- A word comes first if it stands first. -/
theorem words_word {w rest : List α} (hw : IsWord p w) (hrest : Ends p rest) :
    words p (w ++ rest) = w :: words p rest := by
  have hkept : (fun w : List α => !w.isEmpty) w = true := by simp [hw.ne_nil]
  cases rest with
  | nil =>
    unfold words
    rw [List.append_nil, List.splitOnP_eq_singleton hw.plain]
    exact List.filter_cons_of_pos hkept
  | cons s rest =>
    have hs : p s = true := hrest s rfl
    rw [words_sep hs]
    unfold words
    rw [List.splitOnP_append_cons_of_forall_mem hw.plain s hs]
    exact List.filter_cons_of_pos hkept

/-- What is left after dropping separators does not begin with one. -/
theorem head?_dropWhile (p : α → Bool) (l : List α) : ∀ c ∈ (l.dropWhile p).head?, p c = false := by
  intro c hc
  have hnot := List.head?_dropWhile_not p l
  rw [Option.mem_def.mp hc] at hnot
  exact hnot

/-- What a text whose first word is `w` looks like: separators, the word, and
what ends it. -/
theorem words_eq_cons_iff {l w : List α} {ws : List (List α)} :
    words p l = w :: ws ↔ ∃ pre rest, l = pre ++ w ++ rest ∧ (∀ c ∈ pre, p c = true) ∧
      IsWord p w ∧ Ends p rest ∧ words p rest = ws := by
  constructor
  · intro h
    let tail := l.dropWhile p
    let first := tail.takeWhile fun c => !p c
    let rest := tail.dropWhile fun c => !p c
    have hl : l = l.takeWhile p ++ tail := List.takeWhile_append_dropWhile.symm
    have htail : tail = first ++ rest := List.takeWhile_append_dropWhile.symm
    have hpre : ∀ c ∈ l.takeWhile p, p c = true := fun c hc => List.mem_takeWhile_imp hc
    have hwords : words p tail = w :: ws := by
      rw [← h, hl, words_seps hpre]
    have hfirst : IsWord p first := by
      refine ⟨fun hnil => ?_, fun c hc => by simpa using List.mem_takeWhile_imp hc⟩
      cases hcases : tail with
      | nil =>
        rw [hcases] at hwords
        cases hwords
      | cons c cs =>
        have hhead : (l.dropWhile p).head? = some c := congrArg List.head? hcases
        have hc : p c = false := head?_dropWhile p l c hhead
        simp [first, hcases, hc] at hnil
    have hrest : Ends p rest := by
      intro c hc
      simpa using head?_dropWhile (fun c => !p c) tail c hc
    rw [htail, words_word hfirst hrest] at hwords
    obtain ⟨hw, hws⟩ := List.cons.inj hwords
    exact ⟨l.takeWhile p, rest, by rw [List.append_assoc, ← hw, ← htail, ← hl], hpre,
      hw ▸ hfirst, hrest, hws⟩
  · rintro ⟨pre, rest, rfl, hpre, hw, hrest, rfl⟩
    rw [List.append_assoc, words_seps hpre, words_word hw hrest]

-- ---------------------------------------------------------------------------
-- Trimming
-- ---------------------------------------------------------------------------

/-- A trimmed text does not begin with a separator. -/
theorem head?_trim (l : List α) : ∀ c ∈ (trim p l).head?, p c = false := by
  intro c hc
  obtain ⟨post, hpost⟩ := List.rdropWhile_prefix p (l.dropWhile p)
  refine head?_dropWhile p l c ?_
  rw [← hpost]
  exact List.mem_head?_append_of_mem_head? hc

/-- So its first word begins with it. -/
theorem words_trim_eq_cons_iff {l w : List α} {ws : List (List α)} :
    words p (trim p l) = w :: ws ↔ ∃ rest, trim p l = w ++ rest ∧ IsWord p w ∧ Ends p rest ∧
      words p rest = ws := by
  rw [words_eq_cons_iff]
  constructor
  · rintro ⟨pre, rest, htext, hpre, hw, hrest, hws⟩
    cases pre with
    | nil => exact ⟨rest, htext, hw, hrest, hws⟩
    | cons c pre =>
      have hplain : p c = false := head?_trim l c (by rw [htext]; rfl)
      have hsep : p c = true := hpre c List.mem_cons_self
      rw [hplain] at hsep
      cases hsep
  · rintro ⟨rest, htext, hw, hrest, hws⟩
    exact ⟨[], rest, htext, nofun, hw, hrest, hws⟩

end Text
