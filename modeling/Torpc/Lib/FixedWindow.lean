import Mathlib.Data.List.Basic
import Mathlib.Logic.Function.Basic
import Mathlib.Tactic.SplitIfs

/-!
# Fixed-window counters

A fixed-window counter admits at most `max` charges per window of `width`; a
window opens with the first charge after the previous one ran out. A shared
*store* keeps one counter per key and drops old windows from time to time.

The store decides like the counters on their own because a window it drops has
run out: whatever the counter would do next, it opens a new one, and so does a
store that has forgotten it. Nothing else about the sweep matters, neither when
it comes nor which of the run-out windows it picks.

Main results:

* `charge_agree` — a counter and its forgetful copy decide alike;
* `Store.run_eq_alone` — every decision of the store is that of the key's own
  counter on the key's own charges;
* `admittedIn_le`, `admitted_window_le` — what a counter admits in an interval as
  long as its window, and in one window;
* `count_decisions_new` — how many of the charges in one window are admitted;
* `Store.recent_check` — a store that is swept regularly holds no key that has not
  been charged for long.
-/

namespace FixedWindow

structure Window where
  count : Nat
  start : Nat
  deriving DecidableEq, Repr

variable {κ : Type} (max width : Nat)

-- ---------------------------------------------------------------------------
-- One counter
-- ---------------------------------------------------------------------------

/-- One charge at `now`: whether it is admitted, and the window after it. -/
def charge (now : Nat) : Option Window → Bool × Window
  | some w =>
    if now - w.start < width then
      if max ≤ w.count then (false, w) else (true, ⟨w.count + 1, w.start⟩)
    else (true, ⟨1, now⟩)
  | none => (true, ⟨1, now⟩)

/-- The decisions of a counter for charges at the given times. -/
def decisions : Option Window → List Nat → List Bool
  | _, [] => []
  | w, now :: times =>
    (charge max width now w).1 :: decisions (some (charge max width now w).2) times

/-- `kept` is `alone`, or has lost a window that has run out by `now`. -/
def Agree (now : Nat) (kept alone : Option Window) : Prop :=
  kept = alone ∨ (kept = none ∧ ∀ w ∈ alone, width ≤ now - w.start)

variable {max width}

/-- Two counters that agree at one instant agree at every later one: a window that has run
out stays so. -/
theorem Agree.mono {now now' : Nat} {kept alone : Option Window} (h : Agree width now kept alone)
    (hle : now ≤ now') : Agree width now' kept alone := by
  rcases h with h | ⟨hkept, hout⟩
  · exact .inl h
  · refine .inr ⟨hkept, fun w hw => ?_⟩
    have := hout w hw
    omega

/-- Counters that agree make the same decision, and have the same window afterwards. -/
theorem charge_agree {now : Nat} {kept alone : Option Window} (h : Agree width now kept alone) :
    charge max width now kept = charge max width now alone := by
  rcases h with rfl | ⟨rfl, hout⟩
  · rfl
  · cases alone with
    | none => rfl
    | some w =>
      -- the counter has a window, but one that has run out
      have hw := hout w rfl
      have hnot : ¬ now - w.start < width := by omega
      simp only [charge, if_neg hnot]

/-- Dropping run-out windows keeps the agreement. -/
theorem Agree.filter {now : Nat} {kept alone : Option Window} (h : Agree width now kept alone)
    (keep : Window → Bool) (hkeep : ∀ w, keep w = false → width ≤ now - w.start) :
    Agree width now (kept.filter keep) alone := by
  rcases h with rfl | ⟨rfl, hout⟩
  · cases kept with
    | none => exact .inl rfl
    | some w =>
      cases hk : keep w with
      | true =>
        refine .inl ?_
        rw [Option.filter_some, if_pos hk]
      | false =>
        refine .inr ⟨?_, fun w' hw' => ?_⟩
        · rw [Option.filter_some, if_neg (by simp [hk])]
        · obtain rfl := Option.some.inj hw'
          exact hkeep w hk
  · exact .inr ⟨rfl, hout⟩

-- ---------------------------------------------------------------------------
-- A store of counters
-- ---------------------------------------------------------------------------

/-- What can happen to a store: a charge, or a sweep that keeps only windows
younger than `cutoff`. -/
inductive Event (κ : Type) where
  | check (now : Nat) (key : κ)
  | sweep (now : Nat)

def Event.now : Event κ → Nat
  | .check now _ => now
  | .sweep now => now

/-- The same event under another naming of the keys. -/
def Event.map {κ' : Type} (f : κ → κ') : Event κ → Event κ'
  | .check now key => .check now (f key)
  | .sweep now => .sweep now

/-- Renaming the key leaves the event at its instant. -/
@[simp] theorem Event.map_now {κ' : Type} (f : κ → κ') (e : Event κ) : (e.map f).now = e.now := by
  cases e <;> rfl

/-- The times at which a key is charged. -/
def timesOf [DecidableEq κ] (key : κ) : List (Event κ) → List Nat
  | [] => []
  | .check now k :: es => if k = key then now :: timesOf key es else timesOf key es
  | .sweep _ :: es => timesOf key es

/-- Under an injective renaming of the keys each key keeps its own events. -/
theorem timesOf_map {κ' : Type} [DecidableEq κ] [DecidableEq κ'] {f : κ → κ'}
    (hf : Function.Injective f) (key : κ) (events : List (Event κ)) :
    timesOf (f key) (events.map (Event.map f)) = timesOf key events := by
  induction events with
  | nil => rfl
  | cons e es ih =>
    cases e with
    | check now k =>
      by_cases hk : k = key
      · subst hk
        simp only [List.map_cons, Event.map, timesOf, if_true, ih]
      · have hfk : f k ≠ f key := fun h => hk (hf h)
        simp only [List.map_cons, Event.map, timesOf, if_neg hk, if_neg hfk, ih]
    | sweep now => simp only [List.map_cons, Event.map, timesOf, ih]

abbrev Store (κ : Type) := κ → Option Window

variable [DecidableEq κ]

def Store.step (max width cutoff : Nat) (s : Store κ) : Event κ → Option (κ × Bool) × Store κ
  | .check now key =>
    let (ok, w) := charge max width now (s key)
    (some (key, ok), Function.update s key (some w))
  | .sweep now => (none, fun key => (s key).filter fun w => decide (now - w.start < cutoff))

/-- The decisions of a run, each with its key. -/
def Store.run (max width cutoff : Nat) : Store κ → List (Event κ) → List (κ × Bool)
  | _, [] => []
  | s, e :: es =>
    (s.step max width cutoff e).1.toList ++
      Store.run max width cutoff (s.step max width cutoff e).2 es

/-- The decisions made for one key. -/
def decisionsOf (key : κ) (out : List (κ × Bool)) : List Bool :=
  (out.filter fun p => p.1 = key).map Prod.snd

/-- The decisions for a key in a run are those in its parts, in order. -/
theorem decisionsOf_append (key : κ) (out out' : List (κ × Bool)) :
    decisionsOf key (out ++ out') = decisionsOf key out ++ decisionsOf key out' := by
  simp [decisionsOf]

/-- A single decision is one for its own key alone. -/
theorem decisionsOf_single (key k : κ) (ok : Bool) :
    decisionsOf key [(k, ok)] = if k = key then [ok] else [] := by
  by_cases hk : k = key <;> simp [decisionsOf, hk]

/-- Every decision for a key is the one its own counter makes, given a store
that agrees with that counter and a sweep that keeps windows for `width`. -/
theorem Store.run_eq_alone {cutoff : Nat} (hcutoff : width ≤ cutoff) (key : κ)
    (events : List (Event κ)) (hsorted : events.Pairwise fun e e' => e.now ≤ e'.now)
    (s : Store κ) (alone : Option Window)
    (hagree : ∀ e ∈ events, Agree width e.now (s key) alone) :
    decisionsOf key (Store.run max width cutoff s events) =
      decisions max width alone (timesOf key events) := by
  -- the agreement at the time of the next event is what a step carries on
  induction events generalizing s alone with
  | nil => rfl
  | cons e es ih =>
    rw [List.pairwise_cons] at hsorted
    obtain ⟨hlater, hsorted⟩ := hsorted
    have hnow := hagree e List.mem_cons_self
    have hrest : ∀ e' ∈ es, Agree width e'.now (s key) alone :=
      fun e' he' => hagree e' (List.mem_cons_of_mem _ he')
    rw [Store.run, decisionsOf_append]
    cases e with
    | check now k =>
      by_cases hk : k = key
      · subst hk
        have hcharge : charge max width now (s k) = charge max width now alone :=
          charge_agree hnow
        have hnext := ih hsorted
          (Function.update s k (some (charge max width now (s k)).2))
          (some (charge max width now alone).2)
          (fun e' he' => .inl (by rw [Function.update_self, hcharge]))
        rw [hcharge] at hnext
        simp only [Store.step, Option.toList_some, decisionsOf_single, if_true, timesOf,
          decisions, hnext, hcharge, List.singleton_append]
      · have hnext := ih hsorted
          (Function.update s k (some (charge max width now (s k)).2)) alone
          (fun e' he' => by
            rw [Function.update_of_ne (Ne.symm hk)]
            exact hrest e' he')
        simp only [Store.step, Option.toList_some, decisionsOf_single, if_neg hk, timesOf,
          hnext, List.nil_append]
    | sweep now =>
      have hnow : Agree width now (s key) alone := hnow
      have hnext := ih hsorted
        (fun k => (s k).filter fun w => decide (now - w.start < cutoff)) alone
        (fun e' he' => by
          have hswept : Agree width now ((s key).filter _) alone :=
            Agree.filter hnow (fun w => decide (now - w.start < cutoff)) (fun w hw => by
              have hout := of_decide_eq_false hw
              omega)
          exact hswept.mono (hlater e' he'))
      simp only [Store.step, Option.toList_none, timesOf, hnext]
      rfl

-- ---------------------------------------------------------------------------
-- How much a counter admits
-- ---------------------------------------------------------------------------

section Cap

variable {max width m a now : Nat} {w : Option Window} {times : List Nat}

/-- The counter after charges at the given times. -/
def after (max width : Nat) : Option Window → List Nat → Option Window
  | w, [] => w
  | w, now :: times => after max width (some (charge max width now w).2) times

/-- The charges at the given times, each with its decision. -/
def outcomes (max width : Nat) : Option Window → List Nat → List (Nat × Bool)
  | _, [] => []
  | w, now :: times =>
    (now, (charge max width now w).1) :: outcomes max width (some (charge max width now w).2) times

/-- How many of the charges were admitted. -/
def admitted (out : List (Nat × Bool)) : Nat := out.countP Prod.snd

/-- And how many of those made in `[lo, hi)`. -/
def admittedIn (lo hi : Nat) (out : List (Nat × Bool)) : Nat :=
  out.countP fun o => o.2 && decide (lo ≤ o.1 ∧ o.1 < hi)

/-- Charging at some instants and then at others is charging at all of them in a row. -/
theorem after_append (times times' : List Nat) :
    after max width w (times ++ times') = after max width (after max width w times) times' := by
  induction times generalizing w with
  | nil => rfl
  | cons now times ih => exact ih

/-- The decisions at the later instants start from the window that the earlier ones have
left. -/
theorem outcomes_append (times times' : List Nat) :
    outcomes max width w (times ++ times') =
      outcomes max width w times ++ outcomes max width (after max width w times) times' := by
  induction times generalizing w with
  | nil => rfl
  | cons now times ih => simp only [List.cons_append, outcomes, after, ih]

/-- A charge falls into the open window, which has room or is full, or opens one. -/
theorem charge_cases (max width now : Nat) (w : Option Window) :
    (∃ v, w = some v ∧ now - v.start < width ∧ v.count < max ∧
      charge max width now w = (true, ⟨v.count + 1, v.start⟩)) ∨
    (∃ v, w = some v ∧ now - v.start < width ∧ max ≤ v.count ∧
      charge max width now w = (false, v)) ∨
    ((∀ v ∈ w, width ≤ now - v.start) ∧ charge max width now w = (true, ⟨1, now⟩)) := by
  cases w with
  | none => exact .inr (.inr ⟨nofun, rfl⟩)
  | some v =>
    by_cases hin : now - v.start < width
    · by_cases hfull : max ≤ v.count
      · exact .inr (.inl ⟨v, rfl, hin, hfull, by simp [charge, hin, hfull]⟩)
      · exact .inl ⟨v, rfl, hin, by omega, by simp [charge, hin, hfull]⟩
    · refine .inr (.inr ⟨?_, by simp [charge, hin]⟩)
      rintro _ ⟨⟩
      omega

/-- An admitted charge shows, unless it opens a window that is over at once and
just like the last. -/
theorem charge_same_iff {now : Nat} {w : Option Window} (h : (charge max width now w).1 = true) :
    some (charge max width now w).2 = w ↔ width = 0 ∧ w = some ⟨1, now⟩ := by
  rcases charge_cases max width now w with
    ⟨v, rfl, hin, -, hc⟩ | ⟨v, rfl, -, -, hc⟩ | ⟨hout, hc⟩ <;> rw [hc] at h ⊢
  · constructor
    · intro hsame
      have hcount := congrArg Window.count (Option.some.inj hsame)
      simp only [Nat.succ_ne_self] at hcount
    · rintro ⟨hwidth, -⟩
      omega
  · cases h
  · constructor
    · intro hsame
      refine ⟨?_, hsame.symm⟩
      have hover := hout ⟨1, now⟩ hsame.symm
      simp only [Nat.sub_self] at hover
      omega
    · rintro ⟨-, rfl⟩
      rfl

/-- A counter that shows at most `m` and no window from the future. -/
def Bounded (m now : Nat) (w : Option Window) : Prop := ∀ v ∈ w, v.count ≤ m ∧ v.start ≤ now

/-- A charge keeps the count within the bound, because it is admitted below the maximum only
or starts a window anew. -/
theorem Bounded.charge (h : Bounded m now w) (hm : max ≤ m) (hpos : 1 ≤ m) {later : Nat}
    (hlater : now ≤ later) : Bounded m later (some (charge max width now w).2) := by
  rintro _ ⟨⟩
  rcases charge_cases max width now w with
    ⟨v, hw, -, hroom, hc⟩ | ⟨v, hw, -, -, hc⟩ | ⟨-, hc⟩ <;> rw [hc]
  · have hv := (h v hw).2
    show v.count + 1 ≤ m ∧ v.start ≤ later
    omega
  · have hv := h v hw
    show v.count ≤ m ∧ v.start ≤ later
    omega
  · show 1 ≤ m ∧ now ≤ later
    omega

/-- What a counter can still admit in `[a, a + width)`: two windows meet the
interval at most, and only one if it began inside. -/
def room (m a width : Nat) : Option Window → Nat
  | none => 2 * m
  | some v =>
    if v.start + width ≤ a then 2 * m
    else if v.start < a then 2 * m - v.count
    else if v.start < a + width then m - v.count
    else 0

/-- An admitted charge in the interval takes from what there is room for, and no
other charge adds to it. -/
theorem room_charge (h : Bounded m now w) (hm : max ≤ m) (hpos : 1 ≤ m) :
    room m a width (some (charge max width now w).2) +
        (if (charge max width now w).1 && decide (a ≤ now ∧ now < a + width) then 1 else 0) ≤
      room m a width w := by
  rcases charge_cases max width now w with
    ⟨v, rfl, hin, hroom, hc⟩ | ⟨v, rfl, hin, -, hc⟩ | ⟨hout, hc⟩ <;> rw [hc]
  · obtain ⟨-, hstart⟩ := h v rfl
    simp only [room, Bool.true_and, decide_eq_true_eq]
    split_ifs <;> omega
  · simp only [Bool.false_and, Bool.false_eq_true, if_false]
    omega
  · cases w with
    | none =>
      simp only [room, Bool.true_and, decide_eq_true_eq]
      split_ifs <;> omega
    | some v =>
      -- the new window begins a full width after the old one
      obtain ⟨hcount, hstart⟩ := h v rfl
      have hgap := hout v rfl
      simp only [room, Bool.true_and, decide_eq_true_eq]
      split_ifs <;> omega

/-- Over an interval as long as a window no more is admitted than there is room in the
windows it meets. -/
theorem admittedIn_le_room (hm : max ≤ m) (hpos : 1 ≤ m)
    (hsorted : times.Pairwise (· ≤ ·)) (hw : ∀ t ∈ times, Bounded m t w) :
    admittedIn a (a + width) (outcomes max width w times) ≤ room m a width w := by
  induction times generalizing w with
  | nil => exact Nat.zero_le _
  | cons now times ih =>
    rw [List.pairwise_cons] at hsorted
    have hnow := hw now List.mem_cons_self
    have hrest := ih (w := some (charge max width now w).2) hsorted.2
      fun t ht => hnow.charge hm hpos (hsorted.1 t ht)
    have hstep : room m a width (some (charge max width now w).2) + _ ≤ room m a width w :=
      room_charge hnow hm hpos
    simp only [admittedIn, outcomes, List.countP_cons] at hrest ⊢
    omega

/-- However the charges lie, at most twice the limit is admitted in an interval as
long as the window. A limit of zero lets through what opens a window. -/
theorem admittedIn_le (hsorted : times.Pairwise (· ≤ ·)) (a : Nat) :
    admittedIn a (a + width) (outcomes max width none times) ≤ 2 * Nat.max max 1 :=
  admittedIn_le_room (Nat.le_max_left _ _) (Nat.le_max_right _ _) hsorted fun _ _ => nofun

/-- While one window lasts, what it has counted and what is still admitted stay within the
bound together. -/
theorem admitted_le_count (hm : max ≤ m) {v : Window} (hv : v.count ≤ m)
    (hin : ∀ t ∈ times, t - v.start < width) :
    admitted (outcomes max width (some v) times) + v.count ≤ m := by
  induction times generalizing v with
  | nil =>
    show 0 + v.count ≤ m
    omega
  | cons now times ih =>
    have hnow := hin now List.mem_cons_self
    have hrest : ∀ t ∈ times, t - v.start < width := fun t ht => hin t (List.mem_cons_of_mem _ ht)
    rcases charge_cases max width now (some v) with
      ⟨_, ⟨⟩, -, hroom, hc⟩ | ⟨_, ⟨⟩, -, -, hc⟩ | ⟨hout, -⟩
    · have hnext := ih (v := ⟨v.count + 1, v.start⟩) (show v.count + 1 ≤ m by omega) hrest
      simp only [admitted, outcomes, hc, List.countP_cons] at hnext ⊢
      simp only [if_true]
      omega
    · have hnext := ih hv hrest
      simp only [admitted, outcomes, hc, List.countP_cons] at hnext ⊢
      simp only [Bool.false_eq_true, if_false]
      omega
    · have := hout v rfl
      omega

/-- Of the charge that opens a window and all that fall into it, no more than the
limit is admitted. -/
theorem admitted_window_le (hopens : ∀ v ∈ w, width ≤ now - v.start)
    (hin : ∀ t ∈ times, t - now < width) :
    admitted (outcomes max width w (now :: times)) ≤ Nat.max max 1 := by
  have hcharge : charge max width now w = (true, ⟨1, now⟩) := by
    rcases charge_cases max width now w with
      ⟨v, hw, hlt, -⟩ | ⟨v, hw, hlt, -⟩ | ⟨-, hc⟩
    · have := hopens v hw
      omega
    · have := hopens v hw
      omega
    · exact hc
  have hrest : admitted (outcomes max width (some ⟨1, now⟩) times) + 1 ≤ Nat.max max 1 :=
    admitted_le_count (Nat.le_max_left max 1) (Nat.le_max_right max 1) hin
  simp only [admitted, outcomes, hcharge, List.countP_cons] at hrest ⊢
  simpa using hrest

/-- Charges that all fall into one window of the given width, which the first
one opens. -/
def OneWindow (width : Nat) (times : List Nat) : Prop :=
  times.Pairwise fun t t' => t' - t < width

/-- An open window admits charges until it is full. -/
theorem count_decisions_open {v : Window} (hin : ∀ t ∈ times, t - v.start < width) :
    (decisions max width (some v) times).count true = min times.length (max - v.count) := by
  induction times generalizing v with
  | nil => exact (Nat.zero_min _).symm
  | cons now times ih =>
    have hnow := hin now List.mem_cons_self
    have hrest : ∀ t ∈ times, t - v.start < width := fun t ht => hin t (List.mem_cons_of_mem _ ht)
    rw [decisions, List.count_cons, List.length_cons]
    rcases charge_cases max width now (some v) with
      ⟨_, ⟨⟩, -, hroom, hc⟩ | ⟨_, ⟨⟩, -, hfull, hc⟩ | ⟨hout, -⟩
    · have hnext := ih (v := ⟨v.count + 1, v.start⟩) hrest
      rw [hc, hnext]
      simp only [beq_self_eq_true, if_true]
      omega
    · rw [hc, ih hrest]
      simp only [Bool.false_beq, Bool.not_true, Bool.false_eq_true, if_false]
      omega
    · have := hout v rfl
      omega

/-- Of charges in one window the first is admitted, whatever the limit, and then
as many as the limit allows. -/
theorem count_decisions_new (h : OneWindow width times) :
    (decisions max width none times).count true = min times.length (Nat.max max 1) := by
  cases times with
  | nil => exact (Nat.zero_min _).symm
  | cons now times =>
    have hnext : (decisions max width (some ⟨1, now⟩) times).count true =
        min times.length (max - 1) := count_decisions_open (List.pairwise_cons.mp h).1
    rw [decisions, List.count_cons, List.length_cons, charge, hnext]
    simp only [beq_self_eq_true, if_true]
    rcases Nat.le_total max 1 with hmax | hmax
    · rw [show Nat.max max 1 = 1 from Nat.max_eq_right hmax]
      omega
    · rw [show Nat.max max 1 = max from Nat.max_eq_left hmax]
      omega

end Cap

-- ---------------------------------------------------------------------------
-- What a store remembers
-- ---------------------------------------------------------------------------

section Memory

variable {max width cutoff : Nat}

/-- The store after these events. -/
def Store.after (max width cutoff : Nat) : Store κ → List (Event κ) → Store κ
  | s, [] => s
  | s, e :: es => Store.after max width cutoff (s.step max width cutoff e).2 es

/-- Every window that is there began with a charge of its key, and each sweep so
far came before that or found the window young. -/
def Store.Remembers (cutoff : Nat) (s : Store κ) (past : List (Event κ)) : Prop :=
  ∀ key, ∀ v ∈ s key, .check v.start key ∈ past ∧
    ∀ u, .sweep u ∈ past → u ≤ v.start ∨ u < v.start + cutoff

/-- A check charges the window of its own key, and leaves the other windows alone. -/
theorem Store.step_check (s : Store κ) (now : Nat) (key : κ) :
    (s.step max width cutoff (.check now key)).2 =
      Function.update s key (some (charge max width now (s key)).2) := rfl

omit [DecidableEq κ] in
/-- An empty store remembers an empty past. -/
theorem Store.remembers_empty : Store.Remembers cutoff (fun _ : κ => none) [] := by
  intro key v hv
  cases hv

omit [DecidableEq κ] in
/-- What is remembered does not depend on later checks. -/
theorem Store.Remembers.check {s : Store κ} {past : List (Event κ)} (h : s.Remembers cutoff past)
    (now : Nat) (key : κ) : s.Remembers cutoff (past ++ [.check now key]) := by
  intro k v hv
  obtain ⟨hcheck, hsweeps⟩ := h k v hv
  refine ⟨List.mem_append_left _ hcheck, fun u hu => ?_⟩
  rw [List.mem_append, List.mem_singleton] at hu
  rcases hu with hu | hu
  · exact hsweeps u hu
  · cases hu

/-- One more event, not earlier than the past, is remembered as well: a check by the window
it is counted in, a sweep by dropping old windows alone. -/
theorem Store.Remembers.step {s : Store κ} {past : List (Event κ)} (h : s.Remembers cutoff past)
    {e : Event κ} (hpast : ∀ e' ∈ past, e'.now ≤ e.now) :
    (s.step max width cutoff e).2.Remembers cutoff (past ++ [e]) := by
  cases e with
  | check now key =>
    intro k v hv
    have hold := h.check now key
    rw [Store.step_check] at hv
    by_cases hk : k = key
    · subst hk
      rw [Function.update_self] at hv
      obtain rfl := Option.some.inj hv
      rcases charge_cases max width now (s k) with
        ⟨w, hw, -, -, hc⟩ | ⟨w, hw, -, -, hc⟩ | ⟨-, hc⟩ <;> rw [hc]
      · exact hold k w hw
      · exact hold k w hw
      · -- the charge opens a window, and no sweep so far is later than it
        refine ⟨by simp, fun u hu => .inl ?_⟩
        rw [List.mem_append, List.mem_singleton] at hu
        rcases hu with hu | hu
        · exact hpast _ hu
        · cases hu
    · rw [Function.update_of_ne hk] at hv
      exact hold k v hv
  | sweep now =>
    intro k v hv
    obtain ⟨hkept, hyoung⟩ := Option.filter_eq_some_iff.mp hv
    rw [decide_eq_true_eq] at hyoung
    obtain ⟨hcheck, hsweeps⟩ := h k v hkept
    refine ⟨List.mem_append_left _ hcheck, fun u hu => ?_⟩
    rw [List.mem_append, List.mem_singleton] at hu
    rcases hu with hu | hu
    · exact hsweeps u hu
    · obtain rfl : u = now := by cases hu; rfl
      exact .inr (by omega)

/-- So all the events of a sorted sequence are remembered after it. -/
theorem Store.Remembers.after {s : Store κ} {past es : List (Event κ)}
    (h : s.Remembers cutoff past)
    (hsorted : (past ++ es).Pairwise fun e e' => e.now ≤ e'.now) :
    (Store.after max width cutoff s es).Remembers cutoff (past ++ es) := by
  induction es generalizing s past with
  | nil =>
    rw [List.append_nil]
    exact h
  | cons e es ih =>
    rw [show past ++ e :: es = (past ++ [e]) ++ es by simp] at hsorted ⊢
    refine ih (h.step fun e' he' => ?_) hsorted
    have hfirst := (List.pairwise_append.mp hsorted).1
    exact (List.pairwise_append.mp hfirst).2.2 e' he' e List.mem_cons_self

/-- There is a sweep in every stretch of length `period` between `since` and `t`. -/
def SweptEvery (period since t : Nat) (events : List (Event κ)) : Prop :=
  ∀ a, since ≤ a → a + period ≤ t → ∃ now, .sweep now ∈ events ∧ a < now ∧ now ≤ a + period

/-- A store that is swept regularly holds a key only if the key was charged not
long ago. -/
theorem Store.recent_check {events : List (Event κ)} {period since t : Nat}
    (hsorted : events.Pairwise fun e e' => e.now ≤ e'.now)
    (hin : ∀ e ∈ events, since ≤ e.now ∧ e.now ≤ t) (hswept : SweptEvery period since t events)
    {key : κ} {v : Window} (hv : v ∈ Store.after max width cutoff (fun _ => none) events key) :
    .check v.start key ∈ events ∧ v.start ≤ t ∧ t < v.start + cutoff + period := by
  obtain ⟨hcheck, hsweeps⟩ := Store.remembers_empty.after (by simpa using hsorted) key v hv
  rw [List.nil_append] at hcheck hsweeps
  have htime : since ≤ v.start ∧ v.start ≤ t := hin _ hcheck
  refine ⟨hcheck, htime.2, ?_⟩
  -- otherwise there was a sweep after the window had grown old
  by_contra hlong
  obtain ⟨u, hu, hafter, -⟩ := hswept (v.start + cutoff) (by omega) (by omega)
  have := hsweeps u hu
  omega

end Memory

end FixedWindow
