import Mathlib.Algebra.Group.Nat.Defs
import Mathlib.Data.Bool.AllAny
import Mathlib.Tactic.SplitIfs
import Torpc.Lib.Text

/-!
# Bytes read as text, whatever they are

`String::from_utf8_lossy`: UTF-8 is decoded, and each longest part of a character
that cannot be continued becomes U+FFFD. What a program finds in the text by ASCII
patterns it would have found in the bytes: `Alike` says of two texts that they are
the same but for their stretches of characters outside ASCII, as the decoded text
and the bytes read one by one are (`alike_lossy`), and neither the first place of a
pattern nor the first line tells two such texts apart (`Alike.splitFirst`,
`Alike.firstLine`).
-/

namespace Utf8Lossy

-- ---------------------------------------------------------------------------
-- Decoding
-- ---------------------------------------------------------------------------

/-- U+FFFD. -/
def replacement : Char := Char.ofNat 0xFFFD

/-- The character of a code point; the ranges below allow no other number. -/
def decoded (n : Nat) : Char := if n.isValidChar then Char.ofNat n else replacement

/-- A character that has begun: its bits so far, how many bytes come after the
next one, and what the next one may be. -/
structure Pending where
  bits : Nat
  more : Nat
  low : UInt8
  high : UInt8

/-- A byte where a character can begin. -/
inductive Lead where
  | ascii (c : Char)
  | multi (p : Pending)
  | invalid

def lead (b : UInt8) : Lead :=
  if b < 0x80 then .ascii (Char.ofNat b.toNat)
  else if 0xC2 ≤ b ∧ b ≤ 0xDF then .multi ⟨b.toNat % 32, 0, 0x80, 0xBF⟩
  else if b = 0xE0 then .multi ⟨0, 1, 0xA0, 0xBF⟩
  else if b = 0xED then .multi ⟨0xD, 1, 0x80, 0x9F⟩
  else if 0xE1 ≤ b ∧ b ≤ 0xEF then .multi ⟨b.toNat % 16, 1, 0x80, 0xBF⟩
  else if b = 0xF0 then .multi ⟨0, 2, 0x90, 0xBF⟩
  else if 0xF1 ≤ b ∧ b ≤ 0xF3 then .multi ⟨b.toNat % 8, 2, 0x80, 0xBF⟩
  else if b = 0xF4 then .multi ⟨4, 2, 0x80, 0x8F⟩
  else .invalid

def Pending.allows (p : Pending) (b : UInt8) : Bool := decide (p.low ≤ b ∧ b ≤ p.high)

/-- The bits with those of one more byte. -/
def Pending.push (p : Pending) (b : UInt8) : Nat := p.bits * 64 + b.toNat % 64

/-- Decode from a byte where a character can begin. -/
def start (b : UInt8) (rest : Option Pending → List Char) : List Char :=
  match lead b with
  | .ascii c => c :: rest none
  | .multi p => rest (some p)
  | .invalid => replacement :: rest none

/-- Decode from the middle of a character, or from between characters. -/
def lossyFrom : Option Pending → List UInt8 → List Char
  | none, [] => []
  | some _, [] => [replacement]
  | none, b :: bs => start b fun st => lossyFrom st bs
  | some p, b :: bs =>
    if p.allows b then
      match p.more with
      | 0 => decoded (p.push b) :: lossyFrom none bs
      | more + 1 => lossyFrom (some ⟨p.push b, more, 0x80, 0xBF⟩) bs
    else replacement :: start b fun st => lossyFrom st bs

/-- `String::from_utf8_lossy`. -/
def lossy (bs : List UInt8) : List Char := lossyFrom none bs

example : lossy [0x48, 0xC3, 0xA9, 0xFF, 0xE2, 0x82, 0x21] =
    ['H', 'é', replacement, replacement, '!'] := by decide

/-- The bytes one by one. -/
def latin1 (bs : List UInt8) : List Char := bs.map fun b => Char.ofNat b.toNat

-- ---------------------------------------------------------------------------
-- Texts that differ outside ASCII
-- ---------------------------------------------------------------------------

/-- A character outside ASCII. -/
def Foreign (c : Char) : Prop := 128 ≤ c.toNat

def IsAscii (cs : List Char) : Prop := ∀ c ∈ cs, c.toNat < 128

instance (cs : List Char) : Decidable (IsAscii cs) := decidable_of_iff _ List.all_iff_forall_prop

/-- The same text but for its stretches of characters outside ASCII. -/
inductive Alike : List Char → List Char → Prop where
  | nil : Alike [] []
  | same (c : Char) {x y : List Char} (h : Alike x y) : Alike (c :: x) (c :: y)
  | foreign {p q x y : List Char} (hp : p ≠ []) (hq : q ≠ []) (hpf : ∀ c ∈ p, Foreign c)
      (hqf : ∀ c ∈ q, Foreign c) (h : Alike x y) : Alike (p ++ x) (q ++ y)

/-- Continued at its least, the character is outside ASCII. -/
def Pending.Wide (p : Pending) : Prop :=
  128 ≤ (p.bits * 64 + (p.low.toNat - 128)) * 64 ^ p.more ∧ 128 ≤ p.low.toNat ∧
    p.high.toNat < 192

instance (p : Pending) : Decidable p.Wide := inferInstanceAs (Decidable (_ ∧ _))

/-- The replacement character is no ASCII character. -/
theorem foreign_replacement : Foreign replacement := by
  unfold Foreign
  decide

/-- Neither is a character from 128 on, nor what stands for a number that is no character.
-/
theorem foreign_decoded {n : Nat} (h : 128 ≤ n) : Foreign (decoded n) := by
  unfold decoded
  split
  · next hvalid =>
    rw [Foreign, Char.ofNat, dif_pos hvalid]
    exact h
  · exact foreign_replacement

/-- Read byte for byte, a character has the number of its byte. -/
theorem toNat_latin1 (b : UInt8) : (Char.ofNat b.toNat).toNat = b.toNat := by
  have hlt := b.toNat_lt
  have hvalid : b.toNat.isValidChar := .inl (by omega)
  rw [Char.ofNat, dif_pos hvalid]
  rfl

/-- A byte is a character by itself, or part of characters outside ASCII. -/
theorem lead_cases (b : UInt8) :
    (lead b = .ascii (Char.ofNat b.toNat) ∧ b.toNat < 128) ∨
      (128 ≤ b.toNat ∧ ((∃ p, lead b = .multi p ∧ p.Wide) ∨ lead b = .invalid)) := by
  have hlow : ∀ n : UInt8, n ≤ b → n.toNat ≤ b.toNat := fun n h => UInt8.le_iff_toNat_le.mp h
  have hhigh : ∀ n : UInt8, b ≤ n → b.toNat ≤ n.toNat := fun n h => UInt8.le_iff_toNat_le.mp h
  have hequal : ∀ n : UInt8, b = n → b.toNat = n.toNat := fun n h => congrArg UInt8.toNat h
  have h80 : (0x80 : UInt8).toNat = 128 := rfl
  have hBF : (0xBF : UInt8).toNat = 191 := rfl
  by_cases hascii : b < 0x80
  · have hlt : b.toNat < 128 := UInt8.lt_iff_toNat_lt.mp hascii
    exact .inl ⟨if_pos hascii, hlt⟩
  · have hge : 128 ≤ b.toNat := hlow 0x80 (UInt8.not_lt.mp hascii)
    refine .inr ⟨hge, ?_⟩
    unfold lead
    rw [if_neg hascii]
    split_ifs with h2 hE0 hED h3 hF0 h4 hF4
    · have hC2 : 0xC2 ≤ b.toNat := hlow 0xC2 h2.1
      have hDF : b.toNat ≤ 0xDF := hhigh 0xDF h2.2
      refine .inl ⟨_, rfl, ?_⟩
      simp only [Pending.Wide, h80, hBF]
      omega
    · exact .inl ⟨_, rfl, by decide⟩
    · exact .inl ⟨_, rfl, by decide⟩
    · have hE1 : 0xE1 ≤ b.toNat := hlow 0xE1 h3.1
      have hEF : b.toNat ≤ 0xEF := hhigh 0xEF h3.2
      refine .inl ⟨_, rfl, ?_⟩
      simp only [Pending.Wide, h80, hBF]
      omega
    · exact .inl ⟨_, rfl, by decide⟩
    · have hF1 : 0xF1 ≤ b.toNat := hlow 0xF1 h4.1
      have hF3 : b.toNat ≤ 0xF3 := hhigh 0xF3 h4.2
      refine .inl ⟨_, rfl, ?_⟩
      simp only [Pending.Wide, h80, hBF]
      omega
    · exact .inl ⟨_, rfl, by decide⟩
    · exact .inr rfl

/-- What comes of a byte that is allowed: a character outside ASCII, or more of one. -/
theorem Pending.Wide.push {p : Pending} (h : p.Wide) {b : UInt8} (hb : p.allows b = true) :
    128 ≤ b.toNat ∧ 128 ≤ p.push b * 64 ^ p.more := by
  obtain ⟨hmin, hlow, hhigh⟩ := h
  obtain ⟨hlowb, hhighb⟩ := of_decide_eq_true hb
  have hge := UInt8.le_iff_toNat_le.mp hlowb
  have hle := UInt8.le_iff_toNat_le.mp hhighb
  refine ⟨by omega, hmin.trans (Nat.mul_le_mul_right _ ?_)⟩
  unfold Pending.push
  omega

/-- A pending character that has got one of its further bytes is still one from 128 on. -/
theorem Pending.Wide.next {p : Pending} (h : p.Wide) {b : UInt8} (hb : p.allows b = true)
    {more : Nat} (hmore : p.more = more + 1) : Pending.Wide ⟨p.push b, more, 0x80, 0xBF⟩ := by
  have hwide := (h.push hb).2
  have hzero : (0x80 : UInt8).toNat - 128 = 0 := rfl
  have hlow : 128 ≤ (0x80 : UInt8).toNat := by decide
  have hhigh : (0xBF : UInt8).toNat < 192 := by decide
  refine ⟨?_, hlow, hhigh⟩
  simp only [hzero, Nat.add_zero]
  rw [Nat.mul_assoc, ← Nat.pow_add_one', ← hmore]
  exact hwide

/-- Bytes from 128 on are no ASCII characters when they are read byte for byte. -/
theorem foreign_latin1 {bs : List UInt8} (h : ∀ b ∈ bs, 128 ≤ b.toNat) :
    ∀ c ∈ latin1 bs, Foreign c := by
  intro c hc
  obtain ⟨b, hb, rfl⟩ := List.mem_map.mp hc
  rw [Foreign, toNat_latin1]
  exact h b hb

/-- Bytes outside ASCII against one character outside ASCII. -/
theorem Alike.chunk {seen : List UInt8} (hne : seen ≠ []) (hseen : ∀ b ∈ seen, 128 ≤ b.toNat)
    {c : Char} (hc : Foreign c) {x y : List Char} (h : Alike x y) :
    Alike (latin1 seen ++ x) (c :: y) :=
  .foreign (q := [c]) (by simpa [latin1] using hne) (by simp) (foreign_latin1 hseen)
    (by simpa using hc) h

/-- Read byte for byte or decoded with replacements, a sequence of bytes gives texts that
have the same ASCII characters in the same order, with nothing but foreign ones in between;
also in the middle of a character. -/
theorem alike_lossyFrom (bs : List UInt8) :
    Alike (latin1 bs) (lossyFrom none bs) ∧
      ∀ (p : Pending) (seen : List UInt8), p.Wide → seen ≠ [] → (∀ b ∈ seen, 128 ≤ b.toNat) →
        Alike (latin1 seen ++ latin1 bs) (lossyFrom (some p) bs) := by
  induction bs with
  | nil =>
    refine ⟨.nil, fun p seen _ hne hseen => ?_⟩
    exact .chunk hne hseen foreign_replacement .nil
  | cons b bs ih =>
    obtain ⟨ihnone, ihsome⟩ := ih
    -- the byte where a character can begin
    have hstart : Alike (latin1 (b :: bs)) (start b fun st => lossyFrom st bs) := by
      have hone : latin1 (b :: bs) = latin1 [b] ++ latin1 bs := rfl
      unfold start
      rcases lead_cases b with ⟨hlead, -⟩ | ⟨hwide, ⟨p, hlead, hp⟩ | hlead⟩ <;> rw [hlead]
      · exact .same _ ihnone
      · rw [hone]
        exact ihsome p [b] hp (by simp) (by simpa using hwide)
      · rw [hone]
        exact .chunk (by simp) (by simpa using hwide) foreign_replacement ihnone
    refine ⟨hstart, fun p seen hp hne hseen => ?_⟩
    rw [lossyFrom]
    cases hb : p.allows b with
    | false => exact .chunk hne hseen foreign_replacement hstart
    | true =>
      obtain ⟨hwide, hbits⟩ := hp.push hb
      have hmore : latin1 seen ++ latin1 (b :: bs) = latin1 (seen ++ [b]) ++ latin1 bs := by
        simp [latin1]
      have hseen' : ∀ b' ∈ seen ++ [b], 128 ≤ b'.toNat := by
        intro b' hb'
        rcases List.mem_append.mp hb' with hb' | hb'
        · exact hseen b' hb'
        · rwa [List.mem_singleton.mp hb']
      rw [hmore, if_pos rfl]
      split
      · next hlast =>
        rw [hlast, Nat.pow_zero, Nat.mul_one] at hbits
        exact .chunk (by simp) hseen' (foreign_decoded hbits) ihnone
      · next more hmore => exact ihsome _ _ (hp.next hb hmore) (by simp) hseen'

/-- The decoded text is the bytes but for what is outside ASCII. -/
theorem alike_lossy (bs : List UInt8) : Alike (latin1 bs) (lossy bs) := (alike_lossyFrom bs).1

-- ---------------------------------------------------------------------------
-- What ASCII patterns cannot tell apart
-- ---------------------------------------------------------------------------

open Text

variable {pat x y : List Char}

/-- A pattern stands at the front of both texts, or of neither. -/
theorem Alike.starts (h : Alike x y) (hpat : IsAscii pat) :
    (∃ x' y', x = pat ++ x' ∧ y = pat ++ y' ∧ Alike x' y') ∨ (¬ pat <+: x ∧ ¬ pat <+: y) := by
  induction pat generalizing x y with
  | nil => exact .inl ⟨x, y, rfl, rfl, h⟩
  | cons c pat ih =>
    obtain ⟨hc, hrest⟩ := List.forall_mem_cons.mp hpat
    cases h with
    | nil => exact .inr ⟨by simp, by simp⟩
    | @same d x y h =>
      by_cases hcd : c = d
      · subst hcd
        rcases ih h hrest with ⟨x', y', rfl, rfl, h'⟩ | ⟨hx, hy⟩
        · exact .inl ⟨x', y', rfl, rfl, h'⟩
        · exact .inr ⟨by simpa using hx, by simpa using hy⟩
      · exact .inr ⟨by simp [hcd], by simp [hcd]⟩
    | @foreign p q x y hp hq hpf hqf h =>
      have hnot : ∀ {p x : List Char}, p ≠ [] → (∀ c ∈ p, Foreign c) →
          ¬ c :: pat <+: p ++ x := by
        intro p x hne hforeign hstarts
        obtain ⟨d, p', rfl⟩ := List.exists_cons_of_ne_nil hne
        rw [List.cons_append, List.cons_prefix_cons] at hstarts
        have hd := hforeign d List.mem_cons_self
        rw [Foreign, ← hstarts.1] at hd
        omega
      exact .inr ⟨hnot hp hpf, hnot hq hqf⟩

/-- No pattern begins outside ASCII. -/
theorem splitFirst_foreign (hne : pat ≠ []) (hpat : IsAscii pat) {p : List Char}
    (hp : ∀ c ∈ p, Foreign c) (x : List Char) :
    splitFirst pat (p ++ x) = (splitFirst pat x).map fun (a, b) => (p ++ a, b) := by
  induction p with
  | nil => exact Option.map_id'.symm
  | cons c p ih =>
    obtain ⟨hc, hrest⟩ := List.forall_mem_cons.mp hp
    obtain ⟨d, pat, rfl⟩ := List.exists_cons_of_ne_nil hne
    have hnot : ¬ d :: pat <+: c :: (p ++ x) := by
      rw [List.cons_prefix_cons]
      rintro ⟨rfl, -⟩
      have hd := hpat d List.mem_cons_self
      rw [Foreign] at hc
      omega
    rw [List.cons_append, splitFirst, if_neg hnot, ih hrest, Option.map_map]
    rfl

/-- An ASCII pattern is found in both of two such texts or in neither, and what is before
and behind it is alike again. -/
theorem Alike.splitFirst (hne : pat ≠ []) (hpat : IsAscii pat) (h : Alike x y) :
    (splitFirst pat x = none ∧ splitFirst pat y = none) ∨
      ∃ a b a' b', splitFirst pat x = some (a, b) ∧ splitFirst pat y = some (a', b') ∧
        Alike a a' ∧ Alike b b' := by
  induction h with
  | nil => exact .inl ⟨if_neg hne, if_neg hne⟩
  | @same c x y h ih =>
    rcases (Alike.same c h).starts hpat with ⟨x', y', hx, hy, h'⟩ | ⟨hx, hy⟩
    · refine .inr ⟨[], x', [], y', ?_, ?_, .nil, h'⟩
      · rw [Text.splitFirst, if_pos ⟨x', hx.symm⟩, hx, List.drop_left]
      · rw [Text.splitFirst, if_pos ⟨y', hy.symm⟩, hy, List.drop_left]
    · rw [Text.splitFirst, Text.splitFirst, if_neg hx, if_neg hy]
      rcases ih with ⟨hxn, hyn⟩ | ⟨a, b, a', b', hxs, hys, ha, hb⟩
      · exact .inl ⟨by rw [hxn]; rfl, by rw [hyn]; rfl⟩
      · exact .inr ⟨c :: a, b, c :: a', b', by rw [hxs]; rfl, by rw [hys]; rfl, .same c ha, hb⟩
  | @foreign p q x y hp hq hpf hqf h ih =>
    rw [splitFirst_foreign hne hpat hpf, splitFirst_foreign hne hpat hqf]
    rcases ih with ⟨hxn, hyn⟩ | ⟨a, b, a', b', hxs, hys, ha, hb⟩
    · exact .inl ⟨by rw [hxn]; rfl, by rw [hyn]; rfl⟩
    · exact .inr ⟨p ++ a, b, q ++ a', b', by rw [hxs]; rfl, by rw [hys]; rfl,
        .foreign hp hq hpf hqf ha, hb⟩

/-- So one contains it just if the other does. -/
theorem Alike.contains (hne : pat ≠ []) (hpat : IsAscii pat) (h : Alike x y) :
    contains pat x = contains pat y := by
  rw [← splitFirst_isSome, ← splitFirst_isSome]
  rcases h.splitFirst hne hpat with ⟨hx, hy⟩ | ⟨a, b, a', b', hx, hy, -, -⟩
  · rw [hx, hy]
  · rw [hx, hy]
    rfl

/-- Foreign characters in front of a text are in its first line. -/
theorem firstLine_foreign {p : List Char} (hp : ∀ c ∈ p, Foreign c) (x : List Char) :
    firstLine (p ++ x) = p ++ firstLine x := by
  induction p with
  | nil => rfl
  | cons c p ih =>
    obtain ⟨hc, hrest⟩ := List.forall_mem_cons.mp hp
    have hascii : ∀ d : Char, d.toNat < 128 → c ≠ d := by
      rintro d hd rfl
      rw [Foreign] at hc
      omega
    rw [List.cons_append, firstLine_cons (hascii _ (by decide))
      (fun hr => absurd hr (hascii _ (by decide))), ih hrest, List.cons_append]

/-- The first lines of such texts are alike, since line ends are ASCII. -/
theorem Alike.firstLine (h : Alike x y) : Alike (firstLine x) (firstLine y) := by
  induction h with
  | nil => exact .nil
  | @same c x y h ih =>
    by_cases hn : c = '\n'
    · subst hn
      exact .nil
    · rcases @Alike.starts ['\n'] _ _ h (by decide) with ⟨x', y', rfl, rfl, -⟩ | ⟨hx, hy⟩
      · by_cases hr : c = '\r'
        · subst hr
          exact .nil
        · have hreturn : ∀ rest, c = '\r' → ¬ ['\n'] <+: rest := fun _ hr' => absurd hr' hr
          rw [firstLine_cons hn (hreturn _), firstLine_cons hn (hreturn _)]
          exact .same c ih
      · rw [firstLine_cons hn fun _ => hx, firstLine_cons hn fun _ => hy]
        exact .same c ih
  | @foreign p q x y hp hq hpf hqf h ih =>
    rw [firstLine_foreign hpf, firstLine_foreign hqf]
    exact .foreign hp hq hpf hqf ih

end Utf8Lossy
