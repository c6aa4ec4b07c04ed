import Mathlib.Data.List.Forall2
import Mathlib.Data.Nat.Digits.Defs
import Mathlib.Order.Monotone.Basic

/-!
# Texts as bytes, and bytes as texts

What stands between a text and the bytes that are sent, hashed or signed for it:
UTF-8, the two hexadecimal digits of a byte (as the `hex` crate writes and reads
them), and a frame that puts the length of a message right in front of it. A
frame of that kind has no separator; it can be undone all the same if longer
messages make longer frames (`framed_injective`), as decimal lengths do
(`framed_decimal_injective`).
-/

namespace Bytes

-- ---------------------------------------------------------------------------
-- UTF-8
-- ---------------------------------------------------------------------------

/-- `str::as_bytes`. -/
def utf8 (s : String) : List UInt8 := s.toList.flatMap String.utf8EncodeChar

/-- The bytes are those of core's own encoding, which is what the lemmas of the library are
about. -/
theorem utf8_eq (s : String) : utf8 s = s.toByteArray.data.toList := by
  rw [← String.utf8Encode_toList, List.utf8Encode, List.data_toByteArray]
  rfl

/-- `str::len`. -/
theorem length_utf8 (s : String) : (utf8 s).length = s.utf8ByteSize := by
  rw [utf8_eq, ← String.size_toByteArray]
  rfl

/-- Different texts have different bytes, because UTF-8 can be decoded. -/
theorem utf8_injective : Function.Injective utf8 := by
  intro s t h
  rw [utf8_eq, utf8_eq] at h
  exact String.toByteArray_inj.mp (ByteArray.ext (Array.toList_inj.mp h))

/-- The bytes of two texts in a row are the bytes of the one and then those of the other. -/
theorem utf8_append (s t : String) : utf8 (s ++ t) = utf8 s ++ utf8 t := by
  rw [utf8, String.toList_append, List.flatMap_append]
  rfl

/-- An ASCII character is a byte. -/
theorem utf8EncodeChar_ascii {c : Char} (h : c.toNat < 128) :
    String.utf8EncodeChar c = [.ofNat c.toNat] := by
  have hsize : c.utf8Size = 1 := by
    have hle : c.val ≤ 0x7f := by
      rw [UInt32.le_iff_toNat_le]
      exact Nat.le_of_lt_succ h
    simp [Char.utf8Size, hle]
  rw [String.utf8EncodeChar_eq_singleton hsize]
  rfl

/-- A text of ASCII characters has one byte for each of them, its code. -/
theorem utf8_ascii {s : String} (h : ∀ c ∈ s.toList, c.toNat < 128) :
    utf8 s = s.toList.map fun c => .ofNat c.toNat := by
  unfold utf8
  generalize s.toList = cs at h
  induction cs with
  | nil => rfl
  | cons c cs ih =>
    rw [List.flatMap_cons, utf8EncodeChar_ascii (h c List.mem_cons_self),
      ih fun c' hc' => h c' (List.mem_cons_of_mem _ hc')]
    rfl

-- ---------------------------------------------------------------------------
-- Comparing without a branch
-- ---------------------------------------------------------------------------

/-- The bits in which the bytes of a pair differ, of all pairs together. -/
def difference (diff : UInt8) (pairs : List (UInt8 × UInt8)) : UInt8 :=
  pairs.foldl (fun diff pair => diff ||| (pair.1 ^^^ pair.2)) diff

/-- The accumulated difference is zero just if it was zero before and all pairs are equal:
no bit is ever taken back. -/
theorem difference_eq_zero_iff {diff : UInt8} {pairs : List (UInt8 × UInt8)} :
    difference diff pairs = 0 ↔ diff = 0 ∧ ∀ pair ∈ pairs, pair.1 = pair.2 := by
  unfold difference
  induction pairs generalizing diff with
  | nil => simp
  | cons pair pairs ih =>
    rw [List.foldl_cons, ih, UInt8.or_eq_zero_iff, UInt8.xor_eq_zero_iff, List.forall_mem_cons,
      and_assoc]

/-- Lists of one length with no difference are the same list. -/
theorem difference_zip_eq_zero_iff {as bs : List UInt8} (h : as.length = bs.length) :
    difference 0 (as.zip bs) = 0 ↔ as = bs := by
  rw [difference_eq_zero_iff, ← List.forall₂_eq_eq_eq, List.forall₂_iff_zip]
  exact ⟨fun hsame => ⟨h, fun hpair => hsame.2 _ hpair⟩,
    fun hsame => ⟨rfl, fun pair hpair => hsame.2 hpair⟩⟩

-- ---------------------------------------------------------------------------
-- Hexadecimal
-- ---------------------------------------------------------------------------

/-- The two digits of a byte. -/
def hexPair (b : UInt8) : List Char := [(b.toNat / 16).digitChar, (b.toNat % 16).digitChar]

/-- `hex::encode`. -/
def hexEncode (bs : List UInt8) : String := String.ofList (bs.flatMap hexPair)

/-- `hex::FromHexError`. -/
inductive FromHexError where
  | invalidHexCharacter (c : Char) (index : Nat)
  | oddLength
  deriving DecidableEq, Repr

/-- The value of the digit at a position; digits of either letter case are read. -/
def hexVal (c : UInt8) (index : Nat) : Except FromHexError Nat :=
  if 65 ≤ c.toNat ∧ c.toNat ≤ 70 then .ok (c.toNat - 65 + 10)
  else if 97 ≤ c.toNat ∧ c.toNat ≤ 102 then .ok (c.toNat - 97 + 10)
  else if 48 ≤ c.toNat ∧ c.toNat ≤ 57 then .ok (c.toNat - 48)
  else .error (.invalidHexCharacter (.ofNat c.toNat) index)

/-- The pairs of digits from a position on. -/
def readPairs (index : Nat) : List UInt8 → Except FromHexError (List UInt8)
  | hi :: lo :: rest => do
    let hi ← hexVal hi index
    let lo ← hexVal lo (index + 1)
    let bs ← readPairs (index + 2) rest
    return .ofNat (hi * 16 + lo) :: bs
  | _ => .ok []

/-- `hex::decode`. -/
def hexDecode (s : String) : Except FromHexError (List UInt8) :=
  if (utf8 s).length % 2 ≠ 0 then .error .oddLength else readPairs 0 (utf8 s)

/-- A hexadecimal digit, as it is written, has the value that it was made from. -/
theorem hexVal_digitChar {d : Nat} (h : d < 16) (index : Nat) :
    hexVal (.ofNat d.digitChar.toNat) index = .ok d := by
  have hdigit : ∀ d < 16, (if 65 ≤ d.digitChar.toNat ∧ d.digitChar.toNat ≤ 70 then
        some (d.digitChar.toNat - 65 + 10)
      else if 97 ≤ d.digitChar.toNat ∧ d.digitChar.toNat ≤ 102 then
        some (d.digitChar.toNat - 97 + 10)
      else if 48 ≤ d.digitChar.toNat ∧ d.digitChar.toNat ≤ 57 then some (d.digitChar.toNat - 48)
      else none) = some d ∧ d.digitChar.toNat < 256 := by decide
  obtain ⟨hval, hbyte⟩ := hdigit d h
  rw [hexVal, UInt8.toNat_ofNat_of_lt' hbyte]
  split_ifs at hval ⊢ <;> simp_all

/-- Hexadecimal digits are ASCII, so each of them is one byte. -/
theorem digitChar_ascii : ∀ d < 16, d.digitChar.toNat < 128 := by decide

/-- The two characters for a byte are hexadecimal digits. -/
theorem mem_hexPair {b : UInt8} {c : Char} (h : c ∈ hexPair b) : ∃ d < 16, c = d.digitChar := by
  have hb := b.toNat_lt
  rcases List.mem_cons.mp h with rfl | h
  · exact ⟨_, by omega, rfl⟩
  · exact ⟨_, by omega, List.mem_singleton.mp h⟩

/-- So is everything in an encoded text. -/
theorem mem_hexEncode {bs : List UInt8} {c : Char} (h : c ∈ (hexEncode bs).toList) :
    ∃ d < 16, c = d.digitChar := by
  rw [hexEncode, String.toList_ofList] at h
  obtain ⟨b, -, hc⟩ := List.mem_flatMap.mp h
  exact mem_hexPair hc

/-- The bytes of an encoded text are two for each byte that it encodes. -/
theorem utf8_hexEncode (bs : List UInt8) :
    utf8 (hexEncode bs) = bs.flatMap fun b => (hexPair b).map fun c => .ofNat c.toNat := by
  rw [utf8_ascii fun c hc => ?_, hexEncode, String.toList_ofList, List.map_flatMap]
  obtain ⟨d, hd, rfl⟩ := mem_hexEncode hc
  exact digitChar_ascii d hd

/-- Read pair by pair, an encoded text gives its bytes back, whatever position the reader
counts from. -/
theorem readPairs_hexPairs (bs : List UInt8) (index : Nat) :
    readPairs index (bs.flatMap fun b => (hexPair b).map fun c => .ofNat c.toNat) = .ok bs := by
  induction bs generalizing index with
  | nil => rfl
  | cons b bs ih =>
    have hb := b.toNat_lt
    have hhi := hexVal_digitChar (d := b.toNat / 16) (by omega) index
    have hlo := hexVal_digitChar (d := b.toNat % 16) (by omega) (index + 1)
    have hbyte : UInt8.ofNat (b.toNat / 16 * 16 + b.toNat % 16) = b := by
      rw [Nat.div_add_mod', UInt8.ofNat_toNat]
    rw [List.flatMap_cons, hexPair, List.map_cons, List.map_cons, List.map_nil, List.cons_append,
      List.cons_append, List.nil_append, readPairs, hhi, hlo, ih]
    simp only [Bind.bind, Except.bind, Pure.pure, Except.pure, hbyte]

/-- Texts written one after the other, from the left. -/
theorem toList_foldl_append {α : Type} (write : α → List Char) (l : List α) (s : String) :
    (l.foldl (fun s a => s ++ String.ofList (write a)) s).toList =
      s.toList ++ l.flatMap write := by
  induction l generalizing s with
  | nil => simp
  | cons a l ih =>
    rw [List.foldl_cons, ih, String.toList_append, String.toList_ofList, List.flatMap_cons,
      List.append_assoc]

/-- What has been written is read back. -/
theorem hexDecode_hexEncode (bs : List UInt8) : hexDecode (hexEncode bs) = .ok bs := by
  have heven : (utf8 (hexEncode bs)).length % 2 = 0 := by
    rw [utf8_hexEncode, List.length_flatMap]
    simp only [hexPair, List.map_cons, List.map_nil, List.length_cons, List.length_nil,
      List.map_const', List.sum_replicate_nat]
    omega
  rw [hexDecode, if_neg (not_not.mpr heven), utf8_hexEncode, readPairs_hexPairs]

-- ---------------------------------------------------------------------------
-- Frames
-- ---------------------------------------------------------------------------

/-- A message behind a header that depends on its length. -/
def framed {α : Type} (header : Nat → List α) (message : List α) : List α :=
  header message.length ++ message

/-- If longer messages make longer frames, a frame is that of one message: its
length tells the message's. -/
theorem framed_injective {α : Type} {header : Nat → List α}
    (h : StrictMono fun n => (header n).length + n) : Function.Injective (framed header) := by
  intro a b hab
  have hlength : (header a.length).length + a.length = (header b.length).length + b.length := by
    simpa only [framed, List.length_append] using congrArg List.length hab
  have hsame : a.length = b.length := h.injective hlength
  unfold framed at hab
  rw [hsame] at hab
  exact List.append_cancel_left hab

/-- A larger number has no fewer digits. -/
theorem length_toDigits_mono {b : Nat} (hb : 1 < b) : Monotone fun n => (b.toDigits n).length := by
  intro m n hmn
  have hpos : 0 < (b.toDigits n).length := Nat.length_toDigits_pos
  have hn : n < b ^ (b.toDigits n).length :=
    (Nat.length_toDigits_le_iff hb hpos).mp (Nat.le_refl _)
  exact (Nat.length_toDigits_le_iff hb hpos).mpr (Nat.lt_of_le_of_lt hmn hn)

/-- A number has as many bytes as it has decimal digits. -/
theorem length_utf8_toString (n : Nat) :
    (utf8 (toString n)).length = (Nat.toDigits 10 n).length := by
  have htext : (toString n).toList = Nat.toDigits 10 n := by
    show (Nat.repr n).toList = _
    rw [Nat.repr_eq_ofList_toDigits, String.toList_ofList]
  rw [utf8_ascii fun c hc => ?_, List.length_map, htext]
  rw [htext] at hc
  have hdigit := Char.isDigit_iff_toNat.mp (Nat.isDigit_of_mem_toDigits (by decide) (by decide) hc)
  exact Nat.lt_of_le_of_lt hdigit.2 (by decide)

/-- A length in decimal, behind any lead. -/
theorem framed_decimal_injective (lead : String) :
    Function.Injective (framed fun n => utf8 (lead ++ toString n)) := by
  refine framed_injective fun m n hmn => ?_
  have hdigits := length_toDigits_mono (b := 10) (by decide) (Nat.le_of_lt hmn)
  simp only [utf8_append, List.length_append, length_utf8_toString] at hdigits ⊢
  omega

end Bytes
