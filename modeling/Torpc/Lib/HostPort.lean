import Mathlib.Data.List.TakeWhile
import Torpc.Lib.Net

/-!
# Texts of the form `host:port`

What `SocketAddr::from_str` makes of a host and a port that somebody has put
together with a colon: it accepts the text if the host is an IPv4 address, or an
IPv6 address in brackets, and then the address is that host's and that port's
(`parse_hostPort`). The port is what follows the last colon, and the readers of
the host cannot tell the colon from the end of the text: `Alike` is what this
takes. A number is read back when nothing behind it goes on with a digit.
-/

namespace Net

open Joined

-- ---------------------------------------------------------------------------
-- Readers and what follows
-- ---------------------------------------------------------------------------

/-- The results of a reader on `pre` with `t` after it and with `t'` after it are
alike: it fails on both, or reads the same part of `pre`. -/
inductive Alike {α : Type} (t t' pre : List Char) :
    Option (α × List Char) → Option (α × List Char) → Prop where
  | fails : Alike t t' pre none none
  | reads (a : α) {rest : List Char} (h : rest <:+ pre) :
      Alike t t' pre (some (a, rest ++ t)) (some (a, rest ++ t'))

/-- A text that cannot go on with a number or with one of `marks`. -/
def Stops (radix : Nat) (marks : List Char) (t : List Char) : Prop :=
  ∀ c ∈ t.head?, digitVal radix c = none ∧ c ∉ marks

/-- The end of the text ends every number, and is none of the marks. -/
theorem stops_nil (radix : Nat) (marks : List Char) : Stops radix marks [] := nofun

/-- The reader cannot tell the two endings apart. -/
def Parser.Blind {α : Type} (p : Parser α) (t t' : List Char) : Prop :=
  ∀ pre, Alike t t' pre (p (pre ++ t)) (p (pre ++ t'))

section Alike

variable {α β : Type} {t t' pre : List Char}

/-- Results that are alike on a part of a text are alike on all of it. -/
theorem Alike.mono {pre' : List Char} {x x' : Option (α × List Char)} (h : Alike t t' pre x x')
    (hpre : pre <:+ pre') : Alike t t' pre' x x' := by
  cases h with
  | fails => exact .fails
  | reads a hrest => exact .reads a (hrest.trans hpre)

/-- The bind rule: readers that go on alike from alike results end up alike. -/
theorem Alike.bind {x x' : Option (α × List Char)} {f f' : α × List Char → Option (β × List Char)}
    (h : Alike t t' pre x x')
    (hf : ∀ a rest, Alike t t' rest (f (a, rest ++ t)) (f' (a, rest ++ t'))) :
    Alike t t' pre (x.bind f) (x'.bind f') := by
  cases h with
  | fails => exact .fails
  | reads a hrest => exact (hf a _).mono hrest

/-- Alike means that both fail, or that both read the same and leave the same rest in front
of what follows. -/
theorem Alike.or {x x' : Option (α × List Char)} (h : Alike t t' pre x x') :
    (x = none ∧ x' = none) ∨
      ∃ a rest, rest <:+ pre ∧ x = some (a, rest ++ t) ∧ x' = some (a, rest ++ t') := by
  cases h with
  | fails => exact .inl ⟨rfl, rfl⟩
  | reads a hrest => exact .inr ⟨a, _, hrest, rfl, rfl⟩

/-- A reader leaves an end of what it was given. -/
theorem Parser.Blind.suffix {p : Parser α} (h : p.Blind [] []) {cs rest : List Char} {a : α}
    (hp : p cs = some (a, rest)) : rest <:+ cs := by
  rcases (h cs).or with ⟨hnone, -⟩ | ⟨a', rest', hrest, hsome, -⟩
  · rw [List.append_nil, hp] at hnone
    cases hnone
  · rw [List.append_nil, hp] at hsome
    obtain ⟨-, rfl⟩ := Prod.mk.inj (Option.some.inj hsome)
    rwa [List.append_nil]

/-- What a reader has read in front of one ending it reads in front of another. -/
theorem Parser.Blind.transfer {p : Parser α} (h : p.Blind t t') {a : α}
    (hp : p (pre ++ t) = some (a, t)) : p (pre ++ t') = some (a, t') := by
  rcases (h pre).or with ⟨hnone, -⟩ | ⟨a', rest, -, hsome, hsome'⟩
  · cases hp.symm.trans hnone
  · obtain ⟨rfl, ht⟩ := Prod.mk.inj (Option.some.inj (hp.symm.trans hsome))
    rw [hsome', List.self_eq_append_left.mp ht, List.nil_append]

end Alike

section Readers

variable {radix : Nat} {marks t t' : List Char}

/-- A reader of a given mark cannot tell one end from another, since neither begins with the
mark. -/
theorem blind_givenChar {c : Char} (hc : c ∈ marks) (ht : Stops radix marks t)
    (ht' : Stops radix marks t') : Parser.Blind (givenChar c) t t' := by
  have hfails : ∀ {t : List Char}, Stops radix marks t → givenChar c t = none := by
    intro t ht
    cases t with
    | nil => rfl
    | cons x t =>
      have hx : x ≠ c := fun hxc => (ht x rfl).2 (hxc ▸ hc)
      exact if_neg hx
  intro pre
  cases pre with
  | nil =>
    rw [List.nil_append, List.nil_append, hfails ht, hfails ht']
    exact .fails
  | cons x pre =>
    rw [List.cons_append, List.cons_append, givenChar, givenChar]
    split
    · exact .reads () (List.suffix_cons x pre)
    · exact .fails

/-- The digits in front of what stops a number. -/
theorem takeWhile_stops (ht : Stops radix marks t) (pre : List Char) :
    ((pre ++ t).takeWhile fun c => (digitVal radix c).isSome) =
      pre.takeWhile fun c => (digitVal radix c).isSome := by
  induction pre with
  | nil =>
    cases t with
    | nil => rfl
    | cons x t =>
      have hx := (ht x rfl).1
      simp [hx]
  | cons x pre ih =>
    rw [List.cons_append, List.takeWhile_cons, List.takeWhile_cons, ih]

/-- A number ends at either end, so its reader cannot tell them apart. -/
theorem blind_readNumber (maxDigits : Option Nat) (allowZeroPrefix : Bool) (limit : Nat)
    (ht : Stops radix marks t) (ht' : Stops radix marks t') :
    Parser.Blind (readNumber radix maxDigits allowZeroPrefix limit) t t' := by
  intro pre
  have hlen : (pre.takeWhile fun c => (digitVal radix c).isSome).length ≤ pre.length :=
    (List.takeWhile_prefix _).length_le
  simp only [readNumber, takeWhile_stops ht, takeWhile_stops ht',
    List.drop_append_of_le_length hlen]
  repeat' split
  all_goals first
    | exact .fails
    | exact .reads _ (List.drop_suffix _ _)

/-- A reader behind a separator is blind if the reader itself is and the ends do not begin
with the separator. -/
theorem blind_readSeparator {α : Type} {sep : Char} {index : Nat} {inner : Parser α}
    (hsep : sep ∈ marks) (ht : Stops radix marks t) (ht' : Stops radix marks t')
    (hinner : inner.Blind t t') : Parser.Blind (readSeparator sep index inner) t t' := by
  intro pre
  unfold readSeparator
  split
  · exact hinner pre
  · exact (blind_givenChar hsep ht ht' pre).bind fun _ rest => hinner rest

/-- The reader of an IPv4 address is blind to what follows, as its numbers and its dots are.
-/
theorem blind_readIpv4Addr (hdot : '.' ∈ marks) (ht : Stops 10 marks t) (ht' : Stops 10 marks t') :
    Parser.Blind readIpv4Addr t t' := by
  have hoctet : ∀ index, Parser.Blind
      (readSeparator '.' index (readNumber 10 (some 3) false 255)) t t' :=
    fun index => blind_readSeparator hdot ht ht' (blind_readNumber _ _ _ ht ht')
  intro pre
  refine (hoctet 0 pre).bind fun a rest => (hoctet 1 rest).bind fun b rest => ?_
  refine (hoctet 2 rest).bind fun c rest => (hoctet 3 rest).bind fun d rest => ?_
  exact .reads _ (List.suffix_refl rest)

/-- What ends a hexadecimal number ends a decimal one. -/
theorem Stops.decimal (h : Stops 16 marks t) : Stops 10 marks t := by
  intro c hc
  obtain ⟨hnone, hmark⟩ := h c hc
  refine ⟨?_, hmark⟩
  simp only [digitVal, ite_eq_right_iff, reduceCtorEq, imp_false] at hnone ⊢
  exact fun hlt => hnone (Nat.lt_trans hlt (show 10 < 16 by omega))

/-- Groups of an IPv6 address are read alike in front of two ends: the same groups, the same
answer about an embedded IPv4 address, the same rest. -/
theorem blind_readGroups (hdot : '.' ∈ marks) (hcolon : ':' ∈ marks) (ht : Stops 16 marks t)
    (ht' : Stops 16 marks t') (slots i : Nat) (pre : List Char) :
    ∃ gs v4 rest, rest <:+ pre ∧ readGroups slots i (pre ++ t) = (gs, v4, rest ++ t) ∧
      readGroups slots i (pre ++ t') = (gs, v4, rest ++ t') := by
  induction slots generalizing i pre with
  | zero => exact ⟨[], false, pre, List.suffix_refl pre, rfl, rfl⟩
  | succ slots ih =>
    have hipv4 : Parser.Blind
        (fun cs => if 0 < slots then readSeparator ':' i readIpv4Addr cs else none) t t' := by
      intro pre
      dsimp only
      split
      · exact blind_readSeparator hcolon ht ht'
          (blind_readIpv4Addr hdot ht.decimal ht'.decimal) pre
      · exact .fails
    have hgroup : Parser.Blind (readSeparator ':' i (readNumber 16 (some 4) true 65535)) t t' :=
      blind_readSeparator hcolon ht ht' (blind_readNumber _ _ _ ht ht')
    rw [readGroups, readGroups]
    rcases (hipv4 pre).or with ⟨hnone, hnone'⟩ | ⟨v4, rest, hrest, hsome, hsome'⟩
    · simp only [hnone, hnone']
      rcases (hgroup pre).or with ⟨hnone, hnone'⟩ | ⟨g, rest, hrest, hsome, hsome'⟩
      · simp only [hnone, hnone']
        exact ⟨[], false, pre, List.suffix_refl pre, rfl, rfl⟩
      · simp only [hsome, hsome']
        obtain ⟨gs, v4, rest', hrest', hread, hread'⟩ := ih (i + 1) rest
        simp only [hread, hread']
        exact ⟨_, _, rest', hrest'.trans hrest, rfl, rfl⟩
    · simp only [hsome, hsome']
      exact ⟨_, _, rest, hrest, rfl, rfl⟩

/-- The reader of an IPv6 address is blind, on either side of its double colon. -/
theorem blind_readIpv6Addr (hdot : '.' ∈ marks) (hcolon : ':' ∈ marks) (ht : Stops 16 marks t)
    (ht' : Stops 16 marks t') : Parser.Blind readIpv6Addr t t' := by
  intro pre
  obtain ⟨head, v4, rest, hrest, hread, hread'⟩ := blind_readGroups hdot hcolon ht ht' 8 0 pre
  simp only [readIpv6Addr, hread, hread']
  split
  · exact .reads _ hrest
  split
  · exact .fails
  refine Alike.mono ?_ hrest
  refine (blind_givenChar hcolon ht ht' rest).bind fun _ rest => ?_
  refine (blind_givenChar hcolon ht ht' rest).bind fun _ rest => ?_
  obtain ⟨tail, v4', rest', hrest', hread, hread'⟩ :=
    blind_readGroups hdot hcolon ht ht' (8 - (head.length + 1)) 0 rest
  simp only [hread, hread']
  split
  · exact .reads _ hrest'
  · exact .fails

/-- The reader of a scope is blind, as that of its number is. -/
theorem blind_readScopeId (hpercent : '%' ∈ marks) (ht : Stops 10 marks t)
    (ht' : Stops 10 marks t') : Parser.Blind readScopeId t t' := by
  intro pre
  refine (blind_givenChar hpercent ht ht' pre).bind fun _ rest => ?_
  refine (blind_readNumber _ _ _ ht ht' rest).bind fun scope rest => ?_
  exact .reads _ (List.suffix_refl rest)

end Readers

-- ---------------------------------------------------------------------------
-- Numbers
-- ---------------------------------------------------------------------------

section Digits

variable {radix : Nat} {marks t : List Char}

/-- The value of a digit is what it was made from. -/
def Radix (radix : Nat) : Prop :=
  1 < radix ∧ radix ≤ 16 ∧ ∀ d < radix, digitVal radix d.digitChar = some d

/-- Decimal digits have the values they are made from. -/
theorem radix_ten : Radix 10 := ⟨by omega, by omega, by decide⟩

/-- Hexadecimal digits have the values they are made from. -/
theorem radix_sixteen : Radix 16 := ⟨by omega, by omega, by decide⟩

/-- The digits of a number, read from the front, make the number again. -/
theorem foldl_toDigits (hr : Radix radix) (n : Nat) :
    (Nat.toDigits radix n).foldl (fun acc c => acc * radix + (digitVal radix c).getD 0) 0 = n := by
  obtain ⟨hone, -, hdigit⟩ := hr
  induction n using Nat.strong_induction_on with
  | _ n ih =>
    rw [Nat.toDigits_eq_if hone]
    by_cases hn : n < radix
    · rw [if_pos hn, List.foldl_cons, List.foldl_nil, hdigit n hn]
      simp
    · have hmod : n % radix < radix := Nat.mod_lt _ (by omega)
      have hdiv : n / radix < n := Nat.div_lt_self (by omega) hone
      rw [if_neg hn, List.foldl_append, ih (n / radix) hdiv, List.foldl_cons, List.foldl_nil,
        hdigit _ hmod]
      exact Nat.div_add_mod' n radix

/-- Every digit of a number is a digit to the reader. -/
theorem isSome_of_mem_toDigits (hr : Radix radix) {n : Nat} {c : Char}
    (hc : c ∈ Nat.toDigits radix n) : (digitVal radix c).isSome = true := by
  obtain ⟨hone, -, hdigit⟩ := hr
  induction n using Nat.strong_induction_on with
  | _ n ih =>
    rw [Nat.toDigits_eq_if hone] at hc
    by_cases hn : n < radix
    · rw [if_pos hn, List.mem_singleton] at hc
      rw [hc, hdigit n hn]
      rfl
    · have hmod : n % radix < radix := Nat.mod_lt _ (by omega)
      rw [if_neg hn, List.mem_append, List.mem_singleton] at hc
      rcases hc with hc | rfl
      · exact ih (n / radix) (Nat.div_lt_self (by omega) hone) hc
      · rw [hdigit _ hmod]
        rfl

/-- Only zero begins with the digit 0. -/
theorem head_toDigits (hr : Radix radix) {n : Nat}
    (h : (Nat.toDigits radix n).head? = some '0') : n = 0 := by
  obtain ⟨hone, -, hdigit⟩ := hr
  induction n using Nat.strong_induction_on with
  | _ n ih =>
    rw [Nat.toDigits_eq_if hone] at h
    by_cases hn : n < radix
    · rw [if_pos hn, List.head?_cons] at h
      have hn := hdigit n hn
      rw [Option.some.inj h] at hn
      have hzero := hdigit 0 (by omega)
      exact Option.some.inj (hn.symm.trans hzero)
    · have hdiv : n / radix < n := Nat.div_lt_self (by omega) hone
      rw [if_neg hn, List.head?_append_of_ne_nil _ Nat.toDigits_ne_nil] at h
      have hquot := ih (n / radix) hdiv h
      rw [Nat.div_eq_zero_iff] at hquot
      omega

/-- A number is read back, in front of anything that does not go on with it. -/
theorem readNumber_toDigits (hr : Radix radix) {maxDigits : Option Nat} {allowZeroPrefix : Bool}
    {limit n : Nat} (hn : n ≤ limit) (hmax : ∀ m ∈ maxDigits, 0 < m ∧ n < radix ^ m)
    (ht : Stops radix marks t) :
    readNumber radix maxDigits allowZeroPrefix limit (Nat.toDigits radix n ++ t) =
      some (n, t) := by
  have hdigits : ((Nat.toDigits radix n ++ t).takeWhile fun c => (digitVal radix c).isSome) =
      Nat.toDigits radix n := by
    rw [takeWhile_stops ht]
    exact List.takeWhile_eq_self_iff.mpr fun c hc => isSome_of_mem_toDigits hr hc
  have hlong : maxDigits.any (· < (Nat.toDigits radix n).length) = false := by
    rw [Option.any_eq_false]
    intro m hm
    obtain ⟨hpos, hlt⟩ := hmax m (Option.mem_def.mpr hm)
    have hlen := (Nat.length_toDigits_le_iff hr.1 hpos).mpr hlt
    simpa using hlen
  have hzero : ((Nat.toDigits radix n).head? == some '0' &&
      1 < (Nat.toDigits radix n).length) = false := by
    by_contra hbad
    rw [Bool.not_eq_false, Bool.and_eq_true, beq_iff_eq, decide_eq_true_eq] at hbad
    have hlen := hbad.2
    rw [head_toDigits hr hbad.1, Nat.toDigits_eq_if hr.1, if_pos (by have := hr.1; omega)] at hlen
    simp at hlen
  simp only [readNumber, hdigits, foldl_toDigits hr]
  rw [if_neg Nat.toDigits_ne_nil, if_neg (by rw [hlong]; exact Bool.false_ne_true),
    if_neg (by rw [Bool.and_assoc, hzero, Bool.and_false]; exact Bool.false_ne_true),
    if_neg (by omega), List.drop_left]

/-- In front of an end there is no number to read. -/
theorem readNumber_none {maxDigits : Option Nat} {allowZeroPrefix : Bool} {limit : Nat}
    (ht : Stops radix marks t) : readNumber radix maxDigits allowZeroPrefix limit t = none := by
  have hdigits : (t.takeWhile fun c => (digitVal radix c).isSome) = [] := by
    have hnil := takeWhile_stops ht []
    rwa [List.nil_append, List.takeWhile_nil] at hnil
  simp only [readNumber, hdigits, if_true]

end Digits

-- ---------------------------------------------------------------------------
-- Ports
-- ---------------------------------------------------------------------------

/-- A port is read back from a colon and its decimal digits. -/
theorem readPort_decimal (port : UInt16) :
    readPort (':' :: decimal port.toNat) = some (port, []) := by
  have hle : port.toNat ≤ 65535 := Nat.le_of_lt_succ port.toNat_lt
  have hread : readNumber 10 none true 65535 (decimal port.toNat ++ []) = some (port.toNat, []) :=
    readNumber_toDigits radix_ten hle nofun (stops_nil 10 [])
  rw [List.append_nil] at hread
  simp [readPort, givenChar, hread]

/-- A given character that has been read is the first one of the text, and the rest is what
is left. -/
theorem givenChar_eq_some {c : Char} {cs rest : List Char} {u : Unit}
    (h : givenChar c cs = some (u, rest)) : cs = c :: rest := by
  cases cs with
  | nil => cases h
  | cons x cs =>
    rw [givenChar] at h
    split at h
    · next hx =>
      cases h
      rw [hx]
    · cases h

/-- A number that is all of the text is nothing but digits. -/
theorem readNumber_digits {radix limit n : Nat} {maxDigits : Option Nat} {allowZeroPrefix : Bool}
    {cs : List Char} (h : readNumber radix maxDigits allowZeroPrefix limit cs = some (n, [])) :
    ∀ c ∈ cs, (digitVal radix c).isSome = true := by
  let p := fun c => (digitVal radix c).isSome
  have hrest : cs.drop (cs.takeWhile p).length = [] := by
    simp only [readNumber] at h
    repeat' split at h
    all_goals first
      | exact (Prod.mk.inj (Option.some.inj h)).2
      | cases h
  have hall : cs.takeWhile p = cs :=
    (List.takeWhile_prefix p).eq_of_length_le (List.drop_eq_nil_iff.mp hrest)
  exact List.takeWhile_eq_self_iff.mp hall

/-- A port that ends a text is behind a colon, and there is none in it. -/
theorem readPort_eq_some {cs : List Char} {port : UInt16} (h : readPort cs = some (port, [])) :
    ∃ ds, cs = ':' :: ds ∧ ':' ∉ ds := by
  simp only [readPort, Option.bind_eq_bind, Option.bind_eq_some_iff] at h
  obtain ⟨⟨_, ds⟩, hcolon, ⟨n, rest⟩, hnumber, hend⟩ := h
  obtain ⟨-, rfl⟩ := Prod.mk.inj (Option.some.inj hend)
  refine ⟨ds, givenChar_eq_some hcolon, fun hmem => ?_⟩
  have hdigit := readNumber_digits hnumber ':' hmem
  cases hdigit

-- ---------------------------------------------------------------------------
-- Hosts
-- ---------------------------------------------------------------------------

/-- An IP address, for IPv6 with its scope. -/
inductive Host where
  | v4 (ip : Ipv4Addr)
  | v6 (ip : Ipv6Addr) (scopeId : UInt32)
  deriving DecidableEq, Repr

/-- The socket address of a host and a port. -/
def Host.at (port : UInt16) : Host → SocketAddr
  | .v4 ip => .v4 ip port
  | .v6 ip scopeId => .v6 ip port 0 scopeId

/-- What stands between the brackets of an IPv6 socket address. -/
def readScoped : Parser (Ipv6Addr × UInt32) := fun cs => do
  let (ip, cs) ← readIpv6Addr cs
  let (scope, cs) := (readScopeId cs).getD (0, cs)
  some ((ip, scope), cs)

def Host.bracketed : List Char → Option Host
  | '[' :: cs =>
    match readScoped cs with
    | some ((ip, scopeId), [']']) => some (.v6 ip scopeId)
    | _ => none
  | _ => none

/-- The host as a socket address has it: an IPv4 address, or an IPv6 address in
brackets. -/
def Host.ofAddrText (host : List Char) : Option Host :=
  match readIpv4Addr host with
  | some (ip, []) => some (.v4 ip)
  | _ => Host.bracketed host

/-- The host that a text can be taken for: an IPv6 address needs no brackets by itself. -/
def Host.parse (host : String) : Option Host :=
  (ofAddrText host.toList).orElse fun _ =>
    match readIpv6Addr host.toList with
    | some (ip, []) => some (.v6 ip 0)
    | _ => none

/-- In brackets stands an IPv6 address with its scope, up to the closing bracket and nothing
behind it. -/
theorem Host.bracketed_eq_some {host : List Char} {h : Host} : bracketed host = some h ↔
    ∃ cs ip scopeId, host = '[' :: cs ∧ readScoped cs = some ((ip, scopeId), [']']) ∧
      h = .v6 ip scopeId := by
  constructor
  · intro hb
    unfold bracketed at hb
    split at hb
    · split at hb
      · next ip scopeId hread => exact ⟨_, ip, scopeId, rfl, hread, (Option.some.inj hb).symm⟩
      · cases hb
    · cases hb
  · rintro ⟨cs, ip, scopeId, rfl, hread, rfl⟩
    rw [bracketed, hread]
    rfl

/-- The text of a host is an IPv4 address, or an IPv6 address in brackets. -/
theorem Host.ofAddrText_eq_some {host : List Char} {h : Host} : ofAddrText host = some h ↔
    (∃ ip, readIpv4Addr host = some (ip, []) ∧ h = .v4 ip) ∨ bracketed host = some h := by
  constructor
  · intro ho
    unfold ofAddrText at ho
    split at ho
    · next ip hread => exact .inl ⟨ip, hread, (Option.some.inj ho).symm⟩
    · exact .inr ho
  · rintro (⟨ip, hread, rfl⟩ | hb)
    · rw [ofAddrText, hread]
    · obtain ⟨cs, ip, scopeId, rfl, -, rfl⟩ := bracketed_eq_some.mp hb
      exact hb

/-- A host that is an address is read as one, before it could be taken for a name. -/
theorem Host.parse_of_addrText {host : String} {h : Host}
    (ho : ofAddrText host.toList = some h) : parse host = some h := by
  rw [parse, ho]
  rfl

/-- A host that no socket address has is an IPv6 address. -/
theorem Host.parse_of_not_addrText {host : String} {h : Host}
    (ho : ofAddrText host.toList = none) (hp : parse host = some h) : ∃ ip, h = .v6 ip 0 := by
  rw [parse, ho, Option.orElse_none] at hp
  split at hp
  · next ip _ => exact ⟨ip, (Option.some.inj hp).symm⟩
  · cases hp

/-- A text with an IPv6 address is in brackets up to the port. -/
theorem readSocketAddrV6_eq_some {cs rest : List Char} {addr : SocketAddr} :
    readSocketAddrV6 cs = some (addr, rest) ↔ ∃ cs', cs = '[' :: cs' ∧
      ∃ ip scopeId port rest', readScoped cs' = some ((ip, scopeId), ']' :: rest') ∧
        readPort rest' = some (port, rest) ∧ addr = .v6 ip port 0 scopeId := by
  constructor
  · intro h
    simp only [readSocketAddrV6, Option.bind_eq_bind, Option.bind_eq_some_iff] at h
    obtain ⟨⟨_, cs'⟩, hopen, ⟨ip, afterIp⟩, hip, ⟨_, rest'⟩, hclose, ⟨port, rest''⟩, hport,
      hend⟩ := h
    obtain ⟨rfl, rfl⟩ := Prod.mk.inj (Option.some.inj hend)
    refine ⟨cs', givenChar_eq_some hopen, ip, _, port, rest', ?_, hport, rfl⟩
    have hclose := givenChar_eq_some hclose
    simp only [readScoped, hip, Option.bind_eq_bind, Option.bind_some]
    rw [← hclose]
  · rintro ⟨cs', rfl, ip, scopeId, port, rest', hscoped, hport, rfl⟩
    simp only [readScoped, Option.bind_eq_bind, Option.bind_eq_some_iff] at hscoped
    obtain ⟨⟨ip', afterIp⟩, hip, hend⟩ := hscoped
    obtain ⟨hfst, hsnd⟩ := Prod.mk.inj (Option.some.inj hend)
    obtain ⟨rfl, rfl⟩ := Prod.mk.inj hfst
    simp only [readSocketAddrV6, givenChar, if_true, hip, hsnd, hport, Option.bind_eq_bind,
      Option.bind_some]

/-- The two forms of a socket address exclude each other. -/
theorem SocketAddr.parse_eq_some {s : String} {addr : SocketAddr} : parse s = some addr ↔
    readSocketAddrV4 s.toList = some (addr, []) ∨ readSocketAddrV6 s.toList = some (addr, []) := by
  unfold parse
  constructor
  · intro h
    split at h
    · next addr' hread =>
      obtain rfl := Option.some.inj h
      cases h4 : readSocketAddrV4 s.toList with
      | none =>
        rw [h4] at hread
        exact .inr hread
      | some x =>
        rw [h4] at hread
        exact .inl hread
    · cases h
  · rintro (h4 | h6)
    · rw [h4]
      rfl
    · obtain ⟨cs, hcs, -⟩ := readSocketAddrV6_eq_some.mp h6
      have h4 : readSocketAddrV4 s.toList = none := by
        rw [hcs]
        rfl
      rw [h4, h6]
      rfl

section HostPort

variable {host : List Char} {port : UInt16} {addr : SocketAddr}

/-- The colon in front of the port ends an IPv4 address. -/
theorem stops_colon (t : List Char) : Stops 10 ['.'] (':' :: t) := by
  rintro c ⟨⟩
  decide

/-- The closing bracket ends all that stands in the brackets. -/
theorem stops_bracket (t : List Char) : Stops 16 ['.', ':', '%'] (']' :: t) := by
  rintro c ⟨⟩
  decide

/-- A text put together from host and port is an IPv4 socket address just if the host is an
IPv4 address, and then it is that host's with that port. -/
theorem readSocketAddrV4_hostPort :
    readSocketAddrV4 (host ++ ':' :: decimal port.toNat) = some (addr, []) ↔
      ∃ ip, readIpv4Addr host = some (ip, []) ∧ addr = .v4 ip port := by
  have hdot : '.' ∈ ['.'] := List.mem_singleton.mpr rfl
  have hnil : Stops 10 ['.'] [] := stops_nil _ _
  constructor
  · intro h
    simp only [readSocketAddrV4, Option.bind_eq_bind, Option.bind_eq_some_iff] at h
    obtain ⟨⟨ip, rest⟩, hip, ⟨port', rest'⟩, hport, hend⟩ := h
    obtain ⟨rfl, rfl⟩ := Prod.mk.inj (Option.some.inj hend)
    -- the colon that the address ends at is the last one
    obtain ⟨ds, rfl, hds⟩ := readPort_eq_some hport
    obtain ⟨text, htext⟩ := (blind_readIpv4Addr hdot hnil hnil).suffix hip
    obtain ⟨rfl, rfl⟩ := split_last hds (notMem_decimal digitChar_ne_colon _) htext
    rw [readPort_decimal] at hport
    obtain ⟨rfl, -⟩ := Prod.mk.inj (Option.some.inj hport)
    have hread := (blind_readIpv4Addr hdot (stops_colon _) hnil).transfer hip
    rw [List.append_nil] at hread
    exact ⟨ip, hread, rfl⟩
  · rintro ⟨ip, hread, rfl⟩
    rw [← List.append_nil host] at hread
    have hip := (blind_readIpv4Addr hdot hnil (stops_colon (decimal port.toNat))).transfer hread
    simp only [readSocketAddrV4, hip, readPort_decimal, Option.bind_eq_bind, Option.bind_some]

/-- The reader of what stands in the brackets is blind to what follows them. -/
theorem blind_readScoped {t t' : List Char} (ht : Stops 16 ['.', ':', '%'] t)
    (ht' : Stops 16 ['.', ':', '%'] t') : Parser.Blind readScoped t t' := by
  intro pre
  refine (blind_readIpv6Addr (by decide) (by decide) ht ht' pre).bind fun ip rest => ?_
  have hscope := blind_readScopeId (by decide) ht.decimal ht'.decimal rest
  rcases hscope.or with ⟨hnone, hnone'⟩ | ⟨scopeId, rest', hrest', hsome, hsome'⟩
  · simp only [hnone, hnone', Option.getD_none]
    exact .reads _ (List.suffix_refl rest)
  · simp only [hsome, hsome', Option.getD_some]
    exact .reads _ hrest'

/-- It is an IPv6 socket address just if the host is one in brackets. -/
theorem readSocketAddrV6_hostPort :
    readSocketAddrV6 (host ++ ':' :: decimal port.toNat) = some (addr, []) ↔
      ∃ h, Host.bracketed host = some h ∧ addr = h.at port := by
  constructor
  · intro h
    obtain ⟨cs, hcs, ip, scopeId, port', rest, hscoped, hport, rfl⟩ := readSocketAddrV6_eq_some.mp h
    obtain ⟨ds, rfl, hds⟩ := readPort_eq_some hport
    have hnil : Stops 16 ['.', ':', '%'] [] := stops_nil _ _
    obtain ⟨text, rfl⟩ := (blind_readScoped hnil hnil).suffix hscoped
    have hcs : host ++ ':' :: decimal port.toNat = ('[' :: (text ++ [']'])) ++ ':' :: ds := by
      simpa using hcs
    obtain ⟨rfl, rfl⟩ := split_last (notMem_decimal digitChar_ne_colon _) hds hcs
    rw [readPort_decimal] at hport
    obtain ⟨rfl, -⟩ := Prod.mk.inj (Option.some.inj hport)
    have hread := (blind_readScoped (stops_bracket _) (stops_bracket [])).transfer hscoped
    exact ⟨.v6 ip scopeId, Host.bracketed_eq_some.mpr ⟨_, ip, scopeId, rfl, hread, rfl⟩, rfl⟩
  · rintro ⟨h, hb, rfl⟩
    obtain ⟨cs, ip, scopeId, rfl, hscoped, rfl⟩ := Host.bracketed_eq_some.mp hb
    have hnil : Stops 16 ['.', ':', '%'] [] := stops_nil _ _
    obtain ⟨text, rfl⟩ := (blind_readScoped hnil hnil).suffix hscoped
    have hread := (blind_readScoped (stops_bracket [])
      (stops_bracket (':' :: decimal port.toNat))).transfer hscoped
    refine readSocketAddrV6_eq_some.mpr
      ⟨_, rfl, ip, scopeId, port, _, ?_, readPort_decimal port, rfl⟩
    simpa using hread

end HostPort

/-- **Host and port.** The address of `host:port` is that host's with that port,
if it is a host as a socket address has it, and there is none otherwise. -/
theorem parse_hostPort (host : String) (port : UInt16) :
    SocketAddr.parse (host ++ ":" ++ String.ofList (decimal port.toNat)) =
      (Host.ofAddrText host.toList).map (·.at port) := by
  have htext : (host ++ ":" ++ String.ofList (decimal port.toNat)).toList =
      host.toList ++ ':' :: decimal port.toNat := by
    simp
  refine Option.ext fun addr => ?_
  rw [SocketAddr.parse_eq_some, htext, readSocketAddrV4_hostPort, readSocketAddrV6_hostPort,
    Option.map_eq_some_iff]
  constructor
  · rintro (⟨ip, hread, rfl⟩ | ⟨h, hb, rfl⟩)
    · exact ⟨.v4 ip, Host.ofAddrText_eq_some.mpr (.inl ⟨ip, hread, rfl⟩), rfl⟩
    · exact ⟨h, Host.ofAddrText_eq_some.mpr (.inr hb), rfl⟩
  · rintro ⟨h, ho, rfl⟩
    rcases Host.ofAddrText_eq_some.mp ho with ⟨ip, hread, rfl⟩ | hb
    · exact .inl ⟨ip, hread, rfl⟩
    · exact .inr ⟨h, hb, rfl⟩

end Net
