import Torpc.Lib.HostPort

/-!
# Socket addresses are read back

What `Display` writes for a socket address, `FromStr` reads, and it is that
address again: the elided zeros of an IPv6 address, the dotted form of a mapped
one and the scope behind a percent sign included (`parse_display`). The flow
information of an IPv6 address alone is not written, and is 0 afterwards.

The groups of an IPv6 address are read up to the end of the text, or up to the
two colons that stand for the zeros.
-/

namespace Net

open Joined

-- ---------------------------------------------------------------------------
-- IPv4
-- ---------------------------------------------------------------------------

section Ipv4

variable {marks t : List Char}

/-- A character that is no digit of the radix ends every number in front of it. -/
theorem stops_cons {radix : Nat} {c : Char} (hc : digitVal radix c = none) (t : List Char) :
    Stops radix [] (c :: t) := by
  rintro x ⟨⟩
  exact ⟨hc, List.not_mem_nil⟩

/-- An octet is read back. -/
theorem readOctet (o : UInt8) (ht : Stops 10 marks t) :
    readNumber 10 (some 3) false 255 (decimal o.toNat ++ t) = some (o.toNat, t) := by
  have hlt := o.toNat_lt
  refine readNumber_toDigits radix_ten (by omega) (fun m hm => ?_) ht
  obtain rfl := Option.mem_some.mp hm
  omega

/-- An IPv4 address is read back from its four decimal octets, in front of anything that
does not go on with a digit. -/
theorem readIpv4Addr_chars (ip : Ipv4Addr) (ht : Stops 10 marks t) :
    readIpv4Addr (ip.chars ++ t) = some (ip, t) := by
  have hdot : ∀ t, Stops 10 [] ('.' :: t) := stops_cons (by decide)
  have htext : ip.chars ++ t = decimal ip.a.toNat ++ '.' :: (decimal ip.b.toNat ++ '.' ::
      (decimal ip.c.toNat ++ '.' :: (decimal ip.d.toNat ++ t))) := by
    simp [Ipv4Addr.chars, Ipv4Addr.octets, join]
  rw [htext]
  simp only [readIpv4Addr, readSeparator, givenChar, readOctet _ (hdot _), readOctet _ ht,
    Option.bind_eq_bind, Option.bind_some, if_true, one_ne_zero, if_false,
    OfNat.ofNat_ne_zero, UInt8.ofNat_toNat]

end Ipv4

-- ---------------------------------------------------------------------------
-- IPv6
-- ---------------------------------------------------------------------------

section Ipv6

/-- A text with an IPv4 address in front has a dot. -/
theorem readIpv4Addr_none {cs : List Char} (h : '.' ∉ cs) : readIpv4Addr cs = none := by
  have hnil : Stops 10 ['.'] [] := stops_nil _ _
  have hnumber : Parser.Blind (readNumber 10 (some 3) false 255) [] [] :=
    blind_readNumber _ _ _ hnil hnil
  have hsecond : ∀ rest, '.' ∉ rest →
      readSeparator '.' 1 (readNumber 10 (some 3) false 255) rest = none := by
    intro rest hrest
    have hgiven : givenChar '.' rest = none := by
      cases rest with
      | nil => rfl
      | cons c rest =>
        refine if_neg fun hc => hrest ?_
        rw [hc]
        exact List.mem_cons_self
    simp [readSeparator, hgiven]
  simp only [readIpv4Addr, Option.bind_eq_bind]
  cases hfirst : readSeparator '.' 0 (readNumber 10 (some 3) false 255) cs with
  | none => rfl
  | some first =>
    obtain ⟨a, rest⟩ := first
    have hsuffix : rest <:+ cs := hnumber.suffix hfirst
    rw [Option.bind_some, hsecond rest fun hdot => h (hsuffix.mem hdot)]
    rfl

/-- The groups behind the first, each with its colon. -/
def moreGroups (segments : List UInt16) : List Char :=
  segments.flatMap fun s => ':' :: hex s.toNat

/-- The text of the groups, by the first of them: the others each stand behind a colon. -/
theorem groups_cons (s : UInt16) (segments : List UInt16) :
    groups (s :: segments) = hex s.toNat ++ moreGroups segments := by
  induction segments generalizing s with
  | nil => simp [groups, join, moreGroups]
  | cons s' segments ih =>
    have hjoin : groups (s :: s' :: segments) = hex s.toNat ++ ':' :: groups (s' :: segments) := rfl
    rw [hjoin, ih]
    simp [moreGroups]

/-- Nothing, or the two colons in place of zeros. -/
def GroupsEnd (t : List Char) : Prop := t = [] ∨ ∃ r, t = ':' :: ':' :: r

variable {t : List Char}

/-- What ends the groups of an IPv6 address ends the last number of them too. -/
theorem GroupsEnd.stops (h : GroupsEnd t) : Stops 16 [] t := by
  rcases h with rfl | ⟨r, rfl⟩
  · exact stops_nil _ _
  · exact stops_cons (by decide) _

/-- No group is read there, with a separator in front or without. -/
theorem readGroups_end (h : GroupsEnd t) (slots i : Nat) :
    readGroups slots i t = ([], false, t) := by
  have hnone : ∀ {maxDigits allowZeroPrefix limit},
      readNumber 10 maxDigits allowZeroPrefix limit t = none := fun {_ _ _} => by
    rcases h with rfl | ⟨r, rfl⟩
    · exact readNumber_none (stops_nil 10 [])
    · exact readNumber_none (stops_cons (by decide) _)
  have hcolon : ∀ {α : Type} {inner : Parser α}, (∀ r, inner (':' :: r) = none) → inner t = none →
      readSeparator ':' i inner t = none := by
    intro α inner hinner hstart
    unfold readSeparator
    split
    · exact hstart
    · rcases h with rfl | ⟨r, rfl⟩
      · rfl
      · simp [givenChar, hinner]
  have hipv4 : readSeparator ':' i readIpv4Addr t = none := by
    have hoctet : ∀ cs, readNumber 10 (some 3) false 255 cs = none → readIpv4Addr cs = none := by
      intro cs hcs
      simp [readIpv4Addr, readSeparator, hcs]
    refine hcolon (fun r => hoctet _ ?_) (hoctet t hnone)
    exact readNumber_none (stops_cons (by decide) r)
  have hgroup : readSeparator ':' i (readNumber 16 (some 4) true 65535) t = none :=
    hcolon (fun r => readNumber_none (stops_cons (by decide) r)) (readNumber_none h.stops)
  cases slots with
  | zero => rfl
  | succ slots =>
    rw [readGroups, hipv4, hgroup, ite_self]

/-- A group is read back. -/
theorem readGroup {marks : List Char} (s : UInt16) (ht : Stops 16 marks t) :
    readNumber 16 (some 4) true 65535 (hex s.toNat ++ t) = some (s.toNat, t) := by
  have hlt := s.toNat_lt
  refine readNumber_toDigits radix_sixteen (by omega) (fun m hm => ?_) ht
  obtain rfl := Option.mem_some.mp hm
  omega

/-- No dot is among the groups, so none of them is taken for the start of an embedded IPv4
address. -/
theorem dot_notMem_moreGroups (segments : List UInt16) : '.' ∉ moreGroups segments := by
  intro hmem
  obtain ⟨s, -, hs⟩ := List.mem_flatMap.mp hmem
  rcases List.mem_cons.mp hs with hdot | hdot
  · exact absurd hdot (by decide)
  · exact notMem_hex digitChar_ne_dot _ hdot

/-- A group ends where the next one begins, and the last one where the groups end. -/
theorem stops_moreGroups (ht : GroupsEnd t) (segments : List UInt16) :
    Stops 16 [] (moreGroups segments ++ t) := by
  cases segments with
  | nil => exact ht.stops
  | cons s segments => exact stops_cons (by decide) _

/-- The groups behind the first one are read back one by one, as many as there is room for,
up to what ends them. -/
theorem readGroups_more (ht : GroupsEnd t) (hdot : '.' ∉ t) {segments : List UInt16} {slots i : Nat}
    (hlen : segments.length ≤ slots) (hi : i ≠ 0) :
    readGroups slots i (moreGroups segments ++ t) = (segments, false, t) := by
  induction segments generalizing slots i with
  | nil => exact readGroups_end ht slots i
  | cons s segments ih =>
    cases slots with
    | zero => simp at hlen
    | succ slots =>
      have htext : moreGroups (s :: segments) ++ t =
          ':' :: (hex s.toNat ++ (moreGroups segments ++ t)) := by
        simp [moreGroups]
      have hnodot : '.' ∉ hex s.toNat ++ (moreGroups segments ++ t) := by
        simp [notMem_hex digitChar_ne_dot, dot_notMem_moreGroups, hdot]
      have hipv4 : readSeparator ':' i readIpv4Addr
          (':' :: (hex s.toNat ++ (moreGroups segments ++ t))) = none := by
        simp [readSeparator, hi, givenChar, readIpv4Addr_none hnodot]
      have hgroup : readSeparator ':' i (readNumber 16 (some 4) true 65535)
          (':' :: (hex s.toNat ++ (moreGroups segments ++ t))) =
            some (s.toNat, moreGroups segments ++ t) := by
        simp [readSeparator, hi, givenChar, readGroup s (stops_moreGroups ht segments)]
      have hrest : readGroups slots (i + 1) (moreGroups segments ++ t) = (segments, false, t) :=
        ih (by simpa using hlen) (Nat.succ_ne_zero i)
      rw [htext, readGroups, hipv4, hgroup, ite_self]
      simp only [hrest, UInt16.ofNat_toNat]

/-- Groups are read back, up to where they end. -/
theorem readGroups_groups (ht : GroupsEnd t) (hdot : '.' ∉ t) {segments : List UInt16} {slots : Nat}
    (hlen : segments.length ≤ slots) :
    readGroups slots 0 (groups segments ++ t) = (segments, false, t) := by
  cases segments with
  | nil => exact readGroups_end ht slots 0
  | cons s segments =>
    cases slots with
    | zero => simp at hlen
    | succ slots =>
      have hnodot : '.' ∉ hex s.toNat ++ (moreGroups segments ++ t) := by
        simp [notMem_hex digitChar_ne_dot, dot_notMem_moreGroups, hdot]
      have hgroup := readGroup s (stops_moreGroups ht segments)
      have hrest : readGroups slots (0 + 1) (moreGroups segments ++ t) = (segments, false, t) :=
        readGroups_more ht hdot (by simpa using hlen) one_ne_zero
      rw [groups_cons, List.append_assoc, readGroups]
      simp only [readSeparator, if_true, readIpv4Addr_none hnodot, ite_self, hgroup, hrest,
        UInt16.ofNat_toNat]

/-- The plain form: all eight groups, or two colons for the longest run of zeros. -/
theorem readIpv6Addr_plain (ip : Ipv6Addr) :
    readIpv6Addr (plainChars ip.segments) = some (ip, []) := by
  obtain ⟨segments, hlen⟩ := ip
  have hnil : '.' ∉ ([] : List Char) := List.not_mem_nil
  have hzero := (zeroScan_seen segments).longest
  simp only [plainChars]
  split
  · next hgap =>
    have hin := hzero.within (by omega)
    have hsplit := hzero.split hin
    let head := segments.take (zeroScan segments).longest.start
    let tail := segments.drop
      ((zeroScan segments).longest.start + (zeroScan segments).longest.len)
    have hhead : head.length = (zeroScan segments).longest.start := by
      rw [List.length_take]
      omega
    have htail : tail.length = 8 - (zeroScan segments).longest.start -
        (zeroScan segments).longest.len := by
      rw [List.length_drop, hlen]
      omega
    have hcolons : '.' ∉ ':' :: ':' :: groups tail := by
      simp [dot_notMem_groups]
    have hread₁ : readGroups 8 0 (groups head ++ ':' :: ':' :: groups tail) =
        (head, false, ':' :: ':' :: groups tail) :=
      readGroups_groups (.inr ⟨_, rfl⟩) hcolons (by omega)
    have hread₂ : readGroups (8 - (head.length + 1)) 0 (groups tail) = (tail, false, []) := by
      have hread := readGroups_groups (.inl rfl) hnil
        (show tail.length ≤ 8 - (head.length + 1) by omega)
      rwa [List.append_nil] at hread
    have hzeros : 8 - head.length - tail.length = (zeroScan segments).longest.len := by omega
    have hall : head ++ List.replicate (8 - head.length - tail.length) 0 ++ tail = segments := by
      rw [hzeros]
      exact hsplit.symm
    show readIpv6Addr (groups head ++ ':' :: ':' :: groups tail) = _
    simp only [readIpv6Addr, hread₁]
    rw [dif_neg (by omega), if_neg Bool.false_ne_true]
    simp only [givenChar, if_true, Option.bind_eq_bind, Option.bind_some, hread₂, hall, hlen,
      dite_true]
  · have hread := readGroups_groups (.inl rfl) hnil (show segments.length ≤ 8 by omega)
    rw [List.append_nil] at hread
    simp only [readIpv6Addr, hread, hlen, dite_true]

/-- The two bytes of a group make it up. -/
theorem group_of_bytes (s : UInt16) :
    UInt16.ofNat ((s >>> 8).toUInt8.toNat * 256 + s.toUInt8.toNat) = s := by
  have hlt := s.toNat_lt
  have h8 : (8 : UInt16).toNat % 16 = 8 := rfl
  refine UInt16.toNat_inj.mp ?_
  simp only [UInt16.toNat_ofNat', UInt16.toNat_toUInt8, UInt16.toNat_shiftRight, h8,
    Nat.shiftRight_eq_div_pow]
  omega

/-- An IPv6 address in the form with a dotted tail, as an IPv4 address that is mapped into
it is written, is read back. -/
theorem readIpv6Addr_mapped {ip : Ipv6Addr} {v4 : Ipv4Addr} (h : ip.toIpv4Mapped = some v4) :
    readIpv6Addr ("::ffff:".toList ++ v4.chars) = some (ip, []) := by
  obtain ⟨segments, hlen⟩ := ip
  simp only [Ipv6Addr.toIpv4Mapped] at h
  split at h
  · next ab cd =>
    obtain rfl := Option.some.inj h
    let v4 : Ipv4Addr := ⟨(ab >>> 8).toUInt8, ab.toUInt8, (cd >>> 8).toUInt8, cd.toUInt8⟩
    have hv4 : readIpv4Addr v4.chars = some (v4, []) := by
      have hread := readIpv4Addr_chars v4 (stops_nil 10 [])
      rwa [List.append_nil] at hread
    have hlast : readGroups 6 1 (':' :: v4.chars) = ([ab, cd], true, []) := by
      rw [readGroups, if_pos (by omega)]
      simp only [readSeparator, one_ne_zero, if_false, givenChar, if_true, Option.bind_some, hv4]
      simp only [v4, group_of_bytes]
    have hffff : readNumber 16 (some 4) true 65535 ("ffff".toList ++ ':' :: v4.chars) =
        some (65535, ':' :: v4.chars) :=
      readGroup 0xffff (stops_cons (by decide) v4.chars)
    have hno : readIpv4Addr ("ffff".toList ++ ':' :: v4.chars) = none := by
      have hoctet : readNumber 10 (some 3) false 255 ("ffff".toList ++ ':' :: v4.chars) = none :=
        readNumber_none (stops_cons (by decide) _)
      simp only [readIpv4Addr, readSeparator, if_true, hoctet, Option.bind_eq_bind,
        Option.bind_none]
    have htail : readGroups 7 0 ("ffff".toList ++ ':' :: v4.chars) =
        ([0xffff, ab, cd], true, []) := by
      rw [readGroups]
      simp only [readSeparator, if_true, hno, ite_self, hffff, hlast]
      rfl
    have hhead : readGroups 8 0 (':' :: ':' :: ("ffff".toList ++ ':' :: v4.chars)) =
        ([], false, ':' :: ':' :: ("ffff".toList ++ ':' :: v4.chars)) :=
      readGroups_end (.inr ⟨_, rfl⟩) 8 0
    show readIpv6Addr (':' :: ':' :: ("ffff".toList ++ ':' :: v4.chars)) = _
    simp only [readIpv6Addr, hhead]
    rw [dif_neg (by simp), if_neg Bool.false_ne_true]
    simp only [givenChar, if_true, Option.bind_eq_bind, Option.bind_some, List.length_nil,
      Nat.zero_add, Nat.reduceSub, htail]
    rfl
  · cases h

/-- An IPv6 address is read back from its text, whether zeros are elided in it, an IPv4
address is embedded, or neither. -/
theorem readIpv6Addr_chars (ip : Ipv6Addr) : readIpv6Addr ip.chars = some (ip, []) := by
  cases hm : ip.toIpv4Mapped with
  | some v4 =>
    rw [Ipv6Addr.chars_mapped hm]
    exact readIpv6Addr_mapped hm
  | none =>
    rw [Ipv6Addr.chars_plain hm]
    exact readIpv6Addr_plain ip

end Ipv6

-- ---------------------------------------------------------------------------
-- Socket addresses
-- ---------------------------------------------------------------------------

/-- The scope as `Display` writes it. -/
def scopeChars (scopeId : UInt32) : List Char :=
  if scopeId = 0 then [] else '%' :: decimal scopeId.toNat

/-- With the scope behind a percent sign, which is left out when it is 0, the part in the
brackets is read back. -/
theorem readScoped_chars (ip : Ipv6Addr) (scopeId : UInt32) :
    readScoped (ip.chars ++ (scopeChars scopeId ++ [']'])) = some ((ip, scopeId), [']']) := by
  have hstops : Stops 16 ['.', ':'] (scopeChars scopeId ++ [']']) := by
    unfold scopeChars
    split
    · rintro c ⟨⟩
      decide
    · rintro c ⟨⟩
      decide
  have hip : readIpv6Addr (ip.chars ++ (scopeChars scopeId ++ [']'])) =
      some (ip, scopeChars scopeId ++ [']']) := by
    have hread := readIpv6Addr_chars ip
    rw [← List.append_nil ip.chars] at hread
    exact (blind_readIpv6Addr (by decide) (by decide) (stops_nil 16 ['.', ':']) hstops).transfer
      hread
  have hscope : (readScopeId (scopeChars scopeId ++ [']'])).getD
      (0, scopeChars scopeId ++ [']']) = (scopeId, [']']) := by
    unfold scopeChars
    split
    · next hzero =>
      rw [hzero]
      rfl
    · have hlt := scopeId.toNat_lt
      have hnumber : readNumber 10 none true 4294967295 (decimal scopeId.toNat ++ [']']) =
          some (scopeId.toNat, [']']) :=
        readNumber_toDigits radix_ten (by omega) nofun (stops_cons (by decide) [])
      simp [readScopeId, givenChar, hnumber]
  simp only [readScoped, hip, hscope, Option.bind_eq_bind, Option.bind_some]

/-- The address without the flow information. -/
def SocketAddr.written : SocketAddr → SocketAddr
  | .v4 ip port => .v4 ip port
  | .v6 ip port _ scopeId => .v6 ip port 0 scopeId

/-- **Addresses are read back.** `FromStr` undoes `Display`, but for the flow information. -/
theorem SocketAddr.parse_display (addr : SocketAddr) :
    SocketAddr.parse addr.display = some addr.written := by
  rw [SocketAddr.parse_eq_some]
  cases addr with
  | v4 ip port =>
    have hip := readIpv4Addr_chars ip (stops_nil 10 [])
    rw [List.append_nil] at hip
    refine .inl ?_
    rw [display, String.toList_ofList]
    exact readSocketAddrV4_hostPort.mpr ⟨ip, hip, rfl⟩
  | v6 ip port flowinfo scopeId =>
    have htext : (SocketAddr.v6 ip port flowinfo scopeId).display.toList =
        ('[' :: (ip.chars ++ (scopeChars scopeId ++ [']']))) ++ ':' :: decimal port.toNat := by
      simp [display, scopeChars]
    have hhost : Host.bracketed ('[' :: (ip.chars ++ (scopeChars scopeId ++ [']']))) =
        some (.v6 ip scopeId) :=
      Host.bracketed_eq_some.mpr ⟨_, ip, scopeId, rfl, readScoped_chars ip scopeId, rfl⟩
    refine .inr ?_
    rw [htext]
    exact readSocketAddrV6_hostPort.mpr ⟨.v6 ip scopeId, hhost, rfl⟩

/-- What has been read is written back to itself: nothing read has flow information. -/
theorem SocketAddr.written_of_parse {text : String} {addr : SocketAddr}
    (h : SocketAddr.parse text = some addr) : addr.written = addr := by
  rcases SocketAddr.parse_eq_some.mp h with h4 | h6
  · simp only [readSocketAddrV4, Option.bind_eq_bind, Option.bind_eq_some_iff] at h4
    obtain ⟨⟨ip, rest⟩, -, ⟨port, rest'⟩, -, hend⟩ := h4
    obtain ⟨rfl, -⟩ := Prod.mk.inj (Option.some.inj hend)
    rfl
  · obtain ⟨_, -, ip, scopeId, port, _, -, -, rfl⟩ := readSocketAddrV6_eq_some.mp h6
    rfl

example : SocketAddr.parse (SocketAddr.v6 ⟨[0xfe80, 0, 0, 0, 0, 0, 0, 1], rfl⟩ 80 0 2).display =
    some (.v6 ⟨[0xfe80, 0, 0, 0, 0, 0, 0, 1], rfl⟩ 80 0 2) :=
  SocketAddr.parse_display _

end Net
