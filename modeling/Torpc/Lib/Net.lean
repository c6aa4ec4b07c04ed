import Mathlib.Data.List.Induction
import Torpc.Lib.Joined

/-!
# Socket addresses and their text form

`std::net`'s IP and socket addresses with their `Display` and `FromStr`, as
functions on characters. The two directions are used for different things:
writing an address down (a rate-limiter key, a configuration file) and reading
one a user typed.

Main results:

* `IpAddr.display_injective` — no two IP addresses are written the same way,
  although `Display` for IPv6 elides the longest run of zero groups and shows
  mapped addresses in dotted form;
* `ipPort_injective` — `ip:port` determines both parts, with no brackets around
  the IPv6 text: the port is what follows the *last* colon.
-/

namespace Net

open Joined

structure Ipv4Addr where
  a : UInt8
  b : UInt8
  c : UInt8
  d : UInt8
  deriving DecidableEq, Repr

structure Ipv6Addr where
  segments : List UInt16
  len : segments.length = 8
  deriving DecidableEq, Repr

inductive IpAddr where
  | v4 (ip : Ipv4Addr)
  | v6 (ip : Ipv6Addr)
  deriving DecidableEq, Repr

inductive SocketAddr where
  | v4 (ip : Ipv4Addr) (port : UInt16)
  | v6 (ip : Ipv6Addr) (port : UInt16) (flowinfo scopeId : UInt32)
  deriving DecidableEq, Repr

/-- `SocketAddr::from(([a, b, c, d], port))`. -/
def SocketAddr.ofV4 (a b c d : UInt8) (port : UInt16) : SocketAddr := .v4 ⟨a, b, c, d⟩ port

def SocketAddr.port : SocketAddr → UInt16
  | .v4 _ port => port
  | .v6 _ port _ _ => port

/-- `is_loopback`. -/
def SocketAddr.isLoopback : SocketAddr → Bool
  | .v4 ip _ => ip.a = 127
  | .v6 ip _ _ _ => ip.segments = [0, 0, 0, 0, 0, 0, 0, 1]

def Ipv4Addr.octets (ip : Ipv4Addr) : List UInt8 := [ip.a, ip.b, ip.c, ip.d]

-- ---------------------------------------------------------------------------
-- Display
-- ---------------------------------------------------------------------------

/-- `{}` of an unsigned integer. -/
def decimal (n : Nat) : List Char := Nat.toDigits 10 n

/-- `{:x}` of an unsigned integer. -/
def hex (n : Nat) : List Char := Nat.toDigits 16 n

def Ipv4Addr.chars (ip : Ipv4Addr) : List Char :=
  join '.' (ip.octets.map fun o => decimal o.toNat)

/-- A run of groups: where it starts and how many groups it has. -/
structure Span where
  start : Nat
  len : Nat
  deriving DecidableEq, Repr

/-- The scan for the longest run of zero groups: the index of the next group,
the longest run so far and the current one. -/
structure ZeroScan where
  index : Nat
  longest : Span
  current : Span

def ZeroScan.step (z : ZeroScan) (segment : UInt16) : ZeroScan :=
  if segment = 0 then
    let current := ⟨if z.current.len = 0 then z.index else z.current.start, z.current.len + 1⟩
    ⟨z.index + 1, if z.longest.len < current.len then current else z.longest, current⟩
  else ⟨z.index + 1, z.longest, ⟨0, 0⟩⟩

def zeroScan (segments : List UInt16) : ZeroScan :=
  segments.foldl ZeroScan.step ⟨0, ⟨0, 0⟩, ⟨0, 0⟩⟩

/-- Colon-separated hexadecimal groups. -/
def groups (segments : List UInt16) : List Char := join ':' (segments.map fun s => hex s.toNat)

/-- `Ipv6Addr::to_ipv4_mapped`, for the `::ffff:a.b.c.d` block. -/
def Ipv6Addr.toIpv4Mapped (ip : Ipv6Addr) : Option Ipv4Addr :=
  match ip.segments with
  | [0, 0, 0, 0, 0, 0xffff, ab, cd] =>
    some ⟨(ab >>> 8).toUInt8, ab.toUInt8, (cd >>> 8).toUInt8, cd.toUInt8⟩
  | _ => none

def Ipv6Addr.chars (ip : Ipv6Addr) : List Char :=
  match ip.toIpv4Mapped with
  | some v4 => "::ffff:".toList ++ v4.chars
  | none =>
    let zeroes := (zeroScan ip.segments).longest
    if 1 < zeroes.len then
      groups (ip.segments.take zeroes.start) ++ ':' :: ':' ::
        groups (ip.segments.drop (zeroes.start + zeroes.len))
    else groups ip.segments

def IpAddr.chars : IpAddr → List Char
  | .v4 ip => ip.chars
  | .v6 ip => ip.chars

/-- `Display` of an IP address. -/
def IpAddr.display (ip : IpAddr) : String := String.ofList ip.chars

/-- `Display` of a socket address. -/
def SocketAddr.display : SocketAddr → String
  | .v4 ip port => String.ofList (ip.chars ++ ':' :: decimal port.toNat)
  | .v6 ip port _ scopeId =>
    let scope := if scopeId = 0 then [] else '%' :: decimal scopeId.toNat
    String.ofList ('[' :: ip.chars ++ scope ++ ']' :: ':' :: decimal port.toNat)

-- ---------------------------------------------------------------------------
-- Display is injective
-- ---------------------------------------------------------------------------

/-- Decimal digits determine the number. -/
theorem decimal_inj {m n : Nat} (h : decimal m = decimal n) : m = n :=
  toDigits_inj (by omega) (by omega) h

/-- Hexadecimal digits determine the number. -/
theorem hex_inj {m n : Nat} (h : hex m = hex n) : m = n :=
  toDigits_inj (by omega) (by omega) h

/-- A character that is no digit is in no decimal number. -/
theorem notMem_decimal {c : Char} (hc : ∀ d < 16, d.digitChar ≠ c) (n : Nat) : c ∉ decimal n :=
  notMem_toDigits (by omega) (by omega) hc n

/-- And in no hexadecimal one. -/
theorem notMem_hex {c : Char} (hc : ∀ d < 16, d.digitChar ≠ c) (n : Nat) : c ∉ hex n :=
  notMem_toDigits (by omega) (by omega) hc n

/-- A colon is no digit, so it can part the groups of an IPv6 address. -/
theorem digitChar_ne_colon : ∀ d < 16, d.digitChar ≠ ':' := by decide

/-- A dot is no digit, so it can part the octets of an IPv4 address. -/
theorem digitChar_ne_dot : ∀ d < 16, d.digitChar ≠ '.' := by decide

/-- The texts of the octets are not empty and have no dot in them. -/
theorem separable_octets (ip : Ipv4Addr) :
    Separable '.' (ip.octets.map fun o => decimal o.toNat) := by
  intro x hx
  obtain ⟨o, -, rfl⟩ := List.mem_map.mp hx
  exact ⟨Nat.toDigits_ne_nil, notMem_decimal digitChar_ne_dot _⟩

/-- The texts of the groups are not empty and have no colon in them. -/
theorem separable_groups (segments : List UInt16) :
    Separable ':' (segments.map fun s => hex s.toNat) := by
  intro x hx
  obtain ⟨s, -, rfl⟩ := List.mem_map.mp hx
  exact ⟨Nat.toDigits_ne_nil, notMem_hex digitChar_ne_colon _⟩

/-- The texts of the groups determine the groups. -/
theorem groupTexts_inj {xs ys : List UInt16}
    (h : xs.map (fun s => hex s.toNat) = ys.map fun s => hex s.toNat) : xs = ys :=
  List.map_injective_iff.mpr (fun _ _ hxy => UInt16.toNat_inj.mp (hex_inj hxy)) h

/-- Different IPv4 addresses are written differently: the octets are the parts between the
dots. -/
theorem Ipv4Addr.chars_injective : Function.Injective Ipv4Addr.chars := by
  intro ip ip' h
  have htexts := join_inj (separable_octets ip) (separable_octets ip') h
  have hoctets : ip.octets = ip'.octets :=
    List.map_injective_iff.mpr (fun _ _ hxy => UInt8.toNat_inj.mp (decimal_inj hxy)) htexts
  cases ip
  cases ip'
  simpa [Ipv4Addr.octets] using hoctets

/-- An IPv4 address is written without a colon. -/
theorem Ipv4Addr.colon_notMem_chars (ip : Ipv4Addr) : ':' ∉ ip.chars := by
  intro hmem
  rcases mem_join hmem with h | ⟨x, hx, hc⟩
  · exact absurd h (by decide)
  · obtain ⟨o, -, rfl⟩ := List.mem_map.mp hx
    exact notMem_decimal digitChar_ne_colon _ hc

/-- Groups are written without a dot. -/
theorem dot_notMem_groups (segments : List UInt16) : '.' ∉ groups segments := by
  intro hmem
  rcases mem_join hmem with h | ⟨x, hx, hc⟩
  · exact absurd h (by decide)
  · obtain ⟨s, -, rfl⟩ := List.mem_map.mp hx
    exact notMem_hex digitChar_ne_dot _ hc

/-- The groups of a span are inside the address and all zero. -/
def Span.Zero (span : Span) (segments : List UInt16) : Prop :=
  ∀ k, span.start ≤ k → k < span.start + span.len → segments[k]? = some 0

/-- A span of zeros is one in a longer address too. -/
theorem Span.Zero.append {span : Span} {segments : List UInt16} (h : span.Zero segments)
    (s : UInt16) : span.Zero (segments ++ [s]) := by
  intro k hlo hhi
  have hk := h k hlo hhi
  have hlt : k < segments.length := by
    by_contra hge
    rw [List.getElem?_eq_none (by omega)] at hk
    exact absurd hk (by simp)
  rw [List.getElem?_append_left hlt]
  exact hk

/-- What the scan knows after the groups it has seen. -/
structure ZeroScan.Seen (z : ZeroScan) (segments : List UInt16) : Prop where
  index : z.index = segments.length
  current : z.current.Zero segments
  /-- a current run ends at the last group -/
  suffix : z.current.len ≠ 0 → z.current.start + z.current.len = segments.length
  longest : z.longest.Zero segments

/-- The scan of one more group keeps its account: the current span is one of zeros up to
here, the longest one is one of zeros. -/
theorem ZeroScan.Seen.step {z : ZeroScan} {segments : List UInt16} (h : z.Seen segments)
    (s : UInt16) : (z.step s).Seen (segments ++ [s]) := by
  have hlen : (segments ++ [s]).length = segments.length + 1 := by simp
  by_cases hs : s = 0
  · subst hs
    -- the run that the new zero begins or makes longer
    have hcurrent : Span.Zero ⟨if z.current.len = 0 then z.index else z.current.start,
        z.current.len + 1⟩ (segments ++ [0]) := by
      intro k hlo hhi
      have hindex := h.index
      have hsuffix := h.suffix
      have hlast : k = segments.length ∨
          (z.current.start ≤ k ∧ k < z.current.start + z.current.len) := by
        by_cases hc : z.current.len = 0
        · simp only [if_pos hc] at hlo hhi
          omega
        · simp only [if_neg hc] at hlo hhi
          have := hsuffix hc
          omega
      rcases hlast with rfl | ⟨hlo', hhi'⟩
      · simp
      · exact h.current.append 0 k hlo' hhi'
    rw [ZeroScan.step, if_pos rfl]
    refine ⟨?_, hcurrent, ?_, ?_⟩
    · rw [hlen]
      exact congrArg (· + 1) h.index
    · intro _
      have hindex := h.index
      by_cases hc : z.current.len = 0
      · simp only [if_pos hc, hlen]
        omega
      · have := h.suffix hc
        simp only [if_neg hc, hlen]
        omega
    · simp only []
      split
      · exact hcurrent
      · exact h.longest.append 0
  · rw [ZeroScan.step, if_neg hs]
    refine ⟨?_, ?_, ?_, h.longest.append s⟩
    · rw [hlen]
      exact congrArg (· + 1) h.index
    · intro k _ hhi
      exact absurd hhi (by simp)
    · intro hne
      exact absurd rfl hne

/-- After the scan both of its spans are spans of zeros in the address. -/
theorem zeroScan_seen (segments : List UInt16) : (zeroScan segments).Seen segments := by
  induction segments using List.reverseRecOn with
  | nil =>
    refine ⟨rfl, ?_, fun h => absurd rfl h, ?_⟩
    all_goals
      intro k _ hhi
      exact absurd hhi (by simp [zeroScan])
  | append_singleton segments s ih =>
    have hstep : zeroScan (segments ++ [s]) = (zeroScan segments).step s := by
      simp [zeroScan, List.foldl_append]
    rw [hstep]
    exact ih.step s

/-- An elided run is the zeros between what is written before and after it. -/
theorem Span.Zero.split {span : Span} {segments : List UInt16} (h : span.Zero segments)
    (hin : span.start + span.len ≤ segments.length) :
    segments = segments.take span.start ++ List.replicate span.len 0 ++
      segments.drop (span.start + span.len) := by
  have hmid : (segments.drop span.start).take span.len = List.replicate span.len 0 := by
    refine List.eq_replicate_iff.mpr ⟨by simp; omega, ?_⟩
    intro b hb
    obtain ⟨i, hi, rfl⟩ := List.mem_iff_getElem.mp hb
    have hi' : i < span.len := by
      rw [List.length_take] at hi
      omega
    have hz := h (span.start + i) (by omega) (by omega)
    rw [List.getElem_take, List.getElem_drop]
    rw [List.getElem?_eq_getElem (by omega)] at hz
    exact Option.some.inj hz
  calc segments
      = segments.take span.start ++ segments.drop span.start :=
        (List.take_append_drop _ _).symm
    _ = segments.take span.start ++ ((segments.drop span.start).take span.len ++
          (segments.drop span.start).drop span.len) := by
        rw [List.take_append_drop span.len, List.take_append_drop span.start]
    _ = _ := by rw [hmid, List.drop_drop, List.append_assoc]

/-- A span with a group in it lies inside the address. -/
theorem Span.Zero.within {span : Span} {segments : List UInt16} (h : span.Zero segments)
    (hlen : 0 < span.len) : span.start + span.len ≤ segments.length := by
  by_contra hgt
  have hz := h (span.start + span.len - 1) (by omega) (by omega)
  rw [List.getElem?_eq_none (by omega)] at hz
  exact absurd hz (by simp)

/-- The text of an address that is not a mapped one. -/
def plainChars (segments : List UInt16) : List Char :=
  let zeroes := (zeroScan segments).longest
  if 1 < zeroes.len then
    doubled ':' ((segments.take zeroes.start).map fun s => hex s.toNat)
      ((segments.drop (zeroes.start + zeroes.len)).map fun s => hex s.toNat)
  else groups segments

/-- An address that embeds an IPv4 address is written as that one, with the prefix of such
addresses. -/
theorem Ipv6Addr.chars_mapped {ip : Ipv6Addr} {v4 : Ipv4Addr} (h : ip.toIpv4Mapped = some v4) :
    ip.chars = "::ffff:".toList ++ v4.chars := by
  rw [Ipv6Addr.chars, h]

/-- Any other is written by its groups. -/
theorem Ipv6Addr.chars_plain {ip : Ipv6Addr} (h : ip.toIpv4Mapped = none) :
    ip.chars = plainChars ip.segments := by
  rw [Ipv6Addr.chars, h]
  rfl

/-- Eliding zeros loses nothing, as long as the number of groups is known. -/
theorem plainChars_inj {xs ys : List UInt16} (hlen : xs.length = ys.length)
    (h : plainChars xs = plainChars ys) : xs = ys := by
  have hx := (zeroScan_seen xs).longest
  have hy := (zeroScan_seen ys).longest
  simp only [plainChars] at h
  by_cases hxl : 1 < (zeroScan xs).longest.len <;> by_cases hyl : 1 < (zeroScan ys).longest.len
  · rw [if_pos hxl, if_pos hyl] at h
    obtain ⟨hhead, htail⟩ := doubled_inj (separable_groups _) (separable_groups _)
      (separable_groups _) (separable_groups _) h
    have hhead := groupTexts_inj hhead
    have htail := groupTexts_inj htail
    have hxin := hx.within (by omega)
    have hyin := hy.within (by omega)
    -- the written parts give the place of the gap, the total gives its length
    have hstart : (zeroScan xs).longest.start = (zeroScan ys).longest.start := by
      have := congrArg List.length hhead
      rw [List.length_take, List.length_take] at this
      omega
    have hgap : (zeroScan xs).longest.len = (zeroScan ys).longest.len := by
      have := congrArg List.length htail
      rw [List.length_drop, List.length_drop] at this
      omega
    rw [hx.split hxin, hy.split hyin, hhead, htail, hgap]
  · rw [if_pos hxl, if_neg hyl] at h
    exact absurd h.symm (join_ne_doubled (separable_groups _) (separable_groups _))
  · rw [if_neg hxl, if_pos hyl] at h
    exact absurd h (join_ne_doubled (separable_groups _) (separable_groups _))
  · rw [if_neg hxl, if_neg hyl] at h
    exact groupTexts_inj (join_inj (separable_groups _) (separable_groups _) h)

/-- An address that is written by its groups has no dot. -/
theorem dot_notMem_plainChars (segments : List UInt16) : '.' ∉ plainChars segments := by
  simp only [plainChars]
  split
  · intro hmem
    rcases List.mem_append.mp hmem with hm | hm
    · exact dot_notMem_groups _ hm
    · simp only [List.mem_cons] at hm
      rcases hm with hm | hm | hm
      · exact absurd hm (by decide)
      · exact absurd hm (by decide)
      · exact dot_notMem_groups _ hm
  · exact dot_notMem_groups _

/-- An IPv4 address has dots. -/
theorem Ipv4Addr.dot_mem_chars (ip : Ipv4Addr) : '.' ∈ ip.chars := by
  simp [Ipv4Addr.chars, Ipv4Addr.octets, join]

/-- A group is determined by its two bytes. -/
theorem bytes_inj {x y : UInt16} (hhi : (x >>> 8).toUInt8 = (y >>> 8).toUInt8)
    (hlo : x.toUInt8 = y.toUInt8) : x = y := by
  have hlo := congrArg UInt8.toNat hlo
  have hhi := congrArg UInt8.toNat hhi
  simp only [UInt16.toNat_toUInt8, UInt16.toNat_shiftRight] at hlo hhi
  have hx := x.toNat_lt
  have hy := y.toNat_lt
  refine UInt16.toNat_inj.mp ?_
  have h8 : (8 : UInt16).toNat % 16 = 8 := rfl
  rw [h8, Nat.shiftRight_eq_div_pow, Nat.shiftRight_eq_div_pow] at hhi
  omega

/-- An address that embeds an IPv4 address is determined by it. -/
theorem toIpv4Mapped_inj {ip ip' : Ipv6Addr} {v4 : Ipv4Addr} (h : ip.toIpv4Mapped = some v4)
    (h' : ip'.toIpv4Mapped = some v4) : ip = ip' := by
  obtain ⟨segments, hlen⟩ := ip
  obtain ⟨segments', hlen'⟩ := ip'
  simp only [Ipv6Addr.toIpv4Mapped] at h h'
  split at h
  · next ab cd =>
    split at h'
    · next ab' cd' =>
      have heq := h.trans h'.symm
      simp only [Option.some.injEq, Ipv4Addr.mk.injEq] at heq
      obtain ⟨h₁, h₂, h₃, h₄⟩ := heq
      simp [bytes_inj h₁ h₂, bytes_inj h₃ h₄]
    · exact absurd h' (by simp)
  · exact absurd h (by simp)

/-- So the text of an IPv6 address tells whether it embeds an IPv4 address. -/
theorem Ipv6Addr.dot_mem_chars {ip : Ipv6Addr} :
    '.' ∈ ip.chars ↔ ip.toIpv4Mapped.isSome := by
  cases hm : ip.toIpv4Mapped with
  | some v4 =>
    rw [Ipv6Addr.chars_mapped hm]
    exact iff_of_true (List.mem_append_right _ v4.dot_mem_chars) rfl
  | none =>
    rw [Ipv6Addr.chars_plain hm]
    exact iff_of_false (dot_notMem_plainChars _) (by simp)

/-- Different IPv6 addresses are written differently, although zeros are elided: the gap
says where, and the number of groups how many. -/
theorem Ipv6Addr.chars_injective : Function.Injective Ipv6Addr.chars := by
  intro ip ip' h
  -- the dot tells the mapped form from the plain one
  have hform : ip.toIpv4Mapped.isSome ↔ ip'.toIpv4Mapped.isSome := by
    rw [← Ipv6Addr.dot_mem_chars, ← Ipv6Addr.dot_mem_chars, h]
  cases hm : ip.toIpv4Mapped with
  | some v4 =>
    cases hm' : ip'.toIpv4Mapped with
    | some v4' =>
      rw [Ipv6Addr.chars_mapped hm, Ipv6Addr.chars_mapped hm'] at h
      have hv4 : v4 = v4' := Ipv4Addr.chars_injective (List.append_cancel_left h)
      exact toIpv4Mapped_inj hm (hv4 ▸ hm')
    | none => simp [hm, hm'] at hform
  | none =>
    cases hm' : ip'.toIpv4Mapped with
    | some v4' => simp [hm, hm'] at hform
    | none =>
      rw [Ipv6Addr.chars_plain hm, Ipv6Addr.chars_plain hm'] at h
      have hsegments := plainChars_inj (ip.len.trans ip'.len.symm) h
      cases ip
      cases ip'
      simpa using hsegments

/-- An address that is written by its groups has colons. -/
theorem colon_mem_plainChars {segments : List UInt16} (hlen : 1 < segments.length) :
    ':' ∈ plainChars segments := by
  simp only [plainChars]
  split
  · simp [doubled]
  · obtain ⟨x, xs, rfl⟩ := List.exists_cons_of_length_pos (by omega : 0 < segments.length)
    obtain ⟨y, ys, rfl⟩ := List.exists_cons_of_length_pos (l := xs) (by simpa using hlen)
    simp [groups, join]

/-- Every IPv6 address has a colon in its text. -/
theorem Ipv6Addr.colon_mem_chars (ip : Ipv6Addr) : ':' ∈ ip.chars := by
  cases hm : ip.toIpv4Mapped with
  | some v4 =>
    rw [Ipv6Addr.chars_mapped hm]
    exact List.mem_append_left _ (by decide)
  | none =>
    rw [Ipv6Addr.chars_plain hm]
    exact colon_mem_plainChars (by rw [ip.len]; omega)

/-- Different addresses are written differently, of either kind; the colon tells the kinds
apart. -/
theorem IpAddr.display_injective : Function.Injective IpAddr.display := by
  intro ip ip' h
  have hchars : ip.chars = ip'.chars := String.ofList_injective h
  cases ip with
  | v4 ip =>
    cases ip' with
    | v4 ip' => exact congrArg IpAddr.v4 (Ipv4Addr.chars_injective hchars)
    | v6 ip' =>
      have hsame : ip.chars = ip'.chars := hchars
      exact absurd (hsame ▸ ip'.colon_mem_chars) ip.colon_notMem_chars
  | v6 ip =>
    cases ip' with
    | v4 ip' =>
      have hsame : ip.chars = ip'.chars := hchars
      exact absurd (hsame ▸ ip.colon_mem_chars) ip'.colon_notMem_chars
    | v6 ip' => exact congrArg IpAddr.v6 (Ipv6Addr.chars_injective hchars)

/-- `format!("{}:{}", ip, port)`. -/
def ipPort (ip : IpAddr) (port : UInt16) : String :=
  ip.display ++ ":" ++ String.ofList (decimal port.toNat)

/-- The identifier of a peer is its address and its port with a colon in between, without
brackets. -/
theorem ipPort_toList (ip : IpAddr) (port : UInt16) :
    (ipPort ip port).toList = ip.chars ++ ':' :: decimal port.toNat := by
  simp [ipPort, IpAddr.display]

/-- An identifier determines the address and the port, also for the unbracketed text of an
IPv6 address: no colon is in the port, so the last one parts them. -/
theorem ipPort_injective {ip ip' : IpAddr} {port port' : UInt16}
    (h : ipPort ip port = ipPort ip' port') : ip = ip' ∧ port = port' := by
  have hchars := congrArg String.toList h
  rw [ipPort_toList, ipPort_toList] at hchars
  obtain ⟨hip, hport⟩ := split_last (notMem_decimal digitChar_ne_colon _)
    (notMem_decimal digitChar_ne_colon _) hchars
  refine ⟨IpAddr.display_injective ?_, UInt16.toNat_inj.mp (decimal_inj hport)⟩
  exact congrArg String.ofList hip

-- ---------------------------------------------------------------------------
-- The characters of an address
-- ---------------------------------------------------------------------------

/-- A character that neither a number nor the punctuation of an address uses. -/
def Foreign (c : Char) : Prop :=
  (∀ d < 16, d.digitChar ≠ c) ∧ c ∉ ['.', ':', '[', ']', '%']

/-- A foreign character is none of the punctuation marks of addresses. -/
theorem Foreign.ne {c x : Char} (h : Foreign c) (hx : x ∈ ['.', ':', '[', ']', '%']) : c ≠ x := by
  rintro rfl
  exact h.2 hx

/-- A foreign character is in no IPv4 address. -/
theorem Ipv4Addr.foreign_notMem {c : Char} (h : Foreign c) (ip : Ipv4Addr) : c ∉ ip.chars := by
  intro hmem
  rcases mem_join hmem with hc | ⟨x, hx, hc⟩
  · exact h.ne (by decide) hc
  · obtain ⟨o, -, rfl⟩ := List.mem_map.mp hx
    exact notMem_decimal h.1 _ hc

/-- Nor among the groups of an IPv6 address. -/
theorem foreign_notMem_groups {c : Char} (h : Foreign c) (segments : List UInt16) :
    c ∉ groups segments := by
  intro hmem
  rcases mem_join hmem with hc | ⟨x, hx, hc⟩
  · exact h.ne (by decide) hc
  · obtain ⟨o, -, rfl⟩ := List.mem_map.mp hx
    exact notMem_hex h.1 _ hc

/-- Nor in the text of any IPv6 address. -/
theorem Ipv6Addr.foreign_notMem {c : Char} (h : Foreign c) (ip : Ipv6Addr) : c ∉ ip.chars := by
  have hcolon : c ≠ ':' := h.ne (by decide)
  have hf : c ≠ 'f' := fun hc => h.1 15 (by decide) hc.symm
  unfold Ipv6Addr.chars
  split
  · next v4 _ => simp [hcolon, hf, v4.foreign_notMem h]
  · dsimp only
    split
    · simp [hcolon, foreign_notMem_groups h]
    · exact foreign_notMem_groups h _

/-- Nor in that of an address of either kind. -/
theorem IpAddr.foreign_notMem {c : Char} (h : Foreign c) : ∀ ip : IpAddr, c ∉ ip.chars
  | .v4 ip => ip.foreign_notMem h
  | .v6 ip => ip.foreign_notMem h

/-- So the text of a socket address has nothing in it but digits and its punctuation. -/
theorem SocketAddr.foreign_notMem {c : Char} (h : Foreign c) (addr : SocketAddr) :
    c ∉ addr.display.toList := by
  have hcolon : c ≠ ':' := h.ne (by decide)
  cases addr with
  | v4 ip port => simp [SocketAddr.display, hcolon, ip.foreign_notMem h, notMem_decimal h.1]
  | v6 ip port flowinfo scopeId =>
    have hopen : c ≠ '[' := h.ne (by decide)
    have hclose : c ≠ ']' := h.ne (by decide)
    have hscope : c ∉ (if scopeId = 0 then [] else '%' :: decimal scopeId.toNat) := by
      split
      · simp
      · simp [h.ne (show '%' ∈ _ by decide), notMem_decimal h.1]
    simp [SocketAddr.display, hcolon, hopen, hclose, hscope, ip.foreign_notMem h,
      notMem_decimal h.1]

-- ---------------------------------------------------------------------------
-- FromStr
-- ---------------------------------------------------------------------------

/-- A reader of a prefix of the input. -/
abbrev Parser (α : Type) := List Char → Option (α × List Char)

/-- `char::to_digit`. -/
def digitVal (radix : Nat) (c : Char) : Option Nat :=
  let v :=
    if '0' ≤ c ∧ c ≤ '9' then c.toNat - '0'.toNat
    else if 'a' ≤ c ∧ c ≤ 'z' then c.toNat - 'a'.toNat + 10
    else if 'A' ≤ c ∧ c ≤ 'Z' then c.toNat - 'A'.toNat + 10
    else 36
  if v < radix then some v else none

def givenChar (c : Char) : Parser Unit
  | x :: xs => if x = c then some ((), xs) else none
  | [] => none

/-- `Parser::read_number`: the digits at the front, at least one, at most
`maxDigits`, not over `limit`. -/
def readNumber (radix : Nat) (maxDigits : Option Nat) (allowZeroPrefix : Bool) (limit : Nat) :
    Parser Nat := fun cs =>
  let digits := cs.takeWhile fun c => (digitVal radix c).isSome
  let n := digits.foldl (fun acc c => acc * radix + (digitVal radix c).getD 0) 0
  if digits = [] then none
  else if maxDigits.any (· < digits.length) then none
  else if !allowZeroPrefix && digits.head? == some '0' && 1 < digits.length then none
  else if limit < n then none
  else some (n, cs.drop digits.length)

/-- `Parser::read_separator`: the separator comes before every item but the first. -/
def readSeparator {α : Type} (sep : Char) (index : Nat) (inner : Parser α) : Parser α := fun cs =>
  if index = 0 then inner cs
  else (givenChar sep cs).bind fun (_, cs) => inner cs

def readIpv4Addr : Parser Ipv4Addr := fun cs => do
  let octet index := readSeparator '.' index (readNumber 10 (some 3) false 255)
  let (a, cs) ← octet 0 cs
  let (b, cs) ← octet 1 cs
  let (c, cs) ← octet 2 cs
  let (d, cs) ← octet 3 cs
  some (⟨.ofNat a, .ofNat b, .ofNat c, .ofNat d⟩, cs)

/-- `read_groups`: up to `slots` more groups from index `i` on, and whether
they end in an embedded IPv4 address (which takes two slots). -/
def readGroups : Nat → Nat → List Char → List UInt16 × Bool × List Char
  | 0, _, cs => ([], false, cs)
  | slots + 1, i, cs =>
    let ipv4 := if 0 < slots then readSeparator ':' i readIpv4Addr cs else none
    match ipv4 with
    | some (v4, cs) =>
      ([.ofNat (v4.a.toNat * 256 + v4.b.toNat), .ofNat (v4.c.toNat * 256 + v4.d.toNat)], true, cs)
    | none =>
      match readSeparator ':' i (readNumber 16 (some 4) true 65535) cs with
      | some (g, cs) =>
        let (gs, v4, cs) := readGroups slots (i + 1) cs
        (.ofNat g :: gs, v4, cs)
      | none => ([], false, cs)

def readIpv6Addr : Parser Ipv6Addr := fun cs =>
  let (head, headIpv4, cs) := readGroups 8 0 cs
  if h : head.length = 8 then some (⟨head, h⟩, cs)
  else if headIpv4 then none
  else do
    let (_, cs) ← givenChar ':' cs
    let (_, cs) ← givenChar ':' cs
    let (tail, _, cs) := readGroups (8 - (head.length + 1)) 0 cs
    let segments := head ++ List.replicate (8 - head.length - tail.length) 0 ++ tail
    if h : segments.length = 8 then some (⟨segments, h⟩, cs) else none

def readPort : Parser UInt16 := fun cs => do
  let (_, cs) ← givenChar ':' cs
  let (port, cs) ← readNumber 10 none true 65535 cs
  some (.ofNat port, cs)

def readSocketAddrV4 : Parser SocketAddr := fun cs => do
  let (ip, cs) ← readIpv4Addr cs
  let (port, cs) ← readPort cs
  some (.v4 ip port, cs)

def readScopeId : Parser UInt32 := fun cs => do
  let (_, cs) ← givenChar '%' cs
  let (scope, cs) ← readNumber 10 none true 4294967295 cs
  some (.ofNat scope, cs)

def readSocketAddrV6 : Parser SocketAddr := fun cs => do
  let (_, cs) ← givenChar '[' cs
  let (ip, cs) ← readIpv6Addr cs
  let (scope, cs) := (readScopeId cs).getD (0, cs)
  let (_, cs) ← givenChar ']' cs
  let (port, cs) ← readPort cs
  some (.v6 ip port 0 scope, cs)

/-- `SocketAddr::from_str`: the whole text has to be read. -/
def SocketAddr.parse (s : String) : Option SocketAddr :=
  match (readSocketAddrV4 s.toList).orElse fun _ => readSocketAddrV6 s.toList with
  | some (addr, []) => some addr
  | _ => none

example : SocketAddr.parse "127.0.0.1:9050" = some (.ofV4 127 0 0 1 9050) := by decide
example : SocketAddr.parse "::1:9050" = none := by decide
example : SocketAddr.parse "localhost:9050" = none := by decide

end Net
