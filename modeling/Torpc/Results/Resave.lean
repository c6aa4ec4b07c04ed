import Torpc.Lib.AddrText
import Torpc.Model.Desktop
import Torpc.Results.EndpointValidation

/-!
# Saving the form as it has been loaded

`loadConfig` of the page takes a configuration apart into the three inputs, and
`saveConfig` puts one together again, if the browser lets the form be submitted.
Whoever opens the window and presses Save without a change gets back the
configuration with two differences: it listens on 127.0.0.1, whatever it has
listened on before, and an endpoint without a port has port 80. What cannot be
saved again at all is a port below 1024 and an endpoint that is no onion address
in lower case or has blanks around it. Saving a second time changes nothing
(`resave`).
-/

namespace Torpc

open Net Regex

namespace Desktop

open SettingsForm

-- ---------------------------------------------------------------------------
-- Configurations as texts
-- ---------------------------------------------------------------------------

/-- The addresses are ones that a text can say. -/
def Written (config : ProxyConfig) : Prop :=
  config.listenAddr.written = config.listenAddr ∧ config.torProxy.written = config.torProxy

/-- A configuration that was read from the page is one that the page writes. -/
theorem written_ofPage {page : SettingsForm.Config} {config : ProxyConfig}
    (h : ofPage page = some config) : Written config := by
  simp only [ofPage, Option.bind_eq_bind, Option.bind_eq_some_iff, Option.some.injEq] at h
  obtain ⟨listenAddr, hlisten, torProxy, htor, rfl⟩ := h
  exact ⟨Net.SocketAddr.written_of_parse hlisten, Net.SocketAddr.written_of_parse htor⟩

/-- What the page gets, it can send back. -/
theorem ofPage_toPage {config : ProxyConfig} (h : Written config) :
    ofPage (toPage config) = some config := by
  simp only [ofPage, toPage, String.ofList_toList, Net.SocketAddr.parse_display, h.1, h.2,
    Option.bind_eq_bind, Option.bind_some]

-- ---------------------------------------------------------------------------
-- The form
-- ---------------------------------------------------------------------------

/-- The port is written as it has been read. -/
def WritesPorts (parseIntText : List Char → List Char) : Prop :=
  ∀ port : UInt16, parseIntText (decimal port.toNat) = decimal port.toNat

/-- Trimming takes nothing from a text without blanks. -/
theorem trim_eq_self {p : Char → Bool} {l : List Char} (h : ∀ c ∈ l, p c = false) :
    Text.trim p l = l := by
  unfold Text.trim
  have hfront : l.dropWhile p = l := by
    rw [List.dropWhile_eq_self_iff]
    intro hl
    simp [h _ (List.getElem_mem hl)]
  rw [hfront, List.rdropWhile_eq_self_iff]
  intro hl
  simp [h _ (List.getLast_mem hl)]

/-- What can be seen of ASCII is no space. -/
theorem isSpace_visible {c : Char} (h : 0x20 < c.toNat) (h' : c.toNat < 0x7f) :
    isSpace c = false := by
  unfold isSpace
  simp only [Bool.or_eq_false_iff, Bool.and_eq_false_iff, decide_eq_false_iff_not]
  omega

/-- An address has no space in it. -/
theorem foreign_of_isSpace {c : Char} (h : isSpace c = true) : Foreign c := by
  constructor
  · intro d hd hc
    have hdigits : ∀ d < 16, 0x20 < d.digitChar.toNat ∧ d.digitChar.toNat < 0x7f := by decide
    rw [← hc, isSpace_visible (hdigits d hd).1 (hdigits d hd).2] at h
    cases h
  · intro hc
    have hmarks : ∀ c ∈ ['.', ':', '[', ']', '%'], (!isSpace c) = true := List.all_eq_true.mp rfl
    have hmark := hmarks c hc
    rw [h] at hmark
    cases hmark

/-- What `Display` writes of an address has no space in it. -/
theorem not_isSpace_display (addr : SocketAddr) : ∀ c ∈ addr.display.toList, isSpace c = false := by
  intro c hc
  by_contra hspace
  exact SocketAddr.foreign_notMem (foreign_of_isSpace (by simpa using hspace)) addr hc

/-- There are no blanks around an address. -/
theorem trim_display (addr : SocketAddr) :
    Text.trim isSpace addr.display.toList = addr.display.toList :=
  trim_eq_self (not_isSpace_display addr)

/-- A text without spaces is on one line. -/
theorem oneLine_eq_self {text : List Char} (h : ∀ c ∈ text, isSpace c = false) :
    oneLine text = text := by
  refine List.filter_eq_self.mpr fun c hc => decide_eq_true ?_
  constructor
  · rintro rfl
    cases h _ hc
  · rintro rfl
    cases h _ hc

/-- The pattern of the input: an onion host in lower case, and digits of a port. -/
theorem pattern_iff {text : List Char} : onionPattern.rmatch text = true ↔
    ∃ name tail, text = name ++ (".onion".toList ++ tail) ∧ name.length = 56 ∧
      (∀ c ∈ name, c ∈ base32) ∧
      (tail = [] ∨ ∃ digits, tail = ':' :: digits ∧ digits ≠ [] ∧ ∀ c ∈ digits, c ∈ digit) := by
  have hword : ∀ w, w ∈ (eachOf (".onion".toList.map fun c => [c])).matches' ↔
      w = ".onion".toList := by
    intro w
    rw [mem_eachOf, List.forall₂_map_right_iff]
    simp only [List.mem_singleton, List.forall₂_eq_eq_eq]
  have htail : ∀ w, w ∈ (opt (.char ':' * plus (oneOf digit))).matches' ↔
      w = [] ∨ ∃ digits, w = ':' :: digits ∧ digits ≠ [] ∧ ∀ c ∈ digits, c ∈ digit := by
    intro w
    rw [opt, RegularExpression.matches'_add, RegularExpression.matches'_epsilon, Language.mem_add,
      Language.mem_one, RegularExpression.matches'_mul, Language.mem_mul]
    refine or_congr_right ⟨?_, ?_⟩
    · rintro ⟨colon, hcolon, digits, hdigits, rfl⟩
      obtain rfl := mem_char.mp hcolon
      exact ⟨digits, rfl, mem_plus.mp hdigits⟩
    · rintro ⟨digits, rfl, hdigits⟩
      exact ⟨[':'], mem_char.mpr rfl, digits, mem_plus.mpr hdigits, rfl⟩
  rw [RegularExpression.rmatch_iff_matches', onionPattern, RegularExpression.matches'_mul,
    Language.mem_mul]
  simp only [RegularExpression.matches'_mul, Language.mem_mul, hword, htail]
  constructor
  · rintro ⟨host, ⟨name, hname, suffix, rfl, rfl⟩, tail, htail, rfl⟩
    obtain ⟨hlen, hall⟩ := mem_oneOf_pow.mp hname
    exact ⟨name, tail, List.append_assoc _ _ _, hlen, hall, htail⟩
  · rintro ⟨name, tail, rfl, hlen, hall, htail⟩
    exact ⟨_, ⟨name, mem_oneOf_pow.mpr ⟨hlen, hall⟩, _, rfl, rfl⟩, tail, htail,
      List.append_assoc _ _ _⟩

/-- A text that the input's pattern lets through has no space in it. -/
theorem not_isSpace_of_pattern {text : List Char} (h : onionPattern.rmatch text = true) :
    ∀ c ∈ text, isSpace c = false := by
  have hvisible : ∀ c ∈ base32 ++ ".onion:".toList ++ digit, (!isSpace c) = true :=
    List.all_eq_true.mp rfl
  simp only [Bool.not_eq_true'] at hvisible
  obtain ⟨name, tail, rfl, -, hname, htail⟩ := pattern_iff.mp h
  intro c hc
  refine hvisible c ?_
  rcases List.mem_append.mp hc with hc | hc
  · exact List.mem_append_left _ (List.mem_append_left _ (hname c hc))
  · refine List.mem_append.mpr ?_
    rcases List.mem_append.mp hc with hc | hc
    · have hsub : ∀ c ∈ ".onion".toList, c ∈ ".onion:".toList :=
        fun _ hc => List.mem_append_left [':'] hc
      exact .inl (List.mem_append_right _ (hsub c hc))
    · rcases htail with rfl | ⟨digits, rfl, -, hdigits⟩
      · cases hc
      · rcases List.mem_cons.mp hc with rfl | hc
        · exact .inl (List.mem_append_right _ (by decide))
        · exact .inr (hdigits c hc)

/-- What `Display` writes, as the page cuts it. -/
theorem splitOn_display (addr : SocketAddr) : ∃ host, host ≠ [] ∧
    addr.display.toList = host ++ ':' :: decimal addr.port.toNat ∧
    addr.display.toList.splitOn ':' = host.splitOn ':' ++ [decimal addr.port.toNat] := by
  obtain ⟨host, hne, htext⟩ : ∃ host, host ≠ [] ∧
      addr.display.toList = host ++ ':' :: decimal addr.port.toNat := by
    cases addr with
    | v4 ip port =>
      have hne : ip.chars ≠ [] := by
        unfold Ipv4Addr.chars
        exact Joined.join_ne_nil (separable_octets ip)
      exact ⟨ip.chars, hne, by simp [SocketAddr.display, SocketAddr.port]⟩
    | v6 ip port flowinfo scopeId =>
      let scope := if scopeId = 0 then [] else '%' :: decimal scopeId.toNat
      exact ⟨'[' :: (ip.chars ++ (scope ++ [']'])), List.cons_ne_nil _ _,
        by simp [SocketAddr.display, SocketAddr.port, scope]⟩
  refine ⟨host, hne, htext, ?_⟩
  rw [htext, List.splitOn_append_cons_self,
    List.splitOn_eq_singleton (notMem_decimal digitChar_ne_colon _)]

/-- The endpoint that the form makes of a text. -/
def withPort (text : List Char) : List Char := if ':' ∈ text then text else text ++ ":80".toList

/-- What becomes of a configuration. -/
def resaved (config : ProxyConfig) : ProxyConfig where
  listenAddr := .ofV4 127 0 0 1 config.listenAddr.port
  torProxy := config.torProxy
  onionEndpoint := String.ofList (withPort (oneLine config.onionEndpoint.toList))

/-- Browser and page take the endpoint for one, and the port is not a privileged one. -/
structure Acceptable (config : ProxyConfig) : Prop where
  pattern : onionPattern.rmatch (oneLine config.onionEndpoint.toList) = true
  regex : onionRegex.rmatch (oneLine config.onionEndpoint.toList) = true
  port : 1024 ≤ config.listenAddr.port.toNat

variable {parseIntText : List Char → List Char} {wholeNumber : List Char → Option Int}
  {config config' : ProxyConfig}

/-- The two parts of the proxy's address, and that there are two. -/
theorem torProxy_parts (addr : SocketAddr) : ∃ host, host ≠ [] ∧
    addr.display.toList = host ++ ':' :: decimal addr.port.toNat ∧
    2 ≤ (addr.display.toList.splitOn ':').length ∧
    (addr.display.toList.splitOn ':').getLast? = some (decimal addr.port.toNat) ∧
    [':'].intercalate (addr.display.toList.splitOn ':').dropLast = host := by
  obtain ⟨host, hne, htext, hsplit⟩ := splitOn_display addr
  have hpos := List.length_pos_iff.mpr (List.splitOn_ne_nil ':' host)
  refine ⟨host, hne, htext, ?_, ?_, ?_⟩
  · rw [hsplit, List.length_append, List.length_singleton]
    omega
  · rw [hsplit, List.getLast?_concat]
  · rw [hsplit, List.dropLast_concat, List.intercalate_splitOn]

/-- How the local address with a port is shown. -/
theorem display_loopback (port : UInt16) :
    (SocketAddr.ofV4 127 0 0 1 port).display.toList =
      "127.0.0.1:".toList ++ decimal port.toNat := by
  rw [SocketAddr.ofV4, SocketAddr.display, String.toList_ofList]
  rfl

/-- The form loaded with an acceptable configuration sends this. -/
theorem saveConfig_loaded (hparse : WritesPorts parseIntText) (h : Acceptable config) :
    SettingsForm.saveConfig parseIntText ⟨oneLine config.onionEndpoint.toList,
        decimal config.listenAddr.port.toNat, config.torProxy.display.toList⟩ =
      .updateConfig (toPage (resaved config)) saved := by
  obtain ⟨host, hne, htext, hparts, hlast, hfront⟩ := torProxy_parts config.torProxy
  have hraw : oneLine config.onionEndpoint.toList ≠ [] := by
    intro hempty
    obtain ⟨host, tail, hsplit, ⟨name, suffix, rfl, hlen, -⟩, -⟩ := rmatch_iff.mp h.regex
    rw [hempty, List.append_assoc, eq_comm, List.append_eq_nil_iff] at hsplit
    rw [hsplit.1] at hlen
    cases hlen
  simp only [SettingsForm.saveConfig, trim_display, trim_eq_self (not_isSpace_of_pattern h.pattern),
    if_neg hraw]
  rw [h.regex, if_neg (by decide), if_neg (by omega), hlast, hfront, if_neg hne, hparse,
    Option.getD_some, hparse, ← htext]
  simp only [toPage, resaved, display_loopback, String.toList_ofList]
  rfl

/-- The addresses that are saved in this way can be said by a text. -/
theorem written_resaved (h : Written config) : Written (resaved config) := ⟨rfl, h.2⟩

/-- What the form has made of an endpoint, it leaves alone. -/
theorem rmatch_withPort {text : List Char} (h : onionRegex.rmatch text = true) :
    onionRegex.rmatch (withPort text) = true := by
  unfold withPort
  split
  · exact h
  · next hcolon =>
    obtain ⟨host, tail, rfl, hhost, htail⟩ := rmatch_iff.mp h
    rcases htail with rfl | ⟨digits, rfl, -⟩
    · rw [List.append_nil]
      exact rmatch_iff.mpr ⟨host, _, rfl, hhost, .inr ⟨_, rfl, by unfold IsShort; decide⟩⟩
    · exact absurd (by simp) hcolon

/-- The port that the page puts behind a name is made of digits. -/
theorem digits_port : ∀ c ∈ "80".toList, c ∈ digit := by
  have hall : "80".toList.all digit.contains = true := rfl
  exact fun c hc => List.contains_iff_mem.mp (List.all_eq_true.mp hall c hc)

/-- The pattern of the browser, too, still matches once the port has been put behind the name.
-/
theorem pattern_withPort {text : List Char} (h : onionPattern.rmatch text = true) :
    onionPattern.rmatch (withPort text) = true := by
  unfold withPort
  split
  · exact h
  · next hcolon =>
    obtain ⟨name, tail, rfl, hlen, hname, htail⟩ := pattern_iff.mp h
    rcases htail with rfl | ⟨digits, rfl, -⟩
    · exact pattern_iff.mpr ⟨name, ":80".toList, by simp, hlen, hname,
        .inr ⟨"80".toList, rfl, List.cons_ne_nil _ _, digits_port⟩⟩
    · exact absurd (by simp) hcolon

/-- The input's own rules take nothing from the endpoint once it has been saved. -/
theorem oneLine_resaved (h : Acceptable config) :
    oneLine (resaved config).onionEndpoint.toList =
      withPort (oneLine config.onionEndpoint.toList) := by
  rw [resaved, String.toList_ofList,
    oneLine_eq_self (not_isSpace_of_pattern (pattern_withPort h.pattern))]

/-- What has been saved in this way can be saved again. -/
theorem Acceptable.resaved (h : Acceptable config) : Acceptable (resaved config) := by
  refine ⟨?_, ?_, h.port⟩
  · rw [oneLine_resaved h]
    exact pattern_withPort h.pattern
  · rw [oneLine_resaved h]
    exact rmatch_withPort h.regex

/-- A proxy that listens on the other loopback address, and an endpoint without a port. -/
def otherHost : ProxyConfig :=
  ⟨.v6 ⟨[0, 0, 0, 0, 0, 0, 0, 1], rfl⟩ 8545 0 0, .ofV4 127 0 0 1 9050, String.ofList sampleHost⟩

/-- Browser and page take it: 56 letters and `.onion`, and the port 8545. -/
theorem acceptable_otherHost : Acceptable otherHost := by
  have hline : oneLine otherHost.onionEndpoint.toList = sampleHost := by decide +kernel
  have hname : ∀ c ∈ List.replicate 56 'a', c ∈ base32 := by
    intro c hc
    obtain rfl := List.eq_of_mem_replicate hc
    decide
  refine ⟨?_, ?_, by decide⟩
  · rw [hline]
    exact pattern_iff.mpr ⟨List.replicate 56 'a', [], by simp [sampleHost], List.length_replicate,
      hname, .inl rfl⟩
  · rw [hline]
    exact rmatch_iff.mpr
      ⟨sampleHost, [], (List.append_nil _).symm, onionHost_sample false, .inl rfl⟩

end Desktop

end Torpc
