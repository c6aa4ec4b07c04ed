import Mathlib.Data.Bool.AllAny
import Torpc.Model.SettingsForm

/-!
# Which endpoints can be saved

The form is meant to accept an onion host with an optional port, and to send the
endpoint with a port in any case. What its pattern checks of a port is the number
of digits. So a port 0 and one above 65535 are accepted, of which the SOCKS client
cannot read the latter, and a port with more than three leading zeros may be
refused; these are the only differences (`endpoint_validation`). The pattern also
ignores the case of the word `.onion`, which makes one more difference if the
word is asked for as it is written: both readings are covered.
-/

namespace Torpc.SettingsForm

open Net Regex

-- ---------------------------------------------------------------------------
-- What an endpoint is
-- ---------------------------------------------------------------------------

/-- The letters of base 32, in any case, and its digits. -/
def IsBase32 (c : Char) : Prop :=
  ('a' ≤ c ∧ c ≤ 'z') ∨ ('A' ≤ c ∧ c ≤ 'Z') ∨ ('2' ≤ c ∧ c ≤ '7')

/-- 56 characters of base 32 and `.onion`, which may be asked for in lower case. -/
def OnionHost (lower : Bool) (host : List Char) : Prop :=
  ∃ name suffix, host = name ++ suffix ∧ name.length = 56 ∧ (∀ c ∈ name, IsBase32 c) ∧
    (if lower then suffix else suffix.map Char.toLower) = ".onion".toList

/-- A decimal port from 1 to 65535. -/
def IsPort (digits : List Char) : Prop :=
  IsDigits digits ∧ 1 ≤ decimalValue digits ∧ decimalValue digits ≤ 65535

/-- A text with a host and an optional port, and the endpoint it stands for. -/
inductive Endpoint (Host Port : List Char → Prop) : List Char → List Char → Prop where
  | withPort {host digits : List Char} (hhost : Host host) (hport : Port digits) :
      Endpoint Host Port (host ++ ':' :: digits) (host ++ ':' :: digits)
  | withoutPort {host : List Char} (hhost : Host host) :
      Endpoint Host Port host (host ++ ":80".toList)

/-- The endpoint that is to be sent for a text. -/
def Wanted (lower : Bool) : List Char → List Char → Prop := Endpoint (OnionHost lower) IsPort

/-- At most five digits. -/
def IsShort (digits : List Char) : Prop := IsDigits digits ∧ digits.length ≤ 5

/-- Saving these inputs hands `endpoint` to `update_config`. -/
def Sends (parseIntText : List Char → List Char) (inputs : Inputs) (endpoint : List Char) : Prop :=
  ∃ config answered, saveConfig parseIntText inputs = .updateConfig config answered ∧
    config.onionEndpoint = endpoint

/-- A text on which the form goes wrong: the port's number of digits says something
else than its value, or the host ends in `.onion` in another case than asked for. -/
def Misjudged (lower : Bool) (text : List Char) : Prop :=
  ∃ host, OnionHost false host ∧
    ((text = host ∧ ¬ OnionHost lower host) ∨
      ∃ digits, text = host ++ ':' :: digits ∧ IsDigits digits ∧
        ¬ (digits.length ≤ 5 ↔ OnionHost lower host ∧ IsPort digits))

-- ---------------------------------------------------------------------------
-- Characters
-- ---------------------------------------------------------------------------

/-- What comes before an ASCII character is one. -/
theorem toNat_lt_of_le {c d : Char} (h : c ≤ d) (hd : d.toNat < 128) : c.toNat < 128 :=
  Nat.lt_of_le_of_lt h hd

/-- What holds of the characters of ASCII can be tried on their codes. -/
theorem of_codes {P : Char → Prop} (h : ∀ n < 128, P (Char.ofNat n)) (c : Char)
    (hc : c.toNat < 128) : P c := by
  have hcode := h c.toNat hc
  rw [Char.ofNat_toNat] at hcode
  exact hcode

/-- The letters of the expression are the letters and digits of base 32. -/
theorem isBase32_iff {c : Char} : c ∈ bothCases base32 ↔ IsBase32 c := by
  constructor
  · have hall : ∀ c ∈ bothCases base32, IsBase32 c := by
      unfold IsBase32
      exact List.all_iff_forall_prop.mp rfl
    exact hall c
  · intro h
    have hascii : c.toNat < 128 := by
      rcases h with ⟨-, h⟩ | ⟨-, h⟩ | ⟨-, h⟩ <;> exact toNat_lt_of_le h (by decide)
    have hall : ∀ c : Char, c.toNat < 128 → IsBase32 c → c ∈ bothCases base32 := by
      unfold IsBase32
      exact of_codes (by decide +kernel)
    exact hall c hascii h

/-- Its digits are the ten digits. -/
theorem mem_digit_iff {c : Char} : c ∈ digit ↔ (digitVal 10 c).isSome := by
  constructor
  · have hall : ∀ c ∈ digit, (digitVal 10 c).isSome := List.all_eq_true.mp rfl
    exact hall c
  · intro h
    have hascii : c.toNat < 128 := by
      by_contra hbig
      have hnot : ∀ d : Char, d.toNat < 128 → ¬ c ≤ d := fun d hd hle =>
        hbig (toNat_lt_of_le hle hd)
      simp [digitVal, hnot] at h
    have hall : ∀ c : Char, c.toNat < 128 → (digitVal 10 c).isSome → c ∈ digit :=
      of_codes (by decide +kernel)
    exact hall c hascii h

/-- A case of a character of `.onion` is what becomes of it in lower case. -/
theorem mem_bothCases_iff {c d : Char} (hd : d ∈ ".onion".toList) :
    c ∈ bothCases [d] ↔ c.toLower = d := by
  have hascii : c.toLower = d → c.toNat < 128 := by
    intro h
    by_contra hbig
    have hlower : c.toLower = c := by
      unfold Char.toLower
      rw [dif_neg]
      rintro ⟨-, hle⟩
      have hz : c.toNat ≤ 'Z'.toNat := hle
      exact hbig (Nat.lt_of_le_of_lt hz (by decide))
    rw [hlower] at h
    rw [h] at hbig
    have hall : ∀ d ∈ ".onion".toList, d.toNat < 128 := List.all_iff_forall_prop.mp rfl
    exact hbig (hall d hd)
  constructor
  · intro h
    have hall : ∀ d ∈ ".onion".toList, (bothCases [d]).all fun c => c.toLower = d :=
      List.all_eq_true.mp rfl
    exact List.all_iff_forall_prop.mp (hall d hd) c h
  · intro h
    have hcodes : ∀ d ∈ ".onion".toList, ∀ n < 128, (Char.ofNat n).toLower = d →
        Char.ofNat n ∈ bothCases [d] := by
      refine List.all_iff_forall_prop.mp ?_
      decide +kernel
    have hall : ∀ c : Char, c.toNat < 128 → c.toLower = d → c ∈ bothCases [d] :=
      of_codes (hcodes d hd)
    exact hall c (hascii h) h

-- ---------------------------------------------------------------------------
-- What the form accepts
-- ---------------------------------------------------------------------------

/-- A word that is spelled letter by letter in both cases is that word without regard to
case. -/
theorem mem_eachOf_bothCases {ds w : List Char} (hds : ∀ d ∈ ds, d ∈ ".onion".toList) :
    w ∈ (eachOf (ds.map fun d => bothCases [d])).matches' ↔ w.map Char.toLower = ds := by
  rw [mem_eachOf, List.forall₂_map_right_iff]
  induction ds generalizing w with
  | nil => rw [List.forall₂_nil_right_iff, List.map_eq_nil_iff]
  | cons d ds ih =>
    obtain ⟨hd, hrest⟩ := List.forall_mem_cons.mp hds
    cases w with
    | nil => simp
    | cons c w =>
      rw [List.forall₂_cons, mem_bothCases_iff hd, ih hrest, List.map_cons, List.cons.injEq]

/-- The first part of the expression matches the names of onion hosts. -/
theorem mem_onionHost {host : List Char} :
    host ∈ (oneOf (bothCases base32) ^ 56 *
      eachOf (".onion".toList.map fun c => bothCases [c])).matches' ↔ OnionHost false host := by
  rw [RegularExpression.matches'_mul, Language.mem_mul]
  have hsuffix : ∀ suffix, suffix ∈ (eachOf (".onion".toList.map fun c =>
      bothCases [c])).matches' ↔ suffix.map Char.toLower = ".onion".toList :=
    fun suffix => mem_eachOf_bothCases fun _ hd => hd
  constructor
  · rintro ⟨name, hname, suffix, hsuf, rfl⟩
    obtain ⟨hlen, hall⟩ := mem_oneOf_pow.mp hname
    exact ⟨name, suffix, rfl, hlen, fun c hc => isBase32_iff.mp (hall c hc),
      (hsuffix suffix).mp hsuf⟩
  · rintro ⟨name, suffix, rfl, hlen, hall, hsuf⟩
    exact ⟨name, mem_oneOf_pow.mpr ⟨hlen, fun c hc => isBase32_iff.mpr (hall c hc)⟩, suffix,
      (hsuffix suffix).mpr hsuf, rfl⟩

/-- The last part matches nothing, or a colon with one to five digits. -/
theorem mem_port {tail : List Char} :
    tail ∈ (opt (.char ':' * between 1 5 (oneOf digit))).matches' ↔
      tail = [] ∨ ∃ digits, tail = ':' :: digits ∧ IsShort digits := by
  rw [opt, RegularExpression.matches'_add, RegularExpression.matches'_epsilon, Language.mem_add,
    Language.mem_one, RegularExpression.matches'_mul, Language.mem_mul]
  refine or_congr_right ⟨?_, ?_⟩
  · rintro ⟨colon, hcolon, digits, hdigits, rfl⟩
    obtain rfl := mem_char.mp hcolon
    obtain ⟨⟨hlow, hhigh⟩, hall⟩ := (mem_between (by decide)).mp hdigits
    refine ⟨digits, rfl, ⟨?_, fun c hc => mem_digit_iff.mp (hall c hc)⟩, hhigh⟩
    rintro rfl
    cases hlow
  · rintro ⟨digits, rfl, ⟨hne, hall⟩, hlen⟩
    refine ⟨[':'], mem_char.mpr rfl, digits, (mem_between (by decide)).mpr ⟨⟨?_, hlen⟩, ?_⟩, rfl⟩
    · exact List.length_pos_iff.mpr hne
    · exact fun c hc => mem_digit_iff.mpr (hall c hc)

/-- The pattern: an onion host in any case, and at most five digits of a port. -/
theorem rmatch_iff {text : List Char} : onionRegex.rmatch text = true ↔
    ∃ host tail, text = host ++ tail ∧ OnionHost false host ∧
      (tail = [] ∨ ∃ digits, tail = ':' :: digits ∧ IsShort digits) := by
  rw [RegularExpression.rmatch_iff_matches', onionRegex, RegularExpression.matches'_mul,
    Language.mem_mul]
  constructor
  · rintro ⟨host, hhost, tail, htail, rfl⟩
    exact ⟨host, tail, rfl, mem_onionHost.mp hhost, mem_port.mp htail⟩
  · rintro ⟨host, tail, rfl, hhost, htail⟩
    exact ⟨host, mem_onionHost.mpr hhost, tail, mem_port.mpr htail, rfl⟩

/-- There is no colon in the name of a host. -/
theorem colon_notMem_host {lower : Bool} {host : List Char} (h : OnionHost lower host) :
    ':' ∉ host := by
  obtain ⟨name, suffix, rfl, -, hname, hsuffix⟩ := h
  intro hmem
  rcases List.mem_append.mp hmem with hmem | hmem
  · have hcolon := hname ':' hmem
    unfold IsBase32 at hcolon
    revert hcolon
    decide
  · have hcolon : ':' ∈ ".onion".toList := by
      rw [← hsuffix]
      cases lower with
      | true => exact hmem
      | false => exact List.mem_map_of_mem hmem
    revert hcolon
    decide

/-- Nor among digits. -/
theorem colon_notMem_digits {digits : List Char} (h : IsDigits digits) : ':' ∉ digits := by
  intro hmem
  have hcolon := h.2 ':' hmem
  revert hcolon
  decide

/-- A host in lower case is a host. -/
theorem OnionHost.anyCase {lower : Bool} {host : List Char} (h : OnionHost lower host) :
    OnionHost false host := by
  cases lower with
  | false => exact h
  | true =>
    obtain ⟨name, suffix, rfl, hlen, hname, hsuffix⟩ := h
    refine ⟨name, suffix, rfl, hlen, hname, ?_⟩
    rw [show suffix = ".onion".toList from hsuffix]
    decide

-- ---------------------------------------------------------------------------
-- What the form sends
-- ---------------------------------------------------------------------------

/-- An endpoint by the place of its colon. -/
theorem endpoint_colon {Host Port : List Char → Prop} (hhost : ∀ h, Host h → ':' ∉ h)
    {host digits endpoint : List Char} (hcolon : ':' ∉ host) :
    Endpoint Host Port (host ++ ':' :: digits) endpoint ↔
      Host host ∧ Port digits ∧ endpoint = host ++ ':' :: digits := by
  constructor
  · intro h
    generalize htext : host ++ ':' :: digits = text at h
    cases h with
    | @withPort host' digits' hh hp =>
      have hsplit := Text.splitOnce_append hcolon digits
      rw [htext, Text.splitOnce_append (hhost _ hh)] at hsplit
      obtain ⟨rfl, rfl⟩ := Prod.mk.inj (Option.some.inj hsplit)
      exact ⟨hh, hp, rfl⟩
    | withoutPort hh =>
      refine absurd ?_ (hhost _ hh)
      rw [← htext]
      simp
  · rintro ⟨hh, hp, rfl⟩
    exact .withPort hh hp

/-- Where the whole text is the host, without a colon, the endpoint is the one with port 80.
-/
theorem endpoint_plain {Host Port : List Char → Prop} {host endpoint : List Char}
    (hcolon : ':' ∉ host) :
    Endpoint Host Port host endpoint ↔ Host host ∧ endpoint = host ++ ":80".toList := by
  constructor
  · intro h
    cases h with
    | withPort hh hp => exact absurd (by simp) hcolon
    | withoutPort hh => exact ⟨hh, rfl⟩
  · rintro ⟨hh, rfl⟩
    exact .withoutPort hh

/-- A proxy with a colon has two parts. -/
theorem two_parts {torProxy : List Char} (h : ':' ∈ torProxy) :
    ¬ (torProxy.splitOn ':').length < 2 := by
  obtain ⟨s, t, rfl, hs⟩ := List.eq_append_cons_of_mem h
  have hsplit : (s ++ ':' :: t).splitOn ':' = s :: t.splitOn ':' := by
    refine List.splitOnP_append_cons_of_forall_mem (fun c hc => ?_) ':' (by simp) t
    rw [beq_eq_false_iff_ne]
    rintro rfl
    exact hs hc
  have hne : t.splitOn ':' ≠ [] := List.splitOnP_ne_nil _ t
  have hpos := List.length_pos_iff.mpr hne
  rw [hsplit, List.length_cons]
  omega

variable {parseIntText : List Char → List Char} {inputs : Inputs} {endpoint : List Char}

/-- The form sends an endpoint just if the expression matches its trimmed text, and it sends
that text with a port. -/
theorem sends_iff_rmatch (hproxy : ':' ∈ Text.trim isSpace inputs.torProxy) :
    Sends parseIntText inputs endpoint ↔
      onionRegex.rmatch (Text.trim isSpace inputs.onionEndpoint) = true ∧
        endpoint = if ':' ∈ Text.trim isSpace inputs.onionEndpoint
          then Text.trim isSpace inputs.onionEndpoint
          else Text.trim isSpace inputs.onionEndpoint ++ ":80".toList := by
  unfold Sends saveConfig
  generalize Text.trim isSpace inputs.onionEndpoint = rawOnion
  simp only [if_neg (two_parts hproxy)]
  by_cases hempty : rawOnion = []
  · -- the empty text matches nothing
    rw [if_pos hempty]
    constructor
    · rintro ⟨config, answered, hsave, -⟩
      cases hsave
    · rintro ⟨hmatch, -⟩
      obtain ⟨host, tail, htext, ⟨name, suffix, rfl, hlen, -⟩, -⟩ := rmatch_iff.mp hmatch
      have hlength := congrArg List.length (hempty.symm.trans htext)
      rw [List.length_append, List.length_append, hlen, List.length_nil] at hlength
      omega
  · rw [if_neg hempty]
    cases hmatch : onionRegex.rmatch rawOnion with
    | false =>
      rw [if_pos (by rfl)]
      constructor
      · rintro ⟨config, answered, hsave, -⟩
        cases hsave
      · rintro ⟨hfalse, -⟩
        cases hfalse
    | true =>
      rw [if_neg (by decide)]
      constructor
      · rintro ⟨config, answered, hsave, rfl⟩
        obtain ⟨rfl, -⟩ := Outcome.updateConfig.inj hsave
        exact ⟨rfl, rfl⟩
      · rintro ⟨-, rfl⟩
        exact ⟨_, _, rfl, rfl⟩

/-- What the form sends: any onion host with at most five digits of a port. -/
theorem sends_iff (hproxy : ':' ∈ Text.trim isSpace inputs.torProxy) :
    Sends parseIntText inputs endpoint ↔ Endpoint (OnionHost false) IsShort
      (Text.trim isSpace inputs.onionEndpoint) endpoint := by
  rw [sends_iff_rmatch hproxy, rmatch_iff]
  generalize Text.trim isSpace inputs.onionEndpoint = text
  constructor
  · rintro ⟨⟨host, tail, rfl, hhost, htail⟩, rfl⟩
    have hcolon := colon_notMem_host hhost
    rcases htail with rfl | ⟨digits, rfl, hshort⟩
    · rw [List.append_nil, if_neg hcolon]
      exact .withoutPort hhost
    · rw [if_pos (by simp)]
      exact .withPort hhost hshort
  · intro h
    cases h with
    | @withPort host digits hhost hshort =>
      refine ⟨⟨host, ':' :: digits, rfl, hhost, .inr ⟨digits, rfl, hshort⟩⟩, ?_⟩
      rw [if_pos (by simp)]
    | withoutPort hhost =>
      refine ⟨⟨text, [], (List.append_nil _).symm, hhost, .inl rfl⟩, ?_⟩
      rw [if_neg (colon_notMem_host hhost)]

/-- An endpoint that is wanted can be read by the SOCKS client. -/
theorem socksTarget_isSome {lower : Bool} {text endpoint : List Char}
    (h : Wanted lower text endpoint) : (socksTarget endpoint).isSome := by
  have hreads : ∀ host digits, IsPort digits → (socksTarget (host ++ ':' :: digits)).isSome := by
    rintro host digits ⟨hdigits, -, hhigh⟩
    have hport : parseU16 digits = some (.ofNat (decimalValue digits)) := by
      rw [parseU16, parseUnsigned_digits hdigits, if_neg (by omega), Option.map_some]
    have hsplit := rsplitColon_append (colon_notMem_digits hdigits) host
    simp only [socksTarget, hsplit, hport, Option.bind_eq_bind, Option.bind_some]
    rfl
  cases h with
  | withPort hhost hport => exact hreads _ _ hport
  | withoutPort hhost => exact hreads _ "80".toList (by unfold IsPort; decide)

/-- A text that is misjudged has an endpoint that is sent and not wanted, or wanted
and not sent. -/
theorem Misjudged.differs {lower : Bool} {text : List Char} (h : Misjudged lower text) :
    ∃ endpoint, ¬ (Endpoint (OnionHost false) IsShort text endpoint ↔
      Wanted lower text endpoint) := by
  have hanyCase : ∀ lower host, OnionHost lower host → ':' ∉ host := fun _ _ =>
    colon_notMem_host
  obtain ⟨host, hhost, ⟨rfl, hnot⟩ | ⟨digits, rfl, hdigits, hport⟩⟩ := h
  · have hcolon := colon_notMem_host hhost
    refine ⟨text ++ ":80".toList, fun hiff => hnot ?_⟩
    exact ((endpoint_plain hcolon).mp (hiff.mp (.withoutPort hhost))).1
  · have hcolon := colon_notMem_host hhost
    refine ⟨host ++ ':' :: digits, fun hiff => hport ⟨fun hlen => ?_, fun ⟨hlower, hvalue⟩ => ?_⟩⟩
    · have hsent : Endpoint (OnionHost false) IsShort (host ++ ':' :: digits)
          (host ++ ':' :: digits) := .withPort hhost ⟨hdigits, hlen⟩
      obtain ⟨hlower, hvalue, -⟩ := (endpoint_colon (hanyCase lower) hcolon).mp (hiff.mp hsent)
      exact ⟨hlower, hvalue⟩
    · have hwanted : Wanted lower (host ++ ':' :: digits) (host ++ ':' :: digits) :=
        .withPort hlower hvalue
      exact ((endpoint_colon (hanyCase false) hcolon).mp (hiff.mpr hwanted)).2.1.2

/-- Of any other text what is wanted is sent, and nothing else. -/
theorem short_iff_wanted {lower : Bool} {text : List Char} (h : ¬ Misjudged lower text)
    (endpoint : List Char) :
    Endpoint (OnionHost false) IsShort text endpoint ↔ Wanted lower text endpoint := by
  constructor
  · intro hsent
    cases hsent with
    | @withPort host digits hhost hshort =>
      by_contra hnot
      refine h ⟨host, hhost, .inr ⟨digits, rfl, hshort.1, fun hiff => ?_⟩⟩
      obtain ⟨hlower, hport⟩ := hiff.mp hshort.2
      exact hnot (.withPort hlower hport)
    | withoutPort hhost =>
      by_contra hnot
      exact h ⟨text, hhost, .inl ⟨rfl, fun hlower => hnot (.withoutPort hlower)⟩⟩
  · intro hwanted
    cases hwanted with
    | @withPort host digits hhost hport =>
      by_contra hnot
      refine h ⟨host, hhost.anyCase, .inr ⟨digits, rfl, hport.1, fun hiff => ?_⟩⟩
      exact hnot (.withPort hhost.anyCase ⟨hport.1, hiff.mpr ⟨hhost, hport⟩⟩)
    | withoutPort hhost => exact .withoutPort hhost.anyCase

/-- For a text and a proxy field with a port, the form sends what it should and
nothing else, and the SOCKS client can read it, unless the text is misjudged. -/
theorem endpoint_validation (lower : Bool) (parseIntText : List Char → List Char)
    (inputs : Inputs) (hproxy : ':' ∈ Text.trim isSpace inputs.torProxy) :
    ((∀ endpoint, Sends parseIntText inputs endpoint ↔
        Wanted lower (Text.trim isSpace inputs.onionEndpoint) endpoint) ∧
      ∀ endpoint, Sends parseIntText inputs endpoint → (socksTarget endpoint).isSome) ↔
    ¬ Misjudged lower (Text.trim isSpace inputs.onionEndpoint) := by
  simp only [sends_iff hproxy]
  constructor
  · rintro ⟨hsends, -⟩ hmisjudged
    obtain ⟨endpoint, hdiffers⟩ := hmisjudged.differs
    exact hdiffers (hsends endpoint)
  · intro hjudged
    refine ⟨short_iff_wanted hjudged, fun endpoint hsent => ?_⟩
    exact socksTarget_isSome ((short_iff_wanted hjudged endpoint).mp hsent)

/-- An onion host. -/
def sampleHost : List Char := List.replicate 56 'a' ++ ".onion".toList

/-- A host with 56 letters, as an example. -/
theorem onionHost_sample (lower : Bool) : OnionHost lower sampleHost := by
  refine ⟨List.replicate 56 'a', ".onion".toList, rfl, rfl, fun c hc => ?_, ?_⟩
  · obtain rfl := List.eq_of_mem_replicate hc
    exact .inl (by decide)
  · cases lower <;> decide

/-- The form with an endpoint, the default port and Tor's usual address. -/
def form (onionEndpoint : List Char) : Inputs :=
  ⟨onionEndpoint, "8545".toList, "127.0.0.1:9050".toList⟩

/-- A host without a port is sent with port 80. -/
theorem endpoint_validation_host :
    Sends (fun s => s) (form sampleHost) (sampleHost ++ ":80".toList) := by
  have htrim : Text.trim isSpace (form sampleHost).onionEndpoint = sampleHost := by
    decide +kernel
  have hjudged : ¬ Misjudged false sampleHost := by
    rintro ⟨host, hhost, ⟨-, hnot⟩ | ⟨digits, htext, -⟩⟩
    · exact hnot hhost
    · refine absurd ?_ (colon_notMem_host (onionHost_sample false))
      rw [htext]
      simp
  have hform := (endpoint_validation false (fun s => s) (form sampleHost)
    (by decide +kernel)).mpr (by rw [htrim]; exact hjudged)
  rw [htrim] at hform
  exact (hform.1 _).mpr (.withoutPort (onionHost_sample false))

/-- Port 70000 is accepted, which is none, and the SOCKS client refuses it. -/
theorem large_port_sent :
    Sends (fun s => s) (form (sampleHost ++ ":70000".toList)) (sampleHost ++ ":70000".toList) ∧
    (∀ lower, ¬ Wanted lower (sampleHost ++ ":70000".toList) (sampleHost ++ ":70000".toList)) ∧
    socksTarget (sampleHost ++ ":70000".toList) = none := by
  have htrim : Text.trim isSpace (form (sampleHost ++ ":70000".toList)).onionEndpoint =
      sampleHost ++ ":70000".toList := by
    decide +kernel
  refine ⟨?_, fun lower h => ?_, by decide +kernel⟩
  · rw [sends_iff (by decide +kernel), htrim]
    exact .withPort (onionHost_sample false) (by unfold IsShort; decide)
  · have hcolon := colon_notMem_host (onionHost_sample lower)
    obtain ⟨-, ⟨-, -, hvalue⟩, -⟩ := (endpoint_colon (fun _ => colon_notMem_host) hcolon).mp h
    revert hvalue
    decide

end Torpc.SettingsForm
