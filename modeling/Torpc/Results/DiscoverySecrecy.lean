import Torpc.Model.Discovery

/-!
# What the discovery server tells without the token

The configuration is looked at after the token has been compared, and the
comparison says yes to the token only. So a page that does not know the token
gets the same responses whatever the proxy listens on (`discovery_secrecy`).
-/

namespace Torpc

open Bytes Http

/-- The comparison in constant time decides whether two texts are equal. -/
theorem constantTimeEq_iff (a b : List UInt8) : constantTimeEq a b = true ↔ a = b := by
  unfold constantTimeEq
  by_cases hlen : a.length = b.length
  · rw [if_neg (not_not.mpr hlen), beq_iff_eq, difference_zip_eq_zero_iff hlen]
  · rw [if_pos hlen]
    exact ⟨nofun, fun h => absurd (congrArg List.length h) hlen⟩

example : constantTimeEq (utf8 "abc") (utf8 "abd") = false := by decide

/-- The header's value, where it is a text, is that text. -/
theorem toStr_eq_some {value s : String} (h : toStr value = some s) : value = s := by
  unfold toStr at h
  split at h
  · exact Option.some.inj h
  · cases h

/-- A token that has been generated can stand in a header. -/
theorem toStr_token (bytes : Vector UInt8 32) :
    toStr (generateDiscoveryToken bytes) = some (generateDiscoveryToken bytes) := by
  have hvisible : ∀ d < 16, 32 ≤ d.digitChar.toNat ∧ d.digitChar.toNat < 127 := by decide
  unfold toStr
  rw [if_pos]
  refine List.all_eq_true.mpr fun c hc => ?_
  rw [generateDiscoveryToken_eq] at hc
  obtain ⟨d, hd, rfl⟩ := mem_hexEncode hc
  simp [hvisible d hd]

/-- The token that a request shows, if it is one that can be read. -/
def shownToken (req : Request) : Option String := req.headers.lookup "x-torpc-token" >>= toStr

/-- A request that is answered with the descriptor. -/
structure Admitted (req : Request) (token : String) : Prop where
  method : req.method = .get
  path : req.path = "/api/discovery"
  token : shownToken req = some token

/-- The response to an admitted request. -/
def descriptorResponse (toText : Value → String) (config : ProxyConfig) : Response :=
  ⟨200, [("content-type", "application/json"), csp], utf8 (toText (discoveryDescriptor config))⟩

/-- The comparison of the handler, on what is shown. -/
theorem shown_eq (req : Request) (token : String) :
    ((shownToken req).map fun p => constantTimeEq (utf8 p) (utf8 token)).getD false = true ↔
      shownToken req = some token := by
  cases shownToken req with
  | none => simp
  | some p =>
    rw [Option.map_some, Option.getD_some, constantTimeEq_iff, Option.some.injEq]
    exact utf8_injective.eq_iff

/-- A request that is admitted is given the descriptor. -/
theorem discoveryHandler_admitted (toText : Value → String) {req : Request} {token : String}
    (h : Admitted req token) (config : ProxyConfig) :
    discoveryHandler toText req config token = descriptorResponse toText config := by
  have hcompared := (shown_eq req token).mpr h.token
  unfold shownToken at hcompared
  unfold discoveryHandler
  rw [if_neg (by rw [h.method]; decide), if_neg (by simp [h.method, h.path])]
  simp only [hcompared]
  rfl

/-- Every other request is answered without a look at the configuration. -/
theorem discoveryHandler_refused (toText : Value → String) {req : Request} {token : String}
    (h : ¬ Admitted req token) : ∃ response : Response, response.status ≠ 200 ∧
      ∀ config, discoveryHandler toText req config token = response := by
  unfold discoveryHandler
  by_cases hoptions : req.method = .options
  · exact ⟨⟨204, [csp], []⟩, by decide, fun config => if_pos hoptions⟩
  simp only [if_neg hoptions]
  by_cases hother : req.method ≠ .get ∨ req.path ≠ "/api/discovery"
  · exact ⟨⟨404, [csp], utf8 "Not Found"⟩, by decide, fun config => if_pos hother⟩
  simp only [if_neg hother]
  have hrefused : ((shownToken req).map fun p =>
      constantTimeEq (utf8 p) (utf8 token)).getD false = false := by
    rw [← Bool.not_eq_true, shown_eq]
    rw [not_or, not_not, not_not] at hother
    exact fun hshown => h ⟨hother.1, hother.2, hshown⟩
  unfold shownToken at hrefused
  refine ⟨⟨401, [csp], utf8 "Unauthorized"⟩, by decide, fun config => ?_⟩
  rw [hrefused]
  rfl

/-- The first value of the header is missing, cannot be read, or is not the token. -/
def LacksToken (req : Request) (token : String) : Prop :=
  ∀ value, req.headers.lookup "x-torpc-token" = some value → toStr value = none ∨ value ≠ token

/-- One without the token is not admitted. -/
theorem not_admitted_of_lacksToken {req : Request} {token : String} (h : LacksToken req token) :
    ¬ Admitted req token := by
  intro hadmitted
  obtain ⟨value, hlookup, hread⟩ := Option.bind_eq_some_iff.mp hadmitted.token
  rcases h value hlookup with hnone | hne
  · cases hnone.symm.trans hread
  · exact hne (toStr_eq_some hread)

/-- With a token that has been generated, an admitted request has just it in the header. -/
theorem admitted_iff {req : Request} {secret : Vector UInt8 32} :
    Admitted req (generateDiscoveryToken secret) ↔ req.method = .get ∧
      req.path = "/api/discovery" ∧
      req.headers.lookup "x-torpc-token" = some (generateDiscoveryToken secret) := by
  constructor
  · rintro ⟨hmethod, hpath, htoken⟩
    obtain ⟨value, hlookup, hread⟩ := Option.bind_eq_some_iff.mp htoken
    exact ⟨hmethod, hpath, by rw [hlookup, toStr_eq_some hread]⟩
  · rintro ⟨hmethod, hpath, hlookup⟩
    refine ⟨hmethod, hpath, ?_⟩
    rw [shownToken, hlookup]
    exact toStr_token secret

/-- **Discovery secrecy.** The comparison decides equality of byte strings. A
request without the token is answered alike under any two configurations. The
descriptor goes out, and with it the only 200, in answer to a GET of the one path
with the token as the first value of the header. -/
theorem discovery_secrecy (toText : Value → String) :
    (∀ a b : List UInt8, constantTimeEq a b = true ↔ a = b) ∧
    (∀ (req : Request) (token : String), LacksToken req token → ∀ config config' : ProxyConfig,
      discoveryHandler toText req config token = discoveryHandler toText req config' token) ∧
    ∀ (req : Request) (secret : Vector UInt8 32) (config : ProxyConfig),
      let response := discoveryHandler toText req config (generateDiscoveryToken secret)
      (response.status = 200 ↔ response = descriptorResponse toText config) ∧
      (response.status = 200 ↔ req.method = .get ∧ req.path = "/api/discovery" ∧
        req.headers.lookup "x-torpc-token" = some (generateDiscoveryToken secret)) := by
  refine ⟨constantTimeEq_iff, fun req token hlacks config config' => ?_,
    fun req secret config => ?_⟩
  · obtain ⟨response, -, hresponse⟩ :=
      discoveryHandler_refused toText (not_admitted_of_lacksToken hlacks)
    rw [hresponse config, hresponse config']
  · intro response
    rw [← admitted_iff]
    by_cases hadmitted : Admitted req (generateDiscoveryToken secret)
    · have hresponse : response = descriptorResponse toText config :=
        discoveryHandler_admitted toText hadmitted config
      have hstatus : response.status = 200 := by rw [hresponse]; rfl
      exact ⟨iff_of_true hstatus hresponse, iff_of_true hstatus hadmitted⟩
    · obtain ⟨refusal, hstatus, hrefusal⟩ := discoveryHandler_refused toText hadmitted
      have hresponse : response = refusal := hrefusal config
      rw [← hresponse] at hstatus
      refine ⟨iff_of_false hstatus fun heq => hstatus ?_, iff_of_false hstatus hadmitted⟩
      rw [heq]
      rfl

/-- A page's request, without the header. -/
def pageRequest : Request where
  method := .get
  target := some ⟨"/api/discovery".toList, none, by decide, .inr (.inr rfl)⟩
  headers := [("host", "127.0.0.1:8081"), ("origin", "https://example.org")]
  body := []

/-- A writer that puts down the address and nothing else. -/
def addressOnly (v : Value) : String :=
  (v.get "proxy" >>= Value.get "listen_addr" >>= Value.asStr).getD ""

def listeningOn (port : UInt16) : ProxyConfig :=
  ⟨.ofV4 127 0 0 1 port, .ofV4 127 0 0 1 9050, "a.onion:80"⟩

/-- The page is told nothing about the port. -/
theorem discovery_secrecy_page :
    discoveryHandler addressOnly pageRequest (listeningOn 8545)
        (generateDiscoveryToken (.replicate 32 7)) =
      discoveryHandler addressOnly pageRequest (listeningOn 9545)
        (generateDiscoveryToken (.replicate 32 7)) :=
  (discovery_secrecy addressOnly).2.1 pageRequest (generateDiscoveryToken (.replicate 32 7)) nofun
    (listeningOn 8545) (listeningOn 9545)

end Torpc
