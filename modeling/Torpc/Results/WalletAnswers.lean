import Torpc.Model.Tunnel
import Torpc.Results.Dispatch
import Torpc.Results.Unlinkable

/-!
# What a wallet gets for its request

Most of what can go wrong in the tunnel is answered with a gateway status. Three
outcomes are not: they leave `do_proxy` as errors, and the wallet's connection is
closed without a response (`wallet_answered_iff`). A response that does come from
the onion service is passed on whole or not at all (`response_mirrored`).
-/

namespace Torpc

open Bytes Effects Http Prog

-- ---------------------------------------------------------------------------
-- Errors
-- ---------------------------------------------------------------------------

/-- hyper can write the request line and the `Host` field of what goes on. -/
def Buildable (config : ProxyConfig) (parts : Request) : Prop :=
  (PathAndQuery.parse ((parts.target.map PathAndQuery.asStr).getD ['/'])).isSome = true ∧
    isHeaderValue config.onionEndpoint = true

/-- The outcomes of a step that end the exchange with an error. -/
inductive Lost (config : ProxyConfig) (parts : Request) : TunnelEvent → Prop where
  /-- the stream is open, and hyper's handshake on it fails -/
  | handshake (e : String) : Lost config parts ⟨.handshake, .error e⟩
  /-- the body is there, and there is no request for it -/
  | building {bytes : List UInt8} : bytes.length ≤ maxResponseBytes → ¬ Buildable config parts →
      Lost config parts ⟨.readBody, .ok bytes⟩
  /-- the connection ends before a response, or with one that cannot be parsed -/
  | sending (up : Request) (e : String) : Lost config parts ⟨.sendRequest up, .error e⟩

/-- What a wallet can be sent: the upstream's response, or a status of the proxy's own. -/
inductive Answer (tr : List TunnelEvent) : Response → Prop where
  | upstream {up : Request} {head : Response} {bytes : List UInt8} :
      ⟨.sendRequest up, .ok head⟩ ∈ tr → ⟨.readResponse, .ok bytes⟩ ∈ tr →
      Answer tr (mirroredResponse head bytes)
  | own {status : Nat} (msg : String) : 400 ≤ status → status < 600 →
      Answer tr (simpleResponse status msg)

variable {config : ProxyConfig} {parts : Request}

/-- A body that has been read can be sent on if and only if there is a request for it. -/
theorem buildable_iff {bytes : List UInt8} (hlen : bytes.length ≤ maxResponseBytes) :
    Buildable config parts ↔
      ∃ up, upstreamRequest config { parts with body := bytes } = .ok up := by
  unfold Buildable
  constructor
  · rintro ⟨hparse, hhost⟩
    obtain ⟨target, htarget⟩ := Option.isSome_iff_exists.mp hparse
    exact ⟨_, upstreamRequest_eq_ok.mpr ⟨target, htarget, hlen, hhost, rfl⟩⟩
  · rintro ⟨up, hup⟩
    obtain ⟨target, htarget, -, hhost, -⟩ := upstreamRequest_eq_ok.mp hup
    exact ⟨Option.isSome_iff_exists.mpr ⟨target, htarget⟩, hhost⟩

/-- Where the request upstream could not be built from the whole body, none can be built at
all. -/
theorem not_buildable {bytes : List UInt8} {context : String}
    (hlen : bytes.length ≤ maxResponseBytes)
    (h : upstreamRequest config { parts with body := bytes } = .error (.error context)) :
    ¬ Buildable config parts := by
  rw [buildable_iff hlen]
  rintro ⟨up, hup⟩
  cases h.symm.trans hup

/-- What is lost is not on the way to an open tunnel. -/
theorem not_lost_opened : ∀ e ∈ opened config, ¬ Lost config parts e := by
  intro e he hlost
  simp only [opened, List.mem_cons, List.not_mem_nil, or_false] at he
  rcases he with rfl | rfl <;> cases hlost

/-- A body that is read in full, and makes a request, has not been lost. -/
theorem not_lost_readBody {bytes : List UInt8} {up : Request}
    (h : upstreamRequest config { parts with body := bytes } = .ok up) :
    ¬ Lost config parts ⟨.readBody, .ok bytes⟩ := by
  intro hlost
  cases hlost with
  | building hlen hbuild => exact hbuild ((buildable_iff hlen).mpr ⟨up, h⟩)

/-- Nor on the way to a response, however its body ends. -/
theorem not_lost_answered {bytes : List UInt8} {up : Request}
    (h : upstreamRequest config { parts with body := bytes } = .ok up) (head : Response)
    (ends : List (Except String (List UInt8))) :
    ∀ e ∈ opened config ++ [⟨.readBody, .ok bytes⟩, ⟨.sendRequest up, .ok head⟩] ++
      ends.map (⟨.readResponse, ·⟩), ¬ Lost config parts e := by
  intro e he hlost
  rcases List.mem_append.mp he with he | he
  · rcases List.mem_append.mp he with he | he
    · exact not_lost_opened e he hlost
    · simp only [List.mem_cons, List.not_mem_nil, or_false] at he
      rcases he with rfl | rfl
      · exact not_lost_readBody h hlost
      · cases hlost
  · obtain ⟨body, -, rfl⟩ := List.mem_map.mp he
    cases hlost

/-- Where the body is too long or breaks off, nothing has been lost on the way to Tor yet.
-/
theorem not_lost_refused {body : Except String (List UInt8)}
    (h : limited maxResponseBytes body = none) :
    ∀ e ∈ opened config ++ [⟨.readBody, body⟩], ¬ Lost config parts e := by
  intro e he hlost
  rcases List.mem_append.mp he with he | he
  · exact not_lost_opened e he hlost
  · obtain rfl := List.mem_singleton.mp he
    cases hlost with
    | building hlen hbuild => cases h.symm.trans (limited_eq_some.mpr ⟨rfl, hlen⟩)

/-- As long as no step is lost, an exchange that has ended has an answer. -/
theorem Course.answer_iff {tr : List TunnelEvent} {result : Except String Response}
    (h : Course config parts tr (some result)) :
    (∃ response, result = .ok response ∧ Answer tr response) ↔
      ∀ e ∈ tr, ¬ Lost config parts e := by
  cases h with
  | unreachable e =>
    refine iff_of_true ⟨_, rfl, .own _ (by decide) (by decide)⟩ fun event hevent hlost => ?_
    obtain rfl := List.mem_singleton.mp hevent
    cases hlost
  | noHandshake e =>
    refine iff_of_false (fun ⟨_, hresult, _⟩ => nomatch hresult) fun hkept => ?_
    exact hkept _ (List.mem_cons_of_mem _ List.mem_cons_self) (.handshake e)
  | bodyRefused hbody =>
    exact iff_of_true ⟨_, rfl, .own _ (by decide) (by decide)⟩ (not_lost_refused hbody)
  | unbuilt hlen hbuild =>
    refine iff_of_false (fun ⟨_, hresult, _⟩ => nomatch hresult) fun hkept => ?_
    exact hkept _ (List.mem_append_right _ List.mem_cons_self)
      (.building hlen (not_buildable hlen hbuild))
  | unanswered hlen hbuild e =>
    refine iff_of_false (fun ⟨_, hresult, _⟩ => nomatch hresult) fun hkept => ?_
    exact hkept _ (List.mem_append_right _ (List.mem_cons_of_mem _ List.mem_cons_self))
      (.sending _ e)
  | @responseRefused _ _ hlen hbuild head body hbody =>
    exact iff_of_true ⟨_, rfl, .own _ (by decide) (by decide)⟩
      (not_lost_answered hbuild head [body])
  | @mirrored bytes up hlen hbuild head respBytes hrespLen =>
    have hsent : ⟨.sendRequest up, .ok head⟩ ∈ opened config ++
        [⟨.readBody, .ok bytes⟩, ⟨.sendRequest up, .ok head⟩, ⟨.readResponse, .ok respBytes⟩] := by
      simp
    exact iff_of_true ⟨_, rfl, .upstream hsent (by simp)⟩
      (not_lost_answered hbuild head [.ok respBytes])

/-- An exchange that goes on has lost nothing. -/
theorem Course.not_lost {tr : List TunnelEvent} (h : Course config parts tr none) :
    ∀ e ∈ tr, ¬ Lost config parts e := by
  cases h with
  | connecting => exact nofun
  | shakingHands =>
    intro e he hlost
    obtain rfl := List.mem_singleton.mp he
    cases hlost
  | reading => exact not_lost_opened
  | sending hlen hbuild =>
    intro e he hlost
    rcases List.mem_append.mp he with he | he
    · exact not_lost_opened e he hlost
    · obtain rfl := List.mem_singleton.mp he
      exact not_lost_readBody hbuild hlost
  | answered hlen hbuild head => exact not_lost_answered hbuild head []

/-- **An answer for every request.** Whatever happens to a wallet's request, the
timeout included, it is answered with the upstream's response or a status of the
proxy's own if and only if none of its steps is lost. -/
theorem wallet_answered_iff {tr : List TunnelEvent} {result : Except String Response}
    (h : ProxyRequest config parts tr result) :
    (∃ response, result = .ok response ∧ Answer tr response) ↔
      ∀ e ∈ tr, ¬ Lost config parts e := by
  cases h with
  | finished htrace => exact (doProxy_course htrace).answer_iff
  | timedOut htrace =>
    exact iff_of_true ⟨_, rfl, .own _ (by decide) (by decide)⟩ (doProxy_course htrace).not_lost

/-- Tor is not running: the wallet is told so. -/
theorem wallet_answered_unreachable :
    ∃ response : Response, Answer [⟨.connect exampleConfig.torProxy exampleConfig.onionEndpoint,
      .error "Connection refused"⟩] response := by
  have hend : ProxyRequest exampleConfig browserRequest.parts _ _ :=
    .finished (Course.unreachable "Connection refused").trace
  obtain ⟨response, -, hanswer⟩ := (wallet_answered_iff hend).mpr fun e he hlost => by
    obtain rfl := List.mem_singleton.mp he
    cases hlost
  exact ⟨response, hanswer⟩

/-- The onion service closes the connection before it has answered: so does the
proxy. -/
theorem closed_connection_unanswered : ∃ up tr result,
    upstreamRequest exampleConfig browserRequest.parts = .ok up ∧
    ⟨.sendRequest up, .error "connection closed before message completed"⟩ ∈ tr ∧
    ProxyRequest exampleConfig browserRequest.parts tr result ∧
    ¬ ∃ response, result = .ok response ∧ Answer tr response := by
  have hlen : browserRequest.body.length ≤ maxResponseBytes := by decide
  obtain ⟨up, hup⟩ : ∃ up, upstreamRequest exampleConfig browserRequest.parts = .ok up :=
    upstreamRequest_sent rfl rfl hlen (by decide)
  have hcourse : Course exampleConfig browserRequest.parts _ _ :=
    .unanswered hlen hup "connection closed before message completed"
  refine ⟨up, _, _, hup, by simp, .finished hcourse.trace, ?_⟩
  rintro ⟨response, hresult, -⟩
  cases hresult

-- ---------------------------------------------------------------------------
-- Responses
-- ---------------------------------------------------------------------------

/-- A field of this name goes back to the wallet. -/
def isReturned (name : String) : Bool := !(isHopByHop name || name == "authorization")

/-- The wallet's response says what the upstream's says. -/
structure Mirrors (resp : WireResponse) (bytes : List UInt8) (response : Response) : Prop where
  status : response.status = resp.status
  body : response.body = bytes
  /-- the fields of each name, in their order -/
  fields : ∀ name, response.headers.filter (fun field => field.1 == name) =
    if isReturned name then (resp.fields.map lowerName).filter fun field => field.1 == name else []

/-- What the proxy makes of a response mirrors it. -/
theorem mirrors_mirroredResponse (resp : WireResponse) (bytes : List UInt8) :
    Mirrors resp bytes (mirroredResponse resp.received bytes) := by
  refine ⟨rfl, rfl, fun name => ?_⟩
  have hkept : (mirroredResponse resp.received bytes).headers =
      (grouped (resp.fields.map lowerName)).filter fun field => isReturned field.1 := rfl
  rw [hkept, List.filter_filter]
  cases hname : isReturned name with
  | true =>
    rw [if_pos rfl, ← filter_grouped]
    refine List.filter_congr fun field _ => ?_
    by_cases hfield : field.1 = name
    · rw [hfield, hname, Bool.and_true]
    · rw [beq_false_of_ne hfield, Bool.false_and]
  | false =>
    rw [if_neg Bool.false_ne_true]
    refine List.filter_eq_nil_iff.mpr fun field _ hfield => ?_
    rw [Bool.and_eq_true, beq_iff_eq] at hfield
    rw [hfield.1, hname] at hfield
    cases hfield.2

/-- **Verbatim or refused.** When the onion service has answered, the wallet gets
its status, its whole body and its fields, name by name, without those that are
for the connection and `Authorization`; or, if the body fails or is too long, a
502 that is the proxy's own. -/
theorem response_mirrored {tr : List TunnelEvent} {result : Except String Response}
    (h : Trace (doProxy config parts) tr (.pure result)) {up : Request} {resp : WireResponse}
    (hresp : ⟨.sendRequest up, .ok resp.received⟩ ∈ tr) :
    ∃ body, ⟨.readResponse, body⟩ ∈ tr ∧
      ((∃ bytes response, body = .ok bytes ∧ bytes.length ≤ maxResponseBytes ∧
          result = .ok response ∧ Mirrors resp bytes response) ∨
        ((∀ bytes, body = .ok bytes → maxResponseBytes < bytes.length) ∧
          result = .ok (simpleResponse 502 "Onion response exceeded maximum size"))) := by
  have hcourse : Course config parts tr (some result) := doProxy_course h
  cases hcourse <;> simp [opened] at hresp
  case responseRefused bytes up' hlen hbuild head body hbody =>
    refine ⟨body, by simp, .inr ⟨fun bytes hbytes => ?_, rfl⟩⟩
    by_contra hle
    cases hbody.symm.trans (limited_eq_some.mpr ⟨hbytes, Nat.not_lt.mp hle⟩)
  case mirrored bytes up' hlen hbuild head respBytes hrespLen =>
    obtain ⟨-, rfl⟩ := hresp
    exact ⟨.ok respBytes, by simp, .inl ⟨respBytes, _, rfl, hrespLen, rfl,
      mirrors_mirroredResponse resp respBytes⟩⟩

/-- A response with two cookies. -/
def cookieResponse : WireResponse :=
  ⟨200, [("Set-Cookie", "a=1"), ("Connection", "close"), ("set-cookie", "b=2")]⟩

/-- Two cookies come back to the wallet as two, in their order. -/
theorem response_mirrored_cookies : ∃ up tr result,
    Trace (doProxy exampleConfig browserRequest.parts) tr (.pure result) ∧
    ⟨.sendRequest up, .ok cookieResponse.received⟩ ∈ tr ∧
    ∃ body, ⟨.readResponse, body⟩ ∈ tr ∧
      ((∃ bytes response, body = .ok bytes ∧ bytes.length ≤ maxResponseBytes ∧
          result = .ok response ∧ Mirrors cookieResponse bytes response) ∨
        ((∀ bytes, body = .ok bytes → maxResponseBytes < bytes.length) ∧
          result = .ok (simpleResponse 502 "Onion response exceeded maximum size"))) := by
  have hend : ([123, 125] : List UInt8).length ≤ maxResponseBytes := by decide
  obtain ⟨up, tr, -, htrace, -, hsent, -⟩ :=
    @exists_exchange exampleConfig browserRequest.parts _ rfl
    rfl (by decide) (by decide) cookieResponse.received _ hend
  exact ⟨up, tr, _, htrace, hsent, response_mirrored htrace hsent⟩

end Torpc
