import Torpc.Lib.Text
import Torpc.Model.Tunnel
import Torpc.Results.Dispatch
import Torpc.Results.Unlinkable

/-!
# The fields that go on

`do_proxy` copies the wallet's fields by a list of names that are left out and
appends fields of its own. `Content-Length` is both copied and appended, so a
request that comes with a length goes on with two (`framing_iff`). And the list
of names is fixed, whereas a message says in its own `Connection` fields which of
its fields are for the connection: these go on, on either leg
(`hop_by_hop_iff`).
-/

namespace Torpc

open Effects Http Prog

variable {config : ProxyConfig} {req : Request}

/-- The names that the proxy writes itself. -/
def ownNames (body : List UInt8) : List String :=
  ["host", "user-agent"] ++ if body.isEmpty then [] else ["content-length"]

/-- `Content-Length` is not among the names that are left out. -/
theorem isDropped_contentLength : isDropped "content-length" = false := by
  rw [isDropped, isHopByHop, isWalletFingerprint, toLower_eq]
  decide

/-- The fields of a request that has been sent. -/
theorem sent_headers {tr : List TunnelEvent} {rest : Tunnel (Except String Response)}
    (h : Trace (doProxy config req) tr rest) {up : Request}
    {r : Except String Response} (hsent : ⟨.sendRequest up, r⟩ ∈ tr) {body : List UInt8}
    (hbody : ⟨.readBody, .ok body⟩ ∈ tr) :
    up.headers = forwardedHeaders config { req with body := body } :=
  upstreamRequest_headers ((doProxy_course h).sent hsent hbody)

-- ---------------------------------------------------------------------------
-- The length
-- ---------------------------------------------------------------------------

/-- How long the body is, is said in one way only. -/
structure Framed (body : List UInt8) (up : Request) : Prop where
  noTransferEncoding : ∀ field ∈ up.headers, field.1 ≠ "transfer-encoding"
  oneLength : body ≠ [] → up.headers.filter (fun field => field.1 == "content-length") =
    [("content-length", toString body.length)]

/-- The lengths that go on: those of the wallet, and the proxy's own. -/
theorem filter_contentLength {body : List UInt8} (hbody : body ≠ []) :
    (forwardedHeaders config { req with body := body }).filter
        (fun field => field.1 == "content-length") =
      (visibleFields req.headers).filter (fun field => field.1 == "content-length") ++
        [("content-length", toString body.length)] := by
  have hfull : body.isEmpty = false := by
    rw [List.isEmpty_eq_false_iff]
    exact hbody
  rw [forwardedHeaders_eq]
  dsimp only
  rw [hfull, if_neg Bool.false_ne_true, List.filter_append, List.filter_append]
  simp

/-- A length that the wallet has sent is a visible field. -/
theorem visible_contentLength_iff :
    (visibleFields req.headers).filter (fun field => field.1 == "content-length") = [] ↔
      ∀ field ∈ req.headers, field.1 ≠ "content-length" := by
  rw [List.filter_eq_nil_iff]
  constructor
  · intro hnone field hfield hname
    refine hnone field (List.mem_filter.mpr ⟨hfield, ?_⟩) (beq_iff_eq.mpr hname)
    rw [hname, isDropped_contentLength]
    rfl
  · intro hnone field hfield hname
    exact hnone field (List.mem_filter.mp hfield).1 (beq_iff_eq.mp hname)

/-- The field `Transfer-Encoding` is one of those that are dropped. -/
theorem isDropped_transferEncoding : isDropped "transfer-encoding" = true := by
  rw [isDropped, isHopByHop, toLower_eq]
  rfl

/-- **Framing.** What is sent for a wallet's request has no `Transfer-Encoding`. It
has just the one length of its body if and only if there is no body or the wallet
has not sent a length, that is to say none is in the header map. -/
theorem framing_iff {tr : List TunnelEvent} {rest : Tunnel (Except String Response)}
    (h : Trace (doProxy config req) tr rest) {up : Request}
    {r : Except String Response} (hsent : ⟨.sendRequest up, r⟩ ∈ tr) {body : List UInt8}
    (hbody : ⟨.readBody, .ok body⟩ ∈ tr) :
    Framed body up ↔ (body ≠ [] → ∀ field ∈ req.headers, field.1 ≠ "content-length") := by
  have hheaders := sent_headers h hsent hbody
  have hlengths : body ≠ [] →
      (up.headers.filter (fun field => field.1 == "content-length") =
        [("content-length", toString body.length)] ↔
        ∀ field ∈ req.headers, field.1 ≠ "content-length") := by
    intro hne
    rw [hheaders, filter_contentLength hne, List.append_left_eq_self, visible_contentLength_iff]
  constructor
  · intro hframed hne
    exact (hlengths hne).mp (hframed.oneLength hne)
  · intro hnone
    refine ⟨fun field hfield hname => ?_, fun hne => (hlengths hne).mpr (hnone hne)⟩
    have hgone := @filter_forwarded config { req with body := body } _
      isDropped_transferEncoding (by decide)
    rw [hheaders] at hfield
    have hmem : field ∈ (forwardedHeaders config { req with body := body }).filter
        fun field => field.1 == "transfer-encoding" :=
      List.mem_filter.mpr ⟨hfield, beq_iff_eq.mpr hname⟩
    rw [hgone] at hmem
    revert hmem
    simp

/-- A request whose body comes in chunks, and says so: it goes on with its length. -/
def chunkedRequest : Request :=
  { browserRequest.parts with
    headers := browserRequest.headers ++ [("transfer-encoding", "chunked")] }

/-- A body that came in chunks is sent on with its length, and with no word of the chunks.
-/
theorem framing_chunked : ∃ up tr rest,
    Trace (doProxy exampleConfig chunkedRequest) tr rest ∧
    ⟨.sendRequest up, .ok ⟨200, [], []⟩⟩ ∈ tr ∧ Framed chunkedRequest.body up := by
  obtain ⟨up, tr, -, htrace, hbody, hsent, -⟩ := @exists_exchange exampleConfig chunkedRequest _ rfl
    rfl (by decide) (by decide) ⟨200, [], []⟩ [] (by decide)
  refine ⟨up, tr, _, htrace, hsent, (framing_iff htrace hsent hbody).mpr fun _ => ?_⟩
  decide

/-- The same request with its length, as most clients send it. -/
def lengthRequest : Request :=
  { browserRequest.parts with headers := browserRequest.headers ++ [("content-length", "2")] }

/-- A request with its length in the header map goes on with two fields of that name, so its
framing is not the one of its body. -/
theorem length_sent_twice : ∃ up tr rest,
    Trace (doProxy exampleConfig lengthRequest) tr rest ∧
    ⟨.readBody, .ok lengthRequest.body⟩ ∈ tr ∧
    ⟨.sendRequest up, .ok ⟨200, [], []⟩⟩ ∈ tr ∧
    up.headers.filter (fun field => field.1 == "content-length") =
      [("content-length", "2"), ("content-length", "2")] ∧
    ¬ Framed lengthRequest.body up := by
  obtain ⟨up, tr, -, htrace, hbody, hsent, -⟩ := @exists_exchange exampleConfig lengthRequest _ rfl
    rfl (by decide) (by decide) ⟨200, [], []⟩ [] (by decide)
  have hne : lengthRequest.body ≠ [] := by decide
  have htwo : up.headers.filter (fun field => field.1 == "content-length") =
      [("content-length", "2"), ("content-length", "2")] := by
    rw [sent_headers htrace hsent hbody, filter_contentLength hne]
    simp only [visibleFields, isDropped, isHopByHop, isWalletFingerprint, toLower_eq]
    decide
  refine ⟨up, tr, _, htrace, hbody, hsent, htwo, fun hframed => ?_⟩
  have hone := hframed.oneLength hne
  rw [htwo] at hone
  cases hone

-- ---------------------------------------------------------------------------
-- Connection
-- ---------------------------------------------------------------------------

/-- Optional white space around the elements of a list. -/
def isOws (c : Char) : Bool := c = ' ' || c = '\t'

/-- The names that the `Connection` fields of a message nominate, in lower case. -/
def connectionTokens (fields : List (String × String)) : List String :=
  (fields.filter fun field => field.1 == "connection").flatMap fun field =>
    (field.2.toList.splitOn ',').map fun token =>
      (String.ofList (Text.trim isOws token)).toLower

/-- A field that is for the connection of a message with these fields. -/
def ConnectionSpecific (fields : List (String × String)) (name : String) : Prop :=
  isHopByHop name = true ∨ name ∈ connectionTokens fields

/-- No field of the forwarded message is for the connection of the message. -/
def NoneCross (fields forwarded : List (String × String)) : Prop :=
  ∀ field ∈ forwarded, ¬ ConnectionSpecific fields field.1

/-- What goes on is visible, or one of the three fields that the proxy writes. -/
theorem mem_forwardedHeaders {body : List UInt8} {field : String × String} :
    field ∈ forwardedHeaders config { req with body := body } ↔
      field ∈ visibleFields req.headers ∨ field = ("host", config.onionEndpoint) ∨
        field = ("user-agent", forwardedUserAgent) ∨
        (body ≠ [] ∧ field = ("content-length", toString body.length)) := by
  rw [forwardedHeaders_eq]
  cases body with
  | nil => simp
  | cons b bs => simp

/-- The fields that the proxy itself adds: the host, its user agent, and the length of a
body. -/
theorem mem_ownNames {body : List UInt8} {name : String} : name ∈ ownNames body ↔
    name = "host" ∨ name = "user-agent" ∨ (body ≠ [] ∧ name = "content-length") := by
  cases body <;> simp [ownNames]

/-- None of these belongs to one hop. -/
theorem isHopByHop_ownNames {body : List UInt8} {name : String} (h : name ∈ ownNames body) :
    isHopByHop name = false := by
  rw [isHopByHop, toLower_eq]
  rcases mem_ownNames.mp h with rfl | rfl | ⟨-, rfl⟩ <;> decide

/-- The proxy's own fields do go on. -/
theorem exists_of_mem_ownNames {body : List UInt8} {name : String} (h : name ∈ ownNames body) :
    ∃ value, (name, value) ∈ forwardedHeaders config { req with body := body } := by
  rcases mem_ownNames.mp h with rfl | rfl | ⟨hne, rfl⟩
  · exact ⟨_, mem_forwardedHeaders.mpr (.inr (.inl rfl))⟩
  · exact ⟨_, mem_forwardedHeaders.mpr (.inr (.inr (.inl rfl)))⟩
  · exact ⟨_, mem_forwardedHeaders.mpr (.inr (.inr (.inr ⟨hne, rfl⟩)))⟩

/-- A field that goes on is the wallet's, or the proxy's own. -/
theorem forwarded_cases {body : List UInt8} {field : String × String}
    (h : field ∈ forwardedHeaders config { req with body := body }) :
    (field ∈ req.headers ∧ isDropped field.1 = false) ∨ field.1 ∈ ownNames body := by
  rcases mem_forwardedHeaders.mp h with hvisible | rfl | rfl | ⟨hne, rfl⟩
  · obtain ⟨hmem, hkept⟩ := List.mem_filter.mp hvisible
    exact .inl ⟨hmem, (Bool.not_eq_true' _).mp hkept⟩
  · exact .inr (mem_ownNames.mpr (.inl rfl))
  · exact .inr (mem_ownNames.mpr (.inr (.inl rfl)))
  · exact .inr (mem_ownNames.mpr (.inr (.inr ⟨hne, rfl⟩)))

/-- No hop-by-hop field gets upstream just if the connection nominates none but those that
are dropped anyway. -/
theorem noneCross_forwarded_iff {body : List UInt8} :
    NoneCross req.headers (forwardedHeaders config { req with body := body }) ↔
      (∀ name ∈ ownNames body, name ∉ connectionTokens req.headers) ∧
      ∀ field ∈ req.headers, field.1 ∈ connectionTokens req.headers →
        isDropped field.1 = true := by
  constructor
  · intro hnone
    refine ⟨fun name hname htoken => ?_, fun field hfield htoken => ?_⟩
    · obtain ⟨value, hvalue⟩ := @exists_of_mem_ownNames config req _ _ hname
      exact hnone _ hvalue (.inr htoken)
    · by_contra hkept
      rw [Bool.not_eq_true] at hkept
      have hvisible : field ∈ visibleFields req.headers :=
        List.mem_filter.mpr ⟨hfield, by rw [hkept]; rfl⟩
      exact hnone _ (mem_forwardedHeaders.mpr (.inl hvisible)) (.inr htoken)
  · rintro ⟨hown, hdropped⟩ field hfield hspecific
    rcases forwarded_cases hfield with ⟨hmem, hkept⟩ | hname
    · rcases hspecific with hhop | htoken
      · rw [isDropped, hhop, Bool.or_true, Bool.true_or] at hkept
        cases hkept
      · cases hkept.symm.trans (hdropped field hmem htoken)
    · rcases hspecific with hhop | htoken
      · cases hhop.symm.trans (isHopByHop_ownNames hname)
      · exact hown _ hname htoken

/-- On the way back, none gets through to the wallet just if the response nominates none but
those that are dropped anyway. -/
theorem noneCross_mirrored_iff {head : Response} {bytes : List UInt8} :
    NoneCross head.headers (mirroredResponse head bytes).headers ↔
      ∀ field ∈ head.headers, field.1 ∈ connectionTokens head.headers →
        isHopByHop field.1 = true ∨ field.1 = "authorization" := by
  constructor
  · intro hnone field hfield htoken
    by_contra hkept
    rw [not_or, Bool.not_eq_true] at hkept
    have hreturned : field ∈ (mirroredResponse head bytes).headers := by
      refine List.mem_filter.mpr ⟨hfield, ?_⟩
      rw [hkept.1, beq_false_of_ne hkept.2]
      rfl
    exact hnone _ hreturned (.inr htoken)
  · intro hdropped field hfield hspecific
    obtain ⟨hmem, hreturned⟩ := List.mem_filter.mp hfield
    rw [Bool.not_eq_true', Bool.or_eq_false_iff] at hreturned
    have hhop : ¬ isHopByHop field.1 = true := Bool.not_eq_true _ ▸ hreturned.1
    rcases hspecific with hspecific | htoken
    · exact hhop hspecific
    · rcases hdropped field hmem htoken with hspecific | hname
      · exact hhop hspecific
      · exact beq_eq_false_iff_ne.mp hreturned.2 hname

/-- **Connection-specific fields.** What goes to the onion service has no field
that is for the wallet's connection if and only if the wallet nominates no name
that the proxy writes itself, and none of its own fields but those that are left
out in any case. What goes back to the wallet has none of the onion service's
connection if and only if the onion service nominates none of its fields but
those that are left out in any case. -/
theorem hop_by_hop_iff {tr : List TunnelEvent} {rest : Tunnel (Except String Response)}
    (h : Trace (doProxy config req) tr rest) :
    (∀ up r body, ⟨.sendRequest up, r⟩ ∈ tr → ⟨.readBody, .ok body⟩ ∈ tr →
      (NoneCross req.headers up.headers ↔
        (∀ name ∈ ownNames body, name ∉ connectionTokens req.headers) ∧
        ∀ field ∈ req.headers, field.1 ∈ connectionTokens req.headers →
          isDropped field.1 = true)) ∧
    (∀ up head bytes, ⟨.sendRequest up, .ok head⟩ ∈ tr →
      ⟨.readResponse, .ok bytes⟩ ∈ tr → bytes.length ≤ maxResponseBytes →
      ∀ response, rest = .pure (.ok response) →
      (NoneCross head.headers response.headers ↔
        ∀ field ∈ head.headers, field.1 ∈ connectionTokens head.headers →
          isHopByHop field.1 = true ∨ field.1 = "authorization")) := by
  refine ⟨fun up r body hsent hbody => ?_, fun up head bytes hresp hend hlen response hrest => ?_⟩
  · rw [sent_headers h hsent hbody]
    exact noneCross_forwarded_iff
  · subst hrest
    have hcourse : Course config req tr (some (.ok response)) := doProxy_course h
    rw [hcourse.returned hresp hend hlen]
    exact noneCross_mirrored_iff

/-- The fields of a connection that is kept open, on either side. -/
def keepAliveFields : List (String × String) :=
  [("connection", "Keep-Alive"), ("keep-alive", "timeout=5")]

/-- A client that keeps its connection open, and says so. -/
def keepAliveRequest : Request :=
  { browserRequest.parts with headers := browserRequest.headers ++ keepAliveFields }

/-- Neither the client's fields cross nor the onion service's. -/
theorem hop_by_hop_keepAlive : ∃ up tr response,
    Trace (doProxy exampleConfig keepAliveRequest) tr (.pure (.ok response)) ∧
    ⟨.sendRequest up, .ok ⟨200, keepAliveFields, []⟩⟩ ∈ tr ∧
    NoneCross keepAliveRequest.headers up.headers ∧
    NoneCross keepAliveFields response.headers := by
  obtain ⟨up, tr, -, htrace, hbody, hsent, hend⟩ := @exists_exchange exampleConfig keepAliveRequest
    _ rfl rfl (by decide) (by decide) ⟨200, keepAliveFields, []⟩ [] (by decide)
  refine ⟨up, tr, _, htrace, hsent, ((hop_by_hop_iff htrace).1 up _ _ hsent hbody).mpr ?_,
    ((hop_by_hop_iff htrace).2 up _ _ hsent hend (by decide) _ rfl).mpr ?_⟩
  · simp only [isDropped, isHopByHop, isWalletFingerprint, connectionTokens, toLower_eq]
    decide
  · simp only [isHopByHop, connectionTokens, toLower_eq]
    decide

/-- A message with a field that its `Connection` field nominates. -/
def sessionFields : List (String × String) :=
  [("connection", "close, X-Session"), ("x-session", "7")]

def sessionRequest : Request := { browserRequest.parts with headers := sessionFields }

/-- A field that `Connection` names, as one of this hop alone, goes on to the daemon and
comes back to the wallet. -/
theorem nominated_field_crosses : ∃ up tr response,
    Trace (doProxy exampleConfig sessionRequest) tr (.pure (.ok response)) ∧
    ⟨.sendRequest up, .ok ⟨200, sessionFields, []⟩⟩ ∈ tr ∧
    ("x-session", "7") ∈ up.headers ∧ ¬ NoneCross sessionRequest.headers up.headers ∧
    ("x-session", "7") ∈ response.headers ∧ ¬ NoneCross sessionFields response.headers := by
  obtain ⟨up, tr, -, htrace, hbody, hsent, -⟩ := @exists_exchange exampleConfig sessionRequest _
    rfl rfl (by decide) (by decide) ⟨200, sessionFields, []⟩ [] (by decide)
  have htoken : "x-session" ∈ connectionTokens sessionFields := by
    simp only [connectionTokens, toLower_eq]
    decide
  have hforwarded : ("x-session", "7") ∈ up.headers := by
    rw [sent_headers htrace hsent hbody, mem_forwardedHeaders]
    left
    simp only [visibleFields, isDropped, isHopByHop, isWalletFingerprint, toLower_eq]
    decide
  have hreturned : ("x-session", "7") ∈
      (mirroredResponse ⟨200, sessionFields, []⟩ []).headers := by
    rw [mirroredResponse, List.mem_filter]
    simp only [isHopByHop, toLower_eq]
    decide
  exact ⟨up, tr, _, htrace, hsent, hforwarded, fun hnone => hnone _ hforwarded (.inr htoken),
    hreturned, fun hnone => hnone _ hreturned (.inr htoken)⟩

end Torpc
