import Torpc.Lib.Bytes
import Torpc.Lib.Prog
import Torpc.Model.ClientProxy

/-!
# A wallet's request through the tunnel

`torpc-proxy-core/src/proxy.rs`: `do_proxy` as a program over what it waits for,
which is the SOCKS connection, hyper's handshake on it, the wallet's body, the
onion service's response and its body; and `proxy_request`, which gives it 45
seconds. A `Response` is what the wallet is sent; on an error hyper closes the
wallet's connection without one.
-/

namespace Torpc

open Bytes Effects Http Prog

/-- The awaits of `do_proxy`. -/
inductive TunnelOp where
  /-- `Socks5Stream::connect` -/
  | connect (torProxy : Net.SocketAddr) (onionEndpoint : String)
  /-- `hyper::client::conn::http1::handshake` -/
  | handshake
  /-- the wallet's body, until it ends or fails -/
  | readBody
  /-- `send_request`; the answer has the head of a response -/
  | sendRequest (upstreamReq : Request)
  /-- the body of the response, until it ends or fails -/
  | readResponse

abbrev TunnelRes : TunnelOp → Type
  | .connect _ _ | .handshake => Except String Unit
  | .readBody | .readResponse => Except String (List UInt8)
  | .sendRequest _ => Except String Response

abbrev Tunnel (α : Type) : Type := Prog TunnelOp TunnelRes α

abbrev TunnelEvent : Type := Event TunnelOp TunnelRes

/-- `Limited::new(..).collect()`: all of a body, unless it fails or is longer than
the limit. -/
def limited (limit : Nat) (body : Except String (List UInt8)) : Option (List UInt8) :=
  match body with
  | .error _ => none
  | .ok bytes => if limit < bytes.length then none else some bytes

def simpleResponse (status : Nat) (msg : String) : Response :=
  ⟨status, [("content-type", "text/plain; charset=utf-8")], utf8 msg⟩

/-- The response that mirrors the upstream's. -/
def mirroredResponse (respParts : Response) (respBytes : List UInt8) : Response :=
  ⟨respParts.status,
    respParts.headers.filter fun field => !(isHopByHop field.1 || field.1 == "authorization"),
    respBytes⟩

/-- The body does not come with `parts`: it is read once the tunnel is open. -/
def doProxy (config : ProxyConfig) (parts : Request) : Tunnel (Except String Response) := do
  let stream : Except String Unit ←
    perform (TunnelOp.connect config.torProxy config.onionEndpoint)
  match stream with
  | .error _ => return .ok (simpleResponse 502 "Failed to connect to onion service via Tor")
  | .ok () =>
    let sender : Except String Unit ← perform TunnelOp.handshake
    match sender with
    | .error _ => return .error "hyper handshake over Tor stream failed"
    | .ok () =>
      let body : Except String (List UInt8) ← perform TunnelOp.readBody
      match limited maxResponseBytes body with
      | none => return .ok (simpleResponse 413 "Request body exceeds proxy limit")
      | some bodyBytes =>
        match upstreamRequest config { parts with body := bodyBytes } with
        | .error (.response status msg) => return .ok (simpleResponse status msg)
        | .error (.error context) => return .error context
        | .ok upstreamReq =>
          let upstreamResp : Except String Response ← perform (TunnelOp.sendRequest upstreamReq)
          match upstreamResp with
          | .error _ => return .error "send_request through Tor failed"
          | .ok respParts =>
            let respBody : Except String (List UInt8) ← perform TunnelOp.readResponse
            match limited maxResponseBytes respBody with
            | none => return .ok (simpleResponse 502 "Onion response exceeded maximum size")
            | some respBytes => return .ok (mirroredResponse respParts respBytes)

/-- `proxy_request`: `do_proxy` comes to its end, or is dropped where it waits. -/
inductive ProxyRequest (config : ProxyConfig) (parts : Request) :
    List TunnelEvent → Except String Response → Prop where
  | finished {tr : List TunnelEvent} {result : Except String Response} :
      Trace (doProxy config parts) tr (.pure result) → ProxyRequest config parts tr result
  | timedOut {tr : List TunnelEvent} {o : TunnelOp}
      {k : TunnelRes o → Tunnel (Except String Response)} :
      Trace (doProxy config parts) tr (.op o k) →
      ProxyRequest config parts tr
        (.ok (simpleResponse 504 "Upstream onion request timed out"))

-- ---------------------------------------------------------------------------
-- The courses of an exchange
-- ---------------------------------------------------------------------------

variable {config : ProxyConfig} {parts : Request}

/-- A limited body is all of it or nothing: it has come, and is within the limit. -/
theorem limited_eq_some {limit : Nat} {body : Except String (List UInt8)} {bytes : List UInt8} :
    limited limit body = some bytes ↔ body = .ok bytes ∧ bytes.length ≤ limit := by
  unfold limited
  cases body with
  | error e => simp
  | ok read =>
    simp only [Option.ite_none_left_eq_some, Nat.not_lt, Option.some.injEq, Except.ok.injEq]
    exact ⟨fun ⟨hlen, heq⟩ => ⟨heq, heq ▸ hlen⟩, fun ⟨heq, hlen⟩ => ⟨heq ▸ hlen, heq⟩⟩

/-- A body that could be read whole is not too large again. -/
theorem upstreamRequest_not_response {bytes : List UInt8} (h : bytes.length ≤ maxResponseBytes)
    (status : Nat) (msg : String) :
    upstreamRequest config { parts with body := bytes } ≠ .error (.response status msg) := by
  intro herror
  unfold upstreamRequest at herror
  simp only [Nat.not_lt.mpr h, if_false] at herror
  split at herror
  · cases herror
  · split at herror <;> cases herror

/-- The tunnel is open. -/
def opened (config : ProxyConfig) : List TunnelEvent :=
  [⟨.connect config.torProxy config.onionEndpoint, .ok ()⟩, ⟨.handshake, .ok ()⟩]

/-- How far an exchange can have got, and what has come of it. -/
inductive Course (config : ProxyConfig) (parts : Request) :
    List TunnelEvent → Option (Except String Response) → Prop where
  | connecting : Course config parts [] none
  | unreachable (e : String) :
      Course config parts [⟨.connect config.torProxy config.onionEndpoint, .error e⟩]
        (some (.ok (simpleResponse 502 "Failed to connect to onion service via Tor")))
  | shakingHands :
      Course config parts [⟨.connect config.torProxy config.onionEndpoint, .ok ()⟩] none
  | noHandshake (e : String) :
      Course config parts
        [⟨.connect config.torProxy config.onionEndpoint, .ok ()⟩, ⟨.handshake, .error e⟩]
        (some (.error "hyper handshake over Tor stream failed"))
  | reading : Course config parts (opened config) none
  | bodyRefused {body : Except String (List UInt8)} (hbody : limited maxResponseBytes body = none) :
      Course config parts (opened config ++ [⟨.readBody, body⟩])
        (some (.ok (simpleResponse 413 "Request body exceeds proxy limit")))
  | unbuilt {bytes : List UInt8} {context : String} (hlen : bytes.length ≤ maxResponseBytes)
      (hbuild : upstreamRequest config { parts with body := bytes } = .error (.error context)) :
      Course config parts (opened config ++ [⟨.readBody, .ok bytes⟩]) (some (.error context))
  | sending {bytes : List UInt8} {up : Request} (hlen : bytes.length ≤ maxResponseBytes)
      (hbuild : upstreamRequest config { parts with body := bytes } = .ok up) :
      Course config parts (opened config ++ [⟨.readBody, .ok bytes⟩]) none
  | unanswered {bytes : List UInt8} {up : Request} (hlen : bytes.length ≤ maxResponseBytes)
      (hbuild : upstreamRequest config { parts with body := bytes } = .ok up) (e : String) :
      Course config parts
        (opened config ++ [⟨.readBody, .ok bytes⟩, ⟨.sendRequest up, .error e⟩])
        (some (.error "send_request through Tor failed"))
  | answered {bytes : List UInt8} {up : Request} (hlen : bytes.length ≤ maxResponseBytes)
      (hbuild : upstreamRequest config { parts with body := bytes } = .ok up) (head : Response) :
      Course config parts
        (opened config ++ [⟨.readBody, .ok bytes⟩, ⟨.sendRequest up, .ok head⟩]) none
  | responseRefused {bytes : List UInt8} {up : Request} (hlen : bytes.length ≤ maxResponseBytes)
      (hbuild : upstreamRequest config { parts with body := bytes } = .ok up)
      (head : Response) {body : Except String (List UInt8)}
      (hbody : limited maxResponseBytes body = none) :
      Course config parts (opened config ++
          [⟨.readBody, .ok bytes⟩, ⟨.sendRequest up, .ok head⟩, ⟨.readResponse, body⟩])
        (some (.ok (simpleResponse 502 "Onion response exceeded maximum size")))
  | mirrored {bytes : List UInt8} {up : Request} (hlen : bytes.length ≤ maxResponseBytes)
      (hbuild : upstreamRequest config { parts with body := bytes } = .ok up)
      (head : Response) {respBytes : List UInt8}
      (hrespLen : respBytes.length ≤ maxResponseBytes) :
      Course config parts (opened config ++
          [⟨.readBody, .ok bytes⟩, ⟨.sendRequest up, .ok head⟩, ⟨.readResponse, .ok respBytes⟩])
        (some (.ok (mirroredResponse head respBytes)))

/-- Every trace is one of these courses. -/
theorem doProxy_course {tr : List TunnelEvent} {rest : Tunnel (Except String Response)}
    (h : Trace (doProxy config parts) tr rest) : Course config parts tr rest.returned := by
  unfold doProxy at h
  simp only [perform_bind] at h
  cases h with
  | nil => exact .connecting
  | @cons _ _ stream _ _ h =>
  cases stream with
  | error e =>
    obtain ⟨rfl, rfl⟩ := trace_pure h
    exact .unreachable e
  | ok _ =>
  cases h with
  | nil => exact .shakingHands
  | @cons _ _ sender _ _ h =>
  cases sender with
  | error e =>
    obtain ⟨rfl, rfl⟩ := trace_pure h
    exact .noHandshake e
  | ok _ =>
  cases h with
  | nil => exact .reading
  | @cons _ _ body _ _ h =>
  cases hbody : limited maxResponseBytes body with
  | none =>
    simp only [hbody] at h
    obtain ⟨rfl, rfl⟩ := trace_pure h
    exact .bodyRefused hbody
  | some bytes =>
  obtain ⟨rfl, hlen⟩ := limited_eq_some.mp hbody
  simp only [hbody] at h
  cases hbuild : upstreamRequest config { parts with body := bytes } with
  | error unsent =>
    simp only [hbuild] at h
    cases unsent with
    | response status msg => exact absurd hbuild (upstreamRequest_not_response hlen status msg)
    | error context =>
      obtain ⟨rfl, rfl⟩ := trace_pure h
      exact .unbuilt hlen hbuild
  | ok up =>
  simp only [hbuild] at h
  cases h with
  | nil => exact .sending hlen hbuild
  | @cons _ _ upstreamResp _ _ h =>
  cases upstreamResp with
  | error e =>
    obtain ⟨rfl, rfl⟩ := trace_pure h
    exact .unanswered hlen hbuild e
  | ok head =>
  cases h with
  | nil => exact .answered hlen hbuild head
  | @cons _ _ respBody _ _ h =>
  cases hresp : limited maxResponseBytes respBody with
  | none =>
    simp only [hresp] at h
    obtain ⟨rfl, rfl⟩ := trace_pure h
    exact .responseRefused hlen hbuild head hresp
  | some respBytes =>
    obtain ⟨rfl, hrespLen⟩ := limited_eq_some.mp hresp
    simp only [hresp] at h
    obtain ⟨rfl, rfl⟩ := trace_pure h
    exact .mirrored hlen hbuild head hrespLen

/-- Every course that has come to an end can happen. -/
theorem Course.trace {tr : List TunnelEvent} {result : Except String Response}
    (h : Course config parts tr (some result)) :
    Trace (doProxy config parts) tr (.pure result) := by
  unfold doProxy
  simp only [perform_bind]
  cases h with
  | unreachable e => exact .cons (.nil _)
  | noHandshake e => exact .cons (.cons (.nil _))
  | bodyRefused hbody =>
    refine .cons (.cons (.cons ?_))
    simp only [hbody]
    exact .nil _
  | unbuilt hlen hbuild =>
    refine .cons (.cons (.cons ?_))
    simp only [limited_eq_some.mpr ⟨rfl, hlen⟩, hbuild]
    exact .nil _
  | unanswered hlen hbuild e =>
    refine .cons (.cons (.cons ?_))
    simp only [limited_eq_some.mpr ⟨rfl, hlen⟩, hbuild]
    exact .cons (.nil _)
  | responseRefused hlen hbuild head hbody =>
    refine .cons (.cons (.cons ?_))
    simp only [limited_eq_some.mpr ⟨rfl, hlen⟩, hbuild]
    refine .cons (.cons ?_)
    simp only [hbody]
    exact .nil _
  | mirrored hlen hbuild head hrespLen =>
    refine .cons (.cons (.cons ?_))
    simp only [limited_eq_some.mpr ⟨rfl, hlen⟩, hbuild]
    refine .cons (.cons ?_)
    simp only [limited_eq_some.mpr ⟨rfl, hrespLen⟩]
    exact .nil _

/-- An exchange in which everything goes well: the onion service answers with this
head, and its body can be read whole. -/
theorem exists_exchange {parts : Request} {pq : PathAndQuery} (htarget : parts.target = some pq)
    (hpath : pq.path.head? = some '/') (hlen : parts.body.length ≤ maxResponseBytes)
    (hhost : isHeaderValue config.onionEndpoint = true) (head : Response)
    {respBytes : List UInt8} (hrespLen : respBytes.length ≤ maxResponseBytes) :
    ∃ up tr, upstreamRequest config parts = .ok up ∧
      Trace (doProxy config parts) tr (.pure (.ok (mirroredResponse head respBytes))) ∧
      ⟨.readBody, .ok parts.body⟩ ∈ tr ∧ ⟨.sendRequest up, .ok head⟩ ∈ tr ∧
      ⟨.readResponse, .ok respBytes⟩ ∈ tr := by
  obtain ⟨up, hup⟩ : ∃ up, upstreamRequest config parts = .ok up :=
    upstreamRequest_sent htarget hpath hlen hhost
  have hcourse : Course config parts _ _ := .mirrored hlen hup head hrespLen
  exact ⟨up, _, hup, hcourse.trace, by simp, by simp, by simp⟩

/-- What has been sent was made of the body that has been read. -/
theorem Course.sent {tr : List TunnelEvent} {result : Option (Except String Response)}
    (h : Course config parts tr result) {up : Request} {r : Except String Response}
    (hsent : ⟨.sendRequest up, r⟩ ∈ tr) {body : List UInt8}
    (hbody : ⟨.readBody, .ok body⟩ ∈ tr) :
    upstreamRequest config { parts with body := body } = .ok up := by
  cases h <;> simp [opened] at hsent hbody
  case unanswered bytes up hlen hbuild e =>
    rw [hsent.1, hbody]
    exact hbuild
  case answered bytes up hlen hbuild head =>
    rw [hsent.1, hbody]
    exact hbuild
  case responseRefused bytes up hlen hbuild head body hbody =>
    rw [hsent.1, hbody]
    exact hbuild
  case mirrored bytes up hlen hbuild head respBytes hrespLen =>
    rw [hsent.1, hbody]
    exact hbuild

/-- What comes back is made of the response, if its body could be read whole. -/
theorem Course.returned {tr : List TunnelEvent} {response : Response}
    (h : Course config parts tr (some (.ok response))) {up : Request} {head : Response}
    (hresp : ⟨.sendRequest up, .ok head⟩ ∈ tr) {bytes : List UInt8}
    (hend : ⟨.readResponse, .ok bytes⟩ ∈ tr) (hlen : bytes.length ≤ maxResponseBytes) :
    response = mirroredResponse head bytes := by
  cases h <;> simp [opened] at hresp hend
  case responseRefused bytes' up' hlen' hbuild head' body hbody =>
    rw [← hend] at hbody
    cases hbody.symm.trans (limited_eq_some.mpr ⟨rfl, hlen⟩)
  case mirrored bytes' up' hlen' hbuild head' respBytes hrespLen =>
    rw [hresp.2, hend]

end Torpc
