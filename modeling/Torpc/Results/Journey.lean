import Torpc.Model.Wire
import Torpc.Results.Dispatch
import Torpc.Results.Provenance
import Torpc.Results.Unlinkable

/-!
# A wallet's request, from the wallet to Geth and back

Both ends together: many wallets, each behind a proxy of its own, and the daemon,
interleaved in any way, with requests and responses that get lost. What a wallet
is answered is a status of its own proxy, or the daemon's answer to this wallet's
request and to nobody else's (`wallet_answer`): wallets cannot get each other's
answers, and what they are told has its origin in what the daemon did for them.

The URL that the wallet-side proxy suggests ends in none of this: a request to it
comes to a limiter and a refusal, never to Geth (`suggested_url_refused`).
-/

namespace Torpc

open Bytes Effects Http Lts Prog

variable {d : Daemon} {front : Front} {t : Nat} {ls : List (wallets d front).Label}
  {w : (wallets d front).Config} {k : Nat} {x : WalletExchange}

-- ---------------------------------------------------------------------------
-- What the daemon reads
-- ---------------------------------------------------------------------------

/-- The router gets what the wallet wrote. -/
structure ReadsWallet (front : Front) (request : Request) (v : PublicRequest) : Prop where
  method : v.method = request.method
  path : v.path = (request.target.map PathAndQuery.pathStr).getD "/"
  body : v.body = front.jsonBody request

/-- Fields of other names are not in the way. -/
theorem lookup_filter {keep : String × String → Bool} {name : String}
    (h : ∀ value, keep (name, value) = true) (fields : List (String × String)) :
    (fields.filter keep).lookup name = fields.lookup name := by
  induction fields with
  | nil => rfl
  | cons field fields ih =>
    obtain ⟨n, value⟩ := field
    by_cases hname : name = n
    · subst hname
      rw [List.filter_cons_of_pos (h value), List.lookup_cons_self, List.lookup_cons_self]
    · have hne : (name == n) = false := beq_false_of_ne hname
      cases hkeep : keep (n, value) with
      | true =>
        rw [List.filter_cons_of_pos hkeep, List.lookup_cons, hne, List.lookup_cons, hne]
        exact ih
      | false =>
        rw [List.filter_cons_of_neg (by simp [hkeep]), List.lookup_cons, hne]
        exact ih

/-- The proxy keeps the content type of what it forwards, so the daemon decodes the body as
the wallet meant it. -/
theorem lookup_forwardedHeaders (config : ProxyConfig) (req : Request) :
    (forwardedHeaders config req).lookup "content-type" = req.headers.lookup "content-type" := by
  have hlower : "content-type".toLower = "content-type" := by
    rw [toLower_eq]
    decide
  have hkept : (req.headers.filter fun field =>
      !(field.1 == "host" || isHopByHop field.1 || isWalletFingerprint field.1)).lookup
        "content-type" = req.headers.lookup "content-type" := by
    refine lookup_filter (fun value => ?_) req.headers
    dsimp only
    rw [isHopByHop, isWalletFingerprint, hlower]
    decide
  have hadded : ∀ set : List (String × String),
      (set ++ [("host", config.onionEndpoint), ("user-agent", forwardedUserAgent)]).lookup
        "content-type" = set.lookup "content-type" := by
    intro set
    rw [List.lookup_append]
    exact Option.or_none
  unfold forwardedHeaders
  dsimp only
  split
  · rw [hadded]
    exact hkept
  · rw [List.lookup_append, hadded]
    exact Option.or_none.trans hkept

/-- The daemon reads from the body that is sent on what it would read from the wallet's own.
-/
theorem jsonBody_upstream {config : ProxyConfig} {req up : Request}
    (h : upstreamRequest config req = .ok up) : front.jsonBody up = front.jsonBody req := by
  obtain ⟨target, -, -, -, rfl⟩ := upstreamRequest_eq_ok.mp h
  unfold Front.jsonBody
  rw [lookup_forwardedHeaders]

/-- What the daemon reads of what the proxy sends on is what the wallet wrote. -/
theorem reads_wallet {config : ProxyConfig} {req up : Request}
    (h : upstreamRequest config req = .ok up) {v : PublicRequest} (hv : front.Reads up v) :
    ReadsWallet front req v := by
  refine ⟨?_, ?_, ?_⟩
  · rw [hv.method, (upstreamRequest_ok h).1]
  · obtain ⟨target, htarget, -, -, rfl⟩ := upstreamRequest_eq_ok.mp h
    rw [hv.path, Request.path]
    cases hreq : req.target with
    | none =>
      rw [hreq] at htarget
      cases htarget
      rfl
    | some pq =>
      rw [hreq] at htarget
      exact PathAndQuery.parse_asStr htarget
  · rw [hv.body, jsonBody_upstream h]

/-- The request that is sent has been made of the body that has been read. -/
theorem Course.readBody {config : ProxyConfig} {parts : Request} {tr : List TunnelEvent}
    {result : Option (Except String Response)} (h : Course config parts tr result) {up : Request}
    {r : Except String Response} (hsent : ⟨.sendRequest up, r⟩ ∈ tr) :
    ∃ bytes, ⟨.readBody, .ok bytes⟩ ∈ tr := by
  cases h <;> simp [opened] at hsent ⊢

/-- A wallet's request at the daemon is the wallet's own. -/
theorem asked_reads (h : WalletRun d front t ls w) {i : Nat} {v : PublicRequest}
    (hasked : .asked k i v ∈ ls) : ∃ y, .came k y ∈ ls ∧ ReadsWallet front y.request v := by
  obtain ⟨y, tr, o, c, hcame, hv, htrace, hanswers⟩ := Clients.asked_course h hasked
  refine ⟨y, hcame, ?_⟩
  cases o with
  | sendRequest up =>
    have hcourse := doProxy_course (htrace.snoc (.error "" : Except String Response))
    have hsent : (⟨.sendRequest up, .error ""⟩ : TunnelEvent) ∈
        tr ++ [⟨.sendRequest up, .error ""⟩] :=
      List.mem_append_right _ (List.mem_singleton_self _)
    obtain ⟨bytes, hbytes⟩ := hcourse.readBody hsent
    have hbody : bytes = y.request.body := by
      rcases List.mem_append.mp hbytes with hmem | hmem
      · cases hanswers _ hmem
        rfl
      · cases List.mem_singleton.mp hmem
    subst hbody
    exact reads_wallet (hcourse.sent hsent hbytes) hv
  | _ => exact hv.elim

-- ---------------------------------------------------------------------------
-- What the daemon has answered
-- ---------------------------------------------------------------------------

/-- How the daemon has come to an answer to its request `i`. -/
inductive Judged (d : Daemon) (files : StaticFiles) (ls : List (d.publicSystem files).Label)
    (i : Nat) (v : PublicRequest) : HttpResponse → Prop where
  /-- the time was up -/
  | timedOut (h : .cancel i ∈ ls) : Judged d files ls i v Daemon.timeoutResponse
  /-- no JSON-RPC answer -/
  | bare {answer : HttpResponse} (h : .done i answer ∈ ls) (hbody : answer.body = none) :
      Judged d files ls i v answer
  /-- an answer of Geth or the relay to the request -/
  | origin {a : Arrival} {body : JsonRpcResponse} (h : .done i ⟨200, some body⟩ ∈ ls)
      (ha : v.arrival = some a) (horigin : Origin d a.request (System.eventsOf i ls) body) :
      Judged d files ls i v ⟨200, some body⟩
  | refused {a : Arrival} {answer : HttpResponse} {body : JsonRpcResponse}
      (h : .done i answer ∈ ls) (ha : v.arrival = some a) (hbody : answer.body = some body)
      (hrefusal : Refusal answer body) : Judged d files ls i v answer

/-- What a handler has said to a request is judged by the request and by what has happened
to it. -/
theorem judged_of_said {files : StaticFiles} {ls : List (d.publicSystem files).Label}
    {c : (d.publicSystem files).Config} (h : d.PublicRun files t ls c) {i : Nat}
    {v : PublicRequest} (hspawn : .spawn i v ∈ ls) {answer : HttpResponse}
    (hsaid : .done i answer ∈ ls ∨ .cancel i ∈ ls ∧ answer = Daemon.timeoutResponse) :
    Judged d files ls i v answer := by
  rcases hsaid with hdone | ⟨hcancel, rfl⟩
  · cases hbody : answer.body with
    | none => exact .bare hdone hbody
    | some body =>
      obtain ⟨a, ha, ⟨hstatus, horigin⟩ | hrefusal⟩ := origin_of_done h hspawn hdone hbody
      · obtain ⟨status, answered⟩ := answer
        cases hstatus
        cases hbody
        exact .origin hdone ha horigin
      · exact .refused hdone ha hbody hrefusal
  · exact .timedOut hcancel

/-- The daemon's answer, as the wallet gets it. -/
structure Conveys (front : Front) (answer : HttpResponse) (response : Response) : Prop where
  status : response.status = answer.status
  body : ∀ body, answer.body = some body → response.body = front.codec.write body.toValue

/-- The statuses of the wallet-side proxy. -/
def ownStatuses : List Nat := [413, 502, 504]

/-- What comes back to the wallet has come through the tunnel, or is the proxy's own. -/
theorem left_cases {tr : List TunnelEvent} {said : Option HttpResponse} {response : Response}
    (h : Clients.Left (wallets d front) ls k x tr said (.ok response)) :
    (∃ status ∈ ownStatuses, ∃ msg, response = simpleResponse status msg) ∨
      response.status ∈ unreadableStatuses ∨
      ∃ answer, said = some answer ∧ Conveys front answer response := by
  rcases h.trace with htrace | ⟨hgiven, -⟩
  · have hcourse := doProxy_course htrace
    generalize hresult : (Prog.pure (Except.ok response) : Tunnel _).returned = result at hcourse
    cases hcourse with
    | unreachable e =>
      cases hresult
      exact .inl ⟨502, by simp [ownStatuses], _, rfl⟩
    | bodyRefused hbody =>
      cases hresult
      exact .inl ⟨413, by simp [ownStatuses], _, rfl⟩
    | responseRefused hlen hbuild head hbody =>
      cases hresult
      exact .inl ⟨502, by simp [ownStatuses], _, rfl⟩
    | @mirrored bytes up hlen hbuild head respBytes hrespLen =>
      cases hresult
      refine .inr ?_
      have hanswered := h.answered (opened x.config ++ [⟨.readBody, .ok bytes⟩])
        ⟨.sendRequest up, .ok head⟩ [⟨.readResponse, .ok respBytes⟩] (by simp)
      rcases hanswered with hhead | hboth
      · cases hhead with
        | unreadable _ _ hstatus => exact .inl hstatus
      · cases hboth _ List.mem_cons_self with
        | unreadable _ _ hstatus => exact .inl hstatus
        | head answer _ _ hstatus =>
          refine .inr ⟨answer, rfl, hstatus, ?_⟩
          cases hboth _ (List.mem_cons_of_mem _ (List.mem_singleton_self _)) with
          | whole _ _ hbody => exact hbody
    | _ => cases hresult
  · cases hgiven
    exact .inl ⟨504, by simp [ownStatuses], _, rfl⟩

/-- What a wallet is answered otherwise is what the daemon has said to a request that
reads as the wallet wrote it. -/
theorem judged_of_left (h : WalletRun d front t ls w) (hcame : .came k x ∈ ls)
    {response : Response} (hleft : .left k (.ok response) ∈ ls) :
    (∃ status ∈ ownStatuses, ∃ msg, response = simpleResponse status msg) ∨
      response.status ∈ unreadableStatuses ∨
      ∃ i v answer, .asked k i v ∈ ls ∧ ReadsWallet front x.request v ∧
        Conveys front answer response ∧
        Judged d front.files (Clients.serverLabels ls) i v answer := by
  obtain ⟨y, tr, said, hcourse⟩ := Clients.left_course h hleft
  obtain rfl : y = x := Clients.came_unique h hcourse.came hcame
  rcases left_cases hcourse with hown | hunreadable | ⟨answer, hsaid, hconveys⟩
  · exact .inl hown
  · exact .inr (.inl hunreadable)
  · refine .inr (.inr ?_)
    obtain ⟨i, v, hasked, hsaid⟩ := hcourse.heard answer hsaid
    obtain ⟨z, hz, hreads⟩ := asked_reads h hasked
    obtain rfl : z = y := Clients.came_unique h hz hcame
    exact ⟨i, v, answer, hasked, hreads, hconveys,
      judged_of_said h.daemon (Clients.mem_serverLabels_asked hasked) hsaid⟩

/-- **A wallet's answer.** It is a status of the wallet's own proxy, or of the HTTP
server in front of the daemon, or the daemon's answer to a request that is this
wallet's and no other's. -/
theorem wallet_answer (h : WalletRun d front t ls w) (hcame : .came k x ∈ ls)
    {response : Response} (hleft : .left k (.ok response) ∈ ls) :
    (∃ status ∈ ownStatuses, ∃ msg, response = simpleResponse status msg) ∨
      response.status ∈ unreadableStatuses ∨
      ∃ i v answer, .asked k i v ∈ ls ∧
        (∀ k' i' v', .asked k' i' v' ∈ ls → (k' = k ↔ i' = i)) ∧ ReadsWallet front x.request v ∧
        Conveys front answer response ∧
        Judged d front.files (Clients.serverLabels ls) i v answer := by
  rcases judged_of_left h hcame hleft with hown | hunreadable |
    ⟨i, v, answer, hasked, hreads, hconveys, hjudged⟩
  · exact .inl hown
  · exact .inr (.inl hunreadable)
  · refine .inr (.inr ⟨i, v, answer, hasked, fun k' i' v' hasked' => ?_, hreads, hconveys, hjudged⟩)
    constructor
    · rintro rfl
      exact Clients.asked_once h hasked' hasked
    · rintro rfl
      exact (Clients.asked_unique h hasked' hasked).1

-- ---------------------------------------------------------------------------
-- The URL that the wallet is told
-- ---------------------------------------------------------------------------

/-- What a request can come to that is at no JSON-RPC path. -/
theorem ops_respond_root {files : StaticFiles} {v : PublicRequest} (hmethod : v.method = .post)
    (hpath : v.path = "/") {tr : List OpEvent} {answer : HttpResponse}
    (h : Trace (d.respond files v) tr (.pure answer)) : answer.status ∈ [405, 429] := by
  unfold Daemon.respond at h
  rw [hmethod, hpath, dispatch_root_post] at h
  cases h with
  | @cons _ _ passed _ _ h =>
  cases passed with
  | true =>
    cases (trace_pure h).2
    simp
  | false =>
    cases (trace_pure h).2
    simp

/-- **The suggested URL.** Of a wallet that posts to it, Geth is never asked: the
daemon charges its limiter and nothing else. And no answer is a success. -/
theorem suggested_url_refused (h : WalletRun d front t ls w) (hcame : .came k x ∈ ls)
    (hpost : x.request.method = .post)
    (hurl : x.request.path = urlPath (suggestedRpcUrl x.config)) :
    (∀ i v, .asked k i v ∈ ls → ∀ e ∈ System.eventsOf i (Clients.serverLabels ls),
      e.op = .checkConnLimit (getRequestIdentifier v.peer)) ∧
      ∀ response, .left k (.ok response) ∈ ls →
        response.status ∈ [405, 429] ++ ownStatuses ++ unreadableStatuses := by
  have htarget : (x.request.target.map PathAndQuery.pathStr).getD "/" = "/" := by
    rw [urlPath_suggestedRpcUrl, Request.path] at hurl
    cases htarget : x.request.target with
    | none => rfl
    | some pq =>
      rw [htarget] at hurl
      exact hurl
  have hroot : ∀ v, ReadsWallet front x.request v → v.method = .post ∧ v.path = "/" :=
    fun v hv => ⟨hv.method.trans hpost, hv.path.trans htarget⟩
  have hother : ∀ v, ReadsWallet front x.request v → v.arrival = none := by
    intro v hv
    unfold PublicRequest.arrival
    rw [(hroot v hv).1, (hroot v hv).2, dispatch_root_post]
  constructor
  · intro i v hasked e he
    obtain ⟨y, hy, hreads⟩ := asked_reads h hasked
    obtain rfl : y = x := Clients.came_unique h hy hcame
    have hspawn := Clients.mem_serverLabels_asked hasked
    obtain ⟨v', q, hspawn', htrace, -⟩ :=
      (System.run_known h.daemon i).born (System.run_spawn_lt h.daemon hspawn)
    obtain rfl : v' = v := System.run_spawn_unique h.daemon hspawn' hspawn
    exact (d.ops_respond_other (hother v' hreads) front.files).events htrace e he
  · intro response hleft
    simp only [List.mem_append]
    rcases judged_of_left h hcame hleft with ⟨status, hstatus, msg, rfl⟩ | hunreadable |
      ⟨i, v, answer, hasked, hreads, hconveys, hjudged⟩
    · exact .inl (.inr hstatus)
    · exact .inr hunreadable
    · rw [hconveys.status]
      have hspawn := Clients.mem_serverLabels_asked hasked
      cases hjudged with
      | timedOut => exact .inl (.inr (by simp [Daemon.timeoutResponse, ownStatuses]))
      | bare hdone =>
        exact .inl (.inl (ops_respond_root (hroot v hreads).1 (hroot v hreads).2
          (System.done_trace h.daemon hspawn hdone)))
      | origin _ ha => cases (hother v hreads).symm.trans ha
      | refused _ ha => cases (hother v hreads).symm.trans ha

-- ---------------------------------------------------------------------------
-- A wallet that is alone with the daemon
-- ---------------------------------------------------------------------------

/-- An exchange before and after its request. -/
theorem exchange_halves {up : Request} (hup : upstreamRequest x.config x.request = .ok up)
    (head : Response) {bytes : List UInt8} (hlen : bytes.length ≤ maxResponseBytes) :
    ∃ sent : Tunnel (Except String Response),
      Trace (doProxy x.config x.request) (opened x.config ++ [⟨.readBody, .ok x.request.body⟩])
        sent ∧ (∃ c, sent = .op (.sendRequest up) c) ∧
      Trace sent [⟨.sendRequest up, .ok head⟩, ⟨.readResponse, .ok bytes⟩]
        (.pure (.ok (mirroredResponse head bytes))) := by
  obtain ⟨target, -, hbody, -, -⟩ := upstreamRequest_eq_ok.mp hup
  have hread : limited maxResponseBytes (.ok x.request.body) = some x.request.body :=
    limited_eq_some.mpr ⟨rfl, hbody⟩
  unfold doProxy
  simp only [perform_bind]
  refine ⟨_, .cons (.cons (.cons (.nil _))), ?_⟩
  simp only [hread, hup]
  refine ⟨⟨_, rfl⟩, .cons (.cons ?_)⟩
  simp only [limited_eq_some.mpr ⟨rfl, hlen⟩]
  exact .nil _

/-- Its request is served, and nothing gets lost. -/
theorem exists_walletRun {up : Request} (hup : upstreamRequest x.config x.request = .ok up)
    {v : PublicRequest} (hv : front.Reads up v) (hat : v.arrived = t) {tr : List OpEvent}
    {answer : HttpResponse} {s' : Shared}
    (hserved : Performs exec (d.respond front.files v) (d.initial t) tr (.pure answer) s')
    (head : Response) (hhead : head.status = answer.status) (bytes : List UInt8)
    (hbytes : ∀ body, answer.body = some body → bytes = front.codec.write body.toValue)
    (hlen : bytes.length ≤ maxResponseBytes) :
    ∃ ls w, WalletRun d front t ls w ∧ .came 0 x ∈ ls ∧ .asked 0 0 v ∈ ls ∧
      .left 0 (.ok (mirroredResponse head bytes)) ∈ ls ∧
      Clients.serverLabels ls = .spawn 0 v :: tr.map (.act 0) ++ [.done 0 answer] := by
  obtain ⟨_, hbefore, ⟨c, rfl⟩, hafter⟩ := exchange_halves hup head hlen
  refine Clients.exists_left hbefore ?_ hv hat hserved hafter ?_
  · intro e he
    simp only [opened, List.cons_append, List.nil_append, List.mem_cons, List.not_mem_nil,
      or_false] at he
    rcases he with rfl | rfl | rfl
    · exact .connect ..
    · exact .handshake ..
    · exact .body _
  · intro e he
    simp only [List.mem_cons, List.not_mem_nil, or_false] at he
    rcases he with rfl | rfl
    · exact .head _ _ _ hhead
    · exact .whole _ _ hbytes

-- ---------------------------------------------------------------------------
-- Asking for the chain
-- ---------------------------------------------------------------------------

/-- `serde_json` and `mime`, on the texts of one exchange. -/
def chainIdCodec : BodyCodec where
  isJson contentType := contentType == "application/json"
  read bytes :=
    if bytes = chainIdPost.body then
      some (.object [("jsonrpc", .string "2.0"), ("method", .string "eth_chainId"),
        ("id", .nat 1)])
    else none
  rejection _ := 400
  write _ := utf8 "\x7b\"jsonrpc\":\"2.0\",\"result\":\"0x1\",\"id\":null\x7d"

def chainIdFront : Front := ⟨fun _ _ => 404, chainIdCodec, 1024 * 1024⟩

/-- The wallet has added the path of the daemon's JSON-RPC route to its URL. -/
def rpcExchange : WalletExchange :=
  ⟨exampleConfig, { chainIdPost.toRequest with target := browserRequest.uri.target }⟩

/-- The body asks for the chain's id, with whatever target it comes. -/
theorem jsonBody_chainId {req : Request} (hheaders : req.headers = chainIdPost.headers)
    (hbody : req.body = chainIdPost.body) :
    chainIdFront.jsonBody req = .ok ⟨"2.0", "eth_chainId", none, some (.nat 1)⟩ := by
  unfold Front.jsonBody
  rw [hheaders, hbody]
  rfl

/-- A wallet that asks for the chain's id on `/rpc`, and loses nothing on the way, gets the
answer of Geth. -/
theorem wallet_answer_chainId : ∃ ls w response,
    WalletRun plainDaemon chainIdFront 0 ls w ∧ .left 0 (.ok response) ∈ ls ∧
      response.status = 200 ∧
      ((∃ status ∈ ownStatuses, ∃ msg, response = simpleResponse status msg) ∨
        response.status ∈ unreadableStatuses ∨
        ∃ i v answer, .asked 0 i v ∈ ls ∧
          (∀ k' i' v', .asked k' i' v' ∈ ls → (k' = 0 ↔ i' = i)) ∧
          ReadsWallet chainIdFront rpcExchange.request v ∧ Conveys chainIdFront answer response ∧
          Judged plainDaemon chainIdFront.files (Clients.serverLabels ls) i v answer) := by
  obtain ⟨up, hup⟩ : ∃ up, upstreamRequest rpcExchange.config rpcExchange.request = .ok up :=
    upstreamRequest_sent rfl rfl (by decide) (by decide)
  obtain ⟨hmethod, hpath⟩ := upstreamRequest_ok hup
  have hreads : chainIdFront.Reads up chainIdQuery := by
    refine ⟨hmethod.symm, ?_, ?_⟩
    · rw [hpath (by simp [rpcExchange, browserRequest, Uri.target])]
      decide
    · rw [jsonBody_upstream hup]
      exact (jsonBody_chainId rfl rfl).symm
  obtain ⟨ls, w, hrun, hcame, -, hleft, -⟩ := exists_walletRun hup hreads rfl
    (performs_chainIdExchange chainIdFront.files) ⟨200, [], []⟩ rfl _ (fun _ _ => rfl)
    (by decide)
  exact ⟨ls, w, _, hrun, hleft, rfl, wallet_answer hrun hcame hleft⟩

/-- The same wallet at the URL it has been told. -/
def suggestedExchange : WalletExchange := ⟨exampleConfig, chainIdPost.toRequest⟩

theorem suggested_url_refused_chainId : ∃ ls w i v response,
    WalletRun plainDaemon chainIdFront 0 ls w ∧ .asked 0 i v ∈ ls ∧
      .left 0 (.ok response) ∈ ls ∧ response.status = 405 ∧
      ∀ e ∈ System.eventsOf i (Clients.serverLabels ls),
        e.op = .checkConnLimit (getRequestIdentifier v.peer) := by
  obtain ⟨up, hup⟩ : ∃ up,
      upstreamRequest suggestedExchange.config suggestedExchange.request = .ok up :=
    upstreamRequest_sent rfl rfl (by decide) (by decide)
  obtain ⟨hmethod, hpath⟩ := upstreamRequest_ok hup
  let v : PublicRequest := ⟨.post, "/", chainIdFront.jsonBody up, none, 0⟩
  have hreads : chainIdFront.Reads up v := by
    refine ⟨hmethod.symm, ?_, rfl⟩
    rw [hpath (by simp [suggestedExchange, chainIdPost])]
    exact chainIdPost.path_eq.symm
  have hserved : Performs exec (plainDaemon.respond chainIdFront.files v) (plainDaemon.initial 0)
      [⟨.checkConnLimit "unknown", true⟩] (.pure ⟨405, none⟩)
      (plainDaemon.admitted 0 "unknown") :=
    .cons (plainDaemon.exec_first_conn 0 "unknown") (.nil _ _)
  obtain ⟨ls, w, hrun, hcame, hasked, hleft, -⟩ := exists_walletRun hup hreads rfl hserved
    ⟨405, [], []⟩ rfl [] nofun (by decide)
  exact ⟨ls, w, 0, v, _, hrun, hasked, hleft, rfl,
    (suggested_url_refused hrun hcame rfl chainIdPost.atUrl).1 0 v hasked⟩

end Torpc
