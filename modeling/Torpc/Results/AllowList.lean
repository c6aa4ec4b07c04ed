import Torpc.Model.App

/-!
# What reaches the upstreams

Both standard handlers validate a request and look its method up in the
allow-list before anything else (`gated`). The relay handler does neither. With
a relay configured, whatever it forwards goes out ungated: any method at all to
Geth, and a transaction or bundle from a request that is no JSON-RPC 2.0 to the
relay. The only requests it holds back are those whose parameters it cannot
use. `gate_safe_iff` says that this is exactly where the allow-list fails.
-/

namespace Torpc

open Effects Prog

/-- The upstream messages of a history come from requests that pass the gates;
the daemon's own `eth_blockNumber` is the exception. -/
def GateSafe (d : Daemon) (ls : List d.system.Label) : Prop :=
  ∀ i (a : Arrival) (e : OpEvent), .spawn i a ∈ ls → .act i e ∈ ls →
    (∀ r, e.op = .sendToGeth r → r = blockNumberRequest ∨ a.request.passesGates = true) ∧
    (∀ body signature, e.op = .sendToRelay body signature → a.request.passesGates = true)

/-- The relay client gets a bundle out to the relay. -/
def MevRelayClient.Posts (client : MevRelayClient) (x : Externals) (bundle : Bundle) : Prop :=
  0 < client.retryPolicy.maxAttempts ∧ ∃ body signature,
    x.encodeJson (SendBundleRequest.new bundle 1).toValue = .ok body ∧
    client.signRequest body = .ok signature

/-- What the relay handler makes of a request goes out to an upstream. -/
def MevRelayClient.Forwards (client : MevRelayClient) (x : Externals) (request : JsonRpcRequest) :
    Prop :=
  if request.method = "eth_sendRawTransaction" then
    ∃ rawTx currentBlock bundle, request.firstParam >>= Value.asStr = some rawTx ∧
      client.createBundleFromTx x rawTx currentBlock = some bundle ∧ client.Posts x bundle
  else if request.method = "eth_sendBundle" then
    ∃ bundle, request.firstParam >>= Bundle.ofValue = some bundle ∧ client.Posts x bundle
  else True

/-- The request does not pass the gates, and is served by the handler that has none. -/
def BypassesGates (d : Daemon) (route : Route) (request : JsonRpcRequest) : Prop :=
  request.passesGates = false ∧ (route = .flashbots ∨ route = .flashbotsSlash) ∧
    ∃ client, d.mevClient = some client ∧ client.Forwards d.externals request

-- ---------------------------------------------------------------------------
-- What is held back
-- ---------------------------------------------------------------------------

/-- The operations that are safe for a request. -/
def Op.Gated (request : JsonRpcRequest) (o : Op) : Prop :=
  (∀ r, o = .sendToGeth r → r = blockNumberRequest ∨ request.passesGates = true) ∧
  (∀ body signature, o = .sendToRelay body signature → request.passesGates = true)

/-- A request that passes the gates may be sent anywhere. -/
theorem Op.gated_of_passes {request : JsonRpcRequest} (h : request.passesGates = true) (o : Op) :
    o.Gated request :=
  ⟨fun _ _ => .inr h, fun _ _ _ => h⟩

/-- An operation that sends nothing needs no gate. -/
theorem Op.gated_of_not_send {request : JsonRpcRequest} {o : Op} (h : o.isSend = false) :
    o.Gated request := by
  refine ⟨fun r hr => ?_, fun body signature hr => ?_⟩
  · subst hr
    exact absurd h (by simp [Op.isSend])
  · subst hr
    exact absurd h (by simp [Op.isSend])

theorem Op.isSend_of_outcome {o : Op} (h : o.isGethOutcome = true) : o.isSend = false := by
  cases o <;> first | rfl | exact absurd h (by simp [Op.isGethOutcome])

theorem Op.isSend_of_silent {o : Op} (h : o.isSilent = true) : o.isSend = false := by
  cases o <;> first | rfl | cases h

/-- A bundle that cannot be encoded or signed never leaves the daemon. -/
theorem MevRelayClient.sendBundle_silent {client : MevRelayClient} {x : Externals}
    {bundle : Bundle} (h : ¬ client.Posts x bundle) :
    (client.sendBundle x bundle).Ops fun o => o.isSend = false := by
  unfold sendBundle
  simp only [perform_bind, ops_op]
  refine ⟨rfl, fun ok => ?_⟩
  cases ok
  · trivial
  · simp only [if_true]
    split
    · trivial
    · next body hbody =>
      by_cases hmax : 0 < client.retryPolicy.maxAttempts
      · have hsign : ∀ signature, client.signRequest body ≠ .ok signature :=
          fun signature hs => h ⟨hmax, body, signature, hbody, hs⟩
        exact (ops_attempts_unsigned hsign x _ 0 none).mono fun _ => Op.isSend_of_silent
      · have hzero : client.retryPolicy.maxAttempts = 0 := by omega
        rw [hzero]
        exact ⟨rfl, fun _ => trivial⟩

/-- A request that fails the gates gets nothing out of a handler that has them. -/
theorem ops_gated_handler {request : JsonRpcRequest} (hfail : request.passesGates = false)
    (forward : Handler (ProxyResult JsonRpcResponse)) :
    (gated request forward).Ops (Op.Gated request) := by
  refine ops_gated (fun _ => Op.gated_of_not_send rfl) (fun h => ?_) (fun h => ?_)
  · exact absurd h (by simp [hfail])
  · exact absurd h (by simp [hfail])

/-- A transaction that the client does not forward to Geth goes there only through the
gates. -/
theorem MevRelayClient.ops_submitTransaction {client : MevRelayClient} {x : Externals}
    {request : JsonRpcRequest} (hmethod : request.method = "eth_sendRawTransaction")
    (h : ¬ client.Forwards x request) :
    (client.submitTransaction x request).Ops (Op.Gated request) := by
  rw [Forwards, if_pos hmethod] at h
  refine Ops.andThen ?_ fun blockResp => ?_
  · -- the question for the block number is the daemon's own
    refine ops_proxyToGeth x blockNumberRequest (Op.gated_of_not_send rfl) ?_
      fun o ho => Op.gated_of_not_send (Op.isSend_of_outcome ho)
    exact ⟨fun r hr => .inl (by cases hr; rfl), fun _ _ hr => by cases hr⟩
  · cases currentBlockOf blockResp with
    | error e => trivial
    | ok currentBlock =>
      refine Ops.andThen ?_ fun bundleHash => trivial
      unfold handleSendRawTransaction
      split
      · trivial
      · next rawTx hraw =>
        split
        · exact ⟨Op.gated_of_not_send rfl, fun never => nomatch never⟩
        · next bundle hbundle =>
          have hposts : ¬ client.Posts x bundle :=
            fun hp => h ⟨rawTx, currentBlock, bundle, hraw, hbundle, hp⟩
          exact (sendBundle_silent hposts).mono fun _ => Op.gated_of_not_send

/-- The same for a bundle. -/
theorem MevRelayClient.ops_submitBundle {client : MevRelayClient} {x : Externals}
    {request : JsonRpcRequest} (hmethod : request.method = "eth_sendBundle")
    (h : ¬ client.Forwards x request) :
    (client.submitBundle x request).Ops (Op.Gated request) := by
  rw [Forwards, if_neg (by rw [hmethod]; decide), if_pos hmethod] at h
  refine Ops.andThen ?_ fun bundleHash => trivial
  unfold handleSendBundle
  split
  · trivial
  · next bundleJson hjson =>
    split
    · trivial
    · next bundle hbundle =>
      have hposts : ¬ client.Posts x bundle := fun hp =>
        h ⟨bundle, by rw [hjson]; exact hbundle, hp⟩
      exact (sendBundle_silent hposts).mono fun _ => Op.gated_of_not_send

/-- Off the bypass, every operation of a request is safe. -/
theorem ops_serve {d : Daemon} {a : Arrival} (h : ¬ BypassesGates d a.route a.request) :
    (d.serve a).Ops (Op.Gated a.request) := by
  by_cases hpass : a.request.passesGates = true
  · exact ops_of_forall (Op.gated_of_passes hpass) _
  have hfail : a.request.passesGates = false := by simpa using hpass
  unfold Daemon.serve
  simp only [perform_bind, ops_op]
  refine ⟨Op.gated_of_not_send rfl, fun ok => ?_⟩
  cases ok
  · trivial
  refine Ops.bind ?_ fun result => trivial
  have hmev : (a.route = .flashbots ∨ a.route = .flashbotsSlash) →
      (handleFlashbotsWithMev d.externals d.mevClient a.request).Ops (Op.Gated a.request) := by
    intro hroute
    refine Ops.andThen (ops_checkWriteMethodRateLimit (Op.gated_of_not_send rfl)
      (Op.gated_of_not_send rfl)) fun _ => ?_
    cases hclient : d.mevClient with
    | none => exact ops_gated_handler hfail _
    | some client =>
      have hforwards : ¬ client.Forwards d.externals a.request :=
        fun hf => h ⟨hfail, hroute, client, hclient, hf⟩
      simp only [MevRelayClient.dispatch]
      split
      · next hmethod => exact client.ops_submitTransaction hmethod hforwards
      · next hraw =>
        split
        · next hmethod => exact client.ops_submitBundle hmethod hforwards
        · next hbundle =>
          -- any other method is forwarded, so this is the bypass itself
          refine absurd ?_ hforwards
          rw [MevRelayClient.Forwards, if_neg hraw, if_neg hbundle]
          trivial
  rcases d.handler_cases a.route with ⟨-, hhandler⟩ | ⟨hroute, hhandler⟩
  · rw [hhandler]
    exact ops_gated_handler hfail _
  · rw [hhandler]
    exact hmev hroute

-- ---------------------------------------------------------------------------
-- What gets through
-- ---------------------------------------------------------------------------

/-- A daemon that has refused nothing yet: its breakers are closed and no write
method has been charged. -/
structure Shared.Fresh (s : Shared) : Prop where
  limiter : ∃ config, s.writeMethodLimiter = .new config
  geth : s.gethCircuit = .new
  mev : s.mevCircuit = .new

/-- A fresh limiter lets the first request through, whatever the configured number is. -/
theorem checkRateLimit_new (config : RateLimitConfig) (now : Nat) (identifier : String) :
    ((RateLimiter.new config).checkRateLimit now identifier).1 = true := rfl

/-- A fresh daemon lets a request past the write budget. -/
theorem performs_checkWrite {s : Shared} (h : s.Fresh) (method : String) :
    ∃ tr s', Performs exec (checkWriteMethodRateLimit method) s tr (.pure (.ok ())) s' ∧
      s'.gethCircuit = .new ∧ s'.mevCircuit = .new := by
  unfold checkWriteMethodRateLimit
  split
  · exact ⟨[], s, .nil _ _, h.geth, h.mev⟩
  · obtain ⟨config, hconfig⟩ := h.limiter
    refine ⟨[⟨.checkWriteLimit method, true⟩],
      { s with writeMethodLimiter := (s.writeMethodLimiter.checkRateLimit s.now method).2 },
      .cons ?_ (.nil _ _), h.geth, h.mev⟩
    have hok : (s.writeMethodLimiter.checkRateLimit s.now method).1 = true := by
      rw [hconfig]
      exact checkRateLimit_new config s.now method
    simp only [exec, Shared.perform, hok]

theorem closed_new {b : CircuitBreaker} (h : b = .new) : b.state = .closed 0 := by
  rw [h]
  rfl

/-- With a fresh breaker, forwarding a request gets to the point where it is sent. -/
theorem reaches_proxyToGeth {s : Shared} (h : s.gethCircuit = .new) (x : Externals)
    (request : JsonRpcRequest) :
    Reaches exec (proxyToGeth x request) s ⟨.sendToGeth request, ()⟩ :=
  .next (exec_canProceed_closed (c := .geth) (closed_new h)) (.here ⟨rfl, trivial⟩)

/-- Geth answers the daemon's question for the block number. -/
theorem performs_blockNumber {s : Shared} (h : s.gethCircuit = .new) (x : Externals)
    (block : UInt64) : ∃ tr s' response,
      Performs exec (proxyToGeth x blockNumberRequest) s tr (.pure (.ok response)) s' ∧
      currentBlockOf response = .ok block ∧ s'.mevCircuit = s.mevCircuit := by
  let quantity := "0x" ++ String.ofList (Net.hex block.toNat)
  let reply : Value := .object [("jsonrpc", .string "2.0"), ("result", .string quantity)]
  let response : JsonRpcResponse := ⟨"2.0", some (.string quantity), none, none⟩
  refine ⟨[⟨.canProceed .geth, true⟩, ⟨.sendToGeth blockNumberRequest, ()⟩,
    ⟨.gethReply, .ok 200⟩, ⟨.gethJson, .ok reply⟩, ⟨.recordSuccess .geth, ()⟩],
    s.setCircuit .geth (s.circuit .geth).recordSuccess, response,
    ?_, currentBlockOf_quantity rfl, rfl⟩
  refine .cons (exec_canProceed_closed (c := .geth) (closed_new h)) (.cons ⟨rfl, trivial⟩ ?_)
  refine .cons ⟨rfl, trivial⟩ (.cons ⟨rfl, trivial⟩ ?_)
  exact .cons rfl (.nil _ _)

/-- What the relay handler forwards does go out. -/
theorem MevRelayClient.reaches_forward {client : MevRelayClient} {x : Externals}
    {request : JsonRpcRequest} (h : client.Forwards x request) {s : Shared}
    (hgeth : s.gethCircuit = .new) (hmev : s.mevCircuit = .new) :
    (∃ body signature, Reaches exec (client.dispatch x request) s
      ⟨.sendToRelay body signature, ()⟩) ∨
    Reaches exec (client.dispatch x request) s ⟨.sendToGeth request, ()⟩ := by
  unfold dispatch
  unfold Forwards at h
  by_cases hraw : request.method = "eth_sendRawTransaction"
  · -- Geth answers with the block for which the bundle can be built
    rw [if_pos hraw] at h ⊢
    obtain ⟨rawTx, currentBlock, bundle, htx, hbundle, hposts⟩ := h
    obtain ⟨tr, t, response, hblock, hcurrent, hmev'⟩ := performs_blockNumber hgeth x currentBlock
    obtain ⟨hmax, body, signature, hbody, hsign⟩ := hposts
    have hsend := client.reaches_sendBundle hmax hbody hsign (closed_new (hmev'.trans hmev))
    refine .inl ⟨body, signature, .after (hblock.andThen _) ?_⟩
    simp only [hcurrent]
    refine Reaches.andThen ?_ _
    simp only [handleSendRawTransaction, htx, hbundle]
    exact hsend
  · rw [if_neg hraw] at h ⊢
    by_cases hmethod : request.method = "eth_sendBundle"
    · rw [if_pos hmethod] at h ⊢
      obtain ⟨bundle, hfirst, hposts⟩ := h
      obtain ⟨bundleJson, hjson, hbundle⟩ := Option.bind_eq_some_iff.mp hfirst
      obtain ⟨hmax, body, signature, hbody, hsign⟩ := hposts
      have hsend := client.reaches_sendBundle hmax hbody hsign (closed_new hmev)
      refine .inl ⟨body, signature, Reaches.andThen ?_ _⟩
      simp only [handleSendBundle, hjson, hbundle]
      exact hsend
    · rw [if_neg hmethod]
      exact .inr (reaches_proxyToGeth hgeth x request)

/-- A request that bypasses the gates and is sent to the upstream, by itself on
a fresh daemon. -/
theorem unsafe_run {d : Daemon} {route : Route} {request : JsonRpcRequest}
    (h : BypassesGates d route request) : ∃ a ls c, a.route = route ∧ a.request = request ∧
      d.RunFrom 0 ls c ∧ (∀ i b, .spawn i b ∈ ls → b = a) ∧ ¬ GateSafe d ls := by
  obtain ⟨hfail, hroute, client, hclient, hforwards⟩ := h
  let a : Arrival := ⟨route, request, none, 0⟩
  have hhandler : d.handler route request =
      (checkWriteMethodRateLimit request.method).andThen
        fun _ => client.dispatch d.externals request := by
    rcases hroute with rfl | rfl <;> simp [Daemon.handler, handleFlashbotsWithMev, hclient]
  -- both limiters let the first request of a fresh daemon through
  have hconn := d.exec_first_conn 0 (getRequestIdentifier none)
  obtain ⟨tr, t, hcheck, hgeth, hmev⟩ :=
    performs_checkWrite (s := d.admitted 0 (getRequestIdentifier none))
      ⟨⟨d.writeLimit, rfl⟩, rfl, rfl⟩ request.method
  obtain ⟨e, hreach, hsent⟩ : ∃ e : OpEvent,
      Reaches exec (client.dispatch d.externals request) t e ∧
      ((∃ body signature, e.op = .sendToRelay body signature) ∨
        request ≠ blockNumberRequest ∧ e.op = .sendToGeth request) := by
    rcases client.reaches_forward hforwards hgeth hmev with ⟨body, signature, hr⟩ | hr
    · exact ⟨_, hr, .inl ⟨body, signature, rfl⟩⟩
    · -- the daemon's own question passes the gates, so this is no such question
      refine ⟨_, hr, .inr ⟨?_, rfl⟩⟩
      rintro rfl
      exact absurd hfail (by decide)
  have hhandled : Reaches exec (d.handler route request)
      (d.admitted 0 (getRequestIdentifier none)) e := by
    rw [hhandler]
    exact .after (hcheck.andThen _) hreach
  have hserve : Reaches exec (d.serve a) (d.initial 0) e :=
    .next hconn (hhandled.bind fun result => .pure (intoResponse result))
  obtain ⟨tr', q, s', hperf⟩ := hserve
  have hjob : d.system.accepts (d.initial 0) a := rfl
  have hrun := System.run_alone hjob hperf
  refine ⟨a, _, _, rfl, rfl, hrun, ?_, ?_⟩
  · intro i b hb
    rcases List.mem_cons.mp hb with hb | hb
    · cases hb
      rfl
    · obtain ⟨e', -, he'⟩ := List.mem_map.mp hb
      cases he'
  · intro hsafe
    have hmem : System.Label.act 0 e ∈ System.Label.spawn (S := d.system) 0 a ::
        (tr' ++ [e]).map (System.Label.act 0) := by simp
    obtain ⟨hto, hrelay⟩ := hsafe 0 a e List.mem_cons_self hmem
    have hno : ¬ request.passesGates = true := by simp [hfail]
    rcases hsent with ⟨body, signature, he⟩ | ⟨hne, he⟩
    · exact hno (hrelay body signature he)
    · rcases hto request he with h | h
      · exact hne h
      · exact hno h

/-- A job's operations are safe if the job does not bypass the gates. -/
theorem gateSafe_of_runs {d : Daemon} {t : Nat} {ls : List d.system.Label} {c : d.system.Config}
    (h : d.RunFrom t ls c)
    (hjobs : ∀ i a, .spawn i a ∈ ls → ¬ BypassesGates d a.route a.request) : GateSafe d ls := by
  intro i a e hspawn hact
  obtain ⟨b, hb, hgated⟩ := System.run_ops h
    (P := fun (a : Arrival) o => Op.Gated a.request o)
    (fun j a hj => ops_serve (hjobs j a hj)) hact
  obtain rfl := System.run_spawn_unique h hspawn hb
  exact hgated

/-- **The gates before Geth.** Whatever Geth is sent has passed both gates, in every run in
which only certain requests come in, just if none of these is of the kind that gets by them.
-/
theorem gate_safe_iff (d : Daemon) (accepted : Route → JsonRpcRequest → Prop) :
    (∀ t ls c, d.RunFrom t ls c → (∀ i a, .spawn i a ∈ ls → accepted a.route a.request) →
      GateSafe d ls) ↔
    ∀ route request, accepted route request → ¬ BypassesGates d route request := by
  constructor
  · intro h route request hacc hby
    obtain ⟨a, ls, c, rfl, rfl, hrun, honly, hunsafe⟩ := unsafe_run hby
    refine hunsafe (h 0 ls c hrun fun i b hb => ?_)
    rw [honly i b hb]
    exact hacc
  · intro h t ls c hrun hacc
    exact gateSafe_of_runs hrun fun i a ha => h a.route a.request (hacc i a ha)

/-- `admin_addPeer` on the relay route is sent to Geth. -/
theorem admin_method_sent : ∃ (a : Arrival) (ls : List relayDaemon.system.Label)
    (c : relayDaemon.system.Config), a.route = .flashbots ∧ a.request.method = "admin_addPeer" ∧
      isMethodAllowed a.request.method = false ∧ relayDaemon.RunFrom 0 ls c ∧
      .spawn 0 a ∈ ls ∧ .act 0 ⟨.sendToGeth a.request, ()⟩ ∈ ls ∧ ¬ GateSafe relayDaemon ls := by
  let request : JsonRpcRequest := ⟨"2.0", "admin_addPeer", none, some (.nat 1)⟩
  let a : Arrival := ⟨.flashbots, request, none, 0⟩
  let sent : OpEvent := ⟨.sendToGeth request, ()⟩
  -- neither limiter nor breaker is in the way, and nothing else is asked
  have hserve : Performs exec (relayDaemon.serve a) (relayDaemon.initial 0)
      [⟨.checkConnLimit "unknown", true⟩, ⟨.canProceed .geth, true⟩, sent] _ _ :=
    .cons (relayDaemon.exec_first_conn 0 "unknown")
      (.cons rfl (.cons ⟨rfl, trivial⟩ (.nil _ _)))
  have hjob : relayDaemon.system.accepts (relayDaemon.initial 0) a := rfl
  have hrun := System.run_alone hjob hserve
  have hspawn : System.Label.spawn 0 a ∈ System.Label.spawn (S := relayDaemon.system) 0 a ::
      [⟨.checkConnLimit "unknown", true⟩, ⟨.canProceed .geth, true⟩, sent].map (.act 0) :=
    List.mem_cons_self
  have hsent : System.Label.act 0 sent ∈ System.Label.spawn (S := relayDaemon.system) 0 a ::
      [⟨.checkConnLimit "unknown", true⟩, ⟨.canProceed .geth, true⟩, sent].map (.act 0) := by
    simp
  refine ⟨a, _, _, rfl, rfl, by decide, hrun, hspawn, hsent, fun hsafe => ?_⟩
  rcases (hsafe 0 a sent hspawn hsent).1 request rfl with h | h
  · exact absurd (congrArg JsonRpcRequest.method h) (by decide)
  · exact absurd h (by decide)

end Torpc
