import Torpc.Model.World
import Torpc.Results.Amplification
import Torpc.Results.BundleFidelity

/-!
# What Geth learns of a private transaction

With a relay configured, a transaction or bundle sent to the relay route is for
the relay's eyes only. What the daemon calls Geth for is its own question for the
block number, or nothing. Whatever goes wrong afterwards (the parameters, the
signature, any of the attempts, either breaker), the handler has no way back to
Geth: after the question it only performs operations of the relay client. The
standard handler for the same method is the one that forwards the transaction
itself.

The handler is not all there is to it. The relay client's HTTP client follows
redirects, and a relay that answers a POST with 307 or 308 has it post the bundle
wherever the `Location` says, to Geth as well. So Geth is told nothing just if
the relay leads none of the POSTs there (`geth_view_equal_iff`).
-/

namespace Torpc

open Effects Prog

/-- The methods whose parameters are private on the relay route. -/
def IsPrivate (method : String) : Prop :=
  method = "eth_sendRawTransaction" ∨ method = "eth_sendBundle"

/-- What is done with the relay sends Geth nothing. -/
theorem not_sendToGeth_of_relayOp {o : Op} (h : o.isRelayOp = true) :
    ∀ r, o ≠ .sendToGeth r := by
  rintro r rfl
  exact absurd h (by simp [Op.isRelayOp])

/-- Telling the breaker how an exchange went reads no answer of the relay. -/
theorem not_relayAnswer_of_outcome {o : Op} (h : o.isGethOutcome = true) :
    o.isRelayAnswer = false := by
  cases o <;> first | rfl | exact absurd h (by simp [Op.isGethOutcome])

/-- What a private request asks of Geth, as a handler of its own: it does not
depend on the parameters. -/
def askGeth (x : Externals) (method : String) : Handler (ProxyResult Unit) :=
  if method = "eth_sendRawTransaction" then
    (proxyToGeth x blockNumberRequest).andThen fun _ => return .ok ()
  else return .ok ()

/-- Asking Geth a question reads no answer of the relay. -/
theorem askGeth_noRelay (x : Externals) (method : String) :
    (askGeth x method).Ops fun o => o.isRelayAnswer = false := by
  unfold askGeth
  split
  · refine Ops.andThen ?_ fun _ => trivial
    exact ops_proxyToGeth x _ rfl rfl fun o => not_relayAnswer_of_outcome
  · trivial

/-- The dispatch of a private request sends Geth what `askGeth` does. -/
theorem dispatch_sent {client : MevRelayClient} {x : Externals} {request : JsonRpcRequest}
    (hmethod : IsPrivate request.method) (w : World) (p : Progress) :
    sentToGeth (w.run (client.dispatch x request) p).1 =
      sentToGeth (w.run (askGeth x request.method) p).1 := by
  unfold MevRelayClient.dispatch askGeth
  by_cases hraw : request.method = "eth_sendRawTransaction"
  · rw [if_pos hraw, if_pos hraw]
    have hquestion : sentToGeth (w.run ((proxyToGeth x blockNumberRequest).andThen
        fun _ => (return .ok () : Handler (ProxyResult Unit))) p).1 =
        sentToGeth (w.run (proxyToGeth x blockNumberRequest) p).1 := by
      refine World.sentToGeth_andThen (fun _ => ?_) w p
      trivial
    rw [hquestion]
    -- past the question, only the relay client
    refine World.sentToGeth_andThen (fun blockResp => ?_) w p
    cases currentBlockOf blockResp with
    | error e => trivial
    | ok currentBlock =>
      exact ((client.ops_handleSendRawTransaction x request currentBlock).mono
        fun o => not_sendToGeth_of_relayOp).andThen fun _ => trivial
  · have hbundle : request.method = "eth_sendBundle" := hmethod.resolve_left hraw
    rw [if_neg hraw, if_neg hraw, if_pos hbundle]
    obtain ⟨q, htr, -⟩ : ∃ q, Trace (client.submitBundle x request) (w.run _ p).1 q ∧ _ :=
      eval_trace (client.submitBundle x request) p
    have hops : (client.submitBundle x request).Ops fun o => ∀ r, o ≠ .sendToGeth r :=
      ((client.ops_handleSendBundle x request).mono
        fun o => not_sendToGeth_of_relayOp).andThen fun _ => trivial
    exact sentToGeth_eq_nil (hops.events htr)

/-- A private request as seen from Geth: the limiters, then the question. -/
def privateFrom (d : Daemon) (identifier method : String) : Handler (ProxyResult Unit) := do
  if ← call (.checkConnLimit identifier) then
    (checkWriteMethodRateLimit method).andThen fun _ => askGeth d.externals method
  else return .error .rateLimitExceeded

/-- Nor does anything that is done with a transaction before it goes to the relay. -/
theorem privateFrom_noRelay (d : Daemon) (identifier method : String) :
    (privateFrom d identifier method).Ops fun o => o.isRelayAnswer = false := by
  refine ⟨rfl, fun ok => ?_⟩
  cases ok
  · trivial
  · refine Ops.andThen ?_ fun _ => askGeth_noRelay _ _
    exact ops_checkWriteMethodRateLimit rfl rfl

/-- The one thing that Geth is asked on the way is the number of the block. -/
theorem privateFrom_question (d : Daemon) (identifier method : String) :
    (privateFrom d identifier method).Ops
      fun o => ∀ r, o = .sendToGeth r → r = blockNumberRequest := by
  have hother : ∀ o : Op, o.isSend = false →
      ∀ r, o = .sendToGeth r → r = blockNumberRequest := by
    rintro o ho r rfl
    exact absurd ho (by simp [Op.isSend])
  refine ⟨hother _ rfl, fun ok => ?_⟩
  cases ok
  · trivial
  · refine Ops.andThen (ops_checkWriteMethodRateLimit (hother _ rfl) (hother _ rfl)) fun _ => ?_
    unfold askGeth
    split
    · refine Ops.andThen ?_ fun _ => trivial
      refine ops_proxyToGeth _ _ (hother _ rfl) ?_ fun o ho => hother o ?_
      · rintro r hr
        cases hr
        rfl
      · cases o <;> first | rfl | exact absurd ho (by simp [Op.isGethOutcome])
    · trivial

/-- What Geth is sent by a private request on the relay route. -/
theorem serve_sent {d : Daemon} {client : MevRelayClient} (hclient : d.mevClient = some client)
    {a : Arrival} (hroute : a.route = .flashbots ∨ a.route = .flashbotsSlash)
    (hmethod : IsPrivate a.request.method) (w : World) (p : Progress) :
    sentToGeth (w.run (d.serve a) p).1 =
      sentToGeth (w.run (privateFrom d (getRequestIdentifier a.peer) a.request.method) p).1 := by
  have hhandler : d.handler a.route a.request =
      (checkWriteMethodRateLimit a.request.method).andThen
        fun _ => client.dispatch d.externals a.request := by
    rcases hroute with h | h <;> simp [h, Daemon.handler, handleFlashbotsWithMev, hclient]
  refine World.sentToGeth_op (fun ok p => ?_) p
  cases ok
  · rfl
  · have hresult : sentToGeth (w.run (d.handler a.route a.request >>= fun result =>
        (return intoResponse result : Handler HttpResponse)) p).1 =
        sentToGeth (w.run (d.handler a.route a.request) p).1 := by
      refine World.sentToGeth_bind (fun _ => ?_) w p
      trivial
    refine hresult.trans ?_
    rw [hhandler]
    exact World.sentToGeth_andThen_congr (fun _ p => dispatch_sent hmethod w p) p

/-- Two private requests that differ in their parameters and id, in the same
surroundings but for the relay: the daemon's own calls of Geth are the same, and
they are its own question. -/
theorem sentToGeth_equal {d : Daemon} {client : MevRelayClient}
    (hclient : d.mevClient = some client)
    {a a' : Arrival} (hroute : a.route = .flashbots ∨ a.route = .flashbotsSlash)
    (hroute' : a'.route = .flashbots ∨ a'.route = .flashbotsSlash)
    (hpeer : a.peer = a'.peer) (hsame : a.request.method = a'.request.method)
    (hmethod : IsPrivate a.request.method) (w : World) (relay : RelayBehaviour) (s : Shared) :
    sentToGeth (w.run (d.serve a) (.start s)).1 =
      sentToGeth ((w.withRelay relay).run (d.serve a') (.start s)).1 ∧
    ∀ r ∈ sentToGeth (w.run (d.serve a) (.start s)).1, r = blockNumberRequest := by
  have hview : sentToGeth (w.run (d.serve a) (.start s)).1 =
      sentToGeth ((w.withRelay relay).run (d.serve a') (.start s)).1 := by
    rw [serve_sent hclient hroute hmethod, serve_sent hclient hroute' (hsame ▸ hmethod),
      World.run_withRelay (privateFrom_noRelay d _ _), hpeer, hsame]
  refine ⟨hview, ?_⟩
  rw [serve_sent hclient hroute hmethod]
  exact World.sentToGeth_ops (privateFrom_question d _ _) w _

-- ---------------------------------------------------------------------------
-- What is posted
-- ---------------------------------------------------------------------------

/-- What the operation posts is a bundle that the client has encoded and signed. -/
def MevRelayClient.PostsBundle (client : MevRelayClient) (x : Externals) (o : Op) : Prop :=
  ∀ body signature, o = .sendToRelay body signature → ∃ bundle,
    x.encodeJson (SendBundleRequest.new bundle 1).toValue = .ok body ∧
      client.signRequest body = .ok signature

theorem postsBundle_of_noRelay {client : MevRelayClient} {x : Externals} {o : Op}
    (h : o.isRelayOp = false) : client.PostsBundle x o := by
  rintro body signature rfl
  cases h

theorem postsBundle_of_pause {client : MevRelayClient} {x : Externals} {o : Op}
    (h : o.isPause = true) : client.PostsBundle x o := by
  rintro body signature rfl
  cases h

/-- Whatever is asked of the daemon, what it posts to the relay are bundles of its
client's. -/
theorem Daemon.postsBundle_serve {d : Daemon} {client : MevRelayClient}
    (hclient : d.mevClient = some client) (a : Arrival) :
    (d.serve a).Ops (client.PostsBundle d.externals) := by
  have hgeth : ∀ r, (proxyToGeth d.externals r).Ops (client.PostsBundle d.externals) :=
    fun r => (ops_proxyToGeth_noRelay d.externals r).mono fun _ => postsBundle_of_noRelay
  have hbundle : ∀ bundle, (client.sendBundle d.externals bundle).Ops
      (client.PostsBundle d.externals) := by
    intro bundle
    refine client.ops_sendBundle_of ?_ fun body signature hbody hsign => ?_
    · rintro o - hsend body signature rfl
      cases hsend
    · rintro _ _ ⟨⟩
      exact ⟨bundle, hbody, hsign⟩
  have hcount : ∀ k, client.PostsBundle d.externals (.increment k) :=
    fun k => postsBundle_of_noRelay rfl
  have hhandler : (d.handler a.route a.request).Ops (client.PostsBundle d.externals) := by
    refine d.walk_handler (walk_ops _) ?_ ?_ hgeth ?_ ?_ a.route a.request
    · exact fun method => ⟨hcount _, fun _ => ⟨hcount _, fun _ => trivial⟩⟩
    · exact fun method => ops_checkWriteMethodRateLimit (postsBundle_of_noRelay rfl) (hcount _)
    · exact ops_panic.mono fun _ => postsBundle_of_pause
    · intro client' hclient'
      obtain rfl := Option.some.inj (hclient.symm.trans hclient')
      exact hbundle
  refine ⟨postsBundle_of_noRelay rfl, fun ok => ?_⟩
  cases ok
  · trivial
  · exact hhandler.bind fun _ => trivial

/-- None of the POSTs that the client can make for a bundle, the first or a later
one, is led to Geth. -/
def MevRelayClient.KeptFromGeth (client : MevRelayClient) (x : Externals) (r : Redirects) : Prop :=
  ∀ bundle body signature n, x.encodeJson (SendBundleRequest.new bundle 1).toValue = .ok body →
    client.signRequest body = .ok signature → n < client.retryPolicy.maxAttempts →
    ¬ r.LeadsToGeth (List.replicate (n + 1) (body, signature))

/-- Then in no trace of a request the relay leads anybody to Geth. -/
theorem MevRelayClient.KeptFromGeth.spared {d : Daemon} {client : MevRelayClient} {r : Redirects}
    (h : client.KeptFromGeth d.externals r) (hclient : d.mevClient = some client) {a : Arrival}
    {tr : List OpEvent} {q : Handler HttpResponse} (htr : Trace (d.serve a) tr q)
    {p : List (String × String)} (hp : p ≠ []) (hpre : p <+: sentToRelay tr) :
    ¬ r.LeadsToGeth p := by
  obtain ⟨⟨body, signature⟩, hfirst⟩ := List.exists_mem_of_ne_nil p hp
  have hpost : (body, signature) ∈ sentToRelay tr := hpre.mem hfirst
  obtain ⟨bundle, hbody, hsign⟩ :=
    (d.postsBundle_serve hclient a).events htr _ (mem_sentToRelay.mp hpost) body signature rfl
  obtain ⟨n, hn, hsame⟩ := Daemon.sentToRelay_serve htr hpost
  have hmax : d.maxPosts = client.retryPolicy.maxAttempts := by rw [Daemon.maxPosts, hclient]
  obtain ⟨m, hm⟩ := Nat.exists_eq_succ_of_ne_zero (mt List.length_eq_zero_iff.mp hp)
  have hle := hpre.length_le
  rw [hsame, List.length_replicate] at hle
  have hrep : p = List.replicate (m + 1) (body, signature) := by
    rw [hsame] at hpre
    rw [← Nat.succ_eq_add_one, ← hm]
    exact List.eq_replicate_of_mem fun y hy => List.eq_of_mem_replicate (hpre.mem hy)
  rw [hrep]
  exact h bundle body signature m hbody hsign (by omega)

-- ---------------------------------------------------------------------------
-- A relay that cannot be reached
-- ---------------------------------------------------------------------------

/-- Surroundings with these redirects in which a POST always fails in the end. -/
def failingWorld (r : Redirects) : World :=
  { quietWorld with
    geth := { quietWorld.geth with hops := r.geth }
    relay := { quietWorld.relay with hops := r.relay }
    follows := r.follows }

/-- The sample world redirects as it is told to. -/
theorem failingWorld_redirects (r : Redirects) : (failingWorld r).redirects = r := rfl

section Failing

variable {r : Redirects} {p : Progress}

/-- In the sample world the jitter is drawn without a mishap. -/
theorem answer_jitter {range : Rat} (h : 0 ≤ range) :
    ∃ j p', (failingWorld r).answer p (.genJitter range) = some (j, p') := by
  have hdrawn : ∀ p', (failingWorld r).elsewhere p' (.genJitter range) =
      some (max (-range) (min range 0), p') := fun _ => if_pos h
  exact ⟨_, _, hdrawn _⟩

/-- With the default policy, the wait before an attempt comes to its end. -/
theorem run_backoff {client : MevRelayClient} (hpolicy : client.retryPolicy = .default)
    (x : Externals) {attempt : Nat} (hattempt : attempt ≤ 32) :
    ∃ tr p', (failingWorld r).run (client.backoff x attempt) p = (tr, p', some ()) ∧
      sentToRelay tr = [] := by
  obtain ⟨q, htr, -⟩ : ∃ q, Trace (client.backoff x attempt)
      ((failingWorld r).run (client.backoff x attempt) p).1 q ∧ _ := eval_trace _ p
  have hnone : sentToRelay ((failingWorld r).run (client.backoff x attempt) p).1 = [] := by
    refine List.eq_nil_iff_forall_not_mem.mpr fun ⟨body, signature⟩ hmem => ?_
    have hpause := (client.ops_backoff x attempt).events htr _ (mem_sentToRelay.mp hmem)
    cases hpause
  suffices hreturns : ((failingWorld r).run (client.backoff x attempt) p).2.2 = some () from
    ⟨_, _, Prod.ext rfl (Prod.ext rfl hreturns), hnone⟩
  obtain ⟨blocksAhead, policy, signRequest⟩ := client
  obtain rfl : policy = .default := hpolicy
  unfold MevRelayClient.backoff
  by_cases hpos : 0 < attempt
  · have hpow : pow2 x.overflowChecks (attempt - 1) = some (2 ^ (attempt - 1)) :=
      if_pos (by omega)
    have hrange := RetryPolicy.jitterRange_nonneg (2 ^ (attempt - 1))
    obtain ⟨j, p', hj⟩ := answer_jitter (r := r) (p := p) hrange
    rw [if_pos hpos]
    unfold RetryPolicy.calculateDelay World.run
    simp only [hpow]
    rw [if_neg (not_lt.mpr hrange), Prog.perform_bind, Prog.op_bind, eval_op_some hj]
    rfl
  · rw [if_neg hpos]
    rfl

/-- In the sample world an attempt posts the bundle, is redirected, and fails. -/
theorem run_attempt {client : MevRelayClient} {body signature : String}
    (hsign : client.signRequest body = .ok signature) (x : Externals) :
    ∃ p', (failingWorld r).run (client.sendBundleAttempt x body) p =
      ([⟨.sendToRelay body signature, ()⟩, ⟨.relayReply, .error "connection refused"⟩], p',
        some (.error refusedPost)) := by
  unfold MevRelayClient.sendBundleAttempt
  rw [hsign]
  exact ⟨_, rfl⟩

/-- All the attempts of a call post. -/
theorem run_attempts {client : MevRelayClient} (hpolicy : client.retryPolicy = .default)
    {body signature : String} (hsign : client.signRequest body = .ok signature) (x : Externals)
    {left attempt : Nat} (hle : attempt + left ≤ 33) (last : Option ProxyError) :
    sentToRelay ((failingWorld r).run (client.attempts x body left attempt last) p).1 =
      List.replicate left (body, signature) := by
  induction left generalizing attempt last p with
  | zero => rfl
  | succ left ih =>
    obtain ⟨tr, p₁, hback, hquiet⟩ :=
      run_backoff (r := r) (p := p) hpolicy x (show attempt ≤ 32 by omega)
    obtain ⟨p₂, hpost⟩ := run_attempt (r := r) (p := p₁) hsign x
    have hrest : sentToRelay ((failingWorld r).run
        (client.attempts x body left (attempt + 1) (some refusedPost)) p₂).1 =
          List.replicate left (body, signature) :=
      ih (by omega) (some refusedPost)
    unfold World.run at hback hpost hrest ⊢
    rw [MevRelayClient.attempts, eval_bind, hback]
    dsimp only
    rw [eval_bind, hpost]
    dsimp only
    rw [if_pos shouldRetry_refusedPost, sentToRelay_append, hquiet, sentToRelay_append, hrest]
    rfl

end Failing

/-- What is made of a result in the end adds nothing to what has been done. -/
theorem World.run_bind_pure {α β : Type} {w : World} {h : Handler α} {p : Progress}
    (f : α → β) : (w.run (h >>= fun a => return f a) p).1 = (w.run h p).1 := by
  unfold World.run
  rw [eval_bind]
  rcases h.eval w.answer p with ⟨tr, t, _ | a⟩
  · rfl
  · exact List.append_nil tr

/-- The same for a program that may end in an error. -/
theorem World.run_andThen_pure {ε α β : Type} {w : World} {h : Handler (Except ε α)}
    {p : Progress} (f : α → β) :
    (w.run (h.andThen fun a => return .ok (f a)) p).1 = (w.run h p).1 := by
  unfold World.run Prog.andThen
  rw [eval_bind]
  rcases h.eval w.answer p with ⟨tr, t, _ | (e | a)⟩
  · rfl
  · exact List.append_nil tr
  · exact List.append_nil tr

/-- A request with this bundle, from a client that is not known. -/
def bundleArrival (bundle : Bundle) : Arrival :=
  ⟨.flashbots, ⟨"2.0", "eth_sendBundle", some (.array [bundle.toValue]), none⟩, none, 0⟩

/-- The daemon that has just started posts the bundle as often as it may. -/
theorem sentToRelay_bundleArrival {d : Daemon} {client : MevRelayClient}
    (hclient : d.mevClient = some client) (hpolicy : client.retryPolicy = .default)
    {bundle : Bundle} {body signature : String}
    (hbody : d.externals.encodeJson (SendBundleRequest.new bundle 1).toValue = .ok body)
    (hsign : client.signRequest body = .ok signature) (r : Redirects) :
    sentToRelay ((failingWorld r).run (d.serve (bundleArrival bundle)) (.start (d.initial 0))).1 =
      List.replicate 3 (body, signature) := by
  -- the bundle is read back from the request
  have hhandle : client.handleSendBundle d.externals (bundleArrival bundle).request =
      client.sendBundle d.externals bundle := by
    have hparam : (bundleArrival bundle).request.firstParam = some bundle.toValue := rfl
    simp only [MevRelayClient.handleSendBundle, hparam, Bundle.ofValue_toValue]
  have hhandler : d.handler .flashbots (bundleArrival bundle).request =
      (checkWriteMethodRateLimit "eth_sendBundle").andThen fun _ =>
        (client.sendBundle d.externals bundle).andThen fun bundleHash =>
          return .ok ⟨"2.0", some (.object [("bundleHash", .string bundleHash)]), none, none⟩ := by
    simp only [Daemon.handler, handleFlashbotsWithMev, hclient]
    rw [← hhandle]
    rfl
  -- both limiters admit it, and the circuit is closed
  obtain ⟨p₁, hconn, hshared⟩ : ∃ p₁, (failingWorld r).answer (.start (d.initial 0))
      (.checkConnLimit "unknown") = some (true, p₁) ∧ p₁.shared = d.admitted 0 "unknown" :=
    ⟨_, rfl, rfl⟩
  obtain ⟨p₂, hwrite, hcircuit⟩ : ∃ p₂, (failingWorld r).answer p₁
      (.checkWriteLimit "eth_sendBundle") = some (true, p₂) ∧ p₂.shared.mevCircuit = .new := by
    obtain ⟨s, n, calls, posts⟩ := p₁
    obtain rfl : s = d.admitted 0 "unknown" := hshared
    exact ⟨_, rfl, rfl⟩
  obtain ⟨p₃, hproceed⟩ : ∃ p₃, (failingWorld r).answer p₂ (.canProceed .mevRelay) =
      some (true, p₃) := by
    obtain ⟨s, n, calls, posts⟩ := p₂
    obtain ⟨now, conn, write, geth, mev, metrics⟩ := s
    obtain rfl : mev = .new := hcircuit
    exact ⟨_, rfl⟩
  have hattempts : sentToRelay ((failingWorld r).run
      (client.attempts d.externals body 3 0 none) p₃).1 = List.replicate 3 (body, signature) :=
    run_attempts hpolicy hsign d.externals (by omega) none
  have hbundle : sentToRelay ((failingWorld r).run (client.sendBundle d.externals bundle) p₂).1 =
      List.replicate 3 (body, signature) := by
    unfold MevRelayClient.sendBundle World.run
    rw [Prog.perform_bind, eval_op_some hproceed, hbody, hpolicy]
    exact hattempts
  have hrest : sentToRelay ((failingWorld r).run (d.handler .flashbots
      (bundleArrival bundle).request) p₁).1 = List.replicate 3 (body, signature) := by
    rw [hhandler]
    unfold World.run
    show sentToRelay ((Prog.op (.checkWriteLimit "eth_sendBundle") _).eval _ p₁).1 = _
    rw [eval_op_some hwrite, ← hbundle, ← World.run_andThen_pure fun bundleHash =>
      (⟨"2.0", some (.object [("bundleHash", .string bundleHash)]), none, none⟩ : JsonRpcResponse)]
    rfl
  rw [← hrest]
  unfold World.run Daemon.serve
  show sentToRelay ((Prog.op (.checkConnLimit "unknown") _).eval _ _).1 = _
  rw [eval_op_some hconn]
  show sentToRelay ((failingWorld r).run (d.handler .flashbots (bundleArrival bundle).request >>=
    fun result => return intoResponse result) p₁).1 = _
  rw [World.run_bind_pure]
  rfl

-- ---------------------------------------------------------------------------
-- Two runs
-- ---------------------------------------------------------------------------

/-- A request on the wire that tells nothing of a private one: it is not signed
for the relay, and carries the daemon's own question or nothing. -/
def Sent.AsksBlock (m : Sent) : Prop :=
  m.fields = none ∧ (m.body = some (.call blockNumberRequest) ∨ m.body = none)

/-- With redirects like these, Geth cannot tell two private requests apart that
differ in their parameters and id: in any surroundings, which may differ in the
relay, it is sent the same, and this tells nothing of them. -/
def Daemon.Confidential (d : Daemon) (r : Redirects) : Prop :=
  ∀ (a a' : Arrival) (w : World) (relay : RelayBehaviour) (s : Shared),
    (a.route = .flashbots ∨ a.route = .flashbotsSlash) →
    (a'.route = .flashbots ∨ a'.route = .flashbotsSlash) →
    a.peer = a'.peer → a.request.method = a'.request.method → IsPrivate a.request.method →
    w.redirects = r → relay.hops = r.relay →
    w.atGeth (d.serve a) s = (w.withRelay relay).atGeth (d.serve a') s ∧
      ∀ m ∈ w.atGeth (d.serve a) s, m.AsksBlock

/-- What the relay's redirects keep from Geth is what the daemon's calls bring it. -/
theorem MevRelayClient.KeptFromGeth.atGeth {d : Daemon} {client : MevRelayClient} {r : Redirects}
    (h : client.KeptFromGeth d.externals r) (hclient : d.mevClient = some client) (a : Arrival)
    {w : World} (hw : w.redirects = r) (s : Shared) :
    w.atGeth (d.serve a) s = r.called [] (sentToGeth (w.run (d.serve a) (.start s)).1) := by
  obtain ⟨q, htr, -⟩ : ∃ q, Trace (d.serve a) (w.run (d.serve a) (.start s)).1 q ∧ _ :=
    eval_trace (d.serve a) _
  unfold World.atGeth
  rw [hw]
  exact Redirects.atGeth_eq fun p hp hpre => h.spared hclient htr hp hpre

/-- Geth learns nothing of private requests, whatever they say and whatever goes
wrong, if and only if the relay leads none of the POSTs to it that the client can
make: neither the first attempt for a bundle nor a later one. -/
theorem geth_view_equal_iff (d : Daemon) (client : MevRelayClient)
    (hclient : d.mevClient = some client) (hpolicy : client.retryPolicy = .default)
    (r : Redirects) : d.Confidential r ↔ client.KeptFromGeth d.externals r := by
  constructor
  · intro hconf bundle body signature n hbody hsign hn hled
    have hposts := sentToRelay_bundleArrival hclient hpolicy hbody hsign r
    have hpre : List.replicate (n + 1) (body, signature) <+:
        sentToRelay ((failingWorld r).run (d.serve (bundleArrival bundle))
          (.start (d.initial 0))).1 := by
      rw [hposts]
      rw [hpolicy] at hn
      have hle : n + 1 ≤ 3 := hn
      exact List.prefix_replicate_iff.mpr ⟨by rwa [List.length_replicate], by simp⟩
    obtain ⟨m, hm, hsigned⟩ := Redirects.signed_atGeth (List.cons_ne_nil _ _) hpre hled
    have hasks := (hconf (bundleArrival bundle) (bundleArrival bundle) (failingWorld r)
      (failingWorld r).relay (d.initial 0) (.inl rfl) (.inl rfl) rfl rfl (.inr rfl)
      (failingWorld_redirects r) rfl).2 m hm
    exact hsigned hasks.1
  · intro hkept a a' w relay s hroute hroute' hpeer hsame hmethod hw hrelay
    have hw' : (w.withRelay relay).redirects = r := by
      rw [← hw]
      show (⟨w.follows, w.geth.hops, relay.hops⟩ : Redirects) = _
      rw [hrelay, ← hw]
      rfl
    obtain ⟨hview, hquestion⟩ :=
      sentToGeth_equal hclient hroute hroute' hpeer hsame hmethod w relay s
    rw [hkept.atGeth hclient a hw, hkept.atGeth hclient a' hw', ← hview]
    refine ⟨rfl, fun m hm => ?_⟩
    obtain ⟨hfields, hbody⟩ := Redirects.called_carries hm
    refine ⟨hfields, hbody.imp_left ?_⟩
    rintro ⟨request, hmem, hcall⟩
    rw [hcall, hquestion request hmem]

/-- A relay that sends the client to another relay, and that to a third place. -/
theorem geth_view_equal_elsewhere :
    bundleDaemon.Confidential ⟨10, fun _ => [], fun _ => [⟨307, .relay⟩, ⟨302, .elsewhere⟩]⟩ := by
  refine (geth_view_equal_iff bundleDaemon bundleClient rfl rfl _).mpr ?_
  intro bundle body signature n _ _ _ hled
  have hplaces : Host.geth ∈ [Host.relay, .relay, .elsewhere] := hled
  simp at hplaces

/-- A relay that answers every POST with 307 and Geth's URL. -/
def redirectingRelay : Redirects := ⟨10, fun _ => [], fun _ => [⟨307, .geth⟩]⟩

/-- A relay that redirects with 307 to Geth's address has Geth sent the whole bundle, with
its signature. -/
theorem bundle_led_to_geth : ¬ bundleDaemon.Confidential redirectingRelay := by
  intro hconf
  let arrival := bundleArrival ⟨["0x02f8"], "0x10", none, none⟩
  have hposts := @sentToRelay_bundleArrival bundleDaemon bundleClient rfl rfl
    ⟨["0x02f8"], "0x10", none, none⟩ bundleText "0x01:0x02" rfl rfl redirectingRelay
  have hpre : [(bundleText, "0x01:0x02")] <+: sentToRelay ((failingWorld redirectingRelay).run
      (bundleDaemon.serve arrival) (.start (bundleDaemon.initial 0))).1 := by
    rw [hposts]
    exact List.cons_prefix_cons.mpr ⟨rfl, List.nil_prefix⟩
  have hled : redirectingRelay.LeadsToGeth [(bundleText, "0x01:0x02")] := by
    show Host.geth ∈ [Host.relay, .geth]
    simp
  obtain ⟨m, hm, hsigned⟩ := Redirects.signed_atGeth (List.cons_ne_nil _ _) hpre hled
  have hasks := (hconf arrival arrival (failingWorld redirectingRelay)
    (failingWorld redirectingRelay).relay (bundleDaemon.initial 0) (.inl rfl) (.inl rfl) rfl rfl
    (.inr rfl) rfl rfl).2 m hm
  exact hsigned hasks.1

end Torpc
