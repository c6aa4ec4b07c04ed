import Torpc.Lib.Budget
import Torpc.Model.PublicRouter
import Torpc.Model.Upstream
import Torpc.Results.BundleFidelity
import Torpc.Results.WriteCap

/-!
# What one request costs the upstreams

The daemon stands between strangers and two upstreams that somebody pays for, so
it must not multiply what it is sent. One request makes at most one call of
Geth, and at most as many POSTs to the relay as the retry policy has attempts,
all of them the same POST. A call is one `send()` of an HTTP client; on the wire
it is repeated for every redirect that the client follows, and for nothing else.
Every request that reaches Geth has passed the per-connection limiter, and every
POST to the relay belongs to a pass of the write budget; so over a run the
limiters bound what the upstreams see (`upstream_budget`).

The bounds for one request are read off the programs (`atMost_serve`), and the
run's are added up from them.
-/

namespace Torpc

open Effects Prog System

/-- A message to Geth. -/
def Op.toGeth : Op → Bool
  | .sendToGeth _ => true
  | _ => false

/-- A message to the relay. -/
def Op.toRelay : Op → Bool
  | .sendToRelay _ _ => true
  | _ => false

/-- A limiter lets a request pass: the one for connections. -/
def connPassed : OpEvent → Bool
  | ⟨.checkConnLimit _, ok⟩ => ok
  | _ => false

/-- A limiter lets a request pass: the one for write methods. -/
def writePassed : OpEvent → Bool
  | ⟨.checkWriteLimit _, ok⟩ => ok
  | _ => false

/-- How often one request can be posted to the relay. -/
def Daemon.maxPosts (d : Daemon) : Nat :=
  match d.mevClient with
  | none => 0
  | some client => client.retryPolicy.maxAttempts

-- ---------------------------------------------------------------------------
-- One request
-- ---------------------------------------------------------------------------

/-- The operations that send nothing to Geth are free. -/
theorem atMost_toGeth_of_relay {α : Type} {p : Handler α}
    (h : p.Ops fun o => o.isRelayOp = true) : p.AtMost Op.toGeth 0 := by
  refine atMost_zero (h.mono fun o ho => ?_)
  cases o <;> first | rfl | cases ho

/-- A program that does nothing with the relay posts nothing there. -/
theorem atMost_toRelay_of_noRelay {α : Type} {p : Handler α}
    (h : p.Ops fun o => o.isRelayOp = false) : p.AtMost Op.toRelay 0 := by
  refine atMost_zero (h.mono fun o ho => ?_)
  cases o <;> first | rfl | cases ho

/-- Waiting for Geth has nothing to do with the relay. -/
theorem ops_awaitGeth_noRelay (x : Externals) :
    (awaitGeth x).Ops fun o => o.isRelayOp = false := by
  refine (ops_awaitGeth x).mono fun o ho => ?_
  cases o with
  | recordSuccess circuit => cases circuit <;> first | rfl | cases ho
  | recordFailure circuit => cases circuit <;> first | rfl | cases ho
  | _ => first | rfl | cases ho

/-- `proxy_to_geth` sends its request once. -/
theorem atMost_proxyToGeth (x : Externals) (request : JsonRpcRequest) :
    (proxyToGeth x request).AtMost Op.toGeth 1 := by
  refine atMost_skip rfl fun ok => ?_
  cases ok
  · trivial
  · refine atMost_op fun _ => atMost_zero ((ops_awaitGeth x).mono fun o ho => ?_)
    cases o <;> first | rfl | cases ho

/-- Nor has forwarding to Geth. -/
theorem ops_proxyToGeth_noRelay (x : Externals) (request : JsonRpcRequest) :
    (proxyToGeth x request).Ops fun o => o.isRelayOp = false := by
  refine ⟨rfl, fun ok => ?_⟩
  cases ok
  · trivial
  · exact ⟨rfl, fun _ => ops_awaitGeth_noRelay x⟩

/-- The write budget sends nothing by itself. -/
theorem ops_checkWrite_noSend (method : String) :
    (checkWriteMethodRateLimit method).Ops fun o => o.isRelayOp = false ∧ o.isSend = false :=
  ops_checkWriteMethodRateLimit ⟨rfl, rfl⟩ ⟨rfl, rfl⟩

/-- The write limiter sends nothing, so the check in front of a handler adds nothing to what
the handler sends. -/
theorem atMost_checked {counted : Op → Bool} (hfree : ∀ o, Op.isSend o = false → counted o = false)
    {n : Nat} (method : String) {f : Handler (ProxyResult JsonRpcResponse)}
    (hf : f.AtMost counted n) :
    ((checkWriteMethodRateLimit method).andThen fun _ => f).AtMost counted n := by
  have hcheck : (checkWriteMethodRateLimit method).AtMost counted 0 :=
    atMost_zero ((ops_checkWrite_noSend method).mono fun o ho => hfree o ho.2)
  exact (hcheck.andThen fun _ => hf).mono (by omega)

/-- The gates send nothing by themselves. -/
theorem atMost_gated {counted : Op → Bool} (hfree : ∀ o, Op.isSend o = false → counted o = false)
    {n : Nat} (request : JsonRpcRequest) {forward : Handler (ProxyResult JsonRpcResponse)}
    (hf : forward.AtMost counted n) : (gated request forward).AtMost counted n := by
  unfold gated
  split
  · trivial
  · split
    · exact atMost_skip (hfree _ rfl) fun _ => atMost_skip (hfree _ rfl) fun _ => trivial
    · exact atMost_checked hfree request.method hf

theorem toGeth_of_not_send {o : Op} (h : o.isSend = false) : o.toGeth = false := by
  cases o <;> first | rfl | cases h

theorem Op.isSend_of_toGeth {o : Op} (h : o.toGeth = true) : o.isSend = true := by
  cases o <;> first | rfl | cases h

theorem Op.isSend_of_toRelay {o : Op} (h : o.toRelay = true) : o.isSend = true := by
  cases o <;> first | rfl | cases h

theorem Op.isRelayOp_of_toRelay {o : Op} (h : o.toRelay = true) : o.isRelayOp = true := by
  cases o <;> first | rfl | cases h

theorem toRelay_of_not_send {o : Op} (h : o.isSend = false) : o.toRelay = false := by
  cases o <;> first | rfl | cases h

/-- One attempt posts the bundle once, if it gets to that point, and asks nothing else of
the relay. -/
theorem MevRelayClient.atMost_attempt (client : MevRelayClient) (x : Externals) (body : String) :
    (client.sendBundleAttempt x body).AtMost Op.toRelay 1 := by
  unfold sendBundleAttempt
  split
  · trivial
  · refine atMost_op fun _ => atMost_skip rfl fun reply => ?_
    cases reply with
    | error e => trivial
    | ok status =>
      refine atMost_skip rfl fun read => ?_
      dsimp only
      split <;> trivial

/-- The attempts of a call, one POST each. -/
theorem MevRelayClient.atMost_attempts (client : MevRelayClient) (x : Externals) (body : String)
    (left attempt : Nat) (lastError : Option ProxyError) :
    (client.attempts x body left attempt lastError).AtMost Op.toRelay left := by
  induction left generalizing attempt lastError with
  | zero => exact atMost_skip rfl fun _ => trivial
  | succ left ih =>
    have hpause : (client.backoff x attempt).AtMost Op.toRelay 0 :=
      atMost_zero ((client.ops_backoff x attempt).mono fun o ho =>
        toRelay_of_not_send (Op.isSend_of_isPause ho))
    rw [attempts]
    refine (hpause.bind fun _ =>
      (client.atMost_attempt x body).bind (m := left) fun result => ?_).mono (by omega)
    cases result with
    | ok bundleHash => exact atMost_skip rfl fun _ => trivial
    | error e =>
      simp only []
      split
      · exact ih (attempt + 1) (some e)
      · exact atMost_skip rfl fun _ => trivial

/-- A bundle is posted as often as the policy has attempts, and no more. -/
theorem MevRelayClient.atMost_sendBundle (client : MevRelayClient) (x : Externals)
    (bundle : Bundle) :
    (client.sendBundle x bundle).AtMost Op.toRelay client.retryPolicy.maxAttempts := by
  unfold sendBundle
  refine atMost_skip rfl fun ok => ?_
  cases ok
  · trivial
  · cases x.encodeJson (SendBundleRequest.new bundle 1).toValue with
    | error e => trivial
    | ok body => exact client.atMost_attempts x body _ 0 none

/-- With a relay, one question to Geth and the attempts at the relay. -/
theorem MevRelayClient.atMost_dispatch (client : MevRelayClient) (x : Externals)
    (request : JsonRpcRequest) : (client.dispatch x request).AtMost Op.toGeth 1 ∧
      (client.dispatch x request).AtMost Op.toRelay client.retryPolicy.maxAttempts := by
  have hraw : ∀ currentBlock, (client.handleSendRawTransaction x request currentBlock).AtMost
      Op.toRelay client.retryPolicy.maxAttempts := by
    intro currentBlock
    unfold handleSendRawTransaction
    split
    · trivial
    · split
      · exact (atMost_zero (ops_panic.mono fun o ho =>
          toRelay_of_not_send (Op.isSend_of_isPause ho))).mono (Nat.zero_le _)
      · exact client.atMost_sendBundle x _
  have hbundle : (client.handleSendBundle x request).AtMost
      Op.toRelay client.retryPolicy.maxAttempts := by
    unfold handleSendBundle
    split
    · trivial
    · split
      · trivial
      · exact client.atMost_sendBundle x _
  unfold dispatch
  split
  · refine ⟨?_, ?_⟩
    · refine ((atMost_proxyToGeth x blockNumberRequest).andThen (m := 0) fun blockResp => ?_).mono
        (Nat.le_refl 1)
      cases currentBlockOf blockResp with
      | error e => trivial
      | ok currentBlock =>
        refine ((atMost_toGeth_of_relay (client.ops_handleSendRawTransaction x request _)).andThen
          (m := 0) fun _ => ?_)
        trivial
    · refine ((atMost_toRelay_of_noRelay (ops_proxyToGeth_noRelay x blockNumberRequest)).andThen
        (m := client.retryPolicy.maxAttempts) fun blockResp => ?_).mono (by omega)
      cases currentBlockOf blockResp with
      | error e => trivial
      | ok currentBlock => exact (hraw currentBlock).andThen (m := 0) fun _ => trivial
  · split
    · refine ⟨?_, hbundle.andThen (m := 0) fun _ => trivial⟩
      refine ((atMost_toGeth_of_relay (client.ops_handleSendBundle x request)).andThen
        (m := 0) fun _ => ?_).mono (Nat.zero_le 1)
      trivial
    · exact ⟨atMost_proxyToGeth x request,
        (atMost_toRelay_of_noRelay (ops_proxyToGeth_noRelay x request)).mono (Nat.zero_le _)⟩

/-- The standard handlers have nothing to do with the relay. -/
theorem ops_standard_noRelay (x : Externals) (request : JsonRpcRequest) :
    (handleRpc x request).Ops (fun o => o.isRelayOp = false) ∧
      (handleFlashbots x request).Ops fun o => o.isRelayOp = false := by
  have hgeth := ops_proxyToGeth_noRelay x request
  refine ⟨ops_gated (fun _ => rfl) (fun _ => rfl) fun _ => hgeth,
    ops_gated (fun _ => rfl) (fun _ => rfl) fun _ => ?_⟩
  split
  · unfold proxyToFlashbots
    split
    · trivial
    · exact hgeth
  · exact hgeth

/-- Without a relay, one call of Geth. -/
theorem atMost_standard (x : Externals) (request : JsonRpcRequest) :
    (handleRpc x request).AtMost Op.toGeth 1 ∧ (handleFlashbots x request).AtMost Op.toGeth 1 := by
  have hgeth := atMost_proxyToGeth x request
  refine ⟨atMost_gated (fun _ => toGeth_of_not_send) _ hgeth,
    atMost_gated (fun _ => toGeth_of_not_send) _ ?_⟩
  split
  · unfold proxyToFlashbots
    split
    · trivial
    · exact hgeth
  · exact hgeth

/-- A handler sends Geth one request at most, and the relay at most as many as its policy
has attempts. -/
theorem Daemon.atMost_handler (d : Daemon) (route : Route) (request : JsonRpcRequest) :
    (d.handler route request).AtMost Op.toGeth 1 ∧
      (d.handler route request).AtMost Op.toRelay d.maxPosts := by
  obtain ⟨hrpcGeth, hfbGeth⟩ := atMost_standard d.externals request
  obtain ⟨hrpcRelay, hfbRelay⟩ := ops_standard_noRelay d.externals request
  rcases d.handler_cases route with ⟨-, hhandler⟩ | ⟨-, hhandler⟩
  · rw [hhandler]
    exact ⟨hrpcGeth, (atMost_toRelay_of_noRelay hrpcRelay).mono (Nat.zero_le _)⟩
  · rw [hhandler]
    unfold handleFlashbotsWithMev maxPosts
    cases d.mevClient with
    | none =>
      exact ⟨atMost_checked (fun _ => toGeth_of_not_send) _ hfbGeth,
        atMost_checked (fun _ => toRelay_of_not_send) _ (atMost_toRelay_of_noRelay hfbRelay)⟩
    | some client =>
      obtain ⟨hgeth, hrelay⟩ := client.atMost_dispatch d.externals request
      exact ⟨atMost_checked (fun _ => toGeth_of_not_send) _ hgeth,
        atMost_checked (fun _ => toRelay_of_not_send) _ hrelay⟩

/-- Behind the limiter, what the handler costs. -/
theorem Daemon.atMost_serve (d : Daemon) (a : Arrival) :
    (d.serve a).AtMost Op.toGeth 1 ∧ (d.serve a).AtMost Op.toRelay d.maxPosts := by
  obtain ⟨hgeth, hrelay⟩ := d.atMost_handler a.route a.request
  refine ⟨atMost_skip rfl fun ok => ?_, atMost_skip rfl fun ok => ?_⟩
  · cases ok
    · trivial
    · exact hgeth.bind (m := 0) fun _ => trivial
  · cases ok
    · trivial
    · exact hrelay.bind (m := 0) fun _ => trivial

/-- So does the daemon's whole response, with the router around the handlers. -/
theorem Daemon.atMost_respond (d : Daemon) (files : StaticFiles) (v : PublicRequest) :
    (d.respond files v).AtMost Op.toGeth 1 ∧
      (d.respond files v).AtMost Op.toRelay d.maxPosts := by
  cases hv : v.arrival with
  | some a =>
    rw [d.respond_eq_serve hv files]
    exact d.atMost_serve a
  | none =>
    have hother := d.ops_respond_other hv files
    refine ⟨(atMost_zero (hother.mono ?_)).mono (Nat.zero_le _),
      (atMost_zero (hother.mono ?_)).mono (Nat.zero_le _)⟩ <;>
    · rintro o rfl
      rfl

-- ---------------------------------------------------------------------------
-- The same POST
-- ---------------------------------------------------------------------------

/-- What has been posted last. -/
def lastPost (last : Option (String × String)) : OpEvent → Option (String × String)
  | ⟨.sendToRelay body signature, _⟩ => some (body, signature)
  | _ => last

/-- A POST repeats the last one, if there is one. -/
def RepeatsPost (last : Option (String × String)) (o : Op) : Prop :=
  ∀ body signature, o = .sendToRelay body signature → ∀ p ∈ last, p = (body, signature)

/-- Whatever the operation posts is this. -/
def Op.PostsOnly (p : String × String) (o : Op) : Prop :=
  ∀ body signature, o = .sendToRelay body signature → (body, signature) = p

theorem Op.postsOnly_of_not_send {p : String × String} {o : Op} (h : o.isSend = false) :
    o.PostsOnly p := by
  rintro body signature rfl
  cases h

theorem lastPost_of_not_send {last : Option (String × String)} {o : Op} (h : o.isSend = false)
    (r : Res o) : lastPost last ⟨o, r⟩ = last := by
  cases o <;> first | rfl | cases h

/-- A program with one POST to make repeats it. -/
theorem sat_postsOnly {α : Type} {p : String × String} {h : Handler α}
    (hops : h.Ops (Op.PostsOnly p)) {last : Option (String × String)} (hlast : ∀ q ∈ last, q = p) :
    h.Sat lastPost RepeatsPost (fun _ _ => True) last := by
  induction h generalizing last with
  | pure a => trivial
  | op o k ih =>
    refine ⟨fun body signature ho q hq => ?_, fun r => ih r (hops.2 r) ?_⟩
    · rw [hlast q hq, hops.1 body signature ho]
    · cases o with
      | sendToRelay body signature =>
        intro q hq
        obtain rfl := Option.some.inj hq
        exact hops.1 body signature rfl
      | _ => exact hlast

/-- In a trace of such a program all POSTs are one. -/
theorem lastPost_of_trace {α : Type} {h h' : Handler α} {Q : α → Option (String × String) → Prop}
    {tr : List OpEvent} {last : Option (String × String)}
    (hsat : h.Sat lastPost RepeatsPost Q last) (htr : Trace h tr h') :
    (∀ p, last = some p → tr.foldl lastPost last = some p) ∧
      ∀ body signature, (⟨.sendToRelay body signature, ()⟩ : OpEvent) ∈ tr →
        tr.foldl lastPost last = some (body, signature) := by
  induction htr generalizing last with
  | nil => exact ⟨fun _ hp => hp, fun _ _ hmem => nomatch hmem⟩
  | @cons o k r tr q _ ih =>
    obtain ⟨hrepeats, hrest⟩ := hsat
    obtain ⟨hkeep, hposts⟩ := ih (hrest r)
    rw [List.foldl_cons]
    refine ⟨?_, fun body signature hmem => ?_⟩
    · rintro p rfl
      cases o with
      | sendToRelay body signature =>
        rw [hrepeats body signature rfl p rfl]
        exact hkeep _ rfl
      | _ => exact hkeep p rfl
    · rcases List.mem_cons.mp hmem with hhead | htail
      · cases hhead
        exact hkeep _ rfl
      · exact hposts body signature htail

/-- A bundle is encoded once, and signing it is a function of its encoding. -/
theorem MevRelayClient.sendBundle_postsOnly (client : MevRelayClient) (x : Externals)
    (bundle : Bundle) : ∃ p, (client.sendBundle x bundle).Ops (Op.PostsOnly p) := by
  have hall : ∀ p, (∀ body signature, x.encodeJson (SendBundleRequest.new bundle 1).toValue =
      .ok body → client.signRequest body = .ok signature → (body, signature) = p) →
      (client.sendBundle x bundle).Ops (Op.PostsOnly p) := by
    intro p hp
    refine client.ops_sendBundle_of (fun o _ ho => Op.postsOnly_of_not_send ho) ?_
    rintro body signature hbody hsign _ _ ⟨⟩
    exact hp body signature hbody hsign
  by_cases hex : ∃ body signature, x.encodeJson (SendBundleRequest.new bundle 1).toValue =
      .ok body ∧ client.signRequest body = .ok signature
  · obtain ⟨body, signature, hbody, hsign⟩ := hex
    refine ⟨(body, signature), hall _ fun body' signature' hbody' hsign' => ?_⟩
    rw [hbody] at hbody'
    cases hbody'
    rw [hsign] at hsign'
    cases hsign'
    rfl
  · exact ⟨("", ""), hall _ fun body signature hbody hsign =>
      absurd ⟨body, signature, hbody, hsign⟩ hex⟩

/-- One request, one POST and its repetitions. -/
theorem MevRelayClient.sat_dispatch (client : MevRelayClient) (x : Externals)
    (request : JsonRpcRequest) :
    (client.dispatch x request).Sat lastPost RepeatsPost (fun _ _ => True) none := by
  have hquiet : ∀ {α : Type} {p : Handler α}, (p.Ops fun o => o.isRelayOp = false) →
      p.Sat lastPost RepeatsPost (fun _ last => last = none) none := by
    intro α p hp
    refine sat_frame hp (fun o ho r => ?_) fun o ho body signature hpost => ?_
    · cases o <;> first | rfl | cases ho
    · subst hpost
      cases ho
  have hpost : ∀ {p : Handler (ProxyResult String)}, (∃ w, p.Ops (Op.PostsOnly w)) →
      ∀ f : String → Handler (ProxyResult JsonRpcResponse), (∀ s, (f s).Ops fun _ => False) →
      (p.andThen f).Sat lastPost RepeatsPost (fun _ _ => True) none := by
    rintro p ⟨w, hw⟩ f hf
    exact sat_postsOnly (hw.andThen fun s => (hf s).mono fun _ => False.elim) nofun
  unfold dispatch
  split
  · refine (hquiet (ops_proxyToGeth_noRelay x blockNumberRequest)).andThen ?_ fun _ _ _ => trivial
    rintro blockResp _ rfl
    cases currentBlockOf blockResp with
    | error e => trivial
    | ok currentBlock =>
      refine hpost ?_ _ fun _ => trivial
      unfold handleSendRawTransaction
      split
      · exact ⟨("", ""), trivial⟩
      · split
        · exact ⟨("", ""), ops_panic.mono fun o ho =>
            Op.postsOnly_of_not_send (Op.isSend_of_isPause ho)⟩
        · exact client.sendBundle_postsOnly x _
  · split
    · refine hpost ?_ _ fun _ => trivial
      unfold handleSendBundle
      split
      · exact ⟨("", ""), trivial⟩
      · split
        · exact ⟨("", ""), trivial⟩
        · exact client.sendBundle_postsOnly x _
    · exact (hquiet (ops_proxyToGeth_noRelay x request)).mono (fun _ _ h => h) fun _ _ _ => trivial

/-- A program that does nothing with the relay repeats no other post. -/
theorem sat_noRelay {α : Type} {p : Handler α} (hp : p.Ops fun o => o.isRelayOp = false) :
    p.Sat lastPost RepeatsPost (fun _ _ => True) none :=
  sat_postsOnly (p := ("", "")) (hp.mono fun o ho body signature hpost => by
    subst hpost
    cases ho) nofun

/-- All that one request posts to the relay is one text with one signature, over and over.
-/
theorem Daemon.sat_serve_post (d : Daemon) (a : Arrival) :
    (d.serve a).Sat lastPost RepeatsPost (fun _ _ => True) none := by
  have hhandler :
      (d.handler a.route a.request).Sat lastPost RepeatsPost (fun _ _ => True) none := by
    obtain ⟨hrpc, hfb⟩ := ops_standard_noRelay d.externals a.request
    rcases d.handler_cases a.route with ⟨-, heq⟩ | ⟨-, heq⟩
    · rw [heq]
      exact sat_noRelay hrpc
    · rw [heq]
      have hcheck : (checkWriteMethodRateLimit a.request.method).Sat lastPost RepeatsPost
          (fun _ last => last = none) none :=
        sat_frame (ops_checkWrite_noSend _) (fun o ho r => lastPost_of_not_send ho.2 r)
          fun o ho body signature hpost => by
            subst hpost
            exact nomatch ho.2
      refine hcheck.andThen ?_ fun _ _ _ => trivial
      rintro _ _ rfl
      cases d.mevClient with
      | none => exact sat_noRelay hfb
      | some client => exact client.sat_dispatch d.externals a.request
  refine ⟨nofun, fun ok => ?_⟩
  cases ok
  · trivial
  · exact hhandler.bind fun _ _ _ => trivial

/-- What was sent to Geth, counted by its events. -/
theorem length_sentToGeth (tr : List OpEvent) :
    (sentToGeth tr).length = tr.countP fun e => e.op.toGeth := by
  induction tr with
  | nil => rfl
  | cons e tr ih =>
    obtain ⟨o, r⟩ := e
    rw [List.countP_cons, ← ih]
    cases o <;> rfl

/-- What was posted to the relay, counted by its events. -/
theorem length_sentToRelay (tr : List OpEvent) :
    (sentToRelay tr).length = tr.countP fun e => e.op.toRelay := by
  induction tr with
  | nil => rfl
  | cons e tr ih =>
    obtain ⟨o, r⟩ := e
    rw [List.countP_cons, ← ih]
    cases o <;> rfl

/-- However often a request is posted to the relay, it is one POST, and not more
often than the client may try. -/
theorem Daemon.sentToRelay_serve {d : Daemon} {a : Arrival} {tr : List OpEvent}
    {q : Handler HttpResponse} (h : Trace (d.serve a) tr q) {p : String × String}
    (hp : p ∈ sentToRelay tr) :
    ∃ n < d.maxPosts, sentToRelay tr = List.replicate (n + 1) p := by
  have hlast := (lastPost_of_trace (d.sat_serve_post a) h).2
  have hsame : ∀ p' ∈ sentToRelay tr, p' = p := by
    intro p' hp'
    have hboth := (hlast _ _ (mem_sentToRelay.mp hp')).symm.trans
      (hlast _ _ (mem_sentToRelay.mp hp))
    exact Option.some.inj hboth
  have hle := (d.atMost_serve a).2.countP_le h
  rw [← length_sentToRelay] at hle
  have hpos := List.length_pos_of_mem hp
  refine ⟨(sentToRelay tr).length - 1, by omega, ?_⟩
  rw [Nat.sub_add_cancel hpos]
  exact List.eq_replicate_of_mem hsame

-- ---------------------------------------------------------------------------
-- What has been let through
-- ---------------------------------------------------------------------------

/-- A method outside the write budget has no business with the relay. -/
theorem Daemon.ops_serve_noRelay (d : Daemon) {a : Arrival}
    (hmethod : a.request.method ∉ writeMethods) :
    (d.serve a).Ops fun o => o.isRelayOp = false := by
  obtain ⟨hraw, hbundle⟩ : a.request.method ≠ "eth_sendRawTransaction" ∧
      a.request.method ≠ "eth_sendBundle" := by
    simp only [writeMethods, List.mem_cons, List.not_mem_nil, or_false, not_or] at hmethod
    exact hmethod
  have hhandler : (d.handler a.route a.request).Ops fun o => o.isRelayOp = false := by
    obtain ⟨hrpc, hfb⟩ := ops_standard_noRelay d.externals a.request
    rcases d.handler_cases a.route with ⟨-, heq⟩ | ⟨-, heq⟩
    · rw [heq]
      exact hrpc
    · rw [heq]
      refine ((ops_checkWrite_noSend _).mono fun o ho => ho.1).andThen fun _ => ?_
      cases d.mevClient with
      | none => exact hfb
      | some client =>
        dsimp only [MevRelayClient.dispatch]
        rw [if_neg hraw, if_neg hbundle]
        exact ops_proxyToGeth_noRelay _ _
  refine ⟨rfl, fun ok => ?_⟩
  cases ok
  · trivial
  · exact hhandler.bind fun _ => trivial

section Run

variable {d : Daemon} {files : StaticFiles} {t : Nat} {ls : List (d.publicSystem files).Label}
  {c : (d.publicSystem files).Config}

/-- Whoever sends something upstream is a request that has arrived in good order, and was
served up to that point. -/
theorem served_of_send (h : d.PublicRun files t ls c) {i : Nat} {e : OpEvent}
    (he : e ∈ eventsOf i ls) (hsend : e.op.isSend = true) :
    ∃ v a pre k, .spawn i v ∈ ls ∧ v.arrival = some a ∧
      Trace (d.serve a) pre (.op e.op k) ∧ ∀ e' ∈ pre, e' ∈ eventsOf i ls := by
  obtain ⟨pre, post, hls⟩ := List.append_of_mem (mem_eventsOf.mp he)
  subst hls
  obtain ⟨v, k, hspawn, htr⟩ := run_act h
  have htr : Trace (d.respond files v) (eventsOf i pre) (.op e.op k) := htr
  have hspawn' : .spawn i v ∈ pre ++ .act i e :: post := List.mem_append_left _ hspawn
  cases hv : v.arrival with
  | some a =>
    rw [d.respond_eq_serve hv files] at htr
    refine ⟨v, a, eventsOf i pre, k, hspawn', hv, htr, fun e' he' => ?_⟩
    rw [eventsOf_append]
    exact List.mem_append_left _ he'
  | none =>
    have hop := ((d.ops_respond_other hv files).rest htr).1
    rw [hop] at hsend
    cases hsend

/-- The first thing a request does is ask the per-connection limiter, and what it
sends comes after its consent. -/
theorem connPassed_of_send (h : d.PublicRun files t ls c) {i : Nat} {e : OpEvent}
    (he : e ∈ eventsOf i ls) (hsend : e.op.isSend = true) :
    1 ≤ (eventsOf i ls).countP connPassed := by
  obtain ⟨v, a, pre, k, -, -, htr, hpre⟩ := served_of_send h he hsend
  generalize hrest : Prog.op e.op k = rest at htr
  unfold Daemon.serve at htr
  cases htr with
  | nil =>
    injection hrest with hop
    rw [hop] at hsend
    cases hsend
  | @cons _ _ ok tr _ htr =>
    cases ok with
    | false =>
      rw [← hrest] at htr
      obtain ⟨-, hpure⟩ := trace_pure htr
      cases hpure
    | true => exact List.countP_pos_iff.mpr ⟨_, hpre _ List.mem_cons_self, rfl⟩

/-- What goes to the relay has passed the write budget. -/
theorem writePassed_of_post (h : d.PublicRun files t ls c) {i : Nat} {e : OpEvent}
    (he : e ∈ eventsOf i ls) (hpost : e.op.toRelay = true) :
    1 ≤ (eventsOf i ls).countP writePassed := by
  have hsend := Op.isSend_of_toRelay hpost
  obtain ⟨v, a, pre, k, -, -, htr, hpre⟩ := served_of_send h he hsend
  by_cases hmethod : a.request.method ∈ writeMethods
  · have hpassed := ((sat_serve d hmethod).rest htr).1 hsend
    exact List.countP_pos_iff.mpr ⟨_, hpre _ (mem_of_notePass hpassed), rfl⟩
  · have hop : e.op.isRelayOp = false := ((d.ops_serve_noRelay hmethod).rest htr).1
    rw [Op.isRelayOp_of_toRelay hpost] at hop
    cases hop

end Run

-- ---------------------------------------------------------------------------
-- The whole run
-- ---------------------------------------------------------------------------

/-- What a run costs the upstreams. -/
structure UpstreamBudget (d : Daemon) {files : StaticFiles}
    (ls : List (d.publicSystem files).Label) : Prop where
  /-- a request calls Geth once at most -/
  geth : ∀ i, (eventsOf i ls).countP (fun e => e.op.toGeth) ≤ 1
  /-- and posts to the relay as often as it may try -/
  relay : ∀ i, (eventsOf i ls).countP (fun e => e.op.toRelay) ≤ d.maxPosts
  /-- the same body under the same signature -/
  repeated : ∀ i body signature body' signature',
    .act i ⟨.sendToRelay body signature, ()⟩ ∈ ls →
    .act i ⟨.sendToRelay body' signature', ()⟩ ∈ ls → body = body' ∧ signature = signature'
  /-- on the wire, each of these calls is one request and one for each redirect followed -/
  wire : ∀ i (r : Redirects), (r.wire [] [] (eventsOf i ls)).length ≤
    (r.follows + 1) * (1 + d.maxPosts)
  /-- all the calls of Geth are covered by passes of the per-connection limiter -/
  gethTotal : ls.countP (Label.performs fun e => e.op.toGeth) ≤
    ls.countP (Label.performs connPassed)
  /-- all the POSTs by passes of the write budget -/
  relayTotal : ls.countP (Label.performs fun e => e.op.toRelay) ≤
    d.maxPosts * ls.countP (Label.performs writePassed)

/-- A count that is no more than `n` and needs a pass is covered by the passes. -/
theorem countP_le_mul {tr : List OpEvent} {counted paid : OpEvent → Bool} {n : Nat}
    (hle : tr.countP counted ≤ n)
    (hpaid : ∀ e ∈ tr, counted e = true → 1 ≤ tr.countP paid) :
    tr.countP counted ≤ n * tr.countP paid := by
  by_cases hzero : tr.countP counted = 0
  · omega
  · obtain ⟨e, he, hcounted⟩ := List.countP_pos_iff.mp (Nat.pos_of_ne_zero hzero)
    calc tr.countP counted ≤ n * 1 := by omega
      _ ≤ n * tr.countP paid := Nat.mul_le_mul_left n (hpaid e he hcounted)

/-- Whatever the interleaving, and whoever is dropped where: no request costs the
upstreams more than one call of Geth and its attempts at the relay, and what the
run costs them is bounded by what the two limiters let through. -/
theorem upstream_budget (d : Daemon) (files : StaticFiles) (t : Nat)
    (ls : List (d.publicSystem files).Label) (c : (d.publicSystem files).Config)
    (h : d.PublicRun files t ls c) : UpstreamBudget d ls := by
  -- the events of a thread are a trace of its program, or there are none
  have hthread : ∀ i, eventsOf i ls = [] ∨
      ∃ v q, Trace (d.respond files v) (eventsOf i ls) q := by
    intro i
    have hknown := run_known h i
    by_cases hi : i < c.next
    · obtain ⟨v, q, -, htr, -⟩ := hknown.born hi
      exact .inr ⟨v, q, htr⟩
    · exact .inl (hknown.unborn (by omega)).2
  have hgeth : ∀ i, (eventsOf i ls).countP (fun e => e.op.toGeth) ≤ 1 := by
    intro i
    rcases hthread i with hnil | ⟨v, q, htr⟩
    · rw [hnil]
      exact Nat.zero_le 1
    · exact (d.atMost_respond files v).1.countP_le htr
  have hrelay : ∀ i, (eventsOf i ls).countP (fun e => e.op.toRelay) ≤ d.maxPosts := by
    intro i
    rcases hthread i with hnil | ⟨v, q, htr⟩
    · rw [hnil]
      exact Nat.zero_le _
    · exact (d.atMost_respond files v).2.countP_le htr
  refine ⟨hgeth, hrelay, ?_, fun i r => ?_, ?_, ?_⟩
  · intro i body signature body' signature' hpost hpost'
    have hmem := mem_eventsOf.mpr hpost
    have hmem' := mem_eventsOf.mpr hpost'
    rcases hthread i with hnil | ⟨v, q, htr⟩
    · rw [hnil] at hmem
      cases hmem
    · cases hv : v.arrival with
      | none =>
        have hops := (d.ops_respond_other hv files).events htr _ hmem
        cases hops
      | some a =>
        rw [d.respond_eq_serve hv files] at htr
        have hlast := (lastPost_of_trace (d.sat_serve_post a) htr).2
        have hsame := (hlast body signature hmem).symm.trans (hlast body' signature' hmem')
        cases hsame
        exact ⟨rfl, rfl⟩
  · have hcalls := hgeth i
    have hposts := hrelay i
    rw [← length_sentToGeth] at hcalls
    rw [← length_sentToRelay] at hposts
    exact (r.length_wire_le [] [] _).trans
      (Nat.mul_le_mul_left _ (Nat.add_le_add hcalls hposts))
  · rw [← Nat.one_mul (ls.countP (System.Label.performs connPassed))]
    exact countP_le_of_each h fun i _ => countP_le_mul (hgeth i) fun e he hcounted =>
      connPassed_of_send h he (Op.isSend_of_toGeth hcounted)
  · exact countP_le_of_each h fun i _ =>
      countP_le_mul (hrelay i) fun e he hcounted => writePassed_of_post h he hcounted

/-- A daemon with a relay, whose clients send one bundle. -/
def bundleDaemon : Daemon :=
  { plainDaemon with externals := bundleExternals, mevClient := some bundleClient }

/-- The bundle, posted to the relay route. -/
def bundlePost : PublicRequest :=
  ⟨.post, Route.flashbots.path, .ok (bundleRequest plainBundle), none, 0⟩

/-- Its POST to the relay. -/
def bundleSent : OpEvent := ⟨.sendToRelay bundleText "0x01:0x02", ()⟩

/-- The error of a POST when the connection is refused. -/
def refusedPost : ProxyError := .upstreamError "Network error: connection refused"

/-- A connection that is refused is tried again. -/
theorem shouldRetry_refusedPost : RetryPolicy.shouldRetry refusedPost.display = true := by
  decide +kernel

/-- The connection is refused, and after a pause the bundle is posted again. -/
theorem performs_postedAgain (s : Shared) : ∃ range millis q, Performs exec
    (bundleClient.attempts bundleExternals bundleText 3 0 none) s
    ([bundleSent, ⟨.relayReply, .error "connection refused"⟩] ++
      ([⟨.genJitter range, 0⟩, ⟨.sleep millis, ()⟩] ++ [bundleSent])) q s := by
  obtain ⟨e, hretry, hfirst⟩ : ∃ e, RetryPolicy.shouldRetry e.display = true ∧
      Performs exec (bundleClient.sendBundleAttempt bundleExternals bundleText) s
        [bundleSent, ⟨.relayReply, .error "connection refused"⟩] (.pure (.error e)) s :=
    ⟨refusedPost, shouldRetry_refusedPost,
      .cons ⟨rfl, trivial⟩ (.cons ⟨rfl, trivial⟩ (.nil _ _))⟩
  obtain ⟨range, millis, hpause⟩ := bundleClient.performs_backoff rfl bundleExternals s
  obtain ⟨q, hsecond⟩ : ∃ q, Performs exec
      (bundleClient.attempts bundleExternals bundleText 2 1 (some e)) s
      ([⟨.genJitter range, 0⟩, ⟨.sleep millis, ()⟩] ++ [bundleSent]) q s := by
    rw [MevRelayClient.attempts]
    exact ⟨_, (hpause.bind _).append (.cons ⟨rfl, trivial⟩ (.nil _ _))⟩
  refine ⟨range, millis, q, ?_⟩
  rw [MevRelayClient.attempts]
  refine (hfirst.bind _).append ?_
  show Performs exec (if RetryPolicy.shouldRetry e.display = true then _ else _) s _ _ _
  rw [hretry, if_pos rfl]
  exact hsecond

/-- A bundle is posted twice, within the budget. -/
theorem upstream_budget_bundle : ∃ ls c, bundleDaemon.PublicRun (fun _ _ => 404) 0 ls c ∧
    2 ≤ (eventsOf 0 ls).countP (fun e => e.op.toRelay) ∧ UpstreamBudget bundleDaemon ls := by
  let files : StaticFiles := fun _ _ => 404
  let s := bundleDaemon.admitted 0 "unknown"
  let charged : Shared := { s with
    writeMethodLimiter := (s.writeMethodLimiter.checkRateLimit s.now "eth_sendBundle").2 }
  obtain ⟨range, millis, q, hattempts⟩ := performs_postedAgain charged
  have hbundle : Performs exec
      (bundleClient.sendBundle bundleExternals ⟨["0x02f8"], "0x10", none, none⟩) charged
      (⟨.canProceed .mevRelay, true⟩ :: _) q charged :=
    .cons (exec_canProceed_closed (c := .mevRelay) (n := 0) rfl) hattempts
  have hdispatch : Performs exec
      (bundleClient.dispatch bundleExternals (bundleRequest plainBundle)) charged _ _ charged :=
    hbundle.bind _
  have hperf : Performs exec (bundleDaemon.respond files bundlePost) (bundleDaemon.initial 0)
      (⟨.checkConnLimit "unknown", true⟩ :: ⟨.checkWriteLimit "eth_sendBundle", true⟩ :: _) _
      charged :=
    .cons (bundleDaemon.exec_first_conn 0 "unknown") (.cons rfl (hdispatch.bind _))
  have hjob : (bundleDaemon.publicSystem files).accepts (bundleDaemon.initial 0) bundlePost := rfl
  have hrun : bundleDaemon.PublicRun files 0 _ _ := System.run_alone hjob hperf
  refine ⟨_, _, hrun, ?_, upstream_budget bundleDaemon files 0 _ _ hrun⟩
  simp [eventsOf, Op.toRelay, bundleSent]

end Torpc
