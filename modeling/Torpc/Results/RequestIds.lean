import Torpc.Results.RelayCircuit
import Torpc.Model.App

/-!
# The id in a response

A response that a handler builds itself, or takes from Geth, carries the id of
the request. An error carries none: `IntoResponse` has only the error at hand.
So a client that numbers its requests gets its number back if and only if the
upstream that the request is for has given an answer the daemon can use
(`id_correlated_iff`).
-/

namespace Torpc

open Effects Prog System

/-- Who answers a request that all goes well for. -/
inductive Answerer where
  | geth
  | relay
  | daemon
  deriving DecidableEq, Repr

def answerer (d : Daemon) (a : Arrival) : Answerer :=
  match a.route with
  | .rpc | .rpcSlash => .geth
  | .flashbots | .flashbotsSlash =>
    match d.mevClient with
    | some _ => if a.request.method ∈ writeMethods then .relay else .geth
    | none => if a.request.method = "eth_sendBundle" then .daemon else .geth

/-- Geth has sent a response object. -/
def GethAnswered (tr : List OpEvent) : Prop :=
  ∃ v, (⟨.gethJson, .ok v⟩ : OpEvent) ∈ tr ∧ (JsonRpcResponse.ofValue v).isSome

/-- The budget has refused the request. -/
def Refused (tr : List OpEvent) : Prop :=
  ∃ method, (⟨.checkWriteLimit method, false⟩ : OpEvent) ∈ tr

/-- The answer that the request is for is there: Geth's response, the relay's
acceptance, or the daemon's own word on a bundle that has passed the gates and
the budget. -/
def Fulfilled (d : Daemon) (a : Arrival) (tr : List OpEvent) : Prop :=
  match answerer d a with
  | .geth => GethAnswered tr
  | .relay => (RelayCall.after tr).accepted d.externals = true
  | .daemon => a.request.passesGates = true ∧ ¬ Refused tr

/-- Geth answers under the id that it was sent. -/
def EchoesIds (tr : List OpEvent) : Prop :=
  ∀ pre request mid v post response,
    tr = pre ++ ⟨.sendToGeth request, ()⟩ :: mid ++ ⟨.gethJson, .ok v⟩ :: post →
    (∀ e ∈ mid, ∀ r, e.op ≠ .sendToGeth r) → JsonRpcResponse.ofValue v = some response →
    response.id = optionValue request.id

-- ---------------------------------------------------------------------------
-- Ids that have been decoded
-- ---------------------------------------------------------------------------

theorem optionValue_idem (o : Option Value) : optionValue (optionValue o) = optionValue o := by
  cases o with
  | none => rfl
  | some v => cases v <;> rfl

/-- A decoded request has no null for an id. -/
theorem JsonRpcRequest.optionValue_id {body : Value} {request : JsonRpcRequest}
    (h : JsonRpcRequest.ofValue body = some request) : optionValue request.id = request.id := by
  unfold JsonRpcRequest.ofValue at h
  split at h
  · obtain rfl := Option.some.inj h
    exact optionValue_idem _
  · cases h

-- ---------------------------------------------------------------------------
-- Parts of a history
-- ---------------------------------------------------------------------------

/-- If Geth echoes the ids throughout a trace, it does so in each part of it. -/
theorem EchoesIds.within {tr tr' : List OpEvent} (h : EchoesIds tr) (hsub : tr' <:+: tr) :
    EchoesIds tr' := by
  obtain ⟨front, back, rfl⟩ := hsub
  rintro pre request mid v post response rfl hmid hv
  exact h (front ++ pre) request mid v (post ++ back) response (by simp) hmid hv

theorem gethAnswered_cons {e : OpEvent} {tr : List OpEvent} (he : e.op ≠ .gethJson) :
    GethAnswered (e :: tr) ↔ GethAnswered tr := by
  constructor
  · rintro ⟨v, hmem, hv⟩
    rcases List.mem_cons.mp hmem with rfl | hmem
    · exact absurd rfl he
    · exact ⟨v, hmem, hv⟩
  · rintro ⟨v, hmem, hv⟩
    exact ⟨v, List.mem_cons_of_mem _ hmem, hv⟩

theorem refused_cons {e : OpEvent} {tr : List OpEvent}
    (he : ∀ method, e ≠ ⟨.checkWriteLimit method, false⟩) : Refused (e :: tr) ↔ Refused tr := by
  constructor
  · rintro ⟨method, hmem⟩
    rcases List.mem_cons.mp hmem with rfl | hmem
    · exact absurd rfl (he method)
    · exact ⟨method, hmem⟩
  · rintro ⟨method, hmem⟩
    exact ⟨method, List.mem_cons_of_mem _ hmem⟩

/-- Events before the relay is asked do not show in its replies. -/
theorem relayCall_after_append {tr : List OpEvent} (h : ∀ e ∈ tr, ∀ r, RelayCall.observe r e = r)
    (tr' : List OpEvent) : RelayCall.after (tr ++ tr') = RelayCall.after tr' := by
  have hfold : ∀ r, tr.foldl RelayCall.observe r = r := by
    induction tr with
    | nil => exact fun _ => rfl
    | cons e tr ih =>
      intro r
      rw [List.foldl_cons, h e List.mem_cons_self]
      exact ih (fun e' he' => h e' (List.mem_cons_of_mem _ he')) r
  rw [RelayCall.after, List.foldl_append, hfold, RelayCall.after]

-- ---------------------------------------------------------------------------
-- What the upstreams answer
-- ---------------------------------------------------------------------------

/-- The exchange with Geth ends in Geth's response, under the id it was sent, or
in an error. -/
theorem Exchange.answered {x : Externals} {request : JsonRpcRequest} {tr : List OpEvent}
    {result : ProxyResult JsonRpcResponse} (h : Exchange x request tr result)
    (hecho : EchoesIds tr) :
    (GethAnswered tr ∧ ∃ response, result = .ok response ∧
      response.id = optionValue request.id) ∨
    (¬ GethAnswered tr ∧ ∃ e, result = .error e) := by
  cases h with
  | circuitOpen =>
    refine .inr ⟨?_, _, rfl⟩
    rintro ⟨v, hmem, -⟩
    simp at hmem
  | noReply e =>
    refine .inr ⟨?_, _, rfl⟩
    rintro ⟨v, hmem, -⟩
    simp at hmem
  | errorStatus status text hs =>
    refine .inr ⟨?_, _, rfl⟩
    rintro ⟨v, hmem, -⟩
    split at hmem <;> simp at hmem
  | badBody status e hs =>
    refine .inr ⟨?_, _, rfl⟩
    rintro ⟨v, hmem, -⟩
    simp at hmem
  | body status v hs =>
    cases hv : JsonRpcResponse.ofValue v with
    | none =>
      refine .inr ⟨?_, _, by rw [gethOutcome, hv]⟩
      rintro ⟨v', hmem, hv'⟩
      obtain rfl : v' = v := by
        simp only [Option.isSome_none, Bool.false_eq_true, if_false] at hmem
        simpa using hmem
      rw [hv] at hv'
      cases hv'
    | some response =>
      refine .inl ⟨⟨v, by simp, by rw [hv]; rfl⟩, response, by rw [gethOutcome, hv], ?_⟩
      exact hecho [⟨.canProceed .geth, true⟩] request [⟨.gethReply, .ok status⟩] v _ response rfl
        (fun e he => by
          obtain rfl := List.mem_singleton.mp he
          exact nofun) hv

section Relay

variable {client : MevRelayClient} {x : Externals}

/-- Posting a transaction gives the relay's breaker the outcome that the call has had. -/
theorem givesVerdict_handleSendRawTransaction (request : JsonRpcRequest) (currentBlock : UInt64) :
    GivesVerdict x (client.handleSendRawTransaction x request currentBlock) .start := by
  unfold GivesVerdict MevRelayClient.handleSendRawTransaction
  split
  · rfl
  · split
    · exact ⟨recordsVerdict_of_ne nofun nofun, fun never => nomatch never⟩
    · exact sat_sendBundle client _

/-- So does posting a bundle. -/
theorem givesVerdict_handleSendBundle (request : JsonRpcRequest) :
    GivesVerdict x (client.handleSendBundle x request) .start := by
  unfold GivesVerdict MevRelayClient.handleSendBundle
  split
  · rfl
  · split
    · rfl
    · exact sat_sendBundle client _

/-- The outcome that a completed call has recorded is the one that its result tells. -/
theorem GivesVerdict.result {p : Handler (ProxyResult String)} (h : GivesVerdict x p .start)
    {tr : List OpEvent} {result : ProxyResult String} (htr : Trace p tr (.pure result)) :
    (RelayCall.after tr).accepted x = result.isOk :=
  h.rest htr

end Relay

-- ---------------------------------------------------------------------------
-- What the handlers answer
-- ---------------------------------------------------------------------------

/-- If the answer is there, it is given under the request's id; else there is an error. -/
def Answers (request : JsonRpcRequest) (there : Prop) (result : ProxyResult JsonRpcResponse) :
    Prop :=
  (there ∧ ∃ response, result = .ok response ∧ response.id = request.id) ∨
    (¬ there ∧ ∃ e, result = .error e)

section Handlers

variable {x : Externals} {request : JsonRpcRequest} {tr : List OpEvent}
  {result : ProxyResult JsonRpcResponse}

/-- Whether the request has been answered depends on the answer's presence and not on how it
is told. -/
theorem Answers.congr {there there' : Prop} (h : Answers request there result)
    (hiff : there ↔ there') : Answers request there' result := by
  unfold Answers at h ⊢
  rw [← hiff]
  exact h

/-- A trace that reads no reply of Geth has no answer of Geth. -/
theorem not_gethAnswered_of_ops (h : ∀ e ∈ tr, e.op ≠ .gethJson) : ¬ GethAnswered tr := by
  rintro ⟨v, hmem, -⟩
  exact h _ hmem rfl

/-- An exchange with Geth answers the request, with its own id, just if Geth has answered;
Geth is assumed to echo the id that it is sent. -/
theorem answers_exchange (hid : optionValue request.id = request.id)
    (h : Exchange x request tr result) (hecho : EchoesIds tr) :
    Answers request (GethAnswered tr) result := by
  rcases h.answered hecho with ⟨hthere, response, hr, hresponse⟩ | hnot
  · exact .inl ⟨hthere, response, hr, hresponse.trans hid⟩
  · exact .inr hnot

/-- The events of a write that the budget refuses. -/
def refusal (method : String) : List OpEvent :=
  [⟨.checkWriteLimit method, false⟩, ⟨.increment .rateLimitHits, ()⟩]

/-- Behind the budget a handler answers as before it. -/
theorem answers_checked {P : List OpEvent → Prop} {f : Handler (ProxyResult JsonRpcResponse)}
    {method : String}
    (hf : ∀ tr, Trace f tr (.pure result) → EchoesIds tr → Answers request (P tr) result)
    (hpassed : ∀ tr, P (⟨.checkWriteLimit method, true⟩ :: tr) ↔ P tr)
    (hrefused : ¬ P (refusal method))
    (h : Trace ((checkWriteMethodRateLimit method).andThen fun _ => f) tr (.pure result))
    (hecho : EchoesIds tr) : Answers request (P tr) result := by
  rcases checked_trace h with ⟨-, hrest⟩ | ⟨-, tr', rfl, hrest⟩ | ⟨-, rfl, rfl⟩
  · exact hf tr hrest hecho
  · have hbehind := hf tr' hrest (hecho.within (List.infix_cons (List.infix_refl _)))
    exact hbehind.congr (hpassed tr').symm
  · exact .inr ⟨hrefused, _, rfl⟩

/-- A request that the write limiter refuses has no answer of Geth. -/
theorem not_gethAnswered_refusal (method : String) : ¬ GethAnswered (refusal method) := by
  refine not_gethAnswered_of_ops fun e he => ?_
  rcases List.mem_cons.mp he with rfl | he
  · exact nofun
  · obtain rfl := List.mem_singleton.mp he
    exact nofun

/-- Behind the allow-list and the write limiter the same holds as without them, since a
refusal is no answer. -/
theorem answers_gated {forward : Handler (ProxyResult JsonRpcResponse)}
    (hf : ∀ tr, Trace forward tr (.pure result) → EchoesIds tr →
      Answers request (GethAnswered tr) result)
    (h : Trace (gated request forward) tr (.pure result)) (hecho : EchoesIds tr) :
    Answers request (GethAnswered tr) result := by
  rcases gated_trace h with ⟨-, hpassed⟩ | ⟨-, hcounters, hr⟩
  · exact answers_checked hf (fun _ => gethAnswered_cons nofun) (not_gethAnswered_refusal _)
      hpassed hecho
  · refine .inr ⟨not_gethAnswered_of_ops fun e he => ?_, hr⟩
    obtain ⟨counter, hop⟩ := hcounters e he
    rw [hop]
    exact nofun

/-- Without a relay, everything but a bundle is answered by Geth. -/
theorem answers_handleFlashbots (hid : optionValue request.id = request.id)
    (hmethod : request.method ≠ "eth_sendBundle")
    (h : Trace (handleFlashbots x request) tr (.pure result)) (hecho : EchoesIds tr) :
    Answers request (GethAnswered tr) result := by
  refine answers_gated (fun tr hforward hecho => ?_) h hecho
  split at hforward
  · rcases proxyToFlashbots_trace hforward with ⟨hbundle, -⟩ | ⟨-, hexchange⟩
    · exact absurd hbundle hmethod
    · exact answers_exchange hid hexchange hecho
  · exact answers_exchange hid (proxyToGeth_exchange hforward) hecho

/-- And a bundle by the daemon, once it has got that far. -/
theorem answers_bundle (hmethod : request.method = "eth_sendBundle")
    (h : Trace (handleFlashbots x request) tr (.pure result)) (hecho : EchoesIds tr) :
    Answers request (request.passesGates = true ∧ ¬ Refused tr) result := by
  rcases gated_trace h with ⟨hgates, hpassed⟩ | ⟨hgates, -, hr⟩
  · refine answers_checked (P := fun tr => request.passesGates = true ∧ ¬ Refused tr)
      (fun tr hforward _ => ?_) (fun tr => ?_) ?_ hpassed hecho
    · rw [if_pos (.inr hmethod)] at hforward
      rcases proxyToFlashbots_trace hforward with ⟨-, rfl, hr⟩ | ⟨hother, -⟩
      · refine .inl ⟨⟨hgates, ?_⟩, hr⟩
        rintro ⟨method, hmem⟩
        cases hmem
      · exact absurd hmethod hother
    · have hpassed : Refused (⟨.checkWriteLimit request.method, true⟩ :: tr) ↔ Refused tr :=
        refused_cons fun _ => nofun
      rw [hpassed]
    · exact fun hthere => hthere.2 ⟨_, List.mem_cons_self⟩
  · refine .inr ⟨fun hthere => ?_, hr⟩
    rw [hgates] at hthere
    exact Bool.false_ne_true hthere.1

/-- The relay has no part in an exchange with Geth. -/
theorem Exchange.observe (h : Exchange x request tr result) :
    ∀ e ∈ tr, ∀ r, RelayCall.observe r e = r := by
  intro e he r
  cases h with
  | circuitOpen =>
    obtain rfl := List.mem_singleton.mp he
    rfl
  | noReply e' =>
    simp only [List.mem_cons, List.not_mem_nil, or_false] at he
    rcases he with rfl | rfl | rfl | rfl <;> rfl
  | errorStatus status text hs =>
    simp only [List.mem_append, List.mem_cons, List.not_mem_nil, or_false] at he
    rcases he with (rfl | rfl | rfl | rfl) | he
    all_goals first | rfl | skip
    split at he
    · obtain rfl := List.mem_singleton.mp he
      rfl
    · cases he
  | badBody status e' hs =>
    simp only [List.mem_cons, List.not_mem_nil, or_false] at he
    rcases he with rfl | rfl | rfl | rfl | rfl <;> rfl
  | body status v hs =>
    simp only [List.mem_cons, List.not_mem_nil, or_false] at he
    rcases he with rfl | rfl | rfl | rfl | rfl
    all_goals first | rfl | skip
    split <;> rfl

/-- A bundle hash is sent on under the request's id. -/
theorem answers_submit {submit : Handler (ProxyResult String)} {wrap : String → Value}
    (hverdict : GivesVerdict x submit .start)
    (h : Trace (submit.andThen fun bundleHash =>
      return .ok ⟨"2.0", some (wrap bundleHash), none, request.id⟩) tr (.pure result)) :
    Answers request ((RelayCall.after tr).accepted x = true) result := by
  rcases h.of_andThen with ⟨bundleHash, tr₁, tr₂, rfl, hsubmit, hrest⟩ | ⟨e, rfl, hsubmit⟩
  · obtain ⟨rfl, hr⟩ := trace_pure hrest
    rw [List.append_nil]
    exact .inl ⟨hverdict.result hsubmit, _, Prog.pure.inj hr, rfl⟩
  · refine .inr ⟨?_, e, rfl⟩
    rw [hverdict.result hsubmit]
    exact Bool.false_ne_true

/-- With a relay, it answers the writes. -/
theorem answers_dispatch_write {client : MevRelayClient} (hwrite : request.method ∈ writeMethods)
    (h : Trace (client.dispatch x request) tr (.pure result)) :
    Answers request ((RelayCall.after tr).accepted x = true) result := by
  unfold MevRelayClient.dispatch at h
  split at h
  · -- Geth is asked for the block first
    rcases h.of_andThen with ⟨blockResp, tr₁, tr₂, rfl, hask, hrest⟩ | ⟨e, rfl, hask⟩
    · rw [relayCall_after_append (proxyToGeth_exchange hask).observe]
      cases hblock : currentBlockOf blockResp with
      | error e =>
        rw [hblock] at hrest
        obtain ⟨rfl, hr⟩ := trace_pure hrest
        exact .inr ⟨Bool.false_ne_true, e, Prog.pure.inj hr⟩
      | ok currentBlock =>
        rw [hblock] at hrest
        exact answers_submit (givesVerdict_handleSendRawTransaction request currentBlock) hrest
    · refine .inr ⟨?_, e, rfl⟩
      rw [← List.append_nil tr, relayCall_after_append (proxyToGeth_exchange hask).observe]
      exact Bool.false_ne_true
  · split at h
    · exact answers_submit (givesVerdict_handleSendBundle request) h
    · next hraw hbundle =>
      simp only [writeMethods, List.mem_cons, List.not_mem_nil, or_false] at hwrite
      exact absurd hwrite (not_or.mpr ⟨hraw, hbundle⟩)

/-- A read that comes through the relay's client is answered as one that goes to Geth at
once. -/
theorem answers_dispatch_read {client : MevRelayClient} (hid : optionValue request.id = request.id)
    (hread : request.method ∉ writeMethods)
    (h : Trace (client.dispatch x request) tr (.pure result)) (hecho : EchoesIds tr) :
    Answers request (GethAnswered tr) result := by
  have hraw : request.method ≠ "eth_sendRawTransaction" := fun hmethod =>
    hread (by rw [hmethod]; decide)
  have hbundle : request.method ≠ "eth_sendBundle" := fun hmethod =>
    hread (by rw [hmethod]; decide)
  unfold MevRelayClient.dispatch at h
  rw [if_neg hraw, if_neg hbundle] at h
  exact answers_exchange hid (proxyToGeth_exchange h) hecho

/-- An event that neither answers the request nor refuses it leaves open whether it is
fulfilled. -/
theorem fulfilled_cons {d : Daemon} {a : Arrival} {e : OpEvent} (hgeth : e.op ≠ .gethJson)
    (hrelay : ∀ r, RelayCall.observe r e = r)
    (hbudget : ∀ method, e ≠ ⟨.checkWriteLimit method, false⟩) :
    Fulfilled d a (e :: tr) ↔ Fulfilled d a tr := by
  unfold Fulfilled
  split
  · exact gethAnswered_cons hgeth
  · have hfirst : ∀ e' ∈ [e], ∀ r, RelayCall.observe r e' = r := by
      intro e' he'
      obtain rfl := List.mem_singleton.mp he'
      exact hrelay
    have hafter : RelayCall.after (e :: tr) = RelayCall.after tr :=
      relayCall_after_append hfirst tr
    rw [hafter]
  · rw [refused_cons hbudget]

/-- What the write limiter refuses is not fulfilled. -/
theorem not_fulfilled_refusal {d : Daemon} {a : Arrival} (method : String) :
    ¬ Fulfilled d a (refusal method) := by
  unfold Fulfilled
  split
  · exact not_gethAnswered_refusal method
  · exact Bool.false_ne_true
  · exact fun hthere => hthere.2 ⟨method, List.mem_cons_self⟩

/-- A route answers under the request's id if and only if its answerer has answered. -/
theorem handler_answers {d : Daemon} {a : Arrival}
    (hid : optionValue a.request.id = a.request.id)
    (h : Trace (d.handler a.route a.request) tr (.pure result)) (hecho : EchoesIds tr) :
    Answers a.request (Fulfilled d a tr) result := by
  rcases d.handler_cases a.route with ⟨hroute, heq⟩ | ⟨hroute, heq⟩ <;> rw [heq] at h
  · have hwho : answerer d a = .geth := by
      rcases hroute with hroute | hroute <;> simp [answerer, hroute]
    unfold Fulfilled
    rw [hwho]
    exact answers_gated (fun tr hforward hecho =>
      answers_exchange hid (proxyToGeth_exchange hforward) hecho) h hecho
  · refine answers_checked (fun tr hrest hecho => ?_)
      (fun tr => fulfilled_cons nofun (fun _ => rfl) fun _ => nofun)
      (not_fulfilled_refusal _) h hecho
    unfold Fulfilled
    cases hclient : d.mevClient with
    | some client =>
      rw [hclient] at hrest
      by_cases hwrite : a.request.method ∈ writeMethods
      · have hwho : answerer d a = .relay := by
          rcases hroute with hroute | hroute <;> simp [answerer, hroute, hclient, hwrite]
        rw [hwho]
        exact answers_dispatch_write hwrite hrest
      · have hwho : answerer d a = .geth := by
          rcases hroute with hroute | hroute <;> simp [answerer, hroute, hclient, hwrite]
        rw [hwho]
        exact answers_dispatch_read hid hwrite hrest hecho
    | none =>
      rw [hclient] at hrest
      by_cases hbundle : a.request.method = "eth_sendBundle"
      · have hwho : answerer d a = .daemon := by
          rcases hroute with hroute | hroute <;> simp [answerer, hroute, hclient, hbundle]
        rw [hwho]
        exact answers_bundle hbundle hrest hecho
      · have hwho : answerer d a = .geth := by
          rcases hroute with hroute | hroute <;> simp [answerer, hroute, hclient, hbundle]
        rw [hwho]
        exact answers_handleFlashbots hid hbundle hrest hecho

end Handlers

/-- The body of an error carries no id. -/
theorem intoResponse_error_id {e : ProxyError} {r : JsonRpcResponse}
    (h : e.intoResponse.body = some r) : r.id = none := by
  obtain rfl := Option.some.inj h
  rfl

/-- **Ids come back.** The response to a request carries the request's id if and
only if the request has none, or the answer that it is for has been given. -/
theorem id_correlated_iff (d : Daemon) {t : Nat} {ls : List d.system.Label} {c : d.system.Config}
    (h : d.RunFrom t ls c) {i : Nat} {a : Arrival} {body : Value} {response : HttpResponse}
    {r : JsonRpcResponse} (ha : .spawn i a ∈ ls)
    (hbody : JsonRpcRequest.ofValue body = some a.request) (hecho : EchoesIds (eventsOf i ls))
    (hdone : .done i response ∈ ls) (hr : response.body = some r) :
    r.id = a.request.id ↔ a.request.id = none ∨ Fulfilled d a (eventsOf i ls) := by
  have htr : Trace (d.serve a) (eventsOf i ls) (.pure response) := done_trace h ha hdone
  rcases Daemon.serve_trace htr with ⟨tr, result, hevents, hhandler, rfl⟩ | ⟨-, rfl⟩
  · rw [hevents] at hecho ⊢
    have hconn : Fulfilled d a (⟨.checkConnLimit (getRequestIdentifier a.peer), true⟩ :: tr) ↔
        Fulfilled d a tr := fulfilled_cons nofun (fun _ => rfl) fun _ => nofun
    rw [hconn]
    have hecho' : EchoesIds tr := hecho.within (List.infix_cons (List.infix_refl _))
    rcases handler_answers (JsonRpcRequest.optionValue_id hbody) hhandler hecho' with
      ⟨hthere, response, rfl, hid⟩ | ⟨hnot, e, rfl⟩
    · obtain rfl := Option.some.inj hr
      exact ⟨fun _ => .inr hthere, fun _ => hid⟩
    · have hnone : r.id = none := intoResponse_error_id hr
      rw [hnone]
      exact ⟨fun heq => .inl heq.symm, fun hcond => (hcond.resolve_right hnot).symm⟩
  · cases hr

/-- What a wallet sends to learn the latest block. -/
def blockBody : Value :=
  .object [("jsonrpc", .string "2.0"), ("method", .string "eth_blockNumber"), ("id", .nat 1)]

def blockReply : Value :=
  .object [("jsonrpc", .string "2.0"), ("result", .string "0x10"), ("id", .nat 1)]

def blockResponse : JsonRpcResponse := ⟨"2.0", some (.string "0x10"), none, some (.nat 1)⟩

/-- The events of a request that Geth answers. -/
def blockEvents (request : JsonRpcRequest) : List OpEvent :=
  [⟨.checkConnLimit "unknown", true⟩, ⟨.canProceed .geth, true⟩, ⟨.sendToGeth request, ()⟩,
    ⟨.gethReply, .ok 200⟩, ⟨.gethJson, .ok blockReply⟩, ⟨.recordSuccess .geth, ()⟩]

/-- In the sample exchange Geth echoes the id. -/
theorem echoesIds_blockEvents {request : JsonRpcRequest} (hid : request.id = some (.nat 1)) :
    EchoesIds (blockEvents request) := by
  intro pre request' mid v post response htr hmid hv
  have hsent : (⟨.sendToGeth request', ()⟩ : OpEvent) ∈ blockEvents request := by
    rw [htr]
    simp
  have hread : (⟨.gethJson, .ok v⟩ : OpEvent) ∈ blockEvents request := by
    rw [htr]
    simp
  obtain rfl : request' = request := by simpa [blockEvents] using hsent
  obtain rfl : v = blockReply := by simpa [blockEvents] using hread
  obtain rfl : blockResponse = response := Option.some.inj hv
  rw [hid]
  rfl

/-- Geth's answer comes back with the request's id. -/
theorem id_correlated_block : ∃ ls c response r, plainDaemon.RunFrom 0 ls c ∧
    .spawn 0 ⟨.rpc, ⟨"2.0", "eth_blockNumber", none, some (.nat 1)⟩, none, 0⟩ ∈ ls ∧
    .done 0 response ∈ ls ∧ response.body = some r ∧ r.id = some (.nat 1) := by
  let request : JsonRpcRequest := ⟨"2.0", "eth_blockNumber", none, some (.nat 1)⟩
  let a : Arrival := ⟨.rpc, request, none, 0⟩
  have hperf : Performs exec (plainDaemon.serve a) (plainDaemon.initial 0) (blockEvents request)
      (.pure ⟨200, some blockResponse⟩) (plainDaemon.admitted 0 "unknown") :=
    .cons (plainDaemon.exec_first_conn 0 "unknown") (.cons rfl (.cons ⟨rfl, trivial⟩
      (.cons ⟨rfl, trivial⟩ (.cons ⟨rfl, trivial⟩ (.cons rfl (.nil _ _))))))
  obtain ⟨ls, c, hrun, hspawn, hdone, hevents⟩ := Daemon.run_alone_done rfl hperf
  have hecho : EchoesIds (eventsOf 0 ls) := hevents ▸ echoesIds_blockEvents rfl
  refine ⟨ls, c, _, blockResponse, hrun, hspawn, hdone, rfl, ?_⟩
  have hbody : JsonRpcRequest.ofValue blockBody = some a.request := rfl
  refine (id_correlated_iff plainDaemon hrun hspawn hbody hecho hdone rfl).mpr (.inr ?_)
  rw [hevents]
  exact ⟨blockReply, by simp [blockEvents], rfl⟩

/-- A client that numbers its requests, with one that is not allowed. -/
def addPeerBody : Value :=
  .object [("jsonrpc", .string "2.0"), ("method", .string "admin_addPeer"), ("id", .nat 1)]

/-- A method that is not allowed is refused with an error that leaves out the id, although
the request had one. -/
theorem refusal_without_id : ∃ a ls c response r, plainDaemon.RunFrom 0 ls c ∧
    .spawn 0 a ∈ ls ∧ JsonRpcRequest.ofValue addPeerBody = some a.request ∧
    a.request.id = some (.nat 1) ∧ EchoesIds (eventsOf 0 ls) ∧
    .done 0 response ∈ ls ∧ response.body = some r ∧ r.id = none := by
  let a : Arrival := ⟨.rpc, ⟨"2.0", "admin_addPeer", none, some (.nat 1)⟩, none, 0⟩
  let e : ProxyError := .methodNotAllowed "admin_addPeer"
  have hperf : Performs exec (plainDaemon.serve a) (plainDaemon.initial 0)
      [⟨.checkConnLimit "unknown", true⟩, ⟨.increment .invalidMethods, ()⟩,
        ⟨.increment .blockedRequests, ()⟩] (.pure e.intoResponse) _ :=
    .cons (plainDaemon.exec_first_conn 0 "unknown") (.cons rfl (.cons rfl (.nil _ _)))
  obtain ⟨ls, c, hrun, hspawn, hdone, hevents⟩ := Daemon.run_alone_done rfl hperf
  refine ⟨a, ls, c, _, e.toJsonRpcResponse none, hrun, hspawn, rfl, rfl, ?_, hdone, rfl, rfl⟩
  rw [hevents]
  intro pre request mid v post response htr
  have hread : (⟨.gethJson, .ok v⟩ : OpEvent) ∈ [⟨.checkConnLimit "unknown", true⟩,
      ⟨.increment .invalidMethods, ()⟩, ⟨.increment .blockedRequests, ()⟩] := by
    rw [htr]
    simp
  simp at hread

end Torpc
