import Torpc.Model.App

/-!
# Responses on their way back

Geth's response is decoded into a `JsonRpcResponse` and that is encoded again
for the wallet. The two `Option` fields of the decoded form cannot tell a null
member from an absent one, and `skip_serializing_if` then drops it. So a
response comes back as it was sent exactly when its `result` is not null and its
error carries no null `data`; `result: null` is what a node answers about a
pending transaction.
-/

namespace Torpc

open Effects Prog

/-- A JSON-RPC 2.0 error object. -/
def IsErrorObject (v : Value) : Prop :=
  ∃ ms n code message, v = .object ms ∧ ms.lookup "code" = some (.number n) ∧
    n.asI64 = some code ∧ ms.lookup "message" = some (.string message) ∧
    ∀ key, (ms.lookup key).isSome → key ∈ ["code", "message", "data"]

/-- A JSON-RPC 2.0 response object: its version and id, and either a result or
an error. -/
def IsResponseObject (R : Value) : Prop :=
  ∃ ms id, R = .object ms ∧ ms.lookup "jsonrpc" = some (.string "2.0") ∧
    ms.lookup "id" = some id ∧
    ((∃ v, ms.lookup "result" = some v ∧ ms.lookup "error" = none) ∨
      (ms.lookup "result" = none ∧ ∃ e, ms.lookup "error" = some e ∧ IsErrorObject e)) ∧
    ∀ key, (ms.lookup key).isSome → key ∈ ["jsonrpc", "result", "error", "id"]

/-- No member that the decoded form cannot represent. -/
def NoNullPayload (R : Value) : Prop :=
  R.get "result" ≠ some .null ∧ ∀ e, R.get "error" = some e → e.get "data" ≠ some .null

-- ---------------------------------------------------------------------------
-- Decoding and encoding again
-- ---------------------------------------------------------------------------

/-- An optional value is the same as itself. -/
theorem rel_same_refl (o : Option Value) : Option.Rel Value.Same o o := by
  cases o with
  | none => exact .none
  | some v => exact .some (.refl v)

theorem optionValue_eq {o : Option Value} (h : o ≠ some .null) : optionValue o = o := by
  cases o with
  | none => rfl
  | some v => exact optionValue_of_ne fun hv => h (congrArg some hv)

/-- An object and its copy whose member `name` went through an `Option<Value>`. -/
theorem same_copy_iff {ms ns : List (String × Value)} {name : String}
    (h : ∀ key, ns.lookup key =
      if key = name then optionValue (ms.lookup name) else ms.lookup key) :
    Value.Same (.object ns) (.object ms) ↔ ms.lookup name ≠ some .null := by
  constructor
  · intro hsame hnull
    have hkept : (ns.lookup name).isSome = (ms.lookup name).isSome := hsame.get_isSome name
    rw [h name, if_pos rfl, hnull] at hkept
    exact absurd hkept (by simp)
  · intro hne
    refine Value.Same.of_get fun key => ?_
    rw [h key, optionValue_eq hne]
    split
    · next hkey =>
      subst hkey
      exact rel_same_refl _
    · exact rel_same_refl _

/-- An object and its copy with another value for the member `name`. -/
theorem same_update_iff {ms ns : List (String × Value)} {name : String} {v w : Value}
    (hv : ms.lookup name = some v)
    (h : ∀ key, ns.lookup key = if key = name then some w else ms.lookup key) :
    Value.Same (.object ns) (.object ms) ↔ Value.Same w v := by
  have hw : ns.lookup name = some w := by rw [h name, if_pos rfl]
  constructor
  · intro hsame
    exact Value.Same.get hsame (show Value.get name _ = _ from hw) hv
  · intro hsame
    refine Value.Same.of_get fun key => ?_
    rw [h key]
    split
    · next hkey =>
      subst hkey
      rw [hv]
      exact .some hsame
    · exact rel_same_refl _

/-- An error object decodes, and encodes again to the same data unless its
`data` was null. -/
theorem errorObject_roundTrip {v : Value} (hv : IsErrorObject v) :
    ∃ e, JsonRpcError.ofValue v = some e ∧
      (Value.Same e.toValue v ↔ v.get "data" ≠ some .null) := by
  obtain ⟨ms, n, code, message, rfl, hcode, hi64, hmessage, honly⟩ := hv
  refine ⟨⟨code, message, optionValue (ms.lookup "data")⟩, ?_, same_copy_iff fun key => ?_⟩
  · simp only [JsonRpcError.ofValue, structFields, List.map_cons, List.map_nil, hcode, hmessage,
      hi64, Option.map_some]
  simp only [List.lookup_append, lookup_skipNone, lookup_cons_if, List.lookup_nil,
    Number.ofI64_asI64 hi64]
  by_cases h₁ : key = "code"
  · simp [h₁, hcode]
  by_cases h₂ : key = "message"
  · simp [h₂, hmessage]
  by_cases h₃ : key = "data"
  · simp [h₃]
  have hnone : ms.lookup key = none := by
    by_contra hsome
    have hkey := honly key (Option.isSome_iff_ne_none.mpr hsome)
    simp [h₁, h₂, h₃] at hkey
  simp [h₁, h₂, h₃, hnone]

/-- A response object is decoded, and encoded again as the same value just if no `null`
stands in its result or error. -/
theorem responseObject_roundTrip {R : Value} (hR : IsResponseObject R) :
    ∃ response, JsonRpcResponse.ofValue R = some response ∧
      (Value.Same response.toValue R ↔ NoNullPayload R) := by
  obtain ⟨ms, id, rfl, hversion, hid, hpayload, honly⟩ := hR
  have hother : ∀ key, key ≠ "jsonrpc" → key ≠ "result" → key ≠ "error" → key ≠ "id" →
      ms.lookup key = none := by
    intro key h₁ h₂ h₃ h₄
    by_contra hsome
    have hkey := honly key (Option.isSome_iff_ne_none.mpr hsome)
    simp [h₁, h₂, h₃, h₄] at hkey
  rcases hpayload with ⟨v, hresult, herror⟩ | ⟨hresult, e, herror, he⟩
  · -- a result: the copy differs from the original in that member at most
    refine ⟨⟨"2.0", optionValue (some v), none, optionValue (some id)⟩, ?_, ?_⟩
    · simp only [JsonRpcResponse.ofValue, structFields, List.map_cons, List.map_nil, hversion,
        hid, hresult, herror, optionField, Option.map_some]
    have hpayload : NoNullPayload (.object ms) ↔ ms.lookup "result" ≠ some .null := by
      refine ⟨fun h => h.1, fun h => ⟨h, fun e he => ?_⟩⟩
      rw [show ms.lookup "error" = some e from he] at herror
      cases herror
    rw [hpayload]
    refine same_copy_iff fun key => ?_
    simp only [List.lookup_append, lookup_skipNone, lookup_cons_if, List.lookup_nil,
      orNull_optionValue, Option.map_none, hresult]
    by_cases h₁ : key = "jsonrpc"
    · simp [h₁, hversion]
    by_cases h₂ : key = "result"
    · simp [h₂]
    by_cases h₃ : key = "error"
    · simp [h₃, herror]
    by_cases h₄ : key = "id"
    · simp [h₄, hid]
    simp [h₁, h₂, h₃, h₄, hother key h₁ h₂ h₃ h₄]
  · -- an error: the copy is as good as the copy of the error object
    obtain ⟨error, hdecode, hsame⟩ := errorObject_roundTrip he
    have hobject : optionField JsonRpcError.ofValue (some e) = some (some error) := by
      obtain ⟨es, -, -, -, rfl, -⟩ := he
      simp only [optionField, hdecode, Option.map_some]
    refine ⟨⟨"2.0", none, some error, optionValue (some id)⟩, ?_, ?_⟩
    · simp only [JsonRpcResponse.ofValue, structFields, List.map_cons, List.map_nil, hversion,
        hid, hresult, herror, hobject, optionValue_none, Option.map_some]
    have hpayload : NoNullPayload (.object ms) ↔ Value.Same error.toValue e := by
      rw [hsame]
      refine ⟨fun h => h.2 e herror, fun h => ⟨?_, fun e' he' => ?_⟩⟩
      · rw [show Value.get "result" (.object ms) = none from hresult]
        exact fun h => by cases h
      · rw [show Value.get "error" (.object ms) = some e from herror] at he'
        cases he'
        exact h
    rw [hpayload]
    refine same_update_iff herror fun key => ?_
    simp only [List.lookup_append, lookup_skipNone, lookup_cons_if, List.lookup_nil,
      orNull_optionValue, Option.map_some]
    by_cases h₁ : key = "jsonrpc"
    · simp [h₁, hversion]
    by_cases h₂ : key = "result"
    · simp [h₂, hresult]
    by_cases h₃ : key = "error"
    · simp [h₃]
    by_cases h₄ : key = "id"
    · simp [h₄, hid]
    simp [h₁, h₂, h₃, h₄, hother key h₁ h₂ h₃ h₄]

-- ---------------------------------------------------------------------------
-- What the handlers send back
-- ---------------------------------------------------------------------------

/-- Whatever Geth answers in an exchange decides alone how the exchange ends. -/
theorem exchange_body {x : Externals} {request : JsonRpcRequest} {tr : List OpEvent}
    {result : ProxyResult JsonRpcResponse} (h : Exchange x request tr result) {R : Value}
    (hR : ⟨.gethJson, .ok R⟩ ∈ tr) : result = gethOutcome x R := by
  cases h with
  | circuitOpen => simp at hR
  | noReply e => simp at hR
  | errorStatus status text hs =>
    rcases List.mem_append.mp hR with hR | hR
    · simp at hR
    · split at hR <;> simp at hR
  | badBody status e hs => simp at hR
  | body status v hs =>
    have hv : R = v := by
      split at hR <;> simpa using hR
    rw [hv]

/-- The write budget is settled before the exchange: its events are no part of it. -/
theorem past_writeLimit {method : String} {f : Handler (ProxyResult JsonRpcResponse)}
    {tr : List OpEvent} {result : ProxyResult JsonRpcResponse} {R : Value}
    (h : Trace ((checkWriteMethodRateLimit method).andThen fun _ => f) tr (.pure result))
    (hR : ⟨.gethJson, .ok R⟩ ∈ tr) :
    ∃ tr', Trace f tr' (.pure result) ∧ ⟨.gethJson, .ok R⟩ ∈ tr' := by
  rcases checked_trace h with ⟨-, hrest⟩ | ⟨-, tr', rfl, hrest⟩ | ⟨-, rfl, -⟩
  · exact ⟨tr, hrest, hR⟩
  · exact ⟨tr', hrest, by simpa using hR⟩
  · simp at hR

/-- An answer of Geth that is read behind the gates is read by the handler that they guard.
-/
theorem gated_body {request : JsonRpcRequest} {forward : Handler (ProxyResult JsonRpcResponse)}
    {tr : List OpEvent} {result : ProxyResult JsonRpcResponse} {R : Value}
    (h : Trace (gated request forward) tr (.pure result)) (hR : ⟨.gethJson, .ok R⟩ ∈ tr) :
    ∃ tr', Trace forward tr' (.pure result) ∧ ⟨.gethJson, .ok R⟩ ∈ tr' := by
  rcases gated_trace h with ⟨-, hpassed⟩ | ⟨-, hcounters, -⟩
  · exact past_writeLimit hpassed hR
  · obtain ⟨counter, hop⟩ := hcounters _ hR
    cases hop

/-- Without a relay, too, Geth's answer decides how the request ends. -/
theorem handleFlashbots_body {x : Externals} {request : JsonRpcRequest} {tr : List OpEvent}
    {result : ProxyResult JsonRpcResponse} {R : Value}
    (h : Trace (handleFlashbots x request) tr (.pure result)) (hR : ⟨.gethJson, .ok R⟩ ∈ tr) :
    result = gethOutcome x R := by
  obtain ⟨tr', h', hR'⟩ := gated_body h hR
  split at h'
  · rcases proxyToFlashbots_trace h' with ⟨-, rfl, -⟩ | ⟨-, hexchange⟩
    · cases hR'
    · exact exchange_body hexchange hR'
  · exact exchange_body (proxyToGeth_exchange h') hR'

/-- The relay answers this request: the reply that Geth gives is about the block
number and is not passed on. -/
def RelayAnswers (d : Daemon) (route : Route) (request : JsonRpcRequest) : Prop :=
  (route = .flashbots ∨ route = .flashbotsSlash) ∧ d.mevClient.isSome ∧
    request.method = "eth_sendRawTransaction"

/-- A handler that has Geth's reply to its request answers with the decoded reply. -/
theorem handler_body {d : Daemon} {route : Route} {request : JsonRpcRequest} {tr : List OpEvent}
    {result : ProxyResult JsonRpcResponse} {R : Value}
    (h : Trace (d.handler route request) tr (.pure result)) (hR : ⟨.gethJson, .ok R⟩ ∈ tr)
    (hown : ¬ RelayAnswers d route request) : result = gethOutcome d.externals R := by
  have hrpc : ∀ tr, Trace (handleRpc d.externals request) tr (.pure result) →
      ⟨.gethJson, .ok R⟩ ∈ tr → result = gethOutcome d.externals R := by
    intro tr h hR
    obtain ⟨tr', h', hR'⟩ := gated_body h hR
    exact exchange_body (proxyToGeth_exchange h') hR'
  have hmev : (route = .flashbots ∨ route = .flashbotsSlash) → ∀ tr,
      Trace (handleFlashbotsWithMev d.externals d.mevClient request) tr (.pure result) →
      ⟨.gethJson, .ok R⟩ ∈ tr → result = gethOutcome d.externals R := by
    intro hroute tr h hR
    obtain ⟨tr', h', hR'⟩ := past_writeLimit h hR
    cases hclient : d.mevClient with
    | none =>
      rw [hclient] at h'
      exact handleFlashbots_body h' hR'
    | some client =>
      have hraw : request.method ≠ "eth_sendRawTransaction" :=
        fun hm => hown ⟨hroute, by rw [hclient]; rfl, hm⟩
      rw [hclient] at h'
      simp only [MevRelayClient.dispatch, if_neg hraw] at h'
      split at h'
      · -- a bundle goes to the relay alone
        have hops : (client.submitBundle d.externals request).Ops (· ≠ .gethJson) := by
          refine Ops.andThen ?_ fun _ => trivial
          refine (client.ops_handleSendBundle d.externals request).mono fun o ho => ?_
          rintro rfl
          exact absurd ho (by simp [Op.isRelayOp])
        exact absurd rfl (hops.events h' _ hR')
      · exact exchange_body (proxyToGeth_exchange h') hR'
  rcases d.handler_cases route with ⟨-, hhandler⟩ | ⟨hroute, hhandler⟩
  · rw [hhandler] at h
    exact hrpc tr h hR
  · rw [hhandler] at h
    exact hmev hroute tr h hR

/-- Geth's response object comes back from every handler as it was sent exactly
when no member of it is a null the decoded form cannot represent. -/
theorem response_transparent_iff {d : Daemon} {route : Route} {request : JsonRpcRequest}
    {tr : List OpEvent} {result : ProxyResult JsonRpcResponse} {R : Value}
    (hR : IsResponseObject R) (h : Trace (d.handler route request) tr (.pure result))
    (hbody : ⟨.gethJson, .ok R⟩ ∈ tr) (hown : ¬ RelayAnswers d route request) :
    (∃ response, intoResponse result = ⟨200, some response⟩ ∧ Value.Same response.toValue R) ↔
      NoNullPayload R := by
  obtain ⟨response, hdecode, hsame⟩ := responseObject_roundTrip hR
  have hresult : result = .ok response := by
    rw [handler_body h hbody hown]
    simp only [gethOutcome, hdecode]
  rw [← hsame, hresult]
  constructor
  · rintro ⟨response', hinto, hsame'⟩
    cases hinto
    exact hsame'
  · intro hsame'
    exact ⟨response, rfl, hsame'⟩

/-- A wallet asking for a receipt. -/
def receiptRequest : JsonRpcRequest := ⟨"2.0", "eth_getTransactionReceipt", none, some (.nat 1)⟩

/-- The receipt of a transaction, as it is asked for and answered. -/
theorem receipt_trace {R : Value} {response : JsonRpcResponse}
    (h : JsonRpcResponse.ofValue R = some response) :
    Trace (plainDaemon.handler .rpc receiptRequest)
      [⟨.canProceed .geth, true⟩, ⟨.sendToGeth receiptRequest, ()⟩, ⟨.gethReply, .ok 200⟩,
        ⟨.gethJson, .ok R⟩, ⟨.recordSuccess .geth, ()⟩] (.pure (.ok response)) := by
  have hread : Trace (readGethResponse plainDaemon.externals)
      [⟨.gethJson, .ok R⟩, ⟨.recordSuccess .geth, ()⟩] (.pure (.ok response)) := by
    unfold readGethResponse
    refine .cons ?_
    simp only [Prog.bind, h]
    exact .cons (.nil _)
  exact .cons (.cons (.cons hread))

/-- Geth's answer with this result. -/
def receiptReply (result : Value) : Value :=
  .object [("jsonrpc", .string "2.0"), ("result", result), ("id", .nat 1)]

/-- Geth's answer is a response object, whatever receipt is in it. -/
theorem receiptReply_isResponse (result : Value) : IsResponseObject (receiptReply result) := by
  refine ⟨_, .nat 1, rfl, rfl, rfl, .inl ⟨result, rfl, rfl⟩, fun key hkey => ?_⟩
  by_contra hnot
  simp only [List.mem_cons, List.not_mem_nil, or_false, not_or] at hnot
  simp only [lookup_cons_if, if_neg hnot.1, if_neg hnot.2.1, if_neg hnot.2.2.2,
    List.lookup_nil] at hkey
  exact absurd hkey (by simp)

/-- A result that is not null comes back. -/
theorem response_transparent_quantity : ∃ response : JsonRpcResponse,
    intoResponse (.ok ⟨"2.0", some (.string "0x1"), none, some (.nat 1)⟩) =
      ⟨200, some response⟩ ∧ Value.Same response.toValue (receiptReply (.string "0x1")) := by
  have htrace := receipt_trace (show JsonRpcResponse.ofValue (receiptReply (.string "0x1")) = _
    from rfl)
  refine (response_transparent_iff (receiptReply_isResponse (.string "0x1")) htrace (by simp)
    (fun h => ?_)).mpr ⟨?_, fun e he => ?_⟩
  · rcases h.1 with h | h <;> exact absurd h (by decide)
  · intro h
    have hget : (receiptReply (.string "0x1")).get "result" = some (.string "0x1") := rfl
    rw [hget] at h
    cases h
  · cases he

/-- The receipt of a pending transaction, `result: null`, comes back without a
`result`. -/
theorem null_result_dropped : ∃ (R : Value) (tr : List OpEvent) (response : JsonRpcResponse),
    IsResponseObject R ∧ R.get "result" = some .null ∧
    Trace (plainDaemon.handler .rpc receiptRequest) tr (.pure (.ok response)) ∧
    ⟨.gethJson, .ok R⟩ ∈ tr ∧ response.toValue.get "result" = none ∧
    ¬ Value.Same response.toValue R := by
  let response : JsonRpcResponse := ⟨"2.0", none, none, some (.nat 1)⟩
  have hdecode : JsonRpcResponse.ofValue (receiptReply .null) = some response := rfl
  refine ⟨receiptReply .null, _, response, receiptReply_isResponse .null, rfl,
    receipt_trace hdecode, by simp, rfl, fun hsame => ?_⟩
  have hkept : (response.toValue.get "result").isSome =
      ((receiptReply .null).get "result").isSome := hsame.get_isSome "result"
  exact absurd hkept (by decide)

end Torpc
