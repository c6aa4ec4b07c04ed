import Torpc.Model.App

/-!
# Requests on their way to Geth

A wallet's request is decoded into a `JsonRpcRequest` and that is encoded again
for Geth. Both optional members become `Option` fields, and none of them has the
`skip_serializing_if` that the response type has: a member that the wallet left
out is sent as null. For `params` null is no value that JSON-RPC knows, and a
notification becomes a request that wants an answer. So a request arrives with
its own members exactly when it has both of them (`request_members_iff`).
-/

namespace Torpc

open Effects Prog System

/-- What `params` may be: an array or an object. -/
def IsStructured : Value → Prop
  | .array _ | .object _ => True
  | _ => False

/-- What an `id` may be: a string, a number or null. -/
def IsId : Value → Prop
  | .string _ | .number _ | .null => True
  | _ => False

/-- A JSON-RPC 2.0 request object, whatever other members it has. -/
def IsRequestObject (v : Value) : Prop :=
  ∃ ms method, v = .object ms ∧ ms.lookup "jsonrpc" = some (.string "2.0") ∧
    ms.lookup "method" = some (.string method) ∧
    (∀ params, ms.lookup "params" = some params → IsStructured params) ∧
    ∀ id, ms.lookup "id" = some id → IsId id

/-- The members of a request. -/
def requestMembers : List String := ["jsonrpc", "method", "params", "id"]

/-- Each of the four members is in both, with the same value, or in neither. -/
def SameMembers (sent v : Value) : Prop := ∀ key ∈ requestMembers, sent.get key = v.get key

-- ---------------------------------------------------------------------------
-- Decoding and encoding again
-- ---------------------------------------------------------------------------

/-- A request object is decoded, each member by its own rule, and a member that is missing
or `null` becomes one that is missing. -/
theorem requestObject_decodes {v : Value} (h : IsRequestObject v) :
    ∃ request, JsonRpcRequest.ofValue v = some request ∧
      v.get "jsonrpc" = some (.string request.jsonrpc) ∧
      v.get "method" = some (.string request.method) ∧
      request.params = optionValue (v.get "params") ∧ request.id = optionValue (v.get "id") := by
  obtain ⟨ms, method, rfl, hversion, hmethod, -, -⟩ := h
  refine ⟨⟨"2.0", method, optionValue (ms.lookup "params"), optionValue (ms.lookup "id")⟩, ?_,
    hversion, hmethod, rfl, rfl⟩
  simp only [JsonRpcRequest.ofValue, structFields, List.map_cons, List.map_nil, hversion, hmethod]

/-- An optional member comes out as it went in if and only if it was there. -/
theorem orNull_optionValue_iff (o : Option Value) :
    some (orNull (optionValue o)) = o ↔ o.isSome = true := by
  cases o with
  | none => simp
  | some v => simp [orNull_optionValue]

/-- Encoded again it has the members that it came with, just if neither `params` nor `id`
was missing. -/
theorem sameMembers_iff {v : Value} {request : JsonRpcRequest}
    (hversion : v.get "jsonrpc" = some (.string request.jsonrpc))
    (hmethod : v.get "method" = some (.string request.method))
    (hparams : request.params = optionValue (v.get "params"))
    (hid : request.id = optionValue (v.get "id")) :
    SameMembers request.toValue v ↔
      (v.get "params").isSome = true ∧ (v.get "id").isSome = true := by
  have hsent : ∀ key, request.toValue.get key =
      if key = "jsonrpc" then some (.string request.jsonrpc)
      else if key = "method" then some (.string request.method)
      else if key = "params" then some (orNull (optionValue (v.get "params")))
      else if key = "id" then some (orNull (optionValue (v.get "id"))) else none := by
    intro key
    rw [← hparams, ← hid]
    simp only [JsonRpcRequest.toValue, Value.get, lookup_cons_if, List.lookup_nil]
  rw [← orNull_optionValue_iff, ← orNull_optionValue_iff]
  constructor
  · intro h
    have hp := h "params" (by decide)
    have hi := h "id" (by decide)
    rw [hsent] at hp hi
    exact ⟨hp, hi⟩
  · rintro ⟨hp, hi⟩ key hkey
    rw [hsent]
    simp only [requestMembers, List.mem_cons, List.not_mem_nil, or_false] at hkey
    rcases hkey with rfl | rfl | rfl | rfl
    · exact hversion.symm
    · exact hmethod.symm
    · exact hp
    · exact hi

-- ---------------------------------------------------------------------------
-- What is put on the wire
-- ---------------------------------------------------------------------------

/-- On `/rpc` a request is sent on as it was decoded. -/
theorem handleRpc_sends (x : Externals) (request : JsonRpcRequest) :
    (handleRpc x request).Ops fun o => ∀ r, o = .sendToGeth r → r = request := by
  refine ops_gated (fun _ => nofun) (fun _ => nofun) fun _ => ops_proxyToGeth x request nofun ?_ ?_
  · rintro r ⟨⟩
    rfl
  · rintro o ho r rfl
    cases ho

/-- On `/rpc` the handler sends Geth the request that it has decoded, and no other. -/
theorem serve_sends {d : Daemon} {a : Arrival} (hroute : a.route = .rpc ∨ a.route = .rpcSlash) :
    (d.serve a).Ops fun o => ∀ r, o = .sendToGeth r → r = a.request := by
  refine ⟨nofun, fun ok => ?_⟩
  cases ok
  · trivial
  rcases d.handler_cases a.route with ⟨-, hhandler⟩ | ⟨hother, -⟩
  · have hsends := handleRpc_sends d.externals a.request
    rw [← hhandler] at hsends
    exact hsends.bind fun _ => trivial
  · rcases hroute with h | h <;> rw [h] at hother <;> rcases hother with h' | h' <;> cases h'

/-- **Members.** A request object on `/rpc` decodes, and in every run what is sent
to Geth for it has its members, and no others of the four, if and only if it has
both optional ones. -/
theorem request_members_iff {v : Value} (hv : IsRequestObject v) :
    ∃ request, JsonRpcRequest.ofValue v = some request ∧
      ∀ (d : Daemon) (t : Nat) (ls : List d.system.Label) (c : d.system.Config) (i : Nat)
        (a : Arrival) (r : JsonRpcRequest), d.RunFrom t ls c → .spawn i a ∈ ls →
        a.request = request → a.route = .rpc ∨ a.route = .rpcSlash →
        .act i ⟨.sendToGeth r, ()⟩ ∈ ls →
        (SameMembers r.toValue v ↔
          (v.get "params").isSome = true ∧ (v.get "id").isSome = true) := by
  obtain ⟨request, hdecode, hversion, hmethod, hparams, hid⟩ := requestObject_decodes hv
  refine ⟨request, hdecode, ?_⟩
  rintro d t ls c i a r hrun hspawn rfl hroute hsent
  obtain ⟨pre, post, rfl⟩ := List.append_of_mem hsent
  obtain ⟨a', k, hspawn', htr⟩ := run_act hrun
  obtain rfl := run_spawn_unique hrun (List.mem_append_left _ hspawn') hspawn
  have hr : r = a'.request := (((serve_sends hroute).rest htr).1) r rfl
  rw [hr]
  exact sameMembers_iff hversion hmethod hparams hid

/-- What happens to a request that Geth does not answer. -/
def sentEvents (request : JsonRpcRequest) : List OpEvent :=
  [⟨.checkConnLimit "unknown", true⟩, ⟨.canProceed .geth, true⟩, ⟨.sendToGeth request, ()⟩,
    ⟨.gethReply, .error "connection refused"⟩, ⟨.recordFailure .geth, ()⟩]

/-- A request whose handler runs so far is sent, in the run where it is alone. -/
theorem run_sent (request : JsonRpcRequest) {response : HttpResponse} {s : Shared}
    (hperf : Performs exec (plainDaemon.serve ⟨.rpc, request, none, 0⟩) (plainDaemon.initial 0)
      (sentEvents request) (.pure response) s) : ∃ ls c, plainDaemon.RunFrom 0 ls c ∧
      .spawn 0 ⟨.rpc, request, none, 0⟩ ∈ ls ∧ .act 0 ⟨.sendToGeth request, ()⟩ ∈ ls := by
  obtain ⟨ls, c, hrun, hspawn, -, hevents⟩ := Daemon.run_alone_done rfl hperf
  refine ⟨ls, c, hrun, hspawn, mem_eventsOf.mp ?_⟩
  rw [hevents]
  simp [sentEvents]

/-- A request with all four members. -/
def balanceBody : Value :=
  .object [("jsonrpc", .string "2.0"), ("method", .string "eth_getBalance"),
    ("params", .array [.string "0x01", .string "latest"]), ("id", .nat 7)]

def balanceRequest : JsonRpcRequest :=
  ⟨"2.0", "eth_getBalance", some (.array [.string "0x01", .string "latest"]), some (.nat 7)⟩

/-- The body of the example is a request object. -/
theorem isRequestObject_balanceBody : IsRequestObject balanceBody := by
  refine ⟨_, "eth_getBalance", rfl, rfl, rfl, ?_, ?_⟩
  · rintro params ⟨⟩
    trivial
  · rintro id ⟨⟩
    trivial

/-- A request with all four members is sent to Geth as it came. -/
theorem balance_members : ∃ (ls : List plainDaemon.system.Label) (c : plainDaemon.system.Config)
    (request : JsonRpcRequest), plainDaemon.RunFrom 0 ls c ∧
      JsonRpcRequest.ofValue balanceBody = some request ∧
      .act 0 ⟨.sendToGeth request, ()⟩ ∈ ls ∧ SameMembers request.toValue balanceBody := by
  obtain ⟨request, hdecode, hmembers⟩ := request_members_iff isRequestObject_balanceBody
  obtain rfl := Option.some.inj hdecode
  obtain ⟨ls, c, hrun, hspawn, hsent⟩ := run_sent balanceRequest
    (.cons (plainDaemon.exec_first_conn 0 "unknown") (.cons rfl (.cons ⟨rfl, trivial⟩
      (.cons ⟨rfl, trivial⟩ (.cons rfl (.nil _ _))))))
  exact ⟨ls, c, _, hrun, hdecode, hsent, (hmembers plainDaemon 0 ls c 0 _ _ hrun hspawn rfl
    (.inl rfl) hsent).mpr ⟨rfl, rfl⟩⟩

/-- A notification: no `id`, and here no `params` either. -/
def notificationBody : Value :=
  .object [("jsonrpc", .string "2.0"), ("method", .string "eth_blockNumber")]

/-- It is sent with a null for each. -/
theorem notification_gains_members : IsRequestObject notificationBody ∧
    ∃ (ls : List plainDaemon.system.Label) (c : plainDaemon.system.Config)
      (request : JsonRpcRequest), plainDaemon.RunFrom 0 ls c ∧
      JsonRpcRequest.ofValue notificationBody = some request ∧
      .spawn 0 ⟨.rpc, request, none, 0⟩ ∈ ls ∧ .act 0 ⟨.sendToGeth request, ()⟩ ∈ ls ∧
      request.toValue.get "params" = some .null ∧ request.toValue.get "id" = some .null ∧
      ¬ SameMembers request.toValue notificationBody := by
  refine ⟨⟨_, "eth_blockNumber", rfl, rfl, rfl, nofun, nofun⟩, ?_⟩
  let request : JsonRpcRequest := ⟨"2.0", "eth_blockNumber", none, none⟩
  obtain ⟨ls, c, hrun, hspawn, hsent⟩ := run_sent request
    (.cons (plainDaemon.exec_first_conn 0 "unknown") (.cons rfl (.cons ⟨rfl, trivial⟩
      (.cons ⟨rfl, trivial⟩ (.cons rfl (.nil _ _))))))
  refine ⟨ls, c, request, hrun, rfl, hspawn, hsent, rfl, rfl, fun hsame => ?_⟩
  have hid : some Value.null = none := hsame "id" (by decide)
  cases hid

end Torpc
