import Mathlib.Tactic.Ring
import Torpc.Lib.Redirect
import Torpc.Model.App

/-!
# What goes over the wire to the upstreams

A handler's operation `sendToGeth` or `sendToRelay` is one call of an HTTP
client. `ProxyState` and `MevRelayClient` build theirs with `Client::builder()`
and say nothing of redirects, so both follow them: a reply with status 307 or 308
and a `Location` has the client post the same body there, whoever is there. The
relay can send the daemon to Geth in this way.

`Redirects` says which redirects the calls of a request meet, and
`Redirects.atGeth` what Geth is sent in all. As far as the relay's redirects keep
away from Geth, that is what its own calls bring it (`Redirects.atGeth_eq`);
otherwise it is sent a request with the signature of a bundle
(`Redirects.signed_atGeth`).
-/

namespace Torpc

open Effects Http

/-- Who a request can come to. -/
inductive Host where
  | geth
  | relay
  | elsewhere
  deriving DecidableEq, Repr

/-- The body of a request to an upstream: a call that is written out as JSON, or
the text of a bundle. -/
inductive Payload where
  | call (request : JsonRpcRequest)
  | bundle (body : String)

/-- A request on the wire; the field that it keeps is `X-Flashbots-Signature`. -/
abbrev Sent := Message (Option String) Payload

/-- The request of `proxy_to_geth`. -/
def Sent.ofCall (request : JsonRpcRequest) : Sent := ⟨.post, none, some (.call request)⟩

/-- The request of `send_bundle_attempt`. -/
def Sent.ofBundle (body signature : String) : Sent :=
  ⟨.post, some signature, some (.bundle body)⟩

/-- The redirects that the calls of one request meet: those of the last call, by
all the calls of this upstream so far. They end where a reply is no redirect, or
where the request is dropped. -/
structure Redirects where
  /-- how many of them the client follows -/
  follows : Nat
  geth : List JsonRpcRequest → List (Hop Host)
  relay : List (String × String) → List (Hop Host)

/-- The calls of Geth among a handler's events. -/
def sentToGeth (tr : List OpEvent) : List JsonRpcRequest :=
  tr.filterMap fun e => match e.op with
    | .sendToGeth request => some request
    | _ => none

/-- The calls of the relay among a handler's events. -/
def sentToRelay (tr : List OpEvent) : List (String × String) :=
  tr.filterMap fun e => match e.op with
    | .sendToRelay body signature => some (body, signature)
    | _ => none

/-- The calls of Geth in events are those in their parts, in order. -/
theorem sentToGeth_append (tr tr' : List OpEvent) :
    sentToGeth (tr ++ tr') = sentToGeth tr ++ sentToGeth tr' :=
  List.filterMap_append

/-- Events without a call of Geth have none to list. -/
theorem sentToGeth_eq_nil {tr : List OpEvent} (h : ∀ e ∈ tr, ∀ r, e.op ≠ .sendToGeth r) :
    sentToGeth tr = [] := by
  refine List.filterMap_eq_nil_iff.mpr fun e he => ?_
  have hne := h e he
  split
  · next request hop => exact absurd hop (hne request)
  · rfl

/-- The same of the POSTs to the relay. -/
theorem mem_sentToRelay {tr : List OpEvent} {body signature : String} :
    (body, signature) ∈ sentToRelay tr ↔ (⟨.sendToRelay body signature, ()⟩ : OpEvent) ∈ tr := by
  rw [sentToRelay, List.mem_filterMap]
  constructor
  · rintro ⟨⟨o, r⟩, he, hsome⟩
    cases o with
    | sendToRelay body' signature' =>
      cases hsome
      exact he
    | _ => cases hsome
  · exact fun he => ⟨_, he, rfl⟩

/-- The POSTs in events are those in their parts, in order. -/
theorem sentToRelay_append (tr tr' : List OpEvent) :
    sentToRelay (tr ++ tr') = sentToRelay tr ++ sentToRelay tr' :=
  List.filterMap_append

/-- The requests that have come to Geth among those of some calls. -/
def toGeth (requests : List (Host × Sent)) : List Sent :=
  requests.filterMap fun request => if request.1 = .geth then some request.2 else none

/-- What reaches Geth of several calls is what reaches it of each. -/
theorem toGeth_append (requests requests' : List (Host × Sent)) :
    toGeth (requests ++ requests') = toGeth requests ++ toGeth requests' :=
  List.filterMap_append

/-- A request that has come to Geth is one of the client's requests, sent to that host. -/
theorem mem_toGeth {requests : List (Host × Sent)} {m : Sent} :
    m ∈ toGeth requests ↔ (Host.geth, m) ∈ requests := by
  simp only [toGeth, List.mem_filterMap]
  constructor
  · rintro ⟨⟨host, m'⟩, hmem, hsome⟩
    split at hsome
    · next hhost =>
      cases hsome
      obtain rfl : host = .geth := hhost
      exact hmem
    · cases hsome
  · exact fun h => ⟨_, h, if_pos rfl⟩

namespace Redirects

/-- The requests of a call of Geth, which is the last of these. -/
def ofCall (x : Redirects) (calls : List JsonRpcRequest) (request : JsonRpcRequest) :
    List (Host × Sent) :=
  chain x.follows .geth (Sent.ofCall request) (x.geth calls)

/-- The requests of a call of the relay, which is the last of these. -/
def ofPost (x : Redirects) (posts : List (String × String)) (body signature : String) :
    List (Host × Sent) :=
  chain x.follows .relay (Sent.ofBundle body signature) (x.relay posts)

/-- What the events of a handler put on the wire, after these calls. -/
def wire (x : Redirects) : List JsonRpcRequest → List (String × String) → List OpEvent →
    List (Host × Sent)
  | _, _, [] => []
  | calls, posts, e :: tr =>
    match e.op with
    | .sendToGeth request =>
      x.ofCall (calls ++ [request]) request ++ x.wire (calls ++ [request]) posts tr
    | .sendToRelay body signature =>
      x.ofPost (posts ++ [(body, signature)]) body signature ++
        x.wire calls (posts ++ [(body, signature)]) tr
    | _ => x.wire calls posts tr

/-- What Geth is sent by the events of a handler. -/
def atGeth (x : Redirects) (tr : List OpEvent) : List Sent := toGeth (x.wire [] [] tr)

/-- The last of these POSTs comes to Geth by way of the relay's redirects. -/
def LeadsToGeth (x : Redirects) (posts : List (String × String)) : Prop :=
  .geth ∈ visited x.follows .relay (x.relay posts)

/-- What these calls bring Geth, after those before. -/
def called (x : Redirects) : List JsonRpcRequest → List JsonRpcRequest → List Sent
  | _, [] => []
  | calls, request :: rest =>
    toGeth (x.ofCall (calls ++ [request]) request) ++ x.called (calls ++ [request]) rest

variable {x : Redirects}

/-- A POST that is led to Geth is there a request with the bundle's signature. -/
theorem exists_signed {posts : List (String × String)} {body signature : String}
    (h : x.LeadsToGeth posts) :
    ∃ m ∈ toGeth (x.ofPost posts body signature), m.fields = some signature := by
  have hvisited := h
  unfold LeadsToGeth at hvisited
  rw [← map_fst_chain x.follows Host.relay (Sent.ofBundle body signature)] at hvisited
  obtain ⟨⟨host, m⟩, hmem, rfl⟩ := List.mem_map.mp hvisited
  exact ⟨m, mem_toGeth.mpr hmem, (chain_carries hmem).1⟩

/-- A POST that keeps away from Geth brings it nothing. -/
theorem toGeth_ofPost {posts : List (String × String)} {body signature : String}
    (h : ¬ x.LeadsToGeth posts) : toGeth (x.ofPost posts body signature) = [] := by
  refine List.eq_nil_iff_forall_not_mem.mpr fun m hm => h ?_
  have hmem : (Host.geth, m) ∈ x.ofPost posts body signature := mem_toGeth.mp hm
  have hfirst := List.mem_map_of_mem (f := Prod.fst) hmem
  rw [ofPost, map_fst_chain] at hfirst
  exact hfirst

/-- What a call of Geth puts on the wire is the call itself, again and again, or
a GET without a body; it is never signed. -/
theorem ofCall_carries {calls : List JsonRpcRequest} {request : JsonRpcRequest} {m : Sent}
    (h : m ∈ toGeth (x.ofCall calls request)) :
    m.fields = none ∧ (m.body = some (.call request) ∨ m.body = none) :=
  chain_carries (mem_toGeth.mp h)

/-- As long as the relay leads nobody to Geth, what Geth is sent is what its own
calls bring it. -/
theorem toGeth_wire_eq {calls : List JsonRpcRequest} {posts : List (String × String)}
    {tr : List OpEvent}
    (h : ∀ p, p ≠ [] → p <+: sentToRelay tr → ¬ x.LeadsToGeth (posts ++ p)) :
    toGeth (x.wire calls posts tr) = x.called calls (sentToGeth tr) := by
  induction tr generalizing calls posts with
  | nil => rfl
  | cons e tr ih =>
    obtain ⟨o, r⟩ := e
    cases o with
    | sendToGeth request =>
      have hrest := @ih (calls ++ [request]) posts h
      show toGeth (x.ofCall _ request ++ x.wire _ posts tr) = toGeth (x.ofCall _ request) ++ _
      rw [toGeth_append, hrest]
      rfl
    | sendToRelay body signature =>
      have hspared : ¬ x.LeadsToGeth (posts ++ [(body, signature)]) :=
        h [(body, signature)] (List.cons_ne_nil _ _)
          (List.cons_prefix_cons.mpr ⟨rfl, List.nil_prefix⟩)
      have hrest := @ih calls (posts ++ [(body, signature)]) fun p hp hpre => by
        rw [List.append_assoc]
        exact h _ (List.cons_ne_nil _ _) (List.cons_prefix_cons.mpr ⟨rfl, hpre⟩)
      show toGeth (x.ofPost _ body signature ++ x.wire calls _ tr) = x.called calls (sentToGeth tr)
      rw [toGeth_append, toGeth_ofPost hspared, List.nil_append, hrest]
    | _ => exact ih h

/-- The same from the first call on. -/
theorem atGeth_eq {tr : List OpEvent}
    (h : ∀ p, p ≠ [] → p <+: sentToRelay tr → ¬ x.LeadsToGeth p) :
    x.atGeth tr = x.called [] (sentToGeth tr) :=
  toGeth_wire_eq fun p hp hpre => h p hp hpre

/-- Once the relay leads a POST to Geth, Geth is sent a request that is signed. -/
theorem signed_wire {calls : List JsonRpcRequest} {posts p : List (String × String)}
    {tr : List OpEvent} (hp : p ≠ []) (hpre : p <+: sentToRelay tr)
    (h : x.LeadsToGeth (posts ++ p)) :
    ∃ m ∈ toGeth (x.wire calls posts tr), m.fields ≠ none := by
  induction tr generalizing calls posts p with
  | nil => exact absurd (List.prefix_nil.mp hpre) hp
  | cons e tr ih =>
    obtain ⟨o, r⟩ := e
    cases o with
    | sendToGeth request =>
      obtain ⟨m, hm, hsigned⟩ := @ih (calls ++ [request]) posts p hp hpre h
      refine ⟨m, ?_, hsigned⟩
      show m ∈ toGeth (x.ofCall _ request ++ x.wire _ posts tr)
      rw [toGeth_append]
      exact List.mem_append_right _ hm
    | sendToRelay body signature =>
      show ∃ m ∈ toGeth (x.ofPost _ body signature ++ x.wire calls _ tr), m.fields ≠ none
      rw [toGeth_append]
      cases p with
      | nil => exact absurd rfl hp
      | cons first p =>
        obtain ⟨rfl, htail⟩ := List.cons_prefix_cons.mp hpre
        cases p with
        | nil =>
          obtain ⟨m, hm, hsigned⟩ := exists_signed h
          exact ⟨m, List.mem_append_left _ hm, by rw [hsigned]; exact Option.some_ne_none _⟩
        | cons second p =>
          rw [← List.singleton_append, ← List.append_assoc] at h
          obtain ⟨m, hm, hsigned⟩ :=
            @ih calls (posts ++ [(body, signature)]) _ (List.cons_ne_nil _ _) htail h
          exact ⟨m, List.mem_append_right _ hm, hsigned⟩
    | _ => exact ih hp hpre h

/-- The same from the first call on. -/
theorem signed_atGeth {p : List (String × String)} {tr : List OpEvent} (hp : p ≠ [])
    (hpre : p <+: sentToRelay tr) (h : x.LeadsToGeth p) :
    ∃ m ∈ x.atGeth tr, m.fields ≠ none :=
  signed_wire hp hpre (by rwa [List.nil_append])

/-- What calls bring Geth is unsigned, and carries one of them or nothing. -/
theorem called_carries {calls requests : List JsonRpcRequest} {m : Sent}
    (h : m ∈ x.called calls requests) :
    m.fields = none ∧ ((∃ r ∈ requests, m.body = some (.call r)) ∨ m.body = none) := by
  induction requests generalizing calls with
  | nil => cases h
  | cons request rest ih =>
    rcases List.mem_append.mp h with hfirst | hrest
    · obtain ⟨hfields, hbody⟩ := ofCall_carries hfirst
      exact ⟨hfields, hbody.imp (fun hcall => ⟨request, List.mem_cons_self, hcall⟩) id⟩
    · obtain ⟨hfields, hbody⟩ := ih hrest
      refine ⟨hfields, hbody.imp ?_ id⟩
      rintro ⟨r, hr, hcall⟩
      exact ⟨r, List.mem_cons_of_mem _ hr, hcall⟩

/-- On the wire, every call is itself and the redirects that are followed for it. -/
theorem length_wire_le (x : Redirects) (calls : List JsonRpcRequest)
    (posts : List (String × String)) (tr : List OpEvent) :
    (x.wire calls posts tr).length ≤
      (x.follows + 1) * ((sentToGeth tr).length + (sentToRelay tr).length) := by
  induction tr generalizing calls posts with
  | nil => exact Nat.zero_le _
  | cons e tr ih =>
    obtain ⟨o, r⟩ := e
    cases o with
    | sendToGeth request =>
      have hcall := length_chain_le x.follows Host.geth (Sent.ofCall request)
        (x.geth (calls ++ [request]))
      have hrest := ih (calls ++ [request]) posts
      calc (x.ofCall (calls ++ [request]) request ++ x.wire (calls ++ [request]) posts tr).length
          ≤ (x.follows + 1) +
            (x.follows + 1) * ((sentToGeth tr).length + (sentToRelay tr).length) := by
            rw [List.length_append]
            exact Nat.add_le_add hcall hrest
        _ = (x.follows + 1) * (((sentToGeth tr).length + 1) + (sentToRelay tr).length) := by ring
    | sendToRelay body signature =>
      have hpost := length_chain_le x.follows Host.relay (Sent.ofBundle body signature)
        (x.relay (posts ++ [(body, signature)]))
      have hrest := ih calls (posts ++ [(body, signature)])
      calc (x.ofPost (posts ++ [(body, signature)]) body signature ++
            x.wire calls (posts ++ [(body, signature)]) tr).length
          ≤ (x.follows + 1) +
            (x.follows + 1) * ((sentToGeth tr).length + (sentToRelay tr).length) := by
            rw [List.length_append]
            exact Nat.add_le_add hpost hrest
        _ = (x.follows + 1) * ((sentToGeth tr).length + ((sentToRelay tr).length + 1)) := by ring
    | _ => exact ih calls posts

end Redirects

end Torpc
