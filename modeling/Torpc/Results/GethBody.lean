import Torpc.Model.World

/-!
# How far a request comes

Whether a request of the daemon's clients comes to the body of a reply of Geth is
settled before that body is read: by the kind of the request, by what the limiters
and the breaker have to say to it as they stand, and by where the timeout strikes.
`Daemon.wayToBody` lists the operations on the way, and `World.Lets` says that a
world lets a request go all of it.

Where Geth's bodies do not decode, these are all the requests that read one and are
answered (`readsBody_iff`). The rules for `Comes` follow the ways in which a handler
is built, as those of `Sat` and `Ops` do.
-/

namespace Torpc

open Effects Prog

/-- Some of the events read the body of a 2xx reply. -/
def ReadsBody (tr : List OpEvent) : Prop := ∃ body, (⟨.gethJson, body⟩ : OpEvent) ∈ tr

/-- Where nothing happens, no body is read. -/
theorem not_readsBody_nil : ¬ ReadsBody [] := by
  rintro ⟨body, hbody⟩
  cases hbody

/-- Whether the body is read depends on no other operation. -/
theorem readsBody_cons {o : Op} {r : Res o} {tr : List OpEvent} (ho : o ≠ .gethJson) :
    ReadsBody (⟨o, r⟩ :: tr) ↔ ReadsBody tr := by
  constructor
  · rintro ⟨body, hbody⟩
    rcases List.mem_cons.mp hbody with heq | hbody
    · cases heq
      exact absurd rfl ho
    · exact ⟨body, hbody⟩
  · rintro ⟨body, hbody⟩
    exact ⟨body, List.mem_cons_of_mem _ hbody⟩

/-- What the decoder says of a body that is no `JsonRpcResponse`. -/
def decodeError (x : Externals) : Except String Value → Option String
  | .error e => some e
  | .ok v => if (JsonRpcResponse.ofValue v).isSome then none else some (x.responseError v)

/-- The answer to a client whose request met an undecodable body. -/
def parseFailure (e : String) : ProxyError := .upstreamError ("Failed to parse response: " ++ e)

/-- What is left to do when the body does not decode. -/
theorem readGethResponse_failed (x : Externals) : ∃ k, readGethResponse x = .op .gethJson k ∧
    ∀ body e, decodeError x body = some e →
      k body = .op (.recordFailure .geth) fun _ => .pure (.error (parseFailure e)) := by
  refine ⟨_, rfl, fun body e he => ?_⟩
  cases body with
  | error e' =>
    obtain rfl := Option.some.inj he
    rfl
  | ok v =>
    have he : (if (JsonRpcResponse.ofValue v).isSome then none else some (x.responseError v)) =
        some e := he
    cases hv : JsonRpcResponse.ofValue v with
    | some response =>
      rw [hv] at he
      cases he
    | none =>
      rw [hv] at he
      obtain rfl := Option.some.inj he
      simp only [Prog.bind, hv]
      rfl

-- ---------------------------------------------------------------------------
-- Ways
-- ---------------------------------------------------------------------------

/-- The answers with which a request goes on towards the body of Geth's reply. -/
def Op.Admits : (o : Op) → Res o → Prop
  | .checkConnLimit _, ok => ok = true
  | .checkWriteLimit _, ok => ok = true
  | .canProceed _, ok => ok = true
  | .gethReply, reply => ∃ status, reply = .ok status ∧ isSuccess status = true
  | _, _ => True

/-- The operations can be performed one after the other: the timeout strikes at none
of them, and each answer lets the request go on. -/
def World.Lets (w : World) : List Op → Progress → Prop
  | [], _ => True
  | o :: os, p => ∃ r p', w.answer p o = some (r, p') ∧ o.Admits r ∧ w.Lets os p'

/-- A call of Geth up to its body, and the record of what is wrong with it. -/
def gethWay (request : JsonRpcRequest) : List Op :=
  [.canProceed .geth, .sendToGeth request, .gethReply, .gethJson, .recordFailure .geth]

/-- What the write budget asks about a method. -/
def budgetWay (method : String) : List Op :=
  if method ∈ writeMethods then [.checkWriteLimit method] else []

/-- The way of a request that is forwarded behind the gates, if it passes them. -/
def gatedWay (request : JsonRpcRequest) : Option (List Op) :=
  if request.passesGates then some (budgetWay request.method ++ gethWay request) else none

/-- The way behind the relay route's own check of the budget: of a transaction it is the
daemon's own question, and a bundle never comes to Geth. -/
def flashbotsWay (relay : Bool) (request : JsonRpcRequest) : Option (List Op) :=
  if request.method = "eth_sendBundle" then none
  else if !relay then gatedWay request
  else if request.method = "eth_sendRawTransaction" then some (gethWay blockNumberRequest)
  else some (gethWay request)

def Daemon.handlerWay (d : Daemon) (request : JsonRpcRequest) : Route → Option (List Op)
  | .rpc | .rpcSlash => gatedWay request
  | .flashbots | .flashbotsSlash =>
    (flashbotsWay d.mevClient.isSome request).map (budgetWay request.method ++ ·)

/-- The operations of a request up to the body of Geth's reply, and past it to the answer
that quotes it; `none` if the request never comes there. -/
def Daemon.wayToBody (d : Daemon) (a : Arrival) : Option (List Op) :=
  (d.handlerWay a.request a.route).map (.checkConnLimit (getRequestIdentifier a.peer) :: ·)

/-- The request is of a kind that comes to the body of Geth's reply, the limiters and the
breaker let it through as they find it, and the timeout does not strike on the way. -/
def Daemon.ComesToBody (d : Daemon) (a : Arrival) (w : World) (p : Progress) : Prop :=
  ∃ os ∈ d.wayToBody a, w.Lets os p

section Way

variable {w : World} {x : Externals} {α β : Type}

/-- The handler reads a body and gets to its end just on this way, and then the end is one
that `F` describes. -/
structure Comes (w : World) (h : Handler α) (way : Option (List Op)) (F : α → Prop) : Prop where
  iff : ∀ p, ReadsBody (w.run h p).1 ∧ (w.run h p).2.2 ≠ none ↔ ∃ os ∈ way, w.Lets os p
  fails : ∀ p a, ReadsBody (w.run h p).1 → (w.run h p).2.2 = some a → F a

/-- An operation that is not the reading of the body. -/
def Op.NotBody (o : Op) : Prop := o ≠ .gethJson

/-- A program that reads no body does so in none of its runs. -/
theorem not_readsBody_of_ops {h : Handler α} (hops : h.Ops Op.NotBody) (p : Progress) :
    ¬ ReadsBody (w.run h p).1 := by
  rintro ⟨body, hbody⟩
  obtain ⟨q, htr, -⟩ : ∃ q, Trace h (w.run h p).1 q ∧ _ := eval_trace h p
  exact hops.events htr _ hbody rfl

/-- A handler without such an operation is on no way to the body. -/
theorem comes_never {h : Handler α} {F : α → Prop} (hops : h.Ops Op.NotBody) :
    Comes w h none F := by
  refine ⟨fun p => ?_, fun p a hread => absurd hread (not_readsBody_of_ops hops p)⟩
  constructor
  · rintro ⟨hread, -⟩
    exact absurd hread (not_readsBody_of_ops hops p)
  · rintro ⟨os, hos, -⟩
    cases hos

/-- One operation more on the way: with an answer that does not let the request go on, no
body is read any more. -/
theorem comes_op {o : Op} {k : Res o → Handler α} {way : Option (List Op)} {F : α → Prop}
    (ho : o.NotBody) (hyes : ∀ r, o.Admits r → Comes w (k r) way F)
    (hno : ∀ r, ¬ o.Admits r → (k r).Ops Op.NotBody) : Comes w (.op o k) (way.map (o :: ·)) F := by
  have hway : ∀ p, (∃ os ∈ way.map (o :: ·), w.Lets os p) ↔
      ∃ r p', w.answer p o = some (r, p') ∧ o.Admits r ∧ ∃ os ∈ way, w.Lets os p' := by
    intro p
    constructor
    · rintro ⟨os, hos, hlets⟩
      obtain ⟨os', hos', rfl⟩ := Option.mem_map.mp hos
      obtain ⟨r, p', hans, hr, hrest⟩ := hlets
      exact ⟨r, p', hans, hr, os', hos', hrest⟩
    · rintro ⟨r, p', hans, hr, os, hos, hrest⟩
      exact ⟨o :: os, Option.mem_map_of_mem _ hos, r, p', hans, hr, hrest⟩
  have hrun : ∀ p r p', w.answer p o = some (r, p') →
      w.run (.op o k) p = (⟨o, r⟩ :: (w.run (k r) p').1, (w.run (k r) p').2) :=
    fun p r p' hans => eval_op_some hans k
  have hstop : ∀ p, w.answer p o = none → ¬ ReadsBody (w.run (.op o k) p).1 := by
    intro p hans
    rw [World.run, eval_op_none hans]
    exact not_readsBody_nil
  constructor
  · intro p
    rw [hway]
    cases hans : w.answer p o with
    | none =>
      refine ⟨fun h => absurd h.1 (hstop p hans), ?_⟩
      rintro ⟨r, p', heq, -⟩
      cases heq
    | some rp =>
      obtain ⟨r, p'⟩ := rp
      rw [hrun p r p' hans, readsBody_cons ho]
      by_cases hr : o.Admits r
      · rw [(hyes r hr).iff p']
        constructor
        · exact fun h => ⟨r, p', rfl, hr, h⟩
        · rintro ⟨r', p'', heq, -, h⟩
          cases heq
          exact h
      · refine ⟨fun h => absurd h.1 (not_readsBody_of_ops (hno r hr) p'), ?_⟩
        rintro ⟨r', p'', heq, hr', -⟩
        cases heq
        exact absurd hr' hr
  · intro p a hread
    cases hans : w.answer p o with
    | none => exact absurd hread (hstop p hans)
    | some rp =>
      obtain ⟨r, p'⟩ := rp
      rw [hrun p r p' hans, readsBody_cons ho] at hread
      rw [hrun p r p' hans]
      by_cases hr : o.Admits r
      · exact (hyes r hr).fails p' a hread
      · exact absurd hread (not_readsBody_of_ops (hno r hr) p')

/-- The same where the rest of the way is known. -/
theorem comes_cons {o : Op} {k : Res o → Handler α} {os : List Op} {F : α → Prop}
    (ho : o.NotBody) (hyes : ∀ r, o.Admits r → Comes w (k r) (some os) F)
    (hno : ∀ r, ¬ o.Admits r → (k r).Ops Op.NotBody) : Comes w (.op o k) (some (o :: os)) F :=
  comes_op ho hyes hno

/-- The bind rule: what follows reads no body, and has nothing left to do once one has been
read. -/
theorem Comes.bind {h : Handler α} {f : α → Handler β} {way : Option (List Op)} {F : α → Prop}
    {G : β → Prop} (hh : Comes w h way F) (hf : ∀ a, (f a).Ops Op.NotBody)
    (hF : ∀ a, F a → ∃ b, f a = .pure b ∧ G b) : Comes w (h >>= f) way G := by
  have hrun : ∀ p, (¬ ReadsBody (w.run (h >>= f) p).1 ∧ ¬ ReadsBody (w.run h p).1) ∨
      ((w.run (h >>= f) p).2.2 = none ∧ (w.run h p).2.2 = none) ∨
      ∃ a b, ReadsBody (w.run (h >>= f) p).1 ∧ (w.run (h >>= f) p).2.2 = some b ∧
        ReadsBody (w.run h p).1 ∧ (w.run h p).2.2 = some a ∧ G b := by
    intro p
    have hfails := hh.fails p
    unfold World.run at hfails ⊢
    rw [eval_bind]
    generalize h.eval w.answer p = run at hfails ⊢
    rcases run with ⟨tr, t, _ | a⟩
    · exact .inr (.inl ⟨rfl, rfl⟩)
    · by_cases hread : ReadsBody tr
      · obtain ⟨b, hb, hG⟩ := hF a (hfails a hread rfl)
        refine .inr (.inr ⟨a, b, ?_, ?_, hread, rfl, hG⟩)
        · simpa only [hb, eval_pure, List.append_nil] using hread
        · simp only [hb, eval_pure]
      · refine .inl ⟨?_, hread⟩
        rintro ⟨body, hbody⟩
        rcases List.mem_append.mp hbody with hbody | hbody
        · exact hread ⟨body, hbody⟩
        · exact not_readsBody_of_ops (hf a) t ⟨body, hbody⟩
  constructor
  · intro p
    rw [← hh.iff p]
    rcases hrun p with ⟨hnot, hnot'⟩ | ⟨hnone, hnone'⟩ | ⟨a, b, hread, hb, hread', ha, -⟩
    · exact iff_of_false (fun h => hnot h.1) fun h => hnot' h.1
    · exact iff_of_false (fun h => h.2 hnone) fun h => h.2 hnone'
    · rw [hb, ha]
      exact iff_of_true ⟨hread, Option.some_ne_none b⟩ ⟨hread', Option.some_ne_none a⟩
  · intro p b hread hb
    rcases hrun p with ⟨hnot, -⟩ | ⟨hnone, -⟩ | ⟨-, b', -, hb', -, -, hG⟩
    · exact absurd hread hnot
    · cases hnone.symm.trans hb
    · cases hb'.symm.trans hb
      exact hG

/-- The result is an error. -/
def IsFailure (r : ProxyResult α) : Prop := ∃ e, r = .error e

/-- What a handler goes on with after a success is not done once it has failed. -/
theorem Comes.andThen {h : Handler (ProxyResult α)} {f : α → Handler (ProxyResult β)}
    {way : Option (List Op)} (hh : Comes w h way IsFailure)
    (hf : ∀ a, (f a).Ops Op.NotBody) : Comes w (h.andThen f) way IsFailure := by
  refine hh.bind (fun r => ?_) ?_
  · cases r with
    | ok a => exact hf a
    | error e => trivial
  · rintro _ ⟨e, rfl⟩
    exact ⟨_, rfl, e, rfl⟩

-- the handlers, in a world whose Geth answers with bodies that do not decode

variable (hbad : ∀ calls, ∃ e, decodeError x (w.geth.json calls) = some e)

include hbad

/-- The body is read, what is wrong with it is recorded, and the answer quotes it. -/
theorem comes_readGethResponse :
    Comes w (readGethResponse x) (some [.gethJson, .recordFailure .geth]) IsFailure := by
  obtain ⟨k, hk, hfailed⟩ := readGethResponse_failed x
  have hbody : ∀ {p p' body}, w.answer p .gethJson = some (body, p') →
      ∃ e, k body = .op (.recordFailure .geth) fun _ => .pure (.error (parseFailure e)) := by
    intro p p' body hans
    unfold World.answer at hans
    split at hans
    · cases hans
    · cases hans
      obtain ⟨e, he⟩ := hbad p.toGeth
      exact ⟨e, hfailed _ e he⟩
  -- it is cut off before the end, or has read the body and failed
  have hrun : ∀ p, ((w.run (.op .gethJson k) p).2.2 = none ∧
        ¬ w.Lets [.gethJson, .recordFailure .geth] p) ∨
      (ReadsBody (w.run (.op .gethJson k) p).1 ∧ w.Lets [.gethJson, .recordFailure .geth] p ∧
        ∃ e, (w.run (.op .gethJson k) p).2.2 = some (.error (parseFailure e))) := by
    intro p
    unfold World.run
    cases hans : w.answer p .gethJson with
    | none =>
      refine .inl ⟨by rw [eval_op_none hans], ?_⟩
      rintro ⟨body, q, hans', -⟩
      cases hans.symm.trans hans'
    | some bq =>
      obtain ⟨body, q⟩ := bq
      obtain ⟨e, he⟩ := hbody hans
      rw [eval_op_some hans, he]
      cases hrec : w.answer q (.recordFailure .geth) with
      | none =>
        refine .inl ⟨by rw [eval_op_none hrec], ?_⟩
        rintro ⟨body', q', hans', -, r, t, hrec', -⟩
        cases hans.symm.trans hans'
        cases hrec.symm.trans hrec'
      | some rp =>
        rw [eval_op_some hrec]
        exact .inr ⟨⟨body, List.mem_cons_self⟩,
          ⟨body, q, hans, trivial, rp.1, rp.2, hrec, trivial, trivial⟩, e, rfl⟩
  rw [hk]
  constructor
  · intro p
    rcases hrun p with ⟨hnone, hnot⟩ | ⟨hread, hlets, e, hfail⟩
    · refine iff_of_false (fun h => h.2 hnone) ?_
      rintro ⟨os, ⟨⟩, hlets⟩
      exact hnot hlets
    · rw [hfail]
      exact iff_of_true ⟨hread, Option.some_ne_none _⟩ ⟨_, rfl, hlets⟩
  · intro p r _ hr
    rcases hrun p with ⟨hnone, -⟩ | ⟨-, -, e, hfail⟩
    · cases hnone.symm.trans hr
    · exact ⟨_, (Option.some.inj (hfail.symm.trans hr)).symm⟩

/-- A call of Geth comes to the body if the breaker lets it through and the reply is a
success. -/
theorem comes_proxyToGeth (request : JsonRpcRequest) :
    Comes w (proxyToGeth x request) (some (gethWay request)) IsFailure := by
  have hreply : Comes w (awaitGeth x) (some [.gethReply, .gethJson, .recordFailure .geth])
      IsFailure := by
    refine comes_cons Op.noConfusion ?_ ?_
    · rintro _ ⟨status, rfl, hstatus⟩
      show Comes w (if isSuccess status then _ else _) _ _
      rw [if_pos hstatus]
      exact comes_readGethResponse hbad
    · intro reply hreply
      cases reply with
      | error e => exact ⟨Op.noConfusion, fun _ => trivial⟩
      | ok status =>
        show (if isSuccess status then _ else _ : Handler _).Ops _
        rw [if_neg fun hstatus => hreply ⟨status, rfl, hstatus⟩]
        refine ⟨Op.noConfusion, fun text => ?_⟩
        show (if isServerError status then _ else _ : Handler _).Ops _
        split
        · exact ⟨Op.noConfusion, fun _ => trivial⟩
        · trivial
  refine comes_cons Op.noConfusion (fun ok hok => ?_) fun ok hok => ?_
  · obtain rfl : ok = true := hok
    exact comes_cons Op.noConfusion (fun _ _ => hreply) fun _ h => absurd trivial h
  · obtain rfl : ok = false := Bool.eq_false_iff.mpr hok
    trivial

omit hbad in
/-- Behind the check of the write budget the way is longer by the question to the limiter, if
the method is a write. -/
theorem comes_checked (method : String) {f : Handler (ProxyResult α)} {way : Option (List Op)}
    (hf : Comes w f way IsFailure) :
    Comes w ((checkWriteMethodRateLimit method).andThen fun _ => f)
      (way.map (budgetWay method ++ ·)) IsFailure := by
  unfold budgetWay
  by_cases hmethod : method ∈ writeMethods
  · rw [if_pos hmethod, checkWrite_eq hmethod]
    refine comes_op Op.noConfusion (fun ok hok => ?_) fun ok hok => ?_
    · obtain rfl : ok = true := hok
      exact hf
    · obtain rfl : ok = false := Bool.eq_false_iff.mpr hok
      exact ⟨Op.noConfusion, fun _ => trivial⟩
  · have hnone : checkWriteMethodRateLimit method = .pure (.ok ()) := by
      unfold checkWriteMethodRateLimit
      rw [if_pos (by simpa using hmethod)]
      rfl
    have hway : way.map ([] ++ ·) = way := by simp
    rw [if_neg hmethod, hway, hnone]
    exact hf

omit hbad in
/-- Behind the gates the way is the one of what they guard, for a request that passes them. -/
theorem comes_gated {request : JsonRpcRequest} {forward : Handler (ProxyResult JsonRpcResponse)}
    (hforward : Comes w forward (some (gethWay request)) IsFailure) :
    Comes w (gated request forward) (gatedWay request) IsFailure := by
  unfold gatedWay
  by_cases hpass : request.passesGates = true
  · obtain ⟨hvalid, hallowed⟩ := JsonRpcRequest.passesGates_iff.mp hpass
    rw [if_pos hpass]
    unfold gated
    rw [hvalid, hallowed]
    exact comes_checked request.method hforward
  · rw [if_neg hpass]
    exact comes_never (ops_gated (fun _ => Op.noConfusion) (fun h => absurd h hpass)
      fun h => absurd h hpass)

/-- With a relay, a transaction comes to the body of Geth's answer to the daemon's own
question, a bundle to none, and everything else is forwarded without the gates. -/
theorem comes_dispatch (client : MevRelayClient) (request : JsonRpcRequest) :
    Comes w (client.dispatch x request) (flashbotsWay true request) IsFailure := by
  have hrelay : ∀ o : Op, o.isRelayOp = true → o.NotBody := by
    rintro o ho rfl
    cases ho
  unfold MevRelayClient.dispatch flashbotsWay
  by_cases hraw : request.method = "eth_sendRawTransaction"
  · have hbundle : request.method ≠ "eth_sendBundle" := by
      rw [hraw]
      decide
    rw [if_pos hraw, if_neg hbundle, if_neg (by decide), if_pos hraw]
    refine (comes_proxyToGeth hbad blockNumberRequest).andThen fun blockResp => ?_
    cases currentBlockOf blockResp with
    | error e => trivial
    | ok currentBlock =>
      exact ((client.ops_handleSendRawTransaction x request currentBlock).mono hrelay).andThen
        fun _ => trivial
  · rw [if_neg hraw]
    by_cases hbundle : request.method = "eth_sendBundle"
    · rw [if_pos hbundle, if_pos hbundle]
      exact comes_never (((client.ops_handleSendBundle x request).mono hrelay).andThen
        fun _ => trivial)
    · rw [if_neg hbundle, if_neg hbundle, if_neg (by decide), if_neg hraw]
      exact comes_proxyToGeth hbad request

/-- Without a relay everything but a bundle is forwarded, behind the gates. -/
theorem comes_handleFlashbots (request : JsonRpcRequest) :
    Comes w (handleFlashbots x request) (flashbotsWay false request) IsFailure := by
  unfold handleFlashbots flashbotsWay
  by_cases hbundle : request.method = "eth_sendBundle"
  · rw [if_pos hbundle, if_pos (.inr hbundle), proxyToFlashbots, if_pos hbundle]
    exact comes_never (ops_gated (fun _ => Op.noConfusion) (fun _ => Op.noConfusion)
      fun _ => trivial)
  · rw [if_neg hbundle, proxyToFlashbots, if_neg hbundle, ite_self]
    exact comes_gated (comes_proxyToGeth hbad request)

omit hbad in
/-- Each handler comes to the body on its own way. -/
theorem comes_handler (d : Daemon)
    (hbad : ∀ calls, ∃ e, decodeError d.externals (w.geth.json calls) = some e)
    (route : Route) (request : JsonRpcRequest) :
    Comes w (d.handler route request) (d.handlerWay request route) IsFailure := by
  have hflashbots : Comes w (handleFlashbotsWithMev d.externals d.mevClient request)
      ((flashbotsWay d.mevClient.isSome request).map (budgetWay request.method ++ ·))
      IsFailure := by
    refine comes_checked request.method ?_
    cases d.mevClient with
    | some client => exact comes_dispatch hbad client request
    | none => exact comes_handleFlashbots hbad request
  cases route with
  | rpc | rpcSlash => exact comes_gated (comes_proxyToGeth hbad request)
  | flashbots | flashbotsSlash => exact hflashbots

omit hbad in
/-- **How far a request comes.** Where Geth's bodies do not decode, a request reads one and
is answered just if its way lets it come there. -/
theorem readsBody_iff (d : Daemon) (a : Arrival)
    (hbad : ∀ calls, ∃ e, decodeError d.externals (w.geth.json calls) = some e) (p : Progress) :
    ReadsBody (w.run (d.serve a) p).1 ∧ (w.run (d.serve a) p).2.2 ≠ none ↔
      d.ComesToBody a w p := by
  have hserve : Comes w (d.serve a) (d.wayToBody a) fun _ => True := by
    refine comes_op Op.noConfusion (fun ok hok => ?_) fun ok hok => ?_
    · obtain rfl : ok = true := hok
      exact (comes_handler d hbad a.route a.request).bind (fun _ => trivial)
        fun _ _ => ⟨_, rfl, trivial⟩
    · obtain rfl : ok = false := Bool.eq_false_iff.mpr hok
      trivial
  exact hserve.iff p

end Way

end Torpc
