import Torpc.Results.GethBody

/-!
# What a client learns of a failing Geth

`proxy_to_geth` has three exits for a Geth that fails. Two of them keep Geth's
text to the log, as their comments say they must. The third, for a 2xx reply
that does not decode, formats the decoder's error into the answer, and that
error quotes what was read. So two failures of one kind look the same to the
client unless they are 2xx, the request comes to the body, and the errors that the
bodies give differ (`geth_bodies_hidden_iff`).

Two runs of a handler in the same surroundings, but for what Geth answers, are
compared by the relation `Twin`; it has a rule for each way of building a
handler. Whether a request comes to the body is told by the operations on its way
there (`Daemon.ComesToBody`).
-/

namespace Torpc

open Effects Prog

/-- A reply of Geth: status, text and the JSON it spells. -/
structure GethReply where
  status : Nat
  text : Except String String
  json : Except String Value

/-- The same world with a Geth that gives this reply. -/
def World.withGeth (w : World) (g : GethReply) : World :=
  { w with geth :=
    { w.geth with
      reply := fun _ => .ok g.status
      text := fun _ => g.text
      json := fun _ => g.json } }

/-- Failures of the same kind. -/
inductive SameFailure (x : Externals) (g g' : GethReply) : Prop where
  | errorStatus (h : isSuccess g.status = false) (hsame : g.status = g'.status)
  | badBody (e e' : String) (h : isSuccess g.status = true) (h' : isSuccess g'.status = true)
      (he : decodeError x g.json = some e) (he' : decodeError x g'.json = some e')

/-- The operations that Geth answers. -/
def Op.isGethAnswer : Op → Bool
  | .gethReply | .gethText | .gethJson => true
  | _ => false

/-- What a run ends with. -/
abbrev Ending (α : Type) := List OpEvent × Progress × Option α

/-- Two runs that show no difference, or have read different bodies and show one
that `L` describes, or are both dropped. -/
inductive Twin {α : Type} (L : α → α → Prop) : Ending α → Ending α → Prop where
  | same {tr tr' : List OpEvent} {t : Progress} {a : Option α} (h : ¬ ReadsBody tr) :
      Twin L (tr, t, a) (tr', t, a)
  | leak {tr tr' : List OpEvent} {t t' : Progress} {a a' : α} (h : ReadsBody tr) (hl : L a a') :
      Twin L (tr, t, some a) (tr', t', some a')
  | dropped {tr tr' : List OpEvent} {t t' : Progress} : Twin L (tr, t, none) (tr', t', none)

section Twins

variable {w : World} {g g' : GethReply} {x : Externals} {α β : Type}

/-- The runs of two handlers, or of one, are twins wherever they start. -/
def Twins (w : World) (g g' : GethReply) (L : α → α → Prop) (h h' : Handler α) : Prop :=
  ∀ p, Twin L ((w.withGeth g).run h p) ((w.withGeth g').run h' p)

/-- Only Geth's answers tell the two worlds apart. -/
theorem answer_withGeth (w : World) (g g' : GethReply) (p : Progress) {o : Op}
    (h : o.isGethAnswer = false) : (w.withGeth g).answer p o = (w.withGeth g').answer p o := by
  cases o with
  | gethReply => cases h
  | gethText => cases h
  | gethJson => cases h
  | _ => rfl

/-- What has ended has ended the same in both runs. -/
theorem twins_pure {L : α → α → Prop} (a : α) : Twins w g g' L (.pure a) (.pure a) :=
  fun _ => .same not_readsBody_nil

/-- One operation to which both worlds find an answer, or neither, and which is
not the reading of a body. -/
theorem twins_answered {L : α → α → Prop} {o : Op} {k k' : Res o → Handler α}
    (ho : ∀ r tr, ReadsBody (⟨o, r⟩ :: tr) ↔ ReadsBody tr)
    (hans : ∀ p, (∃ r r' t, (w.withGeth g).answer p o = some (r, t) ∧
        (w.withGeth g').answer p o = some (r', t) ∧ Twins w g g' L (k r) (k' r')) ∨
      ((w.withGeth g).answer p o = none ∧ (w.withGeth g').answer p o = none)) :
    Twins w g g' L (.op o k) (.op o k') := by
  intro p
  unfold World.run
  rcases hans p with ⟨r, r', t, hr, hr', hrest⟩ | ⟨hr, hr'⟩
  · rw [eval_op_some hr, eval_op_some hr']
    have hrest := hrest t
    unfold World.run at hrest
    generalize (k r).eval (w.withGeth g).answer t = run at hrest
    generalize (k' r').eval (w.withGeth g').answer t = run' at hrest
    cases hrest with
    | same hread => exact .same fun h => hread ((ho r _).mp h)
    | leak hread hl => exact .leak ((ho r _).mpr hread) hl
    | dropped => exact .dropped
  · rw [eval_op_none hr, eval_op_none hr']
    exact .dropped

/-- One operation that is not Geth's to answer. -/
theorem twins_op {L : α → α → Prop} {o : Op} {k k' : Res o → Handler α}
    (ho : o.isGethAnswer = false) (hk : ∀ r, Twins w g g' L (k r) (k' r)) :
    Twins w g g' L (.op o k) (.op o k') := by
  refine twins_answered (fun r tr => readsBody_cons fun h => ?_) fun p => ?_
  · rw [h] at ho
    cases ho
  · have hsame := answer_withGeth w g g' p ho
    cases hans : (w.withGeth g).answer p o with
    | none => exact .inr ⟨rfl, hsame ▸ hans⟩
    | some rp => exact .inl ⟨rp.1, rp.1, rp.2, rfl, hsame ▸ hans, hk rp.1⟩

/-- Geth's own answers differ, the state they leave does not. -/
theorem twins_gethReply {L : α → α → Prop} {k k' : Except String Nat → Handler α}
    (hk : Twins w g g' L (k (.ok g.status)) (k' (.ok g'.status))) :
    Twins w g g' L (.op .gethReply k) (.op .gethReply k') := by
  refine twins_answered (fun r tr => readsBody_cons nofun) fun p => ?_
  unfold World.answer
  by_cases hcut : (Op.gethReply.awaits && w.cutOff p.performed) = true
  · exact .inr ⟨if_pos hcut, if_pos hcut⟩
  · exact .inl ⟨_, _, _, if_neg hcut, if_neg hcut, hk⟩

/-- The text of a bad reply may differ in the two runs, as long as what is done with it is
the same. -/
theorem twins_gethText {L : α → α → Prop} {k k' : Except String String → Handler α}
    (hk : Twins w g g' L (k g.text) (k' g'.text)) :
    Twins w g g' L (.op .gethText k) (.op .gethText k') := by
  refine twins_answered (fun r tr => readsBody_cons nofun) fun p => ?_
  unfold World.answer
  by_cases hcut : (Op.gethText.awaits && w.cutOff p.performed) = true
  · exact .inr ⟨if_pos hcut, if_pos hcut⟩
  · exact .inl ⟨_, _, _, if_neg hcut, if_neg hcut, hk⟩

/-- A handler that Geth has no part in. -/
theorem twins_ops {L : α → α → Prop} {h : Handler α}
    (hops : h.Ops fun o => o.isGethAnswer = false) : Twins w g g' L h h := by
  induction h with
  | pure a => exact twins_pure a
  | op o k ih => exact twins_op hops.1 fun r => ih r (hops.2 r)

/-- The bind rule: a leak of the first part is one of the whole. -/
theorem Twins.bind {L : α → α → Prop} {M : β → β → Prop} {h h' : Handler α} {f : α → Handler β}
    (hh : Twins w g g' L h h') (hf : ∀ a, Twins w g g' M (f a) (f a))
    (hl : ∀ a a', L a a' → ∃ b b', f a = .pure b ∧ f a' = .pure b' ∧ M b b') :
    Twins w g g' M (h >>= f) (h' >>= f) := by
  intro p
  have hfirst := hh p
  unfold World.run at hfirst ⊢
  rw [eval_bind, eval_bind]
  generalize h.eval (w.withGeth g).answer p = run at hfirst
  generalize h'.eval (w.withGeth g').answer p = run' at hfirst
  cases hfirst with
  | @same tr tr' t a hread =>
    cases a with
    | none => exact .dropped
    | some a =>
      have hrest := hf a t
      unfold World.run at hrest
      dsimp only
      generalize (f a).eval (w.withGeth g).answer t = run at hrest
      generalize (f a).eval (w.withGeth g').answer t = run' at hrest
      cases hrest with
      | same hread' =>
        refine .same ?_
        rintro ⟨body, hbody⟩
        rcases List.mem_append.mp hbody with hbody | hbody
        · exact hread ⟨body, hbody⟩
        · exact hread' ⟨body, hbody⟩
      | leak hread' hm =>
        obtain ⟨body, hbody⟩ := hread'
        exact .leak ⟨body, List.mem_append_right _ hbody⟩ hm
      | dropped => exact .dropped
  | @leak tr tr' t t' a a' hread hla =>
    obtain ⟨b, b', hb, hb', hm⟩ := hl a a' hla
    obtain ⟨body, hbody⟩ := hread
    simp only [hb, hb', eval_pure]
    exact .leak ⟨body, List.mem_append_left _ hbody⟩ hm
  | dropped => exact .dropped

-- ---------------------------------------------------------------------------
-- The handlers
-- ---------------------------------------------------------------------------

/-- The replies were 2xx, and the answers differ, if at all, in the decoder's error. -/
def Leak (x : Externals) (g g' : GethReply) (r r' : ProxyResult α) : Prop :=
  isSuccess g.status = true ∧ ∃ e e', decodeError x g.json = some e ∧
    decodeError x g'.json = some e' ∧ r = .error (parseFailure e) ∧ r' = .error (parseFailure e')

/-- Two programs that may tell Geth's replies apart only by a leak, done one after the
other, do no more than that. -/
theorem Twins.andThen {h h' : Handler (ProxyResult α)} {f : α → Handler (ProxyResult β)}
    (hh : Twins w g g' (Leak x g g') h h') (hf : ∀ a, Twins w g g' (Leak x g g') (f a) (f a)) :
    Twins w g g' (Leak x g g') (h.andThen f) (h'.andThen f) := by
  refine Twins.bind hh (fun r => ?_) fun r r' hl => ?_
  · cases r with
    | ok a => exact hf a
    | error e => exact twins_pure _
  · obtain ⟨hsuccess, e, e', he, he', rfl, rfl⟩ := hl
    exact ⟨_, _, rfl, rfl, hsuccess, e, e', he, he', rfl, rfl⟩

/-- The body is read, and the error goes into the answer. -/
theorem twins_readGethResponse {e e' : String} (hsuccess : isSuccess g.status = true)
    (he : decodeError x g.json = some e) (he' : decodeError x g'.json = some e') :
    Twins w g g' (Leak x g g') (readGethResponse x) (readGethResponse x) := by
  obtain ⟨k, hk, hfailed⟩ := readGethResponse_failed x
  rw [hk]
  intro p
  unfold World.run
  by_cases hcut : (Op.gethJson.awaits && w.cutOff p.performed) = true
  · have hnone : ∀ g, (w.withGeth g).answer p .gethJson = none := fun _ => if_pos hcut
    rw [eval_op_none (hnone g), eval_op_none (hnone g')]
    exact .dropped
  · let t : Progress := { p with shared := w.found p, performed := p.performed + 1 }
    have hread : ∀ g, (w.withGeth g).answer p .gethJson = some (g.json, t) := fun _ => if_neg hcut
    rw [eval_op_some (hread g), eval_op_some (hread g'), hfailed _ e he, hfailed _ e' he']
    have hsame := answer_withGeth w g g' t (o := .recordFailure .geth) rfl
    cases hans : (w.withGeth g).answer t (.recordFailure .geth) with
    | none =>
      rw [eval_op_none hans, eval_op_none (hsame ▸ hans)]
      exact .dropped
    | some rp =>
      rw [eval_op_some hans, eval_op_some (hsame ▸ hans)]
      exact .leak ⟨g.json, List.mem_cons_self⟩ ⟨hsuccess, e, e', he, he', rfl, rfl⟩

/-- Forwarding a request to Geth answers the same in both runs, except where the error
quotes the body. -/
theorem twins_proxyToGeth (hs : SameFailure x g g') (request : JsonRpcRequest) :
    Twins w g g' (Leak x g g') (proxyToGeth x request) (proxyToGeth x request) := by
  refine twins_op rfl fun ok => ?_
  cases ok
  · exact twins_pure _
  refine twins_op rfl fun _ => twins_gethReply ?_
  cases hs with
  | errorStatus h hsame =>
    -- the text is read, and does not show
    rw [← hsame]
    show Twins w g g' _ (if isSuccess g.status then _ else _) (if isSuccess g.status then _ else _)
    rw [if_neg (Bool.eq_false_iff.mp h)]
    refine twins_gethText ?_
    show Twins w g g' _ (if isServerError g.status then _ else _)
      (if isServerError g.status then _ else _)
    split
    · exact twins_op rfl fun _ => twins_pure _
    · exact twins_pure _
  | badBody e e' h h' he he' =>
    show Twins w g g' _ (if isSuccess g.status then _ else _) (if isSuccess g'.status then _ else _)
    rw [if_pos h, if_pos h']
    exact twins_readGethResponse h he he'

/-- The gates in front of a handler look at the request alone. -/
theorem twins_gated (request : JsonRpcRequest)
    {forward : Handler (ProxyResult JsonRpcResponse)}
    (hforward : Twins w g g' (Leak x g g') forward forward) :
    Twins w g g' (Leak x g g') (gated request forward) (gated request forward) := by
  unfold gated
  split
  · exact twins_pure _
  · split
    · exact twins_op rfl fun _ => twins_op rfl fun _ => twins_pure _
    · exact (twins_ops (ops_checkWriteMethodRateLimit rfl rfl)).andThen fun _ => hforward

/-- What is done with the relay reads no answer of Geth. -/
theorem isGethAnswer_of_relayOp {o : Op} (h : o.isRelayOp = true) : o.isGethAnswer = false := by
  cases o <;> first | rfl | cases h

/-- The relay's client answers the same in both runs, but for the reads that it forwards to
Geth. -/
theorem twins_dispatch (hs : SameFailure x g g') (client : MevRelayClient)
    (request : JsonRpcRequest) :
    Twins w g g' (Leak x g g') (client.dispatch x request) (client.dispatch x request) := by
  unfold MevRelayClient.dispatch
  split
  · refine (twins_proxyToGeth hs blockNumberRequest).andThen fun blockResp => ?_
    cases currentBlockOf blockResp with
    | error e => exact twins_pure _
    | ok currentBlock =>
      exact twins_ops (((client.ops_handleSendRawTransaction x request currentBlock).mono
        fun _ => isGethAnswer_of_relayOp).andThen fun _ => trivial)
  · split
    · exact twins_ops (((client.ops_handleSendBundle x request).mono
        fun _ => isGethAnswer_of_relayOp).andThen fun _ => trivial)
    · exact twins_proxyToGeth hs request

/-- So does the handler without a relay, as far as the leak goes. -/
theorem twins_handleFlashbots (hs : SameFailure x g g') (request : JsonRpcRequest) :
    Twins w g g' (Leak x g g') (handleFlashbots x request) (handleFlashbots x request) := by
  refine twins_gated request ?_
  split
  · unfold proxyToFlashbots
    split
    · exact twins_pure _
    · exact twins_proxyToGeth hs request
  · exact twins_proxyToGeth hs request

/-- So does every handler of the daemon, on whichever route the request comes. -/
theorem twins_handler {d : Daemon} (hs : SameFailure d.externals g g') (route : Route)
    (request : JsonRpcRequest) :
    Twins w g g' (Leak d.externals g g') (d.handler route request) (d.handler route request) := by
  have hflashbots : Twins w g g' (Leak d.externals g g')
      (handleFlashbotsWithMev d.externals d.mevClient request)
      (handleFlashbotsWithMev d.externals d.mevClient request) := by
    refine (twins_ops (ops_checkWriteMethodRateLimit rfl rfl)).andThen fun _ => ?_
    cases d.mevClient with
    | some client => exact twins_dispatch hs client request
    | none => exact twins_handleFlashbots hs request
  rcases d.handler_cases route with ⟨-, hhandler⟩ | ⟨-, hhandler⟩
  · rw [hhandler]
    exact twins_gated request (twins_proxyToGeth hs request)
  · rw [hhandler]
    exact hflashbots

/-- So do the responses. -/
def ResponseLeak (x : Externals) (g g' : GethReply) (r r' : HttpResponse) : Prop :=
  isSuccess g.status = true ∧ ∃ e e', decodeError x g.json = some e ∧
    decodeError x g'.json = some e' ∧ r = (parseFailure e).intoResponse ∧
    r' = (parseFailure e').intoResponse

/-- The whole answer to a request, its status included, differs in the two runs by the leak
alone. -/
theorem twins_serve {d : Daemon} (hs : SameFailure d.externals g g') (a : Arrival) :
    Twins w g g' (ResponseLeak d.externals g g') (d.serve a) (d.serve a) := by
  refine twins_op rfl fun ok => ?_
  cases ok
  · exact twins_pure _
  refine (twins_handler hs a.route a.request).bind (fun r => twins_pure _) ?_
  rintro _ _ ⟨hsuccess, e, e', he, he', rfl, rfl⟩
  exact ⟨_, _, rfl, rfl, hsuccess, e, e', he, he', rfl, rfl⟩

end Twins

/-- The text of the error is in the response. -/
theorem parseFailure_injective {e e' : String}
    (h : (parseFailure e).intoResponse = (parseFailure e').intoResponse) : e = e' := by
  have hmessage : ("Upstream connection error: " ++ ("Failed to parse response: " ++ e)) =
      "Upstream connection error: " ++ ("Failed to parse response: " ++ e') := by
    have hbody := congrArg (fun r => (r.body >>= JsonRpcResponse.error).map JsonRpcError.message) h
    exact Option.some.inj hbody
  have hlist := congrArg String.toList hmessage
  simp only [String.toList_append, List.append_cancel_left_eq] at hlist
  exact String.toList_injective hlist

/-- **Geth's bodies and the client.** Two failures of Geth of one kind get the
client the same response if and only if they are not 2xx, or the decoder finds
the same words for both bodies, or the request does not come to a body: it is of a
kind that never does, a limiter or the breaker turns it away as it stands, or the
timeout strikes before the answer. -/
theorem geth_bodies_hidden_iff (d : Daemon) (a : Arrival) (w : World) (p : Progress)
    {g g' : GethReply} (hs : SameFailure d.externals g g') :
    ((w.withGeth g).run (d.serve a) p).2.2 = ((w.withGeth g').run (d.serve a) p).2.2 ↔
      isSuccess g.status = false ∨
      decodeError d.externals g.json = decodeError d.externals g'.json ∨
      ¬ d.ComesToBody a (w.withGeth g) p := by
  have htwin := twins_serve (w := w) hs a p
  -- a run that shows nothing of a body that it could have shown has not come there
  have hcomes : isSuccess g.status = true →
      (ReadsBody ((w.withGeth g).run (d.serve a) p).1 ∧
        ((w.withGeth g).run (d.serve a) p).2.2 ≠ none ↔ d.ComesToBody a (w.withGeth g) p) := by
    intro hsuccess
    cases hs with
    | errorStatus h => cases hsuccess.symm.trans h
    | badBody e _ _ _ he _ => exact readsBody_iff d a (fun _ => ⟨e, he⟩) p
  generalize (w.withGeth g).run (d.serve a) p = run at htwin hcomes
  generalize (w.withGeth g').run (d.serve a) p = run' at htwin
  have hhidden : ¬ (ReadsBody run.1 ∧ run.2.2 ≠ none) → isSuccess g.status = false ∨
      decodeError d.externals g.json = decodeError d.externals g'.json ∨
      ¬ d.ComesToBody a (w.withGeth g) p := by
    intro hnot
    cases hstatus : isSuccess g.status with
    | false => exact .inl rfl
    | true => exact .inr (.inr fun h => hnot ((hcomes hstatus).mpr h))
  cases htwin with
  | same hread => exact iff_of_true rfl (hhidden fun h => hread h.1)
  | dropped => exact iff_of_true rfl (hhidden fun h => h.2 rfl)
  | leak hread hl =>
    obtain ⟨hsuccess, e, e', he, he', rfl, rfl⟩ := hl
    constructor
    · intro h
      rw [he, he', parseFailure_injective (Option.some.inj h)]
      exact .inr (.inl rfl)
    · rintro (hstatus | hsame | hnot)
      · rw [hsuccess] at hstatus
        cases hstatus
      · rw [he, he'] at hsame
        rw [Option.some.inj hsame]
      · exact absurd ((hcomes hsuccess).mp ⟨hread, Option.some_ne_none _⟩) hnot

/-- serde quotes the value it did not expect. -/
def quotedError : Value → String
  | .string s => "error decoding response body: invalid type: string " ++ s
  | _ => "error decoding response body"

def quotingDaemon : Daemon :=
  { plainDaemon with externals := { plainDaemon.externals with responseError := quotedError } }

def blockArrival : Arrival := ⟨.rpc, ⟨"2.0", "eth_blockNumber", none, some (.nat 1)⟩, none, 0⟩

example : quotingDaemon.wayToBody blockArrival =
    some (.checkConnLimit "unknown" :: gethWay blockNumberRequest) := rfl

/-- A Geth that fails with a text of its own. -/
def brokenGeth (status : Nat) (text : String) : GethReply :=
  ⟨status, .ok text, .ok (.string text)⟩

/-- An error page tells the client nothing of what is on it. -/
theorem geth_bodies_hidden_errorPage :
    ((quietWorld.withGeth (brokenGeth 500 "geth/1.13")).run (quotingDaemon.serve blockArrival)
        (.start (quotingDaemon.initial 0))).2.2 =
      ((quietWorld.withGeth (brokenGeth 500 "geth/1.14")).run (quotingDaemon.serve blockArrival)
        (.start (quotingDaemon.initial 0))).2.2 :=
  (geth_bodies_hidden_iff quotingDaemon blockArrival quietWorld _ (.errorStatus rfl rfl)).mpr
    (.inl rfl)

/-- With status 200 the same texts are in the client's response. -/
theorem geth_version_leaks :
    SameFailure quotingDaemon.externals (brokenGeth 200 "geth/1.13") (brokenGeth 200 "geth/1.14") ∧
    ((quietWorld.withGeth (brokenGeth 200 "geth/1.13")).run (quotingDaemon.serve blockArrival)
        (.start (quotingDaemon.initial 0))).2.2 ≠
      ((quietWorld.withGeth (brokenGeth 200 "geth/1.14")).run (quotingDaemon.serve blockArrival)
        (.start (quotingDaemon.initial 0))).2.2 := by
  refine ⟨.badBody _ _ rfl rfl rfl rfl, fun h => ?_⟩
  have hresponse : ∀ text, ((quietWorld.withGeth (brokenGeth 200 text)).run
      (quotingDaemon.serve blockArrival) (.start (quotingDaemon.initial 0))).2.2 =
      some (parseFailure
        ("error decoding response body: invalid type: string " ++ text)).intoResponse :=
    fun _ => rfl
  rw [hresponse, hresponse] at h
  have htext := congrArg String.toList (parseFailure_injective (Option.some.inj h))
  simp only [String.toList_append, List.append_cancel_left_eq] at htext
  revert htext
  decide

end Torpc
