import Torpc.Model.Upstream

/-!
# One request in given surroundings

For comparing two runs of a handler, everything that is not the handler has to
be held fixed: when each of its operations runs, what the other requests do to
the shared state in between, when the timeout strikes, and how the upstreams
answer. A `World` is one such choice. An upstream's answer may depend on all it
has been sent by this request, and on nothing else.

A world is no second model: an answer it gives is one that the daemon's `exec`
allows in the shared state found (`World.answer_exec`).
-/

namespace Torpc

open Effects Prog

/-- How a call of Geth goes, by the requests of all the calls so far: what comes
of it in the end, and the redirects on the way there. -/
structure GethBehaviour where
  reply : List JsonRpcRequest → Except String Nat
  text : List JsonRpcRequest → Except String String
  json : List JsonRpcRequest → Except String Value
  hops : List JsonRpcRequest → List (Http.Hop Host)

/-- How a call of the relay goes, by the bodies and signatures of all the calls
so far: what comes of it in the end, and the redirects on the way there. -/
structure RelayBehaviour where
  reply : List (String × String) → Except String Nat
  text : List (String × String) → Except String String
  hops : List (String × String) → List (Http.Hop Host)

structure World where
  /-- the instant of the `n`-th operation -/
  clock : Nat → Nat
  /-- what has happened to the shared state before the `n`-th operation -/
  others : Nat → Shared → Shared
  /-- the timeout strikes while the `n`-th operation is awaited -/
  cutOff : Nat → Bool
  jitter : Nat → Rat
  geth : GethBehaviour
  relay : RelayBehaviour
  /-- how many redirects the HTTP clients follow -/
  follows : Nat

/-- The surroundings of a request in the middle of its run. -/
structure Progress where
  shared : Shared
  performed : Nat
  toGeth : List JsonRpcRequest
  toRelay : List (String × String)

def Progress.start (s : Shared) : Progress := ⟨s, 0, [], []⟩

namespace World

/-- The shared state that the next operation finds. -/
def found (w : World) (p : Progress) : Shared :=
  { w.others p.performed p.shared with now := w.clock p.performed }

/-- The answer to an operation that is not about the shared state. -/
def elsewhere (w : World) (p : Progress) : (o : Op) → Option (Res o × Progress)
  | .sendToGeth request => some ((), { p with toGeth := p.toGeth ++ [request] })
  | .gethReply => some (w.geth.reply p.toGeth, p)
  | .gethText => some (w.geth.text p.toGeth, p)
  | .gethJson => some (w.geth.json p.toGeth, p)
  | .sendToRelay body signature =>
    some ((), { p with toRelay := p.toRelay ++ [(body, signature)] })
  | .relayReply => some (w.relay.reply p.toRelay, p)
  | .relayText => some (w.relay.text p.toRelay, p)
  | .genJitter range =>
    if 0 ≤ range then some (max (-range) (min range (w.jitter p.performed)), p) else none
  | .sleep _ => some ((), p)
  | _ => none

/-- What the world does with an operation: `none` if the request is dropped
while it waits, or has panicked. -/
def answer (w : World) (p : Progress) (o : Op) : Option (Res o × Progress) :=
  if o.awaits && w.cutOff p.performed then none
  else
    let here := { p with shared := w.found p, performed := p.performed + 1 }
    match (w.found p).perform o with
    | some (r, s) => some (r, { here with shared := s })
    | none => w.elsewhere here o

/-- An operation that is not about the shared state leaves it alone, and is answered in a
way that is possible for it. -/
theorem elsewhere_answers {w : World} {p p' : Progress} {o : Op} {r : Res o}
    (h : w.elsewhere p o = some (r, p')) : p'.shared = p.shared ∧ o.Answers r := by
  cases o with
  | genJitter range =>
    simp only [elsewhere] at h
    split at h
    · next hrange =>
      cases h
      have hneg : -range ≤ range := le_trans (neg_nonpos.mpr hrange) hrange
      exact ⟨rfl, le_max_left _ _, max_le hneg (min_le_left _ _)⟩
    · cases h
  | sendToGeth request => cases h; exact ⟨rfl, trivial⟩
  | gethReply => cases h; exact ⟨rfl, trivial⟩
  | gethText => cases h; exact ⟨rfl, trivial⟩
  | gethJson => cases h; exact ⟨rfl, trivial⟩
  | sendToRelay body signature => cases h; exact ⟨rfl, trivial⟩
  | relayReply => cases h; exact ⟨rfl, trivial⟩
  | relayText => cases h; exact ⟨rfl, trivial⟩
  | sleep millis => cases h; exact ⟨rfl, trivial⟩
  | _ => cases h

/-- So every answer of the surroundings is a step from the state that the operation finds.
-/
theorem answer_exec {w : World} {p p' : Progress} {o : Op} {r : Res o}
    (h : w.answer p o = some (r, p')) : exec (w.found p) o r p'.shared := by
  unfold answer at h
  split at h
  · cases h
  unfold exec
  cases hperform : (w.found p).perform o with
  | some out =>
    rw [hperform] at h
    cases h
    rfl
  | none =>
    rw [hperform] at h
    exact elsewhere_answers h

/-- A handler run in a world: its events, what it leaves behind, what it returned. -/
def run {α : Type} (w : World) (h : Handler α) (p : Progress) :
    List OpEvent × Progress × Option α :=
  h.eval w.answer p

end World

namespace World

/-- The redirects that the calls of a request meet. -/
def redirects (w : World) : Redirects := ⟨w.follows, w.geth.hops, w.relay.hops⟩

/-- What Geth is sent in the course of a handler, whichever call brings it. -/
def atGeth {α : Type} (w : World) (h : Handler α) (s : Shared) : List Sent :=
  w.redirects.atGeth (w.run h (.start s)).1

end World

/-- An operation by which the request learns what the relay answered. -/
def Op.isRelayAnswer : Op → Bool
  | .relayReply | .relayText => true
  | _ => false

namespace World

/-- The same world with another relay. -/
def withRelay (w : World) (relay : RelayBehaviour) : World := { w with relay := relay }

/-- Only the relay's answers tell the two worlds apart. -/
theorem answer_withRelay (w : World) (relay : RelayBehaviour) (p : Progress) {o : Op}
    (h : o.isRelayAnswer = false) : (w.withRelay relay).answer p o = w.answer p o := by
  cases o with
  | relayReply => exact absurd h (by decide)
  | relayText => exact absurd h (by decide)
  | _ => rfl

/-- A handler that gets no answer from the relay runs alike with any relay. -/
theorem run_withRelay {α : Type} {h : Handler α} (hops : h.Ops fun o => o.isRelayAnswer = false)
    (w : World) (relay : RelayBehaviour) (p : Progress) :
    (w.withRelay relay).run h p = w.run h p := by
  have hans : ∀ p o, Op.isRelayAnswer o = false →
      (w.withRelay relay).answer p o = w.answer p o :=
    fun p _ ho => w.answer_withRelay relay p ho
  exact eval_congr hans hops p

/-- After a first part that ends well the second one goes on from where it has ended. -/
theorem run_andThen_ok {ε α β : Type} {w : World} {h : Handler (Except ε α)}
    {p t : Progress} {tr : List OpEvent} {a : α} (hrun : w.run h p = (tr, t, some (.ok a)))
    (f : α → Handler (Except ε β)) :
    w.run (h.andThen f) p = (tr ++ (w.run (f a) t).1, (w.run (f a) t).2) := by
  unfold run at hrun ⊢
  unfold Prog.andThen
  rw [eval_bind, hrun]

/-- After a first part that fails nothing more is done. -/
theorem run_andThen_error {ε α β : Type} {w : World} {h : Handler (Except ε α)}
    {p t : Progress} {tr : List OpEvent} {e : ε} (hrun : w.run h p = (tr, t, some (.error e)))
    (f : α → Handler (Except ε β)) :
    w.run (h.andThen f) p = (tr, t, some (.error e)) := by
  unfold run at hrun ⊢
  unfold Prog.andThen
  rw [eval_bind, hrun]
  simp

/-- What follows a run and sends nothing to Geth does not change what was sent. -/
theorem sentToGeth_bind {α β : Type} {h : Handler α} {f : α → Handler β}
    (hf : ∀ a, (f a).Ops fun o => ∀ r, o ≠ .sendToGeth r) (w : World) (p : Progress) :
    sentToGeth (w.run (h >>= f) p).1 = sentToGeth (w.run h p).1 := by
  unfold run
  rw [eval_bind]
  rcases h.eval w.answer p with ⟨tr, t, _ | a⟩
  · rfl
  · obtain ⟨q, htr, -⟩ := eval_trace (f a) t
    have hnone : sentToGeth ((f a).eval w.answer t).1 = [] :=
      sentToGeth_eq_nil ((hf a).events htr)
    simp only [sentToGeth_append, hnone, List.append_nil]

/-- A second part that calls Geth nowhere adds nothing to what Geth has been sent. -/
theorem sentToGeth_andThen {ε α β : Type} {h : Handler (Except ε α)}
    {f : α → Handler (Except ε β)} (hf : ∀ a, (f a).Ops fun o => ∀ r, o ≠ .sendToGeth r)
    (w : World) (p : Progress) :
    sentToGeth (w.run (h.andThen f) p).1 = sentToGeth (w.run h p).1 := by
  refine sentToGeth_bind (fun r => ?_) w p
  cases r with
  | ok a => exact hf a
  | error e => trivial

/-- One operation, then programs that send alike. -/
theorem sentToGeth_op {α β : Type} {o : Op} {k : Res o → Handler α} {k' : Res o → Handler β}
    {w : World} (h : ∀ r p, sentToGeth (w.run (k r) p).1 = sentToGeth (w.run (k' r) p).1)
    (p : Progress) :
    sentToGeth (w.run (.op o k) p).1 = sentToGeth (w.run (.op o k') p).1 := by
  unfold run at h ⊢
  cases hans : w.answer p o with
  | none => rw [eval_op_none hans, eval_op_none hans]
  | some rp =>
    rw [eval_op_some hans, eval_op_some hans]
    have hcons : ∀ tr, sentToGeth (⟨o, rp.1⟩ :: tr) = sentToGeth [⟨o, rp.1⟩] ++ sentToGeth tr :=
      fun tr => sentToGeth_append [⟨o, rp.1⟩] tr
    exact (hcons _).trans ((congrArg _ (h rp.1 rp.2)).trans (hcons _).symm)

/-- Two second parts that send Geth the same, wherever they start, make the whole send it
the same. -/
theorem sentToGeth_andThen_congr {ε α β γ : Type} {h : Handler (Except ε α)}
    {f : α → Handler (Except ε β)} {g : α → Handler (Except ε γ)} {w : World}
    (hfg : ∀ a p, sentToGeth (w.run (f a) p).1 = sentToGeth (w.run (g a) p).1) (p : Progress) :
    sentToGeth (w.run (h.andThen f) p).1 = sentToGeth (w.run (h.andThen g) p).1 := by
  unfold run at hfg ⊢
  unfold Prog.andThen
  rw [eval_bind, eval_bind]
  rcases h.eval w.answer p with ⟨tr, t, _ | (e | a)⟩
  · rfl
  · simp only [eval_pure]
  · simp only [sentToGeth_append, hfg]

/-- What a handler may send bounds what Geth is sent in any of its runs. -/
theorem sentToGeth_ops {α : Type} {h : Handler α} {P : JsonRpcRequest → Prop}
    (hops : h.Ops fun o => ∀ r, o = .sendToGeth r → P r) (w : World) (p : Progress) :
    ∀ r ∈ sentToGeth (w.run h p).1, P r := by
  intro r hr
  obtain ⟨q, htr, -⟩ : ∃ q, Trace h (w.run h p).1 q ∧ _ := eval_trace h p
  obtain ⟨e, he, her⟩ := List.mem_filterMap.mp hr
  have hop := hops.events htr e he
  split at her
  · next request heq =>
    cases her
    exact hop _ heq
  · cases her

end World

/-- A Geth that reports block 16 and a relay that cannot be reached; the clients
follow up to ten redirects, as `reqwest` does unless it is told otherwise. -/
def quietWorld : World where
  clock := fun _ => 0
  others := fun _ s => s
  cutOff := fun _ => false
  jitter := fun _ => 0
  geth := ⟨fun _ => .ok 200, fun _ => .ok "",
    fun _ => .ok (.object [("jsonrpc", .string "2.0"), ("result", .string "0x10")]),
    fun _ => []⟩
  relay := ⟨fun _ => .error "connection refused", fun _ => .ok "", fun _ => []⟩
  follows := 10

end Torpc
