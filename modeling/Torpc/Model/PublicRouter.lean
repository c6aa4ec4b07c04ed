import Torpc.Lib.Census
import Torpc.Model.App

/-!
# Every request to the public router

`App.lean` serves the requests that reach a JSON-RPC handler. This is the whole
of the router that `build_app` makes, for what has to count every request: the
page at `/`, the methods and bodies that a route does not take, and the files
behind the route table. `route_layer` puts `rate_limit_middleware` in front of
each path of the table, whatever the method; the fallback service is not behind
it.

A request that a JSON-RPC handler takes is answered as there
(`respond_eq_serve`). Its future may be dropped wherever it waits, because its
time is up or its connection has closed, and is dropped if it panics.
-/

namespace Torpc

open Effects Prog

/-- A request as the router gets it. The body is what the `Json` extractor makes
of it, or the status of its rejection. -/
structure PublicRequest where
  method : Http.Method
  path : String
  body : Except Nat JsonRpcRequest
  peer : Option (Net.IpAddr × UInt16)
  arrived : Nat

/-- The status with which `ServeDir` answers. -/
abbrev StaticFiles := Http.Method → String → Nat

def rateLimitMiddleware (peer : Option (Net.IpAddr × UInt16)) (next : Handler HttpResponse) :
    Handler HttpResponse := do
  if ← call (.checkConnLimit (getRequestIdentifier peer)) then next
  else return ⟨429, none⟩

namespace Daemon

/-- What a path of the table answers behind the limiter. -/
def endpoint (d : Daemon) (v : PublicRequest) : Endpoint → Handler HttpResponse
  | .serveRoot => return ⟨200, none⟩
  | .jsonRpc route =>
    match v.body with
    | .error status => return ⟨status, none⟩
    | .ok request => do
      let result ← d.handler route request
      return intoResponse result

/-- The public router. -/
def respond (d : Daemon) (files : StaticFiles) (v : PublicRequest) : Handler HttpResponse :=
  match publicRouter.dispatch v.method v.path with
  | .to e => rateLimitMiddleware v.peer (d.endpoint v e)
  | .methodNotAllowed => rateLimitMiddleware v.peer (return ⟨405, none⟩)
  | .fallback => return ⟨files v.method v.path, none⟩

end Daemon

/-- The parsed request that a JSON-RPC handler gets, if this is one. -/
def PublicRequest.arrival (v : PublicRequest) : Option Arrival :=
  match publicRouter.dispatch v.method v.path, v.body with
  | .to (.jsonRpc route), .ok request => some ⟨route, request, v.peer, v.arrived⟩
  | _, _ => none

namespace Daemon

/-- A request that a handler takes is served. -/
theorem respond_eq_serve {v : PublicRequest} {a : Arrival} (h : v.arrival = some a) (d : Daemon)
    (files : StaticFiles) : d.respond files v = d.serve a := by
  unfold PublicRequest.arrival at h
  split at h
  · next route request hroute hbody =>
    obtain rfl := Option.some.inj h
    unfold respond
    rw [hroute]
    dsimp only [endpoint]
    rw [hbody]
    rfl
  · cases h

/-- Any other request is put to the limiter at most. -/
theorem ops_respond_other {v : PublicRequest} (h : v.arrival = none) (d : Daemon)
    (files : StaticFiles) :
    (d.respond files v).Ops fun o => o = .checkConnLimit (getRequestIdentifier v.peer) := by
  have hlimited : ∀ status, (rateLimitMiddleware v.peer (return ⟨status, none⟩)).Ops
      fun o => o = .checkConnLimit (getRequestIdentifier v.peer) := by
    intro status
    refine ⟨rfl, fun ok => ?_⟩
    cases ok <;> trivial
  unfold respond
  split
  · next e hroute =>
    cases e with
    | serveRoot => exact hlimited 200
    | jsonRpc route =>
      dsimp only [endpoint]
      cases hbody : v.body with
      | error status => exact hlimited status
      | ok request => simp [PublicRequest.arrival, hroute, hbody] at h
  · exact hlimited 405
  · trivial

/-- Time passes, or the cleanup task runs. -/
def housekeeping (s s' : Shared) : Prop :=
  (∃ now, s.now ≤ now ∧ s' = { s with now := now }) ∨
    ∃ l, s.rateLimiter.cleanup s.now = some l ∧ s' = { s with rateLimiter := l }

/-- The public router serving requests, any number at once. -/
def publicSystem (d : Daemon) (files : StaticFiles) : System Op Res HttpResponse where
  Shared := Shared
  Job := PublicRequest
  prog := d.respond files
  accepts s v := v.arrived = s.now
  exec := exec
  env := housekeeping
  mayCancel _ _ o := o.awaits = true ∨ o = .panic

/-- A run of the public router from its start at instant `t`. -/
def PublicRun (d : Daemon) (files : StaticFiles) (t : Nat)
    (ls : List (d.publicSystem files).Label) (c : (d.publicSystem files).Config) : Prop :=
  Lts.Run (System.Step (d.publicSystem files)) ((d.publicSystem files).start (d.initial t)) ls c

/-- One more request, served before anything else happens. -/
theorem PublicRun.served {d : Daemon} {files : StaticFiles} {t : Nat}
    {ls : List (d.publicSystem files).Label} {c : (d.publicSystem files).Config}
    (h : d.PublicRun files t ls c) {v : PublicRequest} {tr : List OpEvent} {response : HttpResponse}
    {s' : Shared} (hv : v.arrived = c.shared.now)
    (hperf : Performs exec (d.respond files v) c.shared tr (.pure response) s') :
    ∃ c', d.PublicRun files t
      (ls ++ (.spawn c.next v :: tr.map (.act c.next) ++ [.done c.next response])) c' ∧
      c'.shared = s' ∧ c'.next = c.next + 1 ∧
      c'.threads = Function.update c.threads c.next none := by
  obtain ⟨c', hserved, hc'⟩ :=
    System.run_served (S := d.publicSystem files) (c := c) hv hperf
  exact ⟨c', h.append hserved, hc'⟩

end Daemon

-- ---------------------------------------------------------------------------
-- A request that is alone with a plain daemon
-- ---------------------------------------------------------------------------

def chainIdQuery : PublicRequest :=
  ⟨.post, Route.rpc.path, .ok ⟨"2.0", "eth_chainId", none, some (.nat 1)⟩, none, 0⟩

def chainIdReply : Value := .object [("jsonrpc", .string "2.0"), ("result", .string "0x1")]

def chainIdExchange : List OpEvent :=
  [⟨.checkConnLimit "unknown", true⟩, ⟨.canProceed .geth, true⟩,
    ⟨.sendToGeth ⟨"2.0", "eth_chainId", none, some (.nat 1)⟩, ()⟩, ⟨.gethReply, .ok 200⟩,
    ⟨.gethJson, .ok chainIdReply⟩, ⟨.recordSuccess .geth, ()⟩]

/-- Geth answers it, and the daemon passes the answer on. -/
theorem performs_chainIdExchange (files : StaticFiles) :
    Performs exec (plainDaemon.respond files chainIdQuery) (plainDaemon.initial 0) chainIdExchange
      (.pure ⟨200, some ⟨"2.0", some (.string "0x1"), none, none⟩⟩)
      (plainDaemon.admitted 0 "unknown") :=
  .cons (plainDaemon.exec_first_conn 0 "unknown") (.cons rfl (.cons ⟨rfl, trivial⟩
    (.cons ⟨rfl, trivial⟩ (.cons ⟨rfl, trivial⟩ (.cons rfl (.nil _ _))))))

end Torpc
