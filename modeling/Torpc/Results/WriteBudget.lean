import Torpc.Model.World

/-!
# The write budget on every route

A write method has one bucket for the whole daemon, and a request is meant to
take one charge from it. On the relay route without a relay it takes two: the
relay handler charges, and then hands over to the standard handler, which
charges again. A run of requests within one window gets what the limit promises
exactly when those second charges still fit into it (`budget_exact_iff`).
-/

namespace Torpc

open Effects Prog FixedWindow

/-- The write limiter after `c` charges of `method` in a window that began in
`[a, a + W)`. -/
structure Budget (limiter : RateLimiter) (M : UInt32) (W a : Nat) (method : String) (c : Nat) :
    Prop where
  config : limiter.config = ⟨M, W⟩
  le : c ≤ M.toNat
  empty : c = 0 → limiter.window method = none
  charged : c ≠ 0 → ∃ start, a ≤ start ∧ limiter.window method = some ⟨c, start⟩

/-- One more check within the window is admitted just if there is room in the budget, and
leaves less of it. -/
theorem Budget.check {limiter : RateLimiter} {M : UInt32} {W a : Nat} {method : String} {c : Nat}
    (h : Budget limiter M W a method c) (hM : 0 < M.toNat) {now : Nat} (hlo : a ≤ now)
    (hhi : now < a + W) :
    (limiter.checkRateLimit now method).1 = decide (c < M.toNat) ∧
    Budget (limiter.checkRateLimit now method).2 M W a method (min (c + 1) M.toNat) := by
  obtain ⟨hok, hwindow⟩ := RateLimiter.checkRateLimit_refines now method limiter
  have hconfig : (limiter.checkRateLimit now method).2.config = ⟨M, W⟩ := by
    rw [RateLimiter.checkRateLimit_config, h.config]
  rw [h.config] at hok hwindow
  have hself := congrFun hwindow method
  rw [Function.update_self] at hself
  by_cases hc : c = 0
  · -- the first charge opens the window
    subst hc
    rw [h.empty rfl] at hok hself
    refine ⟨by rw [hok]; simp [charge, hM], hconfig, by omega, by omega, fun _ => ?_⟩
    refine ⟨now, hlo, ?_⟩
    rw [hself, charge]
    simp only [Option.some.injEq, Window.mk.injEq, and_true]
    omega
  · -- later ones fall into it
    obtain ⟨start, hstart, hw⟩ := h.charged hc
    have hin : now - start < W := by omega
    rw [hw] at hok hself
    simp only [charge, if_pos hin] at hok hself
    by_cases hfull : M.toNat ≤ c
    · -- a refusal takes nothing
      rw [if_pos hfull] at hok hself
      have hcM := h.le
      have hmin : min (c + 1) M.toNat = c := by omega
      rw [hmin]
      refine ⟨by rw [hok]; simp; omega, hconfig, h.le, fun h0 => absurd h0 hc, fun _ => ?_⟩
      exact ⟨start, hstart, hself⟩
    · rw [if_neg hfull] at hok hself
      have hmin : min (c + 1) M.toNat = c + 1 := by omega
      rw [hmin]
      refine ⟨by rw [hok]; simp; omega, hconfig, by omega, by omega, fun _ => ?_⟩
      exact ⟨start, hstart, hself⟩

/-- A world in which nothing but the request itself touches the bucket of its
method, all of it happens in the window `[a, a + W)`, and the timeout does not
strike before the budget is settled. -/
structure World.InWindow (w : World) (method : String) (a W : Nat) : Prop where
  clock : ∀ n, a ≤ w.clock n ∧ w.clock n < a + W
  others : ∀ n s,
    (w.others n s).writeMethodLimiter.config = s.writeMethodLimiter.config ∧
    (w.others n s).writeMethodLimiter.window method = s.writeMethodLimiter.window method
  cutOff : w.cutOff 0 = false ∧ w.cutOff 1 = false

/-- In a window in which nobody is cut off, a request gets to its second operation at least.
-/
theorem World.InWindow.awaited {w : World} {method : String} {a W n : Nat}
    (hw : w.InWindow method a W) (hn : n ≤ 1) : w.cutOff n = false := by
  have h01 : n = 0 ∨ n = 1 := by omega
  rcases h01 with rfl | rfl
  · exact hw.cutOff.1
  · exact hw.cutOff.2

/-- What the others do before the next operation leaves the budget as it is. -/
theorem Budget.found {w : World} {p : Progress} {M : UInt32} {W a : Nat} {method : String}
    {c : Nat} (hw : w.InWindow method a W)
    (h : Budget p.shared.writeMethodLimiter M W a method c) :
    Budget (w.found p).writeMethodLimiter M W a method c := by
  obtain ⟨hconfig, hwindow⟩ := hw.others p.performed p.shared
  refine ⟨hconfig.trans h.config, h.le, fun hc => hwindow.trans (h.empty hc), fun hc => ?_⟩
  obtain ⟨start, hstart, hw⟩ := h.charged hc
  exact ⟨start, hstart, hwindow.trans hw⟩

/-- The request was let past the write limiter each time it asked. -/
def PassedLimiter (tr : List OpEvent) : Prop :=
  ∀ method ok, (⟨.checkWriteLimit method, ok⟩ : OpEvent) ∈ tr → ok = true

/-- The world answers a check of the write budget by the limiter that it has found, at the time of
the question, and leaves behind what the limiter has become. -/
theorem World.answer_checkWrite {w : World} {p : Progress} (method : String)
    (hcut : w.cutOff p.performed = false) :
    ∃ p', w.answer p (.checkWriteLimit method) = some
        (((w.found p).writeMethodLimiter.checkRateLimit (w.clock p.performed) method).1, p') ∧
      p'.performed = p.performed + 1 ∧ p'.shared.writeMethodLimiter =
        ((w.found p).writeMethodLimiter.checkRateLimit (w.clock p.performed) method).2 := by
  refine ⟨⟨{ w.found p with writeMethodLimiter := _ }, p.performed + 1, p.toGeth, p.toRelay⟩,
    ?_, rfl, rfl⟩
  simp only [World.answer, hcut, Bool.and_false, Bool.false_eq_true, if_false, Shared.perform]
  rfl

/-- Nothing but a charge changes the write limiter. -/
theorem World.answer_keeps {w : World} {p p' : Progress} {o : Op} {r : Res o}
    (ho : ∀ method, o ≠ .checkWriteLimit method) (h : w.answer p o = some (r, p')) :
    p'.shared.writeMethodLimiter = (w.found p).writeMethodLimiter :=
  exec_writeMethodLimiter (answer_exec h) ho

section Charges

variable {M : UInt32} {W a : Nat} {method : String} {w : World}

/-- A charge that fits into the budget. -/
theorem run_check_pass (hM : 0 < M.toNat) (hw : w.InWindow method a W)
    (hmethod : method ∈ writeMethods) {p : Progress} {c : Nat} (hp : p.performed ≤ 1)
    (h : Budget p.shared.writeMethodLimiter M W a method c) (hc : c < M.toNat) :
    ∃ p', w.run (checkWriteMethodRateLimit method) p =
        ([⟨.checkWriteLimit method, true⟩], p', some (.ok ())) ∧
      p'.performed = p.performed + 1 ∧
      Budget p'.shared.writeMethodLimiter M W a method (c + 1) := by
  obtain ⟨hok, hbudget⟩ := (h.found hw).check hM (hw.clock p.performed).1 (hw.clock p.performed).2
  obtain ⟨p', hans, hperformed, hlimiter⟩ :=
    World.answer_checkWrite method (hw.awaited hp)
  rw [decide_eq_true hc] at hok
  rw [hok] at hans
  refine ⟨p', ?_, hperformed, ?_⟩
  · rw [World.run, checkWrite_eq hmethod, eval_op_some hans]
    rfl
  · rw [hlimiter]
    have hmin : min (c + 1) M.toNat = c + 1 := by omega
    rw [hmin] at hbudget
    exact hbudget

/-- A charge with the budget used up. -/
theorem run_check_refuse (hM : 0 < M.toNat) (hw : w.InWindow method a W)
    (hmethod : method ∈ writeMethods) {p : Progress} (hp : p.performed ≤ 1)
    (h : Budget p.shared.writeMethodLimiter M W a method M.toNat) :
    ∃ p' tr, w.run (checkWriteMethodRateLimit method) p =
        (⟨.checkWriteLimit method, false⟩ :: tr, p', some (.error .rateLimitExceeded)) ∧
      Budget p'.shared.writeMethodLimiter M W a method M.toNat := by
  obtain ⟨hok, hbudget⟩ := (h.found hw).check hM (hw.clock p.performed).1 (hw.clock p.performed).2
  obtain ⟨p₁, hans, hperformed, hlimiter⟩ :=
    World.answer_checkWrite method (hw.awaited hp)
  rw [decide_eq_false (Nat.lt_irrefl _)] at hok
  rw [hok] at hans
  obtain ⟨p₂, hans₂⟩ : ∃ p₂, w.answer p₁ (.increment .rateLimitHits) = some ((), p₂) :=
    ⟨_, rfl⟩
  refine ⟨p₂, [⟨.increment .rateLimitHits, ()⟩], ?_, ?_⟩
  · rw [World.run, checkWrite_eq hmethod, eval_op_some hans]
    simp only [Bool.false_eq_true, if_false]
    rw [eval_op_some hans₂]
    rfl
  · have hmin : min (M.toNat + 1) M.toNat = M.toNat := by omega
    rw [hmin, ← hlimiter] at hbudget
    rw [World.answer_keeps (by simp) hans₂]
    exact hbudget.found hw

/-- An operation that takes nothing from the budget. -/
def NoCharge (o : Op) : Prop := ∀ method, o ≠ .checkWriteLimit method

/-- How a request comes out of the limiter: past it if `pass`, and otherwise
refused, with `c` charges taken afterwards. -/
structure Settled (M : UInt32) (W a : Nat) (method : String)
    (out : List OpEvent × Progress × Option (ProxyResult JsonRpcResponse)) (pass : Prop)
    (c : Nat) : Prop where
  passed : PassedLimiter out.1 ↔ pass
  refused : ¬ pass → out.2.2 = some (.error .rateLimitExceeded)
  budget : Budget out.2.1.shared.writeMethodLimiter M W a method c

/-- A check that was passed does not stop a request from passing the others. -/
theorem passedLimiter_cons {tr : List OpEvent} :
    PassedLimiter (⟨.checkWriteLimit method, true⟩ :: tr) ↔ PassedLimiter tr := by
  constructor
  · intro h m ok hmem
    exact h m ok (List.mem_cons_of_mem _ hmem)
  · intro h m ok hmem
    rcases List.mem_cons.mp hmem with heq | hmem
    · cases heq
      rfl
    · exact h m ok hmem

/-- A request that was refused once has not passed the limiter, whatever comes after. -/
theorem not_passedLimiter {tr : List OpEvent} :
    ¬ PassedLimiter (⟨.checkWriteLimit method, false⟩ :: tr) := by
  intro h
  exact Bool.false_ne_true (h method false List.mem_cons_self)

/-- A part that charges nothing leaves the budget and passes. -/
theorem run_noCharge (hw : w.InWindow method a W) {f : Handler (ProxyResult JsonRpcResponse)}
    (hf : f.Ops NoCharge) {p : Progress} {c : Nat}
    (h : Budget p.shared.writeMethodLimiter M W a method c) :
    Settled M W a method (w.run f p) True c := by
  refine ⟨iff_of_true ?_ trivial, fun h => absurd trivial h, ?_⟩
  · intro m ok hmem
    obtain ⟨q, htr, -⟩ : ∃ q, Trace f (w.run f p).1 q ∧ _ := eval_trace f p
    exact absurd rfl (hf.events htr _ hmem m)
  · exact eval_invariant
      (I := fun p : Progress => Budget p.shared.writeMethodLimiter M W a method c)
      (fun p o r p' ho hp hans => by rw [World.answer_keeps ho hans]; exact hp.found hw) hf h

/-- One charge in front of a part that takes `k` more. -/
theorem run_charge (hM : 0 < M.toNat) (hw : w.InWindow method a W) (hmethod : method ∈ writeMethods)
    {f : Handler (ProxyResult JsonRpcResponse)} {p : Progress} {c k : Nat} (hp : p.performed ≤ 1)
    (h : Budget p.shared.writeMethodLimiter M W a method c)
    (hf : ∀ p', p'.performed = p.performed + 1 →
      Budget p'.shared.writeMethodLimiter M W a method (c + 1) →
      Settled M W a method (w.run f p') (c + 1 + k ≤ M.toNat) (min (c + 1 + k) M.toNat)) :
    Settled M W a method (w.run ((checkWriteMethodRateLimit method).andThen fun _ => f) p)
      (c + 1 + k ≤ M.toNat) (min (c + 1 + k) M.toNat) := by
  have hcM := h.le
  by_cases hc : c < M.toNat
  · obtain ⟨p', hrun, hperformed, hbudget⟩ := run_check_pass hM hw hmethod hp h hc
    have hrest := hf p' hperformed hbudget
    rw [World.run_andThen_ok hrun]
    exact ⟨passedLimiter_cons.trans hrest.passed, hrest.refused, hrest.budget⟩
  · have hfull : c = M.toNat := by omega
    subst hfull
    obtain ⟨p', tr, hrun, hbudget⟩ := run_check_refuse hM hw hmethod hp h
    rw [World.run_andThen_error hrun]
    have hmin : min (M.toNat + 1 + k) M.toNat = M.toNat := by omega
    rw [hmin]
    exact ⟨iff_of_false not_passedLimiter (by omega), fun _ => rfl, hbudget⟩

/-- The charge of a request whose handler takes one. -/
theorem run_charge_once (hM : 0 < M.toNat) (hw : w.InWindow method a W)
    (hmethod : method ∈ writeMethods) {f : Handler (ProxyResult JsonRpcResponse)}
    (hf : f.Ops NoCharge) {p : Progress} {c : Nat} (hp : p.performed ≤ 1)
    (h : Budget p.shared.writeMethodLimiter M W a method c) :
    Settled M W a method (w.run ((checkWriteMethodRateLimit method).andThen fun _ => f) p)
      (c + 1 ≤ M.toNat) (min (c + 1) M.toNat) := by
  refine run_charge (k := 0) hM hw hmethod hp h fun p' _ hbudget => ?_
  have hrest := run_noCharge hw hf hbudget
  have hle := hbudget.le
  have hmin : min (c + 1 + 0) M.toNat = c + 1 := by omega
  rw [hmin]
  exact ⟨hrest.passed.trans (by simp; omega), fun hn => absurd hle hn, hrest.budget⟩

end Charges

-- ---------------------------------------------------------------------------
-- The handlers
-- ---------------------------------------------------------------------------

/-- Telling the breaker how an exchange went charges nothing. -/
theorem noCharge_of_outcome {o : Op} (h : o.isGethOutcome = true) : NoCharge o := by
  rintro method rfl
  exact absurd h (by simp [Op.isGethOutcome])

/-- Nor does anything that is done with the relay. -/
theorem noCharge_of_relayOp {o : Op} (h : o.isRelayOp = true) : NoCharge o := by
  rintro method rfl
  exact absurd h (by simp [Op.isRelayOp])

/-- Forwarding a request to Geth charges nothing, whatever comes back. -/
theorem proxyToGeth_noCharge (x : Externals) (request : JsonRpcRequest) :
    (proxyToGeth x request).Ops NoCharge :=
  ops_proxyToGeth x request (fun _ => by simp) (fun _ => by simp) fun _ => noCharge_of_outcome

/-- Without a key, too, what is done behind the limiter charges nothing: a bundle is
answered at once, and the rest is forwarded. -/
theorem proxyToFlashbots_noCharge (x : Externals) (request : JsonRpcRequest) :
    (proxyToFlashbots x request).Ops NoCharge := by
  unfold proxyToFlashbots
  split
  · trivial
  · exact proxyToGeth_noCharge x request

/-- What the relay's client does with a request behind the limiter charges nothing more. -/
theorem dispatch_noCharge (client : MevRelayClient) (x : Externals) (request : JsonRpcRequest) :
    (client.dispatch x request).Ops NoCharge :=
  client.ops_dispatch (proxyToGeth_noCharge x) fun _ => noCharge_of_relayOp

/-- Past validation and the allow-list, a gated handler charges and forwards. -/
theorem gated_write {request : JsonRpcRequest} (hvalid : request.validate = .ok ())
    (hmethod : request.method ∈ writeMethods) (f : Handler (ProxyResult JsonRpcResponse)) :
    gated request f = (checkWriteMethodRateLimit request.method).andThen fun _ => f := by
  have hallowed : isMethodAllowed request.method = true := by
    have hall : ∀ m ∈ writeMethods, isMethodAllowed m = true := by decide
    exact hall _ hmethod
  unfold gated
  rw [hvalid]
  simp only [hallowed]
  rfl

/-- The charges that a valid write request takes on a route. -/
def Daemon.charges (d : Daemon) : Route → Nat
  | .rpc | .rpcSlash => 1
  | .flashbots | .flashbotsSlash => if d.mevClient.isSome then 1 else 2

/-- A valid write request is let past if all its charges still fit. -/
theorem handler_settles {d : Daemon} {M : UInt32} {W a : Nat} (hM : 0 < M.toNat) {w : World}
    {request : JsonRpcRequest} (hw : w.InWindow request.method a W) (route : Route)
    (hvalid : request.validate = .ok ()) (hmethod : request.method ∈ writeMethods) {s : Shared}
    {c : Nat} (h : Budget s.writeMethodLimiter M W a request.method c) :
    Settled M W a request.method (w.run (d.handler route request) (.start s))
      (c + d.charges route ≤ M.toNat) (min (c + d.charges route) M.toNat) := by
  have hrpc : Settled M W a request.method (w.run (handleRpc d.externals request) (.start s))
      (c + 1 ≤ M.toNat) (min (c + 1) M.toNat) := by
    unfold handleRpc
    rw [gated_write hvalid hmethod]
    exact run_charge_once hM hw hmethod (proxyToGeth_noCharge _ _) (Nat.zero_le 1) h
  have hmev : Settled M W a request.method
      (w.run (handleFlashbotsWithMev d.externals d.mevClient request) (.start s))
      (c + (if d.mevClient.isSome then 1 else 2) ≤ M.toNat)
      (min (c + if d.mevClient.isSome then 1 else 2) M.toNat) := by
    unfold handleFlashbotsWithMev
    cases d.mevClient with
    | some client =>
      exact run_charge_once hM hw hmethod (dispatch_noCharge client _ _) (Nat.zero_le 1) h
    | none =>
      -- the standard handler charges a second time
      refine run_charge (k := 1) hM hw hmethod (Nat.zero_le 1) h fun p' hp' hbudget => ?_
      unfold handleFlashbots
      rw [gated_write hvalid hmethod]
      refine run_charge_once hM hw hmethod ?_ (Nat.le_of_eq hp') hbudget
      split
      · exact proxyToFlashbots_noCharge _ _
      · exact proxyToGeth_noCharge _ _
  cases route with
  | rpc => exact hrpc
  | rpcSlash => exact hrpc
  | flashbots => exact hmev
  | flashbotsSlash => exact hmev

-- ---------------------------------------------------------------------------
-- A sequence of requests
-- ---------------------------------------------------------------------------

/-- A request for the same write method, in its surroundings. -/
structure WriteRequest (method : String) (a W : Nat) where
  route : Route
  request : JsonRpcRequest
  valid : request.validate = .ok ()
  same : request.method = method
  world : World
  inWindow : world.InWindow method a W

/-- The requests one after another: of each, what it did and how it ended. -/
def serveAll (d : Daemon) {method : String} {a W : Nat} :
    List (WriteRequest method a W) → Shared →
      List (List OpEvent × Option (ProxyResult JsonRpcResponse))
  | [], _ => []
  | r :: rs, s =>
    let (tr, p, result) := r.world.run (d.handler r.route r.request) (.start s)
    (tr, result) :: serveAll d rs p.shared

/-- The first `M` requests pass the limiter and the later ones are refused. -/
def BudgetExact (M : UInt32) (outs : List (List OpEvent × Option (ProxyResult JsonRpcResponse))) :
    Prop :=
  ∀ j out, outs[j]? = some out →
    (j < M.toNat → PassedLimiter out.1) ∧
    (M.toNat ≤ j → ¬ PassedLimiter out.1 ∧ out.2 = some (.error .rateLimitExceeded))

/-- The charges taken by a list of requests. -/
def Daemon.total (d : Daemon) {method : String} {a W : Nat} (rs : List (WriteRequest method a W)) :
    Nat :=
  (rs.map fun r => d.charges r.route).sum

/-- The charges for a list of requests add up. -/
theorem Daemon.total_cons (d : Daemon) {method : String} {a W : Nat}
    (r : WriteRequest method a W) (rs : List (WriteRequest method a W)) :
    d.total (r :: rs) = d.charges r.route + d.total rs := by
  simp [total]

/-- Every route charges a write request at least once. -/
theorem Daemon.charges_pos (d : Daemon) (route : Route) : 1 ≤ d.charges route := by
  cases route <;> simp only [charges] <;> first | omega | (split <;> omega)

/-- There are no more requests than charges. -/
theorem Daemon.length_le_total (d : Daemon) {method : String} {a W : Nat}
    (rs : List (WriteRequest method a W)) : rs.length ≤ d.total rs := by
  induction rs with
  | nil => exact Nat.le_refl 0
  | cons r rs ih =>
    have hpos := d.charges_pos r.route
    rw [d.total_cons, List.length_cons]
    omega

/-- A request passes if the charges up to and including its own fit. -/
theorem serveAll_settles {d : Daemon} {M : UInt32} (hM : 0 < M.toNat) {method : String}
    {a W : Nat} (hmethod : method ∈ writeMethods) (rs : List (WriteRequest method a W)) {s : Shared}
    {c : Nat} (h : Budget s.writeMethodLimiter M W a method (min c M.toNat)) {j : Nat}
    {out : List OpEvent × Option (ProxyResult JsonRpcResponse)}
    (hj : (serveAll d rs s)[j]? = some out) :
    (PassedLimiter out.1 ↔ c + d.total (rs.take (j + 1)) ≤ M.toNat) ∧
    (¬ c + d.total (rs.take (j + 1)) ≤ M.toNat → out.2 = some (.error .rateLimitExceeded)) := by
  induction rs generalizing s c j with
  | nil => simp [serveAll] at hj
  | cons r rs ih =>
    obtain ⟨route, request, hvalid, rfl, w, hw⟩ := r
    have hpos := d.charges_pos route
    have hfirst := handler_settles (d := d) hM hw route hvalid hmethod h
    cases j with
    | zero =>
      -- the first request takes its own charges and no others
      simp only [serveAll, List.getElem?_cons_zero, Option.some.injEq] at hj
      subst hj
      have hfit : min c M.toNat + d.charges route ≤ M.toNat ↔
          c + d.total (List.take (0 + 1) (⟨route, request, hvalid, rfl, w, hw⟩ :: rs)) ≤
            M.toNat := by
        simp only [Nat.zero_add, List.take_succ_cons, List.take_zero, d.total_cons]
        simp only [Daemon.total, List.map_nil, List.sum_nil, Nat.add_zero]
        omega
      rw [← hfit]
      exact ⟨hfirst.passed, hfirst.refused⟩
    | succ j =>
      simp only [serveAll, List.getElem?_cons_succ] at hj
      have hbudget := hfirst.budget
      -- what it leaves behind is capped, and so is what the rest starts from
      have hmin : min (min c M.toNat + d.charges route) M.toNat =
          min (c + d.charges route) M.toNat := by omega
      rw [hmin] at hbudget
      have hrest := ih hbudget hj
      rw [List.take_succ_cons, d.total_cons]
      have hassoc : c + (d.charges route + d.total (rs.take (j + 1))) =
          c + d.charges route + d.total (rs.take (j + 1)) := by omega
      rw [hassoc]
      exact hrest

/-- Every request gets an outcome. -/
theorem serveAll_length (d : Daemon) {method : String} {a W : Nat}
    (rs : List (WriteRequest method a W)) (s : Shared) : (serveAll d rs s).length = rs.length := by
  induction rs generalizing s with
  | nil => rfl
  | cons r rs ih =>
    simp only [serveAll, List.length_cons]
    rw [ih]

/-- The longer the list, the higher the charge. -/
theorem Daemon.total_take_le (d : Daemon) {method : String} {a W : Nat}
    (rs : List (WriteRequest method a W)) {m n : Nat} (hmn : m ≤ n) :
    d.total (rs.take m) ≤ d.total (rs.take n) := by
  have hsplit : rs.take n = rs.take m ++ (rs.take n).drop m := by
    conv_lhs => rw [← List.take_append_drop m (rs.take n), List.take_take, Nat.min_eq_left hmn]
  rw [hsplit, total, total, List.map_append, List.sum_append]
  exact Nat.le_add_right _ _

/-- The requests among these that go to the relay route. -/
def onRelayRoute {method : String} {a W : Nat} (rs : List (WriteRequest method a W)) : Nat :=
  (rs.filter fun r => r.route = .flashbots ∨ r.route = .flashbotsSlash).length

/-- The requests on the relay's route are counted one by one. -/
theorem onRelayRoute_cons {method : String} {a W : Nat} (r : WriteRequest method a W)
    (rs : List (WriteRequest method a W)) : onRelayRoute (r :: rs) =
      (if r.route = .flashbots ∨ r.route = .flashbotsSlash then 1 else 0) + onRelayRoute rs := by
  unfold onRelayRoute
  by_cases hr : r.route = .flashbots ∨ r.route = .flashbotsSlash
  · rw [List.filter_cons_of_pos (by simpa using hr), if_pos hr, List.length_cons, Nat.add_comm]
  · rw [List.filter_cons_of_neg (by simpa using hr), if_neg hr, Nat.zero_add]

/-- Without a relay, a request on the relay route takes one charge more. -/
theorem Daemon.total_eq (d : Daemon) {method : String} {a W : Nat}
    (rs : List (WriteRequest method a W)) :
    d.total rs = rs.length + if d.mevClient.isSome then 0 else onRelayRoute rs := by
  induction rs with
  | nil => simp [total, onRelayRoute]
  | cons r rs ih =>
    rw [d.total_cons, ih, List.length_cons, onRelayRoute_cons]
    by_cases hmev : d.mevClient.isSome = true
    · have hone : d.charges r.route = 1 := by
        cases r.route <;> simp [charges, hmev]
      rw [hone, if_pos hmev, if_pos hmev]
      omega
    · have hroute : d.charges r.route =
          1 + if r.route = .flashbots ∨ r.route = .flashbotsSlash then 1 else 0 := by
        cases r.route <;> simp [charges, hmev]
      rw [hroute, if_neg hmev, if_neg hmev]
      omega

/-- From an empty bucket, the first `M` requests pass and the later ones are
refused, exactly when a relay is configured or the double charges among the
first `M` fit into the budget. -/
theorem budget_exact_iff (d : Daemon) (M : UInt32) (hM : 0 < M.toNat) (method : String)
    (hmethod : method ∈ writeMethods) (a W : Nat) (rs : List (WriteRequest method a W))
    (s : Shared) (hlimit : s.writeMethodLimiter.config = ⟨M, W⟩)
    (hbucket : s.writeMethodLimiter.requests.lookup method = none) :
    BudgetExact M (serveAll d rs s) ↔
      d.mevClient.isSome = true ∨
        (rs.take M.toNat).length + onRelayRoute (rs.take M.toNat) ≤ M.toNat := by
  have hempty : Budget s.writeMethodLimiter M W a method (min 0 M.toNat) := by
    rw [Nat.zero_min]
    refine ⟨hlimit, Nat.zero_le _, fun _ => ?_, fun h => absurd rfl h⟩
    rw [RateLimiter.window, hbucket]
    rfl
  have hcond : d.total (rs.take M.toNat) ≤ M.toNat ↔ d.mevClient.isSome = true ∨
      (rs.take M.toNat).length + onRelayRoute (rs.take M.toNat) ≤ M.toNat := by
    have hlen : (rs.take M.toNat).length ≤ M.toNat := List.length_take_le _ _
    rw [d.total_eq]
    by_cases hmev : d.mevClient.isSome = true
    · rw [if_pos hmev]
      exact iff_of_true hlen (.inl hmev)
    · rw [if_neg hmev]
      exact ⟨.inr, fun h => h.resolve_left hmev⟩
  rw [← hcond]
  constructor
  · intro h
    by_cases hnil : rs = []
    · subst hnil
      simp [Daemon.total]
    -- the last of the first `M` requests passes, so all charges up to it fit
    have hpos : 0 < rs.length := List.length_pos_iff.mpr hnil
    obtain ⟨j, hj⟩ : ∃ j, j + 1 = min M.toNat rs.length := ⟨min M.toNat rs.length - 1, by omega⟩
    have hlt : j < (serveAll d rs s).length := by
      rw [serveAll_length]
      omega
    have hout := List.getElem?_eq_getElem hlt
    have hpass := (h j _ hout).1 (by omega)
    have hfit := (serveAll_settles hM hmethod rs hempty hout).1.mp hpass
    rw [hj, Nat.zero_add] at hfit
    rw [List.take_eq_take_min]
    exact hfit
  · intro h j out hout
    obtain ⟨hpassed, hrefused⟩ := serveAll_settles hM hmethod rs hempty hout
    rw [Nat.zero_add] at hpassed hrefused
    refine ⟨fun hj => hpassed.mpr ?_, fun hj => ?_⟩
    · have hmono := d.total_take_le rs (show j + 1 ≤ M.toNat by omega)
      omega
    · -- every request takes at least one charge
      have hlt : j < rs.length := by
        have hj' := (List.getElem?_eq_some_iff.mp hout).1
        rw [serveAll_length] at hj'
        exact hj'
      have hlen := d.length_le_total (rs.take (j + 1))
      rw [List.length_take] at hlen
      have hover : ¬ d.total (rs.take (j + 1)) ≤ M.toNat := by omega
      exact ⟨fun hp => hover (hpassed.mp hp), hrefused hover⟩

/-- A write request in quiet surroundings. -/
def quietRequest (route : Route) : WriteRequest "eth_sendRawTransaction" 0 (60 * nanosPerSec) where
  route := route
  request := ⟨"2.0", "eth_sendRawTransaction", some (.array [.string "0xaa"]), some (.nat 1)⟩
  valid := rfl
  same := rfl
  world := quietWorld
  inWindow := by
    have hpos : 0 < 0 + 60 * nanosPerSec := by decide
    exact ⟨fun _ => ⟨Nat.le_refl 0, hpos⟩, fun _ _ => ⟨rfl, rfl⟩, rfl, rfl⟩

/-- A daemon without a relay whose write limit is `M`. -/
def limitedDaemon (M : UInt32) : Daemon :=
  { plainDaemon with writeLimit := ⟨M, 60 * nanosPerSec⟩ }

/-- Two requests on the standard route with a budget of two. -/
theorem budget_exact_standard :
    BudgetExact 2 (serveAll (limitedDaemon 2) [quietRequest .rpc, quietRequest .rpcSlash]
      ((limitedDaemon 2).initial 0)) :=
  (budget_exact_iff (limitedDaemon 2) 2 (by decide) "eth_sendRawTransaction" (by decide) 0
    (60 * nanosPerSec) [quietRequest .rpc, quietRequest .rpcSlash] ((limitedDaemon 2).initial 0)
    rfl rfl).mpr (.inr (by decide))

/-- With a budget of one, the first request on the relay route is refused. -/
theorem first_request_refused :
    ((serveAll (limitedDaemon 1) [quietRequest .flashbots] ((limitedDaemon 1).initial 0))[0]?).map
        Prod.snd = some (some (.error .rateLimitExceeded)) ∧
      ¬ BudgetExact 1 (serveAll (limitedDaemon 1) [quietRequest .flashbots]
        ((limitedDaemon 1).initial 0)) := by
  have hempty : Budget ((limitedDaemon 1).initial 0).writeMethodLimiter 1 (60 * nanosPerSec) 0
      "eth_sendRawTransaction" (min 0 (1 : UInt32).toNat) :=
    ⟨rfl, Nat.zero_le _, fun _ => RateLimiter.window_new _ _, fun h => absurd rfl h⟩
  have hlt : 0 < (serveAll (limitedDaemon 1) [quietRequest .flashbots]
      ((limitedDaemon 1).initial 0)).length := Nat.zero_lt_one
  have hout := List.getElem?_eq_getElem hlt
  obtain ⟨hpassed, hrefused⟩ := serveAll_settles (by decide) (by decide) _ hempty hout
  -- its two charges are one too many
  have hover : ¬ 0 + (limitedDaemon 1).total (List.take (0 + 1) [quietRequest .flashbots]) ≤
      (1 : UInt32).toNat := by decide
  refine ⟨?_, fun h => hover (hpassed.mp ((h 0 _ hout).1 (by decide)))⟩
  rw [hout, Option.map_some, hrefused hover]

end Torpc
