import Torpc.Lib.Permits
import Torpc.Model.AppConfig
import Torpc.Model.PublicRouter

/-!
# How many requests are inside at once

`build_app` puts `ConcurrencyLimitLayer` over the public router, and the
documents call its number a cap on the entire router. `Router::layer` wraps each
path of the table and the fallback by itself, and the layer makes a semaphore
for each service it wraps, so the number caps each of them and not their sum: it
caps the whole just if all requests are for one of them (`router_cap`). The
timeout lies outside of it, so a request may be dropped while it waits or while
it is inside, and its permit is free again.
-/

namespace Torpc

open Effects Effects.Gated Lts

/-- The service that `Router::layer` has wrapped for a path: the path's own, or the
fallback's. -/
def layeredService (path : String) : Option String :=
  if (publicRouter.routes.lookup path).isSome then some path else none

namespace AppConfig

/-- The daemon that `build_app` makes of the settings. -/
def daemon (config : AppConfig) (x : Externals) (mevClient : Option MevRelayClient) : Daemon where
  externals := x
  mevClient
  rateLimit := config.rateLimit
  writeLimit := ⟨config.writeMethodLimitMax, config.writeMethodLimitWindow⟩
  requestTimeout := config.security.requestTimeout

/-- A state of the public router behind `ConcurrencyLimitLayer`. -/
abbrev Capped (config : AppConfig) (x : Externals) (mevClient : Option MevRelayClient)
    (files : StaticFiles) : Type :=
  Gated ((config.daemon x mevClient).publicSystem files) (Option String)

/-- A run of the public router behind `ConcurrencyLimitLayer`, from instant `t`. -/
def CappedRun (config : AppConfig) (x : Externals) (mevClient : Option MevRelayClient)
    (files : StaticFiles) (t : Nat)
    (ls : List (GatedLabel ((config.daemon x mevClient).publicSystem files)))
    (g : config.Capped x mevClient files) : Prop :=
  Run (Gated.Step fun v : PublicRequest => layeredService v.path)
    (Gated.start _ _ config.maxConcurrent.toNat ((config.daemon x mevClient).initial t)) ls g

end AppConfig

variable {config : AppConfig} {x : Externals} {mevClient : Option MevRelayClient}
  {files : StaticFiles} {t : Nat}

/-- A question for the chain id that comes with any method the path takes, at instant `t`. -/
def requestTo (path : String) (t : Nat) : PublicRequest :=
  let methods := (publicRouter.routes.lookup path).map (·.handlers.map Prod.fst)
  { chainIdQuery with method := (methods.bind List.head?).getD .get, path, arrived := t }

/-- The wrapped services: five paths and the fallback. -/
def layeredServices : Finset (Option String) :=
  insert none ((publicRouter.routes.map fun r => some r.1).toFinset)

/-- Each path belongs to one of the services that the layer was put around. -/
theorem layeredService_mem (path : String) : layeredService path ∈ layeredServices := by
  unfold layeredService layeredServices
  rw [Finset.mem_insert]
  split
  · next h =>
    obtain ⟨methods, hmethods⟩ := Option.isSome_iff_exists.mp h
    refine .inr (List.mem_toFinset.mpr ?_)
    exact List.mem_map.mpr ⟨_, Http.mem_of_lookup hmethods, rfl⟩
  · exact .inl rfl

/-- The requests inside, when all are for one service. -/
theorem inside_one_service {ls : List _} {g : config.Capped x mevClient files}
    (h : config.CappedRun x mevClient files t ls g)
    (hone : ∀ v w : PublicRequest, .arrive v ∈ ls → .arrive w ∈ ls →
      layeredService v.path = layeredService w.path) :
    g.inside.card ≤ config.maxConcurrent.toNat := by
  have hthreads := (Gated.Run.arrived h).threads
  rcases g.inside.eq_empty_or_nonempty with hempty | ⟨i, hi⟩
  · rw [hempty]
    exact Nat.zero_le _
  · obtain ⟨-, thread, hthread⟩ := mem_inside.mp hi
    have hservice : ∀ j thread', g.inner.threads j = some thread' →
        layeredService thread'.job.path ∈ ({layeredService thread.job.path} : Finset _) :=
      fun j thread' hthread' => Finset.mem_singleton.mpr
        (hone _ _ (hthreads j _ hthread') (hthreads i _ hthread))
    have hcard := (Gated.Run.sound h).inside_card_le hservice
    rw [Finset.card_singleton, Nat.one_mul] at hcard
    exact hcard

/-- As many requests to `p` as the number says, and one to `q`. -/
def overload (max : Nat) (p q : String) (t : Nat) : List PublicRequest :=
  requestTo q t :: List.replicate max (requestTo p t)

/-- The requests of an overload are for one of its two paths, and arrive together. -/
theorem mem_overload {max : Nat} {p q : String} {v : PublicRequest} (hv : v ∈ overload max p q t) :
    v.arrived = t ∧ (v.path = p ∨ v.path = q) := by
  rcases List.mem_cons.mp hv with rfl | hv
  · exact ⟨rfl, .inr rfl⟩
  · obtain rfl := List.eq_of_mem_replicate hv
    exact ⟨rfl, .inl rfl⟩

/-- There is one more of them than the configured number. -/
theorem length_overload (max : Nat) (p q : String) (t : Nat) :
    (overload max p q t).length = max + 1 := by
  rw [overload, List.length_cons, List.length_replicate]

/-- For each single service there are no more than the number. -/
theorem countP_overload {max : Nat} (hmax : 1 ≤ max) {p q : String}
    (hne : layeredService p ≠ layeredService q) (t : Nat) (a : Option String) :
    ((overload max p q t).countP fun v => decide (layeredService v.path = a)) ≤ max := by
  rw [overload, List.countP_cons, List.countP_replicate]
  by_cases hq : layeredService (requestTo q t).path = a
  · have hp : ¬ layeredService (requestTo p t).path = a := fun hp => hne (hp.trans hq.symm)
    rw [if_neg (by simpa using hp), if_pos (decide_eq_true hq)]
    omega
  · rw [decide_eq_false hq, if_neg Bool.false_ne_true]
    split <;> omega

/-- With requests for two services, one more than the number gets inside. -/
theorem exists_run_over (config : AppConfig) (x : Externals) (mevClient : Option MevRelayClient)
    (files : StaticFiles) (t : Nat) (hmax : 1 ≤ config.maxConcurrent.toNat) {p q : String}
    (hne : layeredService p ≠ layeredService q) :
    ∃ ls g, config.CappedRun x mevClient files t ls g ∧
      (∀ v : PublicRequest, .arrive v ∈ ls → v.path = p ∨ v.path = q) ∧
      g.inside.card = config.maxConcurrent.toNat + 1 := by
  obtain ⟨ls, g, hrun, harrive, -, -, hinside, -⟩ :=
    @Gated.exists_run_inside _ _ _ _ ((config.daemon x mevClient).publicSystem files) _
      (fun v : PublicRequest => layeredService v.path) config.maxConcurrent.toNat
      ((config.daemon x mevClient).initial t) (overload config.maxConcurrent.toNat p q t)
      (fun v hv => (mem_overload hv).1) (countP_overload hmax hne t)
  exact ⟨ls, g, hrun, fun v hv => (mem_overload (harrive v hv)).2,
    hinside.trans (length_overload _ p q t)⟩

/-- The number bounds what is inside just if all requests are for one of the
services that are wrapped. In every run each service's permits are free or held
by a request that is inside, one that has been answered or dropped is not, and
the number times the services bounds what is. -/
theorem router_cap (config : AppConfig) (x : Externals) (mevClient : Option MevRelayClient)
    (files : StaticFiles) (t : Nat) (hmax : 1 ≤ config.maxConcurrent.toNat) :
    (∀ paths : Set String,
      (∀ ls g, config.CappedRun x mevClient files t ls g →
        (∀ v : PublicRequest, .arrive v ∈ ls → v.path ∈ paths) →
          g.inside.card ≤ config.maxConcurrent.toNat) ↔
      ∀ p ∈ paths, ∀ q ∈ paths, layeredService p = layeredService q) ∧
    (∀ ls g, config.CappedRun x mevClient files t ls g →
      (∀ a, g.available a +
          (g.insideOf (fun v : PublicRequest => layeredService v.path) a).card =
        config.maxConcurrent.toNat) ∧
      (∀ i l, l ∈ ls → Ends i l → i ∉ g.inside) ∧
      g.inside.card ≤ layeredServices.card * config.maxConcurrent.toNat) := by
  refine ⟨fun paths => ⟨fun hcap p hp q hq => ?_, fun hone ls g hrun hpaths => ?_⟩,
    fun ls g hrun => ⟨?_, ?_, ?_⟩⟩
  · by_contra hne
    obtain ⟨ls, g, hrun, harrive, hinside⟩ :=
      exists_run_over config x mevClient files t hmax hne
    have hle := hcap ls g hrun fun v hv => by
      rcases harrive v hv with h | h
      · rwa [h]
      · rwa [h]
    omega
  · exact inside_one_service hrun fun v w hv hw => hone _ (hpaths v hv) _ (hpaths w hw)
  · exact (Gated.Run.sound hrun).permits
  · exact fun i l hl hends => (Gated.Run.gone hrun hl hends).notMem_inside
  · exact (Gated.Run.sound hrun).inside_card_le fun i thread _ => layeredService_mem _

/-- The default number, and what it bounds in fact. -/
theorem router_cap_default : (AppConfig.fromEnv fun _ => none).maxConcurrent = 256 ∧
    ∀ x mevClient files t ls g,
      (AppConfig.fromEnv fun _ => none).CappedRun x mevClient files t ls g →
        g.inside.card ≤ 6 * 256 := by
  refine ⟨rfl, fun x mevClient files t ls g hrun => ?_⟩
  exact ((router_cap (.fromEnv fun _ => none) x mevClient files t (by decide)).2 ls g hrun).2.2

/-- An operator who wants one request at a time. -/
def singleEnv : Env
  | "MAX_CONCURRENT_CONNECTIONS" => some "1"
  | _ => none

/-- The same question on the other route, from somebody else. -/
def relayQuery (t : Nat) : PublicRequest :=
  { chainIdQuery with
    path := Route.flashbots.path, peer := some (.v4 ⟨127, 0, 0, 1⟩, 40001), arrived := t }

/-- What either handler does until it waits for Geth. -/
def asksGeth (v : PublicRequest) : List OpEvent :=
  [⟨.checkConnLimit (getRequestIdentifier v.peer), true⟩, ⟨.canProceed .geth, true⟩,
    ⟨.sendToGeth ⟨"2.0", "eth_chainId", none, some (.nat 1)⟩, ()⟩]

/-- The limiter has nothing against another client. -/
theorem exec_other_conn (d : Daemon) (t : Nat) {identifier other : String}
    (hne : other ≠ identifier) :
    ∃ s, exec (d.admitted t identifier) (.checkConnLimit other) true s ∧ s.gethCircuit = .new := by
  have hnone : (d.admitted t identifier).rateLimiter.requests.lookup other = none := by
    show ((∅ : AList fun _ : String => UInt32 × Nat).insert identifier (1, t)).lookup other = none
    rw [AList.lookup_insert_ne hne, AList.lookup_empty]
  have hpass : ((d.admitted t identifier).rateLimiter.checkRateLimit t other).1 = true := by
    rw [RateLimiter.checkRateLimit, hnone]
  refine ⟨{ d.admitted t identifier with
    rateLimiter := ((d.admitted t identifier).rateLimiter.checkRateLimit t other).2 }, ?_, rfl⟩
  exact Prod.ext hpass rfl

/-- With the number 1, a POST for `/rpc` and one for `/rpc/flashbots` are in their
handlers together and wait for Geth, whether there is a relay or not. -/
theorem single_admits_two : (AppConfig.fromEnv singleEnv).maxConcurrent = 1 ∧
    ∀ x mevClient files t, ∃ ls g,
      (AppConfig.fromEnv singleEnv).CappedRun x mevClient files t ls g ∧ g.inside.card = 2 ∧
      ∀ i ∈ g.inside, ∃ request, .inner (.act i ⟨.sendToGeth request, ()⟩) ∈ ls := by
  refine ⟨by decide, fun x mevClient files t => ?_⟩
  let d := (AppConfig.fromEnv singleEnv).daemon x mevClient
  let service := fun v : PublicRequest => layeredService v.path
  let first := requestTo "/rpc" t
  obtain ⟨q, hfirst⟩ : ∃ q, Performs exec (d.respond files first) (d.initial t) (asksGeth first) q
      (d.admitted t (getRequestIdentifier none)) :=
    ⟨_, .cons (d.exec_first_conn t _) (.cons rfl (.cons ⟨rfl, trivial⟩ (.nil _ _)))⟩
  obtain ⟨s, hconn, hgeth⟩ := exec_other_conn d t
    (getRequestIdentifier_injective.ne (Option.some_ne_none (Net.IpAddr.v4 ⟨127, 0, 0, 1⟩, 40001)))
  have hproceed : exec s (.canProceed .geth) true s :=
    exec_canProceed_closed (c := .geth) (n := 0) (by rw [Shared.circuit, hgeth]; rfl)
  obtain ⟨q', hsecond⟩ : ∃ q', Performs exec (d.respond files (relayQuery t))
      (d.admitted t (getRequestIdentifier none)) (asksGeth (relayQuery t)) q' s := by
    cases mevClient with
    | none => exact ⟨_, .cons hconn (.cons hproceed (.cons ⟨rfl, trivial⟩ (.nil _ _)))⟩
    | some client => exact ⟨_, .cons hconn (.cons hproceed (.cons ⟨rfl, trivial⟩ (.nil _ _)))⟩
  -- both come and get the permit of their service
  let g₀ := Gated.start (d.publicSystem files) (Option String) 1 (d.initial t)
  let g₁ := g₀.enter first (service first) []
  let g₂ := g₁.enter (relayQuery t) (service (relayQuery t)) []
  have hcame : Run (Gated.Step service) g₀ _ g₁ :=
    Gated.run_enter (S := d.publicSystem files) (g := g₀) first rfl rfl Nat.one_pos
  have hfree : 0 < Function.update (fun _ => 1) (some "/rpc") 0 (some "/rpc/flashbots") := by
    decide
  have hboth : Run (Gated.Step service) g₁ _ g₂ :=
    Gated.run_enter (S := d.publicSystem files) (g := g₁) (relayQuery t) rfl rfl hfree
  have hasked := (hcame.append hboth).append (Gated.run_performs (g := g₂) (i := 0) hfirst rfl)
  have hrun := hasked.append (Gated.run_performs (i := 1) hsecond rfl)
  refine ⟨_, _, hrun, rfl, fun i hi => ⟨⟨"2.0", "eth_chainId", none, some (.nat 1)⟩, ?_⟩⟩
  have hlt : i < 2 := (mem_inside.mp hi).1
  interval_cases i
  · simp [asksGeth]
  · simp [asksGeth]

end Torpc
