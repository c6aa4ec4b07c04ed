import Torpc.Results.Deadlock

/-!
# Three copies of the discovery data

A proxy that comes up draws a token, writes it to the token file, and only then
spawns the discovery server that is to accept it. The server's task is spawned by
the proxy's and kept by nobody, so `stop` does not end it: it goes on listening,
and the server of the next proxy cannot bind. From then on the file has the new
token and the port answers to the old one (`token_outlived`); and after an
`update_config` the old server still reports the old address.

So file, server and configuration agree as long as nothing is written past a
server that is listening, and no server comes late (`discovery_coherent`).
-/

namespace Torpc

namespace Controller

open Tasks Machine Lts

/-- The token that a discovery server accepts, and the configuration it reports. -/
def Task.reports : Task → Option (String × ProxyConfig)
  | .discovery _ config token true => some (token, config)
  | _ => none

/-- Every discovery server that is listening accepts the token in the file, and
reports the address of the stored configuration. -/
def DiscoveryCoherent (s : State) : Prop :=
  ∀ i, ∀ t : Task, s.tasks i = some t → ∀ token config, t.reports = some (token, config) →
    s.shared.tokenFile = some token ∧ config.listenAddr = s.shared.config.listenAddr

/-- A proxy comes up when no discovery server is listening, or cannot write its
token; a discovery server that binds has the token in the file and the stored
address; and a configuration that is stored has the address that every listening
server reports. -/
def published (s : State) (l : Label) (s' : State) : Bool :=
  match l with
  | .act i e _ =>
    match s.tasks i, e with
    | some (.proxy _ .setRunning), _ =>
      everyTask s (fun t => t.reports.isNone) || s'.shared.tokenFile == s.shared.tokenFile
    | some (.discovery _ config token false), _ =>
      (s'.tasks i).isNone || (s.shared.tokenFile == some token &&
        config.listenAddr == s.shared.config.listenAddr)
    | _, .stored newConfig =>
      everyTask s fun t => t.reports.all fun r => r.2.listenAddr == newConfig.listenAddr
    | _, _ => true
  | _ => true

/-- A step that writes nothing past a discovery server. -/
def PublishedStep (s : State) (l : Label) (s' : State) : Prop :=
  Step controller s l s' ∧ published s l s' = true

-- ---------------------------------------------------------------------------
-- What a step does to the discovery servers
-- ---------------------------------------------------------------------------

section Act

variable {s : Shared} {tasks : Nat → Option Task} {next : Nat} {t : Task} {ch : Choice}
  {eff : Effect}

/-- A server that listens did so before, or has just been bound; what is spawned
does not listen yet. -/
theorem act_reports (h : act s tasks next t ch = some eff) :
    (∀ t', eff.task = some t' → ∀ token config, t'.reports = some (token, config) →
      t.reports = some (token, config) ∨ ∃ addr, t = .discovery addr config token false) ∧
    ∀ t', eff.spawned = some t' → t'.reports = none := by
  cases t with
  | call c pc =>
    have heff := callStep_effect (act_call h)
    refine ⟨fun t' ht' token config hr => ?_, fun t' ht' => ?_⟩
    · obtain ⟨pc', rfl⟩ := heff.task t' ht'
      cases hr
    · rw [heff.spawned t' ht']
      rfl
  | proxy config pc =>
    have heff := proxyStep_effect (proxyStep_inv h)
    refine ⟨fun t' ht' token config hr => ?_, fun t' ht' => ?_⟩
    · obtain ⟨pc', rfl⟩ := heff.task t' ht'
      cases hr
    · rcases heff.spawned t' ht' with rfl | ⟨addr, token, rfl⟩ <;> rfl
  | connection config => cases ch <;> cases h <;> exact ⟨by rintro _ ⟨⟩ _ _ ⟨⟩, holds_none⟩
  | discoveryRequest config token =>
    cases ch <;> cases h <;> exact ⟨by rintro _ ⟨⟩ _ _ ⟨⟩, holds_none⟩
  | discovery addr config token listening =>
    cases listening with
    | false =>
      cases ch with
      | ready =>
        simp only [act, discoveryStep] at h
        split at h <;> cases h
        refine ⟨?_, holds_none⟩
        rintro _ ⟨⟩ _ _ ⟨⟩
        exact .inr ⟨addr, rfl⟩
      | failed message =>
        cases h
        exact ⟨holds_none, holds_none⟩
      | _ => cases h
    | true =>
      cases ch <;> cases h
      · exact ⟨by rintro _ ⟨⟩ _ _ hr; exact .inl hr, holds_some rfl⟩
      · exact ⟨by rintro _ ⟨⟩ _ _ hr; exact .inl hr, holds_none⟩

/-- The token file is written by a proxy that comes up. -/
theorem act_tokenFile (h : act s tasks next t ch = some eff) :
    eff.shared.tokenFile = s.tokenFile ∨ ∃ config, t = .proxy config .setRunning := by
  cases t with
  | call c pc =>
    left
    cases act_call h with
    | noHandle | stopped => cases c <;> rfl
    | _ => rfl
  | proxy config pc =>
    cases proxyStep_inv h with
    | running | discovery => exact .inr ⟨config, rfl⟩
    | _ => exact .inl rfl
  | _ => exact .inl (congrArg Shared.tokenFile (act_detached h trivial).shared)

end Act

-- ---------------------------------------------------------------------------
-- Every step that writes nothing past them keeps it
-- ---------------------------------------------------------------------------

/-- A published step keeps every discovery server at one with the token's file and with the
stored address. -/
theorem discoveryCoherent_step {s s' : State} {l : Label} (hfresh : Fresh s)
    (h : DiscoveryCoherent s) (hstep : PublishedStep s l s') : DiscoveryCoherent s' := by
  obtain ⟨hstep, hpub⟩ := hstep
  cases hstep with
  | call c =>
    intro j t hj token config hr
    rcases State.add_cases hj with ⟨-, rfl⟩ | ⟨-, hj⟩
    · cases c <;> cases hr
    · exact h j t hj token config hr
  | cancel i task hi haborted =>
    exact fun j t hj => h j t (State.remove_some hj).2
  | act i task ch eff hi hgrant hact =>
    intro j t hj token config hr
    -- a server that listens now, and has not just been bound, listened before
    have hbefore : (∃ k, ∃ t₀ : Task, s.tasks k = some t₀ ∧ t₀.reports = some (token, config)) ∨
        ∃ addr, task = .discovery addr config token false ∧ j = i := by
      rcases State.apply_cases hj with ⟨rfl, hnext⟩ | ⟨-, hs⟩ | ⟨-, hj⟩
      · rcases (act_reports hact).1 t hnext token config hr with hr | ⟨addr, rfl⟩
        · exact .inl ⟨j, task, hi, hr⟩
        · exact .inr ⟨addr, rfl, rfl⟩
      · rw [(act_reports hact).2 t hs] at hr
        cases hr
      · exact .inl ⟨j, t, hj, hr⟩
    show eff.shared.tokenFile = some token ∧
      config.listenAddr = eff.shared.config.listenAddr
    rcases hbefore with ⟨k, t₀, hk, hr₀⟩ | ⟨addr, rfl, rfl⟩
    · obtain ⟨htoken, haddr⟩ := h k t₀ hk token config hr₀
      constructor
      · rcases act_tokenFile hact with hfile | ⟨config', rfl⟩
        · rw [hfile]
          exact htoken
        · -- a proxy comes up past a server that listens
          simp only [published, hi, Bool.or_eq_true, beq_iff_eq] at hpub
          rcases hpub with hnone | hfile
          · have hsilent := (everyTask_iff hfresh).mp hnone k t₀ hk
            rw [hr₀] at hsilent
            cases hsilent
          · exact hfile.trans htoken
      · rcases act_config hact with hconfig | he
        · rw [hconfig]
          exact haddr
        · obtain ⟨⟨pc, rfl⟩, -, -⟩ := act_stored hact he
          rw [he] at hpub
          simp only [published, hi] at hpub
          have hsame := (everyTask_iff hfresh).mp hpub k t₀ hk
          rw [hr₀] at hsame
          exact of_decide_eq_true (by simpa using hsame)
    · -- the server has just been bound
      have hact : act s.shared s.tasks s.next (.discovery addr config token false) ch =
        some eff := hact
      have hshared : eff.shared = s.shared := (act_detached hact trivial).shared
      rw [hshared]
      simp only [published, hi, hj] at hpub
      have hpub : (s.shared.tokenFile == some token &&
        config.listenAddr == s.shared.config.listenAddr) = true := hpub
      rwa [Bool.and_eq_true, beq_iff_eq, beq_iff_eq] at hpub

section Runs

variable {config : ProxyConfig} {discoveryAddr : Option Net.SocketAddr} {s : State}
  {ls : List Label}

/-- **Discovery.** In every run in which nothing is written past a discovery server,
a server that is listening accepts the token in the file and reports the stored
address. -/
theorem discovery_coherent
    (h : Run PublishedStep (controller.start (Controller.new config discoveryAddr)) ls s) :
    DiscoveryCoherent s := by
  have hstart :
      DiscoveryCoherent (controller.start (Controller.new config discoveryAddr)) := by
    intro i t hi
    cases hi
  have hboth : Fresh s ∧ DiscoveryCoherent s :=
    h.invariant (I := fun s => Fresh s ∧ DiscoveryCoherent s) ⟨fresh_start _, hstart⟩
      fun _ _ _ hs hstep =>
        ⟨fresh_step hs.1 hstep.1, discoveryCoherent_step hs.1 hs.2 hstep⟩
  exact hboth.2

end Runs

/-- The address of the discovery server, by default. -/
def discoveryPort : Net.SocketAddr := .ofV4 127 0 0 1 8081

/-- A proxy comes up for the first time, and its discovery server is bound. -/
theorem discovery_bound : ∃ (ls : List Label) (s : State),
    Run PublishedStep (controller.start (Controller.new endpointA (some discoveryPort))) ls s ∧
      s.tasks 2 = some (.discovery discoveryPort endpointA "token" true) ∧
      DiscoveryCoherent s := by
  have hrun : Run PublishedStep
      (controller.start (Controller.new endpointA (some discoveryPort))) _ _ :=
    (((((((Run.nil _).snoc ⟨.call _ Call.start, rfl⟩).snoc
      ⟨step_of_perform (a := .act 0 Choice.ready) rfl, rfl⟩).snoc
      ⟨step_of_perform (a := .act 0 Choice.ready) rfl, rfl⟩).snoc
      ⟨step_of_perform (a := .act 0 Choice.ready) rfl, rfl⟩).snoc
      ⟨step_of_perform (a := .act 1 Choice.ready) rfl, rfl⟩).snoc
      ⟨step_of_perform (a := .act 1 (Choice.token "token" true)) rfl, rfl⟩).snoc
      ⟨step_of_perform (a := .act 2 Choice.ready) rfl, rfl⟩
  exact ⟨_, _, hrun, rfl, discovery_coherent hrun⟩

/-- The proxy is stopped and started again: no operation is in progress, the file
has the new token, and the old server is still listening. -/
theorem token_outlived : ∃ (ls : List Label) (s : State),
    Run (Step controller) (controller.start (Controller.new endpointA (some discoveryPort))) ls s ∧
      (∀ i (t : Task), s.tasks i = some t → ¬ t.IsCall) ∧ ¬ DiscoveryCoherent s := by
  let actions : List controller.Action :=
    [.call Call.start, .act 0 Choice.ready, .act 0 Choice.ready, .act 0 Choice.ready,
      .act 1 Choice.ready, .act 1 (Choice.token "first" true), .act 2 Choice.ready,
      .call Call.stop, .act 3 Choice.ready, .act 3 Choice.ready, .cancel 1, .act 3 Choice.ready,
      .act 3 Choice.ready, .call Call.start, .act 4 Choice.ready, .act 4 Choice.ready,
      .act 4 Choice.ready, .act 5 Choice.ready, .act 5 (Choice.token "second" true)]
  have hrun : ((performAll (fun _ _ => true) (controller.start
      (Controller.new endpointA (some discoveryPort))) actions).map Prod.snd).any (fun s =>
        everyTask s (fun t => decide (¬ t.IsCall)) && s.shared.tokenFile == some "second" &&
          ((s.tasks 2).bind Task.reports == some ("first", endpointA))) = true := by
    decide +kernel
  obtain ⟨s, hs, hends⟩ := Option.any_eq_true _ _ |>.mp hrun
  obtain ⟨⟨ls, s⟩, hperform, rfl⟩ := Option.map_eq_some_iff.mp hs
  simp only [Bool.and_eq_true, beq_iff_eq] at hends
  obtain ⟨⟨hquiet, hfile⟩, hold⟩ := hends
  have hsteps : Run (Step controller) _ ls s :=
    (run_of_performAll hperform).mono fun _ _ _ h => h.1
  have hfresh : Fresh s := hsteps.invariant (fresh_start _) fun _ _ _ => fresh_step
  refine ⟨ls, s, hsteps, fun i t hi => ?_, fun h => ?_⟩
  · exact of_decide_eq_true ((everyTask_iff hfresh).mp hquiet i t hi)
  · obtain ⟨t, ht, hr⟩ := Option.bind_eq_some_iff.mp hold
    have htoken := (h 2 t ht "first" endpointA hr).1
    rw [hfile] at htoken
    revert htoken
    decide

end Controller

end Torpc
