import Torpc.Model.MevClient

/-!
# What opens the relay's circuit

`send_bundle` tells the breaker how it ended at three places: a success, a
failure that is not worth a retry, and a failure after the last attempt. The
last two do not ask whose fault it was. So a relay that answers every POST, and
refuses five bundles in a row, has its circuit opened (`rejected_bundles_open`),
and this is the only way: the breaker stays shut in exactly the runs in which no
five calls in a row end without the relay having accepted (`circuit_shut_iff`).

The events of one call are followed by `RelayCall`; `sat_sendBundle` is what a
call keeps, the rest is about runs of any number of calls.
-/

namespace Torpc

open Effects Prog System Lts

-- ---------------------------------------------------------------------------
-- The replies to one call
-- ---------------------------------------------------------------------------

/-- What the relay answered to the POSTs of a call. -/
structure RelayCall where
  /-- the status of a reply whose body has not been read -/
  status : Option Nat
  /-- status and text of each reply, `none` where there was no reply -/
  replies : List (Option (Nat × String))

namespace RelayCall

def start : RelayCall := ⟨none, []⟩

def observe (r : RelayCall) : OpEvent → RelayCall
  | ⟨.relayReply, reply⟩ =>
    match (reply : Except String Nat) with
    | .ok status => { r with status := some status }
    | .error _ => ⟨none, r.replies ++ [none]⟩
  | ⟨.relayText, read⟩ =>
    ⟨none, r.replies ++ [r.status.map fun status => (status, readText read)]⟩
  | _ => r

/-- The call after a request's events. -/
def after (tr : List OpEvent) : RelayCall := tr.foldl observe start

end RelayCall

/-- A JSON-RPC result with a bundle hash. -/
def carriesBundleHash (x : Externals) (text : String) : Bool :=
  match x.parseJson text with
  | .ok response => (response.get "error").isNone &&
      (response.get "result" >>= Value.get "bundleHash" >>= Value.asStr).isSome
  | .error _ => false

/-- A JSON-RPC error. -/
def carriesError (x : Externals) (text : String) : Bool :=
  match x.parseJson text with
  | .ok response => (response.get "error").isSome
  | .error _ => false

/-- The relay has taken the bundle. -/
def takesBundle (x : Externals) : Option (Nat × String) → Bool
  | some (status, text) => isSuccess status && carriesBundleHash x text
  | none => false

/-- The relay has answered, and what it says is about the bundle. -/
def clientShaped (x : Externals) : Option (Nat × String) → Bool
  | some (status, text) =>
    (isSuccess status && (carriesBundleHash x text || carriesError x text)) || status == 400
  | none => false

/-- One of the POSTs was accepted. -/
def RelayCall.accepted (x : Externals) (r : RelayCall) : Bool := r.replies.any (takesBundle x)

/-- A body with a 2xx status is taken for success just if it carries a bundle hash and no
error. -/
theorem parseBundleResponse_isOk (x : Externals) (text : String) :
    (parseBundleResponse x text).isOk = carriesBundleHash x text := by
  unfold parseBundleResponse carriesBundleHash
  cases x.parseJson text with
  | error e => rfl
  | ok response =>
    dsimp only
    cases response.get "error" with
    | some error => rfl
    | none =>
      cases response.get "result" >>= Value.get "bundleHash" >>= Value.asStr <;> rfl

section Call

variable (x : Externals)

/-- A success is recorded for an accepted bundle, a failure for one that is not. -/
def RecordsVerdict (r : RelayCall) (o : Op) : Prop :=
  (o = .recordSuccess .mevRelay → r.accepted x = true) ∧
    (o = .recordFailure .mevRelay → r.accepted x = false)

/-- A call that returns says whether the bundle was accepted. -/
def ReturnsVerdict (result : ProxyResult String) (r : RelayCall) : Prop :=
  r.accepted x = result.isOk

/-- A program that starts with nothing accepted, records and returns the verdict. -/
def GivesVerdict (p : Handler (ProxyResult String)) (r : RelayCall) : Prop :=
  p.Sat RelayCall.observe (RecordsVerdict x) (ReturnsVerdict x) r

variable {x}

/-- An operation that records no outcome at the relay's breaker cannot record the wrong one.
-/
theorem recordsVerdict_of_ne {r : RelayCall} {o : Op} (hs : o ≠ .recordSuccess .mevRelay)
    (hf : o ≠ .recordFailure .mevRelay) : RecordsVerdict x r o :=
  ⟨fun h => absurd h hs, fun h => absurd h hf⟩

/-- Nor can one that is no verdict at all. -/
theorem recordsVerdict_of_not {r : RelayCall} {o : Op} (h : o.isVerdict = false) :
    RecordsVerdict x r o := by
  refine recordsVerdict_of_ne ?_ ?_ <;> (rintro rfl; cases h)

/-- A success may be recorded once the relay has accepted. -/
theorem recordsVerdict_success {r : RelayCall} (h : r.accepted x = true) :
    RecordsVerdict x r (.recordSuccess .mevRelay) := by
  refine ⟨fun _ => h, fun hop => ?_⟩
  cases hop

/-- A failure may be recorded as long as the relay has not accepted. -/
theorem recordsVerdict_failure {r : RelayCall} (h : r.accepted x = false) :
    RecordsVerdict x r (.recordFailure .mevRelay) := by
  refine ⟨fun hop => ?_, fun _ => h⟩
  cases hop

/-- A pause shows a call nothing of the relay. -/
theorem observe_pause {o : Op} (r : RelayCall) (h : o.isPause = true) (res : Res o) :
    r.observe ⟨o, res⟩ = r := by
  cases o <;> first | rfl | exact nomatch h

/-- A pause records nothing. -/
theorem recordsVerdict_pause {r : RelayCall} {o : Op} (h : o.isPause = true) :
    RecordsVerdict x r o := by
  refine recordsVerdict_of_ne ?_ ?_ <;> (rintro rfl; cases h)

/-- A reply is one more chance to be accepted. -/
theorem accepted_append (r : RelayCall) (status : Option Nat) (reply : Option (Nat × String)) :
    RelayCall.accepted x ⟨status, r.replies ++ [reply]⟩ =
      (r.accepted x || takesBundle x reply) := by
  simp [RelayCall.accepted]

/-- An attempt records a success only on a reply that accepts the bundle, and hands an error
back on any other. -/
theorem sat_sendBundleAttempt (client : MevRelayClient) (body : String) {r : RelayCall}
    (hr : r.accepted x = false) : GivesVerdict x (client.sendBundleAttempt x body) r := by
  unfold GivesVerdict MevRelayClient.sendBundleAttempt
  split
  · exact hr
  simp only [perform_bind, sat_op]
  refine ⟨recordsVerdict_of_not rfl, fun _ => ⟨recordsVerdict_of_not rfl, fun reply => ?_⟩⟩
  cases reply with
  | error e =>
    show RelayCall.accepted x ⟨none, r.replies ++ [none]⟩ = false
    rw [accepted_append, hr]
    rfl
  | ok status =>
    simp only [sat_op]
    refine ⟨recordsVerdict_of_not rfl, fun read => ?_⟩
    have hread : RelayCall.accepted x ⟨none, r.replies ++ [some (status, readText read)]⟩ =
        takesBundle x (some (status, readText read)) := by
      rw [accepted_append, hr, Bool.false_or]
    show Sat _ _ _ (if isSuccess status then _ else _) _
    by_cases hs : isSuccess status = true
    · rw [if_pos hs]
      show _ = (parseBundleResponse x (readText read)).isOk
      rw [parseBundleResponse_isOk]
      exact hread.trans (by rw [takesBundle, hs, Bool.true_and])
    · rw [if_neg hs]
      exact hread.trans (by rw [takesBundle, Bool.eq_false_of_not_eq_true hs, Bool.false_and]; rfl)

/-- The loop of attempts gives the verdict that the replies call for; the induction is on
the attempts left, and up to each of them nothing has been accepted. -/
theorem sat_attempts (client : MevRelayClient) (body : String) (left attempt : Nat)
    (lastError : Option ProxyError) {r : RelayCall} (hr : r.accepted x = false) :
    GivesVerdict x (client.attempts x body left attempt lastError) r := by
  induction left generalizing attempt lastError r with
  | zero => exact ⟨recordsVerdict_failure hr, fun _ => hr⟩
  | succ left ih =>
    have hwait : (client.backoff x attempt).Sat RelayCall.observe (RecordsVerdict x)
        (fun _ r' => r' = r) r :=
      sat_frame (client.ops_backoff x attempt) (fun _ => observe_pause r)
        fun _ => recordsVerdict_pause
    rw [MevRelayClient.attempts]
    refine hwait.bind fun _ r' hr' => ?_
    subst hr'
    refine (sat_sendBundleAttempt client body hr).bind fun result r' hverdict => ?_
    cases result with
    | ok bundleHash => exact ⟨recordsVerdict_success hverdict, fun _ => hverdict⟩
    | error e =>
      show Sat _ _ _ (if RetryPolicy.shouldRetry e.display = true then _ else _) _
      split
      · exact ih (attempt + 1) (some e) hverdict
      · exact ⟨recordsVerdict_failure hverdict, fun _ => hverdict⟩

/-- What is recorded and returned is whether the relay has accepted. -/
theorem sat_sendBundle (client : MevRelayClient) (bundle : Bundle) :
    GivesVerdict x (client.sendBundle x bundle) .start := by
  unfold GivesVerdict MevRelayClient.sendBundle
  simp only [perform_bind, sat_op]
  refine ⟨recordsVerdict_of_not rfl, fun ok => ?_⟩
  cases ok
  · rfl
  simp only [if_true]
  split
  · rfl
  · exact sat_attempts client _ _ 0 none rfl

end Call

-- ---------------------------------------------------------------------------
-- Failures in a row
-- ---------------------------------------------------------------------------

/-- The failures since the last success. -/
def streak (verdicts : List Bool) : Nat := verdicts.foldl (fun n ok => if ok then 0 else n + 1) 0

/-- A success ends the streak of failures, and a failure makes it longer by one. -/
theorem streak_append (verdicts : List Bool) (ok : Bool) :
    streak (verdicts ++ [ok]) = if ok then 0 else streak verdicts + 1 := by
  rw [streak, List.foldl_append]
  rfl

/-- The last `n` verdicts are all failures just if the streak is at least `n` long. -/
theorem replicate_suffix_iff {n : Nat} {verdicts : List Bool} :
    List.replicate n false <:+ verdicts ↔ n ≤ streak verdicts := by
  induction verdicts using List.reverseRecOn generalizing n with
  | nil => simp [streak]
  | append_singleton verdicts ok ih =>
    rw [List.suffix_concat_iff, streak_append]
    cases n with
    | zero => simp
    | succ n =>
      rw [List.replicate_succ']
      constructor
      · rintro (hnil | ⟨t, ht, hsuffix⟩)
        · simp at hnil
        · obtain ⟨rfl, hok⟩ := List.append_inj' ht rfl
          obtain rfl := List.head_eq_of_cons_eq hok
          have hn := ih.mp hsuffix
          rw [if_neg Bool.false_ne_true]
          omega
      · intro hn
        cases ok with
        | true =>
          rw [if_pos rfl] at hn
          omega
        | false =>
          rw [if_neg Bool.false_ne_true] at hn
          exact .inr ⟨_, rfl, ih.mpr (by omega)⟩

-- ---------------------------------------------------------------------------
-- Runs of calls
-- ---------------------------------------------------------------------------

/-- The calls of `send_bundle` on one client: any number at once, with any
bundles, each dropped wherever it waits. What else the daemon does leaves the
relay's breaker alone. -/
def MevRelayClient.system (client : MevRelayClient) (x : Externals) :
    System Op Res (ProxyResult String) where
  Shared := Shared
  Job := Bundle
  prog := client.sendBundle x
  accepts _ _ := True
  exec := exec
  env s s' := s.now ≤ s'.now ∧ s'.mevCircuit = s.mevCircuit
  mayCancel _ _ o := o.awaits = true

section Runs

variable {client : MevRelayClient} {x : Externals}

/-- If this step ends a call, whether the relay had accepted its bundle. -/
def verdictAt (x : Externals) (pre : List (client.system x).Label) :
    (client.system x).Label → Option Bool
  | .act i e =>
    if e.op.isVerdict then some ((RelayCall.after (eventsOf i pre)).accepted x) else none
  | _ => none

/-- The calls in the order in which they end. -/
def verdictsFrom (x : Externals) (pre : List (client.system x).Label) :
    List (client.system x).Label → List Bool
  | [] => []
  | l :: ls => (verdictAt x pre l).toList ++ verdictsFrom x (pre ++ [l]) ls

def verdicts (x : Externals) (ls : List (client.system x).Label) : List Bool :=
  verdictsFrom x [] ls

/-- Every reply of the relay says something about the bundle. -/
def ClientShaped (x : Externals) (ls : List (client.system x).Label) : Prop :=
  ∀ i, ∀ reply ∈ (RelayCall.after (eventsOf i ls)).replies, clientShaped x reply = true

/-- One more step adds its verdict, if it has one, to those given before. -/
theorem verdicts_snoc (ls : List (client.system x).Label) (l : (client.system x).Label) :
    verdicts x (ls ++ [l]) = verdicts x ls ++ (verdictAt x ls l).toList := by
  have hfrom : ∀ pre, verdictsFrom x pre (ls ++ [l]) =
      verdictsFrom x pre ls ++ (verdictAt x (pre ++ ls) l).toList := by
    induction ls with
    | nil => simp [verdictsFrom]
    | cons l' ls ih =>
      intro pre
      simp only [List.cons_append, verdictsFrom, ih, List.append_assoc, List.nil_append]
  exact hfrom []

/-- The verdicts of a longer run begin with those of the shorter. -/
theorem verdicts_prefix (ls ls' : List (client.system x).Label) :
    verdicts x ls <+: verdicts x (ls ++ ls') := by
  induction ls' using List.reverseRecOn with
  | nil => exact ⟨[], by rw [List.append_nil, List.append_nil]⟩
  | append_singleton ls' l ih =>
    rw [← List.append_assoc, verdicts_snoc]
    exact ih.trans (List.prefix_append _ _)

/-- What one step does to the breaker, and the verdict it stands for. -/
theorem step_verdict {s : Shared} {ls : List (client.system x).Label}
    {c c' : (client.system x).Config} {l : (client.system x).Label}
    (hrun : Run (Step (client.system x)) ((client.system x).start s) ls c)
    (hstep : Step (client.system x) c l c') :
    (verdictAt x ls l = none ∧ (c'.shared.mevCircuit = c.shared.mevCircuit ∨
      c'.shared.mevCircuit = (c.shared.mevCircuit.canProceed c.shared.now).2)) ∨
    (verdictAt x ls l = some true ∧ c'.shared.mevCircuit = c.shared.mevCircuit.recordSuccess) ∨
    (verdictAt x ls l = some false ∧
      c'.shared.mevCircuit = c.shared.mevCircuit.recordFailure c.shared.now) := by
  cases hstep with
  | act i bundle o k r s' hi hexec =>
    obtain ⟨-, htr⟩ := run_thread hrun hi
    have hrecords : RecordsVerdict x (.after (eventsOf i ls)) o :=
      ((sat_sendBundle client bundle).rest htr).1
    have hcircuit := exec_circuit hexec .mevRelay
    cases o with
    | recordSuccess circuit =>
      cases circuit with
      | geth => exact .inl ⟨rfl, .inl hcircuit⟩
      | mevRelay =>
        exact .inr (.inl ⟨congrArg some (hrecords.1 rfl), hcircuit⟩)
    | recordFailure circuit =>
      cases circuit with
      | geth => exact .inl ⟨rfl, .inl hcircuit⟩
      | mevRelay => exact .inr (.inr ⟨congrArg some (hrecords.2 rfl), hcircuit⟩)
    | canProceed circuit =>
      cases circuit with
      | geth => exact .inl ⟨rfl, .inl hcircuit⟩
      | mevRelay => exact .inl ⟨rfl, .inr hcircuit⟩
    | _ => exact .inl ⟨rfl, .inl hcircuit⟩
  | env s' henv => exact .inl ⟨rfl, .inl henv.2⟩
  | _ => exact .inl ⟨rfl, .inl rfl⟩

/-- As long as there have not been as many failures in a row as the threshold
says, the breaker is Closed and counts them. -/
theorem run_closed {s : Shared} (hs : s.mevCircuit = .new) {ls : List (client.system x).Label}
    {c : (client.system x).Config}
    (h : Run (Step (client.system x)) ((client.system x).start s) ls c)
    (hcalm : ¬ List.replicate CircuitBreaker.new.failureThreshold false <:+: verdicts x ls) :
    c.shared.mevCircuit =
      { CircuitBreaker.new with state := .closed (streak (verdicts x ls)) } := by
  induction h with
  | nil => exact hs
  | @snoc c c' ls l hrun hstep ih =>
    rw [verdicts_snoc] at hcalm ⊢
    have hbefore := ih fun hpart => hcalm (hpart.trans (List.prefix_append _ _).isInfix)
    rcases step_verdict hrun hstep with ⟨hl, heq | heq⟩ | ⟨hl, heq⟩ | ⟨hl, heq⟩ <;>
      rw [hl] at hcalm ⊢ <;> rw [heq, hbefore]
    · rw [Option.toList_none, List.append_nil]
    · rw [Option.toList_none, List.append_nil]
      rfl
    · rw [Option.toList_some, streak_append]
      rfl
    · rw [Option.toList_some, List.infix_concat_iff, replicate_suffix_iff, streak_append] at hcalm
      have hbelow : ¬ CircuitBreaker.new.failureThreshold ≤ streak (verdicts x ls) + 1 :=
        fun hle => hcalm (.inl hle)
      rw [Option.toList_some, streak_append]
      exact if_neg hbelow

/-- With the last of that many failures it opens. -/
theorem run_opened {s : Shared} (hs : s.mevCircuit = .new) {ls : List (client.system x).Label}
    {c : (client.system x).Config}
    (h : Run (Step (client.system x)) ((client.system x).start s) ls c)
    (hrow : List.replicate CircuitBreaker.new.failureThreshold false <:+: verdicts x ls) :
    ∃ pre post c', ls = pre ++ post ∧
      Run (Step (client.system x)) ((client.system x).start s) pre c' ∧
      Run (Step (client.system x)) c' post c ∧ c'.shared.mevCircuit.isOpen := by
  induction h with
  | nil => cases List.infix_nil.mp hrow
  | @snoc c c' ls l hrun hstep ih =>
    by_cases hbefore :
        List.replicate CircuitBreaker.new.failureThreshold false <:+: verdicts x ls
    · obtain ⟨pre, post, m, rfl, hpre, hpost, hopen⟩ := ih hbefore
      exact ⟨pre, post ++ [l], m, by rw [List.append_assoc], hpre, hpost.snoc hstep, hopen⟩
    · -- so it is this step that makes the row complete
      have hclosed := run_closed hs hrun hbefore
      rw [verdicts_snoc] at hrow
      refine ⟨ls ++ [l], [], c', by rw [List.append_nil], hrun.snoc hstep, .nil _, ?_⟩
      rcases step_verdict hrun hstep with ⟨hl, -⟩ | ⟨hl, -⟩ | ⟨hl, heq⟩ <;> rw [hl] at hrow
      · rw [Option.toList_none, List.append_nil] at hrow
        exact absurd hrow hbefore
      · rw [Option.toList_some, List.infix_concat_iff, replicate_suffix_iff, streak_append] at hrow
        exact absurd hrow (not_or.mpr ⟨Nat.not_succ_le_zero 4, hbefore⟩)
      · rw [Option.toList_some, List.infix_concat_iff, replicate_suffix_iff, streak_append] at hrow
        have hfull : CircuitBreaker.new.failureThreshold ≤ streak (verdicts x ls) + 1 :=
          hrow.resolve_right hbefore
        rw [heq, hclosed]
        exact ⟨c.shared.now, congrArg CircuitBreaker.state (if_pos hfull)⟩

end Runs

/-- **The circuit and the verdicts.** In a run of calls on a fresh breaker it is
never Open if and only if no five calls in a row end without the relay having
accepted their bundle, be it that it rejected the bundle. -/
theorem MevRelayClient.circuit_shut_iff (client : MevRelayClient) (x : Externals) {s : Shared}
    (hs : s.mevCircuit = .new) {ls : List (client.system x).Label} {c : (client.system x).Config}
    (h : Run (Step (client.system x)) ((client.system x).start s) ls c) :
    (∀ pre post c', ls = pre ++ post →
      Run (Step (client.system x)) ((client.system x).start s) pre c' →
      Run (Step (client.system x)) c' post c → ¬ c'.shared.mevCircuit.isOpen) ↔
    ¬ List.replicate 5 false <:+: verdicts x ls := by
  constructor
  · intro hshut hrow
    obtain ⟨pre, post, c', hls, hpre, hpost, hopen⟩ := run_opened hs h hrow
    exact hshut pre post c' hls hpre hpost hopen
  · rintro hcalm pre post c' rfl hpre - ⟨t, ht⟩
    have hprefix : verdicts x pre <+: verdicts x (pre ++ post) := verdicts_prefix pre post
    have hclosed := run_closed hs hpre fun hrow => hcalm (hrow.trans hprefix.isInfix)
    rw [hclosed] at ht
    cases ht

-- ---------------------------------------------------------------------------
-- A client that submits bad bundles
-- ---------------------------------------------------------------------------

/-- The relay's answer to a bundle that it rejects as invalid. -/
def rejection : String := "\x7b\"error\":\x7b\"message\":\"invalid bundle\"\x7d\x7d"

/-- A bundle without transactions, and its request. -/
def emptyBundle : Bundle := ⟨[], "0x10", none, none⟩

def emptyBundleBody : String :=
  "\x7b\"jsonrpc\":\"2.0\",\"method\":\"eth_sendBundle\",\"params\":" ++
    "[\x7b\"txs\":[],\"blockNumber\":\"0x10\"\x7d],\"id\":1\x7d"

/-- What serde makes of the two texts. -/
def serdeOnRejection : Externals where
  parseJson text :=
    if text = rejection then
      .ok (.object [("error", .object [("message", .string "invalid bundle")])])
    else .error ""
  encodeJson _ := .ok emptyBundleBody
  responseError _ := ""
  bundleError _ := ""
  statusText := toString
  overflowChecks := false

def defaultClient : MevRelayClient := ⟨1, .default, fun _ => .ok "0x01:0x02"⟩

/-- What a daemon that has just been started shares. -/
def atRest : Shared := ⟨0, .new .default, .new .default, .new, .new, ⟨0, 0, 0⟩⟩

/-- The relay's rejection is JSON, with an error message in it. -/
theorem parse_rejection : serdeOnRejection.parseJson rejection =
    .ok (.object [("error", .object [("message", .string "invalid bundle")])]) := by
  unfold serdeOnRejection
  dsimp only
  rw [if_pos rfl]

/-- A 400 with that message becomes a failed validation. -/
theorem mapRelayError_rejection : mapRelayError serdeOnRejection 400 rejection =
    .invalidRequest ("Bundle validation failed: " ++ "invalid bundle") := by
  unfold mapRelayError
  rw [parse_rejection, if_neg (by decide), if_pos rfl]
  simp [Value.get, Value.asStr]

/-- A text with the word `invalid` in it is not retried. -/
theorem shouldRetry_invalid {error : String} (h : containsStr error "invalid" = true) :
    RetryPolicy.shouldRetry error = false := by
  unfold RetryPolicy.shouldRetry
  rw [h]
  split <;> rfl

/-- What is contained in a text is contained in every text that ends with it. -/
theorem containsStr_append {s t pattern : String} (h : containsStr t pattern = true) :
    containsStr (s ++ t) pattern = true := by
  rw [containsStr, decide_eq_true_eq] at *
  rw [String.toList_append]
  exact h.trans (List.suffix_append _ _).isInfix

/-- The client does not retry the rejection. -/
theorem shouldRetry_rejection :
    RetryPolicy.shouldRetry (mapRelayError serdeOnRejection 400 rejection).display = false := by
  rw [mapRelayError_rejection]
  exact shouldRetry_invalid (containsStr_append (containsStr_append (by decide)))

def rejectedAttempt : List OpEvent :=
  [⟨.sendToRelay emptyBundleBody "0x01:0x02", ()⟩, ⟨.relayReply, .ok 400⟩,
    ⟨.relayText, .ok rejection⟩]

/-- A rejected bundle is not tried again, and counts as a failure. -/
def rejectedCall : List OpEvent :=
  ⟨.canProceed .mevRelay, true⟩ :: rejectedAttempt ++ [⟨.recordFailure .mevRelay, ()⟩]

/-- An attempt that the relay rejects leaves the daemon as it was, and its error is one that
is not retried. -/
theorem performs_rejectedAttempt (s : Shared) : ∃ e, RetryPolicy.shouldRetry e.display = false ∧
    Performs exec (defaultClient.sendBundleAttempt serdeOnRejection emptyBundleBody) s
      rejectedAttempt (.pure (.error e)) s :=
  ⟨_, shouldRetry_rejection,
    .cons ⟨rfl, trivial⟩ (.cons ⟨rfl, trivial⟩ (.cons ⟨rfl, trivial⟩ (.nil _ _)))⟩

/-- A whole call that the relay rejects is one POST and one failure on the relay's breaker.
-/
theorem performs_rejectedCall {s : Shared} {n : Nat} (hs : s.mevCircuit.state = .closed n) :
    ∃ e, Performs exec (defaultClient.sendBundle serdeOnRejection emptyBundle) s rejectedCall
      (.pure (.error e)) (s.setCircuit .mevRelay (s.mevCircuit.recordFailure s.now)) := by
  obtain ⟨e, hretry, hattempt⟩ := performs_rejectedAttempt s
  refine ⟨e, .cons (exec_canProceed_closed (c := .mevRelay) hs) ?_⟩
  show Performs exec (defaultClient.attempts serdeOnRejection emptyBundleBody 3 0 none) s _ _ _
  rw [MevRelayClient.attempts]
  refine (hattempt.bind _).append ?_
  show Performs exec (if RetryPolicy.shouldRetry e.display = true then _ else _) s _ _ _
  rw [hretry, if_neg Bool.false_ne_true]
  exact .cons rfl (.nil _ _)

/-- The calls of such a client. -/
abbrev rejecting : System Op Res (ProxyResult String) := defaultClient.system serdeOnRejection

/-- The steps of a call that arrives as number `i`. -/
def rejectedLabels (i : Nat) (e : ProxyError) : List rejecting.Label :=
  .spawn i emptyBundle :: rejectedCall.map (.act i) ++ [.done i (.error e)]

/-- One more rejected call, on a breaker that is Closed. -/
theorem run_rejectedCall {c : rejecting.Config} {n : Nat}
    (hc : c.shared.mevCircuit.state = .closed n) :
    ∃ e c', Run (Step rejecting) c (rejectedLabels c.next e) c' ∧
      c'.shared.mevCircuit = c.shared.mevCircuit.recordFailure c.shared.now := by
  obtain ⟨e, hperf⟩ := performs_rejectedCall hc
  obtain ⟨c', hrun, hshared, -⟩ :=
    run_served (S := defaultClient.system serdeOnRejection) trivial hperf
  exact ⟨e, c', hrun, by rw [hshared]; rfl⟩

/-- After one rejected call the breaker has not opened in any state on the way. -/
theorem circuit_shut_rejectedCall : ∃ e c,
    Run (Step rejecting) (rejecting.start atRest) (rejectedLabels 0 e) c ∧
    ∀ pre post c', rejectedLabels 0 e = pre ++ post →
      Run (Step rejecting) (rejecting.start atRest) pre c' →
      Run (Step rejecting) c' post c → ¬ c'.shared.mevCircuit.isOpen := by
  obtain ⟨e, c, hrun, -⟩ := run_rejectedCall (n := 0) (c := rejecting.start atRest) rfl
  have hrun : Run (Step rejecting) (rejecting.start atRest) (rejectedLabels 0 e) c := hrun
  have hverdicts : verdicts serdeOnRejection (rejectedLabels 0 e) = [false] := rfl
  refine ⟨e, c, hrun, (MevRelayClient.circuit_shut_iff _ _ rfl hrun).mpr ?_⟩
  rw [hverdicts]
  decide

/-- Such a run goes on with one more rejected call. -/
theorem run_rejected {ls : List rejecting.Label} {c : rejecting.Config} {n : Nat}
    (h : Run (Step rejecting) (rejecting.start atRest) ls c)
    (hshaped : ClientShaped serdeOnRejection ls) (hc : c.shared.mevCircuit.state = .closed n) :
    ∃ ls' c', Run (Step rejecting) (rejecting.start atRest) ls' c' ∧
      ClientShaped serdeOnRejection ls' ∧
      c'.shared.mevCircuit = c.shared.mevCircuit.recordFailure c.shared.now := by
  obtain ⟨e, c', hrun, hcircuit⟩ := run_rejectedCall hc
  refine ⟨ls ++ rejectedLabels c.next e, c', h.append hrun, fun i reply hreply => ?_, hcircuit⟩
  rw [eventsOf_append] at hreply
  by_cases hi : c.next = i
  · subst hi
    have hfirst : eventsOf c.next ls = [] := ((run_known h c.next).unborn (Nat.le_refl _)).2
    have hevents : eventsOf c.next (rejectedLabels c.next e) = rejectedCall := by
      simp [rejectedLabels, rejectedCall, rejectedAttempt, eventsOf]
    rw [hfirst, hevents, List.nil_append] at hreply
    obtain rfl := List.mem_singleton.mp hreply
    rfl
  · have hevents : eventsOf i (rejectedLabels c.next e) = [] := by
      simp [rejectedLabels, rejectedCall, rejectedAttempt, eventsOf, hi]
    rw [hevents, List.append_nil] at hreply
    exact hshaped i reply hreply

/-- A client whose bundles the relay rejects, five of them, has opened its circuit. -/
theorem rejected_bundles_open : ∃ ls c,
    Run (Step rejecting) (rejecting.start atRest) ls c ∧
    ClientShaped serdeOnRejection ls ∧ c.shared.mevCircuit.isOpen := by
  have hcount : ∀ n < 5, ∃ ls c,
      Run (Step rejecting) (rejecting.start atRest) ls c ∧ ClientShaped serdeOnRejection ls ∧
      c.shared.mevCircuit = { CircuitBreaker.new with state := .closed n } := by
    intro n hn
    induction n with
    | zero => exact ⟨[], _, .nil _, nofun, rfl⟩
    | succ n ih =>
      obtain ⟨ls, c, hrun, hshaped, hcircuit⟩ := ih (by omega)
      obtain ⟨ls', c', hrun', hshaped', hcircuit'⟩ :=
        run_rejected (n := n) hrun hshaped (by rw [hcircuit])
      refine ⟨ls', c', hrun', hshaped', ?_⟩
      rw [hcircuit', hcircuit]
      exact if_neg (show ¬ 5 ≤ n + 1 by omega)
  obtain ⟨ls, c, hrun, hshaped, hcircuit⟩ := hcount 4 (by decide)
  obtain ⟨ls', c', hrun', hshaped', hcircuit'⟩ :=
    run_rejected (n := 4) hrun hshaped (by rw [hcircuit])
  refine ⟨ls', c', hrun', hshaped', c.shared.now, ?_⟩
  rw [hcircuit', hcircuit]
  rfl

end Torpc
