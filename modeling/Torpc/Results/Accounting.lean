import Torpc.Model.Submission
import Torpc.Results.RelayCircuit

/-!
# The account of a bundle

Whatever the relay does, a call of `send_bundle` that returns has told the
breaker once how it went, and has posted at least once and at most
`max_attempts` times, unless the breaker did not let it proceed: then it has
done nothing (`accounting`). What it returns is what its last attempt came to.
-/

namespace Torpc

open Effects Prog System Lts

/-- The account of a call that was let through. -/
structure Accounted (x : Externals) (maxAttempts : Nat) (tr : List OpEvent)
    (result : ProxyResult String) : Prop where
  posted : 1 ≤ postCount tr
  bounded : postCount tr ≤ maxAttempts
  /-- each POST was an attempt -/
  attempted : postCount tr = (replies tr).length
  ok_iff : ∀ bundleHash, result = .ok bundleHash ↔ ∃ pre r post, replies tr = pre ++ r :: post ∧
    r.result x = .ok bundleHash ∧ ∀ r' ∈ pre, r'.Retryable x
  error : ∀ e, result = .error e → ∃ pre r, replies tr = pre ++ [r] ∧ r.result x = .error e
  recorded : records tr =
    [if result.isOk then .recordSuccess .mevRelay else .recordFailure .mevRelay]

/-- Once it has been let through, a call has its account in order. -/
theorem Submission.accounted {x : Externals} {body signature : String} {left : Nat}
    {tr : List OpEvent} {rs : List Reply} {result : ProxyResult String}
    (h : Submission x body signature left tr rs result) :
    Accounted x left (⟨.canProceed .mevRelay, true⟩ :: tr) result := by
  have hreplies : replies (⟨.canProceed .mevRelay, true⟩ :: tr) = rs := h.replies_eq
  have hposts : postCount (⟨.canProceed .mevRelay, true⟩ :: tr) = rs.length := h.postCount_eq
  obtain ⟨pre, last, hrs, hresult, hpre⟩ := h.result_eq
  refine ⟨?_, ?_, by rw [hposts, hreplies], fun bundleHash => ?_, fun e he => ?_, h.records_eq⟩
  · rw [hposts]
    exact h.length_pos
  · rw [hposts]
    exact h.length_le
  · rw [hreplies]
    constructor
    · intro hok
      exact ⟨pre, last, [], hrs, hresult ▸ hok, hpre⟩
    · rintro ⟨pre', r, post, hsplit, hok, -⟩
      -- an attempt that succeeds is the last
      have hend : post = [] := by
        by_contra hne
        obtain ⟨⟨e, he, -⟩, -⟩ := (h.continues_iff hsplit).mp hne
        cases hok.symm.trans he
      subst hend
      obtain ⟨-, hlast⟩ := List.append_inj' (hrs.symm.trans hsplit) rfl
      obtain rfl := List.head_eq_of_cons_eq hlast
      exact hresult.trans hok
  · rw [hreplies]
    exact ⟨pre, last, hrs, hresult ▸ he⟩

namespace MevRelayClient

/-- **The account of a bundle.** For every run, every breaker state and every
reply, a call that returns was refused by the breaker and has done nothing else,
or has its account in order. -/
theorem accounting (client : MevRelayClient) (x : Externals)
    (hattempts : 1 ≤ client.retryPolicy.maxAttempts)
    (hencode : ∀ bundle, ∃ body, x.encodeJson (SendBundleRequest.new bundle 1).toValue = .ok body)
    (hsign : ∀ body, ∃ signature, client.signRequest body = .ok signature)
    {s : Shared} {ls : List (client.system x).Label} {c : (client.system x).Config}
    (h : Run (Step (client.system x)) ((client.system x).start s) ls c) {i : Nat}
    {result : ProxyResult String} (hdone : .done i result ∈ ls) :
    ∃ m ok m', StepIn s ls c i m ⟨.canProceed .mevRelay, ok⟩ m' ∧
      (m.shared.mevCircuit.canProceed m.shared.now).1 = ok ∧
      (ok = false → postCount (eventsOf i ls) = 0 ∧ records (eventsOf i ls) = []) ∧
      (ok = true →
        Accounted x client.retryPolicy.maxAttempts (eventsOf i ls) result) := by
  obtain ⟨bundle, -, htr⟩ := returned_trace h hdone
  -- the answer is the breaker's at that step
  have hasked : ∀ ok : Bool, ⟨.canProceed .mevRelay, ok⟩ ∈ eventsOf i ls → ∃ m m',
      StepIn s ls c i m ⟨.canProceed .mevRelay, ok⟩ m' ∧
      (m.shared.mevCircuit.canProceed m.shared.now).1 = ok := by
    intro ok hmem
    obtain ⟨m, m', hin⟩ := stepIn_of_mem h hmem
    have hexec : exec m.shared (.canProceed .mevRelay) ok m'.shared := hin.exec
    exact ⟨m, m', hin, (exec_perform rfl hexec).1⟩
  rcases client.sendBundle_trace htr with ⟨htr, -⟩ | ⟨tr', htr, hafter⟩
  · obtain ⟨m, m', hin, hok⟩ := hasked false (by rw [htr]; exact List.mem_cons_self)
    rw [htr]
    exact ⟨m, false, m', hin, hok, fun _ => ⟨rfl, rfl⟩, nofun⟩
  · obtain ⟨m, m', hin, hok⟩ := hasked true (by rw [htr]; exact List.mem_cons_self)
    refine ⟨m, true, m', hin, hok, nofun, fun _ => ?_⟩
    obtain ⟨body, hbody⟩ := hencode bundle
    obtain ⟨signature, hsignature⟩ := hsign body
    obtain ⟨left, hleft⟩ : ∃ left, client.retryPolicy.maxAttempts = left + 1 :=
      ⟨_, (Nat.sub_add_cancel hattempts).symm⟩
    rcases hafter with ⟨e, herr, -⟩ | ⟨body', hbody', hloop⟩
    · cases hbody.symm.trans herr
    · obtain rfl := Except.ok.inj (hbody.symm.trans hbody')
      rw [hleft] at hloop ⊢
      obtain ⟨rs, hsub⟩ := client.attempts_trace hsignature hloop
      rw [htr]
      exact hsub.accounted

end MevRelayClient

/-- A rejected bundle has been posted once and has been recorded as a failure. -/
theorem accounting_rejected : ∃ e c m ok m',
    StepIn atRest (rejectedLabels 0 e) c 0 m ⟨.canProceed .mevRelay, ok⟩ m' ∧
    (m.shared.mevCircuit.canProceed m.shared.now).1 = ok ∧
    (ok = false → postCount (eventsOf 0 (rejectedLabels 0 e)) = 0 ∧
      records (eventsOf 0 (rejectedLabels 0 e)) = []) ∧
    (ok = true →
      Accounted serdeOnRejection 3 (eventsOf 0 (rejectedLabels 0 e)) (.error e)) := by
  obtain ⟨e, c, hrun, -⟩ := run_rejectedCall (n := 0) (c := rejecting.start atRest) rfl
  have hrun : Run (Step rejecting) (rejecting.start atRest) (rejectedLabels 0 e) c := hrun
  have hdone : .done 0 (.error e) ∈ rejectedLabels 0 e := by simp [rejectedLabels]
  exact ⟨e, c, defaultClient.accounting serdeOnRejection (by decide) (fun _ => ⟨_, rfl⟩)
    (fun _ => ⟨_, rfl⟩) hrun hdone⟩

end Torpc
