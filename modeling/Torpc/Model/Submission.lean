import Torpc.Model.MevClient

/-!
# The submission of a bundle

A call of `send_bundle` that has returned, taken apart: a question to the
breaker, and if it may proceed then one attempt after the other, each with a
wait, a POST and what came of it, until the loop is left by one of its three
exits. `Submission` is the loop as a relation between its events, the replies
and the result; the rest of the module is what can be read off it.
-/

namespace Torpc

open Effects Prog

-- ---------------------------------------------------------------------------
-- Replies
-- ---------------------------------------------------------------------------

/-- What came of a POST: the client's error text, or a status and a body. -/
inductive Reply where
  | lost (e : String)
  | received (status : Nat) (text : String)
  deriving DecidableEq, Repr

namespace Reply

/-- What `send_bundle_attempt` makes of it. -/
def result (x : Externals) : Reply → ProxyResult String
  | .lost e => .error (.upstreamError ("Network error: " ++ e))
  | .received status text =>
    if isSuccess status then parseBundleResponse x text else .error (mapRelayError x status text)

/-- It ends the attempt with an error that `should_retry` lets pass. -/
def Retryable (x : Externals) (r : Reply) : Prop :=
  ∃ e, r.result x = .error e ∧ RetryPolicy.shouldRetry e.display = true

end Reply

/-- The replies among events, `status` being that of a reply whose body has not
been read yet. -/
def repliesFrom (status : Option Nat) : List OpEvent → List Reply
  | [] => []
  | ⟨.relayReply, reply⟩ :: tr =>
    match (reply : Except String Nat) with
    | .ok status => repliesFrom (some status) tr
    | .error e => .lost e :: repliesFrom none tr
  | ⟨.relayText, read⟩ :: tr =>
    (status.map fun status => Reply.received status (readText read)).toList ++ repliesFrom none tr
  | _ :: tr => repliesFrom status tr

/-- The replies of the relay, in order. -/
def replies (tr : List OpEvent) : List Reply := repliesFrom none tr

/-- A POST to the relay. -/
def Op.isPost : Op → Bool
  | .sendToRelay _ _ => true
  | _ => false

/-- The number of POSTs. -/
def postCount (tr : List OpEvent) : Nat := tr.countP fun e => e.op.isPost

/-- The calls of `record_success` and `record_failure`. -/
def records (tr : List OpEvent) : List Op := (tr.map Event.op).filter Op.isVerdict

/-- Operations in which nothing is received bring no reply. -/
theorem repliesFrom_silent {silent : List OpEvent} (h : ∀ e ∈ silent, e.op.isSilent = true)
    (status : Option Nat) (tr : List OpEvent) :
    repliesFrom status (silent ++ tr) = repliesFrom status tr := by
  induction silent with
  | nil => rfl
  | cons e silent ih =>
    have hrest := ih fun e' he' => h e' (List.mem_cons_of_mem _ he')
    have he := h e List.mem_cons_self
    obtain ⟨o, res⟩ := e
    cases o <;> first | exact hrest | cases he

-- ---------------------------------------------------------------------------
-- The attempts of a call
-- ---------------------------------------------------------------------------

/-- The events of an attempt that is signed, and the reply they bring. -/
inductive Attempt (body signature : String) : List OpEvent → Reply → Prop where
  | lost (e : String) : Attempt body signature
      [⟨.sendToRelay body signature, ()⟩, ⟨.relayReply, .error e⟩] (.lost e)
  | received (status : Nat) (read : Except String String) : Attempt body signature
      [⟨.sendToRelay body signature, ()⟩, ⟨.relayReply, .ok status⟩, ⟨.relayText, read⟩]
      (.received status (readText read))

/-- The loop with `left` attempts to go: its events, the replies and the result. -/
inductive Submission (x : Externals) (body signature : String) :
    (left : Nat) → List OpEvent → List Reply → ProxyResult String → Prop where
  | accepted {left : Nat} {pause tr : List OpEvent} {r : Reply} {bundleHash : String} :
      (∀ e ∈ pause, e.op.isPause = true) → Attempt body signature tr r →
      r.result x = .ok bundleHash →
      Submission x body signature (left + 1) (pause ++ (tr ++ [⟨.recordSuccess .mevRelay, ()⟩]))
        [r] (.ok bundleHash)
  | failed {left : Nat} {pause tr : List OpEvent} {r : Reply} {e : ProxyError} :
      (∀ e ∈ pause, e.op.isPause = true) → Attempt body signature tr r → r.result x = .error e →
      left = 0 ∨ RetryPolicy.shouldRetry e.display = false →
      Submission x body signature (left + 1) (pause ++ (tr ++ [⟨.recordFailure .mevRelay, ()⟩]))
        [r] (.error e)
  | retried {left : Nat} {pause tr rest : List OpEvent} {r : Reply} {e : ProxyError}
      {rs : List Reply} {result : ProxyResult String} :
      (∀ e ∈ pause, e.op.isPause = true) → Attempt body signature tr r → r.result x = .error e →
      RetryPolicy.shouldRetry e.display = true → Submission x body signature left rest rs result →
      Submission x body signature (left + 1) (pause ++ (tr ++ rest)) (r :: rs) result

section Trace

variable {client : MevRelayClient} {x : Externals} {body signature : String} {tr : List OpEvent}
  {result : ProxyResult String}

/-- An attempt that can be signed posts the body once and takes what comes back, and its
result is the classification of the reply. -/
theorem MevRelayClient.sendBundleAttempt_trace (hsign : client.signRequest body = .ok signature)
    (h : Trace (client.sendBundleAttempt x body) tr (.pure result)) :
    ∃ r, Attempt body signature tr r ∧ result = r.result x := by
  unfold sendBundleAttempt at h
  simp only [hsign, perform_bind] at h
  cases h with
  | @cons _ _ _ tr _ h =>
    cases h with
    | @cons _ _ reply tr _ h =>
      cases reply with
      | error e =>
        obtain ⟨rfl, hresult⟩ := trace_pure h
        exact ⟨.lost e, .lost e, Prog.pure.inj hresult⟩
      | ok status =>
        cases h with
        | @cons _ _ read tr _ h =>
          refine ⟨.received status (readText read), ?_⟩
          rw [Reply.result]
          by_cases hs : isSuccess status = true
          · simp only [hs, if_true] at h ⊢
            obtain ⟨rfl, hresult⟩ := trace_pure h
            exact ⟨.received status read, Prog.pure.inj hresult⟩
          · simp only [hs] at h ⊢
            obtain ⟨rfl, hresult⟩ := trace_pure h
            exact ⟨.received status read, Prog.pure.inj hresult⟩

/-- One turn of the loop, in a call that returns. -/
theorem MevRelayClient.attempts_cases (hsign : client.signRequest body = .ok signature)
    {left attempt : Nat} {lastError : Option ProxyError}
    (h : Trace (client.attempts x body (left + 1) attempt lastError) tr (.pure result)) :
    ∃ pause attempted rest r, tr = pause ++ (attempted ++ rest) ∧
      (∀ e ∈ pause, e.op.isPause = true) ∧ Attempt body signature attempted r ∧
      ((∃ bundleHash, r.result x = .ok bundleHash ∧ rest = [⟨.recordSuccess .mevRelay, ()⟩] ∧
          result = .ok bundleHash) ∨
        (∃ e, r.result x = .error e ∧ RetryPolicy.shouldRetry e.display = false ∧
          rest = [⟨.recordFailure .mevRelay, ()⟩] ∧ result = .error e) ∨
        ∃ e, r.result x = .error e ∧ RetryPolicy.shouldRetry e.display = true ∧
          Trace (client.attempts x body left (attempt + 1) (some e)) rest (.pure result)) := by
  rw [attempts] at h
  obtain ⟨_, pause, tr, rfl, hpause, h⟩ := h.of_bind
  obtain ⟨ended, attempted, rest, rfl, htr, h⟩ := h.of_bind
  obtain ⟨r, hattempt, rfl⟩ := client.sendBundleAttempt_trace hsign htr
  refine ⟨pause, attempted, rest, r, rfl, (client.ops_backoff x attempt).events hpause,
    hattempt, ?_⟩
  cases hr : r.result x with
  | ok bundleHash =>
    rw [hr] at h
    cases h with
    | cons h =>
      obtain ⟨rfl, hresult⟩ := trace_pure h
      exact .inl ⟨bundleHash, rfl, rfl, Prog.pure.inj hresult⟩
  | error e =>
    rw [hr] at h
    refine .inr ?_
    cases hretry : RetryPolicy.shouldRetry e.display with
    | true =>
      simp only [hretry, if_true] at h
      exact .inr ⟨e, rfl, hretry, h⟩
    | false =>
      simp only [hretry] at h
      cases h with
      | cons h =>
        obtain ⟨rfl, hresult⟩ := trace_pure h
        exact .inl ⟨e, rfl, hretry, rfl, Prog.pure.inj hresult⟩

/-- The loop of a call that returns. -/
theorem MevRelayClient.attempts_trace (hsign : client.signRequest body = .ok signature)
    {left attempt : Nat} {lastError : Option ProxyError}
    (h : Trace (client.attempts x body (left + 1) attempt lastError) tr (.pure result)) :
    ∃ rs, Submission x body signature (left + 1) tr rs result := by
  induction left generalizing attempt lastError tr with
  | zero =>
    obtain ⟨pause, attempted, rest, r, rfl, hpause, hattempt, hcases⟩ :=
      client.attempts_cases hsign h
    rcases hcases with ⟨bundleHash, hr, rfl, rfl⟩ | ⟨e, hr, hretry, rfl, rfl⟩ | ⟨e, hr, hretry, h⟩
    · exact ⟨[r], .accepted hpause hattempt hr⟩
    · exact ⟨[r], .failed hpause hattempt hr (.inl rfl)⟩
    · -- the error that the loop carries is the last attempt's
      cases h with
      | cons h =>
        obtain ⟨rfl, hresult⟩ := trace_pure h
        obtain rfl : result = .error e := Prog.pure.inj hresult
        exact ⟨[r], .failed hpause hattempt hr (.inl rfl)⟩
  | succ left ih =>
    obtain ⟨pause, attempted, rest, r, rfl, hpause, hattempt, hcases⟩ :=
      client.attempts_cases hsign h
    rcases hcases with ⟨bundleHash, hr, rfl, rfl⟩ | ⟨e, hr, hretry, rfl, rfl⟩ | ⟨e, hr, hretry, h⟩
    · exact ⟨[r], .accepted hpause hattempt hr⟩
    · exact ⟨[r], .failed hpause hattempt hr (.inr hretry)⟩
    · obtain ⟨rs, hrest⟩ := ih h
      exact ⟨r :: rs, .retried hpause hattempt hr hretry hrest⟩

end Trace

-- ---------------------------------------------------------------------------
-- What the loop has done
-- ---------------------------------------------------------------------------

section Pause

variable {tr : List OpEvent}

/-- No POST is among the silent operations. -/
theorem Op.isPost_of_isSilent {o : Op} (h : o.isSilent = true) : o.isPost = false := by
  cases o <;> first | rfl | cases h

/-- Nothing is recorded in a pause. -/
theorem Op.isVerdict_of_isPause {o : Op} (h : o.isPause = true) : o.isVerdict = false := by
  cases o <;> first | rfl | cases h

/-- A pause is silent: it shows nothing of what has become of a POST. -/
theorem silent_of_pause {pause : List OpEvent} (h : ∀ e ∈ pause, e.op.isPause = true) :
    ∀ e ∈ pause, e.op.isSilent = true :=
  fun e he => Op.isSilent_of_isPause (h e he)

/-- The replies are those of the part that is not silent. -/
theorem replies_silent {silent : List OpEvent} (h : ∀ e ∈ silent, e.op.isSilent = true) :
    replies (silent ++ tr) = replies tr :=
  repliesFrom_silent h none tr

/-- And so are the POSTs. -/
theorem postCount_silent {silent : List OpEvent} (h : ∀ e ∈ silent, e.op.isSilent = true) :
    postCount (silent ++ tr) = postCount tr := by
  have hnone : silent.countP (fun e => e.op.isPost) = 0 :=
    List.countP_eq_zero.mpr fun e he => by simp [Op.isPost_of_isSilent (h e he)]
  rw [postCount, List.countP_append, hnone, Nat.zero_add, postCount]

/-- What is recorded after a pause is all that is recorded. -/
theorem records_pause {pause : List OpEvent} (h : ∀ e ∈ pause, e.op.isPause = true) :
    records (pause ++ tr) = records tr := by
  have hnone : records pause = [] := by
    refine List.filter_eq_nil_iff.mpr fun o ho => ?_
    obtain ⟨e, he, rfl⟩ := List.mem_map.mp ho
    simp [Op.isVerdict_of_isPause (h e he)]
  rw [records, List.map_append, List.filter_append]
  exact (congrArg (· ++ records tr) hnone).trans (List.nil_append _)

end Pause

namespace Attempt

variable {body signature : String} {tr : List OpEvent} {r : Reply}

/-- An attempt brings one reply, in front of those that follow. -/
theorem replies_append (h : Attempt body signature tr r) (rest : List OpEvent) :
    replies (tr ++ rest) = r :: replies rest := by
  cases h <;> rfl

/-- It is one POST, and the others follow. -/
theorem postCount_append (h : Attempt body signature tr r) (rest : List OpEvent) :
    postCount (tr ++ rest) = postCount rest + 1 := by
  cases h <;> simp [postCount, Op.isPost]

/-- It records nothing; that is left to the loop. -/
theorem records_append (h : Attempt body signature tr r) (rest : List OpEvent) :
    records (tr ++ rest) = records rest := by
  cases h <;> rfl

end Attempt

namespace Submission

variable {x : Externals} {body signature : String} {left : Nat} {tr : List OpEvent}
  {rs : List Reply} {result : ProxyResult String}

/-- Its replies are those among its events. -/
theorem replies_eq (h : Submission x body signature left tr rs result) : replies tr = rs := by
  induction h with
  | accepted hpause hattempt _ | failed hpause hattempt _ _ =>
    rw [replies_silent (silent_of_pause hpause), hattempt.replies_append]
    rfl
  | retried hpause hattempt _ _ _ ih =>
    rw [replies_silent (silent_of_pause hpause), hattempt.replies_append, ih]

/-- When a submission ends there have been as many POSTs as replies, where a lost exchange
counts as a reply. -/
theorem postCount_eq (h : Submission x body signature left tr rs result) :
    postCount tr = rs.length := by
  induction h with
  | accepted hpause hattempt _ | failed hpause hattempt _ _ =>
    rw [postCount_silent (silent_of_pause hpause), hattempt.postCount_append]
    rfl
  | retried hpause hattempt _ _ _ ih =>
    rw [postCount_silent (silent_of_pause hpause), hattempt.postCount_append, ih, List.length_cons]

/-- A submission has at least one reply. -/
theorem length_pos (h : Submission x body signature left tr rs result) : 0 < rs.length := by
  cases h <;> exact Nat.succ_pos _

/-- And no more of them than it has attempts. -/
theorem length_le (h : Submission x body signature left tr rs result) : rs.length ≤ left := by
  induction h with
  | accepted | failed => exact Nat.succ_le_succ (Nat.zero_le _)
  | retried _ _ _ _ _ ih => exact Nat.succ_le_succ ih

/-- In all, a submission records one verdict at the relay's breaker. -/
theorem records_eq (h : Submission x body signature left tr rs result) :
    records tr = [if result.isOk then .recordSuccess .mevRelay else .recordFailure .mevRelay] := by
  induction h with
  | accepted hpause hattempt _ | failed hpause hattempt _ _ =>
    rw [records_pause hpause, hattempt.records_append]
    rfl
  | retried hpause hattempt _ _ _ ih =>
    rw [records_pause hpause, hattempt.records_append, ih]

/-- The call ends as its last attempt does, and those before it were retryable. -/
theorem result_eq (h : Submission x body signature left tr rs result) :
    ∃ pre r, rs = pre ++ [r] ∧ result = r.result x ∧ ∀ r' ∈ pre, r'.Retryable x := by
  induction h with
  | accepted _ _ hr | failed _ _ hr _ => exact ⟨[], _, rfl, hr.symm, nofun⟩
  | @retried left pause tr rest r e rs result _ _ hr hretry _ ih =>
    obtain ⟨pre, last, rfl, hresult, hpre⟩ := ih
    refine ⟨r :: pre, last, rfl, hresult, fun r' hr' => ?_⟩
    rcases List.mem_cons.mp hr' with rfl | hr'
    · exact ⟨e, hr, hretry⟩
    · exact hpre r' hr'

/-- Of a single reply there is only one way to split the list at a reply. -/
theorem only_split {pre post : List Reply} {r r' : Reply} (h : [r] = pre ++ r' :: post) :
    pre = [] ∧ r' = r ∧ post = [] := by
  rcases List.singleton_eq_append_iff.mp h with ⟨rfl, hcons⟩ | ⟨-, hcons⟩
  · cases hcons
    exact ⟨rfl, rfl, rfl⟩
  · cases hcons

/-- After an attempt another one follows if its error is retryable and attempts
are left. -/
theorem continues_iff (h : Submission x body signature left tr rs result) {pre post : List Reply}
    {r : Reply} (hsplit : rs = pre ++ r :: post) :
    post ≠ [] ↔ r.Retryable x ∧ pre.length + 1 < left := by
  induction h generalizing pre with
  | accepted _ _ hr =>
    obtain ⟨rfl, rfl, rfl⟩ := only_split hsplit
    refine iff_of_false (fun hne => hne rfl) fun hgo => ?_
    obtain ⟨e, he, -⟩ := hgo.1
    cases hr.symm.trans he
  | failed _ _ hr hlast =>
    obtain ⟨rfl, rfl, rfl⟩ := only_split hsplit
    refine iff_of_false (fun hne => hne rfl) fun hgo => ?_
    obtain ⟨e', he', hretry⟩ := hgo.1
    obtain rfl := Except.error.inj (hr.symm.trans he')
    rcases hlast with rfl | hfinal
    · exact absurd hgo.2 (by simp)
    · exact Bool.false_ne_true (hfinal.symm.trans hretry)
  | @retried left _ _ _ r₁ e rs _ _ _ hr hretry hrest ih =>
    cases pre with
    | nil =>
      obtain ⟨rfl, rfl⟩ := List.cons.inj hsplit
      have hpos := hrest.length_pos
      have hle := hrest.length_le
      exact iff_of_true (List.ne_nil_of_length_pos hpos)
        ⟨⟨e, hr, hretry⟩, by rw [List.length_nil]; omega⟩
    | cons r₂ pre =>
      obtain ⟨-, hsplit⟩ := List.cons.inj hsplit
      rw [ih hsplit, List.length_cons, Nat.add_lt_add_iff_right]

end Submission

-- ---------------------------------------------------------------------------
-- A call
-- ---------------------------------------------------------------------------

section Call

variable {client : MevRelayClient} {x : Externals} {bundle : Bundle} {tr : List OpEvent}
  {result : ProxyResult String}

/-- A call that returns was not let through, or could not be encoded, or has
been through its loop. -/
theorem MevRelayClient.sendBundle_trace
    (h : Trace (client.sendBundle x bundle) tr (.pure result)) :
    (tr = [⟨.canProceed .mevRelay, false⟩] ∧
      result = .error (.upstreamError "MEV relay circuit breaker is open - too many failures")) ∨
    ∃ tr', tr = ⟨.canProceed .mevRelay, true⟩ :: tr' ∧
      ((∃ e, x.encodeJson (SendBundleRequest.new bundle 1).toValue = .error e ∧ tr' = []) ∨
        ∃ body, x.encodeJson (SendBundleRequest.new bundle 1).toValue = .ok body ∧
          Trace (client.attempts x body client.retryPolicy.maxAttempts 0 none) tr'
            (.pure result)) := by
  unfold sendBundle at h
  cases h with
  | @cons _ _ ok tr' _ h =>
    cases ok with
    | false =>
      obtain ⟨rfl, hresult⟩ := trace_pure h
      exact .inl ⟨rfl, Prog.pure.inj hresult⟩
    | true =>
      refine .inr ⟨tr', rfl, ?_⟩
      cases hencode : x.encodeJson (SendBundleRequest.new bundle 1).toValue with
      | error e =>
        simp only [hencode] at h
        exact .inl ⟨e, rfl, (trace_pure h).1⟩
      | ok body =>
        simp only [hencode] at h
        exact .inr ⟨body, rfl, h⟩

/-- The relay has been asked nothing in a call that returns, or the replies are
those of its loop. -/
theorem MevRelayClient.sendBundle_replies
    (h : Trace (client.sendBundle x bundle) tr (.pure result)) :
    (replies tr = [] ∧ postCount tr = 0) ∨
    ∃ body signature tr', tr = ⟨.canProceed .mevRelay, true⟩ :: tr' ∧
      Submission x body signature client.retryPolicy.maxAttempts tr' (replies tr) result := by
  rcases client.sendBundle_trace h with ⟨rfl, -⟩ | ⟨tr', rfl, ⟨e, -, rfl⟩ | ⟨body, -, htr⟩⟩
  · exact .inl ⟨rfl, rfl⟩
  · exact .inl ⟨rfl, rfl⟩
  · have hquiet : (∀ e ∈ tr', e.op.isSilent = true) →
        replies tr' = [] ∧ postCount tr' = 0 := by
      intro hsilent
      rw [← List.append_nil tr', replies_silent hsilent, postCount_silent hsilent]
      exact ⟨rfl, rfl⟩
    cases hsign : client.signRequest body with
    | error e =>
      have hnever : ∀ signature, client.signRequest body ≠ .ok signature := by
        intro signature hok
        cases hsign.symm.trans hok
      exact .inl (hquiet ((client.ops_attempts_unsigned hnever x _ 0 none).events htr))
    | ok signature =>
      cases hmax : client.retryPolicy.maxAttempts with
      | zero =>
        rw [hmax] at htr
        cases htr with
        | cons htr =>
          obtain ⟨rfl, -⟩ := trace_pure htr
          exact .inl ⟨rfl, rfl⟩
      | succ left =>
        rw [hmax] at htr
        obtain ⟨rs, hloop⟩ := client.attempts_trace hsign htr
        have hreplies : replies (⟨.canProceed .mevRelay, true⟩ :: tr') = rs := hloop.replies_eq
        exact .inr ⟨body, signature, tr', rfl, hreplies.symm ▸ hloop⟩

end Call

end Torpc
