import Torpc.Lib.Joined
import Torpc.Model.Submission
import Torpc.Results.RelayCircuit

/-!
# What decides a retry

`should_retry` is meant to tell classes of errors apart: authentication and
validation errors are final, network errors and what the relay has to answer for
are tried again. It does so by looking for four words in the error's text, which
quotes the relay. A 400 is therefore posted again unless its message happens to
contain one of them, and a 503 whose page does is not (`retry_by_class_iff`).
-/

namespace Torpc

open Effects Prog System Lts Joined

-- ---------------------------------------------------------------------------
-- The words
-- ---------------------------------------------------------------------------

/-- The words that `should_retry` takes for a final error. -/
def refusalWords : List String := ["authentication", "unauthorized", "invalid", "malformed"]

/-- One of them occurs. -/
def namesRefusal (text : String) : Bool := refusalWords.any (containsStr text)

/-- An error is retried just if its text names no refusal. -/
theorem shouldRetry_eq (error : String) : RetryPolicy.shouldRetry error = !namesRefusal error := by
  simp only [RetryPolicy.shouldRetry, namesRefusal, refusalWords, List.any_cons, List.any_nil,
    Bool.or_false]
  cases containsStr error "authentication" <;> cases containsStr error "unauthorized" <;>
    cases containsStr error "invalid" <;> cases containsStr error "malformed" <;> simp

/-- They are words: a text made of two parts has one if a part has. -/
theorem namesRefusal_parts (sep : Char) (hsep : ∀ w ∈ refusalWords, sep ∉ w.toList)
    {text s t : String} (h : text.toList = s.toList ++ sep :: t.toList) :
    namesRefusal text = (namesRefusal s || namesRefusal t) := by
  have hword : ∀ w ∈ refusalWords, containsStr text w = (containsStr s w || containsStr t w) := by
    intro w hw
    simp only [containsStr, h, infix_parts (hsep w hw), Bool.decide_or]
  rw [Bool.eq_iff_iff]
  simp only [namesRefusal, Bool.or_eq_true, List.any_eq_true, ← exists_or, ← and_or_left]
  refine exists_congr fun w => and_congr_right fun hw => ?_
  rw [hword w hw, Bool.or_eq_true]

/-- The fixed words in front of a quoted text. -/
def IsLead (lead : String) : Prop := ∃ l, lead = l ++ " " ∧ namesRefusal l = false

/-- Fixed words of this kind, put in front of a text, neither add the name of a refusal nor
break one up. -/
theorem namesRefusal_lead {lead : String} (h : IsLead lead) (text : String) :
    namesRefusal (lead ++ text) = namesRefusal text := by
  obtain ⟨l, rfl, hl⟩ := h
  have hparts : (l ++ " " ++ text).toList = l.toList ++ ' ' :: text.toList := by simp
  rw [namesRefusal_parts ' ' (by decide) hparts, hl, Bool.false_or]

/-- No refusal's name reaches over the colon between two texts, so that each part can be
looked at alone. -/
theorem namesRefusal_colon (s t : String) :
    namesRefusal (s ++ ": " ++ t) = (namesRefusal s || namesRefusal t) := by
  have hblank : IsLead " " := ⟨"", rfl, by decide⟩
  rw [← namesRefusal_lead hblank t]
  exact namesRefusal_parts ':' (by decide) (by simp)

-- ---------------------------------------------------------------------------
-- The replies
-- ---------------------------------------------------------------------------

/-- What a 400 says in its body, if it says it the JSON-RPC way. -/
def errorMessage (x : Externals) (body : String) : Option String :=
  match x.parseJson body with
  | .ok json => json.get "error" >>= Value.get "message" >>= Value.asStr
  | .error _ => none

namespace Reply

/-- An authentication or validation error. -/
def IsFinal : Reply → Prop
  | .lost _ => False
  | .received status _ => status = 401 ∨ status = 400

/-- A network error, a rate limit, or an error of the relay's own. -/
def IsTransient : Reply → Prop
  | .lost _ => True
  | .received status _ => status = 429 ∨ (500 ≤ status ∧ status < 600)

/-- The texts that the error of an attempt quotes. -/
def quotes (x : Externals) : Reply → List String
  | .lost e => [e]
  | .received status text =>
    if status = 401 ∨ status = 429 then []
    else if status = 400 then (errorMessage x text).toList
    else [x.statusText status, text]

/-- One of the four words occurs in what is quoted. -/
def namesRefusal (x : Externals) (r : Reply) : Bool := (r.quotes x).any Torpc.namesRefusal

/-- It is worded as its class would have it: a validation error with one of the
words, what is to be tried again without. -/
def WordedByClass (x : Externals) (r : Reply) : Prop :=
  (∀ text, r = .received 400 text → r.namesRefusal x = true) ∧
    (r.IsTransient → r.namesRefusal x = false)

variable {x : Externals}

/-- A reply that ends in an error is retried just if the error, as it is displayed, names no
refusal. -/
theorem retryable_error_iff {r : Reply} {e : ProxyError} (h : r.result x = .error e) :
    r.Retryable x ↔ Torpc.namesRefusal e.display = false := by
  constructor
  · rintro ⟨e', he', hretry⟩
    obtain rfl := Except.error.inj (h.symm.trans he')
    simpa [shouldRetry_eq] using hretry
  · intro hnames
    exact ⟨e, h, by rw [shouldRetry_eq, hnames]; rfl⟩

/-- What an upstream error puts around its message names no refusal. -/
theorem namesRefusal_upstream (msg : String) :
    Torpc.namesRefusal (ProxyError.upstreamError msg).display = Torpc.namesRefusal msg :=
  namesRefusal_lead ⟨"Upstream connection error:", rfl, by decide +kernel⟩ msg

/-- Nor does what is put around a rejected request. -/
theorem namesRefusal_invalidRequest (msg : String) :
    Torpc.namesRefusal (ProxyError.invalidRequest msg).display = Torpc.namesRefusal msg :=
  namesRefusal_lead ⟨"Invalid JSON-RPC request:", rfl, by decide +kernel⟩ msg

/-- Nor does what is put around an internal error of the daemon. -/
theorem namesRefusal_internalError (msg : String) :
    Torpc.namesRefusal (ProxyError.internalError msg).display = Torpc.namesRefusal msg :=
  namesRefusal_lead ⟨"Internal server error:", rfl, by decide +kernel⟩ msg

/-- Whether a lost exchange is tried again depends on the text of its error alone. -/
theorem retryable_lost (e : String) : (Reply.lost e).Retryable x ↔
    (Reply.lost e).namesRefusal x = false := by
  have hnetwork : IsLead "Network error: " := ⟨"Network error:", rfl, by decide +kernel⟩
  have hresult : (Reply.lost e).result x = .error (.upstreamError ("Network error: " ++ e)) := rfl
  rw [retryable_error_iff hresult, namesRefusal_upstream, namesRefusal_lead hnetwork]
  simp only [namesRefusal, quotes, List.any_cons, List.any_nil, Bool.or_false]

/-- A 400 becomes a failed validation with the relay's own message, or a fixed text where
there is none. -/
theorem mapRelayError_badRequest (text : String) : mapRelayError x 400 text =
    .invalidRequest ((errorMessage x text).elim "Invalid bundle format"
      ("Bundle validation failed: " ++ ·)) := by
  rw [mapRelayError, if_neg (by decide), if_pos rfl, errorMessage]
  cases x.parseJson text with
  | error e => rfl
  | ok json =>
    dsimp only
    cases json.get "error" >>= Value.get "message" >>= Value.asStr <;> rfl

/-- What of a reply is in the text that `should_retry` searches. -/
theorem namesRefusal_mapRelayError {status : Nat} (h : status ≠ 401) (text : String) :
    Torpc.namesRefusal (mapRelayError x status text).display =
      (Reply.received status text).namesRefusal x := by
  by_cases h400 : status = 400
  · subst h400
    have hlead : IsLead "Bundle validation failed: " :=
      ⟨"Bundle validation failed:", rfl, by decide +kernel⟩
    rw [mapRelayError_badRequest, namesRefusal_invalidRequest, namesRefusal, quotes,
      if_neg (by decide), if_pos rfl]
    cases errorMessage x text with
    | none =>
      show Torpc.namesRefusal "Invalid bundle format" = false
      decide +kernel
    | some msg =>
      show Torpc.namesRefusal ("Bundle validation failed: " ++ msg) = _
      rw [namesRefusal_lead hlead, Option.toList_some, List.any_cons, List.any_nil, Bool.or_false]
  · by_cases h429 : status = 429
    · subst h429
      rw [mapRelayError, if_neg h, if_neg h400, if_pos rfl, namesRefusal_upstream, namesRefusal,
        quotes, if_pos (.inr rfl)]
      decide +kernel
    · have hlead : IsLead "MEV relay error " := ⟨"MEV relay error", rfl, by decide +kernel⟩
      have hquotes : ¬ (status = 401 ∨ status = 429) := not_or.mpr ⟨h, h429⟩
      rw [mapRelayError, if_neg h, if_neg h400, if_neg h429, namesRefusal_upstream,
        namesRefusal_colon, namesRefusal_lead hlead, namesRefusal, quotes, if_neg hquotes,
        if_neg h400]
      simp only [List.any_cons, List.any_nil, Bool.or_false]

/-- The decision is the class's for a 401, and the words' for every other reply
that is no success. -/
theorem retryable_iff {status : Nat} {text : String} (hs : isSuccess status = false) :
    (Reply.received status text).Retryable x ↔
      status ≠ 401 ∧ (Reply.received status text).namesRefusal x = false := by
  have hresult : (Reply.received status text).result x = .error (mapRelayError x status text) := by
    rw [Reply.result, hs, if_neg Bool.false_ne_true]
  rw [retryable_error_iff hresult]
  by_cases h : status = 401
  · subst h
    have hfinal : Torpc.namesRefusal (mapRelayError x 401 text).display = true := by
      rw [mapRelayError, if_pos rfl, namesRefusal_internalError]
      decide +kernel
    simp [hfinal]
  · rw [namesRefusal_mapRelayError h]
    exact ⟨fun hnames => ⟨h, hnames⟩, And.right⟩

/-- A failure that is transient by its class is retried just if no word of a refusal stands
in its text. -/
theorem retryable_of_transient {r : Reply} (h : r.IsTransient) :
    r.Retryable x ↔ r.namesRefusal x = false := by
  cases r with
  | lost e => exact retryable_lost e
  | received status text =>
    have hs : isSuccess status = false ∧ status ≠ 401 := by
      rcases h with rfl | h
      · exact ⟨by decide, by decide⟩
      · simp only [isSuccess, Bool.and_eq_false_iff, decide_eq_false_iff_not]
        omega
    rw [retryable_iff hs.1]
    exact and_iff_right hs.2

/-- Of the final errors only a 400 can be retried. -/
theorem final_cases {r : Reply} (h : r.IsFinal) :
    ¬ r.Retryable x ∨ (∃ text, r = .received 400 text) ∧
      (r.Retryable x ↔ r.namesRefusal x = false) := by
  cases r with
  | lost e => exact h.elim
  | received status text =>
    rcases h with rfl | rfl
    · exact .inl fun hretry => ((retryable_iff (by decide)).mp hretry).1 rfl
    · exact .inr ⟨⟨text, rfl⟩, (retryable_iff (by decide)).trans (and_iff_right (by decide))⟩

end Reply

-- ---------------------------------------------------------------------------
-- The decisions of a call
-- ---------------------------------------------------------------------------

/-- A final error ends the call, and one that is transient does not unless all
attempts have been made. -/
def FollowsClasses (maxAttempts : Nat) (rs : List Reply) : Prop :=
  ∀ pre r post, rs = pre ++ r :: post →
    (r.IsFinal → post = []) ∧ (r.IsTransient → post = [] → pre.length + 1 = maxAttempts)

/-- The replies after which attempts were left are worded by class. -/
def WordedByClasses (x : Externals) (maxAttempts : Nat) (rs : List Reply) : Prop :=
  ∀ pre r post, rs = pre ++ r :: post → pre.length + 1 < maxAttempts → r.WordedByClass x

/-- Two refusals with the same status, with attempts left after each. -/
def SameStatus (maxAttempts : Nat) (rs rs' : List Reply)
    (P : (r r' : Reply) → (post post' : List Reply) → Prop) : Prop :=
  ∀ status text text' pre pre' post post', isSuccess status = false →
    rs = pre ++ .received status text :: post → pre.length + 1 < maxAttempts →
    rs' = pre' ++ .received status text' :: post' → pre'.length + 1 < maxAttempts →
    P (.received status text) (.received status text') post post'

/-- The same is decided after both. -/
def SameDecisions (maxAttempts : Nat) (rs rs' : List Reply) : Prop :=
  SameStatus maxAttempts rs rs' fun _ _ post post' => post = [] ↔ post' = []

/-- Both or none has one of the words. -/
def SameWording (x : Externals) (maxAttempts : Nat) (rs rs' : List Reply) : Prop :=
  SameStatus maxAttempts rs rs' fun r r' _ _ => r.namesRefusal x = r'.namesRefusal x

section Call

variable {client : MevRelayClient} {x : Externals}

/-- The replies of a call that goes on after those that are retryable. -/
structure Decides (x : Externals) (maxAttempts : Nat) (rs : List Reply) : Prop where
  continues_iff : ∀ {pre r post}, rs = pre ++ r :: post →
    (post ≠ [] ↔ r.Retryable x ∧ pre.length + 1 < maxAttempts)
  length_le : rs.length ≤ maxAttempts

/-- The replies to one bundle are followed up by their classes just if each is worded by its
class, as far as the attempts go. -/
theorem followsClasses_iff {maxAttempts : Nat} {rs : List Reply} (h : Decides x maxAttempts rs) :
    FollowsClasses maxAttempts rs ↔ WordedByClasses x maxAttempts rs := by
  constructor
  · intro hfollows pre r post hsplit hleft
    obtain ⟨hfinal, htransient⟩ := hfollows pre r post hsplit
    have hgoes := h.continues_iff hsplit
    refine ⟨fun text hr => ?_, fun hr => ?_⟩
    · subst hr
      have hends : post = [] := hfinal (.inr rfl)
      have hnot : ¬ (Reply.received 400 text).Retryable x :=
        fun hretry => hgoes.mpr ⟨hretry, hleft⟩ hends
      rw [Reply.retryable_iff (by decide)] at hnot
      exact Bool.eq_true_of_not_eq_false fun hnames => hnot ⟨by decide, hnames⟩
    · have hmore : post ≠ [] := fun hends => Nat.ne_of_lt hleft (htransient hr hends)
      exact (Reply.retryable_of_transient hr).mp (hgoes.mp hmore).1
  · intro hworded pre r post hsplit
    have hgoes := h.continues_iff hsplit
    refine ⟨fun hr => ?_, fun hr hends => ?_⟩
    · by_contra hmore
      obtain ⟨hretry, hleft⟩ := hgoes.mp hmore
      rcases Reply.final_cases (x := x) hr with hnot | ⟨⟨text, htext⟩, hiff⟩
      · exact hnot hretry
      · have hnames := (hworded pre r post hsplit hleft).1 text htext
        rw [hiff.mp hretry] at hnames
        cases hnames
    · -- attempts being left, a reply without the words would not have been the last
      have hlen := h.length_le
      rw [hsplit, List.length_append, List.length_cons] at hlen
      by_contra hne
      have hleft : pre.length + 1 < maxAttempts := by omega
      have hnames := (hworded pre r post hsplit hleft).2 hr
      exact hgoes.mpr ⟨(Reply.retryable_of_transient hr).mpr hnames, hleft⟩ hends

/-- Two courses of replies of the same classes are treated alike just if their wordings
agree, as far as the attempts go. -/
theorem sameDecisions_iff {maxAttempts : Nat} {rs rs' : List Reply}
    (h : Decides x maxAttempts rs) (h' : Decides x maxAttempts rs') :
    SameDecisions maxAttempts rs rs' ↔ SameWording x maxAttempts rs rs' := by
  have hdecision : ∀ {rs : List Reply}, Decides x maxAttempts rs →
      ∀ {status text pre post}, isSuccess status = false →
      rs = pre ++ .received status text :: post → pre.length + 1 < maxAttempts →
      (post ≠ [] ↔ status ≠ 401 ∧ (Reply.received status text).namesRefusal x = false) := by
    intro rs h status text pre post hs hsplit hleft
    rw [h.continues_iff hsplit, Reply.retryable_iff hs, and_iff_left hleft]
  constructor
  · intro hsame status text text' pre pre' post post' hs hsplit hleft hsplit' hleft'
    have hposts : post ≠ [] ↔ post' ≠ [] :=
      not_congr (hsame status text text' pre pre' post post' hs hsplit hleft hsplit' hleft')
    rw [hdecision h hs hsplit hleft, hdecision h' hs hsplit' hleft'] at hposts
    by_cases h401 : status = 401
    · subst h401
      rfl
    · rw [and_iff_right h401, and_iff_right h401] at hposts
      exact Bool.eq_iff_iff.mpr (by simpa using not_congr hposts)
  · intro hsame status text text' pre pre' post post' hs hsplit hleft hsplit' hleft'
    have hnames : _ = _ :=
      hsame status text text' pre pre' post post' hs hsplit hleft hsplit' hleft'
    refine not_iff_not.mp ?_
    rw [← ne_eq, ← ne_eq, hdecision h hs hsplit hleft, hdecision h' hs hsplit' hleft', hnames]

/-- Every call of `send_bundle` that returns has decided so about its replies, one after the
other. -/
theorem decides_of_trace {bundle : Bundle} {tr : List OpEvent} {result : ProxyResult String}
    (h : Trace (client.sendBundle x bundle) tr (.pure result)) :
    Decides x client.retryPolicy.maxAttempts (replies tr) ∧
      postCount tr = (replies tr).length := by
  rcases client.sendBundle_replies h with ⟨hnone, hposts⟩ | ⟨body, signature, tr', rfl, hloop⟩
  · rw [hnone]
    refine ⟨⟨fun hsplit => ?_, Nat.zero_le _⟩, hposts⟩
    exact absurd hsplit (by simp)
  · exact ⟨⟨hloop.continues_iff, hloop.length_le⟩, hloop.postCount_eq⟩

end Call

/-- **Retries by class.** In every call that returns the retries follow the
classes of the errors if and only if the texts of the replies do, and two replies
with one status are treated alike if and only if their texts agree on containing
one of the four words. -/
theorem MevRelayClient.retry_by_class_iff (client : MevRelayClient) (x : Externals)
    {s s' : Shared} {ls ls' : List (client.system x).Label} {c c' : (client.system x).Config}
    (h : Run (Step (client.system x)) ((client.system x).start s) ls c)
    (h' : Run (Step (client.system x)) ((client.system x).start s') ls' c')
    {i j : Nat} {result result' : ProxyResult String} (hi : .done i result ∈ ls)
    (hj : .done j result' ∈ ls') :
    postCount (eventsOf i ls) = (replies (eventsOf i ls)).length ∧
    (FollowsClasses client.retryPolicy.maxAttempts (replies (eventsOf i ls)) ↔
      WordedByClasses x client.retryPolicy.maxAttempts (replies (eventsOf i ls))) ∧
    (SameDecisions client.retryPolicy.maxAttempts (replies (eventsOf i ls))
        (replies (eventsOf j ls')) ↔
      SameWording x client.retryPolicy.maxAttempts (replies (eventsOf i ls))
        (replies (eventsOf j ls'))) := by
  obtain ⟨bundle, -, htr⟩ := returned_trace h hi
  obtain ⟨bundle', -, htr'⟩ := returned_trace h' hj
  obtain ⟨hdecides, hposts⟩ := decides_of_trace htr
  have hdecides' := (decides_of_trace htr').1
  exact ⟨hposts, followsClasses_iff hdecides, sameDecisions_iff hdecides hdecides'⟩

/-- The rejection names a refusal. -/
theorem namesRefusal_rejection :
    (Reply.received 400 rejection).namesRefusal serdeOnRejection = true := by
  have hmessage : errorMessage serdeOnRejection rejection = some "invalid bundle" := by
    rw [errorMessage, parse_rejection]
    simp [Value.get, Value.asStr]
  rw [Reply.namesRefusal, Reply.quotes, if_neg (by decide), if_pos rfl, hmessage]
  decide +kernel

/-- A rejection that names the bundle invalid is final, as it should be. -/
theorem retry_by_class_rejection : ∃ e c,
    Run (Step rejecting) (rejecting.start atRest) (rejectedLabels 0 e) c ∧
    FollowsClasses 3 (replies (eventsOf 0 (rejectedLabels 0 e))) := by
  obtain ⟨e, c, hrun, -⟩ := run_rejectedCall (n := 0) (c := rejecting.start atRest) rfl
  have hrun : Run (Step rejecting) (rejecting.start atRest) (rejectedLabels 0 e) c := hrun
  have hdone : .done 0 (.error e) ∈ rejectedLabels 0 e := by simp [rejectedLabels]
  have hreplies : replies (eventsOf 0 (rejectedLabels 0 e)) = [.received 400 rejection] := rfl
  refine ⟨e, c, hrun, (MevRelayClient.retry_by_class_iff _ _ hrun hrun hdone hdone).2.1.mpr ?_⟩
  rw [hreplies]
  intro pre r post hsplit hleft
  obtain ⟨rfl, rfl, rfl⟩ := Submission.only_split hsplit
  refine ⟨fun text htext => ?_, fun htransient => ?_⟩
  · exact namesRefusal_rejection
  · exact absurd htransient (by simp [Reply.IsTransient])

/-- The first attempt of a call brings a 400 that is no JSON, the second one a
rejection. -/
def twiceRejected (range : Rat) (millis : Nat) : List OpEvent :=
  ⟨.canProceed .mevRelay, true⟩ ::
    ([⟨.sendToRelay emptyBundleBody "0x01:0x02", ()⟩, ⟨.relayReply, .ok 400⟩,
      ⟨.relayText, .ok ""⟩] ++ ([⟨.genJitter range, 0⟩, ⟨.sleep millis, ()⟩] ++
        (rejectedAttempt ++ [⟨.recordFailure .mevRelay, ()⟩])))

/-- A 400 with an empty body is told by a fixed text that names no refusal, and is retried.
-/
theorem shouldRetry_fixedText :
    RetryPolicy.shouldRetry (mapRelayError serdeOnRejection 400 "").display = true := by
  have hmessage : errorMessage serdeOnRejection "" = none := rfl
  rw [Reply.mapRelayError_badRequest, hmessage, shouldRetry_eq, Reply.namesRefusal_invalidRequest]
  decide +kernel

/-- The attempt that gets a 400 with an empty body hands back an error that is retried. -/
theorem performs_firstAttempt (s : Shared) : ∃ e, RetryPolicy.shouldRetry e.display = true ∧
    Performs exec (defaultClient.sendBundleAttempt serdeOnRejection emptyBundleBody) s
      [⟨.sendToRelay emptyBundleBody "0x01:0x02", ()⟩, ⟨.relayReply, .ok 400⟩,
        ⟨.relayText, .ok ""⟩] (.pure (.error e)) s :=
  ⟨_, shouldRetry_fixedText,
    .cons ⟨rfl, trivial⟩ (.cons ⟨rfl, trivial⟩ (.cons ⟨rfl, trivial⟩ (.nil _ _)))⟩

/-- The whole call posts the bundle twice, and is rejected by the same status both times. -/
theorem performs_twiceRejected {s : Shared} {n : Nat} (hs : s.mevCircuit.state = .closed n) :
    ∃ range millis e s', Performs exec (defaultClient.sendBundle serdeOnRejection emptyBundle) s
      (twiceRejected range millis) (.pure (.error e)) s' := by
  obtain ⟨range, millis, hpause⟩ :=
    defaultClient.performs_backoff rfl serdeOnRejection s
  obtain ⟨e, hretry, hfirst⟩ := performs_firstAttempt s
  obtain ⟨e', hfinal, hsecond⟩ := performs_rejectedAttempt s
  refine ⟨range, millis, e', s.setCircuit .mevRelay (s.mevCircuit.recordFailure s.now), ?_⟩
  refine .cons (exec_canProceed_closed (c := .mevRelay) hs) ?_
  show Performs exec (defaultClient.attempts serdeOnRejection emptyBundleBody 3 0 none) s _ _ _
  rw [MevRelayClient.attempts]
  refine (hfirst.bind _).append ?_
  show Performs exec (if RetryPolicy.shouldRetry e.display = true then _ else _) s _ _ _
  rw [hretry, if_pos rfl, MevRelayClient.attempts]
  refine (hpause.bind _).append ((hsecond.bind _).append ?_)
  show Performs exec (if RetryPolicy.shouldRetry e'.display = true then _ else _) s _ _ _
  rw [hfinal, if_neg Bool.false_ne_true]
  exact .cons rfl (.nil _ _)

/-- A validation error is posted again, if its text does not say so in one of the
four words, and one that does is not. -/
theorem rejection_posted_again : ∃ ls c e,
    Run (Step rejecting) (rejecting.start atRest) ls c ∧ .done 0 (.error e) ∈ ls ∧
    ¬ FollowsClasses 3 (replies (eventsOf 0 ls)) ∧
    ¬ SameDecisions 3 (replies (eventsOf 0 ls)) (replies (eventsOf 0 ls)) := by
  obtain ⟨range, millis, e, s', hperf⟩ := performs_twiceRejected (n := 0) (s := atRest) rfl
  have hjob : rejecting.accepts atRest emptyBundle := trivial
  obtain ⟨c, hrun, -⟩ := run_served (S := rejecting) (c := rejecting.start atRest) hjob hperf
  refine ⟨_, c, e, hrun, List.mem_append_right _ (List.mem_singleton.mpr rfl), ?_, ?_⟩
  · intro hfollows
    have hends := (hfollows [] (.received 400 "") [.received 400 rejection] rfl).1 (.inr rfl)
    cases hends
  · intro hsame
    have hends := hsame 400 "" rejection [] [.received 400 ""] [.received 400 rejection] []
      rfl rfl (by decide) rfl (by decide)
    cases hends.mpr rfl

end Torpc
