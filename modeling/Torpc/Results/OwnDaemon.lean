import Torpc.Model.PublicRouter
import Torpc.Results.Dispatch
import Torpc.Results.Window

/-!
# The window and this repository's daemon

The test posts its request to `/`, where the daemon serves a page and takes GET.
So whatever state the daemon is in, it answers 405, or 429 when its limiter says
so, or 504 when it is late, and none of them passes (`reply_fails`). A window
that tests against such daemons, or gets no answer, therefore never comes to
invoke `start_proxy`: in no run is a proxy alive unless the start in the tray
has been chosen (`window_never_starts`).
-/

namespace Torpc

open Effects Prog Lts Http Text Utf8Lossy

-- ---------------------------------------------------------------------------
-- What the daemon writes
-- ---------------------------------------------------------------------------

/-- The reason phrase of a status that the probe can meet. -/
def reasonPhrase : Nat → String
  | 400 => "Bad Request"
  | 405 => "Method Not Allowed"
  | 429 => "Too Many Requests"
  | 504 => "Gateway Timeout"
  | _ => ""

/-- The status line as the HTTP server writes it. -/
def statusLine (response : HttpResponse) : List Char :=
  "HTTP/1.1 ".toList ++ Net.decimal response.status ++ ' ' :: (reasonPhrase response.status).toList

/-- What the daemon answers to the probe for an endpoint. What cannot be parsed as a
request does not come to the router. -/
inductive ProbeReply (onionEndpoint : String) : HttpResponse → Prop where
  | unparsed (h : isHeaderValue onionEndpoint = false) : ProbeReply onionEndpoint ⟨400, none⟩
  | served (d : Daemon) (files : StaticFiles) (v : PublicRequest) (target : PathAndQuery)
      (hline : requestLine (probeRequest onionEndpoint).toList = some (v.method, target))
      (hpath : target.pathStr = v.path) (tr : List OpEvent) (response : HttpResponse)
      (h : Trace (d.respond files v) tr (.pure response)) : ProbeReply onionEndpoint response
  | late : ProbeReply onionEndpoint Daemon.timeoutResponse

/-- The bytes are the beginning of such an answer, or all of it: the status line, the
header fields and the body. -/
def IsProbeReply (onionEndpoint : String) (buf : List UInt8) : Prop :=
  ∃ response rest, ProbeReply onionEndpoint response ∧
    latin1 buf <+: statusLine response ++ '\r' :: '\n' :: rest

/-- The router, the limiter and the timeout answer the probe with one of four statuses, and
none of them is a success. -/
theorem ProbeReply.status {onionEndpoint : String} {response : HttpResponse}
    (h : ProbeReply onionEndpoint response) : response.status ∈ [400, 405, 429, 504] := by
  cases h with
  | unparsed => decide
  | late => decide
  | served d files v target hline hpath tr response h =>
    obtain ⟨pq, hprobe, hroot⟩ := requestLine_probe onionEndpoint
    obtain ⟨hmethod, rfl⟩ := Prod.mk.inj (Option.some.inj (hprobe.symm.trans hline))
    have hrouted : publicRouter.dispatch v.method v.path = .methodNotAllowed := by
      rw [← hmethod, ← hpath, hroot, dispatch_root_post]
    unfold Daemon.respond at h
    rw [hrouted] at h
    cases h with
    | @cons _ _ ok tr _ hrest =>
      cases ok with
      | true =>
        obtain ⟨-, hresponse⟩ := trace_pure hrest
        obtain rfl := Prog.pure.inj hresponse
        decide
      | false =>
        obtain ⟨-, hresponse⟩ := trace_pure hrest
        obtain rfl := Prog.pure.inj hresponse
        decide

/-- Where the head of such bytes ends. -/
theorem head_reply {line rest more head : List Char} (hr : '\r' ∉ line)
    (h : head ++ '\r' :: '\n' :: more <+: line ++ '\r' :: '\n' :: rest) :
    ∃ tail, head = line ++ tail ∧ (tail = [] ∨ ∃ u, tail = '\r' :: '\n' :: u) := by
  induction line generalizing head with
  | nil =>
    refine ⟨head, rfl, ?_⟩
    cases head with
    | nil => exact .inl rfl
    | cons c cs =>
      rw [List.nil_append, List.cons_append, List.cons_prefix_cons] at h
      obtain ⟨rfl, h⟩ := h
      cases cs with
      | nil =>
        rw [List.nil_append, List.cons_prefix_cons] at h
        exact absurd h.1 (by decide)
      | cons c cs =>
        rw [List.cons_append, List.cons_prefix_cons] at h
        exact .inr ⟨cs, by rw [h.1]⟩
  | cons x xs ih =>
    rw [List.mem_cons, not_or] at hr
    cases head with
    | nil =>
      rw [List.nil_append, List.cons_append, List.cons_prefix_cons] at h
      exact absurd h.1 hr.1
    | cons c cs =>
      rw [List.cons_append, List.cons_append, List.cons_prefix_cons] at h
      obtain ⟨rfl, h⟩ := h
      obtain ⟨tail, rfl, htail⟩ := ih hr.2 h
      exact ⟨tail, rfl, htail⟩

/-- The status line is the first line of the head. -/
theorem lineOf_reply {response : HttpResponse} (hstatus : response.status ∈ [400, 405, 429, 504])
    {rest : List Char} {buf head payload : List UInt8}
    (hbuf : latin1 buf <+: statusLine response ++ '\r' :: '\n' :: rest)
    (hcut : CutAt buf head payload) : lineOf head = statusLine response := by
  have hplain : '\n' ∉ statusLine response ∧ '\r' ∉ statusLine response := by
    unfold statusLine
    simp only [List.mem_cons, List.not_mem_nil, or_false] at hstatus
    rcases hstatus with h | h | h | h <;> rw [h] <;> decide
  have htext : splitFirst "\r\n\r\n".toList (latin1 buf) = some (latin1 head, latin1 payload) := by
    rw [splitFirst_latin1, show splitFirst endOfHead buf = some (head, payload) from hcut]
    rfl
  rw [splitFirst_eq_append htext] at hbuf
  obtain ⟨tail, hhead, htail⟩ := head_reply hplain.2 hbuf
  rw [lineOf, hhead, firstLine_append hplain.1 hplain.2 htail]

/-- **The daemon's own answer fails the test.** -/
theorem reply_fails {onionEndpoint : String} {buf : List UInt8}
    (h : IsProbeReply onionEndpoint buf) (text : String) :
    judgeResponse (lossy buf) ≠ .ok text := by
  intro hok
  obtain ⟨head, payload, hcut, hpasses, -⟩ := (judgeResponse_lossy_iff buf).mp ⟨text, hok⟩
  obtain ⟨response, rest, hreply, hbuf⟩ := h
  have hstatus := hreply.status
  rw [lineOf_reply hstatus hbuf hcut] at hpasses
  revert hpasses
  unfold statusLine
  simp only [List.mem_cons, List.not_mem_nil, or_false] at hstatus
  rcases hstatus with h | h | h | h <;> rw [h] <;> decide

/-- What comes back, if anything does, is such an answer. -/
def OwnNetwork (net : ProbeNetwork) : Prop :=
  ∀ buf, net.readToEnd = some (.ok buf) → ∃ onionEndpoint, IsProbeReply onionEndpoint buf

/-- Whatever the user's own daemon says to the probe, the connection test fails. -/
theorem OwnNetwork.test_fails {net : ProbeNetwork} (h : OwnNetwork net)
    (onionEndpoint torProxy text : String) :
    testConnection net onionEndpoint torProxy ≠ .ok text := by
  intro hok
  obtain ⟨buf, hread⟩ : ∃ buf, net.readToEnd = some (.ok buf) := by
    unfold testConnection at hok
    split at hok
    · cases hok
    · split at hok
      · cases hok
      · cases hok
      · split at hok
        · cases hok
        · split at hok
          · cases hok
          · cases hok
          · next buf hread => exact ⟨buf, hread⟩
  obtain ⟨endpoint, hreply⟩ := h buf hread
  exact reply_fails hreply text (testConnection_ok hread hok)

namespace Desktop

variable {x : Surroundings} {file : SettingsFile} {discoveryAddr : Option Net.SocketAddr}
  {ls : List Label} {s : State}

/-- As long as nothing but the user's own daemon answers, no handler has seen a connection
test pass. -/
theorem never_passed (hown : ∀ net, x.network net → OwnNetwork net)
    (h : Run (Step x) (launch file discoveryAddr) ls s) (i : Nat) : (seen i ls).passed = false := by
  induction h with
  | nil => rfl
  | snoc hrun hstep ih =>
    rw [seen_snoc]
    cases hstep with
    | event | notify | refuse | lock | tray | inside | trayDone | ended => exact ih
    | test j onionEndpoint torProxy k net hnet hj =>
      have hfails := (hown net hnet).test_fails (String.ofList onionEndpoint)
        (String.ofList torProxy)
      cases hresult : testConnection net (String.ofList onionEndpoint) (String.ofList torProxy) with
      | error e => exact ih
      | ok text => exact absurd hresult (hfails text)
    | answer j r k command result value write file howner hj hsession hvalue hfile =>
      rcases read_unlocked (seen i _) i (some j) command result write with
        hsame | ⟨-, -, c, -, hnew⟩
      · rw [hsame]
        exact ih
      · rw [hnew]

/-- So the window never comes to invoke the start. -/
theorem never_locked (hown : ∀ net, x.network net → OwnNetwork net)
    (h : Run (Step x) (launch file discoveryAddr) ls s) (i : Nat) :
    .locked (some i) .startProxy ∉ ls := by
  intro hmem
  obtain ⟨pre, post, rfl⟩ := List.append_of_mem hmem
  obtain ⟨t, t', hpre, hstep, -⟩ := h.at_label
  cases hstep with
  | lock _ r k _ hi hr hfree =>
    have hpassed := never_passed hown hpre i
    cases r with
    | startProxy =>
      obtain ⟨hcareful, -⟩ := (honest_run hpre).careful i _ hi
      have htrue : (seen i pre).passed = true := hcareful rfl
      rw [hpassed] at htrue
      cases htrue
    | updateConfig page =>
      obtain ⟨config, -, heq⟩ := Option.map_eq_some_iff.mp hr
      cases heq
    | _ => cases hr

/-- Without a start from the tray there is none at all. -/
theorem idle_run (hown : ∀ net, x.network net → OwnNetwork net)
    (h : Run (Step x) (launch file discoveryAddr) ls s) (htray : .locked none .trayStart ∉ ls) :
    Gui.Idle s.gui := by
  induction h with
  | nil => exact Gui.idle_start _ discoveryAddr
  | @snoc t u ls l hrun hstep ih =>
    have hidle := ih fun hmem => htray (List.mem_append_left _ hmem)
    rcases step_gui hstep with hsame | ⟨l', hl', hlocked⟩
    · rw [hsame]
      exact hidle
    · refine Gui.idle_step hidle ?_ hl'
      rintro command rfl hstarts
      obtain ⟨owner, rfl⟩ := hlocked command rfl
      have hmem : .locked owner command ∈ ls ++ [Label.locked owner command] := by simp
      have hall := hrun.snoc hstep
      rcases hstarts with rfl | rfl
      · -- by the page, or not at all
        cases hstep with
        | lock i => exact never_locked hown hall i hmem
        | tray _ htray => rcases htray with h | h | h <;> cases h
      · cases hstep with
        | lock i r k _ hi hr hfree =>
          cases r with
          | updateConfig page =>
            obtain ⟨config, -, heq⟩ := Option.map_eq_some_iff.mp hr
            cases heq
          | _ => cases hr
        | tray => exact htray hmem

/-- **The window never starts the proxy** in front of this repository's daemon. -/
theorem window_never_starts (hown : ∀ net, x.network net → OwnNetwork net)
    (h : Run (Step x) (launch file discoveryAddr) ls s) :
    (∀ i, .locked (some i) .startProxy ∉ ls) ∧
      (.locked none .trayStart ∉ ls → ∀ j config pc,
        s.gui.controller.tasks j ≠ some (.proxy config pc)) := by
  refine ⟨never_locked hown h, fun htray j config pc hj => ?_⟩
  obtain ⟨c, pc', hcall, -⟩ := (idle_run hown h htray).tasks j _ hj
  cases hcall

/-- The daemon's refusal, with the methods that it would take. -/
def methodNotAllowed : List UInt8 :=
  asciiBytes "HTTP/1.1 405 Method Not Allowed\r\nallow: GET,HEAD\r\n\r\n"

def refusing : Surroundings := ⟨fun digits => digits, fun net => net = delivers methodNotAllowed⟩

/-- On the sample network the probe is answered 405 by the user's own daemon. -/
theorem own_refusing : ∀ net, refusing.network net → OwnNetwork net := by
  rintro _ rfl _ ⟨⟩
  obtain ⟨target, hline, hpath⟩ := requestLine_probe "a.onion:80"
  let v : PublicRequest := ⟨.post, "/", .error 415, none, 0⟩
  have htrace : Trace (plainDaemon.respond (fun _ _ => 404) v) [⟨.checkConnLimit "unknown", true⟩]
      (.pure ⟨405, none⟩) := .cons (.nil _)
  refine ⟨"a.onion:80", ⟨405, none⟩, "allow: GET,HEAD\r\n\r\n".toList,
    .served _ _ v target hline hpath _ _ htrace, ?_⟩
  decide +kernel

/-- A click on Start, up to the test's verdict. -/
theorem window_never_starts_click : ∃ (ls : List Label) (s : State),
    Run (Step refusing) (launch formerFile none) ls s ∧
      (∃ onionEndpoint torProxy, .tested 0 onionEndpoint torProxy
        (.error "Onion endpoint replied: HTTP/1.1 405 Method Not Allowed") ∈ ls) ∧
      ∀ i, .locked (some i) .startProxy ∉ ls := by
  have hlaunch : launch formerFile none =
      ⟨Gui.start Controller.endpointA none, none, formerFile, fun _ => none, 0⟩ := by
    rw [launch, formerFile, launchConfig_saveConfig ⟨rfl, rfl⟩]
  have hrefused : testConnection (delivers methodNotAllowed)
      (String.ofList (toPage Controller.endpointA).onionEndpoint)
      (String.ofList (toPage Controller.endpointA).torProxy) =
        .error "Onion endpoint replied: HTTP/1.1 405 Method Not Allowed" := by
    have htor : String.ofList (toPage Controller.endpointA).torProxy = "127.0.0.1:9050" := by
      decide
    rw [htor, testConnection_delivers]
    decide +kernel
  have hasked : Run (Step refusing)
      ⟨Gui.start Controller.endpointA none, none, formerFile, fun _ => none, 0⟩ _ _ :=
    (((((Run.nil _).snoc (.event _ .startClick)).snoc
      (.lock _ 0 .getConfig _ .getConfig rfl rfl rfl)).snoc
      (.inside _ _ _ (by exact trivial) (.calls _ _ .getConfig _))).snoc
      (.inside _ _ _ (by exact trivial) (.answered _ _ _ .getConfig _ 0
        (.config Controller.endpointA) none Controller.endpointA rfl (perform_ready rfl)))).snoc
      (.answer _ 0 .getConfig _ .getConfig _ _ _ _ rfl rfl rfl rfl
        (.other _ _ (by intro _ h; cases h)))
  have htested := ((hasked.snoc (.notify _ 0 _ _ rfl)).snoc (.notify _ 0 _ _ rfl)).snoc
    (.test _ 0 _ _ _ (delivers methodNotAllowed) rfl rfl)
  rw [hrefused] at htested
  obtain ⟨ls, s, hrun, hmem⟩ : ∃ ls s, Run (Step refusing) (launch formerFile none) ls s ∧
      .tested 0 (toPage Controller.endpointA).onionEndpoint (toPage Controller.endpointA).torProxy
        (.error "Onion endpoint replied: HTTP/1.1 405 Method Not Allowed") ∈ ls := by
    rw [hlaunch]
    exact ⟨_, _, htested, List.mem_append_right _ (List.mem_singleton_self _)⟩
  exact ⟨ls, s, hrun, ⟨_, _, hmem⟩, (window_never_starts own_refusing hrun).1⟩

end Desktop

end Torpc
