import Torpc.Model.Json
import Torpc.Model.Probe

/-!
# What a successful connection test is worth

The test says that it has reached a daemon when the status line has a blank
followed by 2 or 3 in it and the payload has the two texts `"jsonrpc"` and `"2.0"`
in it, wherever they stand. A reply of a daemon is one whose status code begins
with 2 or 3 and whose payload is a JSON object with `"jsonrpc": "2.0"`. The first
is the case without the second in three kinds of bytes (`probe_verdict`): a first
line that is no status line, a code of another class with a word in the reason
that begins with 2 or 3, and a payload that mentions the two texts but is no
envelope.

The bytes are decoded before they are searched; that changes nothing about what is
found in them.
-/

namespace Torpc

open Net Text Utf8Lossy

-- ---------------------------------------------------------------------------
-- What a reply is
-- ---------------------------------------------------------------------------

/-- CR LF CR LF. -/
def endOfHead : List UInt8 := [13, 10, 13, 10]

/-- The head of a response and its payload. -/
def CutAt (buf head payload : List UInt8) : Prop :=
  splitFirst endOfHead buf = some (head, payload)

/-- An HTTP status line: the version, a code of three digits, and nothing or a
blank and the reason. -/
def StatusLine (line : List Char) (first : Char) (reason : List Char) : Prop :=
  ∃ major minor second third, line = "HTTP/".toList ++ [major, '.', minor, ' '] ++
      [first, second, third] ++ reason ∧
    (∀ c ∈ [major, minor, first, second, third], c.isDigit) ∧
    (reason = [] ∨ reason.head? = some ' ')

/-- The class of the code is 2xx or 3xx. -/
def Succeeds (first : Char) : Prop := first = '2' ∨ first = '3'

/-- The bytes parse as a JSON object with the member `"jsonrpc": "2.0"`. -/
def Envelope (parseJson : List UInt8 → Option Value) (payload : List UInt8) : Prop :=
  ∃ members, parseJson payload = some (.object members) ∧
    (Value.object members).get "jsonrpc" = some (.string "2.0")

/-- The first line of a head, byte by byte. -/
def lineOf (head : List UInt8) : List Char := firstLine (latin1 head)

/-- The bytes are the successful reply of a JSON-RPC daemon. -/
def IsReply (parseJson : List UInt8 → Option Value) (buf : List UInt8) : Prop :=
  ∃ head payload, CutAt buf head payload ∧
    (∃ first reason, StatusLine (lineOf head) first reason ∧ Succeeds first) ∧
    Envelope parseJson payload

/-- The bytes pass for such a reply and are none. -/
def Misleading (parseJson : List UInt8 → Option Value) (buf : List UInt8) : Prop :=
  ∃ head payload, CutAt buf head payload ∧ payloadPasses (latin1 payload) = true ∧
    (((∀ first reason, ¬ StatusLine (lineOf head) first reason) ∧
        statusPasses (lineOf head) = true) ∨
      (∃ first reason, StatusLine (lineOf head) first reason ∧ ¬ Succeeds first ∧
        statusPasses reason = true) ∨
      ((∃ first reason, StatusLine (lineOf head) first reason ∧ Succeeds first) ∧
        ¬ Envelope parseJson payload))

-- ---------------------------------------------------------------------------
-- Bytes and text
-- ---------------------------------------------------------------------------

/-- Splitting at the first match commutes with any injective spelling of the characters. -/
theorem splitFirst_map {α β : Type} [DecidableEq α] [DecidableEq β] {f : α → β}
    (hf : Function.Injective f) (pat l : List α) :
    splitFirst (pat.map f) (l.map f) = (splitFirst pat l).map fun (a, b) => (a.map f, b.map f) := by
  induction l with
  | nil =>
    rw [List.map_nil, splitFirst, splitFirst]
    by_cases hpat : pat = [] <;> simp [hpat]
  | cons c cs ih =>
    have hstarts : pat.map f <+: f c :: cs.map f ↔ pat <+: c :: cs := by
      rw [← List.map_cons]
      exact List.prefix_map_iff_of_injective hf
    rw [List.map_cons, splitFirst, splitFirst]
    by_cases hpat : pat <+: c :: cs
    · rw [if_pos (hstarts.mpr hpat), if_pos hpat, ← List.map_cons, List.length_map,
        ← List.map_drop]
      rfl
    · rw [if_neg (mt hstarts.mp hpat), if_neg hpat, ih, Option.map_map, Option.map_map]
      rfl

/-- Every byte has its own character. -/
theorem latin1_injective : Function.Injective fun b : UInt8 => Char.ofNat b.toNat := by
  intro b b' h
  have hnat := congrArg Char.toNat h
  simp only [toNat_latin1] at hnat
  exact UInt8.toNat_inj.mp hnat

/-- The text is cut where the bytes are. -/
theorem splitFirst_latin1 (buf : List UInt8) : splitFirst "\r\n\r\n".toList (latin1 buf) =
    (splitFirst endOfHead buf).map fun (a, b) => (latin1 a, latin1 b) := by
  have hend : "\r\n\r\n".toList = endOfHead.map fun b => Char.ofNat b.toNat := by decide
  rw [hend]
  exact splitFirst_map latin1_injective endOfHead buf

/-- Bytes that are no ASCII decide nothing in the status line, whichever way they are
decoded. -/
theorem statusPasses_alike {x y : List Char} (h : Alike x y) : statusPasses x = statusPasses y := by
  unfold statusPasses
  rw [h.contains (by decide) (by decide), h.contains (by decide) (by decide)]

/-- Nor in the payload. -/
theorem payloadPasses_alike {x y : List Char} (h : Alike x y) :
    payloadPasses x = payloadPasses y := by
  unfold payloadPasses
  rw [h.contains (by decide) (by decide), h.contains (by decide) (by decide)]

/-- A response passes just if it has a head and a payload, and each passes its own search.
-/
theorem judgeResponse_ok_iff {response : List Char} : (∃ text, judgeResponse response = .ok text) ↔
    ∃ head payload, splitFirst "\r\n\r\n".toList response = some (head, payload) ∧
      statusPasses (firstLine head) = true ∧ payloadPasses payload = true := by
  unfold judgeResponse
  cases hsplit : splitFirst "\r\n\r\n".toList response with
  | none =>
    constructor
    · rintro ⟨text, h⟩
      cases h
    · rintro ⟨head, payload, h, -⟩
      cases h
  | some parts =>
    obtain ⟨head, payload⟩ := parts
    simp only [Option.some.injEq, Prod.mk.injEq]
    constructor
    · rintro ⟨text, h⟩
      refine ⟨head, payload, ⟨rfl, rfl⟩, ?_⟩
      cases hs : statusPasses (firstLine head) with
      | false => simp [hs] at h
      | true =>
        cases hp : payloadPasses payload with
        | false => simp [hs, hp] at h
        | true => exact ⟨rfl, rfl⟩
    · rintro ⟨_, _, ⟨rfl, rfl⟩, hs, hp⟩
      simp [hs, hp]

/-- What the test says of the decoded bytes, it says of the bytes. -/
theorem judgeResponse_lossy_iff (buf : List UInt8) :
    (∃ text, judgeResponse (lossy buf) = .ok text) ↔ ∃ head payload, CutAt buf head payload ∧
      statusPasses (lineOf head) = true ∧ payloadPasses (latin1 payload) = true := by
  rw [judgeResponse_ok_iff]
  have htext := splitFirst_latin1 buf
  rcases @Alike.splitFirst "\r\n\r\n".toList _ _ (by decide) (by decide) (alike_lossy buf) with
    ⟨hx, hy⟩ | ⟨a, b, a', b', hx, hy, ha, hb⟩
  · rw [hx] at htext
    have hnone := Option.map_eq_none_iff.mp htext.symm
    constructor
    · rintro ⟨_, _, hsplit, -⟩
      cases hy.symm.trans hsplit
    · rintro ⟨_, _, hcut, -⟩
      cases hnone.symm.trans hcut
  · rw [hx] at htext
    obtain ⟨⟨head, payload⟩, hcut, heq⟩ := Option.map_eq_some_iff.mp htext.symm
    obtain ⟨rfl, rfl⟩ := Prod.mk.inj heq
    have hstatus : statusPasses (firstLine a') = statusPasses (lineOf head) :=
      (statusPasses_alike ha.firstLine).symm
    have hpayload : payloadPasses b' = payloadPasses (latin1 payload) :=
      (payloadPasses_alike hb).symm
    constructor
    · rintro ⟨_, _, hsplit, hs, hp⟩
      rw [hy] at hsplit
      obtain ⟨rfl, rfl⟩ := Prod.mk.inj (Option.some.inj hsplit)
      exact ⟨head, payload, hcut, hstatus ▸ hs, hpayload ▸ hp⟩
    · rintro ⟨_, _, hcut', hs, hp⟩
      obtain ⟨rfl, rfl⟩ := Prod.mk.inj (Option.some.inj (hcut.symm.trans hcut'))
      exact ⟨a', b', hy, hstatus ▸ hs, hpayload ▸ hp⟩

-- ---------------------------------------------------------------------------
-- The status line
-- ---------------------------------------------------------------------------

/-- A blank and `d` are not found at another character. -/
theorem contains_skip {c : Char} (hc : ' ' ≠ c) (d : Char) (l : List Char) :
    contains [' ', d] (c :: l) = contains [' ', d] l := by
  simp [contains, List.infix_cons_iff, hc]

/-- Where a blank is followed by the character that is searched for, the search ends; else
it goes on. -/
theorem contains_blank (c d : Char) (l : List Char) :
    contains [' ', d] (' ' :: c :: l) = true ↔ c = d ∨ contains [' ', d] (c :: l) = true := by
  rw [contains, contains, decide_eq_true_eq, decide_eq_true_eq, List.infix_cons_iff,
    List.cons_prefix_cons, List.cons_prefix_cons, @eq_comm _ d c]
  simp only [true_and, List.nil_prefix, and_true]

/-- A digit is no blank. -/
theorem digit_ne_blank {c : Char} (h : c.isDigit = true) : ' ' ≠ c := by
  rintro rfl
  revert h
  decide

/-- A status line passes by its code, or by its reason. -/
theorem statusPasses_statusLine {line reason : List Char} {first : Char}
    (h : StatusLine line first reason) :
    statusPasses line = true ↔ Succeeds first ∨ statusPasses reason = true := by
  obtain ⟨major, minor, second, third, rfl, hdigits, -⟩ := h
  have hblank : ∀ c ∈ [major, minor, first, second, third], ' ' ≠ c := fun c hc =>
    digit_ne_blank (hdigits c hc)
  have hfound : ∀ d : Char, contains [' ', d] ("HTTP/".toList ++ [major, '.', minor, ' '] ++
      [first, second, third] ++ reason) = true ↔ first = d ∨ contains [' ', d] reason = true := by
    intro d
    show contains [' ', d] ('H' :: 'T' :: 'T' :: 'P' :: '/' :: major :: '.' :: minor :: ' ' ::
      first :: second :: third :: reason) = true ↔ _
    rw [contains_skip (by decide), contains_skip (by decide), contains_skip (by decide),
      contains_skip (by decide), contains_skip (by decide), contains_skip (hblank major (by simp)),
      contains_skip (by decide), contains_skip (hblank minor (by simp)), contains_blank,
      contains_skip (hblank first (by simp)), contains_skip (hblank second (by simp)),
      contains_skip (hblank third (by simp))]
  unfold statusPasses Succeeds
  rw [Bool.or_eq_true, Bool.or_eq_true, show " 2".toList = [' ', '2'] from rfl,
    show " 3".toList = [' ', '3'] from rfl, hfound '2', hfound '3', or_or_or_comm]

/-- A status line has one first digit. -/
theorem StatusLine.inj {line reason reason' : List Char} {first first' : Char}
    (h : StatusLine line first reason) (h' : StatusLine line first' reason') : first = first' := by
  obtain ⟨major, minor, second, third, rfl, -⟩ := h
  obtain ⟨major', minor', second', third', heq, -⟩ := h'
  simp at heq
  exact heq.2.2.1

-- ---------------------------------------------------------------------------
-- The verdict
-- ---------------------------------------------------------------------------

/-- A network that connects, takes the request and delivers these bytes. -/
def delivers (buf : List UInt8) : ProbeNetwork :=
  ⟨fun _ _ => some (.ok ()), fun _ => some (.ok ()), some (.ok buf)⟩

/-- The test looks at nothing but the bytes, once they have come. -/
theorem testConnection_ok {net : ProbeNetwork} {buf : List UInt8}
    (hread : net.readToEnd = some (.ok buf)) {onionEndpoint torProxy text : String}
    (h : testConnection net onionEndpoint torProxy = .ok text) :
    judgeResponse (lossy buf) = .ok text := by
  unfold testConnection at h
  split at h
  · cases h
  · split at h
    · cases h
    · cases h
    · split at h
      · cases h
      · rw [hread] at h
        exact h

/-- When the response gets through, the test says what the judgement of its text is. -/
theorem testConnection_delivers (buf : List UInt8) (onionEndpoint : String) :
    testConnection (delivers buf) onionEndpoint "127.0.0.1:9050" = judgeResponse (lossy buf) := by
  have haddr : SocketAddr.parse "127.0.0.1:9050" = some (.ofV4 127 0 0 1 9050) := by decide
  unfold testConnection
  rw [haddr]
  rfl

/-- The bytes pass and are no reply, in one of three ways. -/
theorem misleading_iff {parseJson : List UInt8 → Option Value} {buf : List UInt8} :
    Misleading parseJson buf ↔
      (∃ text, judgeResponse (lossy buf) = .ok text) ∧ ¬ IsReply parseJson buf := by
  rw [judgeResponse_lossy_iff]
  constructor
  · rintro ⟨head, payload, hcut, hpayload, hkind⟩
    have hreply : IsReply parseJson buf → (∃ first reason,
        StatusLine (lineOf head) first reason ∧ Succeeds first) ∧ Envelope parseJson payload := by
      rintro ⟨_, _, hcut', hline, henvelope⟩
      obtain ⟨rfl, rfl⟩ := Prod.mk.inj (Option.some.inj (hcut.symm.trans hcut'))
      exact ⟨hline, henvelope⟩
    rcases hkind with ⟨hnone, hpasses⟩ | ⟨first, reason, hline, hcode, hreason⟩ |
      ⟨⟨first, reason, hline, hcode⟩, hnot⟩
    · refine ⟨⟨head, payload, hcut, hpasses, hpayload⟩, fun h => ?_⟩
      obtain ⟨⟨first, reason, hline, -⟩, -⟩ := hreply h
      exact hnone first reason hline
    · refine ⟨⟨head, payload, hcut, (statusPasses_statusLine hline).mpr (.inr hreason),
        hpayload⟩, fun h => ?_⟩
      obtain ⟨⟨first', reason', hline', hcode'⟩, -⟩ := hreply h
      rw [hline.inj hline'] at hcode
      exact hcode hcode'
    · exact ⟨⟨head, payload, hcut, (statusPasses_statusLine hline).mpr (.inl hcode), hpayload⟩,
        fun h => hnot (hreply h).2⟩
  · rintro ⟨⟨head, payload, hcut, hpasses, hpayload⟩, hreply⟩
    refine ⟨head, payload, hcut, hpayload, ?_⟩
    by_cases hline : ∃ first reason, StatusLine (lineOf head) first reason
    · obtain ⟨first, reason, hline⟩ := hline
      by_cases hcode : Succeeds first
      · refine .inr (.inr ⟨⟨first, reason, hline, hcode⟩, fun henvelope => hreply ?_⟩)
        exact ⟨head, payload, hcut, ⟨first, reason, hline, hcode⟩, henvelope⟩
      · rcases (statusPasses_statusLine hline).mp hpasses with h | h
        · exact absurd h hcode
        · exact .inr (.inl ⟨first, reason, hline, hcode, h⟩)
    · exact .inl ⟨fun first reason h => hline ⟨first, reason, h⟩, hpasses⟩

/-- A successful test means a reply of a daemon, just if the bytes are not
misleading. -/
theorem probe_verdict (parseJson : List UInt8 → Option Value) (buf : List UInt8) :
    (∀ (net : ProbeNetwork) (onionEndpoint torProxy text : String),
      net.readToEnd = some (.ok buf) →
        testConnection net onionEndpoint torProxy = .ok text → IsReply parseJson buf) ↔
    ¬ Misleading parseJson buf := by
  rw [misleading_iff]
  constructor
  · rintro hsound ⟨⟨text, htext⟩, hnot⟩
    refine hnot (hsound (delivers buf) "" "127.0.0.1:9050" text rfl ?_)
    rw [testConnection_delivers]
    exact htext
  · intro hnot net onionEndpoint torProxy text hread hok
    by_contra hreply
    exact hnot ⟨⟨text, testConnection_ok hread hok⟩, hreply⟩

/-- A text in ASCII as bytes. -/
def asciiBytes (s : String) : List UInt8 := s.toList.map fun c => UInt8.ofNat c.toNat

/-- What a daemon may answer, and how it is parsed. -/
def daemonReply : List UInt8 := asciiBytes "HTTP/1.1 200 OK\r\n\r\n\x7b\"jsonrpc\":\"2.0\"\x7d"

def parsedReply (_ : List UInt8) : Option Value := some (.object [("jsonrpc", .string "2.0")])

/-- The daemon's reply to a well-formed request is one that the probe should accept, and
does. -/
theorem probe_verdict_daemon : IsReply parsedReply daemonReply := by
  have hcut : CutAt daemonReply (asciiBytes "HTTP/1.1 200 OK")
      (asciiBytes "\x7b\"jsonrpc\":\"2.0\"\x7d") := by
    unfold CutAt
    decide +kernel
  have hline : StatusLine (lineOf (asciiBytes "HTTP/1.1 200 OK")) '2' " OK".toList :=
    ⟨'1', '1', '0', '0', by decide, List.all_eq_true.mp rfl, .inr rfl⟩
  have henvelope : ∀ payload, Envelope parsedReply payload := fun payload => ⟨_, rfl, rfl⟩
  have hclear : ¬ Misleading parsedReply daemonReply := by
    rintro ⟨head, payload, hcut', -, hkind⟩
    obtain ⟨rfl, rfl⟩ := Prod.mk.inj (Option.some.inj (hcut.symm.trans hcut'))
    rcases hkind with ⟨hnone, -⟩ | ⟨first, reason, hline', hcode, -⟩ | ⟨-, hnot⟩
    · exact hnone _ _ hline
    · exact hcode (.inl (hline'.inj hline))
    · exact hnot (henvelope _)
  refine (probe_verdict parsedReply daemonReply).mpr hclear (delivers daemonReply)
    "daemon.onion:80" "127.0.0.1:9050"
    "Connection successful: reached a TorPC daemon and got a valid JSON-RPC reply." rfl ?_
  rw [testConnection_delivers]
  decide +kernel

/-- A refusal whose reason has a word that begins with 2. -/
def secondFactor : List UInt8 :=
  asciiBytes "HTTP/1.1 401 2FA required\r\n\r\n\x7b\"jsonrpc\":\"2.0\"\x7d"

/-- A server that answers 401, with a reason that begins with a 2, passes the test, although
its answer is no reply of the daemon. -/
theorem refusal_passes :
    testConnection (delivers secondFactor) "daemon.onion:80" "127.0.0.1:9050" =
      .ok "Connection successful: reached a TorPC daemon and got a valid JSON-RPC reply." ∧
    ∀ parseJson, ¬ IsReply parseJson secondFactor := by
  have hcut : CutAt secondFactor (asciiBytes "HTTP/1.1 401 2FA required")
      (asciiBytes "\x7b\"jsonrpc\":\"2.0\"\x7d") := by
    unfold CutAt
    decide +kernel
  have hline : StatusLine (lineOf (asciiBytes "HTTP/1.1 401 2FA required")) '4'
      " 2FA required".toList :=
    ⟨'1', '1', '0', '1', by decide, List.all_eq_true.mp rfl, .inr rfl⟩
  refine ⟨?_, ?_⟩
  · rw [testConnection_delivers]
    decide +kernel
  · rintro parseJson ⟨head, payload, hcut', ⟨first, reason, hline', hcode⟩, -⟩
    obtain ⟨rfl, rfl⟩ := Prod.mk.inj (Option.some.inj (hcut.symm.trans hcut'))
    rw [hline'.inj hline] at hcode
    revert hcode
    unfold Succeeds
    decide

end Torpc
