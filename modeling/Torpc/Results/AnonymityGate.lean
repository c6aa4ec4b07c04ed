import Torpc.Model.Tor

/-!
# The anonymity gate

The daemon refuses to start under a torrc that switches Tor's anonymity off. It
looks for two lines letter for letter, while Tor reads the names of options in
any case and takes values in quotes, and it looks at no more than two words of a
line, while Tor reads all of it. `anonymity_gate_iff` says for which files the
two agree. What it does find keeps it from opening a socket (`main_listens`).
-/

namespace Torpc

open Effects TorService

/-- The options that switch anonymity off. -/
def disablingOptions : List (List Char) :=
  ["HiddenServiceSingleHopMode".toList, "HiddenServiceNonAnonymousMode".toList]

/-- White space between two words. -/
def Blank (sep : List Char) : Prop := sep ≠ [] ∧ ∀ c ∈ sep, Text.isWhitespace c = true

/-- How Tor reads a line: it switches anonymity off if it is one of the options, in
any letter case, and then the value 1, in quotes or not. -/
def Enables (raw : List Char) : Prop :=
  ∃ name sep value, stripped raw = name ++ sep ++ value ∧ Blank sep ∧
    (∃ option ∈ disablingOptions, name.map Char.toLower = option.map Char.toLower) ∧
    (value = "1".toList ∨ value = "\"1\"".toList)

/-- A line that begins with one of the options, in exactly these letters, and the word 1. -/
def SpelledOut (raw : List Char) : Prop :=
  ∃ name sep rest, stripped raw = name ++ sep ++ "1".toList ++ rest ∧ Blank sep ∧
    name ∈ disablingOptions ∧ Text.Ends Text.isWhitespace rest

/-- What the gate is for: a torrc with an enabling line stops the start unless it is
overridden, and one without passes the scan. -/
structure AnonymityGate (torrc : String) : Prop where
  stops : ∀ (tor : TorService) tr result, Trace tor.checkConfiguration tr (.pure result) →
    ⟨.readToString tor.configPath, .ok torrc⟩ ∈ tr →
    ⟨.envVar "TORPC_ALLOW_NON_ANONYMOUS", some "1"⟩ ∉ tr →
    ∀ raw ∈ Text.lines torrc.toList, Enables raw → ∃ e, result = .error e
  passes : (∀ raw ∈ Text.lines torrc.toList, ¬ Enables raw) →
    ∀ allowOverride, scan allowOverride 0 (Text.lines torrc.toList) = .ok ()

-- ---------------------------------------------------------------------------
-- What the scan looks for
-- ---------------------------------------------------------------------------

/-- Each of the options is one word. -/
theorem isWord_option {name : List Char} (h : name ∈ disablingOptions) :
    Text.IsWord Text.isWhitespace name := by
  simp only [disablingOptions, List.mem_cons, List.not_mem_nil, or_false] at h
  rcases h with rfl | rfl
  · exact .of_all (by decide) (by decide)
  · exact .of_all (by decide) (by decide)

/-- So is the value. -/
theorem isWord_one : Text.IsWord Text.isWhitespace "1".toList := .of_all (by decide) (by decide)

/-- A line disables the anonymity, to the scan, just if it is one of the options with the
value 1, letter for letter. -/
theorem isAnonymityDisabling_iff {keyVal : List Char × List Char} :
    isAnonymityDisabling keyVal = true ↔ keyVal.1 ∈ disablingOptions ∧ keyVal.2 = "1".toList := by
  obtain ⟨key, val⟩ := keyVal
  rw [isAnonymityDisabling, decide_eq_true_eq, disablingOptions, List.mem_pair]

/-- The scan takes a line for one that disables anonymity if and only if it is spelled out. -/
theorem spelledOut_iff {raw : List Char} :
    SpelledOut raw ↔ isAnonymityDisabling (keyAndVal (stripped raw)) = true := by
  rw [isAnonymityDisabling_iff]
  constructor
  · rintro ⟨name, sep, rest, htext, ⟨hne, hsep⟩, hname, hends⟩
    have hafter : Text.words Text.isWhitespace (sep ++ ("1".toList ++ rest)) =
        "1".toList :: Text.words Text.isWhitespace rest := by
      rw [Text.words_seps hsep, Text.words_word isWord_one hends]
    have hfirst : Text.Ends Text.isWhitespace (sep ++ ("1".toList ++ rest)) := by
      obtain ⟨c, sep, rfl⟩ := List.exists_cons_of_ne_nil hne
      intro c' hc'
      obtain rfl : c = c' := Option.some.inj hc'
      exact hsep c List.mem_cons_self
    have hwords : Text.words Text.isWhitespace (stripped raw) =
        name :: "1".toList :: Text.words Text.isWhitespace rest := by
      rw [htext, List.append_assoc, List.append_assoc,
        Text.words_word (isWord_option hname) hfirst, hafter]
    rw [keyAndVal, hwords]
    exact ⟨hname, rfl⟩
  · rintro ⟨hname, hone⟩
    unfold keyAndVal at hname hone
    split at hname
    · exact absurd rfl (isWord_option hname).ne_nil
    · next key hwords =>
      rw [hwords] at hone
      exact absurd hone.symm isWord_one.ne_nil
    · next key val ws hwords =>
      rw [hwords] at hone
      have hone : val = "1".toList := hone
      rw [hone] at hwords
      -- both words stand in the text, with the separators between them
      obtain ⟨tail, htext, hkey, hends, hrest⟩ := Text.words_trim_eq_cons_iff.mp hwords
      obtain ⟨sep, rest, htail, hsep, -, hafter, -⟩ := Text.words_eq_cons_iff.mp hrest
      refine ⟨key, sep, rest, ?_, ⟨?_, hsep⟩, hname, hafter⟩
      · rw [stripped, htext, htail, List.append_assoc, List.append_assoc, List.append_assoc]
      · rintro rfl
        have hblank : Text.isWhitespace '1' = true := hends '1' (by rw [htail]; rfl)
        exact absurd hblank (by decide)

-- ---------------------------------------------------------------------------
-- The gate
-- ---------------------------------------------------------------------------

/-- Nothing is in the way of a start but what the scan finds. -/
theorem checkConfiguration_passes {torrc : String}
    (h : scan false 0 (Text.lines torrc.toList) = .ok ()) :
    ∃ tr, Trace TorService.new.checkConfiguration tr (.pure (.ok ())) ∧
      ⟨.readToString TorService.new.configPath, .ok torrc⟩ ∈ tr ∧
      ⟨.envVar "TORPC_ALLOW_NON_ANONYMOUS", some "1"⟩ ∉ tr := by
  have haudit : Trace (auditTorrc torrc) [⟨.envVar "TORPC_ALLOW_NON_ANONYMOUS", none⟩,
      ⟨.pathExists dataDir, true⟩, ⟨.setPermissions dataDir 0o700, .ok ()⟩,
      ⟨.permissions dataDir, .ok 0o700⟩] (.pure (.ok ())) := by
    refine .cons ?_
    show Trace (afterScan (scan false 0 (Text.lines torrc.toList))) _ _
    rw [h]
    exact .cons (.cons (.cons (.nil _)))
  have hcheck : Trace TorService.new.checkConfiguration
      (⟨.pathExists TorService.new.configPath, true⟩ ::
        ⟨.readToString TorService.new.configPath, .ok torrc⟩ ::
        [⟨.envVar "TORPC_ALLOW_NON_ANONYMOUS", none⟩, ⟨.pathExists dataDir, true⟩,
          ⟨.setPermissions dataDir 0o700, .ok ()⟩, ⟨.permissions dataDir, .ok 0o700⟩])
      (.pure (.ok ())) :=
    .cons (.cons haudit)
  exact ⟨_, hcheck, by simp, by simp⟩

/-- **The anonymity gate.** It holds of a torrc if and only if, where some line
switches anonymity off, some line spells an option out, and the other way round. -/
theorem anonymity_gate_iff (torrc : String) :
    AnonymityGate torrc ↔
      ((∃ raw ∈ Text.lines torrc.toList, Enables raw) ↔
        ∃ raw ∈ Text.lines torrc.toList, SpelledOut raw) := by
  have hscan : (∃ raw ∈ Text.lines torrc.toList, SpelledOut raw) ↔
      scan false 0 (Text.lines torrc.toList) ≠ .ok () := by
    rw [Ne, scan_ok_iff]
    simp [spelledOut_iff]
  constructor
  · intro hgate
    rw [hscan]
    constructor
    · rintro ⟨raw, hraw, henables⟩ hok
      obtain ⟨tr, htr, hread, henv⟩ := checkConfiguration_passes hok
      obtain ⟨e, he⟩ := hgate.stops _ tr _ htr hread henv raw hraw henables
      cases he
    · intro hbad
      by_contra hnone
      have hpass := hgate.passes fun raw hraw henables => hnone ⟨raw, hraw, henables⟩
      exact hbad (hpass false)
  · intro hiff
    rw [hscan] at hiff
    refine ⟨fun tor tr result htr hread henv raw hraw henables => ?_, fun hnone allow => ?_⟩
    · obtain ⟨value, tr', rfl, haudited⟩ := checkConfiguration_trace htr hread
      have hvalue : (value == some "1") = false := by
        rw [beq_eq_false_iff_ne]
        rintro rfl
        exact henv (by simp)
      rw [hvalue] at haudited
      cases hcase : scan false 0 (Text.lines torrc.toList) with
      | error e =>
        rw [hcase] at haudited
        exact ⟨[e], Prog.pure.inj (trace_pure haudited).2⟩
      | ok u => exact absurd hcase (hiff.mp ⟨raw, hraw, henables⟩)
    · have hok : scan false 0 (Text.lines torrc.toList) = .ok () := by
        by_contra hbad
        obtain ⟨raw, hraw, henables⟩ := hiff.mpr hbad
        exact hnone raw hraw henables
      rw [scan_ok_iff] at hok ⊢
      exact .inr (hok.resolve_left Bool.false_ne_true)

/-- What the gate does keep: the daemon opens no socket while the torrc it has read
spells an option out, unless it is overridden. -/
theorem main_listens {bindAddr adminBindAddr torrc : String} {tr : List HostEvent}
    {result : AnyhowResult Unit} (h : Trace (main bindAddr adminBindAddr) tr (.pure result))
    {addr : Net.SocketAddr} {bound : Except String Unit} (hbind : ⟨.bind addr, bound⟩ ∈ tr)
    (hread : ⟨.readToString TorService.new.configPath, .ok torrc⟩ ∈ tr) :
    ⟨.envVar "TORPC_ALLOW_NON_ANONYMOUS", some "1"⟩ ∈ tr ∨
      ∀ raw ∈ Text.lines torrc.toList, ¬ SpelledOut raw := by
  obtain ⟨tr₁, tr₂, rfl, hcheck, hafter⟩ := main_bind h hbind
  have hnever : (afterCheck bindAddr adminBindAddr).Ops
      fun o => o ≠ .readToString TorService.new.configPath :=
    ops_afterCheck _ _ (ops_getHostname _ nofun (by decide)) fun _ => nofun
  have hread₁ : ⟨.readToString TorService.new.configPath, .ok torrc⟩ ∈ tr₁ := by
    rcases List.mem_cons.mp hread with hfirst | hread
    · cases hfirst
    · exact (List.mem_append.mp hread).resolve_right fun hread₂ =>
        hnever.events hafter _ hread₂ rfl
  obtain ⟨value, tr', rfl, haudited⟩ := checkConfiguration_trace hcheck hread₁
  cases hcase : scan (value == some "1") 0 (Text.lines torrc.toList) with
  | error e =>
    rw [hcase] at haudited
    cases Prog.pure.inj (trace_pure haudited).2
  | ok u =>
    rcases scan_ok_iff.mp hcase with hvalue | hnone
    · obtain rfl : value = some "1" := beq_iff_eq.mp hvalue
      exact .inl (by simp)
    · refine .inr fun raw hraw hspelled => ?_
      rw [spelledOut_iff, hnone raw hraw] at hspelled
      exact Bool.false_ne_true hspelled

/-- A torrc with one of the names in lower case. -/
def lowerCaseTorrc : String := "hiddenservicesinglehopmode 1"

/-- It switches anonymity off, and the daemon starts under it. -/
theorem lower_case_starts : (∃ raw ∈ Text.lines lowerCaseTorrc.toList, Enables raw) ∧
    ∃ tr, Trace TorService.new.checkConfiguration tr (.pure (.ok ())) ∧
      ⟨.readToString TorService.new.configPath, .ok lowerCaseTorrc⟩ ∈ tr ∧
      ⟨.envVar "TORPC_ALLOW_NON_ANONYMOUS", some "1"⟩ ∉ tr := by
  have hblank : Blank [' '] := by
    refine ⟨nofun, fun c hc => ?_⟩
    obtain rfl := List.mem_singleton.mp hc
    rfl
  refine ⟨⟨lowerCaseTorrc.toList, by decide, "hiddenservicesinglehopmode".toList, [' '],
    "1".toList, by decide, hblank, ⟨_, List.mem_cons_self, by decide⟩, .inl rfl⟩, ?_⟩
  exact checkConfiguration_passes (scan_ok_iff.mpr (.inr (by decide)))

end Torpc
