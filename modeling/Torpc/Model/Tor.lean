import Torpc.Lib.Net
import Torpc.Lib.Prog
import Torpc.Lib.Text

/-!
# The start of the daemon

`tor.rs` and the part of `main` up to the two listeners. What they ask of the
machine (files, the environment, sockets) is an operation; how it is answered is
open, so a statement about the traces of `main` is one about every machine.

Log messages have no effect and are left out.
-/

namespace Torpc

open Effects

/-- An error of `anyhow`: its contexts, the outermost first, and its cause. -/
abbrev Anyhow := List String

inductive HostOp where
  | buildApp
  | pathExists (path : String)
  | readToString (path : String)
  | envVar (name : String)
  | createDirAll (path : String)
  | setPermissions (path : String) (mode : Nat)
  | permissions (path : String)
  | bind (addr : Net.SocketAddr)
  deriving DecidableEq, Repr

abbrev HostRes : HostOp → Type
  | .buildApp => Except Anyhow Unit
  | .pathExists _ => Bool
  | .readToString _ => Except String String
  | .envVar _ => Option String
  | .createDirAll _ => Except String Unit
  | .setPermissions _ _ => Except String Unit
  | .permissions _ => Except String Nat
  | .bind _ => Except String Unit

abbrev Startup (α : Type) := Prog HostOp HostRes α

abbrev ask (o : HostOp) : Startup (HostRes o) := Prog.perform o

abbrev HostEvent := Event HostOp HostRes

abbrev AnyhowResult (α : Type) := Except Anyhow α

/-- `.context(text)`. -/
def context {α : Type} (text : String) (p : Startup (Except String α)) :
    Startup (AnyhowResult α) := do
  match ← p with
  | .ok a => return .ok a
  | .error e => return .error [text, e]

-- ---------------------------------------------------------------------------
-- tor.rs
-- ---------------------------------------------------------------------------

structure TorService where
  hostnamePath : String
  configPath : String

namespace TorService

/-- `TorService::new`. -/
def new : TorService := ⟨"./data/tor/torpc/hostname", "./configs/torrc"⟩

/-- `raw.split('#').next().unwrap_or("").trim()`. -/
def stripped (raw : List Char) : List Char :=
  Text.trim Text.isWhitespace (raw.takeWhile (· ≠ '#'))

/-- The first two words of a line that has been stripped, "" if missing. -/
def keyAndVal (line : List Char) : List Char × List Char :=
  match Text.words Text.isWhitespace line with
  | [] => ([], [])
  | [key] => (key, [])
  | key :: val :: _ => (key, val)

/-- `is_anonymity_disabling`. -/
def isAnonymityDisabling : List Char × List Char → Bool
  | (key, val) => (key = "HiddenServiceSingleHopMode".toList ∨
      key = "HiddenServiceNonAnonymousMode".toList) ∧ val = "1".toList

def disablesAnonymity (idx : Nat) (line : List Char) : String :=
  "torrc line " ++ toString (idx + 1) ++ ": '" ++ String.ofList line ++
    "' disables Tor anonymity. Set TORPC_ALLOW_NON_ANONYMOUS=1 if this is intentional " ++
    "(e.g. for benchmarking)."

/-- The loop over the lines, from the one numbered `idx` on. -/
def scan (allowOverride : Bool) : Nat → List (List Char) → Except String Unit
  | _, [] => .ok ()
  | idx, raw :: rest =>
    let line := stripped raw
    if line.isEmpty then scan allowOverride (idx + 1) rest
    else if isAnonymityDisabling (keyAndVal line) && !allowOverride then
      .error (disablesAnonymity idx line)
    else scan allowOverride (idx + 1) rest

/-- Mode bits, written as `{:o}`. -/
def octal (mode : Nat) : String := String.ofList (Nat.toDigits 8 mode)

def dataDir : String := "./data/tor/torpc"

/-- The second half of `check_configuration`: the data directory has mode 0700. -/
def tightenDataDir : Startup (AnyhowResult Unit) :=
  (context "Failed to set Tor directory permissions to 0700"
    (ask (.setPermissions dataDir 0o700))).andThen fun _ =>
  (context "Failed to read Tor data directory metadata"
    (ask (.permissions dataDir))).andThen fun permissions =>
  let mode := permissions &&& 0o777
  if mode = 0o700 then return .ok ()
  else return .error ["Tor data directory at " ++ dataDir ++ " has mode " ++ octal mode ++
    ", expected 0700; refusing to start (the filesystem may not honour permissions)"]

def ensureDataDir : Startup (AnyhowResult Unit) := do
  if ← ask (.pathExists dataDir) then tightenDataDir
  else (context "Failed to create Tor data directory"
    (ask (.createDirAll dataDir))).andThen fun _ => tightenDataDir

/-- `check_configuration`, once the lines have been scanned. -/
def afterScan : Except String Unit → Startup (AnyhowResult Unit)
  | .error e => return .error [e]
  | .ok () => ensureDataDir

/-- `check_configuration`, once the torrc has been read. -/
def auditTorrc (torrc : String) : Startup (AnyhowResult Unit) := do
  let value : Option String ← ask (.envVar "TORPC_ALLOW_NON_ANONYMOUS")
  afterScan (scan (value == some "1") 0 (Text.lines torrc.toList))

/-- `check_configuration`. -/
def checkConfiguration (tor : TorService) : Startup (AnyhowResult Unit) := do
  if ← ask (.pathExists tor.configPath) then
    (context "Failed to read torrc for anonymity check"
      (ask (.readToString tor.configPath))).andThen auditTorrc
  else return .ok ()

/-- `get_hostname`. -/
def getHostname (tor : TorService) : Startup (AnyhowResult (Option String)) := do
  if ← ask (.pathExists tor.hostnamePath) then
    (context "Failed to read hostname file"
      (ask (.readToString tor.hostnamePath))).andThen fun text =>
    let hostname := Text.trim Text.isWhitespace text.toList
    if hostname.isEmpty then return .ok none
    else if ".onion".toList.isSuffixOf hostname then return .ok (some (String.ofList hostname))
    else return .error ["Invalid hostname format: " ++ String.ofList hostname]
  else return .ok none

-- ---------------------------------------------------------------------------
-- What the check lets through
-- ---------------------------------------------------------------------------

/-- The scan passes if it is overridden, or no line is found to disable anonymity. -/
theorem scan_ok_iff {allowOverride : Bool} {idx : Nat} {raws : List (List Char)} :
    scan allowOverride idx raws = .ok () ↔ allowOverride = true ∨
      ∀ raw ∈ raws, isAnonymityDisabling (keyAndVal (stripped raw)) = false := by
  induction raws generalizing idx with
  | nil => simp [scan]
  | cons raw rest ih =>
    rw [List.forall_mem_cons]
    show (if (stripped raw).isEmpty then _ else _) = _ ↔ _
    cases hline : stripped raw with
    | nil =>
      have hblank : isAnonymityDisabling (keyAndVal []) = false := by decide
      rw [if_pos List.isEmpty_nil, ih, hblank]
      simp
    | cons c line =>
      rw [if_neg (by simp)]
      cases isAnonymityDisabling (keyAndVal (c :: line)) <;> cases allowOverride <;> simp [ih]

section Operations

variable {P : HostOp → Prop}

/-- A question to the host is the one operation of a program that asks it. -/
theorem ops_ask {o : HostOp} (ho : P o) : (ask o).Ops P := ⟨ho, fun _ => trivial⟩

/-- The context that is added to an error adds no operation. -/
theorem ops_context {α : Type} {text : String} {p : Startup (Except String α)} (hp : p.Ops P) :
    (context text p).Ops P := by
  refine hp.bind fun r => ?_
  cases r <;> trivial

/-- To make sure of the data directory takes four operations on it at most. -/
theorem ops_ensureDataDir (hexists : P (.pathExists dataDir)) (hcreate : P (.createDirAll dataDir))
    (hset : P (.setPermissions dataDir 0o700)) (hget : P (.permissions dataDir)) :
    ensureDataDir.Ops P := by
  have htighten : tightenDataDir.Ops P := by
    refine (ops_context (ops_ask hset)).andThen fun _ => ?_
    refine (ops_context (ops_ask hget)).andThen fun permissions => ?_
    dsimp only
    split <;> trivial
  refine ⟨hexists, fun found => ?_⟩
  cases found with
  | true => exact htighten
  | false => exact (ops_context (ops_ask hcreate)).andThen fun _ => htighten

/-- The audit of a torrc asks for the override and then sees to the data directory. -/
theorem ops_auditTorrc (torrc : String) (henv : P (.envVar "TORPC_ALLOW_NON_ANONYMOUS"))
    (hdata : ensureDataDir.Ops P) : (auditTorrc torrc).Ops P := by
  refine ⟨henv, fun value => ?_⟩
  show (afterScan (scan (value == some "1") 0 (Text.lines torrc.toList))).Ops P
  cases scan (value == some "1") 0 (Text.lines torrc.toList) with
  | error e => trivial
  | ok u => exact hdata

/-- The hostname is looked for in its file and nowhere else. -/
theorem ops_getHostname (tor : TorService) (hexists : P (.pathExists tor.hostnamePath))
    (hread : P (.readToString tor.hostnamePath)) : tor.getHostname.Ops P := by
  refine ⟨hexists, fun found => ?_⟩
  cases found with
  | true =>
    refine (ops_context (ops_ask hread)).andThen fun text => ?_
    dsimp only
    split
    · trivial
    · split <;> trivial
  | false => trivial

/-- The check looks for the torrc, reads it and audits what it has read. -/
theorem ops_checkConfiguration (tor : TorService) (hexists : P (.pathExists tor.configPath))
    (hread : P (.readToString tor.configPath)) (haudit : ∀ torrc, (auditTorrc torrc).Ops P) :
    tor.checkConfiguration.Ops P := by
  refine ⟨hexists, fun found => ?_⟩
  cases found with
  | true => exact (ops_context (ops_ask hread)).andThen haudit
  | false => trivial

end Operations

/-- A torrc that has been read is audited. -/
theorem checkConfiguration_trace {tor : TorService} {tr : List HostEvent}
    {result : AnyhowResult Unit} {torrc : String}
    (h : Trace tor.checkConfiguration tr (.pure result))
    (hread : ⟨.readToString tor.configPath, .ok torrc⟩ ∈ tr) :
    ∃ value tr', tr = ⟨.pathExists tor.configPath, true⟩ ::
        ⟨.readToString tor.configPath, .ok torrc⟩ ::
        ⟨.envVar "TORPC_ALLOW_NON_ANONYMOUS", value⟩ :: tr' ∧
      Trace (afterScan (scan (value == some "1") 0 (Text.lines torrc.toList))) tr'
        (.pure result) := by
  unfold checkConfiguration at h
  cases h with
  | @cons _ _ found tr₁ _ h =>
  cases found with
  | false =>
    obtain ⟨rfl, -⟩ := trace_pure h
    cases List.mem_singleton.mp hread
  | true =>
    cases h with
    | @cons _ _ read tr₂ _ h =>
    cases read with
    | error e =>
      obtain ⟨rfl, -⟩ := trace_pure h
      simp at hread
    | ok text =>
      have h : Trace (auditTorrc text) tr₂ (.pure result) := h
      have hnever : (auditTorrc text).Ops fun o => ∀ path, o ≠ .readToString path :=
        ops_auditTorrc text nofun (ops_ensureDataDir nofun nofun nofun nofun)
      obtain rfl : torrc = text := by
        rcases List.mem_cons.mp hread with hread | hread
        · cases hread
        · rcases List.mem_cons.mp hread with hread | hread
          · cases hread
            rfl
          · exact absurd rfl (hnever.events h _ hread _)
      cases h with
      | @cons _ _ value tr' _ h => exact ⟨value, tr', rfl, h⟩

end TorService

-- ---------------------------------------------------------------------------
-- main.rs
-- ---------------------------------------------------------------------------

/-- `.parse()` of an address of the configuration. -/
def parseAddr (name text : String) : AnyhowResult Net.SocketAddr :=
  match Net.SocketAddr.parse text with
  | some addr => .ok addr
  | none => .error ["invalid " ++ name ++ ": " ++ text, "invalid socket address syntax"]

/-- The two listeners of `main`. -/
def openListeners (publicAddr adminAddr : Net.SocketAddr) : Startup (AnyhowResult Unit) :=
  if !adminAddr.isLoopback then return .error ["ADMIN_BIND_ADDR (" ++ adminAddr.display ++
    ") must be a loopback address; /health and /metrics expose operator state and are " ++
    "not safe on a public interface"]
  else
    (context ("failed to bind " ++ publicAddr.display) (ask (.bind publicAddr))).andThen fun _ =>
    context ("failed to bind " ++ adminAddr.display) (ask (.bind adminAddr))

/-- `main` after the check. -/
def afterCheck (bindAddr adminBindAddr : String) : Startup (AnyhowResult Unit) := do
  -- the hostname is only logged, and so is an error
  let _ ← TorService.new.getHostname
  match parseAddr "BIND_ADDR" bindAddr, parseAddr "ADMIN_BIND_ADDR" adminBindAddr with
  | .error e, _ => return .error e
  | .ok _, .error e => return .error e
  | .ok publicAddr, .ok adminAddr => openListeners publicAddr adminAddr

def checkFailed : String :=
  "Tor configuration check failed; see error above for the offending line"

/-- `main` from the outcome of the check on. -/
def whenChecked (bindAddr adminBindAddr : String) :
    AnyhowResult Unit → Startup (AnyhowResult Unit)
  | .error e => return .error (checkFailed :: e)
  | .ok () => afterCheck bindAddr adminBindAddr

/-- `main`, up to where it serves. -/
def main (bindAddr adminBindAddr : String) : Startup (AnyhowResult Unit) :=
  (ask .buildApp).andThen fun _ => do
    whenChecked bindAddr adminBindAddr (← TorService.new.checkConfiguration)

/-- After the check the daemon reads its hostname and opens its sockets. -/
theorem ops_afterCheck {P : HostOp → Prop} (bindAddr adminBindAddr : String)
    (hhostname : TorService.new.getHostname.Ops P) (hbind : ∀ addr, P (.bind addr)) :
    (afterCheck bindAddr adminBindAddr).Ops P := by
  refine hhostname.bind fun _ => ?_
  split
  · trivial
  · trivial
  · unfold openListeners
    split
    · trivial
    · exact (TorService.ops_context (TorService.ops_ask (hbind _))).andThen fun _ =>
        TorService.ops_context (TorService.ops_ask (hbind _))

/-- No socket is bound before the check has passed. -/
theorem main_bind {bindAddr adminBindAddr : String} {tr : List HostEvent}
    {result : AnyhowResult Unit} (h : Trace (main bindAddr adminBindAddr) tr (.pure result))
    {addr : Net.SocketAddr} {bound : Except String Unit} (hbind : ⟨.bind addr, bound⟩ ∈ tr) :
    ∃ tr₁ tr₂, tr = ⟨.buildApp, .ok ()⟩ :: (tr₁ ++ tr₂) ∧
      Trace TorService.new.checkConfiguration tr₁ (.pure (.ok ())) ∧
      Trace (afterCheck bindAddr adminBindAddr) tr₂ (.pure result) := by
  unfold main at h
  cases h with
  | @cons _ _ built tr _ h =>
  have hlater : ⟨.bind addr, bound⟩ ∈ tr := by
    rcases List.mem_cons.mp hbind with hfirst | hlater
    · cases hfirst
    · exact hlater
  cases built with
  | error e =>
    obtain ⟨rfl, -⟩ := trace_pure h
    exact absurd hlater List.not_mem_nil
  | ok u =>
    have h : Trace (TorService.new.checkConfiguration >>= whenChecked bindAddr adminBindAddr) tr
        (.pure result) := h
    obtain ⟨checked, tr₁, tr₂, rfl, hcheck, hrest⟩ := h.of_bind
    have hnever : TorService.new.checkConfiguration.Ops fun o => ∀ addr, o ≠ .bind addr :=
      TorService.ops_checkConfiguration _ nofun nofun fun torrc =>
        TorService.ops_auditTorrc torrc nofun (TorService.ops_ensureDataDir nofun nofun nofun nofun)
    cases checked with
    | error e =>
      obtain ⟨rfl, -⟩ := trace_pure hrest
      rw [List.append_nil] at hlater
      exact absurd rfl (hnever.events hcheck _ hlater addr)
    | ok u' => exact ⟨tr₁, tr₂, rfl, hcheck, hrest⟩

end Torpc
