import Torpc.Lib.Decimal
import Torpc.Lib.Regex
import Torpc.Lib.Text

/-!
# The settings form

`saveConfig` of the GUI's `ui/app.js`, from the values of the three inputs to what
is handed to `update_config`, and how the SOCKS client reads the endpoint. Texts
are lists of characters.

What a template makes of `parseInt(s, 10)`, a double, is a parameter: the listen
address and the proxy's address are put together from it, and nothing is decided
by it. The number that an input of type `number` stands for is one too.

The button submits the form, and the browser runs `saveConfig` only if the inputs
satisfy what `ui/index.html` demands of them (`Inputs.checkValidity`). The pattern
there is not the one of `app.js`: it knows no capital letters, does not trim, and
has no bound on the digits of a port.
-/

namespace Torpc.SettingsForm

open Regex

/-- What `trim` removes: WhiteSpace and LineTerminator. -/
def isSpace (c : Char) : Bool :=
  let n := c.toNat
  (0x09 ≤ n && n ≤ 0x0d) || n = 0x20 || n = 0xa0 || n = 0x1680 || (0x2000 ≤ n && n ≤ 0x200a) ||
    n = 0x2028 || n = 0x2029 || n = 0x202f || n = 0x205f || n = 0x3000 || n = 0xfeff

/-- A class under the flag `i`. No character outside ASCII is a case of one inside. -/
def bothCases (cs : List Char) : List Char := cs.flatMap fun c => [c.toLower, c.toUpper]

/-- `[a-z2-7]`. -/
def base32 : List Char := "abcdefghijklmnopqrstuvwxyz234567".toList

/-- `\d`. -/
def digit : List Char := "0123456789".toList

/-- `ONION_REGEX`: `/^[a-z2-7]{56}\.onion(:\d{1,5})?$/i`. -/
def onionRegex : RegularExpression Char :=
  oneOf (bothCases base32) ^ 56 * eachOf (".onion".toList.map fun c => bothCases [c]) *
    opt (.char ':' * between 1 5 (oneOf digit))

/-- The values of the inputs. -/
structure Inputs where
  onionEndpoint : List Char
  listenPort : List Char
  torProxy : List Char

/-- `pattern` of the endpoint's input: `[a-z2-7]{56}\.onion(:\d+)?`, for all of the value. -/
def onionPattern : RegularExpression Char :=
  oneOf base32 ^ 56 * eachOf (".onion".toList.map fun c => [c]) *
    opt (.char ':' * plus (oneOf digit))

/-- What an input of type `text` makes of a value it is given: the line ends go. -/
def oneLine (text : List Char) : List Char := text.filter fun c => c ≠ '\n' ∧ c ≠ '\r'

structure Config where
  listenAddr : List Char
  torProxy : List Char
  onionEndpoint : List Char

structure Toast where
  text : String
  kind : String
  duration : Option Nat

/-- What comes of saving: a message, or a call of `update_config` and the message
that its answer gets. -/
inductive Outcome where
  | toast (t : Toast)
  | updateConfig (config : Config) (answered : Except String Unit → Toast)

/-- The message after `update_config`. -/
def saved : Except String Unit → Toast
  | .ok () => ⟨"Configuration saved. Click \"Test Connection\" to verify, then \"Start Proxy\" " ++
      "to begin.", "success", some 6000⟩
  | .error e => ⟨"Failed to save configuration: " ++ e, "error", none⟩

/-- `saveConfig`. -/
def saveConfig (parseIntText : List Char → List Char) (inputs : Inputs) : Outcome :=
  let rawOnion := Text.trim isSpace inputs.onionEndpoint
  let listenPort := parseIntText inputs.listenPort
  let torProxy := Text.trim isSpace inputs.torProxy
  if rawOnion = [] then .toast ⟨"Onion endpoint is required", "error", none⟩
  else if !onionRegex.rmatch rawOnion then
    .toast ⟨"Invalid onion endpoint. Expected 56 base32 characters (a-z, 2-7) " ++
      "followed by \".onion\" and an optional \":port\" (e.g. " ++
      "pxglb4naobvtpmnnvmsqmqgmfougct7en7xfqdevao6nrkmgmgrzopid.onion:80).", "error", some 8000⟩
  else
    let onionEndpoint := if ':' ∈ rawOnion then rawOnion else rawOnion ++ ":80".toList
    let torProxyParts := torProxy.splitOn ':'
    if torProxyParts.length < 2 then .toast ⟨"Invalid Tor proxy format", "error", none⟩
    else
      let torProxyPort := parseIntText (torProxyParts.getLast?.getD [])
      let joined := [':'].intercalate torProxyParts.dropLast
      let torProxyHost := if joined = [] then torProxyParts.head?.getD [] else joined
      .updateConfig
        { listenAddr := "127.0.0.1:".toList ++ listenPort
          torProxy := torProxyHost ++ ':' :: torProxyPort
          onionEndpoint }
        saved

/-- `rsplitn(2, ':')`: what stands before the last colon and after it. -/
def rsplitColon (text : List Char) : Option (List Char × List Char) :=
  (Text.splitOnce ':' text.reverse).map fun (after, before) => (before.reverse, after.reverse)

/-- How the SOCKS client reads a target that is a domain name: a `u16` after the
last colon. -/
def socksTarget (text : List Char) : Option (List Char × UInt16) := do
  let (domain, port) ← rsplitColon text
  let port ← Net.parseU16 port
  return (domain, port)

/-- The last colon is the one behind which there is none. -/
theorem rsplitColon_append {port : List Char} (h : ':' ∉ port) (domain : List Char) :
    rsplitColon (domain ++ ':' :: port) = some (domain, port) := by
  have hreverse : (domain ++ ':' :: port).reverse = port.reverse ++ ':' :: domain.reverse := by
    simp
  rw [rsplitColon, hreverse, Text.splitOnce_append (by simpa using h)]
  simp

end Torpc.SettingsForm
