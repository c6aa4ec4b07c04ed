import Torpc.Lib.Bytes
import Torpc.Model.ClientProxy
import Torpc.Model.Json

/-!
# The discovery server

`torpc-proxy-core/src/proxy.rs`: the handler that tells a local client where the
proxy listens, if the client knows the token of this launch. How the descriptor
is written down is left to `serde_json`.
-/

namespace Torpc

open Bytes Http

/-- `generate_discovery_token`, of the random bytes. -/
def generateDiscoveryToken (bytes : Vector UInt8 32) : String :=
  bytes.toList.foldl (fun s b => s ++ String.ofList (hexPair b)) ""

/-- The token is the hexadecimal text of the random bytes, all of them. -/
theorem generateDiscoveryToken_eq (bytes : Vector UInt8 32) :
    generateDiscoveryToken bytes = hexEncode bytes.toList := by
  apply String.toList_injective
  rw [generateDiscoveryToken, toList_foldl_append, hexEncode]
  exact String.toList_ofList.symm

/-- The lengths are compared first, then every byte. -/
def constantTimeEq (a b : List UInt8) : Bool :=
  if a.length ≠ b.length then false else difference 0 (a.zip b) == 0

/-- `HeaderValue::to_str`: visible ASCII, or a tab. -/
def toStr (value : String) : Option String :=
  if value.toList.all fun c => (32 ≤ c.toNat && c.toNat < 127) || c = '\t' then some value else none

/-- The policy that goes with every response. -/
def csp : String × String :=
  ("content-security-policy", "default-src 'none'; connect-src 'self'")

/-- The descriptor of a running proxy. -/
def discoveryDescriptor (config : ProxyConfig) : Value :=
  .object [("status", .string "running"),
    ("proxy", .object [("listen_addr", .string config.listenAddr.display),
      ("version", .string cargoPkgVersion)]),
    ("suggested_rpc_url", .string (suggestedRpcUrl config))]

def discoveryHandler (toText : Value → String) (req : Request) (config : ProxyConfig)
    (expectedToken : String) : Response :=
  if req.method = .options then ⟨204, [csp], []⟩
  else if req.method ≠ .get ∨ req.path ≠ "/api/discovery" then ⟨404, [csp], utf8 "Not Found"⟩
  else
    let provided := req.headers.lookup "x-torpc-token" >>= toStr
    if !(provided.map fun p => constantTimeEq (utf8 p) (utf8 expectedToken)).getD false then
      ⟨401, [csp], utf8 "Unauthorized"⟩
    else
      ⟨200, [("content-type", "application/json"), csp], utf8 (toText (discoveryDescriptor config))⟩

end Torpc
