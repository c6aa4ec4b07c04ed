import Torpc.Lib.Utf8Lossy
import Torpc.Model.ClientProxy

/-!
# The connection test

`test_connection` of the GUI: connect to the endpoint through Tor, send a JSON-RPC
request, read until the other side closes, and look at what came. Each of the three
has a time limit. What the network does is a parameter.
-/

namespace Torpc

open Net Text Utf8Lossy

/-- What becomes of an operation with a time limit; `none` when the time is up. -/
abbrev TimedResult (α : Type) := Option (Except String α)

/-- What the network does in one test. -/
structure ProbeNetwork where
  /-- `Socks5Stream::connect`, with the error's text -/
  connect : SocketAddr → String → TimedResult Unit
  /-- `write_all` -/
  writeAll : String → TimedResult Unit
  /-- `read_to_end` -/
  readToEnd : TimedResult (List UInt8)

/-- The message for a connection that the proxy has not made. -/
def connectError (s : String) : String :=
  if contains "Connection refused".toList s.toList then
    "Tor SOCKS proxy refused the connection. Is Tor running on this address?"
  else if contains "ttl expired".toList s.toList ||
      contains "network unreachable".toList s.toList then
    "Onion service unreachable (rendezvous failed). The .onion may be offline."
  else "SOCKS5 connect failed: " ++ s

/-- The status line passes for a success. -/
def statusPasses (status : List Char) : Bool :=
  contains " 2".toList status || contains " 3".toList status

/-- The payload passes for a JSON-RPC envelope. -/
def payloadPasses (payload : List Char) : Bool :=
  contains "\"jsonrpc\"".toList payload && contains "\"2.0\"".toList payload

/-- What the test says of a response. -/
def judgeResponse (response : List Char) : Except String String :=
  match splitFirst "\r\n\r\n".toList response with
  | none => .error "Onion endpoint returned a non-HTTP response."
  | some (head, payload) =>
    let status := firstLine head
    if !statusPasses status then .error ("Onion endpoint replied: " ++ String.ofList status)
    else if !payloadPasses payload then
      .error ("Endpoint reachable but didn't return a JSON-RPC envelope. " ++
        "This may not be a TorPC daemon.")
    else .ok "Connection successful: reached a TorPC daemon and got a valid JSON-RPC reply."

/-- `test_connection`. Of the write only a timeout is looked at. -/
def testConnection (net : ProbeNetwork) (onionEndpoint torProxy : String) :
    Except String String :=
  match SocketAddr.parse torProxy with
  | none => .error "Invalid Tor proxy address: invalid socket address syntax"
  | some torProxyAddr =>
    match net.connect torProxyAddr onionEndpoint with
    | none => .error "Connection timeout: SOCKS5 connect didn't complete within 15s."
    | some (.error s) => .error (connectError s)
    | some (.ok ()) =>
      match net.writeAll (probeRequest onionEndpoint) with
      | none => .error "Failed to send probe request (timeout: deadline has elapsed)"
      | some _ =>
        match net.readToEnd with
        | none => .error "Probe timed out waiting for a response."
        | some (.error e) => .error ("Probe read failed: " ++ e)
        | some (.ok buf) => judgeResponse (lossy buf)

end Torpc
