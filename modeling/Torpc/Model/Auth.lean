import Torpc.Lib.Bytes
import Torpc.Lib.Text
import Torpc.Model.App

/-!
# Signed requests

`mev/auth.rs`: the authenticator that signs the body of a request to the relay,
and `MevRelayClient::new`, which makes one of the configured key. The relay's
side is in `tests/mev_relay_e2e_test.rs`: `verify_flashbots_signature` undoes
the header and recovers the address that it names.

Hashing and the curve are third-party code, a parameter here with the types that
the crates give their results: 32, 64 and 65 bytes, and one of four recovery ids.
-/

namespace Torpc

open Bytes

/-- `sha3` and `secp256k1`, as the functions they compute. -/
structure Crypto where
  SecretKey : Type
  PublicKey : Type
  Message : Type
  RecoverableSignature : Type
  /-- `Keccak256`, updated once and finalized -/
  keccak256 : List UInt8 → Vector UInt8 32
  secretKeyFromSlice : List UInt8 → Except String SecretKey
  publicKey : SecretKey → PublicKey
  serializeUncompressed : PublicKey → Vector UInt8 65
  messageFromSlice : List UInt8 → Except String Message
  signEcdsaRecoverable : Message → SecretKey → RecoverableSignature
  serializeCompact : RecoverableSignature → Fin 4 × Vector UInt8 64
  fromCompact : List UInt8 → Fin 4 → Option RecoverableSignature
  recoverEcdsa : Message → RecoverableSignature → Option PublicKey
  /-- `Display` of a `FromHexError` -/
  hexErrorText : FromHexError → String

/-- What recoverable signatures are for: written down and read back, a signature
tells who has signed. -/
def Crypto.Recovers (crypto : Crypto) : Prop :=
  ∀ message key,
    let compact := crypto.serializeCompact (crypto.signEcdsaRecoverable message key)
    (crypto.fromCompact compact.2.toList compact.1).bind (crypto.recoverEcdsa message) =
      some (crypto.publicKey key)

inductive AuthError where
  | invalidKey (msg : String)
  | signingError (msg : String)
  | hexError (e : FromHexError)
  deriving DecidableEq, Repr

/-- `Display`, from the `#[error(..)]` attributes. -/
def AuthError.display (crypto : Crypto) : AuthError → String
  | invalidKey msg => "Invalid private key: " ++ msg
  | signingError msg => "Failed to sign message: " ++ msg
  | hexError e => "Hex encoding error: " ++ crypto.hexErrorText e

/-- `strip_prefix("0x").unwrap_or(..)`. -/
def stripHexPrefix (s : String) : String :=
  match s.toList with
  | '0' :: 'x' :: cs => String.ofList cs
  | _ => s

/-- The Ethereum address: the last 20 bytes of the hash of the public key without
its 0x04 prefix. -/
def Crypto.address (crypto : Crypto) (key : crypto.PublicKey) : String :=
  let bytes := (crypto.serializeUncompressed key).toList
  let hash := (crypto.keccak256 (bytes.drop 1)).toList
  "0x" ++ hexEncode (hash.drop 12)

structure FlashbotsAuthenticator (crypto : Crypto) where
  signingKey : crypto.SecretKey
  signerAddress : String

namespace FlashbotsAuthenticator

variable {crypto : Crypto}

def new (crypto : Crypto) (privateKeyHex : String) :
    Except AuthError (FlashbotsAuthenticator crypto) :=
  match hexDecode (stripHexPrefix privateKeyHex) with
  | .error e => .error (.hexError e)
  | .ok keyBytes =>
    match crypto.secretKeyFromSlice keyBytes with
    | .error e => .error (.invalidKey e)
    | .ok signingKey => .ok ⟨signingKey, crypto.address (crypto.publicKey signingKey)⟩

/-- `"\x19Ethereum Signed Message:\n<length><message>"`, the length in bytes. -/
def createEip191Message (body : String) : List UInt8 :=
  utf8 ("\x19Ethereum Signed Message:\n" ++ toString body.utf8ByteSize) ++ utf8 body

/-- The 65 bytes of a signature as Ethereum has them: v is the recovery id plus 27. -/
def ethSignature (crypto : Crypto) (signature : crypto.RecoverableSignature) : List UInt8 :=
  let (recoveryId, signatureBytes) := crypto.serializeCompact signature
  signatureBytes.toList ++ [.ofNat recoveryId.val + 27]

/-- The value of the `X-Flashbots-Signature` header: `0xAddress:0xSignature`. -/
def signRequest (auth : FlashbotsAuthenticator crypto) (body : String) :
    Except AuthError String :=
  let hash := crypto.keccak256 (createEip191Message body)
  match crypto.messageFromSlice hash.toList with
  | .error e => .error (.signingError e)
  | .ok message =>
    let signature := crypto.signEcdsaRecoverable message auth.signingKey
    .ok (auth.signerAddress ++ ":" ++ "0x" ++ hexEncode (ethSignature crypto signature))

end FlashbotsAuthenticator

/-- `MevRelayClient::new`; building the HTTP client can fail. -/
def MevRelayClient.new (crypto : Crypto) (httpClient : Except String Unit) (signingKey : String)
    (blocksAhead : UInt64) : ProxyResult MevRelayClient :=
  match httpClient with
  | .error e => .error (.internalError ("Failed to create HTTP client: " ++ e))
  | .ok () =>
    match FlashbotsAuthenticator.new crypto signingKey with
    | .error e => .error (.internalError ("Invalid signing key: " ++ e.display crypto))
    | .ok auth =>
      .ok ⟨blocksAhead, .default, fun body => (auth.signRequest body).mapError (·.display crypto)⟩

-- ---------------------------------------------------------------------------
-- The relay's side
-- ---------------------------------------------------------------------------

/-- `checked_sub(27)`, then `RecoveryId::from_i32`, which knows four ids. -/
def recoveryIdOf (last : UInt8) : Option (Fin 4) :=
  if h : 27 ≤ last.toNat ∧ last.toNat - 27 < 4 then some ⟨last.toNat - 27, h.2⟩ else none

/-- `eq_ignore_ascii_case`. -/
def eqIgnoreAsciiCase (s t : String) : Bool := s.toLower == t.toLower

/-- Verify a header against the body it came with, and return the address that
the signature recovers to. -/
def verifyFlashbotsSignature (crypto : Crypto) (header body : String) : Option String := do
  let (claimedAddress, sigHex) ← Text.splitOnce ':' header.toList
  let sigBytes ← (hexDecode (String.ofList (trimHexPrefix sigHex))).toOption
  if sigBytes.length ≠ 65 then none
  else
    let lead := "\x19Ethereum Signed Message:\n" ++ toString body.utf8ByteSize
    let prefixed := utf8 lead ++ utf8 body
    let message ← (crypto.messageFromSlice (crypto.keccak256 prefixed).toList).toOption
    let last ← sigBytes[64]?
    let recoveryId ← recoveryIdOf last
    let recoverable ← crypto.fromCompact (sigBytes.take 64) recoveryId
    let publicKey ← crypto.recoverEcdsa message recoverable
    let recovered := crypto.address publicKey
    if eqIgnoreAsciiCase recovered (String.ofList claimedAddress) then some recovered else none

end Torpc
