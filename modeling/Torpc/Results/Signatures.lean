import Torpc.Model.Auth
import Torpc.Results.RelayCircuit

/-!
# What the relay can check

The relay authenticates a bundle by the header alone: it hashes the body that it
has received, recovers the key that has signed the hash, and compares addresses.
So the bytes that are signed have to be those that are sent, and the header has
to be taken apart where it was put together (`signed_as_posted`). That a
signature is for one body only rests on the frame around it: the length stands
in front of the body without a separator, and is no part of any other body's
frame (`createEip191Message_injective`).
-/

namespace Torpc

open Bytes Effects Prog System Lts

namespace FlashbotsAuthenticator

variable {crypto : Crypto}

-- ---------------------------------------------------------------------------
-- The frame
-- ---------------------------------------------------------------------------

/-- The message is a framing in the sense of the library: a prefix that tells the length in
decimal, and then the bytes of the body. -/
theorem createEip191Message_eq (body : String) : createEip191Message body =
    framed (fun n => utf8 ("\x19Ethereum Signed Message:\n" ++ toString n)) (utf8 body) := by
  rw [createEip191Message, framed, length_utf8]

/-- **One body, one message.** A signature for a body is not one for another. -/
theorem createEip191Message_injective : Function.Injective createEip191Message := by
  intro a b hab
  rw [createEip191Message_eq, createEip191Message_eq] at hab
  exact utf8_injective (framed_decimal_injective _ hab)

/-- A body that begins with a digit is not mistaken for a longer length. -/
example : createEip191Message "1234567890a" ≠ createEip191Message "234567890a" := by
  intro h
  exact absurd (congrArg List.length h) (by decide)

-- ---------------------------------------------------------------------------
-- The header
-- ---------------------------------------------------------------------------

theorem digitChar_ne_colon : ∀ d < 16, d.digitChar ≠ ':' := by decide

theorem digitChar_ne_x : ∀ d < 16, d.digitChar ≠ 'x' := by decide

/-- A character that is no hexadecimal digit is in no hexadecimal text. -/
theorem notMem_hexEncode {c : Char} (h : ∀ d < 16, d.digitChar ≠ c) (bs : List UInt8) :
    c ∉ (hexEncode bs).toList := by
  intro hc
  obtain ⟨d, hd, rfl⟩ := mem_hexEncode hc
  exact h d hd rfl

theorem colon_notMem_hex (bs : List UInt8) : ':' ∉ ("0x" ++ hexEncode bs).toList := by
  have hx : ("0x" : String).toList = ['0', 'x'] := rfl
  rw [String.toList_append, hx]
  simp [notMem_hexEncode digitChar_ne_colon bs]

/-- The prefix goes once: what follows has no `x`. -/
theorem trimHexPrefix_hexEncode (bs : List UInt8) :
    trimHexPrefix ("0x" ++ hexEncode bs).toList = (hexEncode bs).toList := by
  rw [String.toList_append]
  show trimHexPrefix (hexEncode bs).toList = _
  exact trimHexPrefix_eq (notMem_hexEncode digitChar_ne_x bs)

/-- An address holds no colon, so the header's first colon is the one that the client has
put there. -/
theorem colon_notMem_address (key : crypto.PublicKey) : ':' ∉ (crypto.address key).toList :=
  colon_notMem_hex _

/-- Header and signature, put together at the only colon. -/
theorem header_toList (address : String) (signature : List UInt8) :
    (address ++ ":" ++ "0x" ++ hexEncode signature).toList =
      address.toList ++ ':' :: ("0x" ++ hexEncode signature).toList := by
  simp only [String.toList_append, List.append_assoc]
  rfl

/-- In the header there is one colon. -/
theorem count_colon_header {address : String} (h : ':' ∉ address.toList)
    (signature : List UInt8) :
    (address ++ ":" ++ "0x" ++ hexEncode signature).toList.count ':' = 1 := by
  rw [header_toList, List.count_append, List.count_cons_self, List.count_eq_zero_of_not_mem h,
    List.count_eq_zero_of_not_mem (colon_notMem_hex signature)]

/-- Splitting the header at its colon gives back the address and the signature's text. -/
theorem splitOnce_header {address : String} (h : ':' ∉ address.toList) (signature : List UInt8) :
    Text.splitOnce ':' (address ++ ":" ++ "0x" ++ hexEncode signature).toList =
      some (address.toList, ("0x" ++ hexEncode signature).toList) := by
  rw [header_toList]
  exact Text.splitOnce_append h _

-- ---------------------------------------------------------------------------
-- The signature
-- ---------------------------------------------------------------------------

/-- A signature is 65 bytes long: 64 of the compact form and the recovery byte. -/
theorem length_ethSignature (signature : crypto.RecoverableSignature) :
    (ethSignature crypto signature).length = 65 := by
  simp [ethSignature]

theorem take_ethSignature (signature : crypto.RecoverableSignature) :
    (ethSignature crypto signature).take 64 = (crypto.serializeCompact signature).2.toList := by
  simp [ethSignature]

/-- The last byte is the recovery id, 27 further on. -/
theorem last_ethSignature (signature : crypto.RecoverableSignature) :
    (ethSignature crypto signature)[64]? =
      some (.ofNat (crypto.serializeCompact signature).1.val + 27) := by
  simp [ethSignature]

/-- The offset of v is taken off again. -/
theorem recoveryIdOf_add : ∀ id : Fin 4, recoveryIdOf (.ofNat id.val + 27) = some id := by decide

/-- An authenticator is made from every key that can be read, with the address of its public
key. -/
theorem new_of_read {key : String} {keyBytes : List UInt8} {signingKey : crypto.SecretKey}
    (hread : hexDecode (stripHexPrefix key) = .ok keyBytes)
    (hkey : crypto.secretKeyFromSlice keyBytes = .ok signingKey) :
    new crypto key = .ok ⟨signingKey, crypto.address (crypto.publicKey signingKey)⟩ := by
  unfold new
  rw [hread]
  dsimp only
  rw [hkey]

/-- The address that stands in front is that of the key that signs. -/
theorem signerAddress_new {key : String} {auth : FlashbotsAuthenticator crypto}
    (h : new crypto key = .ok auth) :
    auth.signerAddress = crypto.address (crypto.publicKey auth.signingKey) := by
  unfold new at h
  split at h
  · cases h
  · split at h <;> cases h
    rfl

/-- What a header says: who signs, and the 65 bytes of a signature. -/
structure Says (auth : FlashbotsAuthenticator crypto) (header : String) (signature : List UInt8) :
    Prop where
  length : signature.length = 65
  header_eq : header = auth.signerAddress ++ ":" ++ "0x" ++ hexEncode signature
  /-- there is one place to split it at -/
  colon : header.toList.count ':' = 1

/-- A header that has been computed for a body passes the relay's check of it. -/
theorem verify_signRequest (hrecovers : crypto.Recovers) {auth : FlashbotsAuthenticator crypto}
    (haddress : auth.signerAddress = crypto.address (crypto.publicKey auth.signingKey))
    {body header : String} (h : auth.signRequest body = .ok header) :
    (∃ signature, auth.Says header signature) ∧
      verifyFlashbotsSignature crypto header body = some auth.signerAddress := by
  unfold signRequest at h
  dsimp only at h
  split at h
  · cases h
  · next message hmessage =>
    have hrecover := hrecovers message auth.signingKey
    have hcolon := colon_notMem_address (crypto.publicKey auth.signingKey)
    have hhash : crypto.messageFromSlice (crypto.keccak256
        (utf8 ("\x19Ethereum Signed Message:\n" ++ toString body.utf8ByteSize) ++
          utf8 body)).toList = .ok message := hmessage
    rw [← haddress] at hcolon
    obtain rfl := Except.ok.inj h
    generalize crypto.signEcdsaRecoverable message auth.signingKey = signature at hrecover ⊢
    have hread : hexDecode (String.ofList (trimHexPrefix
        ("0x" ++ hexEncode (ethSignature crypto signature)).toList)) =
        .ok (ethSignature crypto signature) := by
      rw [trimHexPrefix_hexEncode, String.ofList_toList, hexDecode_hexEncode]
    obtain ⟨recoverable, hcompact, hkey⟩ := Option.bind_eq_some_iff.mp hrecover
    refine ⟨⟨_, length_ethSignature signature, rfl, count_colon_header hcolon _⟩, ?_⟩
    unfold verifyFlashbotsSignature
    rw [splitOnce_header hcolon]
    simp only [Option.bind_eq_bind, Option.bind_some, hread, Except.toOption, hhash,
      length_ethSignature, last_ethSignature, recoveryIdOf_add, take_ethSignature, hcompact, hkey,
      ← haddress, String.ofList_toList]
    simp [eqIgnoreAsciiCase]

end FlashbotsAuthenticator

-- ---------------------------------------------------------------------------
-- Runs
-- ---------------------------------------------------------------------------

/-- The client signs with the authenticator of its key. -/
theorem MevRelayClient.signRequest_new {crypto : Crypto} {httpClient : Except String Unit}
    {signingKey : String} {blocksAhead : UInt64} {client : MevRelayClient}
    (h : new crypto httpClient signingKey blocksAhead = .ok client) :
    ∃ auth, FlashbotsAuthenticator.new crypto signingKey = .ok auth ∧
      ∀ body header, client.signRequest body = .ok header ↔ auth.signRequest body = .ok header := by
  unfold new at h
  split at h
  · cases h
  · split at h
    · cases h
    · next auth hauth =>
      cases h
      refine ⟨auth, hauth, fun body header => ?_⟩
      dsimp only
      cases auth.signRequest body with
      | error e => exact ⟨nofun, nofun⟩
      | ok header' => exact ⟨fun h => congrArg Except.ok (Except.ok.inj h),
          fun h => congrArg Except.ok (Except.ok.inj h)⟩

/-- A client is made from every such authenticator, and retries by the default policy. -/
theorem MevRelayClient.new_of_authenticator {crypto : Crypto} {signingKey : String}
    {auth : FlashbotsAuthenticator crypto}
    (h : FlashbotsAuthenticator.new crypto signingKey = .ok auth) (blocksAhead : UInt64) :
    ∃ client, new crypto (.ok ()) signingKey blocksAhead = .ok client ∧
      client.retryPolicy = .default := by
  unfold new
  rw [h]
  exact ⟨_, rfl, rfl⟩

/-- **What is signed is what is sent.** Whatever key the client is made of, each
POST of each of its calls has a header that splits into the address of the key
and a signature, and with the body of the same POST it passes the relay's check. -/
theorem MevRelayClient.signed_as_posted {crypto : Crypto} (hrecovers : crypto.Recovers)
    {httpClient : Except String Unit} {signingKey : String} {blocksAhead : UInt64}
    {client : MevRelayClient} (hclient : new crypto httpClient signingKey blocksAhead = .ok client)
    (x : Externals) {s : Shared} {ls : List (client.system x).Label}
    {c : (client.system x).Config}
    (h : Run (Step (client.system x)) ((client.system x).start s) ls c) {i : Nat}
    {body header : String} (hpost : .act i ⟨.sendToRelay body header, ()⟩ ∈ ls) :
    ∃ auth, FlashbotsAuthenticator.new crypto signingKey = .ok auth ∧
      (∃ signature, auth.Says header signature) ∧
      verifyFlashbotsSignature crypto header body = some auth.signerAddress := by
  obtain ⟨auth, hauth, hsigner⟩ := signRequest_new hclient
  have hops : ∀ bundle, (client.sendBundle x bundle).Ops fun o => ∀ body header,
      o = .sendToRelay body header → client.signRequest body = .ok header := by
    intro bundle
    refine client.ops_sendBundle_of (fun o _ hsend body header ho => ?_)
      fun body signature _ hsign body' header' ho => ?_
    · rw [ho] at hsend
      cases hsend
    · cases ho
      exact hsign
  obtain ⟨bundle, -, hsign⟩ := run_ops h (P := fun _ o => ∀ body header,
    o = .sendToRelay body header → client.signRequest body = .ok header)
    (fun _ bundle _ => hops bundle) hpost
  have hheader := (hsigner body header).mp (hsign body header rfl)
  exact ⟨auth, hauth, auth.verify_signRequest hrecovers
    (FlashbotsAuthenticator.signerAddress_new hauth) hheader⟩

/-- A public key. -/
def samplePublicKey : Vector UInt8 65 :=
  #v[0x04, 0x4f, 0x35, 0x5b, 0xdc, 0xb7, 0xcc, 0x0a, 0xf7, 0x28, 0xef, 0x3c, 0xce, 0xb9, 0x61,
    0x5d, 0x90, 0x68, 0x4b, 0xb5, 0xb2, 0xca, 0x5f, 0x85, 0x9a, 0xb0, 0xf0, 0xb7, 0x04, 0x07,
    0x58, 0x71, 0xaa, 0x38, 0x5b, 0x6b, 0x1b, 0x8e, 0xad, 0x80, 0x9c, 0xa6, 0x74, 0x54, 0xd9,
    0x68, 0x3f, 0xcf, 0x2b, 0xa0, 0x34, 0x56, 0xd6, 0xfe, 0x2c, 0x4a, 0xbe, 0x2b, 0x07, 0xf0,
    0xfb, 0xdb, 0xb2, 0xf1, 0xc1]

/-- The hash of its last 64 bytes. -/
def samplePublicKeyHash : Vector UInt8 32 :=
  #v[0x96, 0x9b, 0x0a, 0x11, 0xb8, 0xa5, 0x6b, 0xac, 0xf1, 0xac, 0x18, 0xf2, 0x19, 0xe7, 0xe3,
    0x76, 0xe7, 0xc2, 0x13, 0xb7, 0xe7, 0xe7, 0xe4, 0x6c, 0xc7, 0x0a, 0x5d, 0xd0, 0x86, 0xda,
    0xff, 0x2a]

/-- The hash of the message for the body of an empty bundle. -/
def sampleMessageHash : Vector UInt8 32 :=
  #v[0x41, 0x70, 0xc9, 0x8a, 0x8f, 0xcd, 0x4c, 0x40, 0xec, 0x99, 0x60, 0xc3, 0x44, 0xc3, 0x20,
    0x15, 0x97, 0x06, 0xc9, 0x7f, 0xf5, 0x07, 0xee, 0xc8, 0x1a, 0x4f, 0x4f, 0x89, 0x85, 0x99,
    0xae, 0xbe]

/-- The signature of that hash with the key. -/
def sampleSignature : Vector UInt8 64 :=
  #v[0x3f, 0x46, 0x6f, 0x3d, 0x05, 0xbf, 0xf5, 0xbc, 0x8f, 0x08, 0x3f, 0x13, 0x4a, 0xc6, 0x1e,
    0xe5, 0xea, 0xaf, 0x49, 0x82, 0x88, 0xbe, 0x0f, 0x26, 0xbe, 0x1a, 0x4e, 0xf2, 0x43, 0x2e,
    0x63, 0xab, 0x3d, 0x7b, 0xfb, 0xfc, 0x28, 0x06, 0xeb, 0x3a, 0xa0, 0x9e, 0x45, 0x1d, 0x93,
    0xda, 0x60, 0xd4, 0xe7, 0x7e, 0xba, 0xb4, 0xe3, 0xdf, 0x98, 0x02, 0xb8, 0x3b, 0xd5, 0x3f,
    0xeb, 0x0c, 0x82, 0x7e]

/-- The key that is 32 times the byte 0x11. -/
def sampleKey : String := "0x" ++ hexEncode (.replicate 32 0x11)

/-- Hash and curve at these values. -/
def sampleCrypto : Crypto where
  SecretKey := Unit
  PublicKey := Unit
  Message := List UInt8
  RecoverableSignature := Unit
  keccak256 bytes :=
    if bytes = samplePublicKey.toList.drop 1 then samplePublicKeyHash
    else if bytes = FlashbotsAuthenticator.createEip191Message emptyBundleBody then
      sampleMessageHash
    else .replicate 32 0
  secretKeyFromSlice bytes :=
    if bytes = .replicate 32 0x11 then .ok () else .error "malformed or out-of-range secret key"
  publicKey _ := ()
  serializeUncompressed _ := samplePublicKey
  messageFromSlice bytes := if bytes.length = 32 then .ok bytes else .error ""
  signEcdsaRecoverable _ _ := ()
  serializeCompact _ := (0, sampleSignature)
  fromCompact bytes _ := if bytes = sampleSignature.toList then some () else none
  recoverEcdsa _ _ := some ()
  hexErrorText _ := ""

theorem stripHexPrefix_append (s : String) : stripHexPrefix ("0x" ++ s) = s := by
  unfold stripHexPrefix
  rw [String.toList_append]
  exact String.ofList_toList

/-- What the sample signs can be recovered. -/
theorem sampleCrypto_recovers : sampleCrypto.Recovers := by
  intro message key
  simp [sampleCrypto]

/-- The client of that key posts an empty bundle with the header of its address. -/
theorem signed_as_posted_sample : ∃ client auth header ls c,
    MevRelayClient.new sampleCrypto (.ok ()) sampleKey 1 = .ok client ∧
    Run (Step (client.system serdeOnRejection)) ((client.system serdeOnRejection).start atRest)
      ls c ∧
    .act 0 ⟨.sendToRelay emptyBundleBody header, ()⟩ ∈ ls ∧
    FlashbotsAuthenticator.new sampleCrypto sampleKey = .ok auth ∧
    auth.signerAddress = "0x19e7e376e7c213b7e7e7e46cc70a5dd086daff2a" ∧
    (∃ signature, auth.Says header signature) ∧
    verifyFlashbotsSignature sampleCrypto header emptyBundleBody = some auth.signerAddress := by
  have hread : hexDecode (stripHexPrefix sampleKey) = .ok (.replicate 32 0x11) := by
    rw [sampleKey, stripHexPrefix_append, hexDecode_hexEncode]
  let auth : FlashbotsAuthenticator sampleCrypto := ⟨(), sampleCrypto.address ()⟩
  have hkey : sampleCrypto.secretKeyFromSlice (.replicate 32 0x11) = .ok () := by
    simp [sampleCrypto]
  have hauth : FlashbotsAuthenticator.new sampleCrypto sampleKey = .ok auth :=
    FlashbotsAuthenticator.new_of_read hread hkey
  have hsign : ∃ header, auth.signRequest emptyBundleBody = .ok header := by
    have hhash : ∀ bytes : Vector UInt8 32,
        sampleCrypto.messageFromSlice bytes.toList = .ok bytes.toList :=
      fun bytes => if_pos (by simp)
    simp only [FlashbotsAuthenticator.signRequest, hhash]
    exact ⟨_, rfl⟩
  obtain ⟨header, hheader⟩ := hsign
  obtain ⟨client, hclient, hpolicy⟩ := MevRelayClient.new_of_authenticator hauth 1
  obtain ⟨auth', hauth', hsigner⟩ := MevRelayClient.signRequest_new hclient
  obtain rfl := Except.ok.inj (hauth.symm.trans hauth')
  have hposted := (hsigner emptyBundleBody header).mpr hheader
  have hbody : serdeOnRejection.encodeJson (SendBundleRequest.new emptyBundle 1).toValue =
      .ok emptyBundleBody := rfl
  obtain ⟨tr, q, s', hperf⟩ :=
    client.reaches_sendBundle (s := atRest) (n := 0) (by rw [hpolicy]; decide) hbody
      hposted rfl
  have haccepts : (client.system serdeOnRejection).accepts atRest emptyBundle := trivial
  have hrun := System.run_alone haccepts hperf
  let posted : OpEvent := ⟨.sendToRelay emptyBundleBody header, ()⟩
  have hpost : .act 0 posted ∈ (.spawn 0 emptyBundle :: (tr ++ [posted]).map (.act 0) :
      List (client.system serdeOnRejection).Label) := by simp
  obtain ⟨auth', hauth', hsays, hverify⟩ :=
    MevRelayClient.signed_as_posted sampleCrypto_recovers hclient serdeOnRejection hrun hpost
  obtain rfl := Except.ok.inj (hauth.symm.trans hauth')
  have haddress : auth.signerAddress = "0x19e7e376e7c213b7e7e7e46cc70a5dd086daff2a" := by
    decide +kernel
  exact ⟨client, auth, header, _, _, hclient, hrun, hpost, hauth, haddress, hsays, hverify⟩

end Torpc
