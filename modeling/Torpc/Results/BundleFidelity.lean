import Torpc.Model.App

/-!
# What is left of a client's bundle

`handle_send_bundle` decodes the client's object into `Bundle` and encodes the
struct again. The struct has four fields, and the decoder passes over a member
it has no field for. So what is posted to the relay is the client's bundle in
exactly the cases in which nothing else is said in it (`bundle_fidelity_iff`).
-/

namespace Torpc

open Effects Prog

/-- Every member that says something is there with its value. -/
def KeepsMembers (members : List (String × Value)) (posted : Value) : Prop :=
  ∀ key v, members.lookup key = some v → v ≠ .null → posted.get key = some v

/-- The fields of `Bundle`, as they are named in JSON. -/
def bundleFields : List String := ["txs", "blockNumber", "minTimestamp", "maxTimestamp"]

-- ---------------------------------------------------------------------------
-- Decoding and encoding again
-- ---------------------------------------------------------------------------

/-- Values that are all texts are the values of these texts. -/
theorem mapM_asStr {vs : List Value} {xs : List String} (h : vs.mapM Value.asStr = some xs) :
    vs = xs.map .string := by
  induction vs generalizing xs with
  | nil =>
    obtain rfl : [] = xs := by simpa using h
    rfl
  | cons v vs ih =>
    rw [List.mapM_cons] at h
    obtain ⟨s, hs, h⟩ := Option.bind_eq_some_iff.mp h
    obtain ⟨ss, hss, h⟩ := Option.bind_eq_some_iff.mp h
    obtain rfl := Option.some.inj h
    rw [List.map_cons, ← ih hss]
    cases v with
    | string s' => rw [Option.some.inj hs]
    | _ => cases hs

/-- An array of texts holds just the texts that are read from it. -/
theorem stringArray_eq_some {v : Value} {xs : List String} (h : stringArray v = some xs) :
    v = .array (xs.map .string) := by
  cases v with
  | array vs => exact congrArg Value.array (mapM_asStr h)
  | _ => cases h

/-- An optional number is written back as it stood, unless it was null. -/
theorem optionField_u64 {o : Option Value} {n : Option UInt64}
    (h : optionField u64Field o = some n) {v : Value} (ho : o = some v) (hv : v ≠ .null) :
    n.map Value.nat = some v := by
  subst ho
  cases v with
  | null => exact absurd rfl hv
  | number m =>
    cases m with
    | posInt k =>
      obtain rfl := Option.some.inj h
      rfl
    | negInt k hk => cases h
    | float bits => cases h
  | _ => cases h

/-- The members that an accepted bundle was made from. -/
structure DecodedFrom (bundle : Bundle) (members : List (String × Value)) : Prop where
  txs : members.lookup "txs" = some (.array (bundle.txs.map .string))
  blockNumber : members.lookup "blockNumber" = some (.string bundle.blockNumber)
  minTimestamp : optionField u64Field (members.lookup "minTimestamp") = some bundle.minTimestamp
  maxTimestamp : optionField u64Field (members.lookup "maxTimestamp") = some bundle.maxTimestamp

/-- A bundle holds what its members say, each decoded by its own rule. -/
theorem Bundle.decodedFrom {members : List (String × Value)} {bundle : Bundle}
    (h : Bundle.ofValue (.object members) = some bundle) : DecodedFrom bundle members := by
  unfold Bundle.ofValue at h
  split at h
  · next txs blockNumber minTimestamp maxTimestamp hfields =>
    simp only [structFields, List.map_cons, List.map_nil, Option.some.injEq, List.cons.injEq,
      and_true] at hfields
    obtain ⟨htxs, hblock, rfl, rfl⟩ := hfields
    obtain ⟨ss, hss, h⟩ := Option.bind_eq_some_iff.mp h
    obtain ⟨lo, hlo, h⟩ := Option.bind_eq_some_iff.mp h
    obtain ⟨hi, hhi, h⟩ := Option.bind_eq_some_iff.mp h
    obtain rfl := Option.some.inj h
    exact ⟨htxs.trans (congrArg some (stringArray_eq_some hss)), hblock, hlo, hhi⟩
  · cases h

/-- Encoded again, a bundle has its four members and no others. -/
theorem Bundle.get_toValue (bundle : Bundle) (key : String) :
    bundle.toValue.get key =
      if key = "txs" then some (.array (bundle.txs.map .string))
      else if key = "blockNumber" then some (.string bundle.blockNumber)
      else if key = "minTimestamp" then bundle.minTimestamp.map .nat
      else if key = "maxTimestamp" then bundle.maxTimestamp.map .nat
      else none := by
  simp only [Bundle.toValue, Value.get, List.lookup_append, lookup_skipNone, lookup_cons_if,
    List.lookup_nil]
  repeat' split
  all_goals first | rfl | simp_all

/-- Texts that are written as an array are read back. -/
theorem stringArray_map (xs : List String) :
    stringArray (.array (xs.map .string)) = some xs := by
  show (xs.map Value.string).mapM Value.asStr = some xs
  induction xs with
  | nil => rfl
  | cons x xs ih =>
    rw [List.map_cons, List.mapM_cons, ih]
    rfl

/-- So is a number that may be missing. -/
theorem optionField_nat (n : Option UInt64) : optionField u64Field (n.map .nat) = some n := by
  cases n <;> rfl

/-- A bundle that is written out and read back is the same bundle. -/
theorem Bundle.ofValue_toValue (bundle : Bundle) : Bundle.ofValue bundle.toValue = some bundle := by
  have hget := bundle.get_toValue
  have hfields : structFields ["txs", "blockNumber", "minTimestamp", "maxTimestamp"]
      bundle.toValue = some [some (.array (bundle.txs.map .string)),
        some (.string bundle.blockNumber), bundle.minTimestamp.map .nat,
        bundle.maxTimestamp.map .nat] := by
    have htxs := hget "txs"
    have hblock := hget "blockNumber"
    have hmin := hget "minTimestamp"
    have hmax := hget "maxTimestamp"
    simp only [String.reduceEq, if_true, if_false] at htxs hblock hmin hmax
    show some [bundle.toValue.get "txs", bundle.toValue.get "blockNumber",
      bundle.toValue.get "minTimestamp", bundle.toValue.get "maxTimestamp"] = _
    rw [htxs, hblock, hmin, hmax]
  unfold Bundle.ofValue
  rw [hfields]
  simp only [stringArray_map, optionField_nat, Option.bind_eq_bind, Option.bind_some]

/-- The order and the content of the transactions are kept. -/
theorem DecodedFrom.get_txs {bundle : Bundle} {members : List (String × Value)}
    (h : DecodedFrom bundle members) : bundle.toValue.get "txs" = members.lookup "txs" := by
  rw [h.txs, bundle.get_toValue, if_pos rfl]

/-- A member that is a field comes back with its value. -/
theorem DecodedFrom.get_field {bundle : Bundle} {members : List (String × Value)}
    (h : DecodedFrom bundle members) {key : String} {v : Value} (hkey : key ∈ bundleFields)
    (hlookup : members.lookup key = some v) (hv : v ≠ .null) : bundle.toValue.get key = some v := by
  simp only [bundleFields, List.mem_cons, List.not_mem_nil, or_false] at hkey
  rcases hkey with rfl | rfl | rfl | rfl
  · rw [h.get_txs, hlookup]
  · rw [bundle.get_toValue, if_neg (by decide), if_pos rfl, ← h.blockNumber, hlookup]
  · rw [bundle.get_toValue, if_neg (by decide), if_neg (by decide), if_pos rfl]
    exact optionField_u64 h.minTimestamp hlookup hv
  · rw [bundle.get_toValue, if_neg (by decide), if_neg (by decide), if_neg (by decide), if_pos rfl]
    exact optionField_u64 h.maxTimestamp hlookup hv

/-- A member that is none does not. -/
theorem Bundle.get_noField (bundle : Bundle) {key : String} (hkey : key ∉ bundleFields) :
    bundle.toValue.get key = none := by
  simp only [bundleFields, List.mem_cons, List.not_mem_nil, or_false, not_or] at hkey
  obtain ⟨htxs, hblock, hmin, hmax⟩ := hkey
  rw [bundle.get_toValue, if_neg htxs, if_neg hblock, if_neg hmin, if_neg hmax]

-- ---------------------------------------------------------------------------
-- What is posted
-- ---------------------------------------------------------------------------

/-- What is sent of a bundle is the text of its request. -/
theorem MevRelayClient.posts_sendBundle (client : MevRelayClient) (x : Externals)
    (bundle : Bundle) : (client.sendBundle x bundle).Ops fun o => ∀ body signature,
      o = .sendToRelay body signature →
      x.encodeJson (SendBundleRequest.new bundle 1).toValue = .ok body := by
  refine client.ops_sendBundle_of (fun o _ hsend body signature ho => ?_)
    fun body signature hbody _ body' signature' ho => ?_
  · rw [ho] at hsend
    cases hsend
  · cases ho
    exact hbody

/-- **A client's bundle at the relay.** What is posted for an accepted bundle is
a request whose one parameter is the decoded bundle. Its transactions are the
client's, and the rest is if and only if the client says nothing but the four
fields. -/
theorem MevRelayClient.bundle_fidelity_iff (client : MevRelayClient) (x : Externals)
    {request : JsonRpcRequest} {members : List (String × Value)} {bundle : Bundle}
    (hparam : request.firstParam = some (.object members))
    (haccepted : Bundle.ofValue (.object members) = some bundle) :
    (∀ tr rest body signature, Trace (client.handleSendBundle x request) tr rest →
      (⟨.sendToRelay body signature, ()⟩ : OpEvent) ∈ tr →
      x.encodeJson (SendBundleRequest.new bundle 1).toValue = .ok body) ∧
    (SendBundleRequest.new bundle 1).toValue.get "params" = some (.array [bundle.toValue]) ∧
    bundle.toValue.get "txs" = members.lookup "txs" ∧
    (KeepsMembers members bundle.toValue ↔
      ∀ key v, members.lookup key = some v → v ≠ .null → key ∈ bundleFields) := by
  have hfrom := Bundle.decodedFrom haccepted
  refine ⟨fun tr rest body signature htr hmem => ?_, rfl, hfrom.get_txs,
    fun hkeeps key v hv hne => ?_,
    fun hknown key v hv hne => hfrom.get_field (hknown key v hv hne) hv hne⟩
  · have hhandle : client.handleSendBundle x request = client.sendBundle x bundle := by
      unfold handleSendBundle
      rw [hparam]
      dsimp only
      rw [haccepted]
    rw [hhandle] at htr
    exact (client.posts_sendBundle x bundle).events htr _ hmem body signature rfl
  · by_contra hkey
    have hgone := hkeeps key v hv hne
    rw [bundle.get_noField hkey] at hgone
    cases hgone

/-- A bundle for block 16. -/
def plainBundle : List (String × Value) :=
  [("txs", .array [.string "0x02f8"]), ("blockNumber", .string "0x10")]

/-- The same, if it may be included without its first transaction. -/
def revertingBundle : List (String × Value) :=
  plainBundle ++ [("revertingTxHashes", .array [.string "0x5c"])]

def bundleRequest (members : List (String × Value)) : JsonRpcRequest :=
  ⟨"2.0", "eth_sendBundle", some (.array [.object members]), some (.nat 1)⟩

/-- The text that serde writes for either. -/
def bundleText : String :=
  "\x7b\"jsonrpc\":\"2.0\",\"method\":\"eth_sendBundle\",\"params\":" ++
    "[\x7b\"txs\":[\"0x02f8\"],\"blockNumber\":\"0x10\"\x7d],\"id\":1\x7d"

def bundleExternals : Externals :=
  { plainDaemon.externals with encodeJson := fun _ => .ok bundleText }

def bundleClient : MevRelayClient := ⟨1, .default, fun _ => .ok "0x01:0x02"⟩

/-- A plain bundle keeps its members. -/
theorem bundle_fidelity_plain :
    KeepsMembers plainBundle (Bundle.toValue ⟨["0x02f8"], "0x10", none, none⟩) := by
  have hparam : (bundleRequest plainBundle).firstParam = some (.object plainBundle) := rfl
  refine (bundleClient.bundle_fidelity_iff bundleExternals hparam rfl).2.2.2.mpr
    fun key v hv _ => ?_
  simp only [plainBundle, lookup_cons_if, List.lookup_nil] at hv
  split at hv
  · next hkey =>
    rw [hkey]
    decide
  · split at hv
    · next hkey =>
      rw [hkey]
      decide
    · cases hv

/-- The bundle goes to the relay without the hashes. -/
theorem reverting_hashes_dropped : ∃ bundle body signature tr rest,
    Bundle.ofValue (.object revertingBundle) = some bundle ∧
    Trace (bundleClient.handleSendBundle bundleExternals (bundleRequest revertingBundle)) tr rest ∧
    (⟨.sendToRelay body signature, ()⟩ : OpEvent) ∈ tr ∧
    bundleExternals.encodeJson (SendBundleRequest.new bundle 1).toValue = .ok body ∧
    ¬ KeepsMembers revertingBundle bundle.toValue := by
  refine ⟨⟨["0x02f8"], "0x10", none, none⟩, bundleText, "0x01:0x02",
    [⟨.canProceed .mevRelay, true⟩, ⟨.sendToRelay bundleText "0x01:0x02", ()⟩], _, rfl,
    .cons (.cons (.nil _)), List.mem_cons_of_mem _ (List.mem_singleton.mpr rfl), rfl, fun h => ?_⟩
  cases h "revertingTxHashes" (.array [.string "0x5c"]) rfl nofun

end Torpc
