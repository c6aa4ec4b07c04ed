import Torpc.Results.BundleFidelity

/-!
# The block a transaction is for

A transaction goes to the relay as a bundle for the block that lies
`blocks_ahead` after the one Geth reports. The number is read as a `u64` and the
sum is made in `u64` without a check. So the bundle is for the right block unless
the sum leaves the range (`next_block_iff`): then the handler panics in a debug
build, and otherwise asks for a block of long ago.
-/

namespace Torpc

open Effects Prog

/-- A QUANTITY: `0x` and the digits, in lower case and without leading zeros. -/
def quantity (n : Nat) : String := "0x" ++ String.ofList (Net.hex n)

/-- Two numbers have two texts. -/
theorem quantity_injective : Function.Injective quantity := by
  intro m n h
  have hlist := congrArg String.toList h
  simp only [quantity, String.toList_append, String.toList_ofList] at hlist
  exact Net.hex_inj (List.append_cancel_left hlist)

namespace MevRelayClient

/-- The handler's reply, once the bundle is submitted. -/
def submitted (client : MevRelayClient) (x : Externals) (request : JsonRpcRequest)
    (bundle : Bundle) : Handler (ProxyResult JsonRpcResponse) :=
  (client.sendBundle x bundle).andThen fun bundleHash =>
    return .ok ⟨"2.0", some (.string bundleHash), none, request.id⟩

/-- The transaction goes out alone, for the block `blocksAhead` after `n`. -/
structure TargetsNext (client : MevRelayClient) (x : Externals) (request : JsonRpcRequest)
    (rawTx : String) (n : UInt64) (bundle : Bundle) : Prop where
  created : client.createBundleFromTx x rawTx n = some bundle
  txs : bundle.txs = [rawTx]
  blockNumber : bundle.blockNumber = quantity (n.toNat + client.blocksAhead.toNat)
  /-- when Geth has reported `n`, this is the bundle that is sent -/
  sent : ∀ tr response, response.result = some (.string (quantity n.toNat)) →
    Trace (proxyToGeth x blockNumberRequest) tr (.pure (.ok response)) →
    Trace (client.submitTransaction x request) tr (client.submitted x request bundle)

/-- What follows Geth's answer to the question for the block: the bundle is made from the
number that it tells, and is submitted. -/
theorem submitTransaction_trace {client : MevRelayClient} {x : Externals}
    {request : JsonRpcRequest} {rawTx : String}
    (htx : request.firstParam >>= Value.asStr = some rawTx) {n : UInt64} {bundle : Bundle}
    (hbundle : client.createBundleFromTx x rawTx n = some bundle) {tr : List OpEvent}
    {response : JsonRpcResponse} (hresult : response.result = some (.string (quantity n.toNat)))
    (h : Trace (proxyToGeth x blockNumberRequest) tr (.pure (.ok response))) :
    Trace (client.submitTransaction x request) tr (client.submitted x request bundle) := by
  have hafter : Trace (client.submitTransaction x request) tr _ := h.andThen _
  simp only [currentBlockOf_quantity hresult, handleSendRawTransaction, htx, hbundle] at hafter
  exact hafter

/-- **Next block.** Whatever block Geth reports, the client's first parameter is
sent as the only transaction of a bundle for the block `blocks_ahead` later, if
and only if there is a `u64` for it. -/
theorem next_block_iff (client : MevRelayClient) (x : Externals) {request : JsonRpcRequest}
    {rawTx : String} (htx : request.firstParam >>= Value.asStr = some rawTx) (n : UInt64) :
    (∃ bundle, client.TargetsNext x request rawTx n bundle) ↔
      n.toNat + client.blocksAhead.toNat < 2 ^ 64 := by
  constructor
  · rintro ⟨bundle, hcreated, -, hnumber, -⟩
    unfold createBundleFromTx at hcreated
    split at hcreated
    · cases hcreated
    · cases hcreated
      have hsum := quantity_injective hnumber
      rw [← hsum]
      exact UInt64.toNat_lt _
  · intro hsum
    have hadd : (n + client.blocksAhead).toNat = n.toNat + client.blocksAhead.toNat := by
      rw [UInt64.toNat_add, Nat.mod_eq_of_lt hsum]
    have hcreated : client.createBundleFromTx x rawTx n =
        some ⟨[rawTx], quantity (n.toNat + client.blocksAhead.toNat), none, none⟩ := by
      unfold createBundleFromTx
      rw [if_neg (by omega)]
      simp only [hadd, quantity]
    exact ⟨_, hcreated, rfl, rfl, fun _ _ hresult => submitTransaction_trace htx hcreated hresult⟩

end MevRelayClient

/-- A transaction, as a wallet sends it. -/
def rawTxRequest : JsonRpcRequest :=
  ⟨"2.0", "eth_sendRawTransaction", some (.array [.string "0x02f8"]), some (.nat 1)⟩

/-- The block after 1000, as an example. -/
theorem next_block_1000 :
    ∃ bundle, bundleClient.TargetsNext bundleExternals rawTxRequest "0x02f8" 1000 bundle :=
  (bundleClient.next_block_iff bundleExternals rfl 1000).mpr (by decide)

/-- The last block that there is a number for: its next block is block 0, or the
handler panics. -/
theorem next_block_top :
    bundleClient.createBundleFromTx { bundleExternals with overflowChecks := false } "0x02f8"
        (.ofNat (2 ^ 64 - 1)) = some ⟨["0x02f8"], "0x0", none, none⟩ ∧
    bundleClient.createBundleFromTx { bundleExternals with overflowChecks := true } "0x02f8"
        (.ofNat (2 ^ 64 - 1)) = none ∧
    ∀ overflowChecks, ¬ ∃ bundle, bundleClient.TargetsNext
      { bundleExternals with overflowChecks := overflowChecks } rawTxRequest "0x02f8"
      (.ofNat (2 ^ 64 - 1)) bundle := by
  refine ⟨by decide, by decide, ?_⟩
  rintro overflowChecks ⟨bundle, hcreated, -, hnumber, -⟩
  cases overflowChecks with
  | false =>
    cases hcreated
    revert hnumber
    decide
  | true => cases hcreated

end Torpc
