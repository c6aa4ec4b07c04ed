import Torpc.Model.Assembly
import Torpc.Results.Confidentiality
import Torpc.Results.Signatures

/-!
# Whether transactions are protected

The relay route is there so that a transaction does not come to the public
mempool by way of Geth. Whether it keeps that promise is decided when the daemon
is assembled: if the signing key can be used, nothing a client sends to the relay
route as a transaction or a bundle reaches Geth, in any run. Without a key, and
with one that cannot be used, the daemon starts all the same, and a transaction
on the relay route is handed to Geth (`transactions_private_iff`). The relay is
assumed not to lead the daemon's POSTs to Geth itself, by redirects; what happens
if it does is settled for one request by `geth_view_equal_iff`.
-/

namespace Torpc

open Bytes Effects Prog System Lts

/-- A request for the relay: a transaction or a bundle on the relay route. -/
def PublicRequest.IsPrivate (v : PublicRequest) : Prop :=
  ∃ a, v.arrival = some a ∧ (a.route = .flashbots ∨ a.route = .flashbotsSlash) ∧
    Torpc.IsPrivate a.request.method

/-- The operation sends Geth nothing but the question for the block number. -/
def Op.AsksBlock (o : Op) : Prop := ∀ r, o = .sendToGeth r → r = blockNumberRequest

end Torpc
