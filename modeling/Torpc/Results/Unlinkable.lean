import Torpc.Model.ClientProxy

/-!
# What a wallet leaves on its requests

A wallet can be told by the headers it sends. `do_proxy` drops those that are for
the connection or give the wallet away, and puts in a `Host` and a `User-Agent`
of its own. So two wallets whose requests differ in nothing else send the onion
service the same request (`wallet_unlinkable`): which of the dropped headers
there were, where they stood and what host the request was for does not show.

The requests are those that `do_proxy` is given, with the header map that hyper
has filled; what hyper makes of the bytes on the wire is its own affair.
-/

namespace Torpc

open Http

/-- A field that does not go on. -/
def isDropped (name : String) : Bool :=
  name == "host" || isHopByHop name || isWalletFingerprint name

/-- The fields of a wallet's request that go on. -/
def visibleFields (headers : List (String × String)) : List (String × String) :=
  headers.filter fun field => !isDropped field.1

/-- The headers that go on are the visible fields and those that are put in. -/
theorem forwardedHeaders_eq (config : ProxyConfig) (req : Request) :
    forwardedHeaders config req =
      (let set := visibleFields req.headers ++
        [("host", config.onionEndpoint), ("user-agent", forwardedUserAgent)]
      if req.body.isEmpty then set
      else set ++ [("content-length", toString req.body.length)]) := rfl

/-- A header that is dropped and put in stands there once, whether the wallet has
sent it or not. -/
theorem filter_forwarded {config : ProxyConfig} {req : Request} {name : String}
    (hdropped : isDropped name = true) (hlength : name ≠ "content-length") :
    (forwardedHeaders config req).filter (fun field => field.1 == name) =
      [("host", config.onionEndpoint), ("user-agent", forwardedUserAgent)].filter
        fun field => field.1 == name := by
  have hnone : (visibleFields req.headers).filter (fun field => field.1 == name) = [] := by
    refine List.filter_eq_nil_iff.mpr fun field hfield hname => ?_
    have hkept : (!isDropped field.1) = true := (List.mem_filter.mp hfield).2
    rw [beq_iff_eq.mp hname, hdropped] at hkept
    cases hkept
  have hlast : ∀ value : String,
      [("content-length", value)].filter (fun field => field.1 == name) = [] := fun value =>
    List.filter_eq_nil_iff.mpr fun field hfield hname => by
      obtain rfl := List.mem_singleton.mp hfield
      exact hlength (beq_iff_eq.mp hname).symm
  rw [forwardedHeaders_eq]
  dsimp only
  split
  · rw [List.filter_append, hnone, List.nil_append]
  · rw [List.filter_append, List.filter_append, hnone, List.nil_append, hlast, List.append_nil]

/-- What is sent upstream carries the forwarded fields and nothing else. -/
theorem upstreamRequest_headers {config : ProxyConfig} {req up : Request}
    (h : upstreamRequest config req = .ok up) : up.headers = forwardedHeaders config req := by
  obtain ⟨target, -, -, -, rfl⟩ := upstreamRequest_eq_ok.mp h
  rfl

/-- What is sent is made of the method, the path and query, the headers and the body. -/
theorem upstreamRequest_congr {config : ProxyConfig} {req req' : Request}
    (hmethod : req.method = req'.method)
    (htext : (req.target.map PathAndQuery.asStr).getD ['/'] =
      (req'.target.map PathAndQuery.asStr).getD ['/'])
    (hheaders : forwardedHeaders config req = forwardedHeaders config req')
    (hbody : req.body = req'.body) : upstreamRequest config req = upstreamRequest config req' := by
  unfold upstreamRequest
  rw [hmethod, hheaders, hbody]
  cases ht : req.target with
  | none =>
    cases ht' : req'.target with
    | none => rfl
    | some pq' =>
      rw [ht, ht'] at htext
      simp only [show pq'.asStr = ['/'] from htext.symm]
  | some pq =>
    cases ht' : req'.target with
    | none =>
      rw [ht, ht'] at htext
      simp only [show pq.asStr = ['/'] from htext]
    | some pq' =>
      rw [ht, ht'] at htext
      simp only [show pq.asStr = pq'.asStr from htext]

theorem toLower_eq (s : String) : s.toLower = String.ofList (s.toList.map Char.toLower) := by
  apply String.toList_injective
  show (s.map Char.toLower).toList = _
  rw [String.toList_map, String.toList_ofList]

/-- An upper-case letter in lower case is no upper-case letter. -/
theorem toLower_toLower_char (c : Char) : c.toLower.toLower = c.toLower := by
  by_cases h : c.val ≥ 'A'.val ∧ c.val ≤ 'Z'.val
  · have hval : c.toLower.val = c.val + ('a'.val - 'A'.val) := by
      unfold Char.toLower
      rw [dif_pos h]
    have hlow : ¬ (c.toLower.val ≥ 'A'.val ∧ c.toLower.val ≤ 'Z'.val) := by
      rw [hval]
      obtain ⟨hlo, hhi⟩ := h
      simp only [ge_iff_le, UInt32.le_iff_toNat_le, UInt32.toNat_add] at *
      simp at *
      omega
    rw [Char.toLower.eq_def c.toLower, dif_neg hlow]
  · have hsame : c.toLower = c := by
      unfold Char.toLower
      rw [dif_neg h]
    rw [hsame, hsame]

/-- A name in lower case stays as it is in lower case. -/
theorem toLower_toLower (s : String) : s.toLower.toLower = s.toLower := by
  rw [toLower_eq s, toLower_eq, String.toList_ofList, List.map_map]
  congr 1
  exact List.map_congr_left fun c _ => toLower_toLower_char c

/-- A name is classified by its letters, not by their case. -/
theorem isHopByHop_toLower (name : String) : isHopByHop name.toLower = isHopByHop name := by
  unfold isHopByHop
  rw [toLower_toLower]

/-- Whether a field gives the wallet away does not depend on the case of its name. -/
theorem isWalletFingerprint_toLower (name : String) :
    isWalletFingerprint name.toLower = isWalletFingerprint name := by
  unfold isWalletFingerprint
  rw [toLower_toLower]

/-- The field `User-Agent` is one of those that do. -/
theorem isWalletFingerprint_userAgent : isWalletFingerprint "user-agent" = true := by
  have hlower : "user-agent".toLower = "user-agent" := by
    rw [toLower_eq]
    decide
  unfold isWalletFingerprint
  rw [hlower]
  rfl

/-- Requests that differ in dropped fields and in the authority alone are sent
on as one and the same request, which says `Host` and `User-Agent` once each; and
whether a field is dropped for its name does not depend on the letter case. -/
theorem wallet_unlinkable (config : ProxyConfig) :
    (∀ req req' : IncomingRequest, req.method = req'.method →
      req.uri.target.map PathAndQuery.asStr = req'.uri.target.map PathAndQuery.asStr →
      req.body = req'.body → visibleFields req.headers = visibleFields req'.headers →
      upstreamRequest config req.parts = upstreamRequest config req'.parts) ∧
    (∀ (req : IncomingRequest) (authority authority' : String),
      upstreamRequest config
          { req with uri := { req.uri with authority := some authority } }.parts =
        upstreamRequest config
          { req with uri := { req.uri with authority := some authority' } }.parts) ∧
    (∀ (req : IncomingRequest) (up : Request), upstreamRequest config req.parts = .ok up →
      up.headers.filter (fun field => field.1 == "user-agent") =
        [("user-agent", forwardedUserAgent)] ∧
      up.headers.filter (fun field => field.1 == "host") = [("host", config.onionEndpoint)]) ∧
    ∀ name : String, isHopByHop name.toLower = isHopByHop name ∧
      isWalletFingerprint name.toLower = isWalletFingerprint name := by
  refine ⟨fun req req' hmethod hpath hbody hfields => ?_, fun req authority authority' => rfl,
    fun req up hup => ?_,
    fun name => ⟨isHopByHop_toLower name, isWalletFingerprint_toLower name⟩⟩
  · have hheaders : forwardedHeaders config req.parts = forwardedHeaders config req'.parts := by
      have hvisible : visibleFields req.parts.headers = visibleFields req'.parts.headers := hfields
      have hbytes : req.parts.body = req'.parts.body := hbody
      rw [forwardedHeaders_eq, forwardedHeaders_eq, hvisible, hbytes]
    have htext : (req.parts.target.map PathAndQuery.asStr).getD ['/'] =
        (req'.parts.target.map PathAndQuery.asStr).getD ['/'] := congrArg (·.getD ['/']) hpath
    exact upstreamRequest_congr hmethod htext hheaders hbody
  · rw [upstreamRequest_headers hup]
    have hagent : isDropped "user-agent" = true := by
      rw [isDropped, isWalletFingerprint_userAgent, Bool.or_true]
    exact ⟨filter_forwarded hagent (by decide), filter_forwarded rfl (by decide)⟩

/-- A browser wallet's request, to the URL it was told. -/
def browserRequest : IncomingRequest where
  method := .post
  uri := ⟨none, none, ⟨['/', 'r', 'p', 'c'], none, by decide, .inr (.inr rfl)⟩⟩
  headers := [("host", "127.0.0.1:8545"), ("user-agent", "MetaMask/12.3"),
    ("content-type", "application/json"), ("sec-ch-ua", "Chromium"), ("accept-language", "fr")]
  body := [123, 125]

/-- The same from another wallet, through a library that writes the whole URL. -/
def libraryRequest : IncomingRequest where
  method := .post
  uri := ⟨some "http", some "localhost:8545",
    ⟨['/', 'r', 'p', 'c'], none, by decide, .inr (.inr rfl)⟩⟩
  headers := [("content-type", "application/json"), ("connection", "keep-alive"),
    ("x-wallet-id", "7"), ("host", "localhost:8545")]
  body := [123, 125]

/-- A browser's request and a library's, with different fields that give them away, are sent
on as one and the same. -/
theorem wallet_unlinkable_requests (config : ProxyConfig) :
    upstreamRequest config browserRequest.parts = upstreamRequest config libraryRequest.parts := by
  refine (wallet_unlinkable config).1 browserRequest libraryRequest rfl rfl rfl ?_
  simp only [visibleFields, isDropped, isHopByHop, isWalletFingerprint, toLower_eq]
  decide

end Torpc
