import Torpc.Model.JsonText
import Torpc.Results.RelayCircuit

/-!
# Two readings of a JSON-RPC reply

Geth's replies are decoded from their text as `JsonRpcResponse`, in which
`"error": null` is no error, as JSON-RPC 1.0 has it and many servers still write
it. The relay's reply is made a `Value` and looked into by hand: there an `error`
member is an error whatever its value. So the two disagree about an accepted
bundle whose reply has both (`classifiers_agree_iff`), which is then submitted
again. The rest of the disagreement is in what a `Value` cannot hold, in members
that stand twice, in the version and in arrays.
-/

namespace Torpc

/-- `result.bundleHash`, if it is a string. -/
def bundleHashOf (result : Option Value) : Option String :=
  result >>= Value.get "bundleHash" >>= Value.asStr

/-- The hash in a member of the text, if the member has a value at all. -/
def hashIn (member : Option JsonText) : Option String :=
  bundleHashOf (member.bind JsonText.toValue)

/-- Decoded like a reply of Geth, right from its text, the body has no error and the
hash `h`. `read` is the parser's way through the text. -/
def DecodesTo (read : String → Option JsonText) (text h : String) : Prop :=
  ∃ t response, read text = some t ∧ JsonRpcResponse.ofText t = some response ∧
    response.error.isNone = true ∧ bundleHashOf response.result = some h

/-- The text has none of the fields of a reply twice. -/
def FieldsOnce (members : List (String × JsonText)) : Prop :=
  ∀ name ∈ ["jsonrpc", "result", "error", "id"], (members.map Prod.fst).count name ≤ 1

/-- The text says what version of JSON-RPC it is. -/
def Versioned (members : List (String × JsonText)) : Prop :=
  ∃ version, members.lookup "jsonrpc" = some (.string version)

/-- Every member of the text has a value. -/
def AllHeld (members : List (String × JsonText)) : Prop :=
  ∀ member ∈ members, member.2.toValue.isSome = true

/-- A field that is absent or has a value. -/
def Held (field : Option JsonText) : Prop :=
  ∀ t, field = some t → t.toValue.isSome = true

/-- Bodies of which one reading makes a hash and the other does not. -/
inductive Misread : JsonText → Prop where
  /-- a reply that says in so many words that there is no error -/
  | nullError {members : List (String × JsonText)} {h : String} :
      FieldsOnce members → Versioned members → Held (members.lookup "id") →
      hashIn (members.lookup "result") = some h →
      members.lookup "error" = some .null → Misread (.object members)
  /-- a reply with a further member that no value can hold, which the decoder skips -/
  | skipped {members : List (String × JsonText)} {h : String} :
      FieldsOnce members → Versioned members → Held (members.lookup "id") →
      hashIn (members.lookup "result") = some h →
      members.lookup "error" = none → ¬ AllHeld members → Misread (.object members)
  /-- an object that does not say it is JSON-RPC, or has a field twice -/
  | malformed {members : List (String × JsonText)} {h : String} :
      ¬ (FieldsOnce members ∧ Versioned members) → AllHeld members →
      hashIn (members.reverse.lookup "result") = some h →
      members.lookup "error" = none → Misread (.object members)
  /-- the fields of a reply as an array -/
  | positional {version h : String} {result id : JsonText} :
      id.toValue.isSome = true → hashIn (some result) = some h →
      Misread (.array [.string version, result, .null, id])

-- ---------------------------------------------------------------------------
-- The reading by hand
-- ---------------------------------------------------------------------------

/-- The relay's reading: there is no `error` member. -/
theorem parseBundleResponse_eq_ok {x : Externals} {text h : String} :
    parseBundleResponse x text = .ok h ↔ ∃ v, x.parseJson text = .ok v ∧ v.get "error" = none ∧
      bundleHashOf (v.get "result") = some h := by
  unfold parseBundleResponse
  cases hparse : x.parseJson text with
  | error e => simp
  | ok v =>
    cases herror : v.get "error" with
    | some error => simp [herror]
    | none =>
      have hhash : v.get "result" >>= Value.get "bundleHash" >>= Value.asStr =
          bundleHashOf (v.get "result") := rfl
      dsimp only
      rw [hhash]
      cases hresult : bundleHashOf (v.get "result") <;> simp [herror, hresult]

/-- By hand a text is read as having the hash `h`. -/
def ReadByHand (t : JsonText) (h : String) : Prop :=
  ∃ v, t.toValue = some v ∧ v.get "error" = none ∧ bundleHashOf (v.get "result") = some h

/-- A name that is looked up in vain from one end is not found from the other. -/
theorem lookup_reverse_none {ms : List (String × JsonText)} {name : String} :
    ms.reverse.lookup name = none ↔ ms.lookup name = none := by
  rw [List.lookup_eq_none_iff, List.lookup_eq_none_iff]
  simp only [List.mem_reverse]

/-- By hand, an object is a success if all of it has a value, it has no error and its
last result has a hash. -/
theorem readByHand_object {ms : List (String × JsonText)} {h : String} :
    ReadByHand (.object ms) h ↔
      AllHeld ms ∧ ms.lookup "error" = none ∧ hashIn (ms.reverse.lookup "result") = some h := by
  -- the members of the value, when there is one
  have hget : ∀ {out}, JsonText.members ms [] = some out → ∀ name,
      (Value.object out).get name = (ms.reverse.lookup name).bind JsonText.toValue := by
    intro out hout name
    rw [Value.get, lookup_members hout]
    cases ms.reverse.lookup name <;> rfl
  constructor
  · rintro ⟨v, hv, herror, hhash⟩
    rw [JsonText.toValue] at hv
    obtain ⟨out, hout, rfl⟩ := Option.map_eq_some_iff.mp hv
    have hheld : AllHeld ms := members_isSome_iff.mp (Option.isSome_of_eq_some hout)
    rw [hget hout] at herror hhash
    refine ⟨hheld, lookup_reverse_none.mp ?_, hhash⟩
    cases hlast : ms.reverse.lookup "error" with
    | none => rfl
    | some t =>
      obtain ⟨before, after, hsplit, -⟩ := List.lookup_eq_some_iff.mp hlast
      have hmem : ("error", t) ∈ ms := List.mem_reverse.mp (by rw [hsplit]; simp)
      rw [hlast, Option.bind_some] at herror
      exact absurd (hheld _ hmem) (by rw [herror]; exact Bool.false_ne_true)
  · rintro ⟨hheld, herror, hhash⟩
    have hsome : (JsonText.members ms []).isSome = true := members_isSome_iff.mpr hheld
    obtain ⟨out, hout⟩ := Option.isSome_iff_exists.mp hsome
    refine ⟨.object out, by rw [JsonText.toValue, hout]; rfl, ?_, ?_⟩
    · rw [hget hout, lookup_reverse_none.mpr herror, Option.bind_none]
    · rw [hget hout]
      exact hhash

/-- Nothing but an object is a success by hand. -/
theorem not_readByHand {t : JsonText} (hobject : ∀ ms, t ≠ .object ms) (h : String) :
    ¬ ReadByHand t h := by
  rintro ⟨v, hv, -, hhash⟩
  cases t with
  | object ms => exact hobject ms rfl
  | array xs =>
    rw [JsonText.toValue] at hv
    obtain ⟨vs, -, rfl⟩ := Option.map_eq_some_iff.mp hv
    cases hhash
  | unheld => cases hv
  | _ =>
    cases hv
    cases hhash

-- ---------------------------------------------------------------------------
-- The typed reading
-- ---------------------------------------------------------------------------

/-- Decoded from the text, a reply has the hash `h`. -/
def ReadTyped (t : JsonText) (h : String) : Prop :=
  ∃ response, JsonRpcResponse.ofText t = some response ∧ response.error.isNone = true ∧
    bundleHashOf response.result = some h

/-- A null result has no hash either. -/
theorem bundleHashOf_optionValue (o : Option Value) :
    bundleHashOf (optionValue o) = bundleHashOf o := by
  cases o with
  | none => rfl
  | some v => cases v <;> rfl

/-- An optional field that is held decodes to its value. -/
theorem optionText_toValue_iff {o : Option JsonText} {d : Option Value} :
    optionText JsonText.toValue o = some d ↔
      Held o ∧ optionValue (o.bind JsonText.toValue) = d := by
  cases o with
  | none =>
    have hheld : Held none := fun t ht => nomatch ht
    rw [optionText, and_iff_right hheld, Option.some.injEq, Option.bind_none, optionValue_none]
  | some t =>
    have hheld : Held (some t) ↔ t.toValue.isSome = true :=
      ⟨fun h => h t rfl, fun h u hu => Option.some.inj hu ▸ h⟩
    rw [hheld, Option.bind_some]
    by_cases hnull : t = .null
    · subst hnull
      simp [optionText, JsonText.toValue]
    · have htext : optionText JsonText.toValue (some t) = t.toValue.map some := by
        cases t <;> first | exact absurd rfl hnull | rfl
      rw [htext]
      cases hv : t.toValue with
      | none => simp
      | some v =>
        have hne : v ≠ .null := fun hv' => toValue_ne_null hnull (hv' ▸ hv)
        simp [optionValue_of_ne hne]

/-- No error is decoded from a field that is absent or null, and from no other. -/
theorem optionText_error_none {o : Option JsonText} :
    (∃ d, optionText JsonRpcError.ofText o = some d ∧ d.isNone = true) ↔
      o = none ∨ o = some .null := by
  cases o with
  | none => simp [optionText]
  | some t =>
    by_cases hnull : t = .null
    · subst hnull
      simp [optionText]
    · have htext : optionText JsonRpcError.ofText (some t) =
          (JsonRpcError.ofText t).map some := by
        cases t <;> first | exact absurd rfl hnull | rfl
      rw [htext]
      constructor
      · rintro ⟨d, hd, hnone⟩
        obtain ⟨e, -, rfl⟩ := Option.map_eq_some_iff.mp hd
        cases hnone
      · rintro (h | h)
        · cases h
        · exact absurd (Option.some.inj h) hnull

/-- Field by field: there is a version, a result with the hash, no error or a null
one, and an id that can be held. -/
theorem readTyped_fields {t : JsonText} {version result error id : Option JsonText}
    (hfields : textFields ["jsonrpc", "result", "error", "id"] t =
      some [version, result, error, id]) {h : String} :
    ReadTyped t h ↔ (∃ s, version = some (.string s)) ∧ hashIn result = some h ∧
      (error = none ∨ error = some .null) ∧ Held id := by
  constructor
  · rintro ⟨response, hdecode, hnone, hhash⟩
    unfold JsonRpcResponse.ofText at hdecode
    rw [hfields] at hdecode
    split at hdecode
    · next s result' error' id' heq =>
      simp only [Option.some.injEq, List.cons.injEq, and_true] at heq
      obtain ⟨rfl, rfl, rfl, rfl⟩ := heq
      obtain ⟨r, hr, hdecode⟩ := Option.bind_eq_some_iff.mp hdecode
      obtain ⟨e, he, hdecode⟩ := Option.bind_eq_some_iff.mp hdecode
      obtain ⟨i, hi, hdecode⟩ := Option.bind_eq_some_iff.mp hdecode
      cases hdecode
      obtain ⟨-, rfl⟩ := optionText_toValue_iff.mp hr
      rw [bundleHashOf_optionValue] at hhash
      exact ⟨⟨s, rfl⟩, hhash, optionText_error_none.mp ⟨e, he, hnone⟩,
        (optionText_toValue_iff.mp hi).1⟩
    · cases hdecode
  · rintro ⟨⟨s, rfl⟩, hhash, hnone, hid⟩
    obtain ⟨e, he, hisNone⟩ := optionText_error_none.mpr hnone
    -- a result with a hash has a value
    have hheld : Held result := by
      rintro t rfl
      cases hv : t.toValue with
      | some v => rfl
      | none =>
        rw [hashIn, Option.bind_some, hv] at hhash
        cases hhash
    have hresult := optionText_toValue_iff.mpr ⟨hheld, rfl⟩
    refine ⟨⟨s, optionValue (result.bind JsonText.toValue), e,
      optionValue (id.bind JsonText.toValue)⟩, ?_, hisNone,
      (bundleHashOf_optionValue _).trans hhash⟩
    unfold JsonRpcResponse.ofText
    rw [hfields]
    simp only [hresult, he, optionText_toValue_iff.mpr ⟨hid, rfl⟩, Option.bind_eq_bind,
      Option.bind_some, Option.pure_def]

/-- The decoder finds the fields of an object that has none of them twice. -/
theorem textFields_object {ms : List (String × JsonText)} (honce : FieldsOnce ms) :
    textFields ["jsonrpc", "result", "error", "id"] (.object ms) =
      some [ms.lookup "jsonrpc", ms.lookup "result", ms.lookup "error", ms.lookup "id"] := by
  rw [textFields, if_pos (List.all_eq_true.mpr fun name hname => decide_eq_true (honce name hname))]
  rfl

/-- Decoded from the text, an object is a success if it has every field once, a
version, a result with a hash, no error or a null one, and an id that can be held. -/
theorem readTyped_object {ms : List (String × JsonText)} {h : String} :
    ReadTyped (.object ms) h ↔ FieldsOnce ms ∧ Versioned ms ∧
      hashIn (ms.lookup "result") = some h ∧
      (ms.lookup "error" = none ∨ ms.lookup "error" = some .null) ∧ Held (ms.lookup "id") := by
  constructor
  · intro hread
    have honce : FieldsOnce ms := by
      by_contra hnot
      obtain ⟨response, hdecode, -⟩ := hread
      have hnone : textFields ["jsonrpc", "result", "error", "id"] (.object ms) = none := by
        rw [textFields, if_neg fun hall => hnot fun name hname =>
          of_decide_eq_true (List.all_eq_true.mp hall name hname)]
      unfold JsonRpcResponse.ofText at hdecode
      rw [hnone] at hdecode
      cases hdecode
    exact ⟨honce, (readTyped_fields (textFields_object honce)).mp hread⟩
  · rintro ⟨honce, hrest⟩
    exact (readTyped_fields (textFields_object honce)).mpr hrest

/-- Decoded from the text, an array is a success only with the four fields in order. -/
theorem readTyped_array {xs : List JsonText} {h : String} :
    ReadTyped (.array xs) h ↔ ∃ version result id, xs = [.string version, result, .null, id] ∧
      hashIn (some result) = some h ∧ id.toValue.isSome = true := by
  have hfour : ∀ version result error id : JsonText,
      textFields ["jsonrpc", "result", "error", "id"] (.array [version, result, error, id]) =
        some [some version, some result, some error, some id] := fun _ _ _ _ => rfl
  constructor
  · intro hread
    -- only four elements are decoded at all
    match xs, hread with
    | [version, result, error, id], hread =>
      obtain ⟨⟨s, hversion⟩, hhash, herror, hid⟩ := (readTyped_fields (hfour _ _ _ _)).mp hread
      cases hversion
      rcases herror with herror | herror <;> cases herror
      exact ⟨s, result, id, rfl, hhash, hid id rfl⟩
  · rintro ⟨version, result, id, rfl, hhash, hid⟩
    refine (readTyped_fields (hfour _ _ _ _)).mpr ⟨⟨version, rfl⟩, hhash, .inr rfl, ?_⟩
    intro t ht
    obtain rfl := Option.some.inj ht
    exact hid

-- ---------------------------------------------------------------------------
-- Both
-- ---------------------------------------------------------------------------

/-- The two readings of a text come to the same. -/
def ReadAlike (t : JsonText) : Prop :=
  ∀ h, ReadByHand t h ↔ ReadTyped t h

/-- An object that is read in two ways is one of those listed as misread. -/
theorem readAlike_object (ms : List (String × JsonText)) :
    ReadAlike (.object ms) ↔ ¬ Misread (.object ms) := by
  constructor
  · intro halike hmisread
    cases hmisread with
    | nullError honce hversion hid hhash herror =>
      have hread := (halike _).mpr
        (readTyped_object.mpr ⟨honce, hversion, hhash, .inr herror, hid⟩)
      cases herror.symm.trans (readByHand_object.mp hread).2.1
    | skipped honce hversion hid hhash herror hheld =>
      have hread := (halike _).mpr
        (readTyped_object.mpr ⟨honce, hversion, hhash, .inl herror, hid⟩)
      exact hheld (readByHand_object.mp hread).1
    | malformed hbad hheld hhash herror =>
      have hread := (halike _).mp (readByHand_object.mpr ⟨hheld, herror, hhash⟩)
      obtain ⟨honce, hversion, -⟩ := readTyped_object.mp hread
      exact hbad ⟨honce, hversion⟩
  · intro hsound h
    rw [readByHand_object, readTyped_object]
    constructor
    · rintro ⟨hheld, herror, hhash⟩
      have hgood : FieldsOnce ms ∧ Versioned ms := by
        by_contra hbad
        exact hsound (.malformed hbad hheld hhash herror)
      obtain ⟨honce, hversion⟩ := hgood
      rw [lookup_reverse (honce "result" (by simp))] at hhash
      refine ⟨honce, hversion, hhash, .inl herror, fun t ht => ?_⟩
      obtain ⟨before, after, hsplit, -⟩ := List.lookup_eq_some_iff.mp ht
      exact hheld ("id", t) (by rw [hsplit]; simp)
    · rintro ⟨honce, hversion, hhash, herror | herror, hid⟩
      · have hheld : AllHeld ms := by
          by_contra hnot
          exact hsound (.skipped honce hversion hid hhash herror hnot)
        rw [lookup_reverse (honce "result" (by simp))]
        exact ⟨hheld, herror, hhash⟩
      · exact absurd (.nullError honce hversion hid hhash herror) hsound

/-- By hand nothing is made of an array, by the decoder sometimes a success. -/
theorem readAlike_array (xs : List JsonText) :
    ReadAlike (.array xs) ↔ ¬ Misread (.array xs) := by
  have hhand : ∀ h, ¬ ReadByHand (.array xs) h := not_readByHand fun _ => JsonText.noConfusion
  constructor
  · intro halike hmisread
    cases hmisread with
    | @positional version h result id hid hhash =>
      exact hhand h ((halike h).mpr (readTyped_array.mpr ⟨version, result, id, rfl, hhash, hid⟩))
  · intro hsound h
    refine ⟨fun hread => absurd hread (hhand h), fun hread => ?_⟩
    obtain ⟨version, result, id, rfl, hhash, hid⟩ := readTyped_array.mp hread
    exact absurd (.positional hid hhash) hsound

/-- The two readings of a text come to the same unless it is misread. -/
theorem readAlike_iff (t : JsonText) : ReadAlike t ↔ ¬ Misread t := by
  cases t with
  | object ms => exact readAlike_object ms
  | array xs => exact readAlike_array xs
  | _ =>
    refine ⟨fun _ hmisread => (nomatch hmisread), fun _ h => ?_⟩
    refine ⟨fun hread => absurd hread (not_readByHand (fun _ => JsonText.noConfusion) h), ?_⟩
    rintro ⟨_, hdecode, -⟩
    cases hdecode

/-- **Two classifiers.** The hand-written reading of a reply makes a hash of it in
the same cases as the decoding of its text if and only if the body is none that is
misread; `hread` says that a `Value` is made of a text as serde makes it. -/
theorem classifiers_agree_iff (x : Externals) (read : String → Option JsonText)
    (hread : ∀ text v, x.parseJson text = .ok v ↔
      ∃ t, read text = some t ∧ t.toValue = some v) (text : String) :
    (∀ h, parseBundleResponse x text = .ok h ↔ DecodesTo read text h) ↔
      ∀ t, read text = some t → ¬ Misread t := by
  -- both readings are readings of the text
  have hhand : ∀ h, parseBundleResponse x text = .ok h ↔
      ∃ t, read text = some t ∧ ReadByHand t h := by
    intro h
    rw [parseBundleResponse_eq_ok]
    constructor
    · rintro ⟨v, hparse, hrest⟩
      obtain ⟨t, ht, hv⟩ := (hread text v).mp hparse
      exact ⟨t, ht, v, hv, hrest⟩
    · rintro ⟨t, ht, v, hv, hrest⟩
      exact ⟨v, (hread text v).mpr ⟨t, ht, hv⟩, hrest⟩
  have htyped : ∀ h, DecodesTo read text h ↔ ∃ t, read text = some t ∧ ReadTyped t h := by
    intro h
    constructor
    · rintro ⟨t, response, ht, hrest⟩
      exact ⟨t, ht, response, hrest⟩
    · rintro ⟨t, ht, response, hrest⟩
      exact ⟨t, response, ht, hrest⟩
  cases htext : read text with
  | none =>
    simp [hhand, htyped, htext]
  | some t =>
    simp only [hhand, htyped, htext, Option.some.injEq, exists_eq_left', forall_eq']
    exact readAlike_iff t

-- ---------------------------------------------------------------------------
-- Replies to a bundle
-- ---------------------------------------------------------------------------

/-- A bundle that has been accepted, and no error. -/
def acceptedReply : JsonText :=
  .object [("jsonrpc", .string "2.0"), ("result", .object [("bundleHash", .string "0x1")]),
    ("error", .null)]

/-- Its text. -/
def acceptedText : String :=
  "\x7b\"jsonrpc\":\"2.0\",\"result\":\x7b\"bundleHash\":\"0x1\"\x7d,\"error\":null\x7d"

/-- The same with an id, and without the word about an error. -/
def plainReply : JsonText :=
  .object [("jsonrpc", .string "2.0"), ("result", .object [("bundleHash", .string "0x1")]),
    ("id", .string "a")]

/-- Its text. -/
def plainText : String :=
  "\x7b\"jsonrpc\":\"2.0\",\"result\":\x7b\"bundleHash\":\"0x1\"\x7d,\"id\":\"a\"\x7d"

/-- A parser that knows these two texts. -/
def readReply (text : String) : Option JsonText :=
  if text = acceptedText then some acceptedReply
  else if text = plainText then some plainReply
  else none

/-- Values made of them. -/
def serdeOnAcceptance : Externals :=
  { serdeOnRejection with
    parseJson := fun text => match (readReply text).bind JsonText.toValue with
      | some v => .ok v
      | none => .error "" }

/-- The sample parser reads a text as the grammar of JSON does. -/
theorem serdeOnAcceptance_reads (text : String) (v : Value) :
    serdeOnAcceptance.parseJson text = .ok v ↔
      ∃ t, readReply text = some t ∧ t.toValue = some v := by
  rw [← Option.bind_eq_some_iff]
  unfold serdeOnAcceptance
  dsimp only
  cases (readReply text).bind JsonText.toValue <;> simp

/-- The plain reply, with an id, a version and no word of an error, decodes to its hash, and
so the relay client takes it for a success. -/
theorem classifiers_agree_plain :
    DecodesTo readReply plainText "0x1" ∧
      parseBundleResponse serdeOnAcceptance plainText = .ok "0x1" := by
  have hreply : readReply plainText = some plainReply := by
    have hother : plainText ≠ acceptedText := by decide
    rw [readReply, if_neg hother, if_pos rfl]
  have hdecodes : DecodesTo readReply plainText "0x1" :=
    ⟨plainReply, ⟨"2.0", some (.object [("bundleHash", .string "0x1")]), none,
      some (.string "a")⟩, hreply, rfl, rfl, rfl⟩
  refine ⟨hdecodes, ((classifiers_agree_iff serdeOnAcceptance readReply serdeOnAcceptance_reads
    plainText).mpr (fun t ht hmisread => ?_) "0x1").mpr hdecodes⟩
  obtain rfl := Option.some.inj (hreply.symm.trans ht)
  cases hmisread with
  | nullError _ _ _ _ herror => cases herror
  | skipped _ _ _ _ _ hheld => exact hheld (by simp [AllHeld, JsonText.toValue, JsonText.members])
  | malformed hbad _ _ _ => exact hbad ⟨by simp [FieldsOnce], "2.0", rfl⟩

/-- The relay client takes an accepted bundle for a failure without a reason. -/
theorem accepted_bundle_misread :
    parseBundleResponse serdeOnAcceptance acceptedText =
      .error (.upstreamError "Relay error: Unknown error") ∧
    DecodesTo readReply acceptedText "0x1" ∧
    ¬ ∀ h, parseBundleResponse serdeOnAcceptance acceptedText = .ok h ↔
      DecodesTo readReply acceptedText h := by
  have htext : readReply acceptedText = some acceptedReply := if_pos rfl
  have hread : parseBundleResponse serdeOnAcceptance acceptedText =
      .error (.upstreamError "Relay error: Unknown error") := by
    unfold parseBundleResponse serdeOnAcceptance
    dsimp only
    rw [htext]
    rfl
  have hdecodes : DecodesTo readReply acceptedText "0x1" :=
    ⟨acceptedReply, ⟨"2.0", some (.object [("bundleHash", .string "0x1")]), none, none⟩, htext,
      rfl, rfl, rfl⟩
  refine ⟨hread, hdecodes, fun hagree => ?_⟩
  cases hread.symm.trans ((hagree "0x1").mpr hdecodes)

end Torpc
