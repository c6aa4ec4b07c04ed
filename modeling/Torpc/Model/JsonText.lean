import Mathlib.Data.List.Nodup
import Torpc.Model.RpcTypes

/-!
# What a JSON text says, and two ways to read it

`serde_json` reads a text into a `Value`, or right into a struct without making
one. The two are not the same. An object of the text may have a member twice: a
`Value` keeps the later one, a struct refuses a second member for one of its
fields. And a struct passes over a member that it has no field for without
looking at it, so there may stand what no `Value` can hold, such as the number
`1e400`.

`JsonText` is the text as the parser goes through it, with every member in its
place, and the two readings are functions of it. Where the text has no member
twice and nothing that cannot be held, they go together
(`JsonRpcResponse.ofText_eq_ofValue`).
-/

namespace Torpc

/-- A JSON text; `unheld` is what is well-formed but has no value: a number
beyond the doubles, an escape that is half a character, a nesting that is too
deep. -/
inductive JsonText where
  | null
  | bool (b : Bool)
  | number (n : Number)
  | string (s : String)
  | array (xs : List JsonText)
  | object (members : List (String × JsonText))
  | unheld
  deriving Inhabited

/-- `Map::insert`, for the members of an object in the order of the text. -/
def insertMember (members : List (String × Value)) (key : String) (v : Value) :
    List (String × Value) :=
  if (members.lookup key).isSome then
    members.map fun member => if member.1 = key then (key, v) else member
  else members ++ [(key, v)]

mutual

/-- Read as a `Value`. -/
def JsonText.toValue : JsonText → Option Value
  | .null => some .null
  | .bool b => some (.bool b)
  | .number n => some (.number n)
  | .string s => some (.string s)
  | .array xs => (JsonText.elements xs).map .array
  | .object members => (JsonText.members members []).map .object
  | .unheld => none

/-- The elements of an array. -/
def JsonText.elements : List JsonText → Option (List Value)
  | [] => some []
  | t :: ts => do
    let v ← t.toValue
    let vs ← JsonText.elements ts
    return v :: vs

/-- The members of an object, after those that have been read. -/
def JsonText.members : List (String × JsonText) → List (String × Value) →
    Option (List (String × Value))
  | [], read => some read
  | (key, t) :: rest, read => do
    let v ← t.toValue
    JsonText.members rest (insertMember read key v)

end

/-- What a derived struct decoder finds for the fields `names`: the members of an
object, if it has none of them twice, or the elements of an array with one
element for each field. -/
def textFields (names : List String) : JsonText → Option (List (Option JsonText))
  | .object members =>
    if names.all fun name => decide ((members.map Prod.fst).count name ≤ 1) then
      some (names.map fun name => members.lookup name)
    else none
  | .array xs => if xs.length = names.length then some (xs.map some) else none
  | _ => none

/-- A field of type `Option<T>`: absent and null decode to `None`. -/
def optionText {α : Type} (decode : JsonText → Option α) : Option JsonText → Option (Option α)
  | none => some none
  | some .null => some none
  | some t => (decode t).map some

/-- The derived `Deserialize` of an error, from the text. -/
def JsonRpcError.ofText (t : JsonText) : Option JsonRpcError :=
  match textFields ["code", "message", "data"] t with
  | some [some (.number code), some (.string message), data] => do
    let code ← code.asI64
    let data ← optionText JsonText.toValue data
    return ⟨code, message, data⟩
  | _ => none

/-- The derived `Deserialize` of a response, from the text. -/
def JsonRpcResponse.ofText (t : JsonText) : Option JsonRpcResponse :=
  match textFields ["jsonrpc", "result", "error", "id"] t with
  | some [some (.string jsonrpc), result, error, id] => do
    let result ← optionText JsonText.toValue result
    let error ← optionText JsonRpcError.ofText error
    let id ← optionText JsonText.toValue id
    return ⟨jsonrpc, result, error, id⟩
  | _ => none

-- ---------------------------------------------------------------------------
-- The members of an object
-- ---------------------------------------------------------------------------

/-- What was inserted last under a name is what is found there. -/
theorem lookup_insertMember (members : List (String × Value)) (key name : String) (v : Value) :
    (insertMember members key v).lookup name =
      if name = key then some v else members.lookup name := by
  unfold insertMember
  split
  · next hkey =>
    induction members with
    | nil => cases hkey
    | cons member rest ih =>
      obtain ⟨first, w⟩ := member
      rw [List.map_cons, lookup_cons_if]
      by_cases hfirst : first = key
      · subst hfirst
        rw [if_pos rfl, lookup_cons_if]
        by_cases hname : name = first
        · rw [if_pos hname, if_pos hname]
        · rw [if_neg hname, if_neg hname, if_neg hname]
          -- nothing else is changed for another name
          have hrest : ∀ ms : List (String × Value), (ms.map fun member =>
              if member.1 = first then (first, v) else member).lookup name = ms.lookup name := by
            intro ms
            induction ms with
            | nil => rfl
            | cons m ms ihms =>
              obtain ⟨k, u⟩ := m
              rw [List.map_cons, lookup_cons_if]
              by_cases hk : k = first
              · subst hk
                rw [if_pos rfl, lookup_cons_if, if_neg hname, if_neg hname, ihms]
              · rw [if_neg hk, lookup_cons_if, ihms]
          exact hrest rest
      · rw [if_neg hfirst, lookup_cons_if]
        by_cases hname : name = first
        · have hother : name ≠ key := fun h => hfirst (hname.symm.trans h)
          rw [if_pos hname, if_neg hother, if_pos hname]
        · rw [lookup_cons_if, if_neg (Ne.symm hfirst)] at hkey
          rw [if_neg hname, if_neg hname, ih hkey]
  · next hkey =>
    rw [List.lookup_append, lookup_cons_if, List.lookup_nil]
    by_cases hname : name = key
    · subst hname
      rw [Bool.not_eq_true, Option.isSome_eq_false_iff, Option.isNone_iff_eq_none] at hkey
      rw [hkey, if_pos rfl, Option.none_or]
    · rw [if_neg hname, if_neg hname, Option.or_none]

/-- The members of a value are the last ones of the text, each with its value. -/
theorem lookup_members {ms : List (String × JsonText)} {read out : List (String × Value)}
    (h : JsonText.members ms read = some out) (name : String) :
    out.lookup name = match ms.reverse.lookup name with
      | some t => t.toValue
      | none => read.lookup name := by
  induction ms generalizing read with
  | nil =>
    rw [JsonText.members] at h
    cases h
    rfl
  | cons member rest ih =>
    obtain ⟨key, t⟩ := member
    rw [JsonText.members] at h
    obtain ⟨v, hv, h⟩ := Option.bind_eq_some_iff.mp h
    rw [ih h, List.reverse_cons, List.lookup_append]
    cases rest.reverse.lookup name with
    | some u => rfl
    | none =>
      dsimp only
      rw [lookup_insertMember, Option.none_or]
      by_cases hname : name = key
      · subst hname
        rw [if_pos rfl, List.lookup_cons_self]
        exact hv.symm
      · have hb : (name == key) = false := beq_false_of_ne hname
        rw [if_neg hname, List.lookup_cons, hb, List.lookup_nil]

/-- An object has a value just if all its members have. -/
theorem members_isSome_iff {ms : List (String × JsonText)} {read : List (String × Value)} :
    (JsonText.members ms read).isSome = true ↔ ∀ m ∈ ms, m.2.toValue.isSome = true := by
  induction ms generalizing read with
  | nil => simp [JsonText.members]
  | cons member rest ih =>
    obtain ⟨key, t⟩ := member
    rw [JsonText.members, List.forall_mem_cons]
    cases hv : t.toValue with
    | none => simp
    | some v =>
      rw [Option.bind_eq_bind, Option.bind_some, ih]
      simp

/-- A member that stands there once is found from either end. -/
theorem lookup_reverse {ms : List (String × JsonText)} {name : String}
    (h : (ms.map Prod.fst).count name ≤ 1) : ms.reverse.lookup name = ms.lookup name := by
  induction ms with
  | nil => rfl
  | cons member rest ih =>
    obtain ⟨key, t⟩ := member
    rw [List.reverse_cons, List.lookup_append]
    rw [List.map_cons, List.count_cons] at h
    by_cases hname : key = name
    · subst hname
      rw [beq_self_eq_true, if_pos rfl] at h
      have hnone : rest.reverse.lookup key = none := by
        refine List.lookup_eq_none_iff.mpr fun p hp => ?_
        have hcount : (rest.map Prod.fst).count key = 0 := by omega
        have habsent := List.count_eq_zero.mp hcount
        rw [bne_iff_ne]
        rintro rfl
        exact habsent (List.mem_map_of_mem (List.mem_reverse.mp hp))
      rw [hnone, Option.none_or, List.lookup_cons_self, List.lookup_cons_self]
    · have hb : (name == key) = false := beq_false_of_ne (Ne.symm hname)
      rw [ih (by omega), List.lookup_cons, List.lookup_cons, hb, List.lookup_nil, Option.or_none]

-- ---------------------------------------------------------------------------
-- Texts on which the readings go together
-- ---------------------------------------------------------------------------

/-- A text without a member that stands twice and without anything that has no value. -/
inductive JsonText.Plain : JsonText → Prop where
  | null : Plain .null
  | bool (b : Bool) : Plain (.bool b)
  | number (n : Number) : Plain (.number n)
  | string (s : String) : Plain (.string s)
  | array {xs : List JsonText} : (∀ t ∈ xs, Plain t) → Plain (.array xs)
  | object {members : List (String × JsonText)} : (members.map Prod.fst).Nodup →
      (∀ member ∈ members, Plain member.2) → Plain (.object members)

/-- The elements of an array that has a value, one by one. -/
theorem elements_eq_some {xs : List JsonText} {vs : List Value}
    (h : JsonText.elements xs = some vs) : xs.map JsonText.toValue = vs.map some := by
  induction xs generalizing vs with
  | nil =>
    rw [JsonText.elements] at h
    cases h
    rfl
  | cons t ts ih =>
    rw [JsonText.elements] at h
    obtain ⟨v, hv, h⟩ := Option.bind_eq_some_iff.mp h
    obtain ⟨rest, hrest, h⟩ := Option.bind_eq_some_iff.mp h
    cases h
    rw [List.map_cons, List.map_cons, hv, ih hrest]

/-- A struct decoder finds the same fields in such a text and in its value. -/
theorem structFields_toValue {t : JsonText} {v : Value} (hplain : t.Plain)
    (hv : t.toValue = some v) (names : List String) :
    structFields names v =
      (textFields names t).map (List.map fun field => field.bind JsonText.toValue) := by
  cases hplain with
  | array hxs =>
    rw [JsonText.toValue] at hv
    obtain ⟨vs, hvs, rfl⟩ := Option.map_eq_some_iff.mp hv
    have helements := elements_eq_some hvs
    have hlength := congrArg List.length helements
    rw [List.length_map, List.length_map] at hlength
    rw [structFields, textFields, hlength]
    split
    · rw [Option.map_some, List.map_map, ← helements]
      rfl
    · rfl
  | @object ms hnodup hms =>
    rw [JsonText.toValue] at hv
    obtain ⟨out, hout, rfl⟩ := Option.map_eq_some_iff.mp hv
    have honce : ∀ name, (ms.map Prod.fst).count name ≤ 1 := List.nodup_iff_count_le_one.mp hnodup
    rw [structFields, textFields, if_pos (List.all_eq_true.mpr fun name _ =>
      decide_eq_true (honce name)), Option.map_some, List.map_map]
    refine congrArg some (List.map_congr_left fun name _ => ?_)
    rw [lookup_members hout, lookup_reverse (honce name), Function.comp]
    cases ms.lookup name <;> rfl
  | _ =>
    rw [JsonText.toValue] at hv
    cases hv
    rfl

/-- An array has a value if all its elements have one. -/
theorem elements_isSome {xs : List JsonText} (h : ∀ t ∈ xs, t.toValue.isSome = true) :
    (JsonText.elements xs).isSome = true := by
  induction xs with
  | nil => rfl
  | cons t ts ih =>
    rw [List.forall_mem_cons] at h
    obtain ⟨v, hv⟩ := Option.isSome_iff_exists.mp h.1
    obtain ⟨vs, hvs⟩ := Option.isSome_iff_exists.mp (ih h.2)
    rw [JsonText.elements, hv, hvs]
    rfl

/-- A plain text has a value. -/
theorem JsonText.Plain.exists_toValue {t : JsonText} (h : t.Plain) : ∃ v, t.toValue = some v := by
  rw [← Option.isSome_iff_exists]
  induction h with
  | array _ ih => rw [JsonText.toValue, Option.isSome_map, elements_isSome ih]
  | object _ _ ih => rw [JsonText.toValue, Option.isSome_map, members_isSome_iff.mpr ih]
  | _ => rfl

/-- The fields that a decoder finds in a plain text are plain. -/
theorem JsonText.Plain.field {t : JsonText} (h : t.Plain) {names : List String}
    {fields : List (Option JsonText)} (hfields : textFields names t = some fields) {u : JsonText}
    (hu : some u ∈ fields) : u.Plain := by
  cases h with
  | array hxs =>
    obtain ⟨-, hsome⟩ := Option.ite_none_right_eq_some.mp hfields
    cases hsome
    obtain ⟨u', hu', heq⟩ := List.mem_map.mp hu
    cases heq
    exact hxs u hu'
  | object _ hms =>
    obtain ⟨-, hsome⟩ := Option.ite_none_right_eq_some.mp hfields
    cases hsome
    obtain ⟨name, -, hlookup⟩ := List.mem_map.mp hu
    obtain ⟨before, after, hsplit, -⟩ := List.lookup_eq_some_iff.mp hlookup
    exact hms (name, u) (by rw [hsplit]; simp)
  | _ => cases hfields

/-- Nothing but null is read as null. -/
theorem toValue_ne_null {u : JsonText} (h : u ≠ .null) : u.toValue ≠ some .null := by
  cases u <;> simp_all [JsonText.toValue]

/-- An optional value is read alike in both ways. -/
theorem optionText_toValue {o : Option JsonText} (h : ∀ u, o = some u → u.Plain) :
    optionText JsonText.toValue o = some (optionValue (o.bind JsonText.toValue)) := by
  cases o with
  | none => rfl
  | some u =>
    by_cases hnull : u = .null
    · subst hnull
      rfl
    · obtain ⟨v, hv⟩ := (h u rfl).exists_toValue
      have hne : v ≠ .null := fun hv' => toValue_ne_null hnull (hv' ▸ hv)
      rw [Option.bind_some, hv, optionValue_of_ne hne]
      cases u <;> first | exact absurd rfl hnull | exact congrArg (Option.map some) hv

/-- A string of the value is one of the text. -/
theorem toValue_eq_string {u : JsonText} {s : String} (h : u.toValue = some (.string s)) :
    u = .string s := by
  cases u <;> simp_all [JsonText.toValue]

/-- Nothing but a number is read as a number. -/
theorem toValue_eq_number {u : JsonText} {n : Number} (h : u.toValue = some (.number n)) :
    u = .number n := by
  cases u <;> simp_all [JsonText.toValue]

/-- An error object is decoded alike from a plain text and from its value. -/
theorem JsonRpcError.ofText_eq_ofValue {t : JsonText} {v : Value} (hplain : t.Plain)
    (hv : t.toValue = some v) : JsonRpcError.ofText t = JsonRpcError.ofValue v := by
  unfold JsonRpcError.ofText JsonRpcError.ofValue
  rw [structFields_toValue hplain hv]
  cases hfields : textFields ["code", "message", "data"] t with
  | none => rfl
  | some fields =>
    rw [Option.map_some]
    split
    · next code message data heq =>
      cases heq
      have hdata := optionText_toValue (o := data) fun u hu =>
        hplain.field hfields (by rw [hu]; simp)
      simp only [List.map_cons, List.map_nil, Option.bind_some, JsonText.toValue, hdata,
        Option.bind_eq_bind]
      cases code.asI64 <;> rfl
    · next hnone =>
      split
      · next code message data heq =>
        -- the value has such fields only if the text has
        obtain ⟨_, _, rfl, hcode, heq⟩ := List.map_eq_cons_iff.mp (Option.some.inj heq)
        obtain ⟨_, _, rfl, hmessage, heq⟩ := List.map_eq_cons_iff.mp heq
        obtain ⟨_, _, rfl, -, heq⟩ := List.map_eq_cons_iff.mp heq
        obtain rfl := List.map_eq_nil_iff.mp heq
        obtain ⟨u, rfl, hu⟩ := Option.bind_eq_some_iff.mp hcode
        obtain ⟨w, rfl, hw⟩ := Option.bind_eq_some_iff.mp hmessage
        rw [toValue_eq_number hu, toValue_eq_string hw] at hnone
        exact absurd rfl (hnone _ _ _)
      · rfl

/-- The error of a reply is decoded from a plain text as it is from its value. -/
theorem optionText_error {o : Option JsonText} (h : ∀ u, o = some u → u.Plain) :
    optionText JsonRpcError.ofText o =
      optionField JsonRpcError.ofValue (o.bind JsonText.toValue) := by
  cases o with
  | none => rfl
  | some u =>
    by_cases hnull : u = .null
    · subst hnull
      rfl
    · obtain ⟨v, hv⟩ := (h u rfl).exists_toValue
      have hne : v ≠ .null := fun hv' => toValue_ne_null hnull (hv' ▸ hv)
      have hsame := JsonRpcError.ofText_eq_ofValue (h u rfl) hv
      have htext : optionText JsonRpcError.ofText (some u) =
          (JsonRpcError.ofText u).map some := by
        cases u <;> first | exact absurd rfl hnull | rfl
      have hvalue : optionField JsonRpcError.ofValue (some v) =
          (JsonRpcError.ofValue v).map some := by
        cases v <;> first | exact absurd rfl hne | rfl
      rw [Option.bind_some, hv, htext, hvalue, hsame]

/-- **One decoding or two.** From a plain text a response is decoded as it is from
the value of the text. -/
theorem JsonRpcResponse.ofText_eq_ofValue {t : JsonText} {v : Value} (hplain : t.Plain)
    (hv : t.toValue = some v) : JsonRpcResponse.ofText t = JsonRpcResponse.ofValue v := by
  unfold JsonRpcResponse.ofText JsonRpcResponse.ofValue
  rw [structFields_toValue hplain hv]
  cases hfields : textFields ["jsonrpc", "result", "error", "id"] t with
  | none => rfl
  | some fields =>
    rw [Option.map_some]
    split
    · next jsonrpc result error id heq =>
      cases heq
      have hfield : ∀ {o}, o ∈ [some (JsonText.string jsonrpc), result, error, id] →
          ∀ u, o = some u → u.Plain := fun ho u hu => hplain.field hfields (hu ▸ ho)
      have hresult := optionText_toValue (hfield (o := result) (by simp))
      have herror := optionText_error (hfield (o := error) (by simp))
      have hid := optionText_toValue (hfield (o := id) (by simp))
      simp only [List.map_cons, List.map_nil, Option.bind_some, JsonText.toValue, hresult, herror,
        hid, Option.bind_eq_bind]
      cases optionField JsonRpcError.ofValue (error.bind JsonText.toValue) <;> rfl
    · next hnone =>
      split
      · next jsonrpc result error id heq =>
        obtain ⟨_, _, rfl, hversion, heq⟩ := List.map_eq_cons_iff.mp (Option.some.inj heq)
        obtain ⟨_, _, rfl, -, heq⟩ := List.map_eq_cons_iff.mp heq
        obtain ⟨_, _, rfl, -, heq⟩ := List.map_eq_cons_iff.mp heq
        obtain ⟨_, _, rfl, -, heq⟩ := List.map_eq_cons_iff.mp heq
        obtain rfl := List.map_eq_nil_iff.mp heq
        obtain ⟨u, rfl, hu⟩ := Option.bind_eq_some_iff.mp hversion
        rw [toValue_eq_string hu] at hnone
        exact absurd rfl (hnone _ _ _ _)
      · rfl

end Torpc
