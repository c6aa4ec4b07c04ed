import Mathlib.Data.List.TakeWhile

/-!
# HTTP requests and where a route table sends them

What a forwarding proxy and a router look at: the method, the target with its
path and query, and the headers. A header value has a character for each byte.
Targets are read and written as the `http` crate does it, so a proxy that takes a
target apart and builds it again can be compared with one that passes it on
(`PathAndQuery.parse_asStr`). A `Router` maps
literal paths to the methods they serve; a path that is not in the table goes to
the fallback, a method that a path in the table does not serve is refused.
-/

namespace Http

inductive Method where
  | get
  | head
  | post
  | put
  | delete
  | options
  | connect
  | patch
  | trace
  | extension (token : String)
  deriving DecidableEq, Repr

/-- The method a token names; methods are case-sensitive. -/
def Method.ofToken : String → Method
  | "GET" => .get
  | "HEAD" => .head
  | "POST" => .post
  | "PUT" => .put
  | "DELETE" => .delete
  | "OPTIONS" => .options
  | "CONNECT" => .connect
  | "PATCH" => .patch
  | "TRACE" => .trace
  | token => .extension token

-- ---------------------------------------------------------------------------
-- Targets
-- ---------------------------------------------------------------------------

/-- `http::uri::PathAndQuery`: the two parts as written. The path of an absolute
URL may be empty. -/
structure PathAndQuery where
  path : List Char
  query : Option (List Char)
  noMark : '?' ∉ path
  shape : path = [] ∨ (path = ['*'] ∧ query = none) ∨ path.head? = some '/'

namespace PathAndQuery

/-- Both parts as they stand in a URL. -/
def text (pq : PathAndQuery) : List Char :=
  pq.path ++ match pq.query with
    | none => []
    | some q => '?' :: q

/-- `PathAndQuery::as_str`. -/
def asStr (pq : PathAndQuery) : List Char := if pq.text = [] then ['/'] else pq.text

/-- `PathAndQuery::path`: an empty path is `/`. -/
def pathStr (pq : PathAndQuery) : String :=
  if pq.path = [] then "/" else String.ofList pq.path

/-- The path that a router sees depends on the path of the target alone, not on its query.
-/
theorem pathStr_congr {pq pq' : PathAndQuery} (h : pq'.path = pq.path) :
    pq'.pathStr = pq.pathStr := by
  rw [pathStr, pathStr, h]

/-- The part after the first `?`. -/
def queryOf (cs : List Char) : Option (List Char) :=
  match cs.dropWhile (· ≠ '?') with
  | [] => none
  | _ :: q => some q

/-- The first character of a text is before its question mark, unless it is the question
mark. -/
theorem takeWhile_head? {c : Char} {cs : List Char} (h : c ≠ '?') :
    ((c :: cs).takeWhile (· ≠ '?')).head? = some c := by
  simp [h]

/-- No question mark is in the part before the first one. -/
theorem mark_notMem_takeWhile (cs : List Char) : '?' ∉ cs.takeWhile (· ≠ '?') := by
  intro h
  have := List.mem_takeWhile_imp h
  simp at this

/-- A target in origin form, or the asterisk. Text that starts otherwise has no
path without an authority. -/
def parse : List Char → Option PathAndQuery
  | '/' :: cs => some
      { path := ('/' :: cs).takeWhile (· ≠ '?')
        query := queryOf ('/' :: cs)
        noMark := mark_notMem_takeWhile _
        shape := .inr (.inr (takeWhile_head? (by decide))) }
  | ['*'] => some ⟨['*'], none, by decide, .inr (.inl ⟨rfl, rfl⟩)⟩
  | _ => none

/-- The path is what stands before the question mark of the whole target. -/
theorem takeWhile_text (pq : PathAndQuery) : pq.text.takeWhile (· ≠ '?') = pq.path := by
  have hpath : ∀ c ∈ pq.path, decide (c ≠ '?') = true := fun c hc => by
    simp only [decide_eq_true_eq]
    rintro rfl
    exact pq.noMark hc
  unfold text
  rw [List.takeWhile_append_of_pos hpath]
  cases pq.query <;> simp

/-- A target whose path begins with a slash begins with one itself. -/
theorem rooted_text {pq : PathAndQuery} (h : pq.path.head? = some '/') :
    ∃ rest, pq.text = '/' :: rest := by
  unfold text
  cases hp : pq.path with
  | nil =>
    rw [hp] at h
    cases h
  | cons c cs =>
    rw [hp] at h
    cases h
    exact ⟨_, rfl⟩

/-- What is written down and read back keeps its path. -/
theorem parse_asStr {pq pq' : PathAndQuery} (h : parse pq.asStr = some pq') :
    pq'.pathStr = pq.pathStr := by
  rcases pq.shape with hpath | ⟨hpath, hquery⟩ | hpath
  · -- without a path, a query cannot be read back at all
    have hstr : pq.pathStr = "/" := by rw [pathStr, if_pos hpath]
    cases hq : pq.query with
    | none =>
      rw [asStr, if_pos (by simp [text, hpath, hq])] at h
      cases h
      rw [hstr]
      rfl
    | some q =>
      have htext : pq.text = '?' :: q := by simp [text, hpath, hq]
      rw [asStr, if_neg (by simp [htext]), htext] at h
      cases h
  · -- the asterisk form
    have htext : pq.text = ['*'] := by simp [text, hpath, hquery]
    rw [asStr, if_neg (by simp [htext]), htext] at h
    cases h
    exact pathStr_congr hpath.symm
  · -- everything up to the first question mark is read back as the path
    obtain ⟨rest, htext⟩ := rooted_text hpath
    have hread := pq.takeWhile_text
    rw [asStr, if_neg (by simp [htext]), htext] at h
    rw [htext] at hread
    cases h
    exact pathStr_congr hread

/-- A path that starts with `/` can be read back. -/
theorem exists_parse {pq : PathAndQuery} (h : pq.path.head? = some '/') :
    ∃ pq', parse pq.asStr = some pq' := by
  obtain ⟨rest, htext⟩ := rooted_text h
  rw [asStr, if_neg (by simp [htext]), htext]
  exact ⟨_, rfl⟩

end PathAndQuery

/-- The path that a client requests for an `http://` URL. -/
def urlPath (url : String) : String :=
  let ends (c : Char) := c = '/' ∨ c = '?' ∨ c = '#'
  let rest := (url.toList.drop "http://".length).dropWhile fun c => !decide (ends c)
  let path := rest.takeWhile fun c => decide (c ≠ '?') && decide (c ≠ '#')
  if path = [] then "/" else String.ofList path

/-- A URL that is all authority asks for `/`. -/
theorem urlPath_authority {authority : String}
    (h : ∀ c ∈ authority.toList, c ≠ '/' ∧ c ≠ '?' ∧ c ≠ '#') :
    urlPath ("http://" ++ authority) = "/" := by
  have hdrop : ("http://" ++ authority).toList.drop "http://".length = authority.toList := by
    rw [String.toList_append]
    rfl
  have hrest : (authority.toList.dropWhile fun c =>
      !decide (c = '/' ∨ c = '?' ∨ c = '#')) = [] := by
    refine List.dropWhile_eq_nil_iff.mpr fun c hc => ?_
    simp [h c hc]
  simp only [urlPath, hdrop, hrest]
  rfl

/-- A request. Header names are in lower case, a name can stand several times. -/
structure Request where
  method : Method
  target : Option PathAndQuery
  headers : List (String × String)
  body : List UInt8

/-- A response, with header names as in a request. -/
structure Response where
  status : Nat
  headers : List (String × String)
  body : List UInt8
  deriving DecidableEq, Repr

/-- `Uri::path`; a target in authority form has none. -/
def Request.path (req : Request) : String :=
  match req.target with
  | none => ""
  | some pq => pq.pathStr

-- ---------------------------------------------------------------------------
-- What is handed over
-- ---------------------------------------------------------------------------

/-- `http::Uri`, in any of its forms. -/
structure Uri where
  scheme : Option String
  authority : Option String
  pathAndQuery : PathAndQuery

/-- `Uri::path_and_query`: an authority by itself has none. -/
def Uri.target (uri : Uri) : Option PathAndQuery :=
  if uri.scheme.isSome || uri.authority.isNone then some uri.pathAndQuery else none

/-- A request as a server is handed it. Its header map is the list in which it is
gone through: names in lower case, the values of a name in their order. -/
structure IncomingRequest where
  method : Method
  uri : Uri
  headers : List (String × String)
  body : List UInt8

/-- What a proxy takes of it: of the target, neither scheme nor authority. -/
def IncomingRequest.parts (req : IncomingRequest) : Request :=
  ⟨req.method, req.uri.target, req.headers, req.body⟩

/-- The order in which a `HeaderMap` is gone through: the values of a name stand
together, where the name first stood. -/
def grouped (fields : List (String × String)) : List (String × String) :=
  (fields.map Prod.fst).eraseDups.flatMap fun name => fields.filter fun field => field.1 == name

/-- Names are kept in lower case. -/
def lowerName (field : String × String) : String × String := (field.1.toLower, field.2)

/-- A response as a server writes it. -/
structure WireResponse where
  status : Nat
  fields : List (String × String)

/-- The head of a response, as a client is handed it; the body is still to come. -/
def WireResponse.received (resp : WireResponse) : Response :=
  ⟨resp.status, grouped (resp.fields.map lowerName), []⟩

/-- Dropping elements by a property and dropping repetitions can be done in either order. -/
theorem eraseDups_filter {α : Type} [BEq α] [LawfulBEq α] (p : α → Bool) (l : List α) :
    (l.filter p).eraseDups = l.eraseDups.filter p := by
  induction hn : l.length using Nat.strong_induction_on generalizing l with
  | _ n ih =>
    cases l with
    | nil => rfl
    | cons a as =>
      have hlt : (as.filter fun b => !b == a).length < n := by
        have hle := List.length_filter_le (fun b => !b == a) as
        rw [List.length_cons] at hn
        omega
      have hrest := ih _ hlt (as.filter fun b => !b == a) rfl
      rw [List.eraseDups_cons]
      cases hp : p a with
      | true =>
        rw [List.filter_cons_of_pos hp, List.eraseDups_cons, List.filter_cons_of_pos hp, ← hrest,
          List.filter_filter, List.filter_filter]
        simp only [Bool.and_comm]
      | false =>
        -- the copies of `a` that go are not kept either
        have hsame : (as.filter fun b => !b == a).filter p = as.filter p := by
          rw [List.filter_filter]
          refine List.filter_congr fun b _ => ?_
          by_cases hb : b = a
          · subst hb
            rw [hp]
            rfl
          · simp [hb]
        rw [List.filter_cons_of_neg (by simp [hp]), List.filter_cons_of_neg (by simp [hp]), ← hrest,
          hsame]

/-- Fields that are dropped by their names do not show in the order of the rest. -/
theorem grouped_filter (keep : String → Bool) (fields : List (String × String)) :
    (grouped fields).filter (fun field => keep field.1) =
      grouped (fields.filter fun field => keep field.1) := by
  have hnames : (fields.filter fun field => keep field.1).map Prod.fst =
      (fields.map Prod.fst).filter keep := by
    rw [List.filter_map]
    rfl
  unfold grouped
  rw [hnames, eraseDups_filter]
  induction (fields.map Prod.fst).eraseDups with
  | nil => rfl
  | cons name names ih =>
    rw [List.flatMap_cons, List.filter_append, ih]
    cases hkeep : keep name with
    | true =>
      rw [List.filter_cons_of_pos hkeep, List.flatMap_cons, List.filter_filter, List.filter_filter]
      simp only [Bool.and_comm]
    | false =>
      have hnone : (fields.filter fun field => field.1 == name).filter (fun field => keep field.1) =
          [] := by
        refine List.filter_eq_nil_iff.mpr fun field hfield => ?_
        rw [beq_iff_eq.mp (List.mem_filter.mp hfield).2, hkeep]
        exact Bool.false_ne_true
      rw [List.filter_cons_of_neg (by simp [hkeep]), hnone, List.nil_append]

/-- Fields of one name are left in their order. -/
theorem grouped_of_forall {name : String} {fields : List (String × String)}
    (h : ∀ field ∈ fields, field.1 = name) : grouped fields = fields := by
  cases fields with
  | nil => rfl
  | cons field fields =>
    have hnone : ((fields.map Prod.fst).filter fun b => !b == field.1) = [] := by
      refine List.filter_eq_nil_iff.mpr fun b hb => ?_
      obtain ⟨field', hfield', rfl⟩ := List.mem_map.mp hb
      simp [h field' (List.mem_cons_of_mem _ hfield'), h field List.mem_cons_self]
    have hall : ((field :: fields).filter fun field' => field'.1 == field.1) = field :: fields := by
      refine List.filter_eq_self.mpr fun field' hfield' => ?_
      rw [h field' hfield', h field List.mem_cons_self, beq_self_eq_true]
    rw [grouped, List.map_cons, List.eraseDups_cons, hnone, List.eraseDups_nil,
      List.flatMap_singleton, hall]

/-- The fields of a name are the same, in the same order. -/
theorem filter_grouped (name : String) (fields : List (String × String)) :
    (grouped fields).filter (fun field => field.1 == name) =
      fields.filter fun field => field.1 == name := by
  rw [grouped_filter fun n => n == name]
  exact grouped_of_forall fun field hfield => beq_iff_eq.mp (List.mem_filter.mp hfield).2

/-- Text that `HeaderValue` accepts. -/
def isHeaderValue (s : String) : Bool :=
  s.toList.all fun c => (32 ≤ c.toNat && c.toNat ≠ 127) || c = '\t'

/-- The method and target of the request line at the front of a message. -/
def requestLine (message : List Char) : Option (Method × PathAndQuery) :=
  let line := message.takeWhile (· ≠ '\r')
  let afterMethod := (line.dropWhile (· ≠ ' ')).drop 1
  let version := (afterMethod.dropWhile (· ≠ ' ')).drop 1
  if version = "HTTP/1.1".toList ∨ version = "HTTP/1.0".toList then
    (PathAndQuery.parse (afterMethod.takeWhile (· ≠ ' '))).map fun pq =>
      (Method.ofToken (String.ofList (line.takeWhile (· ≠ ' '))), pq)
  else none

-- ---------------------------------------------------------------------------
-- Routing
-- ---------------------------------------------------------------------------

/-- The methods that one path serves. -/
structure MethodRouter (E : Type) where
  handlers : List (Method × E)

/-- `axum::routing::get` serves HEAD as well. -/
def get {E : Type} (e : E) : MethodRouter E := ⟨[(.get, e), (.head, e)]⟩

def post {E : Type} (e : E) : MethodRouter E := ⟨[(.post, e)]⟩

/-- Literal paths and their methods; other paths go to the fallback service. -/
structure Router (E : Type) where
  routes : List (String × MethodRouter E)

inductive Dispatch (E : Type) where
  | to (e : E)
  | methodNotAllowed
  | fallback
  deriving DecidableEq, Repr

def Router.dispatch {E : Type} (router : Router E) (method : Method) (path : String) :
    Dispatch E :=
  match router.routes.lookup path with
  | none => .fallback
  | some methods =>
    match methods.handlers.lookup method with
    | none => .methodNotAllowed
    | some e => .to e

/-- What a lookup finds is in the list. -/
theorem mem_of_lookup {α β : Type} [BEq α] [LawfulBEq α] {l : List (α × β)} {a : α} {b : β}
    (h : l.lookup a = some b) : (a, b) ∈ l := by
  obtain ⟨l₁, l₂, rfl, -⟩ := List.lookup_eq_some_iff.mp h
  simp

/-- A handler is reached through an entry of the table. -/
theorem Router.mem_of_dispatch {E : Type} {router : Router E} {method : Method} {path : String}
    {e : E} (h : router.dispatch method path = .to e) :
    ∃ methods, (path, methods) ∈ router.routes ∧ (method, e) ∈ methods.handlers := by
  unfold dispatch at h
  split at h
  · cases h
  · next methods hpath =>
    split at h
    · cases h
    · next e' hmethod =>
      cases h
      exact ⟨methods, mem_of_lookup hpath, mem_of_lookup hmethod⟩

end Http
