import Torpc.Lib.Http

/-!
# Redirects that a client follows

One call that sends a request need not be one request on the wire. A client that
follows redirects, as HTTP clients do unless they are told otherwise, takes a
`3xx` reply with a location for an order to ask there instead, and asks again by
itself: after 307 and 308 with the same method and body, after 301, 302 and 303
with a GET and no body. Header fields of the caller's own go along.

`chain` is what such a client sends for one call, by the redirects it meets, and
`visited` is where it sends it. How many redirects it follows is a parameter.
-/

namespace Http

/-- A request as far as a redirect touches it: `F` are the fields that the caller
has set, which stay on it wherever it goes. -/
structure Message (F B : Type) where
  method : Method
  fields : F
  body : Option B
  deriving DecidableEq

/-- A reply that sends the client elsewhere: its status, and the place that its
`Location` names. -/
structure Hop (T : Type) where
  status : Nat
  location : T

/-- What a redirect with this status makes of a request, if it is one that the
client follows. -/
def Message.redirected {F B : Type} (m : Message F B) (status : Nat) : Option (Message F B) :=
  if status = 307 ∨ status = 308 then some m
  else if status = 301 ∨ status = 302 ∨ status = 303 then
    some { m with method := if m.method = .head then .head else .get, body := none }
  else none

/-- The requests of one call, each with the place it goes to: the first one, and
one for each redirect that is followed. -/
def chain {T F B : Type} : Nat → T → Message F B → List (Hop T) → List (T × Message F B)
  | n + 1, place, m, hop :: hops =>
    match m.redirected hop.status with
    | some m' => (place, m) :: chain n hop.location m' hops
    | none => [(place, m)]
  | _, place, m, _ => [(place, m)]

/-- Where one call leads, in the order in which the places are asked. -/
def visited {T : Type} : Nat → T → List (Hop T) → List T
  | n + 1, place, hop :: hops =>
    if hop.status = 307 ∨ hop.status = 308 ∨ hop.status = 301 ∨ hop.status = 302 ∨
        hop.status = 303 then
      place :: visited n hop.location hops
    else [place]
  | _, place, _ => [place]

variable {T F B : Type}

/-- A redirect is followed or not by its status alone, and what it makes of a
request has the same fields, with the same body or with none. -/
theorem Message.redirected_eq_some {m m' : Message F B} {status : Nat}
    (h : m.redirected status = some m') :
    m'.fields = m.fields ∧ (m'.body = m.body ∨ m'.body = none) := by
  unfold redirected at h
  split at h
  · cases h
    exact ⟨rfl, .inl rfl⟩
  · split at h
    · cases h
      exact ⟨rfl, .inr rfl⟩
    · cases h

/-- A client follows five statuses as redirects and no other. -/
theorem Message.redirected_isSome (m : Message F B) (status : Nat) :
    (m.redirected status).isSome = true ↔
      status = 307 ∨ status = 308 ∨ status = 301 ∨ status = 302 ∨ status = 303 := by
  unfold redirected
  split
  · next h => exact ⟨fun _ => h.elim .inl fun h => .inr (.inl h), fun _ => rfl⟩
  · next hkeep =>
    obtain ⟨h307, h308⟩ := not_or.mp hkeep
    split
    · next h => exact ⟨fun _ => .inr (.inr h), fun _ => rfl⟩
    · next hget =>
      refine ⟨fun h => absurd h (by simp), fun h => ?_⟩
      rcases h with h | h | h
      · exact absurd h h307
      · exact absurd h h308
      · exact absurd h hget

/-- The places of a chain do not depend on the request that is sent along it. -/
theorem map_fst_chain (n : Nat) (place : T) (m : Message F B) (hops : List (Hop T)) :
    (chain n place m hops).map Prod.fst = visited n place hops := by
  induction n generalizing place m hops with
  | zero => cases hops <;> rfl
  | succ n ih =>
    cases hops with
    | nil => rfl
    | cons hop hops =>
      have hfollowed := m.redirected_isSome hop.status
      rw [chain, visited]
      cases hm : m.redirected hop.status with
      | some m' =>
        rw [hm] at hfollowed
        rw [if_pos (hfollowed.mp rfl), List.map_cons, ih]
      | none =>
        rw [hm] at hfollowed
        rw [if_neg fun h => absurd (hfollowed.mpr h) (by simp)]
        rfl

/-- Whatever the redirects, every request of a chain has the fields of the first
one, and its body or none. -/
theorem chain_carries {n : Nat} {place place' : T} {m m' : Message F B} {hops : List (Hop T)}
    (h : (place', m') ∈ chain n place m hops) :
    m'.fields = m.fields ∧ (m'.body = m.body ∨ m'.body = none) := by
  induction n generalizing place m hops with
  | zero =>
    obtain ⟨-, rfl⟩ := Prod.mk.inj (List.mem_singleton.mp h)
    exact ⟨rfl, .inl rfl⟩
  | succ n ih =>
    cases hops with
    | nil =>
      obtain ⟨-, rfl⟩ := Prod.mk.inj (List.mem_singleton.mp h)
      exact ⟨rfl, .inl rfl⟩
    | cons hop hops =>
      rw [chain] at h
      cases hm : m.redirected hop.status with
      | none =>
        rw [hm] at h
        obtain ⟨-, rfl⟩ := Prod.mk.inj (List.mem_singleton.mp h)
        exact ⟨rfl, .inl rfl⟩
      | some next =>
        rw [hm] at h
        obtain ⟨hfields, hbody⟩ := Message.redirected_eq_some hm
        rcases List.mem_cons.mp h with hself | hrest
        · obtain ⟨-, rfl⟩ := Prod.mk.inj hself
          exact ⟨rfl, .inl rfl⟩
        · obtain ⟨hfields', hbody'⟩ := ih hrest
          refine ⟨hfields'.trans hfields, ?_⟩
          rcases hbody' with hsame | hnone
          · rw [hsame]
            exact hbody
          · exact .inr hnone

/-- A call is no more requests than the first one and the redirects that the
client is willing to follow. -/
theorem length_chain_le (n : Nat) (place : T) (m : Message F B) (hops : List (Hop T)) :
    (chain n place m hops).length ≤ n + 1 := by
  induction n generalizing place m hops with
  | zero => cases hops <;> exact Nat.le_refl 1
  | succ n ih =>
    cases hops with
    | nil => exact Nat.le_add_left 1 (n + 1)
    | cons hop hops =>
      rw [chain]
      split
      · have hrest := ih hop.location
        rw [List.length_cons]
        exact Nat.succ_le_succ (hrest _ hops)
      · exact Nat.le_add_left 1 (n + 1)

/-- Without redirects a call is one request. -/
@[simp] theorem chain_nil (n : Nat) (place : T) (m : Message F B) :
    chain n place m [] = [(place, m)] := by
  cases n <;> rfl

end Http
