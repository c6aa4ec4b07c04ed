import Torpc.Lib.Interleave

/-!
# Effects — clients of a server

A server of `Interleave.lean` and, in front of it, any number of clients. A
client runs a program of its own; at one of its operations it puts a request to
the server, later it may hear what the server has answered, and from then on
the answer shows in what its operations get. Anything else can reach the server
beside these clients.

What a client has heard is the server's answer to its own request, whatever the
order in which requests and answers cross:

* `run_server` — a run with clients is a run of the server;
* `asked_unique`, `asked_once` — a request has one client and a client one
  request;
* `left_course` — how a client has come to its end, and what it has heard.
-/

namespace Effects

open Lts

/-- Clients of a server. -/
structure Clients {Op : Type} {Res : Op → Type} {α : Type} (S : System Op Res α) (COp : Type)
    (CRes : COp → Type) (β : Type) where
  /-- What a client is started for. -/
  Job : Type
  prog : Job → Prog COp CRes β
  /-- An operation that puts a request to the server. -/
  asks : Job → COp → S.Job → Prop
  /-- The answers that an operation can get before and after the server's. -/
  answers : Job → Option α → (o : COp) → CRes o → Prop
  /-- What is heard of a request that the server has dropped. -/
  dropped : α → Prop
  /-- What comes of a client that is given up where it waits. -/
  givenUp : β → Prop

namespace Clients

variable {Op : Type} {Res : Op → Type} {α β : Type} {S : System Op Res α} {COp : Type}
  {CRes : COp → Type}

/-- A client at work. -/
structure Client (C : Clients S COp CRes β) where
  job : C.Job
  rest : Prog COp CRes β
  request : Option Nat
  heard : Option α

/-- The server, what it has done so far, and the clients. -/
structure Config (C : Clients S COp CRes β) where
  server : S.Config
  log : List S.Label
  clients : Nat → Option C.Client
  next : Nat

inductive Label (C : Clients S COp CRes β) where
  | server (l : S.Label)
  | came (k : Nat) (job : C.Job)
  | asked (k i : Nat) (v : S.Job)
  | heard (k i : Nat) (a : α)
  | act (k : Nat) (e : Event COp CRes)
  | left (k : Nat) (b : β)

variable {C : Clients S COp CRes β}

/-- The server before its first request, and no client. -/
def start (C : Clients S COp CRes β) (s : S.Shared) : C.Config :=
  ⟨S.start s, [], fun _ => none, 0⟩

/-- The server has come to an end with a request. -/
def Said (C : Clients S COp CRes β) (log : List S.Label) (i : Nat) (a : α) : Prop :=
  .done i a ∈ log ∨ .cancel i ∈ log ∧ C.dropped a

/-- The server with one request more. -/
def spawned (c : S.Config) (v : S.Job) : S.Config :=
  ⟨c.shared, Function.update c.threads c.next (some ⟨v, S.prog v⟩), c.next + 1⟩

namespace Config

/-- Client `k` goes on as `x`. -/
def put (w : C.Config) (k : Nat) (x : Option C.Client) : C.Config :=
  { w with clients := Function.update w.clients k x }

end Config

inductive Step (C : Clients S COp CRes β) : C.Config → C.Label → C.Config → Prop where
  | server (w : C.Config) (l : S.Label) (s : S.Config) (h : System.Step S w.server l s) :
      Step C w (.server l) { w with server := s, log := w.log ++ [l] }
  | came (w : C.Config) (job : C.Job) :
      Step C w (.came w.next job)
        { w.put w.next (some ⟨job, C.prog job, none, none⟩) with next := w.next + 1 }
  | asked (w : C.Config) (k : Nat) (job : C.Job) (o : COp) (c : CRes o → Prog COp CRes β)
      (v : S.Job) (hk : w.clients k = some ⟨job, .op o c, none, none⟩) (hv : C.asks job o v)
      (h : S.accepts w.server.shared v) :
      Step C w (.asked k w.server.next v)
        { w.put k (some ⟨job, .op o c, some w.server.next, none⟩) with
          server := spawned w.server v
          log := w.log ++ [.spawn w.server.next v] }
  | heard (w : C.Config) (k : Nat) (job : C.Job) (q : Prog COp CRes β) (i : Nat) (a : α)
      (hk : w.clients k = some ⟨job, q, some i, none⟩) (h : C.Said w.log i a) :
      Step C w (.heard k i a) (w.put k (some ⟨job, q, some i, some a⟩))
  | act (w : C.Config) (k : Nat) (job : C.Job) (o : COp) (c : CRes o → Prog COp CRes β)
      (request : Option Nat) (heard : Option α) (r : CRes o)
      (hk : w.clients k = some ⟨job, .op o c, request, heard⟩) (h : C.answers job heard o r) :
      Step C w (.act k ⟨o, r⟩) (w.put k (some ⟨job, c r, request, heard⟩))
  | left (w : C.Config) (k : Nat) (x : C.Client) (b : β) (hk : w.clients k = some x)
      (h : x.rest.returned = some b ∨ x.rest.returned = none ∧ C.givenUp b) :
      Step C w (.left k b) (w.put k none)

-- ---------------------------------------------------------------------------
-- The server's part of a run
-- ---------------------------------------------------------------------------

/-- What the server does in a step. -/
def Label.ofServer : C.Label → List S.Label
  | .server l => [l]
  | .asked _ i v => [.spawn i v]
  | _ => []

def serverLabels (ls : List C.Label) : List S.Label := ls.flatMap Label.ofServer

/-- What a run does at the server is what its parts do there, one after the other. -/
theorem serverLabels_append (ls ls' : List C.Label) :
    serverLabels (ls ++ ls') = serverLabels ls ++ serverLabels ls' := List.flatMap_append

/-- One step alone does at the server what its label says. -/
theorem serverLabels_single (l : C.Label) : serverLabels [l] = l.ofServer := by
  simp [serverLabels]

/-- Steps of the server by itself are just these steps. -/
theorem serverLabels_lift (ls : List S.Label) : serverLabels (C := C) (ls.map .server) = ls := by
  induction ls with
  | nil => rfl
  | cons l ls ih => exact congrArg (l :: ·) ih

/-- Clients that act by themselves do nothing at the server. -/
theorem serverLabels_acts (k : Nat) (tr : List (Event COp CRes)) :
    serverLabels (C := C) (tr.map (.act k)) = [] := by
  induction tr with
  | nil => rfl
  | cons e tr ih => exact ih

/-- A request that a client has put is a job that the server has taken. -/
theorem mem_serverLabels_asked {ls : List C.Label} {k i : Nat} {v : S.Job}
    (h : .asked k i v ∈ ls) : .spawn i v ∈ serverLabels ls :=
  List.mem_flatMap.mpr ⟨_, h, List.mem_singleton_self _⟩

/-- Seen from the server, a step of the whole is the steps that its label names, and the log
grows by them. -/
theorem step_server {w w' : C.Config} {l : C.Label} (h : Step C w l w') :
    Run (System.Step S) w.server l.ofServer w'.server ∧ w'.log = w.log ++ l.ofServer := by
  cases h with
  | server l s h => exact ⟨.single h, rfl⟩
  | asked k job o c v hk hv hacc => exact ⟨.single (.spawn w.server v hacc), rfl⟩
  | came | heard | act | left => exact ⟨.nil _, (List.append_nil _).symm⟩

/-- A run with clients is a run of the server. -/
theorem run_server {w w' : C.Config} {ls : List C.Label} (h : Run (Step C) w ls w') :
    Run (System.Step S) w.server (serverLabels ls) w'.server ∧
      w'.log = w.log ++ serverLabels ls := by
  induction h with
  | nil => exact ⟨.nil _, (List.append_nil _).symm⟩
  | snoc _ hstep ih =>
    obtain ⟨hrun, hlog⟩ := step_server hstep
    rw [serverLabels_append, serverLabels_single]
    refine ⟨ih.1.append hrun, ?_⟩
    rw [hlog, ih.2, List.append_assoc]

/-- So the log of a run is what the run has done at the server. -/
theorem run_log {s : S.Shared} {w : C.Config} {ls : List C.Label}
    (h : Run (Step C) (C.start s) ls w) : w.log = serverLabels ls := (run_server h).2

/-- What the server does by itself, while no client asks or hears anything, is a run of the
whole system. -/
theorem run_lift {w : C.Config} {ls : List S.Label} {s : S.Config}
    (h : Run (System.Step S) w.server ls s) :
    Run (Step C) w (ls.map .server) { w with server := s, log := w.log ++ ls } := by
  obtain ⟨server, log, clients, next⟩ := w
  induction h with
  | nil =>
    rw [List.append_nil]
    exact .nil _
  | snoc _ hstep ih =>
    rw [List.map_append, ← List.append_assoc]
    exact ih.snoc (.server _ _ _ hstep)

/-- What the server has said, it has said. -/
theorem Said.mono {log log' : List S.Label} {i : Nat} {a : α} (h : C.Said log i a)
    (hsub : ∀ l ∈ log, l ∈ log') : C.Said log' i a := by
  rcases h with h | ⟨h, ha⟩
  · exact .inl (hsub _ h)
  · exact .inr ⟨hsub _ h, ha⟩

-- ---------------------------------------------------------------------------
-- A client's part
-- ---------------------------------------------------------------------------

/-- The operations client `k` has performed, in order. -/
def actsOf (k : Nat) (ls : List C.Label) : List (Event COp CRes) :=
  ls.filterMap fun
    | .act j e => if j = k then some e else none
    | _ => none

/-- What a client has done in a run is what it has done in its parts. -/
theorem actsOf_append (k : Nat) (ls ls' : List C.Label) :
    actsOf k (ls ++ ls') = actsOf k ls ++ actsOf k ls' := List.filterMap_append

/-- An action of the client itself is an action of the client. -/
theorem actsOf_act (k : Nat) (e : Event COp CRes) : actsOf (C := C) k [.act k e] = [e] := by
  simp [actsOf]

/-- What is known of a client from the run so far. -/
structure Course (ls : List C.Label) (k : Nat) (x : C.Client) : Prop where
  came : .came k x.job ∈ ls
  trace : Trace (C.prog x.job) (actsOf k ls) x.rest
  asked : ∀ i, x.request = some i → ∃ v, .asked k i v ∈ ls
  request : ∀ i v, .asked k i v ∈ ls → x.request = some i
  heard : ∀ a, x.heard = some a → ∃ i, x.request = some i ∧ C.Said (serverLabels ls) i a
  answered : ∃ before after, actsOf k ls = before ++ after ∧
    (∀ e ∈ before, C.answers x.job none e.op e.res) ∧
    (∀ e ∈ after, C.answers x.job x.heard e.op e.res) ∧ (x.heard = none → after = [])

namespace Course

variable {ls : List C.Label} {k : Nat} {x : C.Client}

/-- A step that is not the client's. -/
theorem later (h : Course ls k x) {l : C.Label} (hact : actsOf k [l] = [])
    (hasked : ∀ i v, l ≠ .asked k i v) : Course (ls ++ [l]) k x := by
  have hacts : actsOf k (ls ++ [l]) = actsOf k ls := by
    rw [actsOf_append, hact, List.append_nil]
  constructor
  · exact List.mem_append_left _ h.came
  · rw [hacts]
    exact h.trace
  · intro i hi
    obtain ⟨v, hmem⟩ := h.asked i hi
    exact ⟨v, List.mem_append_left _ hmem⟩
  · intro i v hmem
    rcases List.mem_append.mp hmem with hmem | hmem
    · exact h.request i v hmem
    · exact absurd (List.mem_singleton.mp hmem).symm (hasked i v)
  · intro a ha
    obtain ⟨i, hi, hsaid⟩ := h.heard a ha
    refine ⟨i, hi, hsaid.mono fun l hl => ?_⟩
    rw [serverLabels_append]
    exact List.mem_append_left _ hl
  · rw [hacts]
    exact h.answered

end Course

/-- What is known of an id: nobody has come under it, or its client is known. -/
structure Known (ls : List C.Label) (w : C.Config) (k : Nat) : Prop where
  unborn : w.next ≤ k → w.clients k = none ∧ actsOf k ls = [] ∧ ∀ i v, .asked k i v ∉ ls
  known : ∀ x, w.clients k = some x → Course ls k x

/-- Before the first step nothing is known of anybody, and nobody is there. -/
theorem known_start (s : S.Shared) (k : Nat) : Known [] (C.start s) k :=
  ⟨fun _ => ⟨rfl, rfl, fun _ _ h => by cases h⟩, fun _ h => by cases h⟩

/-- A step that leaves client `k` where it is. -/
theorem Known.frame {ls : List C.Label} {w w' : C.Config} {l : C.Label} {k : Nat}
    (h : Known ls w k) (hact : actsOf k [l] = []) (hasked : ∀ i v, l ≠ .asked k i v)
    (hnext : w.next ≤ w'.next) (hk : w'.clients k = w.clients k ∨ w'.clients k = none) :
    Known (ls ++ [l]) w' k := by
  constructor
  · intro hle
    obtain ⟨hnone, hacts, hnot⟩ := h.unborn (Nat.le_trans hnext hle)
    refine ⟨?_, ?_, ?_⟩
    · rcases hk with hk | hk
      · rw [hk, hnone]
      · exact hk
    · rw [actsOf_append, hacts, hact]
      rfl
    · intro i v hmem
      rcases List.mem_append.mp hmem with hmem | hmem
      · exact hnot i v hmem
      · exact hasked i v (List.mem_singleton.mp hmem).symm
  · intro x hx
    rcases hk with hk | hk
    · exact (h.known x (hk ▸ hx)).later hact hasked
    · rw [hk] at hx
      cases hx

/-- A client that is there has a number that has been given away. -/
theorem known_lt {ls : List C.Label} {w : C.Config} {k : Nat} (h : Known ls w k) {x : C.Client}
    (hx : w.clients k = some x) : k < w.next := by
  by_contra hle
  rw [(h.unborn (Nat.le_of_not_lt hle)).1] at hx
  cases hx

/-- A step of client `k` itself keeps what is known of it, if its course so far explains
what it has come to. -/
theorem Known.own {ls : List C.Label} {w w' : C.Config} {l : C.Label} {k : Nat} {x x' : C.Client}
    (h : Known ls w k) (hx : w.clients k = some x) (hnext : w'.next = w.next)
    (hx' : w'.clients k = some x') (hcourse : Course (ls ++ [l]) k x') :
    Known (ls ++ [l]) w' k := by
  constructor
  · intro hle
    have hlt : k < w.next := known_lt h hx
    omega
  · intro y hy
    rw [hx'] at hy
    cases hy
    exact hcourse

/-- The client that has been put is the one that is found. -/
theorem Config.put_self (w : C.Config) (k : Nat) (x : Option C.Client) :
    (w.put k x).clients k = x := Function.update_self ..

/-- All the other clients are as they were. -/
theorem Config.put_ne (w : C.Config) {j k : Nat} (x : Option C.Client) (h : k ≠ j) :
    (w.put j x).clients k = w.clients k := Function.update_of_ne h ..

/-- An action of somebody else is no action of the client. -/
theorem actsOf_act_ne {j k : Nat} (h : j ≠ k) (e : Event COp CRes) :
    actsOf (C := C) k [.act j e] = [] := by simp [actsOf, h]

/-- Each step keeps what is known of the clients: the one that moves has one event more in
its trace, and the others have not moved. -/
theorem known_step {ls : List C.Label} {w w' : C.Config} {l : C.Label}
    (h : ∀ k, Known ls w k) (hlog : w.log = serverLabels ls) (hstep : Step C w l w') (k : Nat) :
    Known (ls ++ [l]) w' k := by
  cases hstep with
  | server l s hs => exact (h k).frame rfl (fun _ _ => nofun) (Nat.le_refl _) (.inl rfl)
  | came job =>
    by_cases hk : k = w.next
    · subst hk
      obtain ⟨-, hacts, hnot⟩ := (h w.next).unborn (Nat.le_refl _)
      have hacts : actsOf (C := C) w.next (ls ++ [.came w.next job]) = [] := by
        rw [actsOf_append, hacts]
        rfl
      constructor
      · intro hle
        exact absurd hle (Nat.not_succ_le_self _)
      · intro x hx
        rw [show (({ w.put w.next _ with next := w.next + 1 } : C.Config).clients w.next) = _
          from w.put_self w.next _] at hx
        cases hx
        refine ⟨?_, ?_, nofun, ?_, nofun, ?_⟩
        · exact List.mem_append_right _ (List.mem_singleton_self _)
        · rw [hacts]
          exact .nil _
        · intro i v hmem
          rcases List.mem_append.mp hmem with hmem | hmem
          · exact absurd hmem (hnot i v)
          · cases List.mem_singleton.mp hmem
        · exact ⟨[], [], hacts, nofun, nofun, fun _ => rfl⟩
    · exact (h k).frame rfl (fun _ _ => nofun) (Nat.le_succ _) (.inl (w.put_ne _ hk))
  | asked j job o c v hj hv hacc =>
    by_cases hk : k = j
    · subst hk
      have hc := (h k).known _ hj
      have hnone : ∀ i v, .asked k i v ∉ ls := fun i v hmem => nomatch hc.request i v hmem
      have hacts : actsOf (C := C) k (ls ++ [.asked k w.server.next v]) = actsOf k ls := by
        rw [actsOf_append]
        exact List.append_nil _
      refine (h k).own hj rfl (w.put_self k _) ⟨?_, ?_, ?_, ?_, nofun, ?_⟩
      · exact List.mem_append_left _ hc.came
      · rw [hacts]
        exact hc.trace
      · intro i hi
        cases hi
        exact ⟨v, List.mem_append_right _ (List.mem_singleton_self _)⟩
      · intro i v' hmem
        rcases List.mem_append.mp hmem with hmem | hmem
        · exact absurd hmem (hnone i v')
        · cases List.mem_singleton.mp hmem
          rfl
      · rw [hacts]
        exact hc.answered
    · refine (h k).frame rfl (fun i v' heq => ?_) (Nat.le_refl _) (.inl (w.put_ne _ hk))
      cases heq
      exact hk rfl
  | heard j job q i a hj hsaid =>
    by_cases hk : k = j
    · subst hk
      have hc := (h k).known _ hj
      have hlater := hc.later (l := .heard k i a) rfl fun _ _ => nofun
      refine (h k).own hj rfl (w.put_self k _) ⟨hlater.came, hlater.trace, hlater.asked,
        hlater.request, ?_, ?_⟩
      · intro a' ha
        cases ha
        refine ⟨i, rfl, ?_⟩
        rw [serverLabels_append, serverLabels_single, ← hlog]
        exact hsaid.mono fun l hl => List.mem_append_left _ hl
      · -- it has performed nothing since
        obtain ⟨before, after, hacts, hbefore, -, hnone⟩ := hlater.answered
        obtain rfl := hnone rfl
        exact ⟨before, [], hacts, hbefore, nofun, fun _ => rfl⟩
    · exact (h k).frame rfl (fun _ _ => nofun) (Nat.le_refl _) (.inl (w.put_ne _ hk))
  | act j job o c request heard r hj hr =>
    by_cases hk : k = j
    · subst hk
      have hc := (h k).known _ hj
      have hacts : actsOf (C := C) k (ls ++ [.act k ⟨o, r⟩]) = actsOf k ls ++ [⟨o, r⟩] := by
        rw [actsOf_append, actsOf_act]
      refine (h k).own hj rfl (w.put_self k _) ⟨?_, ?_, ?_, ?_, ?_, ?_⟩
      · exact List.mem_append_left _ hc.came
      · rw [hacts]
        exact hc.trace.snoc r
      · intro i hi
        obtain ⟨v, hmem⟩ := hc.asked i hi
        exact ⟨v, List.mem_append_left _ hmem⟩
      · intro i v hmem
        rcases List.mem_append.mp hmem with hmem | hmem
        · exact hc.request i v hmem
        · cases List.mem_singleton.mp hmem
      · intro a ha
        obtain ⟨i, hi, hsaid⟩ := hc.heard a ha
        refine ⟨i, hi, hsaid.mono fun l hl => ?_⟩
        rw [serverLabels_append]
        exact List.mem_append_left _ hl
      · obtain ⟨before, after, heq, hbefore, hafter, hnone⟩ := hc.answered
        rw [hacts, heq]
        cases heard with
        | none =>
          obtain rfl := hnone rfl
          refine ⟨before ++ [⟨o, r⟩], [], by simp, fun e he => ?_, nofun, fun _ => rfl⟩
          rcases List.mem_append.mp he with he | he
          · exact hbefore e he
          · obtain rfl := List.mem_singleton.mp he
            exact hr
        | some a =>
          refine ⟨before, after ++ [⟨o, r⟩], List.append_assoc .., hbefore, fun e he => ?_, nofun⟩
          rcases List.mem_append.mp he with he | he
          · exact hafter e he
          · obtain rfl := List.mem_singleton.mp he
            exact hr
    · exact (h k).frame (actsOf_act_ne (Ne.symm hk) _) (fun _ _ => nofun) (Nat.le_refl _)
        (.inl (w.put_ne _ hk))
  | left j x b hj hb =>
    by_cases hk : k = j
    · subst hk
      exact (h k).frame rfl (fun _ _ => nofun) (Nat.le_refl _) (.inr (w.put_self k _))
    · exact (h k).frame rfl (fun _ _ => nofun) (Nat.le_refl _) (.inl (w.put_ne _ hk))

/-- In every run each client's past is a trace of its program, and its request is the one
that it has put. -/
theorem run_known {s : S.Shared} {w : C.Config} {ls : List C.Label}
    (h : Run (Step C) (C.start s) ls w) : ∀ k, Known ls w k := by
  induction h with
  | nil => exact known_start s
  | snoc hrun hstep ih => exact known_step ih (run_log hrun) hstep

-- ---------------------------------------------------------------------------
-- Whose request is whose
-- ---------------------------------------------------------------------------

/-- A request has one client, and is one request. -/
theorem asked_unique {w w' : C.Config} {ls : List C.Label} (h : Run (Step C) w ls w')
    {k k' i : Nat} {v v' : S.Job} (hk : .asked k i v ∈ ls) (hk' : .asked k' i v' ∈ ls) :
    k = k' ∧ v = v' := by
  induction h with
  | nil => cases hk
  | @snoc w₁ w₂ ls l hrun hstep ih =>
    -- the server hands out ids that it has not handed out before
    have hfresh : ∀ {j u}, l = .asked j i u → ∀ {j' u'}, .asked j' i u' ∉ ls := by
      rintro j u rfl j' u' hmem
      have hlt : i < w₁.server.next :=
        System.run_spawn_lt (run_server hrun).1 (mem_serverLabels_asked hmem)
      cases hstep with
      | asked => exact Nat.lt_irrefl _ hlt
    rcases List.mem_append.mp hk with hk | hk <;> rcases List.mem_append.mp hk' with hk' | hk'
    · exact ih hk hk'
    · exact absurd hk (hfresh (List.mem_singleton.mp hk').symm)
    · exact absurd hk' (hfresh (List.mem_singleton.mp hk).symm)
    · cases (List.mem_singleton.mp hk).trans (List.mem_singleton.mp hk').symm
      exact ⟨rfl, rfl⟩

/-- A client puts one request to the server. -/
theorem asked_once {s : S.Shared} {w : C.Config} {ls : List C.Label}
    (h : Run (Step C) (C.start s) ls w) {k i i' : Nat} {v v' : S.Job} (hi : .asked k i v ∈ ls)
    (hi' : .asked k i' v' ∈ ls) : i = i' := by
  induction h with
  | nil => cases hi
  | @snoc w₁ w₂ ls l hrun hstep ih =>
    have hfirst : ∀ {j u}, l = .asked k j u → ∀ {j' u'}, .asked k j' u' ∉ ls := by
      rintro j u rfl j' u' hmem
      cases hstep with
      | asked k job o c v hk => cases ((run_known hrun k).known _ hk).request j' u' hmem
    rcases List.mem_append.mp hi with hi | hi <;> rcases List.mem_append.mp hi' with hi' | hi'
    · exact ih hi hi'
    · exact absurd hi (hfirst (List.mem_singleton.mp hi').symm)
    · exact absurd hi' (hfirst (List.mem_singleton.mp hi).symm)
    · cases (List.mem_singleton.mp hi).trans (List.mem_singleton.mp hi').symm
      rfl

/-- A client that has come has had its number since. -/
theorem came_lt {w w' : C.Config} {ls : List C.Label} (h : Run (Step C) w ls w') {k : Nat}
    {job : C.Job} (hk : .came k job ∈ ls) : k < w'.next := by
  induction h with
  | nil => cases hk
  | snoc _ hstep ih =>
    rcases List.mem_append.mp hk with hk | hk
    · refine Nat.lt_of_lt_of_le (ih hk) ?_
      cases hstep with
      | came => exact Nat.le_succ _
      | server | asked | heard | act | left => exact Nat.le_refl _
    · cases List.mem_singleton.mp hk
      cases hstep with
      | came => exact Nat.lt_succ_self _

/-- A number belongs to one client, so two arrivals under the same number brought the same
job. -/
theorem came_unique {w w' : C.Config} {ls : List C.Label} (h : Run (Step C) w ls w') {k : Nat}
    {job job' : C.Job} (hk : .came k job ∈ ls) (hk' : .came k job' ∈ ls) : job = job' := by
  induction h with
  | nil => cases hk
  | @snoc w₁ w₂ ls l hrun hstep ih =>
    have hfresh : ∀ {j}, l = .came k j → ∀ {j'}, .came k j' ∉ ls := by
      rintro j rfl j' hmem
      have hlt := came_lt hrun hmem
      cases hstep with
      | came => exact Nat.lt_irrefl _ hlt
    rcases List.mem_append.mp hk with hk | hk <;> rcases List.mem_append.mp hk' with hk' | hk'
    · exact ih hk hk'
    · exact absurd hk (hfresh (List.mem_singleton.mp hk').symm)
    · exact absurd hk' (hfresh (List.mem_singleton.mp hk).symm)
    · cases (List.mem_singleton.mp hk).trans (List.mem_singleton.mp hk').symm
      rfl

/-- Where a client was when it put its request: it had not heard anything yet. -/
theorem asked_course {s : S.Shared} {w : C.Config} {ls : List C.Label}
    (h : Run (Step C) (C.start s) ls w) {k i : Nat} {v : S.Job} (hasked : .asked k i v ∈ ls) :
    ∃ job tr o c, .came k job ∈ ls ∧ C.asks job o v ∧ Trace (C.prog job) tr (.op o c) ∧
      ∀ e ∈ tr, C.answers job none e.op e.res := by
  obtain ⟨pre, post, rfl⟩ := List.append_of_mem hasked
  obtain ⟨m, m', hrun, hstep, -⟩ := h.at_label
  cases hstep with
  | asked _ job o c _ hk hv =>
    have hc := (run_known hrun k).known _ hk
    obtain ⟨before, after, heq, hbefore, -, hnone⟩ := hc.answered
    obtain rfl := hnone rfl
    rw [List.append_nil] at heq
    exact ⟨job, _, o, c, List.mem_append_left _ hc.came, hv, hc.trace, heq ▸ hbefore⟩

/-- What a client has come to, and by which events. -/
structure Left (C : Clients S COp CRes β) (ls : List C.Label) (k : Nat) (job : C.Job)
    (tr : List (Event COp CRes)) (said : Option α) (b : β) : Prop where
  came : .came k job ∈ ls
  trace : Trace (C.prog job) tr (.pure b) ∨
    C.givenUp b ∧ ∃ o c, Trace (C.prog job) tr (.op o c)
  heard : ∀ a, said = some a → ∃ i v, .asked k i v ∈ ls ∧ C.Said (serverLabels ls) i a
  answered : ∀ pre e post, tr = pre ++ e :: post →
    C.answers job none e.op e.res ∨ ∀ e' ∈ e :: post, C.answers job said e'.op e'.res

/-- From the first answer on that shows what has been heard, all do. -/
theorem Course.answered_from {ls : List C.Label} {k : Nat} {x : C.Client} (h : Course ls k x)
    {pre post : List (Event COp CRes)} {e : Event COp CRes}
    (htr : actsOf k ls = pre ++ e :: post) :
    C.answers x.job none e.op e.res ∨ ∀ e' ∈ e :: post, C.answers x.job x.heard e'.op e'.res := by
  obtain ⟨before, after, heq, hbefore, hafter, -⟩ := h.answered
  rw [htr] at heq
  rcases List.append_eq_append_iff.mp heq with ⟨mid, hmid, hpost⟩ | ⟨mid, hpre, hmid⟩
  · cases mid with
    | nil =>
      have hpost : e :: post = after := hpost
      exact .inr fun e' he' => hafter e' (hpost ▸ he')
    | cons e₀ mid =>
      rw [List.cons_append, List.cons.injEq] at hpost
      refine .inl (hbefore e ?_)
      rw [hmid, hpost.1]
      exact List.mem_append_right _ List.mem_cons_self
  · exact .inr fun e' he' => hafter e' (hmid ▸ List.mem_append_right _ he')

/-- **The course of a client** that has come to its end. -/
theorem left_course {s : S.Shared} {w : C.Config} {ls : List C.Label}
    (h : Run (Step C) (C.start s) ls w) {k : Nat} {b : β} (hleft : .left k b ∈ ls) :
    ∃ job tr said, Left C ls k job tr said b := by
  obtain ⟨pre, post, rfl⟩ := List.append_of_mem hleft
  obtain ⟨m, m', hrun, hstep, -⟩ := h.at_label
  have hmem : ∀ l ∈ pre, l ∈ pre ++ .left k b :: post := fun l hl => List.mem_append_left _ hl
  have hlog : ∀ l ∈ serverLabels pre, l ∈ serverLabels (pre ++ .left k b :: post) := by
    intro l hl
    rw [serverLabels_append]
    exact List.mem_append_left _ hl
  cases hstep with
  | left _ x _ hk hb =>
    have hc : Course pre k x := (run_known hrun k).known x hk
    refine ⟨x.job, actsOf k pre, x.heard, hmem _ hc.came, ?_, ?_,
      fun _ _ _ => hc.answered_from⟩
    · rcases hb with hb | ⟨hb, hgiven⟩
      · exact .inl (Prog.eq_pure_of_returned hb ▸ hc.trace)
      · obtain ⟨o, c, hq⟩ := Prog.eq_op_of_returned hb
        exact .inr ⟨hgiven, o, c, hq ▸ hc.trace⟩
    · intro a ha
      obtain ⟨i, hi, hsaid⟩ := hc.heard a ha
      obtain ⟨v, hasked⟩ := hc.asked i hi
      exact ⟨i, v, hmem _ hasked, hsaid.mono hlog⟩

-- ---------------------------------------------------------------------------
-- A client that is alone with the server
-- ---------------------------------------------------------------------------

/-- The later of two clients that are put in one place is the one that stays. -/
theorem Config.put_put (w : C.Config) (k : Nat) (x y : Option C.Client) :
    (w.put k x).put k y = w.put k y := by
  unfold Config.put
  dsimp only
  rw [Function.update_idem]

/-- A client that is not answered by the server does what its program does, as long as its
surroundings answer it so. -/
theorem run_acts {w : C.Config} {k : Nat} {job : C.Job} {p q : Prog COp CRes β}
    {request : Option Nat} {heard : Option α} {tr : List (Event COp CRes)} (h : Trace p tr q)
    (hk : w.clients k = some ⟨job, p, request, heard⟩)
    (hanswers : ∀ e ∈ tr, C.answers job heard e.op e.res) :
    Run (Step C) w (tr.map (.act k)) (w.put k (some ⟨job, q, request, heard⟩)) := by
  induction h generalizing w with
  | nil p =>
    have hput : w.put k (some ⟨job, p, request, heard⟩) = w := by
      unfold Config.put
      rw [← hk, Function.update_eq_self]
    rw [hput]
    exact .nil w
  | @cons o c r tr q _ ih =>
    have hstep := Step.act w k job o c request heard r hk (hanswers _ List.mem_cons_self)
    have hrest := ih (w.put_self k _) fun e he => hanswers e (List.mem_cons_of_mem _ he)
    rw [Config.put_put] at hrest
    exact (Run.single hstep).append hrest

/-- It comes, and goes on as far as its request. -/
theorem run_asked {s : S.Shared} {job : C.Job} {o : COp} {c : CRes o → Prog COp CRes β}
    {v : S.Job} {tr : List (Event COp CRes)} (htr : Trace (C.prog job) tr (.op o c))
    (hnone : ∀ e ∈ tr, C.answers job none e.op e.res) (hasks : C.asks job o v)
    (haccepts : S.accepts s v) :
    ∃ w, Run (Step C) (C.start s) ([.came 0 job] ++ (tr.map (.act 0) ++ [.asked 0 0 v])) w ∧
      w.server = spawned (S.start s) v ∧ w.clients 0 = some ⟨job, .op o c, some 0, none⟩ := by
  let w₀ : C.Config :=
    { (C.start s).put 0 (some ⟨job, C.prog job, none, none⟩) with next := 1 }
  have hcame : Run (Step C) (C.start s) [.came 0 job] w₀ := .single (.came (C.start s) job)
  have hw₀ : w₀.clients 0 = some ⟨job, C.prog job, none, none⟩ := (C.start s).put_self 0 _
  have hready := run_acts htr hw₀ hnone
  have hasked := hready.snoc (.asked _ 0 job o c v (Config.put_self ..) hasks haccepts)
  exact ⟨_, hcame.append hasked, rfl,
    (w₀.put 0 (some ⟨job, .op o c, none, none⟩)).put_self 0 _⟩

/-- The server serves the request that a client waits for, from the start of its thread to
the answer, and the client hears it. -/
theorem run_heard {w : C.Config} {job : C.Job} {q : Prog COp CRes β} {s s' : S.Shared}
    {v : S.Job} {a : α} {tr : List (Event Op Res)} (hserver : w.server = spawned (S.start s) v)
    (hk : w.clients 0 = some ⟨job, q, some 0, none⟩)
    (h : Performs S.exec (S.prog v) s tr (.pure a) s') :
    ∃ w', Run (Step C) w
        ((tr.map (System.Label.act 0) ++ [System.Label.done 0 a]).map .server ++ [.heard 0 0 a])
        w' ∧ w'.clients 0 = some ⟨job, q, some 0, some a⟩ := by
  have hthread : (spawned (S.start s) v).threads 0 = some ⟨v, S.prog v⟩ := by
    simp [spawned, System.start]
  have hacts := System.run_performs h hthread
  rw [← hserver] at hacts
  have hdone := run_lift (hacts.snoc (.done _ 0 v a (by simp)))
  exact ⟨_, hdone.snoc (.heard _ 0 job q 0 a hk (.inl (by simp))), Config.put_self ..⟩

/-- A client that comes, is served and goes, before anything else happens. -/
theorem exists_left {s s' : S.Shared} {job : C.Job} {o : COp} {c : CRes o → Prog COp CRes β}
    {b : β} {v : S.Job} {a : α} {before after : List (Event COp CRes)} {tr : List (Event Op Res)}
    (hbefore : Trace (C.prog job) before (.op o c))
    (hnone : ∀ e ∈ before, C.answers job none e.op e.res) (hasks : C.asks job o v)
    (haccepts : S.accepts s v) (hserved : Performs S.exec (S.prog v) s tr (.pure a) s')
    (hafter : Trace (.op o c) after (.pure b))
    (hsome : ∀ e ∈ after, C.answers job (some a) e.op e.res) :
    ∃ ls w, Run (Step C) (C.start s) ls w ∧ .came 0 job ∈ ls ∧ .asked 0 0 v ∈ ls ∧
      .left 0 b ∈ ls ∧ serverLabels ls = .spawn 0 v :: tr.map (.act 0) ++ [.done 0 a] := by
  obtain ⟨w₁, hasked, hserver, hw₁⟩ := run_asked hbefore hnone hasks haccepts
  obtain ⟨w₂, hheard, hw₂⟩ := run_heard hserver hw₁ hserved
  have hrest := run_acts hafter hw₂ hsome
  have hleft := hrest.snoc (.left _ 0 _ b (Config.put_self ..) (.inl rfl))
  refine ⟨_, _, (hasked.append hheard).append hleft, by simp, by simp, by simp, ?_⟩
  simp only [serverLabels_append, serverLabels_acts, serverLabels_lift, serverLabels_single]
  simp [Label.ofServer]

end Clients

end Effects
