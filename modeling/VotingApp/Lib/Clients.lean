import Mathlib.Data.List.Pairwise
import VotingApp.Lib.PoolHistory

/- Clients in front of a machine. What is put into a client may send a request, and a request
   that is sent is a job of the machine. Its answer comes back at any later time and in any
   order, or the client is told that there is none. -/
namespace Clients
open EffectProgram CallPool PoolHistory

/-- What a client does at a time: its next state, the request that it sends, and what it does
outside of the page. The tag of a request is what its continuation remembers. -/
structure Turn (C Tag Req Out : Type) where
  next : C
  sent : Option (Tag × Req) := none
  out : List Out := []

/-- The program of the clients. -/
structure App (C V I Tag Req Ans Out : Type) where
  mount : V → Turn C Tag Req Out
  input : C → I → Option (Turn C Tag Req Out)
  settle : C → Tag → Option Ans → Turn C Tag Req Out

/-- A request of a client, and the job that serves it. -/
structure Flight (Tag Req : Type) where
  client : Nat
  tag : Tag
  req : Req
  job : Nat
  settled : Bool := false

/- Flights that have settled stay in the list. -/
structure Site (Cmd : Type) (Reply : Cmd → Type) (W O C Tag Req Ans : Type) where
  pool : Pool Cmd Reply W O Req Ans
  clients : List C := []
  flights : List (Flight Tag Req) := []

inductive Move (O E V I Req : Type) where
  | serve (l : Label O E Req)
  | mount (v : V)
  | input (i : Nat) (x : I)
  | land (k : Nat)
  | lose (k : Nat)

variable {Cmd : Type} {Reply : Cmd → Type} {W O E Req Ans C V I Tag Out : Type}

def answerAt (p : Pool Cmd Reply W O Req Ans) (i : Nat) : Option Ans :=
  p.jobs[i]?.bind fun job =>
    match job.rest with
    | .done a => some a
    | .call _ _ => none

/- The request of a client becomes the newest job. -/
def Site.send (m : Machine Cmd Reply W O E Req Ans) (s : Site Cmd Reply W O C Tag Req Ans) (i : Nat) :
    Option (Tag × Req) → Site Cmd Reply W O C Tag Req Ans
  | none => s
  | some (tag, req) => { s with
      pool := { s.pool with jobs := s.pool.jobs ++ [m.begin req] }
      flights := s.flights ++ [⟨i, tag, req, s.pool.jobs.length, false⟩] }

def Site.mounted (m : Machine Cmd Reply W O E Req Ans) (s : Site Cmd Reply W O C Tag Req Ans)
    (t : Turn C Tag Req Out) : Site Cmd Reply W O C Tag Req Ans :=
  Site.send m { s with clients := s.clients ++ [t.next] } s.clients.length t.sent

def Site.turned (m : Machine Cmd Reply W O E Req Ans) (s : Site Cmd Reply W O C Tag Req Ans) (i : Nat)
    (t : Turn C Tag Req Out) : Site Cmd Reply W O C Tag Req Ans :=
  Site.send m { s with clients := s.clients.set i t.next } i t.sent

def Site.close (s : Site Cmd Reply W O C Tag Req Ans) (k : Nat) (f : Flight Tag Req) :
    Site Cmd Reply W O C Tag Req Ans :=
  { s with flights := s.flights.set k { f with settled := true } }

/-- The turn of a client that is told the answer to its request, or that there is none. -/
def Site.told (app : App C V I Tag Req Ans Out) (s : Site Cmd Reply W O C Tag Req Ans)
    (f : Flight Tag Req) (a : Option Ans) : Option (Turn C Tag Req Out) :=
  if f.settled then none else s.clients[f.client]?.map fun c => app.settle c f.tag a

def Site.settle (app : App C V I Tag Req Ans Out) (m : Machine Cmd Reply W O E Req Ans)
    (s : Site Cmd Reply W O C Tag Req Ans) (k : Nat) (f : Flight Tag Req) (a : Option Ans) :
    Option (Site Cmd Reply W O C Tag Req Ans) :=
  (s.told app f a).map fun t => (s.close k f).turned m f.client t

def Site.step (app : App C V I Tag Req Ans Out) (m : Machine Cmd Reply W O E Req Ans)
    (s : Site Cmd Reply W O C Tag Req Ans) :
    Move O E V I Req → Option (Site Cmd Reply W O C Tag Req Ans)
  | .serve l => (m.step s.pool l).map fun p => { s with pool := p }
  | .mount v => some (s.mounted m (app.mount v))
  | .input i x => s.clients[i]?.bind fun c => (app.input c x).map (s.turned m i)
  | .land k => s.flights[k]?.bind fun f => (answerAt s.pool f.job).bind fun a =>
      s.settle app m k f (some a)
  | .lose k => s.flights[k]?.bind fun f => s.settle app m k f none

/-- What a client does outside of the page at a move. -/
def Site.outs (app : App C V I Tag Req Ans Out) (s : Site Cmd Reply W O C Tag Req Ans) :
    Move O E V I Req → List Out
  | .serve _ => []
  | .mount v => (app.mount v).out
  | .input i x => ((s.clients[i]?.bind fun c => app.input c x).map Turn.out).getD []
  | .land k => ((s.flights[k]?.bind fun f => (answerAt s.pool f.job).bind fun a =>
      s.told app f (some a)).map Turn.out).getD []
  | .lose k => ((s.flights[k]?.bind fun f => s.told app f none).map Turn.out).getD []

/- Runs whose every move is allowed. -/
inductive Visited (app : App C V I Tag Req Ans Out) (m : Machine Cmd Reply W O E Req Ans)
    (allow : Site Cmd Reply W O C Tag Req Ans → Move O E V I Req → Prop)
    (s₀ : Site Cmd Reply W O C Tag Req Ans) : Site Cmd Reply W O C Tag Req Ans → Prop where
  | refl : Visited app m allow s₀ s₀
  | tail {s s' : Site Cmd Reply W O C Tag Req Ans} {move : Move O E V I Req}
      (run : Visited app m allow s₀ s) (allowed : allow s move) (step : s.step app m move = some s') :
      Visited app m allow s₀ s'

def anyMove (_ : Site Cmd Reply W O C Tag Req Ans) (_ : Move O E V I Req) : Prop := True

def anyLabel (_ : Pool Cmd Reply W O Req Ans) (_ : Label O E Req) : Bool := true

def play (app : App C V I Tag Req Ans Out) (m : Machine Cmd Reply W O E Req Ans) :
    Site Cmd Reply W O C Tag Req Ans → List (Move O E V I Req) →
      Option (Site Cmd Reply W O C Tag Req Ans)
  | s, [] => some s
  | s, move :: moves => (s.step app m move).bind (play app m · moves)

/-- Every step that the moves make is such. -/
def Every (app : App C V I Tag Req Ans Out) (m : Machine Cmd Reply W O E Req Ans)
    (P : Site Cmd Reply W O C Tag Req Ans → Move O E V I Req → Site Cmd Reply W O C Tag Req Ans → Prop) :
    Site Cmd Reply W O C Tag Req Ans → List (Move O E V I Req) → Prop
  | _, [] => True
  | s, move :: moves => ∀ s', s.step app m move = some s' → P s move s' ∧ Every app m P s' moves

theorem answered_job {p : Pool Cmd Reply W O Req Ans} {i : Nat} {a : Ans} :
    answerAt p i = some a ↔ ∃ job, p.jobs[i]? = some job ∧ job.rest = .done a := by
  rw [answerAt, Option.bind_eq_some_iff]
  constructor
  · rintro ⟨job, at_i, is⟩
    split at is
    · rename_i b rest
      cases is
      exact ⟨job, at_i, rest⟩
    · cases is
  · rintro ⟨job, at_i, rest⟩
    refine ⟨job, at_i, ?_⟩
    rw [rest]

/-- What one move can do to the clients, their requests and the machine. -/
inductive Step (app : App C V I Tag Req Ans Out) (m : Machine Cmd Reply W O E Req Ans)
    (s : Site Cmd Reply W O C Tag Req Ans) :
    Move O E V I Req → Site Cmd Reply W O C Tag Req Ans → Prop where
  | serve {l : Label O E Req} {p : Pool Cmd Reply W O Req Ans} (step : m.step s.pool l = some p) :
      Step app m s (.serve l) { s with pool := p }
  | mount (v : V) : Step app m s (.mount v) (s.mounted m (app.mount v))
  | input {i : Nat} {x : I} {c : C} {t : Turn C Tag Req Out} (at_i : s.clients[i]? = some c)
      (takes : app.input c x = some t) : Step app m s (.input i x) (s.turned m i t)
  | settle {move : Move O E V I Req} {k : Nat} {f : Flight Tag Req} {c : C} {a : Option Ans}
      (at_k : s.flights[k]? = some f) (unsettled : f.settled = false)
      (at_client : s.clients[f.client]? = some c)
      (told : ∀ b, a = some b → answerAt s.pool f.job = some b) :
      Step app m s move ((s.close k f).turned m f.client (app.settle c f.tag a))

section Runs
variable {app : App C V I Tag Req Ans Out} {m : Machine Cmd Reply W O E Req Ans}
  {allow : Site Cmd Reply W O C Tag Req Ans → Move O E V I Req → Prop}
  {s₀ s s' : Site Cmd Reply W O C Tag Req Ans}

theorem told_some {f : Flight Tag Req} {a : Option Ans} {t : Turn C Tag Req Out}
    (h : s.told app f a = some t) :
    f.settled = false ∧ ∃ c, s.clients[f.client]? = some c ∧ app.settle c f.tag a = t := by
  rw [Site.told] at h
  split at h
  · cases h
  · rename_i unsettled
    exact ⟨Bool.eq_false_iff.mpr unsettled, Option.map_eq_some_iff.mp h⟩

theorem land_step {k : Nat} (h : s.step app m (.land k : Move O E V I Req) = some s') :
    ∃ f c a, s.flights[k]? = some f ∧ f.settled = false ∧ s.clients[f.client]? = some c ∧
      answerAt s.pool f.job = some a ∧
        s' = (s.close k f).turned m f.client (app.settle c f.tag (some a)) := by
  obtain ⟨f, at_k, answered⟩ := Option.bind_eq_some_iff.mp h
  obtain ⟨a, is_answer, settled⟩ := Option.bind_eq_some_iff.mp answered
  obtain ⟨t, told, rfl⟩ := Option.map_eq_some_iff.mp settled
  obtain ⟨unsettled, c, at_client, rfl⟩ := told_some told
  exact ⟨f, c, a, at_k, unsettled, at_client, is_answer, rfl⟩

theorem lose_step {k : Nat} (h : s.step app m (.lose k : Move O E V I Req) = some s') :
    ∃ f c, s.flights[k]? = some f ∧ f.settled = false ∧ s.clients[f.client]? = some c ∧
      s' = (s.close k f).turned m f.client (app.settle c f.tag none) := by
  obtain ⟨f, at_k, settled⟩ := Option.bind_eq_some_iff.mp h
  obtain ⟨t, told, rfl⟩ := Option.map_eq_some_iff.mp settled
  obtain ⟨unsettled, c, at_client, rfl⟩ := told_some told
  exact ⟨f, c, at_k, unsettled, at_client, rfl⟩

theorem turned_clients (i : Nat) (t : Turn C Tag Req Out) :
    (s.turned m i t).clients = s.clients.set i t.next := by
  rw [Site.turned]
  rcases t.sent with _ | ⟨tag, req⟩ <;> rfl

theorem step_sound {move : Move O E V I Req} (h : s.step app m move = some s') :
    Step app m s move s' := by
  cases move with
  | serve l =>
    obtain ⟨p, step, rfl⟩ := Option.map_eq_some_iff.mp h
    exact .serve step
  | mount v =>
    cases h
    exact .mount v
  | input i x =>
    obtain ⟨c, at_i, moved⟩ := Option.bind_eq_some_iff.mp h
    obtain ⟨t, takes, rfl⟩ := Option.map_eq_some_iff.mp moved
    exact .input at_i takes
  | land k =>
    obtain ⟨f, c, a, at_k, unsettled, at_client, is_answer, rfl⟩ := land_step h
    refine .settle at_k unsettled at_client fun b same => ?_
    rw [is_answer, same]
  | lose k =>
    obtain ⟨f, c, at_k, unsettled, at_client, rfl⟩ := lose_step h
    refine .settle at_k unsettled at_client fun b same => ?_
    cases same

theorem visited_inv {P : Site Cmd Reply W O C Tag Req Ans → Prop} (init : P s₀)
    (keep : ∀ s move s', P s → allow s move → Step app m s move s' → P s')
    (run : Visited app m allow s₀ s) : P s := by
  induction run with
  | refl => exact init
  | tail run allowed step ih => exact keep _ _ _ ih allowed (step_sound step)

theorem visited_of_play {moves : List (Move O E V I Req)} (h : play app m s₀ moves = some s) :
    Visited app m anyMove s₀ s := by
  suffices general : ∀ s₁, Visited app m anyMove s₀ s₁ → play app m s₁ moves = some s →
      Visited app m anyMove s₀ s from general s₀ .refl h
  clear h
  induction moves with
  | nil =>
    intro s₁ run played
    cases played
    exact run
  | cons move moves ih =>
    intro s₁ run played
    obtain ⟨s₂, step, rest⟩ := Option.bind_eq_some_iff.mp played
    exact ih s₂ (.tail run trivial step) rest

/-- The site that a list of moves leads to, when every one of them can be made. -/
def after (app : App C V I Tag Req Ans Out) (m : Machine Cmd Reply W O E Req Ans)
    (s : Site Cmd Reply W O C Tag Req Ans) (moves : List (Move O E V I Req)) :
    Site Cmd Reply W O C Tag Req Ans :=
  (play app m s moves).getD s

theorem visited_after {moves : List (Move O E V I Req)} (plays : (play app m s₀ moves).isSome = true) :
    Visited app m anyMove s₀ (after app m s₀ moves) := by
  obtain ⟨s, reached⟩ := Option.isSome_iff_exists.mp plays
  rw [after, reached, Option.getD_some]
  exact visited_of_play reached

/- What is the same of every step that can be reached is the same of every run. -/
theorem every_iff {P Q : Site Cmd Reply W O C Tag Req Ans → Move O E V I Req →
    Site Cmd Reply W O C Tag Req Ans → Prop}
    (same : ∀ s move s', Visited app m anyMove s₀ s → s.step app m move = some s' →
      (P s move s' ↔ Q s move s')) (moves : List (Move O E V I Req)) :
    Every app m P s₀ moves ↔ Every app m Q s₀ moves := by
  suffices general : ∀ s, Visited app m anyMove s₀ s → (Every app m P s moves ↔ Every app m Q s moves) from
    general s₀ .refl
  induction moves with
  | nil => exact fun _ _ => Iff.rfl
  | cons move moves ih =>
    intro s run
    have later : ∀ s', s.step app m move = some s' →
        (P s move s' ∧ Every app m P s' moves ↔ Q s move s' ∧ Every app m Q s' moves) :=
      fun s' step => and_congr (same s move s' run step) (ih s' (.tail run trivial step))
    exact forall_congr' fun s' => forall_congr' fun step => later s' step

theorem out_some {t : Option (Turn C Tag Req Out)} {out : Out} (there : out ∈ (t.map Turn.out).getD []) :
    ∃ turn, t = some turn ∧ out ∈ turn.out := by
  cases t with
  | none => cases there
  | some turn => exact ⟨turn, rfl, there⟩

theorem land_outs {k : Nat} {out : Out} (there : out ∈ s.outs app (.land k : Move O E V I Req)) :
    ∃ f c a, s.flights[k]? = some f ∧ s.clients[f.client]? = some c ∧ answerAt s.pool f.job = some a ∧
      out ∈ (app.settle c f.tag (some a)).out := by
  obtain ⟨turn, taken, inside⟩ := out_some there
  obtain ⟨f, at_k, answered⟩ := Option.bind_eq_some_iff.mp taken
  obtain ⟨a, is_answer, told⟩ := Option.bind_eq_some_iff.mp answered
  obtain ⟨-, c, at_client, rfl⟩ := told_some told
  exact ⟨f, c, a, at_k, at_client, is_answer, inside⟩

theorem lose_outs {k : Nat} {out : Out} (there : out ∈ s.outs app (.lose k : Move O E V I Req)) :
    ∃ f c, s.flights[k]? = some f ∧ s.clients[f.client]? = some c ∧
      out ∈ (app.settle c f.tag none).out := by
  obtain ⟨turn, taken, inside⟩ := out_some there
  obtain ⟨f, at_k, told⟩ := Option.bind_eq_some_iff.mp taken
  obtain ⟨-, c, at_client, rfl⟩ := told_some told
  exact ⟨f, c, at_k, at_client, inside⟩

theorem input_outs {i : Nat} {x : I} {out : Out}
    (there : out ∈ s.outs app (.input i x : Move O E V I Req)) :
    ∃ c t, app.input c x = some t ∧ out ∈ t.out := by
  obtain ⟨turn, taken, inside⟩ := out_some there
  obtain ⟨c, -, takes⟩ := Option.bind_eq_some_iff.mp taken
  exact ⟨c, turn, takes, inside⟩

/- Sending is a start of the machine. -/
theorem send_pool (i : Nat) (sent : Option (Tag × Req)) :
    (Site.send m s i sent).pool = s.pool ∨
      ∃ req, m.step s.pool (.start req) = some (Site.send m s i sent).pool := by
  rcases sent with _ | ⟨tag, req⟩
  · exact Or.inl rfl
  · exact Or.inr ⟨req, rfl⟩

/- The machine does what it does, whoever its requests come from. -/
theorem pool_step {move : Move O E V I Req} (step : Step app m s move s') :
    s'.pool = s.pool ∨ ∃ l, m.step s.pool l = some s'.pool := by
  have start : ∀ (t : Site Cmd Reply W O C Tag Req Ans) i (sent : Option (Tag × Req)),
      (Site.send m t i sent).pool = t.pool ∨
        ∃ l, m.step t.pool l = some (Site.send m t i sent).pool := by
    intro t i sent
    rcases @send_pool _ _ _ _ E _ _ _ _ m t i sent with same | ⟨req, started⟩
    · exact Or.inl same
    · exact Or.inr ⟨_, started⟩
  cases step with
  | serve step => exact Or.inr ⟨_, step⟩
  | mount v => exact start _ _ _
  | input => exact start _ _ _
  | settle => exact start _ _ _

theorem pool_reaches (run : Visited app m allow s₀ s) : Reaches m anyLabel s₀.pool s.pool := by
  refine visited_inv (P := fun t => Reaches m anyLabel s₀.pool t.pool) .refl ?_ run
  intro t move t' before _ step
  rcases pool_step step with same | ⟨l, moved⟩
  · rw [same]
    exact before
  · exact .tail before rfl moved

/-- A request is served by the job that was made for it. -/
def Served (p : Pool Cmd Reply W O Req Ans) (f : Flight Tag Req) : Prop :=
  ∃ job, p.jobs[f.job]? = some job ∧ job.req = f.req

theorem served_later {p p' : Pool Cmd Reply W O Req Ans} {l : Label O E Req}
    (step : m.step p l = some p') {f : Flight Tag Req} (served : Served p f) : Served p' f := by
  obtain ⟨job, at_job, asked⟩ := served
  obtain ⟨job', at_job', same, -⟩ := job_kept (CallPool.step_sound step) at_job
  exact ⟨job', at_job', same.trans asked⟩

/-- Requests of this kind are sent by mounting only, and until its own has settled a client stays
as fresh as mounting has left it. -/
structure Opening (app : App C V I Tag Req Ans Out) (kind : Tag → Bool) (fresh : C → Prop) : Prop where
  mount : ∀ v, fresh (app.mount v).next
  input : ∀ c x t, app.input c x = some t →
    (fresh c → fresh t.next) ∧ ∀ tag req, t.sent = some (tag, req) → kind tag = false
  settle : ∀ c tag a, (kind tag = false → fresh c → fresh (app.settle c tag a).next) ∧
    ∀ tag' req, (app.settle c tag a).sent = some (tag', req) → kind tag' = false

/-- Two requests that are not both of the kind and of one client. -/
def Apart (kind : Tag → Bool) (f g : Flight Tag Req) : Prop :=
  kind f.tag = true → kind g.tag = true → f.client ≠ g.client

instance (kind : Tag → Bool) : Std.Symm (@Apart Req Tag kind) where
  symm _ _ apart first second := Ne.symm (apart second first)

/-- Every client has sent at most one request of the kind, and is fresh until it settles. -/
structure Opened (kind : Tag → Bool) (fresh : C → Prop) (s : Site Cmd Reply W O C Tag Req Ans) : Prop where
  inside : ∀ f ∈ s.flights, f.client < s.clients.length
  apart : s.flights.Pairwise (Apart kind)
  fresh : ∀ f ∈ s.flights, kind f.tag = true → f.settled = false →
    ∀ c, s.clients[f.client]? = some c → fresh c

section Opening
variable {kind : Tag → Bool} {fresh : C → Prop}

/- A request of another kind changes nothing. -/
theorem opened_send (opened : Opened kind fresh s) {i : Nat} (here : i < s.clients.length)
    {sent : Option (Tag × Req)} (other : ∀ tag req, sent = some (tag, req) → kind tag = false) :
    Opened kind fresh (Site.send m s i sent) := by
  rcases sent with _ | ⟨tag, req⟩
  · exact opened
  · have not_kind := other tag req rfl
    constructor
    · intro f member
      rcases List.mem_append.mp member with old | new
      · exact opened.inside f old
      · rw [List.mem_singleton] at new
        rw [new]
        exact here
    · refine List.pairwise_append.mpr ⟨opened.apart, List.pairwise_singleton _ _, ?_⟩
      intro f _ g new _ is_kind
      rw [List.mem_singleton] at new
      rw [new, not_kind] at is_kind
      cases is_kind
    · intro f member is_kind
      rcases List.mem_append.mp member with old | new
      · exact opened.fresh f old is_kind
      · rw [List.mem_singleton] at new
        rw [new, not_kind] at is_kind
        cases is_kind

/- The newest client may send a request of the kind. -/
theorem opened_mounted (opened : Opened kind fresh s) {t : Turn C Tag Req Out} (new_fresh : fresh t.next) :
    Opened kind fresh (s.mounted m t) := by
  have grown : ∀ f ∈ s.flights, f.client < (s.clients ++ [t.next]).length := by
    intro f member
    have := opened.inside f member
    rw [List.length_append]
    omega
  have old_fresh : ∀ f ∈ s.flights, kind f.tag = true → f.settled = false →
      ∀ c, (s.clients ++ [t.next])[f.client]? = some c → fresh c := by
    intro f member is_kind unsettled c at_client
    rw [List.getElem?_append_left (opened.inside f member)] at at_client
    exact opened.fresh f member is_kind unsettled c at_client
  rcases sends : t.sent with _ | ⟨tag, req⟩
  · rw [Site.mounted, sends]
    exact ⟨grown, opened.apart, old_fresh⟩
  · rw [Site.mounted, sends]
    constructor
    · intro f member
      rcases List.mem_append.mp member with old | new
      · exact grown f old
      · rw [List.mem_singleton] at new
        subst f
        simp [Site.send]
    · refine List.pairwise_append.mpr ⟨opened.apart, List.pairwise_singleton _ _, ?_⟩
      intro f old g new _ _ same
      rw [List.mem_singleton] at new
      rw [new] at same
      exact absurd (opened.inside f old) (by rw [same]; exact Nat.lt_irrefl _)
    · intro f member is_kind unsettled c at_client
      rcases List.mem_append.mp member with old | new
      · exact old_fresh f old is_kind unsettled c at_client
      · rw [List.mem_singleton] at new
        subst f
        dsimp only [Site.send] at at_client
        rw [List.getElem?_concat_length, Option.some.injEq] at at_client
        rw [← at_client]
        exact new_fresh

theorem opened_turned (opened : Opened kind fresh s) {i : Nat} {c : C} (at_i : s.clients[i]? = some c)
    {t : Turn C Tag Req Out} (other : ∀ tag req, t.sent = some (tag, req) → kind tag = false)
    (stays : (∃ f ∈ s.flights, kind f.tag = true ∧ f.settled = false ∧ f.client = i) → fresh t.next) :
    Opened kind fresh (s.turned m i t) := by
  have inside := (List.getElem?_eq_some_iff.mp at_i).1
  apply opened_send
  · constructor
    · intro f member
      rw [List.length_set]
      exact opened.inside f member
    · exact opened.apart
    · intro f member is_kind unsettled d at_client
      by_cases same : f.client = i
      · rw [same, List.getElem?_set_self inside, Option.some.injEq] at at_client
        rw [← at_client]
        exact stays ⟨f, member, is_kind, unsettled, same⟩
      · rw [List.getElem?_set_ne (Ne.symm same)] at at_client
        exact opened.fresh f member is_kind unsettled d at_client
  · rw [List.length_set]
    exact inside
  · exact other

theorem opened_close (opened : Opened kind fresh s) {k : Nat} {f : Flight Tag Req}
    (at_k : s.flights[k]? = some f) : Opened kind fresh (s.close k f) := by
  constructor
  · intro g member
    rcases List.mem_or_eq_of_mem_set member with old | new
    · exact opened.inside g old
    · rw [new]
      exact opened.inside f (List.mem_of_getElem? at_k)
  · let sender (g : Flight Tag Req) : Nat × Tag := (g.client, g.tag)
    have senders : ∀ l : List (Flight Tag Req), (l.map sender).Pairwise (fun a b =>
        kind a.2 = true → kind b.2 = true → a.1 ≠ b.1) ↔ l.Pairwise (Apart kind) :=
      fun l => List.pairwise_map
    have same : (s.flights.set k { f with settled := true }).map sender = s.flights.map sender := by
      have at_sender : (s.flights.map sender)[k]? = some (sender f) := by
        rw [List.getElem?_map, at_k, Option.map_some]
      obtain ⟨within, is_sender⟩ := List.getElem?_eq_some_iff.mp at_sender
      rw [List.map_set, show sender { f with settled := true } = sender f from rfl, ← is_sender,
        List.set_getElem_self]
    rw [Site.close, ← senders, same, senders]
    exact opened.apart
  · intro g member is_kind unsettled
    rcases List.mem_or_eq_of_mem_set member with old | new
    · exact opened.fresh g old is_kind unsettled
    · rw [new] at unsettled
      cases unsettled

theorem opened_settled (opening : Opening app kind fresh) (opened : Opened kind fresh s) {k : Nat}
    {f : Flight Tag Req} (at_k : s.flights[k]? = some f) {c : C}
    (at_client : s.clients[f.client]? = some c) (a : Option Ans) :
    Opened kind fresh ((s.close k f).turned m f.client (app.settle c f.tag a)) := by
  have closed := opened_close opened at_k
  obtain ⟨stays, other⟩ := opening.settle c f.tag a
  apply opened_turned closed at_client other
  rintro ⟨g, member, is_kind, pending, same⟩
  cases mine : kind f.tag with
  | false =>
    rcases List.mem_or_eq_of_mem_set member with old | new
    · exact stays mine (opened.fresh g old is_kind pending c (by rw [same]; exact at_client))
    · rw [new] at pending
      cases pending
  | true =>
    -- The client's only request of the kind has settled.
    have inside : { f with settled := true } ∈ (s.close k f).flights :=
      List.mem_of_getElem? (List.getElem?_set_self (List.getElem?_eq_some_iff.mp at_k).1)
    have distinct : g ≠ { f with settled := true } := by
      intro equal
      rw [equal] at pending
      cases pending
    have apart : Apart kind g { f with settled := true } := closed.apart.forall member inside distinct
    exact absurd same (apart is_kind mine)

theorem opened_of_run (opening : Opening app kind fresh) {p₀ : Pool Cmd Reply W O Req Ans}
    (run : Visited app m allow ⟨p₀, [], []⟩ s) : Opened kind fresh s := by
  refine visited_inv (P := fun t => Opened kind fresh t) ?_ ?_ run
  · constructor
    · intro f member
      cases member
    · exact List.Pairwise.nil
    · intro f member
      cases member
  · intro t move t' opened _ step
    cases step with
    | serve step => exact ⟨opened.inside, opened.apart, opened.fresh⟩
    | mount v => exact opened_mounted opened (opening.mount v)
    | @input i x c turn at_i takes =>
      obtain ⟨stays, other⟩ := opening.input c x turn takes
      apply opened_turned opened at_i other
      rintro ⟨f, member, is_kind, pending, rfl⟩
      exact stays (opened.fresh f member is_kind pending c at_i)
    | settle at_k unsettled at_client told => exact opened_settled opening opened at_k at_client _

/- No request is of no kind. -/
theorem opening_none (app : App C V I Tag Req Ans Out) :
    Opening app (fun _ => false) (fun _ => True) where
  mount _ := trivial
  input _ _ _ _ := ⟨fun _ => trivial, fun _ _ _ => rfl⟩
  settle _ _ _ := ⟨fun _ _ => trivial, fun _ _ _ => rfl⟩

end Opening

/-- A turn leads to such a client, and sends such a request. -/
def Turn.Fits (P : C → Prop) (Q : Tag → Req → Prop) (t : Turn C Tag Req Out) : Prop :=
  P t.next ∧ ∀ tag req, t.sent = some (tag, req) → Q tag req

/-- What every turn keeps of the clients and of the requests they have sent, over any pool that the
machine reaches. An answer that settles a request is that of a job with this request. -/
structure Keeps (app : App C V I Tag Req Ans Out) (m : Machine Cmd Reply W O E Req Ans)
    (p₀ : Pool Cmd Reply W O Req Ans) (kind : Tag → Bool) (fresh : C → Prop)
    (P : Pool Cmd Reply W O Req Ans → C → Prop)
    (Q : Pool Cmd Reply W O Req Ans → Tag → Req → Prop) : Prop where
  grows : ∀ {p p' : Pool Cmd Reply W O Req Ans} {l : Label O E Req}, m.step p l = some p' →
    (∀ c, P p c → P p' c) ∧ ∀ tag req, Q p tag req → Q p' tag req
  mount : ∀ p v, (app.mount v).Fits (P p) (Q p)
  input : ∀ p c x t, P p c → app.input c x = some t → t.Fits (P p) (Q p)
  settle : ∀ p c tag req a, Reaches m anyLabel p₀ p → P p c → Q p tag req →
    (kind tag = true → fresh c) →
      (∀ b, a = some b → ∃ (i : Nat) (job : Job Cmd Reply Req Ans), p.jobs[i]? = some job ∧
        job.req = req ∧ job.rest = .done b) → (app.settle c tag a).Fits (P p) (Q p)

/-- All clients are such and all their requests, and every request has its job. -/
structure Holds (P : Pool Cmd Reply W O Req Ans → C → Prop)
    (Q : Pool Cmd Reply W O Req Ans → Tag → Req → Prop) (s : Site Cmd Reply W O C Tag Req Ans) : Prop where
  clients : ∀ c ∈ s.clients, P s.pool c
  flights : ∀ f ∈ s.flights, Q s.pool f.tag f.req ∧ Served s.pool f

section Keeping
variable {p₀ : Pool Cmd Reply W O Req Ans} {kind : Tag → Bool} {fresh : C → Prop}
  {P : Pool Cmd Reply W O Req Ans → C → Prop} {Q : Pool Cmd Reply W O Req Ans → Tag → Req → Prop}

theorem holds_later (keeps : Keeps app m p₀ kind fresh P Q) (held : Holds P Q s) {l : Label O E Req}
    {p : Pool Cmd Reply W O Req Ans} (step : m.step s.pool l = some p) :
    Holds P Q { s with pool := p } where
  clients c member := (keeps.grows step).1 c (held.clients c member)
  flights f member :=
    ⟨(keeps.grows step).2 _ _ (held.flights f member).1, served_later step (held.flights f member).2⟩

theorem holds_send (keeps : Keeps app m p₀ kind fresh P Q) (held : Holds P Q s) (i : Nat)
    {sent : Option (Tag × Req)} (fits : ∀ tag req, sent = some (tag, req) → Q s.pool tag req) :
    Holds P Q (Site.send m s i sent) := by
  rcases sent with _ | ⟨tag, req⟩
  · exact held
  · have started : m.step s.pool (.start req) =
        some { s.pool with jobs := s.pool.jobs ++ [m.begin req] } := rfl
    have later := holds_later keeps held started
    constructor
    · exact later.clients
    · intro f member
      rcases List.mem_append.mp member with old | new
      · exact later.flights f old
      · rw [List.mem_singleton] at new
        subst f
        constructor
        · exact (keeps.grows started).2 _ _ (fits tag req rfl)
        · exact ⟨m.begin req, List.getElem?_concat_length, rfl⟩

theorem holds_mounted (keeps : Keeps app m p₀ kind fresh P Q) (held : Holds P Q s) {t : Turn C Tag Req Out}
    (fits : t.Fits (P s.pool) (Q s.pool)) : Holds P Q (s.mounted m t) := by
  apply holds_send keeps
  · constructor
    · intro c member
      rcases List.mem_append.mp member with old | new
      · exact held.clients c old
      · rw [List.mem_singleton] at new
        rw [new]
        exact fits.1
    · exact held.flights
  · exact fits.2

theorem holds_turned (keeps : Keeps app m p₀ kind fresh P Q) (held : Holds P Q s) (i : Nat)
    {t : Turn C Tag Req Out} (fits : t.Fits (P s.pool) (Q s.pool)) : Holds P Q (s.turned m i t) := by
  apply holds_send keeps
  · constructor
    · intro c member
      rcases List.mem_or_eq_of_mem_set member with old | new
      · exact held.clients c old
      · rw [new]
        exact fits.1
    · exact held.flights
  · exact fits.2

theorem holds_close (held : Holds P Q s) {k : Nat} {f : Flight Tag Req} (at_k : s.flights[k]? = some f) :
    Holds P Q (s.close k f) := by
  constructor
  · exact held.clients
  · intro g member
    rcases List.mem_or_eq_of_mem_set member with old | new
    · exact held.flights g old
    · rw [new]
      exact held.flights f (List.mem_of_getElem? at_k)

/- Along every run, whatever the clients do and in whatever order answers come. -/
theorem holds_of_run (opening : Opening app kind fresh) (keeps : Keeps app m p₀ kind fresh P Q)
    (run : Visited app m allow ⟨p₀, [], []⟩ s) : Holds P Q s := by
  induction run with
  | refl => constructor <;> intro _ member <;> cases member
  | @tail t t' move run allowed step held =>
    have reached := pool_reaches run
    have opened := opened_of_run opening run
    cases step_sound step with
    | serve moved => exact holds_later keeps held moved
    | mount v => exact holds_mounted keeps held (keeps.mount _ v)
    | input at_i takes =>
      exact holds_turned keeps held _
        (keeps.input _ _ _ _ (held.clients _ (List.mem_of_getElem? at_i)) takes)
    | @settle move k f c a at_k unsettled at_client told =>
      have inside := List.mem_of_getElem? at_k
      obtain ⟨sent, served⟩ := held.flights f inside
      apply holds_turned keeps (holds_close held at_k)
      apply keeps.settle _ _ _ _ _ reached (held.clients _ (List.mem_of_getElem? at_client)) sent
      · intro is_kind
        exact opened.fresh f inside is_kind unsettled c at_client
      · intro b same
        obtain ⟨job, at_job, asked⟩ := served
        obtain ⟨job', at_job', finished⟩ := answered_job.mp (told b same)
        obtain rfl : job = job' := Option.some.inj (at_job.symm.trans at_job')
        exact ⟨f.job, job, at_job, asked, finished⟩

end Keeping
end Runs
end Clients
