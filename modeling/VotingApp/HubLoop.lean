import Mathlib.Data.List.Induction
import VotingApp.HubDelivery

/-!
Hub.Run message by message and client by client. While the loop goes over its clients their
pumps go on, and so does ServeWS; only the loop itself adds and removes clients.
-/
namespace HubLoop
open GoText WsHub HubDelivery

/-- The loop waits at its select, or has taken a message and has still to come to some clients. -/
structure Loop where
  hub : Hub := {}
  pass : Option (Str × List Nat) := none
  deriving DecidableEq

inductive Turn where
  | send (msg : Str)
  | register
  | unregister (id : Nat)
  | take (msg : Str)
  | visit (id : Nat)
  | finish
  | sendToOne (id : Nat) (msg : Str)
  | startPumps (id : Nat)
  | pump (id : Nat)
  | pumpFail (id : Nat)
  deriving DecidableEq

/- The branch of the loop for the unregister channel, whoever sent the client. -/
def handleUnregister (h : Hub) (id : Nat) : Hub :=
  match h.clients[id]? with
  | none => h
  | some c =>
    if c.inHub then if c.closed then { h with panicked := true } else h.change id c.close
    else h

/-- Clients come and go only between two messages. A pass comes to every client that was there
when the message was taken, in any order. -/
def Loop.step (l : Loop) : Turn → Option Loop
  | .send msg => (l.hub.send msg).map fun hub => { l with hub := hub }
  | .register => if l.pass = none then some { l with hub := l.hub.register } else none
  | .unregister id => if l.pass = none then some { l with hub := handleUnregister l.hub id } else none
  | .take msg =>
    match l.pass, l.hub.queue with
    | none, first :: rest =>
      if first = msg then some ⟨{ l.hub with queue := rest }, some (msg, l.hub.registered)⟩ else none
    | _, _ => none
  | .visit id =>
    match l.pass with
    | some (msg, ids) =>
      if id ∈ ids then some ⟨l.hub.offer msg id, some (msg, ids.erase id)⟩ else none
    | none => none
  | .finish =>
    match l.pass with
    | some (_, []) => some { l with pass := none }
    | _ => none
  | .sendToOne id msg => some { l with hub := l.hub.sendToOne id msg }
  | .startPumps id => some { l with hub := l.hub.startPumps id }
  | .pump id => (l.hub.pump id Client.pumpStep).map fun hub => { l with hub := hub }
  | .pumpFail id => (l.hub.pump id Client.pumpFail).map fun hub => { l with hub := hub }

def Loop.run (l : Loop) (ms : List Turn) : Option Loop := ms.foldlM Loop.step l

theorem run_nil (l : Loop) : l.run [] = some l := rfl

theorem run_append {l l' : Loop} {a b : List Turn} :
    l.run (a ++ b) = some l' ↔ ∃ m, l.run a = some m ∧ m.run b = some l' := by
  rw [Loop.run, List.foldlM_append]
  exact Option.bind_eq_some_iff

theorem run_cons {l l' : Loop} {m : Turn} {ms : List Turn} :
    l.run (m :: ms) = some l' ↔ ∃ next, l.step m = some next ∧ next.run ms = some l' := by
  rw [Loop.run, List.foldlM_cons]
  exact Option.bind_eq_some_iff

theorem run_snoc {l l' : Loop} {m : Turn} {ms : List Turn} :
    l.run (ms ++ [m]) = some l' ↔ ∃ last, l.run ms = some last ∧ last.step m = some l' := by
  rw [run_append]
  simp [run_cons, run_nil]

/-- The broadcasts that the loop has taken from its channel. -/
def takes (ms : List Turn) : List Str := ms.filterMap fun
  | .take msg => some msg
  | _ => none

/-- The message of the pass that has still to come to the client. -/
def Loop.due (l : Loop) (id : Nat) : List Str :=
  match l.pass with
  | some (msg, ids) => if id ∈ ids then [msg] else []
  | none => []

/-- What the moves that do not concern the client leave alone. -/
@[ext] structure Sight where
  queue : List Str
  count : Nat
  client : Option Client
  due : List Str

def Loop.sight (l : Loop) (id : Nat) : Sight where
  queue := l.hub.queue
  count := l.hub.clients.length
  client := l.hub.clients[id]?
  due := l.due id

/-- The moves of the client itself and of the loop as a whole: not what other clients consume,
and not how they are served or lost. -/
def concerns (id : Nat) : Turn → Bool
  | .send _ | .register | .take _ => true
  | .unregister i | .visit i | .sendToOne i _ | .startPumps i | .pump i | .pumpFail i => i = id
  | .finish => false

def leave (c : Client) : Client := if c.inHub && !c.closed then c.close else c

def offered (msg : Str) (c : Client) : Client := if c.closed then c else c.offer msg

def pushed (msg : Str) (c : Client) : Client :=
  if !c.closed && c.buffer.length < channelSize then c.put .snapshot msg else c

/-- What one move makes of the sight of a client. -/
def Sight.follow (id : Nat) (s : Sight) : Turn → Sight
  | .send msg => { s with queue := s.queue ++ [msg] }
  | .register =>
    { s with count := s.count + 1, client := if id = s.count then some { inHub := true } else s.client }
  | .unregister i => if i = id then { s with client := s.client.map leave } else s
  | .take msg =>
    { s with queue := s.queue.tail, due := if s.client.any Client.inHub then [msg] else [] }
  | .visit i =>
    if i = id then { s with client := s.due.foldl (fun c msg => c.map (offered msg)) s.client, due := [] }
    else s
  | .finish => s
  | .sendToOne i msg => if i = id then { s with client := s.client.map (pushed msg) } else s
  | .startPumps i =>
    if i = id then { s with client := s.client.map fun c => { c with pump := .idle } } else s
  | .pump i => if i = id then { s with client := s.client.bind Client.pumpStep } else s
  | .pumpFail i => if i = id then { s with client := s.client.bind Client.pumpFail } else s

theorem follow_unconcerned {id : Nat} {m : Turn} (other : concerns id m = false) (s : Sight) :
    s.follow id m = s := by
  cases m with
  | send msg => cases other
  | register => cases other
  | take msg => cases other
  | finish => rfl
  | _ => exact if_neg (by simpa [concerns] using other)

section Clients
variable {f : Client → Client}

theorem modify_at (cs : List Client) (i id : Nat) :
    (cs.modify i f)[id]? = if i = id then cs[id]?.map f else cs[id]? := by
  rw [List.getElem?_modify]
  by_cases same : i = id <;> simp [same]

theorem modify_changed {h : Hub} {i : Nat} {c : Client} (at_i : h.clients[i]? = some c) :
    (h.change i (f c)).clients = h.clients.modify i f := by
  apply List.ext_getElem?
  intro id
  have inside : i < h.clients.length := (List.getElem?_eq_some_iff.mp at_i).1
  rw [modify_at]
  by_cases same : i = id
  · subst id
    simp [Hub.change, List.getElem?_set_self inside, at_i]
  · simp [Hub.change, List.getElem?_set_ne same, same]

theorem modify_unchanged {h : Hub} {i : Nat} (kept : ∀ c, h.clients[i]? = some c → f c = c) :
    h.clients = h.clients.modify i f := by
  apply List.ext_getElem?
  intro id
  rw [modify_at]
  by_cases same : i = id
  · subst id
    cases at_i : h.clients[i]? with
    | none => simp
    | some c => simp [kept c at_i]
  · simp [same]

theorem unregister_clients (h : Hub) (i : Nat) :
    (handleUnregister h i).clients = h.clients.modify i leave := by
  unfold handleUnregister
  cases at_i : h.clients[i]? with
  | none => exact modify_unchanged fun c there => by rw [at_i] at there; cases there
  | some c =>
    dsimp only
    split
    · rename_i inHub
      split
      · rename_i closed
        apply modify_unchanged
        intro c' there
        rw [at_i, Option.some.injEq] at there
        simp [← there, leave, closed]
      · rename_i open_
        rw [← modify_changed at_i]
        simp [leave, inHub, open_]
    · rename_i out
      apply modify_unchanged
      intro c' there
      rw [at_i, Option.some.injEq] at there
      simp [← there, leave, out]

theorem offer_clients (msg : Str) (h : Hub) (i : Nat) :
    (h.offer msg i).clients = h.clients.modify i (offered msg) := by
  apply List.ext_getElem?
  intro id
  rw [offer_client, modify_at]
  by_cases same : id = i
  · subst id
    simp only [↓reduceIte]
    rfl
  · rw [if_neg same, if_neg (Ne.symm same)]

theorem sendToOne_clients (h : Hub) (i : Nat) (msg : Str) :
    (h.sendToOne i msg).clients = h.clients.modify i (pushed msg) := by
  unfold Hub.sendToOne
  cases at_i : h.clients[i]? with
  | none => exact modify_unchanged fun c there => by rw [at_i] at there; cases there
  | some c =>
    dsimp only
    split
    · rename_i closed
      apply modify_unchanged
      intro c' there
      rw [at_i, Option.some.injEq] at there
      simp [← there, pushed, closed]
    · rename_i open_
      split
      · rename_i room
        rw [← modify_changed at_i]
        simp [pushed, open_, room]
      · rename_i full
        apply modify_unchanged
        intro c' there
        rw [at_i, Option.some.injEq] at there
        simp [← there, pushed, full]

theorem startPumps_clients (h : Hub) (i : Nat) :
    (h.startPumps i).clients = h.clients.modify i fun c => { c with pump := .idle } := by
  unfold Hub.startPumps
  cases at_i : h.clients[i]? with
  | none => exact modify_unchanged fun c there => by rw [at_i] at there; cases there
  | some c =>
    dsimp only
    rw [← modify_changed at_i]

theorem pump_client {move : Client → Option Client} {h h' : Hub} {i : Nat}
    (moved : h.pump i move = some h') (id : Nat) :
    h'.clients[id]? = if i = id then h.clients[id]?.bind move else h.clients[id]? := by
  obtain ⟨c, at_i, stepped⟩ := Option.bind_eq_some_iff.mp moved
  obtain ⟨c', step, rfl⟩ := Option.map_eq_some_iff.mp stepped
  have inside : i < h.clients.length := (List.getElem?_eq_some_iff.mp at_i).1
  by_cases same : i = id
  · subst id
    simp [Hub.change, List.getElem?_set_self inside, at_i, step]
  · simp [Hub.change, List.getElem?_set_ne same, same]

theorem unregister_queue (h : Hub) (i : Nat) : (handleUnregister h i).queue = h.queue := by
  unfold handleUnregister
  split
  · rfl
  · split
    · split <;> rfl
    · rfl

theorem sendToOne_queue (h : Hub) (i : Nat) (msg : Str) : (h.sendToOne i msg).queue = h.queue := by
  unfold Hub.sendToOne
  split
  · rfl
  · split
    · rfl
    · split <;> rfl

theorem startPumps_queue (h : Hub) (i : Nat) : (h.startPumps i).queue = h.queue := by
  unfold Hub.startPumps
  split <;> rfl

/- One client is given another state and everything else stays. -/
theorem sight_modified {l : Loop} {hub : Hub} {i : Nat}
    (clients : hub.clients = l.hub.clients.modify i f) (queue : hub.queue = l.hub.queue) (id : Nat) :
    ({ l with hub := hub } : Loop).sight id =
      if i = id then { l.sight id with client := (l.sight id).client.map f } else l.sight id := by
  have count : hub.clients.length = l.hub.clients.length := by rw [clients, List.length_modify]
  have client := modify_at (f := f) l.hub.clients i id
  rw [← clients] at client
  by_cases same : i = id
  · rw [if_pos same] at client ⊢
    exact Sight.ext queue count client rfl
  · rw [if_neg same] at client ⊢
    exact Sight.ext queue count client rfl

theorem sight_pumped {move : Client → Option Client} {l : Loop} {hub : Hub} {i : Nat}
    (moved : l.hub.pump i move = some hub) (id : Nat) : ({ l with hub := hub } : Loop).sight id =
      if i = id then { l.sight id with client := (l.sight id).client.bind move } else l.sight id := by
  have client := pump_client moved id
  obtain ⟨c, at_i, stepped⟩ := Option.bind_eq_some_iff.mp moved
  obtain ⟨c', step, rfl⟩ := Option.map_eq_some_iff.mp stepped
  by_cases same : i = id
  · rw [if_pos same] at client ⊢
    exact Sight.ext rfl List.length_set client rfl
  · rw [if_neg same] at client ⊢
    exact Sight.ext rfl List.length_set client rfl

end Clients

theorem mem_erase_other {ids : List Nat} {id i : Nat} (other : i ≠ id) :
    id ∈ ids.erase i ↔ id ∈ ids := List.mem_erase_of_ne (Ne.symm other)

/- What a client is sent can be followed without the other clients. -/
theorem step_sight {l l' : Loop} {m : Turn} (moved : l.step m = some l') (id : Nat)
    (distinct : ∀ msg ids, l.pass = some (msg, ids) → ids.Nodup) :
    l'.sight id = (l.sight id).follow id m := by
  cases m with
  | send msg =>
    obtain ⟨hub, sent, rfl⟩ := Option.map_eq_some_iff.mp moved
    unfold Hub.send at sent
    split at sent
    · cases sent
      rfl
    · cases sent
  | register =>
    obtain ⟨idle, same⟩ := Option.ite_none_right_eq_some.mp moved
    cases same
    apply Sight.ext
    · rfl
    · exact List.length_append
    · change (l.hub.clients ++ [_])[id]? = if id = l.hub.clients.length then _ else l.hub.clients[id]?
      rw [List.getElem?_append]
      rcases Nat.lt_trichotomy id l.hub.clients.length with below | here | above
      · rw [if_pos below, if_neg (by omega)]
      · simp [here]
      · rw [if_neg (by omega), if_neg (by omega), List.getElem?_eq_none (by simp; omega),
          List.getElem?_eq_none (by omega)]
    · rfl
  | unregister i =>
    obtain ⟨idle, same⟩ := Option.ite_none_right_eq_some.mp moved
    cases same
    exact sight_modified (unregister_clients l.hub i) (unregister_queue l.hub i) id
  | take msg =>
    unfold Loop.step at moved
    dsimp only at moved
    split at moved
    · rename_i first rest idle queue
      obtain ⟨rfl, same⟩ := Option.ite_none_right_eq_some.mp moved
      cases same
      apply Sight.ext
      · simp [Loop.sight, Sight.follow, queue]
      · rfl
      · rfl
      · cases at_id : l.hub.clients[id]? with
        | none =>
          have out : id ∉ l.hub.registered := by
            intro there
            simp [Hub.registered, at_id] at there
          simp [Loop.sight, Sight.follow, Loop.due, at_id, out]
        | some c => simp [Loop.sight, Sight.follow, Loop.due, at_id, mem_registered at_id]
    · cases moved
  | visit i =>
    unfold Loop.step at moved
    dsimp only at moved
    split at moved
    · rename_i msg ids pass
      obtain ⟨waiting, same⟩ := Option.ite_none_right_eq_some.mp moved
      cases same
      have client := modify_at (f := offered msg) l.hub.clients i id
      rw [← offer_clients] at client
      have count : (l.hub.offer msg i).clients.length = l.hub.clients.length := by
        rw [offer_clients, List.length_modify]
      by_cases here : i = id
      · subst id
        rw [if_pos rfl] at client
        have visited : i ∉ ids.erase i := (distinct msg ids pass).not_mem_erase
        apply Sight.ext
        · simp [Loop.sight, Sight.follow, offer_queue]
        · simp [Loop.sight, Sight.follow, count]
        · simp [Loop.sight, Sight.follow, client, Loop.due, pass, waiting]
        · simp [Loop.sight, Sight.follow, Loop.due, visited]
      · rw [if_neg here] at client
        apply Sight.ext
        · simp [Loop.sight, Sight.follow, offer_queue, here]
        · simp [Loop.sight, Sight.follow, count, here]
        · simp [Loop.sight, Sight.follow, client, here]
        · simp [Loop.sight, Sight.follow, Loop.due, pass, here, mem_erase_other here]
    · cases moved
  | finish =>
    unfold Loop.step at moved
    dsimp only at moved
    split at moved
    · rename_i msg pass
      cases moved
      apply Sight.ext
      · rfl
      · rfl
      · rfl
      · simp [Loop.sight, Sight.follow, Loop.due, pass]
    · cases moved
  | sendToOne i msg =>
    cases moved
    exact sight_modified (sendToOne_clients l.hub i msg) (sendToOne_queue l.hub i msg) id
  | startPumps i =>
    cases moved
    exact sight_modified (startPumps_clients l.hub i) (startPumps_queue l.hub i) id
  | pump i =>
    obtain ⟨hub, stepped, rfl⟩ := Option.map_eq_some_iff.mp moved
    exact sight_pumped stepped id
  | pumpFail i =>
    obtain ⟨hub, stepped, rfl⟩ := Option.map_eq_some_iff.mp moved
    exact sight_pumped stepped id

/- What a move needs of the sight of a client to be taken. -/
def Legal (id : Nat) (s : Sight) : Turn → Prop
  | .register | .unregister _ | .take _ => s.due = []
  | .visit i => i = id → ∃ msg, s.due = [msg]
  | .pump i => i = id → (s.client.bind Client.pumpStep).isSome
  | .pumpFail i => i = id → (s.client.bind Client.pumpFail).isSome
  | _ => True

theorem pumped_some {move : Client → Option Client} {h h' : Hub} {i : Nat}
    (moved : h.pump i move = some h') : (h.clients[i]?.bind move).isSome := by
  obtain ⟨c, at_i, stepped⟩ := Option.bind_eq_some_iff.mp moved
  obtain ⟨c', step, -⟩ := Option.map_eq_some_iff.mp stepped
  simp [at_i, step]

theorem step_legal {l l' : Loop} {m : Turn} (moved : l.step m = some l') (id : Nat) :
    Legal id (l.sight id) m := by
  have idle : l.pass = none → l.due id = [] := by
    intro none_left
    simp [Loop.due, none_left]
  cases m with
  | register => exact idle (Option.ite_none_right_eq_some.mp moved).1
  | unregister i => exact idle (Option.ite_none_right_eq_some.mp moved).1
  | take msg =>
    unfold Loop.step at moved
    dsimp only at moved
    split at moved
    · rename_i none_left queue
      exact idle none_left
    · cases moved
  | visit i =>
    rintro rfl
    unfold Loop.step at moved
    dsimp only at moved
    split at moved
    · rename_i msg ids pass
      obtain ⟨waiting, -⟩ := Option.ite_none_right_eq_some.mp moved
      exact ⟨msg, by simp [Loop.sight, Loop.due, pass, waiting]⟩
    · cases moved
  | pump i =>
    rintro rfl
    obtain ⟨hub, stepped, -⟩ := Option.map_eq_some_iff.mp moved
    exact pumped_some stepped
  | pumpFail i =>
    rintro rfl
    obtain ⟨hub, stepped, -⟩ := Option.map_eq_some_iff.mp moved
    exact pumped_some stepped
  | _ => trivial

theorem step_distinct {l l' : Loop} {m : Turn} (moved : l.step m = some l')
    (distinct : ∀ msg ids, l.pass = some (msg, ids) → ids.Nodup) :
    ∀ msg ids, l'.pass = some (msg, ids) → ids.Nodup := by
  intro msg ids pass
  cases m with
  | register =>
    obtain ⟨idle, same⟩ := Option.ite_none_right_eq_some.mp moved
    cases same
    exact distinct msg ids pass
  | unregister i =>
    obtain ⟨idle, same⟩ := Option.ite_none_right_eq_some.mp moved
    cases same
    exact distinct msg ids pass
  | take first =>
    unfold Loop.step at moved
    dsimp only at moved
    split at moved
    · obtain ⟨-, same⟩ := Option.ite_none_right_eq_some.mp moved
      cases same
      cases pass
      exact registered_nodup l.hub
    · cases moved
  | visit i =>
    unfold Loop.step at moved
    dsimp only at moved
    split at moved
    · rename_i msg' ids' pass'
      obtain ⟨-, same⟩ := Option.ite_none_right_eq_some.mp moved
      cases same
      cases pass
      exact (distinct _ _ pass').erase i
    · cases moved
  | finish =>
    unfold Loop.step at moved
    dsimp only at moved
    split at moved
    · cases moved
      cases pass
    · cases moved
  | send msg' =>
    obtain ⟨hub, -, rfl⟩ := Option.map_eq_some_iff.mp moved
    exact distinct msg ids pass
  | pump i =>
    obtain ⟨hub, -, rfl⟩ := Option.map_eq_some_iff.mp moved
    exact distinct msg ids pass
  | pumpFail i =>
    obtain ⟨hub, -, rfl⟩ := Option.map_eq_some_iff.mp moved
    exact distinct msg ids pass
  | sendToOne i msg' =>
    cases moved
    exact distinct msg ids pass
  | startPumps i =>
    cases moved
    exact distinct msg ids pass

/- A run from the start, seen from one client. -/
theorem run_distinct {l : Loop} {ms : List Turn} (run : Loop.run {} ms = some l) :
    ∀ msg ids, l.pass = some (msg, ids) → ids.Nodup := by
  induction ms using List.reverseRecOn generalizing l with
  | nil =>
    cases run
    intro msg ids pass
    cases pass
  | append_singleton ms m ih =>
    obtain ⟨last, before, moved⟩ := run_snoc.mp run
    exact step_distinct moved (ih before)

theorem run_sight {l : Loop} {ms : List Turn} (run : Loop.run {} ms = some l) (id : Nat) :
    l.sight id = (ms.filter (concerns id)).foldl (Sight.follow id) (Loop.sight {} id) := by
  induction ms using List.reverseRecOn generalizing l with
  | nil =>
    cases run
    rfl
  | append_singleton ms m ih =>
    obtain ⟨last, before, moved⟩ := run_snoc.mp run
    rw [step_sight moved id (run_distinct before), ih before, List.filter_append, List.foldl_append]
    cases concerned : concerns id m with
    | true => simp [concerned]
    | false => simp [concerned, follow_unconcerned concerned]

/- Two runs that agree in what concerns a client show it in the same state, whatever the other
   clients consume and however they come to be removed. -/
theorem same_client {l l' : Loop} {ms ms' : List Turn} {id : Nat} (run : Loop.run {} ms = some l)
    (run' : Loop.run {} ms' = some l') (agree : ms'.filter (concerns id) = ms.filter (concerns id)) :
    l'.hub.clients[id]? = l.hub.clients[id]? := by
  have sights : l'.sight id = l.sight id := by rw [run_sight run', run_sight run, agree]
  exact congrArg Sight.client sights

/-- What is true of every client at all times. -/
structure Sighted (id : Nat) (s : Sight) : Prop where
  known : ∀ c, s.client = some c → id < s.count
  flags : ∀ c, s.client = some c → c.closed = !c.inHub
  waiting : s.due ≠ [] → ∃ c, s.client = some c ∧ c.inHub = true

/-- The moves by which the loop removes a client: its unregistration, or a broadcast that
comes to it and finds its buffer full. -/
def Removes (id : Nat) (client : Option Client) : Turn → Prop
  | .unregister i => i = id ∧ ∃ c, client = some c ∧ c.inHub = true
  | .visit i => i = id ∧ ∃ c, client = some c ∧ c.inHub = true ∧ channelSize ≤ c.buffer.length
  | _ => False

/-- The client stays, and has the next broadcasts on its channel; or it is removed. -/
inductive Outcome (id : Nat) (s : Sight) (m : Turn) (s' : Sight) (c c' : Client) : Prop where
  | stays (kept : ¬ Removes id s.client m) (inHub : c'.inHub = c.inHub)
      (closed : c'.closed = c.closed) (new : List Str)
      (more : broadcasts c' = broadcasts c ++ new)
      (here : c.inHub = true → new ++ s'.due = s.due ++ takes [m])
      (gone : c.inHub = false → new = [])
  | removed (was : c.inHub = true) (now : c'.inHub = false) (closed : c'.closed = true)
      (same : broadcasts c' = broadcasts c) (removes : Removes id s.client m)

theorem stays_same {id : Nat} {s s' : Sight} {m : Turn} {c c' : Client}
    (kept : ¬ Removes id s.client m) (inHub : c'.inHub = c.inHub)
    (closed : c'.closed = c.closed) (same : broadcasts c' = broadcasts c)
    (due : c.inHub = true → s'.due = s.due ++ takes [m]) : Outcome id s m s' c c' :=
  .stays kept inHub closed [] (by rw [same, List.append_nil]) due fun _ => rfl

theorem pushed_flags (msg : Str) (c : Client) : (pushed msg c).inHub = c.inHub ∧
    (pushed msg c).closed = c.closed ∧ broadcasts (pushed msg c) = broadcasts c := by
  unfold pushed
  split
  · exact ⟨rfl, rfl, by simp [broadcasts, Client.put]⟩
  · exact ⟨rfl, rfl, rfl⟩

theorem kept_unconcerned {id : Nat} {m : Turn} (other : concerns id m = false)
    (client : Option Client) : ¬ Removes id client m := by
  cases m with
  | unregister i => exact fun removes => by simp [concerns, removes.1] at other
  | visit i => exact fun removes => by simp [concerns, removes.1] at other
  | _ => exact not_false

theorem takes_unconcerned {id : Nat} {m : Turn} (other : concerns id m = false) : takes [m] = [] := by
  cases m with
  | take msg => cases other
  | _ => rfl

/- What one move does to a client that is already there. -/
theorem follow_outcome {id : Nat} {s : Sight} (sighted : Sighted id s) {m : Turn}
    (legal : Legal id s m) {c : Client} (at_c : s.client = some c) :
    ∃ c', (s.follow id m).client = some c' ∧ Outcome id s m (s.follow id m) c c' := by
  have flags := sighted.flags c at_c
  cases concerned : concerns id m with
  | false =>
    rw [follow_unconcerned concerned]
    refine ⟨c, at_c, stays_same (kept_unconcerned concerned _) rfl rfl rfl ?_⟩
    intro inHub
    rw [takes_unconcerned concerned, List.append_nil]
  | true =>
    cases m with
    | send msg => exact ⟨c, at_c, stays_same not_false rfl rfl rfl fun _ => (List.append_nil _).symm⟩
    | register =>
      have other : id ≠ s.count := Nat.ne_of_lt (sighted.known c at_c)
      refine ⟨c, ?_, stays_same not_false rfl rfl rfl fun _ => (List.append_nil _).symm⟩
      rw [Sight.follow, if_neg other]
      exact at_c
    | finish => cases concerned
    | take msg =>
      have idle : s.due = [] := legal
      refine ⟨c, at_c, stays_same not_false rfl rfl rfl ?_⟩
      intro inHub
      simp [Sight.follow, at_c, inHub, idle, takes]
    | unregister i =>
      obtain rfl : i = id := by simpa [concerns] using concerned
      refine ⟨leave c, by simp [Sight.follow, at_c], ?_⟩
      cases inHub : c.inHub with
      | true =>
        have leaves : leave c = c.close := by simp [leave, flags, inHub]
        rw [leaves]
        exact .removed inHub rfl rfl rfl ⟨rfl, c, at_c, inHub⟩
      | false =>
        have stays : leave c = c := by simp [leave, inHub]
        rw [stays]
        apply stays_same _ rfl rfl rfl
        · intro there
          rw [inHub] at there
          cases there
        · rintro ⟨-, c', at_c', there⟩
          obtain rfl : c = c' := Option.some.inj (at_c.symm.trans at_c')
          rw [inHub] at there
          cases there
    | visit i =>
      obtain rfl : i = id := by simpa [concerns] using concerned
      obtain ⟨msg, due⟩ := legal rfl
      obtain ⟨c', at_c', inHub⟩ := sighted.waiting (by rw [due]; exact List.cons_ne_nil _ _)
      obtain rfl : c = c' := Option.some.inj (at_c.symm.trans at_c')
      have open_ : c.closed = false := by simp [flags, inHub]
      refine ⟨c.offer msg, by simp [Sight.follow, due, at_c, offered, open_], ?_⟩
      by_cases room : c.buffer.length < channelSize
      · have puts : c.offer msg = c.put .broadcast msg := if_pos room
        rw [puts]
        refine .stays ?_ ?_ ?_ [msg] (put_broadcasts msg c) ?_ ?_
        · rintro ⟨-, c', at_c', -, full⟩
          obtain rfl : c = c' := Option.some.inj (at_c.symm.trans at_c')
          omega
        · rfl
        · rfl
        · intro _
          simp [Sight.follow, due, takes]
        · intro gone
          rw [inHub] at gone
          cases gone
      · have closes : c.offer msg = c.close := if_neg room
        rw [closes]
        exact .removed inHub rfl rfl rfl ⟨rfl, c, at_c, inHub, Nat.not_lt.mp room⟩
    | sendToOne i msg =>
      obtain rfl : i = id := by simpa [concerns] using concerned
      obtain ⟨inHub, closed, same⟩ := pushed_flags msg c
      refine ⟨pushed msg c, by simp [Sight.follow, at_c], stays_same not_false inHub closed same ?_⟩
      intro _
      simp [Sight.follow, takes]
    | startPumps i =>
      obtain rfl : i = id := by simpa [concerns] using concerned
      refine ⟨{ c with pump := .idle }, by simp [Sight.follow, at_c],
        stays_same not_false rfl rfl rfl ?_⟩
      intro _
      simp [Sight.follow, takes]
    | pump i =>
      obtain rfl : i = id := by simpa [concerns] using concerned
      have steps := legal rfl
      rw [at_c] at steps
      obtain ⟨c', step⟩ := Option.isSome_iff_exists.mp steps
      obtain ⟨inHub, closed, sent⟩ := pumpStep_sent step
      refine ⟨c', by simpa [Sight.follow, at_c] using step,
        stays_same not_false inHub closed ?_ ?_⟩
      · rw [broadcasts, broadcasts, sent]
      · intro _
        simp [Sight.follow, takes]
    | pumpFail i =>
      obtain rfl : i = id := by simpa [concerns] using concerned
      have steps := legal rfl
      rw [at_c] at steps
      obtain ⟨c', step⟩ := Option.isSome_iff_exists.mp steps
      obtain ⟨inHub, closed, sent⟩ := pumpFail_sent step
      refine ⟨c', by simpa [Sight.follow, at_c] using step,
        stays_same not_false inHub closed ?_ ?_⟩
      · rw [broadcasts, broadcasts, sent]
      · intro _
        simp [Sight.follow, takes]

theorem follow_count (id : Nat) (s : Sight) (m : Turn) :
    (s.follow id m).count = s.count + [m].count .register := by
  cases m with
  | register => rfl
  | send msg => rfl
  | take msg => rfl
  | finish => rfl
  | _ =>
    rw [Sight.follow]
    split <;> rfl

/- A client appears by its registration only. -/
theorem follow_absent {id : Nat} {s : Sight} {m : Turn} (absent : s.client = none) {c : Client}
    (appears : (s.follow id m).client = some c) :
    m = .register ∧ id = s.count ∧ c = { inHub := true } := by
  have stays : (s.follow id m).client ≠ s.client := by
    rw [appears, absent]
    exact Option.some_ne_none c
  cases m with
  | register =>
    by_cases here : id = s.count
    · rw [Sight.follow, if_pos here] at appears
      exact ⟨rfl, here, (Option.some.inj appears).symm⟩
    · exact absurd (if_neg here) stays
  | send msg => exact absurd rfl stays
  | take msg => exact absurd rfl stays
  | finish => exact absurd rfl stays
  | visit i =>
    apply absurd _ stays
    rw [Sight.follow]
    split
    · have nobody : ∀ due : List Str, due.foldl (fun c msg => Option.map (offered msg) c) none = none := by
        intro due
        induction due with
        | nil => rfl
        | cons msg due ih => exact ih
      simp only [absent, nobody]
    · rfl
  | _ =>
    apply absurd _ stays
    rw [Sight.follow]
    split
    · simp [absent]
    · rfl

/- A message is due only to a client that is there. -/
theorem follow_due {id : Nat} {s : Sight} {m : Turn} (legal : Legal id s m) :
    (s.follow id m).due = [] ∨ ((s.follow id m).due = s.due ∧ ¬ Removes id s.client m) ∨
      ∃ msg, m = .take msg ∧ s.client.any Client.inHub = true := by
  cases m with
  | take msg =>
    cases there : s.client.any Client.inHub with
    | true => exact Or.inr (Or.inr ⟨msg, rfl, rfl⟩)
    | false => exact Or.inl (by simp [Sight.follow, there])
  | unregister i =>
    left
    rw [Sight.follow]
    split <;> exact legal
  | visit i =>
    by_cases here : i = id
    · left
      rw [Sight.follow, if_pos here]
    · right
      left
      rw [Sight.follow, if_neg here]
      exact ⟨rfl, fun removes => here removes.1⟩
  | send msg => exact Or.inr (Or.inl ⟨rfl, not_false⟩)
  | register => exact Or.inr (Or.inl ⟨rfl, not_false⟩)
  | finish => exact Or.inr (Or.inl ⟨rfl, not_false⟩)
  | _ =>
    right
    left
    rw [Sight.follow]
    constructor
    · split <;> rfl
    · exact fun removes => removes

theorem follow_sighted {id : Nat} {s : Sight} (sighted : Sighted id s) {m : Turn}
    (legal : Legal id s m) : Sighted id (s.follow id m) := by
  have outcomes : ∀ c', (s.follow id m).client = some c' →
      (m = .register ∧ id = s.count ∧ c' = { inHub := true }) ∨
        ∃ c, s.client = some c ∧ Outcome id s m (s.follow id m) c c' := by
    intro c' at_c'
    cases at_c : s.client with
    | none => exact Or.inl (follow_absent at_c at_c')
    | some c =>
      obtain ⟨c'', at_c'', outcome⟩ := follow_outcome sighted legal at_c
      obtain rfl : c'' = c' := Option.some.inj (at_c''.symm.trans at_c')
      exact Or.inr ⟨c, rfl, outcome⟩
  constructor
  · intro c' at_c'
    rw [follow_count]
    rcases outcomes c' at_c' with ⟨rfl, here, -⟩ | ⟨c, at_c, -⟩
    · rw [here]
      exact Nat.lt_succ_self _
    · have := sighted.known c at_c
      omega
  · intro c' at_c'
    rcases outcomes c' at_c' with ⟨-, -, rfl⟩ | ⟨c, at_c, outcome⟩
    · rfl
    · cases outcome with
      | stays kept inHub closed =>
        rw [inHub, closed]
        exact sighted.flags c at_c
      | removed was now closed =>
        rw [now, closed]
        rfl
  · intro due
    rcases follow_due legal with nothing | ⟨same, kept⟩ | ⟨msg, rfl, there⟩
    · exact absurd nothing due
    · rw [same] at due
      obtain ⟨c, at_c, inHub⟩ := sighted.waiting due
      obtain ⟨c', at_c', outcome⟩ := follow_outcome sighted legal at_c
      cases outcome with
      | stays _ still => exact ⟨c', at_c', still.trans inHub⟩
      | removed _ _ _ _ removes => exact absurd removes kept
    · exact Option.any_eq_true _ _ |>.mp there

theorem run_sighted {l : Loop} {ms : List Turn} (run : Loop.run {} ms = some l) (id : Nat) :
    Sighted id (l.sight id) := by
  induction ms using List.reverseRecOn generalizing l with
  | nil =>
    cases run
    constructor
    · intro c at_c
      cases at_c
    · intro c at_c
      cases at_c
    · intro due
      exact absurd rfl due
  | append_singleton ms m ih =>
    obtain ⟨last, before, moved⟩ := run_snoc.mp run
    rw [step_sight moved id (run_distinct before)]
    exact follow_sighted (ih before) (step_legal moved id)

theorem run_count {l : Loop} {ms : List Turn} (run : Loop.run {} ms = some l) :
    l.hub.clients.length = ms.count .register := by
  induction ms using List.reverseRecOn generalizing l with
  | nil =>
    cases run
    rfl
  | append_singleton ms m ih =>
    obtain ⟨last, before, moved⟩ := run_snoc.mp run
    have counted := congrArg Sight.count (step_sight moved 0 (run_distinct before))
    rw [follow_count] at counted
    rw [List.count_append, ← ih before]
    exact counted

/- What holds of a client when it is registered, and is kept by every turn that it can see, holds
   of it at all times. -/
theorem client_induction {before : List Turn} {P : List Turn → Prop}
    {J : List Turn → Loop → Client → Prop} (shorter : ∀ during m, P (during ++ [m]) → P during)
    (here : ∀ l, l.pass = none → J [] l { inHub := true })
    (next : ∀ during m last l c, P (during ++ [m]) → Loop.run {} (before ++ .register :: during) = some last →
      Sighted (before.count .register) (last.sight (before.count .register)) →
      Legal (before.count .register) (last.sight (before.count .register)) m →
      l.sight (before.count .register) =
        (last.sight (before.count .register)).follow (before.count .register) m →
      last.hub.clients[before.count .register]? = some c → J during last c →
        ∃ c', (l.sight (before.count .register)).client = some c' ∧ J (during ++ [m]) l c')
    {during : List Turn} (fits : P during) {l : Loop}
    (run : Loop.run {} (before ++ .register :: during) = some l) :
    ∃ c, l.hub.clients[before.count .register]? = some c ∧ J during l c := by
  induction during using List.reverseRecOn generalizing l with
  | nil =>
    obtain ⟨last, start, moved⟩ := run_snoc.mp run
    obtain ⟨idle, same⟩ := Option.ite_none_right_eq_some.mp moved
    cases same
    refine ⟨{ inHub := true }, ?_, here _ idle⟩
    rw [← run_count start]
    exact List.getElem?_concat_length
  | append_singleton during m ih =>
    have grown : before ++ .register :: (during ++ [m]) = (before ++ .register :: during) ++ [m] := by
      simp
    rw [grown] at run
    obtain ⟨last, earlier, moved⟩ := run_snoc.mp run
    obtain ⟨c, at_c, held⟩ := ih (shorter during m fits) earlier
    exact next during m last l c fits earlier (run_sighted earlier _) (step_legal moved _)
      (step_sight moved _ (run_distinct earlier)) at_c held

/-- What a client has on its channel, and when it was removed if it is gone. -/
inductive Delivery (before during : List Turn) (id : Nat) (l : Loop) (c : Client) : Prop where
  | here (inHub : c.inHub = true) (delivered : broadcasts c ++ l.due id = takes during)
  | gone (out : c.inHub = false) (front back : List Turn) (m : Turn) (last : Loop)
      (split : during = front ++ m :: back)
      (run : Loop.run {} (before ++ .register :: front) = some last)
      (removes : Removes id last.hub.clients[id]? m)
      (delivered : broadcasts c ++ last.due id = takes front)

theorem client_delivery {before during : List Turn} {l : Loop}
    (run : Loop.run {} (before ++ .register :: during) = some l) :
    ∃ c, l.hub.clients[before.count .register]? = some c ∧
      Delivery before during (before.count .register) l c := by
  apply client_induction (P := fun _ => True)
    (J := fun during => Delivery before during (before.count .register)) (fun _ _ _ => trivial) _ _ trivial
      run
  · intro l idle
    exact .here rfl (by simp [Loop.due, idle, takes, broadcasts])
  · intro during m last l c _ earlier sighted legal sight at_c delivery
    obtain ⟨c', at_c', outcome⟩ := follow_outcome sighted legal at_c
    rw [← sight] at at_c' outcome
    refine ⟨c', at_c', ?_⟩
    have more : takes (during ++ [m]) = takes during ++ takes [m] := List.filterMap_append
    cases delivery with
    | here inHub delivered =>
      cases outcome with
      | stays kept still closed new more' goes_on gone =>
        apply Delivery.here (still.trans inHub)
        have due := goes_on inHub
        change new ++ l.due _ = last.due _ ++ _ at due
        rw [more', List.append_assoc, due, ← List.append_assoc, delivered, more]
      | removed was now closed same removes =>
        apply Delivery.gone now during [] m last rfl earlier removes
        rw [same]
        exact delivered
    | gone out front back m' last' split start removes delivered =>
      cases outcome with
      | stays kept still closed new more' goes_on gone =>
        apply Delivery.gone (still.trans out) front (back ++ [m]) m' last' (by simp [split]) start removes
        rw [more', gone out, List.append_nil]
        exact delivered
      | removed was =>
        rw [out] at was
        cases was

/-- A send on a channel that has been closed. -/
def breaks (l : Loop) : Turn → Bool
  | .sendToOne i _ => l.hub.clients[i]?.any Client.closed
  | _ => false

theorem sendToOne_panicked (h : Hub) (i : Nat) (msg : Str) :
    (h.sendToOne i msg).panicked = (h.panicked || h.clients[i]?.any Client.closed) := by
  unfold Hub.sendToOne
  cases h.clients[i]? with
  | none => simp
  | some c =>
    cases closed : c.closed with
    | true => simp [closed]
    | false =>
      simp only [closed, Bool.false_eq_true, ↓reduceIte, Option.any_some, Bool.or_false]
      split <;> rfl

/- The loop itself never sends on a closed channel and never closes one again. -/
theorem step_panicked {l l' : Loop} {ms : List Turn} {m : Turn} (run : Loop.run {} ms = some l)
    (moved : l.step m = some l') : l'.hub.panicked = (l.hub.panicked || breaks l m) := by
  have flags := fun id c (at_id : l.hub.clients[id]? = some c) => (run_sighted run id).flags c at_id
  cases m with
  | sendToOne i msg =>
    cases moved
    exact sendToOne_panicked l.hub i msg
  | send msg =>
    obtain ⟨hub, sent, rfl⟩ := Option.map_eq_some_iff.mp moved
    obtain ⟨-, same⟩ := Option.ite_none_right_eq_some.mp sent
    cases same
    simp [breaks]
  | register =>
    obtain ⟨-, same⟩ := Option.ite_none_right_eq_some.mp moved
    cases same
    simp [breaks, Hub.register]
  | unregister i =>
    obtain ⟨-, same⟩ := Option.ite_none_right_eq_some.mp moved
    cases same
    simp only [breaks, Bool.or_false, handleUnregister]
    split
    · rfl
    · rename_i c at_i
      split
      · rename_i inHub
        rw [if_neg (by simp [flags i c at_i, inHub])]
        rfl
      · rfl
  | take msg =>
    unfold Loop.step at moved
    dsimp only at moved
    split at moved
    · obtain ⟨-, same⟩ := Option.ite_none_right_eq_some.mp moved
      cases same
      simp [breaks]
    · cases moved
  | visit i =>
    obtain ⟨msg, due⟩ := step_legal moved i rfl
    obtain ⟨c, at_i, inHub⟩ := (run_sighted run i).waiting (by rw [due]; exact List.cons_ne_nil _ _)
    have open_ : c.closed = false := by simp [flags i c at_i, inHub]
    unfold Loop.step at moved
    dsimp only at moved
    split at moved
    · obtain ⟨-, same⟩ := Option.ite_none_right_eq_some.mp moved
      cases same
      have at_hub : l.hub.clients[i]? = some c := at_i
      simp [breaks, Hub.offer, at_hub, open_, Hub.change]
    · cases moved
  | finish =>
    unfold Loop.step at moved
    dsimp only at moved
    split at moved
    · cases moved
      simp [breaks]
    · cases moved
  | startPumps i =>
    cases moved
    simp only [breaks, Bool.or_false, Hub.startPumps]
    split <;> rfl
  | pump i =>
    obtain ⟨hub, stepped, rfl⟩ := Option.map_eq_some_iff.mp moved
    obtain ⟨c, -, stepped⟩ := Option.bind_eq_some_iff.mp stepped
    obtain ⟨c', -, rfl⟩ := Option.map_eq_some_iff.mp stepped
    simp [breaks, Hub.change]
  | pumpFail i =>
    obtain ⟨hub, stepped, rfl⟩ := Option.map_eq_some_iff.mp moved
    obtain ⟨c, -, stepped⟩ := Option.bind_eq_some_iff.mp stepped
    obtain ⟨c', -, rfl⟩ := Option.map_eq_some_iff.mp stepped
    simp [breaks, Hub.change]

/- The channel of a client is closed by the move that removes it, and by no other. -/
theorem closed_by {l l' : Loop} {ms : List Turn} {m : Turn} (run : Loop.run {} ms = some l)
    (moved : l.step m = some l') {id : Nat} {c : Client} (at_id : l.hub.clients[id]? = some c) :
    ∃ c', l'.hub.clients[id]? = some c' ∧ (c.closed = true → c'.closed = true) ∧
      (Removes id l.hub.clients[id]? m ↔ c.closed = false ∧ c'.closed = true) := by
  have sight := step_sight moved id (run_distinct run)
  obtain ⟨c', at_id', outcome⟩ := follow_outcome (run_sighted run id) (step_legal moved id) at_id
  have flags : c.closed = !c.inHub := (run_sighted run id).flags c at_id
  rw [← sight] at at_id' outcome
  refine ⟨c', at_id', ?_⟩
  cases outcome with
  | stays kept inHub closed =>
    rw [closed]
    refine ⟨fun gone => gone, fun removes => absurd removes kept, ?_⟩
    rintro ⟨open_, closes⟩
    rw [open_] at closes
    cases closes
  | removed was now closed same removes =>
    rw [was] at flags
    exact ⟨fun _ => closed, fun _ => ⟨flags, closed⟩, fun _ => removes⟩

/- For every run of the loop, with the clients registering, leaving, being served and consuming in
   any order: what the loop has put on the channel of a client that is there are the broadcasts
   taken since its registration, but for the one that has still to come to it; what it has put on
   the channel of one that is gone are those taken until its removal. The removal closes the channel,
   nothing else does, it stays closed, and the loop never sends on it or closes it again. Another
   run that agrees in what concerns the client itself has the client in the same state. -/
theorem hub_delivery {before during : List Turn} {l : Loop}
    (run : Loop.run {} (before ++ .register :: during) = some l) :
    (∃ c, l.hub.clients[before.count .register]? = some c ∧ c.closed = !c.inHub ∧
      Delivery before during (before.count .register) l c ∧
        ∀ m l', l.step m = some l' → ∃ c', l'.hub.clients[before.count .register]? = some c' ∧
          (c.closed = true → c'.closed = true) ∧
            (Removes (before.count .register) l.hub.clients[before.count .register]? m ↔
              c.closed = false ∧ c'.closed = true)) ∧
      (∀ m l', l.step m = some l' → (∀ i msg, m ≠ .sendToOne i msg) →
        l'.hub.panicked = l.hub.panicked) ∧
        ∀ ms l', Loop.run {} ms = some l' →
          ms.filter (concerns (before.count .register)) =
            (before ++ .register :: during).filter (concerns (before.count .register)) →
              l'.hub.clients[before.count .register]? = l.hub.clients[before.count .register]? := by
  refine ⟨?_, ?_, ?_⟩
  · obtain ⟨c, at_c, delivery⟩ := client_delivery run
    refine ⟨c, at_c, (run_sighted run _).flags c at_c, delivery, ?_⟩
    intro m l' moved
    exact closed_by run moved at_c
  · intro m l' moved others
    rw [step_panicked run moved]
    cases m with
    | sendToOne i msg => exact absurd rfl (others i msg)
    | _ => exact Bool.or_false _
  · intro ms l' run' agree
    exact same_client run run' agree

/-- A client is sent the first of two messages and leaves. -/
def visitLeft : List Turn :=
  [.startPumps 0, .send "first".toList, .send "second".toList, .take "first".toList, .visit 0,
    .finish, .unregister 0, .take "second".toList, .finish, .unregister 0]

theorem hub_delivery_left : ∃ l c, Loop.run {} ([] ++ .register :: visitLeft) = some l ∧
    l.hub.clients[0]? = some c ∧ c.closed = true ∧ Delivery [] visitLeft 0 l c := by
  have reached : (Loop.run {} ([] ++ .register :: visitLeft)).map
      (fun l => l.hub.clients[0]?.map Client.inHub) = some (some false) := by decide +kernel
  obtain ⟨l, run, gone⟩ := Option.map_eq_some_iff.mp reached
  obtain ⟨⟨c, at_c, closed, delivery, -⟩, -⟩ := hub_delivery run
  obtain ⟨c', at_c', out⟩ := Option.map_eq_some_iff.mp gone
  obtain rfl : c = c' := Option.some.inj (at_c.symm.trans at_c')
  rw [out] at closed
  exact ⟨l, c, run, at_c, closed, delivery⟩

end HubLoop
