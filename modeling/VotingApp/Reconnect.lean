import VotingApp.UseWebSocket

/-!
The connection of useWebSocket.ts. Its state is split over refs, and React and the browser
come back to it in any order: effects, timers, and the events of every socket it ever opened.
-/
namespace Reconnect
open GoText UseWebSocket

inductive Status where
  | connecting
  | connected
  | disconnected
  deriving DecidableEq, Repr

/-- A socket as the browser has it. Its onclose is the handler of connect, or null. -/
structure Socket where
  url : Str
  onclose : Bool := true
  closing : Bool := false
  closed : Bool := false
  deriving DecidableEq, Repr

/-- A setTimeout of connect. It is pending until it fires or is cleared. -/
structure Timer where
  url : Str
  delay : Nat
  pending : Bool := true
  deriving DecidableEq, Repr

/-- One component that uses the hook. The effect is the url it was last run for, as long as it
has not been cleaned up; sockets and timers are all that were ever made. -/
structure Hook where
  view : View := {}
  status : Status := .disconnected
  wsRef : Option Nat := none
  retryCount : Nat := 0
  retryTimer : Option Nat := none
  isMounted : Bool := true
  effect : Option Str := none
  sockets : List Socket := []
  timers : List Timer := []

def connect (url : Str) (s : Hook) : Hook :=
  if s.isMounted then { s with
    status := .connecting
    sockets := s.sockets ++ [{ url := url }]
    wsRef := some s.sockets.length }
  else s

def onopen (s : Hook) : Hook :=
  if s.isMounted then { s with status := .connected, retryCount := 0 } else s

def onmessage (data : Str) (s : Hook) : Hook :=
  if s.isMounted then { s with view := UseWebSocket.onmessage s.view data } else s

/- 1s, 2s, 4s, 8s, at most 30s. -/
def retryDelay (retryCount : Nat) : Nat := min (1000 * 2 ^ retryCount) 30000

def onclose (url : Str) (s : Hook) : Hook :=
  if s.isMounted then { s with
    status := .disconnected
    wsRef := none
    timers := s.timers ++ [{ url := url, delay := retryDelay s.retryCount }]
    retryCount := s.retryCount + 1
    retryTimer := some s.timers.length }
  else s

def close (i : Nat) (s : Hook) : Hook :=
  { s with sockets := s.sockets.modify i fun k => { k with closing := true } }

def clearTimeout (j : Nat) (s : Hook) : Hook :=
  { s with timers := s.timers.modify j fun t => { t with pending := false } }

/- The effect. -/
def setup (url : Str) (s : Hook) : Hook :=
  connect url { s with isMounted := true, effect := some url }

def dropHandler (i : Nat) (s : Hook) : Hook :=
  { s with sockets := s.sockets.modify i fun k => { k with onclose := false } }

def clearRetry (s : Hook) : Hook :=
  match s.retryTimer with
  | some j => clearTimeout j s
  | none => s

def dropSocket (s : Hook) : Hook :=
  match s.wsRef with
  | some i => close i (dropHandler i s)
  | none => s

/- What the effect returns. -/
def cleanup (s : Hook) : Hook :=
  dropSocket (clearRetry { s with isMounted := false, effect := none })

/-- What React and the browser can do. A changed url is an unmount and a mount. -/
inductive Event where
  | mount (url : Str)
  | unmount
  | opened (i : Nat)
  | message (i : Nat) (data : Str)
  | errored (i : Nat)
  | closed (i : Nat)
  | fired (j : Nat)
  deriving DecidableEq, Repr

/-- The socket, until its close event. -/
def Hook.socket (s : Hook) (i : Nat) : Option Socket := (s.sockets[i]?).filter fun k => !k.closed

def Hook.timer (s : Hook) (j : Nat) : Option Timer := (s.timers[j]?).filter Timer.pending

def markClosed (i : Nat) (s : Hook) : Hook :=
  { s with sockets := s.sockets.modify i fun k => { k with closed := true } }

def Hook.step (s : Hook) : Event → Option Hook
  | .mount url => if s.effect = none then some (setup url s) else none
  | .unmount => if s.effect = none then none else some (cleanup s)
  | .opened i => (s.socket i).map fun _ => onopen s
  | .message i data => (s.socket i).map fun _ => onmessage data s
  | .errored i => (s.socket i).map fun _ => close i s
  | .closed i => (s.socket i).map fun k =>
    if k.onclose then onclose k.url (markClosed i s) else markClosed i s
  | .fired j => (s.timer j).map fun t => connect t.url (clearTimeout j s)

def Hook.run (s : Hook) : List Event → Option Hook
  | [] => some s
  | e :: es => (s.step e).bind fun s' => s'.run es

/-- A socket that has not closed yet, with its close handler attached. -/
def Socket.attached (k : Socket) : Bool := k.onclose && !k.closed

def Hook.attached (s : Hook) (i : Nat) : Bool := (s.sockets[i]?).any Socket.attached

def Hook.pending (s : Hook) (j : Nat) : Bool := (s.timers[j]?).any Timer.pending

def Hook.mounted (s : Hook) : Bool := s.effect.isSome

/-- Exactly one connection is kept: a socket that will be followed by a retry, or the retry. -/
def Hook.KeepsOne (s : Hook) : Prop :=
  ((∃! i, s.attached i = true) ∧ ∀ j, s.pending j = false) ∨
    ((∀ i, s.attached i = false) ∧ ∃! j, s.pending j = true)

def Hook.KeepsNone (s : Hook) : Prop := (∀ i, s.attached i = false) ∧ ∀ j, s.pending j = false

section Entries
variable {α : Type} {l : List α} {p : α → Bool} {f : α → α}

theorem any_concat {x : α} (holds : p x = true) (i : Nat) :
    ((l ++ [x])[i]?).any p = (decide (i = l.length) || (l[i]?).any p) := by
  rcases Nat.lt_trichotomy i l.length with before | last | behind
  · rw [List.getElem?_append_left before]
    simp [Nat.ne_of_lt before]
  · simp [last, holds]
  · have past : (l ++ [x]).length ≤ i := by
      rw [List.length_append]
      exact behind
    rw [List.getElem?_eq_none past, List.getElem?_eq_none (Nat.le_of_lt behind)]
    simp [Nat.ne_of_gt behind]

theorem any_modify_same (same : ∀ x, p (f x) = p x) (i n : Nat) :
    ((l.modify n f)[i]?).any p = (l[i]?).any p := by
  rw [List.getElem?_modify]
  by_cases here : n = i
  · cases l[i]? <;> simp [here, same]
  · simp [here]

theorem any_modify_off (off : ∀ x, p (f x) = false) (i n : Nat) :
    ((l.modify n f)[i]?).any p = (decide (i ≠ n) && (l[i]?).any p) := by
  rw [List.getElem?_modify]
  by_cases here : n = i
  · cases l[i]? <;> simp [here, off]
  · simp [here, Ne.symm here]

end Entries

section Operations
variable {s : Hook} (url : Str) (i j n : Nat)

theorem attached_connect (alive : s.isMounted = true) :
    (connect url s).attached i = (decide (i = s.sockets.length) || s.attached i) := by
  rw [connect, if_pos alive]
  exact any_concat rfl i

@[simp] theorem pending_connect : (connect url s).pending j = s.pending j := by
  unfold connect
  split <;> rfl

@[simp] theorem attached_onclose : (onclose url s).attached i = s.attached i := by
  unfold onclose
  split <;> rfl

theorem pending_onclose (alive : s.isMounted = true) :
    (onclose url s).pending j = (decide (j = s.timers.length) || s.pending j) := by
  rw [onclose, if_pos alive]
  exact any_concat rfl j

@[simp] theorem attached_close : (close n s).attached i = s.attached i :=
  any_modify_same (p := Socket.attached) (f := fun k => { k with closing := true }) (fun _ => rfl) i n

theorem attached_dropHandler : (dropHandler n s).attached i = (decide (i ≠ n) && s.attached i) :=
  any_modify_off (fun _ => rfl) i n

theorem attached_markClosed : (markClosed n s).attached i = (decide (i ≠ n) && s.attached i) :=
  any_modify_off (fun k => by simp [Socket.attached]) i n

theorem pending_clearTimeout : (clearTimeout n s).pending j = (decide (j ≠ n) && s.pending j) :=
  any_modify_off (fun _ => rfl) j n

theorem attached_cleanup :
    (cleanup s).attached i = (decide (s.wsRef ≠ some i) && s.attached i) := by
  have cleared : ∀ s : Hook, (clearRetry s).attached i = s.attached i ∧ (clearRetry s).wsRef = s.wsRef := by
    intro s
    unfold clearRetry
    cases s.retryTimer <;> exact ⟨rfl, rfl⟩
  have dropped : ∀ s : Hook, (dropSocket s).attached i = (decide (s.wsRef ≠ some i) && s.attached i) := by
    intro s
    unfold dropSocket
    cases s.wsRef with
    | none => simp
    | some n =>
      dsimp only
      rw [attached_close, attached_dropHandler]
      simp [eq_comm]
  rw [cleanup, dropped, (cleared _).1, (cleared _).2]
  rfl

theorem pending_cleanup :
    (cleanup s).pending j = (decide (s.retryTimer ≠ some j) && s.pending j) := by
  have cleared : ∀ s : Hook,
      (clearRetry s).pending j = (decide (s.retryTimer ≠ some j) && s.pending j) := by
    intro s
    unfold clearRetry
    cases s.retryTimer with
    | none => simp
    | some n =>
      dsimp only
      rw [pending_clearTimeout]
      simp [eq_comm]
  have dropped : ∀ s : Hook, (dropSocket s).pending j = s.pending j := by
    intro s
    unfold dropSocket
    cases s.wsRef <;> rfl
  rw [cleanup, dropped, cleared]
  rfl

theorem effect_cleanup : (cleanup s).effect = none := by
  unfold cleanup dropSocket clearRetry
  cases s.retryTimer <;> cases s.wsRef <;> rfl

/- The socket whose handler runs is one that is attached. -/
theorem attached_of_socket {k : Socket} (found : s.socket i = some k) :
    s.attached i = k.onclose := by
  obtain ⟨there, open_⟩ := Option.filter_eq_some_iff.mp found
  rw [Hook.attached, there, Option.any_some, Socket.attached, open_, Bool.and_true]

theorem pending_of_timer {t : Timer} (found : s.timer j = some t) : s.pending j = true := by
  obtain ⟨there, pending⟩ := Option.filter_eq_some_iff.mp found
  rw [Hook.pending, there, Option.any_some, pending]

end Operations

/-- How the refs hold the one connection. -/
inductive Shape (s : Hook) : Prop where
  | idle (gone : s.effect = none) (nothing : s.KeepsNone)
  | connected {url : Str} {i : Nat} (effect : s.effect = some url) (alive : s.isMounted = true)
      (ref : s.wsRef = some i) (only : ∀ i', s.attached i' = decide (i' = i))
      (quiet : ∀ j, s.pending j = false)
  | waiting {url : Str} {j : Nat} (effect : s.effect = some url) (alive : s.isMounted = true)
      (ref : s.wsRef = none) (timer : s.retryTimer = some j) (alone : ∀ i, s.attached i = false)
      (only : ∀ j', s.pending j' = decide (j' = j))

/- Nothing that the shape looks at has changed. -/
theorem shape_congr {s t : Hook} (shape : Shape s) (effect : t.effect = s.effect) (alive : t.isMounted = s.isMounted)
    (ref : t.wsRef = s.wsRef) (timer : t.retryTimer = s.retryTimer)
    (attached : ∀ i, t.attached i = s.attached i) (pending : ∀ j, t.pending j = s.pending j) :
    Shape t := by
  cases shape with
  | idle gone nothing =>
    exact .idle (effect.trans gone)
      ⟨fun i => (attached i).trans (nothing.1 i), fun j => (pending j).trans (nothing.2 j)⟩
  | connected effect' alive' ref' only quiet =>
    exact .connected (effect.trans effect') (alive.trans alive') (ref.trans ref')
      (fun i => (attached i).trans (only i)) fun j => (pending j).trans (quiet j)
  | waiting effect' alive' ref' timer' alone only =>
    exact .waiting (effect.trans effect') (alive.trans alive') (ref.trans ref') (timer.trans timer')
      (fun i => (attached i).trans (alone i)) fun j => (pending j).trans (only j)

theorem connect_shape {s : Hook} {u url : Str} (effect : s.effect = some u)
    (alive : s.isMounted = true) (nothing : s.KeepsNone) : Shape (connect url s) := by
  have only : ∀ i, (connect url s).attached i = decide (i = s.sockets.length) := by
    intro i
    rw [attached_connect url i alive, nothing.1 i, Bool.or_false]
  have quiet : ∀ j, (connect url s).pending j = false := by
    intro j
    rw [pending_connect]
    exact nothing.2 j
  have opened : connect url s = { s with
      status := .connecting
      sockets := s.sockets ++ [{ url := url }]
      wsRef := some s.sockets.length } := if_pos alive
  have ref : (connect url s).wsRef = some s.sockets.length := by rw [opened]
  have effect' : (connect url s).effect = some u := by rw [opened, effect]
  have alive' : (connect url s).isMounted = true := by rw [opened, alive]
  exact .connected effect' alive' ref only quiet

theorem onclose_shape {s : Hook} {u url : Str} (effect : s.effect = some u)
    (alive : s.isMounted = true) (nothing : s.KeepsNone) : Shape (onclose url s) := by
  have alone : ∀ i, (onclose url s).attached i = false := by
    intro i
    rw [attached_onclose]
    exact nothing.1 i
  have only : ∀ j, (onclose url s).pending j = decide (j = s.timers.length) := by
    intro j
    rw [pending_onclose url j alive, nothing.2 j, Bool.or_false]
  have closed : onclose url s = { s with
      status := .disconnected
      wsRef := none
      timers := s.timers ++ [{ url := url, delay := retryDelay s.retryCount }]
      retryCount := s.retryCount + 1
      retryTimer := some s.timers.length } := if_pos alive
  have ref : (onclose url s).wsRef = none := by rw [closed]
  have timer : (onclose url s).retryTimer = some s.timers.length := by rw [closed]
  have effect' : (onclose url s).effect = some u := by rw [closed, effect]
  have alive' : (onclose url s).isMounted = true := by rw [closed, alive]
  exact .waiting effect' alive' ref timer alone only

/- After the cleanup nothing is left that could connect again. -/
theorem cleanup_shape {s : Hook} (shape : Shape s) : Shape (cleanup s) := by
  apply Shape.idle effect_cleanup
  constructor
  · intro i
    rw [attached_cleanup]
    cases shape with
    | idle _ nothing => rw [nothing.1 i, Bool.and_false]
    | connected _ _ ref only _ => simp [ref, only i, eq_comm]
    | waiting _ _ _ _ alone _ => rw [alone i, Bool.and_false]
  · intro j
    rw [pending_cleanup]
    cases shape with
    | idle _ nothing => rw [nothing.2 j, Bool.and_false]
    | connected _ _ _ _ quiet => rw [quiet j, Bool.and_false]
    | waiting _ _ _ timer _ only => simp [timer, only j, eq_comm]

/- One event, whichever it is. -/
theorem step_shape {s s' : Hook} {e : Event} (step : s.step e = some s') (shape : Shape s) :
    Shape s' := by
  cases e with
  | mount url =>
    simp only [Hook.step, Option.ite_none_right_eq_some, Option.some.injEq] at step
    obtain ⟨gone, rfl⟩ := step
    cases shape with
    | idle _ nothing =>
      exact @connect_shape { s with isMounted := true, effect := some url } url url rfl rfl nothing
    | connected effect => cases gone.symm.trans effect
    | waiting effect => cases gone.symm.trans effect
  | unmount =>
    simp only [Hook.step, Option.ite_none_left_eq_some, Option.some.injEq] at step
    obtain ⟨-, rfl⟩ := step
    exact cleanup_shape shape
  | opened i =>
    obtain ⟨k, -, rfl⟩ := Option.map_eq_some_iff.mp step
    unfold onopen
    split
    · exact shape_congr shape rfl rfl rfl rfl (fun _ => rfl) fun _ => rfl
    · exact shape
  | message i data =>
    obtain ⟨k, -, rfl⟩ := Option.map_eq_some_iff.mp step
    unfold onmessage
    split
    · exact shape_congr shape rfl rfl rfl rfl (fun _ => rfl) fun _ => rfl
    · exact shape
  | errored i =>
    obtain ⟨k, -, rfl⟩ := Option.map_eq_some_iff.mp step
    exact shape_congr shape rfl rfl rfl rfl (attached_close · i) fun _ => rfl
  | closed i =>
    obtain ⟨k, found, rfl⟩ := Option.map_eq_some_iff.mp step
    have handler := attached_of_socket i found
    have marked := @attached_markClosed s
    split
    · rename_i has_handler
      rw [has_handler] at handler
      cases shape with
      | idle _ nothing => cases (nothing.1 i).symm.trans handler
      | waiting _ _ _ _ alone _ => cases (alone i).symm.trans handler
      | connected effect alive ref only quiet =>
        have nothing : (markClosed i s).KeepsNone := by
          refine ⟨fun i' => ?_, quiet⟩
          rw [only i, decide_eq_true_eq] at handler
          rw [marked, only i', ← handler]
          simp
        exact onclose_shape effect alive nothing
    · rename_i no_handler
      rw [Bool.not_eq_true] at no_handler
      rw [no_handler] at handler
      have same : ∀ i', (markClosed i s).attached i' = s.attached i' := by
        intro i'
        rw [marked]
        by_cases here : i' = i
        · rw [here, handler, Bool.and_false]
        · simp [here]
      exact shape_congr shape rfl rfl rfl rfl same fun _ => rfl
  | fired j =>
    obtain ⟨t, found, rfl⟩ := Option.map_eq_some_iff.mp step
    have on := pending_of_timer j found
    cases shape with
    | idle _ nothing => cases (nothing.2 j).symm.trans on
    | connected _ _ _ _ quiet => cases (quiet j).symm.trans on
    | waiting effect alive ref timer alone only =>
      have nothing : (clearTimeout j s).KeepsNone := by
        refine ⟨alone, fun j' => ?_⟩
        rw [only j, decide_eq_true_eq] at on
        rw [pending_clearTimeout, only j', ← on]
        simp
      exact connect_shape effect alive nothing

theorem run_shape {s s' : Hook} {es : List Event} (run : s.run es = some s') (shape : Shape s) :
    Shape s' := by
  induction es generalizing s with
  | nil =>
    cases run
    exact shape
  | cons e es ih =>
    obtain ⟨t, step, rest⟩ := Option.bind_eq_some_iff.mp run
    exact ih rest (step_shape step shape)

theorem start_shape : Shape {} := .idle rfl ⟨fun _ => rfl, fun _ => rfl⟩

/-- A run in which the component does not come back. -/
def StaysAway (es : List Event) : Prop := ∀ url, Event.mount url ∉ es

/- Without a mount nothing is constructed. -/
theorem away_step {s s' : Hook} {e : Event} (step : s.step e = some s') (gone : s.effect = none)
    (shape : Shape s) (away : ∀ url, e ≠ .mount url) :
    s'.effect = none ∧ s'.sockets.length = s.sockets.length := by
  have nothing : s.KeepsNone := by
    cases shape with
    | idle _ nothing => exact nothing
    | connected effect => cases gone.symm.trans effect
    | waiting effect => cases gone.symm.trans effect
  cases e with
  | mount url => exact absurd rfl (away url)
  | unmount =>
    rw [Hook.step, if_pos gone] at step
    cases step
  | opened i =>
    obtain ⟨k, -, rfl⟩ := Option.map_eq_some_iff.mp step
    unfold onopen
    split <;> exact ⟨gone, rfl⟩
  | message i data =>
    obtain ⟨k, -, rfl⟩ := Option.map_eq_some_iff.mp step
    unfold onmessage
    split <;> exact ⟨gone, rfl⟩
  | errored i =>
    obtain ⟨k, -, rfl⟩ := Option.map_eq_some_iff.mp step
    exact ⟨gone, List.length_modify ..⟩
  | closed i =>
    obtain ⟨k, found, rfl⟩ := Option.map_eq_some_iff.mp step
    have no_handler := (attached_of_socket i found).symm.trans (nothing.1 i)
    rw [no_handler]
    exact ⟨gone, List.length_modify ..⟩
  | fired j =>
    obtain ⟨t, found, rfl⟩ := Option.map_eq_some_iff.mp step
    cases (pending_of_timer j found).symm.trans (nothing.2 j)

theorem away_run {s s' : Hook} {es : List Event} (run : s.run es = some s') (gone : s.effect = none)
    (shape : Shape s) (away : StaysAway es) :
    s'.effect = none ∧ s'.sockets.length = s.sockets.length := by
  induction es generalizing s with
  | nil =>
    cases run
    exact ⟨gone, rfl⟩
  | cons e es ih =>
    obtain ⟨t, step, rest⟩ := Option.bind_eq_some_iff.mp run
    have first : ∀ url, e ≠ .mount url := fun url same => away url (by simp [same])
    have later : StaysAway es := fun url member => away url (List.mem_cons_of_mem e member)
    obtain ⟨gone', count⟩ := away_step step gone shape first
    obtain ⟨gone'', count'⟩ := ih rest gone' (step_shape step shape) later
    exact ⟨gone'', count'.trans count⟩

/- Whatever comes in whatever order, the hook keeps one connection while it is mounted. After an
   unmount it keeps none, and opens none until it is mounted again. -/
theorem one_connection {es : List Event} {s : Hook} (run : Hook.run {} es = some s) :
    (s.mounted = true → s.KeepsOne) ∧
      (s.mounted = false → s.KeepsNone ∧ ∀ later t, StaysAway later → s.run later = some t →
        t.KeepsNone ∧ t.sockets.length = s.sockets.length) := by
  have shape := run_shape run start_shape
  have none_of : ∀ {t : Hook}, Shape t → t.effect = none → t.KeepsNone := by
    intro t shape gone
    cases shape with
    | idle _ nothing => exact nothing
    | connected effect => cases gone.symm.trans effect
    | waiting effect => cases gone.symm.trans effect
  constructor
  · intro mounted
    cases shape with
    | idle gone _ =>
      rw [Hook.mounted, gone] at mounted
      cases mounted
    | @connected url i _ _ _ only quiet =>
      left
      refine ⟨⟨i, by simp [only], fun i' on => ?_⟩, quiet⟩
      simpa [only] using on
    | @waiting url j _ _ _ _ alone only =>
      right
      refine ⟨alone, j, by simp [only], fun j' on => ?_⟩
      simpa [only] using on
  · intro unmounted
    have gone : s.effect = none := by simpa [Hook.mounted] using unmounted
    refine ⟨none_of shape gone, fun later t away rest => ?_⟩
    obtain ⟨gone', count⟩ := away_run rest gone shape away
    exact ⟨none_of (run_shape rest shape) gone', count⟩

/- A connection that fails, and an unmount while the retry is being opened. -/
theorem one_connection_retried : ∃ s t,
    Hook.run {} [.mount "ws://host/ws".toList, .errored 0, .closed 0] = some s ∧ s.KeepsOne ∧
      s.run [.fired 0, .unmount] = some t ∧ t.KeepsNone := by
  obtain ⟨s, first⟩ : ∃ s, Hook.run {} [.mount "ws://host/ws".toList, .errored 0, .closed 0] = some s :=
    ⟨_, rfl⟩
  obtain ⟨t, whole⟩ : ∃ t, Hook.run {}
      [.mount "ws://host/ws".toList, .errored 0, .closed 0, .fired 0, .unmount] = some t := ⟨_, rfl⟩
  have mounted : (Hook.run {} [.mount "ws://host/ws".toList, .errored 0, .closed 0]).map Hook.mounted =
      some true := rfl
  have unmounted : (Hook.run {} [.mount "ws://host/ws".toList, .errored 0, .closed 0, .fired 0,
      .unmount]).map Hook.mounted = some false := rfl
  rw [first, Option.map_some, Option.some.injEq] at mounted
  rw [whole, Option.map_some, Option.some.injEq] at unmounted
  have rest : s.run [.fired 0, .unmount] = some t := by
    cases first
    exact whole
  exact ⟨s, t, first, (one_connection first).1 mounted, rest, ((one_connection whole).2 unmounted).1⟩

end Reconnect
