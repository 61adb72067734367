import VotingApp.HubLoop

/-!
Whether anybody sends on a channel that Hub.Run has closed. ServeWS does not go through the
loop for its snapshot, and until it has sent it nothing takes messages from the channel.
-/
namespace ClosedChannels
open GoText WsHub HubDelivery HubLoop

/- The order in which one ServeWS serves its client: the registration, at most one SendToOne, then
   the pumps, whose readPump is the only one to unregister the client. -/
def InTurn (earlier : List Turn) : Turn → Prop
  | .sendToOne id _ => id < earlier.count .register ∧ (∀ msg, .sendToOne id msg ∉ earlier) ∧
      .startPumps id ∉ earlier
  | .startPumps id => id < earlier.count .register ∧ .startPumps id ∉ earlier
  | .unregister id => .startPumps id ∈ earlier
  | _ => True

/-- Any number of clients, each served in this order, with everything else in any order. -/
def Served (ms : List Turn) : Prop := ∀ earlier m later, ms = earlier ++ m :: later → InTurn earlier m

/-- A SendToOne after the loop has come to the client with more broadcasts than its channel
takes. -/
def LateSnapshot (ms : List Turn) : Prop := ∃ (before mid after : List Turn) (msg : Str),
  ms = before ++ .register :: (mid ++ .sendToOne (before.count .register) msg :: after) ∧
    channelSize < mid.count (.visit (before.count .register))

theorem served_before {a b : List Turn} (served : Served (a ++ b)) : Served a := by
  intro earlier m later split
  exact served earlier m (later ++ b) (by rw [split]; simp)

/- Where the n-th registration stands. -/
theorem registration {ms : List Turn} {n : Nat} (registered : n < ms.count .register) :
    ∃ before mid, ms = before ++ .register :: mid ∧ before.count .register = n := by
  induction ms generalizing n with
  | nil => cases registered
  | cons m ms ih =>
    by_cases here : m = .register
    · subst m
      cases n with
      | zero => exact ⟨[], ms, rfl, rfl⟩
      | succ n =>
        rw [List.count_cons_self] at registered
        obtain ⟨before, mid, rfl, count⟩ := ih (Nat.lt_of_succ_lt_succ registered)
        exact ⟨.register :: before, mid, rfl, by rw [List.count_cons_self, count]⟩
    · rw [List.count_cons_of_ne here] at registered
      obtain ⟨before, mid, rfl, count⟩ := ih registered
      exact ⟨m :: before, mid, rfl, by rw [List.count_cons_of_ne here, count]⟩

/-- The turns of ServeWS after the registration, and of the readPump that it starts. -/
def Serves (id : Nat) : Turn → Prop
  | .sendToOne i _ | .startPumps i | .unregister i => i = id
  | _ => False

/-- A client whose ServeWS is still at its snapshot after n broadcasts: they are all on its
channel, or there were too many. -/
inductive Waiting (n : Nat) (c : Client) : Prop where
  | open_ (pump : c.pump = .unstarted) (inHub : c.inHub = true) (buffer : c.buffer.length = n)
      (fits : n ≤ channelSize)
  | closed (pump : c.pump = .unstarted) (out : c.inHub = false) (full : channelSize < n)

theorem waiting_pump {n : Nat} {c : Client} (waiting : Waiting n c) : c.pump = .unstarted := by
  cases waiting <;> assumption

/- One turn of somebody else. -/
theorem waiting_step {id n : Nat} {s : Sight} (sighted : Sighted id s) {m : Turn}
    (legal : Legal id s m) (other : ¬ Serves id m) {c : Client} (at_c : s.client = some c)
    (waiting : Waiting n c) : ∃ c', (s.follow id m).client = some c' ∧
      Waiting (n + [m].count (.visit id)) c' := by
  have pump := waiting_pump waiting
  have same : (s.follow id m).client = s.client → m ≠ .visit id → ∃ c',
      (s.follow id m).client = some c' ∧ Waiting (n + [m].count (.visit id)) c' := by
    intro client no_visit
    refine ⟨c, client.trans at_c, ?_⟩
    rw [List.count_singleton, if_neg (by simpa using no_visit)]
    exact waiting
  cases concerned : concerns id m with
  | false =>
    apply same
    · rw [follow_unconcerned concerned]
    · rintro rfl
      simp [concerns] at concerned
  | true =>
    cases m with
    | send msg => exact same rfl (by simp)
    | take msg => exact same rfl (by simp)
    | finish => cases concerned
    | register =>
      have new : id ≠ s.count := Nat.ne_of_lt (sighted.known c at_c)
      exact same (if_neg new) (by simp)
    | unregister i => exact absurd (of_decide_eq_true concerned) other
    | sendToOne i msg => exact absurd (of_decide_eq_true concerned) other
    | startPumps i => exact absurd (of_decide_eq_true concerned) other
    | pump i =>
      have steps := legal (of_decide_eq_true concerned)
      simp [at_c, Client.pumpStep, pump] at steps
    | pumpFail i =>
      have steps := legal (of_decide_eq_true concerned)
      simp [at_c, Client.pumpFail, pump] at steps
    | visit i =>
      obtain rfl : i = id := by simpa [concerns] using concerned
      obtain ⟨msg, due⟩ := legal rfl
      obtain ⟨c', at_c', inHub⟩ := sighted.waiting (by rw [due]; exact List.cons_ne_nil _ _)
      obtain rfl : c = c' := Option.some.inj (at_c.symm.trans at_c')
      have open_ : c.closed = false := by simp [sighted.flags c at_c, inHub]
      refine ⟨c.offer msg, by simp [Sight.follow, due, at_c, offered, open_], ?_⟩
      rw [List.count_singleton_self]
      cases waiting with
      | closed _ out => simp [inHub] at out
      | open_ _ _ buffer fits =>
        by_cases room : c.buffer.length < channelSize
        · rw [show c.offer msg = c.put .broadcast msg from if_pos room]
          exact .open_ pump inHub (by simp [Client.put, buffer]) (by omega)
        · rw [show c.offer msg = c.close from if_neg room]
          exact .closed pump rfl (by omega)

/- As long as a client is not served, only the broadcasts that came to it count. -/
theorem waiting_run {before mid : List Turn} {l : Loop}
    (run : Loop.run {} (before ++ .register :: mid) = some l)
    (unserved : ∀ m ∈ mid, ¬ Serves (before.count .register) m) :
    ∃ c, l.hub.clients[before.count .register]? = some c ∧
      Waiting (mid.count (.visit (before.count .register))) c := by
  apply client_induction (P := fun mid => ∀ m ∈ mid, ¬ Serves (before.count .register) m)
    (J := fun mid _ => Waiting (mid.count (.visit (before.count .register)))) _ _ _ unserved run
  · intro mid m all m' member
    exact all m' (List.mem_append_left _ member)
  · intro l idle
    exact .open_ rfl rfl rfl (Nat.zero_le _)
  · intro mid m last l c all earlier sighted legal sight at_c waiting
    rw [sight, List.count_append]
    exact waiting_step sighted legal (all m (by simp)) at_c waiting

/- The channel is closed for ServeWS exactly when too many broadcasts came before it. -/
theorem closed_for_snapshot {before mid : List Turn} {l : Loop}
    (run : Loop.run {} (before ++ .register :: mid) = some l)
    (unserved : ∀ m ∈ mid, ¬ Serves (before.count .register) m) (msg : Str) :
    breaks l (.sendToOne (before.count .register) msg) = true ↔
      channelSize < mid.count (.visit (before.count .register)) := by
  obtain ⟨c, at_c, waiting⟩ := waiting_run run unserved
  have flags := (run_sighted run _).flags c at_c
  rw [breaks, at_c, Option.any_some, flags]
  cases waiting with
  | open_ _ inHub buffer fits =>
    rw [inHub]
    simp only [Bool.not_true, Bool.false_eq_true, false_iff]
    omega
  | closed _ out full => simp [out, full]

/- Before its SendToOne nobody else serves a client, and nobody unregisters it. -/
theorem unserved_before (before mid after : List Turn) (msg : Str)
    (served : Served (before ++ .register :: (mid ++ .sendToOne (before.count .register) msg :: after))) :
    ∀ m ∈ mid, ¬ Serves (before.count .register) m := by
  intro m member serves
  obtain ⟨-, once, unstarted⟩ := served (before ++ .register :: mid)
    (.sendToOne (before.count .register) msg) after (by simp)
  have there : m ∈ before ++ .register :: mid := by simp [member]
  cases m with
  | sendToOne i other =>
    rw [show i = _ from serves] at there
    exact once other there
  | startPumps i =>
    rw [show i = _ from serves] at there
    exact unstarted there
  | unregister i =>
    obtain ⟨front, back, rfl⟩ := List.append_of_mem member
    have started := served (before ++ .register :: front) (.unregister i)
      (back ++ .sendToOne (before.count .register) msg :: after) (by simp)
    rw [show i = _ from serves] at started
    apply unstarted
    rcases List.mem_append.mp started with inside | inside
    · exact List.mem_append_left _ inside
    · rcases List.mem_cons.mp inside with same | inside
      · cases same
      · simp [inside]
  | _ => exact serves

/- For every interleaving of the loop, of any number of ServeWS and of the pumps that they start:
   somebody has sent on a closed channel, or closed one again, if and only if some SendToOne was
   made after the loop had come to its client with more broadcasts than the channel takes. -/
theorem no_panic_iff {ms : List Turn} {l : Loop} (run : Loop.run {} ms = some l)
    (served : Served ms) : l.hub.panicked = true ↔ LateSnapshot ms := by
  induction ms using List.reverseRecOn generalizing l with
  | nil =>
    cases run
    constructor
    · intro panicked
      cases panicked
    · rintro ⟨before, mid, after, msg, split, -⟩
      simp at split
  | append_singleton ms m ih =>
    obtain ⟨last, earlier, moved⟩ := run_snoc.mp run
    rw [step_panicked earlier moved, Bool.or_eq_true, ih earlier (served_before served)]
    constructor
    · rintro (⟨before, mid, after, msg, rfl, late⟩ | broken)
      · exact ⟨before, mid, after ++ [m], msg, by simp, late⟩
      · cases m with
        | sendToOne id msg =>
          obtain ⟨known, -, -⟩ := served ms (.sendToOne id msg) [] rfl
          obtain ⟨before, mid, rfl, rfl⟩ := registration known
          refine ⟨before, mid, [], msg, by simp, ?_⟩
          have unserved := unserved_before before mid [] msg (by simpa using served)
          exact (closed_for_snapshot earlier unserved msg).mp broken
        | _ => cases broken
    · rintro ⟨before, mid, after, msg, split, late⟩
      rcases List.eq_nil_or_concat after with rfl | ⟨front, final, rfl⟩
      · right
        have same : ms ++ [m] = (before ++ .register :: mid) ++
            [.sendToOne (before.count .register) msg] := by rw [split]; simp
        obtain ⟨rfl, rfl⟩ := List.append_singleton_inj.mp same
        have unserved := unserved_before before mid [] msg (by rw [← split]; exact served)
        exact (closed_for_snapshot earlier unserved msg).mpr late
      · left
        have same : ms ++ [m] = (before ++ .register ::
            (mid ++ .sendToOne (before.count .register) msg :: front)) ++ [final] := by rw [split]; simp
        obtain ⟨rfl, -⟩ := List.append_singleton_inj.mp same
        exact ⟨before, mid, front, msg, rfl, late⟩

theorem served_snoc {ms : List Turn} {m : Turn} (served : Served ms) (turn : InTurn ms m) :
    Served (ms ++ [m]) := by
  intro earlier x later split
  rcases List.eq_nil_or_concat later with rfl | ⟨front, final, rfl⟩
  · obtain ⟨rfl, rfl⟩ := List.append_singleton_inj.mp split
    exact turn
  · have same : ms ++ [m] = (earlier ++ x :: front) ++ [final] := by rw [split]; simp
    obtain ⟨rfl, -⟩ := List.append_singleton_inj.mp same
    exact served earlier x front rfl

/-- The turns that ask nothing of those before them. -/
def free : Turn → Bool
  | .sendToOne _ _ | .startPumps _ | .unregister _ => false
  | _ => true

theorem served_free {ms : List Turn} (all : ms.all free = true) : Served ms := by
  rintro earlier m later rfl
  have here : free m = true := List.all_eq_true.mp all m (by simp)
  cases m with
  | sendToOne id msg => cases here
  | startPumps id => cases here
  | unregister id => cases here
  | _ => trivial

/-- One broadcast from the call that sends it to the last client. -/
def handedOut (msg : Str) : List Turn := [.send msg, .take msg, .visit 0, .finish]

/-- A client connects, and n broadcasts are handled while its snapshot is computed. -/
def flood (n : Nat) : List Turn :=
  .register :: (List.replicate n (handedOut "state".toList)).flatten

theorem flood_served (n : Nat) : Served (flood n ++ [.sendToOne 0 "snapshot".toList]) := by
  have only : ∀ m ∈ flood n, m = .register ∨ m ∈ handedOut "state".toList := by
    intro m member
    rcases List.mem_cons.mp member with first | rest
    · exact Or.inl first
    · obtain ⟨block, in_blocks, there⟩ := List.mem_flatten.mp rest
      rw [List.eq_of_mem_replicate in_blocks] at there
      exact Or.inr there
  apply served_snoc
  · apply served_free
    rw [List.all_eq_true]
    intro m member
    rcases only m member with rfl | there
    · rfl
    · exact (by decide : ∀ m ∈ handedOut "state".toList, free m = true) m there
  · refine ⟨?_, ?_, ?_⟩
    · rw [flood, List.count_cons_self]
      exact Nat.succ_pos _
    · intro msg there
      rcases only _ there with same | inside
      · cases same
      · simp [handedOut] at inside
    · intro there
      rcases only _ there with same | inside
      · cases same
      · simp [handedOut] at inside

/- With 256 broadcasts the channel is full and the snapshot is skipped. -/
theorem no_panic_full : ¬ LateSnapshot (flood 256 ++ [.sendToOne 0 "snapshot".toList]) := by
  have skipped : (Loop.run {} (flood 256 ++ [.sendToOne 0 "snapshot".toList])).map
      (fun l => l.hub.panicked) = some false := by decide +kernel
  obtain ⟨l, run, calm⟩ := Option.map_eq_some_iff.mp skipped
  intro late
  rw [(no_panic_iff run (flood_served 256)).mpr late] at calm
  cases calm

/- With one more the loop closes the channel, and the snapshot is sent on it. -/
theorem panic_reached : ∃ ms l, Loop.run {} ms = some l ∧ Served ms ∧ l.hub.panicked = true := by
  have broken : (Loop.run {} (flood 257 ++ [.sendToOne 0 "snapshot".toList])).map
      (fun l => l.hub.panicked) = some true := by decide +kernel
  obtain ⟨l, run, panicked⟩ := Option.map_eq_some_iff.mp broken
  exact ⟨_, l, run, flood_served 257, panicked⟩

end ClosedChannels
