import VotingApp.UseWebSocket

/-!
From the send channel to the browser. writePump puts whatever is queued into one frame,
one payload a line, and the browser reads a frame as one JSON text.
-/
namespace Framing
open GoText GoTime JsonText Tables WsHub VotingWorld VotingSettings UseWebSocket

/-- What happens to one client: the hub puts a message on its channel or closes it, the
pumps are started, and writePump takes a step. -/
inductive ClientMove where
  | put (origin : Origin) (msg : Str)
  | close
  | start
  | pump
  deriving DecidableEq, Repr

def clientStep (c : Client) : ClientMove → Option Client
  | .put origin msg =>
    if !c.closed && c.buffer.length < channelSize then some (c.put origin msg) else none
  | .close => if c.inHub then some c.close else none
  | .start => if c.pump = .unstarted then some { c with pump := .idle } else none
  | .pump => c.pumpStep

def clientRun (c : Client) : List ClientMove → Option Client
  | [] => some c
  | move :: moves => (clientStep c move).bind fun next => clientRun next moves

/-- One frame: the first message, and every further one behind a line feed. -/
def frameOf : List Str → Str
  | [] => []
  | msg :: more => more.foldl (fun frame next => frame ++ '\n' :: next) msg

theorem frame_grows {held : List Str} (full : held ≠ []) (msg : Str) :
    frameOf held ++ '\n' :: msg = frameOf (held ++ [msg]) := by
  cases held with
  | nil => exact absurd rfl full
  | cons first more => simp [frameOf]

/-- The messages of the frame that is open, and how many are still to come from the channel. -/
def Holds (c : Client) (held : List Str) : Prop :=
  match c.pump with
  | .opened frame => held ≠ [] ∧ frame = frameOf held
  | .flushing left frame => held ≠ [] ∧ frame = frameOf held ∧ left ≤ c.buffer.length
  | _ => held = []

/-- The frames hold what was put on the channel, in order, but for what is still on its way. -/
structure Framed (c : Client) (groups : List (List Str)) (held : List Str) : Prop where
  frames : c.frames = groups.map frameOf
  full : ∀ group ∈ groups, group ≠ []
  holds : Holds c held
  all : groups.flatten ++ (held ++ c.buffer) = c.sent.map Put.data

theorem pump_framed {c c' : Client} (moved : c.pumpStep = some c') {groups : List (List Str)}
    {held : List Str} (framed : Framed c groups held) :
    ∃ groups' held', Framed c' groups' held' := by
  obtain ⟨frames, full, holds, all⟩ := framed
  unfold Client.pumpStep at moved
  split at moved
  · cases moved
  · cases moved
  · rename_i idle empty
    split at moved
    · cases moved
      simp only [Holds, idle] at holds
      exact ⟨groups, held, frames, full, holds, all⟩
    · cases moved
  · rename_i msg rest idle queued
    cases moved
    simp only [Holds, idle] at holds
    subst held
    refine ⟨groups, [msg], frames, full, ⟨List.cons_ne_nil _ _, rfl⟩, ?_⟩
    rw [← all, queued]
    rfl
  · rename_i frame queued opened
    cases moved
    simp only [Holds, opened] at holds
    exact ⟨groups, held, frames, full, ⟨holds.1, holds.2, Nat.le_refl _⟩, all⟩
  · rename_i frame flushing
    cases moved
    simp only [Holds, flushing] at holds
    refine ⟨groups ++ [held], [], ?_, ?_, rfl, ?_⟩
    · simp [frames, holds.2.1]
    · intro group member
      rcases List.mem_append.mp member with old | new
      · exact full group old
      · rw [List.mem_singleton.mp new]
        exact holds.1
    · simpa using all
  · rename_i left frame msg rest flushing queued
    cases moved
    simp only [Holds, flushing, queued, List.length_cons] at holds
    refine ⟨groups, held ++ [msg], frames, full, ⟨by simp, ?_, Nat.le_of_succ_le_succ holds.2.2⟩, ?_⟩
    · rw [holds.2.1, frame_grows holds.1]
    · rw [← all, queued]
      simp
  · cases moved

theorem step_framed {c c' : Client} {move : ClientMove} (moved : clientStep c move = some c')
    {groups : List (List Str)} {held : List Str} (framed : Framed c groups held) :
    ∃ groups' held', Framed c' groups' held' := by
  cases move with
  | put origin msg =>
    simp only [clientStep] at moved
    split at moved
    · cases moved
      obtain ⟨frames, full, holds, all⟩ := framed
      refine ⟨groups, held, frames, full, ?_, ?_⟩
      · unfold Holds at holds ⊢
        cases pump : c.pump <;> simp_all [Client.put]
        omega
      · rw [Client.put, List.map_append, ← all]
        simp
    · cases moved
  | close =>
    simp only [clientStep] at moved
    split at moved
    · cases moved
      exact ⟨groups, held, framed.frames, framed.full, framed.holds, framed.all⟩
    · cases moved
  | start =>
    simp only [clientStep] at moved
    split at moved
    · rename_i unstarted
      cases moved
      obtain ⟨frames, full, holds, all⟩ := framed
      simp only [Holds, unstarted] at holds
      exact ⟨groups, held, frames, full, holds, all⟩
    · cases moved
  | pump => exact pump_framed moved framed

/-- Every run from a new client keeps the frames in order with what was put. -/
theorem run_framed {c c' : Client} {moves : List ClientMove} (ran : clientRun c moves = some c')
    {groups : List (List Str)} {held : List Str} (framed : Framed c groups held) :
    ∃ groups' held', Framed c' groups' held' := by
  induction moves generalizing c groups held with
  | nil =>
    cases ran
    exact ⟨groups, held, framed⟩
  | cons move moves ih =>
    obtain ⟨next, stepped, rest⟩ := Option.bind_eq_some_iff.mp ran
    obtain ⟨groups', held', framed'⟩ := step_framed stepped framed
    exact ih rest framed'

/-- Nothing is left on the channel or in an open frame. -/
def Drained (c : Client) : Prop := c.buffer = [] ∧ (c.pump = .idle ∨ c.pump = .stopped)

instance (c : Client) : Decidable (Drained c) := inferInstanceAs (Decidable (_ ∧ (_ ∨ _)))

/-- The messages that were put on the channel, cut into those of each frame. -/
structure Grouped (c : Client) (groups : List (List Str)) : Prop where
  full : ∀ group ∈ groups, group ≠ []
  all : groups.flatten = c.sent.map Put.data
  frames : c.frames = groups.map frameOf

/- A drained channel has gone out, whatever the schedule was. -/
theorem drained_grouped {c : Client} {moves : List ClientMove}
    (ran : clientRun { inHub := true } moves = some c) (drained : Drained c) :
    ∃ groups, Grouped c groups := by
  have fresh : Framed { inHub := true } [] [] := ⟨rfl, by simp, rfl, rfl⟩
  obtain ⟨groups, held, framed⟩ := run_framed ran fresh
  obtain ⟨empty, stands⟩ := drained
  have nothing : held = [] := by
    have holds := framed.holds
    unfold Holds at holds
    rcases stands with idle | stopped
    · rw [idle] at holds
      exact holds
    · rw [stopped] at holds
      exact holds
  refine ⟨groups, framed.full, ?_, framed.frames⟩
  rw [← framed.all, nothing, empty]
  simp

/-- Payload texts, as BuildWSPayload marshals them. -/
def Marshalled (payloads : List WsPayload) (texts : List Str) : Prop :=
  List.Forall₂ (fun p m => marshalPayload p = .ok m) payloads texts

theorem marshalled_of_mem {payloads : List WsPayload} {texts : List Str}
    (marshalled : Marshalled payloads texts) {m : Str} (member : m ∈ texts) :
    ∃ p, marshalPayload p = .ok m := by
  induction marshalled with
  | nil => cases member
  | cons head tail ih =>
    cases member with
    | head => exact ⟨_, head⟩
    | tail _ member => exact ih member

theorem frame_lines (first next : Str) (more : List Str) :
    frameOf (first :: next :: more) = first ++ '\n' :: frameOf (next :: more) := by
  simp [frameOf]

/- JSON.parse throws on a frame with two payloads or more. -/
theorem coalesced_ignored {p q : WsPayload} {m n : Str} (marshalled : marshalPayload p = .ok m)
    (marshalled' : marshalPayload q = .ok n) (more : List Str) (v : View) :
    onmessage v (frameOf (m :: n :: more)) = v := by
  have rejected : parse (frameOf (m :: n :: more)) = none := by
    rw [frame_lines, marshal_text marshalled]
    apply parse_print_more
    · intro c first
      cases first
      rfl
    · obtain ⟨c, text, starts, solid, -⟩ := print_starts (jsonPayload q)
      have second : ∃ rest, frameOf (n :: more) = c :: rest := by
        rw [marshal_text marshalled', starts]
        cases more with
        | nil => exact ⟨text, rfl⟩
        | cons next more => exact ⟨_, by rw [frame_lines, List.cons_append]⟩
      obtain ⟨rest, is⟩ := second
      rw [is]
      simp [skipBlanks, isBlank, List.dropWhile_cons]
      simp [isBlank] at solid
      simp [solid]
  rw [onmessage, rejected]

/-- The message of a frame that holds one. -/
def alone : List Str → Option Str
  | [msg] => some msg
  | _ => none

/- The browser shows the last payload that came in a frame of its own. -/
theorem receive_groups {groups : List (List Str)}
    (payloads : ∀ m ∈ groups.flatten, ∃ p, marshalPayload p = .ok m)
    (full : ∀ group ∈ groups, group ≠ []) (v : View) :
    (groups.map frameOf).foldl onmessage v =
      ((groups.filterMap alone).getLast?.map (onmessage {})).getD v := by
  induction groups generalizing v with
  | nil => rfl
  | cons group groups ih =>
    have rest := ih (fun m member => payloads m (by simp [member])) fun g member =>
      full g (by simp [member])
    rw [List.map_cons, List.foldl_cons, rest]
    match group with
    | [] => exact absurd rfl (full [] (by simp))
    | [msg] =>
      obtain ⟨p, marshalled⟩ := payloads msg (by simp)
      have one : onmessage v (frameOf [msg]) = onmessage {} msg := by
        rw [onmessage_payload marshalled]
        exact onmessage_payload marshalled v
      have taken : alone [msg] = some msg := rfl
      rw [one, List.filterMap_cons_some taken, List.getLast?_cons]
      cases (groups.filterMap alone).getLast? <;> rfl
    | first :: next :: more =>
      obtain ⟨p, marshalled⟩ := payloads first (by simp)
      obtain ⟨q, marshalled'⟩ := payloads next (by simp)
      rw [coalesced_ignored marshalled marshalled', List.filterMap_cons_none rfl]

/-- The last payload that came in a frame of its own has the text of the last payload. -/
def LastShown (groups : List (List Str)) : Prop :=
  (groups.filterMap alone).getLast? = groups.flatten.getLast?

/- One frame for each payload. -/
theorem receive_one_by_one {texts : List Str}
    (payloads : ∀ m ∈ texts, ∃ p, marshalPayload p = .ok m) :
    receive texts = (texts.getLast?.map (onmessage {})).getD {} := by
  have each : (texts.map fun m => [m]).filterMap alone = texts := by
    rw [List.filterMap_map]
    exact List.filterMap_some
  have frames : (texts.map fun m => [m]).map frameOf = texts := by
    rw [List.map_map]
    exact List.map_id texts
  have joined : (texts.map fun m => [m]).flatten = texts := by
    rw [← List.flatMap_def]
    exact List.flatMap_singleton' texts
  rw [← joined] at payloads
  have shows := receive_groups payloads (by simp) {}
  rw [each, frames] at shows
  exact shows

theorem grouped_agrees_iff {c : Client} {groups : List (List Str)} (grouped : Grouped c groups)
    {payloads : List WsPayload} (marshalled : Marshalled payloads (c.sent.map Put.data))
    (some_payload : payloads ≠ []) :
    receive c.frames = receive (c.sent.map Put.data) ↔ LastShown groups := by
  obtain ⟨full, flat, frames⟩ := grouped
  have texts : ∀ m ∈ c.sent.map Put.data, ∃ p, marshalPayload p = .ok m :=
    fun m member => marshalled_of_mem marshalled member
  rw [receive_one_by_one texts, frames, receive, receive_groups (flat ▸ texts) full, LastShown, flat]
  have some_text : c.sent.map Put.data ≠ [] := by
    intro none_put
    rw [none_put] at marshalled
    cases marshalled
    exact some_payload rfl
  obtain ⟨last, at_last⟩ := Option.ne_none_iff_exists'.mp (mt List.getLast?_eq_none_iff.mp some_text)
  obtain ⟨q, shows⟩ := texts last (List.mem_of_getLast? at_last)
  rw [at_last, Option.map_some, Option.getD_some, onmessage_payload shows]
  cases lone : (groups.filterMap alone).getLast? with
  | none =>
    constructor
    · intro same
      exact absurd same.symm (shown_not_initial q)
    · intro same
      cases same
  | some m =>
    obtain ⟨group, member, is⟩ := List.mem_filterMap.mp (List.mem_of_getLast? lone)
    have in_flat : m ∈ groups.flatten := by
      unfold alone at is
      split at is
      · cases is
        exact List.mem_flatten.mpr ⟨_, member, List.mem_singleton_self m⟩
      · cases is
    rw [flat] at in_flat
    obtain ⟨p, shows'⟩ := texts m in_flat
    rw [Option.map_some, Option.getD_some, onmessage_payload shows', Option.some.injEq]
    constructor
    · exact shown_text shows' shows
    · intro same
      subst m
      rw [← onmessage_payload shows' {}, onmessage_payload shows]

/- The browser ends where the payloads one by one would take it exactly when the last
   payload that had a frame of its own has the text of the last payload. -/
theorem framing_agrees_iff {moves : List ClientMove} {c : Client}
    (ran : clientRun { inHub := true } moves = some c) (drained : Drained c)
    {payloads : List WsPayload} (marshalled : Marshalled payloads (c.sent.map Put.data))
    (some_payload : payloads ≠ []) :
    (∃ groups, Grouped c groups) ∧ ∀ groups, Grouped c groups →
      (receive c.frames = receive (c.sent.map Put.data) ↔ LastShown groups) := by
  constructor
  · exact drained_grouped ran drained
  · intro groups grouped
    exact grouped_agrees_iff grouped marshalled some_payload

def nominated : Nat := daysOf ⟨2025, 1, 1⟩ * secondsADay * second

/-- A leaderboard of one candidate with so many votes, in an open election. -/
def leaderboard (votes : Int) : WsPayload where
  candidates := [⟨⟨1, "Ann".toList, [], [], nominated, none⟩, votes⟩]
  effectivelyOpen := true
  endsAt := none

def payloadText (p : WsPayload) : Str := print (jsonPayload p)

theorem leaderboard_text (votes : Int) :
    marshalPayload (leaderboard votes) = .ok (payloadText (leaderboard votes)) := by
  have printed : printable nominated = true := by decide +kernel
  simp [marshalPayload, leaderboard, printableCandidate, printed, payloadText]

/-- The snapshot goes out in a frame of its own, then the first vote does. -/
def calmMoves : List ClientMove :=
  [.put .snapshot (payloadText (leaderboard 0)), .start, .pump, .pump, .pump,
    .put .broadcast (payloadText (leaderboard 1)), .pump, .pump, .pump]

def calm : Client := (clientRun { inHub := true } calmMoves).getD {}

theorem framing_agrees_iff_calm :
    (∃ groups, Grouped calm groups) ∧ ∀ groups, Grouped calm groups →
      (receive calm.frames = receive (calm.sent.map Put.data) ↔ LastShown groups) := by
  have ran : clientRun { inHub := true } calmMoves = some calm := by decide +kernel
  have marshalled : Marshalled [leaderboard 0, leaderboard 1] (calm.sent.map Put.data) :=
    .cons (leaderboard_text 0) (.cons (leaderboard_text 1) .nil)
  exact framing_agrees_iff ran (by decide +kernel) marshalled (by decide)

/-- The first vote is put on the channel while the snapshot is still on it. -/
def hastyMoves : List ClientMove :=
  [.put .snapshot (payloadText (leaderboard 0)), .start,
    .put .broadcast (payloadText (leaderboard 1)), .pump, .pump, .pump, .pump]

def hasty : Client := (clientRun { inHub := true } hastyMoves).getD {}

/- Both payloads leave in one frame, and the browser shows neither. -/
theorem coalesced_payloads_lost :
    clientRun { inHub := true } hastyMoves = some hasty ∧ Drained hasty ∧
      Marshalled [leaderboard 0, leaderboard 1] (hasty.sent.map Put.data) ∧
        receive hasty.frames = {} ∧ receive (hasty.sent.map Put.data) = shown (leaderboard 1) ∧
          receive hasty.frames ≠ receive (hasty.sent.map Put.data) := by
  have at_frames : hasty.frames = [frameOf [payloadText (leaderboard 0), payloadText (leaderboard 1)]] := by
    decide +kernel
  have at_sent : hasty.sent.map Put.data = [payloadText (leaderboard 0), payloadText (leaderboard 1)] := by
    decide +kernel
  have marshalled : Marshalled [leaderboard 0, leaderboard 1] (hasty.sent.map Put.data) := by
    rw [at_sent]
    exact .cons (leaderboard_text 0) (.cons (leaderboard_text 1) .nil)
  have nothing : receive hasty.frames = {} := by
    rw [at_frames, receive, List.foldl_cons, List.foldl_nil]
    exact coalesced_ignored (leaderboard_text 0) (leaderboard_text 1) [] {}
  have last : receive (hasty.sent.map Put.data) = shown (leaderboard 1) := by
    rw [at_sent, receive, List.foldl_cons, List.foldl_cons, List.foldl_nil]
    exact onmessage_payload (leaderboard_text 1) _
  refine ⟨by decide +kernel, by decide +kernel, marshalled, nothing, last, ?_⟩
  rw [nothing, last]
  exact (shown_not_initial _).symm

end Framing
