import VotingApp.Lib.SoloRun
import VotingApp.SettingsCache

/-!
A call that is executed alone over a healthy Redis and a healthy database. What it answers
and what it leaves is settled by the clock, the keys and the tables that it starts with; the
hub and the mail queue have no say in it.
-/
namespace SoloServer
open GoText GoTime JsonText Tables WsHub EffectProgram CallPool SoloRun ExpiringStore VotingWorld
open OtpService VotingSettings VoteService CustomDomains Handlers VotingServer
open Footprints Frames SettingsCache

/-- The hub and the pumps go on while a call is executed, but no time passes. -/
def hubOnly : Env → Bool
  | .tick _ => false
  | _ => true

/-- The world without the hub and the mail queue. -/
def bare (w : World) : World := { w with hub := {}, outbox := [] }

/-- What a healthy command answers, where the keys, the tables and the clock settle it. -/
def answer (w : World) : (c : Cmd) → Option (Reply c × World)
  | .redis c => some ((c.run w.redis w.clock).1, { w with redis := (c.run w.redis w.clock).2 })
  | .sql c => some ((c.run w.db w.clock).1, { w with db := (c.run w.db w.clock).2 })
  | .now => some (w.clock, w)
  | .broadcast _ => some ((), w)
  | .goWarmCache => some ((), w)
  | _ => none

theorem server_settles (cfg : Config) : Settles (server cfg) noFault hubOnly bare answer where
  performs {w o c r w' x} fair performed answered := by
    cases c with
    | redis c =>
      obtain ⟨rfl, rfl⟩ := perform_redis performed
      cases answered
      rw [faulty_ok (noFault_none fair)]
      rfl
    | sql c =>
      obtain ⟨rfl, rfl⟩ := perform_sql performed
      cases answered
      rw [faulty_ok (noFault_none fair)]
      rfl
    | broadcast data =>
      cases answered
      obtain ⟨hub, -, same⟩ := Option.map_eq_some_iff.mp performed
      cases same
      rfl
    | now =>
      cases answered
      cases performed
      rfl
    | goWarmCache =>
      cases answered
      cases performed
      rfl
    | _ => cases answered
  env {w e w'} calm moved := by
    cases e with
    | tick d => cases calm
    | _ =>
      obtain ⟨hub, -, rfl⟩ := Option.map_eq_some_iff.mp moved
      rfl

/- The hub loop makes room for a broadcast. -/
theorem room_for_broadcast (cfg : Config) (w : World) : ∃ w',
    Calm (server cfg) hubOnly w w' ∧ w'.hub.queue.length < channelSize := by
  induction waiting : w.hub.queue generalizing w with
  | nil =>
    refine ⟨w, .refl w, ?_⟩
    rw [waiting]
    decide
  | cons msg rest ih =>
    let next : World := { w with
      hub := w.hub.registered.foldl (Hub.offer msg) { w.hub with queue := rest } }
    have moved : w.env (.hubBroadcast w.hub.registered) = some next := by
      have same_order : w.hub.registered.isPerm w.hub.registered = true :=
        List.isPerm_iff.mpr (List.Perm.refl _)
      simp [World.env, Hub.broadcast, waiting, same_order, next]
    have offered : ∀ (ids : List Nat) (h : Hub), (ids.foldl (Hub.offer msg) h).queue = h.queue := by
      intro ids
      induction ids with
      | nil => intro h; rfl
      | cons id ids ih =>
        intro h
        rw [List.foldl_cons, ih]
        unfold Hub.offer
        split
        · rfl
        · split <;> rfl
    obtain ⟨w', path, room⟩ := ih next (offered w.hub.registered { w.hub with queue := rest })
    exact ⟨w', .step (e := .hubBroadcast w.hub.registered) rfl moved path, room⟩

theorem server_goes (cfg : Config) (w : World) (c : Cmd) (x : Reply c × World)
    (answered : answer (bare w) c = some x) : ∃ w₁ o r w₂, Calm (server cfg) hubOnly w w₁ ∧
      noFault o = true ∧ (server cfg).perform w₁ o c = some (r, w₂) := by
  cases c with
  | broadcast data =>
    obtain ⟨w', path, room⟩ := room_for_broadcast cfg w
    refine ⟨w', {}, (), { w' with hub := { w'.hub with queue := w'.hub.queue ++ [data] } }, path, rfl, ?_⟩
    change (w'.hub.send data).map _ = _
    rw [Hub.send, if_pos room]
    rfl
  | redis c => exact ⟨w, {}, _, _, .refl w, rfl, rfl⟩
  | sql c => exact ⟨w, {}, _, _, .refl w, rfl, rfl⟩
  | now => exact ⟨w, {}, _, _, .refl w, rfl, rfl⟩
  | goWarmCache => exact ⟨w, {}, _, _, .refl w, rfl, rfl⟩
  | _ => cases answered

/-- The call is executed alone from the first world, and leaves the second. -/
abbrev Executes (cfg : Config) {α : Type} (w : World) (p : Act α) (a : α) (w' : World)
    (later : List Call) : Prop := Solo (server cfg) noFault hubOnly w p a w' later

/-- The commands whose answers need neither chance nor a third party. -/
def Determined : Cmd → Prop
  | .redis _ | .sql _ | .now | .broadcast _ | .goWarmCache => True
  | _ => False

theorem determined_answer (v : World) (c : Cmd) (determined : Determined c) :
    ∃ x, answer v c = some x := by
  cases c with
  | redis c => exact ⟨_, rfl⟩
  | sql c => exact ⟨_, rfl⟩
  | now => exact ⟨_, rfl⟩
  | broadcast data => exact ⟨_, rfl⟩
  | goWarmCache => exact ⟨_, rfl⟩
  | _ => cases determined

/- A program of such commands always comes to its end. -/
theorem executes_of_issues (cfg : Config) {α : Type} {p : Act α} (uses : p.Issues Determined)
    (w : World) : ∃ a w' later, Executes cfg w p a w' later := by
  obtain ⟨x, evaluated⟩ := evaluates_of_issues determined_answer uses (bare w)
  obtain ⟨w', later, run⟩ := solo_exists (server_settles cfg) (server_goes cfg) evaluated
  exact ⟨x.1, w', later, run⟩

section Commands
variable {α : Type} {w : World}

theorem evaluate_redis (c : RedisCmd) (f : Except GoErr c.Result → Act α) :
    evaluate answer (redis c >>= f) w =
      evaluate answer (f (c.run w.redis w.clock).1) { w with redis := (c.run w.redis w.clock).2 } := rfl

theorem evaluate_sql (c : SqlCmd) (f : Except GoErr c.Result → Act α) :
    evaluate answer (sql c >>= f) w =
      evaluate answer (f (c.run w.db w.clock).1) { w with db := (c.run w.db w.clock).2 } := rfl

theorem evaluate_now (f : Nat → Act α) :
    evaluate answer ((issue Cmd.now : Act Nat) >>= f) w = evaluate answer (f w.clock) w := rfl

end Commands

/-- What the calls share, apart from the clock, the hub and the mail queue. -/
structure Memory where
  db : Db
  redis : Store Str Str

def memory (w : World) : Memory := ⟨w.db, w.redis⟩

/-- What a healthy command can answer, whatever time it is. -/
def may (v : Memory) : (c : Cmd) → Reply c → Memory → Prop
  | .redis c, r, v' => ∃ now, r = (c.run v.redis now).1 ∧ v' = { v with redis := (c.run v.redis now).2 }
  | .sql c, r, v' => ∃ now, r = (c.run v.db now).1 ∧ v' = { v with db := (c.run v.db now).2 }
  | _, _, v' => v' = v

def anyTime (_ : Env) : Bool := true

/-- The call is executed alone, and time may pass between its commands. -/
abbrev Completes (cfg : Config) {α : Type} (w : World) (p : Act α) (a : α) (w' : World)
    (later : List Call) : Prop := Solo (server cfg) noFault anyTime w p a w' later

abbrev Leads (cfg : Config) {α : Type} (v : Memory) (p : Act α) (Q : α → Memory → Prop) : Prop :=
  Ends (server cfg) noFault anyTime memory v p Q

theorem completes_of_executes {cfg : Config} {α : Type} {w w' : World} {p : Act α} {a : α}
    {later : List Call} (executed : Executes cfg w p a w' later) : Completes cfg w p a w' later :=
  solo_mono (fun _ _ => rfl) executed

theorem server_allows (cfg : Config) : Allows (server cfg) noFault anyTime memory may where
  performs {w o c r w'} fair performed := by
    cases c with
    | redis c =>
      obtain ⟨rfl, rfl⟩ := perform_redis performed
      rw [faulty_ok (noFault_none fair)]
      exact ⟨w.clock, rfl, rfl⟩
    | sql c =>
      obtain ⟨rfl, rfl⟩ := perform_sql performed
      rw [faulty_ok (noFault_none fair)]
      exact ⟨w.clock, rfl, rfl⟩
    | _ =>
      have unwritten : w.perform o _ = some (r, w') := performed
      obtain ⟨-, redis, db⟩ := perform_scope unwritten
      have same : memory w' = memory w := by
        simp only [reduceCtorEq, exists_false, false_or] at redis db
        unfold memory
        rw [redis, db]
      exact same
  env {w e w'} calm moved := by
    obtain ⟨db, redis, -, -⟩ := env_scope moved
    unfold memory
    rw [db, redis]

section Rules
variable {cfg : Config} {α : Type} {v : Memory} {Q : α → Memory → Prop}

theorem leads_done {a : α} (h : Q a v) : Leads cfg v (.done a) Q := ends_done (server_allows cfg) h

theorem leads_redis {c : RedisCmd} {f : Except GoErr c.Result → Act α}
    (step : ∀ now, Leads cfg { v with redis := (c.run v.redis now).2 } (f (c.run v.redis now).1) Q) :
    Leads cfg v (redis c >>= f) Q := by
  refine ends_call (server_allows cfg) fun r v' answered => ?_
  obtain ⟨now, rfl, rfl⟩ := answered
  exact step now

theorem leads_sql {c : SqlCmd} {f : Except GoErr c.Result → Act α}
    (step : ∀ now, Leads cfg { v with db := (c.run v.db now).2 } (f (c.run v.db now).1) Q) :
    Leads cfg v (sql c >>= f) Q := by
  refine ends_call (server_allows cfg) fun r v' answered => ?_
  obtain ⟨now, rfl, rfl⟩ := answered
  exact step now

theorem leads_warming {f : Unit → Act α} (step : Leads cfg v (f ()) Q) :
    Leads cfg v ((issue Cmd.goWarmCache : Act Unit) >>= f) Q := by
  refine ends_call (server_allows cfg) fun r v' same => ?_
  cases same
  exact step

end Rules

end SoloServer
