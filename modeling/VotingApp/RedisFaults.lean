import VotingApp.Lib.Session
import VotingApp.EmailAdmission

/-!
Calls made one after another over a healthy database and a Redis that can fail at any of its
commands. A command that fails may have taken effect before its answer was lost.
-/
namespace RedisFaults
open GoText GoTime JsonText Tables EffectProgram CallPool SoloRun Session ExpiringStore VotingWorld
open OtpService VotingSettings VoteService CustomDomains Handlers VotingServer
open Footprints Frames TableInvariants SettingsCache DomainCache SoloServer

/-- Which outcomes of a Redis command are admitted in a world: that it runs, or that it fails
in some way. -/
abbrev Conduct := World → RedisCmd → Option Fault → Bool

def anyFailure : Conduct := fun _ _ _ => true

/-- Nothing fails but Redis, and Redis only in the ways that are admitted. -/
def failsOnly (can : Conduct) (w : World) (o : Oracle) : Cmd → Bool
  | .redis c => can w c o.fault
  | _ => o.fault.isNone

def flaky (cfg : Config) (can : Conduct) : Server := restrict (server cfg) (failsOnly can)

/-- What a command can answer and make of the keys and the tables. -/
def mayFail (can : Conduct) (v : Memory) : (c : Cmd) → Reply c → Memory → Prop
  | .redis c, r, v' =>
    ∃ w, memory w = v ∧
      ((can w c none = true ∧ r = (c.run v.redis w.clock).1 ∧
        v' = { v with redis := (c.run v.redis w.clock).2 }) ∨
      ∃ f, can w c (some f) = true ∧ r = .error ⟨f.text, []⟩ ∧
        v' = { v with redis := if f.applied then (c.run v.redis w.clock).2 else v.redis })
  | .sql c, r, v' => ∃ now, r = (c.run v.db now).1 ∧ v' = { v with db := (c.run v.db now).2 }
  | _, _, v' => v' = v

theorem flaky_allows (cfg : Config) (can : Conduct) :
    Allows (flaky cfg can) anyOracle anyMove memory (mayFail can) where
  performs {w o c r w'} _ performed := by
    obtain ⟨admitted, unwritten⟩ := restrict_performs performed
    cases c with
    | redis c =>
      obtain ⟨rfl, rfl⟩ := perform_redis unwritten
      cases fault : o.fault with
      | none =>
        rw [failsOnly, fault] at admitted
        rw [faulty_ok fault]
        exact ⟨w, rfl, Or.inl ⟨admitted, rfl, rfl⟩⟩
      | some f =>
        rw [failsOnly, fault] at admitted
        rw [faulty, fault]
        exact ⟨w, rfl, Or.inr ⟨f, admitted, rfl, rfl⟩⟩
    | sql c =>
      obtain ⟨rfl, rfl⟩ := perform_sql unwritten
      have healthy : o.fault = none := Option.isNone_iff_eq_none.mp admitted
      rw [faulty_ok healthy]
      exact ⟨w.clock, rfl, rfl⟩
    | _ =>
      have unchanged : w.perform o _ = some (r, w') := unwritten
      obtain ⟨-, redis, db⟩ := perform_scope unchanged
      have same : memory w' = memory w := by
        simp only [reduceCtorEq, exists_false, false_or] at redis db
        unfold memory
        rw [redis, db]
      exact same
  env {w e w'} _ moved := by
    obtain ⟨db, redis, -, -⟩ := env_scope moved
    unfold memory
    rw [db, redis]

/-- However Redis fails, the program ends as Q says. -/
abbrev Survives (cfg : Config) (can : Conduct) {α : Type} (v : Memory) (p : Act α)
    (Q : α → Memory → Prop) : Prop := Ending (flaky cfg can) memory v p Q

section Rules
variable {cfg : Config} {can : Conduct} {α : Type} {v : Memory} {Q : α → Memory → Prop}

theorem survives_done {a : α} (h : Q a v) : Survives cfg can v (.done a) Q :=
  ends_done (flaky_allows cfg can) h

theorem survives_bind {β : Type} {p : Act β} {f : β → Act α} {Q' : β → Memory → Prop}
    (first : Survives cfg can v p Q')
    (rest : ∀ b v', Q' b v' → Survives cfg can v' (f b) Q) : Survives cfg can v (p >>= f) Q :=
  ends_bind first rest

theorem survives_mono {p : Act α} {Q' : α → Memory → Prop} (h : Survives cfg can v p Q')
    (weaker : ∀ a v', Q' a v' → Q a v') : Survives cfg can v p Q := ends_mono h weaker

/- A Redis command runs, or it fails, with its effect or without. -/
theorem survives_redis {c : RedisCmd} {f : Except GoErr c.Result → Act α}
    (runs : ∀ w, memory w = v → can w c none = true → Survives cfg can
      { v with redis := (c.run v.redis w.clock).2 } (f (c.run v.redis w.clock).1) Q)
    (fails : ∀ w fault, memory w = v → can w c (some fault) = true → Survives cfg can
      { v with redis := if fault.applied then (c.run v.redis w.clock).2 else v.redis }
        (f (.error ⟨fault.text, []⟩)) Q) :
    Survives cfg can v (redis c >>= f) Q := by
  have step : ∀ r v', mayFail can v (.redis c) r v' → Survives cfg can v' (f r) Q := by
    intro r v' answered
    obtain ⟨w, at_v, ⟨admitted, rfl, rfl⟩ | ⟨fault, admitted, rfl, rfl⟩⟩ := answered
    · exact runs w at_v admitted
    · exact fails w fault at_v admitted
  exact ends_call (flaky_allows cfg can) step

theorem survives_sql {c : SqlCmd} {f : Except GoErr c.Result → Act α}
    (runs : ∀ now, Survives cfg can { v with db := (c.run v.db now).2 } (f (c.run v.db now).1) Q) :
    Survives cfg can v (sql c >>= f) Q := by
  have step : ∀ r v', mayFail can v (.sql c) r v' → Survives cfg can v' (f r) Q := by
    intro r v' answered
    obtain ⟨now, rfl, rfl⟩ := answered
    exact runs now
  exact ends_call (flaky_allows cfg can) step

/- A command that touches neither the keys nor the tables. -/
theorem survives_issue {c : Cmd} {f : Reply c → Act α} (aside : ∀ rc, c ≠ .redis rc)
    (apart : ∀ sc, c ≠ .sql sc) (rest : ∀ r, Survives cfg can v (f r) Q) :
    Survives cfg can v (issue c >>= f) Q := by
  have step : ∀ r v', mayFail can v c r v' → Survives cfg can v' (f r) Q := by
    intro r v' answered
    have same : v' = v := by
      cases c with
      | redis rc => exact absurd rfl (aside rc)
      | sql sc => exact absurd rfl (apart sc)
      | _ => exact answered
    rw [same]
    exact rest r
  exact ends_call (flaky_allows cfg can) step

end Rules

/- A call of answerable commands can be executed alone while nothing fails. -/
theorem executed_of_issues (cfg : Config) {can : Conduct} {α : Type} {p : Act α}
    {allowed : Cmd → Prop} (uses : p.Issues allowed) (determined : ∀ c, allowed c → Determined c)
    (runs : ∀ w c, allowed (.redis c) → can w c none = true) (w : World) :
    ∃ a w' later, Executed (flaky cfg can) w p a w' later := by
  obtain ⟨a, w', later, run⟩ := executes_of_issues cfg (issues_mono uses determined) w
  have admitted : ∀ w o c, noFault o = true → allowed c → failsOnly can w o c = true := by
    intro w o c fair sent
    cases c with
    | redis c =>
      rw [failsOnly, noFault_none fair]
      exact runs w c sent
    | _ => exact fair
  exact ⟨a, w', later, executed_restrict admitted run uses⟩

def timedOut (applied : Bool) : Oracle := { fault := some ⟨applied, "i/o timeout".toList⟩ }

def base : World := (freshBoot twoCandidates).world

end RedisFaults
