import VotingApp.Server

/-!
api.ts: what axios makes of an answer, or of none. It resolves with the statuses of success and
rejects with every other one.
-/
namespace Api
open GoText JsonText Handlers VotingServer

def resolved : Option Answer → Option Response
  | some (.http r) => if 200 ≤ r.status ∧ r.status < 300 then some r else none
  | _ => none

/- err.response?.status -/
def status : Option Answer → Option Nat
  | some (.http r) => some r.status
  | _ => none

/- (err.response?.data as { error?: string })?.error ?? otherwise -/
def errorText (a : Option Answer) (otherwise : String) : Str :=
  match a with
  | some (.http r) =>
    match r.body.bind fun body => body.field "error".toList with
    | some (.str text) => text
    | _ => otherwise.toList
  | _ => otherwise.toList

theorem resolved_some {a : Option Answer} (fine : (resolved a).isSome = true) :
    ∃ r, a = some (.http r) ∧ r.status < 300 := by
  unfold resolved at fine
  split at fine
  · rename_i r
    split at fine
    · rename_i inside
      exact ⟨r, rfl, inside.2⟩
    · cases fine
  · cases fine

theorem status_some {a : Option Answer} {n : Nat} (is : status a = some n) :
    ∃ r, a = some (.http r) ∧ r.status = n := by
  unfold status at is
  split at is
  · rename_i r
    exact ⟨r, rfl, Option.some.inj is⟩
  · cases is

end Api
