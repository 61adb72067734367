import VotingApp.Lib.EffectProgram

/- A program run by a machine with more commands. -/
namespace Embedding
open EffectProgram

variable {Cmd Cmd' : Type} {Reply : Cmd → Type} {Reply' : Cmd' → Type} {α : Type}

/-- The program with each of its commands sent as one of the larger machine. -/
def embed (send : Cmd → Cmd') (reply : ∀ c, Reply' (send c) → Reply c) :
    Prog Cmd Reply α → Prog Cmd' Reply' α
  | .done a => .done a
  | .call c next => .call (send c) fun r => embed send reply (next (reply c r))

section Contracts
variable {send : Cmd → Cmd'} {reply : ∀ c, Reply' (send c) → Reply c}

theorem embed_issues (p : Prog Cmd Reply α) :
    (embed send reply p).Issues fun c => ∃ c', c = send c' := by
  induction p with
  | done a => trivial
  | call c next ih => exact ⟨⟨c, rfl⟩, fun r => ih _⟩

theorem embed_within {allowed : Cmd → Prop} {p : Prog Cmd Reply α} (uses : p.Issues allowed) :
    (embed send reply p).Issues fun c => ∃ c', c = send c' ∧ allowed c' := by
  induction p with
  | done a => trivial
  | call c next ih => exact ⟨⟨c, rfl, uses.1⟩, fun r => ih _ (uses.2 _)⟩

theorem embed_results {post : α → Prop} {p : Prog Cmd Reply α} {past : List (Exchange Cmd Reply)}
    (results : p.Meets (fun _ _ => True) (fun _ a => post a) past)
    (past' : List (Exchange Cmd' Reply')) :
    (embed send reply p).Meets (fun _ _ => True) (fun _ a => post a) past' := by
  induction p generalizing past past' with
  | done a => exact results
  | call c next ih => exact ⟨trivial, fun r => ih _ (results.2 _) _⟩

/- It sends nothing but commands of its own, and ends as it would on its own machine. -/
theorem embed_meets {post : α → Prop} {p : Prog Cmd Reply α}
    (results : p.Meets (fun _ _ => True) (fun _ a => post a) [])
    (past' : List (Exchange Cmd' Reply')) :
    (embed send reply p).Meets (fun _ _ => True)
      (fun now a => Grown (fun c => ∃ c', c = send c') past' now ∧ post a) past' := by
  have issues : (embed send reply p).Issues fun c => ∃ c', c = send c' := embed_issues p
  have own : (embed send reply p).Meets (fun _ _ => True)
      (fun now _ => Grown (fun c => ∃ c', c = send c') past' now) past' :=
    meets_of_issues issues fun _ _ _ _ => trivial
  exact meets_mono (meets_and own (embed_results results past')) (fun _ _ _ => trivial)
    fun _ _ both => both

/- A contract carries over along a relation of the two histories that every command keeps. -/
theorem embed_contract {rel : List (Exchange Cmd Reply) → List (Exchange Cmd' Reply') → Prop}
    {pre : List (Exchange Cmd Reply) → Cmd → Prop} {post : List (Exchange Cmd Reply) → α → Prop}
    {pre' : List (Exchange Cmd' Reply') → Cmd' → Prop} {post' : List (Exchange Cmd' Reply') → α → Prop}
    (grow : ∀ past past' c r, rel past past' → rel (⟨c, reply c r⟩ :: past) (⟨send c, r⟩ :: past'))
    (before : ∀ past past' c, rel past past' → pre past c → pre' past' (send c))
    (after : ∀ past past' a, rel past past' → post past a → post' past' a) {p : Prog Cmd Reply α}
    {past : List (Exchange Cmd Reply)} {past' : List (Exchange Cmd' Reply')}
    (meets : p.Meets pre post past) (related : rel past past') :
    (embed send reply p).Meets pre' post' past' := by
  induction p generalizing past past' with
  | done a => exact after past past' a related meets
  | call c next ih =>
    constructor
    · exact before past past' c related meets.1
    · intro r
      exact ih _ (meets.2 _) (grow past past' c r related)

end Contracts
end Embedding
