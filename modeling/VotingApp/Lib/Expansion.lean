import VotingApp.Lib.EffectProgram

/- A program whose commands are carried out by programs of another machine. -/
namespace Expansion
open EffectProgram

variable {Cmd Cmd' : Type} {Reply : Cmd → Type} {Reply' : Cmd' → Type} {α : Type}

/-- The program with each of its commands replaced by what carries it out. -/
def expand (carry : ∀ c, Prog Cmd' Reply' (Reply c)) : Prog Cmd Reply α → Prog Cmd' Reply' α
  | .done a => .done a
  | .call c next => carry c >>= fun r => expand carry (next r)

/- A contract carries over along a relation of the two histories, when what carries a command out
   respects the contract of the machine and leaves the histories related. -/
theorem expand_contract {carry : ∀ c, Prog Cmd' Reply' (Reply c)}
    {rel : List (Exchange Cmd Reply) → List (Exchange Cmd' Reply') → Prop}
    {pre : List (Exchange Cmd Reply) → Cmd → Prop} {post : List (Exchange Cmd Reply) → α → Prop}
    {pre' : List (Exchange Cmd' Reply') → Cmd' → Prop} {post' : List (Exchange Cmd' Reply') → α → Prop}
    (carries : ∀ past past' c, rel past past' → pre past c →
      (carry c).Meets pre' (fun now r => rel (⟨c, r⟩ :: past) now) past')
    (after : ∀ past past' a, rel past past' → post past a → post' past' a) {p : Prog Cmd Reply α}
    {past : List (Exchange Cmd Reply)} {past' : List (Exchange Cmd' Reply')}
    (meets : p.Meets pre post past) (related : rel past past') :
    (expand carry p).Meets pre' post' past' := by
  induction p generalizing past past' with
  | done a => exact after past past' a related meets
  | call c next ih =>
    apply meets_bind (carries past past' c related meets.1)
    intro now r still
    exact ih r (meets.2 r) still

end Expansion
