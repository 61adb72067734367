import Mathlib.Data.List.Basic

/- Effectful code as a tree of commands. A program is finished or waits for the
   reply to one command; the environment decides every reply. The history of a
   program is the list of its own exchanges, newest first. -/
namespace EffectProgram

inductive Prog (Cmd : Type) (Reply : Cmd → Type) (α : Type) where
  | done (a : α)
  | call (c : Cmd) (next : Reply c → Prog Cmd Reply α)

structure Exchange (Cmd : Type) (Reply : Cmd → Type) where
  cmd : Cmd
  reply : Reply cmd

variable {Cmd : Type} {Reply : Cmd → Type} {α β : Type}

def Prog.bind : Prog Cmd Reply α → (α → Prog Cmd Reply β) → Prog Cmd Reply β
  | .done a, f => f a
  | .call c next, f => .call c fun r => (next r).bind f

instance : Monad (Prog Cmd Reply) where
  pure := .done
  bind := .bind

def issue (c : Cmd) : Prog Cmd Reply (Reply c) := .call c .done

@[simp] theorem pure_is_done (a : α) : (pure a : Prog Cmd Reply α) = .done a := rfl

@[simp] theorem done_bind (a : α) (f : α → Prog Cmd Reply β) :
    (Prog.done a >>= f) = f a := rfl

@[simp] theorem call_bind (c : Cmd) (next : Reply c → Prog Cmd Reply α)
    (f : α → Prog Cmd Reply β) :
    (Prog.call c next >>= f) = .call c fun r => next r >>= f := rfl

@[simp] theorem issue_bind (c : Cmd) (f : Reply c → Prog Cmd Reply β) :
    (issue c >>= f) = .call c f := rfl

theorem map_bind (f : α → β) (p : Prog Cmd Reply α) : f <$> p = p >>= fun a => .done (f a) := rfl

/- Every command the program can ever send is allowed. -/
def Prog.Issues (allowed : Cmd → Prop) : Prog Cmd Reply α → Prop
  | .done _ => True
  | .call c next => allowed c ∧ ∀ r, (next r).Issues allowed

theorem issues_bind {allowed : Cmd → Prop} {p : Prog Cmd Reply α}
    {f : α → Prog Cmd Reply β} (first : p.Issues allowed)
    (rest : ∀ a, (f a).Issues allowed) : (p >>= f).Issues allowed := by
  induction p with
  | done a => exact rest a
  | call c next ih => exact ⟨first.1, fun r => ih r (first.2 r)⟩

theorem issues_map {allowed : Cmd → Prop} {p : Prog Cmd Reply α} (f : α → β)
    (uses : p.Issues allowed) : (f <$> p).Issues allowed :=
  issues_bind uses fun _ => trivial

theorem issues_mono {small large : Cmd → Prop} {p : Prog Cmd Reply α}
    (h : p.Issues small) (le : ∀ c, small c → large c) : p.Issues large := by
  induction p with
  | done a => trivial
  | call c next ih => exact ⟨le c h.1, fun r => ih r (h.2 r)⟩

theorem issues_trivial (p : Prog Cmd Reply α) : p.Issues fun _ => True := by
  induction p with
  | done a => trivial
  | call c next ih => exact ⟨trivial, ih⟩

/- A trace contract. Before each command the history so far satisfies pre, and
   when the program finishes its history and its result satisfy post. -/
def Prog.Meets (pre : List (Exchange Cmd Reply) → Cmd → Prop)
    (post : List (Exchange Cmd Reply) → α → Prop) :
    List (Exchange Cmd Reply) → Prog Cmd Reply α → Prop
  | past, .done a => post past a
  | past, .call c next => pre past c ∧ ∀ r, Meets pre post (⟨c, r⟩ :: past) (next r)

section Contracts
variable {pre pre' : List (Exchange Cmd Reply) → Cmd → Prop}
  {post post' : List (Exchange Cmd Reply) → α → Prop}
  {past : List (Exchange Cmd Reply)} {p : Prog Cmd Reply α}

@[simp] theorem meets_done (a : α) :
    (Prog.done a : Prog Cmd Reply α).Meets pre post past ↔ post past a := Iff.rfl

@[simp] theorem meets_call (c : Cmd) (next : Reply c → Prog Cmd Reply α) :
    (Prog.call c next).Meets pre post past ↔
      pre past c ∧ ∀ r, (next r).Meets pre post (⟨c, r⟩ :: past) := Iff.rfl

theorem meets_bind {Q : List (Exchange Cmd Reply) → β → Prop}
    {q : Prog Cmd Reply β} {f : β → Prog Cmd Reply α}
    (first : q.Meets pre Q past)
    (rest : ∀ past' b, Q past' b → (f b).Meets pre post past') :
    (q >>= f).Meets pre post past := by
  induction q generalizing past with
  | done b => exact rest past b first
  | call c next ih => exact ⟨first.1, fun r => ih r (first.2 r)⟩

theorem meets_mono (h : p.Meets pre post past)
    (before : ∀ past c, pre past c → pre' past c)
    (after : ∀ past a, post past a → post' past a) : p.Meets pre' post' past := by
  induction p generalizing past with
  | done a => exact after past a h
  | call c next ih => exact ⟨before past c h.1, fun r => ih r (h.2 r)⟩

theorem meets_and (h : p.Meets pre post past) (h' : p.Meets pre' post' past) :
    p.Meets (fun past c => pre past c ∧ pre' past c)
      (fun past a => post past a ∧ post' past a) past := by
  induction p generalizing past with
  | done a => exact ⟨h, h'⟩
  | call c next ih => exact ⟨⟨h.1, h'.1⟩, fun r => ih r (h.2 r) (h'.2 r)⟩

/- A contract that forbids nothing. -/
theorem meets_trivial (free : ∀ past c, pre past c) (p : Prog Cmd Reply α) :
    p.Meets pre (fun _ _ => True) past := by
  induction p generalizing past with
  | done a => trivial
  | call c next ih => exact ⟨free past c, fun r => ih r⟩

/- The first command of a program, and what follows it. -/
theorem issue_meets {c : Cmd} {f : Reply c → Prog Cmd Reply α} (first : pre past c)
    (rest : ∀ r, (f r).Meets pre post (⟨c, r⟩ :: past)) : (issue c >>= f).Meets pre post past :=
  ⟨first, rest⟩

end Contracts

/- The exchanges a program adds to its history, all with allowed commands. -/
def Grown (allowed : Cmd → Prop) (old new : List (Exchange Cmd Reply)) : Prop :=
  ∃ added, new = added ++ old ∧ ∀ x ∈ added, allowed x.cmd

theorem grown_refl (allowed : Cmd → Prop) (past : List (Exchange Cmd Reply)) :
    Grown allowed past past := ⟨[], rfl, by simp⟩

theorem grown_cons {allowed : Cmd → Prop} {old new : List (Exchange Cmd Reply)}
    (h : Grown allowed old new) (x : Exchange Cmd Reply) (ok : allowed x.cmd) :
    Grown allowed old (x :: new) := by
  obtain ⟨added, rfl, all⟩ := h
  refine ⟨x :: added, rfl, ?_⟩
  intro y member
  rcases List.mem_cons.mp member with same | member
  · subst y
    exact ok
  · exact all y member

/- A program that only issues allowed commands meets every contract those
   commands respect, whatever happened before it. -/
theorem meets_of_issues {allowed : Cmd → Prop} {p : Prog Cmd Reply α}
    {pre : List (Exchange Cmd Reply) → Cmd → Prop} {past : List (Exchange Cmd Reply)}
    (uses : p.Issues allowed)
    (respects : ∀ now c, Grown allowed past now → allowed c → pre now c) :
    p.Meets pre (fun now _ => Grown allowed past now) past := by
  suffices general : ∀ now, Grown allowed past now →
      p.Meets pre (fun now _ => Grown allowed past now) now from
    general past (grown_refl allowed past)
  induction p with
  | done a => exact fun now grown => grown
  | call c next ih =>
    intro now grown
    refine ⟨respects now c grown uses.1, fun r => ?_⟩
    exact ih r (uses.2 r) _ (grown_cons grown ⟨c, r⟩ uses.1)

/-- A program that respects pre from every history that I holds of, and restores I. -/
def Prog.Keeps (pre : List (Exchange Cmd Reply) → Cmd → Prop)
    (I : List (Exchange Cmd Reply) → Prop) (p : Prog Cmd Reply α) : Prop :=
  ∀ past, I past → p.Meets pre (fun now _ => I now) past

section Keeping
variable {pre : List (Exchange Cmd Reply) → Cmd → Prop} {I : List (Exchange Cmd Reply) → Prop}

@[simp] theorem keeps_done (a : α) : (Prog.done a : Prog Cmd Reply α).Keeps pre I :=
  fun _ held => held

theorem keeps_bind {p : Prog Cmd Reply α} {f : α → Prog Cmd Reply β} (first : p.Keeps pre I)
    (rest : ∀ a, (f a).Keeps pre I) : (p >>= f).Keeps pre I :=
  fun past held => meets_bind (first past held) fun now a held' => rest a now held'

theorem keeps_map {p : Prog Cmd Reply α} (f : α → β) (h : p.Keeps pre I) :
    (f <$> p).Keeps pre I :=
  keeps_bind h fun a => keeps_done (f a)

/- A command that is always allowed and never disturbs I. -/
def Neutral (pre : List (Exchange Cmd Reply) → Cmd → Prop)
    (I : List (Exchange Cmd Reply) → Prop) (c : Cmd) : Prop :=
  ∀ past, I past → pre past c ∧ ∀ r, I (⟨c, r⟩ :: past)

theorem keeps_call {c : Cmd} {next : Reply c → Prog Cmd Reply α} (neutral : Neutral pre I c)
    (rest : ∀ r, (next r).Keeps pre I) : (Prog.call c next).Keeps pre I := by
  intro past held
  obtain ⟨ok, kept⟩ := neutral past held
  exact ⟨ok, fun r => rest r _ (kept r)⟩

theorem keeps_of_issues {allowed : Cmd → Prop} {p : Prog Cmd Reply α} (uses : p.Issues allowed)
    (neutral : ∀ c, allowed c → Neutral pre I c) : p.Keeps pre I := by
  induction p with
  | done a => exact keeps_done a
  | call c next ih => exact keeps_call (neutral c uses.1) fun r => ih r (uses.2 r)

theorem issues_of_meets {allowed : Cmd → Prop} {p : Prog Cmd Reply α}
    {post : List (Exchange Cmd Reply) → α → Prop} {past : List (Exchange Cmd Reply)}
    (meets : p.Meets (fun _ c => allowed c) post past) : p.Issues allowed := by
  induction p generalizing past with
  | done a => trivial
  | call c next ih => exact ⟨meets.1, fun r => ih r (meets.2 r)⟩

/- What a program keeps whatever happened before says which commands it sends. -/
theorem issues_of_keeps {allowed : Cmd → Prop} {p : Prog Cmd Reply α}
    (keeps : p.Keeps (fun _ c => allowed c) fun _ => True) : p.Issues allowed :=
  issues_of_meets (keeps [] trivial)

end Keeping
end EffectProgram
