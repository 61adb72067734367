import Mathlib.Data.List.Basic

/- A queue that hands its tasks to workers and takes them back for another
   attempt, until a task is completed or given up. An entry's place is the id of
   its task. A lease that expires takes a task from a worker that may still be at
   it. -/
namespace RetryQueue

inductive TaskState where
  | pending
  | active
  | completed
  | archived (reported : Bool)
  deriving DecidableEq, Repr

/- How often it has been handed out is a history variable. No operation reads it. -/
structure Entry (T : Type) where
  task : T
  retried : Nat := 0
  state : TaskState := .pending
  handed : Nat := 0
  deriving DecidableEq, Repr

/-- What a worker is handed: the task, with the number of its retries. -/
structure Message (T : Type) where
  task : T
  retried : Nat
  deriving DecidableEq, Repr

abbrev Queue (T : Type) := List (Entry T)

variable {T : Type}

def Entry.message (e : Entry T) : Message T := ⟨e.task, e.retried⟩

/- An entry changes only out of the state that it must be in. -/
def Entry.move (e : Entry T) (was : TaskState) (e' : Entry T) : Option (Entry T) :=
  if e.state = was then some e' else none

def Entry.handOut (e : Entry T) : Option (Entry T) :=
  e.move .pending { e with state := .active, handed := e.handed + 1 }

def Entry.complete (e : Entry T) : Option (Entry T) := e.move .active { e with state := .completed }

/- With the count of the worker that gives it back. -/
def Entry.retry (retried : Nat) (e : Entry T) : Option (Entry T) :=
  e.move .active { e with state := .pending, retried := retried }

def Entry.archive (reported : Bool) (e : Entry T) : Option (Entry T) :=
  e.move .active { e with state := .archived reported }

/- A worker that stops puts its task back. -/
def Entry.requeue (e : Entry T) : Option (Entry T) := e.move .active { e with state := .pending }

/- The task of a lost worker is retried or given up, and nobody reports it. -/
def Entry.expire (limit : T → Nat) (e : Entry T) : Option (Entry T) :=
  if limit e.task ≤ e.retried then e.archive false else e.retry (e.retried + 1)

def push (q : Queue T) (t : T) : Queue T := q ++ [{ task := t }]

def change (q : Queue T) (id : Nat) (f : Entry T → Option (Entry T)) : Option (Queue T) :=
  q[id]?.bind fun e => (f e).map (q.set id)

def dequeue (q : Queue T) (id : Nat) : Option (Message T × Queue T) :=
  q[id]?.bind fun e => (change q id Entry.handOut).map fun q' => (e.message, q')

/-- The same task, which has not been handed out less often. -/
def Entry.Becomes (e e' : Entry T) : Prop := e'.task = e.task ∧ e.handed ≤ e'.handed

/-- Every entry keeps its place and its task. -/
def Grows (q q' : Queue T) : Prop :=
  ∀ (id : Nat) (e : Entry T), q[id]? = some e → ∃ e', q'[id]? = some e' ∧ e.Becomes e'

/-- A worker has once been handed this. -/
def Known (q : Queue T) (id : Nat) (m : Message T) : Prop :=
  ∃ e, q[id]? = some e ∧ e.task = m.task ∧ m.retried < e.handed

/-- A task is handed out once, and once more for every retry. -/
def Entry.Counted (limit : T → Nat) (e : Entry T) : Prop :=
  match e.state with
  | .pending => e.retried ≤ e.handed
  | .active => e.retried < e.handed
  | .completed => True
  | .archived _ => limit e.task < e.handed

def Counted (limit : T → Nat) (q : Queue T) : Prop := ∀ e ∈ q, e.Counted limit

theorem move_spec {was : TaskState} {e x e' : Entry T} (moved : e.move was x = some e') :
    e.state = was ∧ e' = x := by
  unfold Entry.move at moved
  split at moved
  · rename_i here
    cases moved
    exact ⟨here, rfl⟩
  · cases moved

theorem expire_spec {limit : T → Nat} {e e' : Entry T} (expired : e.expire limit = some e') :
    e.state = .active ∧ ((limit e.task ≤ e.retried ∧ e' = { e with state := .archived false }) ∨
      e' = { e with state := .pending, retried := e.retried + 1 }) := by
  unfold Entry.expire at expired
  split at expired
  · rename_i exhausted
    obtain ⟨active, same⟩ := move_spec expired
    exact ⟨active, Or.inl ⟨exhausted, same⟩⟩
  · obtain ⟨active, same⟩ := move_spec expired
    exact ⟨active, Or.inr same⟩

section Changes
variable {q q' : Queue T} {id : Nat} {e : Entry T} {f : Entry T → Option (Entry T)}

theorem change_spec (changed : change q id f = some q') :
    ∃ e e', q[id]? = some e ∧ f e = some e' ∧ q' = q.set id e' := by
  obtain ⟨e, at_id, mapped⟩ := Option.bind_eq_some_iff.mp changed
  obtain ⟨e', becomes, same⟩ := Option.map_eq_some_iff.mp mapped
  exact ⟨e, e', at_id, becomes, same.symm⟩

theorem dequeue_spec {m : Message T} (taken : dequeue q id = some (m, q')) :
    (∃ e, q[id]? = some e ∧ m = e.message) ∧ change q id Entry.handOut = some q' := by
  obtain ⟨e, at_id, mapped⟩ := Option.bind_eq_some_iff.mp taken
  obtain ⟨q₁, changed, same⟩ := Option.map_eq_some_iff.mp mapped
  obtain ⟨rfl, rfl⟩ := Prod.mk.inj same
  exact ⟨⟨e, at_id, rfl⟩, changed⟩

theorem grows_refl (q : Queue T) : Grows q q := fun _ e at_id => ⟨e, at_id, rfl, Nat.le_refl _⟩

theorem grows_trans {q₁ q₂ q₃ : Queue T} (first : Grows q₁ q₂) (second : Grows q₂ q₃) : Grows q₁ q₃ := by
  intro id e at_id
  obtain ⟨e', at_id', task, handed⟩ := first id e at_id
  obtain ⟨e'', at_id'', task', handed'⟩ := second id e' at_id'
  exact ⟨e'', at_id'', task'.trans task, Nat.le_trans handed handed'⟩

theorem push_grows (q : Queue T) (t : T) : Grows q (push q t) := by
  intro id e at_id
  have inside : id < q.length := (List.getElem?_eq_some_iff.mp at_id).1
  exact ⟨e, by rw [push, List.getElem?_append_left inside]; exact at_id, rfl, Nat.le_refl _⟩

theorem change_grows (keeps : ∀ e e', f e = some e' → e.Becomes e') (changed : change q id f = some q') :
    Grows q q' := by
  obtain ⟨e, e', at_id, becomes, rfl⟩ := change_spec changed
  have inside : id < q.length := (List.getElem?_eq_some_iff.mp at_id).1
  intro other x at_other
  by_cases same : id = other
  · subst other
    rw [at_id, Option.some.injEq] at at_other
    subst x
    exact ⟨e', List.getElem?_set_self inside, keeps e e' becomes⟩
  · exact ⟨x, by rw [List.getElem?_set_ne same]; exact at_other, rfl, Nat.le_refl _⟩

theorem change_tasks (keeps : ∀ e e', f e = some e' → e.Becomes e') (changed : change q id f = some q') :
    q'.map Entry.task = q.map Entry.task := by
  obtain ⟨e, e', at_id, becomes, rfl⟩ := change_spec changed
  have at_task : (q.map Entry.task)[id]? = some e'.task := by
    rw [List.getElem?_map, at_id, (keeps e e' becomes).1]
    rfl
  obtain ⟨inside, same⟩ := List.getElem?_eq_some_iff.mp at_task
  rw [List.map_set, ← same]
  exact List.set_getElem_self inside

/- An entry afterwards is the one that changes, or was there before. -/
theorem changed_at (changed : change q id f = some q') {other : Nat} (at_other : q'[other]? = some e) :
    (other = id ∧ ∃ x, q[id]? = some x ∧ f x = some e) ∨ q[other]? = some e := by
  obtain ⟨x, x', at_id, becomes, rfl⟩ := change_spec changed
  by_cases same : id = other
  · subst other
    rw [List.getElem?_set_self (List.getElem?_eq_some_iff.mp at_id).1, Option.some.injEq] at at_other
    subst e
    exact Or.inl ⟨rfl, x, at_id, becomes⟩
  · rw [List.getElem?_set_ne same] at at_other
    exact Or.inr at_other

theorem pushed_at {t : T} (at_id : (push q t)[id]? = some e) : q[id]? = some e ∨ e = { task := t } := by
  by_cases inside : id < q.length
  · rw [push, List.getElem?_append_left inside] at at_id
    exact Or.inl at_id
  · rw [push, List.getElem?_append_right (Nat.le_of_not_lt inside)] at at_id
    exact Or.inr (List.mem_singleton.mp (List.mem_of_getElem? at_id))

/- What holds of every entry still does, when it does of the one that changes. -/
theorem change_keeps {P : Entry T → Prop} (held : ∀ e ∈ q, P e)
    (keeps : ∀ e e', q[id]? = some e → f e = some e' → P e → P e') (changed : change q id f = some q') :
    ∀ e ∈ q', P e := by
  obtain ⟨e, e', at_id, becomes, rfl⟩ := change_spec changed
  intro x member
  rcases List.mem_or_eq_of_mem_set member with old | rfl
  · exact held x old
  · exact keeps e x at_id becomes (held e (List.mem_of_getElem? at_id))

theorem known_grows {m : Message T} (grows : Grows q q') (known : Known q id m) : Known q' id m := by
  obtain ⟨e, at_id, task, handed⟩ := known
  obtain ⟨e', at_id', task', handed'⟩ := grows id e at_id
  exact ⟨e', at_id', task'.trans task, Nat.lt_of_lt_of_le handed handed'⟩

variable {limit : T → Nat}

theorem dequeue_known {m : Message T} (counted : Counted limit q) (taken : dequeue q id = some (m, q')) :
    Known q' id m := by
  obtain ⟨⟨e, at_id, rfl⟩, changed⟩ := dequeue_spec taken
  obtain ⟨x, e', at_x, handed, rfl⟩ := change_spec changed
  rw [at_id, Option.some.injEq] at at_x
  subst x
  obtain ⟨pending, rfl⟩ := move_spec handed
  have retries := counted e (List.mem_of_getElem? at_id)
  rw [Entry.Counted, pending] at retries
  exact ⟨_, List.getElem?_set_self (List.getElem?_eq_some_iff.mp at_id).1, rfl, Nat.lt_succ_of_le retries⟩

theorem push_counted (counted : Counted limit q) (t : T) : Counted limit (push q t) := by
  intro e member
  cases List.mem_append.mp member with
  | inl old => exact counted e old
  | inr new =>
    rw [List.mem_singleton.mp new]
    exact Nat.le_refl 0

theorem handOut_counted (counted : Counted limit q) (changed : change q id Entry.handOut = some q') :
    Counted limit q' := by
  apply change_keeps counted _ changed
  intro e e' at_id handed retries
  obtain ⟨pending, rfl⟩ := move_spec handed
  rw [Entry.Counted, pending] at retries
  exact Nat.lt_succ_of_le retries

theorem complete_counted (counted : Counted limit q) (changed : change q id Entry.complete = some q') :
    Counted limit q' := by
  apply change_keeps counted _ changed
  intro e e' at_id done retries
  obtain ⟨-, rfl⟩ := move_spec done
  trivial

/- The worker's count is one that the task was handed out with. -/
theorem retry_counted {m : Message T} (counted : Counted limit q) (known : Known q id m)
    (changed : change q id (Entry.retry (m.retried + 1)) = some q') : Counted limit q' := by
  apply change_keeps counted _ changed
  intro e e' at_id back retries
  obtain ⟨-, rfl⟩ := move_spec back
  obtain ⟨x, at_x, -, handed⟩ := known
  rw [at_id, Option.some.injEq] at at_x
  subst x
  exact handed

theorem archive_counted {m : Message T} {b : Bool} (counted : Counted limit q) (known : Known q id m)
    (exhausted : limit m.task ≤ m.retried) (changed : change q id (Entry.archive b) = some q') :
    Counted limit q' := by
  apply change_keeps counted _ changed
  intro e e' at_id given_up retries
  obtain ⟨-, rfl⟩ := move_spec given_up
  obtain ⟨x, at_x, task, handed⟩ := known
  rw [at_id, Option.some.injEq] at at_x
  subst x
  rw [← task] at exhausted
  exact Nat.lt_of_le_of_lt exhausted handed

theorem requeue_counted (counted : Counted limit q) (changed : change q id Entry.requeue = some q') :
    Counted limit q' := by
  apply change_keeps counted _ changed
  intro e e' at_id back retries
  obtain ⟨active, rfl⟩ := move_spec back
  rw [Entry.Counted, active] at retries
  exact Nat.le_of_lt retries

theorem expire_counted (counted : Counted limit q) (changed : change q id (Entry.expire limit) = some q') :
    Counted limit q' := by
  apply change_keeps counted _ changed
  intro e e' at_id expired retries
  obtain ⟨active, given_up | back⟩ := expire_spec expired
  · obtain ⟨exhausted, rfl⟩ := given_up
    rw [Entry.Counted, active] at retries
    exact Nat.lt_of_le_of_lt exhausted retries
  · subst e'
    rw [Entry.Counted, active] at retries
    exact retries

end Changes
end RetryQueue
