import Mathlib.Data.List.DropRight
import VotingApp.Lib.CallPool

/- What the log of a run says: every event was a step taken at an earlier pool of
   the same run, a job's history is its own part of the log, contracts hold at
   every logged command, and what no event touches does not change. -/
namespace PoolHistory
open EffectProgram CallPool

variable {Cmd : Type} {Reply : Cmd → Type} {W O E Req Ans X : Type}

def own (i : Nat) : List (Event Cmd Reply W O) → List (Exchange Cmd Reply)
  | [] => []
  | ev :: log => if ev.caller = i then ev.exchange :: own i log else own i log

theorem own_append_of_other {i : Nat} {newer older : List (Event Cmd Reply W O)}
    (other : ∀ ev ∈ newer, ev.caller ≠ i) : own i (newer ++ older) = own i older := by
  induction newer with
  | nil => rfl
  | cons ev newer ih =>
    have ne := other ev (by simp)
    simp only [List.cons_append, own, ne, ↓reduceIte]
    exact ih fun e member => other e (by simp [member])

/- The newest own exchange, located in the log. -/
theorem own_cons_split {i : Nat} {log : List (Event Cmd Reply W O)}
    {x : Exchange Cmd Reply} {rest : List (Exchange Cmd Reply)} (h : own i log = x :: rest) :
    ∃ newer ev older, log = newer ++ ev :: older ∧ ev.caller = i ∧ ev.exchange = x ∧
      own i older = rest ∧ ∀ e ∈ newer, e.caller ≠ i := by
  induction log with
  | nil => simp [own] at h
  | cons ev log ih =>
    by_cases mine : ev.caller = i
    · simp only [own, mine, ↓reduceIte, List.cons.injEq] at h
      exact ⟨[], ev, log, rfl, mine, h.1, h.2, by simp⟩
    · simp only [own, mine, ↓reduceIte] at h
      obtain ⟨newer, e, older, rfl, he, hx, hr, other⟩ := ih h
      refine ⟨ev :: newer, e, older, rfl, he, hx, hr, ?_⟩
      intro y member
      rcases List.mem_cons.mp member with same | member
      · subst y
        exact mine
      · exact other y member

theorem mem_own {i : Nat} {log : List (Event Cmd Reply W O)} {x : Exchange Cmd Reply} :
    x ∈ own i log ↔ ∃ ev ∈ log, ev.caller = i ∧ ev.exchange = x := by
  induction log with
  | nil => simp [own]
  | cons ev log ih =>
    by_cases mine : ev.caller = i
    · simp only [own, mine, ↓reduceIte, List.mem_cons, ih, exists_eq_or_imp, true_and]
      constructor
      · rintro (same | tail)
        · exact Or.inl same.symm
        · exact Or.inr tail
      · rintro (same | tail)
        · exact Or.inl same.symm
        · exact Or.inr tail
    · simp [own, mine, ih]

theorem own_member_split {i : Nat} {log : List (Event Cmd Reply W O)}
    {newer older : List (Exchange Cmd Reply)} {x : Exchange Cmd Reply}
    (h : own i log = newer ++ x :: older) :
    ∃ late ev early, log = late ++ ev :: early ∧ ev.caller = i ∧ ev.exchange = x ∧
      own i late = newer ∧ own i early = older := by
  induction newer generalizing log with
  | nil =>
    obtain ⟨late, ev, early, rfl, mine, hx, rest, other⟩ := own_cons_split h
    refine ⟨late, ev, early, rfl, mine, hx, ?_, rest⟩
    have skipped : own i (late ++ []) = own i [] := own_append_of_other other
    simpa [own] using skipped
  | cons y newer ih =>
    obtain ⟨skip, e, early, rfl, mine, hy, rest, other⟩ := own_cons_split h
    obtain ⟨late, ev, last, rfl, mine', hx, hl, hr⟩ := ih rest
    refine ⟨skip ++ e :: late, ev, last, by simp, mine', hx, ?_, hr⟩
    rw [own_append_of_other other]
    simp [own, mine, hy, hl]

/- Two places in one list: the same one, or one is newer than the other. -/
theorem split_cases {A : Type} {a b c d : List A} {x y : A} (same : a ++ x :: b = c ++ y :: d) :
    (a = c ∧ x = y ∧ b = d) ∨ (∃ mid, c = a ++ x :: mid ∧ b = mid ++ y :: d) ∨
      ∃ mid, a = c ++ y :: mid ∧ d = mid ++ x :: b := by
  induction a generalizing c with
  | nil =>
    cases c with
    | nil =>
      obtain ⟨rfl, rfl⟩ := List.cons.inj same
      exact Or.inl ⟨rfl, rfl, rfl⟩
    | cons z c =>
      obtain ⟨rfl, rfl⟩ := List.cons.inj same
      exact Or.inr (Or.inl ⟨c, rfl, rfl⟩)
  | cons w a ih =>
    cases c with
    | nil =>
      obtain ⟨rfl, rfl⟩ := List.cons.inj same
      exact Or.inr (Or.inr ⟨a, rfl, rfl⟩)
    | cons z c =>
      obtain ⟨rfl, rest⟩ := List.cons.inj same
      rcases ih rest with ⟨rfl, rfl, rfl⟩ | ⟨mid, rfl, rfl⟩ | ⟨mid, rfl, rfl⟩
      · exact Or.inl ⟨rfl, rfl, rfl⟩
      · exact Or.inr (Or.inl ⟨mid, rfl, rfl⟩)
      · exact Or.inr (Or.inr ⟨mid, rfl, rfl⟩)

/- One entry further towards the front of a list. -/
theorem pick {A : Type} {l rest : List A} (x : A) (front : List A) (sub : List.Sublist l rest) :
    List.Sublist (x :: l) (front ++ x :: rest) :=
  (sub.cons_cons x).trans (List.sublist_append_right front _)

/-- From the first to the last entry that satisfies p. -/
def stretch {A : Type} (p : A → Bool) (l : List A) : List A :=
  (l.dropWhile fun x => !p x).rdropWhile fun x => !p x

theorem dropWhile_keeps {A : Type} {q : A → Bool} {x : A} (stays : q x = false) (front back : List A) :
    ∃ kept, (front ++ x :: back).dropWhile q = kept ++ x :: back := by
  induction front with
  | nil => exact ⟨[], by simp [stays]⟩
  | cons y front ih =>
    cases drops : q y with
    | true =>
      obtain ⟨kept, same⟩ := ih
      exact ⟨kept, by simp [drops, same]⟩
    | false => exact ⟨y :: front, by simp [drops]⟩

theorem rdropWhile_keeps {A : Type} {q : A → Bool} {x : A} (stays : q x = false)
    (front back : List A) : ∃ kept, (front ++ x :: back).rdropWhile q = front ++ x :: kept := by
  obtain ⟨kept, same⟩ := dropWhile_keeps stays back.reverse front.reverse
  exact ⟨kept.reverse, by simp [List.rdropWhile, same]⟩

section Stretch
variable {A : Type} {p : A → Bool}

theorem stretch_subset (l : List A) : stretch p l ⊆ l :=
  fun _ member => (List.dropWhile_sublist _).subset ((List.rdropWhile_prefix _ _).subset member)

theorem mem_stretch {l late mid older : List A} {x y z : A}
    (split : l = late ++ x :: (mid ++ y :: older)) (ends : p x = true) (begins : p y = true)
    (inside : z ∈ mid) : z ∈ stretch p l := by
  subst l
  have x_stays : (!p x) = false := by rw [ends]; rfl
  have y_stays : (!p y) = false := by rw [begins]; rfl
  obtain ⟨front, dropped⟩ := @dropWhile_keeps _ (fun x => !p x) x x_stays late (mid ++ y :: older)
  obtain ⟨back, left⟩ := @rdropWhile_keeps _ (fun x => !p x) y y_stays (front ++ x :: mid) older
  rw [List.append_assoc, List.cons_append] at left
  rw [stretch, dropped, left]
  simp [inside]

theorem mem_stretch_self {l : List A} {x : A} (member : x ∈ l) (holds : p x = true) :
    x ∈ stretch p l := by
  obtain ⟨late, older, rfl⟩ := List.append_of_mem member
  have stays : (!p x) = false := by rw [holds]; rfl
  obtain ⟨front, dropped⟩ := @dropWhile_keeps _ (fun x => !p x) x stays late older
  obtain ⟨back, left⟩ := @rdropWhile_keeps _ (fun x => !p x) x stays front older
  rw [stretch, dropped, left]
  simp

end Stretch

theorem own_append (i : Nat) (newer older : List (Event Cmd Reply W O)) :
    own i (newer ++ older) = own i newer ++ own i older := by
  induction newer with
  | nil => rfl
  | cons ev newer ih =>
    by_cases mine : ev.caller = i
    · simp [own, mine, ih]
    · simp [own, mine, ih]

/- After an event its caller has done nothing more, or there is its next event. -/
theorem own_next (late older : List (Event Cmd Reply W O)) (ev : Event Cmd Reply W O) :
    own ev.caller late = [] ∨ ∃ newer next mid, late = newer ++ next :: mid ∧
      next.caller = ev.caller ∧ own ev.caller mid = [] ∧
        own ev.caller (mid ++ ev :: older) = ev.exchange :: own ev.caller older := by
  rcases List.eq_nil_or_concat (own ev.caller late) with nothing | ⟨more, x, own_late⟩
  · exact Or.inl nothing
  · rw [List.concat_eq_append] at own_late
    obtain ⟨newer, next, mid, at_late, mine, -, -, skipped⟩ := own_member_split own_late
    refine Or.inr ⟨newer, next, mid, at_late, mine, skipped, ?_⟩
    rw [own_append, skipped]
    simp [own]

section Runs
variable {m : Machine Cmd Reply W O E Req Ans}
  {allow : Pool Cmd Reply W O Req Ans → Label O E Req → Bool}
  {s₀ s s' : Pool Cmd Reply W O Req Ans}

theorem log_grows (run : Reaches m allow s s') : ∃ newer, s'.log = newer ++ s.log := by
  refine reaches_inv (I := fun t => ∃ newer, t.log = newer ++ s.log) ⟨[], rfl⟩ ?_ run
  intro t l t' grown allowed step
  obtain ⟨newer, eq⟩ := grown
  cases step with
  | start req => exact ⟨newer, eq⟩
  | env moved => exact ⟨newer, eq⟩
  | run at_i waiting performed => exact ⟨_ :: newer, by rw [eq]; rfl⟩

/- A job keeps its place and its request, and its history only grows. -/
def SameJob (job job' : Job Cmd Reply Req Ans) : Prop :=
  job'.req = job.req ∧ ∃ added, job'.past = added ++ job.past

theorem job_kept {l : Label O E Req} (step : Step m s l s') {i : Nat}
    {job : Job Cmd Reply Req Ans} (at_i : s.jobs[i]? = some job) :
    ∃ job', s'.jobs[i]? = some job' ∧ SameJob job job' := by
  have inside : i < s.jobs.length := (List.getElem?_eq_some_iff.mp at_i).1
  cases step with
  | start req =>
    exact ⟨job, by rw [List.getElem?_append_left inside]; exact at_i, rfl, [], rfl⟩
  | env moved => exact ⟨job, at_i, rfl, [], rfl⟩
  | @run j o mover c next r w at_j waiting performed =>
    have left : i < (s.jobs.set j ⟨mover.req, ⟨c, r⟩ :: mover.past, next r⟩).length := by
      simpa using inside
    by_cases same : j = i
    · subst j
      have eq : mover = job := Option.some.inj (at_j.symm.trans at_i)
      subst mover
      refine ⟨⟨job.req, ⟨c, r⟩ :: job.past, next r⟩, ?_, rfl, [⟨c, r⟩], rfl⟩
      rw [List.getElem?_append_left left, List.getElem?_set_self inside]
    · refine ⟨job, ?_, rfl, [], rfl⟩
      rw [List.getElem?_append_left left, List.getElem?_set_ne same]
      exact at_i

theorem job_persists (run : Reaches m allow s s') {i : Nat}
    {job : Job Cmd Reply Req Ans} (at_i : s.jobs[i]? = some job) :
    ∃ job', s'.jobs[i]? = some job' ∧ SameJob job job' := by
  refine reaches_inv (I := fun t => ∃ job', t.jobs[i]? = some job' ∧ SameJob job job')
    ⟨job, at_i, rfl, [], rfl⟩ ?_ run
  intro t l t' kept allowed step
  obtain ⟨mid, at_mid, req, added, past⟩ := kept
  obtain ⟨job', at_job', req', more, past'⟩ := job_kept step at_mid
  exact ⟨job', at_job', req'.trans req, more ++ added, by rw [past', past]; simp⟩

/- The step an event of the log records. -/
structure Moment (m : Machine Cmd Reply W O E Req Ans)
    (allow : Pool Cmd Reply W O Req Ans → Label O E Req → Bool)
    (s₀ s : Pool Cmd Reply W O Req Ans) (ev : Event Cmd Reply W O)
    (older : List (Event Cmd Reply W O)) where
  pre : Pool Cmd Reply W O Req Ans
  post : Pool Cmd Reply W O Req Ans
  job : Job Cmd Reply Req Ans
  next : Reply ev.cmd → Prog Cmd Reply Ans
  reached : Reaches m allow s₀ pre
  pre_log : pre.log = older
  pre_world : pre.world = ev.before
  waiting : pre.jobs[ev.caller]? = some job
  asked : job.rest = .call ev.cmd next
  allowed : allow pre (.run ev.caller ev.oracle) = true
  performed : m.perform ev.before ev.oracle ev.cmd = some (ev.reply, ev.after)
  stepped : m.step pre (.run ev.caller ev.oracle) = some post
  taken : Reaches m allow s₀ post
  post_log : post.log = ev :: older
  post_world : post.world = ev.after
  resumed : post.jobs[ev.caller]? = some ⟨job.req, ev.exchange :: job.past, next ev.reply⟩
  later : Reaches m allow post s

theorem moment_of_logged (fresh : s₀.log = []) (run : Reaches m allow s₀ s)
    {newer older : List (Event Cmd Reply W O)} {ev : Event Cmd Reply W O}
    (split : s.log = newer ++ ev :: older) : Nonempty (Moment m allow s₀ s ev older) := by
  induction run generalizing newer ev with
  | refl => simp [fresh] at split
  | @tail t t' l run allowed step ih =>
    have extend : ∀ {n : List (Event Cmd Reply W O)}, t.log = n ++ ev :: older →
        Nonempty (Moment m allow s₀ t' ev older) := by
      intro n eq
      obtain ⟨moment⟩ := ih eq
      exact ⟨{ moment with later := .tail moment.later allowed step }⟩
    have shape := step_sound step
    cases shape with
    | start req => exact extend split
    | env moved => exact extend split
    | @run i o job c next r w at_i waiting performed =>
      cases newer with
      | cons first newer => exact extend (List.cons.inj split).2
      | nil =>
        obtain ⟨same, rest⟩ := List.cons.inj split
        subst ev
        have inside : i < t.jobs.length := (List.getElem?_eq_some_iff.mp at_i).1
        refine ⟨{ pre := t, post := _, job := job, next := next, reached := run
                  pre_log := rest, pre_world := rfl, waiting := at_i, asked := waiting
                  allowed := allowed, performed := performed, stepped := step
                  taken := .tail run allowed step, post_log := split
                  post_world := rfl, resumed := ?_, later := .refl }⟩
        have left : i < (t.jobs.set i ⟨job.req, ⟨c, r⟩ :: job.past, next r⟩).length := by
          simpa using inside
        change (t.jobs.set i ⟨job.req, ⟨c, r⟩ :: job.past, next r⟩ ++ _)[i]? = _
        rw [List.getElem?_append_left left, List.getElem?_set_self inside]
        rfl

/- The run goes on from the pool that an event found. -/
theorem since_moment {ev : Event Cmd Reply W O} {older : List (Event Cmd Reply W O)}
    (moment : Moment m allow s₀ s ev older) : Reaches m allow moment.pre s :=
  reaches_trans (.tail .refl moment.allowed moment.stepped) moment.later

def pastAt (jobs : List (Job Cmd Reply Req Ans)) (i : Nat) : List (Exchange Cmd Reply) :=
  (jobs[i]?.map Job.past).getD []

theorem pastAt_begun (jobs : List (Job Cmd Reply Req Ans)) (reqs : List Req) (i : Nat) :
    pastAt (jobs ++ reqs.map m.begin) i = pastAt jobs i := by
  by_cases inside : i < jobs.length
  · simp [pastAt, List.getElem?_append_left inside]
  · have none_left : jobs[i]? = none := List.getElem?_eq_none (by omega)
    simp only [pastAt, none_left, List.getElem?_append_right (Nat.le_of_not_lt inside),
      List.getElem?_map, Option.map_map, Option.map_none, Option.getD_none]
    cases reqs[i - jobs.length]? <;> rfl

theorem pastAt_set (jobs : List (Job Cmd Reply Req Ans)) (job : Job Cmd Reply Req Ans)
    {i : Nat} (inside : i < jobs.length) (j : Nat) :
    pastAt (jobs.set i job) j = if i = j then job.past else pastAt jobs j := by
  by_cases same : i = j
  · subst j
    simp [pastAt, List.getElem?_set_self inside]
  · simp [pastAt, List.getElem?_set_ne same, same]

/- Job histories and the log agree. -/
theorem own_is_past (no_jobs : s₀.jobs = []) (fresh : s₀.log = [])
    (run : Reaches m allow s₀ s) (i : Nat) : own i s.log = pastAt s.jobs i := by
  refine reaches_inv (I := fun t => ∀ i, own i t.log = pastAt t.jobs i) ?_ ?_ run i
  · intro i
    simp [no_jobs, fresh, own, pastAt]
  · intro t l t' agree allowed step i
    cases step with
    | env moved => exact agree i
    | start req => exact (agree i).trans (pastAt_begun t.jobs [req] i).symm
    | @run j o mover c next r w at_j waiting performed =>
      have inside : j < t.jobs.length := (List.getElem?_eq_some_iff.mp at_j).1
      rw [pastAt_begun, pastAt_set _ _ inside]
      by_cases same : j = i
      · subst j
        have old : own i t.log = mover.past := by
          rw [agree i]
          simp [pastAt, at_j]
        simp [own, Event.exchange, old]
      · simp [own, same, agree i]

theorem past_of_job (no_jobs : s₀.jobs = []) (fresh : s₀.log = [])
    (run : Reaches m allow s₀ s) {i : Nat} {job : Job Cmd Reply Req Ans}
    (at_i : s.jobs[i]? = some job) : job.past = own i s.log := by
  rw [own_is_past no_jobs fresh run]
  simp [pastAt, at_i]

/- A contract every program meets from its start holds of every job at all times. -/
theorem contract_of_job {pre : Req → List (Exchange Cmd Reply) → Cmd → Prop}
    {post : Req → List (Exchange Cmd Reply) → Ans → Prop}
    (meets : ∀ req, (m.program req).Meets (pre req) (post req) [])
    (no_jobs : s₀.jobs = []) (run : Reaches m allow s₀ s) :
    ∀ job ∈ s.jobs, job.rest.Meets (pre job.req) (post job.req) job.past := by
  refine reaches_inv (I := fun t => ∀ job ∈ t.jobs,
    job.rest.Meets (pre job.req) (post job.req) job.past) ?_ ?_ run
  · simp [no_jobs]
  · intro t l t' inv allowed step job member
    have begun : ∀ req, (m.begin req).rest.Meets (pre (m.begin req).req)
        (post (m.begin req).req) (m.begin req).past := meets
    cases step with
    | env moved => exact inv job member
    | start req =>
      rcases List.mem_append.mp member with old | new
      · exact inv job old
      · rw [List.mem_singleton.mp new]
        exact begun req
    | @run j o mover c next r w at_j waiting performed =>
      rcases List.mem_append.mp member with old | new
      · rcases List.mem_or_eq_of_mem_set old with old | moved
        · exact inv job old
        · have mover_ok := inv mover (List.mem_of_getElem? at_j)
          rw [waiting, meets_call] at mover_ok
          rw [moved]
          exact mover_ok.2 r
      · obtain ⟨req, _, rfl⟩ := List.mem_map.mp new
        exact begun req

/- What holds of every request that is started or spawned holds of every job's. -/
theorem requests_satisfy {P : Req → Prop} (no_jobs : s₀.jobs = [])
    (starts : ∀ t req, allow t (.start req) = true → P req)
    (spawned : ∀ c, ∀ req ∈ m.spawns c, P req) (run : Reaches m allow s₀ s) :
    ∀ job ∈ s.jobs, P job.req := by
  refine reaches_inv (I := fun t => ∀ job ∈ t.jobs, P job.req) ?_ ?_ run
  · simp [no_jobs]
  · intro t l t' held allowed step job member
    cases step with
    | env moved => exact held job member
    | start req =>
      rcases List.mem_append.mp member with old | new
      · exact held job old
      · rw [List.mem_singleton.mp new]
        exact starts t req allowed
    | @run j o mover c next r w at_j waiting performed =>
      rcases List.mem_append.mp member with old | new
      · rcases List.mem_or_eq_of_mem_set old with old | moved
        · exact held job old
        · rw [moved]
          exact held mover (List.mem_of_getElem? at_j)
      · obtain ⟨req, is_spawned, rfl⟩ := List.mem_map.mp new
        exact spawned c req is_spawned

/- The same contract, read at one event of the log. -/
theorem contract_of_logged {pre : Req → List (Exchange Cmd Reply) → Cmd → Prop}
    {post : Req → List (Exchange Cmd Reply) → Ans → Prop}
    (meets : ∀ req, (m.program req).Meets (pre req) (post req) [])
    (no_jobs : s₀.jobs = []) (fresh : s₀.log = []) (run : Reaches m allow s₀ s)
    {newer older : List (Event Cmd Reply W O)} {ev : Event Cmd Reply W O}
    (split : s.log = newer ++ ev :: older) :
    ∃ job, s.jobs[ev.caller]? = some job ∧ pre job.req (own ev.caller older) ev.cmd := by
  obtain ⟨moment⟩ := moment_of_logged fresh run split
  obtain ⟨job, at_i, same⟩ := job_persists moment.later moment.resumed
  refine ⟨job, at_i, ?_⟩
  have held := contract_of_job meets no_jobs moment.reached _ (List.mem_of_getElem? moment.waiting)
  rw [moment.asked, meets_call, past_of_job no_jobs fresh moment.reached moment.waiting,
    moment.pre_log] at held
  rw [same.1]
  exact held.1

/- A command that a history owes is the next one of its call, and a call that owes one has
   not finished. -/
theorem owed_next {owed : Req → List (Exchange Cmd Reply) → Cmd → Prop}
    (meets : ∀ req, (m.program req).Meets (fun past c => ∀ d, owed req past d → c = d)
      (fun past _ => ∀ d, ¬ owed req past d) [])
    (no_jobs : s₀.jobs = []) (fresh : s₀.log = []) (run : Reaches m allow s₀ s)
    {late older : List (Event Cmd Reply W O)} {ev : Event Cmd Reply W O}
    (split : s.log = late ++ ev :: older) {job : Job Cmd Reply Req Ans}
    (at_job : s.jobs[ev.caller]? = some job) {d : Cmd}
    (due : owed job.req (ev.exchange :: own ev.caller older) d) :
    (own ev.caller late = [] ∧ ∀ a, job.rest ≠ .done a) ∨
      ∃ (newer : List (Event Cmd Reply W O)) (next : Event Cmd Reply W O)
        (mid : List (Event Cmd Reply W O)), late = newer ++ next :: mid ∧
          next.caller = ev.caller ∧ next.cmd = d ∧ own ev.caller mid = [] := by
  rcases own_next late older ev with nothing | ⟨newer, next, mid, rfl, mine, skipped, past⟩
  · left
    constructor
    · exact nothing
    · intro a finished
      have held := contract_of_job meets no_jobs run job (List.mem_of_getElem? at_job)
      have history : job.past = ev.exchange :: own ev.caller older := by
        rw [past_of_job no_jobs fresh run at_job, split, own_append, nothing]
        simp [own]
      rw [finished, meets_done, history] at held
      exact held d due
  · right
    have at_next : s.log = newer ++ next :: (mid ++ ev :: older) := by rw [split]; simp
    obtain ⟨job', at_job', rule⟩ := contract_of_logged meets no_jobs fresh run at_next
    rw [mine, at_job, Option.some.injEq] at at_job'
    subst job'
    rw [mine, past] at rule
    exact ⟨newer, next, mid, rfl, mine, rule d due, skipped⟩

/- Where busy jobs are started one at a time and none is woken, no two are busy at once. -/
theorem one_busy {busy : Job Cmd Reply Req Ans → Bool} (no_jobs : s₀.jobs = [])
    (starts : ∀ t req, allow t (.start req) = true → ∀ job ∈ t.jobs, busy job = false)
    (spawned : ∀ c, ∀ req ∈ m.spawns c, busy (m.begin req) = false)
    (not_woken : ∀ (job : Job Cmd Reply Req Ans) (c : Cmd) (next : Reply c → Prog Cmd Reply Ans)
      (r : Reply c), job.rest = .call c next →
        busy ⟨job.req, ⟨c, r⟩ :: job.past, next r⟩ = true → busy job = true)
    (run : Reaches m allow s₀ s) : ∀ (i j : Nat) (job job' : Job Cmd Reply Req Ans),
      s.jobs[i]? = some job → s.jobs[j]? = some job' → busy job = true → busy job' = true →
        i = j := by
  refine reaches_inv (I := fun t => ∀ (i j : Nat) (job job' : Job Cmd Reply Req Ans), t.jobs[i]? = some job →
    t.jobs[j]? = some job' → busy job = true → busy job' = true → i = j) ?_ ?_ run
  · intro i j job job' at_i
    rw [no_jobs] at at_i
    cases at_i
  · intro t l t' single allowed step
    cases step with
    | env moved => exact single
    | start req =>
      -- A busy job that was there before forbids the start, so only the new one is busy.
      have last : ∀ k job, (t.jobs ++ [m.begin req])[k]? = some job → busy job = true →
          k = t.jobs.length := by
        intro k job at_k is_busy
        rcases Nat.lt_trichotomy k t.jobs.length with inside | same | outside
        · rw [List.getElem?_append_left inside] at at_k
          have idle := starts t req allowed job (List.mem_of_getElem? at_k)
          rw [idle] at is_busy
          cases is_busy
        · exact same
        · rw [List.getElem?_eq_none (by simp; omega)] at at_k
          cases at_k
      intro i j job job' at_i at_j busy_i busy_j
      rw [last i job at_i busy_i, last j job' at_j busy_j]
    | @run k o mover c next r w at_k waiting performed =>
      have before : ∀ (i : Nat) (job : Job Cmd Reply Req Ans),
          (t.jobs.set k ⟨mover.req, ⟨c, r⟩ :: mover.past, next r⟩ ++
            (m.spawns c).map m.begin)[i]? = some job → busy job = true →
          ∃ job', t.jobs[i]? = some job' ∧ busy job' = true := by
        intro i job at_i is_busy
        by_cases inside : i < t.jobs.length
        · rw [List.getElem?_append_left (by simpa using inside)] at at_i
          by_cases same : k = i
          · subst k
            rw [List.getElem?_set_self inside, Option.some.injEq] at at_i
            rw [← at_i] at is_busy
            exact ⟨mover, at_k, not_woken mover c next r waiting is_busy⟩
          · rw [List.getElem?_set_ne same] at at_i
            exact ⟨job, at_i, is_busy⟩
        · rw [List.getElem?_append_right (by simpa using inside)] at at_i
          obtain ⟨req, member, rfl⟩ := List.mem_map.mp (List.mem_of_getElem? at_i)
          rw [spawned c req member] at is_busy
          cases is_busy
      intro i j job job' at_i at_j busy_i busy_j
      obtain ⟨old, at_old, busy_old⟩ := before i job at_i busy_i
      obtain ⟨old', at_old', busy_old'⟩ := before j job' at_j busy_j
      exact single i j old old' at_old at_old' busy_old busy_old'

/- A finished job stays as it is. -/
theorem done_stays (run : Reaches m allow s s') {i : Nat} {job : Job Cmd Reply Req Ans}
    (at_i : s.jobs[i]? = some job) {a : Ans} (done : job.rest = .done a) : s'.jobs[i]? = some job := by
  refine reaches_inv (I := fun t => t.jobs[i]? = some job) at_i ?_ run
  intro t l t' still allowed step
  have inside : i < t.jobs.length := (List.getElem?_eq_some_iff.mp still).1
  cases step with
  | start req =>
    rw [List.getElem?_append_left inside]
    exact still
  | env moved => exact still
  | @run j o mover c next r w at_j waiting performed =>
    have other : j ≠ i := by
      rintro rfl
      rw [still, Option.some.injEq] at at_j
      rw [← at_j, done] at waiting
      cases waiting
    have left : i < (t.jobs.set j ⟨mover.req, ⟨c, r⟩ :: mover.past, next r⟩).length := by
      simpa using inside
    rw [List.getElem?_append_left left, List.getElem?_set_ne other]
    exact still

/- A fact about the world that the environment and every event since keep. -/
theorem kept_since {I : W → Prop} (env_keeps : ∀ w e w', m.env w e = some w' → I w → I w')
    (run : Reaches m allow s s') {newer : List (Event Cmd Reply W O)}
    (split : s'.log = newer ++ s.log) (keeps : ∀ ev ∈ newer, I ev.before → I ev.after)
    (held : I s.world) : I s'.world := by
  induction run generalizing newer with
  | refl => exact held
  | @tail t t' l run allowed step ih =>
    have shape := step_sound step
    cases shape with
    | start req => exact ih split keeps
    | env moved => exact env_keeps _ _ _ moved (ih split keeps)
    | @run i o job c next r w at_i waiting performed =>
      obtain ⟨before, grown⟩ := log_grows run
      have eq : newer = ⟨i, o, c, r, t.world, w⟩ :: before := by
        have same : newer ++ s.log = (⟨i, o, c, r, t.world, w⟩ :: before) ++ s.log := by
          rw [← split, List.cons_append, ← grown]
        exact List.append_cancel_right same
      subst newer
      have last := keeps _ List.mem_cons_self
      exact last (ih grown fun ev member => keeps ev (List.mem_cons_of_mem _ member))

/- What the environment and every event since leave alone is as it was. -/
theorem frame_since (f : W → X) (env_keeps : ∀ w e w', m.env w e = some w' → f w' = f w)
    (run : Reaches m allow s s') {newer : List (Event Cmd Reply W O)}
    (split : s'.log = newer ++ s.log) (keeps : ∀ ev ∈ newer, f ev.after = f ev.before) :
    f s'.world = f s.world := by
  have same : ∀ w e w', m.env w e = some w' → f w = f s.world → f w' = f s.world :=
    fun w e w' moved held => (env_keeps w e w' moved).trans held
  exact kept_since same run split (fun ev member held => (keeps ev member).trans held) rfl

/- A relation that every step respects relates any earlier world to any later one. -/
theorem related_since {R : W → W → Prop} (refl : ∀ w, R w w)
    (trans : ∀ a b c, R a b → R b c → R a c) (env_moves : ∀ w e w', m.env w e = some w' → R w w')
    (performs : ∀ w o c r w', m.perform w o c = some (r, w') → R w w')
    (run : Reaches m allow s s') : R s.world s'.world := by
  refine reaches_inv (I := fun t => R s.world t.world) (refl _) ?_ run
  intro t l t' held allowed step
  cases step with
  | start req => exact held
  | env moved => exact trans _ _ _ held (env_moves _ _ _ moved)
  | run at_i waiting performed => exact trans _ _ _ held (performs _ _ _ _ _ performed)

end Runs

/- The newest event of a log with a property. -/
theorem newest_split (P : Event Cmd Reply W O → Prop) (log : List (Event Cmd Reply W O)) :
    (∀ ev ∈ log, ¬ P ev) ∨ ∃ newer ev older, log = newer ++ ev :: older ∧ P ev ∧
      ∀ e ∈ newer, ¬ P e := by
  induction log with
  | nil => exact Or.inl (by simp)
  | cons ev log ih =>
    by_cases here : P ev
    · exact Or.inr ⟨[], ev, log, rfl, here, by simp⟩
    · rcases ih with none | ⟨newer, e, older, rfl, he, fresh⟩
      · exact Or.inl (by simpa [here] using none)
      · exact Or.inr ⟨ev :: newer, e, older, rfl, he, by simpa [here] using fresh⟩

/- The oldest event of a log with a property. -/
theorem oldest_split (P : Event Cmd Reply W O → Prop) (log : List (Event Cmd Reply W O)) :
    (∀ ev ∈ log, ¬ P ev) ∨ ∃ newer ev older, log = newer ++ ev :: older ∧ P ev ∧
      ∀ e ∈ older, ¬ P e := by
  induction log with
  | nil => exact Or.inl (by simp)
  | cons ev log ih =>
    rcases ih with none | ⟨newer, e, older, rfl, he, before⟩
    · by_cases here : P ev
      · exact Or.inr ⟨[], ev, log, rfl, here, none⟩
      · exact Or.inl (by simpa [here] using none)
    · exact Or.inr ⟨ev :: newer, e, older, rfl, he, before⟩

section Runs
variable {m : Machine Cmd Reply W O E Req Ans}
  {allow : Pool Cmd Reply W O Req Ans → Label O E Req → Bool}
  {s₀ s : Pool Cmd Reply W O Req Ans}

theorem logged_performed (fresh : s₀.log = []) (run : Reaches m allow s₀ s) :
    ∀ ev ∈ s.log, m.perform ev.before ev.oracle ev.cmd = some (ev.reply, ev.after) := by
  intro ev member
  obtain ⟨newer, older, split⟩ := List.append_of_mem member
  obtain ⟨moment⟩ := moment_of_logged fresh run split
  exact moment.performed

/- A part of the world is as its last change left it. -/
theorem last_change (f : W → X) (P : Event Cmd Reply W O → Prop)
    (env_keeps : ∀ w e w', m.env w e = some w' → f w' = f w) (fresh : s₀.log = [])
    (run : Reaches m allow s₀ s) (keeps : ∀ ev ∈ s.log, ¬ P ev → f ev.after = f ev.before) :
    ((∀ ev ∈ s.log, ¬ P ev) ∧ f s.world = f s₀.world) ∨
      ∃ newer ev older, s.log = newer ++ ev :: older ∧ P ev ∧ (∀ e ∈ newer, ¬ P e) ∧
        f s.world = f ev.after := by
  rcases newest_split P s.log with never | ⟨newer, ev, older, split, changed, since⟩
  · refine Or.inl ⟨never, ?_⟩
    have all : s.log = s.log ++ s₀.log := by rw [fresh, List.append_nil]
    exact frame_since f env_keeps run all fun ev member => keeps ev member (never ev member)
  · obtain ⟨moment⟩ := moment_of_logged fresh run split
    refine Or.inr ⟨newer, ev, older, split, changed, since, ?_⟩
    have grown : s.log = newer ++ moment.post.log := by rw [moment.post_log, split]
    have later := frame_since f env_keeps moment.later grown fun e member =>
      keeps e (by rw [split]; exact List.mem_append_left _ member) (since e member)
    rw [later, moment.post_world]

/- Every exchange of a job was performed in some world of the run. -/
theorem exchange_performed (no_jobs : s₀.jobs = []) (fresh : s₀.log = []) (run : Reaches m allow s₀ s)
    {job : Job Cmd Reply Req Ans} (member : job ∈ s.jobs) {x : Exchange Cmd Reply} (inside : x ∈ job.past) :
    ∃ w o w', m.perform w o x.cmd = some (x.reply, w') := by
  obtain ⟨i, at_i⟩ := List.mem_iff_getElem?.mp member
  rw [past_of_job no_jobs fresh run at_i] at inside
  obtain ⟨ev, logged, -, rfl⟩ := mem_own.mp inside
  exact ⟨ev.before, ev.oracle, ev.after, logged_performed fresh run ev logged⟩

/- And the run went on from what it left. -/
theorem exchange_left (no_jobs : s₀.jobs = []) (fresh : s₀.log = []) (run : Reaches m allow s₀ s)
    {job : Job Cmd Reply Req Ans} (member : job ∈ s.jobs) {x : Exchange Cmd Reply} (inside : x ∈ job.past) :
    ∃ w o t, m.perform w o x.cmd = some (x.reply, t.world) ∧ Reaches m allow t s := by
  obtain ⟨i, at_i⟩ := List.mem_iff_getElem?.mp member
  rw [past_of_job no_jobs fresh run at_i] at inside
  obtain ⟨ev, logged, -, rfl⟩ := mem_own.mp inside
  obtain ⟨newer, older, split⟩ := List.append_of_mem logged
  obtain ⟨moment⟩ := moment_of_logged fresh run split
  refine ⟨ev.before, ev.oracle, moment.post, ?_, moment.later⟩
  rw [moment.post_world]
  exact moment.performed

/- A step keeps every job, with its request and its history so far. -/
theorem member_kept {l : Label O E Req} {s' : Pool Cmd Reply W O Req Ans} (step : Step m s l s')
    {job : Job Cmd Reply Req Ans} (member : job ∈ s.jobs) : ∃ job' ∈ s'.jobs, SameJob job job' := by
  obtain ⟨i, at_i⟩ := List.mem_iff_getElem?.mp member
  obtain ⟨job', at_i', same⟩ := job_kept step at_i
  exact ⟨job', List.mem_of_getElem? at_i', same⟩

/- Replacing one entry whose image grows adds what grew, wherever the entry stands. -/
theorem flatMap_set {A B : Type} {g : A → List B} {a x : A} {extra : List B}
    (grown : g x = extra ++ g a) {l : List A} {i : Nat} (at_i : l[i]? = some a) :
    ((l.set i x).flatMap g).Perm (extra ++ l.flatMap g) := by
  induction l generalizing i with
  | nil => simp at at_i
  | cons b l ih =>
    cases i with
    | zero =>
      have same : b = a := by simpa using at_i
      subst b
      simp [grown]
    | succ i =>
      have rest := ih (by simpa using at_i)
      simp only [List.set_cons_succ, List.flatMap_cons]
      exact (rest.append_left (g b)).trans (List.perm_append_comm_assoc _ _ _)

/-- The jobs hold between them exactly what the log holds. -/
theorem jobs_hold_log {B : Type} (f : Exchange Cmd Reply → Option B) (no_jobs : s₀.jobs = [])
    (fresh : s₀.log = []) (run : Reaches m allow s₀ s) :
    (s.jobs.flatMap fun job => job.past.filterMap f).Perm
      (s.log.filterMap fun ev => f ev.exchange) := by
  refine reaches_inv (I := fun t => (t.jobs.flatMap fun job => job.past.filterMap f).Perm
    (t.log.filterMap fun ev => f ev.exchange)) ?_ ?_ run
  · simp [no_jobs, fresh]
  · intro t l t' held allowed step
    have begun : ∀ reqs : List Req,
        ((reqs.map m.begin).flatMap fun job => job.past.filterMap f) = [] := by
      intro reqs
      simp [Machine.begin]
    cases step with
    | env moved => exact held
    | start req =>
      have added := begun [req]
      rw [List.map_singleton] at added
      rw [List.flatMap_append, added, List.append_nil]
      exact held
    | @run i o job c next r w at_i waiting performed =>
      rw [List.flatMap_append, begun (m.spawns c), List.append_nil]
      have grown : (⟨c, r⟩ :: job.past).filterMap f = (f ⟨c, r⟩).toList ++ job.past.filterMap f := by
        cases here : f ⟨c, r⟩ <;> simp [here]
      refine (flatMap_set (g := fun j => j.past.filterMap f)
        (x := ⟨job.req, ⟨c, r⟩ :: job.past, next r⟩) grown at_i).trans ?_
      have same : (⟨i, o, c, r, t.world, w⟩ : Event Cmd Reply W O).exchange = ⟨c, r⟩ := rfl
      cases here : f ⟨c, r⟩ with
      | none => simpa [same, here] using held
      | some b => simpa [same, here] using held.cons b

/- The run between two events of the log: it starts as the older one left the world and
   ends as the newer one found it. -/
theorem interval (fresh : s₀.log = []) (run : Reaches m allow s₀ s)
    {late mid older : List (Event Cmd Reply W O)} {ev e : Event Cmd Reply W O}
    (split : s.log = late ++ ev :: (mid ++ e :: older)) :
    ∃ t t', Reaches m allow s₀ t ∧ t.log = e :: older ∧ t.world = e.after ∧
      Reaches m allow t t' ∧ t'.log = mid ++ t.log ∧ t'.world = ev.before := by
  obtain ⟨newer⟩ := moment_of_logged fresh run split
  obtain ⟨moment⟩ := moment_of_logged fresh newer.reached newer.pre_log
  exact ⟨moment.post, newer.pre, moment.taken, moment.post_log, moment.post_world, moment.later,
    by rw [moment.post_log, newer.pre_log], newer.pre_world⟩

/- Where no two jobs of a kind are under way at once, only the own events of such a job lie between two
   of them, and those of jobs of another kind. -/
theorem alone_between {busy : Job Cmd Reply Req Ans → Bool} {P : Req → Prop} (fresh : s₀.log = [])
    (single : ∀ t, Reaches m allow s₀ t → ∀ (i j : Nat) (job job' : Job Cmd Reply Req Ans),
      t.jobs[i]? = some job → t.jobs[j]? = some job' → busy job = true → busy job' = true → i = j)
    (works : ∀ (job : Job Cmd Reply Req Ans), P job.req → (∀ a, job.rest ≠ .done a) → busy job = true)
    (run : Reaches m allow s₀ s) {late mid older : List (Event Cmd Reply W O)}
    {newer ev x : Event Cmd Reply W O} (split : s.log = late ++ newer :: (mid ++ ev :: older)) (same_call : ev.caller = newer.caller)
    (inside : x ∈ mid) {job job' : Job Cmd Reply Req Ans} (at_newer : s.jobs[newer.caller]? = some job)
    (at_x : s.jobs[x.caller]? = some job') (is_kind : P job.req) (is_kind' : P job'.req) :
    x.caller = newer.caller := by
  obtain ⟨front, back, rfl⟩ := List.append_of_mem inside
  rw [List.append_assoc, List.cons_append] at split
  obtain ⟨ending⟩ := moment_of_logged fresh run split
  obtain ⟨middle⟩ := moment_of_logged fresh ending.reached ending.pre_log
  obtain ⟨beginning⟩ := moment_of_logged fresh middle.reached middle.pre_log
  have to_end : Reaches m allow middle.pre s := reaches_trans (since_moment middle) (since_moment ending)
  have busy_x : busy middle.job = true := by
    obtain ⟨kept, at_kept, same⟩ := job_persists to_end middle.waiting
    rw [at_x, Option.some.injEq] at at_kept
    subst kept
    apply works
    · rw [← same.1]
      exact is_kind'
    · intro a done
      rw [middle.asked] at done
      cases done
  obtain ⟨asking, at_asking, -⟩ := job_persists beginning.later beginning.resumed
  rw [same_call] at at_asking
  have busy_own : busy asking = true := by
    obtain ⟨kept, at_kept, same⟩ := job_persists to_end at_asking
    rw [at_newer, Option.some.injEq] at at_kept
    subst kept
    apply works
    · rw [← same.1]
      exact is_kind
    · intro a done
      have still := done_stays (since_moment middle) at_asking done
      rw [ending.waiting, Option.some.injEq] at still
      rw [← still, ending.asked] at done
      cases done
  exact single _ middle.reached _ _ _ _ middle.waiting at_asking busy_x busy_own

end Runs
end PoolHistory
