import Mathlib.Data.List.Dedup

/- A keyed store whose entries may carry a deadline. An entry exists strictly
   before its deadline and is gone from then on. Commands read the clock, never
   move it. Keys K and texts T are arbitrary. -/
namespace ExpiringStore

inductive Value (T : Type) where
  | text (t : T)
  | number (n : Int)
  | members (ts : List T)

structure Entry (T : Type) where
  value : Value T
  deadline : Option Nat

inductive StoreError where
  | missing
  | wrongType
  | notInteger
  deriving DecidableEq, Repr

abbrev Store (K T : Type) := K → Option (Entry T)

variable {K T : Type}

def Entry.live (now : Nat) (e : Entry T) : Bool :=
  match e.deadline with
  | none => true
  | some d => now < d

def Store.lookup (st : Store K T) (now : Nat) (k : K) : Option (Entry T) :=
  (st k).filter (Entry.live now)

/- A ttl of zero means no expiry. -/
def deadlineAfter (now ttl : Nat) : Option Nat := if ttl = 0 then none else some (now + ttl)

def Store.get (print : Int → T) (st : Store K T) (now : Nat) (k : K) : Except StoreError T :=
  match st.lookup now k with
  | none => .error .missing
  | some ⟨.text t, _⟩ => .ok t
  | some ⟨.number n, _⟩ => .ok (print n)
  | some ⟨.members _, _⟩ => .error .wrongType

def Store.present (st : Store K T) (now : Nat) (k : K) : Nat :=
  if (st.lookup now k).isSome then 1 else 0

/- The set under a key, an absent key being the empty set. -/
def Store.setAt (st : Store K T) (now : Nat) (k : K) : Except StoreError (List T) :=
  match st.lookup now k with
  | none => .ok []
  | some ⟨.members ts, _⟩ => .ok ts
  | some _ => .error .wrongType

theorem deadlineAfter_pos {ttl : Nat} (finite : 0 < ttl) (now : Nat) :
    deadlineAfter now ttl = some (now + ttl) := by
  rw [deadlineAfter, if_neg (by omega)]

theorem lookup_some {st : Store K T} {now : Nat} {k : K} {e : Entry T}
    (h : st.lookup now k = some e) : st k = some e ∧ e.live now = true := by
  simpa [Store.lookup, Option.filter_eq_some_iff] using h

theorem lookup_congr {st st' : Store K T} {k : K} (same : st' k = st k) (now : Nat) :
    st'.lookup now k = st.lookup now k := by
  simp [Store.lookup, same]

theorem present_zero {st : Store K T} {now : Nat} {k : K} :
    st.present now k = 0 ↔ st.lookup now k = none := by
  unfold Store.present
  split
  · rename_i found
    simp [Option.isSome_iff_ne_none.mp found]
  · rename_i absent
    simpa using absent

theorem live_iff {v : Value T} {d now : Nat} :
    (⟨v, some d⟩ : Entry T).live now = true ↔ now < d := decide_eq_true_iff

theorem lookup_live {st : Store K T} {k : K} {v : Value T} {d now : Nat}
    (h : st k = some ⟨v, some d⟩) (live : now < d) : st.lookup now k = some ⟨v, some d⟩ := by
  rw [Store.lookup, h, Option.filter_some, if_pos (live_iff.mpr live)]

/- What has run out stays away as long as nobody writes it. -/
theorem gone_stays {st st' : Store K T} {k : K} {now later : Nat} (same : st' k = st k)
    (le : now ≤ later) (gone : st.lookup now k = none) : st'.lookup later k = none := by
  rw [Store.lookup, Option.filter_eq_none_iff] at gone ⊢
  intro e held live
  rw [same] at held
  apply gone e held
  obtain ⟨v, deadline⟩ := e
  cases deadline with
  | none => rfl
  | some d => exact live_iff.mpr (Nat.lt_of_le_of_lt le (live_iff.mp live))

theorem get_absent (print : Int → T) {st : Store K T} {k : K} (h : st k = none) (now : Nat) :
    st.get print now k = .error .missing := by
  rw [Store.get, Store.lookup, h, Option.filter_none]

theorem get_text (print : Int → T) {st : Store K T} {k : K} {t : T} {d : Nat}
    (h : st k = some ⟨.text t, some d⟩) (now : Nat) :
    st.get print now k = if now < d then .ok t else .error .missing := by
  have live : Entry.live now (⟨.text t, some d⟩ : Entry T) = decide (now < d) := rfl
  rw [Store.get, Store.lookup, h, Option.filter_some, live]
  by_cases alive : now < d <;> simp [alive]

theorem get_forever (print : Int → T) {st : Store K T} {k : K} {t : T}
    (h : st k = some ⟨.text t, none⟩) (now : Nat) : st.get print now k = .ok t := by
  have live : Entry.live now (⟨.text t, none⟩ : Entry T) = true := rfl
  rw [Store.get, Store.lookup, h, Option.filter_some, live]
  simp

theorem present_absent {st : Store K T} {k : K} (h : st k = none) (now : Nat) :
    st.present now k = 0 := by
  rw [present_zero, Store.lookup, h, Option.filter_none]

theorem present_forever {st : Store K T} {k : K} {t : T} (h : st k = some ⟨.text t, none⟩)
    (now : Nat) : st.present now k = 1 := by
  have live : Entry.live now (⟨.text t, none⟩ : Entry T) = true := rfl
  rw [Store.present, Store.lookup, h, Option.filter_some, if_pos live]
  rfl

section Writes
variable [DecidableEq K]

def Store.put (st : Store K T) (k : K) (e : Option (Entry T)) : Store K T :=
  fun k' => if k' = k then e else st k'

def Store.set (st : Store K T) (now : Nat) (k : K) (t : T) (ttl : Nat) : Store K T :=
  st.put k (some ⟨.text t, deadlineAfter now ttl⟩)

def Store.del (st : Store K T) (ks : List K) : Store K T :=
  fun k => if k ∈ ks then none else st k

def Store.incr (scan : T → Option Int) (st : Store K T) (now : Nat) (k : K) :
    Except StoreError Int × Store K T :=
  match st.lookup now k with
  | none => (.ok 1, st.put k (some ⟨.number 1, none⟩))
  | some ⟨.number n, d⟩ => (.ok (n + 1), st.put k (some ⟨.number (n + 1), d⟩))
  | some ⟨.text t, d⟩ =>
    match scan t with
    | some n => (.ok (n + 1), st.put k (some ⟨.number (n + 1), d⟩))
    | none => (.error .notInteger, st)
  | some ⟨.members _, _⟩ => (.error .wrongType, st)

def Store.expire (st : Store K T) (now : Nat) (k : K) (ttl : Nat) : Bool × Store K T :=
  match st.lookup now k with
  | none => (false, st)
  | some e => (true, st.put k (some { e with deadline := some (now + ttl) }))

/- An emptied set is no longer a key. -/
def Store.putSet (st : Store K T) (k : K) (ts : List T) : Store K T :=
  st.put k (if ts.isEmpty then none else some ⟨.members ts, none⟩)

@[simp] theorem put_self (st : Store K T) (k : K) (e : Option (Entry T)) : st.put k e k = e := by
  simp [Store.put]

theorem put_other (st : Store K T) {k k' : K} (e : Option (Entry T)) (ne : k' ≠ k) :
    st.put k e k' = st k' := by
  simp [Store.put, ne]

@[simp] theorem set_self (st : Store K T) (now : Nat) (k : K) (t : T) (ttl : Nat) :
    st.set now k t ttl k = some ⟨.text t, deadlineAfter now ttl⟩ := put_self st k _

theorem set_other (st : Store K T) (now : Nat) {k k' : K} (t : T) (ttl : Nat) (ne : k' ≠ k) :
    st.set now k t ttl k' = st k' := put_other st _ ne

theorem del_self (st : Store K T) {ks : List K} {k : K} (member : k ∈ ks) :
    st.del ks k = none := by
  simp [Store.del, member]

theorem del_other (st : Store K T) {ks : List K} {k : K} (out : k ∉ ks) :
    st.del ks k = st k := by
  simp [Store.del, out]

theorem incr_other (scan : T → Option Int) (st : Store K T) (now : Nat) {k k' : K}
    (ne : k' ≠ k) : (st.incr scan now k).2 k' = st k' := by
  unfold Store.incr
  split
  · exact put_other st _ ne
  · exact put_other st _ ne
  · split
    · exact put_other st _ ne
    · rfl
  · rfl

theorem incr_absent (scan : T → Option Int) {st : Store K T} {k : K} (h : st k = none) (now : Nat) :
    st.incr scan now k = (.ok 1, st.put k (some ⟨.number 1, none⟩)) := by
  rw [Store.incr, Store.lookup, h, Option.filter_none]

theorem incr_forever (scan : T → Option Int) {st : Store K T} {k : K} {n : Int}
    (h : st k = some ⟨.number n, none⟩) (now : Nat) :
    st.incr scan now k = (.ok (n + 1), st.put k (some ⟨.number (n + 1), none⟩)) := by
  have live : Entry.live now (⟨.number n, none⟩ : Entry T) = true := rfl
  rw [Store.incr, Store.lookup, h, Option.filter_some, if_pos live]

theorem expire_other (st : Store K T) (now : Nat) {k k' : K} (ttl : Nat) (ne : k' ≠ k) :
    (st.expire now k ttl).2 k' = st k' := by
  unfold Store.expire
  split
  · rfl
  · exact put_other st _ ne

end Writes

section Sets
variable [DecidableEq K] [DecidableEq T]

def Store.sadd (st : Store K T) (now : Nat) (k : K) (new : List T) :
    Except StoreError Nat × Store K T :=
  match st.setAt now k with
  | .error e => (.error e, st)
  | .ok ts =>
    let added := new.dedup.filter (· ∉ ts)
    (.ok added.length, st.putSet k (ts ++ added))

def Store.srem (st : Store K T) (now : Nat) (k : K) (t : T) :
    Except StoreError Nat × Store K T :=
  match st.setAt now k with
  | .error e => (.error e, st)
  | .ok ts => (.ok (if t ∈ ts then 1 else 0), st.putSet k (ts.filter (· ≠ t)))

omit [DecidableEq K] in
def Store.sismember (st : Store K T) (now : Nat) (k : K) (t : T) : Except StoreError Bool :=
  (st.setAt now k).map fun ts => decide (t ∈ ts)

theorem sadd_other (st : Store K T) (now : Nat) {k k' : K} (new : List T) (ne : k' ≠ k) :
    (st.sadd now k new).2 k' = st k' := by
  unfold Store.sadd
  split
  · rfl
  · exact put_other st _ ne

theorem srem_other (st : Store K T) (now : Nat) {k k' : K} (t : T) (ne : k' ≠ k) :
    (st.srem now k t).2 k' = st k' := by
  unfold Store.srem
  split
  · rfl
  · exact put_other st _ ne

/- The set under a key, whatever its deadline. -/
def Store.members (st : Store K T) (k : K) : List T :=
  match st k with
  | some ⟨.members ts, _⟩ => ts
  | _ => []

/-- The key holds this set for good; the empty set is an absent key. -/
def Store.HoldsSet (st : Store K T) (k : K) (ts : List T) : Prop :=
  st k = if ts.isEmpty then none else some ⟨.members ts, none⟩

variable {st : Store K T} {k : K} {ts : List T}

omit [DecidableEq K] [DecidableEq T] in
theorem holds_empty (h : st k = none) : st.HoldsSet k [] := h

omit [DecidableEq K] [DecidableEq T] in
theorem members_holds (h : st.HoldsSet k ts) : st.members k = ts := by
  unfold Store.members
  cases ts with
  | nil => simp [show st k = none from h]
  | cons t ts => simp [show st k = some ⟨.members (t :: ts), none⟩ from h]

omit [DecidableEq K] [DecidableEq T] in
theorem setAt_holds (h : st.HoldsSet k ts) (now : Nat) : st.setAt now k = .ok ts := by
  unfold Store.setAt Store.lookup
  cases ts with
  | nil => simp [show st k = none from h]
  | cons t ts =>
    have live : Entry.live now (⟨.members (t :: ts), none⟩ : Entry T) = true := rfl
    rw [show st k = some ⟨.members (t :: ts), none⟩ from h, Option.filter_some, if_pos live]

omit [DecidableEq T] in
theorem putSet_holds (st : Store K T) (k : K) (ts : List T) : (st.putSet k ts).HoldsSet k ts :=
  put_self st k _

theorem sadd_holds (h : st.HoldsSet k ts) (now : Nat) (new : List T) :
    ∃ ts', (st.sadd now k new).2.HoldsSet k ts' ∧ ∀ t, t ∈ ts' ↔ t ∈ ts ∨ t ∈ new := by
  refine ⟨ts ++ new.dedup.filter (· ∉ ts), ?_, ?_⟩
  · rw [Store.sadd, setAt_holds h]
    exact putSet_holds st k _
  · intro t
    by_cases old : t ∈ ts <;> simp [old]

theorem srem_holds (h : st.HoldsSet k ts) (now : Nat) (t : T) :
    ∃ ts', (st.srem now k t).2.HoldsSet k ts' ∧ ∀ x, x ∈ ts' ↔ x ∈ ts ∧ x ≠ t := by
  refine ⟨ts.filter (· ≠ t), ?_, ?_⟩
  · rw [Store.srem, setAt_holds h]
    exact putSet_holds st k _
  · intro x
    simp

omit [DecidableEq K] in
theorem sismember_holds (h : st.HoldsSet k ts) (now : Nat) (t : T) :
    st.sismember now k t = .ok (decide (t ∈ ts)) := by
  rw [Store.sismember, setAt_holds h]
  rfl

omit [DecidableEq K] in
theorem sismember_agrees {b : Bool} (h : st.HoldsSet k ts) {t : T} (same : t ∈ ts ↔ b = true)
    (now : Nat) : st.sismember now k t = .ok b := by
  rw [sismember_holds h]
  apply congrArg Except.ok
  rw [Bool.eq_iff_iff, decide_eq_true_iff]
  exact same

end Sets

section Locality
variable [DecidableEq K] [DecidableEq T] {st st' : Store K T} {k : K}

/- The two stores answer alike, and what they agreed on they agree on afterwards. -/
def Alike {α : Type} (st st' : Store K T) (ran ran' : α × Store K T) : Prop :=
  ran.1 = ran'.1 ∧ ∀ key, st key = st' key → ran.2 key = ran'.2 key

omit [DecidableEq T] in
theorem put_alike {α : Type} (a : α) (st st' : Store K T) (k : K) (e : Option (Entry T)) :
    Alike st st' (a, st.put k e) (a, st'.put k e) := by
  constructor
  · rfl
  · intro key same
    by_cases here : key = k
    · simp [here]
    · simp [put_other _ _ here, same]

omit [DecidableEq T] in
theorem del_alike (st st' : Store K T) (ks : List K) : Alike st st' ((), st.del ks) ((), st'.del ks) := by
  constructor
  · rfl
  · intro key same
    simp [Store.del, same]

omit [DecidableEq K] [DecidableEq T] in
theorem idle_alike {α : Type} (a : α) (st st' : Store K T) : Alike st st' (a, st) (a, st') :=
  ⟨rfl, fun _ same => same⟩

omit [DecidableEq T] in
theorem incr_alike (scan : T → Option Int) (same : st k = st' k) (now : Nat) :
    Alike st st' (st.incr scan now k) (st'.incr scan now k) := by
  have found : st.lookup now k = st'.lookup now k := lookup_congr same now
  rw [Store.incr, Store.incr, found]
  split
  · exact put_alike _ st st' k _
  · exact put_alike _ st st' k _
  · split
    · exact put_alike _ st st' k _
    · exact idle_alike _ st st'
  · exact idle_alike _ st st'

omit [DecidableEq T] in
theorem expire_alike (same : st k = st' k) (now ttl : Nat) :
    Alike st st' (st.expire now k ttl) (st'.expire now k ttl) := by
  have found : st.lookup now k = st'.lookup now k := lookup_congr same now
  rw [Store.expire, Store.expire, found]
  split
  · exact idle_alike _ st st'
  · exact put_alike _ st st' k _

omit [DecidableEq K] [DecidableEq T] in
theorem setAt_congr (same : st k = st' k) (now : Nat) : st.setAt now k = st'.setAt now k := by
  have found : st.lookup now k = st'.lookup now k := lookup_congr same now
  rw [Store.setAt, Store.setAt, found]

theorem sadd_alike (same : st k = st' k) (now : Nat) (new : List T) :
    Alike st st' (st.sadd now k new) (st'.sadd now k new) := by
  rw [Store.sadd, Store.sadd, setAt_congr same]
  split
  · exact idle_alike _ st st'
  · exact put_alike _ st st' k _

theorem srem_alike (same : st k = st' k) (now : Nat) (t : T) :
    Alike st st' (st.srem now k t) (st'.srem now k t) := by
  rw [Store.srem, Store.srem, setAt_congr same]
  split
  · exact idle_alike _ st st'
  · exact put_alike _ st st' k _

end Locality
end ExpiringStore
