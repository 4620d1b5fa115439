import TupleSpace.Proofs.Run
import TupleSpace.Proofs.Store.Scans

/-!
# Spaces without expired entries

What a space is meant to be: a list of entries for every key, from which an entry disappears at the
very instant at which it expires.  There is no housekeeping here, no record, no condition and no
timer; a blocked call is its ticket and its request.  A retrieval looks at the list of its own key
and nothing else, and it finds the first entry that it accepts.
-/

namespace TupleSpace

/-- A space from which expired entries disappear by themselves. -/
structure Eager (κ α : Type) where
  now : Nat
  cancelled : List Nat
  store : Store κ α
  /-- The blocked calls, in the order in which they were started. -/
  blocked : List (Nat × Request κ α) := []

namespace Eager

variable {κ α : Type} [DecidableEq κ]

/-- A new space. -/
def start (now : Nat) (cancelled : List Nat) : Eager κ α where
  now := now
  cancelled := cancelled
  store _ := []

/-- How a request ends, unless it waits, and the store that it leaves.  A take removes the entry
that it finds. -/
def look (now : Nat) (cancelled : Bool) (st : Store κ α) :
    Request κ α → Option (Outcome α) × Store κ α
  | .retrieve q =>
    match (st q.key).find? fun e => q.accepts e.value with
    | some e =>
      (some (.ok (.found (some e.value))),
        q.mode.leave st q.key ((st q.key).eraseP fun e => q.accepts e.value))
    | none => (if q.patience.isOver now || cancelled then some (.ok (.found none)) else none, st)
  | .drain key patience =>
    match st key with
    | [] => (some (.ok (.found none)), st)
    | e :: _ =>
      (if patience.deadline?.any fun d => decide (d ≤ now) then
        some (.ok (.found (some e.value))) else none, st)
  | .presence keys deadline =>
    if keys.any fun key => !(st key).isEmpty then (some (.ok (.present true)), st)
    else
      (if deadline.any fun d => decide (d ≤ now) then some (.ok (.present false)) else none, st)

/-- Lets a request look that is started, or the one that waits at a place. -/
def serve (ticket : Nat) (q : Request κ α) (place : Option Nat) (s : Eager κ α) :
    Eager κ α × Option (Event κ α) :=
  match look s.now (Monitor.isCancelled s.cancelled q) s.store q, place with
  | (some o, store), none => ({ s with store }, some (.ended s.now ticket q o))
  | (some o, store), some i =>
    ({ s with store, blocked := s.blocked.eraseIdx i }, some (.ended s.now ticket q o))
  | (none, store), none => ({ s with store, blocked := s.blocked ++ [(ticket, q)] }, none)
  | (none, store), some _ => ({ s with store }, none)

/-- What an action makes of a space, and what is seen of it.  Sweeps, alarms and listeners change
nothing, and the space is never closed. -/
def step (act : Action κ α) (s : Eager κ α) : Eager κ α × Option (Event κ α) :=
  match act with
  | .insert key value timeout placement =>
    match Entry.withTimeout? value timeout s.now with
    | none => (s, some (.inserted s.now key value timeout placement
        (.error (.invalidArgument (.timeoutOutOfRange timeout)))))
    | some e =>
      ({ s with store := Function.update s.store key (placement.place e (s.store key)) },
        some (.inserted s.now key value timeout placement (.ok ())))
  | .call ticket q => s.serve ticket q none
  | .rerun place =>
    match s.blocked[place]? with
    | none => (s, none)
    | some (ticket, q) => s.serve ticket q (some place)
  | .existsAny keys =>
    (s, some (.answered s.now keys (.ok (keys.any fun key => !(s.store key).isEmpty))))
  | .cancel token => ({ s with cancelled := token :: s.cancelled }, none)
  | .advance span =>
    ({ s with now := s.now + span, store := Store.live (s.now + span) s.store }, none)
  | .sweep _ | .alarm _ | .told _ | .renumber _ | .shut | .clear => (s, none)

/-- What is seen of some actions. -/
def trace : List (Action κ α) → Eager κ α → List (Event κ α)
  | [], _ => []
  | act :: rest, s => (s.step act).2.toList ++ trace rest (s.step act).1

/-! ## What a look does -/

variable {now : Nat} {cancelled : Bool} {st : Store κ α}

/-- A retrieval finds the first entry that it accepts, and a take removes exactly that one. -/
theorem look_of_found {q : Retrieval κ α} {before after : List (Entry α)} {e : Entry α}
    (hstored : st q.key = before ++ e :: after)
    (hpassed : ∀ x ∈ before, q.accepts x.value = false) (haccepted : q.accepts e.value = true) :
    look now cancelled st (.retrieve q) =
      (some (.ok (.found (some e.value))), q.mode.leave st q.key (before ++ after)) := by
  have hrejected : ∀ x ∈ before, ¬ q.accepts x.value = true := fun x hx => by simp [hpassed x hx]
  have hfind : (st q.key).find? (fun e => q.accepts e.value) = some e := by
    rw [hstored, List.find?_append, List.find?_eq_none.mpr hrejected, Option.none_or]
    exact List.find?_cons_of_pos haccepted
  have herase : (st q.key).eraseP (fun e => q.accepts e.value) = before ++ after := by
    rw [hstored, List.eraseP_append_right _ hrejected]
    exact congrArg (before ++ ·) (List.eraseP_cons_of_pos haccepted)
  simp only [look, hfind, herase]

/-- A retrieval that accepts no entry ends with nothing or waits, and changes nothing. -/
theorem look_of_missed {q : Retrieval κ α}
    (hmissed : ∀ x ∈ st q.key, q.accepts x.value = false) :
    look now cancelled st (.retrieve q) =
      (if q.patience.isOver now || cancelled then some (.ok (.found none)) else none, st) := by
  have hfind : (st q.key).find? (fun e => q.accepts e.value) = none :=
    List.find?_eq_none.mpr fun x hx => by simp [hmissed x hx]
  simp only [look, hfind]

/-- A retrieval changes nothing under other keys. -/
theorem look_store_of_ne {q : Retrieval κ α} {key : κ} (hne : key ≠ q.key) :
    (look now cancelled st (.retrieve q)).2 key = st key := by
  simp only [look]
  split
  · cases q.mode with
    | take => exact Function.update_of_ne hne _ _
    | read => rfl
  · rfl

/-- A call that waits for a drain changes nothing. -/
theorem look_store_drain (key : κ) (patience : Patience) :
    (look now cancelled st (.drain key patience)).2 = st := by
  simp only [look]
  split <;> rfl

/-- A call that waits for some key to have an entry changes nothing. -/
theorem look_store_presence (keys : List κ) (deadline : Option Nat) :
    (look now cancelled st (.presence keys deadline)).2 = st := by
  simp only [look]
  split <;> rfl

/-! ## Nothing is kept past its deadline -/

/-- Every entry is live. -/
def Fresh (s : Eager κ α) : Prop := ∀ key, ∀ e ∈ s.store key, e.isLive s.now = true

/-- A look leaves entries that were there. -/
theorem look_store_subset (now : Nat) (cancelled : Bool) (st : Store κ α) (q : Request κ α)
    (key : κ) : (look now cancelled st q).2 key ⊆ st key := by
  cases q with
  | drain k patience => rw [look_store_drain]; exact List.Subset.refl _
  | presence keys deadline => rw [look_store_presence]; exact List.Subset.refl _
  | retrieve q =>
      by_cases hkey : key = q.key
      · subst hkey
        simp only [look]
        split
        · cases q.mode with
          | take =>
              show Function.update st q.key _ q.key ⊆ st q.key
              rw [Function.update_self]
              exact List.eraseP_subset
          | read => exact List.Subset.refl _
        · exact List.Subset.refl _
      · rw [look_store_of_ne hkey]
        exact List.Subset.refl _

omit [DecidableEq κ] in
/-- An entry that is put in a space is live at that instant. -/
theorem isLive_of_withTimeout? {value : α} {timeout now : Nat} {e : Entry α}
    (hentry : Entry.withTimeout? value timeout now = some e) : e.isLive now = true := by
  rcases Entry.withTimeout?_eq_some_iff.mp hentry with ⟨_, rfl⟩ | ⟨htimeout, _, rfl⟩
  · rfl
  · have hlater : now < now + timeout :=
      Nat.lt_add_of_pos_right (Nat.pos_of_ne_zero htimeout)
    rw [Entry.isLive_iff]
    rintro d hd
    cases hd
    exact hlater

theorem Fresh.serve {s : Eager κ α} (hfresh : s.Fresh) (ticket : Nat) (q : Request κ α)
    (place : Option Nat) : (s.serve ticket q place).1.Fresh := by
  have hsubset := look_store_subset s.now (Monitor.isCancelled s.cancelled q) s.store q
  unfold Eager.serve
  split <;> rename_i heq <;> rw [heq] at hsubset <;>
    exact fun key e he => hfresh key e (hsubset key he)

/-- Whatever happens, no entry is kept past its deadline. -/
theorem Fresh.step {s : Eager κ α} (hfresh : s.Fresh) (act : Action κ α) :
    (s.step act).1.Fresh := by
  cases act with
  | insert key value timeout placement =>
      simp only [Eager.step]
      split
      · exact hfresh
      · rename_i e hentry
        intro k x hx
        by_cases hk : k = key
        · subst hk
          replace hx : x ∈ Function.update s.store k (placement.place e (s.store k)) k := hx
          rw [Function.update_self] at hx
          by_cases hnew : x = e
          · rw [hnew]
            exact isLive_of_withTimeout? hentry
          · exact hfresh k x ((Placement.mem_place_of_ne hnew _ _).mp hx).2
        · replace hx : x ∈ Function.update s.store key _ k := hx
          rw [Function.update_of_ne hk] at hx
          exact hfresh k x hx
  | call ticket q => exact hfresh.serve ticket q none
  | rerun place =>
      simp only [Eager.step]
      split
      · exact hfresh
      · exact hfresh.serve _ _ _
  | advance span => exact fun key e he => (List.mem_filter.mp he).2
  | existsAny | cancel | sweep | alarm | told | renumber | shut | clear => exact hfresh

end Eager

end TupleSpace
