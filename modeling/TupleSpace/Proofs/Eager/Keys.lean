import TupleSpace.Proofs.Eager
import TupleSpace.Proofs.Engine.Lawful

/-!
# Every key is a space of its own

What is seen under one key of a space without expired entries is what would be seen of a space in
which nothing else ever happened: the other keys, the questions for live entries and the
housekeeping can be left out.  A blocked call is named by its place, so leaving out the calls under
other keys moves the places of those that remain.
-/

namespace TupleSpace

variable {κ α : Type} [DecidableEq κ]

/-- Whether something seen is about an insertion or a retrieval under a key. -/
def Event.isUnder (key : κ) : Event κ α → Bool
  | .inserted _ k _ _ _ _ => decide (k = key)
  | .ended _ _ q _ => q.retrievesFrom key
  | .answered _ _ _ => false

/-- Whether something seen has put an entry in a space or taken one out of it. -/
def Event.moves : Event κ α → Bool
  | .inserted _ _ _ _ _ (.ok ()) => true
  | .ended _ _ (.retrieve q) (.ok (.found (some _))) => decide (q.mode = .take)
  | _ => false

namespace Eager

/-- The same contents under one key, and nothing under the others. -/
def onlyUnder (key : κ) (st : Store κ α) : Store κ α :=
  fun k => if k = key then st k else []

/-- A space with one of its keys only. -/
def only (key : κ) (s : Eager κ α) : Eager κ α :=
  { s with
    store := onlyUnder key s.store
    blocked := s.blocked.filter fun c => c.2.retrievesFrom key }

/-- What an action is to a space with one of its keys only, unless it can be left out there. -/
def counterpart? (key : κ) (s : Eager κ α) : Action κ α → Option (Action κ α)
  | .insert k value timeout placement =>
    if k = key then some (.insert k value timeout placement) else none
  | .call ticket q => if q.retrievesFrom key then some (.call ticket q) else none
  | .rerun place =>
    match s.blocked[place]? with
    | none => none
    | some (_, q) =>
      if q.retrievesFrom key then
        some (.rerun ((s.blocked.take place).filter fun c => c.2.retrievesFrom key).length)
      else none
  | .cancel token => some (.cancel token)
  | .advance span => some (.advance span)
  | .existsAny _ | .sweep _ | .alarm _ | .told _ | .renumber _ | .shut | .clear => none

/-- What is left of some actions if only one key matters. -/
def foreground (key : κ) : List (Action κ α) → Eager κ α → List (Action κ α)
  | [], _ => []
  | act :: rest, s => (s.counterpart? key act).toList ++ foreground key rest (s.step act).1

variable {key : κ} {s : Eager κ α} {now : Nat} {cancelled : Bool} {st : Store κ α}

theorem onlyUnder_self (key : κ) (st : Store κ α) : onlyUnder key st key = st key := if_pos rfl

theorem onlyUnder_update (key : κ) (st : Store κ α) (entries : List (Entry α)) :
    onlyUnder key (Function.update st key entries) =
      Function.update (onlyUnder key st) key entries := by
  funext k
  by_cases hk : k = key
  · subst hk
    simp [onlyUnder]
  · simp [onlyUnder, hk]

/-- Whatever happens under other keys, one key does not notice. -/
theorem onlyUnder_congr {st st' : Store κ α} (hsame : st key = st' key) :
    onlyUnder key st = onlyUnder key st' := by
  funext k
  by_cases hk : k = key
  · subst hk
    simpa [onlyUnder] using hsame
  · simp [onlyUnder, hk]

/-- A retrieval fares the same if there is nothing under other keys. -/
theorem look_onlyUnder {q : Retrieval κ α} (hkey : q.key = key) :
    look now cancelled (onlyUnder key st) (.retrieve q) =
      ((look now cancelled st (.retrieve q)).1,
        onlyUnder key (look now cancelled st (.retrieve q)).2) := by
  subst hkey
  simp only [look, onlyUnder_self]
  split
  · cases q.mode with
    | take => simp [Mode.leave, onlyUnder_update]
    | read => rfl
  · rfl

/-- A request that is no retrieval under a key changes nothing under it. -/
theorem look_store_of_elsewhere {q : Request κ α} (helse : q.retrievesFrom key = false)
    (now : Nat) (cancelled : Bool) (st : Store κ α) :
    (look now cancelled st q).2 key = st key := by
  cases q with
  | retrieve q => exact look_store_of_ne fun heq => by simp [Request.retrievesFrom, heq] at helse
  | drain k patience => rw [look_store_drain]
  | presence keys deadline => rw [look_store_presence]

/-- The retrievals under a key that is a request's own. -/
theorem retrieve_of_retrievesFrom {q : Request κ α} (hmine : q.retrievesFrom key = true) :
    ∃ r : Retrieval κ α, q = .retrieve r ∧ r.key = key := by
  cases q with
  | retrieve r => exact ⟨r, rfl, of_decide_eq_true hmine⟩
  | drain => cases hmine
  | presence => cases hmine

/-! ## One action -/

theorem serve_only {q : Request κ α} (hmine : q.retrievesFrom key = true) (ticket : Nat) :
    (s.only key).serve ticket q none =
      ((s.serve ticket q none).1.only key, (s.serve ticket q none).2) := by
  obtain ⟨r, rfl, hkey⟩ := retrieve_of_retrievesFrom hmine
  unfold serve
  simp only [only, look_onlyUnder hkey]
  rcases look s.now (Monitor.isCancelled s.cancelled (.retrieve r)) s.store (.retrieve r) with
    ⟨_ | o, st⟩
  · simp [List.filter_append, hmine]
  · rfl

theorem serve_only_blocked {ticket place : Nat} {q : Request κ α}
    (hmine : q.retrievesFrom key = true) (hsome : s.blocked[place]? = some (ticket, q)) :
    (s.only key).serve ticket q
        (some ((s.blocked.take place).filter fun c => c.2.retrievesFrom key).length) =
      ((s.serve ticket q (some place)).1.only key, (s.serve ticket q (some place)).2) := by
  obtain ⟨r, rfl, hkey⟩ := retrieve_of_retrievesFrom hmine
  unfold serve
  simp only [only, look_onlyUnder hkey]
  rcases look s.now (Monitor.isCancelled s.cancelled (.retrieve r)) s.store (.retrieve r) with
    ⟨_ | o, st⟩
  · rfl
  · have hsplit := congrArg (List.filter fun c => c.2.retrievesFrom key) (split_at_place hsome)
    rw [List.filter_append, List.filter_cons, if_pos hmine] at hsplit
    have herased := congrArg (List.filter fun c => c.2.retrievesFrom key)
      (List.eraseIdx_eq_take_drop_succ s.blocked place)
    rw [List.filter_append] at herased
    simp only [hsplit, erase_at_place, herased]

/-- A request that is no retrieval under a key is as if it had not been started. -/
theorem only_serve {q : Request κ α} (helse : q.retrievesFrom key = false) (ticket : Nat) :
    (s.serve ticket q none).1.only key = s.only key := by
  have hstore := look_store_of_elsewhere helse s.now (Monitor.isCancelled s.cancelled q) s.store
  unfold serve
  generalize look s.now (Monitor.isCancelled s.cancelled q) s.store q = looked at hstore
  rcases looked with ⟨_ | o, st⟩
  · simp [only, onlyUnder_congr hstore, List.filter_append, helse]
  · simp [only, onlyUnder_congr hstore]

/-- A blocked request that is no retrieval under a key is as if it had not run again. -/
theorem only_serve_blocked {ticket place : Nat} {q : Request κ α}
    (helse : q.retrievesFrom key = false) (hsome : s.blocked[place]? = some (ticket, q)) :
    (s.serve ticket q (some place)).1.only key = s.only key := by
  have hstore := look_store_of_elsewhere helse s.now (Monitor.isCancelled s.cancelled q) s.store
  have hsplit := congrArg (List.filter fun c => c.2.retrievesFrom key) (split_at_place hsome)
  rw [List.filter_append, List.filter_cons, if_neg (by simp [helse])] at hsplit
  unfold serve
  generalize look s.now (Monitor.isCancelled s.cancelled q) s.store q = looked at hstore
  rcases looked with ⟨_ | o, st⟩
  · simp [only, onlyUnder_congr hstore]
  · simp only [only, onlyUnder_congr hstore, List.eraseIdx_eq_take_drop_succ,
      List.filter_append, hsplit]

/-- What is seen of a request is about its own key. -/
theorem isUnder_of_serve {ticket : Nat} {q : Request κ α} {place : Option Nat}
    {event : Event κ α} (hevent : event ∈ (s.serve ticket q place).2) :
    event.isUnder key = q.retrievesFrom key := by
  unfold serve at hevent
  split at hevent <;> cases hevent <;> rfl

/-- An action that can be left out changes nothing under the key, and nothing is seen there. -/
theorem step_of_no_counterpart {act : Action κ α} (hnone : s.counterpart? key act = none) :
    (s.step act).1.only key = s.only key ∧
      ∀ event ∈ (s.step act).2, event.isUnder key = false := by
  have hunseen : ∀ event ∈ (none : Option (Event κ α)), event.isUnder key = false :=
    fun event hevent => absurd hevent (Option.not_mem_none event)
  cases act with
  | insert k value timeout placement =>
      have hne : k ≠ key := by
        rintro rfl
        simp [counterpart?] at hnone
      have hsame : ∀ entries, onlyUnder key (Function.update s.store k entries) =
          onlyUnder key s.store := fun entries =>
        onlyUnder_congr (Function.update_of_ne hne.symm _ _)
      simp only [step]
      split
      · exact ⟨rfl, by rintro _ ⟨⟩; exact decide_eq_false hne⟩
      · exact ⟨by simp only [only, hsame], by rintro _ ⟨⟩; exact decide_eq_false hne⟩
  | call ticket q =>
      have helse : q.retrievesFrom key = false := by
        by_contra hmine
        simp [counterpart?, hmine] at hnone
      exact ⟨only_serve helse ticket, fun event hevent =>
        (isUnder_of_serve hevent).trans helse⟩
  | rerun place =>
      simp only [step]
      cases hsome : s.blocked[place]? with
      | none => exact ⟨rfl, hunseen⟩
      | some c =>
          obtain ⟨ticket, q⟩ := c
          have helse : q.retrievesFrom key = false := by
            by_contra hmine
            simp [counterpart?, hsome, hmine] at hnone
          exact ⟨only_serve_blocked helse hsome, fun event hevent =>
            (isUnder_of_serve hevent).trans helse⟩
  | existsAny keys => exact ⟨rfl, by rintro _ ⟨⟩; rfl⟩
  | cancel | advance => cases hnone
  | sweep | alarm | told | renumber | shut | clear => exact ⟨rfl, hunseen⟩

/-- The counterpart of an action does to one key what the action does, and everything that is seen
of it is about that key. -/
theorem step_of_counterpart {act act' : Action κ α} (hsome : s.counterpart? key act = some act') :
    (s.only key).step act' = ((s.step act).1.only key, (s.step act).2) ∧
      ∀ event ∈ (s.step act).2, event.isUnder key = true := by
  have hunseen : ∀ event ∈ (none : Option (Event κ α)), event.isUnder key = true :=
    fun event hevent => absurd hevent (Option.not_mem_none event)
  cases act with
  | insert k value timeout placement =>
      simp only [counterpart?] at hsome
      split at hsome
      · subst k
        cases hsome
        cases hentry : Entry.withTimeout? value timeout s.now with
        | none =>
            simp only [step, only, hentry]
            exact ⟨trivial, by rintro _ ⟨⟩; exact decide_eq_true rfl⟩
        | some e =>
            simp only [step, only, hentry, onlyUnder_update, onlyUnder_self]
            exact ⟨trivial, by rintro _ ⟨⟩; exact decide_eq_true rfl⟩
      · cases hsome
  | call ticket q =>
      simp only [counterpart?] at hsome
      split at hsome
      · rename_i hmine
        cases hsome
        exact ⟨serve_only hmine ticket, fun event hevent =>
          (isUnder_of_serve hevent).trans hmine⟩
      · cases hsome
  | rerun place =>
      simp only [counterpart?] at hsome
      split at hsome
      · cases hsome
      · rename_i ticket q hblocked
        split at hsome
        · rename_i hmine
          cases hsome
          have hthere : (s.only key).blocked[((s.blocked.take place).filter
              fun c => c.2.retrievesFrom key).length]? = some (ticket, q) := by
            have hsplit := congrArg (List.filter fun c => c.2.retrievesFrom key)
              (split_at_place hblocked)
            rw [List.filter_append, List.filter_cons, if_pos hmine] at hsplit
            show (s.blocked.filter _)[_]? = _
            rw [hsplit, get_at_place]
          simp only [step, hthere, hblocked]
          exact ⟨serve_only_blocked hmine hblocked, fun event hevent =>
            (isUnder_of_serve hevent).trans hmine⟩
        · cases hsome
  | cancel token =>
      cases hsome
      exact ⟨rfl, hunseen⟩
  | advance span =>
      cases hsome
      refine ⟨?_, hunseen⟩
      have hlive : ∀ now (st : Store κ α),
          Store.live now (onlyUnder key st) = onlyUnder key (Store.live now st) := by
        intro now st
        funext k
        by_cases hk : k = key <;> simp [Store.live, onlyUnder, hk]
      simp [step, only, hlive]
  | existsAny | sweep | alarm | told | renumber | shut | clear => cases hsome

/-! ## Whole runs -/

/-- What is seen under one key is what is seen of a space with nothing else in it. -/
theorem trace_only (key : κ) (acts : List (Action κ α)) (s : Eager κ α) :
    (s.trace acts).filter (·.isUnder key) = (s.only key).trace (s.foreground key acts) := by
  induction acts generalizing s with
  | nil => rfl
  | cons act acts ih =>
      rw [trace, foreground, List.filter_append, ih]
      cases hcounterpart : s.counterpart? key act with
      | none =>
          obtain ⟨hsame, hunseen⟩ := step_of_no_counterpart hcounterpart
          have hnone : (s.step act).2.toList.filter (·.isUnder key) = [] :=
            List.filter_eq_nil_iff.mpr fun event hevent => by
              simp [hunseen event (Option.mem_toList.mp hevent)]
          rw [hnone, hsame]
          rfl
      | some act' =>
          obtain ⟨hstep, hseen⟩ := step_of_counterpart hcounterpart
          have hall : (s.step act).2.toList.filter (·.isUnder key) = (s.step act).2.toList :=
            List.filter_eq_self.mpr fun event hevent =>
              hseen event (Option.mem_toList.mp hevent)
          rw [hall, Option.toList_some, List.singleton_append, trace, hstep]

/-! ## What leaves the contents alone -/

/-- A look changes the contents only if it takes something. -/
theorem look_store_of_idle (now : Nat) (cancelled : Bool) (st : Store κ α) {q : Request κ α}
    (ticket : Nat) (hidle : ∀ o, (look now cancelled st q).1 = some o →
      (Event.ended now ticket q o).moves = false) :
    (look now cancelled st q).2 = st := by
  cases q with
  | drain key patience => rw [look_store_drain]
  | presence keys deadline => rw [look_store_presence]
  | retrieve q =>
      simp only [look] at hidle ⊢
      split
      · rename_i e hfind
        rw [hfind] at hidle
        have hread := hidle _ rfl
        cases hmode : q.mode with
        | read => rfl
        | take => simp [Event.moves, hmode] at hread
      · rfl

theorem serve_store {ticket : Nat} {q : Request κ α} {place : Option Nat}
    (hidle : ∀ event ∈ (s.serve ticket q place).2, event.moves = false) :
    (s.serve ticket q place).1.store = s.store := by
  have hlook := look_store_of_idle s.now (Monitor.isCancelled s.cancelled q) s.store (q := q)
    ticket
  unfold serve at hidle ⊢
  generalize look s.now (Monitor.isCancelled s.cancelled q) s.store q = looked at hlook hidle ⊢
  obtain ⟨_ | o, st⟩ := looked
  · cases place <;> exact hlook nofun
  · have hended : (Event.ended s.now ticket q o).moves = false := by
      cases place <;> exact hidle _ rfl
    cases place <;> exact hlook fun o' ho' => by cases ho'; exact hended

/-- Beside the passage of time, contents are changed by nothing but an insertion that succeeds and a
take that finds something. -/
theorem step_store {act : Action κ α} (htime : ∀ span, act ≠ .advance span)
    (hidle : ∀ event ∈ (s.step act).2, event.moves = false) :
    (s.step act).1.store = s.store := by
  cases act with
  | insert key value timeout placement =>
      cases hentry : Entry.withTimeout? value timeout s.now with
      | none => simp only [step, hentry]
      | some e =>
          simp only [step, hentry] at hidle
          have hmoves := hidle _ rfl
          cases hmoves
  | call ticket q => exact serve_store hidle
  | rerun place =>
      simp only [step] at hidle ⊢
      split
      · rfl
      · rename_i ticket q hsome
        rw [hsome] at hidle
        exact serve_store hidle
  | advance span => exact absurd rfl (htime span)
  | existsAny | cancel | sweep | alarm | told | renumber | shut | clear => rfl

end Eager

end TupleSpace
