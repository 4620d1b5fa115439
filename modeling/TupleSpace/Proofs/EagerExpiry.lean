import TupleSpace.Proofs.Eager.Keys
import TupleSpace.Proofs.Lazy
import TupleSpace.Proofs.Run.Spaces

/-!
# Lazy expiry looks eager

Spaces keep expired entries until something happens to pass them, and which entries those are
depends on the engine, on the sweeper and on everybody's calls.  None of that can be seen: a space
of either kind and a space without expired entries answer every call alike, however calls, sweeps,
alarms and the passage of time follow each other.  What ties the two together is that the eager
space holds exactly the live entries of the lazy one.

Closing is left out, since an eager space is never closed.
-/

namespace TupleSpace

variable {κ α : Type} [DecidableEq κ]

/-! ## One look -/

omit [DecidableEq κ] in
theorem Store.live_eq_self {now : Nat} {st : Store κ α} {key : κ}
    (hlive : ∀ e ∈ st key, e.isExpired now = false) : Store.live now st key = st key :=
  List.filter_eq_self.mpr fun e he => Entry.isLive_eq_true_iff.mpr (hlive e he)

theorem Store.live_leave (now : Nat) (mode : Mode) (st : Store κ α) (key : κ)
    (others : List (Entry α)) :
    Store.live now (mode.leave st key others) =
      mode.leave (Store.live now st) key (others.filter (·.isLive now)) := by
  cases mode with
  | take => exact Store.live_update now st key others
  | read => rfl

/-- A request fares in an eager space as it does in a store whose expired entries it has passed. -/
theorem Looks.eager {config : SpaceConfig} {now : Nat} {cancelled : Bool} {q : Request κ α}
    {st st' : Store κ α} {progress : Progress α}
    (hlooks : Looks config now cancelled q st progress st') :
    Eager.look now cancelled (Store.live now st) q =
      (Monitor.ended? progress, Store.live now st') := by
  cases hlooks with
  | @found q st before after e stored passed live accepted =>
      have hbefore : before.filter (·.isLive now) = before :=
        List.filter_eq_self.mpr fun x hx => Entry.isLive_eq_true_iff.mpr (passed x hx).1
      have hstored : Store.live now st q.key = before ++ e :: after.filter (·.isLive now) := by
        rw [Store.live, stored, List.filter_append, hbefore, List.filter_cons,
          if_pos (Entry.isLive_eq_true_iff.mpr live)]
      rw [Eager.look_of_found hstored (fun x hx => (passed x hx).2) accepted, Store.live_leave,
        List.filter_append, hbefore]
      rfl
  | gaveUp missed elapsed =>
      have hself := Store.live_eq_self fun e he => (missed e he).1
      rw [Eager.look_of_missed (by rw [hself]; exact fun e he => (missed e he).2), if_pos elapsed]
      rfl
  | waits missed goesOn =>
      have hself := Store.live_eq_self fun e he => (missed e he).1
      rw [Eager.look_of_missed (by rw [hself]; exact fun e he => (missed e he).2),
        if_neg (by rw [goesOn]; exact Bool.false_ne_true)]
      rfl
  | drained empty =>
      simp [Eager.look, Store.live, empty, Monitor.ended?]
  | lasts stored live bounded elapsed =>
      simp [Eager.look, Store.live, stored, Entry.isLive_eq_true_iff.mpr live, bounded, elapsed,
        Monitor.ended?]
  | @lingers key patience st e after on stored live goesOn =>
      have hbefore : patience.deadline?.any (fun d => decide (d ≤ now)) = false := by
        cases hd : patience.deadline? with
        | none => rfl
        | some d => simp [Nat.not_le.mpr (goesOn d hd)]
      simp [Eager.look, Store.live, stored, Entry.isLive_eq_true_iff.mpr live, hbefore,
        Monitor.ended?]
  | @present keys deadline st key e listed stored live =>
      have hany : (keys.any fun key => !(Store.live now st key).isEmpty) = true := by
        refine List.any_eq_true.mpr ⟨key, listed, ?_⟩
        have hmem : e ∈ Store.live now st key :=
          List.mem_filter.mpr ⟨stored, Entry.isLive_eq_true_iff.mpr live⟩
        rw [Bool.not_eq_true', List.isEmpty_eq_false_iff]
        exact List.ne_nil_of_mem hmem
      simp [Eager.look, hany, Monitor.ended?]
  | @absent keys st deadline empty elapsed =>
      have hnone : (keys.any fun key => !(Store.live now st key).isEmpty) = false :=
        List.any_eq_false.mpr fun key hkey => by simp [Store.live, empty key hkey]
      simp [Eager.look, hnone, elapsed, Monitor.ended?]
  | @watches keys deadline st on empty goesOn =>
      have hnone : (keys.any fun key => !(Store.live now st key).isEmpty) = false :=
        List.any_eq_false.mpr fun key hkey => by simp [Store.live, empty key hkey]
      have hbefore : deadline.any (fun d => decide (d ≤ now)) = false := by
        cases deadline with
        | none => rfl
        | some d => simp [Nat.not_le.mpr (goesOn d rfl)]
      simp [Eager.look, hnone, hbefore, Monitor.ended?]

/-! ## One action -/

namespace Eager

variable {e : Eager κ α} {ticket : Nat} {q : Request κ α} {progress : Progress α}
  {st : Store κ α}

/-- A request that is started ends, or joins the blocked calls. -/
theorem serve_new
    (hlook : look e.now (Monitor.isCancelled e.cancelled q) e.store q =
      (Monitor.ended? progress, st)) :
    e.serve ticket q none =
      ({ e with store := st, blocked := e.blocked ++ Lazy.remaining ticket q progress },
        Lazy.heard e.now ticket q progress) := by
  unfold serve
  rw [hlook]
  cases progress with
  | finished o => simp [Monitor.ended?, Lazy.remaining, Lazy.heard]
  | waiting on wakeAt => rfl

/-- A blocked request that runs again ends, or keeps its place. -/
theorem serve_blocked {earlier later : List (Nat × Request κ α)}
    (hblocked : e.blocked = earlier ++ (ticket, q) :: later)
    (hlook : look e.now (Monitor.isCancelled e.cancelled q) e.store q =
      (Monitor.ended? progress, st)) :
    e.serve ticket q (some earlier.length) =
      ({ e with
          store := st
          blocked := earlier ++ Lazy.remaining ticket q progress ++ later },
        Lazy.heard e.now ticket q progress) := by
  unfold serve
  rw [hlook]
  cases progress with
  | finished o =>
      have herased : e.blocked.eraseIdx earlier.length = earlier ++ later := by
        rw [hblocked, erase_at_place]
      simp [Monitor.ended?, Lazy.remaining, Lazy.heard, herased]
  | waiting on wakeAt => simp [Monitor.ended?, Lazy.remaining, Lazy.heard, ← hblocked]

end Eager

namespace Lazy

/-- What a space that keeps expired entries shows: a space without them. -/
def eager (l : Lazy κ α) : Eager κ α where
  now := l.now
  cancelled := l.cancelled
  store := Store.live l.now l.store
  blocked := l.blocked

variable {l l' : Lazy κ α} {act : Action κ α} {event : Option (Event κ α)}

/-- Whatever a space does, the space without expired entries that it shows does the same. -/
theorem Step.eager (hstep : Step l act l' event) :
    l.eager.step act = (l'.eager, event) := by
  cases hstep with
  | refuse entry => simp [Eager.step, Lazy.eager, entry]
  | put entry =>
      have hplace := Placement.filter_place (p := (Entry.isLive · l.now))
        (Eager.isLive_of_withTimeout? entry)
      simp [Eager.step, Lazy.eager, entry, Store.live_update, hplace, Store.live]
  | call fades looks =>
      have hlook := looks.eager
      rw [fades.live_eq (Nat.le_refl _)] at hlook
      exact Eager.serve_new (e := l.eager) hlook
  | @rerun place earlier later ticket q config n faded store progress blocked place_eq fades
      looks =>
      have hlook := looks.eager
      rw [fades.live_eq (Nat.le_refl _)] at hlook
      have hplace : l.eager.blocked[place]? = some (ticket, q) := by
        show l.blocked[place]? = _
        rw [blocked, ← place_eq, get_at_place]
      simp only [Eager.step, hplace]
      rw [← place_eq]
      exact Eager.serve_blocked (e := l.eager) blocked hlook
  | nobody beyond =>
      have hplace : l.eager.blocked[_]? = none := List.getElem?_eq_none beyond
      simp only [Eager.step, hplace]
  | existsAny fades =>
      simp [Eager.step, Lazy.eager, fades.live_eq (Nat.le_refl _)]
  | sweep fades => simp [Eager.step, Lazy.eager, fades.live_eq (Nat.le_refl _)]
  | alarm fades => simp [Eager.step, Lazy.eager, fades.live_eq (Nat.le_refl _)]
  | cancel token => rfl
  | advance span =>
      simp [Eager.step, Lazy.eager, Store.live_live (Nat.le_add_right l.now span)]
  | told panicked => rfl
  | renumber stamp => rfl
  | clear => rfl

end Lazy

/-! ## Whole runs -/

namespace Scene

variable {σ : Type} [Engine σ κ α]

/-- During some actions a scene cannot be told from a space without expired entries.  What is seen
under one key is what such a space would show with nothing else in it; and what a later retrieval
can find is changed by time, by insertions that succeed and by takes that find something, and by
nothing else. -/
structure LooksEager (s : Scene σ κ α) (e : Eager κ α) (acts : List (Action κ α)) : Prop where
  same : s.trace acts = e.trace acts
  separate : ∀ key, (s.trace acts).filter (·.isUnder key) =
    (e.only key).trace (e.foreground key acts)
  kept : ∀ n, ∀ act ∈ acts[n]?, (∀ span, act ≠ .advance span) →
    (∀ event ∈ ((s.run (acts.take n)).step act).2, event.moves = false) →
    ((s.run (acts.take n)).step act).1.lazy.eager.store =
      (s.run (acts.take n)).lazy.eager.store

omit [DecidableEq κ] in
/-- A new space has nothing in it. -/
theorem eager_start {engine : σ} (hempty : Engine.stored engine = fun _ => []) (now stamp : Nat)
    (cancelled : List Nat) :
    (start engine now stamp cancelled).lazy.eager = Eager.start now cancelled := by
  simp only [start, lazy, Lazy.eager, Monitor.start_engine, Monitor.start_waiting, hempty]
  rfl

variable [Bookkeeping σ κ α] [LawfulEngine σ κ α] {s : Scene σ κ α} {acts : List (Action κ α)}

/-- An open space and the space without expired entries that it shows are seen to do the same, until
somebody begins to close it. -/
theorem Open.trace_eq (hopen : s.Open) (hacts : Action.shut ∉ acts) :
    s.trace acts = s.lazy.eager.trace acts := by
  induction acts generalizing s with
  | nil => rfl
  | cons act acts ih =>
      have hact : act ≠ .shut := fun heq => hacts (heq ▸ List.mem_cons_self)
      have hrest := ih (hopen.step hact) fun hmem => hacts (List.mem_cons_of_mem act hmem)
      rw [Eager.trace, (hopen.lazy_step hact).eager, ← hrest]
      rfl

theorem Open.looksEager (hopen : s.Open) (hacts : Action.shut ∉ acts) :
    s.LooksEager s.lazy.eager acts where
  same := hopen.trace_eq hacts
  separate key := by
    rw [hopen.trace_eq hacts]
    exact Eager.trace_only key acts s.lazy.eager
  kept n act hact htime hidle := by
    have hmem : act ∈ acts := List.mem_of_getElem? hact
    have hreached := hopen.run fun hshut => hacts (List.mem_of_mem_take (i := n) hshut)
    have hstep := (hreached.lazy_step fun heq => hacts (heq ▸ hmem)).eager
    have hstore := Eager.step_store (s := (s.run (acts.take n)).lazy.eager) htime
      (by rw [hstep]; exact hidle)
    rwa [hstep] at hstore

end Scene

/-- Calls, sweeps and the passage of time may follow each other as they like: until they are closed,
spaces of either kind and a space without expired entries answer alike. -/
theorem lazy_expiry_looks_eager (name : String) (config : SpaceConfig) (now stamp : Nat)
    (cancelled : List Nat) (acts : List (Action κ α)) (hopen : Action.shut ∉ acts) :
    (PerKey.scene name config now stamp cancelled).LooksEager (Eager.start now cancelled) acts ∧
      (SingleLock.scene name config now stamp cancelled).LooksEager (Eager.start now cancelled)
        acts := by
  have hperKey := (PerKey.open_scene name config now stamp cancelled).looksEager hopen
  have hsingle := (SingleLock.open_scene name config now stamp cancelled).looksEager hopen
  rw [PerKey.scene, Scene.eager_start rfl] at hperKey
  rw [SingleLock.scene, Scene.eager_start rfl] at hsingle
  exact ⟨hperKey, hsingle⟩

theorem lazy_expiry_looks_eager_past_a_deadline :
    let acts : List (Action Nat Nat) :=
      [.insert 1 5 10 .tail, .insert 1 6 0 .tail, .advance 10,
        .call 0 (.retrieve ⟨1, fun _ => true, .take, .probe, none⟩), .sweep .short,
        .existsAny [1, 2]]
    Action.shut ∉ acts ∧
      (PerKey.scene "space" {} 0 0 []).LooksEager (Eager.start 0 []) acts ∧
      (SingleLock.scene "space" {} 0 0 []).LooksEager (Eager.start 0 []) acts := by
  intro acts
  have hopen : Action.shut ∉ acts := by simp [acts]
  exact ⟨hopen, lazy_expiry_looks_eager "space" {} 0 0 [] acts hopen⟩

end TupleSpace
