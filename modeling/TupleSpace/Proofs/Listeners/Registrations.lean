import TupleSpace.Proofs.Worlds.Spaces

/-!
# Registrations of listeners

The registrations of a space are kept by an engine of their own.  Whoever looks at them sees those
that have not lapsed, the earliest first: `Registry.audience`.  A new registration goes behind the
others, a removal finds the earliest one of its listener, and taking the listeners under a key takes
all of them.  Sweeps drop what has lapsed, which nobody sees, and closing drops everything.
-/

namespace TupleSpace

open Bookkeeping

/-- A new entry is live. -/
theorem Entry.isLive_of_withTimeout? {α : Type} {value : α} {timeout now : Nat} {e : Entry α}
    (hentry : withTimeout? value timeout now = some e) :
    e.isLive now = true ∧ e.value = value := by
  rcases withTimeout?_eq_some_iff.mp hentry with ⟨_, rfl⟩ | ⟨htimeout, _, rfl⟩
  · exact ⟨rfl, rfl⟩
  · refine ⟨isLive_iff.mpr fun d hd => ?_, rfl⟩
    cases hd
    omega

/-- What an engine with one record per key gives away when everything under a key is taken. -/
theorem PerKey.takeAll_open {κ α : Type} [DecidableEq κ] {s : PerKey κ α}
    (hopen : s.closed = false) (now : Nat) (key : κ) :
    (takeAll now key s).result = .ok ((Store.live now (Engine.stored s) key).map Entry.value) ∧
      Engine.stored (takeAll now key s).state = Function.update (Engine.stored s) key [] := by
  unfold takeAll
  simp only [hopen, Bool.false_eq_true, if_false]
  cases hfind : s.find? key with
  | none =>
      have hnothing : Engine.stored s key = [] := stored_of_none hfind
      refine ⟨?_, ?_⟩
      · simp only [Store.live, hnothing]
        rfl
      · rw [← hnothing, Function.update_eq_self]
        rfl
  | some r =>
      have hstored : Engine.stored s key = r.queue.entries := stored_of_some hfind
      refine ⟨?_, ?_⟩
      · simp only [Store.live, hstored]
        rfl
      · simp only [Turn.andReturn, Turn.map]
        have hkey := key_of_find? hfind
        rw [stored_settle]
        exact stored_update (u := { r with queue := {} }) hfind hkey

namespace Store

variable {κ α : Type} [DecidableEq κ] {now : Nat} {st : Store κ α}

/-- The first accepted entry that is live is the first one among those that are live. -/
theorem live_take {key : κ} {before after : List (Entry α)} {e : Entry α} {accepts : α → Bool}
    (hstored : st key = before ++ e :: after)
    (hpassed : ∀ x ∈ before, x.isExpired now = false ∧ accepts x.value = false)
    (hlive : e.isExpired now = false) (haccepted : accepts e.value = true) :
    (live now st key).any (fun x => accepts x.value) = true ∧
      live now (Function.update st key (before ++ after)) =
        Function.update (live now st) key
          ((live now st key).eraseP fun x => accepts x.value) := by
  have hbefore : before.filter (·.isLive now) = before := by
    rw [List.filter_eq_self]
    intro x hx
    rw [Entry.isLive_eq_not, (hpassed x hx).1]
    rfl
  have hsplit : live now st key = before ++ e :: after.filter (·.isLive now) := by
    rw [live, hstored, List.filter_append, hbefore, List.filter_cons_of_pos]
    rw [Entry.isLive_eq_not, hlive]
    rfl
  refine ⟨?_, ?_⟩
  · rw [hsplit, List.any_eq_true]
    exact ⟨e, List.mem_append_right _ List.mem_cons_self, haccepted⟩
  · have hrejected : ∀ x ∈ before, ¬ (fun x : Entry α => accepts x.value) x = true :=
      fun x hx => Bool.eq_false_iff.mp (hpassed x hx).2
    rw [live_update, List.filter_append, hbefore, hsplit, List.eraseP_append_right _ hrejected,
      List.eraseP_cons, haccepted]
    rfl

end Store

namespace Registry

/-- The registrations that have not lapsed, the earliest first. -/
def audience (now : Nat) (r : Registry) : Store String Nat :=
  Store.live now (Engine.stored r.monitor.engine)

variable {r : Registry} {now : Nat}

theorem isLive_of_mem_audience {key : String} {e : Entry Nat} (hmem : e ∈ r.audience now key) :
    e.isLive now = true :=
  (List.mem_filter.mp hmem).2

/-- Registrations that have been opened. -/
theorem Intact.isOpen (hintact : r.Intact) (hopen : r.isClosed = false) (now : Nat) :
    (r.scene now).Open := by
  obtain ⟨name, hscene⟩ := hintact.scene
  exact (hscene.at_rest hintact.idle now).orderly.open_of_isClosed hopen

/-- Nobody is registered once the registrations have been closed. -/
theorem Intact.audience_closed (hintact : r.Intact) (hclosed : r.isClosed = true) (now : Nat) :
    r.audience now = fun _ => [] := by
  funext key
  have hrecords := (hintact.vacant hclosed).1
  have hfind : r.monitor.engine.find? key = none := by
    rw [PerKey.find?, hrecords, List.find?_nil]
  rw [audience, Store.live, show Engine.stored r.monitor.engine key = [] from
    PerKey.stored_of_none hfind, List.filter_nil]

/-- A registration goes behind those that are there, or is refused. -/
theorem Intact.add_spec (hintact : r.Intact) (now : Nat) (key : String) (listener timeout : Nat) :
    (∃ e, Entry.withTimeout? listener timeout now = some e ∧
      (r.add now key listener timeout).2 = .ok () ∧
      (r.add now key listener timeout).1.audience now =
        Function.update (r.audience now) key (r.audience now key ++ [e])) ∨
      ∃ x, (r.add now key listener timeout).2 = .error x ∧
        (r.add now key listener timeout).1.audience now = r.audience now := by
  let t := Engine.insert now key listener timeout .tail r.monitor.engine
  have hresult : (r.add now key listener timeout).2 = t.result := rfl
  have haudience : (r.add now key listener timeout).1.audience now =
      Store.live now (Engine.stored t.state) := rfl
  rw [hresult, haudience]
  cases hopen : r.isClosed with
  | true =>
      obtain ⟨x, hturn⟩ := LawfulEngine.insert_closed (s := r.monitor.engine) now key
        listener timeout .tail hopen
      rw [show t = _ from hturn]
      exact .inr ⟨x, rfl, rfl⟩
  | false =>
      cases hentry : Entry.withTimeout? listener timeout now with
      | none =>
          rw [show t = _ from LawfulEngine.insert_refused key .tail hopen hentry]
          exact .inr ⟨_, rfl, rfl⟩
      | some e =>
          have hputs := LawfulEngine.insert_open key .tail (hintact.isOpen hopen now).sound hopen
            hentry
          refine .inl ⟨e, rfl, hputs.result, ?_⟩
          rw [show Engine.stored t.state = _ from hputs.stored, Store.live_update]
          congr 1
          have hlive := (Entry.isLive_of_withTimeout? hentry).1
          simp only [KeyQueue.insert, List.filter_append, List.filter_cons, hlive, if_true,
            List.filter_nil]
          rfl

/-- A removal from open registrations finds the earliest one of its listener, if there is one. -/
theorem Intact.remove_open (hintact : r.Intact) (hopen : r.isClosed = false) (now : Nat)
    (key : String) (listener : Nat) :
    (r.remove now key listener).2 =
        .ok ((r.audience now key).any fun e => e.value == listener) ∧
      (r.remove now key listener).1.audience now =
        Function.update (r.audience now) key
          ((r.audience now key).eraseP fun e => e.value == listener) := by
  let q : Retrieval String Nat := ⟨key, (· == listener), .take, .probe, none⟩
  let t := Engine.attempt now false (.retrieve q) r.monitor.engine
  have hresult : (r.remove now key listener).2 = t.result.outcome.value?.map Option.isSome := rfl
  have haudience : (r.remove now key listener).1.audience now =
      Store.live now (Engine.stored t.state) := rfl
  obtain ⟨n, st, hserves⟩ := (LawfulEngine.attempt_open now false (.retrieve q)
    (hintact.isOpen hopen now).sound hopen).serves
  have hfaded : r.audience now = Store.live now st := (hserves.fades.live_eq (Nat.le_refl now)).symm
  rw [hresult, haudience, hfaded]
  have hlooks : Looks _ now false (.retrieve q) st t.result (Engine.stored t.state) :=
    hserves.looks
  generalize t.result = progress at hlooks ⊢
  generalize Engine.stored t.state = left at hlooks ⊢
  cases hlooks with
  | found stored passed live accepted =>
      obtain ⟨hany, hleft⟩ := Store.live_take stored passed live accepted
      refine ⟨?_, hleft⟩
      rw [hany]
      rfl
  | gaveUp missed _ =>
      have hnone : ∀ e ∈ Store.live now st key, (e.value == listener) = false :=
        fun e he => (missed e (List.mem_of_mem_filter he)).2
      refine ⟨?_, ?_⟩
      · rw [List.any_eq_false.mpr fun e he => Bool.eq_false_iff.mp (hnone e he)]
        rfl
      · rw [List.eraseP_of_forall_not fun e he => Bool.eq_false_iff.mp (hnone e he),
          Function.update_eq_self]
  | waits _ goesOn => cases goesOn

/-- A removal succeeds if and only if there is a registration of its listener, and then it is the
earliest one that goes. -/
theorem Intact.remove_spec (hintact : r.Intact) (now : Nat) (key : String) (listener : Nat) :
    ((r.remove now key listener).2 = .ok true ↔
        ∃ e ∈ r.audience now key, e.value = listener) ∧
      (r.remove now key listener).1.audience now =
        Function.update (r.audience now) key
          ((r.audience now key).eraseP fun e => e.value == listener) := by
  cases hopen : r.isClosed with
  | false =>
      obtain ⟨hresult, haudience⟩ := hintact.remove_open hopen now key listener
      refine ⟨?_, haudience⟩
      rw [hresult, Except.ok.injEq, List.any_eq_true]
      simp only [beq_iff_eq]
  | true =>
      let q : Retrieval String Nat := ⟨key, (· == listener), .take, .probe, none⟩
      have hturn : Engine.attempt now false (.retrieve q) r.monitor.engine =
          .pure r.monitor.engine (.finished (.error (.closed r.monitor.engine.name))) :=
        LawfulEngine.attempt_closed now false (.retrieve q) hopen
      have hresult : (r.remove now key listener).2 = .error (.closed r.monitor.engine.name) := by
        simp only [Registry.remove, Monitor.probe, Monitor.perform, q] at hturn ⊢
        rw [hturn]
        rfl
      have hsame : (r.remove now key listener).1.audience now = r.audience now := by
        simp only [Registry.remove, Monitor.probe, Monitor.perform, q] at hturn ⊢
        rw [hturn]
        rfl
      rw [hresult, hsame, hintact.audience_closed hopen now]
      refine ⟨⟨fun hok => ?_, ?_⟩, (Function.update_eq_self key _).symm⟩
      · cases hok
      · rintro ⟨_, ⟨⟩, _⟩

/-- All listeners under a key are taken at once, in the order of their registration. -/
theorem Intact.drain_spec (hintact : r.Intact) (now : Nat) (key : String) :
    (r.drain now key).2 = (r.audience now key).map Entry.value ∧
      (r.drain now key).1.audience now = Function.update (r.audience now) key [] := by
  cases hopen : r.isClosed with
  | true =>
      have hturn : PerKey.takeAll now key r.monitor.engine =
          .pure r.monitor.engine (.error r.monitor.engine.closedError) := if_pos hopen
      have hsame : (r.drain now key).1.audience now = r.audience now := by
        simp only [Registry.drain, Monitor.perform, hturn]
        rfl
      have hnone : (r.drain now key).2 = [] := by
        simp only [Registry.drain, Monitor.perform, hturn]
        rfl
      rw [hsame, hnone, hintact.audience_closed hopen now]
      exact ⟨rfl, (Function.update_eq_self key _).symm⟩
  | false =>
      obtain ⟨hresult, hstored⟩ := PerKey.takeAll_open hopen now key
      refine ⟨?_, ?_⟩
      · simp only [Registry.drain, Monitor.perform, hresult]
        rfl
      · have haudience : (r.drain now key).1.audience now = Store.live now
            (Engine.stored (PerKey.takeAll now key r.monitor.engine).state) := rfl
        rw [haudience, hstored, Store.live_update]
        rfl

/-- Nobody is registered in the end. -/
theorem Intact.audience_close (hintact : r.Intact) (now : Nat) :
    r.close.audience now = fun _ => [] :=
  hintact.close.audience_closed r.isClosed_close now

/-- An alarm of the registrations drops nothing that has not lapsed. -/
theorem Intact.audience_fire (hintact : r.Intact) (now since : Nat) :
    audience now ⟨r.monitor.fire now since⟩ = r.audience now := by
  cases hopen : r.isClosed with
  | true =>
      obtain ⟨hfired, hclosed⟩ := hintact.fire now since
      rw [hfired.audience_closed (hclosed.trans hopen), hintact.audience_closed hopen]
  | false =>
      have hstep := (hintact.isOpen hopen now).lazy_alarm since
      have hview : ((r.scene now).step (.alarm since)).1.lazy.store =
          Engine.stored (r.monitor.fire now since).engine := rfl
      generalize ((r.scene now).step (.alarm since)).1.lazy = l at hstep hview
      generalize ((r.scene now).step (.alarm since)).2 = seen at hstep
      cases hstep with
      | alarm fades =>
          rw [audience, ← hview]
          exact fades.live_eq (Nat.le_refl now)

/-- Numbering the waits anew makes no difference. -/
@[simp]
theorem audience_stampMonitor (now stamp : Nat) (r : Registry) :
    audience now ⟨World.stampMonitor stamp r.monitor⟩ = r.audience now := rfl

/-- As time passes registrations lapse. -/
theorem audience_later {later : Nat} (hle : now ≤ later) (r : Registry) (key : String) :
    r.audience later key = (r.audience now key).filter (·.isLive later) :=
  (congrFun (Store.live_live hle _) key).symm

end Registry

end TupleSpace
