import TupleSpace.Proofs.Listeners.Untold
import TupleSpace.Proofs.Worlds.Deeds

/-!
# What concerns listeners

Few operations change who is registered: one registration is added or removed, all listeners under a
key are taken, or a space is closed.  Each of them says in one equation what becomes of the
registrations of one space; those of the other spaces stay as they are.
-/

namespace TupleSpace

/-- Nobody is registered in the beginning. -/
theorem Registry.audience_open? {owner : String} {config : SpaceConfig} {now stamp : Nat}
    {r : Registry} (hopen : Registry.open? owner config now stamp = .ok r) :
    r.audience now = fun _ => [] := by
  unfold Registry.open? at hopen
  split at hopen
  · cases hopen
  · cases hopen
    funext key
    unfold Registry.audience Monitor.start
    split <;> rfl

theorem Space.told_count (s : Space) (e : Metrics.Event) : (s.count e).told = s.told + e.told := by
  obtain ⟨b, registry, storage⟩ := s
  cases b with
  | perKey m => exact DiscreetEngine.count_told e m.engine
  | singleLock m => exact DiscreetEngine.count_told e m.engine

namespace World

variable {w v v' : World} {i : Nat} {key : String} {name : String} {s : Space} {β : Type}
  {registered : Store String Nat}

/-- The registrations of one space have become others, and otherwise nothing is new to listeners. -/
structure Registers (w : World) (i : Nat) (registered : Store String Nat) (w' : World) : Prop where
  now : w'.now = w.now
  audience : w'.audience = Function.update w.audience i registered
  told : w'.told = w.told
  listeners : w'.listeners = w.listeners

theorem Registers.after_untold (hregisters : Registers v i registered v')
    (huntold : Untold w v) : Registers w i registered v' where
  now := hregisters.now.trans huntold.now
  audience := by rw [hregisters.audience, huntold.audience]
  told := hregisters.told.trans huntold.told
  listeners := hregisters.listeners.trans huntold.listeners

theorem Registers.before_untold (hregisters : Registers w i registered v)
    (huntold : Untold v v') : Registers w i registered v' where
  now := huntold.now.trans hregisters.now
  audience := huntold.audience.trans hregisters.audience
  told := huntold.told.trans hregisters.told
  listeners := huntold.listeners.trans hregisters.listeners

/-- The registrations are what they were. -/
theorem Registers.of_untold (huntold : Untold w v) (hsame : w.audience i = registered) :
    Registers w i registered v where
  now := huntold.now
  audience := by rw [huntold.audience, ← hsame, Function.update_eq_self]
  told := huntold.told
  listeners := huntold.listeners

theorem audience_of_some (hspace : w.spaces[i]? = some s) : w.audience i = s.audience w.now := by
  rw [audience, hspace]
  rfl

theorem audience_of_none (hspace : w.spaces[i]? = none) : w.audience i = fun _ => [] := by
  rw [audience, hspace]
  rfl

theorem registers_onSpace (missing : β) {f : Space → Space × β}
    (hnone : w.spaces[i]? = none → registered = fun _ => [])
    (hf : ∀ s, w.spaces[i]? = some s →
      (f (stampSpace w.stamp s)).1.audience w.now = registered ∧
        (f (stampSpace w.stamp s)).1.told = s.told) :
    Registers w i registered (w.onSpace i missing f).1 := by
  refine ⟨now_onSpace w i missing f, ?_, ?_, listeners_onSpace w i missing f⟩ <;> funext j
  · rw [audience, spaces_onSpace, now_onSpace]
    by_cases hj : j = i
    · subst hj
      rw [if_pos rfl, Function.update_self]
      cases hspace : w.spaces[j]? with
      | none => exact (hnone hspace).symm
      | some s => exact (hf s hspace).1
    · rw [if_neg hj, Function.update_of_ne hj]
      rfl
  · rw [told, spaces_onSpace]
    by_cases hj : j = i
    · subst hj
      rw [if_pos rfl, told]
      cases hspace : w.spaces[j]? with
      | none => rfl
      | some s => exact (hf s hspace).2
    · rw [if_neg hj]
      rfl

/-- The registrations of an intact space. -/
theorem Intact.registry (hintact : w.Intact) (hspace : w.spaces[i]? = some s) {r : Registry}
    (hregistry : s.registry = some r) : r.Intact := by
  obtain ⟨name, hholds⟩ := hintact i s hspace
  exact hholds.intact.registry r hregistry

/-- Nobody is registered in a closed space. -/
theorem Intact.audience_closed (hintact : w.Intact) (hspace : w.spaces[i]? = some s)
    (hclosed : s.isClosed = true) : w.audience i = fun _ => [] := by
  obtain ⟨name, hholds⟩ := hintact i s hspace
  rw [audience_of_some hspace, Space.audience]
  cases hregistry : s.registry with
  | none => rfl
  | some r =>
      have hretired := hholds.intact.retired hclosed (decide_eq_false (Option.some_ne_none i).symm)
        r hregistry
      exact (hholds.intact.registry r hregistry).audience_closed hretired w.now

/-- An operation on the registrations of a space, if there are any: what it says and what it makes
of those that have not lapsed is what it does to registrations that are intact. -/
theorem Intact.onRegistry_spec (hintact : w.Intact) (i : Nat) (missing : β)
    (f : Registry → Registry × β) {P : Store String Nat → β → Store String Nat → Prop}
    (hmissing : (∀ s, w.spaces[i]? = some s → s.registry = none) →
      P (fun _ => []) missing (fun _ => []))
    (hf : i < w.spaces.size → ∀ r : Registry, r.Intact →
      P (r.audience w.now) (f r).2 ((f r).1.audience w.now)) :
    let done := w.onSpace i missing fun s =>
      match s.registry with
      | none => (s, missing)
      | some r =>
        let (r, b) := f r
        ({ s with registry := some r }, b)
    ∃ registered, P (w.audience i) done.2 registered ∧ Registers w i registered done.1 := by
  intro done
  cases hspace : w.spaces[i]? with
  | none =>
      have hdone : done = (w, missing) := by simp only [done, onSpace, hspace]
      rw [hdone, audience_of_none hspace]
      refine ⟨_, hmissing fun s hs => ?_, .of_untold (.refl w) (audience_of_none hspace)⟩
      cases hspace.symm.trans hs
  | some s =>
      have hresult := onSpace_result missing (fun s : Space =>
        match s.registry with
        | none => (s, missing)
        | some r =>
          let (r, b) := f r
          ({ s with registry := some r }, b)) hspace
      rw [show done.2 = _ from hresult, audience_of_some hspace]
      cases hregistry : s.registry with
      | none =>
          have hstamped : (stampSpace w.stamp s).registry = none := by
            rw [stampSpace, hregistry]
            rfl
          have hnobody : s.audience w.now = fun _ => [] := by
            rw [Space.audience, hregistry]
            rfl
          rw [hstamped, hnobody]
          refine ⟨_, hmissing fun x hx => ?_,
            registers_onSpace missing (fun _ => rfl) fun x hx => ?_⟩
          · cases hspace.symm.trans hx
            exact hregistry
          · cases hspace.symm.trans hx
            rw [hstamped]
            exact ⟨(Space.audience_stampSpace w.now w.stamp s).trans hnobody,
              Space.told_stampSpace w.stamp s⟩
      | some r =>
          let r' : Registry := ⟨stampMonitor w.stamp r.monitor⟩
          have hstamped : (stampSpace w.stamp s).registry = some r' := by
            rw [stampSpace, hregistry]
            rfl
          have hr' : r'.Intact := (hintact.registry hspace hregistry).restamp w.stamp
          have hr : s.audience w.now = r'.audience w.now := by
            rw [Space.audience, hregistry]
            rfl
          obtain ⟨hlt, _⟩ := Array.getElem?_eq_some_iff.mp hspace
          rw [hstamped, hr]
          refine ⟨_, hf hlt r' hr', registers_onSpace missing (fun hnone => ?_) fun x hx => ?_⟩
          · cases hspace.symm.trans hnone
          · cases hspace.symm.trans hx
            rw [hstamped]
            exact ⟨rfl, Space.told_stampSpace w.stamp s⟩

/-! ## Registering -/

theorem untold_openRegistry (w : World) (i : Nat) : Untold w (w.openRegistry i).1 := by
  apply untold_onSpace
  intro s _
  rw [← Space.audience_stampSpace w.now w.stamp s, ← Space.told_stampSpace w.stamp s]
  generalize stampSpace w.stamp s = x
  cases hregistry : x.registry with
  | some r => exact ⟨rfl, rfl⟩
  | none =>
      simp only []
      split
      · exact ⟨rfl, rfl⟩
      · rename_i r hnew
        refine ⟨?_, rfl⟩
        rw [Space.audience, Space.audience, hregistry]
        exact Registry.audience_open? hnew

/-- Once the registrations of a space have been opened, there are some. -/
theorem registry_openRegistry (hok : (w.openRegistry i).2 = .ok ())
    (hspace : (w.openRegistry i).1.spaces[i]? = some s) : s.registry ≠ none := by
  unfold openRegistry at hok hspace
  rw [spaces_onSpace, if_pos rfl, Option.map_eq_some_iff] at hspace
  obtain ⟨x, hx, rfl⟩ := hspace
  rw [onSpace_result _ _ hx] at hok
  cases hregistry : (stampSpace w.stamp x).registry with
  | some r =>
      simp only [hregistry]
      exact nofun
  | none =>
      simp only [hregistry] at hok ⊢
      split at hok
      · cases hok
      · exact nofun

theorem size_onSpace (w : World) (i : Nat) (missing : β) (f : Space → Space × β) :
    (w.onSpace i missing f).1.spaces.size = w.spaces.size := by
  obtain ⟨spaces, stamp, heq, hsize, _⟩ := onSpace_spec w i missing f
  rw [heq]
  exact hsize

/-- What comes of registering a listener: it is registered behind the others, or refused. -/
def Enrols (w : World) (i : Nat) (key : String) (listener timeout : Nat)
    (before : Store String Nat) (result : Except SpaceError Unit) (after : Store String Nat) :
    Prop :=
  (∃ e, i < w.spaces.size ∧ result = .ok () ∧
    Entry.withTimeout? listener timeout w.now = some e ∧
    after = Function.update before key (before key ++ [e])) ∨
  ((w.spaces.size ≤ i ∨ result ≠ .ok ()) ∧ after = before)

theorem Intact.addListener_spec (hintact : w.Intact) (i : Nat) (key : String)
    (listener timeout : Nat) :
    ∃ registered,
      w.Enrols i key listener timeout (w.audience i)
        (w.addListener i key listener timeout).2 registered ∧
      Registers w i registered (w.addListener i key listener timeout).1 := by
  unfold addListener
  split
  · exact ⟨_, .inr ⟨.inr nofun, rfl⟩, .of_untold (.refl w) rfl⟩
  · rename_i hok
    have hopened := untold_openRegistry w i
    have hintact' := (works_openRegistry (c := none) hok).toLeads.intact hintact
    have hsome : (w.openRegistry i).2 = .ok () → ∀ s, (w.openRegistry i).1.spaces[i]? = some s →
        s.registry ≠ none := fun hok s hspace => registry_openRegistry hok hspace
    have hsize : (w.openRegistry i).1.spaces.size = w.spaces.size := size_onSpace w i _ _
    generalize w.openRegistry i = opened at hopened hintact' hsome hsize ⊢
    obtain ⟨v, result⟩ := opened
    cases result with
    | error e => exact ⟨_, .inr ⟨.inr nofun, rfl⟩, .of_untold hopened rfl⟩
    | ok _ =>
        have hadded := hintact'.onRegistry_spec i (.ok ())
          (fun r => r.add v.now key listener timeout) (P := w.Enrols i key listener timeout) ?_ ?_
        · obtain ⟨registered, henrols, hregisters⟩ := hadded
          rw [hopened.audience] at henrols
          exact ⟨registered, henrols, hregisters.after_untold hopened⟩
        · intro hnone
          refine .inr ⟨.inl (hsize ▸ Nat.le_of_not_lt fun hlt => ?_), rfl⟩
          have hspace : v.spaces[i]? = some v.spaces[i] := Array.getElem?_eq_getElem hlt
          exact hsome rfl _ hspace (hnone _ hspace)
        · intro hlt r hr
          rcases hr.add_spec v.now key listener timeout with
            ⟨e, hentry, hresult, hadded⟩ | ⟨x, hresult, hadded⟩
          · exact .inl ⟨e, hsize ▸ hlt, hresult, hopened.now ▸ hentry, hadded⟩
          · refine .inr ⟨.inr ?_, hadded⟩
            rw [hresult]
            exact nofun

/-- The earliest registration of a listener is removed, if there is one. -/
theorem Intact.removeListener_spec (hintact : w.Intact) (i : Nat) (key : String)
    (listener : Nat) :
    ((w.removeListener i key listener).2 = .ok true ↔
      ∃ e ∈ w.audience i key, e.value = listener) ∧
      Registers w i
        (Function.update (w.audience i) key
          ((w.audience i key).eraseP fun e => e.value == listener))
        (w.removeListener i key listener).1 := by
  unfold removeListener
  split
  · rename_i e hclosed
    have hnobody : w.audience i = fun _ => [] := by
      unfold ensureOpen at hclosed
      split at hclosed
      · cases hclosed
      · rename_i s hspace
        split at hclosed
        · rename_i h
          exact hintact.audience_closed hspace h
        · cases hclosed
    rw [hnobody]
    refine ⟨⟨nofun, ?_⟩, .of_untold (.refl w) ?_⟩
    · rintro ⟨_, ⟨⟩, _⟩
    · rw [hnobody]
      exact (Function.update_eq_self key _).symm
  · have hremoved := hintact.onRegistry_spec i (.ok false)
      (fun r => r.remove w.now key listener)
      (P := fun before result after =>
        (result = .ok true ↔ ∃ e ∈ before key, e.value = listener) ∧
          after = Function.update before key
            ((before key).eraseP fun e => e.value == listener)) ?_ ?_
    · obtain ⟨registered, ⟨hresult, rfl⟩, hregisters⟩ := hremoved
      exact ⟨hresult, hregisters⟩
    · refine fun _ => ⟨⟨nofun, ?_⟩, (Function.update_eq_self key _).symm⟩
      rintro ⟨_, ⟨⟩, _⟩
    · exact fun _ r hr => hr.remove_spec w.now key listener

/-- All listeners under a key are taken, in the order of their registration. -/
theorem Intact.drainListeners_spec (hintact : w.Intact) (i : Nat) (key : String) :
    (w.drainListeners i key).2 = (w.audience i key).map Entry.value ∧
      Registers w i (Function.update (w.audience i) key []) (w.drainListeners i key).1 := by
  have hdrained := hintact.onRegistry_spec i [] (fun r => r.drain w.now key)
    (P := fun before result after => result = (before key).map Entry.value ∧
      after = Function.update before key [])
    (fun _ => ⟨rfl, (Function.update_eq_self key _).symm⟩)
    fun _ r hr => hr.drain_spec w.now key
  obtain ⟨registered, ⟨hresult, rfl⟩, hregisters⟩ := hdrained
  exact ⟨hresult, hregisters⟩

/-! ## Telling -/

/-- A listener of a space is told of an insertion, or panics over it, which is counted. -/
structure Counts (w : World) (i : Nat) (n : Nat × Nat) (w' : World) : Prop where
  now : w'.now = w.now
  audience : w'.audience = w.audience
  told : w'.told = Function.update w.told i (w.told i + n)
  listeners : w'.listeners = w.listeners

theorem audience_countEvent (w : World) (i : Nat) (e : Metrics.Event) :
    (w.countEvent i e).audience = w.audience := by
  funext j
  rw [audience, countEvent, spaces_onSpace, now_onSpace, audience]
  by_cases hj : j = i
  · subst hj
    rw [if_pos rfl]
    cases w.spaces[j]? with
    | none => rfl
    | some s => exact Space.audience_stampSpace w.now w.stamp s
  · rw [if_neg hj]

theorem counts_countEvent (hlt : i < w.spaces.size) (e : Metrics.Event) :
    Counts w i e.told (w.countEvent i e) := by
  refine ⟨now_onSpace .., audience_countEvent w i e, ?_, listeners_onSpace ..⟩
  funext j
  rw [told, countEvent, spaces_onSpace]
  by_cases hj : j = i
  · subst hj
    rw [if_pos rfl, Function.update_self, told, Array.getElem?_eq_getElem hlt]
    exact (Space.told_count _ e).trans (congrArg (· + e.told) (Space.told_stampSpace w.stamp _))
  · rw [if_neg hj, Function.update_of_ne hj]
    rfl

/-- A listener has been called, and has noted it. -/
def called (w : World) (i : Nat) (key : String) (value : Json) (l : Listener) : World :=
  (w.countEvent i .listenerFired).note (.told l.name key value)

/-- What a listener does once it has noted that it was told. -/
def react (tell : World → Nat → String → Json → World) (i : Nat) (key : String) (listener : Nat)
    (l : Listener) (w : World) : World :=
  match l.reaction with
  | .note => w
  | .panic => w.countEvent i .listenerPanic
  | .close => (w.closeUnsettled l.home).1
  | .again => (w.addListener l.home key listener 0).1
  | .take =>
    (w.probeUnsettled l.home .take key fun _ => true).1.note
      (.took l.name (w.probeUnsettled l.home .take key fun _ => true).2)
  | .out k v => (w.storeTelling tell l.home k v 0 .tail).1

/-- Telling a listener is calling it, and then it does what it does. -/
theorem tellOne_eq (tell : World → Nat → String → Json → World) (i : Nat) (key : String)
    (value : Json) (w : World) (listener : Nat) :
    tellOne tell i key value w listener =
      match w.listeners[listener]? with
      | none => w.countEvent i .listenerFired
      | some l => (w.called i key value l).react tell i key listener l := by
  have hlisteners : (w.countEvent i .listenerFired).listeners = w.listeners :=
    listeners_onSpace ..
  unfold tellOne
  simp only [hlisteners]
  rfl

theorem audience_called (w : World) (i : Nat) (key : String) (value : Json) (l : Listener) :
    (w.called i key value l).audience = w.audience :=
  audience_countEvent w i .listenerFired

theorem Intact.called (hintact : w.Intact) (i : Nat) (key : String) (value : Json)
    (l : Listener) : (w.called i key value l).Intact := by
  have hfired : Works none w none (w.countEvent i .listenerFired) := works_countEvent w i false
  have hnoted : Works none w none (w.called i key value l) :=
    hfired.trans (.of_spaces rfl rfl rfl id rfl)
  exact hnoted.toLeads.intact hintact

/-! ## Closing -/

/-- Closing the registrations of a space. -/
theorem registers_closeRegistry (hregistry : ∀ s r, w.spaces[i]? = some s →
    s.registry = some r → r.Intact) : Registers w i (fun _ => []) (w.closeRegistry i) := by
  have hclosed : Registers w i (fun _ => []) (w.onSpace i false fun s =>
      ({ s with registry := s.registry.map Registry.close },
        s.registry.any fun r => r.monitor.sweeper.isSome)).1 := by
    refine registers_onSpace false (fun _ => rfl) fun s hspace => ?_
    refine ⟨?_, Space.told_stampSpace w.stamp s⟩
    rw [Space.audience]
    cases hs : s.registry with
    | none =>
        rw [stampSpace, hs]
        rfl
    | some r =>
        rw [stampSpace, hs]
        exact ((hregistry s r hspace hs).restamp w.stamp).audience_close w.now
  exact hclosed.before_untold (untold_joinSweeper _ _)

/-- Nobody is registered in a space that has been closed. -/
theorem Intact.closeMemory_spec (hintact : w.Intact) (i : Nat) :
    Registers w i (fun _ => []) (w.closeMemory i) := by
  unfold closeMemory
  split
  · rename_i hspace
    exact .of_untold (.refl w) (audience_of_none hspace)
  · rename_i s hspace
    split
    · exact (registers_closeRegistry fun s r hspace hregistry =>
        hintact.registry hspace hregistry).before_untold (untold_closeEngine _ i)
    · split
      · rename_i hclosed
        exact .of_untold (.refl w) (hintact.audience_closed hspace hclosed)
      · rename_i hopen
        have hshut := works_shutEngine hspace (Bool.eq_false_iff.mpr hopen)
        have hregistry : ∀ s r, (w.shutEngine i).spaces[i]? = some s → s.registry = some r →
            r.Intact := by
          intro x r hx hr
          obtain ⟨name, hholds⟩ := hintact i s hspace
          obtain ⟨s', hholds', _⟩ := hshut.kept hholds
          cases hx.symm.trans hholds'.space
          exact hholds'.intact.registry r hr
        exact ((registers_closeRegistry hregistry).after_untold
          (untold_shutEngine w i)).before_untold (untold_clearEngine _ i)

theorem Intact.closeUnsettled_spec (hintact : w.Intact) (i : Nat) :
    Registers w i (fun _ => []) (w.closeUnsettled i).1 := by
  unfold closeUnsettled
  split
  · rename_i hspace
    exact .of_untold (.refl w) (audience_of_none hspace)
  · rename_i s hspace
    split
    · exact hintact.closeMemory_spec i
    · split
      · rename_i hclosed
        exact .of_untold (.refl w) (hintact.audience_closed hspace hclosed)
      · have hflushed := (works_flush (c := none) w i).toLeads.intact hintact
        exact (hflushed.closeMemory_spec i).after_untold (untold_flush w i)

end World

end TupleSpace
