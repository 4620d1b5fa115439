import TupleSpace.Proofs.Listeners.Operations

/-!
# What listeners note

A listener that is told of an insertion notes the key and the value before it does anything else.
What it does in turn may add to the notes, but takes nothing away from them, and it is done before
the next listener is told.  So the notes of an insertion are those of the listeners that are told of
it, in the order in which they are told, each followed by what came of its reaction; if that was an
insertion, by the notes of those who were told of it, down to the last.
-/

namespace TupleSpace

mutual

/-- What is noted while listeners are told of an insertion, one after the other. -/
inductive Heard (listeners : Array Listener) : String → Json → List Nat → List Note → Prop
  | nobody {key : String} {value : Json} : Heard listeners key value [] []
  /-- There is no listener with this number. -/
  | unknown {key : String} {value : Json} {id : Nat} {ids : List Nat} {notes : List Note}
      (missing : listeners[id]? = none) (others : Heard listeners key value ids notes) :
      Heard listeners key value (id :: ids) notes
  | told {key : String} {value : Json} {id : Nat} {ids : List Nat} {l : Listener}
      {more notes : List Note} (listener : listeners[id]? = some l)
      (reacts : Reacts listeners l.name l.reaction more)
      (others : Heard listeners key value ids notes) :
      Heard listeners key value (id :: ids) (.told l.name key value :: more ++ notes)

/-- What a listener with a name adds to the notes by its reaction. -/
inductive Reacts (listeners : Array Listener) : String → Reaction → List Note → Prop
  | note {name : String} : Reacts listeners name .note []
  | panic {name : String} : Reacts listeners name .panic []
  | close {name : String} : Reacts listeners name .close []
  | again {name : String} : Reacts listeners name .again []
  | take {name : String} {result : Except SpaceError (Option Json)} :
      Reacts listeners name .take [.took name result]
  /-- Others may be told of its insertion. -/
  | out {name key : String} {value : Json} {ids : List Nat} {notes : List Note}
      (heard : Heard listeners key value ids notes) : Reacts listeners name (.out key value) notes

end

namespace World

variable {w v u : World} {more more' : List Note}

/-- On the way from one world to another something is noted, and listeners stay what they are. -/
structure Adds (w : World) (more : List Note) (v : World) : Prop where
  notes : v.notes = w.notes ++ more
  listeners : v.listeners = w.listeners

namespace Adds

theorem trans (hfirst : w.Adds more v) (hsecond : v.Adds more' u) : w.Adds (more ++ more') u where
  notes := by rw [hsecond.notes, hfirst.notes, List.append_assoc]
  listeners := hsecond.listeners.trans hfirst.listeners

theorem of_eq (hnotes : v.notes = w.notes) (hlisteners : v.listeners = w.listeners) :
    w.Adds [] v :=
  ⟨by rw [hnotes, List.append_nil], hlisteners⟩

theorem refl (w : World) : w.Adds [] w := .of_eq rfl rfl

/-- Nothing more is noted. -/
theorem before (hfirst : w.Adds more v) (hsecond : v.Adds [] u) : w.Adds more u :=
  List.append_nil more ▸ hfirst.trans hsecond

end Adds

/-! ## Operations that note nothing -/

theorem adds_onSpace {β : Type} (w : World) (i : Nat) (missing : β) (f : Space → Space × β) :
    w.Adds [] (w.onSpace i missing f).1 := by
  obtain ⟨spaces, stamp, heq, _⟩ := onSpace_spec w i missing f
  rw [heq]
  exact .of_eq rfl rfl

theorem adds_settle (w : World) : w.Adds [] w.settle := by
  obtain ⟨spaces, stamp, futures, ended, heq, _⟩ := settle_spec w
  rw [heq]
  exact .of_eq rfl rfl

theorem adds_flush (w : World) (i : Nat) : w.Adds [] (w.flush i).1 := by
  obtain ⟨files, heq⟩ := flush_spec w i
  rw [heq]
  exact .of_eq rfl rfl

theorem adds_joinSweeper (w : World) (swept : Bool) : w.Adds [] (w.joinSweeper swept) := by
  unfold joinSweeper
  split
  · exact adds_settle w
  · exact .refl w

theorem adds_closeRegistry (w : World) (i : Nat) : w.Adds [] (w.closeRegistry i) := by
  have hclosed : w.Adds [] (w.onSpace i false fun s =>
      ({ s with registry := s.registry.map Registry.close },
        s.registry.any fun r => r.monitor.sweeper.isSome)).1 := adds_onSpace ..
  exact hclosed.before (adds_joinSweeper _ _)

theorem adds_shutEngine (w : World) (i : Nat) : w.Adds [] (w.shutEngine i) := by
  have hshut : w.Adds [] (w.onMonitor i false fun m => (m.shut, m.sweeper.isSome)).1 :=
    adds_onSpace ..
  exact hshut.before (adds_joinSweeper _ _)

theorem adds_clearEngine (w : World) (i : Nat) : w.Adds [] (w.clearEngine i) := adds_onSpace ..

theorem adds_closeMemory (w : World) (i : Nat) : w.Adds [] (w.closeMemory i) := by
  unfold closeMemory
  split
  · exact .refl w
  · split
    · refine (adds_closeRegistry w i).before ?_
      unfold closeEngine
      split
      · exact .refl _
      · split
        · exact .refl _
        · exact (adds_shutEngine _ i).before (adds_clearEngine _ i)
    · split
      · exact .refl w
      · exact ((adds_shutEngine w i).before (adds_closeRegistry _ i)).before (adds_clearEngine _ i)

theorem adds_closeUnsettled (w : World) (i : Nat) : w.Adds [] (w.closeUnsettled i).1 := by
  unfold closeUnsettled
  split
  · exact .refl w
  · split
    · exact adds_closeMemory w i
    · split
      · exact .refl w
      · exact (adds_flush w i).before (adds_closeMemory _ i)

theorem adds_addListener (w : World) (i : Nat) (key : String) (listener timeout : Nat) :
    w.Adds [] (w.addListener i key listener timeout).1 := by
  have hopened : w.Adds [] (w.openRegistry i).1 := adds_onSpace ..
  unfold addListener
  split
  · exact .refl w
  · split
    · rename_i heq
      rwa [heq] at hopened
    · rename_i heq
      rw [heq] at hopened
      exact hopened.before (adds_onSpace ..)

/-! ## Listeners -/

section Tell

variable {tell : World → Nat → String → Json → World}
  (htell : ∀ (w : World) i key value, ∃ ids heard,
    Heard w.listeners key value ids heard ∧ w.Adds heard (tell w i key value))

include htell in
/-- An insertion adds what is noted by those who are told of it. -/
theorem adds_storeTelling (w : World) (i : Nat) (key : String) (value : Json) (timeout : Nat)
    (placement : Placement) :
    ∃ ids heard, Heard w.listeners key value ids heard ∧
      w.Adds heard (w.storeTelling tell i key value timeout placement).1 := by
  have hstored : w.Adds [] (w.store i key value timeout placement).1 := adds_onSpace ..
  rw [storeTelling_eq]
  split
  · obtain ⟨ids, heard, hheard, htold⟩ :=
      htell (w.store i key value timeout placement).1 i key value
    rw [hstored.listeners] at hheard
    exact ⟨ids, heard, hheard, hstored.trans htold⟩
  · exact ⟨[], [], .nobody, hstored⟩

include htell in
/-- What a listener adds to the notes once it has noted that it was told. -/
theorem adds_react (w : World) (i : Nat) (key : String) (listener : Nat) (l : Listener) :
    ∃ more, Reacts w.listeners l.name l.reaction more ∧
      w.Adds more (w.react tell i key listener l) := by
  unfold react
  cases l.reaction with
  | note => exact ⟨[], .note, .refl w⟩
  | panic => exact ⟨[], .panic, adds_onSpace ..⟩
  | close => exact ⟨[], .close, adds_closeUnsettled w l.home⟩
  | again => exact ⟨[], .again, adds_addListener w l.home key listener 0⟩
  | take =>
      have hprobed : w.Adds [] (w.probeUnsettled l.home .take key fun _ => true).1 :=
        adds_onSpace ..
      exact ⟨_, .take, hprobed.trans ⟨rfl, rfl⟩⟩
  | out k v =>
      obtain ⟨ids, heard, hheard, hadds⟩ := adds_storeTelling htell w l.home k v 0 .tail
      exact ⟨heard, .out hheard, hadds⟩

include htell in
/-- Telling listeners one after the other. -/
theorem adds_tellEach (w : World) (i : Nat) (key : String) (value : Json) (ids : List Nat) :
    ∃ heard, Heard w.listeners key value ids heard ∧
      w.Adds heard (ids.foldl (tellOne tell i key value) w) := by
  induction ids generalizing w with
  | nil => exact ⟨[], .nobody, .refl w⟩
  | cons id ids ih =>
      obtain ⟨heard, hheard, hothers⟩ := ih (tellOne tell i key value w id)
      rw [List.foldl_cons]
      have hcounted : w.Adds [] (w.countEvent i .listenerFired) := adds_onSpace ..
      cases hlistener : w.listeners[id]? with
      | none =>
          have hfirst : tellOne tell i key value w id = w.countEvent i .listenerFired := by
            rw [tellOne_eq, hlistener]
          rw [hfirst] at hheard hothers ⊢
          rw [hcounted.listeners] at hheard
          exact ⟨heard, .unknown hlistener hheard, hcounted.trans hothers⟩
      | some l =>
          have hfirst : tellOne tell i key value w id =
              (w.called i key value l).react tell i key id l := by
            rw [tellOne_eq, hlistener]
          have hcalled : w.Adds [.told l.name key value] (w.called i key value l) :=
            hcounted.trans ⟨rfl, rfl⟩
          obtain ⟨more, hmore, hreacts⟩ := adds_react htell (w.called i key value l) i key id l
          rw [hcalled.listeners] at hmore
          rw [hfirst] at hheard hothers ⊢
          rw [hreacts.listeners, hcalled.listeners] at hheard
          exact ⟨_, .told hlistener hmore hheard, (hcalled.trans hreacts).trans hothers⟩

end Tell

/-- However deep insertions nest, telling listeners adds to the notes what they hear. -/
theorem adds_tell (depth : Nat) (w : World) (i : Nat) (key : String) (value : Json) :
    ∃ ids heard, Heard w.listeners key value ids heard ∧
      w.Adds heard (World.tell depth w i key value) := by
  induction depth generalizing w i key value with
  | zero => exact ⟨[], [], .nobody, .refl w⟩
  | succ depth ih =>
      have hdrained : w.Adds [] (w.drainListeners i key).1 := adds_onSpace ..
      obtain ⟨heard, hheard, hadds⟩ := adds_tellEach ih (w.drainListeners i key).1 i key value
        (w.drainListeners i key).2
      rw [hdrained.listeners] at hheard
      exact ⟨_, heard, hheard, hdrained.trans hadds⟩

end World

end TupleSpace
