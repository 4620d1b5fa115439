import TupleSpace.Proofs.Worlds.Unnumbered

/-!
# Closing a space

Closing a space ends every call that is blocked on it, whatever it waits for, and leaves nothing
behind: no key, no entry, no sweep to come, no registration, and nobody who would wake again.  All
this happens at once and to that space alone.  A persistent space is closed even if it could not be
written to its file.
-/

namespace TupleSpace

/-! ## What is left of a closed space -/

namespace Backing

/-- The blocked calls, in the order in which they were started. -/
def blocked (b : Backing) : List (Waiter String Json) := b.view fun m => m.waiting

/-- A backing that has given up its storage; every call that was blocked is ready. -/
def emptied (b : Backing) : Backing := (b.modify fun m => (m.shut.clear, ())).1

/-- A backing without blocked calls. -/
def dismissed (b : Backing) : Backing := (b.modify fun m => ({ m with waiting := [] }, ())).1

variable {b : Backing} {name : String} {now : Nat} {cancelled : List Nat}

/-- The calls that are blocked when a backing has given up its storage end with the error of a
closed space, and nothing else happens. -/
theorem Intact.settle_closed (hintact : b.Intact name now cancelled false)
    (hclosed : b.isClosed = true) :
    b.modify (fun m => m.settle now cancelled) =
      (b.dismissed, b.blocked.map (Monitor.refused name)) := by
  cases b with
  | perKey m =>
      have hgone := Scene.Intact.gone hintact hclosed rfl
      rw [Backing.modify, Monitor.settle_of_cleared hgone.closed hgone.keys hgone.ready,
        hintact.named]
      rfl
  | singleLock m =>
      have hgone := Scene.Intact.gone hintact hclosed rfl
      rw [Backing.modify, Monitor.settle_of_cleared hgone.closed hgone.keys hgone.ready,
        hintact.named]
      rfl

theorem calm_dismissed (b : Backing) : b.dismissed.Calm := by
  cases b <;> exact List.forall_mem_nil _

end Backing

namespace Space

/-- The calls that are blocked on a space, in the order in which they were started. -/
def blocked (s : Space) : List (Waiter String Json) := s.backing.blocked

/-- The ends of all blocked calls with the error of a closed space. -/
def released (s : Space) : List (Finished Json) := s.blocked.map (Monitor.refused s.name)

/-- A space that has given up its storage and its registrations; every call that was blocked is
ready. -/
def emptied (s : Space) : Space :=
  { s with backing := s.backing.emptied, registry := s.registry.map Registry.close }

/-- A space that has been closed, once nobody is blocked on it any more. -/
def vacated (s : Space) : Space := { s.emptied with backing := s.backing.emptied.dismissed }

/-- What a closed space shows. -/
structure Vacant (s : Space) : Prop where
  isClosed : s.isClosed = true
  keys : s.keys = []
  size : ∀ key, s.size key = 0
  pending : ∀ gen, s.pending gen = 0
  blocked : s.blocked = []
  /-- No listener is registered. -/
  registered : ∀ r, s.registry = some r → r.registered = []
  /-- No sweeper runs. -/
  isSwept : s.isSwept = false
  registry_isSwept : ∀ r, s.registry = some r → r.monitor.sweeper = none
  /-- Nothing happens in the space as time passes. -/
  alarm : s.nextAlarm? = none

variable {s : Space} {name : String} {now : Nat} {cancelled : List Nat}

/-- An intact space that has been closed shows nothing, once nobody can run. -/
theorem Intact.vacant (hintact : s.Intact name now cancelled false) (hclosed : s.isClosed = true)
    (hcalm : s.backing.Calm) : s.Vacant := by
  have hregistry : ∀ r, s.registry = some r →
      r.monitor.engine.records = [] ∧ r.monitor.sweeper = none ∧ r.monitor.nextAlarm? = none := by
    intro r hr
    have hr' := hintact.registry r hr
    obtain ⟨hrecords, hsweeper⟩ := hr'.vacant (hintact.retired hclosed rfl r hr)
    refine ⟨hrecords, hsweeper, ?_⟩
    rw [Monitor.nextAlarm?, hr'.idle, Monitor.sweeperAlarm?, hsweeper]
    rfl
  have hbare : s.keys = [] ∧ (∀ key, s.size key = 0) ∧ (∀ gen, s.pending gen = 0) ∧
      s.blocked = [] ∧ s.isSwept = false ∧ s.backing.view (fun m => m.nextAlarm?) = none := by
    obtain ⟨b, registry, storage⟩ := s
    cases b with
    | perKey m =>
        have h := Scene.Intact.bare hintact.backing hclosed rfl hcalm
        exact ⟨h.keys, h.size, h.pending, h.waiting, congrArg Option.isSome h.sweeper, h.alarm⟩
    | singleLock m =>
        have h := Scene.Intact.bare hintact.backing hclosed rfl hcalm
        exact ⟨h.keys, h.size, h.pending, h.waiting, congrArg Option.isSome h.sweeper, h.alarm⟩
  obtain ⟨hkeys, hsize, hpending, hblocked, hswept, halarm⟩ := hbare
  refine ⟨hclosed, hkeys, hsize, hpending, hblocked, fun r hr => ?_, hswept,
    fun r hr => (hregistry r hr).2.1, ?_⟩
  · rw [Registry.registered, (hregistry r hr).1]
    rfl
  · rw [nextAlarm?, halarm]
    cases hr : s.registry with
    | none => rfl
    | some r => exact (hregistry r hr).2.2

end Space

namespace World

variable {w v : World} {i : Nat} {name : String} {s s' : Space} {β : Type}

/-! ## Turning one space into another -/

/-- A world in which one space has become another and nothing else has happened, but for numbers. -/
def Turns (w : World) (i : Nat) (s : Space) (v : World) : Prop :=
  v.unnumbered = (w.replace i s).unnumbered

theorem Turns.refl (hspace : w.spaces[i]? = some s) : w.Turns i s w := by
  rw [Turns, replace_self hspace]

/-- The space that has become another. -/
theorem Turns.space (hturns : w.Turns i s v) (hlt : i < w.spaces.size) :
    ∃ x, v.spaces[i]? = some x ∧ stampSpace 0 x = stampSpace 0 s :=
  space_of_unnumbered hturns (Array.getElem?_setIfInBounds_self_of_lt hlt)

/-- The space becomes yet another one. -/
theorem Turns.replace (hturns : w.Turns i s v) {x : Space}
    (hs : stampSpace 0 x = stampSpace 0 s') : w.Turns i s' (v.replace i x) := by
  rw [Turns, ← replace_replace w i s s', unnumbered_replace, unnumbered_replace, hturns, hs]

/-- An operation on the space. -/
theorem Turns.onSpace (hturns : w.Turns i s v) (hlt : i < w.spaces.size) (missing : β)
    {f : Space → Space × β}
    (hf : ∀ stamp, stampSpace 0 (f (stampSpace stamp s)).1 = stampSpace 0 s') :
    w.Turns i s' (v.onSpace i missing f).1 := by
  obtain ⟨x, hx, hsame⟩ := hturns.space hlt
  have hnext : (v.onSpace i missing f).1.unnumbered = (v.replace i s').unnumbered := by
    apply unnumbered_onSpace missing hx
    rw [stampSpace_congr hsame]
    exact hf v.stamp
  exact hnext.trans (hturns.replace rfl)

theorem Turns.joinSweeper (hturns : w.Turns i s v) (hcalm : w.Calm) (hs : s.backing.Calm)
    (swept : Bool) : w.Turns i s (v.joinSweeper swept) := by
  unfold World.joinSweeper
  split
  · exact ((hcalm.replace i hs).of_unnumbered hturns).settle.trans hturns
  · exact hturns

/-! ## The steps of closing -/

/-- Closing registrations has no use for numbers. -/
theorem stampMonitor_close (stamp : Nat) (r : Registry) :
    stampMonitor 0 (Registry.close ⟨stampMonitor stamp r.monitor⟩).monitor =
      stampMonitor 0 r.close.monitor := by
  cases hclosed : r.isClosed with
  | true =>
      have hsame : r.close = r := if_pos hclosed
      have hstamped : Registry.close ⟨stampMonitor stamp r.monitor⟩ =
          ⟨stampMonitor stamp r.monitor⟩ := if_pos hclosed
      rw [hsame, hstamped]
      rfl
  | false =>
      have hclose : r.close = ⟨r.monitor.shut.clear⟩ := if_neg (Bool.eq_false_iff.mp hclosed)
      have hstamped : Registry.close ⟨stampMonitor stamp r.monitor⟩ =
          ⟨(stampMonitor stamp r.monitor).shut.clear⟩ := if_neg (Bool.eq_false_iff.mp hclosed)
      rw [hclose, hstamped]
      rfl

theorem Turns.closeRegistry (hturns : w.Turns i s v) (hlt : i < w.spaces.size) (hcalm : w.Calm)
    (hs : s.backing.Calm) :
    w.Turns i { s with registry := s.registry.map Registry.close } (v.closeRegistry i) := by
  have hclosed : w.Turns i { s with registry := s.registry.map Registry.close }
      (v.onSpace i false fun s => ({ s with registry := s.registry.map Registry.close },
        s.registry.any fun r => r.monitor.sweeper.isSome)).1 := by
    refine hturns.onSpace hlt false fun stamp => ?_
    obtain ⟨b, registry, storage⟩ := s
    cases registry with
    | none => cases b <;> rfl
    | some r =>
        have hregistry := stampMonitor_close stamp r
        cases b with
        | perKey m =>
            exact congrArg (fun x => Space.mk (.perKey (stampMonitor 0 m)) (some ⟨x⟩) storage)
              hregistry
        | singleLock m =>
            exact congrArg (fun x => Space.mk (.singleLock (stampMonitor 0 m)) (some ⟨x⟩) storage)
              hregistry
  exact hclosed.joinSweeper hcalm hs _

theorem Turns.shutEngine (hturns : w.Turns i s v) (hlt : i < w.spaces.size) (hcalm : w.Calm)
    (hs : s.backing.Calm) :
    w.Turns i { s with backing := (s.backing.modify fun m => (m.shut, ())).1 }
      (v.shutEngine i) := by
  have hshut : w.Turns i { s with backing := (s.backing.modify fun m => (m.shut, ())).1 }
      (v.onMonitor i false fun m => (m.shut, m.sweeper.isSome)).1 := by
    refine hturns.onSpace hlt false fun stamp => ?_
    obtain ⟨b, registry, storage⟩ := s
    cases b <;> cases registry <;> rfl
  refine hshut.joinSweeper hcalm ?_ _
  obtain ⟨b, registry, storage⟩ := s
  cases b <;> exact hs

theorem Turns.clearEngine (hturns : w.Turns i s v) (hlt : i < w.spaces.size) :
    w.Turns i { s with backing := (s.backing.modify fun m => (m.clear, ())).1 }
      (v.clearEngine i) := by
  refine hturns.onSpace hlt () fun stamp => ?_
  obtain ⟨b, registry, storage⟩ := s
  cases b <;> cases registry <;> rfl

/-- Closing an open space, up to the moment at which the blocked calls run. -/
theorem turns_closeMemory (hspace : w.spaces[i]? = some s) (hopen : s.isClosed = false)
    (hcalm : w.Calm) : w.Turns i s.emptied (w.closeMemory i) := by
  obtain ⟨hlt, _⟩ := Array.getElem?_eq_some_iff.mp hspace
  have hs := hcalm i s hspace
  have hstart := Turns.refl hspace
  obtain ⟨b, registry, storage⟩ := s
  cases b with
  | perKey m =>
      have hretired := hstart.closeRegistry hlt hcalm hs
      obtain ⟨x, hx, hsame⟩ := hretired.space hlt
      have hstill : x.isClosed = false := by
        rw [← Space.isClosed_stampSpace 0 x, hsame]
        exact hopen
      have hmemory : w.closeMemory i = ((w.closeRegistry i).shutEngine i).clearEngine i := by
        simp only [closeMemory, hspace, closeEngine, hx, hstill, Bool.false_eq_true, if_false]
      rw [hmemory]
      exact (hretired.shutEngine hlt hcalm hs).clearEngine hlt
  | singleLock m =>
      have hmemory : w.closeMemory i = ((w.shutEngine i).closeRegistry i).clearEngine i := by
        simp only [closeMemory, hspace, hopen, Bool.false_eq_true, if_false]
      rw [hmemory]
      exact ((hstart.shutEngine hlt hcalm hs).closeRegistry hlt hcalm hs).clearEngine hlt

/-! ## The calls that were blocked -/

theorem released_stampSpace (stamp : Nat) (s : Space) :
    (stampSpace stamp s).released = s.released := by
  obtain ⟨b, registry, storage⟩ := s
  cases b <;> rfl

theorem stampSpace_dismissed (stamp : Nat) (s : Space) :
    stampSpace stamp { s with backing := s.backing.dismissed } =
      { stampSpace stamp s with backing := (stampSpace stamp s).backing.dismissed } := by
  obtain ⟨b, registry, storage⟩ := s
  cases b <;> rfl

/-- The calls that are still blocked on a closed space end, and nothing else happens. -/
theorem settleSpace_of_closed (hholds : w.Holds none i name s) (hclosed : s.isClosed = true) :
    (w.settleSpace i).unnumbered =
      (s.released.foldl deliver
        (w.replace i { s with backing := s.backing.dismissed })).unnumbered := by
  obtain ⟨hstamped, _⟩ := hholds.intact.restamp w.stamp
  have hsettled := hstamped.backing.settle_closed
    ((Space.isClosed_stampSpace w.stamp s).trans hclosed)
  have hended : (w.onMonitor i [] fun m => m.settle w.now w.cancelled).2 = s.released := by
    rw [onMonitor, onSpace_result _ _ hholds.space]
    simp only [hsettled]
    rw [← released_stampSpace w.stamp s, Space.released, hstamped.name_eq]
    rfl
  rw [settleSpace_eq, hended, unnumbered_foldl_deliver, unnumbered_foldl_deliver]
  congr 1
  apply unnumbered_onSpace [] hholds.space
  simp only [hsettled]
  rw [stampSpace_dismissed, stampSpace_dismissed, stampSpace_stampSpace]

/-- Once a space has been closed the calls that were blocked on it end, and nothing else happens. -/
theorem Turns.settle (hturns : w.Turns i s v) (hlt : i < w.spaces.size) (hcalm : w.Calm)
    (hholds : ∀ x, v.spaces[i]? = some x → ∃ name, v.Holds none i name x)
    (hclosed : s.isClosed = true) :
    v.settle.unnumbered =
      (s.released.foldl deliver
        (w.replace i { s with backing := s.backing.dismissed })).unnumbered := by
  have hsize : v.spaces.size = w.spaces.size := by
    have hsame := congrArg (fun u : World => u.spaces.size) hturns
    simpa only [unnumbered, World.replace, Array.size_map, Array.size_setIfInBounds] using hsame
  obtain ⟨before, after, hplaces⟩ := List.append_of_mem (List.mem_range.mpr hlt)
  have hdistinct := List.nodup_range (n := w.spaces.size)
  rw [hplaces, List.nodup_append] at hdistinct
  obtain ⟨_, _, hbefore⟩ := hdistinct
  -- The spaces before the closed one have nothing to do.
  have hfirst : (before.foldl settleSpace v).unnumbered = v.unnumbered := by
    apply foldl_settleSpace_of_calm
    intro j hj y hy
    have hne : i ≠ j := fun heq => hbefore j hj i List.mem_cons_self heq.symm
    obtain ⟨x, hx, hsame⟩ := space_of_unnumbered hturns.symm hy
    replace hx : (w.spaces.setIfInBounds i s)[j]? = some x := hx
    rw [Array.getElem?_setIfInBounds_ne hne] at hx
    rw [← calm_stampSpace 0, ← hsame, calm_stampSpace]
    exact hcalm j x hx
  -- Then the calls that were blocked end.
  obtain ⟨x, hx, hsame⟩ := Turns.space (hfirst.trans hturns) hlt
  obtain ⟨y, hy, _⟩ := hturns.space hlt
  obtain ⟨name, hy⟩ := hholds y hy
  obtain ⟨z, hz, _⟩ := (Works.foldl (c := none) works_settleSpace before v).kept hy
  cases hx.symm.trans hz.space
  have hxclosed : x.isClosed = true := by
    rw [← Space.isClosed_stampSpace 0 x, hsame, Space.isClosed_stampSpace, hclosed]
  have hsecond : ((before.foldl settleSpace v).settleSpace i).unnumbered =
      (s.released.foldl deliver
        (w.replace i { s with backing := s.backing.dismissed })).unnumbered := by
    rw [settleSpace_of_closed hz hxclosed, unnumbered_foldl_deliver, unnumbered_foldl_deliver,
      ← released_stampSpace 0 x, hsame, released_stampSpace]
    congr 1
    refine Turns.replace (hfirst.trans hturns) ?_
    rw [stampSpace_dismissed, stampSpace_dismissed, hsame]
  -- The spaces after the closed one have nothing to do either.
  have hquiet : ((before.foldl settleSpace v).settleSpace i).Calm := by
    refine Calm.of_unnumbered ?_ hsecond
    obtain ⟨futures, ended, heq⟩ := foldl_deliver_spec
      (w.replace i { s with backing := s.backing.dismissed }) s.released
    rw [heq]
    exact hcalm.replace i (Backing.calm_dismissed s.backing)
  have hlast := foldl_settleSpace_of_calm after fun j _ y hy => hquiet j y hy
  rw [World.settle, hsize, hplaces, List.foldl_append, List.foldl_cons, hlast, hsecond]

/-! ## Whoever waits for a call -/

/-- Whoever waits for a call can learn how it ended. -/
def Told (w : World) (ticket : Nat) (outcome : Outcome Json) : Prop :=
  match w.future? ticket with
  | none => ⟨ticket, outcome⟩ ∈ w.ended
  | some x => x.outcome = some outcome

/-- Somebody is still interested in a call. -/
def Wanted (w : World) (ticket : Nat) : Prop :=
  ∀ x, w.future? ticket = some x → x.abandoned = false

theorem future?_ticket {ticket : Nat} {x : Future} (hsome : w.future? ticket = some x) :
    x.ticket = ticket := by
  have hfound := List.find?_some hsome
  exact beq_iff_eq.mp hfound

theorem future?_dropFuture {ticket other : Nat} (hne : ticket ≠ other) :
    (w.dropFuture other).future? ticket = w.future? ticket := by
  simp only [future?, dropFuture, List.find?_filter]
  congr 1
  funext x
  by_cases hx : x.ticket = ticket <;> simp [hx, hne]

theorem future?_updateFuture (w : World) (ticket : Nat) (f : Future) :
    (w.updateFuture f).future? ticket =
      (w.future? ticket).map fun x => if x.ticket == f.ticket then f else x := by
  simp only [future?, updateFuture, List.find?_map]
  congr 2
  funext x
  by_cases hx : x.ticket = f.ticket <;> simp [hx]

/-- What the end of a call means to those who wait for another. -/
theorem deliver_of_ne {ticket : Nat} {f : Finished Json} (hne : ticket ≠ f.ticket) :
    (w.deliver f).future? ticket = w.future? ticket ∧ w.ended ⊆ (w.deliver f).ended := by
  unfold deliver
  split
  · exact ⟨rfl, List.subset_append_left _ _⟩
  · rename_i x hx
    split
    · exact ⟨future?_dropFuture hne, List.Subset.refl _⟩
    · refine ⟨?_, List.Subset.refl _⟩
      rw [future?_updateFuture]
      cases hother : w.future? ticket with
      | none => rfl
      | some y =>
          have hticket := (future?_ticket hother).trans_ne (hne.trans_eq (future?_ticket hx).symm)
          simp [hticket]

/-- The end of a call that somebody is still interested in. -/
theorem Wanted.deliver {f : Finished Json} (hwanted : w.Wanted f.ticket) :
    (w.deliver f).Wanted f.ticket ∧ (w.deliver f).Told f.ticket f.outcome := by
  cases hx : w.future? f.ticket with
  | none =>
      have hended : w.deliver f = { w with ended := w.ended ++ [f] } := by
        simp only [World.deliver, hx]
      have hstill : (w.deliver f).future? f.ticket = none := by rw [hended]; exact hx
      refine ⟨fun y hy => ?_, ?_⟩
      · rw [hstill] at hy
        cases hy
      · rw [Told, hstill, hended]
        exact List.mem_append_right _ (List.mem_singleton_self _)
  | some x =>
      have hupdated : w.deliver f = w.updateFuture { x with outcome := some f.outcome } := by
        simp only [World.deliver, hx, hwanted x hx, Bool.false_eq_true, if_false]
      have hnow : (w.deliver f).future? f.ticket = some { x with outcome := some f.outcome } := by
        rw [hupdated, future?_updateFuture, hx, Option.map_some, if_pos (beq_self_eq_true _)]
      refine ⟨fun y hy => ?_, ?_⟩
      · rw [hnow] at hy
        cases hy
        exact hwanted x hx
      · rw [Told, hnow]

/-- Once the ends of some calls have been handed out, whoever waits for one of them can learn of
it. -/
theorem Wanted.told {ticket : Nat} {outcome : Outcome Json} {fs : List (Finished Json)}
    (hwanted : w.Wanted ticket) (hsame : ∀ f ∈ fs, f.ticket = ticket → f.outcome = outcome)
    (htold : w.Told ticket outcome ∨ ∃ f ∈ fs, f.ticket = ticket) :
    (fs.foldl World.deliver w).Told ticket outcome := by
  induction fs generalizing w with
  | nil =>
      rcases htold with htold | ⟨f, hf, _⟩
      · exact htold
      · cases hf
  | cons f fs ih =>
      have hrest := fun g hg => hsame g (List.mem_cons_of_mem f hg)
      by_cases hticket : f.ticket = ticket
      · subst hticket
        obtain ⟨hstill, hnow⟩ := hwanted.deliver
        rw [hsame f List.mem_cons_self rfl] at hnow
        exact ih hstill hrest (.inl hnow)
      · obtain ⟨hfuture, hended⟩ := deliver_of_ne (w := w) fun heq => hticket heq.symm
        refine ih (fun x hx => hwanted x (hfuture ▸ hx)) hrest ?_
        rcases htold with htold | ⟨g, hg, hgticket⟩
        · left
          unfold Told at htold ⊢
          rw [hfuture]
          split at htold
          · exact hended htold
          · exact htold
        · rcases List.mem_cons.mp hg with rfl | hg
          · exact absurd hgticket hticket
          · exact .inr ⟨g, hg, hgticket⟩

/-! ## Closing -/

theorem isClosed_emptied (s : Space) : s.emptied.isClosed = true := by
  obtain ⟨b, registry, storage⟩ := s
  cases b <;> rfl

theorem isClosed_vacated (s : Space) : s.vacated.isClosed = true := by
  obtain ⟨b, registry, storage⟩ := s
  cases b <;> rfl

/-- Waking the blocked calls changes nothing about how they end. -/
theorem released_emptied (s : Space) : s.emptied.released = s.released := by
  obtain ⟨b, registry, storage⟩ := s
  cases b with
  | perKey m =>
      show (m.waiting.map (Waiter.mark _)).map (Monitor.refused m.engine.name) = _
      rw [List.map_map]
      exact List.map_congr_left fun x _ => Monitor.refused_mark ..
  | singleLock m =>
      show (m.waiting.map (Waiter.mark _)).map (Monitor.refused m.engine.name) = _
      rw [List.map_map]
      exact List.map_congr_left fun x _ => Monitor.refused_mark ..

/-- Closing an open space stores it first, if it is persistent. -/
theorem closeUnsettled_of_open (hspace : w.spaces[i]? = some s) (hopen : s.isClosed = false) :
    w.closeUnsettled i = ((w.flush i).1.closeMemory i, (w.flush i).2) := by
  cases hstorage : s.storage with
  | none => simp only [closeUnsettled, flush, hspace, hstorage]
  | some storage =>
      simp only [closeUnsettled, hspace, hstorage, hopen, Bool.false_eq_true, if_false]

/-- What closing an open space makes of a world. -/
theorem Rests.close_open (hrests : w.Rests) (hspace : w.spaces[i]? = some s)
    (hopen : s.isClosed = false) :
    (w.close i).2 = (w.flush i).2 ∧
      (w.close i).1.unnumbered =
        (s.released.foldl deliver ((w.flush i).1.replace i s.vacated)).unnumbered := by
  have hsteps := closeUnsettled_of_open hspace hopen
  obtain ⟨files, hflushed⟩ := flush_spec w i
  obtain ⟨hlt, _⟩ := Array.getElem?_eq_some_iff.mp hspace
  obtain ⟨name, hholds⟩ := hrests.holds hspace
  have hturns : Turns (w.flush i).1 i s.emptied ((w.flush i).1.closeMemory i) := by
    rw [hflushed]
    exact turns_closeMemory hspace hopen hrests.calm
  have hsettled := hturns.settle (by rw [hflushed]; exact hlt) (by rw [hflushed]; exact hrests.calm)
    (fun x hx => ?_) (isClosed_emptied s)
  · rw [released_emptied] at hsettled
    rw [close, hsteps]
    exact ⟨rfl, hsettled⟩
  · have hworks := works_closeUnsettled w i
    rw [hsteps] at hworks
    exact hworks.toLeads.intact hrests.intact i x hx

/-- Closing a closed space does nothing. -/
theorem Rests.close_closed (hrests : w.Rests) (hspace : w.spaces[i]? = some s)
    (hclosed : s.isClosed = true) :
    (w.close i).2 = .ok () ∧ (w.close i).1.unnumbered = w.unnumbered := by
  have hmemory : (w.closeMemory i).unnumbered = w.unnumbered := by
    obtain ⟨hlt, _⟩ := Array.getElem?_eq_some_iff.mp hspace
    obtain ⟨name, hholds⟩ := hrests.holds hspace
    have hretired := hholds.intact.retired hclosed (decide_eq_false nofun)
    obtain ⟨b, registry, storage⟩ := s
    cases b with
    | perKey m =>
        have hturns := (Turns.refl hspace).closeRegistry hlt hrests.calm (hrests.calm i _ hspace)
        have hsame : registry.map Registry.close = registry := by
          cases registry with
          | none => rfl
          | some r => exact congrArg some (if_pos (hretired r rfl))
        simp only [hsame] at hturns
        obtain ⟨x, hx, hstamp⟩ := hturns.space hlt
        have hstill : x.isClosed = true := by
          rw [← Space.isClosed_stampSpace 0 x, hstamp]
          exact hclosed
        have hnothing : w.closeMemory i = w.closeRegistry i := by
          simp only [closeMemory, hspace, closeEngine, hx, hstill, if_true]
        rw [hnothing, hturns, replace_self hspace]
    | singleLock m =>
        have hnothing : w.closeMemory i = w := by
          simp only [closeMemory, hspace, hclosed, if_true]
        rw [hnothing]
  have hsteps : ∃ v, w.closeUnsettled i = (v, .ok ()) ∧ v.unnumbered = w.unnumbered := by
    cases hstorage : s.storage with
    | none => exact ⟨_, by simp only [closeUnsettled, hspace, hstorage], hmemory⟩
    | some storage =>
        exact ⟨w, by simp only [closeUnsettled, hspace, hstorage, hclosed, if_true], rfl⟩
  obtain ⟨v, hv, hsame⟩ := hsteps
  rw [close, hv]
  exact ⟨rfl, (hrests.calm.of_unnumbered hsame).settle.trans hsame⟩

/-- Worlds that differ in numbers only have closed the same spaces. -/
theorem isClosedSpace_unnumbered (w : World) (i : Nat) :
    w.unnumbered.isClosedSpace i = w.isClosedSpace i := by
  rw [isClosedSpace, isClosedSpace, getElem?_unnumbered]
  cases w.spaces[i]? with
  | none => rfl
  | some s => exact Space.isClosed_stampSpace 0 s

/-- Closing a space closes it and no other. -/
theorem Rests.close_spaces (hrests : w.Rests) (i : Nat) :
    ∃ v : World, (w.close i).1.unnumbered = v.unnumbered ∧ v.isClosedSpace i = true ∧
      ∀ j, j ≠ i → v.spaces[j]? = w.spaces[j]? := by
  cases hspace : w.spaces[i]? with
  | none =>
      refine ⟨w, ?_, by rw [isClosedSpace, hspace]; rfl, fun _ _ => rfl⟩
      simp only [close, closeUnsettled, hspace]
      exact hrests.calm.settle
  | some s =>
      cases hclosed : s.isClosed with
      | true =>
          exact ⟨w, (hrests.close_closed hspace hclosed).2,
            (isClosedSpace_of_some hspace).trans hclosed, fun _ _ => rfl⟩
      | false =>
          obtain ⟨hlt, _⟩ := Array.getElem?_eq_some_iff.mp hspace
          obtain ⟨files, hflushed⟩ := flush_spec w i
          obtain ⟨futures, ended, hdelivered⟩ := foldl_deliver_spec
            ((w.flush i).1.replace i s.vacated) s.released
          refine ⟨_, (hrests.close_open hspace hclosed).2, ?_, fun j hj => ?_⟩
          · rw [hdelivered, hflushed]
            exact (isClosedSpace_of_some (Array.getElem?_setIfInBounds_self_of_lt hlt)).trans
              (isClosed_vacated s)
          · rw [hdelivered, hflushed]
            exact Array.getElem?_setIfInBounds_ne hj.symm

theorem Rests.isClosedSpace_close (hrests : w.Rests) (i : Nat) :
    (w.close i).1.isClosedSpace i = true := by
  obtain ⟨v, hsame, hclosed, _⟩ := hrests.close_spaces i
  rw [← isClosedSpace_unnumbered, hsame, isClosedSpace_unnumbered, hclosed]

theorem Rests.isClosedSpace_close_of_ne (hrests : w.Rests) {j : Nat} (hne : j ≠ i) :
    (w.close i).1.isClosedSpace j = w.isClosedSpace j := by
  obtain ⟨v, hsame, _, hothers⟩ := hrests.close_spaces i
  rw [← isClosedSpace_unnumbered, hsame, isClosedSpace_unnumbered, isClosedSpace, isClosedSpace,
    hothers j hne]

/-- A space that has been closed for good: nothing is left of it, and closing it again does
nothing. -/
structure ClosedForGood (w : World) (i : Nat) (name : String) (s : Space) : Prop where
  space : w.spaces[i]? = some s
  name_eq : s.name = name
  vacant : s.Vacant
  result : (w.close i).2 = .ok ()
  unchanged : (w.close i).1.unnumbered = w.unnumbered

/-- In a world at rest every closed space has been closed for good. -/
theorem Rests.closedForGood (hrests : w.Rests) (hholds : w.Holds none i name s)
    (hclosed : s.isClosed = true) : w.ClosedForGood i name s := by
  obtain ⟨hresult, hunchanged⟩ := hrests.close_closed hholds.space hclosed
  exact ⟨hholds.space, hholds.intact.name_eq,
    hholds.intact.vacant hclosed (hrests.calm i s hholds.space), hresult, hunchanged⟩

/-- Spaces that have been closed stay closed. -/
theorem Reached.closedForGood (hreached : w.Reached) (hholds : w.Holds none i name s)
    (hclosed : s.isClosed = true) (deeds : List Deed) :
    ∃ s', (w.afterAll deeds).ClosedForGood i name s' := by
  obtain ⟨s', hholds', hbecomes⟩ := (leads_afterAll w deeds).kept hholds
  exact ⟨s', (hreached.afterAll deeds).rests.closedForGood hholds' (hbecomes.closed hclosed)⟩

/-- What closing an open space does. -/
structure ReleasesEverybody (w : World) (i : Nat) (s : Space) : Prop where
  /-- Closing a space says what came of storing it, and nothing can go wrong if it is not
  persistent. -/
  result : (w.close i).2 = (w.flush i).2
  transient : s.storage = none → (w.close i).2 = .ok ()
  /-- Every call that was blocked on the space ends with the error of a closed space, in the order
  in which they were started; nothing happens to anything else. -/
  released : (w.close i).1.unnumbered =
    (s.released.foldl deliver ((w.flush i).1.replace i s.vacated)).unnumbered
  /-- Whoever still waits for one of these calls can learn of it. -/
  told : ∀ x ∈ s.blocked, w.Wanted x.ticket →
    (w.close i).1.Told x.ticket (.error (.closed s.name))
  /-- Then and ever after nothing is left of the space. -/
  forGood : ∀ deeds, ∃ s', ((w.close i).1.afterAll deeds).ClosedForGood i s.name s'

/-- In every world that a history leads to, closing a space releases everybody who is blocked on
it. -/
theorem closing_releases_everybody (hreached : w.Reached) (hspace : w.spaces[i]? = some s)
    (hopen : s.isClosed = false) : w.ReleasesEverybody i s := by
  obtain ⟨hresult, hreleased⟩ := hreached.rests.close_open hspace hopen
  obtain ⟨name, hholds⟩ := hreached.rests.holds hspace
  refine ⟨hresult, fun hstorage => ?_, hreleased, fun x hx hwanted => ?_, fun deeds => ?_⟩
  · rw [hresult]
    simp only [flush, hspace, hstorage]
  · obtain ⟨files, hflushed⟩ := flush_spec w i
    have htold : (s.released.foldl deliver ((w.flush i).1.replace i s.vacated)).unnumbered.Told
        x.ticket (.error (.closed s.name)) := by
      refine Wanted.told (fun y hy => hwanted y ?_) (fun f hf _ => ?_) (.inr ?_)
      · rw [hflushed] at hy
        exact hy
      · obtain ⟨y, _, rfl⟩ := List.mem_map.mp hf
        rfl
      · exact ⟨_, List.mem_map_of_mem hx, rfl⟩
    rw [← hreleased] at htold
    exact htold
  · have hafter : (w.close i).1.Reached := hreached.after (.close i)
    obtain ⟨s', hholds', _⟩ := (works_close w i).kept hholds
    have hclosed : s'.isClosed = true := by
      have hshut := hreached.rests.isClosedSpace_close i
      rwa [isClosedSpace_of_some hholds'.space] at hshut
    rw [hholds.intact.name_eq]
    exact hafter.closedForGood hholds' hclosed deeds

set_option maxRecDepth 100000 in
/-- A take, a read, a drain and a wait for any of two keys, all blocked on a space whose file cannot
be written. -/
theorem closing_releases_everybody_unstored :
    let deeds : List Deed :=
      [.openPersistent "space" "space.json" {},
        .newListener ⟨"listener", 0, .note⟩, .insert 0 "full" .null 0 .tail,
        .addListener 0 "key" 0 0,
        .start 0 (.retrieve ⟨"key", fun _ => true, .take, .forever, none⟩),
        .start 0 (.retrieve ⟨"key", fun _ => true, .read, .until 90, none⟩),
        .start 0 (.drain "full" .forever), .start 0 (.presence ["key", "other"] none),
        .replaceFiles ⟨[(["space.json"], .directory)]⟩]
    let w := World.afterAll { epoch := ⟨0, 0, 0⟩ } deeds
    (w.close 0).2 = .error (.ofStorage "Is a directory (os error 21)") ∧
      ∃ s, w.spaces[0]? = some s ∧ s.isClosed = false ∧
        s.blocked.map Waiter.ticket = [0, 1, 2, 3] ∧ w.ReleasesEverybody 0 s := by
  intro deeds w
  have hreached : w.Reached := ⟨⟨0, 0, 0⟩, {}, none, deeds, nofun, rfl⟩
  have hopen : w.spaces[0]?.any (fun s => !s.isClosed) = true := by decide +kernel
  have htickets : w.spaces[0]?.map (fun s => s.blocked.map Waiter.ticket) = some [0, 1, 2, 3] := by
    decide +kernel
  obtain ⟨s, hspace, hblocked⟩ := Option.map_eq_some_iff.mp htickets
  rw [hspace, Option.any_some, Bool.not_eq_true'] at hopen
  exact ⟨by decide +kernel, s, hspace, hopen, hblocked,
    closing_releases_everybody hreached hspace hopen⟩

end World

end TupleSpace
