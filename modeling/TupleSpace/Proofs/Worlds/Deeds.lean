import TupleSpace.Proofs.Directory.Lookups

/-!
# Histories of worlds

Everything that callers can do, in any order: making spaces, using them, waiting for what they do,
letting time pass, going away, closing, and working with the directory.  What listeners do in turn
is part of the insertions that they are told of.  Between two deeds a world is at rest: all its
spaces are intact, and no blocked call is ready to run.
-/

namespace TupleSpace

namespace World

variable {w v : World} {i j : Nat} {name : String} {s : Space} {β : Type}

/-! ## Calm -/

/-- No blocked call is ready to run. -/
def Calm (w : World) : Prop := ∀ (i : Nat) (s : Space), w.spaces[i]? = some s → s.backing.Calm

/-- All spaces are intact, and nobody is closing one. -/
def Intact (w : World) : Prop :=
  ∀ (i : Nat) (s : Space), w.spaces[i]? = some s → ∃ name, w.Holds none i name s

/-- A world between two deeds. -/
structure Rests (w : World) : Prop where
  intact : w.Intact
  calm : w.Calm
  numbered : w.Numbered

theorem calm_stampSpace (stamp : Nat) (s : Space) :
    (stampSpace stamp s).backing.Calm ↔ s.backing.Calm := by
  obtain ⟨b, _, _⟩ := s
  cases b <;> exact Iff.rfl

/-- Spaces that go on stay intact. -/
theorem Leads.intact (hleads : Leads none w none v) (hintact : w.Intact) : v.Intact := by
  intro i s hspace
  rcases Nat.lt_or_ge i w.spaces.size with hlt | hge
  · obtain ⟨name, hbefore⟩ := hintact i _ (Array.getElem?_eq_getElem hlt)
    obtain ⟨s', hafter, _⟩ := hleads.kept hbefore
    cases hspace.symm.trans hafter.space
    exact ⟨name, hafter⟩
  · exact (hleads.fresh hge hspace).1

/-- The ready calls of a space run until none of that space is left. -/
theorem calm_settleSpace {closing : Option Nat} (hholds : w.Holds closing i name s)
    {s' : Space} (hspace : (w.settleSpace i).spaces[i]? = some s') : s'.backing.Calm := by
  obtain ⟨spaces, stamp, futures, ended, heq, _, hself, _⟩ := settleSpace_spec w i
  rw [heq] at hspace
  cases (hself s hholds.space).symm.trans hspace
  exact (hholds.intact.restamp w.stamp).1.backing.settle_calm

/-- What happens to one space leaves the others calm. -/
theorem settleSpace_of_ne (w : World) (hne : j ≠ i) :
    (w.settleSpace i).spaces[j]? = w.spaces[j]? := by
  obtain ⟨spaces, stamp, futures, ended, heq, _, _, helse⟩ := settleSpace_spec w i
  rw [heq]
  exact helse j hne

/-- The ready calls of all spaces run until none is left. -/
theorem calm_settle (hintact : w.Intact) : w.settle.Calm := by
  have hfirst : ∀ n ≤ w.spaces.size, ∀ i s, i < n →
      ((List.range n).foldl settleSpace w).spaces[i]? = some s → s.backing.Calm := by
    intro n hn
    induction n with
    | zero => exact fun i s hi => absurd hi (Nat.not_lt_zero i)
    | succ n ih =>
        intro i s hi hspace
        rw [List.range_succ, List.foldl_concat] at hspace
        have hworks : Works none w none ((List.range n).foldl settleSpace w) :=
          Works.foldl works_settleSpace _ w
        by_cases hlast : i = n
        · subst hlast
          obtain ⟨name, hbefore⟩ := hintact i _ (Array.getElem?_eq_getElem hn)
          obtain ⟨s', hafter, _⟩ := hworks.kept hbefore
          exact calm_settleSpace hafter hspace
        · rw [settleSpace_of_ne _ hlast] at hspace
          exact ih (by omega) i s (by omega) hspace
  intro i s hspace
  refine hfirst w.spaces.size (Nat.le_refl _) i s ?_ hspace
  obtain ⟨spaces, stamp, futures, ended, heq, hsize⟩ := settle_spec w
  rw [heq] at hspace
  obtain ⟨hlt, _⟩ := Array.getElem?_eq_some_iff.mp hspace
  exact hsize ▸ hlt

theorem Rests.holds (hrests : w.Rests) (hspace : w.spaces[i]? = some s) :
    ∃ name, w.Holds none i name s :=
  hrests.intact i s hspace

theorem Rests.settle (hrests : w.Rests) (hleads : Leads none w none v) : v.settle.Rests where
  intact := (works_settle v).toLeads.intact (hleads.intact hrests.intact)
  calm := calm_settle (hleads.intact hrests.intact)
  numbered := (works_settle (c := none) v).numbered (hleads.numbered hrests.numbered)

theorem Rests.of_spaces (hrests : w.Rests) (hspaces : v.spaces = w.spaces) (hnow : v.now = w.now)
    (hcancelled : v.cancelled = w.cancelled) (hnumbered : w.Numbered → v.Numbered) : v.Rests where
  intact := (Leads.of_spaces hspaces hnow hcancelled hnumbered).intact hrests.intact
  calm i s hspace := hrests.calm i s (hspaces ▸ hspace)
  numbered := hnumbered hrests.numbered

/-- What a deed makes of a world that does not concern the directory: the spaces have gone on, and
are at rest again if they were before. -/
structure WorksOut (w v : World) : Prop where
  works : Works none w none v
  rests : w.Rests → v.Rests

theorem WorksOut.refl (w : World) : WorksOut w w := ⟨.refl none w, id⟩

theorem WorksOut.trans {x : World} (hfirst : WorksOut w v) (hsecond : WorksOut v x) :
    WorksOut w x :=
  ⟨hfirst.works.trans hsecond.works, hsecond.rests ∘ hfirst.rests⟩

/-- In the end the ready calls run. -/
theorem WorksOut.settle (hworks : Works none w none v) : WorksOut w v.settle :=
  ⟨hworks.trans (works_settle v), fun hrests => hrests.settle hworks.toLeads⟩

theorem WorksOut.of_spec {x : World} (hspec : ∃ v, Works none w none v ∧ x = v.settle) :
    WorksOut w x := by
  obtain ⟨v, hworks, rfl⟩ := hspec
  exact .settle hworks

theorem WorksOut.of_spaces (hspaces : v.spaces = w.spaces) (hnow : v.now = w.now)
    (hcancelled : v.cancelled = w.cancelled) (hnumbered : w.Numbered → v.Numbered)
    (hdirectory : v.directory = w.directory) : WorksOut w v :=
  ⟨.of_spaces hspaces hnow hcancelled hnumbered hdirectory, fun hrests =>
    hrests.of_spaces hspaces hnow hcancelled hnumbered⟩

/-- No call has been made ready. -/
theorem WorksOut.of_calm (hworks : Works none w none v) (hcalm : w.Calm → v.Calm) :
    WorksOut w v :=
  ⟨hworks, fun hrests =>
    ⟨hworks.toLeads.intact hrests.intact, hcalm hrests.calm, hworks.numbered hrests.numbered⟩⟩

/-- An operation on one space that leaves its calls alone. -/
theorem Calm.onSpace (hcalm : w.Calm) (missing : β) {f : Space → Space × β}
    (hf : ∀ s : Space, s.backing.Calm → (f s).1.backing.Calm) : (w.onSpace i missing f).1.Calm := by
  obtain ⟨spaces, stamp, heq, hsize, hself, helse⟩ := onSpace_spec w i missing f
  intro j s' hspace'
  rw [heq] at hspace'
  by_cases hj : j = i
  · subst hj
    obtain ⟨hlt, _⟩ := Array.getElem?_eq_some_iff.mp hspace'
    have hspace : w.spaces[j]? = some _ := Array.getElem?_eq_getElem (hsize ▸ hlt)
    cases (hself _ hspace).symm.trans hspace'
    exact hf _ ((calm_stampSpace _ _).mpr (hcalm j _ hspace))
  · exact hcalm j s' ((helse j hj).symm.trans hspace')

/-! ## Deeds that make no call ready -/

theorem worksOut_addListener (w : World) (i : Nat) (key : String) (listener timeout : Nat) :
    WorksOut w (w.addListener i key listener timeout).1 := by
  refine .of_calm (works_addListener w i key listener timeout) fun hcalm => ?_
  have hopened : (w.openRegistry i).1.Calm := by
    refine hcalm.onSpace _ fun s hs => ?_
    split
    · exact hs
    · split <;> exact hs
  unfold World.addListener
  split
  · exact hcalm
  · split <;> rename_i heq <;> rw [heq] at hopened
    · exact hopened
    · refine hopened.onSpace _ fun s hs => ?_
      simp only []
      split <;> exact hs

theorem worksOut_removeListener (w : World) (i : Nat) (key : String) (listener : Nat) :
    WorksOut w (w.removeListener i key listener).1 := by
  refine .of_calm (works_removeListener w i key listener) fun hcalm => ?_
  unfold World.removeListener
  split
  · exact hcalm
  · refine hcalm.onSpace _ fun s hs => ?_
    simp only []
    split <;> exact hs

/-- A space that could be opened joins the others. -/
theorem worksOut_addOpened {opened : Except SpaceError Space}
    (hfresh : ∀ s, opened = .ok s → s.Fresh name w.now w.cancelled) :
    WorksOut w (w.addOpened opened).1 := by
  refine .of_calm (works_addOpened hfresh) fun hcalm i x hspace => ?_
  cases opened with
  | error e => exact hcalm i x hspace
  | ok s =>
      replace hspace : (w.spaces.push s)[i]? = some x := hspace
      rw [Array.getElem?_push] at hspace
      split at hspace
      · cases hspace
        exact (hfresh x rfl).calm
      · exact hcalm i x hspace

theorem worksOut_flush (w : World) (i : Nat) : WorksOut w (w.flush i).1 := by
  obtain ⟨files, heq⟩ := flush_spec w i
  rw [heq]
  exact .of_spaces rfl rfl rfl id rfl

/-! ## Time -/

/-- The clock moves forward. -/
theorem worksOut_later (w : World) {now : Nat} (hle : w.now ≤ now) : WorksOut w { w with now } :=
  .of_calm (works_later w hle) id

/-- An alarm makes calls of one space ready, and then these run. -/
theorem worksOut_ring (w : World) (i : Nat) (a : Alarm) : WorksOut w (w.ring i a) := by
  obtain ⟨spaces, stamp, heq, hsize, hself, helse⟩ := onSpace_spec
    ({ w with now := max w.now a.instant } : World) i () fun s =>
      (fireSpace (max w.now a.instant) a s, ())
  have hfired : Works none w none { w with now := max w.now a.instant, spaces, stamp } := by
    rw [← heq]
    exact (works_later w (Nat.le_max_left w.now a.instant)).trans
      (works_onSpace () (fun _ _ => rfl) fun _ hintact => hintact.fire a)
  have hring : w.ring i a =
      ({ w with now := max w.now a.instant, spaces, stamp } : World).settleSpace i :=
    congrArg (·.settleSpace i) heq
  rw [hring]
  have hworks := hfired.trans (works_settleSpace _ i)
  refine ⟨hworks, fun hrests => ⟨hworks.toLeads.intact hrests.intact, fun j s hspace => ?_,
    hworks.numbered hrests.numbered⟩⟩
  by_cases hj : j = i
  · subst hj
    obtain ⟨spaces', _, _, _, heq', hsize', _⟩ := settleSpace_spec
      ({ w with now := max w.now a.instant, spaces, stamp } : World) j
    have hthere := hspace
    rw [heq'] at hthere
    obtain ⟨hlt, _⟩ := Array.getElem?_eq_some_iff.mp hthere
    obtain ⟨name, hholds⟩ := hfired.toLeads.intact hrests.intact j _
      (Array.getElem?_eq_getElem (hsize' ▸ hlt : j < spaces.size))
    exact calm_settleSpace hholds hspace
  · rw [settleSpace_of_ne _ hj] at hspace
    exact hrests.calm j s ((helse j hj).symm.trans hspace)

/-- The alarms up to an instant go off, as long as there are any and nobody's call has ended. -/
theorem worksOut_ringUntil (until_ : Nat) (ticket : Option Nat) (fuel : Nat) (w : World) :
    WorksOut w (ringUntil until_ ticket fuel w) := by
  induction fuel generalizing w with
  | zero => exact .refl w
  | succ fuel ih =>
      unfold ringUntil
      split
      · exact .refl w
      · split
        · rename_i i a _
          split
          · exact (worksOut_ring w i a).trans (ih (w.ring i a))
          · exact .refl w
        · exact .refl w

theorem worksOut_advance (w : World) (span : Nat) : WorksOut w (w.advance span) :=
  (worksOut_ringUntil (w.now + span) none (w.alarmBound span) w).trans
    (worksOut_later _ (Nat.le_max_left _ _))

/-! ## Closing -/

theorem worksOut_close (w : World) (i : Nat) : WorksOut w (w.close i).1 :=
  .settle (works_closeUnsettled w i)

theorem worksOut_closeEach (spaces : List Nat) (w : World) :
    WorksOut w (closeEach spaces w).1 := by
  induction spaces generalizing w with
  | nil => exact .refl w
  | cons i rest ih =>
      have hboth := (worksOut_close w i).trans (ih (w.close i).1)
      unfold closeEach
      simp only []
      split <;> exact hboth

theorem Rests.release (hrests : w.Rests) (text : String) : (w.release text).1.Rests := by
  obtain ⟨hsame, _⟩ | ⟨u, i, _, _, heq⟩ := release_cases w text
  · rwa [hsame]
  · rw [heq]
    exact (worksOut_close _ i).rests (hrests.of_spaces rfl rfl rfl id)

/-! ## All deeds -/

/-- Something that somebody does in a world. -/
inductive Deed where
  | /-- A space with one record per key is made. -/
    openPerKey (name : String) (config : SpaceConfig)
  | /-- A space with a single lock is made. -/
    openSingleLock (name : String) (config : SpaceConfig)
  | /-- A persistent space is opened. -/
    openPersistent (name path : String) (config : SpaceConfig)
  | insert (space : Nat) (key : String) (value : Json) (timeout : Nat) (placement : Placement)
  | insertSilently (space : Nat) (key : String) (value : Json) (timeout : Nat)
      (placement : Placement)
  | probe (space : Nat) (mode : Mode) (key : String) (accepts : Json → Bool)
  | existsAny (space : Nat) (keys : List String)
  | sweep (space : Nat) (gen : Generation)
  | /-- A request starts that may wait. -/
    start (space : Nat) (request : Request String Json)
  | fetch (ticket : Nat)
  | startFuture (space : Nat) (request : Option Nat → Request String Json) (cancellable : Bool)
      (restoreKey : Option String)
  | pollFuture (ticket : Nat)
  | abandonFuture (ticket : Nat)
  | advance (span : Nat)
  | await (ticket deadline : Nat)
  | newToken
  | cancel (token : Nat)
  | newListener (listener : Listener)
  | addListener (space : Nat) (key : String) (listener timeout : Nat)
  | removeListener (space : Nat) (key : String) (listener : Nat)
  | clearNotes
  | flush (space : Nat)
  | close (space : Nat)
  | /-- Somebody else changes the files. -/
    replaceFiles (files : Files)
  | lookup (text : String)
  | release (text : String)
  | closeAll
  | /-- A scheme gets a factory. -/
    register (scheme : String) (factory : Factory)

/-- What a deed makes of a world. -/
def after (w : World) : Deed → World
  | .openPerKey name config => (w.addOpened (Space.perKey name config w.now w.stamp)).1
  | .openSingleLock name config => (w.addOpened (Space.singleLock name config w.now w.stamp)).1
  | .openPersistent name path config => (w.addOpened (w.openPersistent name path config)).1
  | .insert space key value timeout placement => (w.insert space key value timeout placement).1
  | .insertSilently space key value timeout placement =>
    (w.insertSilently space key value timeout placement).1
  | .probe space mode key accepts => (w.probe space mode key accepts).1
  | .existsAny space keys => (w.existsAny space keys).1
  | .sweep space gen => (w.sweep space gen).1
  | .start space request => (w.start space request).1
  | .fetch ticket => (w.fetch ticket).1
  | .startFuture space request cancellable restoreKey =>
    (w.startFuture space request cancellable restoreKey).1
  | .pollFuture ticket => (w.pollFuture ticket).1
  | .abandonFuture ticket => w.abandonFuture ticket
  | .advance span => w.advance span
  | .await ticket deadline => w.await ticket deadline
  | .newToken => w.newToken.1
  | .cancel token => w.cancel token
  | .newListener listener => (w.newListener listener).1
  | .addListener space key listener timeout => (w.addListener space key listener timeout).1
  | .removeListener space key listener => (w.removeListener space key listener).1
  | .clearNotes => w.clearNotes
  | .flush space => (w.flush space).1
  | .close space => (w.close space).1
  | .replaceFiles files => { w with files }
  | .lookup text => (w.lookup text).1
  | .release text => (w.release text).1
  | .closeAll => w.closeAll.1
  | .register scheme factory =>
    { w with directory := some (w.directoryOf.register scheme factory) }

/-- What a history of deeds makes of a world. -/
def afterAll (w : World) (deeds : List Deed) : World := deeds.foldl after w

/-- A world that some history leads to, from one without spaces; there may be files already, and a
directory that has not been used. -/
def Reached (w : World) : Prop :=
  ∃ epoch files directory deeds, (∀ d ∈ directory, Directory.slots d = []) ∧
    w = afterAll { epoch, files, directory } deeds

theorem Reached.after (hreached : w.Reached) (d : Deed) : (w.after d).Reached := by
  obtain ⟨epoch, files, directory, deeds, hunused, rfl⟩ := hreached
  exact ⟨epoch, files, directory, deeds ++ [d], hunused, (List.foldl_concat ..).symm⟩

theorem Reached.afterAll (hreached : w.Reached) (deeds : List Deed) :
    (w.afterAll deeds).Reached := by
  induction deeds generalizing w with
  | nil => exact hreached
  | cons d deeds ih => exact ih (hreached.after d)

/-- What holds in the beginning and is preserved by every deed holds of every world that a history
leads to. -/
theorem Reached.induction {P : World → Prop} (hreached : w.Reached)
    (hstart : ∀ epoch files directory, (∀ d ∈ directory, Directory.slots d = []) →
      P { epoch, files, directory })
    (hafter : ∀ w d, P w → P (w.after d)) : P w := by
  obtain ⟨epoch, files, directory, deeds, hunused, rfl⟩ := hreached
  have hrun : ∀ (deeds : List Deed) (w : World), P w → P (w.afterAll deeds) := by
    intro deeds
    induction deeds with
    | nil => exact fun _ hw => hw
    | cons d deeds ih => exact fun w hw => ih _ (hafter w d hw)
  exact hrun deeds _ (hstart epoch files directory hunused)

/-- Whether a deed concerns the directory. -/
def Deed.isFiling : Deed → Bool
  | .lookup _ | .release _ | .closeAll | .register _ _ => true
  | _ => false

/-- Deeds that do not concern the directory. -/
theorem worksOut_after (w : World) {d : Deed} (hd : d.isFiling = false) :
    WorksOut w (w.after d) := by
  cases d with
  | openPerKey name config => exact worksOut_addOpened fun s hs => Space.fresh_perKey hs _
  | openSingleLock name config => exact worksOut_addOpened fun s hs => Space.fresh_singleLock hs _
  | openPersistent name path config => exact worksOut_addOpened fun s hs => fresh_openPersistent hs
  | insert space key value timeout placement =>
      exact .settle (works_insertUnsettled w space key value timeout placement)
  | insertSilently space key value timeout placement =>
      exact .settle (works_store w space key value timeout placement)
  | probe space mode key accepts =>
      exact .settle (works_probeUnsettled w space mode key accepts)
  | existsAny space keys => exact .of_spec (existsAny_spec w space keys)
  | sweep space gen => exact .of_spec (sweep_spec w space gen)
  | start space request => exact .of_spec (start_spec w space request)
  | fetch ticket =>
      obtain ⟨ended, heq⟩ := fetch_spec w ticket
      rw [after, heq]
      exact .of_spaces rfl rfl rfl id rfl
  | startFuture space request cancellable restoreKey =>
      exact .of_spec (startFuture_spec w space request cancellable restoreKey)
  | pollFuture ticket =>
      obtain ⟨futures, heq, hnumbered⟩ := pollFuture_spec w ticket
      rw [after, heq]
      exact .of_spaces rfl rfl rfl hnumbered rfl
  | abandonFuture ticket =>
      rcases abandonFuture_spec w ticket with ⟨futures, heq, hnumbered⟩ | hspec
      · rw [after, heq]
        exact .of_spaces rfl rfl rfl hnumbered rfl
      · exact .of_spec hspec
  | advance span => exact worksOut_advance w span
  | await ticket deadline => exact worksOut_ringUntil deadline (some ticket) _ w
  | newToken | newListener | clearNotes | replaceFiles => exact .of_spaces rfl rfl rfl id rfl
  | cancel token => exact .settle (works_cancelUnsettled w token)
  | addListener space key listener timeout =>
      exact worksOut_addListener w space key listener timeout
  | removeListener space key listener => exact worksOut_removeListener w space key listener
  | flush space => exact worksOut_flush w space
  | close space => exact worksOut_close w space
  | lookup | release | closeAll | register => cases hd

/-- Every deed lets the spaces go on. -/
theorem leads_after (w : World) (d : Deed) : Leads none w none (w.after d) := by
  cases hd : d.isFiling with
  | false => exact (worksOut_after w hd).works.toLeads
  | true =>
      cases d with
      | lookup text =>
          obtain ⟨v, hleads, heq⟩ := lookup_spec w text
          rw [after, heq]
          exact hleads.trans (works_settle v).toLeads
      | release text => exact leads_release w text
      | closeAll => exact leads_closeAll w
      | register scheme factory => exact .of_spaces rfl rfl rfl id
      | _ => cases hd

theorem leads_afterAll (w : World) (deeds : List Deed) : Leads none w none (w.afterAll deeds) := by
  induction deeds generalizing w with
  | nil => exact (Works.refl none w).toLeads
  | cons d deeds ih => exact (leads_after w d).trans (ih (w.after d))

/-- Every deed leaves a world at rest. -/
theorem Rests.after (hrests : w.Rests) (d : Deed) : (w.after d).Rests := by
  cases hd : d.isFiling with
  | false => exact (worksOut_after w hd).rests hrests
  | true =>
      cases d with
      | lookup text =>
          obtain ⟨v, hleads, heq⟩ := lookup_spec w text
          rw [World.after, heq]
          exact hrests.settle hleads
      | release text => exact hrests.release text
      | closeAll =>
          have hforgotten : ({ w with directory := some { w.directoryOf with slots := [] } } :
              World).Rests := hrests.of_spaces rfl rfl rfl id
          exact (worksOut_closeEach _ _).rests hforgotten
      | register scheme factory => exact hrests.of_spaces rfl rfl rfl id
      | _ => cases hd

/-- Every world that a history leads to is at rest. -/
theorem Reached.rests (hreached : w.Reached) : w.Rests := by
  refine hreached.induction (fun epoch files directory _ => ?_) fun w d hrests => hrests.after d
  have hnone : ∀ i : Nat, (#[] : Array Space)[i]? = none := fun i => rfl
  refine ⟨fun i s hspace => ?_, fun i s hspace => ?_, List.forall_mem_nil _⟩
  · cases (hnone i).symm.trans hspace
  · cases (hnone i).symm.trans hspace

end World

end TupleSpace
