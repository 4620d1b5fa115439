import TupleSpace.Proofs.Listeners.Chronicle
import TupleSpace.Proofs.Listeners.Notes
import TupleSpace.Proofs.Storing

/-!
# What becomes of listeners

A registration is accepted behind the others under its key, or refused.  It ends when its listener
is told of an insertion under the key, when somebody removes it, when its time is over, or when its
space is closed, whichever comes first; and nobody is told twice.  An insertion that succeeds takes
all registrations under its key and tells the listeners one after the other, when its entry is in
place; one that fails tells nobody.  What a listener does in turn, be it that it panics, neither
keeps the others from being told nor makes the insertion fail.
-/

namespace TupleSpace

/-- An insertion that is accepted puts an entry in place. -/
theorem Scene.Intact.stored_insert {σ κ α : Type} [DecidableEq κ] [Engine σ κ α]
    [Bookkeeping σ κ α] [LawfulEngine σ κ α] [SweepBooks σ κ α] {s : Scene σ κ α} {name : String}
    (hintact : s.Intact name) {key : κ} {value : α} {timeout : Nat} {placement : Placement}
    (hok : (Engine.insert s.now key value timeout placement s.monitor.engine).result = .ok ()) :
    ∃ e, Entry.withTimeout? value timeout s.now = some e ∧
      Engine.stored (Engine.insert s.now key value timeout placement s.monitor.engine).state key =
        ((⟨Engine.stored s.monitor.engine key⟩ : KeyQueue α).insert e placement).entries := by
  cases hopen : Engine.isClosed s.monitor.engine with
  | true =>
      obtain ⟨e, hrefused⟩ := LawfulEngine.insert_closed s.now key value timeout placement hopen
      rw [hrefused] at hok
      cases hok
  | false =>
      cases hentry : Entry.withTimeout? value timeout s.now with
      | none =>
          rw [LawfulEngine.insert_refused key placement hopen hentry] at hok
          cases hok
      | some e =>
          have hputs := LawfulEngine.insert_open key placement
            (hintact.orderly.open_of_isClosed hopen).sound hopen hentry
          refine ⟨e, rfl, ?_⟩
          rw [hputs.stored, Function.update_self]

namespace World

variable {w v : World} {i ticket : Nat} {key : String} {value : Json} {timeout : Nat}
  {placement : Placement} {s : Space}

/-! ## Time -/

/-- An alarm concerns no listener whose registration has not lapsed. -/
theorem Intact.untold_fireSpace (hintact : w.Intact) (i : Nat) (a : Alarm) :
    Untold w (w.onSpace i () fun s => (fireSpace w.now a s, ())).1 := by
  apply untold_onSpace
  intro s hspace
  have hregistry : ∀ r, (stampSpace w.stamp s).registry = some r → r.Intact := by
    intro r hr
    obtain ⟨r', hr', rfl⟩ := Option.map_eq_some_iff.mp hr
    exact (hintact.registry hspace hr').restamp w.stamp
  rw [← Space.audience_stampSpace w.now w.stamp s, ← Space.told_stampSpace w.stamp s]
  generalize stampSpace w.stamp s = x at hregistry ⊢
  unfold fireSpace
  split
  · exact ⟨rfl, Space.told_modify x fun m => m.told_fire w.now a.since⟩
  · refine ⟨?_, rfl⟩
    rw [Space.audience, Space.audience]
    cases hx : x.registry with
    | none => rfl
    | some r => exact (hregistry r hx).audience_fire w.now a.since

theorem Intact.accounts_ring (hintact : w.Intact) (i : Nat) (a : Alarm) :
    Accounts w [] (w.ring i a) := by
  have hlater := accounts_later w (Nat.le_max_left w.now a.instant)
  have hintact' := (works_later (c := none) w (Nat.le_max_left w.now a.instant)).toLeads.intact
    hintact
  exact hlater.trans ((hintact'.untold_fireSpace i a).trans (untold_settleSpace _ i)).accounts

theorem Intact.accounts_ringUntil (hintact : w.Intact) (until_ : Nat) (ticket : Option Nat)
    (fuel : Nat) : Accounts w [] (ringUntil until_ ticket fuel w) := by
  induction fuel generalizing w with
  | zero => exact (Untold.refl w).accounts
  | succ fuel ih =>
      unfold ringUntil
      split
      · exact (Untold.refl w).accounts
      · split
        · rename_i i a _
          split
          · exact (hintact.accounts_ring i a).trans
              (ih ((worksOut_ring w i a).works.toLeads.intact hintact))
          · exact (Untold.refl w).accounts
        · exact (Untold.refl w).accounts

theorem Intact.accounts_advance (hintact : w.Intact) (span : Nat) :
    Accounts w [] (w.advance span) :=
  (hintact.accounts_ringUntil (w.now + span) none (w.alarmBound span)).trans
    (accounts_later _ (Nat.le_max_left _ _))

/-! ## The happenings of a deed -/

/-- The happenings of going away without the outcome of a future, which puts back what was taken. -/
def abandonLog (w : World) (ticket : Nat) : List Happening :=
  match w.future? ticket with
  | none => []
  | some f =>
    match f.token, f.held? with
    | some token, some (key, value) =>
      ((w.leftBehind f).cancelUnsettled token).insertLog f.space key value 0 .head
    | _, _ => []

/-- The happenings of releasing a directory string. -/
def releaseLog (w : World) (text : String) : List Happening :=
  match SpaceUri.parse text with
  | .error _ => []
  | .ok u => (w.directoryOf.slot? u.text).elim [] w.closeLog

/-- A world whose directory has forgotten all spaces. -/
def forgotten (w : World) : World :=
  { w with directory := some { w.directoryOf with slots := [] } }

/-- The happenings of closing spaces one after the other. -/
def closeEachLog : List Nat → World → List Happening
  | [], _ => []
  | i :: rest, w => w.closeLog i ++ closeEachLog rest (w.close i).1

/-- The happenings of a deed. -/
def logOf (w : World) : Deed → List Happening
  | .insert space key value timeout placement => w.insertLog space key value timeout placement
  | .abandonFuture ticket => w.abandonLog ticket
  | .addListener space key listener timeout => w.addLog space key listener timeout
  | .removeListener space key listener => w.removeLog space key listener
  | .close space => w.closeLog space
  | .release text => w.releaseLog text
  | .closeAll => closeEachLog (w.directoryOf.slots.map Prod.snd) w.forgotten
  | _ => []

/-- The happenings of a history of deeds. -/
def logAll : World → List Deed → List Happening
  | _, [] => []
  | w, d :: deeds => w.logOf d ++ (w.after d).logAll deeds

theorem Intact.leftBehind (hintact : w.Intact) (f : Future) : (w.leftBehind f).Intact := by
  obtain ⟨futures, hleft⟩ := w.leftBehind_eq f
  rw [hleft]
  intro i s hspace
  obtain ⟨name, hholds⟩ := hintact i s hspace
  exact ⟨name, hspace, hholds.intact⟩

theorem Intact.accounts_abandonFuture (hintact : w.Intact) (ticket : Nat) :
    Accounts w (w.abandonLog ticket) (w.abandonFuture ticket) := by
  unfold abandonLog
  cases hfuture : w.future? ticket with
  | none =>
      rw [abandonFuture, hfuture]
      exact (Untold.refl w).accounts
  | some f =>
      simp only []
      cases htoken : f.token with
      | none =>
          have hleft : ∃ futures, w.abandonFuture ticket = { w with futures } := by
            simp only [abandonFuture, hfuture, htoken]
            split <;> exact ⟨_, rfl⟩
          obtain ⟨futures, heq⟩ := hleft
          rw [heq]
          exact accounts_of_spaces rfl rfl
      | some token =>
          obtain ⟨futures, hleft⟩ := w.leftBehind_eq f
          have huntold : Untold w (w.leftBehind f) := by
            rw [hleft]
            exact .of_spaces rfl rfl rfl
          have hcancelled := (huntold.trans (untold_cancelUnsettled _ token)).accounts
          have hintact' := (works_cancelUnsettled (c := none) _ token).toLeads.intact
            (hintact.leftBehind f)
          rw [abandonFuture_eq hfuture htoken]
          cases hheld : f.held? with
          | none =>
              rw [putBack_of_not_held hheld]
              exact hcancelled.trans (untold_settle _).accounts
          | some taken =>
              obtain ⟨key, value⟩ := taken
              rw [putBack_of_held hheld]
              have hput := hintact'.accounts_insertUnsettled f.space key value 0 .head
              exact (hcancelled.trans hput).before_untold (untold_settle _)

theorem Intact.accounts_close (hintact : w.Intact) (i : Nat) :
    Accounts w (w.closeLog i) (w.close i).1 :=
  (hintact.accounts_closeUnsettled i).before_untold (untold_settle _)

theorem Intact.accounts_closeEach (hintact : w.Intact) (spaces : List Nat) :
    Accounts w (closeEachLog spaces w) (closeEach spaces w).1 := by
  induction spaces generalizing w with
  | nil => exact (Untold.refl w).accounts
  | cons i rest ih =>
      have hboth := (hintact.accounts_close i).trans
        (ih ((worksOut_close w i).works.toLeads.intact hintact))
      unfold closeEach
      simp only []
      split <;> exact hboth

/-- What the directory remembers does not concern listeners. -/
theorem Intact.of_directory (hintact : w.Intact) (directory : Option Directory) :
    Intact { w with directory } := by
  intro i s hspace
  obtain ⟨name, hholds⟩ := hintact i s hspace
  exact ⟨name, hspace, hholds.intact⟩

theorem Intact.accounts_release (hintact : w.Intact) (text : String) :
    Accounts w (w.releaseLog text) (w.release text).1 := by
  rcases release_cases w text with ⟨hsame, hnone⟩ | ⟨u, i, hparse, hslot, heq⟩
  · have hlog : w.releaseLog text = [] := by
      unfold releaseLog
      split
      · rfl
      · rename_i u hparse
        rw [hnone u hparse]
        rfl
    rw [hlog, hsame]
    exact (Untold.refl w).accounts
  · have hlog : w.releaseLog text = w.closeLog i := by
      simp only [releaseLog, hparse, hslot, Option.elim_some]
    have hforgotten : Accounts w [] (w.evicted u.text) := accounts_of_spaces rfl rfl
    have hintact' : (w.evicted u.text).Intact := hintact.of_directory _
    rw [hlog, heq]
    exact hforgotten.trans (hintact'.accounts_close i)

/-- The happenings of a deed account for what it does to registrations. -/
theorem Intact.accounts_after (hintact : w.Intact) (d : Deed) :
    Accounts w (w.logOf d) (w.after d) := by
  cases d with
  | openPerKey name config => exact (untold_addOpened fun s hs => Space.quiet_perKey hs).accounts
  | openSingleLock name config =>
      exact (untold_addOpened fun s hs => Space.quiet_singleLock hs).accounts
  | openPersistent name path config =>
      exact (untold_addOpened fun s hs => quiet_openPersistent hs).accounts
  | insert space key value timeout placement =>
      exact (hintact.accounts_insertUnsettled space key value timeout placement).before_untold
        (untold_settle _)
  | insertSilently space key value timeout placement =>
      exact (untold_insertSilently w space key value timeout placement).accounts
  | probe space mode key accepts => exact (untold_probe w space mode key accepts).accounts
  | existsAny space keys => exact (untold_existsAny w space keys).accounts
  | sweep space gen => exact (untold_sweep w space gen).accounts
  | start space request => exact (untold_start w space request).accounts
  | fetch ticket => exact (untold_fetch w ticket).accounts
  | startFuture space request cancellable restoreKey =>
      exact (untold_startFuture w space request cancellable restoreKey).accounts
  | pollFuture ticket => exact (untold_pollFuture w ticket).accounts
  | abandonFuture ticket => exact hintact.accounts_abandonFuture ticket
  | advance span => exact hintact.accounts_advance span
  | await ticket deadline => exact hintact.accounts_ringUntil deadline (some ticket) _
  | newToken | newListener | clearNotes | replaceFiles | register =>
      exact accounts_of_spaces rfl rfl
  | cancel token => exact ((untold_cancelUnsettled w token).trans (untold_settle _)).accounts
  | addListener space key listener timeout =>
      exact hintact.accounts_addListener space key listener timeout
  | removeListener space key listener => exact hintact.accounts_removeListener space key listener
  | flush space => exact (untold_flush w space).accounts
  | close space => exact hintact.accounts_close space
  | lookup text => exact (untold_lookup w text).accounts
  | release text => exact hintact.accounts_release text
  | closeAll =>
      have hforgotten : Accounts w [] w.forgotten := accounts_of_spaces rfl rfl
      have hintact' : w.forgotten.Intact := hintact.of_directory _
      exact hforgotten.trans (hintact'.accounts_closeEach _)

theorem Intact.accounts_afterAll (hintact : w.Intact) (deeds : List Deed) :
    Accounts w (w.logAll deeds) (w.afterAll deeds) := by
  induction deeds generalizing w with
  | nil => exact (Untold.refl w).accounts
  | cons d deeds ih =>
      exact (hintact.accounts_after d).trans (ih ((leads_after w d).intact hintact))

/-! ## Insertions -/

/-- An insertion that is accepted has put its entry in place. -/
theorem Intact.stored_store (hintact : w.Intact) (hspace : w.spaces[i]? = some s)
    (hok : (w.store i key value timeout placement).2 = .ok ()) :
    ∃ e s', Entry.withTimeout? value timeout w.now = some e ∧
      (w.store i key value timeout placement).1.spaces[i]? = some s' ∧
      s'.stored key = ((⟨s.stored key⟩ : KeyQueue Json).insert e placement).entries := by
  obtain ⟨name, hholds⟩ := hintact i s hspace
  have hbacking := hholds.intact.backing
  have hstored := spaces_onSpace w i (.ok () : Except SpaceError Unit) (fun s : Space =>
    let (backing, b) := s.backing.modify fun m =>
      m.perform (Engine.insert w.now key value timeout placement)
    ({ s with backing }, b)) i
  rw [if_pos rfl, hspace, Option.map_some] at hstored
  have hresult := onSpace_result (.ok () : Except SpaceError Unit) (fun s : Space =>
    let (backing, b) := s.backing.modify fun m =>
      m.perform (Engine.insert w.now key value timeout placement)
    ({ s with backing }, b)) hspace
  replace hok := hresult.symm.trans hok
  obtain ⟨b, registry, storage⟩ := s
  cases b with
  | perKey m =>
      obtain ⟨e, hentry, hplaced⟩ := Scene.Intact.stored_insert hbacking hok
      exact ⟨e, _, hentry, hstored, hplaced⟩
  | singleLock m =>
      obtain ⟨e, hentry, hplaced⟩ := Scene.Intact.stored_insert hbacking hok
      exact ⟨e, _, hentry, hstored, hplaced⟩

/-- Taking the listeners under a key does not concern entries. -/
theorem stored_drainListeners (hspace : w.spaces[i]? = some s) (key : String) :
    ∃ s', (w.drainListeners i key).1.spaces[i]? = some s' ∧ s'.stored = s.stored := by
  unfold drainListeners
  rw [spaces_onSpace, if_pos rfl, hspace, Option.map_some]
  refine ⟨_, rfl, ?_⟩
  have hsame : (stampSpace w.stamp s).stored = s.stored := by
    obtain ⟨b, registry, storage⟩ := s
    cases b <;> rfl
  rw [← hsame]
  cases hregistry : (stampSpace w.stamp s).registry with
  | none => rfl
  | some r => rfl

/-- An insertion succeeds, and listeners are told of it.  When they are told, whoever is registered
under the key has been taken from the registrations, and the entry is in place. -/
structure Announces (w : World) (i : Nat) (key : String) (value : Json) (timeout : Nat)
    (placement : Placement) (u : World) : Prop where
  intact : u.Intact
  taken : Registers w i (Function.update (w.audience i) key []) u
  stored : ∀ s, w.spaces[i]? = some s → ∃ e s', Entry.withTimeout? value timeout w.now = some e ∧
    u.spaces[i]? = some s' ∧
    s'.stored key = ((⟨s.stored key⟩ : KeyQueue Json).insert e placement).entries
  /-- Nobody has noted anything yet. -/
  unnoted : w.Adds [] u
  /-- Everybody who was registered is told, one after the other, the earliest first. -/
  told : w.insertUnsettled i key value timeout placement =
    (((w.audience i key).map Entry.value).foldl (tellOne announce i key value) u, .ok ())

/-- If nobody is registered for a key, lapsed registrations included, then nobody is told. -/
theorem audience_of_not_watched (hunwatched : w.isWatched i key = false) :
    w.audience i key = [] := by
  rw [isWatched] at hunwatched
  cases hspace : w.spaces[i]? with
  | none => rw [audience_of_none hspace]
  | some s =>
      rw [audience_of_some hspace, Space.audience]
      rw [hspace, Option.bind_some] at hunwatched
      cases hregistry : s.registry with
      | none => rfl
      | some r =>
          rw [hregistry, Option.any_some] at hunwatched
          have hnone : (Engine.stored r.monitor.engine key).length = 0 :=
            Nat.eq_zero_of_not_pos (of_decide_eq_false hunwatched)
          rw [Option.elim_some, Registry.audience, Store.live, List.length_eq_zero_iff.mp hnone]
          rfl

/-- An insertion that is accepted tells everybody who is registered, one after the other. -/
theorem Intact.announces (hintact : w.Intact)
    (hok : (w.store i key value timeout placement).2 = .ok ()) :
    ∃ u, w.Announces i key value timeout placement u := by
  have hworks := works_store (c := none) w i key value timeout placement
  have hintact' := hworks.toLeads.intact hintact
  have huntold := untold_store w i key value timeout placement
  have hstored := fun s hspace => hintact.stored_store (s := s) hspace hok
  have hunnoted : w.Adds [] (w.store i key value timeout placement).1 := adds_onSpace ..
  have hinserted := insertUnsettled_eq hintact i key value timeout placement
  rw [storeTelling_eq, hok, show Except.isOk (.ok () : Except SpaceError Unit) = true from rfl,
    Bool.true_and] at hinserted
  generalize w.store i key value timeout placement = stored at *
  obtain ⟨v, result⟩ := stored
  cases hok
  simp only [] at *
  cases hwatched : w.isWatched i key with
  | true =>
      have hdrained := works_drainListeners (c := none) v i key
      obtain ⟨_, hregisters⟩ := hintact'.drainListeners_spec i key
      rw [hwatched, if_pos rfl, hintact'.announce_eq, huntold.audience] at hinserted
      refine ⟨(v.drainListeners i key).1, hdrained.toLeads.intact hintact',
        huntold.audience ▸ hregisters.after_untold huntold, fun s hspace => ?_,
        hunnoted.before (adds_onSpace ..), hinserted⟩
      obtain ⟨e, s', hentry, hspace', hplaced⟩ := hstored s hspace
      obtain ⟨s'', hspace'', hsame⟩ := stored_drainListeners hspace' key
      exact ⟨e, s'', hentry, hspace'', hsame ▸ hplaced⟩
  | false =>
      have hnobody := audience_of_not_watched hwatched
      rw [hwatched, if_neg Bool.false_ne_true] at hinserted
      refine ⟨v, hintact', .of_untold huntold ?_, hstored, hunnoted, ?_⟩
      · rw [← hnobody, Function.update_eq_self]
      · rw [hinserted, hnobody]
        rfl

/-- Of an insertion that is accepted everybody who is registered hears the key and the value. -/
theorem Intact.hears (hintact : w.Intact)
    (hok : (w.store i key value timeout placement).2 = .ok ()) :
    ∃ heard, Heard w.listeners key value ((w.audience i key).map Entry.value) heard ∧
      w.Adds heard (w.insert i key value timeout placement).1 := by
  obtain ⟨u, hannounces⟩ := hintact.announces hok
  obtain ⟨heard, hheard, htold⟩ := adds_tellEach
    (fun w => adds_tell (w.registrations + 1) w) u i key value ((w.audience i key).map Entry.value)
  rw [hannounces.unnoted.listeners] at hheard
  have hinserted : w.Adds heard (w.insertUnsettled i key value timeout placement).1 := by
    rw [hannounces.told]
    exact hannounces.unnoted.trans htold
  exact ⟨heard, hheard, hinserted.before (adds_settle _)⟩

/-- Listeners have no say in whether an insertion succeeds. -/
theorem storeTelling_result (tell : World → Nat → String → Json → World) (w : World) (i : Nat)
    (key : String) (value : Json) (timeout : Nat) (placement : Placement) :
    (w.storeTelling tell i key value timeout placement).2 =
      (w.store i key value timeout placement).2 := by
  rw [storeTelling_eq]
  generalize w.store i key value timeout placement = stored
  obtain ⟨u, result⟩ := stored
  cases result with
  | error e => rfl
  | ok _ => split <;> rfl

theorem storeTelling_of_error {e : SpaceError}
    (hfails : (w.store i key value timeout placement).2 = .error e)
    (tell : World → Nat → String → Json → World) :
    w.storeTelling tell i key value timeout placement = w.store i key value timeout placement := by
  rw [storeTelling_eq, hfails]
  rfl

/-! ## What listeners can rely on -/

/-- What holds of registrations in a world. -/
structure HeedsListeners (w : World) : Prop where
  /-- A new registration goes behind the others under its key, or is refused. -/
  adds : ∀ i key listener timeout, ∃ registered,
    w.Enrols i key listener timeout (w.audience i) (w.addListener i key listener timeout).2
        registered ∧
      Registers w i registered (w.addListener i key listener timeout).1
  /-- A removal succeeds if and only if its listener is registered under the key, and then removes
  the earliest of its registrations. -/
  removes : ∀ i key listener,
    ((w.removeListener i key listener).2 = .ok true ↔
        ∃ e ∈ w.audience i key, e.value = listener) ∧
      Registers w i
        (Function.update (w.audience i) key
          ((w.audience i key).eraseP fun e => e.value == listener))
        (w.removeListener i key listener).1
  /-- Whatever listeners do, an insertion succeeds if and only if its entry can be stored. -/
  result : ∀ i key value timeout placement,
    (w.insert i key value timeout placement).2 = (w.store i key value timeout placement).2
  /-- Of an insertion that fails nobody is told, and everybody stays registered. -/
  fails : ∀ i key value timeout placement e,
    (w.store i key value timeout placement).2 = .error e →
      Untold w (w.insert i key value timeout placement).1
  /-- Of an insertion that succeeds everybody is told who is registered under the key. -/
  tells : ∀ i key value timeout placement, (w.store i key value timeout placement).2 = .ok () →
    ∃ u, w.Announces i key value timeout placement u
  /-- Each of them hears the key and the value, the earliest first, and does what it does before the
  next one hears of it. -/
  hears : ∀ i key value timeout placement, (w.store i key value timeout placement).2 = .ok () →
    ∃ heard, Heard w.listeners key value ((w.audience i key).map Entry.value) heard ∧
      w.Adds heard (w.insert i key value timeout placement).1
  /-- The calls that an insertion wakes run afterwards, and are nothing to listeners. -/
  wakes : ∀ i key value timeout placement,
    Untold (w.insertUnsettled i key value timeout placement).1
      (w.insert i key value timeout placement).1
  /-- An insertion by a listener is like any other. -/
  nests : ∀ i key value timeout placement,
    w.storeTelling announce i key value timeout placement =
      w.insertUnsettled i key value timeout placement
  /-- All this holds for a listener that has been called, too. -/
  called : ∀ i key value l, (w.called i key value l).Intact
  /-- It still holds after the listener, whatever that did. -/
  goesOn : ∀ i key value listener, (tellOne announce i key value w listener).Intact
  /-- Whatever is done next, what happens to registrations accounts for them. -/
  accounts : ∀ deeds, Accounts w (w.logAll deeds) (w.afterAll deeds)

/-- What becomes of registrations in all worlds that a history leads to, and in those in which
listeners act in the middle of an insertion. -/
theorem registrations_are_accounted_for :
    (∀ w : World, w.Reached → w.Intact) ∧ ∀ w : World, w.Intact → w.HeedsListeners := by
  refine ⟨fun w hreached => hreached.rests.intact, fun w hintact => ?_⟩
  refine
    { adds := hintact.addListener_spec
      removes := hintact.removeListener_spec
      result := fun i key value timeout placement =>
        storeTelling_result _ w i key value timeout placement
      fails := fun i key value timeout placement e hfails => ?_
      tells := fun i key value timeout placement hok => hintact.announces hok
      hears := fun i key value timeout placement hok => hintact.hears hok
      wakes := fun i key value timeout placement => untold_settle _
      nests := fun i key value timeout placement =>
        (insertUnsettled_eq hintact i key value timeout placement).symm
      called := hintact.called
      goesOn := fun i key value listener =>
        (works_tellOne (fun u => works_tell _ u) i key value w listener).toLeads.intact hintact
      accounts := hintact.accounts_afterAll }
  have hstored := (untold_store w i key value timeout placement).trans (untold_settle _)
  rwa [← storeTelling_of_error hfails] at hstored

set_option maxRecDepth 100000 in
/-- One of five registrations lapses and one is removed.  Two of the others are told of an
insertion, note what they are told, the earlier one first, and one of them panics over it.  The last
is dropped when the space is closed. -/
theorem registrations_are_accounted_for_of_five :
    let listener (name : String) (reaction : Reaction) : Deed := .newListener ⟨name, 0, reaction⟩
    let registers (key : String) (listener timeout : Nat) : Deed :=
      .addListener 0 key listener timeout
    let deeds : List Deed :=
      [.openPerKey "space" {}, listener "notes" .note, listener "panics" .panic,
        registers "a" 0 0, registers "a" 1 0, registers "a" 0 (Span.ofMillis 10), registers "a" 0 0,
        registers "b" 0 0, .removeListener 0 "a" 0, .advance (Span.ofMillis 20)]
    let w := afterAll { epoch := ⟨0, 0, 0⟩ } deeds
    let told := w.after (.insert 0 "a" .null 0 .tail)
    let heard (note : Note) : Option (String × String × String) :=
      match note with
      | .told listener key value => some (listener, key, value.compact)
      | .took .. => none
    w.HeedsListeners ∧ (w.store 0 "a" .null 0 .tail).2.isOk = true ∧
      (w.audience 0 "a").map Entry.value = [1, 0] ∧ told.audience 0 "a" = [] ∧
      w.notes.map heard = [] ∧
      told.notes.map heard = [some ("panics", "a", "null"), some ("notes", "a", "null")] ∧
      told.told 0 = (2, 1) ∧ (told.audience 0 "b").map Entry.value = [0] ∧
      (told.after (.close 0)).audience 0 "b" = [] := by
  intro listener registers deeds w told heard
  obtain ⟨hintact, hheeds⟩ := registrations_are_accounted_for
  have hreached : w.Reached := ⟨⟨0, 0, 0⟩, {}, none, deeds, nofun, rfl⟩
  have hruns : (w.store 0 "a" .null 0 .tail).2.isOk = true ∧
      (w.audience 0 "a").map Entry.value = [1, 0] ∧ told.audience 0 "a" = [] ∧
      w.notes.map heard = [] ∧
      told.notes.map heard = [some ("panics", "a", "null"), some ("notes", "a", "null")] ∧
      told.told 0 = (2, 1) ∧ (told.audience 0 "b").map Entry.value = [0] ∧
      (told.after (.close 0)).audience 0 "b" = [] := by
    decide +kernel
  exact ⟨hheeds w (hintact w hreached), hruns⟩

end World

end TupleSpace
