import TupleSpace.Proofs.Worlds.Leads
import TupleSpace.World.Futures
import TupleSpace.World.Lookup

/-!
# What the operations of a world do to its spaces

Every operation lets the spaces of the world go on.  Listeners are told of insertions and may insert
in turn, so that this is shown by induction on how deep insertions nest; a token is cancelled in all
spaces at once; and a lookup may look up other spaces on its way.
-/

namespace TupleSpace

namespace World

variable {w : World} {c : Option Nat} {i : Nat} {name : String} {s : Space}

/-! ## Insertions and listeners -/

theorem works_store (w : World) (i : Nat) (key : String) (value : Json) (timeout : Nat)
    (placement : Placement) : Works c w c (w.store i key value timeout placement).1 :=
  works_onMonitor_self _ fun m _ => (Scene.mk w.now w.cancelled m _).leads_step
    (.insert key value timeout placement) nofun

theorem works_probeUnsettled (w : World) (i : Nat) (mode : Mode) (key : String)
    (accepts : Json → Bool) : Works c w c (w.probeUnsettled i mode key accepts).1 :=
  works_onMonitor_self _ fun _ hintact => hintact.orderly.leads_probe mode key accepts

/-- Whoever may go on has found the space open. -/
theorem isClosed_of_ensureOpen (hok : w.ensureOpen i = .ok ()) (hspace : w.spaces[i]? = some s) :
    s.isClosed = false := by
  simp only [ensureOpen, hspace] at hok
  split at hok
  · cases hok
  · rename_i hopen
    exact Bool.eq_false_iff.mpr hopen

theorem works_openRegistry (hok : w.ensureOpen i = .ok ()) :
    Works c w c (w.openRegistry i).1 := by
  apply works_onSpace _ fun _ _ => rfl
  intro name s hspace hintact
  have hopen := (Space.isClosed_stampSpace w.stamp s).trans (isClosed_of_ensureOpen hok hspace)
  cases hregistry : (stampSpace w.stamp s).registry with
  | some r => exact ⟨hintact, .refl _⟩
  | none =>
      simp only []
      split
      · exact ⟨hintact, .refl _⟩
      · rename_i r hnew
        refine hintact.reregister ?_ (fun _ hclosed => ?_) fun _ _ => ?_
        · rintro x ⟨⟩
          exact .open hnew
        · exact Bool.noConfusion (hopen.symm.trans hclosed)
        · rintro x ⟨⟩
          exact Registry.isClosed_open? hnew

/-- An operation on the registrations of a space, if there are any. -/
theorem works_onRegistry {β : Type} (missing : β) {f : Registry → Registry × β}
    (hf : ∀ r : Registry, r.Intact →
      (f r).1.Intact ∧ (f r).1.isClosed = r.isClosed) :
    Works c w c (w.onSpace i missing fun s =>
      match s.registry with
      | none => (s, missing)
      | some r =>
        let (r, b) := f r
        ({ s with registry := some r }, b)).1 := by
  apply works_onSpace _ fun _ _ => rfl
  intro name s _ hintact
  cases hregistry : (stampSpace w.stamp s).registry with
  | none => exact ⟨hintact, .refl _⟩
  | some r =>
      obtain ⟨hr, hclosed⟩ := hf r (hintact.registry r hregistry)
      exact hintact.onRegistry hregistry hr hclosed

theorem works_addListener (w : World) (i : Nat) (key : String) (listener timeout : Nat) :
    Works c w c (w.addListener i key listener timeout).1 := by
  unfold addListener
  split
  · exact .refl c w
  · rename_i hok
    have hregistry := works_openRegistry (c := c) hok
    split
    · rename_i w' e heq
      rwa [heq] at hregistry
    · rename_i w' heq
      rw [heq] at hregistry
      exact hregistry.trans (works_onRegistry _ (f := fun r => r.add w'.now key listener timeout)
        fun r hr => hr.add w'.now key listener timeout)

theorem works_removeListener (w : World) (i : Nat) (key : String) (listener : Nat) :
    Works c w c (w.removeListener i key listener).1 := by
  unfold removeListener
  split
  · exact .refl c w
  · exact works_onRegistry _ (f := fun r => r.remove w.now key listener)
      fun r hr => hr.remove w.now key listener

theorem works_drainListeners (w : World) (i : Nat) (key : String) :
    Works c w c (w.drainListeners i key).1 :=
  works_onRegistry [] (f := fun r => r.drain w.now key) fun _ hr => hr.drain w.now key

theorem works_countEvent (w : World) (i : Nat) (panicked : Bool) :
    Works c w c (w.countEvent i (if panicked then .listenerPanic else .listenerFired)) :=
  works_onSpace () (f := fun s =>
    (s.count (if panicked then .listenerPanic else .listenerFired), ())) (fun _ _ => rfl)
    fun _ hintact => hintact.told panicked

/-- An insertion that tells listeners in a way that lets the spaces go on. -/
theorem works_storeTelling {tell : World → Nat → String → Json → World}
    (htell : ∀ w i key value, Works none w none (tell w i key value)) (w : World) (i : Nat)
    (key : String) (value : Json) (timeout : Nat) (placement : Placement) :
    Works none w none (w.storeTelling tell i key value timeout placement).1 := by
  have hstored := works_store (c := none) w i key value timeout placement
  unfold storeTelling
  simp only []
  generalize w.store i key value timeout placement = stored at hstored ⊢
  obtain ⟨w', result⟩ := stored
  cases result with
  | error e => exact hstored
  | ok _ =>
      simp only []
      split
      · exact hstored.trans (htell w' i key value)
      · exact hstored

theorem works_tellOne {tell : World → Nat → String → Json → World}
    (htell : ∀ w i key value, Works none w none (tell w i key value)) (i : Nat) (key : String)
    (value : Json) (w : World) (listener : Nat) :
    Works none w none (tellOne tell i key value w listener) := by
  have hfired := works_countEvent (c := none) w i false
  unfold tellOne
  simp only []
  split
  · exact hfired
  · rename_i l _
    have hnoted : Works none w none
        ((w.countEvent i .listenerFired).note (.told l.name key value)) :=
      hfired.trans (.of_spaces rfl rfl rfl id rfl)
    refine hnoted.trans ?_
    generalize (w.countEvent i .listenerFired).note (.told l.name key value) = noted
    cases l.reaction with
    | note => exact .refl none noted
    | panic => exact works_countEvent noted i true
    | close => exact works_closeUnsettled noted l.home
    | again => exact works_addListener noted l.home key listener 0
    | take =>
        exact (works_probeUnsettled noted l.home .take key fun _ => true).trans
          (.of_spaces rfl rfl rfl id rfl)
    | out k v => exact works_storeTelling htell noted l.home k v 0 .tail

/-- Insertions by listeners nest at most so deep. -/
theorem works_tell (depth : Nat) (w : World) (i : Nat) (key : String) (value : Json) :
    Works none w none (tell depth w i key value) := by
  induction depth generalizing w i key value with
  | zero => exact .refl none w
  | succ depth ih =>
      exact (works_drainListeners w i key).trans (Works.foldl (works_tellOne ih i key value) _ _)

theorem works_insertUnsettled (w : World) (i : Nat) (key : String) (value : Json) (timeout : Nat)
    (placement : Placement) :
    Works none w none (w.insertUnsettled i key value timeout placement).1 :=
  works_storeTelling (works_tell _) w i key value timeout placement

/-! ## Calls -/

theorem existsAny_spec (w : World) (i : Nat) (keys : List String) :
    ∃ v, Works none w none v ∧ (w.existsAny i keys).1 = v.settle := by
  have hlooked : Works none w none
      (w.onMonitor i (.ok false) fun m => m.perform (Engine.existsAny w.now keys)).1 :=
    works_onMonitor_self _ fun m _ =>
      (Scene.mk w.now w.cancelled m _).leads_step (.existsAny keys) nofun
  exact ⟨_, hlooked, rfl⟩

theorem sweep_spec (w : World) (i : Nat) (gen : Generation) :
    ∃ v, Works none w none v ∧ (w.sweep i gen).1 = v.settle := by
  have hswept : Works none w none
      (w.onMonitor i {} fun m => m.perform (Engine.sweep w.now gen)).1 :=
    works_onMonitor_self _ fun m _ =>
      (Scene.mk w.now w.cancelled m _).leads_step (.sweep gen) nofun
  exact ⟨_, hswept, rfl⟩

/-- A request ends or begins to wait, and then whatever it has made ready runs. -/
theorem submit_spec (w : World) (i ticket : Nat) (q : Request String Json) :
    ∃ v, Works none w none v ∧ w.submit i ticket q = v.settle := by
  have hsubmitted : Works none w none
      (w.onMonitor i none fun m => m.submit w.now w.cancelled ticket q).1 :=
    works_onMonitor_self _ fun m _ =>
      (Scene.mk w.now w.cancelled m _).leads_step (.call ticket q) nofun
  unfold submit
  generalize w.onMonitor i none (fun m => m.submit w.now w.cancelled ticket q) = submitted
    at hsubmitted ⊢
  obtain ⟨w', outcome⟩ := submitted
  cases outcome with
  | none => exact ⟨w', hsubmitted, rfl⟩
  | some o => exact ⟨w'.deliver ⟨ticket, o⟩, hsubmitted.trans (works_deliver w' _), rfl⟩

theorem Numbered.newTicket (hnumbered : w.Numbered) : w.newTicket.1.Numbered :=
  fun f hf => Nat.lt_succ_of_lt (hnumbered f hf)

theorem start_spec (w : World) (i : Nat) (q : Request String Json) :
    ∃ v, Works none w none v ∧ (w.start i q).1 = v.settle := by
  obtain ⟨v, hworks, heq⟩ := submit_spec w.newTicket.1 i w.nextTicket q
  have hticket : Works none w none w.newTicket.1 := .of_spaces rfl rfl rfl Numbered.newTicket rfl
  exact ⟨v, hticket.trans hworks, heq⟩

theorem fetch_spec (w : World) (ticket : Nat) : ∃ ended, (w.fetch ticket).1 = { w with ended } := by
  unfold fetch
  split
  · exact ⟨w.ended, rfl⟩
  · exact ⟨_, rfl⟩

/-! ## Time -/

/-- The clock moves forward. -/
theorem works_later (w : World) {now : Nat} (hle : w.now ≤ now) :
    Works c w c { w with now } := by
  refine ⟨⟨Nat.le_refl _, fun {i name s} hholds => ?_, fun hge hspace => ?_, id⟩, rfl⟩
  · exact ⟨s, ⟨hholds.space, hholds.intact.advance hle⟩, .refl s⟩
  · rw [Array.getElem?_eq_none hge] at hspace
    cases hspace

/-! ## Tokens -/

/-- Announcing the cancellation of a token in the spaces with the first numbers. -/
theorem announced (w : World) (token : Nat) {cancelled : List Nat}
    (hfewer : cancelled ⊆ token :: w.cancelled) {n : Nat} (hn : n ≤ w.spaces.size) :
    ∃ spaces stamp,
      (List.range n).foldl
          (fun v i => (v.onMonitor i () fun m => (m.cancel token, ())).1) { w with cancelled } =
        { w with cancelled, spaces, stamp } ∧
      spaces.size = w.spaces.size ∧
      (∀ i, n ≤ i → spaces[i]? = w.spaces[i]?) ∧
      ∀ {i name s}, i < n → w.Holds c i name s → ∃ s', spaces[i]? = some s' ∧
        s'.Intact name w.now cancelled (decide (c = some i)) ∧ s.Becomes s' := by
  induction n with
  | zero => exact ⟨w.spaces, w.stamp, rfl, rfl, fun _ _ => rfl, fun hi => absurd hi (by omega)⟩
  | succ n ih =>
      obtain ⟨spaces, stamp, heq, hsize, hlater, hdone⟩ := ih (by omega)
      rw [List.range_succ, List.foldl_concat, heq]
      obtain ⟨spaces', stamp', heq', hsize', hself, helse⟩ := onSpace_spec
        { w with cancelled, spaces, stamp } n () fun s =>
          let (backing, b) := s.backing.modify fun m => (m.cancel token, ())
          ({ s with backing }, b)
      refine ⟨spaces', stamp', heq', hsize'.trans hsize, fun i hi => ?_, ?_⟩
      · rw [helse i (by omega)]
        exact hlater i (by omega)
      · intro i name s hi hholds
        by_cases hlast : i = n
        · subst hlast
          obtain ⟨hstamped, hbecomes⟩ := hholds.intact.restamp stamp
          obtain ⟨hcancelled, hbecomes'⟩ := hstamped.cancel hfewer
          have hspace : spaces[i]? = some s := (hlater i (Nat.le_refl i)).trans hholds.space
          exact ⟨_, hself s hspace, hcancelled, hbecomes.trans hbecomes'⟩
        · obtain ⟨s', hspace', hintact, hbecomes⟩ := hdone (by omega) hholds
          exact ⟨s', (helse i hlast).trans hspace', hintact, hbecomes⟩

theorem works_cancelUnsettled (w : World) (token : Nat) :
    Works c w c (w.cancelUnsettled token) := by
  have hfewer : (if token ∈ w.cancelled then w.cancelled else token :: w.cancelled) ⊆
      token :: w.cancelled := by
    split
    · exact List.subset_cons_self _ _
    · exact List.Subset.refl _
  obtain ⟨spaces, stamp, heq, hsize, _, hdone⟩ := announced (c := c) w token hfewer (Nat.le_refl _)
  unfold cancelUnsettled
  simp only []
  rw [heq]
  refine ⟨⟨hsize.ge, fun {i name s} hholds => ?_, fun {i s} hle hspace => ?_, id⟩, rfl⟩
  · obtain ⟨hlt, _⟩ := Array.getElem?_eq_some_iff.mp hholds.space
    obtain ⟨s', hspace', hintact, hbecomes⟩ := hdone hlt hholds
    exact ⟨s', ⟨hspace', hintact⟩, hbecomes⟩
  · rw [Array.getElem?_eq_none (hsize ▸ hle)] at hspace
    cases hspace

/-! ## Futures -/

/-- A world that has noted a future whose request is about to start. -/
def expecting (w : World) (i nextToken : Nat) (token : Option Nat) (restoreKey : Option String) :
    World :=
  { w.newTicket.1 with
    nextToken
    futures := w.futures ++ [{ ticket := w.nextTicket, space := i, token, restoreKey }] }

theorem Numbered.expecting (hnumbered : w.Numbered) (i nextToken : Nat) (token : Option Nat)
    (restoreKey : Option String) : (w.expecting i nextToken token restoreKey).Numbered := by
  intro f hf
  rcases List.mem_append.mp hf with hbefore | hlast
  · exact Nat.lt_succ_of_lt (hnumbered f hbefore)
  · rw [List.mem_singleton.mp hlast]
    exact Nat.lt_succ_self w.nextTicket

theorem startFuture_eq (w : World) (i : Nat) (q : Option Nat → Request String Json)
    (cancellable : Bool) (restoreKey : Option String) :
    ∃ nextToken token, (w.startFuture i q cancellable restoreKey).1 =
      (w.expecting i nextToken token restoreKey).submit i w.nextTicket (q token) := by
  cases cancellable <;> exact ⟨_, _, rfl⟩

theorem startFuture_spec (w : World) (i : Nat) (q : Option Nat → Request String Json)
    (cancellable : Bool) (restoreKey : Option String) :
    ∃ v, Works none w none v ∧ (w.startFuture i q cancellable restoreKey).1 = v.settle := by
  obtain ⟨nextToken, token, heq⟩ := startFuture_eq w i q cancellable restoreKey
  obtain ⟨v, hworks, heq'⟩ :=
    submit_spec (w.expecting i nextToken token restoreKey) i w.nextTicket (q token)
  have hnoted : Works none w none (w.expecting i nextToken token restoreKey) :=
    .of_spaces rfl rfl rfl (fun hnumbered => hnumbered.expecting i nextToken token restoreKey) rfl
  exact ⟨v, hnoted.trans hworks, heq.trans heq'⟩

theorem pollFuture_spec (w : World) (ticket : Nat) :
    ∃ futures, (w.pollFuture ticket).1 = { w with futures } ∧
      (w.Numbered → Numbered { w with futures }) := by
  unfold pollFuture
  split
  · exact ⟨w.futures, rfl, id⟩
  · exact ⟨_, rfl, fun hnumbered => hnumbered.dropFuture ticket⟩

theorem works_putBack (w : World) (f : Future) : Works none w none (w.putBack f) := by
  unfold putBack
  split
  · exact works_insertUnsettled ..
  · exact .refl none w

/-- A future goes away at once, or its token is cancelled and its value put back. -/
theorem abandonFuture_spec (w : World) (ticket : Nat) :
    (∃ futures, w.abandonFuture ticket = { w with futures } ∧
      (w.Numbered → Numbered { w with futures })) ∨
      ∃ v, Works none w none v ∧ w.abandonFuture ticket = v.settle := by
  unfold abandonFuture
  split
  · exact .inl ⟨w.futures, rfl, id⟩
  · rename_i f hf
    obtain ⟨futures, hleft, hnumbered⟩ : ∃ futures, (if f.outcome.isSome then w.dropFuture ticket
        else w.updateFuture { f with abandoned := true }) = { w with futures } ∧
          (w.Numbered → Numbered { w with futures }) := by
      split
      · exact ⟨_, rfl, fun hnumbered => hnumbered.dropFuture ticket⟩
      · exact ⟨_, rfl, fun hnumbered => hnumbered.updateFuture hf rfl⟩
    simp only [hleft]
    split
    · exact .inl ⟨futures, rfl, hnumbered⟩
    · rename_i token _
      have hworks : Works none w none { w with futures } := .of_spaces rfl rfl rfl hnumbered rfl
      exact .inr ⟨_, (hworks.trans (works_cancelUnsettled _ token)).trans (works_putBack _ f), rfl⟩

/-! ## New spaces -/

/-- A new space joins the others. -/
theorem works_addSpace (hintact : s.Intact name w.now w.cancelled false)
    (hreceptive : s.Receptive) :
    Works none w none (w.addSpace s).1 := by
  refine ⟨⟨?_, fun {i x y} hholds => ?_, fun {i x} hle hspace => ?_, id⟩, rfl⟩
  · exact (Array.size_push s).ge.trans' (Nat.le_succ _)
  · obtain ⟨hlt, _⟩ := Array.getElem?_eq_some_iff.mp hholds.space
    have hsame : (w.spaces.push s)[i]? = some y := by
      rw [Array.getElem?_push, if_neg hlt.ne]
      exact hholds.space
    exact ⟨y, ⟨hsame, hholds.intact⟩, .refl y⟩
  · have hlast : (w.spaces.push s)[i]? = some x := hspace
    rw [Array.getElem?_push] at hlast
    split at hlast
    · cases hlast
      exact ⟨⟨name, hspace, hintact⟩, hreceptive⟩
    · rw [Array.getElem?_eq_none hle] at hlast
      cases hlast

section Restoring

variable {P : Space → LoadReport → Prop} {wall : Moment} {now : Nat} {s' : Space}
  {report report' : LoadReport}
  (hskip : ∀ {s report}, P s report → P s { report with skipped := report.skipped + 1 })
  (hinsert : ∀ {s report key value timeout backing}, P s report →
    (s.backing.modify fun m => m.perform (Engine.insert now key value timeout .tail)) =
      (backing, .ok ()) →
    P { s with backing } { report with restored := report.restored + 1 })

include hskip hinsert

theorem restoreValues_induction {key : String} {values : List SnapshotValue} (hs : P s report)
    (hok : restoreValues wall now key values s report = .ok (s', report')) : P s' report' := by
  induction values generalizing s report with
  | nil =>
      cases hok
      exact hs
  | cons v rest ih =>
      rw [restoreValues] at hok
      split at hok
      · exact ih (hskip hs) hok
      · split at hok
        · cases hok
        · rename_i heq
          exact ih (hinsert hs heq) hok

theorem restoreEntries_induction {entries : List SnapshotEntry} (hs : P s report)
    (hok : restoreEntries wall now entries s report = .ok (s', report')) : P s' report' := by
  induction entries generalizing s report with
  | nil =>
      cases hok
      exact hs
  | cons e rest ih =>
      rw [restoreEntries] at hok
      cases hvalues : restoreValues wall now e.key e.values s report with
      | error e => rw [hvalues] at hok; cases hok
      | ok restored =>
          rw [hvalues] at hok
          exact ih (restoreValues_induction hskip hinsert hs hvalues) hok

end Restoring

/-- What holds of a new space, of which nothing has been restored yet, and survives that an entry is
restored or skipped, holds of a persistent space that has been opened. -/
theorem openPersistent_induction {P : Space → LoadReport → Prop} {path : String}
    {config : SpaceConfig} (hok : w.openPersistent name path config = .ok s)
    (hnew : ∀ {s}, Space.perKey name config w.now w.stamp = .ok s → P s {})
    (hskip : ∀ {s report}, P s report → P s { report with skipped := report.skipped + 1 })
    (hinsert : ∀ {s report key value timeout backing}, P s report →
      (s.backing.modify fun m => m.perform (Engine.insert w.now key value timeout .tail)) =
        (backing, .ok ()) →
      P { s with backing } { report with restored := report.restored + 1 }) :
    ∃ s' report, P s' report ∧ s = { s' with storage := some ⟨path, report⟩ } := by
  unfold openPersistent at hok
  cases hs : Space.perKey name config w.now w.stamp with
  | error e => rw [hs] at hok; cases hok
  | ok s₀ =>
      simp only [hs, bind, Except.bind] at hok
      split at hok
      · cases hread : readSnapshot w.files path with
        | error e => rw [hread] at hok; cases hok
        | ok snapshot =>
            simp only [hread] at hok
            cases hentries : restoreEntries w.wall w.now snapshot.entries s₀ {} with
            | error e => rw [hentries] at hok; cases hok
            | ok restored =>
                simp only [hentries] at hok
                cases hok
                exact ⟨restored.1, restored.2,
                  restoreEntries_induction hskip hinsert (hnew hs) hentries, rfl⟩
      · cases hok
        exact ⟨s₀, {}, hnew hs, rfl⟩

/-- A persistent space starts with the contents of its file. -/
theorem fresh_openPersistent {path : String} {config : SpaceConfig}
    (hok : w.openPersistent name path config = .ok s) : s.Fresh name w.now w.cancelled := by
  obtain ⟨s', report, hfresh, rfl⟩ := openPersistent_induction
    (P := fun s _ => s.Fresh name w.now w.cancelled) hok
    (fun hs => Space.fresh_perKey hs w.cancelled) id
    (fun {s report key value timeout backing} hfresh heq => by
      have hinserted := hfresh.insert key value timeout .tail
      rwa [heq] at hinserted)
  exact hfresh.store _

/-- A space that could be opened joins the others. -/
theorem works_addOpened {opened : Except SpaceError Space}
    (hfresh : ∀ s, opened = .ok s → s.Fresh name w.now w.cancelled) :
    Works none w none (w.addOpened opened).1 := by
  cases opened with
  | error e => exact .refl none w
  | ok s => exact works_addSpace (hfresh s rfl).intact (hfresh s rfl).receptive

/-! ## Directories -/

/-- A world whose directory has forgotten a space. -/
def evicted (w : World) (name : String) : World :=
  { w with directory := some (w.directoryOf.evict name) }

/-- Releasing a string does nothing, or makes the directory forget a space and closes that. -/
theorem release_cases (w : World) (text : String) :
    ((w.release text).1 = w ∧
        ∀ u, SpaceUri.parse text = .ok u → w.directoryOf.slot? u.text = none) ∨
      ∃ u i, SpaceUri.parse text = .ok u ∧ w.directoryOf.slot? u.text = some i ∧
        (w.release text).1 = ((w.evicted u.text).close i).1 := by
  unfold release
  cases SpaceUri.parse text with
  | error e => exact .inl ⟨rfl, nofun⟩
  | ok u =>
      simp only []
      cases hslot : w.directoryOf.slot? u.text with
      | none =>
          refine .inl ⟨rfl, fun v hv => ?_⟩
          cases hv
          exact hslot
      | some i =>
          refine .inr ⟨u, i, rfl, hslot, ?_⟩
          rw [← evicted]

theorem leads_release (w : World) (text : String) : Leads none w none (w.release text).1 := by
  obtain ⟨hsame, _⟩ | ⟨u, i, _, _, heq⟩ := release_cases w text
  · rw [hsame]
    exact (Works.refl none w).toLeads
  · rw [heq]
    have hforgotten : Leads none w none (w.evicted u.text) := .of_spaces rfl rfl rfl id
    exact hforgotten.trans (works_close _ i).toLeads

theorem works_closeEach (spaces : List Nat) (w : World) :
    Works none w none (closeEach spaces w).1 := by
  induction spaces generalizing w with
  | nil => exact .refl none w
  | cons i rest ih =>
      have hboth := (works_close w i).trans (ih (w.close i).1)
      unfold closeEach
      simp only []
      split <;> exact hboth

theorem leads_closeAll (w : World) : Leads none w none w.closeAll.1 := by
  have hforgotten : Leads none w none
      { w with directory := some { w.directoryOf with slots := [] } } := .of_spaces rfl rfl rfl id
  exact hforgotten.trans (works_closeEach _ _).toLeads

end World

end TupleSpace
