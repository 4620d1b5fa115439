import TupleSpace.Proofs.Directory.Lookups
import TupleSpace.Proofs.Engine.Discreet
import TupleSpace.Proofs.Listeners.Registrations

/-!
# What listeners do not notice

Registrations are kept apart from the entries of a space, and only who tells listeners counts it.
So most of what happens in a world is nothing to listeners: whatever an operation does to the
monitors of spaces, and whichever calls run because of it, everybody who was registered still is,
and nobody has been told anything.
-/

namespace TupleSpace

namespace Space

/-- The registrations of a space that have not lapsed, the earliest first. -/
def audience (now : Nat) (s : Space) : Store String Nat :=
  s.registry.elim (fun _ => []) (Registry.audience now)

/-- How many listeners of a space have been told, and how many of these have panicked. -/
def told (s : Space) : Nat × Nat := s.metrics.told

variable {now : Nat} {name : String} {cancelled : List Nat} {s : Space}

@[simp]
theorem audience_stampSpace (now stamp : Nat) (s : Space) :
    (World.stampSpace stamp s).audience now = s.audience now := by
  obtain ⟨b, registry, storage⟩ := s
  cases registry <;> rfl

@[simp]
theorem told_stampSpace (stamp : Nat) (s : Space) : (World.stampSpace stamp s).told = s.told := by
  obtain ⟨b, registry, storage⟩ := s
  cases b <;> rfl

/-- An operation on a monitor that tells nobody. -/
theorem told_modify {β : Type} (s : Space)
    {f : {σ : Type} → [Engine σ String Json] → Monitor σ String Json → Monitor σ String Json × β}
    (hf : ∀ {σ : Type} [Engine σ String Json] [DiscreetEngine σ String Json]
      (m : Monitor σ String Json), (f m).1.told = m.told) :
    told { s with backing := (s.backing.modify f).1 } = s.told := by
  obtain ⟨b, registry, storage⟩ := s
  cases b with
  | perKey m => exact hf m
  | singleLock m => exact hf m

/-- Nobody has been told anything in a new space, and nobody is registered. -/
structure Quiet (s : Space) : Prop where
  unregistered : s.registry = none
  untold : s.told = (0, 0)

theorem quiet_perKey {config : SpaceConfig} {stamp : Nat}
    (hok : Space.perKey name config now stamp = .ok s) : s.Quiet := by
  unfold Space.perKey at hok
  split at hok
  · cases hok
  · cases hok
    refine ⟨rfl, ?_⟩
    show (Monitor.start (PerKey.new name config) now stamp).told = (0, 0)
    unfold Monitor.start
    split <;> rfl

theorem quiet_singleLock {config : SpaceConfig} {stamp : Nat}
    (hok : Space.singleLock name config now stamp = .ok s) : s.Quiet := by
  unfold Space.singleLock at hok
  split at hok
  · cases hok
  · cases hok
    refine ⟨rfl, ?_⟩
    show (Monitor.start (SingleLock.new name config) now stamp).told = (0, 0)
    unfold Monitor.start
    split <;> rfl

end Space

namespace World

variable {w w' w'' : World} {i j : Nat} {s : Space} {β : Type}

/-- The registrations of a space that have not lapsed, the earliest first. -/
def audience (w : World) (i : Nat) : Store String Nat :=
  w.spaces[i]?.elim (fun _ => []) (Space.audience w.now)

/-- How many listeners of a space have been told, and how many of these have panicked. -/
def told (w : World) (i : Nat) : Nat × Nat := w.spaces[i]?.elim (0, 0) Space.told

/-- Something has happened that is nothing to listeners. -/
structure Untold (w w' : World) : Prop where
  now : w'.now = w.now
  audience : w'.audience = w.audience
  told : w'.told = w.told
  listeners : w'.listeners = w.listeners

namespace Untold

theorem refl (w : World) : Untold w w := ⟨rfl, rfl, rfl, rfl⟩

theorem trans (hfirst : Untold w w') (hsecond : Untold w' w'') : Untold w w'' where
  now := hsecond.now.trans hfirst.now
  audience := hsecond.audience.trans hfirst.audience
  told := hsecond.told.trans hfirst.told
  listeners := hsecond.listeners.trans hfirst.listeners

theorem foldl {α : Type} {f : World → α → World} (hstep : ∀ w a, Untold w (f w a)) (l : List α)
    (w : World) : Untold w (l.foldl f w) := by
  induction l generalizing w with
  | nil => exact .refl w
  | cons a l ih => exact (hstep w a).trans (ih (f w a))

/-- Nothing has happened to the spaces. -/
theorem of_spaces (hspaces : w'.spaces = w.spaces) (hnow : w'.now = w.now)
    (hlisteners : w'.listeners = w.listeners) : Untold w w' where
  now := hnow
  audience := by
    funext i
    rw [World.audience, World.audience, hspaces, hnow]
  told := by
    funext i
    rw [World.told, World.told, hspaces]
  listeners := hlisteners

/-- What happens to each space is nothing to its listeners. -/
theorem of_each (hnow : w'.now = w.now) (hlisteners : w'.listeners = w.listeners)
    (heach : ∀ j : Nat,
      (w'.spaces[j]?.elim (fun _ => []) (Space.audience w.now) : Store String Nat) =
          w.spaces[j]?.elim (fun _ => []) (Space.audience w.now) ∧
        w'.spaces[j]?.elim (0, 0) Space.told = w.spaces[j]?.elim (0, 0) Space.told) :
    Untold w w' where
  now := hnow
  audience := by
    funext j
    rw [World.audience, World.audience, hnow]
    exact (heach j).1
  told := funext fun j => (heach j).2
  listeners := hlisteners

end Untold

/-! ## Operations on one space -/

/-- The spaces after an operation on one of them. -/
theorem spaces_onSpace (w : World) (i : Nat) (missing : β) (f : Space → Space × β) (j : Nat) :
    (w.onSpace i missing f).1.spaces[j]? =
      if j = i then w.spaces[i]?.map fun s => (f (stampSpace w.stamp s)).1 else w.spaces[j]? := by
  obtain ⟨spaces, stamp, heq, hsize, hself, helse⟩ := onSpace_spec w i missing f
  rw [heq]
  split
  · rename_i hj
    subst hj
    cases hspace : w.spaces[j]? with
    | none =>
        rw [Array.getElem?_eq_none_iff, ← hsize, ← Array.getElem?_eq_none_iff] at hspace
        exact hspace
    | some s => exact hself s hspace
  · rename_i hj
    exact helse j hj

theorem now_onSpace (w : World) (i : Nat) (missing : β) (f : Space → Space × β) :
    (w.onSpace i missing f).1.now = w.now := by
  obtain ⟨spaces, stamp, heq, _⟩ := onSpace_spec w i missing f
  rw [heq]

theorem listeners_onSpace (w : World) (i : Nat) (missing : β) (f : Space → Space × β) :
    (w.onSpace i missing f).1.listeners = w.listeners := by
  obtain ⟨spaces, stamp, heq, _⟩ := onSpace_spec w i missing f
  rw [heq]

theorem untold_onSpace (missing : β) {f : Space → Space × β}
    (hf : ∀ s, w.spaces[i]? = some s →
      (f (stampSpace w.stamp s)).1.audience w.now = s.audience w.now ∧
        (f (stampSpace w.stamp s)).1.told = s.told) : Untold w (w.onSpace i missing f).1 := by
  refine .of_each (now_onSpace w i missing f) (listeners_onSpace w i missing f) fun j => ?_
  rw [spaces_onSpace]
  split
  · rename_i hj
    subst hj
    cases hspace : w.spaces[j]? with
    | none => exact ⟨rfl, rfl⟩
    | some s => exact hf s hspace
  · exact ⟨rfl, rfl⟩

/-- An operation on a monitor that tells nobody. -/
theorem untold_onMonitor (w : World) (i : Nat) (missing : β)
    {f : {σ : Type} → [Engine σ String Json] → Monitor σ String Json → Monitor σ String Json × β}
    (hf : ∀ {σ : Type} [Engine σ String Json] [DiscreetEngine σ String Json]
      (m : Monitor σ String Json), (f m).1.told = m.told) :
    Untold w (w.onMonitor i missing f).1 := by
  apply untold_onSpace
  intro s _
  exact ⟨Space.audience_stampSpace w.now w.stamp s,
    (Space.told_modify _ hf).trans (Space.told_stampSpace w.stamp s)⟩

/-! ## Ready calls -/

theorem untold_deliver (w : World) (f : Finished Json) : Untold w (w.deliver f) := by
  obtain ⟨futures, ended, heq⟩ := deliver_spec w f
  rw [heq]
  exact .of_spaces rfl rfl rfl

theorem untold_settleSpace (w : World) (i : Nat) : Untold w (w.settleSpace i) := by
  have hsettled : Untold w (w.onMonitor i [] fun m => m.settle w.now w.cancelled).1 :=
    untold_onMonitor w i _ fun m => m.told_settle w.now w.cancelled
  rw [settleSpace_eq]
  exact hsettled.trans (Untold.foldl untold_deliver _ _)

theorem untold_settle (w : World) : Untold w w.settle :=
  Untold.foldl untold_settleSpace _ w

theorem untold_joinSweeper (w : World) (swept : Bool) : Untold w (w.joinSweeper swept) := by
  unfold joinSweeper
  split
  · exact untold_settle w
  · exact .refl w

/-! ## Entries and calls -/

theorem untold_store (w : World) (i : Nat) (key : String) (value : Json) (timeout : Nat)
    (placement : Placement) : Untold w (w.store i key value timeout placement).1 :=
  untold_onMonitor w i _ fun m => m.told_perform
    (DiscreetEngine.insert_discreet w.now key value timeout placement m.engine)

theorem untold_insertSilently (w : World) (i : Nat) (key : String) (value : Json) (timeout : Nat)
    (placement : Placement) : Untold w (w.insertSilently i key value timeout placement).1 :=
  (untold_store w i key value timeout placement).trans (untold_settle _)

theorem untold_probeUnsettled (w : World) (i : Nat) (mode : Mode) (key : String)
    (accepts : Json → Bool) : Untold w (w.probeUnsettled i mode key accepts).1 :=
  untold_onMonitor w i _ fun m => m.told_probe w.now mode key accepts

theorem untold_probe (w : World) (i : Nat) (mode : Mode) (key : String) (accepts : Json → Bool) :
    Untold w (w.probe i mode key accepts).1 :=
  (untold_probeUnsettled w i mode key accepts).trans (untold_settle _)

theorem untold_existsAny (w : World) (i : Nat) (keys : List String) :
    Untold w (w.existsAny i keys).1 := by
  have hlooked : Untold w
      (w.onMonitor i (.ok false) fun m => m.perform (Engine.existsAny w.now keys)).1 :=
    untold_onMonitor w i _ fun m => m.told_perform
      (DiscreetEngine.existsAny_discreet w.now keys m.engine)
  exact hlooked.trans (untold_settle _)

theorem untold_sweep (w : World) (i : Nat) (gen : Generation) : Untold w (w.sweep i gen).1 := by
  have hswept : Untold w (w.onMonitor i {} fun m => m.perform (Engine.sweep w.now gen)).1 :=
    untold_onMonitor w i _ fun m => DiscreetEngine.sweep_told w.now gen m.engine
  exact hswept.trans (untold_settle _)

theorem untold_submit (w : World) (i ticket : Nat) (q : Request String Json) :
    Untold w (w.submit i ticket q) := by
  have hsubmitted : Untold w
      (w.onMonitor i none fun m => m.submit w.now w.cancelled ticket q).1 :=
    untold_onMonitor w i _ fun m => m.told_submit w.now w.cancelled ticket q
  unfold submit
  simp only []
  split
  · exact hsubmitted.trans ((untold_deliver _ _).trans (untold_settle _))
  · exact hsubmitted.trans (untold_settle _)

theorem untold_start (w : World) (i : Nat) (q : Request String Json) : Untold w (w.start i q).1 :=
  (Untold.of_spaces rfl rfl rfl : Untold w w.newTicket.1).trans
    (untold_submit w.newTicket.1 i w.nextTicket q)

theorem untold_fetch (w : World) (ticket : Nat) : Untold w (w.fetch ticket).1 := by
  obtain ⟨ended, heq⟩ := fetch_spec w ticket
  rw [heq]
  exact .of_spaces rfl rfl rfl

theorem untold_startFuture (w : World) (i : Nat) (q : Option Nat → Request String Json)
    (cancellable : Bool) (restoreKey : Option String) :
    Untold w (w.startFuture i q cancellable restoreKey).1 := by
  obtain ⟨nextToken, token, heq⟩ := startFuture_eq w i q cancellable restoreKey
  rw [heq]
  exact (Untold.of_spaces rfl rfl rfl : Untold w (w.expecting i nextToken token restoreKey)).trans
    (untold_submit _ i w.nextTicket (q token))

theorem untold_pollFuture (w : World) (ticket : Nat) : Untold w (w.pollFuture ticket).1 := by
  obtain ⟨futures, heq, _⟩ := pollFuture_spec w ticket
  rw [heq]
  exact .of_spaces rfl rfl rfl

theorem untold_cancelUnsettled (w : World) (token : Nat) : Untold w (w.cancelUnsettled token) := by
  have hnoted : Untold w { w with
      cancelled := if token ∈ w.cancelled then w.cancelled else token :: w.cancelled } :=
    .of_spaces rfl rfl rfl
  have hannounced : ∀ (v : World) (i : Nat),
      Untold v (v.onMonitor i () fun m => (m.cancel token, ())).1 :=
    fun v i => untold_onMonitor v i _ fun m => m.told_cancel token
  exact hnoted.trans (Untold.foldl hannounced _ _)

/-! ## Closing -/

theorem untold_flush (w : World) (i : Nat) : Untold w (w.flush i).1 := by
  obtain ⟨files, heq⟩ := flush_spec w i
  rw [heq]
  exact .of_spaces rfl rfl rfl

theorem untold_shutEngine (w : World) (i : Nat) : Untold w (w.shutEngine i) :=
  have hshut : Untold w (w.onMonitor i false fun m => (m.shut, m.sweeper.isSome)).1 :=
    untold_onMonitor w i _ fun m => m.told_shut
  hshut.trans (untold_joinSweeper _ _)

theorem untold_clearEngine (w : World) (i : Nat) : Untold w (w.clearEngine i) :=
  untold_onMonitor w i _ fun m => m.told_clear

theorem untold_closeEngine (w : World) (i : Nat) : Untold w (w.closeEngine i) := by
  unfold closeEngine
  split
  · exact .refl w
  · split
    · exact .refl w
    · exact (untold_shutEngine w i).trans (untold_clearEngine _ i)

/-! ## New spaces -/

theorem quiet_openPersistent {name path : String} {config : SpaceConfig}
    (hok : w.openPersistent name path config = .ok s) : s.Quiet := by
  obtain ⟨s', report, hquiet, rfl⟩ := openPersistent_induction (P := fun s _ => s.Quiet) hok
    Space.quiet_perKey id (fun {s report key value timeout backing} hquiet heq => by
      have hinserted := Space.told_modify s
        (f := fun m => m.perform (Engine.insert w.now key value timeout .tail))
        fun m => m.told_perform
          (DiscreetEngine.insert_discreet w.now key value timeout .tail m.engine)
      rw [heq] at hinserted
      exact ⟨hquiet.unregistered, hinserted.trans hquiet.untold⟩)
  exact ⟨hquiet.unregistered, hquiet.untold⟩

/-- A new space joins the others. -/
theorem untold_addOpened {opened : Except SpaceError Space}
    (hquiet : ∀ s, opened = .ok s → s.Quiet) : Untold w (w.addOpened opened).1 := by
  cases opened with
  | error e => exact .refl w
  | ok s =>
      refine .of_each rfl rfl fun j => ?_
      have hpush : (w.addOpened (.ok s)).1.spaces[j]? =
          if j = w.spaces.size then some s else w.spaces[j]? := Array.getElem?_push
      rw [hpush]
      split
      · rename_i hj
        subst hj
        obtain ⟨hregistry, htold⟩ := hquiet s rfl
        rw [Array.getElem?_eq_none (Nat.le_refl _)]
        refine ⟨?_, htold⟩
        show s.audience w.now = _
        rw [Space.audience, hregistry]
        rfl
      · exact ⟨rfl, rfl⟩

/-- An insertion stores its value, and tells somebody only if that succeeds and somebody has been
registered. -/
theorem storeTelling_eq (tell : World → Nat → String → Json → World) (w : World) (i : Nat)
    (key : String) (value : Json) (timeout : Nat) (placement : Placement) :
    w.storeTelling tell i key value timeout placement =
      if (w.store i key value timeout placement).2.isOk && w.isWatched i key then
        (tell (w.store i key value timeout placement).1 i key value, .ok ())
      else w.store i key value timeout placement := by
  unfold storeTelling
  simp only []
  generalize w.store i key value timeout placement = stored
  obtain ⟨u, result⟩ := stored
  cases result with
  | error e => rfl
  | ok _ =>
      cases w.isWatched i key with
      | true => rfl
      | false => rfl

/-- If nobody is registered for a key, an insertion under it is all that happens. -/
theorem storeTelling_of_not_watched {key : String} (hunwatched : w.isWatched i key = false)
    (tell : World → Nat → String → Json → World) (v : Json) (timeout : Nat)
    (placement : Placement) :
    w.storeTelling tell i key v timeout placement = w.store i key v timeout placement := by
  rw [storeTelling_eq, hunwatched, Bool.and_false]
  rfl

/-- Nobody is told of the entry with which a space starts. -/
theorem untold_makeReferring {lookup : World → String → World × Except SpaceError Nat}
    (hlookup : ∀ w text, Untold w (lookup w text).1) (w : World) (u : SpaceUri)
    (config : SpaceConfig) : Untold w (makeReferring lookup w u config).1 := by
  have hreferred := hlookup w (SpaceUri.defaultScheme ++ ":" ++ u.name)
  unfold makeReferring
  generalize lookup w (SpaceUri.defaultScheme ++ ":" ++ u.name) = referred at hreferred ⊢
  obtain ⟨w₁, other⟩ := referred
  cases other with
  | error e => exact hreferred
  | ok other =>
      simp only []
      cases hnew : Space.singleLock u.text config w₁.now w₁.stamp with
      | error e => exact hreferred
      | ok s =>
          have hquiet := Space.quiet_singleLock hnew
          have hopened : Untold w₁ (w₁.addOpened (.ok s)).1 :=
            untold_addOpened fun x hx => by
              cases hx
              exact hquiet
          have hadded : Untold w₁ (w₁.addSpace s).1 := hopened
          have hunwatched : ∀ key, (w₁.addSpace s).1.isWatched w₁.spaces.size key = false := by
            intro key
            have hspace : (w₁.addSpace s).1.spaces[w₁.spaces.size]? = some s :=
              Array.getElem?_push_size
            rw [isWatched, hspace, Option.bind_some, hquiet.unregistered]
            rfl
          have hstored := untold_store (w₁.addSpace s).1 w₁.spaces.size
            ((w₁.spaces[other]?.map Space.name).getD "") ((u.param.map Json.string).getD .null) 0
            .tail
          rw [← storeTelling_of_not_watched (hunwatched _)] at hstored
          have hall := (hreferred.trans hadded).trans hstored
          simp only [addOpened]
          split <;> rename_i heq <;> rw [← congrArg Prod.fst heq] <;> exact hall

theorem untold_makeSpace {lookup : World → String → World × Except SpaceError Nat}
    (hlookup : ∀ w text, Untold w (lookup w text).1) (w : World) (u : SpaceUri)
    (factory : Factory) (config : SpaceConfig) :
    Untold w (makeSpace lookup w u factory config).1 := by
  cases factory with
  | perKey => exact untold_addOpened fun s hs => Space.quiet_perKey hs
  | singleLock => exact untold_addOpened fun s hs => Space.quiet_singleLock hs
  | persistent =>
      simp only [makeSpace]
      split
      · exact .refl w
      · exact untold_addOpened fun s hs => quiet_openPersistent hs
  | referring => exact untold_makeReferring hlookup w u config
  | refusing reason => exact .refl w

/-- A lookup may make spaces, which have no listeners yet. -/
theorem untold_lookupFrom (depth : Nat) (w : World) (text : String) :
    Untold w (lookupFrom depth w text).1 := by
  induction depth generalizing w text with
  | zero => exact .refl w
  | succ depth ih =>
      have hcomes := comes_lookupFrom depth w text
      generalize lookupFrom (depth + 1) w text = found at hcomes ⊢
      cases hcomes with
      | refused e => exact .refl w
      | cached => exact .refl w
      | @failed u factory v e _ hmade =>
          have hspace := untold_makeSpace ih w u factory (w.directoryOf.config.configFor u.text)
          rwa [hmade] at hspace
      | @made u factory v j _ _ _ hmade =>
          have hspace := untold_makeSpace ih w u factory (w.directoryOf.config.configFor u.text)
          rw [hmade] at hspace
          exact hspace.trans (.of_spaces rfl rfl rfl)

theorem untold_lookup (w : World) (text : String) : Untold w (w.lookup text).1 := by
  have hfound := untold_lookupFrom 4 w text
  unfold lookup
  generalize lookupFrom 4 w text = found at hfound ⊢
  exact hfound.trans (untold_settle found.1)

end World

end TupleSpace
