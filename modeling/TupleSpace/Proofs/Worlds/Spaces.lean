import TupleSpace.Proofs.Run.Intact
import TupleSpace.World

/-!
# Spaces that are intact

What holds of a space in a world at every moment.  Its engine is one of two kinds, and either kind
obeys the same laws, so the monitor of the space is intact as the monitor of a run is; so is the
monitor of the registrations of its listeners, on which no call ever waits.  A space that has been
closed has closed its registrations too.
-/

namespace TupleSpace

open Bookkeeping SweepBooks

/-! ## Scenes that lead to others -/

namespace Scene

variable {σ κ α : Type} [Engine σ κ α] {s s' : Scene σ κ α}

/-- Some actions lead from a scene to another, and close the space at most if it is still closing at
the end. -/
def Leads (s s' : Scene σ κ α) : Prop :=
  ∃ acts, s.run acts = s' ∧ (s'.closing = false → Action.shut ∉ acts)

theorem leads_refl (s : Scene σ κ α) : s.Leads s := ⟨[], rfl, fun _ => List.not_mem_nil⟩

theorem leads_step (s : Scene σ κ α) (act : Action κ α) (hact : act ≠ .shut) :
    s.Leads (s.step act).1 :=
  ⟨[act], rfl, fun _ hmem => hact (List.mem_singleton.mp hmem).symm⟩

/-- A space that begins to close. -/
theorem leads_shut (hopen : Engine.isClosed s.monitor.engine = false) :
    s.Leads { s with monitor := s.monitor.shut, closing := true } :=
  ⟨[.shut], by simp [run, step, hopen], nofun⟩

/-- A space that gives up its storage. -/
theorem leads_clear (hclosing : s.closing = true) :
    s.Leads { s with monitor := s.monitor.clear, closing := false } :=
  ⟨[.clear], by simp [run, step, hclosing], by simp⟩

/-- The ready calls run. -/
theorem leads_settle (s : Scene σ κ α) :
    s.Leads { s with monitor := (s.monitor.settle s.now s.cancelled).1 } := by
  obtain ⟨places, hrun, _⟩ := settle_eq_run s
  exact ⟨_, hrun, fun _ => by simp⟩

variable [DecidableEq κ] [Bookkeeping σ κ α] [LawfulEngine σ κ α]

/-- Whoever does not wait runs at once, or finds the space closed. -/
theorem Orderly.leads_probe (horderly : s.Orderly) (mode : Mode) (key : κ) (accepts : α → Bool) :
    s.Leads { s with monitor := (s.monitor.probe s.now mode key accepts).1 } := by
  let q : Retrieval κ α := ⟨key, accepts, mode, .probe, none⟩
  cases hopen : Engine.isClosed s.monitor.engine with
  | false =>
      obtain ⟨o, hcall, _⟩ :=
        (horderly.open_of_isClosed hopen).probe_eq_call 0 mode key accepts
      have hleads := s.leads_step (.call 0 (.retrieve q)) nofun
      rwa [hcall] at hleads
  | true =>
      have hturn := LawfulEngine.attempt_closed s.now false (.retrieve q) hopen
      have hsame : (s.monitor.probe s.now mode key accepts).1 = s.monitor := by
        simp only [Monitor.probe, Monitor.perform, hturn, Turn.pure, Monitor.raise,
          List.not_mem_nil, if_false, List.map_id', q]
      rw [hsame]
      exact s.leads_refl

variable [SweepBooks σ κ α] [ExactEngine σ κ α] [CarefulEngine σ κ α] [SteadyEngine σ κ α]
  [SealedEngine σ κ α] {name : String}

/-- What an intact scene leads to is intact and, unless it is closing, as open as that was. -/
theorem Intact.of_leads (hintact : s.Intact name) (hleads : s.Leads s') :
    s'.Intact name ∧
      (Engine.isClosed s.monitor.engine = true → Engine.isClosed s'.monitor.engine = true) ∧
      (s'.closing = false → Engine.isClosed s.monitor.engine = false →
        Engine.isClosed s'.monitor.engine = false) := by
  obtain ⟨acts, rfl, hnoShut⟩ := hleads
  exact ⟨hintact.run acts, fun hclosed => hintact.orderly.closed_run hclosed acts,
    fun hsettled hopen =>
      ((hintact.orderly.open_of_isClosed hopen).run (hnoShut hsettled)).isClosed⟩

omit [ExactEngine σ κ α] [CarefulEngine σ κ α] [SealedEngine σ κ α] in
/-- A scene that is open has the settings of all scenes that lead to it. -/
theorem Intact.config_of_leads (hintact : s.Intact name) (hleads : s.Leads s')
    (hopen : Engine.isClosed s'.monitor.engine = false) :
    Engine.config s'.monitor.engine = Engine.config s.monitor.engine := by
  obtain ⟨acts, rfl, _⟩ := hleads
  exact hintact.orderly.config_run hopen

end Scene

/-! ## The engines of spaces -/

/-- The engines that a space can have, with everything that is proved of both kinds. -/
class SpaceEngine (σ : Type) [Engine σ String Json] extends Bookkeeping σ String Json,
    SweepBooks σ String Json, LawfulEngine σ String Json, ExactEngine σ String Json,
    CarefulEngine σ String Json, RestfulEngine σ String Json, SteadyEngine σ String Json,
    SealedEngine σ String Json

instance : SpaceEngine (PerKey String Json) where
  toRestfulEngine := inferInstance

instance : SpaceEngine (SingleLock String Json) where
  toRestfulEngine := inferInstance

namespace Backing

/-- The backing of a space with a name is intact. -/
def Intact (name : String) (now : Nat) (cancelled : List Nat) (closing : Bool) : Backing → Prop
  | perKey m => (Scene.mk now cancelled m closing).Intact name
  | singleLock m => (Scene.mk now cancelled m closing).Intact name

/-- Whether the engine of a backing has been closed. -/
def isClosed (b : Backing) : Bool := b.viewEngine Engine.isClosed

variable {name : String} {now later : Nat} {cancelled others : List Nat} {closing closing' : Bool}
  {b : Backing} {β : Type}

/-- An operation that makes a run of every monitor keeps a backing intact. -/
theorem Intact.modify (hintact : b.Intact name now cancelled closing)
    {f : {σ : Type} → [Engine σ String Json] → Monitor σ String Json → Monitor σ String Json × β}
    (hf : ∀ {σ : Type} [Engine σ String Json] [SpaceEngine σ] (m : Monitor σ String Json),
      (Scene.mk now cancelled m closing).Intact name →
      (Scene.mk now cancelled m closing).Leads (Scene.mk later others (f m).1 closing')) :
    (b.modify f).1.Intact name later others closing' ∧
      (b.isClosed = true → (b.modify f).1.isClosed = true) ∧
      (closing' = false → b.isClosed = false → (b.modify f).1.isClosed = false) := by
  cases b with
  | perKey m => exact Scene.Intact.of_leads hintact (hf m hintact)
  | singleLock m => exact Scene.Intact.of_leads hintact (hf m hintact)

/-- A backing that is open after such an operation has kept its settings. -/
theorem Intact.config_modify (hintact : b.Intact name now cancelled closing)
    {f : {σ : Type} → [Engine σ String Json] → Monitor σ String Json → Monitor σ String Json × β}
    (hf : ∀ {σ : Type} [Engine σ String Json] [SpaceEngine σ] (m : Monitor σ String Json),
      (Scene.mk now cancelled m closing).Intact name →
      (Scene.mk now cancelled m closing).Leads (Scene.mk later others (f m).1 closing'))
    (hopen : (b.modify f).1.isClosed = false) :
    (b.modify f).1.viewEngine Engine.config = b.viewEngine Engine.config := by
  cases b with
  | perKey m => exact Scene.Intact.config_of_leads hintact (hf m hintact) hopen
  | singleLock m => exact Scene.Intact.config_of_leads hintact (hf m hintact) hopen

/-- An open backing begins to close. -/
theorem Intact.shut (hintact : b.Intact name now cancelled closing) (hopen : b.isClosed = false)
    {f : {σ : Type} → [Engine σ String Json] → Monitor σ String Json → β} :
    (b.modify fun m => (m.shut, f m)).1.Intact name now cancelled true ∧
      (b.modify fun m => (m.shut, f m)).1.isClosed = true := by
  cases b with
  | perKey m =>
      have hleads := Scene.leads_shut (s := Scene.mk now cancelled m closing) hopen
      exact ⟨(Scene.Intact.of_leads hintact hleads).1, rfl⟩
  | singleLock m =>
      have hleads := Scene.leads_shut (s := Scene.mk now cancelled m closing) hopen
      exact ⟨(Scene.Intact.of_leads hintact hleads).1, rfl⟩

/-- It makes no difference if a token is not noted as cancelled twice. -/
theorem Intact.recancel (hintact : b.Intact name now cancelled closing)
    (hfewer : others ⊆ cancelled) : b.Intact name now others closing := by
  cases b with
  | perKey m =>
      exact ⟨hintact.orderly.recancel hfewer, hintact.neat, hintact.named, hintact.halted,
        hintact.mayWait⟩
  | singleLock m =>
      exact ⟨hintact.orderly.recancel hfewer, hintact.neat, hintact.named, hintact.halted,
        hintact.mayWait⟩

/-- Whether a call of a backing is ready to run. -/
def Calm (b : Backing) : Prop := b.view fun m => ∀ x ∈ m.waiting, x.ready = false

/-- Nobody runs if nobody is ready. -/
theorem Calm.settle (hcalm : b.Calm) (now : Nat) (cancelled : List Nat) :
    b.modify (fun m => m.settle now cancelled) = (b, []) := by
  cases b with
  | perKey m => rw [modify, Monitor.settle_of_calm hcalm]
  | singleLock m => rw [modify, Monitor.settle_of_calm hcalm]

/-- Once the ready calls have run none of them is left. -/
theorem Intact.settle_calm (hintact : b.Intact name now cancelled closing) :
    (b.modify fun m => m.settle now cancelled).1.Calm := by
  cases b with
  | perKey m => exact hintact.orderly.settle_calm
  | singleLock m => exact hintact.orderly.settle_calm

/-- Time passes. -/
theorem Intact.advance (hintact : b.Intact name now cancelled closing) (hle : now ≤ later) :
    b.Intact name later cancelled closing := by
  obtain ⟨span, rfl⟩ := Nat.exists_eq_add_of_le hle
  cases b with
  | perKey m => exact Scene.Intact.step hintact (.advance span)
  | singleLock m => exact Scene.Intact.step hintact (.advance span)

theorem Intact.name_eq (hintact : b.Intact name now cancelled closing) :
    b.viewEngine Engine.name = name := by
  cases b with
  | perKey m => exact hintact.named
  | singleLock m => exact hintact.named

end Backing

/-! ## Registrations -/

/-- Taking everything under a key while nobody waits leaves the books in order. -/
theorem PerKey.takeAll_spec {κ α : Type} [DecidableEq κ] {s : PerKey κ α} {w : Headcount κ}
    (hsettled : PerKey.Settled s w) (now : Nat) (key : κ) :
    PerKey.Settled (PerKey.takeAll now key s).state w ∧
      Thins s (PerKey.takeAll now key s).state ∧
      (PerKey.takeAll now key s).state.name = s.name ∧
      (PerKey.takeAll now key s).state.closed = s.closed := by
  cases hopen : s.closed with
  | true =>
      have hturn : PerKey.takeAll now key s = .pure s (.error s.closedError) := if_pos hopen
      rw [hturn]
      exact ⟨hsettled, .refl s, rfl, hopen⟩
  | false =>
      cases hfind : s.find? key with
      | none =>
          have hturn : PerKey.takeAll now key s = .pure s (.ok []) := by
            simp [PerKey.takeAll, hopen, hfind]
          rw [hturn]
          exact ⟨hsettled, .refl s, rfl, hopen⟩
      | some r =>
          have hkey := PerKey.key_of_find? hfind
          let emptied : Record κ α := { r with queue := {} }
          let live := (r.queue.live now).map Entry.value
          let taken := (s.update emptied).countExpired (r.queue.size - live.length)
          let counted : PerKey κ α :=
            { taken with
              metrics := { taken.metrics with takes := taken.metrics.takes + live.length } }
          have hstate : (PerKey.takeAll now key s).state = (PerKey.settle key counted).state := by
            simp only [PerKey.takeAll, hopen, hfind]
            rfl
          have hunsettled : PerKey.Unsettled key counted w :=
            ((hsettled.unsettled key).update (u := emptied) hfind hkey rfl
              (hsettled.counted key r hfind) (fun _ _ => rfl)).congr rfl rfl
          have hthins : Thins s counted :=
            (PerKey.thins_update (u := emptied) hfind hkey fun h => absurd rfl h).trans
              (PerKey.thins_of_records rfl rfl rfl)
          have htouches := PerKey.Touches.settle key counted
          rw [hstate]
          exact ⟨hunsettled.settle, hthins.trans (PerKey.thins_settle key counted), htouches.name,
            htouches.closed.trans hopen⟩

/-- In a scene in which nobody waits the clock makes no difference. -/
theorem Scene.Intact.at_rest {σ κ α : Type} [DecidableEq κ] [Engine σ κ α] [Bookkeeping σ κ α]
    [SweepBooks σ κ α] {s : Scene σ κ α} {name : String} (hintact : s.Intact name)
    (hidle : s.monitor.waiting = []) (now : Nat) : Scene.Intact name { s with now } := by
  refine ⟨?_, hintact.neat, hintact.named, hintact.halted, hintact.mayWait⟩
  rcases hintact.orderly with hworking | hgone
  · refine .inl ⟨hworking.sound, fun w hw => ?_, hworking.closing⟩
    rw [hidle] at hw
    cases hw
  · exact .inr ⟨hgone.closed, hgone.keys, hgone.ready, hgone.settled⟩

namespace Registry

/-- The registrations as a space of their own, at an instant. -/
def scene (r : Registry) (now : Nat) : Scene (PerKey String Nat) String Nat where
  now := now
  cancelled := []
  monitor := r.monitor

/-- What holds of the registrations of a space: no call waits on them, and otherwise they are like a
space. -/
structure Intact (r : Registry) : Prop where
  idle : r.monitor.waiting = []
  scene : ∃ name, (r.scene 0).Intact name

variable {r r' : Registry}

/-- What some actions at an instant make of the registrations. -/
theorem Intact.of_leads (hintact : r.Intact) {now : Nat}
    (hleads : (r.scene now).Leads (r'.scene now))
    (hidle : r'.monitor.waiting = []) :
    r'.Intact ∧ r'.isClosed = r.isClosed := by
  obtain ⟨name, hscene⟩ := hintact.scene
  obtain ⟨hscene', hclosed, hopen⟩ := (hscene.at_rest hintact.idle now).of_leads hleads
  refine ⟨⟨hidle, name, hscene'.at_rest hidle 0⟩, ?_⟩
  cases hbefore : r.isClosed with
  | true => exact hclosed hbefore
  | false => exact hopen rfl hbefore

theorem Intact.restamp (hintact : r.Intact) (stamp : Nat) :
    Intact ⟨World.stampMonitor stamp r.monitor⟩ :=
  (hintact.of_leads ((r.scene 0).leads_step (.renumber stamp) nofun)
    hintact.idle).1

theorem Intact.add (hintact : r.Intact) (now : Nat) (key : String) (listener timeout : Nat) :
    (r.add now key listener timeout).1.Intact ∧
      (r.add now key listener timeout).1.isClosed = r.isClosed :=
  hintact.of_leads ((r.scene now).leads_step (.insert key listener timeout .tail) nofun)
    (List.map_eq_nil_iff.mpr hintact.idle)

theorem Intact.remove (hintact : r.Intact) (now : Nat) (key : String) (listener : Nat) :
    (r.remove now key listener).1.Intact ∧
      (r.remove now key listener).1.isClosed = r.isClosed := by
  obtain ⟨name, hscene⟩ := hintact.scene
  exact hintact.of_leads ((hscene.at_rest hintact.idle now).orderly.leads_probe .take key
    (· == listener)) (List.map_eq_nil_iff.mpr hintact.idle)

theorem Intact.fire (hintact : r.Intact) (now since : Nat) :
    Intact ⟨r.monitor.fire now since⟩ ∧
      (⟨r.monitor.fire now since⟩ : Registry).isClosed = r.isClosed := by
  apply hintact.of_leads ((r.scene now).leads_step (.alarm since) nofun)
  obtain ⟨_, ⟨_, _, hwaiting⟩ | ⟨_, hwaiting⟩⟩ := Scene.fire_cases now since r.monitor <;>
    exact hwaiting.trans (List.map_eq_nil_iff.mpr hintact.idle)

/-- Taking the listeners under a key is no action of a caller, and keeps what these keep. -/
theorem Intact.drain (hintact : r.Intact) (now : Nat) (key : String) :
    (r.drain now key).1.Intact ∧
      (r.drain now key).1.isClosed = r.isClosed := by
  obtain ⟨name, hscene⟩ := hintact.scene
  have hidle : (r.drain now key).1.monitor.waiting = [] :=
    List.map_eq_nil_iff.mpr hintact.idle
  cases hclosed : r.isClosed with
  | true =>
      have hturn : PerKey.takeAll now key r.monitor.engine =
          .pure r.monitor.engine (.error r.monitor.engine.closedError) := if_pos hclosed
      have hsame : (r.drain now key).1 = r := by
        obtain ⟨⟨engine, waiting, parked, sweeper, since, stamp⟩⟩ := r
        cases hintact.idle
        simp only [Registry.drain, Monitor.perform, hturn, Turn.pure, Monitor.raise, List.map_nil]
      rw [hsame]
      exact ⟨hintact, hclosed⟩
  | false =>
      have hopen := hscene.orderly.open_of_isClosed hclosed
      obtain ⟨hsettled, hthins, hname, hopen'⟩ := PerKey.takeAll_spec hopen.sound now key
      have hnobody : ∀ w, w ∉ ((r.drain now key).1.scene 0).monitor.waiting := by
        intro w hw
        replace hw : w ∈ (r.drain now key).1.monitor.waiting := hw
        rw [hidle] at hw
        cases hw
      refine ⟨⟨hidle, name, .inl ⟨?_, fun w hw => absurd hw (hnobody w), hopen'.trans hclosed⟩,
        hthins.neat hscene.neat, hname.trans hscene.named, fun h => ?_,
        fun _ w hw => absurd hw (hnobody w)⟩, hopen'.trans hclosed⟩
      · show PerKey.Settled _ (headcount (r.drain now key).1.monitor.waiting)
        rw [hidle, ← hintact.idle]
        exact hsettled
      · exact Bool.noConfusion (h.symm.trans (hopen'.trans hclosed))

@[simp]
theorem isClosed_close (r : Registry) : r.close.isClosed = true := by
  unfold Registry.close
  split
  · assumption
  · rfl

theorem Intact.close (hintact : r.Intact) : r.close.Intact := by
  cases hclosed : r.isClosed with
  | true =>
      have hsame : r.close = r := if_pos hclosed
      rw [hsame]
      exact hintact
  | false =>
      have hclose : r.close = ⟨r.monitor.shut.clear⟩ := if_neg (Bool.eq_false_iff.mp hclosed)
      obtain ⟨name, hscene⟩ := hintact.scene
      have hopen : Engine.isClosed (r.scene 0).monitor.engine = false := hclosed
      have hrun : (r.scene 0).run [.shut, .clear] = Registry.scene ⟨r.monitor.shut.clear⟩ 0 := by
        simp only [Scene.run, Scene.step, hopen, Bool.false_eq_true, if_false, if_true]
        rfl
      have hscene' := hscene.run [.shut, .clear]
      rw [hrun] at hscene'
      rw [hclose]
      exact ⟨List.map_eq_nil_iff.mpr hintact.idle, name, hscene'⟩

/-- The registrations of a space that has just got its first listener. -/
theorem Intact.open {owner : String} {config : SpaceConfig} {now stamp : Nat}
    (hopen : Registry.open? owner config now stamp = .ok r) : r.Intact := by
  unfold Registry.open? at hopen
  split at hopen
  · cases hopen
  · cases hopen
    refine ⟨Monitor.start_waiting .., owner ++ ".listeners", ?_⟩
    exact (PerKey.intact_scene (owner ++ ".listeners") config now stamp []).at_rest
      (Monitor.start_waiting ..) 0

theorem isClosed_open? {owner : String} {config : SpaceConfig} {now stamp : Nat}
    (hopen : Registry.open? owner config now stamp = .ok r) : r.isClosed = false := by
  unfold Registry.open? at hopen
  split at hopen
  · cases hopen
  · cases hopen
    exact congrArg PerKey.closed (Monitor.start_engine ..)

/-- What is left of closed registrations. -/
theorem Intact.vacant (hintact : r.Intact) (hclosed : r.isClosed = true) :
    r.monitor.engine.records = [] ∧ r.monitor.sweeper = none := by
  obtain ⟨name, hscene⟩ := hintact.scene
  have hgone := hscene.gone hclosed rfl
  exact ⟨List.map_eq_nil_iff.mp hgone.keys, hscene.halted hclosed⟩

end Registry

/-! ## Spaces -/

namespace Space

/-- The registrations of the space have been closed, if there are any. -/
def Unwatched (s : Space) : Prop := ∀ r, s.registry = some r → r.isClosed = true

/-- What holds of a space with a name, whatever has happened to it.  While somebody is closing it
the registrations may still be open. -/
structure Intact (name : String) (now : Nat) (cancelled : List Nat) (closing : Bool) (s : Space) :
    Prop where
  backing : s.backing.Intact name now cancelled closing
  registry : ∀ r, s.registry = some r → r.Intact
  retired : s.isClosed = true → closing = false → s.Unwatched

/-- Unless it has been closed, the space can register listeners: its settings are valid, and the
registrations that it has are open. -/
def Receptive (s : Space) : Prop :=
  s.isClosed = false → s.config.validate = .ok () ∧ ∀ r, s.registry = some r → r.isClosed = false

/-- What never changes about a space, that it cannot be opened again, and that it does not close its
registrations before it closes itself. -/
structure Becomes (s s' : Space) : Prop where
  storage : s'.storage = s.storage
  closed : s.isClosed = true → s'.isClosed = true
  receptive : s.Receptive → s'.Receptive

variable {name : String} {now later : Nat} {cancelled others : List Nat} {closing closing' : Bool}
  {s s' s'' : Space} {β : Type}

theorem Becomes.refl (s : Space) : s.Becomes s := ⟨rfl, id, id⟩

theorem Becomes.trans (hfirst : s.Becomes s') (hsecond : s'.Becomes s'') : s.Becomes s'' :=
  ⟨hsecond.storage.trans hfirst.storage, hsecond.closed ∘ hfirst.closed,
    hsecond.receptive ∘ hfirst.receptive⟩

theorem Intact.name_eq (hintact : s.Intact name now cancelled closing) : s.name = name :=
  hintact.backing.name_eq

/-- An operation that makes a run of every monitor keeps a space intact; whoever has finished
closing it has closed the registrations before. -/
theorem Intact.operate (hintact : s.Intact name now cancelled closing)
    {f : {σ : Type} → [Engine σ String Json] → Monitor σ String Json → Monitor σ String Json × β}
    (hf : ∀ {σ : Type} [Engine σ String Json] [SpaceEngine σ] (m : Monitor σ String Json),
      (Scene.mk now cancelled m closing).Intact name →
      (Scene.mk now cancelled m closing).Leads (Scene.mk later others (f m).1 closing'))
    (hretired : closing = true → closing' = false → s.Unwatched) :
    Intact name later others closing' { s with backing := (s.backing.modify f).1 } ∧
      s.Becomes { s with backing := (s.backing.modify f).1 } := by
  obtain ⟨hbacking, hclosed, hopen⟩ := hintact.backing.modify hf
  refine ⟨⟨hbacking, hintact.registry, ?_⟩, ⟨rfl, hclosed, ?_⟩⟩
  · intro hclosed' hsettled
    show s.Unwatched
    cases hbefore : closing with
    | true => exact hretired hbefore hsettled
    | false =>
        apply hintact.retired _ hbefore
        by_contra hwasOpen
        have hstill := hopen hsettled (Bool.eq_false_iff.mpr hwasOpen)
        exact Bool.noConfusion (hclosed'.symm.trans hstill)
  · intro hreceptive hopen'
    have hwasOpen : s.isClosed = false := by
      by_contra hwasClosed
      have hclosed' := hclosed (Bool.not_eq_false _ ▸ hwasClosed)
      exact Bool.noConfusion (hclosed'.symm.trans hopen')
    obtain ⟨hvalid, hregistry⟩ := hreceptive hwasOpen
    have hconfig : Space.config { s with backing := (s.backing.modify f).1 } = s.config :=
      hintact.backing.config_modify hf hopen'
    exact ⟨hconfig ▸ hvalid, hregistry⟩

/-- What happens to the registrations of a space keeps it intact if they are intact and as open as
the space was. -/
theorem Intact.reregister (hintact : s.Intact name now cancelled closing)
    {registry : Option Registry} (hregistry : ∀ r', registry = some r' → r'.Intact)
    (hretired : s.Unwatched → s.isClosed = true → ∀ r', registry = some r' → r'.isClosed = true)
    (hreceptive : (∀ r, s.registry = some r → r.isClosed = false) → s.isClosed = false →
      ∀ r', registry = some r' → r'.isClosed = false) :
    Intact name now cancelled closing { s with registry } ∧ s.Becomes { s with registry } := by
  refine ⟨⟨hintact.backing, hregistry, fun hclosed hsettled =>
    hretired (hintact.retired hclosed hsettled) hclosed⟩, ⟨rfl, id, fun hbefore hopen => ?_⟩⟩
  obtain ⟨hvalid, hopenRegistry⟩ := hbefore hopen
  exact ⟨hvalid, hreceptive hopenRegistry hopen⟩

/-- Registrations that stay as open as they are. -/
theorem Intact.onRegistries (hintact : s.Intact name now cancelled closing)
    {f : Registry → Registry}
    (hf : ∀ r, s.registry = some r → (f r).Intact ∧ (f r).isClosed = r.isClosed) :
    Intact name now cancelled closing { s with registry := s.registry.map f } ∧
      s.Becomes { s with registry := s.registry.map f } := by
  apply hintact.reregister
  · intro r' hr'
    obtain ⟨r, hr, rfl⟩ := Option.map_eq_some_iff.mp hr'
    exact (hf r hr).1
  · intro hunwatched _ r' hr'
    obtain ⟨r, hr, rfl⟩ := Option.map_eq_some_iff.mp hr'
    exact (hf r hr).2.trans (hunwatched r hr)
  · intro hopen _ r' hr'
    obtain ⟨r, hr, rfl⟩ := Option.map_eq_some_iff.mp hr'
    exact (hf r hr).2.trans (hopen r hr)

/-- An operation on the registrations. -/
theorem Intact.onRegistry (hintact : s.Intact name now cancelled closing) {r r' : Registry}
    (hsome : s.registry = some r) (hr' : r'.Intact) (hclosed : r'.isClosed = r.isClosed) :
    Intact name now cancelled closing { s with registry := some r' } ∧
      s.Becomes { s with registry := some r' } := by
  have hboth := hintact.onRegistries (f := fun _ => r') fun x hx => by
    cases hsome.symm.trans hx
    exact ⟨hr', hclosed⟩
  rwa [hsome] at hboth

/-! ### Stamps -/

@[simp]
theorem isClosed_stampSpace (stamp : Nat) (s : Space) :
    (World.stampSpace stamp s).isClosed = s.isClosed := by
  obtain ⟨b, _, _⟩ := s
  cases b <;> rfl

theorem unwatched_stampSpace (stamp : Nat) (s : Space) :
    (World.stampSpace stamp s).Unwatched ↔ s.Unwatched := by
  constructor
  · intro hunwatched r hr
    refine hunwatched ⟨World.stampMonitor stamp r.monitor⟩ ?_
    rw [World.stampSpace, hr]
    rfl
  · intro hunwatched r hr
    obtain ⟨x, hx, rfl⟩ := Option.map_eq_some_iff.mp hr
    exact hunwatched x hx

/-- Numbering the waits anew keeps a space intact. -/
theorem Intact.restamp (hintact : s.Intact name now cancelled closing) (stamp : Nat) :
    (World.stampSpace stamp s).Intact name now cancelled closing ∧
      s.Becomes (World.stampSpace stamp s) := by
  obtain ⟨hbacked, hbecomes⟩ := hintact.operate
    (f := fun m => (World.stampMonitor stamp m, ()))
    (fun m _ => (Scene.mk now cancelled m closing).leads_step (.renumber stamp) nofun)
    (fun hclosing hsettled => Bool.noConfusion (hclosing.symm.trans hsettled))
  obtain ⟨hstamped, hstays⟩ := hbacked.onRegistries
    (f := fun r => ⟨World.stampMonitor stamp r.monitor⟩)
    fun r hr => ⟨(hintact.registry r hr).restamp stamp, rfl⟩
  exact ⟨hstamped, hbecomes.trans hstays⟩

/-! ### Operations -/

theorem Intact.advance (hintact : s.Intact name now cancelled closing) (hle : now ≤ later) :
    s.Intact name later cancelled closing :=
  ⟨hintact.backing.advance hle, hintact.registry, hintact.retired⟩

/-- A token is cancelled, and its cancellation announced. -/
theorem Intact.cancel (hintact : s.Intact name now cancelled closing) {token : Nat}
    (hfewer : others ⊆ token :: cancelled) :
    Intact name now others closing
        { s with backing := (s.backing.modify fun m => (m.cancel token, ())).1 } ∧
      s.Becomes { s with backing := (s.backing.modify fun m => (m.cancel token, ())).1 } := by
  obtain ⟨hcancelled, hbecomes⟩ : Intact name now (token :: cancelled) closing _ ∧ s.Becomes _ :=
    hintact.operate (f := fun m => (m.cancel token, ()))
    (fun m _ => (Scene.mk now cancelled m closing).leads_step (.cancel token) nofun)
    (fun hclosing hsettled => Bool.noConfusion (hclosing.symm.trans hsettled))
  exact ⟨⟨hcancelled.backing.recancel hfewer, hcancelled.registry, hcancelled.retired⟩, hbecomes⟩

/-- Counting that a listener was told, or panicked. -/
theorem Intact.told (hintact : s.Intact name now cancelled closing) (panicked : Bool) :
    (s.count (if panicked then .listenerPanic else .listenerFired)).Intact name now cancelled
        closing ∧
      s.Becomes (s.count (if panicked then .listenerPanic else .listenerFired)) :=
  hintact.operate
    (f := fun m =>
      ({ m with
          engine := Engine.count (if panicked then .listenerPanic else .listenerFired) m.engine },
        ()))
    (fun m _ => (Scene.mk now cancelled m closing).leads_step (.told panicked) nofun)
    (fun hclosing hsettled => Bool.noConfusion (hclosing.symm.trans hsettled))

/-- An alarm that goes off, of the space or of its registrations. -/
theorem Intact.fire (hintact : s.Intact name now cancelled closing) (a : Alarm) :
    (World.fireSpace now a s).Intact name now cancelled closing ∧
      s.Becomes (World.fireSpace now a s) := by
  unfold World.fireSpace
  split
  · exact hintact.operate (f := fun m => (m.fire now a.since, ()))
      (fun m _ => (Scene.mk now cancelled m closing).leads_step (.alarm a.since) nofun)
      (fun hclosing hsettled => Bool.noConfusion (hclosing.symm.trans hsettled))
  · exact hintact.onRegistries fun r hr => (hintact.registry r hr).fire now a.since

theorem unwatched_closeRegistry (s : Space) :
    Unwatched { s with registry := s.registry.map Registry.close } := by
  intro r' hr'
  obtain ⟨r, hr, rfl⟩ := Option.map_eq_some_iff.mp hr'
  exact r.isClosed_close

/-- Closing the registrations of a space. -/
theorem Intact.closeRegistry (hintact : s.Intact name now cancelled closing) :
    Intact name now cancelled closing { s with registry := s.registry.map Registry.close } := by
  refine ⟨hintact.backing, fun r' hr' => ?_, fun _ _ => s.unwatched_closeRegistry⟩
  obtain ⟨r, hr, rfl⟩ := Option.map_eq_some_iff.mp hr'
  exact (hintact.registry r hr).close

/-- A space that somebody is closing refuses operations. -/
theorem Intact.isClosed_of_closing (hintact : s.Intact name now cancelled true) :
    s.isClosed = true := by
  obtain ⟨b, registry, storage⟩ := s
  cases b with
  | perKey m => exact hintact.backing.orderly.isClosed_of_closing rfl
  | singleLock m => exact hintact.backing.orderly.isClosed_of_closing rfl

/-- An open space begins to close. -/
theorem Intact.shut (hintact : s.Intact name now cancelled closing) (hopen : s.isClosed = false)
    {f : {σ : Type} → [Engine σ String Json] → Monitor σ String Json → β} :
    Intact name now cancelled true
        { s with backing := (s.backing.modify fun m => (m.shut, f m)).1 } ∧
      s.Becomes { s with backing := (s.backing.modify fun m => (m.shut, f m)).1 } := by
  obtain ⟨hbacking, hclosed⟩ := hintact.backing.shut hopen (f := f)
  exact ⟨⟨hbacking, hintact.registry, nofun⟩, ⟨rfl, fun _ => hclosed, fun _ hopen =>
    Bool.noConfusion (hclosed.symm.trans hopen)⟩⟩

/-! ### New spaces -/

/-- A space in which nothing has happened yet, or only insertions. -/
structure Fresh (name : String) (now : Nat) (cancelled : List Nat) (s : Space) : Prop where
  intact : s.Intact name now cancelled false
  idle : s.backing.view fun m => m.waiting = []
  isOpen : s.isClosed = false
  unregistered : s.registry = none
  receptive : s.Receptive

theorem Fresh.calm (hfresh : s.Fresh name now cancelled) : s.backing.Calm := by
  have hidle := hfresh.idle
  cases hbacking : s.backing <;> rw [hbacking] at hidle <;> intro x hx <;>
    rw [show _ = [] from hidle] at hx <;> cases hx

theorem fresh_perKey {config : SpaceConfig} {stamp : Nat}
    (hopen : Space.perKey name config now stamp = .ok s) (cancelled : List Nat) :
    s.Fresh name now cancelled := by
  unfold Space.perKey at hopen
  split at hopen
  · cases hopen
  · rename_i hvalid
    cases hopen
    let engine : PerKey String Json := .new name config
    have hconfig : (Monitor.start engine now stamp).engine.config = config :=
      congrArg PerKey.config (Monitor.start_engine engine now stamp)
    have hopen :=
      (PerKey.open_scene (κ := String) (α := Json) name config now stamp cancelled).isClosed
    exact ⟨⟨PerKey.intact_scene name config now stamp cancelled, nofun,
      fun hclosed => Bool.noConfusion (hclosed.symm.trans hopen)⟩, Monitor.start_waiting .., hopen,
      rfl, fun _ => ⟨(congrArg SpaceConfig.validate hconfig).trans hvalid, nofun⟩⟩

theorem fresh_singleLock {config : SpaceConfig} {stamp : Nat}
    (hopen : Space.singleLock name config now stamp = .ok s) (cancelled : List Nat) :
    s.Fresh name now cancelled := by
  unfold Space.singleLock at hopen
  split at hopen
  · cases hopen
  · rename_i hvalid
    cases hopen
    let engine : SingleLock String Json := .new name config
    have hconfig : (Monitor.start engine now stamp).engine.config = config :=
      congrArg SingleLock.config (Monitor.start_engine engine now stamp)
    have hopen :=
      (SingleLock.open_scene (κ := String) (α := Json) name config now stamp cancelled).isClosed
    exact ⟨⟨SingleLock.intact_scene name config now stamp cancelled, nofun,
      fun hclosed => Bool.noConfusion (hclosed.symm.trans hopen)⟩, Monitor.start_waiting .., hopen,
      rfl, fun _ => ⟨(congrArg SpaceConfig.validate hconfig).trans hvalid, nofun⟩⟩

/-- Where a new space is kept makes no difference. -/
theorem Fresh.store (hfresh : s.Fresh name now cancelled) (storage : Option Storage) :
    Fresh name now cancelled { s with storage } :=
  ⟨⟨hfresh.intact.backing, hfresh.intact.registry, hfresh.intact.retired⟩, hfresh.idle,
    hfresh.isOpen, hfresh.unregistered, hfresh.receptive⟩

/-- An insertion keeps a space as good as new. -/
theorem Fresh.insert (hfresh : s.Fresh name now cancelled) (key : String) (value : Json)
    (timeout : Nat) (placement : Placement) :
    Fresh name now cancelled { s with backing := (s.backing.modify fun m =>
      m.perform (Engine.insert now key value timeout placement)).1 } := by
  have hleads : ∀ {σ : Type} [Engine σ String Json] [SpaceEngine σ] (m : Monitor σ String Json),
      (Scene.mk now cancelled m false).Leads (Scene.mk now cancelled
        (m.perform (Engine.insert now key value timeout placement)).1 false) :=
    fun m => (Scene.mk now cancelled m false).leads_step
      (.insert key value timeout placement) nofun
  obtain ⟨hintact, hbecomes⟩ := hfresh.intact.operate
    (f := fun m => m.perform (Engine.insert now key value timeout placement))
    (fun m _ => hleads m) nofun
  obtain ⟨_, _, hopen⟩ := hfresh.intact.backing.modify
    (f := fun m => m.perform (Engine.insert now key value timeout placement)) (fun m _ => hleads m)
  refine ⟨hintact, ?_, hopen rfl hfresh.isOpen, hfresh.unregistered,
    hbecomes.receptive hfresh.receptive⟩
  have hidle := hfresh.idle
  cases hbacking : s.backing with
  | perKey m =>
      rw [hbacking] at hidle
      exact List.map_eq_nil_iff.mpr hidle
  | singleLock m =>
      rw [hbacking] at hidle
      exact List.map_eq_nil_iff.mpr hidle

end Space

end TupleSpace
