import Mathlib.Data.Multiset.Defs
import TupleSpace.Proofs.Engine.PerKey.Exact
import TupleSpace.Proofs.Engine.SingleLock.Exact
import TupleSpace.Proofs.Run.Spaces
import TupleSpace.Proofs.Session.Errands
import TupleSpace.World.Lookup

/-!
# The two kinds of space agree

A caller who does one errand after another cannot tell a space with one record per key from a space
with a single lock: the replies are the same, and so is what can be seen of the space between two
errands.  The kinds drop expired entries, forget generations and give up storage at different
moments, but what they show agrees with one session.

One thing has to be said about the end of an errand.  If a call gives up at an instant at which a
tick of the sweeper is due, the kinds may differ in which of the two comes first; so an errand
counts as complete once the ticks of that instant have been made.
-/

namespace TupleSpace

open Bookkeeping SweepBooks

/-- What can be seen of a space: its keys in no order, the entries under every key, the keys that
await a sweep of each generation in no order, and its counters without those of sweeps and of
storage given up. -/
structure Sight where
  keys : Multiset String
  stored : String → List (Entry Json)
  awaiting : Generation → Multiset String
  metrics : Metrics

/-- What can be seen of an engine. -/
def Engine.sight {σ : Type} [Engine σ String Json] (s : σ) : Sight where
  keys := Engine.keys s
  stored := Engine.stored s
  awaiting gen := Engine.awaiting s gen
  metrics := (Engine.metrics s).observed

namespace World

/-- What can be seen of the first space. -/
def sight? (w : World) : Option Sight :=
  w.spaces[0]?.map fun s => s.backing.viewEngine Engine.sight

/-- Does an errand, and then lets the ticks be made that are due at the instant of its end. -/
def complete (w : World) (e : Errand) : World × Option Reply :=
  let (w, reply) := w.perform e
  (w.advance 0, reply)

/-- The replies to one errand after another, and what is seen after each of them, up to an errand
that is never done. -/
def history (step : World → Errand → World × Option Reply) :
    List Errand → World → List (Option (Reply × Option Sight))
  | [], _ => []
  | e :: es, w =>
    match step w e with
    | (_, none) => [none]
    | (w, some reply) => some (reply, w.sight?) :: history step es w

/-- The history of a new space, opened at some instant while some tokens are cancelled. -/
def historyOf (step : World → Errand → World × Option Reply)
    (opens : String → SpaceConfig → Nat → Nat → Except SpaceError Space) (name : String)
    (config : SpaceConfig) (now : Nat) (epoch : Moment) (cancelled : List Nat)
    (es : List Errand) : Except SpaceError (List (Option (Reply × Option Sight))) :=
  let w : World := { now, epoch, cancelled }
  match w.addOpened (opens name config w.now w.stamp) with
  | (_, .error e) => .error e
  | (w, .ok _) => .ok (history step es w)

end World

/-- The session of a new space. -/
def Session.fresh (config : SpaceConfig) (now : Nat) (cancelled : List Nat) :
    Session String Json where
  now := now
  cancelled := cancelled
  config := config
  sweeper := if config.sweeper then some (Sweeper.start config now) else none
  picture := ⟨fun _ => [], fun _ => ∅, nofun⟩
  foreseen := {}

namespace Session

theorem regular_fresh {config : SpaceConfig} (hvalid : config.validate = .ok ()) (now : Nat)
    (cancelled : List Nat) : (fresh config now cancelled).Regular := by
  intro s hs
  rw [fresh] at hs
  split at hs
  · cases hs
    exact Sweeper.regular_start hvalid now
  · cases hs

/-- The first tick of a new space is still to come. -/
theorem lt_alarm_fresh {config : SpaceConfig} (hvalid : config.validate = .ok ()) {now t : Nat}
    {cancelled : List Nat} (halarm : (fresh config now cancelled).alarm? = some t) : now < t := by
  obtain ⟨s, hsweeper⟩ := sweeper_of_alarm? halarm
  have hregular := regular_fresh hvalid now cancelled s hsweeper
  rw [alarm?_of_some hsweeper hregular] at halarm
  cases halarm
  rw [fresh] at hsweeper
  split at hsweeper
  · cases hsweeper
    have hshort : 0 < config.shortSweep := hregular.shortEvery
    have hlong : 0 < config.longSweep := hregular.longEvery
    exact Nat.lt_min.mpr ⟨Nat.lt_add_of_pos_right hshort, Nat.lt_add_of_pos_right hlong⟩
  · cases hsweeper

/-- A new engine shows a new session. -/
theorem shows_fresh {σ : Type} [Engine σ String Json] [SweepBooks σ String Json] {s : σ}
    {config : SpaceConfig} (hneat : Neat s) (hopen : Engine.isClosed s = false)
    (hconfig : Engine.config s = config) (hstored : Engine.stored s = fun _ => [])
    (hmetrics : Engine.metrics s = {}) (now : Nat) (cancelled : List Nat) :
    Shows s (fresh config now cancelled) := by
  refine ⟨hneat, hopen, hconfig, ?_, 0, ?_, ?_⟩
  · apply Picture.ext hstored
    funext gen
    apply Set.eq_empty_of_forall_notMem
    intro key hkey
    exact hkey.2 (congrFun hstored key)
  · rw [hstored]
    exact Store.holds_nil
  · rw [hmetrics]
    rfl

end Session

/-! ## Sights -/

section Sights

variable {σ : Type} [Engine σ String Json] [Bookkeeping σ String Json] [SweepBooks σ String Json]
  [LawfulEngine σ String Json] [ExactEngine σ String Json] {s : σ} {c : Session String Json}

/-- While nobody waits the keys are those that store something. -/
theorem Shows.mem_keys (hshows : Shows s c) (hsound : Sound s fun _ => 0) (key : String) :
    key ∈ Engine.keys s ↔ c.picture.stored key ≠ [] := by
  rw [← hshows.stored]
  exact ⟨ExactEngine.stored_ne_nil hsound, LawfulEngine.mem_keys hsound⟩

omit [LawfulEngine σ String Json] in
theorem Shows.mem_awaiting (hshows : Shows s c) (hsound : Sound s fun _ => 0) (gen : Generation)
    (key : String) : key ∈ Engine.awaiting s gen ↔ key ∈ c.picture.awaiting gen := by
  rw [← hshows.picture]
  exact (Engine.mem_picture_awaiting hsound hshows.neat gen key).symm

variable {τ : Type} [Engine τ String Json] [Bookkeeping τ String Json] [SweepBooks τ String Json]
  [LawfulEngine τ String Json] [ExactEngine τ String Json] {s' : τ}

/-- Engines that show one session look the same. -/
theorem Shows.sight_eq (hshows : Shows s c) (hsound : Sound s fun _ => 0) (hshows' : Shows s' c)
    (hsound' : Sound s' fun _ => 0) : Engine.sight s = Engine.sight s' := by
  have hkeys : (Engine.keys s).Perm (Engine.keys s') := by
    rw [List.perm_ext_iff_of_nodup (LawfulEngine.keys_nodup hsound)
      (LawfulEngine.keys_nodup hsound')]
    intro key
    rw [hshows.mem_keys hsound, hshows'.mem_keys hsound']
  have hawaiting : ∀ gen, (Engine.awaiting s gen).Perm (Engine.awaiting s' gen) := by
    intro gen
    rw [List.perm_ext_iff_of_nodup (ExactEngine.awaiting_nodup hshows.neat gen)
      (ExactEngine.awaiting_nodup hshows'.neat gen)]
    intro key
    rw [hshows.mem_awaiting hsound, hshows'.mem_awaiting hsound']
  have hstored : Engine.stored s = Engine.stored s' := hshows.stored.trans hshows'.stored.symm
  have hmetrics : (Engine.metrics s).observed = (Engine.metrics s').observed :=
    hshows'.foresees.observed_eq hshows.foresees hstored
  unfold Engine.sight
  rw [hstored, hmetrics, Multiset.coe_eq_coe.mpr hkeys]
  congr 1
  funext gen
  exact Multiset.coe_eq_coe.mpr (hawaiting gen)

end Sights

/-! ## Histories -/

namespace World

section Histories

variable {σ : Type} [Engine σ String Json] [Housed σ] [Bookkeeping σ String Json]
  [SweepBooks σ String Json] [LawfulEngine σ String Json] [ExactEngine σ String Json]
  {w : World} {m : Monitor σ String Json} {c : Session String Json}

omit [Bookkeeping σ String Json] [SweepBooks σ String Json] [LawfulEngine σ String Json]
  [ExactEngine σ String Json] in
theorem Hosts.sight?_eq (hhosts : w.Hosts m) : w.sight? = some (Engine.sight m.engine) := by
  rw [sight?, hhosts.spaces]
  show some ((Housed.house m).view fun m => Engine.sight m.engine) = _
  rw [Housed.view_house]

/-- A complete errand: the reply is that of the session, and the world is behind the session
again. -/
theorem AtRest.complete (hrest : w.AtRest m c) (hquiet : ∀ t, c.alarm? = some t → c.now < t)
    (e : Errand) :
    ∃ r c', c.Does e r c' ∧ (w.complete e).2 = r ∧
      (r.isSome = true → (∃ m' : Monitor σ String Json, (w.complete e).1.AtRest m' c') ∧
        ∀ t, c'.alarm? = some t → c'.now < t) := by
  obtain ⟨r, c', hdoes, hreply, hends⟩ := hrest.perform hquiet e
  refine ⟨r, c', hdoes, hreply, fun hsome => ?_⟩
  obtain ⟨m₁, c₁, hrest₁, hlapses⟩ := hends hsome
  refine ⟨hrest₁.advance_span hlapses, ?_⟩
  intro t halarm
  rw [hlapses.now_eq (Nat.le_refl _)]
  exact hlapses.lt_alarm halarm

variable {τ : Type} [Engine τ String Json] [Housed τ] [Bookkeeping τ String Json]
  [SweepBooks τ String Json] [LawfulEngine τ String Json] [ExactEngine τ String Json]
  {w' : World} {m' : Monitor τ String Json}

/-- Two worlds behind one session have the same history. -/
theorem AtRest.history_eq (hrest : w.AtRest m c) (hrest' : w'.AtRest m' c)
    (hquiet : ∀ t, c.alarm? = some t → c.now < t) (es : List Errand) :
    history World.complete es w = history World.complete es w' := by
  induction es generalizing w w' m m' c with
  | nil => rfl
  | cons e es ih =>
      obtain ⟨r, c₁, hdoes, hreply, hends⟩ := hrest.complete hquiet e
      obtain ⟨r', c₁', hdoes', hreply', hends'⟩ := hrest'.complete hquiet e
      obtain ⟨rfl, rfl⟩ := hdoes.unique hdoes'
      obtain ⟨v, hv⟩ : ∃ v, w.complete e = (v, r) := ⟨_, Prod.ext rfl hreply⟩
      obtain ⟨v', hv'⟩ : ∃ v', w'.complete e = (v', r) := ⟨_, Prod.ext rfl hreply'⟩
      rw [history, history, hv, hv']
      rw [hv] at hends
      rw [hv'] at hends'
      cases r with
      | none => rfl
      | some reply =>
          obtain ⟨⟨n, hrests⟩, hquiet₁⟩ := hends rfl
          obtain ⟨⟨n', hrests'⟩, -⟩ := hends' rfl
          have hsight : v.sight? = v'.sight? := by
            rw [Hosts.sight?_eq hrests.toHosts, Hosts.sight?_eq hrests'.toHosts,
              hrests.shows.sight_eq hrests.sound hrests'.shows hrests'.sound]
          simp only [hsight, ih hrests hrests' hquiet₁]

omit [LawfulEngine σ String Json] [ExactEngine σ String Json] in
/-- A world with one new space in it, at rest. -/
theorem atRest_fresh {s : σ} {config : SpaceConfig} (hvalid : config.validate = .ok ())
    (hconfig : Engine.config s = config) (hsound : Sound s fun _ => 0)
    (hshows : ∀ now cancelled, Shows s (.fresh config now cancelled)) (now : Nat) (epoch : Moment)
    (cancelled : List Nat) :
    ((({ now, epoch, cancelled } : World).addSpace
      { backing := Housed.house (Monitor.start s now 0) }).1).AtRest (Monitor.start s now 0)
      (.fresh config now cancelled) := by
  obtain ⟨-, -, hpoll⟩ := SpaceConfig.validate_eq_ok_iff.mp hvalid
  have hsweeper : (Monitor.start s now 0).sweeper =
      (Session.fresh config now cancelled).sweeper := by
    rw [Monitor.start, hconfig, Session.fresh]
    split <;> rfl
  refine ⟨⟨⟨rfl, rfl⟩, ?stamped, rfl, rfl, hsweeper, Session.regular_fresh hvalid now cancelled,
    ?punctual, ?numbered, Nat.mul_pos hpoll (by decide)⟩, Monitor.start_waiting s now 0, ?sound,
    ?shows, rfl⟩
  case stamped =>
    show _ = max 0 (spaceStamp _)
    rw [spaceStamp_house, Nat.zero_max]
  case punctual =>
    intro t halarm
    exact (Session.lt_alarm_fresh hvalid halarm).le
  case numbered =>
    intro sweeper hswept
    rw [← hsweeper] at hswept
    unfold Monitor.start at hswept ⊢
    split at hswept
    · rename_i hon
      rw [if_pos hon]
      exact Nat.lt_succ_self _
    · cases hswept
  case sound =>
    rw [Monitor.start_engine]
    exact hsound
  case shows =>
    rw [Monitor.start_engine]
    exact hshows now cancelled

end Histories

end World

theorem PerKey.shows_fresh (name : String) (config : SpaceConfig) (now : Nat)
    (cancelled : List Nat) :
    Shows (PerKey.new name config : PerKey String Json) (.fresh config now cancelled) := by
  have hneat : Neat (PerKey.new name config : PerKey String Json) := Generations.neat_new ..
  exact Session.shows_fresh hneat rfl rfl rfl rfl now cancelled

theorem SingleLock.shows_fresh (name : String) (config : SpaceConfig) (now : Nat)
    (cancelled : List Nat) :
    Shows (SingleLock.new name config : SingleLock String Json) (.fresh config now cancelled) := by
  have hneat : Neat (SingleLock.new name config : SingleLock String Json) := Generations.neat_new ..
  exact Session.shows_fresh hneat rfl rfl rfl rfl now cancelled

/-- The two kinds of space cannot be told apart: with settings that cannot be run with neither
opens, and otherwise all errands have the same history. -/
theorem perKey_singleLock_agree (name : String) (config : SpaceConfig) (now : Nat)
    (epoch : Moment) (cancelled : List Nat) (es : List Errand) :
    World.historyOf World.complete Space.perKey name config now epoch cancelled es =
      World.historyOf World.complete Space.singleLock name config now epoch cancelled es := by
  cases hvalid : config.validate with
  | error e => simp only [World.historyOf, Space.perKey, Space.singleLock, hvalid, World.addOpened]
  | ok =>
      have hperKey := World.atRest_fresh (s := (PerKey.new name config : PerKey String Json))
        hvalid rfl (PerKey.settled_new name config) (PerKey.shows_fresh name config) now epoch
        cancelled
      have hsingleLock :=
        World.atRest_fresh (s := (SingleLock.new name config : SingleLock String Json)) hvalid rfl
          (SingleLock.tidy_new name config) (SingleLock.shows_fresh name config) now epoch
          cancelled
      have hagree := hperKey.history_eq hsingleLock
        (fun t => Session.lt_alarm_fresh hvalid) es
      simp only [World.historyOf, Space.perKey, Space.singleLock, hvalid, World.addOpened]
      exact congrArg Except.ok hagree

namespace World

/-- The sizes of a queue that a history has seen. -/
def sizesIn (key : String) (h : Except SpaceError (List (Option (Reply × Option Sight)))) :
    List (Option Nat) :=
  (h.toOption.getD []).map fun seen =>
    (seen.bind Prod.snd).map fun sight => (sight.stored key).length

/-- Short sweeps every ten milliseconds, and long ones hardly ever. -/
def eagerSweeps : SpaceConfig := { shortSweepMs := 10, longSweepMs := 1000000 }

/-- Two values that expire between ticks, and a call that gives up when the second tick is due. -/
def givingUpAtTick : List Errand :=
  [.insert "a" (.ofNat 1) (Span.ofMillis 5) .tail,
    .insert "b" (.ofNat 2) (Span.ofMillis 15) .tail,
    .call (.retrieve .take "c" (fun _ => true) (some (Span.ofMillis 20)) none)]

end World

/-- Without the ticks of the instant at which a call gives up the kinds differ: the first tick has
woken a waiting call of the one kind, and it has waited anew, so the second tick comes before it. -/
theorem perKey_singleLock_differ_at_tick :
    ¬ ∀ (name : String) (config : SpaceConfig) (now : Nat) (epoch : Moment)
        (cancelled : List Nat) (es : List Errand),
      World.historyOf World.perform Space.perKey name config now epoch cancelled es =
        World.historyOf World.perform Space.singleLock name config now epoch cancelled es := by
  intro hagree
  have hsizes := congrArg (World.sizesIn "b")
    (hagree "space" World.eagerSweeps 0 ⟨19723, 0, 0⟩ [] World.givingUpAtTick)
  revert hsizes
  decide +kernel

end TupleSpace
