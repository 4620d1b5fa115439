import Mathlib.Algebra.GroupWithZero.Nat
import Mathlib.Data.List.Intervals
import TupleSpace.Proofs.Ticks

/-!
# The cadence of a sweeper

A sweeper keeps time: whatever happens to its target in between, and however the passing of time is
split up, the ticks of each generation come at the multiples of its interval, counted from the start
of the sweeper, each exactly once, and the short one first if both are due.  Ticks that panic are no
exception; the target is told of each of them once.

This ends when the sweeper is stopped or its target is gone, and then no tick begins any more.  A
target that asks its sweeper to stop in the middle of a tick still gets the long tick of the same
instant, and nothing after that.

A sweeper sets its next tick one interval after the clock at which it ran, not after the instant for
which the tick was set.  What keeps it from drifting is that it always wakes at the earlier of its
two next ticks, so the invariant is that both are the next multiples after the present.
-/

namespace TupleSpace

/-! ## Ticks and what a target notices of them -/

/-- A tick that has begun. -/
structure Tick (τ : Type) where
  instant : Nat
  gen : Generation
  /-- The target at the moment at which the tick begins. -/
  before : τ

/-- What a sweeper does to its target. -/
inductive SweepCall where
  | sweep (gen : Generation)
  | /-- The target is told that the sweep has panicked. -/
    panicked (gen : Generation)
deriving DecidableEq, Repr

namespace Tick

variable {τ : Type}

/-- Whether the sweep of a tick panics. -/
def panics (target : SweepTarget τ) (x : Tick τ) : Bool :=
  (target.sweep x.gen x.before).2

/-- Whether the target asks its sweeper to stop once the tick is over. -/
def asks (target : SweepTarget τ) (x : Tick τ) : Bool :=
  target.asksToStop (target.tick x.gen x.before)

/-- What a tick consists of: the sweep, and the news of it if it panics. -/
def calls (target : SweepTarget τ) (x : Tick τ) : List SweepCall :=
  .sweep x.gen :: if x.panics target then [.panicked x.gen] else []

/-- Whether one tick comes before another: earlier, or at the same instant and in the short
generation. -/
def Before (x y : Tick τ) : Prop :=
  x.instant < y.instant ∨ x.instant = y.instant ∧ x.gen = .short ∧ y.gen = .long

/-- Whether a tick may begin after one that asks the sweeper to stop: it is the long tick of the
instant at which the short one has asked. -/
def Yields (target : SweepTarget τ) (x y : Tick τ) : Prop :=
  x.asks target = true → y.instant = x.instant ∧ x.gen = .short ∧ y.gen = .long

/-- The instants of the ticks of a generation, one after the other. -/
def instants (gen : Generation) (ticks : List (Tick τ)) : List Nat :=
  (ticks.filter fun x => x.gen = gen).map Tick.instant

/-- A record has one sweep for every tick of a generation. -/
theorem count_sweep (target : SweepTarget τ) (gen : Generation) (ticks : List (Tick τ)) :
    (ticks.flatMap (calls target)).count (.sweep gen) = (instants gen ticks).length := by
  induction ticks with
  | nil => rfl
  | cons x ticks ih =>
      have hone : (x.calls target).count (.sweep gen) = if x.gen = gen then 1 else 0 := by
        unfold calls
        split <;> simp [List.count_cons]
      rw [List.flatMap_cons, List.count_append, ih, hone, instants, instants, List.filter_cons]
      split <;> simp_all [Nat.add_comm]

/-- A record has one piece of news for every tick of a generation that has panicked. -/
theorem count_panicked (target : SweepTarget τ) (gen : Generation) (ticks : List (Tick τ)) :
    (ticks.flatMap (calls target)).count (.panicked gen) =
      ticks.countP fun x => x.gen = gen ∧ x.panics target = true := by
  induction ticks with
  | nil => rfl
  | cons x ticks ih =>
      have hone : (x.calls target).count (.panicked gen) =
          if x.gen = gen ∧ x.panics target = true then 1 else 0 := by
        unfold calls
        by_cases hpanics : x.panics target = true <;> simp [hpanics, List.count_cons]
      rw [List.flatMap_cons, List.count_append, ih, hone, List.countP_cons, Nat.add_comm]
      simp only [decide_eq_true_eq]

theorem instants_append (gen : Generation) (ticks more : List (Tick τ)) :
    instants gen (ticks ++ more) = instants gen ticks ++ instants gen more := by
  simp only [instants, List.filter_append, List.map_append]

/-- Every tick is one of a generation. -/
theorem length_eq_add (ticks : List (Tick τ)) :
    ticks.length = (instants .short ticks).length + (instants .long ticks).length := by
  induction ticks with
  | nil => rfl
  | cons x ticks ih =>
      rw [← List.singleton_append, instants_append, instants_append]
      simp only [List.length_append, ih]
      rcases x with ⟨instant, _ | _, before⟩
      · show 1 + _ = 1 + _ + (0 + _)
        omega
      · show 1 + _ = 0 + _ + (1 + _)
        omega

end Tick

/-- A target does not take back that its sweeper is to stop. -/
def SweepTarget.Resolute {τ : Type} (target : SweepTarget τ) : Prop :=
  ∀ gen t, target.asksToStop t = true → target.asksToStop (target.tick gen t) = true

/-- A target that keeps a record of what its sweeper does to it. -/
def SweepTarget.recording {τ : Type} (target : SweepTarget τ) :
    SweepTarget (τ × List SweepCall) where
  isAlive t := target.isAlive t.1
  sweep gen t := (((target.sweep gen t.1).1, t.2 ++ [.sweep gen]), (target.sweep gen t.1).2)
  panicked gen t := (target.panicked gen t.1, t.2 ++ [.panicked gen])
  asksToStop t := target.asksToStop t.1

namespace SweepTarget

variable {τ : Type}

@[simp]
theorem recording_isAlive (target : SweepTarget τ) (t : τ × List SweepCall) :
    target.recording.isAlive t = target.isAlive t.1 := rfl

@[simp]
theorem recording_asksToStop (target : SweepTarget τ) (t : τ × List SweepCall) :
    target.recording.asksToStop t = target.asksToStop t.1 := rfl

/-- A tick of a target that keeps a record. -/
theorem recording_tick (target : SweepTarget τ) (now : Nat) (gen : Generation) (t : τ)
    (calls : List SweepCall) :
    target.recording.tick gen (t, calls) =
      (target.tick gen t, calls ++ Tick.calls target ⟨now, gen, t⟩) := by
  rcases hswept : target.sweep gen t with ⟨t', panics⟩
  cases panics <;> simp [tick, recording, Tick.calls, Tick.panics, hswept]

end SweepTarget

namespace Sweeper

variable {τ : Type} {target : SweepTarget τ} {s : Sweeper} {t : τ}
  {start elapsed until_ fuel : Nat}

/-! ## The ticks of a sweeper -/

/-- The ticks that begin when a sweeper wakes. -/
def wakeTicks (target : SweepTarget τ) (now : Nat) (s : Sweeper) (t : τ) : List (Tick τ) :=
  if target.isAlive t then
    (if s.nextShort ≤ now then [⟨now, .short, t⟩] else []) ++
      if s.nextLong ≤ now then [⟨now, .long, (tickShort target now s t).2⟩] else []
  else []

/-- The ticks that begin while the clock runs up to an instant and the sweeper wakes at most `fuel`
times. -/
def ticksUntil (target : SweepTarget τ) (until_ : Nat) : Nat → Sweeper → τ → List (Tick τ)
  | 0, _, _ => []
  | fuel + 1, s, t =>
    match s.wakeAt? with
    | some at_ =>
      if at_ ≤ until_ then
        wakeTicks target at_ s t ++
          ticksUntil target until_ fuel (wake target at_ s t).1 (wake target at_ s t).2
      else []
    | none => []

/-- The ticks that begin while the clock runs up to an instant. -/
def advanceTicks (target : SweepTarget τ) (until_ : Nat) (s : Sweeper) (t : τ) : List (Tick τ) :=
  ticksUntil target until_ (s.wakeBound until_) s t

/-- What a sweeper does when it wakes, if its target is still there. -/
theorem wake_of_alive (halive : target.isAlive t = true) (now : Nat) (s : Sweeper) :
    wake target now s t =
      (if target.asksToStop (wake target now s t).2 then (s.after now).stop else s.after now,
        (wake target now s t).2) := by
  simp only [wake, halive, if_true, ticks_fst]

theorem wake_of_dead (hdead : target.isAlive t = false) (now : Nat) (s : Sweeper) :
    wake target now s t = ({ s with ended := true }, t) := by
  simp only [wake, hdead, Bool.false_eq_true, if_false]

/-- The ticks of one instant: at most one of each generation, and the short one first. -/
theorem pairwise_wakeTicks (target : SweepTarget τ) (now : Nat) (s : Sweeper) (t : τ) :
    (wakeTicks target now s t).Pairwise Tick.Before ∧
      ∀ x ∈ wakeTicks target now s t, x.instant = now := by
  unfold wakeTicks
  split
  · split <;> split <;> simp [Tick.Before]
  · exact ⟨List.Pairwise.nil, List.forall_mem_nil _⟩

/-- The two ways in which a step of a sweeper ends: it sleeps on, or it wakes at its next tick. -/
theorem runUntil_cases (target : SweepTarget τ) (until_ fuel : Nat) (s : Sweeper) (t : τ) :
    ((s.isRunning = true → until_ < min s.nextShort s.nextLong) ∧
        runUntil target until_ (fuel + 1) s t = (s, t) ∧
        ticksUntil target until_ (fuel + 1) s t = []) ∨
      s.isRunning = true ∧ min s.nextShort s.nextLong ≤ until_ ∧
        runUntil target until_ (fuel + 1) s t =
          runUntil target until_ fuel (wake target (min s.nextShort s.nextLong) s t).1
            (wake target (min s.nextShort s.nextLong) s t).2 ∧
        ticksUntil target until_ (fuel + 1) s t =
          wakeTicks target (min s.nextShort s.nextLong) s t ++
            ticksUntil target until_ fuel (wake target (min s.nextShort s.nextLong) s t).1
              (wake target (min s.nextShort s.nextLong) s t).2 := by
  rw [runUntil, ticksUntil]
  cases hrunning : s.isRunning with
  | false =>
      have hnever : s.wakeAt? = none := by
        simp only [wakeAt?, hrunning, Bool.false_eq_true, if_false]
      exact .inl
        ⟨fun h => absurd h Bool.false_ne_true, by simp only [hnever], by simp only [hnever]⟩
  | true =>
      have hnext : s.wakeAt? = some (min s.nextShort s.nextLong) := by
        simp only [wakeAt?, hrunning, if_true]
      simp only [hnext]
      by_cases hdue : min s.nextShort s.nextLong ≤ until_
      · exact .inr ⟨trivial, hdue, if_pos hdue, if_pos hdue⟩
      · exact .inl ⟨fun _ => Nat.lt_of_not_le hdue, if_neg hdue, if_neg hdue⟩

/-- A sweeper that has ended or was stopped does nothing any more. -/
theorem runUntil_of_not_running (hstopped : s.isRunning = false) (target : SweepTarget τ)
    (until_ fuel : Nat) (t : τ) :
    runUntil target until_ fuel s t = (s, t) ∧ ticksUntil target until_ fuel s t = [] := by
  cases fuel with
  | zero => exact ⟨rfl, rfl⟩
  | succ fuel =>
      rcases runUntil_cases target until_ fuel s t with ⟨_, hrun, hticks⟩ | ⟨hrunning, _⟩
      · exact ⟨hrun, hticks⟩
      · rw [hstopped] at hrunning
        cases hrunning

/-- A sweeper whose target is gone makes no tick. -/
theorem runUntil_of_dead (hdead : target.isAlive t = false) (until_ fuel : Nat) (s : Sweeper) :
    (runUntil target until_ fuel s t).2 = t ∧ ticksUntil target until_ fuel s t = [] := by
  cases fuel with
  | zero => exact ⟨rfl, rfl⟩
  | succ fuel =>
      rcases runUntil_cases target until_ fuel s t with ⟨_, hrun, hticks⟩ | ⟨_, _, hrun, hticks⟩
      · exact ⟨congrArg Prod.snd hrun, hticks⟩
      · have hended : ({ s with ended := true } : Sweeper).isRunning = false := by simp [isRunning]
        rw [hrun, hticks, wake_of_dead hdead, wakeTicks, if_neg (Bool.eq_false_iff.mp hdead)]
        obtain ⟨hstill, hnone⟩ := runUntil_of_not_running hended target until_ fuel t
        exact ⟨congrArg Prod.snd hstill, hnone⟩

theorem wake_recording (target : SweepTarget τ) (now : Nat) (s : Sweeper) (t : τ)
    (calls : List SweepCall) :
    wake target.recording now s (t, calls) =
      ((wake target now s t).1, (wake target now s t).2,
        calls ++ (wakeTicks target now s t).flatMap (Tick.calls target)) := by
  cases halive : target.isAlive t with
  | false => simp [wake, wakeTicks, halive]
  | true =>
      by_cases hshort : s.nextShort ≤ now <;> by_cases hlong : s.nextLong ≤ now <;>
        simp [wake, wakeTicks, tickShort, tickLong, halive, hshort, hlong,
          target.recording_tick now]

/-- The record of a target says which ticks it got, and nothing else is different. -/
theorem runUntil_recording (target : SweepTarget τ) (until_ fuel : Nat) (s : Sweeper) (t : τ)
    (calls : List SweepCall) :
    runUntil target.recording until_ fuel s (t, calls) =
      ((runUntil target until_ fuel s t).1, (runUntil target until_ fuel s t).2,
        calls ++ (ticksUntil target until_ fuel s t).flatMap (Tick.calls target)) := by
  induction fuel generalizing s t calls with
  | zero => simp [runUntil, ticksUntil]
  | succ fuel ih =>
      unfold runUntil ticksUntil
      cases s.wakeAt? with
      | none => simp
      | some now =>
          by_cases hdue : now ≤ until_
          · simp only [hdue, if_true, wake_recording, ih, List.flatMap_append, List.append_assoc]
          · simp [hdue]

/-! ## Multiples of an interval -/

/-- The multiples of an interval that lie behind one span and within another, both counted from a
start. -/
def beats (start every first last : Nat) : List Nat :=
  (List.Ico (first / every + 1) (last / every + 1)).map fun n => start + n * every

theorem beats_append {first middle last : Nat} (hfirst : first ≤ middle) (hlast : middle ≤ last)
    (start every : Nat) :
    beats start every first middle ++ beats start every middle last =
      beats start every first last := by
  rw [beats, beats, ← List.map_append, List.Ico.append_consecutive, beats]
  · exact Nat.succ_le_succ (Nat.div_le_div_right hfirst)
  · exact Nat.succ_le_succ (Nat.div_le_div_right hlast)

theorem length_beats (start every last : Nat) : (beats start every 0 last).length = last / every := by
  rw [beats, List.length_map, List.Ico.length, Nat.zero_div]
  exact Nat.add_sub_cancel ..

/-- The first multiple behind a span. -/
def nextBeat (start every elapsed : Nat) : Nat := start + (elapsed / every + 1) * every

theorem lt_nextBeat {every : Nat} (hevery : 0 < every) (start elapsed : Nat) :
    start + elapsed < nextBeat start every elapsed := by
  have hlt := Nat.lt_div_mul_add hevery (a := elapsed)
  unfold nextBeat
  rw [Nat.add_mul, Nat.one_mul]
  omega

/-- No multiple comes before the next one. -/
theorem beats_of_lt {every last : Nat} (hle : elapsed ≤ last)
    (hlt : start + last < nextBeat start every elapsed) :
    beats start every elapsed last = [] ∧
      nextBeat start every last = nextBeat start every elapsed := by
  have hsame : last / every = elapsed / every := by
    unfold nextBeat at hlt
    have hbelow : last / every < elapsed / every + 1 :=
      Nat.div_lt_of_lt_mul (by rw [Nat.mul_comm]; omega)
    exact Nat.le_antisymm (Nat.le_of_lt_succ hbelow) (Nat.div_le_div_right hle)
  refine ⟨?_, by rw [nextBeat, hsame, nextBeat]⟩
  rw [beats, hsame, List.Ico.self_empty, List.map_nil]

/-- The next multiple is followed by the one after it. -/
theorem beats_of_eq {every last : Nat} (hevery : 0 < every)
    (heq : start + last = nextBeat start every elapsed) :
    beats start every elapsed last = [start + last] ∧
      nextBeat start every last = start + last + every := by
  have hlast : last = (elapsed / every + 1) * every := Nat.add_left_cancel heq
  have hcount : last / every = elapsed / every + 1 := by
    rw [hlast, Nat.mul_div_cancel _ hevery]
  constructor
  · rw [beats, hcount, List.Ico.succ_singleton, List.map_singleton, ← hlast]
  · rw [nextBeat, hcount, Nat.add_mul _ 1, ← hlast, Nat.one_mul, Nat.add_assoc]

/-- One generation of a sweeper that wakes at the earlier of its two next ticks. -/
theorem beats_of_le {every next last : Nat} (hevery : 0 < every) (hle : elapsed ≤ last)
    (hnext : next = nextBeat start every elapsed) (hfirst : start + last ≤ next) :
    beats start every elapsed last = (if next ≤ start + last then [start + last] else []) ∧
      (if next ≤ start + last then start + last + every else next) =
        nextBeat start every last := by
  rcases Nat.lt_or_eq_of_le hfirst with hlt | heq
  · obtain ⟨hnone, hsame⟩ := beats_of_lt hle (hnext ▸ hlt)
    rw [if_neg (Nat.not_le.mpr hlt), if_neg (Nat.not_le.mpr hlt)]
    exact ⟨hnone, hnext.trans hsame.symm⟩
  · obtain ⟨hone, hafter⟩ := beats_of_eq hevery (heq.trans hnext)
    rw [if_pos heq.ge, if_pos heq.ge]
    exact ⟨hone, hafter.symm⟩

/-! ## Sweepers that keep time -/

/-- A sweeper whose next ticks are the first multiples of its intervals behind the span for which it
has run. -/
structure OnBeat (start short long elapsed : Nat) (s : Sweeper) : Prop where
  short_pos : 0 < short
  long_pos : 0 < long
  shortEvery : s.shortEvery = short
  longEvery : s.longEvery = long
  nextShort : s.nextShort = nextBeat start short elapsed
  nextLong : s.nextLong = nextBeat start long elapsed

variable {short long last : Nat}

theorem onBeat_start {config : SpaceConfig} (hshort : 0 < config.shortSweep)
    (hlong : 0 < config.longSweep) (now : Nat) :
    OnBeat now config.shortSweep config.longSweep 0 (Sweeper.start config now) := by
  refine ⟨hshort, hlong, rfl, rfl, ?_, ?_⟩ <;>
    simp [Sweeper.start, nextBeat]

theorem OnBeat.lt_next (hbeat : OnBeat start short long elapsed s) :
    start + elapsed < min s.nextShort s.nextLong := by
  rw [hbeat.nextShort, hbeat.nextLong]
  exact lt_min (lt_nextBeat hbeat.short_pos start elapsed)
    (lt_nextBeat hbeat.long_pos start elapsed)

/-- As long as no tick is due the sweeper keeps time by sleeping. -/
theorem OnBeat.sleep (hbeat : OnBeat start short long elapsed s) (hle : elapsed ≤ last)
    (hlt : start + last < min s.nextShort s.nextLong) :
    OnBeat start short long last s ∧ beats start short elapsed last = [] ∧
      beats start long elapsed last = [] := by
  obtain ⟨hshort, hlong⟩ := lt_min_iff.mp hlt
  rw [hbeat.nextShort] at hshort
  rw [hbeat.nextLong] at hlong
  obtain ⟨hnone, hnext⟩ := beats_of_lt hle hshort
  obtain ⟨hnone', hnext'⟩ := beats_of_lt hle hlong
  exact ⟨{ hbeat with
    nextShort := hbeat.nextShort.trans hnext.symm
    nextLong := hbeat.nextLong.trans hnext'.symm }, hnone, hnone'⟩

/-- A sweeper that wakes at the earlier of its two next ticks makes those that are due, and keeps
time. -/
theorem OnBeat.wake (hbeat : OnBeat start short long elapsed s)
    (hlast : start + last = min s.nextShort s.nextLong) (halive : target.isAlive t = true) :
    OnBeat start short long last (Sweeper.wake target (start + last) s t).1 ∧
      Tick.instants .short (wakeTicks target (start + last) s t) =
        beats start short elapsed last ∧
      Tick.instants .long (wakeTicks target (start + last) s t) =
        beats start long elapsed last := by
  have hle : elapsed ≤ last := by
    have hlt := hbeat.lt_next
    omega
  obtain ⟨hshort, hnextShort⟩ := beats_of_le hbeat.short_pos hle hbeat.nextShort
    (hlast.le.trans (Nat.min_le_left _ _))
  obtain ⟨hlong, hnextLong⟩ := beats_of_le hbeat.long_pos hle hbeat.nextLong
    (hlast.le.trans (Nat.min_le_right _ _))
  have hafter : OnBeat start short long last (s.after (start + last)) := by
    refine ⟨hbeat.short_pos, hbeat.long_pos, hbeat.shortEvery, hbeat.longEvery, ?_, ?_⟩
    · rw [← hnextShort, ← hbeat.shortEvery]
      rfl
    · rw [← hnextLong, ← hbeat.longEvery]
      rfl
  refine ⟨?_, ?_, ?_⟩
  · rw [wake_of_alive halive]
    split
    · exact { hafter with }
    · exact hafter
  · rw [hshort, wakeTicks, if_pos halive]
    split <;> split <;> rfl
  · rw [hlong, wakeTicks, if_pos halive]
    split <;> split <;> rfl

theorem OnBeat.regular (hbeat : OnBeat start short long elapsed s) (hrunning : s.isRunning = true) :
    s.Regular :=
  ⟨hrunning, hbeat.shortEvery ▸ hbeat.short_pos, hbeat.longEvery ▸ hbeat.long_pos⟩

/-- A sweeper that has no tick left up to an instant sleeps beyond it. -/
theorem lt_next_of_dueBy (hnone : s.dueBy until_ = 0) : until_ < min s.nextShort s.nextLong := by
  have hlate : ∀ {next every : Nat}, ticksBy until_ next every = 0 → until_ < next := by
    intro next every hzero
    by_contra hdue
    rw [ticksBy, if_pos (Nat.not_lt.mp hdue)] at hzero
    exact Nat.succ_ne_zero _ hzero
  obtain ⟨hshort, hlong⟩ := Nat.add_eq_zero_iff.mp hnone
  exact lt_min (hlate hshort) (hlate hlong)

/-- A sweeper that wakes has fewer ticks left. -/
theorem Regular.dueBy_wake_lt (hregular : s.Regular) (halive : target.isAlive t = true) {now : Nat}
    (hdue : min s.nextShort s.nextLong ≤ now) (hle : now ≤ until_) :
    (Sweeper.wake target now s t).1.dueBy until_ < s.dueBy until_ := by
  have hfewer := hregular.dueBy_after_lt hdue hle
  rw [wake_of_alive halive]
  split
  · exact hfewer
  · exact hfewer

/-- There are not more ticks than the sweeper may wake. -/
theorem OnBeat.dueBy_le_wakeBound (hbeat : OnBeat start short long elapsed s) (until_ : Nat) :
    s.dueBy until_ ≤ s.wakeBound until_ := by
  have hle := dueBy_le (Nat.le_of_lt hbeat.lt_next) until_
  have hshort : (until_ - (start + elapsed)) / s.shortEvery ≤ until_ / s.shortEvery :=
    Nat.div_le_div_right (Nat.sub_le _ _)
  have hlong : (until_ - (start + elapsed)) / s.longEvery ≤ until_ / s.longEvery :=
    Nat.div_le_div_right (Nat.sub_le _ _)
  unfold wakeBound
  omega

/-- A sweeper that is still running when the clock has run up to an instant has kept time: each
generation has had a tick at every multiple of its interval that has gone by, and no other tick. -/
theorem OnBeat.runUntil (hbeat : OnBeat start short long elapsed s) (target : SweepTarget τ)
    (t : τ) (hle : elapsed ≤ last) (hfuel : s.dueBy (start + last) ≤ fuel)
    (hrunning : (Sweeper.runUntil target (start + last) fuel s t).1.isRunning = true) :
    OnBeat start short long last (Sweeper.runUntil target (start + last) fuel s t).1 ∧
      Tick.instants .short (ticksUntil target (start + last) fuel s t) =
        beats start short elapsed last ∧
      Tick.instants .long (ticksUntil target (start + last) fuel s t) =
        beats start long elapsed last := by
  induction fuel generalizing s t elapsed with
  | zero =>
      have hlate := lt_next_of_dueBy (Nat.le_zero.mp hfuel)
      obtain ⟨hstill, hnone, hnone'⟩ := hbeat.sleep hle hlate
      exact ⟨hstill, hnone.symm, hnone'.symm⟩
  | succ fuel ih =>
      rcases runUntil_cases target (start + last) fuel s t with
        ⟨hlate, hrun, hticks⟩ | ⟨hrunning', hdue, hrun, hticks⟩
      · rw [hrun] at hrunning ⊢
        rw [hticks]
        obtain ⟨hstill, hnone, hnone'⟩ := hbeat.sleep hle (hlate hrunning)
        exact ⟨hstill, hnone.symm, hnone'.symm⟩
      · have hlt := hbeat.lt_next
        obtain ⟨middle, hmiddle⟩ : ∃ middle, start + middle = min s.nextShort s.nextLong :=
          ⟨min s.nextShort s.nextLong - start, by omega⟩
        rw [← hmiddle] at hrun hticks hdue
        rw [hrun] at hrunning ⊢
        rw [hticks, Tick.instants_append, Tick.instants_append]
        cases halive : target.isAlive t with
        | false =>
            have hended : (Sweeper.wake target (start + middle) s t).1.isRunning = false := by
              simp [wake_of_dead halive, isRunning]
            rw [(runUntil_of_not_running hended ..).1, hended] at hrunning
            cases hrunning
        | true =>
            obtain ⟨hwoken, hshort, hlong⟩ := hbeat.wake hmiddle halive
            have hfewer := (hbeat.regular hrunning').dueBy_wake_lt halive hmiddle.ge hdue
            obtain ⟨hstill, hshort', hlong'⟩ := ih hwoken _ (by omega) (by omega) hrunning
            rw [hshort, hlong, hshort', hlong', beats_append (by omega) (by omega),
              beats_append (by omega) (by omega)]
            exact ⟨hstill, rfl, rfl⟩

/-- The ticks up to an instant come one after the other. -/
theorem OnBeat.ordered (hbeat : OnBeat start short long elapsed s) (target : SweepTarget τ)
    (last fuel : Nat) (t : τ) :
    (ticksUntil target (start + last) fuel s t).Pairwise Tick.Before ∧
      ∀ x ∈ ticksUntil target (start + last) fuel s t,
        start + elapsed < x.instant ∧ x.instant ≤ start + last := by
  induction fuel generalizing s t elapsed with
  | zero => exact ⟨List.Pairwise.nil, List.forall_mem_nil _⟩
  | succ fuel ih =>
      rcases runUntil_cases target (start + last) fuel s t with
        ⟨_, _, hticks⟩ | ⟨hrunning, hdue, _, hticks⟩
      · rw [hticks]
        exact ⟨List.Pairwise.nil, List.forall_mem_nil _⟩
      · have hlt := hbeat.lt_next
        obtain ⟨middle, hmiddle⟩ : ∃ middle, start + middle = min s.nextShort s.nextLong :=
          ⟨min s.nextShort s.nextLong - start, by omega⟩
        rw [← hmiddle] at hticks hdue
        rw [hticks]
        cases halive : target.isAlive t with
        | false =>
            have hended : (Sweeper.wake target (start + middle) s t).1.isRunning = false := by
              simp [wake_of_dead halive, isRunning]
            rw [(runUntil_of_not_running hended ..).2, wakeTicks,
              if_neg (Bool.eq_false_iff.mp halive)]
            exact ⟨List.Pairwise.nil, List.forall_mem_nil _⟩
        | true =>
            obtain ⟨hwoken, _⟩ := hbeat.wake hmiddle halive
            obtain ⟨hlater, hbounds⟩ :=
              ih (t := (Sweeper.wake target (start + middle) s t).2) hwoken
            obtain ⟨hnow, hat⟩ := pairwise_wakeTicks target (start + middle) s t
            refine ⟨List.pairwise_append.mpr ⟨hnow, hlater, fun x hx y hy => ?_⟩, fun x hx => ?_⟩
            · have hy' := hbounds y hy
              have hx' := hat x hx
              left
              omega
            · rcases List.mem_append.mp hx with hx | hx
              · have hx' := hat x hx
                omega
              · have hx' := hbounds x hx
                omega

/-! ## Targets that stop their sweeper -/

/-- A target that has asked its sweeper to stop in a tick has stopped it when the sweeper goes to
sleep. -/
theorem wake_of_asks (hresolute : target.Resolute) {now : Nat} {x : Tick τ}
    (hx : x ∈ wakeTicks target now s t) (hasks : x.asks target = true) :
    (wake target now s t).1.isRunning = false := by
  unfold wakeTicks at hx
  split at hx
  · rename_i halive
    have hstopped : target.asksToStop (wake target now s t).2 = true := by
      simp only [wake, halive, if_true, tickLong, tickShort] at hx ⊢
      by_cases hshort : s.nextShort ≤ now <;> by_cases hlong : s.nextLong ≤ now <;>
        simp only [hshort, hlong, if_true, if_false, List.append_nil, List.nil_append,
          List.cons_append, List.mem_cons, List.not_mem_nil, or_false] at hx ⊢
      · rcases hx with rfl | rfl
        · exact hresolute .long _ hasks
        · exact hasks
      · cases hx
        exact hasks
      · cases hx
        exact hasks
    rw [wake_of_alive halive, if_pos hstopped]
    rfl
  · cases hx

/-- After a tick that asks the sweeper to stop no other begins, but for the long tick of the same
instant; and then the sweeper has stopped. -/
theorem ticksUntil_yield (hresolute : target.Resolute) (until_ fuel : Nat) (s : Sweeper) (t : τ) :
    (ticksUntil target until_ fuel s t).Pairwise (Tick.Yields target) ∧
      ∀ x ∈ ticksUntil target until_ fuel s t, x.asks target = true →
        (runUntil target until_ fuel s t).1.isRunning = false := by
  induction fuel generalizing s t with
  | zero => exact ⟨List.Pairwise.nil, List.forall_mem_nil _⟩
  | succ fuel ih =>
      rcases runUntil_cases target until_ fuel s t with ⟨_, _, hticks⟩ | ⟨_, _, hrun, hticks⟩
      · rw [hticks]
        exact ⟨List.Pairwise.nil, List.forall_mem_nil _⟩
      · rw [hrun, hticks]
        obtain ⟨hlater, hends⟩ := ih (wake target (min s.nextShort s.nextLong) s t).1
          (wake target (min s.nextShort s.nextLong) s t).2
        obtain ⟨hnow, hat⟩ := pairwise_wakeTicks target (min s.nextShort s.nextLong) s t
        refine ⟨List.pairwise_append.mpr ⟨?_, hlater, fun x hx y hy hasks => ?_⟩,
          fun x hx hasks => ?_⟩
        · refine hnow.imp_of_mem fun {x y} hx hy hbefore _ => ?_
          have hsame := (hat x hx).trans (hat y hy).symm
          rcases hbefore with hlt | ⟨_, hshort, hlong⟩
          · omega
          · exact ⟨hsame.symm, hshort, hlong⟩
        · have hstopped := wake_of_asks hresolute hx hasks
          rw [(runUntil_of_not_running hstopped ..).2] at hy
          cases hy
        · rcases List.mem_append.mp hx with hx | hx
          · have hstopped := wake_of_asks hresolute hx hasks
            rw [(runUntil_of_not_running hstopped ..).1]
            exact hstopped
          · exact hends x hx hasks

/-- A sweeper that has ended has found its target gone. -/
theorem ended_runUntil (hended : s.ended = true → target.isAlive t = false) (until_ fuel : Nat)
    (h : (runUntil target until_ fuel s t).1.ended = true) :
    target.isAlive (runUntil target until_ fuel s t).2 = false := by
  induction fuel generalizing s t with
  | zero => exact hended h
  | succ fuel ih =>
      rcases runUntil_cases target until_ fuel s t with ⟨_, hrun, _⟩ | ⟨hrunning, _, hrun, _⟩
      · rw [hrun] at h ⊢
        exact hended h
      · rw [hrun] at h ⊢
        refine ih (fun hdead => ?_) h
        cases halive : target.isAlive t with
        | false =>
            rw [wake_of_dead halive]
            exact halive
        | true =>
            have hnot : s.ended = false := by simp_all [isRunning]
            rw [wake_of_alive halive] at hdead
            split at hdead <;> exact absurd (hnot.symm.trans hdead) nofun

end Sweeper

/-! ## Watching a sweeper -/

/-- Something that somebody else does to a target.  It does not bring the target back, and does not
ask its sweeper to stop: whoever wants that stops the sweeper. -/
structure Handling {τ : Type} (target : SweepTarget τ) where
  act : τ → τ
  gone : ∀ t, target.isAlive t = false → target.isAlive (act t) = false
  asks : ∀ t, target.asksToStop (act t) = target.asksToStop t

/-- Something that happens around a sweeper. -/
inductive Incident {τ : Type} (target : SweepTarget τ) where
  | /-- Time passes. -/
    passes (span : Nat)
  | /-- The sweeper is stopped, or is asked to stop. -/
    stop
  | /-- Somebody uses the target, or drops it. -/
    handle (h : Handling target)

/-- A sweeper with its target, and the ticks that have begun since somebody watches it. -/
structure Watch (τ : Type) where
  now : Nat
  sweeper : Sweeper
  target : τ
  ticks : List (Tick τ) := []

variable {τ : Type} {target : SweepTarget τ}

/-- The same happens to a target that keeps a record. -/
def Handling.recording (h : Handling target) : Handling target.recording where
  act t := (h.act t.1, t.2)
  gone t := h.gone t.1
  asks t := h.asks t.1

/-- The same happens to the sweeper of a target that keeps a record. -/
def Incident.recording : Incident target → Incident target.recording
  | .passes span => .passes span
  | .stop => .stop
  | .handle h => .handle h.recording

/-- The time that passes. -/
def Incident.span : Incident target → Nat
  | .passes span => span
  | .stop | .handle _ => 0

namespace Watch

open Sweeper

/-- A sweeper that starts now. -/
def start (config : SpaceConfig) (now : Nat) (t : τ) : Watch τ where
  now := now
  sweeper := .start config now
  target := t

/-- What becomes of a sweeper and its target. -/
def step (w : Watch τ) : Incident target → Watch τ
  | .passes span =>
    { now := w.now + span
      sweeper := (w.sweeper.advance target (w.now + span) w.target).1
      target := (w.sweeper.advance target (w.now + span) w.target).2
      ticks := w.ticks ++ w.sweeper.advanceTicks target (w.now + span) w.target }
  | .stop => { w with sweeper := w.sweeper.stop }
  | .handle h => { w with target := h.act w.target }

/-- A sweeper and its target after some incidents. -/
def run (incidents : List (Incident target)) (w : Watch τ) : Watch τ :=
  incidents.foldl step w

/-- Nothing happens to the ticks of a sweeper that has been stopped or has ended. -/
theorem run_of_not_running {w : Watch τ} (hstopped : w.sweeper.isRunning = false)
    (incidents : List (Incident target)) : (w.run incidents).ticks = w.ticks := by
  induction incidents generalizing w with
  | nil => rfl
  | cons x incidents ih =>
      have hstep : (w.step x).sweeper.isRunning = false ∧ (w.step x).ticks = w.ticks := by
        cases x with
        | passes span =>
            obtain ⟨hsame, hnone⟩ := runUntil_of_not_running hstopped target (w.now + span)
              (w.sweeper.wakeBound (w.now + span)) w.target
            simp only [step, advance, advanceTicks, hsame, hnone, List.append_nil]
            exact ⟨hstopped, trivial⟩
        | stop => exact ⟨rfl, rfl⟩
        | handle h => exact ⟨hstopped, rfl⟩
      exact (ih hstep.1).trans hstep.2

/-- Nothing happens to a target that is gone. -/
theorem run_of_dead {w : Watch τ} (hdead : target.isAlive w.target = false)
    (incidents : List (Incident target)) : (w.run incidents).ticks = w.ticks := by
  induction incidents generalizing w with
  | nil => rfl
  | cons x incidents ih =>
      have hstep : target.isAlive (w.step x).target = false ∧ (w.step x).ticks = w.ticks := by
        cases x with
        | passes span =>
            obtain ⟨hsame, hnone⟩ := runUntil_of_dead hdead (w.now + span)
              (w.sweeper.wakeBound (w.now + span)) w.sweeper
            simp only [step, advance, advanceTicks, hsame, hnone, List.append_nil]
            exact ⟨hdead, trivial⟩
        | stop => exact ⟨hdead, rfl⟩
        | handle h => exact ⟨h.gone _ hdead, rfl⟩
      exact (ih hstep.1).trans hstep.2

/-- The record of a target says which ticks it got. -/
theorem run_recording (w : Watch τ) (incidents : List (Incident target)) (ticks : List (Tick _)) :
    let recorded := run (incidents.map Incident.recording)
      ⟨w.now, w.sweeper, (w.target, w.ticks.flatMap (Tick.calls target)), ticks⟩
    recorded.now = (w.run incidents).now ∧ recorded.sweeper = (w.run incidents).sweeper ∧
      recorded.target =
        ((w.run incidents).target, (w.run incidents).ticks.flatMap (Tick.calls target)) := by
  induction incidents generalizing w ticks with
  | nil => exact ⟨rfl, rfl, rfl⟩
  | cons x incidents ih =>
      let recorded : Watch _ :=
        ⟨w.now, w.sweeper, (w.target, w.ticks.flatMap (Tick.calls target)), ticks⟩
      have hstep : recorded.step x.recording =
          ⟨(w.step x).now, (w.step x).sweeper,
            ((w.step x).target, (w.step x).ticks.flatMap (Tick.calls target)),
            (recorded.step x.recording).ticks⟩ := by
        cases x with
        | passes span =>
            simp only [step, recorded, Incident.recording, advance, runUntil_recording,
              advanceTicks, List.flatMap_append]
        | stop => rfl
        | handle h => rfl
      have hrest := ih (w.step x) (recorded.step x.recording).ticks
      rw [← hstep] at hrest
      exact hrest

/-- What is true of a sweeper and its target, however long somebody has watched them. -/
structure KeepsTime (target : SweepTarget τ) (start short long elapsed : Nat) (w : Watch τ) :
    Prop where
  now : w.now = start + elapsed
  /-- A sweeper that has ended has found its target gone. -/
  ended : w.sweeper.ended = true → target.isAlive w.target = false
  ordered : w.ticks.Pairwise Tick.Before
  past : ∀ x ∈ w.ticks, x.instant ≤ w.now
  yields : target.Resolute → w.ticks.Pairwise (Tick.Yields target)
  /-- A sweeper whose target has asked it to stop does not run any more. -/
  obeys : target.Resolute → ∀ x ∈ w.ticks, x.asks target = true → w.sweeper.isRunning = false
  onBeat : w.sweeper.isRunning = true → OnBeat start short long elapsed w.sweeper
  atShort : w.sweeper.isRunning = true →
    Tick.instants .short w.ticks = beats start short 0 elapsed
  atLong : w.sweeper.isRunning = true →
    Tick.instants .long w.ticks = beats start long 0 elapsed

variable {from_ short long elapsed : Nat} {w : Watch τ}

theorem keepsTime_start (target : SweepTarget τ) {config : SpaceConfig}
    (hshort : 0 < config.shortSweep) (hlong : 0 < config.longSweep) (now : Nat) (t : τ) :
    KeepsTime target now config.shortSweep config.longSweep 0 (start config now t) where
  now := rfl
  ended := nofun
  ordered := List.Pairwise.nil
  past := List.forall_mem_nil _
  yields _ := List.Pairwise.nil
  obeys _ := List.forall_mem_nil _
  onBeat _ := onBeat_start hshort hlong now
  atShort _ := by simp [start, beats, Tick.instants]
  atLong _ := by simp [start, beats, Tick.instants]

/-- Time passes. -/
theorem KeepsTime.passes (hkeeps : KeepsTime target from_ short long elapsed w) (span : Nat) :
    KeepsTime target from_ short long (elapsed + span) (w.step (.passes span : Incident target)) := by
  have hnow : w.now + span = from_ + (elapsed + span) := by rw [hkeeps.now, Nat.add_assoc]
  have hended := ended_runUntil hkeeps.ended (w.now + span)
    (w.sweeper.wakeBound (w.now + span))
  have hpast : ∀ x ∈ w.ticks, x.instant ≤ w.now + span := fun x hx =>
    (hkeeps.past x hx).trans (Nat.le_add_right _ _)
  cases hrunning : w.sweeper.isRunning with
  | false =>
      obtain ⟨hsame, hnone⟩ := runUntil_of_not_running hrunning target (w.now + span)
        (w.sweeper.wakeBound (w.now + span)) w.target
      have hstep : w.step (.passes span : Incident target) = { w with now := w.now + span } := by
        simp only [step, advance, advanceTicks, hsame, hnone, List.append_nil]
      rw [hstep]
      exact ⟨hnow, hkeeps.ended, hkeeps.ordered, hpast, hkeeps.yields, hkeeps.obeys,
        fun h => absurd (hrunning.symm.trans h) nofun,
        fun h => absurd (hrunning.symm.trans h) nofun,
        fun h => absurd (hrunning.symm.trans h) nofun⟩
  | true =>
      have hbeat := hkeeps.onBeat hrunning
      have hfuel := hbeat.dueBy_le_wakeBound (w.now + span)
      obtain ⟨hordered, hbounds⟩ := hbeat.ordered target (elapsed + span)
        (w.sweeper.wakeBound (w.now + span)) w.target
      rw [← hnow] at hordered hbounds
      have hkept := fun hstill => hbeat.runUntil target w.target
        (Nat.le_add_right elapsed span) (hnow ▸ hfuel) hstill
      rw [← hnow] at hkept
      refine ⟨hnow, hended, ?_, fun x hx => ?_, fun hresolute => ?_, fun hresolute x hx hasks => ?_,
        fun hstill => (hkept hstill).1, fun hstill => ?_, fun hstill => ?_⟩
      · refine List.pairwise_append.mpr ⟨hkeeps.ordered, hordered, fun x hx y hy => .inl ?_⟩
        have hx' := hkeeps.past x hx
        have hy' := hbounds y hy
        rw [hkeeps.now] at hx'
        omega
      · rcases List.mem_append.mp hx with hx | hx
        · exact hpast x hx
        · exact (hbounds x hx).2
      · obtain ⟨hyields, _⟩ := ticksUntil_yield hresolute (w.now + span)
          (w.sweeper.wakeBound (w.now + span)) w.sweeper w.target
        refine List.pairwise_append.mpr ⟨hkeeps.yields hresolute, hyields, ?_⟩
        intro x hx y _ hasks
        have hstopped := hkeeps.obeys hresolute x hx hasks
        exact absurd (hrunning.symm.trans hstopped) nofun
      · rcases List.mem_append.mp hx with hx | hx
        · have hstopped := hkeeps.obeys hresolute x hx hasks
          exact absurd (hrunning.symm.trans hstopped) nofun
        · exact (ticksUntil_yield hresolute _ _ _ _).2 x hx hasks
      · rw [step, Tick.instants_append, hkeeps.atShort hrunning, advanceTicks, (hkept hstill).2.1,
          beats_append (Nat.zero_le _) (Nat.le_add_right _ _)]
      · rw [step, Tick.instants_append, hkeeps.atLong hrunning, advanceTicks, (hkept hstill).2.2,
          beats_append (Nat.zero_le _) (Nat.le_add_right _ _)]

theorem KeepsTime.step (hkeeps : KeepsTime target from_ short long elapsed w)
    (x : Incident target) : KeepsTime target from_ short long (elapsed + x.span) (w.step x) := by
  cases x with
  | passes span => exact hkeeps.passes span
  | stop =>
      have hstopped : w.sweeper.stop.isRunning = false := rfl
      exact { hkeeps with
        obeys := fun _ _ _ _ => hstopped
        onBeat := fun h => absurd (hstopped.symm.trans h) nofun
        atShort := fun h => absurd (hstopped.symm.trans h) nofun
        atLong := fun h => absurd (hstopped.symm.trans h) nofun }
  | handle h => exact { hkeeps with ended := fun hended => h.gone _ (hkeeps.ended hended) }

theorem KeepsTime.run (hkeeps : KeepsTime target from_ short long elapsed w)
    (incidents : List (Incident target)) :
    KeepsTime target from_ short long (elapsed + (incidents.map Incident.span).sum)
      (w.run incidents) := by
  induction incidents generalizing w elapsed with
  | nil => exact hkeeps
  | cons x incidents ih =>
      rw [List.map_cons, List.sum_cons, ← Nat.add_assoc]
      exact ih (hkeeps.step x)

end Watch

/-- The interval at which a generation is swept. -/
def SpaceConfig.sweepEvery (config : SpaceConfig) : Generation → Nat
  | .short => config.shortSweep
  | .long => config.longSweep

/-- The cadence of a sweeper that starts at some instant, around which some things happen. -/
structure HasCadence (target : SweepTarget τ) (config : SpaceConfig) (start : Nat) (t : τ)
    (incidents : List (Incident target)) (w : Watch τ) (span : Nat) : Prop where
  now : w.now = start + span
  /-- As long as the sweeper is not stopped and its target lives, the ticks of a generation have come
  at the multiples of its interval that have gone by, and at no other instants. -/
  beats : w.sweeper.stopped = false → target.isAlive w.target = true → ∀ gen,
    Tick.instants gen w.ticks = Sweeper.beats start (config.sweepEvery gen) 0 span ∧
      (Tick.instants gen w.ticks).length = span / config.sweepEvery gen
  ordered : w.ticks.Pairwise Tick.Before
  /-- A target that keeps a record has been swept in these ticks, told once of each that has
  panicked, and left alone otherwise. -/
  recorded : ((Watch.start config start (t, [])).run (incidents.map Incident.recording)).target =
    (w.target, w.ticks.flatMap (Tick.calls target))
  swept : ∀ gen, (w.ticks.flatMap (Tick.calls target)).count (.sweep gen) =
    (Tick.instants gen w.ticks).length
  told : ∀ gen, (w.ticks.flatMap (Tick.calls target)).count (.panicked gen) =
    w.ticks.countP fun x => x.gen = gen ∧ x.panics target = true
  /-- Once the sweeper is stopped no tick begins any more. -/
  stopped : ∀ later : List (Incident target), (w.run (.stop :: later)).ticks = w.ticks
  /-- Once the target is gone no tick begins any more. -/
  gone : target.isAlive w.target = false →
    ∀ later : List (Incident target), (w.run later).ticks = w.ticks
  /-- A target that asks its sweeper to stop in a tick still gets the long tick of that instant. -/
  yields : target.Resolute → w.ticks.Pairwise (Tick.Yields target)

/-- Every sweeper with positive intervals has the cadence of its settings, whatever happens around
it. -/
theorem sweeper_keeps_cadence {config : SpaceConfig} (hshort : 0 < config.shortSweep)
    (hlong : 0 < config.longSweep) (target : SweepTarget τ) (start : Nat) (t : τ)
    (incidents : List (Incident target)) :
    HasCadence target config start t incidents ((Watch.start config start t).run incidents)
      (incidents.map Incident.span).sum := by
  have hkeeps := (Watch.keepsTime_start target hshort hlong start t).run incidents
  rw [Nat.zero_add] at hkeeps
  refine ⟨hkeeps.now, fun hstopped halive gen => ?_, hkeeps.ordered, ?_,
    fun gen => Tick.count_sweep target gen _, fun gen => Tick.count_panicked target gen _,
    fun later => ?_, fun hgone later => Watch.run_of_dead hgone later, hkeeps.yields⟩
  · have hrunning : ((Watch.start config start t).run incidents).sweeper.isRunning = true := by
      have hended : ((Watch.start config start t).run incidents).sweeper.ended = false := by
        by_contra hended
        rw [hkeeps.ended (Bool.not_eq_false _ ▸ hended)] at halive
        cases halive
      rw [Sweeper.isRunning, hstopped, hended]
      rfl
    have hbeats : Tick.instants gen ((Watch.start config start t).run incidents).ticks =
        Sweeper.beats start (config.sweepEvery gen) 0 (incidents.map Incident.span).sum := by
      cases gen with
      | short => exact hkeeps.atShort hrunning
      | long => exact hkeeps.atLong hrunning
    exact ⟨hbeats, by rw [hbeats, Sweeper.length_beats]⟩
  · exact ((Watch.start config start t).run_recording incidents []).2.2
  · exact Watch.run_of_not_running
      (w := ((Watch.start config start t).run incidents).step (.stop : Incident target)) rfl later

/-- A target that counts its sweeps, and whose long sweeps panic. -/
def fragile : SweepTarget Nat where
  isAlive _ := true
  sweep gen n := (n + 1, gen = .long)
  panicked _ n := n
  asksToStop _ := false

/-- Two advances that end between the ticks, over intervals of which one divides the other. -/
theorem sweeper_keeps_cadence_of_two_advances :
    let config : SpaceConfig := { shortSweepMs := 10, longSweepMs := 40 }
    let incidents : List (Incident fragile) :=
      [.passes (Span.ofMillis 25), .passes (Span.ofMillis 60)]
    let w := (Watch.start config 0 0).run incidents
    0 < config.shortSweep ∧ 0 < config.longSweep ∧ w.target = 10 ∧
      (Tick.instants .short w.ticks).length = 8 ∧
      Tick.instants .long w.ticks = [Span.ofMillis 40, Span.ofMillis 80] ∧
      HasCadence fragile config 0 0 incidents w (Span.ofMillis 85) := by
  intro config incidents w
  have hshortEvery : 0 < config.shortSweep := by decide
  have hlongEvery : 0 < config.longSweep := by decide
  have hcadence := sweeper_keeps_cadence hshortEvery hlongEvery fragile 0 0 incidents
  have hspan : (incidents.map Incident.span).sum = Span.ofMillis 85 := by decide +kernel
  rw [hspan] at hcadence
  have hstopped : w.sweeper.stopped = false := by decide +kernel
  have hshort : Span.ofMillis 85 / config.sweepEvery .short = 8 := by decide +kernel
  have hlong : Sweeper.beats 0 (config.sweepEvery .long) 0 (Span.ofMillis 85) =
      [Span.ofMillis 40, Span.ofMillis 80] := by decide +kernel
  refine ⟨hshortEvery, hlongEvery, by decide +kernel, ?_, ?_, hcadence⟩
  · exact (hcadence.beats hstopped rfl .short).2.trans hshort
  · exact (hcadence.beats hstopped rfl .long).1.trans hlong

end TupleSpace
