import Mathlib.Algebra.Order.Group.Nat
import TupleSpace.Proofs.Picture
import TupleSpace.Proofs.Run.Orderly

/-!
# Ticks of a background sweeper

What a sweeper does to the picture of its engine when it wakes, how it sets its next ticks, and how
many of them there can be up to an instant.  Both intervals are positive, so a sweeper that has
woken has fewer ticks left, and a count of the ticks that fit into a span bounds how often it wakes.
-/

namespace TupleSpace

namespace Sweeper

variable {s : Sweeper} {now until_ : Nat}

/-- A sweeper that nobody has stopped, with intervals that an engine can run with. -/
structure Regular (s : Sweeper) : Prop where
  running : s.isRunning = true
  shortEvery : 0 < s.shortEvery
  longEvery : 0 < s.longEvery

/-- A sweeper after it has woken. -/
def after (now : Nat) (s : Sweeper) : Sweeper :=
  { s with
    nextShort := if s.nextShort ≤ now then now + s.shortEvery else s.nextShort
    nextLong := if s.nextLong ≤ now then now + s.longEvery else s.nextLong }

theorem regular_start {config : SpaceConfig} (hvalid : config.validate = .ok ()) (now : Nat) :
    (Sweeper.start config now).Regular := by
  obtain ⟨hshort, hlong, _⟩ := SpaceConfig.validate_eq_ok_iff.mp hvalid
  refine ⟨rfl, ?_, ?_⟩
  · exact Nat.mul_pos hshort (by decide)
  · exact Nat.mul_pos hlong (by decide)

theorem Regular.after (hregular : s.Regular) (now : Nat) : (s.after now).Regular :=
  ⟨hregular.running, hregular.shortEvery, hregular.longEvery⟩

theorem Regular.wakeAt? (hregular : s.Regular) :
    s.wakeAt? = some (min s.nextShort s.nextLong) := by
  rw [Sweeper.wakeAt?, if_pos hregular.running]

/-- The ticks of one generation up to an instant. -/
def ticksBy (until_ next every : Nat) : Nat :=
  if next ≤ until_ then (until_ - next) / every + 1 else 0

/-- The ticks of a sweeper up to an instant. -/
def dueBy (until_ : Nat) (s : Sweeper) : Nat :=
  ticksBy until_ s.nextShort s.shortEvery + ticksBy until_ s.nextLong s.longEvery

/-- A generation whose tick has been made has at least one tick less. -/
theorem ticksBy_next_lt {next every : Nat} (hevery : 0 < every) (hdue : next ≤ now)
    (hle : now ≤ until_) : ticksBy until_ (now + every) every < ticksBy until_ next every := by
  have hbefore : (until_ - now) / every ≤ (until_ - next) / every :=
    Nat.div_le_div_right (by omega)
  unfold ticksBy
  rw [if_pos (hdue.trans hle)]
  split
  · have hstep : (until_ - now) / every = (until_ - (now + every)) / every + 1 := by
      rw [← Nat.add_div_right _ hevery]
      congr 1
      omega
    omega
  · exact Nat.succ_pos _

/-- A sweeper that has woken because a tick was due has fewer ticks left. -/
theorem Regular.dueBy_after_lt (hregular : s.Regular) (hdue : min s.nextShort s.nextLong ≤ now)
    (hle : now ≤ until_) : (s.after now).dueBy until_ < s.dueBy until_ := by
  unfold Sweeper.dueBy Sweeper.after
  simp only []
  by_cases hshort : s.nextShort ≤ now
  · have hfewer := ticksBy_next_lt hregular.shortEvery hshort hle
    by_cases hlong : s.nextLong ≤ now
    · have hfewer' := ticksBy_next_lt hregular.longEvery hlong hle
      simp only [if_pos hshort, if_pos hlong]
      omega
    · simp only [if_pos hshort, if_neg hlong]
      omega
  · have hlong : s.nextLong ≤ now := by omega
    have hfewer := ticksBy_next_lt hregular.longEvery hlong hle
    simp only [if_neg hshort, if_pos hlong]
    omega

theorem ticksBy_le {next : Nat} (hnow : now ≤ next) (until_ every : Nat) :
    ticksBy until_ next every ≤ (until_ - now) / every + 1 := by
  unfold ticksBy
  split
  · exact Nat.succ_le_succ (Nat.div_le_div_right (by omega))
  · exact Nat.zero_le _

/-- There are not more ticks than fit into a span. -/
theorem dueBy_le (hnow : now ≤ min s.nextShort s.nextLong) (until_ : Nat) :
    s.dueBy until_ ≤ (until_ - now) / s.shortEvery + (until_ - now) / s.longEvery + 2 := by
  have hshort := ticksBy_le (hnow.trans (Nat.min_le_left _ _)) until_ s.shortEvery
  have hlong := ticksBy_le (hnow.trans (Nat.min_le_right _ _)) until_ s.longEvery
  unfold dueBy
  omega

/-- After its ticks a sweeper sleeps. -/
theorem Regular.lt_wakeAt_after (hregular : s.Regular) (now : Nat) :
    now < min (s.after now).nextShort (s.after now).nextLong := by
  have hshort := hregular.shortEvery
  have hlong := hregular.longEvery
  unfold Sweeper.after
  simp only []
  split <;> split <;> omega

/-- Whatever the target, the ticks of an instant set the next ticks in one way. -/
theorem ticks_fst {τ : Type} (target : SweepTarget τ) (now : Nat) (s : Sweeper) (t : τ) :
    (tickLong target now (tickShort target now s t).1 (tickShort target now s t).2).1 =
      s.after now := by
  unfold tickLong tickShort after
  by_cases hshort : s.nextShort ≤ now <;> by_cases hlong : s.nextLong ≤ now <;>
    simp [hshort, hlong]

variable {σ κ α : Type} [Engine σ κ α]

theorem wake_fst (now : Nat) (s : Sweeper) (engine : σ) :
    (s.wake (Monitor.sweepTarget now) now (engine, [])).1 = s.after now :=
  ticks_fst (Monitor.sweepTarget now) now s (engine, [])

end Sweeper

/-! ## What ticks show -/

/-- The picture after a sweep that takes place if it is due. -/
noncomputable def Picture.sweepIfDue {κ α : Type} (p : Picture κ α) (due now : Nat)
    (gen : Generation) : Picture κ α :=
  if due ≤ now then p.sweep now gen else p

/-- The picture after a sweeper has woken. -/
noncomputable def Picture.ticked {κ α : Type} (p : Picture κ α) (now : Nat) (s : Sweeper) :
    Picture κ α :=
  (p.sweepIfDue s.nextShort now .short).sweepIfDue s.nextLong now .long

namespace Picture

variable {κ α : Type} [DecidableEq κ]

/-- A queue may be trimmed before the ticks of an instant or after them. -/
theorem trim_ticked (p : Picture κ α) (key : κ) (now : Nat) (s : Sweeper) :
    (p.ticked now s).trim key now = (p.trim key now).ticked now s := by
  have honce : ∀ (p : Picture κ α) (due : Nat) (gen : Generation),
      (p.sweepIfDue due now gen).trim key now = (p.trim key now).sweepIfDue due now gen := by
    intro p due gen
    unfold sweepIfDue
    split
    · exact p.trim_sweep key now gen
    · rfl
  rw [ticked, honce, honce, ticked]

omit [DecidableEq κ] in
theorem swept_subset (p : Picture κ α) (now : Nat) (gen : Generation) (key : κ) :
    p.swept now gen key ⊆ p.stored key := by
  by_cases hmem : key ∈ p.awaiting gen
  · rw [swept_of_mem hmem]
    exact List.filter_subset_self _
  · rw [swept_of_not_mem hmem]
    exact List.Subset.refl _

omit [DecidableEq κ] in
/-- Ticks add nothing. -/
theorem ticked_subset (p : Picture κ α) (now : Nat) (s : Sweeper) (key : κ) :
    (p.ticked now s).stored key ⊆ p.stored key := by
  have honce : ∀ (p : Picture κ α) (due : Nat) (gen : Generation),
      (p.sweepIfDue due now gen).stored key ⊆ p.stored key := by
    intro p due gen
    unfold sweepIfDue
    split
    · exact p.swept_subset now gen key
    · exact List.Subset.refl _
  exact List.Subset.trans (honce _ s.nextLong .long) (honce p s.nextShort .short)

end Picture

namespace Scene

open Bookkeeping SweepBooks

variable {σ κ α : Type} [DecidableEq κ] [Engine σ κ α] [Bookkeeping σ κ α] [SweepBooks σ κ α]
  [LawfulEngine σ κ α] [ExactEngine σ κ α] {engine : σ} {w : Headcount κ}

/-- The ticks of a sweeper do to an engine what they do to its picture. -/
theorem picture_ticked (hsound : Sound engine w) (hopen : Engine.isClosed engine = false)
    (hneat : Neat engine) (now : Nat) (sweeper : Sweeper) :
    Engine.picture (ticked now sweeper engine).state =
        (Engine.picture engine).ticked now sweeper ∧
      Neat (ticked now sweeper engine).state := by
  have honce : ∀ {engine : σ}, Engine.isClosed engine = false → Neat engine →
      ∀ (due : Nat) (gen : Generation),
        Engine.picture (sweepIfDue due now gen engine).state =
            (Engine.picture engine).sweepIfDue due now gen ∧
          Neat (sweepIfDue due now gen engine).state := by
    intro engine hopen hneat due gen
    unfold sweepIfDue Picture.sweepIfDue
    split
    · have hsweeps := ExactEngine.sweep_exact now gen hopen hneat
      exact ⟨hsweeps.picture, hsweeps.neat⟩
    · exact ⟨rfl, hneat⟩
  obtain ⟨hpicture, hneat'⟩ := honce hopen hneat sweeper.nextShort .short
  have hstill := (sweepIfDue_spec hsound sweeper.nextShort now .short).2.closed.trans hopen
  obtain ⟨hpicture', hneat''⟩ := honce hstill hneat' sweeper.nextLong .long
  refine ⟨?_, hneat''⟩
  rw [Picture.ticked, ← hpicture]
  exact hpicture'

end Scene

end TupleSpace
