import TupleSpace.Calendar

/-!
# Arithmetic of the wall clock

Instants are written as a day, a second and nanoseconds, and spans are added with carries.  What the
carries amount to is said by the number of nanoseconds since the calendar began to count: adding a
span adds to it, and an instant outside of a leap second is known by it.
-/

namespace TupleSpace.Moment

/-- The nanoseconds since the first of January 1970. -/
def total (m : Moment) : Int :=
  (m.days * secondsPerDay + m.second) * Span.nanosPerSecond + m.nanos

/-- Whether an instant lies outside of a leap second. -/
structure Regular (m : Moment) : Prop where
  second : m.second < secondsPerDay
  nanos : m.nanos < Span.nanosPerSecond

variable {m m' : Moment}

theorem regular_after (m : Moment) (t : Nat) : (m.after t).Regular where
  second := Nat.mod_lt _ (by decide)
  nanos := Nat.mod_lt _ (by decide)

/-- Adding a span adds its nanoseconds. -/
theorem total_after (m : Moment) (t : Nat) : (m.after t).total = m.total + t := by
  have hspan : (t : Int) = Span.seconds t * Span.nanosPerSecond + Span.subsecond t := by
    exact_mod_cast (Nat.div_add_mod' t Span.nanosPerSecond).symm
  simp only [total, after, Span.seconds, Span.subsecond, secondsPerDay,
    Span.nanosPerSecond] at hspan ⊢
  omega

/-- Instants outside of leap seconds differ if their nanoseconds do. -/
theorem eq_of_total (hm : m.Regular) (hm' : m'.Regular) (htotal : m.total = m'.total) :
    m = m' := by
  obtain ⟨days, second, nanos⟩ := m
  obtain ⟨days', second', nanos'⟩ := m'
  obtain ⟨hsecond, hnanos⟩ := hm
  obtain ⟨hsecond', hnanos'⟩ := hm'
  simp only [total, secondsPerDay, Span.nanosPerSecond] at *
  have hdays : days = days' := by omega
  have hseconds : second = second' := by omega
  have hnanoseconds : nanos = nanos' := by omega
  rw [hdays, hseconds, hnanoseconds]

/-- Adding one span and then another is adding their sum. -/
theorem after_after (m : Moment) (s t : Nat) : (m.after s).after t = m.after (s + t) := by
  apply eq_of_total (regular_after _ t) (regular_after m (s + t))
  rw [total_after, total_after, total_after]
  omega

/-- Between instants outside of leap seconds lie the nanoseconds that they differ in. -/
theorem since_of_regular (hm : m.Regular) (hm' : m'.Regular) : m.since m' = m.total - m'.total := by
  obtain ⟨_, hnanos⟩ := hm
  obtain ⟨_, hnanos'⟩ := hm'
  have hleap : ¬(m'.second < m.second ∧ Span.nanosPerSecond ≤ m'.nanos) := by omega
  have hleap' : ¬(m.second < m'.second ∧ Span.nanosPerSecond ≤ m.nanos) := by omega
  unfold since total
  rw [if_neg hleap, if_neg hleap']
  simp only [secondsPerDay, Span.nanosPerSecond]
  omega

/-- Two instants later than a third by two spans lie the difference of the spans apart. -/
theorem since_after (m : Moment) (s t : Nat) : (m.after s).since (m.after t) = s - t := by
  rw [since_of_regular (regular_after m s) (regular_after m t), total_after, total_after]
  omega

end TupleSpace.Moment
