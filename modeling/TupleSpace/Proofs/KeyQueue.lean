import Mathlib.Data.List.TakeWhile
import TupleSpace.Call
import TupleSpace.Proofs.KeyQueue.Walks

/-!
# Where walks along a queue end

A walk is defined by recursion on the entries still in front of it.  A queue in an array is walked
by position, and an entry that is removed on the way makes the next one move up to its place, so
what is left, what is counted and where the walk stands have to be kept apart.  `walkAt` is that
loop, and it comes to the same end.

The last theorem says for every queue, every reading of the clock and every test where the walks
stop, what they leave and what they report.
-/

namespace TupleSpace

namespace KeyQueue

variable {α : Type}

/-! ## Walking by position -/

/-- What a walk leaves that ends at the entry at a position. -/
def leftAt : Mode → List (Entry α) → Nat → List (Entry α)
  | .take, entries, place => entries.eraseIdx place
  | .read, entries, _ => entries

/-- Walks on from a position, with so many expired entries removed on the way. -/
def walkAt (mode : Mode) (now : Nat) (accepts : α → Bool) (entries : List (Entry α))
    (place expired : Nat) : Scan α (Option α) :=
  if h : place < entries.length then
    if entries[place].isExpired now then
      walkAt mode now accepts (entries.eraseIdx place) place (expired + 1)
    else if accepts entries[place].value then
      ⟨⟨leftAt mode entries place⟩, some entries[place].value, expired⟩
    else walkAt mode now accepts entries (place + 1) expired
  else ⟨⟨entries⟩, none, expired⟩
termination_by entries.length - place
decreasing_by
  · rw [List.length_eraseIdx_of_lt h]
    omega
  · omega

/-- A walk by position stands behind the entries it has kept, which are in front of those it has
not seen, and has counted the ones it has removed. -/
theorem walkAt_append (mode : Mode) (now : Nat) (accepts : α → Bool) (kept rest : List (Entry α))
    (expired : Nat) :
    walkAt mode now accepts (kept ++ rest) kept.length expired =
      ⟨⟨kept ++ (walkFrom mode now accepts rest).queue.entries⟩,
        (walkFrom mode now accepts rest).found,
        expired + (walkFrom mode now accepts rest).expired⟩ := by
  induction rest generalizing kept expired with
  | nil =>
      unfold walkAt
      simp [walkFrom_nil, empty]
  | cons e rest ih =>
      have hplace : (kept ++ e :: rest)[kept.length]? = some e := by simp
      obtain ⟨hlt, hget⟩ := List.getElem?_eq_some_iff.mp hplace
      have herase : (kept ++ e :: rest).eraseIdx kept.length = kept ++ rest := by
        simp [List.eraseIdx_append_of_length_le]
      unfold walkAt
      rw [dif_pos hlt, hget, herase]
      by_cases hexpired : e.isExpired now = true
      · rw [if_pos hexpired, ih, walkFrom_cons_of_expired mode accepts rest hexpired]
        simp only [Scan.drop, Scan.mk.injEq, true_and]
        omega
      · have hlive : e.isExpired now = false := Bool.not_eq_true _ ▸ hexpired
        rw [if_neg hexpired]
        by_cases haccepted : accepts e.value = true
        · rw [if_pos haccepted, walkFrom_cons_of_hit mode rest hlive haccepted]
          cases mode with
          | take => simp [leftAt, leftFrom, herase]
          | read => simp [leftAt, leftFrom]
        · have hrejected : accepts e.value = false := Bool.not_eq_true _ ▸ haccepted
          -- The entry stays, so the position moves on behind it.
          have hnext := ih (kept ++ [e]) expired
          rw [List.append_assoc, List.singleton_append, List.length_append, List.length_singleton]
            at hnext
          rw [if_neg haccepted, hnext, walkFrom_cons_of_rejected mode rest hlive hrejected]
          simp [Scan.keep]

/-- A walk by position from the head ends as the recursive one does. -/
theorem walkAt_zero (mode : Mode) (now : Nat) (accepts : α → Bool) (entries : List (Entry α)) :
    walkAt mode now accepts entries 0 0 = walkFrom mode now accepts entries := by
  have hwalk := walkAt_append mode now accepts [] entries 0
  simpa using hwalk

/-! ## The first hit, and looks without a test -/

/-- A look for a live entry succeeds exactly if there is one: the entries in front of the first live
one are all that it drops. -/
theorem hasLive_found_iff (q : KeyQueue α) (now : Nat) :
    (q.hasLive now).found = true ↔ ∃ e ∈ q.entries, e.isLive now = true := by
  rw [hasLive_found, hasLive_queue, isEmpty, Bool.not_eq_true', List.isEmpty_eq_false_iff, ne_eq,
    List.dropWhile_eq_nil_iff]
  simp [Entry.isLive_eq_not]

end KeyQueue

/-- Where every walk along a queue ends.  A take removes the first entry that is live and accepted,
a read leaves it in its place; either drops the expired entries in front of it, reports how many
they were and touches nothing behind it.  Without such an entry they find nothing and drop all
expired entries.  A look for a live entry drops the expired entries at the head and no others; a
purge drops them all, and says whether an entry is left that will expire.  A walk by position that
removes entries on its way is the same walk. -/
theorem walks_end_at_first_hit {α : Type} (q : KeyQueue α) (now : Nat) (accepts : α → Bool) :
    (∀ {before after : List (Entry α)} {e : Entry α}, q.entries = before ++ [e] ++ after →
      (∀ x ∈ before, ¬(x.isLive now = true ∧ accepts x.value = true)) →
      e.isLive now = true → accepts e.value = true →
      q.takeFirst now accepts =
          ⟨⟨before.filter (·.isLive now) ++ after⟩, some e.value,
            before.countP (·.isExpired now)⟩ ∧
        q.readFirst now accepts =
          ⟨⟨before.filter (·.isLive now) ++ [e] ++ after⟩, some e.value,
            before.countP (·.isExpired now)⟩) ∧
    ((∀ x ∈ q.entries, ¬(x.isLive now = true ∧ accepts x.value = true)) →
      q.takeFirst now accepts = ⟨⟨q.live now⟩, none, q.entries.countP (·.isExpired now)⟩ ∧
        q.readFirst now accepts = ⟨⟨q.live now⟩, none, q.entries.countP (·.isExpired now)⟩) ∧
    (q.takeFirst now accepts = KeyQueue.walkAt .take now accepts q.entries 0 0 ∧
      q.readFirst now accepts = KeyQueue.walkAt .read now accepts q.entries 0 0) ∧
    (((q.hasLive now).found = true ↔ ∃ e ∈ q.entries, e.isLive now = true) ∧
      (q.hasLive now).queue = ⟨q.entries.dropWhile (·.isExpired now)⟩ ∧
      (q.hasLive now).expired = (q.entries.takeWhile (·.isExpired now)).length) ∧
    (q.purgeExpired now).queue = ⟨q.live now⟩ ∧
    (q.purgeExpired now).expired = q.entries.countP (·.isExpired now) ∧
    ((q.purgeExpired now).found = true ↔
      ∃ e ∈ q.live now, ∃ deadline, e.expiresAt = some deadline) := by
  have hmiss {xs : List (Entry α)}
      (hnone : ∀ x ∈ xs, ¬(x.isLive now = true ∧ accepts x.value = true)) :
      ∀ x ∈ xs, KeyQueue.hits now accepts x = false := by
    intro x hx
    simpa [KeyQueue.hits] using hnone x hx
  refine ⟨?_, ?_, ?_, ?_, KeyQueue.purgeExpired_queue q now, KeyQueue.purgeExpired_expired q now,
    ?_⟩
  · intro before after e hentries hbefore hlive haccepted
    obtain ⟨entries⟩ := q
    have hhit : KeyQueue.hits now accepts e = true := by
      rw [KeyQueue.hits, hlive, haccepted, Bool.true_and]
    rw [List.append_assoc, List.singleton_append] at hentries ⊢
    subst hentries
    exact ⟨KeyQueue.walkFrom_of_hit .take after (hmiss hbefore) hhit,
      KeyQueue.walkFrom_of_hit .read after (hmiss hbefore) hhit⟩
  · intro hnone
    exact ⟨KeyQueue.walkFrom_of_no_hit .take (hmiss hnone),
      KeyQueue.walkFrom_of_no_hit .read (hmiss hnone)⟩
  · exact ⟨(KeyQueue.walkAt_zero .take now accepts q.entries).symm,
      (KeyQueue.walkAt_zero .read now accepts q.entries).symm⟩
  · exact ⟨KeyQueue.hasLive_found_iff q now, KeyQueue.hasLive_queue q now,
      KeyQueue.hasLive_expired q now⟩
  · simp only [KeyQueue.purgeExpired, KeyQueue.live, List.any_eq_true, Option.isSome_iff_exists]

/-- In a queue of six entries the third is the first that is live and even.  Of the two in front of
it one has expired; of the three behind it one has expired as well and stays.  For a test that no
entry passes both of them go. -/
theorem walks_end_at_first_hit_of_six :
    let expiredFirst : Entry Nat := .expiringAt 2 5
    let odd : Entry Nat := .permanent 1
    let hit : Entry Nat := .expiringAt 4 20
    let expiredLast : Entry Nat := .expiringAt 6 10
    let others : List (Entry Nat) := [expiredLast, .permanent 8, .expiringAt 3 11]
    let q : KeyQueue Nat := ⟨[expiredFirst, odd, hit] ++ others⟩
    q.takeFirst 10 (· % 2 == 0) = ⟨⟨odd :: others⟩, some 4, 1⟩ ∧
      q.readFirst 10 (· % 2 == 0) = ⟨⟨odd :: hit :: others⟩, some 4, 1⟩ ∧
      q.takeFirst 10 (9 < ·) = ⟨⟨[odd, hit, .permanent 8, .expiringAt 3 11]⟩, none, 2⟩ := by
  intro expiredFirst odd hit expiredLast others q
  obtain ⟨hhit, -⟩ := walks_end_at_first_hit q 10 (· % 2 == 0)
  obtain ⟨-, hnone, -⟩ := walks_end_at_first_hit q 10 (9 < ·)
  obtain ⟨htake, hread⟩ := @hhit [expiredFirst, odd] others hit rfl (by decide) (by decide)
    (by decide)
  exact ⟨htake, hread, (hnone (by decide)).1⟩

end TupleSpace
