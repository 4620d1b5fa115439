import Mathlib.Data.List.Basic
import TupleSpace.Call
import TupleSpace.KeyQueue

/-!
# Walks along a queue in closed form

What every walk along a queue leaves, finds and drops, without its recursion.  A walk that looks for
an entry stops at the first one that is live and accepted: the entries behind it are untouched, and
of the entries in front of it exactly the live ones stay.  A walk that meets no such entry leaves
the live entries.
-/

namespace TupleSpace

namespace Entry

variable {α : Type} {e : Entry α} {now later : Nat}

theorem isLive_eq_not : e.isLive now = !e.isExpired now := rfl

theorem isLive_eq_true_iff : e.isLive now = true ↔ e.isExpired now = false := by
  simp [isLive_eq_not]

/-- An entry that is still live was live before. -/
theorem isLive_anti (hle : now ≤ later) (hlive : e.isLive later = true) :
    e.isLive now = true := by
  rw [isLive_iff] at hlive ⊢
  exact fun d hd => Nat.lt_of_le_of_lt hle (hlive d hd)

end Entry

namespace KeyQueue

variable {α : Type} {now : Nat} {accepts : α → Bool}

/-- Whether a walk that looks for an accepted entry stops at this one. -/
def hits (now : Nat) (accepts : α → Bool) (e : Entry α) : Bool :=
  e.isLive now && accepts e.value

theorem hits_eq_true_iff {e : Entry α} :
    hits now accepts e = true ↔ e.isExpired now = false ∧ accepts e.value = true := by
  simp [hits, Entry.isLive_eq_not]

/-- Every list of entries either has a first entry at which a walk stops, or none at all. -/
theorem first_hit_or_none (now : Nat) (accepts : α → Bool) (q : List (Entry α)) :
    (∃ before e after, q = before ++ e :: after ∧
      (∀ x ∈ before, hits now accepts x = false) ∧ hits now accepts e = true) ∨
    ∀ x ∈ q, hits now accepts x = false := by
  cases hfind : q.find? (hits now accepts) with
  | none =>
      right
      intro x hx
      simpa using List.find?_eq_none.mp hfind x hx
  | some e =>
      left
      obtain ⟨hhit, before, after, rfl, hbefore⟩ := List.find?_eq_some_iff_append.mp hfind
      exact ⟨before, e, after, rfl, fun x hx => by simpa using hbefore x hx, hhit⟩

/-- What a walk leaves, finds and drops if it has come past some entries before. -/
def past {β : Type} (now : Nat) (before : List (Entry α)) (s : Scan α β) : Scan α β :=
  ⟨⟨before.filter (·.isLive now) ++ s.queue.entries⟩, s.found,
    before.countP (·.isExpired now) + s.expired⟩

@[simp]
theorem past_nil {β : Type} (s : Scan α β) : past now [] s = s := by
  simp [past]

theorem past_cons_of_expired {β : Type} {e : Entry α} {before : List (Entry α)} {s : Scan α β}
    (hexpired : e.isExpired now = true) : past now (e :: before) s = (past now before s).drop := by
  simp only [past, Scan.drop, List.filter_cons, List.countP_cons, hexpired,
    Entry.isLive_eq_not]
  simp only [Bool.not_true, Bool.false_eq_true, if_false, if_true, Scan.mk.injEq, true_and]
  omega

theorem past_cons_of_live {β : Type} {e : Entry α} {before : List (Entry α)} {s : Scan α β}
    (hlive : e.isExpired now = false) : past now (e :: before) s = (past now before s).keep e := by
  simp [past, Scan.keep, Entry.isLive_eq_not, hlive]

/-! ## Looking for an entry -/

/-- The walk of a take or of a read. -/
def walkFrom (mode : Mode) (now : Nat) (accepts : α → Bool) (entries : List (Entry α)) :
    Scan α (Option α) :=
  match mode with
  | .take => takeFirstFrom now accepts entries
  | .read => readFirstFrom now accepts entries

/-- What a walk leaves of the entry at which it stops and of those behind it. -/
def leftFrom : Mode → Entry α → List (Entry α) → List (Entry α)
  | .take, _, after => after
  | .read, e, after => e :: after

variable {e : Entry α} {before q : List (Entry α)}

theorem walkFrom_nil (mode : Mode) (now : Nat) (accepts : α → Bool) :
    walkFrom mode now accepts [] = ⟨empty, none, 0⟩ := by
  cases mode <;> rfl

theorem walkFrom_cons_of_expired (mode : Mode) (accepts : α → Bool) (rest : List (Entry α))
    (hexpired : e.isExpired now = true) :
    walkFrom mode now accepts (e :: rest) = (walkFrom mode now accepts rest).drop := by
  cases mode <;> simp [walkFrom, takeFirstFrom, readFirstFrom, hexpired]

theorem walkFrom_cons_of_rejected (mode : Mode) (rest : List (Entry α))
    (hlive : e.isExpired now = false) (hrejected : accepts e.value = false) :
    walkFrom mode now accepts (e :: rest) = (walkFrom mode now accepts rest).keep e := by
  cases mode <;> simp [walkFrom, takeFirstFrom, readFirstFrom, hlive, hrejected]

theorem walkFrom_cons_of_hit (mode : Mode) (rest : List (Entry α))
    (hlive : e.isExpired now = false) (haccepted : accepts e.value = true) :
    walkFrom mode now accepts (e :: rest) = ⟨⟨leftFrom mode e rest⟩, some e.value, 0⟩ := by
  cases mode <;> simp [walkFrom, takeFirstFrom, readFirstFrom, leftFrom, hlive, haccepted]

/-- A walk passes the entries at which it does not stop. -/
theorem walkFrom_append (mode : Mode) (rest : List (Entry α))
    (hbefore : ∀ x ∈ before, hits now accepts x = false) :
    walkFrom mode now accepts (before ++ rest) =
      past now before (walkFrom mode now accepts rest) := by
  induction before with
  | nil => rw [List.nil_append, past_nil]
  | cons x before ih =>
      have hrest := ih fun y hy => hbefore y (List.mem_cons_of_mem x hy)
      have hx := hbefore x List.mem_cons_self
      rw [List.cons_append]
      cases hexpired : x.isExpired now with
      | true =>
          rw [walkFrom_cons_of_expired mode accepts _ hexpired, hrest,
            past_cons_of_expired hexpired]
      | false =>
          have hrejected : accepts x.value = false := by
            rwa [hits, Entry.isLive_eq_not, hexpired, Bool.not_false, Bool.true_and] at hx
          rw [walkFrom_cons_of_rejected mode _ hexpired hrejected, hrest,
            past_cons_of_live hexpired]

/-- A walk finds the first entry at which it stops; a take removes it, and a read leaves it in its
place. -/
theorem walkFrom_of_hit (mode : Mode) (after : List (Entry α))
    (hbefore : ∀ x ∈ before, hits now accepts x = false) (hhit : hits now accepts e = true) :
    walkFrom mode now accepts (before ++ e :: after) =
      ⟨⟨before.filter (·.isLive now) ++ leftFrom mode e after⟩, some e.value,
        before.countP (·.isExpired now)⟩ := by
  obtain ⟨hlive, haccepted⟩ := hits_eq_true_iff.mp hhit
  rw [walkFrom_append mode _ hbefore, walkFrom_cons_of_hit mode after hlive haccepted]
  rfl

/-- A walk that stops nowhere leaves the live entries. -/
theorem walkFrom_of_no_hit (mode : Mode) (hnone : ∀ x ∈ q, hits now accepts x = false) :
    walkFrom mode now accepts q =
      ⟨⟨q.filter (·.isLive now)⟩, none, q.countP (·.isExpired now)⟩ := by
  have hpast := walkFrom_append mode [] hnone
  rw [List.append_nil, walkFrom_nil] at hpast
  rw [hpast, past, empty, List.append_nil, Nat.add_zero]

/-! ## The other walks -/

/-- Trimming drops the expired entries in front of the first live one. -/
theorem trimHeadFrom_eq (now : Nat) (q : List (Entry α)) :
    trimHeadFrom now q =
      ⟨⟨q.dropWhile (·.isExpired now)⟩, (), (q.takeWhile (·.isExpired now)).length⟩ := by
  induction q with
  | nil => rfl
  | cons x q ih =>
      by_cases hexpired : x.isExpired now = true
      · simp [trimHeadFrom, hexpired, ih, Scan.drop]
      · simp [trimHeadFrom, hexpired]

/-- The queue that a look for a live entry leaves. -/
theorem hasLive_queue (q : KeyQueue α) (now : Nat) :
    (q.hasLive now).queue = ⟨q.entries.dropWhile (·.isExpired now)⟩ := by
  simp [hasLive, trimHead, trimHeadFrom_eq]

theorem hasLive_expired (q : KeyQueue α) (now : Nat) :
    (q.hasLive now).expired = (q.entries.takeWhile (·.isExpired now)).length := by
  simp [hasLive, trimHead, trimHeadFrom_eq]

/-- A look for a live entry succeeds exactly if something is left behind the trimmed head. -/
theorem hasLive_found (q : KeyQueue α) (now : Nat) :
    (q.hasLive now).found = !(q.hasLive now).queue.isEmpty := rfl

theorem purgeExpired_queue (q : KeyQueue α) (now : Nat) :
    (q.purgeExpired now).queue = ⟨q.entries.filter (·.isLive now)⟩ := rfl

/-- A purge reports every expired entry. -/
theorem purgeExpired_expired (q : KeyQueue α) (now : Nat) :
    (q.purgeExpired now).expired = q.entries.countP (·.isExpired now) := by
  have hsplit : q.entries.length =
      q.entries.countP (·.isExpired now) + (q.entries.filter (·.isLive now)).length := by
    rw [List.length_eq_countP_add_countP (·.isExpired now), ← List.countP_eq_length_filter]
    simp [Entry.isLive_eq_not]
  simp only [purgeExpired]
  omega

end KeyQueue

end TupleSpace
