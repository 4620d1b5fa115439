import Mathlib
import TupleSpace.Proofs.Lazy
import TupleSpace.Proofs.Ledger

/-!
# Accounts

What a ledger says about the events of a run is borne out by them: an entry with the fate of having
been taken was returned by one take, which was entitled to it, and so on.  The counters of a space
tally the fates.  There are few ways in which a space can change, and each of them has its entry in
the ledger: an entry lapses, is taken or is put in its place, or something is seen that moves no
entry.
-/

namespace TupleSpace

variable {κ α : Type}

/-- What has to have been seen by an instant for the entry that was inserted at a place to have a
fate. -/
def Justified (events : List (Event κ α)) (now i : Nat) : Fate → Prop
  | .stored => True
  | .taken j => i < j ∧ ∃ e t q, seenAt Event.deposit? events i = some (q.key, e) ∧
      seenAt Event.take? events j = some (t, q, e.value) ∧
      q.accepts e.value = true ∧ e.isLive t = true
  | .lapsed => ∃ key e, seenAt Event.deposit? events i = some (key, e) ∧ e.isExpired now = true
  | .discarded j => i < j ∧ ∃ key e, seenAt Event.deposit? events i = some (key, e) ∧
      seenAt Event.replacement? events j = some key

/-- Some counters tally the fates of the entries that were inserted before a place. -/
structure Tallied (m : Metrics) (L : Ledger κ) (n : Nat) : Prop where
  inserts : m.inserts = L.tally (fun _ => true) n
  takes : m.takes = L.tally Fate.isTaken n
  expired : m.expired = L.tally Fate.isLapsed n

/-- A ledger accounts for the events of a run up to an instant, for the contents then and for the
counters then. -/
structure Accounts (events : List (Event κ α)) (now : Nat) (st : Store κ α) (m : Metrics)
    (L : Ledger κ) : Prop extends Shelved events st L where
  justified : ∀ i f, L.fate i = some f → Justified events now i f
  /-- Every take that found something returned one entry. -/
  paid : ∀ j x, seenAt Event.take? events j = some x → ∃! i, L.fate i = some (.taken j)
  tallied : Tallied m L events.length

/-! ## Justification -/

namespace Justified

variable {events more : List (Event κ α)} {now later i : Nat} {f : Fate}

/-- What has been seen stays seen. -/
theorem append (hjustified : Justified events now i f) : Justified (events ++ more) now i f := by
  cases f with
  | stored => trivial
  | taken j =>
      obtain ⟨hlt, e, t, q, hput, hgot, hrest⟩ := hjustified
      exact ⟨hlt, e, t, q, seenAt_append hput, seenAt_append hgot, hrest⟩
  | lapsed =>
      obtain ⟨key, e, hput, hexpired⟩ := hjustified
      exact ⟨key, e, seenAt_append hput, hexpired⟩
  | discarded j =>
      obtain ⟨hlt, key, e, hput, hreplaced⟩ := hjustified
      exact ⟨hlt, key, e, seenAt_append hput, seenAt_append hreplaced⟩

/-- What is past its deadline stays so. -/
theorem wait (hjustified : Justified events now i f) (hle : now ≤ later) :
    Justified events later i f := by
  cases f with
  | stored => trivial
  | taken j => exact hjustified
  | lapsed =>
      obtain ⟨key, e, hput, hexpired⟩ := hjustified
      exact ⟨key, e, hput, Entry.isExpired_mono hle hexpired⟩
  | discarded j => exact hjustified

end Justified

/-! ## Fates after a change -/

namespace Ledger

variable [DecidableEq κ] {L : Ledger κ} {key : κ} {i : Nat} {f : Fate}

/-- An entry that leaves its shelf gets its new fate, and no other entry does. -/
theorem of_fate_settle {g : Fate} {x : Nat} (hx : (L.settle key i f).fate x = some g) :
    L.fate x = some g ∨ (x = i ∧ g = f) := by
  by_cases hself : x = i
  · subst hself
    simp only [settle, Function.update_self, Option.some.injEq] at hx
    exact .inr ⟨rfl, hx.symm⟩
  · simp only [settle, Function.update_of_ne hself] at hx
    exact .inl hx

theorem leads_settle (hfate : L.fate i = some .stored) : L.Leads (L.settle key i f) := by
  intro x g hx hg
  have hne : x ≠ i := by
    rintro rfl
    rw [hfate] at hx
    cases hx
    exact hg rfl
  simpa only [settle, Function.update_of_ne hne] using hx

theorem tally_settle {n : Nat} (hi : i < n) (hfate : L.fate i = some .stored) (key : κ) (f : Fate)
    (p : Fate → Bool) :
    (L.settle key i f).tally p n + (if p .stored then 1 else 0) =
      L.tally p n + if p f then 1 else 0 := by
  have hothers : ∀ x, x ≠ i → (L.settle key i f).fate x = L.fate x := fun _ hx =>
    Function.update_of_ne hx _ _
  have htally := tally_of_eq_off (p := p) hi hothers
  simpa [settle, hfate] using htally

end Ledger

namespace Shelved

variable [DecidableEq κ] {events : List (Event κ α)} {st : Store κ α} {L : Ledger κ}

omit [DecidableEq κ] in
theorem fate_length (hshelved : Shelved events st L) : L.fate events.length = none := by
  rw [Option.eq_none_iff_forall_ne_some]
  exact fun f hfate => Nat.lt_irrefl _ (hshelved.lt_of_fate hfate)

/-- An insertion settles the fates of the entries that it discards, and of no others. -/
theorem of_fate_put {key : κ} {placement : Placement} {g : Fate} {x : Nat}
    (hx : (L.put key events.length placement).fate x = some g) (hg : g ≠ .stored) :
    L.fate x = some g ∨
      (placement = .replace ∧ x ∈ L.shelf key ∧ g = .discarded events.length) := by
  simp only [Ledger.put] at hx
  split at hx
  · cases hx
    exact absurd rfl hg
  · split at hx
    · rename_i hreplaced
      cases hx
      exact .inr ⟨hreplaced.1, hreplaced.2, rfl⟩
    · exact .inl hx

theorem leads_put (hshelved : Shelved events st L) (key : κ) (placement : Placement) :
    L.Leads (L.put key events.length placement) := by
  intro x g hx hg
  have hnew : x ≠ events.length := Nat.ne_of_lt (hshelved.lt_of_fate hx)
  have hkept : ¬ (placement = .replace ∧ x ∈ L.shelf key) := by
    rintro ⟨_, hmem⟩
    rw [(hshelved.stored x).mpr ⟨key, hmem⟩] at hx
    cases hx
    exact hg rfl
  simpa only [Ledger.put, if_neg hnew, if_neg hkept] using hx

/-- An insertion moves the tallies of stored and of discarded entries only. -/
theorem tally_put (hshelved : Shelved events st L) (key : κ) (placement : Placement)
    {p : Fate → Bool} (hp : p .stored = p (.discarded events.length)) :
    (L.put key events.length placement).tally p (events.length + 1) =
      L.tally p events.length + if p .stored then 1 else 0 := by
  have hnew : (L.put key events.length placement).fate events.length = some .stored := if_pos rfl
  rw [Ledger.tally_succ, hnew, Option.any_some]
  apply congrArg (· + _)
  apply Ledger.tally_congr
  intro i hi
  simp only [Ledger.put, if_neg (Nat.ne_of_lt hi)]
  split
  · rename_i hreplaced
    rw [(hshelved.stored i).mpr ⟨key, hreplaced.2⟩, Option.any_some, Option.any_some, hp]
  · rfl

end Shelved

/-! ## Counters -/

namespace Tallied

variable {m m' : Metrics} {L : Ledger κ} {n : Nat}

/-- Other counters do not matter. -/
theorem recount (htallied : Tallied m L n) (hinserts : m'.inserts = m.inserts)
    (htakes : m'.takes = m.takes) (hexpired : m'.expired = m.expired) : Tallied m' L n where
  inserts := hinserts.trans htallied.inserts
  takes := htakes.trans htallied.takes
  expired := hexpired.trans htallied.expired

/-- An event that is no insertion has no fate. -/
theorem succ (htallied : Tallied m L n) (hnone : L.fate n = none) : Tallied m L (n + 1) where
  inserts := by simpa [Ledger.tally_succ, hnone] using htallied.inserts
  takes := by simpa [Ledger.tally_succ, hnone] using htallied.takes
  expired := by simpa [Ledger.tally_succ, hnone] using htallied.expired

variable [DecidableEq κ]

/-- An entry that leaves its shelf is counted by what has become of it. -/
theorem settle (htallied : Tallied m L n) {i : Nat} (hi : i < n)
    (hfate : L.fate i = some .stored) (key : κ) (f : Fate) (hinserts : m'.inserts = m.inserts)
    (htakes : m'.takes = m.takes + if f.isTaken then 1 else 0)
    (hexpired : m'.expired = m.expired + if f.isLapsed then 1 else 0) :
    Tallied m' (L.settle key i f) n where
  inserts := by
    have htally := Ledger.tally_settle hi hfate key f fun _ => true
    rw [hinserts, htallied.inserts]
    simpa using htally.symm
  takes := by
    have htally := Ledger.tally_settle hi hfate key f Fate.isTaken
    rw [htakes, htallied.takes, ← htally]
    rfl
  expired := by
    have htally := Ledger.tally_settle hi hfate key f Fate.isLapsed
    rw [hexpired, htallied.expired, ← htally]
    rfl

/-- An insertion moves the counter of insertions only. -/
theorem put {α : Type} {events : List (Event κ α)} {st : Store κ α}
    (htallied : Tallied m L events.length) (hshelved : Shelved events st L) (key : κ)
    (placement : Placement) :
    Tallied (m.count .insert) (L.put key events.length placement) (events.length + 1) where
  inserts := by
    rw [hshelved.tally_put key placement rfl, ← htallied.inserts]
    rfl
  takes := by
    rw [hshelved.tally_put key placement rfl, ← htallied.takes]
    rfl
  expired := by
    rw [hshelved.tally_put key placement rfl, ← htallied.expired]
    rfl

end Tallied

/-! ## The ways in which a space can change -/

namespace Accounts

variable {events : List (Event κ α)} {event : Event κ α} {now later n : Nat} {st st' : Store κ α}
  {m m' : Metrics} {L : Ledger κ}

theorem blank (now : Nat) : Accounts ([] : List (Event κ α)) now (fun _ => []) {} (.blank κ) where
  toShelved := .blank
  justified _ _ := nofun
  paid _ _ := nofun
  tallied := ⟨rfl, rfl, rfl⟩

/-- Other counters do not matter. -/
theorem recount (haccounts : Accounts events now st m L) (hinserts : m'.inserts = m.inserts)
    (htakes : m'.takes = m.takes) (hexpired : m'.expired = m.expired) :
    Accounts events now st m' L :=
  { haccounts with tallied := haccounts.tallied.recount hinserts htakes hexpired }

/-- Time passes. -/
theorem wait (haccounts : Accounts events now st m L) (hle : now ≤ later) :
    Accounts events later st m L :=
  { haccounts with justified := fun i f hf => (haccounts.justified i f hf).wait hle }

/-- Something is seen that moves no entry. -/
theorem snoc [DecidableEq κ] (haccounts : Accounts events now st m L)
    (hdeposit : event.deposit? = none) (htake : event.take? = none) :
    Accounts (events ++ [event]) now st m L := by
  refine ⟨haccounts.toShelved.snoc hdeposit, fun i f hf => (haccounts.justified i f hf).append, ?_,
    ?_⟩
  · rw [seenAt_snoc_of_none htake]
    exact haccounts.paid
  · rw [List.length_append, List.length_singleton]
    exact haccounts.tallied.succ haccounts.toShelved.fate_length

variable [DecidableEq κ]

/-- An expired entry is dropped. -/
theorem lapse (haccounts : Accounts events now st m L) {key : κ} {before after : List (Entry α)}
    {e : Entry α} (hstored : st key = before ++ e :: after) (hexpired : e.isExpired now = true) :
    ∃ L', Accounts events now (Function.update st key (before ++ after)) (m.countExpired 1) L' ∧
      L.Leads L' := by
  obtain ⟨i, hseen, hfate, hshelved⟩ := haccounts.toShelved.settle hstored (f := .lapsed) (by simp)
  have hlt := haccounts.toShelved.lt_of_fate hfate
  have hleads : L.Leads (L.settle key i .lapsed) := Ledger.leads_settle hfate
  have htallied : Tallied (m.countExpired 1) (L.settle key i .lapsed) events.length :=
    haccounts.tallied.settle hlt hfate key .lapsed rfl rfl rfl
  refine ⟨L.settle key i .lapsed, ⟨hshelved, ?_, ?_, htallied⟩, hleads⟩
  · intro x g hx
    rcases Ledger.of_fate_settle hx with hold | ⟨rfl, rfl⟩
    · exact haccounts.justified x g hold
    · exact ⟨key, e, hseen, hexpired⟩
  · intro j x hx
    obtain ⟨y, hy, hunique⟩ := haccounts.paid j x hx
    refine ⟨y, hleads y _ hy (by simp), fun z hz => hunique z ?_⟩
    exact (Ledger.of_fate_settle hz).resolve_right (by simp)

/-- Expired entries are dropped, one after the other. -/
theorem fades (haccounts : Accounts events now st m L) (hfades : Store.Fades now n st st') :
    ∃ L', Accounts events now st' (m.countExpired n) L' ∧ L.Leads L' := by
  induction hfades generalizing m L with
  | refl => exact ⟨L, haccounts, .refl L⟩
  | @drop n st st' key before after e stored expired rest ih =>
      obtain ⟨L₁, hlapsed, hfirst⟩ := haccounts.lapse stored expired
      obtain ⟨L₂, hrest, hsecond⟩ := ih hlapsed
      rw [Metrics.countExpired_countExpired, Nat.add_comm] at hrest
      exact ⟨L₂, hrest, hfirst.trans hsecond⟩

/-- A take returns an entry. -/
theorem take (haccounts : Accounts events now st m L) {q : Retrieval κ α}
    {before after : List (Entry α)} {e : Entry α} (hstored : st q.key = before ++ e :: after)
    (hlive : e.isLive now = true) (haccepted : q.accepts e.value = true)
    (hdeposit : event.deposit? = none) (htake : event.take? = some (now, q, e.value)) :
    ∃ L', Accounts (events ++ [event]) now (Function.update st q.key (before ++ after))
      (m.count .take) L' ∧ L.Leads L' := by
  obtain ⟨i, hseen, hfate, hshelved⟩ :=
    haccounts.toShelved.settle hstored (f := .taken events.length) (by simp)
  have hlt := haccounts.toShelved.lt_of_fate hfate
  have hleads : L.Leads (L.settle q.key i (.taken events.length)) := Ledger.leads_settle hfate
  have hself : (L.settle q.key i (.taken events.length)).fate i = some (.taken events.length) :=
    Function.update_self ..
  have htallied : Tallied (m.count .take) (L.settle q.key i (.taken events.length))
      (events ++ [event]).length := by
    have hnone : (L.settle q.key i (.taken events.length)).fate events.length = none := by
      simp only [Ledger.settle, Function.update_of_ne (Nat.ne_of_gt hlt)]
      exact haccounts.toShelved.fate_length
    have hsettled : Tallied (m.count .take) (L.settle q.key i (.taken events.length))
        events.length := haccounts.tallied.settle hlt hfate q.key _ rfl rfl rfl
    rw [List.length_append, List.length_singleton]
    exact hsettled.succ hnone
  refine ⟨L.settle q.key i (.taken events.length), ⟨hshelved.snoc hdeposit, ?_, ?_, htallied⟩,
    hleads⟩
  · intro x g hx
    rcases Ledger.of_fate_settle hx with hold | ⟨rfl, rfl⟩
    · exact (haccounts.justified x g hold).append
    · exact ⟨hlt, e, now, q, seenAt_append hseen, seenAt_snoc_self.trans htake, haccepted, hlive⟩
  · intro j x hx
    by_cases hj : j = events.length
    · subst hj
      refine ⟨i, hself, ?_⟩
      intro y hy
      rcases Ledger.of_fate_settle hy with hold | ⟨heq, _⟩
      · obtain ⟨_, _, _, _, _, hgot, _⟩ := haccounts.justified y _ hold
        exact absurd (lt_of_seenAt hgot) (Nat.lt_irrefl _)
      · exact heq
    · rw [seenAt_snoc_of_ne hj] at hx
      obtain ⟨y, hy, hunique⟩ := haccounts.paid j x hx
      refine ⟨y, hleads y _ hy (by simp), fun z hz => hunique z ?_⟩
      rcases Ledger.of_fate_settle hz with hold | ⟨_, hnew⟩
      · exact hold
      · cases hnew
        exact absurd rfl hj

/-- An entry is put in its place. -/
theorem put (haccounts : Accounts events now st m L) {key : κ} {e : Entry α}
    {placement : Placement} (hdeposit : event.deposit? = some (key, e))
    (htake : event.take? = none)
    (hreplacement : placement = .replace → event.replacement? = some key) :
    ∃ L', Accounts (events ++ [event]) now
      (Function.update st key (placement.place e (st key))) (m.count .insert) L' ∧
      L.Leads L' := by
  have hshelved := haccounts.toShelved
  have hleads := hshelved.leads_put key placement
  have htallied : Tallied (m.count .insert) (L.put key events.length placement)
      (events ++ [event]).length := by
    rw [List.length_append, List.length_singleton]
    exact haccounts.tallied.put hshelved key placement
  refine ⟨L.put key events.length placement, ⟨hshelved.put hdeposit placement, ?_, ?_, htallied⟩,
    hleads⟩
  · intro x g hx
    by_cases hg : g = .stored
    · rw [hg]
      trivial
    · rcases Shelved.of_fate_put hx hg with hold | ⟨hreplaced, hmem, rfl⟩
      · exact (haccounts.justified x g hold).append
      · obtain ⟨e', hput⟩ := hshelved.seenAt_of_mem hmem
        exact ⟨hshelved.lt_of_mem hmem, key, e', seenAt_append hput,
          seenAt_snoc_self.trans (hreplacement hreplaced)⟩
  · intro j x hx
    rw [seenAt_snoc_of_none htake] at hx
    obtain ⟨y, hy, hunique⟩ := haccounts.paid j x hx
    refine ⟨y, hleads y _ hy (by simp), fun z hz => hunique z ?_⟩
    rcases Shelved.of_fate_put hz (by simp) with hold | ⟨_, _, hnew⟩
    · exact hold
    · cases hnew

/-! ## The balance -/

omit [DecidableEq κ] in
/-- The shelves of the keys with storage hold the stored entries. -/
theorem sum_sizes (haccounts : Accounts events now st m L) {keys : List κ}
    (hnodup : keys.Nodup) (hcover : ∀ key, st key ≠ [] → key ∈ keys) :
    (keys.map fun key => (st key).length).sum = L.tally Fate.isStored events.length := by
  have hlengths : (keys.map fun key => (st key).length) =
      keys.map fun key => (L.shelf key).length :=
    List.map_congr_left fun key _ => (haccounts.toShelved.length_shelf key).symm
  calc
    _ = (keys.map fun key => (L.shelf key).length).sum := by rw [hlengths]
    _ = (keys.flatMap L.shelf).length := List.length_flatMap.symm
    _ = ((List.range events.length).filter fun i => (L.fate i).any Fate.isStored).length :=
      (haccounts.toShelved.perm_stored hnodup hcover).length_eq
    _ = L.tally Fate.isStored events.length := List.countP_eq_length_filter.symm

omit [DecidableEq κ] in
/-- What has been inserted is stored, or has been taken, dropped or discarded. -/
theorem balance (haccounts : Accounts events now st m L) {keys : List κ}
    (hnodup : keys.Nodup) (hcover : ∀ key, st key ≠ [] → key ∈ keys) :
    (keys.map fun key => (st key).length).sum + m.takes + m.expired +
      L.tally Fate.isDiscarded events.length = m.inserts := by
  rw [haccounts.sum_sizes hnodup hcover, haccounts.tallied.takes, haccounts.tallied.expired,
    haccounts.tallied.inserts, Ledger.tally_split]

end Accounts

end TupleSpace
