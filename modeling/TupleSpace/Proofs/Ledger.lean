import Mathlib.Data.List.Nodup
import TupleSpace.Proofs.Run
import TupleSpace.Proofs.Store

/-!
# Ledgers

What has become of every entry that was ever put in a space.  Two entries may look the same, so an
entry is known by the place at which its insertion stands among the events of a run.  A ledger gives
every entry one fate, and keeps beside every queue the shelf of the entries in it; `Shelved` says
that the two agree with each other and with the contents of the space.
-/

namespace TupleSpace

/-! ## Events by their places -/

namespace Event

variable {κ α : Type}

/-- The key and the entry of an insertion that succeeded. -/
def deposit? : Event κ α → Option (κ × Entry α)
  | .inserted now key value timeout _ (.ok ()) =>
    (Entry.withTimeout? value timeout now).map fun e => (key, e)
  | _ => none

/-- The instant, the retrieval and the value of a take that found something. -/
def take? : Event κ α → Option (Nat × Retrieval κ α × α)
  | .ended now _ (.retrieve q) (.ok (.found (some v))) =>
    if q.mode = .take then some (now, q, v) else none
  | _ => none

/-- The key whose other entries an insertion discarded. -/
def replacement? : Event κ α → Option κ
  | .inserted _ key _ _ .replace (.ok ()) => some key
  | _ => none

end Event

section Places

variable {κ α β : Type} {events more : List (Event κ α)} {event : Event κ α} {i : Nat} {x : β}

/-- What the event at a place is seen as. -/
def seenAt (view : Event κ α → Option β) (events : List (Event κ α)) (i : Nat) : Option β :=
  events[i]?.bind view

variable {view : Event κ α → Option β}

theorem lt_of_seenAt (hseen : seenAt view events i = some x) : i < events.length := by
  by_contra hbeyond
  simp [seenAt, List.getElem?_eq_none (Nat.le_of_not_lt hbeyond)] at hseen

theorem seenAt_append_of_lt (hlt : i < events.length) :
    seenAt view (events ++ more) i = seenAt view events i := by
  rw [seenAt, List.getElem?_append_left hlt, seenAt]

/-- What has been seen stays where it is. -/
theorem seenAt_append (hseen : seenAt view events i = some x) :
    seenAt view (events ++ more) i = some x := by
  rw [seenAt_append_of_lt (lt_of_seenAt hseen), hseen]

theorem seenAt_snoc_self : seenAt view (events ++ [event]) events.length = view event := by
  rw [seenAt, get_at_place events [] event, Option.bind_some]

theorem seenAt_snoc_of_ne (hne : i ≠ events.length) :
    seenAt view (events ++ [event]) i = seenAt view events i := by
  rcases Nat.lt_or_gt_of_ne hne with hlt | hgt
  · exact seenAt_append_of_lt hlt
  · rw [seenAt, seenAt, List.getElem?_eq_none hgt.le, List.getElem?_eq_none]
    rw [List.length_append, List.length_singleton]
    omega

/-- An event that is seen as nothing makes no difference. -/
theorem seenAt_snoc_of_none (hnone : view event = none) :
    seenAt view (events ++ [event]) = seenAt view events := by
  funext i
  by_cases hi : i = events.length
  · rw [hi, seenAt_snoc_self, hnone, seenAt, List.getElem?_eq_none (Nat.le_refl _),
      Option.bind_none]
  · exact seenAt_snoc_of_ne hi

end Places

/-! ## Fates -/

/-- What has become of an entry. -/
inductive Fate where
  /-- It is in its queue. -/
  | stored
  /-- The take whose end is the event at a place has returned it. -/
  | taken (place : Nat)
  /-- It was dropped after its deadline. -/
  | lapsed
  /-- The insertion that is the event at a place has discarded it. -/
  | discarded (place : Nat)
deriving DecidableEq, Repr

namespace Fate

def isStored : Fate → Bool
  | stored => true
  | _ => false

def isTaken : Fate → Bool
  | taken _ => true
  | _ => false

def isLapsed : Fate → Bool
  | lapsed => true
  | _ => false

def isDiscarded : Fate → Bool
  | discarded _ => true
  | _ => false

theorem isStored_iff {f : Fate} : f.isStored = true ↔ f = stored := by
  cases f <;> simp [isStored]

end Fate

/-- The fates of the entries that have been put in a space. -/
structure Ledger (κ : Type) where
  /-- The fate of the entry whose insertion is the event at a place. -/
  fate : Nat → Option Fate
  /-- The entries in the queue of a key. -/
  shelf : κ → List Nat

namespace Ledger

/-- Nothing has been put in a space. -/
def blank (κ : Type) : Ledger κ where
  fate _ := none
  shelf _ := []

variable {κ α : Type} {L L' L'' : Ledger κ}

/-- The number of entries before a place whose fate is of some kind. -/
def tally (p : Fate → Bool) (L : Ledger κ) (n : Nat) : Nat :=
  (List.range n).countP fun i => (L.fate i).any p

/-- One ledger is what another may become: an entry that is no longer stored keeps its fate. -/
def Leads (L L' : Ledger κ) : Prop :=
  ∀ i f, L.fate i = some f → f ≠ .stored → L'.fate i = some f

theorem Leads.refl (L : Ledger κ) : L.Leads L := fun _ _ hfate _ => hfate

theorem Leads.trans (hfirst : L.Leads L') (hsecond : L'.Leads L'') : L.Leads L'' :=
  fun i f hfate hsettled => hsecond i f (hfirst i f hfate hsettled) hsettled

/-! ### Tallies -/

theorem tally_succ (p : Fate → Bool) (L : Ledger κ) (n : Nat) :
    L.tally p (n + 1) = L.tally p n + if (L.fate n).any p then 1 else 0 := by
  simp [tally, List.range_succ]

theorem tally_congr {p : Fate → Bool} {n : Nat}
    (hsame : ∀ i, i < n → (L'.fate i).any p = (L.fate i).any p) : L'.tally p n = L.tally p n :=
  List.countP_congr fun i hi => by rw [hsame i (List.mem_range.mp hi)]

/-- A tally counts an entry that gets a new fate anew. -/
theorem tally_of_eq_off {p : Fate → Bool} {i n : Nat} (hi : i < n)
    (hothers : ∀ x, x ≠ i → L'.fate x = L.fate x) :
    L'.tally p n + (if (L.fate i).any p then 1 else 0) =
      L.tally p n + if (L'.fate i).any p then 1 else 0 := by
  induction n with
  | zero => exact absurd hi (Nat.not_lt_zero i)
  | succ n ih =>
      rw [tally_succ, tally_succ]
      by_cases hlast : i = n
      · subst hlast
        have hbefore := tally_congr (p := p) (n := i) fun x hx =>
          congrArg (·.any p) (hothers x (Nat.ne_of_lt hx))
        omega
      · have hbefore := ih (by omega)
        rw [hothers n (Ne.symm hlast)]
        omega

/-- Every entry has one fate. -/
theorem tally_split (L : Ledger κ) (n : Nat) :
    L.tally (fun _ => true) n = L.tally Fate.isStored n + L.tally Fate.isTaken n +
      L.tally Fate.isLapsed n + L.tally Fate.isDiscarded n := by
  induction n with
  | zero => rfl
  | succ n ih =>
      simp only [tally_succ, ih]
      rcases L.fate n with _ | f
      · simp
      · cases f <;> simp [Fate.isStored, Fate.isTaken, Fate.isLapsed, Fate.isDiscarded] <;> omega

end Ledger

/-! ## Shelves -/

section Shelves

variable {κ α : Type} {events : List (Event κ α)} {st : Store κ α} {L : Ledger κ}

/-- A ledger agrees with the insertions that were seen and with the contents. -/
structure Shelved (events : List (Event κ α)) (st : Store κ α) (L : Ledger κ) : Prop where
  /-- The insertions that succeeded have a fate, and nothing else has. -/
  known : ∀ i, (L.fate i).isSome = (seenAt Event.deposit? events i).isSome
  /-- The queue of a key consists of the entries on its shelf, in that order. -/
  queue : ∀ key, (L.shelf key).map (seenAt Event.deposit? events) =
    (st key).map fun e => some (key, e)
  nodup : ∀ key, (L.shelf key).Nodup
  stored : ∀ i, L.fate i = some .stored ↔ ∃ key, i ∈ L.shelf key

namespace Shelved

theorem blank : Shelved ([] : List (Event κ α)) (fun _ => []) (.blank κ) where
  known _ := rfl
  queue _ := rfl
  nodup _ := List.nodup_nil
  stored _ := ⟨nofun, nofun⟩

theorem length_shelf (hshelved : Shelved events st L) (key : κ) :
    (L.shelf key).length = (st key).length := by
  simpa using congrArg List.length (hshelved.queue key)

/-- An entry lies on the shelf of its own key. -/
theorem seenAt_of_mem (hshelved : Shelved events st L) {key : κ} {i : Nat}
    (hi : i ∈ L.shelf key) : ∃ e, seenAt Event.deposit? events i = some (key, e) := by
  have hmem : seenAt Event.deposit? events i ∈ (st key).map fun e => some (key, e) :=
    hshelved.queue key ▸ List.mem_map_of_mem hi
  obtain ⟨e, _, he⟩ := List.mem_map.mp hmem
  exact ⟨e, he.symm⟩

theorem lt_of_fate (hshelved : Shelved events st L) {i : Nat} {f : Fate}
    (hfate : L.fate i = some f) : i < events.length := by
  have hknown := hshelved.known i
  rw [hfate, Option.isSome_some] at hknown
  obtain ⟨x, hx⟩ := Option.isSome_iff_exists.mp hknown.symm
  exact lt_of_seenAt hx

theorem lt_of_mem (hshelved : Shelved events st L) {key : κ} {i : Nat} (hi : i ∈ L.shelf key) :
    i < events.length :=
  hshelved.lt_of_fate ((hshelved.stored i).mpr ⟨key, hi⟩)

/-- No entry lies on two shelves. -/
theorem shelf_disjoint (hshelved : Shelved events st L) {key key' : κ} {i : Nat}
    (hi : i ∈ L.shelf key) (hi' : i ∈ L.shelf key') : key = key' := by
  obtain ⟨e, he⟩ := hshelved.seenAt_of_mem hi
  obtain ⟨e', he'⟩ := hshelved.seenAt_of_mem hi'
  rw [he] at he'
  cases he'
  rfl

/-- An entry in a queue has a place on the shelf. -/
theorem exists_place (hshelved : Shelved events st L) {key : κ} {before after : List (Entry α)}
    {e : Entry α} (hstored : st key = before ++ e :: after) :
    ∃ left i right, L.shelf key = left ++ i :: right ∧
      seenAt Event.deposit? events i = some (key, e) ∧
      (left ++ right).map (seenAt Event.deposit? events) =
        (before ++ after).map fun e => some (key, e) := by
  have hqueue := hshelved.queue key
  rw [hstored, List.map_append, List.map_cons, List.map_eq_append_iff] at hqueue
  obtain ⟨left, rest, hshelf, hleft, hrest⟩ := hqueue
  obtain ⟨i, right, rfl, hi, hright⟩ := List.map_eq_cons_iff.mp hrest
  exact ⟨left, i, right, hshelf, hi, by rw [List.map_append, hleft, hright, List.map_append]⟩

/-- The shelves of all keys that store something hold what is stored, and hold it once. -/
theorem perm_stored (hshelved : Shelved events st L) {keys : List κ} (hnodup : keys.Nodup)
    (hcover : ∀ key, st key ≠ [] → key ∈ keys) :
    (keys.flatMap L.shelf).Perm
      ((List.range events.length).filter fun i => (L.fate i).any Fate.isStored) := by
  have hflat : (keys.flatMap L.shelf).Nodup := by
    apply List.nodup_flatMap.mpr ⟨fun key _ => hshelved.nodup key, hnodup.imp _⟩
    intro key key' hne i hi hi'
    exact hne (hshelved.shelf_disjoint hi hi')
  apply (List.perm_ext_iff_of_nodup hflat (List.nodup_range.filter _)).mpr
  intro i
  have hany : (L.fate i).any Fate.isStored = true ↔ L.fate i = some .stored := by
    simp [Option.any_eq_true, Fate.isStored_iff]
  rw [List.mem_flatMap, List.mem_filter, List.mem_range, hany, hshelved.stored]
  constructor
  · rintro ⟨key, _, hi⟩
    exact ⟨hshelved.lt_of_mem hi, key, hi⟩
  · rintro ⟨_, key, hi⟩
    have hstored : st key ≠ [] := by
      rw [← List.length_pos_iff, ← hshelved.length_shelf key]
      exact List.length_pos_of_mem hi
    exact ⟨key, hcover key hstored, hi⟩

end Shelved

end Shelves

/-! ## What happens to shelves -/

namespace Ledger

variable {κ : Type} [DecidableEq κ]

/-- An entry leaves its shelf. -/
def settle (key : κ) (i : Nat) (f : Fate) (L : Ledger κ) : Ledger κ where
  fate := Function.update L.fate i (some f)
  shelf := Function.update L.shelf key ((L.shelf key).erase i)

/-- An entry is put on a shelf; if it replaces the others there, these are discarded. -/
def put (key : κ) (i : Nat) (placement : Placement) (L : Ledger κ) : Ledger κ where
  fate x :=
    if x = i then some .stored
    else if placement = .replace ∧ x ∈ L.shelf key then some (.discarded i)
    else L.fate x
  shelf := Function.update L.shelf key (placement.place i (L.shelf key))

end Ledger

namespace Shelved

variable {κ α : Type} [DecidableEq κ] {events : List (Event κ α)} {st : Store κ α}
  {L : Ledger κ} {key : κ}

theorem mem_shelf_settle (hshelved : Shelved events st L) {i : Nat} (hi : i ∈ L.shelf key)
    (f : Fate) (k : κ) (x : Nat) :
    x ∈ (L.settle key i f).shelf k ↔ x ∈ L.shelf k ∧ x ≠ i := by
  by_cases hk : k = key
  · subst hk
    simp [Ledger.settle, (hshelved.nodup k).mem_erase_iff, and_comm]
  · have hother : x ∈ L.shelf k → x ≠ i := by
      rintro hx rfl
      exact hk (hshelved.shelf_disjoint hx hi)
    simpa [Ledger.settle, hk] using hother

/-- When an entry leaves its queue, some entry on the shelf leaves with it. -/
theorem settle (hshelved : Shelved events st L) {before after : List (Entry α)} {e : Entry α}
    (hstored : st key = before ++ e :: after) {f : Fate} (hsettled : f ≠ .stored) :
    ∃ i, seenAt Event.deposit? events i = some (key, e) ∧ L.fate i = some .stored ∧
      Shelved events (Function.update st key (before ++ after)) (L.settle key i f) := by
  obtain ⟨left, i, right, hshelf, hseen, hrest⟩ := hshelved.exists_place hstored
  have hnodup := hshelved.nodup key
  have hi : i ∈ L.shelf key := by
    rw [hshelf]
    exact List.mem_append_right _ List.mem_cons_self
  have hleft : i ∉ left := by
    rw [hshelf] at hnodup
    exact fun hmem => (List.nodup_append.mp hnodup).2.2 i hmem i List.mem_cons_self rfl
  have herased : (L.shelf key).erase i = left ++ right := by
    rw [hshelf, List.erase_append_right _ hleft, List.erase_cons_head]
  have hfate : L.fate i = some .stored := (hshelved.stored i).mpr ⟨key, hi⟩
  refine ⟨i, hseen, hfate, ?_, ?_, ?_, ?_⟩
  · intro x
    by_cases hx : x = i
    · subst hx
      simp [Ledger.settle, hseen]
    · simpa [Ledger.settle, hx] using hshelved.known x
  · intro k
    by_cases hk : k = key
    · subst hk
      simpa [Ledger.settle, herased] using hrest
    · simpa [Ledger.settle, hk] using hshelved.queue k
  · intro k
    by_cases hk : k = key
    · subst hk
      simpa [Ledger.settle] using hnodup.erase i
    · simpa [Ledger.settle, hk] using hshelved.nodup k
  · intro x
    rw [exists_congr fun k => hshelved.mem_shelf_settle hi f k x]
    by_cases hx : x = i
    · subst hx
      simpa [Ledger.settle] using hsettled
    · simpa [Ledger.settle, hx] using hshelved.stored x

omit [DecidableEq κ] in
/-- An event that is no insertion leaves the shelves as they are. -/
theorem snoc (hshelved : Shelved events st L) {event : Event κ α} (hnone : event.deposit? = none) :
    Shelved (events ++ [event]) st L where
  known i := by
    rw [seenAt_snoc_of_none hnone]
    exact hshelved.known i
  queue key := by
    rw [seenAt_snoc_of_none hnone]
    exact hshelved.queue key
  nodup := hshelved.nodup
  stored := hshelved.stored

/-- An insertion leaves an older entry on its shelf, unless it discards it. -/
theorem mem_shelf_put (hshelved : Shelved events st L) {x : Nat} (hx : x ≠ events.length)
    (placement : Placement) (k : κ) :
    x ∈ (L.put key events.length placement).shelf k ↔
      x ∈ L.shelf k ∧ ¬ (placement = .replace ∧ x ∈ L.shelf key) := by
  by_cases hk : k = key
  · subst hk
    simp only [Ledger.put, Function.update_self, Placement.mem_place_of_ne hx]
    tauto
  · have hother : x ∈ L.shelf k → x ∉ L.shelf key := fun hxk hxkey =>
      hk (hshelved.shelf_disjoint hxk hxkey)
    simp only [Ledger.put, Function.update_of_ne hk]
    tauto

/-- An insertion puts its entry on the shelf where it has put it in the queue. -/
theorem put (hshelved : Shelved events st L) {event : Event κ α} {e : Entry α}
    (hdeposit : event.deposit? = some (key, e)) (placement : Placement) :
    Shelved (events ++ [event]) (Function.update st key (placement.place e (st key)))
      (L.put key events.length placement) := by
  have hfresh : ∀ k, events.length ∉ L.shelf k := fun k hmem =>
    Nat.lt_irrefl _ (hshelved.lt_of_mem hmem)
  have hold : ∀ k, (L.shelf k).map (seenAt Event.deposit? (events ++ [event])) =
      (L.shelf k).map (seenAt Event.deposit? events) := fun k =>
    List.map_congr_left fun i hi => seenAt_append_of_lt (hshelved.lt_of_mem hi)
  refine ⟨?_, ?_, ?_, ?_⟩
  · intro x
    by_cases hx : x = events.length
    · subst hx
      simp [Ledger.put, seenAt_snoc_self, hdeposit]
    · rw [seenAt_snoc_of_ne hx, ← hshelved.known x]
      simp only [Ledger.put, if_neg hx]
      split
      · rename_i hreplaced
        rw [(hshelved.stored x).mpr ⟨key, hreplaced.2⟩]
        rfl
      · rfl
  · intro k
    by_cases hk : k = key
    · subst hk
      simp [Ledger.put, Placement.map_place, hold, hshelved.queue, seenAt_snoc_self, hdeposit]
    · simpa [Ledger.put, hk, hold] using hshelved.queue k
  · intro k
    by_cases hk : k = key
    · subst hk
      simpa [Ledger.put] using Placement.nodup_place (hfresh k) (hshelved.nodup k) placement
    · simpa [Ledger.put, hk] using hshelved.nodup k
  · intro x
    by_cases hx : x = events.length
    · subst hx
      have hmem := Placement.mem_place_self events.length (L.shelf key) placement
      exact ⟨fun _ => ⟨key, by simpa [Ledger.put] using hmem⟩, fun _ => if_pos rfl⟩
    · rw [exists_congr (hshelved.mem_shelf_put hx placement)]
      simp only [Ledger.put, if_neg hx]
      split
      · rename_i hreplaced
        simp [hreplaced]
      · rename_i hkept
        simpa [hkept] using hshelved.stored x

end Shelved

end TupleSpace
