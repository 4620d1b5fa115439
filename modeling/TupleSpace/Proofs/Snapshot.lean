import TupleSpace.Proofs.Calendar
import TupleSpace.Proofs.Store
import TupleSpace.Snapshot

/-!
# Entries on the wall clock

What an entry looks like in a snapshot, and what becomes of it when it is read again.  Deadlines are
readings of the clock, and the wall clock runs beside it from some instant on; a deadline is written
as the instant that the wall clock shows when it is reached.  Writing takes a detour by the time
that an entry has left, and so does reading, but neither loses anything.
-/

namespace TupleSpace

namespace Entry

/-- The stored form of an entry: the wall clock shows `epoch` when the clock reads zero. -/
def recorded (epoch : Moment) (e : Entry Json) : SnapshotValue :=
  ⟨e.value, e.expiresAt.map epoch.after⟩

/-- Whether the calendar has the instant at which an entry expires. -/
def Recordable {α : Type} (epoch : Moment) (e : Entry α) : Prop :=
  ∀ d, e.expiresAt = some d → (epoch.after d).isValid = true

variable {epoch : Moment} {now : Nat} {e : Entry Json}

/-- A live entry is written with the instant at which it expires, or not at all. -/
theorem ofEntry_eq (epoch : Moment) (hlive : e.isLive now = true) :
    (e.Recordable epoch ∧ Snapshot.ofEntry (epoch.after now) now e = .ok (e.recorded epoch)) ∨
      ∃ d, e.expiresAt = some d ∧ (epoch.after d).isValid = false ∧
        Snapshot.ofEntry (epoch.after now) now e = .error (d - now) := by
  obtain ⟨value, expiresAt⟩ := e
  cases expiresAt with
  | none => exact .inl ⟨nofun, rfl⟩
  | some d =>
      have hahead : now < d := isLive_iff.mp hlive d rfl
      have hinstant : (epoch.after now).after (d - now) = epoch.after d := by
        rw [Moment.after_after, Nat.add_sub_cancel' hahead.le]
      simp only [Snapshot.ofEntry, remaining?, Option.map_some, Moment.after?, hinstant]
      cases hvalid : (epoch.after d).isValid with
      | true =>
          left
          refine ⟨?_, rfl⟩
          rintro _ ⟨⟩
          exact hvalid
      | false => exact .inr ⟨d, rfl, hvalid, rfl⟩

/-- What is written of an entry is read as the time that it has left, until it expires. -/
theorem timeoutOf?_recorded (epoch : Moment) (now : Nat) (e : Entry Json) :
    Snapshot.timeoutOf? (epoch.after now) (e.recorded epoch) =
      if e.isLive now = true then some ((e.remaining? now).getD 0) else none := by
  obtain ⟨value, expiresAt⟩ := e
  cases expiresAt with
  | none => rfl
  | some d =>
      simp only [recorded, Snapshot.timeoutOf?, Option.map_some, Moment.since_after, isLive_iff,
        remaining?, Option.getD_some, Option.some.injEq, forall_eq']
      by_cases hahead : now < d
      · rw [if_pos (by omega), if_pos hahead]
        congr 1
        omega
      · rw [if_neg (by omega), if_neg hahead]

/-- An entry that is inserted again with the time that it has left is the same entry. -/
theorem withTimeout?_remaining {α : Type} {e : Entry α} (hlive : e.isLive now = true)
    (hbound : ∀ d, e.expiresAt = some d → d < Instant.bound) :
    withTimeout? e.value ((e.remaining? now).getD 0) now = some e := by
  obtain ⟨value, expiresAt⟩ := e
  cases expiresAt with
  | none => rfl
  | some d =>
      have hahead : now < d := isLive_iff.mp hlive d rfl
      have hpositive : d - now ≠ 0 := by omega
      have hinstant : now + (d - now) = d := Nat.add_sub_cancel' hahead.le
      have hsum : Instant.add? now (d - now) = some d := by
        rw [Instant.add?, hinstant, if_pos (hbound d rfl)]
      simp only [remaining?, Option.map_some, Option.getD_some, withTimeout?, if_neg hpositive,
        hsum]
      rfl

end Entry

namespace Snapshot

variable {epoch : Moment} {now : Nat}

/-- The characters of a written snapshot. -/
theorem toList_write (s : Snapshot) :
    s.write.toList = Json.indentedChars 0 s.toJson ++ ['\n'] := by
  rw [write, Json.indented, String.toList_append, String.toList_ofList]
  rfl

/-- The stored form of the entries of some keys. -/
def recorded (epoch : Moment) (stored : List (String × List (Entry Json))) : List SnapshotEntry :=
  stored.map fun (key, entries) => ⟨key, entries.map (Entry.recorded epoch)⟩

/-- Some live entries of one key are written one by one, unless the calendar ends before one of
them does. -/
theorem mapM_ofEntry (epoch : Moment) {entries : List (Entry Json)}
    (hlive : ∀ e ∈ entries, e.isLive now = true) :
    ((∀ e ∈ entries, e.Recordable epoch) ∧
        entries.mapM (ofEntry (epoch.after now) now) = .ok (entries.map (Entry.recorded epoch))) ∨
      ∃ e ∈ entries, ∃ d, e.expiresAt = some d ∧ (epoch.after d).isValid = false ∧
        entries.mapM (ofEntry (epoch.after now) now) = .error (d - now) := by
  induction entries with
  | nil => exact .inl ⟨nofun, rfl⟩
  | cons e entries ih =>
      rw [List.mapM_cons]
      rcases Entry.ofEntry_eq epoch (hlive e List.mem_cons_self) with
        ⟨hfits, hwritten⟩ | ⟨d, hd, hvalid, hfails⟩
      · rcases ih fun x hx => hlive x (List.mem_cons_of_mem e hx) with
          ⟨hothers, hrest⟩ | ⟨x, hx, d, hd, hvalid, hfails⟩
        · left
          rw [hwritten, hrest]
          exact ⟨List.forall_mem_cons.mpr ⟨hfits, hothers⟩, rfl⟩
        · right
          rw [hwritten, hfails]
          exact ⟨x, List.mem_cons_of_mem e hx, d, hd, hvalid, rfl⟩
      · right
        rw [hfails]
        exact ⟨e, List.mem_cons_self, d, hd, hvalid, rfl⟩

/-- Some live entries are written key by key, unless the calendar ends before one of them does. -/
theorem ofEntries_eq (epoch : Moment) {stored : List (String × List (Entry Json))}
    (hlive : ∀ p ∈ stored, ∀ e ∈ p.2, e.isLive now = true) :
    ((∀ p ∈ stored, ∀ e ∈ p.2, e.Recordable epoch) ∧
        ofEntries (epoch.after now) now stored =
          .ok ⟨currentVersion, epoch.after now, recorded epoch stored⟩) ∨
      ∃ p ∈ stored, ∃ e ∈ p.2, ∃ d, e.expiresAt = some d ∧ (epoch.after d).isValid = false ∧
        ofEntries (epoch.after now) now stored = .error (d - now) := by
  let writeKey (p : String × List (Entry Json)) : Except Nat SnapshotEntry := do
    return ⟨p.1, ← p.2.mapM (ofEntry (epoch.after now) now)⟩
  have hkeys : ((∀ p ∈ stored, ∀ e ∈ p.2, e.Recordable epoch) ∧
        stored.mapM writeKey = .ok (recorded epoch stored)) ∨
      ∃ p ∈ stored, ∃ e ∈ p.2, ∃ d, e.expiresAt = some d ∧ (epoch.after d).isValid = false ∧
        stored.mapM writeKey = .error (d - now) := by
    induction stored with
    | nil => exact .inl ⟨nofun, rfl⟩
    | cons p stored ih =>
        rw [List.mapM_cons]
        rcases mapM_ofEntry epoch (hlive p List.mem_cons_self) with
          ⟨hfit, hwritten⟩ | ⟨e, he, d, hd, hvalid, hfails⟩
        · have hkey : writeKey p = .ok ⟨p.1, p.2.map (Entry.recorded epoch)⟩ := by
            simp only [writeKey, hwritten]
            rfl
          rcases ih fun x hx => hlive x (List.mem_cons_of_mem p hx) with
            ⟨hothers, hrest⟩ | ⟨x, hx, e, he, d, hd, hvalid, hfails⟩
          · left
            rw [hkey, hrest]
            exact ⟨List.forall_mem_cons.mpr ⟨hfit, hothers⟩, rfl⟩
          · right
            rw [hkey, hfails]
            exact ⟨x, List.mem_cons_of_mem p hx, e, he, d, hd, hvalid, rfl⟩
        · right
          have hkey : writeKey p = .error (d - now) := by
            simp only [writeKey, hfails]
            rfl
          rw [hkey]
          exact ⟨p, List.mem_cons_self, e, he, d, hd, hvalid, rfl⟩
  have hshape : ofEntries (epoch.after now) now stored =
      (stored.mapM writeKey).map fun entries => ⟨currentVersion, epoch.after now, entries⟩ := by
    unfold ofEntries
    show (stored.mapM writeKey >>= _) = _
    cases stored.mapM writeKey <;> rfl
  rw [hshape]
  rcases hkeys with ⟨hfit, hwritten⟩ | ⟨p, hp, e, he, d, hd, hvalid, hfails⟩
  · left
    rw [hwritten]
    exact ⟨hfit, rfl⟩
  · right
    rw [hfails]
    exact ⟨p, hp, e, he, d, hd, hvalid, rfl⟩

end Snapshot

end TupleSpace
