import TupleSpace.Proofs.Files
import TupleSpace.Proofs.Run.Spaces
import TupleSpace.Proofs.Snapshot
import TupleSpace.World.Closing

/-!
# Storing a persistent space

An insertion accepts every lifetime that ends while the clock can still show it, and the wall clock
ends much earlier.  So an entry may be in a space and its expiry not be in the calendar.  Such an
entry, as long as it is live, is what makes a flush fail, and nothing else in a space does: without
it a space can be stored whenever its file can be written, and with it nothing is written at all.
Closing a space stores it first, and reports what storing reports.
-/

namespace TupleSpace

/-! ## Live entries -/

namespace PerKey

variable {κ α : Type} [DecidableEq κ] {s : PerKey κ α}

/-- The live entries under the key of a record are those of its queue. -/
theorem live_of_mem (hkeys : (s.records.map Record.key).Nodup) (now : Nat) {r : Record κ α}
    (hr : r ∈ s.records) : Store.live now (Engine.stored s) r.key = r.queue.live now := by
  rw [Store.live, stored_of_some (Keyed.find?_eq_some_of_mem Record.key hkeys hr)]
  rfl

/-- The live entries are those of the keys that store any. -/
theorem mem_liveEntries (hkeys : (s.records.map Record.key).Nodup) (now : Nat) (key : κ)
    (entries : List (Entry α)) :
    (key, entries) ∈ s.liveEntries now ↔
      entries = Store.live now (Engine.stored s) key ∧ entries ≠ [] := by
  unfold liveEntries
  rw [List.mem_filterMap]
  constructor
  · rintro ⟨r, hr, hlisted⟩
    split at hlisted
    · cases hlisted
    · rename_i hlive
      cases hlisted
      refine ⟨(live_of_mem hkeys now hr).symm, fun hnil => hlive hnil⟩
  · rintro ⟨rfl, hne⟩
    cases hfind : s.find? key with
    | none =>
        rw [Store.live, stored_of_none hfind] at hne
        exact absurd rfl hne
    | some r =>
        have hr := mem_of_find? hfind
        have hkey := key_of_find? hfind
        rw [← hkey, live_of_mem hkeys now hr] at hne ⊢
        refine ⟨r, hr, ?_⟩
        split
        · rename_i hnil
          exact absurd hnil hne
        · rfl

omit [DecidableEq κ] in
theorem isLive_of_mem_liveEntries (now : Nat) (s : PerKey κ α) :
    ∀ p ∈ s.liveEntries now, ∀ e ∈ p.2, e.isLive now = true := by
  intro p hp e he
  obtain ⟨r, _, hlisted⟩ := List.mem_filterMap.mp hp
  split at hlisted
  · cases hlisted
  · cases hlisted
    exact (List.mem_filter.mp he).2

omit [DecidableEq κ] in
/-- Every key has its live entries in one place. -/
theorem nodup_liveEntries (hkeys : (s.records.map Record.key).Nodup) (now : Nat) :
    ((s.liveEntries now).map Prod.fst).Nodup := by
  apply List.Nodup.sublist _ hkeys
  unfold liveEntries
  generalize s.records = records
  induction records with
  | nil => exact List.Sublist.refl _
  | cons r records ih =>
      rw [List.filterMap_cons, List.map_cons]
      split
      · exact ih.cons _
      · rename_i p hp
        split at hp
        · cases hp
        · cases hp
          exact ih.cons_cons _

end PerKey

/-! ## Spaces in use -/

namespace Space

/-- The entries stored under a key, expired ones included. -/
def stored (s : Space) (key : String) : List (Entry Json) :=
  s.backing.viewEngine fun e => Engine.stored e key

/-- Somebody has made the space, with one record per key, and it has been used since in any order of
actions, but nobody has begun to close it. -/
def InUse (s : Space) (now : Nat) : Prop :=
  ∃ name config start stamp cancelled acts, Action.shut ∉ acts ∧
    s.backing = .perKey ((PerKey.scene name config start stamp cancelled).run acts).monitor ∧
    ((PerKey.scene name config start stamp cancelled).run acts).now = now

/-- The scene of a space in use. -/
theorem InUse.scene {s : Space} {now : Nat} (hused : s.InUse now) :
    ∃ scene : Scene (PerKey String Json) String Json,
      scene.Open ∧ scene.now = now ∧ s.backing = .perKey scene.monitor := by
  obtain ⟨name, config, start, stamp, cancelled, acts, hacts, hbacking, hnow⟩ := hused
  have hopen := (PerKey.open_scene (κ := String) (α := Json) name config start stamp
    cancelled).run hacts
  exact ⟨_, hopen, hnow, hbacking⟩

theorem InUse.isClosed {s : Space} {now : Nat} (hused : s.InUse now) : s.isClosed = false := by
  obtain ⟨scene, hopen, _, hbacking⟩ := hused.scene
  rw [Space.isClosed, hbacking]
  exact hopen.isClosed

end Space

/-! ## Storing -/

namespace World

variable {w : World} {i : Nat} {s : Space} {storage : Storage}

/-- Nothing is written if there is no snapshot of the space. -/
theorem flush_of_error (hspace : w.spaces[i]? = some s) (hstorage : s.storage = some storage)
    (hopen : s.isClosed = false) {e : SpaceError} (hfails : w.capture s = .error e) :
    w.flush i = (w, .error e) := by
  simp only [flush, hspace, hstorage, hopen, Bool.false_eq_true, if_false, hfails]

/-- The snapshot of a space is written to its file. -/
theorem flush_of_ok (hspace : w.spaces[i]? = some s) (hstorage : s.storage = some storage)
    (hopen : s.isClosed = false) {snapshot : Snapshot} (hcaptured : w.capture s = .ok snapshot)
    {files : Files} (hwritten : w.files.writeDeep storage.path snapshot.write = .ok files) :
    w.flush i = ({ w with files }, .ok ()) := by
  simp only [flush, hspace, hstorage, hopen, Bool.false_eq_true, if_false, hcaptured, hwritten]

/-- Closing reports what storing reports. -/
theorem close_result (hspace : w.spaces[i]? = some s) (hstorage : s.storage = some storage)
    (hopen : s.isClosed = false) : (w.close i).2 = (w.flush i).2 := by
  simp only [close, closeUnsettled, hspace, hstorage, hopen, Bool.false_eq_true, if_false]

/-- There is a snapshot of a space in use if the calendar has every instant at which a live entry
expires. -/
theorem capture_eq (hused : s.InUse w.now) :
    ((∀ key, ∀ e ∈ s.stored key, e.isLive w.now = true → e.Recordable w.epoch) ∧
        w.capture s = .ok ⟨Snapshot.currentVersion, w.wall,
          Snapshot.recorded w.epoch (s.liveEntries w.now)⟩) ∨
      ∃ key, ∃ e ∈ s.stored key, ∃ d, e.isLive w.now = true ∧ e.expiresAt = some d ∧
        (w.epoch.after d).isValid = false ∧
        w.capture s = .error (.coordination (.expiryTooLate (d - w.now)) none) := by
  obtain ⟨scene, hopen, hnow, hbacking⟩ := hused.scene
  have hsettled : PerKey.Settled scene.monitor.engine (headcount scene.monitor.waiting) :=
    hopen.sound
  have hentries : s.liveEntries w.now = scene.monitor.engine.liveEntries w.now := by
    rw [Space.liveEntries, hbacking]
  have hstored (key : String) : s.stored key = Engine.stored scene.monitor.engine key := by
    rw [Space.stored, hbacking]
    rfl
  have hmem := PerKey.mem_liveEntries hsettled.keys_nodup w.now
  rcases Snapshot.ofEntries_eq w.epoch (PerKey.isLive_of_mem_liveEntries w.now
    scene.monitor.engine) with ⟨hfit, hwritten⟩ | ⟨⟨key, entries⟩, hp, e, he, d, hd, hvalid, hfails⟩
  · left
    refine ⟨?_, ?_⟩
    · intro key e he hlive
      rw [hstored] at he
      have hlisted : e ∈ Store.live w.now (Engine.stored scene.monitor.engine) key :=
        List.mem_filter.mpr ⟨he, hlive⟩
      exact hfit (key, _) ((hmem key _).mpr ⟨rfl, List.ne_nil_of_mem hlisted⟩) e hlisted
    · rw [capture, wall, hentries, hwritten]
  · right
    have hlisted := (hmem key entries).mp hp
    rw [hlisted.1] at he
    obtain ⟨he, hlive⟩ := List.mem_filter.mp he
    refine ⟨key, e, hstored key ▸ he, d, hlive, hd, hvalid, ?_⟩
    rw [capture, wall, hentries, hfails]

/-- Whether an insertion came back without an error. -/
def accepted {κ α : Type} : Event κ α → Bool
  | .inserted _ _ _ _ _ result => result.isOk
  | _ => false

end World

end TupleSpace
