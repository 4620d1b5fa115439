import TupleSpace.Proofs.Files.Disks
import TupleSpace.Proofs.Restart

/-!
# Writes that fail

A persistent space may fail to be stored: an entry of it expires after the end of the calendar, a
file is in the way of a directory, a directory has the name of its file, or the disk fails at some
step of the writing.  Then nothing has changed but for directories above its file: neither the
space, if it was to be stored, nor any file, and the file of the space is as it was or still not
there.  So whoever opens the file later gets what was stored there last, as far as it is still
live.

Disks that fail are described step by step.  On a disk on which no step fails, storing and closing a
space are what they are in every world.
-/

namespace TupleSpace.World

open Files (Disk Spares)

variable {w v later : World} {i : Nat} {s : Space} {storage : Storage} {disk : Disk} {e : SpaceError}

/-! ## Storing on a disk -/

/-- Writes the live contents of a persistent space to its file on some disk. -/
def flushOn (disk : Disk) (w : World) (i : Nat) : World × Except SpaceError Unit :=
  match w.spaces[i]? with
  | none => (w, .ok ())
  | some s =>
    match s.storage with
    | none => (w, .ok ())
    | some storage =>
      if s.isClosed then (w, .error s.closedError)
      else
        match w.capture s with
        | .error e => (w, .error e)
        | .ok snapshot =>
          match disk.replace w.files storage.path snapshot.write with
          | (files, .error e) => ({ w with files }, .error (.ofStorage e.message))
          | (files, .ok ()) => ({ w with files }, .ok ())

/-- Closes a space whose file is on some disk. -/
def closeOn (disk : Disk) (w : World) (i : Nat) : World × Except SpaceError Unit :=
  match w.spaces[i]? with
  | none => (w.settle, .ok ())
  | some s =>
    match s.storage with
    | none => ((w.closeMemory i).settle, .ok ())
    | some _ =>
      if s.isClosed then (w.settle, .ok ())
      else
        let (w, flushed) := w.flushOn disk i
        ((w.closeMemory i).settle, flushed)

theorem flushOn_of_faultless (hfaultless : disk.Faultless) (w : World) (i : Nat) :
    w.flushOn disk i = w.flush i := by
  unfold flushOn flush
  cases w.spaces[i]? with
  | none => rfl
  | some s =>
      simp only []
      cases s.storage with
      | none => rfl
      | some storage =>
          cases w.capture s with
          | error e => rfl
          | ok snapshot =>
              rcases disk.replace_spec w.files storage.path snapshot.write with
                ⟨g, e, hreplaced, _, hsound⟩ | ⟨g, hreplaced, hwritten⟩
              · obtain ⟨rfl, hwritten⟩ := hsound hfaultless
                simp only [hreplaced, hwritten]
              · simp only [hreplaced, hwritten]

theorem closeOn_of_faultless (hfaultless : disk.Faultless) (w : World) (i : Nat) :
    w.closeOn disk i = w.close i := by
  unfold closeOn close closeUnsettled
  rw [flushOn_of_faultless hfaultless]
  cases w.spaces[i]? with
  | none => rfl
  | some s =>
      simp only []
      cases s.storage with
      | none => rfl
      | some storage => cases s.isClosed <;> rfl

/-- Storing a space fails without any change but for directories above its file. -/
theorem flushOn_of_error (hspace : w.spaces[i]? = some s) (hstorage : s.storage = some storage)
    (hfails : (w.flushOn disk i).2 = .error e) :
    ∃ files, (w.flushOn disk i).1 = { w with files } ∧ Spares storage.path w.files files := by
  have hnothing : Spares storage.path w.files w.files := ⟨.refl _, rfl⟩
  unfold flushOn at hfails ⊢
  rw [hspace] at hfails ⊢
  simp only [hstorage] at hfails ⊢
  cases hclosed : s.isClosed with
  | true => exact ⟨w.files, rfl, hnothing⟩
  | false =>
      rw [hclosed] at hfails
      simp only [Bool.false_eq_true, if_false] at hfails ⊢
      cases hcaptured : w.capture s with
      | error e => exact ⟨w.files, rfl, hnothing⟩
      | ok snapshot =>
          rw [hcaptured] at hfails
          rcases disk.replace_spec w.files storage.path snapshot.write with
            ⟨g, e, hreplaced, hspares, _⟩ | ⟨g, hreplaced, _⟩
          · exact ⟨g, by simp only [hreplaced], hspares⟩
          · simp only [hreplaced] at hfails
            cases hfails

/-- A space that is closed fails to be stored first, and nothing else touches the files. -/
theorem closeOn_of_error (hfails : (w.closeOn disk i).2 = .error e) :
    (w.flushOn disk i).2 = .error e ∧
      (w.closeOn disk i).1.files = (w.flushOn disk i).1.files := by
  unfold closeOn at hfails ⊢
  cases hspace : w.spaces[i]? with
  | none =>
      rw [hspace] at hfails
      cases hfails
  | some s =>
      simp only [hspace] at hfails ⊢
      cases hstorage : s.storage with
      | none =>
          rw [hstorage] at hfails
          cases hfails
      | some storage =>
          simp only [hstorage] at hfails ⊢
          cases hclosed : s.isClosed with
          | true =>
              rw [hclosed] at hfails
              cases hfails
          | false =>
              simp only [hclosed, Bool.false_eq_true, if_false] at hfails ⊢
              exact ⟨hfails, (settle_files _).trans (closeMemory_files _ i)⟩

/-! ## Opening the file again -/

/-- The file at a path says what a space held when it was stored or closed in some world. -/
structure LastStored (files : Files) (path : String) (w : World) (s : Space) : Prop where
  used : s.InUse w.now
  written : ∃ i storage after, w.spaces[i]? = some s ∧ s.storage = some storage ∧
    storage.path = path ∧ (w.flush i = (after, .ok ()) ∨ w.close i = (after, .ok ())) ∧
    files.lookup path = after.files.lookup path
  decodes : ∀ snapshot, w.capture s = .ok snapshot →
    Snapshot.read? snapshot.write = some snapshot

/-- A space that is opened later holds what another one held at some time and is still live, and
reports how much this is. -/
structure Restores (later : World) (name path : String) (config : SpaceConfig) (now : Nat)
    (s s' : Space) (report : LoadReport) : Prop where
  opened : later.openPersistent name path config = .ok s'
  storage : s'.storage = some ⟨path, report⟩
  used : s'.InUse later.now
  stored : ∀ key, s'.stored key =
    (s.stored key).filter fun e => e.isLive now && e.isLive later.now
  restored : report.restored = (s.live later.now).length
  total : report.restored + report.skipped = (s.live now).length

/-- What the file of a space says that was stored last in some world. -/
theorem LastStored.lookup_eq {files : Files} {path : String} (hlast : LastStored files path w s) :
    w.capture s = .ok ⟨Snapshot.currentVersion, w.wall,
        Snapshot.recorded w.epoch (s.liveEntries w.now)⟩ ∧
      files.lookup path = .ok (.file (Snapshot.mk Snapshot.currentVersion w.wall
        (Snapshot.recorded w.epoch (s.liveEntries w.now))).write) := by
  obtain ⟨hused, ⟨i, storage, after, hspace, hstorage, rfl, hstored, hfile⟩, _⟩ := hlast
  have hopen := hused.isClosed
  have hflushed : (w.flush i).2 = .ok () ∧ after.files = (w.flush i).1.files := by
    rcases hstored with hflush | hclose
    · rw [hflush]
      exact ⟨rfl, rfl⟩
    · rw [← close_result hspace hstorage hopen, ← close_files hspace hstorage hopen, hclose]
      exact ⟨rfl, rfl⟩
  obtain ⟨_, hcaptured⟩ := captured_of_flush hspace hstorage hused hflushed.1
  rw [hfile, hflushed.2]
  exact ⟨hcaptured, lookup_of_flush hspace hstorage hopen hcaptured hflushed.1⟩

/-- Whoever opens the file of a space that was stored last in some world gets what it held there. -/
theorem LastStored.restores {files : Files} {path : String} (hlast : LastStored files path w s)
    (hepoch : later.epoch = w.epoch) (hlater : w.now ≤ later.now)
    (hfile : later.files.lookup path = files.lookup path) (name : String) {config : SpaceConfig}
    (hvalid : config.validate = .ok ()) :
    ∃ s' report, Restores later name path config w.now s s' report := by
  obtain ⟨hcaptured, htext⟩ := hlast.lookup_eq
  obtain ⟨htable, hall⟩ := tabulates_liveEntries hlast.used
  have hread := hlast.decodes _ hcaptured
  rw [← hepoch] at hread htext
  have hdated : ∀ p ∈ s.liveEntries w.now, ∀ e ∈ p.2, ∀ d, e.expiresAt = some d →
      d < Instant.bound := by
    rintro ⟨key, entries⟩ hp e he
    obtain ⟨rfl, _⟩ := (htable.mem_iff key entries).mp hp
    exact hlast.used.dated key e (List.mem_filter.mp he).1
  obtain ⟨s', hopened, hstorage, hused, hstored⟩ :=
    openPersistent_eq name hvalid (hfile.trans htext) hread hdated
  refine ⟨s', _, hopened, hstorage, hused, fun key => ?_, ?_, ?_⟩
  · rw [hstored, htable.gathered_eq, Store.live, List.filter_filter]
    exact List.filter_congr fun e _ => Bool.and_comm ..
  · rw [hall, ← s.filter_live hlater, ← List.countP_eq_length_filter]
    exact Nat.zero_add _
  · rw [hall, counting_total]

/-- Where there is no file, whoever opens it gets an empty space. -/
theorem openPersistent_of_not_exists {path : String} (hnone : later.files.exists? path = false)
    (name : String) {config : SpaceConfig} (hvalid : config.validate = .ok ()) :
    ∃ s', later.openPersistent name path config = .ok s' ∧ s'.storage = some ⟨path, {}⟩ ∧
      ∀ key, s'.stored key = [] := by
  let scene : Scene (PerKey String Json) String Json :=
    PerKey.scene name config later.now later.stamp []
  refine ⟨{ backing := .perKey scene.monitor, storage := some ⟨path, {}⟩ }, ?_, rfl, fun key => ?_⟩
  · simp only [openPersistent, Space.perKey, hvalid, hnone]
    rfl
  · exact PerKey.stored_scene name config later.now later.stamp [] key

/-! ## Attempts that fail -/

/-- A world after a vain attempt to write to the file at a path. -/
structure LeavesFile (path : String) (w v : World) : Prop where
  same : v.files.lookup path = w.files.lookup path
  others : ∀ other text,
    v.files.lookup other = .ok (.file text) ↔ w.files.lookup other = .ok (.file text)
  /-- What was stored last is there when the file is opened. -/
  restores : ∀ (before : World) (s : Space), LastStored w.files path before s →
    ∀ later : World, later.epoch = before.epoch → before.now ≤ later.now →
    later.files.lookup path = v.files.lookup path → ∀ (name : String) (config : SpaceConfig),
    config.validate = .ok () → ∃ s' report, Restores later name path config before.now s s' report
  /-- If nothing has ever been stored there is nothing when the file is opened. -/
  unwritten : w.files.exists? path = false → ∀ later : World,
    later.files.lookup path = v.files.lookup path → ∀ (name : String) (config : SpaceConfig),
    config.validate = .ok () → ∃ s', later.openPersistent name path config = .ok s' ∧
      s'.storage = some ⟨path, {}⟩ ∧ ∀ key, s'.stored key = []

theorem leavesFile_of_spares {path : String} (hspares : Spares path w.files v.files) :
    LeavesFile path w v := by
  have hsame := hspares.grows.lookup_eq hspares.same
  refine ⟨hsame, hspares.grows.lookup_file_iff, ?_, ?_⟩
  · intro before s hlast later hepoch hlater hfile name config hvalid
    exact hlast.restores hepoch hlater (hfile.trans hsame) name hvalid
  · intro hnone later hfile name config hvalid
    refine openPersistent_of_not_exists ?_ name hvalid
    rw [Files.exists?, hfile, hsame]
    exact hnone

/-- Storing a persistent space fails without any change but for directories above its file, whether
what it holds cannot be stored, or its file cannot be written, or the disk fails at whatever step;
and closing a space whose storing fails leaves its file alone.  Whoever opens the file later gets
what was stored last and is still live. -/
theorem failed_writes_change_nothing (hspace : w.spaces[i]? = some s)
    (hstorage : s.storage = some storage) (e : SpaceError) (v : World) :
    (w.flush i = (v, .error e) ∨ (∃ disk, w.flushOn disk i = (v, .error e)) →
        v = { w with files := v.files } ∧ LeavesFile storage.path w v) ∧
      (w.close i = (v, .error e) ∨ (∃ disk, w.closeOn disk i = (v, .error e)) →
        LeavesFile storage.path w v) := by
  have hflush : ∀ disk, w.flushOn disk i = (v, .error e) →
      v = { w with files := v.files } ∧ LeavesFile storage.path w v := by
    intro disk hfails
    obtain ⟨files, hworld, hspares⟩ := flushOn_of_error hspace hstorage (congrArg Prod.snd hfails)
    rw [hfails] at hworld
    subst hworld
    exact ⟨rfl, leavesFile_of_spares hspares⟩
  have hclose : ∀ disk, w.closeOn disk i = (v, .error e) → LeavesFile storage.path w v := by
    intro disk hfails
    obtain ⟨hflushed, hfiles⟩ := closeOn_of_error (congrArg Prod.snd hfails)
    obtain ⟨files, hworld, hspares⟩ := flushOn_of_error hspace hstorage hflushed
    rw [hfails, hworld] at hfiles
    exact leavesFile_of_spares (hfiles ▸ hspares)
  refine ⟨?_, ?_⟩
  · rintro (hfails | ⟨disk, hfails⟩)
    · exact hflush .sound ((flushOn_of_faultless Disk.faultless_sound w i).trans hfails)
    · exact hflush disk hfails
  · rintro (hfails | ⟨disk, hfails⟩)
    · exact hclose .sound ((closeOn_of_faultless Disk.faultless_sound w i).trans hfails)
    · exact hclose disk hfails

set_option maxRecDepth 100000 in
/-- A space that has been stored gets an entry that cannot be stored: storing it again fails, and so
does closing it on a disk that fails as well.  Opened later, the file has what was stored first. -/
theorem failed_writes_change_nothing_of_late_entry :
    let acts : List (Action String Json) :=
      [.insert "a" .null 0 .tail, .insert "b" .null 300 .tail, .advance 100]
    let scene := (PerKey.scene "space" {} 0 0 []).run acts
    let before : World :=
      { now := 100, epoch := ⟨19723, 0, 0⟩
        spaces := #[{ backing := .perKey scene.monitor, storage := some ⟨"s.json", {}⟩ }] }
    let late := scene.run [.insert "c" .null (Span.ofSeconds 9000000000000 0) .tail]
    let w : World :=
      { (before.flush 0).1 with
        spaces := #[{ backing := .perKey late.monitor, storage := some ⟨"s.json", {}⟩ }] }
    let disk : Disk :=
      { Disk.sound with fault? := fun step => if step = .rename then some .isADirectory else none }
    let later : World := { now := 300, epoch := ⟨19723, 0, 0⟩, files := (w.flush 0).1.files }
    (before.flush 0).2 = .ok () ∧
      (w.flush 0).2 =
        .error (.coordination (.expiryTooLate (Span.ofSeconds 9000000000000 0)) none) ∧
      (before.closeOn disk 0).2 = .error (.ofStorage FileError.isADirectory.message) ∧
      LeavesFile "s.json" before (before.closeOn disk 0).1 ∧
      ∃ (s' : Space) (report : LoadReport),
        later.openPersistent "again" "s.json" {} = .ok s' ∧
        s'.stored "a" = [⟨.null, none⟩] ∧ s'.stored "b" = [] ∧ s'.stored "c" = [] ∧
        report.restored = 1 ∧ report.restored + report.skipped = 2 := by
  intro acts scene before late w disk later
  let s : Space := { backing := .perKey scene.monitor, storage := some ⟨"s.json", {}⟩ }
  let snapshot : Snapshot :=
    ⟨1, ⟨19723, 0, 100⟩, [⟨"a", [⟨.null, none⟩]⟩, ⟨"b", [⟨.null, some ⟨19723, 0, 300⟩⟩]⟩]⟩
  have hacts : Action.shut ∉ acts := by simp [acts]
  have hcaptured : before.capture s = .ok snapshot := by cbv
  have hread : Snapshot.read? snapshot.write = some snapshot := by
    rw [Snapshot.read?, Json.Written.ofText?, Snapshot.toList_write]
    cbv
  have hdecodes : ∀ captured, before.capture s = .ok captured →
      Snapshot.read? captured.write = some captured := by
    intro captured heq
    rw [hcaptured] at heq
    cases heq
    exact hread
  have hflush : (before.flush 0).2 = .ok () := by decide +kernel
  have hlast : LastStored w.files "s.json" before s :=
    ⟨⟨"space", {}, 0, 0, [], acts, hacts, rfl, rfl⟩,
      ⟨0, _, _, rfl, rfl, rfl, .inl (Prod.ext rfl hflush), rfl⟩, hdecodes⟩
  have hfails : (w.flush 0).2 =
      .error (.coordination (.expiryTooLate (Span.ofSeconds 9000000000000 0)) none) := by
    decide +kernel
  have hbroken : (before.closeOn disk 0).2 = .error (.ofStorage FileError.isADirectory.message) := by
    decide +kernel
  have hfile : later.files.lookup "s.json" = (w.flush 0).1.files.lookup "s.json" := by
    dsimp only [later]
  have hlater : before.now ≤ later.now := by decide
  have hpair : ∀ {r : World × Except SpaceError Unit} {e : SpaceError}, r.2 = .error e →
      r = (r.1, .error e) := fun h => h ▸ rfl
  obtain ⟨hstored, _⟩ := failed_writes_change_nothing (w := w) (i := 0) rfl rfl
    (.coordination (.expiryTooLate (Span.ofSeconds 9000000000000 0)) none) (w.flush 0).1
  obtain ⟨_, hclosed⟩ := failed_writes_change_nothing (w := before) (i := 0) rfl rfl
    (.ofStorage FileError.isADirectory.message) (before.closeOn disk 0).1
  obtain ⟨_, hleaves⟩ := hstored (.inl (hpair hfails))
  obtain ⟨s', report, hrestores⟩ :=
    hleaves.restores before s hlast later rfl hlater hfile "again" {} rfl
  refine ⟨hflush, hfails, hbroken, hclosed (.inr ⟨disk, hpair hbroken⟩), s', report,
    hrestores.opened, hrestores.stored "a", hrestores.stored "b", hrestores.stored "c",
    hrestores.restored, hrestores.total⟩

end TupleSpace.World
