import Mathlib
import TupleSpace.Proofs.Lazy
import TupleSpace.Proofs.Storing

/-!
# Restarting a persistent space

A persistent space that has been stored and is opened again, later and from the same file, holds the
entries that were live when it was stored and are still live now: the same values with the same
deadlines in the same order.  Nobody who uses the space can tell that it was away, except by the
entries that expired in the meantime, which the load report counts.

Two clocks are involved.  A deadline becomes the time that is left, then an instant of the calendar,
then the time that is left at a later moment, and then a deadline again; what makes this exact is
that both clocks advance together, and that nobody can have stored an entry whose deadline the clock
cannot show.
-/

namespace TupleSpace

variable {κ α : Type} [DecidableEq κ]

/-! ## Deadlines -/

/-- The clock can show every deadline of a store. -/
def Store.Dated (st : Store κ α) : Prop :=
  ∀ key, ∀ e ∈ st key, ∀ d, e.expiresAt = some d → d < Instant.bound

omit [DecidableEq κ] in
theorem Store.Dated.of_subset {st st' : Store κ α} (hdated : st.Dated)
    (hsubset : ∀ key, st' key ⊆ st key) : st'.Dated :=
  fun key e he => hdated key e (hsubset key he)

/-- An entry that an insertion makes has a deadline that the clock can show. -/
theorem Entry.dated_of_withTimeout? {value : α} {timeout now d : Nat} {e : Entry α}
    (hentry : Entry.withTimeout? value timeout now = some e) (hd : e.expiresAt = some d) :
    d < Instant.bound := by
  rcases Entry.withTimeout?_eq_some_iff.mp hentry with ⟨_, rfl⟩ | ⟨_, hlt, rfl⟩
  · cases hd
  · cases hd
    exact hlt

/-- Whatever happens to an open space, the clock can show its deadlines. -/
theorem Lazy.Step.dated {l l' : Lazy κ α} {act : Action κ α} {event : Option (Event κ α)}
    (hstep : Lazy.Step l act l' event) (hdated : l.store.Dated) : l'.store.Dated := by
  cases hstep with
  | refuse => exact hdated
  | @put key value timeout placement e entry =>
      intro k x hx d hd
      replace hx : x ∈ Function.update l.store key (placement.place e (l.store key)) k := hx
      by_cases hk : k = key
      · rw [hk, Function.update_self] at hx
        by_cases hnew : x = e
        · exact Entry.dated_of_withTimeout? entry (hnew ▸ hd)
        · have hold := ((Placement.mem_place_of_ne hnew _ _).mp hx).2
          exact hdated key x hold d hd
      · rw [Function.update_of_ne hk] at hx
        exact hdated k x hx d hd
  | call fades looks =>
      exact hdated.of_subset fun k _ hx => fades.subset k (looks.subset k hx)
  | rerun _ _ fades looks =>
      exact hdated.of_subset fun k _ hx => fades.subset k (looks.subset k hx)
  | existsAny fades => exact hdated.of_subset fades.subset
  | sweep fades => exact hdated.of_subset fades.subset
  | alarm fades => exact hdated.of_subset fades.subset
  | nobody | cancel | advance | told | renumber | clear => exact hdated

theorem Scene.Open.dated_run {σ : Type} [Engine σ κ α] [Bookkeeping σ κ α] [LawfulEngine σ κ α]
    {s : Scene σ κ α} (hopen : s.Open) (hdated : Store.Dated (Engine.stored s.monitor.engine))
    {acts : List (Action κ α)} (hacts : Action.shut ∉ acts) :
    Store.Dated (Engine.stored (s.run acts).monitor.engine) := by
  induction acts generalizing s with
  | nil => exact hdated
  | cons act acts ih =>
      have hact : act ≠ .shut := fun heq => hacts (heq ▸ List.mem_cons_self)
      have hstep := hopen.lazy_step hact
      exact ih (hopen.step hact) (hstep.dated hdated)
        fun hmem => hacts (List.mem_cons_of_mem act hmem)

/-! ## Reading entries back -/

namespace World

/-- The entries of a key among those of some keys. -/
def gathered (stored : List (String × List (Entry Json))) (key : String) : List (Entry Json) :=
  stored.flatMap fun p => if p.1 = key then p.2 else []

theorem gathered_of_not_mem {stored : List (String × List (Entry Json))} {key : String}
    (hkey : key ∉ stored.map Prod.fst) : gathered stored key = [] := by
  unfold gathered
  rw [List.flatMap_eq_nil_iff]
  intro p hp
  rw [if_neg]
  rintro rfl
  exact hkey (List.mem_map_of_mem hp)

/-- The entries of a key that occurs once. -/
theorem gathered_of_mem {stored : List (String × List (Entry Json))}
    (hnodup : (stored.map Prod.fst).Nodup) {key : String} {entries : List (Entry Json)}
    (hmem : (key, entries) ∈ stored) : gathered stored key = entries := by
  induction stored with
  | nil => cases hmem
  | cons p stored ih =>
      rw [List.map_cons, List.nodup_cons] at hnodup
      obtain ⟨hfresh, hothers⟩ := hnodup
      have hcons : gathered (p :: stored) key =
          (if p.1 = key then p.2 else []) ++ gathered stored key := List.flatMap_cons ..
      rw [hcons]
      rcases List.mem_cons.mp hmem with rfl | hmem
      · rw [if_pos rfl, gathered_of_not_mem hfresh, List.append_nil]
      · have hkey : p.1 ≠ key := by
          intro hsame
          exact hfresh (List.mem_map.mpr ⟨_, hmem, hsame.symm⟩)
        rw [if_neg hkey, List.nil_append, ih hothers hmem]

variable {scene : Scene (PerKey String Json) String Json} {s : Space} {epoch : Moment}

/-- A report that counts some more entries: those that are live, and those that have expired. -/
def counting (now : Nat) (entries : List (Entry Json)) (report : LoadReport) : LoadReport where
  restored := report.restored + entries.countP (·.isLive now)
  skipped := report.skipped + entries.countP (·.isExpired now)

theorem counting_append (now : Nat) (entries more : List (Entry Json)) (report : LoadReport) :
    counting now more (counting now entries report) = counting now (entries ++ more) report := by
  simp [counting, List.countP_append, Nat.add_assoc]

/-- Nothing is counted twice, and nothing is left out. -/
theorem counting_total (now : Nat) (entries : List (Entry Json)) :
    (counting now entries {}).restored + (counting now entries {}).skipped = entries.length := by
  have hsplit := List.length_eq_countP_add_countP (fun e : Entry Json => e.isLive now)
    (l := entries)
  have hexpired : entries.countP (fun e => decide ¬e.isLive now = true) =
      entries.countP (·.isExpired now) := by
    apply List.countP_congr
    intro e _
    simp [Entry.isLive]
  rw [hsplit, hexpired]
  simp [counting]

/-- A space that is restored from some entries, under the key of each, behind what it holds: what it
does is one of its runs, in which nobody begins to close it and no time passes. -/
def Gains (scene : Scene (PerKey String Json) String Json) (s : Space)
    (added : String → List (Entry Json)) (s' : Space) : Prop :=
  ∃ acts, Action.shut ∉ acts ∧ (scene.run acts).now = scene.now ∧
    s' = { s with backing := .perKey (scene.run acts).monitor } ∧
    ∀ key, Engine.stored (scene.run acts).monitor.engine key =
      Engine.stored scene.monitor.engine key ++ added key

/-- Inserting one entry again puts it behind the others of its key. -/
theorem insert_again (hopen : scene.Open) (hbacking : s.backing = .perKey scene.monitor)
    (key : String) {e : Entry Json} (hlive : e.isLive scene.now = true)
    (hdated : ∀ d, e.expiresAt = some d → d < Instant.bound) :
    let act : Action String Json :=
      .insert key e.value ((e.remaining? scene.now).getD 0) .tail
    (s.backing.modify fun m => m.perform
        (Engine.insert scene.now key e.value ((e.remaining? scene.now).getD 0) .tail)) =
        (.perKey (scene.step act).1.monitor, .ok ()) ∧
      Engine.stored (scene.step act).1.monitor.engine =
        Function.update (Engine.stored scene.monitor.engine) key
          (Engine.stored scene.monitor.engine key ++ [e]) := by
  intro act
  have hentry := Entry.withTimeout?_remaining hlive hdated
  have hputs := LawfulEngine.insert_open key .tail hopen.sound hopen.isClosed hentry
  refine ⟨?_, ?_⟩
  · rw [hbacking]
    show (Backing.perKey _, (scene.monitor.perform _).2) = _
    congr 1
    exact hputs.result
  · exact hputs.stored

/-- Reading back the values of one key. -/
theorem restoreValues_eq (hopen : scene.Open) (hbacking : s.backing = .perKey scene.monitor)
    (epoch : Moment) (key : String) {entries : List (Entry Json)}
    (hdated : ∀ e ∈ entries, ∀ d, e.expiresAt = some d → d < Instant.bound)
    (report : LoadReport) :
    ∃ s', restoreValues (epoch.after scene.now) scene.now key
        (entries.map (Entry.recorded epoch)) s report =
          .ok (s', counting scene.now entries report) ∧
      Gains scene s (fun k => if k = key then entries.filter (·.isLive scene.now) else []) s' := by
  induction entries generalizing scene s report with
  | nil =>
      refine ⟨s, rfl, [], List.not_mem_nil, rfl, ?_, fun k => ?_⟩
      · rw [Scene.run, ← hbacking]
      · simp [Scene.run]
  | cons e entries ih =>
      obtain ⟨hdatede, hdateds⟩ := List.forall_mem_cons.mp hdated
      have htimeout := Entry.timeoutOf?_recorded epoch scene.now e
      rw [List.map_cons, restoreValues, htimeout]
      by_cases hlive : e.isLive scene.now = true
      · obtain ⟨hinserted, hstored⟩ := insert_again hopen hbacking key hlive hdatede
        let act : Action String Json :=
          .insert key e.value ((e.remaining? scene.now).getD 0) .tail
        let next := (scene.step act).1
        have hstep : next.Open := hopen.step (by simp [act])
        obtain ⟨s', hrest, acts, hacts, hnow, hs', hadded⟩ :=
          ih (s := { s with backing := .perKey next.monitor }) hstep rfl hdateds
            { report with restored := report.restored + 1 }
        have hcount : counting scene.now entries { report with restored := report.restored + 1 } =
            counting scene.now (e :: entries) report := by
          have hnot : e.isExpired scene.now = false := Entry.isLive_eq_true_iff.mp hlive
          simp [counting, hlive, hnot, Nat.add_assoc, Nat.add_comm]
        refine ⟨s', ?_, act :: acts, ?_, hnow, hs', fun k => ?_⟩
        · rw [if_pos hlive]
          simp only [Entry.recorded] at hinserted ⊢
          rw [hinserted, ← hcount]
          exact hrest
        · simpa [act] using hacts
        · have hk := hadded k
          rw [Scene.run, hk, hstored]
          by_cases hsame : k = key
          · subst hsame
            simp [hlive, next, act, Scene.step]
          · simp [hsame]
      · obtain ⟨s', hrest, hgains⟩ := ih hopen hbacking hdateds
          { report with skipped := report.skipped + 1 }
        have hcount : counting scene.now entries { report with skipped := report.skipped + 1 } =
            counting scene.now (e :: entries) report := by
          have hgone : e.isExpired scene.now = true := by simpa [Entry.isLive] using hlive
          simp [counting, hlive, hgone, Nat.add_assoc, Nat.add_comm]
        refine ⟨s', ?_, ?_⟩
        · rw [if_neg hlive, ← hcount]
          exact hrest
        · have hfilter : (e :: entries).filter (·.isLive scene.now) =
              entries.filter (·.isLive scene.now) := List.filter_cons_of_neg hlive
          rw [hfilter]
          exact hgains

/-- Reading back a snapshot. -/
theorem restoreEntries_eq (hopen : scene.Open) (hbacking : s.backing = .perKey scene.monitor)
    (epoch : Moment) {stored : List (String × List (Entry Json))}
    (hdated : ∀ p ∈ stored, ∀ e ∈ p.2, ∀ d, e.expiresAt = some d → d < Instant.bound)
    (report : LoadReport) :
    ∃ s', restoreEntries (epoch.after scene.now) scene.now (Snapshot.recorded epoch stored) s
        report = .ok (s', counting scene.now (stored.flatMap Prod.snd) report) ∧
      Gains scene s (fun key => (gathered stored key).filter (·.isLive scene.now)) s' := by
  induction stored generalizing scene s report with
  | nil =>
      refine ⟨s, rfl, [], List.not_mem_nil, rfl, ?_, fun key => ?_⟩
      · rw [Scene.run, ← hbacking]
      · simp [Scene.run, gathered]
  | cons p stored ih =>
      obtain ⟨hdatedp, hdateds⟩ := List.forall_mem_cons.mp hdated
      obtain ⟨s₁, hfirst, acts, hacts, hnow, hs₁, hadded⟩ :=
        restoreValues_eq hopen hbacking epoch p.1 hdatedp report
      obtain ⟨s₂, hrest, more, hmore, hnow', hs₂, hadded'⟩ :=
        ih (hopen.run hacts) (s := s₁) (by rw [hs₁]) hdateds (counting scene.now p.2 report)
      rw [hnow] at hrest hnow' hadded'
      rw [counting_append] at hrest
      refine ⟨s₂, ?_, acts ++ more, ?_, ?_, ?_, fun key => ?_⟩
      · show restoreValues (epoch.after scene.now) scene.now p.1
          (p.2.map (Entry.recorded epoch)) s report >>= _ = _
        rw [hfirst]
        exact hrest
      · rw [List.mem_append]
        exact not_or.mpr ⟨hacts, hmore⟩
      · rw [Scene.run_append, hnow']
      · rw [Scene.run_append, hs₂, hs₁]
      · have hgathered : gathered (p :: stored) key =
            (if p.1 = key then p.2 else []) ++ gathered stored key := List.flatMap_cons ..
        rw [Scene.run_append, hadded', hadded]
        beta_reduce
        rw [hgathered, List.filter_append, List.append_assoc]
        by_cases hkey : p.1 = key
        · rw [if_pos hkey, if_pos hkey.symm]
        · rw [if_neg hkey, if_neg (Ne.symm hkey), List.filter_nil]

/-! ## Closing leaves the files alone -/

section

variable {β : Type} (w : World) (i : Nat)

theorem onSpace_files (missing : β) (f : Space → Space × β) :
    (w.onSpace i missing f).1.files = w.files := by
  unfold onSpace
  split <;> rfl

theorem onMonitor_files (missing : β)
    (f : {σ : Type} → [Engine σ String Json] → Monitor σ String Json → Monitor σ String Json × β) :
    (w.onMonitor i missing f).1.files = w.files :=
  w.onSpace_files i missing _

theorem deliver_files (f : Finished Json) : (w.deliver f).files = w.files := by
  unfold deliver
  split
  · rfl
  · split <;> rfl

theorem settleSpace_files : (w.settleSpace i).files = w.files := by
  have hdelivered (ended : List (Finished Json)) (w : World) :
      (ended.foldl deliver w).files = w.files := by
    induction ended generalizing w with
    | nil => rfl
    | cons f ended ih => rw [List.foldl_cons, ih, deliver_files]
  have hsettled := w.onMonitor_files i [] fun m => m.settle w.now w.cancelled
  simp only [settleSpace, hdelivered, hsettled]

theorem settle_files : w.settle.files = w.files := by
  unfold settle
  generalize List.range w.spaces.size = spaces
  induction spaces generalizing w with
  | nil => rfl
  | cons i spaces ih => rw [List.foldl_cons, ih, settleSpace_files]

theorem joinSweeper_files (swept : Bool) : (w.joinSweeper swept).files = w.files := by
  cases swept with
  | false => rfl
  | true => exact w.settle_files

theorem closeRegistry_files : (w.closeRegistry i).files = w.files := by
  simp only [closeRegistry, joinSweeper_files, onSpace_files]

theorem shutEngine_files : (w.shutEngine i).files = w.files := by
  have hshut := w.onMonitor_files i false fun m => (m.shut, m.sweeper.isSome)
  simp only [shutEngine, joinSweeper_files, hshut]

theorem clearEngine_files : (w.clearEngine i).files = w.files :=
  w.onMonitor_files i _ _

theorem closeEngine_files : (w.closeEngine i).files = w.files := by
  unfold closeEngine
  split
  · rfl
  · split
    · rfl
    · rw [clearEngine_files, shutEngine_files]

theorem closeMemory_files : (w.closeMemory i).files = w.files := by
  unfold closeMemory
  split
  · rfl
  · split
    · rw [closeEngine_files, closeRegistry_files]
    · split
      · rfl
      · rw [clearEngine_files, closeRegistry_files, shutEngine_files]

end

/-- Closing a space leaves in the files what storing it puts there. -/
theorem close_files {w : World} {i : Nat} {storage : Storage} (hspace : w.spaces[i]? = some s)
    (hstorage : s.storage = some storage) (hopen : s.isClosed = false) :
    (w.close i).1.files = (w.flush i).1.files := by
  have hclose : w.close i = (((w.flush i).1.closeMemory i).settle, (w.flush i).2) := by
    simp only [close, closeUnsettled, hspace, hstorage, hopen, Bool.false_eq_true, if_false]
  rw [hclose, settle_files, closeMemory_files]

/-- What is in the file of a space that has been stored. -/
theorem lookup_of_flush {w : World} {i : Nat} {storage : Storage}
    (hspace : w.spaces[i]? = some s) (hstorage : s.storage = some storage)
    (hopen : s.isClosed = false) {snapshot : Snapshot} (hcaptured : w.capture s = .ok snapshot)
    (hflush : (w.flush i).2 = .ok ()) :
    (w.flush i).1.files.lookup storage.path = .ok (.file snapshot.write) := by
  cases hwritten : w.files.writeDeep storage.path snapshot.write with
  | error e =>
      have hfails : (w.flush i).2 = .error (.ofStorage e.message) := by
        simp only [flush, hspace, hstorage, hopen, Bool.false_eq_true, if_false, hcaptured,
          hwritten]
      rw [hfails] at hflush
      cases hflush
  | ok files =>
      rw [flush_of_ok hspace hstorage hopen hcaptured hwritten]
      exact Files.read_of_writeDeep hwritten

end World

/-! ## All live entries -/

/-- The live entries of all keys, in the order in which they are listed. -/
theorem PerKey.flatMap_liveEntries {s : PerKey κ α} (hkeys : (s.records.map Record.key).Nodup)
    (now : Nat) : (s.liveEntries now).flatMap Prod.snd =
      (Engine.keys s).flatMap (Store.live now (Engine.stored s)) := by
  calc (s.liveEntries now).flatMap Prod.snd
      _ = s.records.flatMap fun r => r.queue.live now := by
          rw [liveEntries, List.filterMap_eq_flatMap_toList, List.flatMap_assoc]
          refine List.flatMap_congr fun r _ => ?_
          cases r.queue.live now with
          | nil => rfl
          | cons e entries => exact List.append_nil _
      _ = s.records.flatMap fun r => Store.live now (Engine.stored s) r.key :=
          List.flatMap_congr fun r hr => (live_of_mem hkeys now hr).symm
      _ = (Engine.keys s).flatMap (Store.live now (Engine.stored s)) := by
          rw [show Engine.keys s = s.records.map Record.key from rfl, List.flatMap_map]

/-- Nothing is stored in a new space. -/
theorem PerKey.stored_scene (name : String) (config : SpaceConfig) (now stamp : Nat)
    (cancelled : List Nat) (key : κ) :
    Engine.stored (PerKey.scene name config now stamp cancelled :
      Scene (PerKey κ α) κ α).monitor.engine key = [] := by
  rw [scene, Scene.start, Monitor.start_engine]
  rfl

namespace Space

/-- All live entries of a space. -/
def live (s : Space) (now : Nat) : List (Entry Json) :=
  s.keys.flatMap (Store.live now s.stored)

/-- Of the entries that are live now, those that are still live later. -/
theorem filter_live (s : Space) {now later : Nat} (hle : now ≤ later) :
    (s.live now).filter (·.isLive later) = s.live later := by
  rw [live, List.filter_flatMap, live, ← Store.live_live hle s.stored]
  rfl

/-- The clock can show the deadlines in a space that is in use. -/
theorem InUse.dated {s : Space} {now : Nat} (hused : s.InUse now) : Store.Dated s.stored := by
  obtain ⟨name, config, start, stamp, cancelled, acts, hacts, hbacking, _⟩ := hused
  have hopen := PerKey.open_scene (κ := String) (α := Json) name config start stamp cancelled
  have hdated := hopen.dated_run (fun key e he => by
    rw [PerKey.stored_scene] at he
    cases he) hacts
  intro key
  rw [stored, hbacking]
  exact hdated key

end Space

namespace World

variable {w later after : World} {i : Nat} {s : Space} {storage : Storage}

/-- Every key that has entries is in a list once, with these entries, and no other key is. -/
structure Tabulates (listed : List (String × List (Entry Json))) (st : Store String Json) :
    Prop where
  nodup : (listed.map Prod.fst).Nodup
  mem_iff : ∀ key entries, (key, entries) ∈ listed ↔ entries = st key ∧ entries ≠ []

theorem Tabulates.gathered_eq {listed : List (String × List (Entry Json))}
    {st : Store String Json} (hlisted : Tabulates listed st) (key : String) :
    gathered listed key = st key := by
  by_cases hnone : st key = []
  · rw [hnone]
    apply gathered_of_not_mem
    intro hkey
    obtain ⟨⟨_, entries⟩, hmem, rfl⟩ := List.mem_map.mp hkey
    obtain ⟨rfl, hne⟩ := (hlisted.mem_iff _ _).mp hmem
    exact hne hnone
  · exact gathered_of_mem hlisted.nodup ((hlisted.mem_iff key _).mpr ⟨rfl, hnone⟩)

/-- The entries that are captured of a space in use are all its live ones. -/
theorem tabulates_liveEntries {now : Nat} (hused : s.InUse now) :
    Tabulates (s.liveEntries now) (Store.live now s.stored) ∧
      (s.liveEntries now).flatMap Prod.snd = s.live now := by
  obtain ⟨scene, hopen, _, hbacking⟩ := hused.scene
  have hsettled : PerKey.Settled scene.monitor.engine (headcount scene.monitor.waiting) :=
    hopen.sound
  have hkeys := hsettled.keys_nodup
  have hstored : s.stored = Engine.stored scene.monitor.engine := by
    funext key
    rw [Space.stored, hbacking]
    rfl
  have hlisted : s.liveEntries now = scene.monitor.engine.liveEntries now := by
    rw [Space.liveEntries, hbacking]
  have hall : s.keys = Engine.keys scene.monitor.engine := by
    rw [Space.keys, hbacking]
    rfl
  rw [Space.live, hstored, hlisted, hall]
  exact ⟨⟨PerKey.nodup_liveEntries hkeys now, PerKey.mem_liveEntries hkeys now⟩,
    PerKey.flatMap_liveEntries hkeys now⟩

/-- A space that is opened holds what is in its file and has not expired. -/
theorem openPersistent_eq {path text : String} {savedAt : Moment}
    {listed : List (String × List (Entry Json))} (name : String) {config : SpaceConfig}
    (hvalid : config.validate = .ok ()) (hfile : later.files.lookup path = .ok (.file text))
    (hread : Snapshot.read? text =
      some ⟨Snapshot.currentVersion, savedAt, Snapshot.recorded later.epoch listed⟩)
    (hdated : ∀ p ∈ listed, ∀ e ∈ p.2, ∀ d, e.expiresAt = some d → d < Instant.bound) :
    ∃ s', later.openPersistent name path config = .ok s' ∧
      s'.storage = some ⟨path, counting later.now (listed.flatMap Prod.snd) {}⟩ ∧
      s'.InUse later.now ∧
      ∀ key, s'.stored key = (gathered listed key).filter (·.isLive later.now) := by
  let scene : Scene (PerKey String Json) String Json :=
    PerKey.scene name config later.now later.stamp []
  let fresh : Space := { backing := .perKey scene.monitor }
  have hfresh : Space.perKey name config later.now later.stamp = .ok fresh := by
    simp only [Space.perKey, hvalid]
    rfl
  have hsnapshot : readSnapshot later.files path =
      .ok ⟨Snapshot.currentVersion, savedAt, Snapshot.recorded later.epoch listed⟩ := by
    simp only [readSnapshot, Files.read_of_lookup hfile, hread, if_true]
  obtain ⟨s', hrestored, acts, hacts, hnow, hs', hadded⟩ :=
    restoreEntries_eq (s := fresh) (PerKey.open_scene name config later.now
      later.stamp []) rfl later.epoch hdated {}
  refine ⟨{ s' with storage := some ⟨path, counting later.now (listed.flatMap Prod.snd) {}⟩ },
    ?_, rfl, ?_, fun key => ?_⟩
  · rw [openPersistent, hfresh]
    show (if later.files.exists? path = true then _ else _) = _
    rw [if_pos (Files.exists?_of_read hfile), hsnapshot]
    show restoreEntries (later.epoch.after scene.now) scene.now
      (Snapshot.recorded later.epoch listed) fresh {} >>= _ = _
    rw [hrestored]
    rfl
  · rw [hs']
    exact ⟨name, config, later.now, later.stamp, [], acts, hacts, rfl, hnow⟩
  · have hkey := hadded key
    rw [PerKey.stored_scene, List.nil_append] at hkey
    rw [hs']
    exact hkey

/-- A space in use that has been stored holds no entry that the calendar does not have. -/
theorem captured_of_flush (hspace : w.spaces[i]? = some s) (hstorage : s.storage = some storage)
    (hused : s.InUse w.now) (hflush : (w.flush i).2 = .ok ()) :
    (∀ key, ∀ e ∈ s.stored key, e.isLive w.now = true → e.Recordable w.epoch) ∧
      w.capture s = .ok ⟨Snapshot.currentVersion, w.wall,
        Snapshot.recorded w.epoch (s.liveEntries w.now)⟩ := by
  rcases capture_eq hused with hfits | ⟨_, _, _, _, _, _, _, hfails⟩
  · exact hfits
  · rw [flush_of_error hspace hstorage hused.isClosed hfails] at hflush
    cases hflush

/-- A space in use is stored over what its file says, if the calendar has what it holds. -/
theorem flush_over {old : String} (hspace : w.spaces[i]? = some s)
    (hstorage : s.storage = some storage) (hused : s.InUse w.now)
    (hfit : ∀ key, ∀ e ∈ s.stored key, e.isLive w.now = true → e.Recordable w.epoch)
    (hread : w.files.lookup storage.path = .ok (.file old)) :
    ∃ final, w.flush i = (final, .ok ()) ∧
      final.files.lookup storage.path = .ok (.file (Snapshot.mk Snapshot.currentVersion w.wall
        (Snapshot.recorded w.epoch (s.liveEntries w.now))).write) := by
  rcases capture_eq hused with ⟨_, hcaptured⟩ | ⟨key, e, he, d, hlive, hd, hvalid, _⟩
  · obtain ⟨files, hwritten⟩ := Files.writeDeep_of_read hread (Snapshot.mk
      Snapshot.currentVersion w.wall (Snapshot.recorded w.epoch (s.liveEntries w.now))).write
    have hflush := flush_of_ok hspace hstorage hused.isClosed hcaptured hwritten
    exact ⟨_, hflush, Files.read_of_writeDeep hwritten⟩
  · have hrecordable := hfit key e he hlive d hd
    rw [hvalid] at hrecordable
    cases hrecordable

/-- A persistent space that has been stored or closed without an error, and is opened again from the
same file while the wall clock has kept pace with the clock, holds the entries that were live then
and still are; it reports how many these are, and how many have expired in between; and if it is
stored again at once, exactly these entries are written. -/
theorem restart_transparent (hspace : w.spaces[i]? = some s) (hstorage : s.storage = some storage)
    (hused : s.InUse w.now)
    (hdecodes : ∀ snapshot, w.capture s = .ok snapshot →
      Snapshot.read? snapshot.write = some snapshot)
    (hstored : w.flush i = (after, .ok ()) ∨ w.close i = (after, .ok ()))
    (hepoch : later.epoch = w.epoch) (hlater : w.now ≤ later.now)
    (hfile : later.files.lookup storage.path = after.files.lookup storage.path)
    (name : String) {config : SpaceConfig} (hvalid : config.validate = .ok ()) :
    ∃ s' report, later.openPersistent name storage.path config = .ok s' ∧
      s'.storage = some ⟨storage.path, report⟩ ∧ s'.InUse later.now ∧
      (∀ key, s'.stored key =
        (s.stored key).filter fun e => e.isLive w.now && e.isLive later.now) ∧
      report.restored = (s.live later.now).length ∧
      report.restored + report.skipped = (s.live w.now).length ∧
      ∃ final listed, (later.addSpace s').1.flush (later.addSpace s').2 = (final, .ok ()) ∧
        Tabulates listed s'.stored ∧
        final.files.lookup storage.path = .ok (.file (Snapshot.mk Snapshot.currentVersion
          later.wall (Snapshot.recorded w.epoch listed)).write) := by
  have hclosed := hused.isClosed
  have hflushed : (w.flush i).2 = .ok () ∧ after.files = (w.flush i).1.files := by
    rcases hstored with hflush | hclose
    · rw [hflush]
      exact ⟨rfl, rfl⟩
    · rw [← close_result hspace hstorage hclosed, ← close_files hspace hstorage hclosed, hclose]
      exact ⟨rfl, rfl⟩
  obtain ⟨hfit, hcaptured⟩ := captured_of_flush hspace hstorage hused hflushed.1
  obtain ⟨htable, hall⟩ := tabulates_liveEntries hused
  have hwritten : later.files.lookup storage.path = .ok (.file (Snapshot.mk
      Snapshot.currentVersion w.wall
      (Snapshot.recorded later.epoch (s.liveEntries w.now))).write) := by
    rw [hfile, hflushed.2, hepoch]
    exact lookup_of_flush hspace hstorage hclosed hcaptured hflushed.1
  have hread := hdecodes _ hcaptured
  rw [← hepoch] at hread
  have hdated : ∀ p ∈ s.liveEntries w.now, ∀ e ∈ p.2, ∀ d, e.expiresAt = some d →
      d < Instant.bound := by
    rintro ⟨key, entries⟩ hp e he
    obtain ⟨rfl, _⟩ := (htable.mem_iff key entries).mp hp
    exact hused.dated key e (List.mem_filter.mp he).1
  obtain ⟨s', hopened, hstorage', hused', hstored'⟩ :=
    openPersistent_eq name hvalid hwritten hread hdated
  have hlasting (key : String) : s'.stored key = Store.live later.now s.stored key := by
    rw [hstored', htable.gathered_eq]
    exact congrFun (Store.live_live hlater s.stored) key
  refine ⟨s', _, hopened, hstorage', hused', fun key => ?_, ?_, ?_, ?_⟩
  · rw [hstored', htable.gathered_eq, Store.live, List.filter_filter]
    exact List.filter_congr fun e _ => Bool.and_comm ..
  · rw [hall, ← s.filter_live hlater, ← List.countP_eq_length_filter]
    exact Nat.zero_add _
  · rw [hall, counting_total]
  · have hindex : (later.addSpace s').1.spaces[(later.addSpace s').2]? = some s' := by
      simp [addSpace]
    have hfit' : ∀ key, ∀ e ∈ s'.stored key, e.isLive later.now = true →
        e.Recordable later.epoch := by
      intro key e he hlive
      rw [hlasting] at he
      rw [hepoch]
      exact hfit key e (List.mem_filter.mp he).1 (Entry.isLive_anti hlater hlive)
    obtain ⟨final, hflush, hfinal⟩ :=
      flush_over (w := (later.addSpace s').1) hindex hstorage' hused' hfit' hwritten
    have htable' := (tabulates_liveEntries hused').1
    have hall' : Store.live later.now s'.stored = s'.stored := by
      rw [funext hlasting]
      exact Store.live_live le_rfl s.stored
    rw [hall'] at htable'
    rw [← hepoch]
    exact ⟨final, _, hflush, htable', hfinal⟩

set_option maxRecDepth 100000 in
theorem restart_transparent_of_three_entries :
    let acts : List (Action String Json) :=
      [.insert "a" .null 0 .tail, .insert "b" .null 300 .tail,
        .insert "a" (.bool true) 600 .head, .advance 100]
    let scene := (PerKey.scene "space" {} 0 0 []).run acts
    let w : World :=
      { now := 100, epoch := ⟨19723, 0, 0⟩
        spaces := #[{ backing := .perKey scene.monitor, storage := some ⟨"s.json", {}⟩ }] }
    let later : World := { now := 300, epoch := w.epoch, files := (w.flush 0).1.files }
    (w.flush 0).2 = .ok () ∧
      ∃ s' report, later.openPersistent "again" "s.json" {} = .ok s' ∧
        s'.storage = some ⟨"s.json", report⟩ ∧
        s'.stored "a" = [⟨.bool true, some 600⟩, ⟨.null, none⟩] ∧ s'.stored "b" = [] ∧
        report.restored = 2 ∧ report.restored + report.skipped = 3 := by
  intro acts scene w later
  let s : Space := { backing := .perKey scene.monitor, storage := some ⟨"s.json", {}⟩ }
  let snapshot : Snapshot :=
    ⟨1, ⟨19723, 0, 100⟩, [⟨"a", [⟨.bool true, some ⟨19723, 0, 600⟩⟩, ⟨.null, none⟩]⟩,
      ⟨"b", [⟨.null, some ⟨19723, 0, 300⟩⟩]⟩]⟩
  have hacts : Action.shut ∉ acts := by simp [acts]
  have hcaptured : w.capture s = .ok snapshot := by cbv
  have hread : Snapshot.read? snapshot.write = some snapshot := by
    rw [Snapshot.read?, Json.Written.ofText?, Snapshot.toList_write]
    cbv
  have hdecodes : ∀ captured, w.capture s = .ok captured →
      Snapshot.read? captured.write = some captured := by
    intro captured heq
    rw [hcaptured] at heq
    cases heq
    exact hread
  have hflush : (w.flush 0).2 = .ok () := by decide +kernel
  have hepoch : later.epoch = w.epoch := rfl
  have hlater : w.now ≤ later.now := by decide
  have hfile : later.files.lookup "s.json" = (w.flush 0).1.files.lookup "s.json" := rfl
  have hvalid : ({} : SpaceConfig).validate = .ok () := rfl
  obtain ⟨s', report, hopened, hreport, _, hvalues, hrestored, htotal, _⟩ :=
    restart_transparent (w := w) (i := 0) (s := s) rfl rfl
      ⟨"space", {}, 0, 0, [], acts, hacts, rfl, rfl⟩ hdecodes
      (.inl (Prod.ext rfl hflush)) hepoch hlater hfile "again" hvalid
  exact ⟨hflush, s', report, hopened, hreport, hvalues "a", hvalues "b", hrestored, htotal⟩

end World

end TupleSpace
