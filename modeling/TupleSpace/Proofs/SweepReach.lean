import TupleSpace.Proofs.Conservation
import TupleSpace.Proofs.Run.Awaiting
import TupleSpace.Proofs.Store.Volume

/-!
# No entry escapes its sweeps

An entry that was inserted with a lifetime makes its key await the sweeps of a generation, and the
key does so for as long as the entry is stored, whatever else happens under it.  So a sweep of the
generation meets every such entry, and a sweep of both generations leaves nothing that has expired.

The contents of a space do not tell with which lifetime an entry was inserted; its ledger does.  The
statements hold of every ledger that accounts for a run, since entries that look the same may be
told apart in more than one way.
-/

namespace TupleSpace

open Bookkeeping SweepBooks

variable {κ α : Type}

/-- An entry of a generation, inserted with a lifetime, is stored under a key until a deadline. -/
def Ledger.Lodges (config : SpaceConfig) (events : List (Event κ α)) (L : Ledger κ)
    (gen : Generation) (key : κ) (deadline : Nat) : Prop :=
  ∃ i now value timeout placement,
    events[i]? = some (.inserted now key value timeout placement (.ok ())) ∧ timeout ≠ 0 ∧
      config.generationOf timeout = gen ∧ now + timeout = deadline ∧ L.fate i = some .stored

/-! ## What is lodged is stored -/

/-- There are two generations. -/
theorem Generation.eq_of_ne {gen gen' other : Generation} (hboth : gen ≠ gen')
    (hother : other ≠ gen') : other = gen := by
  cases gen <;> cases gen' <;> cases other <;> first | rfl | exact absurd rfl hboth |
    exact absurd rfl hother

namespace Shelved

variable {events : List (Event κ α)} {st : Store κ α} {L : Ledger κ} {config : SpaceConfig}
  {gen : Generation} {key : κ} {deadline : Nat}

/-- An entry whose fate is to be stored is in the queue of its key. -/
theorem mem_of_stored (hshelved : Shelved events st L) {i : Nat} {e : Entry α}
    (hfate : L.fate i = some .stored)
    (hseen : seenAt Event.deposit? events i = some (key, e)) : e ∈ st key := by
  obtain ⟨k, hi⟩ := (hshelved.stored i).mp hfate
  have hmem : seenAt Event.deposit? events i ∈ (st k).map fun e => some (k, e) :=
    hshelved.queue k ▸ List.mem_map_of_mem hi
  obtain ⟨x, hx, heq⟩ := List.mem_map.mp hmem
  rw [hseen] at heq
  cases heq
  exact hx

/-- What is lodged until a deadline is an entry that expires then. -/
theorem exists_of_lodges (hshelved : Shelved events st L)
    (hlodges : L.Lodges config events gen key deadline) :
    ∃ e ∈ st key, e.expiresAt = some deadline := by
  obtain ⟨i, now, value, timeout, placement, hevent, htimed, _, rfl, hfate⟩ := hlodges
  have hknown := hshelved.known i
  rw [hfate, seenAt, hevent] at hknown
  obtain ⟨x, hx⟩ := Option.isSome_iff_exists.mp hknown.symm
  obtain ⟨e, hentry, rfl⟩ := Option.map_eq_some_iff.mp hx
  have hseen : seenAt Event.deposit? events i = some (key, e) := by
    rw [seenAt, hevent]
    exact hx
  rcases Entry.withTimeout?_eq_some_iff.mp hentry with ⟨hpermanent, _⟩ | ⟨_, _, rfl⟩
  · exact absurd hpermanent htimed
  · exact ⟨_, hshelved.mem_of_stored hfate hseen, rfl⟩

/-- An entry that will expire is lodged in one of the generations. -/
theorem lodges_of_mem (hshelved : Shelved events st L) (config : SpaceConfig) {e : Entry α}
    (he : e ∈ st key) (hends : e.expiresAt = some deadline) :
    ∃ gen, L.Lodges config events gen key deadline := by
  have hmem : some (key, e) ∈ (L.shelf key).map (seenAt Event.deposit? events) := by
    rw [hshelved.queue key]
    exact List.mem_map_of_mem he
  obtain ⟨i, hi, hseen⟩ := List.mem_map.mp hmem
  obtain ⟨event, hevent, hdeposit⟩ := Option.bind_eq_some_iff.mp hseen
  unfold Event.deposit? at hdeposit
  split at hdeposit
  · rename_i now k value timeout placement
    obtain ⟨x, hentry, heq⟩ := Option.map_eq_some_iff.mp hdeposit
    cases heq
    rcases Entry.withTimeout?_eq_some_iff.mp hentry with ⟨_, rfl⟩ | ⟨htimed, _, rfl⟩
    · cases hends
    · exact ⟨_, i, now, value, timeout, placement, hevent, htimed, rfl, Option.some.inj hends,
        (hshelved.stored i).mpr ⟨key, hi⟩⟩
  · cases hdeposit

end Shelved

variable [DecidableEq κ]

/-- An insertion that succeeded is seen where it was asked for. -/
theorem Lazy.Step.of_inserted {l l' : Lazy κ α} {act : Action κ α} {now : Nat} {key : κ}
    {value : α} {timeout : Nat} {placement : Placement}
    (hstep : l.Step act l' (some (.inserted now key value timeout placement (.ok ())))) :
    act = .insert key value timeout placement ∧ now = l.now ∧
      ∃ e, Entry.withTimeout? value timeout l.now = some e := by
  generalize hevent : some (Event.inserted now key value timeout placement (.ok ())) = event
    at hstep
  cases hstep with
  | put entry =>
      cases hevent
      exact ⟨rfl, rfl, _, entry⟩
  | @call ticket q config n faded store progress =>
      cases progress <;> cases hevent
  | @rerun place earlier later ticket q config n faded store progress =>
      cases progress <;> cases hevent
  | refuse | nobody | existsAny | sweep | alarm | cancel | advance | told | renumber | clear =>
      cases hevent

namespace Scene

variable {σ : Type} [Engine σ κ α] {s : Scene σ κ α} {acts : List (Action κ α)}
  {act : Action κ α} {history : Nat → Ledger κ} {config : SpaceConfig} {gen : Generation}
  {key : κ} {deadline : Nat}

/-! ## Ledgers of longer runs -/

omit [DecidableEq κ] in
/-- The ledgers of a run serve its beginning. -/
theorem Conserves.before {more : List (Action κ α)}
    (hconserves : s.Conserves (acts ++ more) history) : s.Conserves acts history := by
  have htake : ∀ n ≤ acts.length, (acts ++ more).take n = acts.take n :=
    fun n hn => List.take_append_of_le_length hn
  have hlonger : ∀ n ≤ acts.length, n ≤ (acts ++ more).length :=
    fun n hn => hn.trans (List.length_append ▸ Nat.le_add_right _ _)
  refine ⟨fun n hn => ?_, fun m n hmn hn => hconserves.settled m n hmn (hlonger n hn),
    fun n hn => ?_⟩
  · rw [← htake n hn]
    exact hconserves.accounts n (hlonger n hn)
  · rw [← htake n hn]
    exact hconserves.balance n (hlonger n hn)

omit [DecidableEq κ] in
/-- What the last ledger of a run says agrees with what has been seen and what is stored. -/
theorem Conserves.shelved (hconserves : s.Conserves acts history) :
    Shelved (s.trace acts) (Engine.stored (s.run acts).monitor.engine)
      (history acts.length) := by
  have haccounts := hconserves.accounts acts.length (Nat.le_refl _)
  rw [List.take_length] at haccounts
  exact haccounts.toShelved

omit [DecidableEq κ] in
/-- What is lodged after an action was lodged before it, or the action has just inserted it. -/
theorem Conserves.lodges_before (hconserves : s.Conserves (acts ++ [act]) history)
    (hlodges : (history (acts.length + 1)).Lodges config (s.trace (acts ++ [act])) gen key
      deadline) :
    (history acts.length).Lodges config (s.trace acts) gen key deadline ∨
      ∃ now value timeout placement, ((s.run acts).step act).2 =
          some (.inserted now key value timeout placement (.ok ())) ∧
        timeout ≠ 0 ∧ config.generationOf timeout = gen ∧ now + timeout = deadline := by
  obtain ⟨i, now, value, timeout, placement, hevent, htimed, hgen, hdeadline, hfate⟩ := hlodges
  have hlater := hconserves.shelved
  have hsooner := hconserves.before.shelved
  rw [List.length_append, List.length_singleton] at hlater
  rw [trace_concat] at hevent hlater
  by_cases hlt : i < (s.trace acts).length
  · left
    rw [List.getElem?_append_left hlt] at hevent
    refine ⟨i, now, value, timeout, placement, hevent, htimed, hgen, hdeadline, ?_⟩
    -- the entry had a fate before, and a fate other than being stored would have stayed
    have hseen := hlater.known i
    rw [seenAt_append_of_lt hlt, hfate] at hseen
    have hknown := hsooner.known i
    rw [← hseen] at hknown
    obtain ⟨f, hf⟩ := Option.isSome_iff_exists.mp hknown
    by_contra hother
    have hkept := hconserves.settled acts.length (acts.length + 1) (Nat.le_succ _)
      (by rw [List.length_append, List.length_singleton]) i f hf
      fun hstored => hother (hstored ▸ hf)
    rw [hfate] at hkept
    cases hkept
    exact hother hf
  · right
    rw [List.getElem?_append_right (Nat.le_of_not_lt hlt)] at hevent
    have hmem := List.mem_of_getElem? hevent
    rw [Option.mem_toList] at hmem
    exact ⟨now, value, timeout, placement, hmem, htimed, hgen, hdeadline⟩

/-! ## Sweeps of a run -/

variable [Bookkeeping σ κ α] [SweepBooks σ κ α] [LawfulEngine σ κ α] [ExactEngine σ κ α]
  [CarefulEngine σ κ α] [SteadyEngine σ κ α]

omit [SweepBooks σ κ α] [ExactEngine σ κ α] [CarefulEngine σ κ α] in
/-- A space keeps its settings as long as it is open. -/
theorem Open.config_run (hopen : s.Open) (hacts : Action.shut ∉ acts) :
    Engine.config (s.run acts).monitor.engine = Engine.config s.monitor.engine := by
  induction acts generalizing s with
  | nil => rfl
  | cons act acts ih =>
      have hact : act ≠ .shut := fun heq => hacts (heq ▸ List.mem_cons_self)
      have hrest := ih (hopen.step hact) fun hmem => hacts (List.mem_cons_of_mem act hmem)
      exact hrest.trans (hopen.toWorking.config_step act)

/-- The key of an entry with a lifetime awaits the sweeps of the generation of that entry. -/
theorem Open.awaiting_of_lodges (hopen : s.Open) (hneat : Neat s.monitor.engine)
    (hconfig : Engine.config s.monitor.engine = config) (hacts : Action.shut ∉ acts)
    (hconserves : s.Conserves acts history)
    (hlodges : (history acts.length).Lodges config (s.trace acts) gen key deadline) :
    key ∈ Engine.awaiting (s.run acts).monitor.engine gen := by
  induction acts using List.reverseRecOn with
  | nil =>
      obtain ⟨i, now, value, timeout, placement, hevent, _⟩ := hlodges
      cases hevent
  | append_singleton acts act ih =>
      obtain ⟨hacts', hact⟩ : Action.shut ∉ acts ∧ act ≠ .shut := by
        simpa [eq_comm] using hacts
      have hopen' := hopen.run hacts'
      have hneat' := neat_run hneat acts
      have hshelved := hconserves.shelved
      obtain ⟨e, he, hends⟩ := hshelved.exists_of_lodges hlodges
      rw [List.length_append, List.length_singleton] at hlodges
      rw [run_concat, step_engine]
      rw [run_concat, step_engine] at he
      rcases hconserves.lodges_before hlodges with hbefore |
        ⟨now, value, timeout, placement, hevent, htimed, hgen, _⟩
      · have hawaits := ih hacts' hconserves.before hbefore
        exact hopen'.retains_turn hneat' hact gen key hawaits ⟨e, he, by rw [hends]; rfl⟩
      · have hstep := hopen'.lazy_step hact
        rw [hevent] at hstep
        obtain ⟨rfl, _, x, hentry⟩ := hstep.of_inserted
        have hregisters := ExactEngine.insert_exact key placement hopen'.isClosed hneat' hentry
        apply (hregisters.awaiting gen key).mpr
        right
        rw [hopen.config_run hacts', hconfig]
        exact ⟨htimed, hgen.symm, rfl⟩

/-- After a sweep of its generation no stored entry is past its deadline. -/
theorem Open.swept_of_lodges (hopen : s.Open) (hneat : Neat s.monitor.engine)
    (hconfig : Engine.config s.monitor.engine = config) (hacts : Action.shut ∉ acts)
    (hconserves : s.Conserves (acts ++ [Action.sweep gen]) history)
    (hlodges : (history (acts.length + 1)).Lodges config (s.trace (acts ++ [Action.sweep gen])) gen
      key deadline) : (s.run acts).now < deadline := by
  have hshelved := hconserves.shelved
  rw [List.length_append, List.length_singleton] at hshelved
  obtain ⟨e, he, hends⟩ := hshelved.exists_of_lodges hlodges
  have hbefore : (history acts.length).Lodges config (s.trace acts) gen key deadline := by
    rcases hconserves.lodges_before hlodges with hbefore | ⟨_, _, _, _, hevent, _⟩
    · exact hbefore
    · cases hevent
  have hawaits := hopen.awaiting_of_lodges hneat hconfig hacts hconserves.before hbefore
  have hsweeps := ExactEngine.sweep_exact (s.run acts).now gen (hopen.run hacts).isClosed
    (neat_run hneat acts)
  replace he : e ∈ Engine.stored (Engine.sweep (s.run acts).now gen
      (s.run acts).monitor.engine).state key := by
    rwa [run_concat] at he
  rw [hsweeps.stored, Store.swept, if_pos hawaits] at he
  exact Entry.isLive_iff.mp (List.mem_filter.mp he).2 deadline hends

/-- This stays so as long as the clock stands still: what is inserted meanwhile has a deadline
ahead. -/
theorem Open.swept_of_lodges_later (hopen : s.Open) (hneat : Neat s.monitor.engine)
    (hconfig : Engine.config s.monitor.engine = config) {meanwhile : List (Action κ α)}
    (hacts : Action.shut ∉ acts ++ Action.sweep gen :: meanwhile)
    (hnow : (s.run (acts ++ Action.sweep gen :: meanwhile)).now = (s.run acts).now)
    (hconserves : s.Conserves (acts ++ Action.sweep gen :: meanwhile) history)
    (hlodges : (history (acts ++ Action.sweep gen :: meanwhile).length).Lodges config
      (s.trace (acts ++ Action.sweep gen :: meanwhile)) gen key deadline) :
    (s.run acts).now < deadline := by
  induction meanwhile using List.reverseRecOn with
  | nil =>
      rw [List.length_append, List.length_singleton] at hlodges
      have hacts' : Action.shut ∉ acts := fun hmem => hacts (List.mem_append_left _ hmem)
      exact hopen.swept_of_lodges hneat hconfig hacts' hconserves hlodges
  | append_singleton meanwhile act ih =>
      rw [← List.cons_append, ← List.append_assoc] at hacts hnow hconserves hlodges
      rw [List.length_append, List.length_singleton] at hlodges
      rw [run_concat] at hnow
      obtain ⟨hacts', hact⟩ :
          Action.shut ∉ acts ++ Action.sweep gen :: meanwhile ∧ act ≠ .shut := by
        simpa [eq_comm, and_assoc] using hacts
      have hnow' : (s.run (acts ++ Action.sweep gen :: meanwhile)).now = (s.run acts).now := by
        have hlate := now_le_step (s.run (acts ++ Action.sweep gen :: meanwhile)) act
        have hearly := now_le_run (s.run acts) (Action.sweep gen :: meanwhile)
        rw [← run_append] at hearly
        omega
      rcases hconserves.lodges_before hlodges with hbefore |
        ⟨now, value, timeout, placement, hevent, htimed, _, hdeadline⟩
      · exact ih hacts' hnow' hconserves.before hbefore
      · have hstep := (hopen.run hacts').lazy_step hact
        rw [hevent] at hstep
        have hinserted : now = (s.run (acts ++ Action.sweep gen :: meanwhile)).now :=
          hstep.of_inserted.2.1
        omega

/-- After a sweep of either generation nothing that is stored has expired. -/
theorem Open.live_of_both_swept (hopen : s.Open) (hneat : Neat s.monitor.engine)
    {gen' : Generation} (hboth : gen ≠ gen') {meanwhile swept : List (Action κ α)}
    (hswept : acts ++ Action.sweep gen :: meanwhile = swept) (hacts : Action.shut ∉ swept)
    (hnow : (s.run swept).now = (s.run acts).now)
    (hconserves : s.Conserves (swept ++ [Action.sweep gen']) history) {e : Entry α}
    (he : e ∈ Engine.stored (s.run (swept ++ [Action.sweep gen'])).monitor.engine key) :
    e.isLive (s.run acts).now = true := by
  apply Entry.isLive_iff.mpr
  intro deadline hends
  obtain ⟨other, hlodges⟩ :=
    hconserves.shelved.lodges_of_mem (Engine.config s.monitor.engine) he hends
  rw [List.length_append, List.length_singleton] at hlodges
  by_cases hlast : other = gen'
  · rw [← hnow]
    exact hopen.swept_of_lodges hneat rfl hacts hconserves (hlast ▸ hlodges)
  · have hgen := Generation.eq_of_ne hboth hlast
    rcases hconserves.lodges_before hlodges with hbefore | ⟨_, _, _, _, hevent, _⟩
    · have hconserves' := hconserves.before
      subst hswept hgen
      exact hopen.swept_of_lodges_later hneat rfl hacts hnow hconserves' hbefore
    · cases hevent

end Scene

/-! ## Reports -/

section Reports

variable {σ : Type} [Engine σ κ α] [Bookkeeping σ κ α] [LawfulEngine σ κ α] {s : σ}
  {w : Headcount κ}

/-- The sizes of all keys add up to what is stored. -/
theorem Engine.holds_sizes (hsound : Sound s w) :
    Store.Holds (Engine.stored s) ((Engine.keys s).map (Engine.size s)).sum := by
  refine ⟨(Engine.keys s).toFinset, fun key hkey => ?_, ?_⟩
  · by_contra hfilled
    exact hkey (List.mem_toFinset.mpr (LawfulEngine.mem_keys hsound hfilled))
  · rw [List.sum_toFinset _ (LawfulEngine.keys_nodup hsound)]
    rfl

/-- A sweep reports as many expired entries as there are fewer entries afterwards. -/
theorem Engine.sweep_expired [SweepBooks σ κ α] [CarefulEngine σ κ α] (hsound : Sound s w)
    (now : Nat) (gen : Generation) :
    (Engine.sweep now gen s).result.expired +
        ((Engine.keys (Engine.sweep now gen s).state).map
          (Engine.size (Engine.sweep now gen s).state)).sum =
      ((Engine.keys s).map (Engine.size s)).sum := by
  have hdrops := CarefulEngine.sweep_drops now gen hsound
  have hsound' := (LawfulEngine.sweep_sound now gen hsound).2.sound
  obtain ⟨m, hholds, hsum⟩ := hdrops.fades.holds (Engine.holds_sizes hsound)
  rw [hholds.unique (Engine.holds_sizes hsound')] at hsum
  exact hsum

end Reports

/-! ## Both engines -/

/-- Sweeps after some actions reach every entry that will expire, and nothing else. -/
structure Scene.SweepsReach {σ : Type} [Engine σ κ α] (config : SpaceConfig)
    (s : Scene σ κ α) (acts : List (Action κ α)) : Prop where
  /-- There are ledgers that account for the run. -/
  recorded : ∃ history, s.Conserves acts history
  /-- The key of an entry that was inserted with a lifetime awaits the sweeps of its generation. -/
  awaited : ∀ history, s.Conserves acts history → ∀ gen key deadline,
    (history acts.length).Lodges config (s.trace acts) gen key deadline →
      key ∈ Engine.awaiting (s.run acts).monitor.engine gen
  /-- A sweep leaves no entry of its generation that has expired. -/
  swept : ∀ gen history, s.Conserves (acts ++ [Action.sweep gen]) history → ∀ key deadline,
    (history (acts.length + 1)).Lodges config (s.trace (acts ++ [Action.sweep gen])) gen key
      deadline → (s.run acts).now < deadline
  /-- A sweep of either generation leaves nothing that has expired, whatever happens between the
  two while the clock stands still. -/
  both : ∀ gen gen', gen ≠ gen' → ∀ meanwhile, Action.shut ∉ meanwhile → ∀ swept,
    acts ++ Action.sweep gen :: meanwhile = swept → (s.run swept).now = (s.run acts).now →
      ∀ key, ∀ e ∈ Engine.stored (s.run (swept ++ [Action.sweep gen'])).monitor.engine key,
        e.isLive (s.run acts).now = true
  /-- A sweep keeps what is live, in its order. -/
  kept : ∀ gen, Store.live (s.run acts).now
      (Engine.stored (s.run (acts ++ [Action.sweep gen])).monitor.engine) =
    Store.live (s.run acts).now (Engine.stored (s.run acts).monitor.engine)
  /-- A sweep reports how many entries there are fewer. -/
  expired : ∀ gen,
    (Engine.sweep (s.run acts).now gen (s.run acts).monitor.engine).result.expired +
        ((Engine.keys (s.run (acts ++ [Action.sweep gen])).monitor.engine).map
          (Engine.size (s.run (acts ++ [Action.sweep gen])).monitor.engine)).sum =
      ((Engine.keys (s.run acts).monitor.engine).map
        (Engine.size (s.run acts).monitor.engine)).sum
  /-- A sweep reports how many keys there are fewer. -/
  recordsRemoved : ∀ gen,
    (Engine.sweep (s.run acts).now gen (s.run acts).monitor.engine).result.recordsRemoved +
        (Engine.keys (s.run (acts ++ [Action.sweep gen])).monitor.engine).length =
      (Engine.keys (s.run acts).monitor.engine).length

/-- Sweeps of an open space reach every entry that will expire. -/
theorem Scene.Open.sweepsReach {σ : Type} [Engine σ κ α] [Bookkeeping σ κ α] [SweepBooks σ κ α]
    [LawfulEngine σ κ α] [ExactEngine σ κ α] [CarefulEngine σ κ α] [SteadyEngine σ κ α]
    {s : Scene σ κ α} (hopen : s.Open) (hneat : Neat s.monitor.engine)
    (hblank : Accounts [] s.lazy.now s.lazy.store s.lazy.counters (.blank κ))
    {acts : List (Action κ α)} (hacts : Action.shut ∉ acts) :
    s.SweepsReach (Engine.config s.monitor.engine) acts := by
  have hreached := hopen.run hacts
  have hengine : ∀ gen, (s.run (acts ++ [Action.sweep gen])).monitor.engine =
      (Engine.sweep (s.run acts).now gen (s.run acts).monitor.engine).state := by
    intro gen
    rw [run_concat]
    rfl
  refine ⟨hopen.conserves hacts hblank, ?_, ?_, ?_, ?_, ?_, ?_⟩
  · intro history hconserves gen key deadline hlodges
    exact hopen.awaiting_of_lodges hneat rfl hacts hconserves hlodges
  · intro gen history hconserves key deadline hlodges
    exact hopen.swept_of_lodges hneat rfl hacts hconserves hlodges
  · intro gen gen' hboth meanwhile hmeanwhile swept hswept hnow key e he
    have hswept' : Action.shut ∉ swept := by simp [← hswept, hacts, hmeanwhile]
    have hall : Action.shut ∉ swept ++ [Action.sweep gen'] := by simpa using hswept'
    obtain ⟨history, hconserves⟩ := hopen.conserves hall hblank
    exact hopen.live_of_both_swept hneat hboth hswept hswept' hnow hconserves he
  · intro gen
    rw [hengine]
    exact (CarefulEngine.sweep_drops _ gen hreached.sound).fades.live_eq (Nat.le_refl _)
  · intro gen
    rw [hengine]
    exact Engine.sweep_expired hreached.sound _ gen
  · intro gen
    rw [hengine]
    exact CarefulEngine.sweep_keys _ gen hreached.sound

/-- In whatever order an open space of either kind is used, no entry that will expire escapes its
sweeps. -/
theorem no_entry_escapes_sweeps (name : String) (config : SpaceConfig) (now stamp : Nat)
    (cancelled : List Nat) (acts : List (Action κ α)) (hopen : Action.shut ∉ acts) :
    (PerKey.scene name config now stamp cancelled).SweepsReach config acts ∧
      (SingleLock.scene name config now stamp cancelled).SweepsReach config acts := by
  have hperKey := Scene.accounts_start (.new name config : PerKey κ α) rfl rfl now stamp
    cancelled
  have hsingle := Scene.accounts_start (.new name config : SingleLock κ α) rfl rfl now stamp
    cancelled
  have hreach := (PerKey.open_scene name config now stamp cancelled).sweepsReach
    (PerKey.neat_scene name config now stamp cancelled) hperKey hopen
  have hreach' := (SingleLock.open_scene name config now stamp cancelled).sweepsReach
    (SingleLock.neat_scene name config now stamp cancelled) hsingle hopen
  rw [PerKey.scene, Scene.start, Monitor.start_engine] at hreach
  rw [SingleLock.scene, Scene.start, Monitor.start_engine] at hreach'
  exact ⟨hreach, hreach'⟩

theorem no_entry_escapes_sweeps_of_two_lifetimes :
    let acts : List (Action Nat Nat) :=
      [.insert 1 5 600 .tail, .insert 1 6 900000000000 .tail, .call 0
        (.retrieve ⟨1, (· == 7), .take, .forever, none⟩), .insert 2 8 700 .tail,
        .insert 2 9 0 .replace, .advance 650,
        .call 1 (.retrieve ⟨1, (· == 6), .take, .probe, none⟩)]
    Action.shut ∉ acts ∧
      (PerKey.scene "space" {} 0 0 []).SweepsReach {} acts ∧
      (SingleLock.scene "space" {} 0 0 []).SweepsReach {} acts := by
  intro acts
  have hopen : Action.shut ∉ acts := by simp [acts]
  exact ⟨hopen, no_entry_escapes_sweeps "space" {} 0 0 [] acts hopen⟩

end TupleSpace
