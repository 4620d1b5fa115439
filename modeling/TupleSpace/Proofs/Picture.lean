import Mathlib.Data.Set.Basic
import TupleSpace.Proofs.Engine.Exact
import TupleSpace.Proofs.Run.Blocked
import TupleSpace.Proofs.Store.Volume

/-!
# Pictures of an engine

What is to be compared of two engines: the entries under every key, and which of the keys that store
something await a sweep.  Engines trim a queue, give up its storage and forget the sweeps of its key
at different moments, and a picture does not show the difference once the queue is trimmed.  That is
what makes pictures comparable in the middle of a wait: trimming the queue that a waiting call looks
at changes nothing that a later sweep or a later look would not change anyway.

The counters of two engines differ for the same reason, by the expired entries that one of them has
dropped already.  `Engine.Foresees` says what they will be once everything that is stored has been
dropped, and that is the same for both.
-/

namespace TupleSpace

open Bookkeeping SweepBooks

/-- The contents of an engine, and the keys with contents that await a sweep. -/
@[ext]
structure Picture (κ α : Type) where
  stored : Store κ α
  awaiting : Generation → Set κ
  filled : ∀ gen, ∀ key ∈ awaiting gen, stored key ≠ []

namespace Picture

variable {κ α : Type} [DecidableEq κ] {p : Picture κ α} {st st' : Store κ α} {now later : Nat}
  {key : κ}

/-- The picture after contents have gone; keys that are left without any await nothing. -/
def become (p : Picture κ α) (st : Store κ α) : Picture κ α where
  stored := st
  awaiting gen := {key | key ∈ p.awaiting gen ∧ st key ≠ []}
  filled _ _ hkey := hkey.2

/-- The picture after one queue has been rid of its expired entries. -/
def trim (p : Picture κ α) (key : κ) (now : Nat) : Picture κ α :=
  p.become (Function.update p.stored key (Store.live now p.stored key))

open scoped Classical in
/-- The contents after a sweep of a generation. -/
noncomputable def swept (p : Picture κ α) (now : Nat) (gen : Generation) : Store κ α :=
  fun key => if key ∈ p.awaiting gen then Store.live now p.stored key else p.stored key

/-- The picture after a sweep of a generation: a key awaits the next one if something under it will
expire. -/
noncomputable def sweep (p : Picture κ α) (now : Nat) (gen : Generation) : Picture κ α where
  stored := p.swept now gen
  awaiting other := {key | key ∈ p.awaiting other ∧ p.swept now gen key ≠ [] ∧
    (other = gen → (p.swept now gen).Expiring key)}
  filled _ _ hkey := hkey.2.1

/-- The picture after an insertion. -/
def put (p : Picture κ α) (config : SpaceConfig) (key : κ) (e : Entry α) (timeout : Nat)
    (placement : Placement) : Picture κ α where
  stored := Function.update p.stored key
    ((⟨p.stored key⟩ : KeyQueue α).insert e placement).entries
  awaiting gen := {k | k ∈ p.awaiting gen ∨
    (timeout ≠ 0 ∧ gen = config.generationOf timeout ∧ k = key)}
  filled gen k hk := by
    by_cases hsame : k = key
    · rw [hsame, Function.update_self]
      cases placement <;> simp [KeyQueue.insert]
    · rw [Function.update_of_ne hsame]
      exact p.filled gen k (hk.resolve_right fun hnew => hsame hnew.2.2)

omit [DecidableEq κ] in
theorem become_self (p : Picture κ α) : p.become p.stored = p := by
  ext gen key
  · rfl
  · exact ⟨fun hkey => hkey.1, fun hkey => ⟨hkey, p.filled gen key hkey⟩⟩

omit [DecidableEq κ] in
/-- What has gone twice has gone. -/
theorem become_become (hfilled : ∀ key, st' key ≠ [] → st key ≠ []) :
    (p.become st).become st' = p.become st' := by
  ext gen key
  · rfl
  · constructor
    · rintro ⟨⟨hkey, _⟩, hleft⟩
      exact ⟨hkey, hleft⟩
    · rintro ⟨hkey, hleft⟩
      exact ⟨⟨hkey, hfilled key hleft⟩, hleft⟩

theorem trim_stored_self (p : Picture κ α) (key : κ) (now : Nat) :
    (p.trim key now).stored key = Store.live now p.stored key :=
  Function.update_self ..

theorem trim_stored_of_ne (p : Picture κ α) {key k : κ} (hne : k ≠ key) (now : Nat) :
    (p.trim key now).stored k = p.stored k :=
  Function.update_of_ne hne ..

/-- An earlier trimming of the same queue makes no difference. -/
theorem trim_trim (hle : now ≤ later) (p : Picture κ α) (key : κ) :
    (p.trim key now).trim key later = p.trim key later := by
  have hlive : Store.live later (p.trim key now).stored key = Store.live later p.stored key := by
    have hself := p.trim_stored_self key now
    rw [Store.live, hself]
    exact congrFun (Store.live_live hle p.stored) key
  have hstored : Function.update (p.trim key now).stored key
        (Store.live later (p.trim key now).stored key) =
      Function.update p.stored key (Store.live later p.stored key) := by
    rw [hlive]
    exact Function.update_idem ..
  show (p.become _).become _ = p.become _
  rw [hstored]
  apply become_become
  intro k hleft
  by_cases hk : k = key
  · subst hk
    rw [Function.update_self] at hleft ⊢
    rw [← congrFun (Store.live_live hle p.stored) k] at hleft
    intro hnil
    rw [Store.live, hnil] at hleft
    exact hleft rfl
  · rwa [Function.update_of_ne hk] at hleft ⊢

omit [DecidableEq κ] in
theorem swept_of_mem {gen : Generation} (hkey : key ∈ p.awaiting gen) (now : Nat) :
    p.swept now gen key = Store.live now p.stored key :=
  if_pos hkey

omit [DecidableEq κ] in
theorem swept_of_not_mem {gen : Generation} (hkey : key ∉ p.awaiting gen) (now : Nat) :
    p.swept now gen key = p.stored key :=
  if_neg hkey

omit [DecidableEq κ] in
/-- What is live of a queue is so whether it has been swept or not. -/
theorem live_swept (p : Picture κ α) (now : Nat) (gen : Generation) (key : κ) :
    Store.live now (p.swept now gen) key = Store.live now p.stored key := by
  by_cases hkey : key ∈ p.awaiting gen
  · rw [Store.live, swept_of_mem hkey]
    exact congrFun (Store.live_live (Nat.le_refl now) p.stored) key
  · rw [Store.live, swept_of_not_mem hkey]
    rfl

/-- What is left of the contents does not depend on whether a queue is trimmed before a sweep or
after it. -/
theorem swept_trim (p : Picture κ α) (key : κ) (now : Nat) (gen : Generation) :
    ((p.sweep now gen).trim key now).stored = (p.trim key now).swept now gen := by
  funext k
  by_cases hk : k = key
  · subst hk
    have hself := p.trim_stored_self k now
    have hlive : Store.live now (p.trim k now).stored k = Store.live now p.stored k := by
      rw [Store.live, hself]
      exact congrFun (Store.live_live (Nat.le_refl now) p.stored) k
    rw [trim_stored_self]
    apply (p.live_swept now gen k).trans
    by_cases hmem : k ∈ (p.trim k now).awaiting gen
    · rw [swept_of_mem hmem, hlive]
    · rw [swept_of_not_mem hmem, hself]
  · have hother := p.trim_stored_of_ne hk now
    have hiff : k ∈ (p.trim key now).awaiting gen ↔ k ∈ p.awaiting gen := by
      refine ⟨fun hmem => hmem.1, fun hmem => ⟨hmem, ?_⟩⟩
      rw [Function.update_of_ne hk]
      exact p.filled gen k hmem
    rw [trim_stored_of_ne _ hk]
    show p.swept now gen k = _
    by_cases hmem : k ∈ p.awaiting gen
    · rw [swept_of_mem hmem, swept_of_mem (hiff.mpr hmem), Store.live, Store.live, hother]
    · rw [swept_of_not_mem hmem, swept_of_not_mem (fun h => hmem (hiff.mp h)), hother]

/-- A queue may be trimmed before a sweep or after it. -/
theorem trim_sweep (p : Picture κ α) (key : κ) (now : Nat) (gen : Generation) :
    (p.sweep now gen).trim key now = (p.trim key now).sweep now gen := by
  have hstored := p.swept_trim key now gen
  apply Picture.ext hstored
  funext other
  ext k
  let left := (p.trim key now).swept now gen
  have hleft : ((p.sweep now gen).trim key now).stored k = left k := congrFun hstored k
  -- what a queue that has been trimmed and swept still holds, it held before either
  have hswept : left k ≠ [] → p.swept now gen k ≠ [] := by
    rw [← hleft]
    intro hne hnil
    by_cases hk : k = key
    · subst hk
      rw [trim_stored_self, Store.live] at hne
      exact hne (by rw [show (p.sweep now gen).stored k = [] from hnil, List.filter_nil])
    · rw [trim_stored_of_ne _ hk] at hne
      exact hne hnil
  have htrimmed : left k ≠ [] → (p.trim key now).stored k ≠ [] := by
    intro hne hnil
    by_cases hmem : k ∈ (p.trim key now).awaiting gen
    · exact (p.trim key now).filled gen k hmem hnil
    · rw [show left k = _ from swept_of_not_mem hmem now] at hne
      exact hne hnil
  have hsame : k ∈ p.awaiting gen → left k = p.swept now gen k := by
    intro hmem
    rw [← hleft]
    by_cases hk : k = key
    · subst hk
      rw [trim_stored_self]
      exact (p.live_swept now gen k).trans (swept_of_mem hmem now).symm
    · exact trim_stored_of_ne _ hk now
  have hexpiring : k ∈ p.awaiting gen →
      (left.Expiring k ↔ (p.swept now gen).Expiring k) := by
    intro hmem
    rw [Store.Expiring, Store.Expiring, hsame hmem]
  show (k ∈ p.awaiting other ∧ p.swept now gen k ≠ [] ∧
        (other = gen → (p.swept now gen).Expiring k)) ∧
      ((p.sweep now gen).trim key now).stored k ≠ [] ↔
    (k ∈ p.awaiting other ∧ (p.trim key now).stored k ≠ []) ∧ left k ≠ [] ∧
      (other = gen → left.Expiring k)
  rw [hleft]
  by_cases hgen : other = gen
  · subst hgen
    tauto
  · tauto

end Picture

/-! ## Pictures of engines -/

section Engines

variable {σ κ α : Type} [DecidableEq κ] [Engine σ κ α] [SweepBooks σ κ α] {s s' : σ} {now : Nat}

/-- The picture of an engine. -/
def Engine.picture (s : σ) : Picture κ α where
  stored := Engine.stored s
  awaiting gen := {key | key ∈ Engine.awaiting s gen ∧ Engine.stored s key ≠ []}
  filled _ _ hkey := hkey.2

omit [DecidableEq κ] in
theorem Thins.picture (hthins : Thins s s') :
    Engine.picture s' = (Engine.picture s).become (Engine.stored s') := by
  ext gen key
  · rfl
  · constructor
    · rintro ⟨hkey, hfilled⟩
      exact ⟨⟨(hthins.awaiting gen key hfilled).mp hkey, hthins.filled key hfilled⟩, hfilled⟩
    · rintro ⟨⟨hkey, _⟩, hfilled⟩
      exact ⟨(hthins.awaiting gen key hfilled).mpr hkey, hfilled⟩

theorem SweepsOut.picture {gen : Generation} (hsweeps : SweepsOut now gen s s') :
    Engine.picture s' = (Engine.picture s).sweep now gen := by
  have hstored : Engine.stored s' = (Engine.picture s).swept now gen := by
    rw [hsweeps.stored]
    funext key
    by_cases hmem : key ∈ (Engine.picture s).awaiting gen
    · rw [Picture.swept_of_mem hmem, Store.swept, if_pos hmem.1]
      rfl
    · rw [Picture.swept_of_not_mem hmem, Store.swept]
      split
      · rename_i hkey
        have hnil : Engine.stored s key = [] := by
          by_contra hfilled
          exact hmem ⟨hkey, hfilled⟩
        show Store.live now (Engine.stored s) key = Engine.stored s key
        rw [Store.live, hnil, List.filter_nil]
      · rfl
  apply Picture.ext hstored
  funext other
  ext key
  have hbefore : Engine.stored s' key ≠ [] → Engine.stored s key ≠ [] := by
    rw [hsweeps.stored]
    exact Store.swept_filled
  show (key ∈ Engine.awaiting s' other ∧ Engine.stored s' key ≠ []) ↔
    (key ∈ Engine.awaiting s other ∧ Engine.stored s key ≠ []) ∧
      (Engine.picture s).swept now gen key ≠ [] ∧
      (other = gen → ((Engine.picture s).swept now gen).Expiring key)
  rw [← hstored]
  constructor
  · rintro ⟨hkey, hfilled⟩
    obtain ⟨hkey, hexpiring⟩ := (hsweeps.awaiting other key hfilled).mp hkey
    exact ⟨⟨hkey, hbefore hfilled⟩, hfilled, hexpiring⟩
  · rintro ⟨⟨hkey, _⟩, hfilled, hexpiring⟩
    exact ⟨(hsweeps.awaiting other key hfilled).mpr ⟨hkey, hexpiring⟩, hfilled⟩

variable [Bookkeeping σ κ α]

/-- While nobody waits, whatever awaits a sweep stores something. -/
theorem Engine.mem_picture_awaiting [ExactEngine σ κ α] (hsound : Sound s fun _ => 0)
    (hneat : Neat s) (gen : Generation) (key : κ) :
    key ∈ (Engine.picture s).awaiting gen ↔ key ∈ Engine.awaiting s gen := by
  constructor
  · exact fun hkey => hkey.1
  · intro hkey
    exact ⟨hkey, ExactEngine.stored_ne_nil hsound (ExactEngine.mem_keys_of_awaiting hneat hkey)⟩

theorem Puts.picture [ExactEngine σ κ α] {key : κ} {e : Entry α} {placement : Placement}
    {timeout : Nat} {w : Headcount κ} {t : Turn σ (Except SpaceError Unit)}
    (hputs : Puts w key e placement s t) (hregisters : Registers key timeout s t.state)
    (hsound : Sound s fun _ => 0) (hneat : Neat s) :
    Engine.picture t.state =
      (Engine.picture s).put (Engine.config s) key e timeout placement := by
  apply Picture.ext hputs.stored
  funext gen
  ext k
  have hmem := Engine.mem_picture_awaiting hsound hneat gen k
  have hput := ((Engine.picture s).put (Engine.config s) key e timeout placement).filled gen k
  have hstored : ((Engine.picture s).put (Engine.config s) key e timeout placement).stored =
      Engine.stored t.state := hputs.stored.symm
  rw [hstored] at hput
  constructor
  · rintro ⟨hkey, _⟩
    rcases (hregisters.awaiting gen k).mp hkey with hold | hnew
    · exact .inl (hmem.mpr hold)
    · exact .inr hnew
  · intro hkey
    refine ⟨(hregisters.awaiting gen k).mpr ?_, hput hkey⟩
    exact hkey.imp_left hmem.mp

end Engines

/-! ## Counters -/

namespace Metrics

variable {κ α : Type}

/-- What is foreseen of the counters after a call: what has been taken will not expire. -/
def afterCall (m : Metrics) (q : Request κ α) (outcome : Option (Outcome α)) : Metrics :=
  match q, outcome with
  | .retrieve q, some (.ok (.found (some _))) =>
    match q.mode with
    | .take => { m.count .take with expired := m.expired - 1 }
    | .read => m.count .read
  | .retrieve q, some (.ok (.found none)) => m.count (PerKey.missEvent q.patience)
  | _, _ => m

/-- What is foreseen of the counters after an insertion in front of, behind or in place of some
entries: what is replaced will not expire. -/
def afterInsert (m : Metrics) (old new : List (Entry α)) : Metrics :=
  { m.count .insert with expired := m.expired - old.length + new.length }

/-- A miss may be counted before some entries expire or after it. -/
theorem countExpired_miss (m : Metrics) (patience : Patience) (k n : Nat) :
    ((m.countExpired k).count (PerKey.missEvent patience)).observed.countExpired n =
      (m.observed.countExpired (k + n)).count (PerKey.missEvent patience) := by
  cases patience <;>
    simp only [PerKey.missEvent, count, countExpired, observed, Nat.add_assoc]

end Metrics

namespace Engine

variable {σ κ α : Type} [DecidableEq κ] [Engine σ κ α] {s : σ} {now n : Nat} {m m' : Metrics}

omit [DecidableEq κ] in
/-- What the counters will be once everything that is stored has expired and has been dropped. -/
def Foresees (s : σ) (m : Metrics) : Prop :=
  ∃ n, Store.Holds (Engine.stored s) n ∧ (Engine.metrics s).observed.countExpired n = m

/-- Engines that store the same and foresee the same count the same. -/
theorem Foresees.observed_eq {τ : Type} [Engine τ κ α] {s' : τ} (hm : Foresees s m)
    (hm' : Foresees s' m) (hstored : Engine.stored s' = Engine.stored s) :
    (Engine.metrics s').observed = (Engine.metrics s).observed := by
  obtain ⟨n, hn, rfl⟩ := hm
  obtain ⟨n', hn', heq⟩ := hm'
  rw [hstored] at hn'
  rw [hn'.unique hn] at heq
  simpa [Metrics.countExpired, Metrics.observed] using heq

/-- Dropping what has expired was foreseen. -/
theorem Foresees.drops {β : Type} {t : Turn σ β} (hm : Foresees s m)
    (hdrops : Drops now n s t) : Foresees t.state m := by
  obtain ⟨k, hk, rfl⟩ := hm
  obtain ⟨k', hk', rfl⟩ := hdrops.fades.holds hk
  refine ⟨k', hk', ?_⟩
  rw [hdrops.metrics, Metrics.observed_countExpired, Metrics.countExpired_countExpired]

variable [Bookkeeping σ κ α]

theorem Foresees.puts {w : Headcount κ} {key : κ} {e : Entry α} {placement : Placement}
    {t : Turn σ (Except SpaceError Unit)} (hm : Foresees s m)
    (hputs : Puts w key e placement s t) :
    Foresees t.state (m.afterInsert (Engine.stored s key)
      ((⟨Engine.stored s key⟩ : KeyQueue α).insert e placement).entries) := by
  obtain ⟨k, hk, rfl⟩ := hm
  have hle := hk.length_le key
  refine ⟨_, hputs.stored ▸ hk.update key _, ?_⟩
  rw [hputs.metrics]
  simp only [Metrics.afterInsert, Metrics.observed, Metrics.count, Metrics.countExpired,
    Metrics.mk.injEq, true_and, and_true]
  omega

omit [Bookkeeping σ κ α] in
theorem Foresees.serves {cancelled : Bool} {q : Request κ α} {st : Store κ α}
    {t : Turn σ (Progress α)} (hm : Foresees s m)
    (hserves : Serves now cancelled q n st s t) :
    Foresees t.state (m.afterCall q (Monitor.ended? t.result)) := by
  obtain ⟨k, hk, rfl⟩ := hm
  obtain ⟨hfades, hlooks, hmetrics⟩ := hserves
  obtain ⟨k', hk', rfl⟩ := hfades.holds hk
  unfold Foresees
  generalize t.result = progress at hlooks hmetrics ⊢
  generalize Engine.stored t.state = st' at hlooks ⊢
  have hnothing : ((Engine.metrics s).countExpired n).observed.countExpired k' =
      (Engine.metrics s).observed.countExpired (n + k') := by
    rw [Metrics.observed_countExpired, Metrics.countExpired_countExpired]
  cases hlooks with
  | @found q st before after e stored passed live accepted =>
      cases hmode : q.mode with
      | read =>
          refine ⟨k', hk', ?_⟩
          rw [hmetrics]
          simp only [Metrics.afterCall, Monitor.ended?, Request.tally, PerKey.foundEvent, hmode,
            Metrics.countAny, Metrics.count, Metrics.countExpired, Metrics.observed, Nat.add_assoc]
      | take =>
          have hleft := hk'.update q.key (before ++ after)
          have hle := hk'.length_le q.key
          rw [stored] at hleft hle
          simp only [List.length_append, List.length_cons] at hleft hle
          refine ⟨_, hleft, ?_⟩
          rw [hmetrics]
          simp only [Metrics.afterCall, Monitor.ended?, Request.tally, PerKey.foundEvent, hmode,
            Metrics.countAny, Metrics.count, Metrics.countExpired, Metrics.observed,
            Metrics.mk.injEq, true_and, and_true]
          omega
  | gaveUp =>
      refine ⟨k', hk', ?_⟩
      rw [hmetrics]
      exact Metrics.countExpired_miss _ _ n k'
  | waits | drained | lasts | lingers | present | absent | watches =>
      refine ⟨k', hk', ?_⟩
      rw [hmetrics]
      exact hnothing

end Engine

end TupleSpace
