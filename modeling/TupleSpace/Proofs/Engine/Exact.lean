import Mathlib.Data.List.Basic
import TupleSpace.Proofs.Engine.Lawful
import TupleSpace.Proofs.Generations

/-!
# What exactly an engine leaves

The laws of an engine say how many expired entries an operation drops, but not which, and they do
not mention the keys that await a sweep.  Here both are said in full.  A scan of one queue drops
what it passes, a sweep drops everything that has expired under the keys that awaited it, and a key
awaits a sweep from the insertion of an entry that will expire until it is swept, or until its
storage is given up.

Engines give storage up at different moments, and with it the sweeps that the key awaits.  So the
laws speak of the keys that store something, and of the others only between two operations of a
space in which nobody waits.
-/

namespace TupleSpace

open Bookkeeping

/-! ## What operations leave -/

section Stores

variable {κ α : Type} [DecidableEq κ] {now : Nat}

/-- How far a take or a read gets with what its scan has found. -/
def Retrieval.Comes (q : Retrieval κ α) (spent : Bool) : Option α → Progress α → Prop
  | some v, progress => progress = .finished (.ok (.found (some v)))
  | none, progress =>
    if spent then progress = .finished (.ok (.found none))
    else ∃ on, progress = .waiting on q.patience.deadline?

omit [DecidableEq κ] in
/-- A scan of nothing. -/
theorem PerKey.scanQueue_nil (now : Nat) (mode : Mode) (accepts : α → Bool) :
    PerKey.scanQueue now mode accepts ⟨[]⟩ = ⟨⟨[]⟩, none, 0⟩ := by
  cases mode <;> rfl

omit [DecidableEq κ] in
/-- A scan leaves entries only where there were some. -/
theorem PerKey.scanQueue_filled {mode : Mode} {accepts : α → Bool} {q : KeyQueue α}
    (hfilled : (PerKey.scanQueue now mode accepts q).queue.entries ≠ []) : q.entries ≠ [] := by
  intro hnil
  rw [show q = ⟨[]⟩ from congrArg KeyQueue.mk hnil, scanQueue_nil] at hfilled
  exact hfilled rfl

namespace Store

/-- The store after a look for a live entry under some keys in turn, up to the first that has
one. -/
def glanced (now : Nat) : List κ → Store κ α → Store κ α
  | [], st => st
  | key :: rest, st =>
    let trimmed := (st key).dropWhile (·.isExpired now)
    if trimmed.isEmpty then glanced now rest (Function.update st key trimmed)
    else Function.update st key trimmed

/-- The store after the queues of some keys have been swept. -/
def swept (now : Nat) (keys : List κ) (st : Store κ α) : Store κ α :=
  fun key => if key ∈ keys then live now st key else st key

/-- Whether an entry under a key will expire. -/
def Expiring (st : Store κ α) (key : κ) : Prop :=
  ∃ e ∈ st key, e.expiresAt.isSome = true

theorem swept_nil (now : Nat) (st : Store κ α) : swept now [] st = st := by
  funext key
  rw [swept, if_neg List.not_mem_nil]

theorem swept_singleton (now : Nat) (key : κ) (st : Store κ α) :
    swept now [key] st = Function.update st key ((st key).filter (·.isLive now)) := by
  funext k
  by_cases hk : k = key
  · subst hk
    simp [swept, live]
  · simp [swept, hk]

omit [DecidableEq κ] in
/-- A purge finds out whether an entry that will expire stays. -/
theorem expiring_iff_purgeExpired {st : Store κ α} {key : κ} {q : KeyQueue α}
    (hstored : st key = (q.purgeExpired now).queue.entries) :
    st.Expiring key ↔ (q.purgeExpired now).found = true := by
  rw [Expiring, hstored, KeyQueue.purgeExpired, List.any_eq_true]

/-- Sweeping some keys leaves nothing where nothing was. -/
theorem swept_filled {keys : List κ} {st : Store κ α} {key : κ}
    (hfilled : swept now keys st key ≠ []) : st key ≠ [] := by
  intro hnil
  apply hfilled
  unfold swept
  split
  · rw [live, hnil, List.filter_nil]
  · exact hnil

/-- Sweeping one key and then others is sweeping all of them. -/
theorem swept_cons (now : Nat) (key : κ) (keys : List κ) (st : Store κ α) :
    swept now keys (swept now [key] st) = swept now (key :: keys) st := by
  funext k
  by_cases hk : k = key
  · subst hk
    by_cases hmem : k ∈ keys <;> simp [swept, live, hmem]
  · by_cases hmem : k ∈ keys <;> simp [swept, live, hk, hmem]

end Store

/-- What a sweep of some keys reports when nobody waits. -/
def SweepReport.of (now : Nat) (st : Store κ α) (keys : List κ) : SweepReport where
  keys := keys.length
  expired := (keys.flatMap st).countP (·.isExpired now)
  recordsRemoved := keys.countP fun key => (Store.live now st key).isEmpty

/-- Two reports in one. -/
def SweepReport.plus (r r' : SweepReport) : SweepReport where
  keys := r.keys + r'.keys
  expired := r.expired + r'.expired
  recordsRemoved := r.recordsRemoved + r'.recordsRemoved

namespace SweepReport

theorem plus_assoc (r r' r'' : SweepReport) : (r.plus r').plus r'' = r.plus (r'.plus r'') := by
  simp only [plus, Nat.add_assoc]

theorem zero_plus (r : SweepReport) : ({} : SweepReport).plus r = r := by
  simp [plus]

omit [DecidableEq κ] in
theorem of_cons (now : Nat) (st : Store κ α) (key : κ) (keys : List κ) :
    SweepReport.of now st (key :: keys) = (SweepReport.of now st [key]).plus (.of now st keys) := by
  simp only [of, plus, List.length_cons, List.flatMap_cons, List.countP_append, List.countP_cons,
    List.length_nil, List.flatMap_nil, List.countP_nil, mk.injEq]
  omega

omit [DecidableEq κ] in
/-- A report speaks of the keys that were swept only. -/
theorem of_congr {st st' : Store κ α} {keys : List κ} (hsame : ∀ key ∈ keys, st' key = st key) :
    SweepReport.of now st' keys = .of now st keys := by
  have hcount : keys.countP (fun key => (Store.live now st' key).isEmpty) =
      keys.countP fun key => (Store.live now st key).isEmpty :=
    List.countP_congr fun key hkey => by rw [Store.live, Store.live, hsame key hkey]
  rw [of, of, List.flatMap_congr hsame, hcount]

omit [DecidableEq κ] in
/-- The order of the keys makes no difference to a report. -/
theorem of_perm (st : Store κ α) {keys keys' : List κ} (hperm : keys.Perm keys') :
    SweepReport.of now st keys = .of now st keys' := by
  rw [of, of, hperm.length_eq, (hperm.flatMap_right st).countP_eq, hperm.countP_eq]

end SweepReport

end Stores

/-! ## The laws -/

/-- The books that an engine keeps on the keys that await a sweep. -/
class SweepBooks (σ : Type) (κ α : outParam Type) [Engine σ κ α] where
  /-- Each key that awaits a sweep does so once in each generation, and is a key of the engine. -/
  Neat : σ → Prop

open SweepBooks

section Operations

variable {σ κ α : Type} [DecidableEq κ] [Engine σ κ α] [SweepBooks σ κ α] {s s' s'' : σ}
  {now : Nat}

/-- Nothing has been added to a state, and the keys that still store something await what they
awaited. -/
structure Thins (s s' : σ) : Prop where
  filled : ∀ key, Engine.stored s' key ≠ [] → Engine.stored s key ≠ []
  awaiting : ∀ gen key, Engine.stored s' key ≠ [] →
    (key ∈ Engine.awaiting s' gen ↔ key ∈ Engine.awaiting s gen)
  neat : Neat s → Neat s'

omit [DecidableEq κ] in
theorem Thins.refl (s : σ) : Thins s s := ⟨fun _ h => h, fun _ _ _ => Iff.rfl, id⟩

omit [DecidableEq κ] in
theorem Thins.trans (hfirst : Thins s s') (hsecond : Thins s' s'') : Thins s s'' where
  filled key hfilled := hfirst.filled key (hsecond.filled key hfilled)
  awaiting gen key hfilled :=
    (hsecond.awaiting gen key hfilled).trans
      (hfirst.awaiting gen key (hsecond.filled key hfilled))
  neat hneat := hsecond.neat (hfirst.neat hneat)

/-- A take or a read has scanned the queue of its key, and left everything else alone. -/
structure Retrieves (now : Nat) (cancelled : Bool) (q : Retrieval κ α) (s : σ)
    (t : Turn σ (Progress α)) : Prop where
  thins : Thins s t.state
  stored : Engine.stored t.state = Function.update (Engine.stored s) q.key
    (PerKey.scanQueue now q.mode q.accepts ⟨Engine.stored s q.key⟩).queue.entries
  comes : q.Comes (q.patience.isOver now || cancelled)
    (PerKey.scanQueue now q.mode q.accepts ⟨Engine.stored s q.key⟩).found t.result

/-- A step before a scan that changes no contents. -/
theorem Retrieves.of_thins {cancelled : Bool} {q : Retrieval κ α} {t : Turn σ (Progress α)}
    (hretrieves : Retrieves now cancelled q s' t) (hthins : Thins s s')
    (hstored : Engine.stored s' = Engine.stored s) : Retrieves now cancelled q s t where
  thins := hthins.trans hretrieves.thins
  stored := hstored ▸ hretrieves.stored
  comes := hstored ▸ hretrieves.comes

/-- An insertion has made its key await a sweep if its entry will expire. -/
structure Registers (key : κ) (timeout : Nat) (s s' : σ) : Prop where
  awaiting : ∀ gen k, k ∈ Engine.awaiting s' gen ↔ k ∈ Engine.awaiting s gen ∨
    (timeout ≠ 0 ∧ gen = (Engine.config s).generationOf timeout ∧ k = key)
  neat : Neat s'

/-- The queues of some keys have been swept; keys with an entry that will expire await the next
sweep. -/
structure Sweeps (now : Nat) (gen : Generation) (keys : List κ) (s s' : σ) : Prop where
  stored : Engine.stored s' = Store.swept now keys (Engine.stored s)
  awaiting : ∀ other key, Engine.stored s' key ≠ [] →
    (key ∈ Engine.awaiting s' other ↔ key ∈ Engine.awaiting s other ∨
      (other = gen ∧ key ∈ keys ∧ Store.Expiring (Engine.stored s') key))
  neat : Neat s → Neat s'

theorem Sweeps.nil (now : Nat) (gen : Generation) (s : σ) : Sweeps now gen [] s s where
  stored := (Store.swept_nil now _).symm
  awaiting other key _ := by simp
  neat := id

theorem Sweeps.cons {gen : Generation} {key : κ} {keys : List κ}
    (hfirst : Sweeps now gen [key] s s') (hothers : Sweeps now gen keys s' s'') :
    Sweeps now gen (key :: keys) s s'' where
  stored := by rw [hothers.stored, hfirst.stored, Store.swept_cons]
  awaiting other k hfilled := by
    have hbefore : Engine.stored s' k ≠ [] := by
      rw [hothers.stored] at hfilled
      exact Store.swept_filled hfilled
    -- what the first key has kept is not touched again
    have hsame : k = key → Engine.stored s'' k = Engine.stored s' k := by
      intro hk
      rw [hothers.stored, hfirst.stored, hk]
      by_cases hmem : key ∈ keys <;> simp [Store.swept, Store.live, hmem]
    rw [hothers.awaiting other k hfilled, hfirst.awaiting other k hbefore, List.mem_singleton,
      List.mem_cons]
    by_cases hk : k = key
    · have hexpiring : Store.Expiring (Engine.stored s'') k ↔
          Store.Expiring (Engine.stored s') k := by
        rw [Store.Expiring, Store.Expiring, hsame hk]
      tauto
    · tauto
  neat hneat := hothers.neat (hfirst.neat hneat)

/-- A generation has been swept: of its keys those await the next sweep that still have an entry
that will expire. -/
structure SweepsOut (now : Nat) (gen : Generation) (s s' : σ) : Prop where
  stored : Engine.stored s' = Store.swept now (Engine.awaiting s gen) (Engine.stored s)
  awaiting : ∀ other key, Engine.stored s' key ≠ [] →
    (key ∈ Engine.awaiting s' other ↔ key ∈ Engine.awaiting s other ∧
      (other = gen → Store.Expiring (Engine.stored s') key))
  neat : Neat s'

/-- Sweeping the keys of a generation that has been emptied before. -/
theorem Sweeps.sweepsOut {gen : Generation}
    (hsweeps : Sweeps now gen (Engine.awaiting s gen) s' s'')
    (hstored : Engine.stored s' = Engine.stored s)
    (hemptied : ∀ other,
      Engine.awaiting s' other = if other = gen then [] else Engine.awaiting s other)
    (hneat : Neat s') : SweepsOut now gen s s'' where
  stored := by rw [hsweeps.stored, hstored]
  awaiting other key hfilled := by
    rw [hsweeps.awaiting other key hfilled, hemptied]
    by_cases hsame : other = gen
    · subst hsame
      simp
    · simp [hsame]
  neat := hsweeps.neat hneat

end Operations

/-- What exactly the operations of an open engine leave. -/
class ExactEngine (σ : Type) (κ α : outParam Type) [DecidableEq κ] [Engine σ κ α]
    [Bookkeeping σ κ α] [SweepBooks σ κ α] : Prop where
  awaiting_nodup : ∀ {s : σ}, Neat s → ∀ gen, (Engine.awaiting s gen).Nodup
  mem_keys_of_awaiting : ∀ {s : σ} {gen : Generation} {key : κ}, Neat s →
    key ∈ Engine.awaiting s gen → key ∈ Engine.keys s
  /-- While nobody waits, every key stores something. -/
  stored_ne_nil : ∀ {s : σ} {key : κ}, Sound s (fun _ => 0) → key ∈ Engine.keys s →
    Engine.stored s key ≠ []
  insert_exact : ∀ {s : σ} {now : Nat} (key : κ) {value : α} {timeout : Nat} {e : Entry α}
    (placement : Placement), Engine.isClosed s = false → Neat s →
    Entry.withTimeout? value timeout now = some e →
    Registers key timeout s (Engine.insert now key value timeout placement s).state
  attempt_exact : ∀ {s : σ} (now : Nat) (cancelled : Bool) (q : Retrieval κ α),
    Engine.isClosed s = false →
    Retrieves now cancelled q s (Engine.attempt now cancelled (.retrieve q) s)
  resume_exact : ∀ {s : σ} (now : Nat) (cancelled : Bool) {q : Retrieval κ α} {on : Condition},
    Engine.isClosed s = false → Awaits s (.retrieve q) on →
    Retrieves now cancelled q s (Engine.resume now cancelled (.retrieve q) on s)
  existsAny_exact : ∀ {s : σ} (now : Nat) (keys : List κ), Engine.isClosed s = false →
    Thins s (Engine.existsAny now keys s).state ∧
      Engine.stored (Engine.existsAny now keys s).state =
        Store.glanced now keys (Engine.stored s)
  /-- A call that waits for one of some keys looks at them, and leaves everything else alone. -/
  attempt_presence : ∀ (s : σ) (now : Nat) (cancelled : Bool) (keys : List κ)
    (deadline : Option Nat),
    (Engine.attempt now cancelled (.presence keys deadline) s).state =
      (Engine.existsAny now keys s).state
  resume_presence : ∀ (s : σ) (now : Nat) (cancelled : Bool) (keys : List κ)
    (deadline : Option Nat) (on : Condition),
    (Engine.resume now cancelled (.presence keys deadline) on s).state =
      (Engine.existsAny now keys s).state
  sweep_exact : ∀ {s : σ} (now : Nat) (gen : Generation), Engine.isClosed s = false → Neat s →
    SweepsOut now gen s (Engine.sweep now gen s).state
  /-- A sweep while nobody waits gives up the storage of every key that it leaves empty. -/
  sweep_report : ∀ {s : σ} (now : Nat) (gen : Generation), Sound s (fun _ => 0) →
    Engine.isClosed s = false → Neat s →
    (Engine.sweep now gen s).result =
      .of now (Engine.stored s) (Engine.awaiting s gen)

end TupleSpace
