import TupleSpace.Proofs.Directory.Uri
import TupleSpace.Proofs.Worlds.Operations

/-!
# What a directory keeps

Under every normal form a directory keeps the space that it made last, and that space has the normal
form for its name.  So a space is kept under one normal form only, and as long as a space that was
made for a normal form is open, it is the one that is kept there: a lookup makes another one only
once it has been closed.
-/

namespace TupleSpace

namespace Directory

variable {d : Directory} {name other : String} {i : Nat}

/-! ## Slots -/

theorem slot?_evict (d : Directory) (name other : String) :
    (d.evict name).slot? other = if other = name then none else d.slot? other := by
  unfold slot? evict
  split
  · rename_i hsame
    rw [List.find?_eq_none.mpr, Option.map_none]
    intro x hx
    obtain ⟨_, hne⟩ := List.mem_filter.mp hx
    simpa [hsame] using hne
  · rename_i hne
    rw [List.find?_filter]
    congr 2
    funext x
    by_cases hx : x.1 = other <;> simp [hx, hne]

theorem slot?_cache (d : Directory) (name other : String) (i : Nat) :
    (d.cache name i).slot? other = if other = name then some i else d.slot? other := by
  have hothers := slot?_evict d name other
  unfold slot? evict at hothers
  unfold slot? cache
  rw [List.find?_append, Option.map_or, hothers]
  by_cases hsame : other = name
  · simp [hsame]
  · have hlast : ([(name, i)].find? fun s => s.1 == other) = none := by
      simpa using fun h : name = other => hsame h.symm
    rw [if_neg hsame, if_neg hsame, hlast, Option.map_none, Option.or_none]

theorem nodup_evict (hnodup : (d.slots.map Prod.fst).Nodup) (name : String) :
    ((d.evict name).slots.map Prod.fst).Nodup :=
  (List.filter_sublist.map Prod.fst).nodup hnodup

theorem nodup_cache (hnodup : (d.slots.map Prod.fst).Nodup) (name : String) (i : Nat) :
    ((d.cache name i).slots.map Prod.fst).Nodup := by
  rw [cache, List.map_append, List.nodup_append]
  refine ⟨nodup_evict hnodup name, List.nodup_singleton _, ?_⟩
  intro a ha b hb
  obtain ⟨x, hx, rfl⟩ := List.mem_map.mp ha
  rw [List.mem_singleton.mp hb]
  simpa using (List.mem_filter.mp hx).2

theorem mem_of_slot? (hslot : d.slot? name = some i) : (name, i) ∈ d.slots := by
  obtain ⟨⟨other, j⟩, hfound, rfl⟩ := Option.map_eq_some_iff.mp hslot
  have hname := List.find?_some hfound
  cases beq_iff_eq.mp hname
  exact List.mem_of_find?_eq_some hfound

/-- Schemes that have a factory keep one. -/
theorem isSome_factory?_register (d : Directory) (scheme : String) (factory : Factory)
    {other : String} (hsome : (d.factory? other).isSome = true) :
    ((d.register scheme factory).factory? other).isSome = true := by
  simp only [factory?, register, Option.isSome_map, List.find?_isSome] at hsome ⊢
  obtain ⟨x, hx, hname⟩ := hsome
  by_cases hsame : x.1 = String.ofList (SpaceUri.lowerScheme scheme.toList)
  · exact ⟨_, List.mem_append_right _ (List.mem_singleton_self _), hsame ▸ hname⟩
  · exact ⟨x, List.mem_append_left _ (List.mem_filter.mpr ⟨hx, bne_iff_ne.mpr hsame⟩), hname⟩

end Directory

/-- A factory that comes with the directory. -/
def Factory.isBuiltIn : Factory → Bool
  | .perKey | .singleLock | .persistent => true
  | .referring | .refusing _ => false

namespace World

variable {w v x : World} {i k : Nat} {name other : String} {s s' : Space}

theorem Holds.name_unique (hholds : w.Holds none i name s) (hholds' : w.Holds none i other s') :
    name = other := by
  cases hholds.space.symm.trans hholds'.space
  exact hholds.intact.name_eq.symm.trans hholds'.intact.name_eq

theorem isClosedSpace_of_some (hspace : w.spaces[i]? = some s) :
    w.isClosedSpace i = s.isClosed := by
  rw [isClosedSpace, hspace]
  rfl

/-- A space that is open was open before. -/
theorem Leads.isClosedSpace (hleads : Leads none w none v) (hholds : w.Holds none i name s)
    (hopen : v.isClosedSpace i = false) : w.isClosedSpace i = false := by
  obtain ⟨s', hholds', hbecomes⟩ := hleads.kept hholds
  rw [isClosedSpace_of_some hholds'.space] at hopen
  rw [isClosedSpace_of_some hholds.space]
  by_contra hclosed
  exact Bool.noConfusion (hopen.symm.trans (hbecomes.closed (Bool.not_eq_false _ ▸ hclosed)))

theorem Works.directoryOf_eq (hworks : Works none w none v) : v.directoryOf = w.directoryOf := by
  rw [directoryOf, hworks.directory, directoryOf]

/-! ## What is kept -/

/-- A directory in order: it has no name twice, keeps under each name a space of that name, and each
name is the normal form of a string whose scheme has a factory. -/
structure Filed (w : World) : Prop where
  nodup : (w.directoryOf.slots.map Prod.fst).Nodup
  holds : ∀ {name i}, w.directoryOf.slot? name = some i → ∃ s, w.Holds none i name s
  normal : ∀ {name i}, w.directoryOf.slot? name = some i → ∃ u : SpaceUri,
    u.Normal ∧ u.text = name ∧ (w.directoryOf.factory? u.scheme).isSome = true

/-- A space that was made for a normal form: as long as it is open, the directory keeps it there. -/
structure Kept (w : World) (i : Nat) (name : String) : Prop where
  holds : ∃ s, w.Holds none i name s
  slot : w.isClosedSpace i = false → w.directoryOf.slot? name = some i

/-- What everybody does to a directory. -/
structure Serves (w v : World) : Prop where
  leads : Leads none w none v
  factories : ∀ {scheme}, (w.directoryOf.factory? scheme).isSome = true →
    (v.directoryOf.factory? scheme).isSome = true
  filed : w.Filed → v.Filed
  kept : ∀ {i name}, w.Kept i name → v.Kept i name

theorem Serves.trans (hfirst : Serves w v) (hsecond : Serves v x) : Serves w x where
  leads := hfirst.leads.trans hsecond.leads
  factories := hsecond.factories ∘ hfirst.factories
  filed := hsecond.filed ∘ hfirst.filed
  kept := hsecond.kept ∘ hfirst.kept

/-- A directory may forget spaces that are closed. -/
theorem Serves.forget {d : Directory} (hleads : Leads none w none v)
    (hdirectory : v.directoryOf = d)
    (hfactories : ∀ {scheme}, (w.directoryOf.factory? scheme).isSome = true →
      (d.factory? scheme).isSome = true)
    (hnodup : (w.directoryOf.slots.map Prod.fst).Nodup → (d.slots.map Prod.fst).Nodup)
    (hslots : ∀ {name i}, d.slot? name = some i → w.directoryOf.slot? name = some i)
    (hopen : ∀ {name i}, w.Kept i name → w.directoryOf.slot? name = some i →
      v.isClosedSpace i = false → d.slot? name = some i) : Serves w v := by
  subst hdirectory
  refine ⟨hleads, hfactories, fun hfiled => ?_, fun {i name} hkept => ?_⟩
  · refine ⟨hnodup hfiled.nodup, fun {name i} hslot => ?_, fun {name i} hslot => ?_⟩
    · obtain ⟨s, hholds⟩ := hfiled.holds (hslots hslot)
      obtain ⟨s', hholds', _⟩ := hleads.kept hholds
      exact ⟨s', hholds'⟩
    · obtain ⟨u, hnormal, htext, hfactory⟩ := hfiled.normal (hslots hslot)
      exact ⟨u, hnormal, htext, hfactories hfactory⟩
  · obtain ⟨s, hholds⟩ := hkept.holds
    obtain ⟨s', hholds', _⟩ := hleads.kept hholds
    exact ⟨⟨s', hholds'⟩, fun hstill =>
      hopen hkept (hkept.slot (hleads.isClosedSpace hholds hstill)) hstill⟩

/-- The spaces have gone on and the directory has been left alone. -/
theorem Serves.of_works (hworks : Works none w none v) : Serves w v :=
  .forget hworks.toLeads hworks.directoryOf_eq id id id fun _ hslot _ => hslot

theorem Serves.refl (w : World) : Serves w w := .of_works (.refl none w)

/-- A space that the directory keeps under a normal form and that is open is found there. -/
theorem cached?_eq_some_iff :
    w.cached? name = some i ↔
      w.directoryOf.slot? name = some i ∧ w.isClosedSpace i = false := by
  unfold cached?
  cases w.directoryOf.slot? name with
  | none => simp
  | some j =>
      simp only [Option.bind_some, Option.some.injEq]
      cases hclosed : w.isClosedSpace j with
      | true => simpa using fun h : j = i => h ▸ hclosed
      | false => simpa using fun h : j = i => h ▸ hclosed

/-- A new space takes the place of one that is closed, if there was any. -/
theorem Serves.cache (hserves : Serves w v) {u : SpaceUri} (hnone : w.cached? u.text = none)
    (hholds : v.Holds none k u.text s) (hnormal : u.Normal)
    (hfactory : (v.directoryOf.factory? u.scheme).isSome = true) :
    Serves w { v with directory := some (v.directoryOf.cache u.text k) } := by
  have hcached : Leads none v none
      { v with directory := some (v.directoryOf.cache u.text k) } := .of_spaces rfl rfl rfl id
  refine ⟨hserves.leads.trans hcached, hserves.factories, fun hfiled => ?_,
    fun {i name} hkept => ?_⟩
  · have hbefore := hserves.filed hfiled
    refine ⟨Directory.nodup_cache hbefore.nodup u.text k, fun {name i} hslot => ?_,
      fun {name i} hslot => ?_⟩
    · replace hslot := (Directory.slot?_cache _ u.text name k).symm.trans hslot
      split at hslot
      · rename_i hsame
        subst hsame
        cases hslot
        exact ⟨s, hholds.space, hholds.intact⟩
      · obtain ⟨y, hy⟩ := hbefore.holds hslot
        exact ⟨y, hy.space, hy.intact⟩
    · replace hslot := (Directory.slot?_cache _ u.text name k).symm.trans hslot
      split at hslot
      · rename_i hsame
        exact ⟨u, hnormal, hsame.symm, hfactory⟩
      · exact hbefore.normal hslot
  · obtain ⟨y, hy⟩ := hkept.holds
    obtain ⟨y', hy', _⟩ := hserves.leads.kept hy
    refine ⟨⟨y', hy'.space, hy'.intact⟩, fun hopen => ?_⟩
    replace hopen : v.isClosedSpace i = false := hopen
    show (v.directoryOf.cache u.text k).slot? name = some i
    have hwasOpen := hserves.leads.isClosedSpace hy hopen
    have hne : name ≠ u.text := by
      rintro rfl
      rw [cached?_eq_some_iff.mpr ⟨hkept.slot hwasOpen, hwasOpen⟩] at hnone
      cases hnone
    rw [Directory.slot?_cache, if_neg hne]
    exact (hserves.kept hkept).slot hopen

/-! ## Making spaces -/

/-- What comes of making a space for a normal form: if it succeeds, a new space of that name. -/
def Makes (w : World) (name : String) (r : World × Except SpaceError Nat) : Prop :=
  Serves w r.1 ∧ ∀ k, r.2 = .ok k → w.spaces.size ≤ k ∧ ∃ s, r.1.Holds none k name s

theorem Serves.makes_error (hserves : Serves w v) (name : String) (e : SpaceError) :
    w.Makes name (v, .error e) := by
  refine ⟨hserves, fun k hk => ?_⟩
  cases hk

theorem makes_addOpened {opened : Except SpaceError Space}
    (hfresh : ∀ s, opened = .ok s → s.Fresh name w.now w.cancelled) :
    w.Makes name (w.addOpened opened) := by
  refine ⟨.of_works (works_addOpened hfresh), fun k hk => ?_⟩
  cases opened with
  | error e => cases hk
  | ok s =>
      cases hk
      exact ⟨Nat.le_refl _, s, Array.getElem?_push_size, (hfresh s rfl).intact⟩

/-- What comes of looking up a directory string: if it succeeds, the space that was kept under its
normal form, or else a new one that is kept there from now on. -/
def LooksUp (w : World) (text : String) (r : World × Except SpaceError Nat) : Prop :=
  Serves w r.1 ∧ ∀ i, r.2 = .ok i → ∃ u, SpaceUri.parse text = .ok u ∧
    r.1.directoryOf.slot? u.text = some i ∧
    (w.cached? u.text = some i ∨ w.cached? u.text = none ∧ w.spaces.size ≤ i)

theorem Serves.looksUp_error (hserves : Serves w v) (text : String) (e : SpaceError) :
    w.LooksUp text (v, .error e) := by
  refine ⟨hserves, fun i hi => ?_⟩
  cases hi

theorem makes_makeReferring {lookup : World → String → World × Except SpaceError Nat}
    (hlookup : ∀ w text, LooksUp w text (lookup w text)) (w : World) (u : SpaceUri)
    (config : SpaceConfig) : w.Makes u.text (makeReferring lookup w u config) := by
  obtain ⟨hserves, _⟩ := hlookup w (SpaceUri.defaultScheme ++ ":" ++ u.name)
  unfold makeReferring
  generalize lookup w (SpaceUri.defaultScheme ++ ":" ++ u.name) = referred at hserves ⊢
  obtain ⟨w₁, other⟩ := referred
  cases other with
  | error e => exact hserves.makes_error u.text e
  | ok other =>
      have hadded : w₁.Makes u.text
          (w₁.addOpened (Space.singleLock u.text config w₁.now w₁.stamp)) :=
        makes_addOpened fun s hs => Space.fresh_singleLock hs w₁.cancelled
      simp only []
      generalize w₁.addOpened (Space.singleLock u.text config w₁.now w₁.stamp) = added
        at hadded ⊢
      obtain ⟨w₂, opened⟩ := added
      obtain ⟨hserves', hmade⟩ := hadded
      cases opened with
      | error e => exact (hserves.trans hserves').makes_error u.text e
      | ok i =>
          have hinserted := works_insertUnsettled w₂ i
            ((w₁.spaces[other]?.map Space.name).getD "") ((u.param.map Json.string).getD .null) 0
            .tail
          obtain ⟨hnew, s, hholds⟩ := hmade i rfl
          simp only []
          split <;> rename_i heq <;> rw [heq] at hinserted
          · exact ((hserves.trans hserves').trans (.of_works hinserted)).makes_error u.text _
          · refine ⟨(hserves.trans hserves').trans (.of_works hinserted), fun k hk => ?_⟩
            cases hk
            obtain ⟨s', hholds', _⟩ := hinserted.kept hholds
            exact ⟨hserves.leads.size.trans hnew, s', hholds'⟩

/-- Factories that come with the directory make spaces without looking up others. -/
theorem makeSpace_builtIn {factory : Factory} (hbuiltIn : factory.isBuiltIn = true)
    (lookup : World → String → World × Except SpaceError Nat) (w : World) (u : SpaceUri)
    (config : SpaceConfig) :
    ∃ opened, (∀ s, opened = .ok s → s.Fresh u.text w.now w.cancelled) ∧
      makeSpace lookup w u factory config = w.addOpened opened := by
  cases factory with
  | perKey => exact ⟨_, fun s hs => Space.fresh_perKey hs w.cancelled, rfl⟩
  | singleLock => exact ⟨_, fun s hs => Space.fresh_singleLock hs w.cancelled, rfl⟩
  | persistent =>
      cases hparam : u.param with
      | none =>
          refine ⟨.error (.invalidArgument (.missingPath u.text)), fun s hs => ?_, ?_⟩
          · cases hs
          · simp only [makeSpace, hparam, addOpened]
      | some path =>
          refine ⟨w.openPersistent u.text path config, fun s hs => fresh_openPersistent hs, ?_⟩
          simp only [makeSpace, hparam]
  | referring | refusing => cases hbuiltIn

theorem makes_makeSpace {lookup : World → String → World × Except SpaceError Nat}
    (hlookup : ∀ w text, LooksUp w text (lookup w text)) (w : World) (u : SpaceUri)
    (factory : Factory) (config : SpaceConfig) :
    w.Makes u.text (makeSpace lookup w u factory config) := by
  cases hbuiltIn : factory.isBuiltIn with
  | true =>
      obtain ⟨opened, hfresh, hmade⟩ := makeSpace_builtIn hbuiltIn lookup w u config
      rw [hmade]
      exact makes_addOpened hfresh
  | false =>
      cases factory with
      | referring => exact makes_makeReferring hlookup w u config
      | refusing reason => exact (Serves.refl w).makes_error u.text _
      | _ => cases hbuiltIn

/-! ## Lookups -/

/-- How a lookup comes out, if factories look up other strings in a given way. -/
inductive Comes (lookup : World → String → World × Except SpaceError Nat) (w : World)
    (text : String) : World × Except SpaceError Nat → Prop where
  /-- The string means nothing, or nobody makes spaces of its scheme. -/
  | refused (e : SpaceError) : Comes lookup w text (w, .error e)
  | cached {u : SpaceUri} {j : Nat} : SpaceUri.parse text = .ok u → w.cached? u.text = some j →
      Comes lookup w text (w, .ok j)
  /-- The factory has not made a space. -/
  | failed {u : SpaceUri} {factory : Factory} {w' : World} {e : SpaceError} :
      w.directoryOf.factory? u.scheme = some factory →
      makeSpace lookup w u factory (w.directoryOf.config.configFor u.text) = (w', .error e) →
      Comes lookup w text (w', .error e)
  | made {u : SpaceUri} {factory : Factory} {w' : World} {j : Nat} :
      SpaceUri.parse text = .ok u → w.directoryOf.factory? u.scheme = some factory →
      w.cached? u.text = none →
      makeSpace lookup w u factory (w.directoryOf.config.configFor u.text) = (w', .ok j) →
      Comes lookup w text ({ w' with directory := some (w'.directoryOf.cache u.text j) }, .ok j)

theorem comes_lookupFrom (depth : Nat) (w : World) (text : String) :
    Comes (lookupFrom depth) w text (lookupFrom (depth + 1) w text) := by
  unfold lookupFrom
  cases hparsed : SpaceUri.parse text with
  | error e => exact .refused e
  | ok u =>
      simp only []
      cases hfactory : w.directoryOf.factory? u.scheme with
      | none => exact .refused _
      | some factory =>
          simp only []
          cases hcached : w.cached? u.text with
          | some i => exact .cached hparsed hcached
          | none =>
              simp only []
              split <;> rename_i hmade
              · exact .failed hfactory hmade
              · exact .made hparsed hfactory hcached hmade

/-- Factories look up other strings, so the induction is on how deep lookups nest. -/
theorem looksUp_lookupFrom (depth : Nat) (w : World) (text : String) :
    w.LooksUp text (lookupFrom depth w text) := by
  induction depth generalizing w text with
  | zero => exact (Serves.refl w).looksUp_error text _
  | succ depth ih =>
      have hcomes := comes_lookupFrom depth w text
      generalize lookupFrom (depth + 1) w text = found at hcomes ⊢
      cases hcomes with
      | refused e => exact (Serves.refl w).looksUp_error text e
      | cached hparsed hcached =>
          refine ⟨.refl w, fun i hi => ⟨_, hparsed, ?_⟩⟩
          cases hi
          exact ⟨(cached?_eq_some_iff.mp hcached).1, .inl hcached⟩
      | @failed u factory v e _ hmade =>
          obtain ⟨hserves, _⟩ :=
            makes_makeSpace ih w u factory (w.directoryOf.config.configFor u.text)
          rw [hmade] at hserves
          exact hserves.looksUp_error text _
      | @made u factory v j hparsed hfactory hcached hmade =>
          obtain ⟨hserves, hresult⟩ :=
            makes_makeSpace ih w u factory (w.directoryOf.config.configFor u.text)
          rw [hmade] at hserves hresult
          obtain ⟨hnew, s, hholds⟩ := hresult j rfl
          have hstill := hserves.factories (Option.isSome_of_mem hfactory)
          refine ⟨hserves.cache hcached hholds (SpaceUri.parse_normal hparsed) hstill,
            fun i hi => ⟨u, hparsed, ?_⟩⟩
          cases hi
          exact ⟨by simp [directoryOf, Directory.slot?_cache], .inr ⟨hcached, hnew⟩⟩

theorem looksUp_lookup (w : World) (text : String) : w.LooksUp text (w.lookup text) := by
  have hfound := looksUp_lookupFrom 4 w text
  unfold lookup
  generalize lookupFrom 4 w text = found at hfound ⊢
  obtain ⟨v, result⟩ := found
  obtain ⟨hserves, hresult⟩ := hfound
  have hsettled := works_settle (c := none) v
  refine ⟨hserves.trans (.of_works hsettled), fun i hi => ?_⟩
  obtain ⟨u, hparsed, hslot, hwhence⟩ := hresult i hi
  exact ⟨u, hparsed, by rw [hsettled.directoryOf_eq]; exact hslot, hwhence⟩

/-- A lookup ends like every other operation: the ready calls run. -/
theorem lookup_spec (w : World) (text : String) :
    ∃ v, Leads none w none v ∧ (w.lookup text).1 = v.settle := by
  obtain ⟨hserves, _⟩ := looksUp_lookupFrom 4 w text
  unfold lookup
  generalize lookupFrom 4 w text = found at hserves ⊢
  exact ⟨found.1, hserves.leads, rfl⟩

end World

end TupleSpace
