import Mathlib.Data.List.Sort
import Mathlib.Data.String.Basic
import TupleSpace.Proofs.Directory.Histories

/-!
# One shared space for every directory string

Whoever looks up strings that mean the same gets the same space, for as long as it is open, and
whoever looks up strings that mean something else gets another one.  There is never more than one
open space for a normal form.  With the factories that every directory has to begin with, a space
that was looked up stays open until somebody closes it, releases its string or closes all spaces.

A space has the normal form of its string for its name.  The name leads back to the space, unless it
ends in a blank: then it is not a normal form itself.
-/

namespace TupleSpace

namespace Directory

/-- The normal forms are listed in ascending order, each once. -/
theorem names_pairwise_lt {d : Directory} (hnodup : (d.slots.map Prod.fst).Nodup) :
    d.names.Pairwise (· < ·) := by
  have hsorted : d.names.Pairwise fun a b => decide (a ≤ b) = true := by
    apply List.pairwise_mergeSort
    · intro a b c hab hbc
      exact decide_eq_true (le_trans (of_decide_eq_true hab) (of_decide_eq_true hbc))
    · intro a b
      rcases le_total a b with hle | hle <;> simp [hle]
  have hdistinct : d.names.Nodup := (List.mergeSort_perm _ _).nodup_iff.mpr hnodup
  refine (hsorted.and hdistinct).imp fun h => lt_of_le_of_ne (of_decide_eq_true h.1) h.2

end Directory

namespace World

variable {w v : World} {i j : Nat} {name : String} {s : Space} {u : SpaceUri}

/-! ## Built-in factories -/

/-- All spaces are made by factories that come with the directory. -/
def BuiltIn (w : World) : Prop :=
  ∀ scheme factory, w.directoryOf.factory? scheme = some factory → factory.isBuiltIn = true

/-- The schemes of a directory of in-memory spaces to which persistent ones have been added. -/
theorem schemes_withPersistence (config : DirectoryConfig) :
    (Directory.new config).withPersistence.schemes =
      [("tspace", .perKey), ("gspace", .singleLock), ("persistent", .persistent)] := by
  have hanyone : (Directory.new config).withPersistence.schemes =
      (Directory.new {}).withPersistence.schemes := rfl
  rw [hanyone]
  decide +kernel

/-- A directory begins with nothing but built-in factories. -/
theorem builtIn_new (epoch : Moment) (files : Files) (config : DirectoryConfig) :
    BuiltIn { epoch, files, directory := some (Directory.new config).withPersistence } := by
  intro scheme factory hfactory
  obtain ⟨x, hfound, rfl⟩ := Option.map_eq_some_iff.mp hfactory
  have hmem : x ∈ (Directory.new config).withPersistence.schemes :=
    List.mem_of_find?_eq_some hfound
  rw [schemes_withPersistence] at hmem
  simp only [List.mem_cons, List.not_mem_nil, or_false] at hmem
  rcases hmem with rfl | rfl | rfl <;> rfl

/-- With built-in factories, looking up a string finds an open space, fails, or adds one space. -/
theorem lookupFrom_builtIn (hbuiltIn : w.BuiltIn) (depth : Nat) (text : String) :
    ((lookupFrom (depth + 1) w text).1 = w ∧
        ∀ i, (lookupFrom (depth + 1) w text).2 = .ok i → w.isClosedSpace i = false) ∨
      ∃ s name, s.Fresh name w.now w.cancelled ∧
        lookupFrom (depth + 1) w text =
          ({ (w.addSpace s).1 with
              directory := some (w.directoryOf.cache name w.spaces.size) }, .ok w.spaces.size) := by
  have hcomes := comes_lookupFrom depth w text
  generalize lookupFrom (depth + 1) w text = found at hcomes ⊢
  cases hcomes with
  | refused e => exact .inl ⟨rfl, fun i hi => by cases hi⟩
  | cached hparsed hcached =>
      refine .inl ⟨rfl, fun i hi => ?_⟩
      cases hi
      exact (cached?_eq_some_iff.mp hcached).2
  | @failed u factory _ _ hfactory hmade =>
      obtain ⟨opened, hfresh, hadded⟩ := makeSpace_builtIn (hbuiltIn u.scheme factory hfactory)
        (lookupFrom depth) w u (w.directoryOf.config.configFor u.text)
      rw [hadded] at hmade
      cases opened with
      | error e =>
          cases hmade
          exact .inl ⟨rfl, fun i hi => by cases hi⟩
      | ok s => cases hmade
  | @made u factory _ _ _ hfactory _ hmade =>
      obtain ⟨opened, hfresh, hadded⟩ := makeSpace_builtIn (hbuiltIn u.scheme factory hfactory)
        (lookupFrom depth) w u (w.directoryOf.config.configFor u.text)
      rw [hadded] at hmade
      cases opened with
      | error e => cases hmade
      | ok s =>
          cases hmade
          exact .inr ⟨s, u.text, hfresh s rfl, rfl⟩

/-- A space that is added is open, and the others stay as they are. -/
theorem isClosedSpace_addSpace (w : World) (s : Space) (i : Nat) :
    (w.addSpace s).1.isClosedSpace i =
      if i = w.spaces.size then s.isClosed else w.isClosedSpace i := by
  have hspaces : (w.addSpace s).1.spaces[i]? = (w.spaces.push s)[i]? := rfl
  rw [isClosedSpace, hspaces, Array.getElem?_push]
  split <;> rfl

/-- Looking up strings closes nothing, and finds open spaces. -/
theorem Rests.lookup_builtIn (hrests : w.Rests) (hbuiltIn : w.BuiltIn) (text : String) :
    (∀ i, i < w.spaces.size → (w.lookup text).1.isClosedSpace i = w.isClosedSpace i) ∧
      (∀ i, (w.lookup text).2 = .ok i → (w.lookup text).1.isClosedSpace i = false) ∧
      (w.lookup text).1.BuiltIn := by
  have hsettled : ∀ v : World, v.Calm → ∀ i, v.settle.isClosedSpace i = v.isClosedSpace i := by
    intro v hcalm i
    rw [← isClosedSpace_unnumbered, hcalm.settle, isClosedSpace_unnumbered]
  have hdirectory := fun v : World => (works_settle (c := none) v).directoryOf_eq
  have hfound := lookupFrom_builtIn hbuiltIn 3 text
  unfold lookup
  generalize lookupFrom (3 + 1) w text = found at hfound ⊢
  rcases hfound with ⟨hsame, hopen⟩ | ⟨s, name, hfresh, heq⟩
  · obtain ⟨v, result⟩ := found
    subst hsame
    have hstill := hsettled _ hrests.calm
    refine ⟨fun i _ => hstill i, fun i hi => (hstill i).trans (hopen i hi), ?_⟩
    intro scheme factory hfactory
    rw [hdirectory] at hfactory
    exact hbuiltIn scheme factory hfactory
  · subst heq
    have hadded : (w.addOpened (.ok s)).1.Rests :=
      (worksOut_addOpened fun x hx => by cases hx; exact hfresh).rests hrests
    have hstill := hsettled
      { (w.addSpace s).1 with directory := some (w.directoryOf.cache name w.spaces.size) }
      (hadded.of_spaces rfl rfl rfl id).calm
    have hspaces := isClosedSpace_addSpace w s
    refine ⟨fun i hi => ?_, fun i hi => ?_, ?_⟩
    · refine (hstill i).trans ((hspaces i).trans ?_)
      rw [if_neg hi.ne]
    · cases hi
      refine (hstill _).trans ((hspaces _).trans ?_)
      rw [if_pos rfl]
      exact hfresh.isOpen
    · intro scheme factory hfactory
      rw [hdirectory] at hfactory
      exact hbuiltIn scheme factory hfactory

/-! ## What closes a space -/

/-- What somebody does who only uses the directory, and closes spaces. -/
def Deed.usesDirectory : Deed → Bool
  | .lookup _ | .release _ | .closeAll | .close _ => true
  | _ => false

/-- A deed does not close a space that was looked up. -/
def Deed.Spares (i : Nat) (u : SpaceUri) : Deed → Prop
  | .close j => j ≠ i
  | .release text => SpaceUri.parse text ≠ .ok u
  | .closeAll => False
  | _ => True

theorem BuiltIn.of_schemes (hbuiltIn : w.BuiltIn)
    (hschemes : v.directoryOf.schemes = w.directoryOf.schemes) : v.BuiltIn := by
  intro scheme factory hfactory
  rw [Directory.factory?, hschemes] at hfactory
  exact hbuiltIn scheme factory hfactory

theorem BuiltIn.after (hbuiltIn : w.BuiltIn) (hrests : w.Rests) {d : Deed}
    (hd : d.usesDirectory = true) : (w.after d).BuiltIn := by
  cases d with
  | lookup text => exact (hrests.lookup_builtIn hbuiltIn text).2.2
  | release text =>
      obtain ⟨hsame, _⟩ | ⟨u, i, _, _, heq⟩ := release_cases w text
      · rwa [World.after, hsame]
      · have hschemes :=
          congrArg Directory.schemes (works_close (w.evicted u.text) i).directoryOf_eq
        rw [World.after, heq]
        exact hbuiltIn.of_schemes hschemes
  | closeAll =>
      have hschemes := congrArg Directory.schemes (directoryOf_closeAll w)
      exact hbuiltIn.of_schemes hschemes
  | close i =>
      have hschemes := congrArg Directory.schemes (works_close w i).directoryOf_eq
      exact hbuiltIn.of_schemes hschemes
  | _ => cases hd

/-- Once the directory has forgotten it, a space that was looked up is closed. -/
theorem Kept.isClosedSpace (hkept : w.Kept i name) (hnone : w.directoryOf.slot? name = none) :
    w.isClosedSpace i = true := by
  by_contra hopen
  have hslot := hkept.slot (Bool.eq_false_iff.mpr hopen)
  rw [hnone] at hslot
  cases hslot

/-- Releasing a string closes the space that was looked up for it, and no other. -/
theorem isClosedSpace_release (hrests : w.Rests) (hfiled : w.Filed) (hkept : w.Kept i u.text)
    (hnormal : u.Normal) (text : String) :
    (w.release text).1.isClosedSpace i = false ↔
      w.isClosedSpace i = false ∧ SpaceUri.parse text ≠ .ok u := by
  obtain ⟨s, hholds⟩ := hkept.holds
  obtain ⟨hsame, hnone⟩ | ⟨v, j, hparsed, hslot, heq⟩ := release_cases w text
  · rw [hsame]
    refine ⟨fun hopen => ⟨hopen, fun hparsed => ?_⟩, fun h => h.1⟩
    have hclosed := hkept.isClosedSpace (hnone u hparsed)
    exact Bool.noConfusion (hopen.symm.trans hclosed)
  · have hevicted : (w.evicted v.text).Rests := hrests.of_spaces rfl rfl rfl id
    rw [heq, hparsed]
    by_cases hother : v = u
    · subst hother
      have hafter := (serves_release hrests text).kept hkept
      rw [heq] at hafter
      have hclosed := hafter.isClosedSpace (by
        rw [(works_close (w.evicted v.text) j).directoryOf_eq]
        exact (Directory.slot?_evict w.directoryOf v.text v.text).trans (if_pos rfl))
      rw [hclosed]
      exact ⟨fun h => Bool.noConfusion h, fun h => absurd rfl h.2⟩
    · have hne : i ≠ j := by
        rintro rfl
        obtain ⟨s', hholds'⟩ := hfiled.holds hslot
        exact hother ((SpaceUri.parse_normal hparsed).eq_of_text_eq hnormal
          (hholds'.name_unique hholds))
      rw [hevicted.isClosedSpace_close_of_ne hne]
      exact ⟨fun hopen => ⟨hopen, fun h => hother (Except.ok.inj h)⟩, fun h => h.1⟩

/-- A space that was looked up is open after a deed if it was before and the deed spares it. -/
theorem isClosedSpace_after (hrests : w.Rests) (hfiled : w.Filed) (hbuiltIn : w.BuiltIn)
    (hkept : w.Kept i u.text) (hnormal : u.Normal) {d : Deed} (hd : d.usesDirectory = true) :
    (w.after d).isClosedSpace i = false ↔ w.isClosedSpace i = false ∧ d.Spares i u := by
  obtain ⟨s, hholds⟩ := hkept.holds
  obtain ⟨hlt, _⟩ := Array.getElem?_eq_some_iff.mp hholds.space
  cases d with
  | lookup text =>
      rw [World.after, (hrests.lookup_builtIn hbuiltIn text).1 i hlt]
      exact ⟨fun hopen => ⟨hopen, trivial⟩, fun h => h.1⟩
  | release text => exact isClosedSpace_release hrests hfiled hkept hnormal text
  | closeAll =>
      have hclosed := ((serves_closeAll hrests).kept hkept).isClosedSpace (by
        rw [directoryOf_closeAll]
        rfl)
      rw [World.after, hclosed]
      exact ⟨fun h => Bool.noConfusion h, fun h => h.2.elim⟩
  | close j =>
      by_cases hj : j = i
      · subst hj
        rw [World.after, hrests.isClosedSpace_close j]
        exact ⟨fun h => Bool.noConfusion h, fun h => absurd rfl h.2⟩
      · rw [World.after, hrests.isClosedSpace_close_of_ne fun h => hj h.symm]
        exact ⟨fun hopen => ⟨hopen, hj⟩, fun h => h.1⟩
  | _ => cases hd

theorem isClosedSpace_afterAll (hrests : w.Rests) (hfiled : w.Filed) (hbuiltIn : w.BuiltIn)
    (hkept : w.Kept i u.text) (hnormal : u.Normal) {deeds : List Deed}
    (hdeeds : ∀ d ∈ deeds, d.usesDirectory = true) :
    (w.afterAll deeds).isClosedSpace i = false ↔
      w.isClosedSpace i = false ∧ ∀ d ∈ deeds, d.Spares i u := by
  induction deeds generalizing w with
  | nil => exact ⟨fun hopen => ⟨hopen, List.forall_mem_nil _⟩, fun h => h.1⟩
  | cons d deeds ih =>
      obtain ⟨hd, hrest⟩ := List.forall_mem_cons.mp hdeeds
      have hserves := serves_after hrests d
      have hlater := ih (hrests.after d) (hserves.filed hfiled) (hbuiltIn.after hrests hd)
        (hserves.kept hkept) hrest
      have hfirst := isClosedSpace_after hrests hfiled hbuiltIn hkept hnormal hd
      rw [List.forall_mem_cons, ← and_assoc, ← hfirst]
      exact hlater

/-! ## Looking up strings -/

/-- A space that has been looked up, in the world that this leaves. -/
theorem kept_lookup (hfiled : w.Filed) {text : String} (hfound : (w.lookup text).2 = .ok i) :
    ∃ u, SpaceUri.parse text = .ok u ∧ (w.lookup text).1.Kept i u.text := by
  obtain ⟨hserves, hresult⟩ := looksUp_lookup w text
  obtain ⟨u, hparsed, hslot, _⟩ := hresult i hfound
  exact ⟨u, hparsed, (hserves.filed hfiled).holds hslot, fun _ => hslot⟩

/-- Who finds a space again that was looked up for a normal form. -/
theorem lookup_eq_iff (hfiled : w.Filed) (hkept : w.Kept i u.text) (hnormal : u.Normal)
    {text : String} (hfound : (w.lookup text).2 = .ok j) :
    j = i ↔ SpaceUri.parse text = .ok u ∧ w.isClosedSpace i = false := by
  obtain ⟨s, hholds⟩ := hkept.holds
  obtain ⟨hlt, _⟩ := Array.getElem?_eq_some_iff.mp hholds.space
  obtain ⟨v, hparsed, _, hwhence⟩ := (looksUp_lookup w text).2 j hfound
  constructor
  · rintro rfl
    rcases hwhence with hcached | ⟨_, hnew⟩
    · obtain ⟨hslot, hopen⟩ := cached?_eq_some_iff.mp hcached
      obtain ⟨s', hholds'⟩ := hfiled.holds hslot
      have hsame := (SpaceUri.parse_normal hparsed).eq_of_text_eq hnormal
        (hholds'.name_unique hholds)
      exact ⟨hsame ▸ hparsed, hopen⟩
    · exact absurd hlt (Nat.not_lt.mpr hnew)
  · rintro ⟨hsame, hopen⟩
    cases hparsed.symm.trans hsame
    have hcached := cached?_eq_some_iff.mpr ⟨hkept.slot hopen, hopen⟩
    rcases hwhence with hother | ⟨hnone, _⟩
    · exact Option.some.inj (hother.symm.trans hcached)
    · rw [hcached] at hnone
      cases hnone

/-- A string that leads to an open space which exists already leads there. -/
theorem lookup_of_cached (hfiled : w.Filed) {text : String} (hparsed : SpaceUri.parse text = .ok u)
    (hcached : w.cached? u.text = some i) : (w.lookup text).2 = .ok i := by
  obtain ⟨v, hnormal, htext, hfactory⟩ := hfiled.normal (cached?_eq_some_iff.mp hcached).1
  cases hnormal.eq_of_text_eq (SpaceUri.parse_normal hparsed) htext
  obtain ⟨factory, hfactory⟩ := Option.isSome_iff_exists.mp hfactory
  simp only [lookup, lookupFrom, hparsed, hfactory, hcached]

/-- The directory says that it has a space for a string if looking it up makes no new one. -/
theorem containsSpace_iff (hfiled : w.Filed) (text : String) :
    w.containsSpace text = true ↔ ∃ i, i < w.spaces.size ∧ (w.lookup text).2 = .ok i := by
  constructor
  · intro hcontains
    unfold containsSpace at hcontains
    split at hcontains
    · cases hcontains
    · rename_i u hparsed
      obtain ⟨i, hcached⟩ := Option.isSome_iff_exists.mp hcontains
      obtain ⟨s, hholds⟩ := hfiled.holds (cached?_eq_some_iff.mp hcached).1
      obtain ⟨hlt, _⟩ := Array.getElem?_eq_some_iff.mp hholds.space
      exact ⟨i, hlt, lookup_of_cached hfiled hparsed hcached⟩
  · rintro ⟨i, hlt, hfound⟩
    obtain ⟨u, hparsed, _, hcached | ⟨_, hnew⟩⟩ := (looksUp_lookup w text).2 i hfound
    · simp only [containsSpace, hparsed, hcached, Option.isSome_some]
    · exact absurd hlt (Nat.not_lt.mpr hnew)

/-! ## Sharing -/

/-- A space that somebody got, some time ago, for a string of this meaning. -/
def HandedOut (w : World) (i : Nat) (u : SpaceUri) : Prop :=
  ∃ w₀ text deeds, Reached w₀ ∧ SpaceUri.parse text = .ok u ∧ (w₀.lookup text).2 = .ok i ∧
    w = (w₀.lookup text).1.afterAll deeds

/-- Spaces that were handed out are kept as long as they are open. -/
theorem HandedOut.kept (hhanded : w.HandedOut i u) : w.Reached ∧ u.Normal ∧ w.Kept i u.text := by
  obtain ⟨w₀, text, deeds, hreached, hparsed, hfound, rfl⟩ := hhanded
  have hlooked : (w₀.lookup text).1.Reached := hreached.after (.lookup text)
  obtain ⟨v, hparsed', hkept⟩ := kept_lookup hreached.filed hfound
  cases hparsed.symm.trans hparsed'
  exact ⟨hlooked.afterAll deeds, SpaceUri.parse_normal hparsed,
    (serves_afterAll hlooked.rests deeds).kept hkept⟩

/-- Open spaces that were handed out are the same if the strings mean the same. -/
theorem HandedOut.eq_iff {v : SpaceUri} (hhanded : w.HandedOut i u) (hhanded' : w.HandedOut j v)
    (hopen : w.isClosedSpace i = false) (hopen' : w.isClosedSpace j = false) : i = j ↔ u = v := by
  obtain ⟨_, hnormal, hkept⟩ := hhanded.kept
  obtain ⟨_, hnormal', hkept'⟩ := hhanded'.kept
  constructor
  · rintro rfl
    obtain ⟨s, hholds⟩ := hkept.holds
    obtain ⟨s', hholds'⟩ := hkept'.holds
    exact hnormal.eq_of_text_eq hnormal' (hholds.name_unique hholds')
  · rintro rfl
    exact Option.some.inj ((hkept.slot hopen).symm.trans (hkept'.slot hopen'))

/-- How a space that was handed out is shared from then on. -/
structure Shared (w : World) (i : Nat) (u : SpaceUri) : Prop where
  name : w.spaces[i]?.map Space.name = some u.text
  /-- As long as the space is open, it is the one that the directory keeps. -/
  slot : w.isClosedSpace i = false → w.directoryOf.slot? u.text = some i
  /-- There is no other open space that was handed out for a string of the same meaning. -/
  alone : ∀ {j}, w.HandedOut j u → w.isClosedSpace i = false → w.isClosedSpace j = false → j = i
  /-- Whoever looks up a string gets this space if the string means the same and the space is still
  open, and only then. -/
  again : ∀ {text j}, (w.lookup text).2 = .ok j →
    (j = i ↔ SpaceUri.parse text = .ok u ∧ w.isClosedSpace i = false)

theorem HandedOut.shared (hhanded : w.HandedOut i u) : w.Shared i u := by
  obtain ⟨hreached, hnormal, hkept⟩ := hhanded.kept
  refine ⟨?_, hkept.slot, fun hother hopen hopen' => ?_, fun hfound => ?_⟩
  · obtain ⟨s, hholds⟩ := hkept.holds
    rw [hholds.space, Option.map_some, hholds.intact.name_eq]
  · exact (hother.eq_iff hhanded hopen' hopen).mpr rfl
  · exact lookup_eq_iff hreached.filed hkept hnormal hfound

/-- Two lookups with deeds in between give the same space if their strings mean the same and no deed
has closed it. -/
structure SharedUntil (w : World) (i : Nat) (u : SpaceUri) (deeds : List Deed) : Prop where
  isOpen : (w.afterAll deeds).isClosedSpace i = false ↔ ∀ d ∈ deeds, Deed.Spares i u d
  again : ∀ {text j}, ((w.afterAll deeds).lookup text).2 = .ok j →
    (j = i ↔ SpaceUri.parse text = .ok u ∧ ∀ d ∈ deeds, Deed.Spares i u d)

theorem Reached.sharedUntil (hreached : w.Reached) (hbuiltIn : w.BuiltIn) {text : String}
    (hparsed : SpaceUri.parse text = .ok u) (hfound : (w.lookup text).2 = .ok i)
    {deeds : List Deed} (hdeeds : ∀ d ∈ deeds, d.usesDirectory = true) :
    (w.lookup text).1.SharedUntil i u deeds := by
  have hlooked : (w.lookup text).1.Reached := hreached.after (.lookup text)
  have hhanded : ((w.lookup text).1.afterAll deeds).HandedOut i u :=
    ⟨w, text, deeds, hreached, hparsed, hfound, rfl⟩
  have hnow : (w.lookup text).1.HandedOut i u := ⟨w, text, [], hreached, hparsed, hfound, rfl⟩
  obtain ⟨_, hnormal, hkept⟩ := hnow.kept
  obtain ⟨_, hopen, hstill⟩ := hreached.rests.lookup_builtIn hbuiltIn text
  have hspares := isClosedSpace_afterAll hlooked.rests hlooked.filed hstill hkept hnormal hdeeds
  rw [and_iff_right (hopen i hfound)] at hspares
  refine ⟨hspares, fun hagain => ?_⟩
  rw [hhanded.shared.again hagain, hspares]

/-- How the directory of a world shares its spaces. -/
structure SharesSpaces (w : World) : Prop where
  names : w.directoryOf.names.Pairwise (· < ·)
  contains : ∀ text, w.containsSpace text = true ↔
    ∃ i, i < w.spaces.size ∧ (w.lookup text).2 = .ok i
  shared : ∀ {i u}, w.HandedOut i u → w.Shared i u
  sharedUntil : w.BuiltIn → ∀ {text u i}, SpaceUri.parse text = .ok u →
    (w.lookup text).2 = .ok i → ∀ {deeds : List Deed}, (∀ d ∈ deeds, d.usesDirectory = true) →
      (w.lookup text).1.SharedUntil i u deeds

/-- In every world that a history leads to, the directory shares one space for each normal form. -/
theorem one_space_per_string (hreached : w.Reached) : w.SharesSpaces where
  names := Directory.names_pairwise_lt hreached.filed.nodup
  contains := containsSpace_iff hreached.filed
  shared hhanded := hhanded.shared
  sharedUntil hbuiltIn _ _ _ hparsed hfound _ hdeeds :=
    hreached.sharedUntil hbuiltIn hparsed hfound hdeeds

set_option maxRecDepth 100000 in
/-- Two spellings of a string find one space, and find another one once the string is released. -/
theorem one_space_per_string_until_released :
    let w : World := { epoch := ⟨0, 0, 0⟩, directory := some (Directory.new {}).withPersistence }
    let v := (w.lookup " TSPACE:jobs:").1
    w.BuiltIn ∧ (w.lookup " TSPACE:jobs:").2 = .ok 0 ∧
      ((v.afterAll [.lookup "gspace:jobs", .release "gspace:jobs"]).lookup "jobs").2 = .ok 0 ∧
      ((v.afterAll [.lookup "gspace:jobs", .release "jobs"]).lookup "jobs").2 = .ok 2 ∧
      w.SharesSpaces := by
  intro w v
  have hreached : w.Reached := ⟨_, _, _, [], fun d hd => by cases hd; rfl, rfl⟩
  exact ⟨builtIn_new _ _ _, by decide +kernel, by decide +kernel, by decide +kernel,
    one_space_per_string hreached⟩

/-! ## Normal forms -/

/-- A normal form leads back to the space that was handed out for it, unless it ends in a blank. -/
theorem HandedOut.lookup_text (hhanded : w.HandedOut i u) :
    (w.lookup u.text).2 = .ok i ↔ ¬u.EndsBlank ∧ w.isClosedSpace i = false := by
  obtain ⟨hreached, hnormal, hkept⟩ := hhanded.kept
  rw [← hnormal.parse_text_iff]
  constructor
  · intro hfound
    exact (hhanded.shared.again hfound).mp rfl
  · rintro ⟨hparsed, hopen⟩
    exact lookup_of_cached hreached.filed hparsed
      (cached?_eq_some_iff.mpr ⟨hkept.slot hopen, hopen⟩)

/-- What the normal form of a string stands for. -/
structure StandsFor (u : SpaceUri) : Prop where
  /-- A normal form means what the string meant, unless it ends in a blank. -/
  parse_text : SpaceUri.parse u.text = .ok u ↔ ¬u.EndsBlank
  /-- Strings that mean something else have another normal form. -/
  text_eq_iff : ∀ {text v}, SpaceUri.parse text = .ok v → (v.text = u.text ↔ v = u)
  /-- Strings have the same space if they mean the same. -/
  space_eq_iff : ∀ {w : World} {i j v}, w.HandedOut i u → w.HandedOut j v →
    w.isClosedSpace i = false → w.isClosedSpace j = false → (i = j ↔ u = v)
  /-- The name of a space is the normal form of its string. -/
  name : ∀ {w : World} {i}, w.HandedOut i u → w.spaces[i]?.map Space.name = some u.text
  /-- The name of a space that is open leads back to it, unless it ends in a blank. -/
  lookup_text : ∀ {w : World} {i}, w.HandedOut i u →
    ((w.lookup u.text).2 = .ok i ↔ ¬u.EndsBlank ∧ w.isClosedSpace i = false)

/-- What a string means can be read off its normal form. -/
theorem normal_form_stands_for {text : String} (hparsed : SpaceUri.parse text = .ok u) :
    StandsFor u where
  parse_text := (SpaceUri.parse_normal hparsed).parse_text_iff
  text_eq_iff hother := by
    constructor
    · exact (SpaceUri.parse_normal hother).eq_of_text_eq (SpaceUri.parse_normal hparsed)
    · rintro rfl
      rfl
  space_eq_iff := HandedOut.eq_iff
  name hhanded := hhanded.shared.name
  lookup_text := HandedOut.lookup_text

/-- A string whose parameter has colons and blanks. -/
theorem normal_form_stands_for_colons :
    let u : SpaceUri := ⟨"persistent", "jobs", some " C:/jobs : old"⟩
    SpaceUri.parse "\tPersistent:jobs: C:/jobs : old " = .ok u ∧ StandsFor u := by
  intro u
  have hparsed : SpaceUri.parse "\tPersistent:jobs: C:/jobs : old " = .ok u := by decide +kernel
  exact ⟨hparsed, normal_form_stands_for hparsed⟩

set_option maxRecDepth 100000 in
/-- A blank in front of an empty parameter is at the end of the normal form, which stands for
another space then. -/
theorem normal_form_of_empty_param :
    let w : World := { epoch := ⟨0, 0, 0⟩, directory := some (Directory.new {}) }
    let v := (w.lookup "tspace:b :").1
    SpaceUri.parse "tspace:b :" = .ok ⟨"tspace", "b ", none⟩ ∧
      SpaceUri.parse (SpaceUri.text ⟨"tspace", "b ", none⟩) = .ok ⟨"tspace", "b", none⟩ ∧
      (w.lookup "tspace:b :").2 = .ok 0 ∧ v.spaces[0]?.map Space.name = some "tspace:b " ∧
      (v.lookup "tspace:b ").2 = .ok 1 := by
  decide +kernel

end World

end TupleSpace
