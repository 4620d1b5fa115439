import TupleSpace.Proofs.Directory
import TupleSpace.Proofs.Worlds.Settling

/-!
# Directories when something fails

A lookup that fails has not happened: a string that means nothing, a scheme without a factory, and a
factory that makes no space leave the directory and all spaces as they were, also if the directory
has kept a closed space for that string, which it goes on keeping.

Closing cannot be refused.  Releasing a string and closing all spaces close what they concern and
forget it whether or not a space could be stored, and whoever asked for it learns the first thing
that went wrong.  In which order a directory closes its spaces is its own business: what one of them
writes may keep another one from being written, so the order may decide who fails, but not who is
closed.
-/

namespace TupleSpace

namespace World

variable {w v : World} {i : Nat} {u : SpaceUri} {text : String} {e : SpaceError} {s : Space}

/-! ## Lookups that fail -/

theorem cached?_unnumbered (w : World) (name : String) :
    w.unnumbered.cached? name = w.cached? name := by
  have hdirectory : w.unnumbered.directoryOf = w.directoryOf := rfl
  simp only [cached?, hdirectory, isClosedSpace_unnumbered]

theorem containsSpace_unnumbered (w : World) (text : String) :
    w.unnumbered.containsSpace text = w.containsSpace text := by
  simp only [containsSpace, cached?_unnumbered]

/-- A world in which nobody can tell that something has happened. -/
structure Untouched (w v : World) : Prop where
  /-- Nothing has happened, but for the numbers of waits. -/
  unnumbered : v.unnumbered = w.unnumbered
  names : v.directoryOf.names = w.directoryOf.names
  contains : ∀ text, v.containsSpace text = w.containsSpace text
  /-- The directory keeps the same spaces, closed ones included. -/
  slots : ∀ name, v.directoryOf.slot? name = w.directoryOf.slot? name
  isClosed : ∀ i, v.isClosedSpace i = w.isClosedSpace i
  space : ∀ {i : Nat} {s : Space}, w.spaces[i]? = some s →
    ∃ s', v.spaces[i]? = some s' ∧ stampSpace 0 s' = stampSpace 0 s

theorem Untouched.of_unnumbered (hsame : v.unnumbered = w.unnumbered) : Untouched w v := by
  have hdirectory : v.unnumbered.directoryOf = w.unnumbered.directoryOf := by rw [hsame]
  replace hdirectory : v.directoryOf = w.directoryOf := hdirectory
  refine ⟨hsame, by rw [hdirectory], fun text => ?_, fun name => by rw [hdirectory], fun i => ?_,
    space_of_unnumbered hsame⟩
  · rw [← containsSpace_unnumbered, hsame, containsSpace_unnumbered]
  · rw [← isClosedSpace_unnumbered, hsame, isClosedSpace_unnumbered]

/-- With built-in factories, a lookup that fails adds no space and keeps none. -/
theorem Rests.lookup_failed (hrests : w.Rests) (hbuiltIn : w.BuiltIn)
    (hfailed : (w.lookup text).2 = .error e) : (w.lookup text).1.unnumbered = w.unnumbered := by
  have hfound := lookupFrom_builtIn hbuiltIn 3 text
  unfold lookup at hfailed ⊢
  generalize lookupFrom (3 + 1) w text = found at hfound hfailed ⊢
  rcases hfound with ⟨hsame, _⟩ | ⟨s, name, _, hmade⟩
  · obtain ⟨v, result⟩ := found
    subst hsame
    exact hrests.calm.settle
  · rw [hmade] at hfailed
    cases hfailed

/-! ## Closing, whatever the directory keeps -/

/-- Storing a space has nothing to do with the directory. -/
theorem flush_filing (w : World) (directory : Option Directory) (i : Nat) :
    ({ w with directory } : World).flush i = ({ (w.flush i).1 with directory }, (w.flush i).2) := by
  have hcapture : ∀ s, ({ w with directory } : World).capture s = w.capture s := fun _ => rfl
  unfold flush
  simp only [hcapture]
  repeat' split
  all_goals rfl

theorem foldl_deliver_filing (w : World) (directory : Option Directory)
    (fs : List (Finished Json)) :
    fs.foldl deliver { w with directory } = { fs.foldl deliver w with directory } := by
  rw [foldl_deliver_eq (w := w) (v := { w with directory }) rfl rfl fs]
  rw [foldl_deliver_eq (w := w) (v := w) rfl rfl fs]

/-- Closing a space has nothing to do with the directory either. -/
theorem Rests.close_filing (hrests : w.Rests) (directory : Option Directory) (i : Nat) :
    (({ w with directory } : World).close i).2 = (w.close i).2 ∧
      (({ w with directory } : World).close i).1.unnumbered =
        ({ (w.close i).1 with directory } : World).unnumbered := by
  have hfiled : ∀ {x y : World}, x.unnumbered = y.unnumbered →
      ({ x with directory } : World).unnumbered = ({ y with directory } : World).unnumbered :=
    fun heq => congrArg (fun x : World => { x with directory }) heq
  have hrests' : ({ w with directory } : World).Rests := hrests.of_spaces rfl rfl rfl id
  cases hspace : w.spaces[i]? with
  | none =>
      have hclose : ∀ x : World, x.spaces[i]? = none → x.close i = (x.settle, .ok ()) := by
        intro x hx
        simp only [close, closeUnsettled, hx]
      rw [hclose w hspace, hclose { w with directory } hspace]
      exact ⟨rfl, hrests'.calm.settle.trans (hfiled hrests.calm.settle.symm)⟩
  | some s =>
      cases hclosed : s.isClosed with
      | true =>
          obtain ⟨hresult, hsame⟩ := hrests.close_closed hspace hclosed
          obtain ⟨hresult', hsame'⟩ := hrests'.close_closed hspace hclosed
          exact ⟨hresult'.trans hresult.symm, hsame'.trans (hfiled hsame.symm)⟩
      | false =>
          obtain ⟨hresult, hsame⟩ := hrests.close_open hspace hclosed
          obtain ⟨hresult', hsame'⟩ := hrests'.close_open hspace hclosed
          rw [flush_filing] at hresult' hsame'
          refine ⟨hresult'.trans hresult.symm, hsame'.trans (Eq.trans ?_ (hfiled hsame.symm))⟩
          exact congrArg unnumbered
            (foldl_deliver_filing ((w.flush i).1.replace i s.vacated) directory s.released)

/-! ## Releasing strings -/

/-- What comes of releasing a string under whose normal form a space is kept. -/
structure Releases (w : World) (text : String) (u : SpaceUri) (i : Nat) : Prop where
  /-- Whoever releases the string learns whether the space could be closed without an error. -/
  result : (w.release text).2 = (w.close i).2.map fun _ => true
  /-- Whether or not it could, the space is closed and forgotten, and nothing else happens. -/
  released : (w.release text).1.unnumbered =
    ({ (w.close i).1 with directory := some (w.directoryOf.evict u.text) } : World).unnumbered
  isClosed : (w.release text).1.isClosedSpace i = true
  others : ∀ {j}, j ≠ i → (w.release text).1.isClosedSpace j = w.isClosedSpace j
  contains : (w.release text).1.containsSpace text = false
  names : ∀ {name}, name ∈ (w.release text).1.directoryOf.names ↔
    name ∈ w.directoryOf.names ∧ name ≠ u.text

theorem Rests.releases (hrests : w.Rests) (hparsed : SpaceUri.parse text = .ok u)
    (hslot : w.directoryOf.slot? u.text = some i) : w.Releases text u i := by
  have hevicted : (w.evicted u.text).Rests := hrests.of_spaces rfl rfl rfl id
  have hrelease : w.release text =
      (((w.evicted u.text).close i).1, ((w.evicted u.text).close i).2.map fun _ => true) := by
    simp only [World.release, hparsed, hslot, evicted]
  have hdirectory : (w.release text).1.directoryOf = w.directoryOf.evict u.text := by
    rw [hrelease]
    exact (works_close (w.evicted u.text) i).directoryOf_eq
  obtain ⟨hresult, hclosed⟩ := hrests.close_filing (some (w.directoryOf.evict u.text)) i
  refine ⟨?_, ?_, ?_, fun hne => ?_, ?_, fun {name} => ?_⟩
  · rw [hrelease]
    exact congrArg (Except.map fun _ => true) hresult
  · rw [hrelease]
    exact hclosed
  · rw [hrelease]
    exact hevicted.isClosedSpace_close i
  · rw [hrelease]
    exact hevicted.isClosedSpace_close_of_ne hne
  · have hnone : (w.release text).1.directoryOf.slot? u.text = none := by
      rw [hdirectory, Directory.slot?_evict, if_pos rfl]
    simp only [containsSpace, hparsed, cached?, hnone, Option.bind_none, Option.isSome_none]
  · rw [hdirectory]
    simp only [Directory.names, Directory.evict, List.mem_mergeSort, List.mem_map,
      List.mem_filter, bne_iff_ne]
    constructor
    · rintro ⟨x, ⟨hx, hne⟩, rfl⟩
      exact ⟨⟨x, hx, rfl⟩, hne⟩
    · rintro ⟨⟨x, hx, rfl⟩, hne⟩
      exact ⟨x, ⟨hx, hne⟩, rfl⟩

/-- A string for which nothing is kept is not released. -/
theorem release_of_none (hnone : ∀ u, SpaceUri.parse text = .ok u →
    w.directoryOf.slot? u.text = none) :
    w.release text = (w, (SpaceUri.parse text).map fun _ => false) := by
  unfold release
  cases hparsed : SpaceUri.parse text with
  | error e => rfl
  | ok u =>
      simp only [hnone u hparsed]
      rfl

/-! ## Closing all spaces -/

/-- Closing spaces one after the other goes on whatever happens. -/
theorem closeEach_cons (i : Nat) (rest : List Nat) (w : World) :
    (closeEach (i :: rest) w).1 = (closeEach rest (w.close i).1).1 ∧
      (closeEach (i :: rest) w).2 =
        (w.close i).2.bind fun _ => (closeEach rest (w.close i).1).2 := by
  rw [closeEach]
  generalize w.close i = closed
  obtain ⟨v, result⟩ := closed
  cases result with
  | error e => exact ⟨rfl, rfl⟩
  | ok => exact ⟨rfl, rfl⟩

/-- Closing spaces one after the other leaves the others as they are. -/
theorem Rests.isClosedSpace_closeEach_of_not_mem {spaces : List Nat} (hrests : w.Rests)
    (hmem : i ∉ spaces) : (closeEach spaces w).1.isClosedSpace i = w.isClosedSpace i := by
  induction spaces generalizing w with
  | nil => rfl
  | cons j rest ih =>
      obtain ⟨hne, hrest⟩ := List.ne_and_not_mem_of_not_mem_cons hmem
      rw [(closeEach_cons j rest w).1, ih ((worksOut_close w j).rests hrests) hrest]
      exact hrests.isClosedSpace_close_of_ne hne

/-- The closes of some spaces, one after the other, in which one fails: the spaces closed before it,
the space, and those closed after it. -/
def FailsAt (w : World) (order earlier : List Nat) (i : Nat) (e : SpaceError) : Prop :=
  ∃ later, order = earlier ++ i :: later ∧ ((closeEach earlier w).1.close i).2 = .error e

/-- One close goes before all others. -/
theorem failsAt_cons {j : Nat} {rest earlier : List Nat} :
    w.FailsAt (j :: rest) earlier i e ↔
      earlier = [] ∧ i = j ∧ (w.close j).2 = .error e ∨
        ∃ others, earlier = j :: others ∧ (w.close j).1.FailsAt rest others i e := by
  constructor
  · rintro ⟨later, horder, hfails⟩
    cases earlier with
    | nil =>
        obtain ⟨rfl, _⟩ := List.cons.inj horder
        exact .inl ⟨rfl, rfl, hfails⟩
    | cons k others =>
        obtain ⟨rfl, hrest⟩ := List.cons.inj horder
        rw [(closeEach_cons j others w).1] at hfails
        exact .inr ⟨others, rfl, later, hrest, hfails⟩
  · rintro (⟨rfl, rfl, hfails⟩ | ⟨others, rfl, later, rfl, hfails⟩)
    · exact ⟨rest, rfl, hfails⟩
    · refine ⟨later, rfl, ?_⟩
      rw [(closeEach_cons j others w).1]
      exact hfails

/-- The first failure is reported, and there is no error without a failure. -/
theorem closeEach_result_eq_error_iff {order : List Nat} :
    (closeEach order w).2 = .error e ↔
      ∃ earlier i, w.FailsAt order earlier i e ∧ (closeEach earlier w).2 = .ok () := by
  induction order generalizing w with
  | nil =>
      constructor
      · intro h
        cases h
      · rintro ⟨earlier, i, ⟨later, horder, _⟩, _⟩
        exact absurd horder.symm (List.append_ne_nil_of_right_ne_nil _ (List.cons_ne_nil _ _))
  | cons j rest ih =>
      rw [(closeEach_cons j rest w).2]
      simp only [failsAt_cons]
      cases hfirst : (w.close j).2 with
      | error e' =>
          constructor
          · intro h
            cases h
            exact ⟨[], j, .inl ⟨rfl, rfl, rfl⟩, rfl⟩
          · rintro ⟨earlier, i, ⟨rfl, rfl, heq⟩ | ⟨others, rfl, _⟩, hquiet⟩
            · cases heq
              rfl
            · rw [(closeEach_cons j others w).2, hfirst] at hquiet
              cases hquiet
      | ok =>
          have hrest := ih (w := (w.close j).1)
          constructor
          · intro h
            obtain ⟨others, i, hfails, hquiet⟩ := hrest.mp h
            refine ⟨j :: others, i, .inr ⟨others, rfl, hfails⟩, ?_⟩
            rw [(closeEach_cons j others w).2, hfirst]
            exact hquiet
          · rintro ⟨earlier, i, ⟨_, _, heq⟩ | ⟨others, rfl, hfails⟩, hquiet⟩
            · cases heq
            · rw [(closeEach_cons j others w).2, hfirst] at hquiet
              exact hrest.mpr ⟨others, i, hfails, hquiet⟩

/-- If any close fails there is an error. -/
theorem exists_error_of_failsAt {order earlier : List Nat} (hfails : w.FailsAt order earlier i e) :
    ∃ e', (closeEach order w).2 = .error e' := by
  induction order generalizing w earlier with
  | nil =>
      obtain ⟨later, horder, _⟩ := hfails
      exact absurd horder.symm (List.append_ne_nil_of_right_ne_nil _ (List.cons_ne_nil _ _))
  | cons j rest ih =>
      rw [(closeEach_cons j rest w).2]
      cases hfirst : (w.close j).2 with
      | error e' => exact ⟨e', rfl⟩
      | ok =>
          rcases failsAt_cons.mp hfails with ⟨_, _, heq⟩ | ⟨others, _, hrest⟩
          · rw [hfirst] at heq
            cases heq
          · exact ih hrest

/-- A world whose directory has forgotten all spaces. -/
def unfiled (w : World) : World :=
  { w with directory := some { w.directoryOf with slots := [] } }

/-- What comes of closing the spaces of a directory in some order. -/
structure ClosesAll (w : World) (order : List Nat) (r : World × Except SpaceError Unit) :
    Prop where
  /-- Every space that was ever handed out is closed. -/
  isClosed : ∀ {i u}, w.HandedOut i u → r.1.isClosedSpace i = true
  /-- Spaces that the directory did not keep are left as they are. -/
  others : ∀ {i}, i ∉ order → r.1.isClosedSpace i = w.isClosedSpace i
  names : r.1.directoryOf.names = []
  contains : ∀ text, r.1.containsSpace text = false
  /-- There is an error if and only if one of the closes has failed. -/
  fails_iff : (∃ e, r.2 = .error e) ↔ ∃ earlier i e, w.unfiled.FailsAt order earlier i e
  /-- The error is that of the first close that has failed. -/
  first : ∀ {e}, r.2 = .error e ↔
    ∃ earlier i, w.unfiled.FailsAt order earlier i e ∧ (closeEach earlier w.unfiled).2 = .ok ()

/-- Whatever the order in which a directory closes its spaces. -/
theorem Reached.closesAll (hreached : w.Reached) {order : List Nat}
    (horder : order.Perm (w.directoryOf.slots.map Prod.snd)) :
    w.ClosesAll order (closeEach order w.unfiled) := by
  have hunfiled : w.unfiled.Rests := hreached.rests.of_spaces rfl rfl rfl id
  have hleads := (works_closeEach order w.unfiled).toLeads
  have hdirectory : (closeEach order w.unfiled).1.directoryOf =
      { w.directoryOf with slots := [] } := (works_closeEach order w.unfiled).directoryOf_eq
  refine ⟨fun {i u} hhanded => ?_, fun hmem => hunfiled.isClosedSpace_closeEach_of_not_mem hmem,
    ?_, fun text => ?_, ?_, closeEach_result_eq_error_iff⟩
  · obtain ⟨_, _, hkept⟩ := hhanded.kept
    obtain ⟨s, hholds⟩ := hkept.holds
    have hholds' : w.unfiled.Holds none i u.text s := ⟨hholds.space, hholds.intact⟩
    by_contra hopen
    have hbefore := hleads.isClosedSpace hholds' (Bool.eq_false_iff.mpr hopen)
    have hmem : i ∈ order :=
      horder.mem_iff.mpr (List.mem_map.mpr ⟨_, Directory.mem_of_slot? (hkept.slot hbefore), rfl⟩)
    exact hopen (isClosedSpace_closeEach hunfiled hholds' hmem)
  · rw [hdirectory]
    exact List.mergeSort_nil
  · have hnone : ∀ name, (closeEach order w.unfiled).1.cached? name = none := by
      intro name
      rw [cached?, hdirectory]
      rfl
    unfold containsSpace
    split
    · rfl
    · rw [hnone]
      rfl
  · constructor
    · rintro ⟨e, herror⟩
      obtain ⟨earlier, i, hfails, _⟩ := closeEach_result_eq_error_iff.mp herror
      exact ⟨earlier, i, e, hfails⟩
    · rintro ⟨earlier, i, e, hfails⟩
      exact exists_error_of_failsAt hfails

/-! ## Failures -/

/-- What failures do to a directory and its spaces. -/
structure ContainsFailures (w : World) : Prop where
  lookup : w.BuiltIn → ∀ {text e}, (w.lookup text).2 = .error e → Untouched w (w.lookup text).1
  /-- A string that means nothing, or for which no space is kept, leaves everything as it is. -/
  release_of_none : ∀ {text}, (∀ u, SpaceUri.parse text = .ok u →
    w.directoryOf.slot? u.text = none) →
      w.release text = (w, (SpaceUri.parse text).map fun _ => false)
  releases : ∀ {text u i}, SpaceUri.parse text = .ok u →
    w.directoryOf.slot? u.text = some i → w.Releases text u i
  /-- Every space that was ever handed out for a string is closed once the string is released. -/
  isClosed_release : ∀ {text u i}, w.HandedOut i u → SpaceUri.parse text = .ok u →
    (w.release text).1.isClosedSpace i = true
  closesAll : w.ClosesAll (w.directoryOf.slots.map Prod.snd) w.closeAll
  /-- A directory may close its spaces in any other order. -/
  closesAll_perm : ∀ {order : List Nat}, order.Perm (w.directoryOf.slots.map Prod.snd) →
    w.ClosesAll order (closeEach order w.unfiled)

/-- In every world that a history leads to, failures of the directory are contained. -/
theorem directory_failures_are_contained (hreached : w.Reached) : w.ContainsFailures where
  lookup hbuiltIn _ _ hfailed := .of_unnumbered (hreached.rests.lookup_failed hbuiltIn hfailed)
  release_of_none := release_of_none
  releases := hreached.rests.releases
  isClosed_release hhanded hparsed := by
    obtain ⟨_, hnormal, hkept⟩ := hhanded.kept
    rw [← Bool.not_eq_false,
      isClosedSpace_release hreached.rests hreached.filed hkept hnormal]
    exact fun h => h.2 hparsed
  closesAll := hreached.closesAll (.refl _)
  closesAll_perm := hreached.closesAll

set_option maxRecDepth 100000 in
/-- A snapshot that cannot be read keeps a closed space from being replaced, and an entry that
cannot be stored keeps nobody from closing two spaces. -/
theorem directory_failures_are_contained_of_two_spaces :
    let w : World := { epoch := ⟨19723, 0, 0⟩, directory := some (Directory.new {}).withPersistence }
    let damaged := w.afterAll [.lookup "persistent:a:a.json", .close 0,
      .replaceFiles ⟨[(["a.json"], .file "?")]⟩]
    let beyond := w.afterAll [.lookup "persistent:a:a.json", .lookup "jobs",
      .insert 0 "k" .null (Span.ofSeconds 9000000000000 0) .tail]
    (damaged.lookup "persistent:a:a.json").2.isOk = false ∧
      (damaged.lookup "persistent:a:a.json").1.directoryOf.names = ["persistent:a:a.json"] ∧
      beyond.closeAll.2.isOk = false ∧ beyond.closeAll.1.isClosedSpace 0 = true ∧
      beyond.closeAll.1.isClosedSpace 1 = true ∧ damaged.ContainsFailures ∧
      beyond.ContainsFailures := by
  intro w damaged beyond
  have hreached : w.Reached := ⟨_, _, _, [], fun d hd => by cases hd; rfl, rfl⟩
  exact ⟨by decide +kernel, by decide +kernel, by decide +kernel, by decide +kernel,
    by decide +kernel, directory_failures_are_contained (hreached.afterAll _),
    directory_failures_are_contained (hreached.afterAll _)⟩

end World

end TupleSpace
