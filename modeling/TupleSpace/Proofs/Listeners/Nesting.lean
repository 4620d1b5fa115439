import Mathlib.Algebra.BigOperators.Ring.List
import Mathlib.Algebra.BigOperators.Intervals
import TupleSpace.Proofs.Listeners.Operations
import TupleSpace.Proofs.Store.Volume

/-!
# How deep insertions nest

A listener that is told of an insertion may insert in turn, and then listeners are told again, in
the middle of the first insertion.  Each of them uses up its registration before it runs, and
registers at most itself again, so while an insertion is being told there is always at least one
registration fewer for those nested in it.  So nesting comes to an end before it gets deeper than
there are registrations, and no listener goes untold because insertions nest too deep: everybody who
is taken from the registrations is told, at every level.
-/

namespace TupleSpace

namespace Store

variable {κ α : Type} {st st' : Store κ α} {n : Nat}

/-- A store with less under every key holds less. -/
theorem Holds.mono (hn : st.Holds n) (hle : ∀ key, (st' key).length ≤ (st key).length) :
    ∃ m ≤ n, st'.Holds m := by
  obtain ⟨keys, hempty, rfl⟩ := hn
  refine ⟨_, Finset.sum_le_sum fun key _ => hle key, keys, fun key hkey => ?_, rfl⟩
  have hnone := hle key
  rw [hempty key hkey, List.length_nil] at hnone
  exact List.length_eq_zero_iff.mp (Nat.le_zero.mp hnone)

end Store

namespace Registry

/-- The keys under which somebody has been registered. -/
def keys (r : Registry) : Finset String := (r.monitor.engine.records.map Record.key).toFinset

variable {r : Registry}

/-- Registrations that have not lapsed are among those that count. -/
theorem Intact.sum_audience_le (hintact : r.Intact) (now : Nat) :
    (∀ key ∉ r.keys, r.audience now key = []) ∧
      ∑ key ∈ r.keys, (r.audience now key).length ≤ r.size := by
  cases hopen : r.isClosed with
  | true =>
      rw [hintact.audience_closed hopen]
      exact ⟨fun _ _ => rfl, by simp⟩
  | false =>
      have hnodup : (r.monitor.engine.records.map Record.key).Nodup :=
        LawfulEngine.keys_nodup (hintact.isOpen hopen now).sound
      refine ⟨fun key hkey => ?_, ?_⟩
      · have hnone : Engine.stored r.monitor.engine key = [] := by
          by_contra hsome
          have hmem := LawfulEngine.mem_keys (hintact.isOpen hopen now).sound hsome
          exact hkey (List.mem_toFinset.mpr hmem)
        rw [audience, Store.live, hnone, List.filter_nil]
      · rw [keys, List.sum_toFinset _ hnodup, List.map_map]
        apply List.sum_le_sum
        intro x hx
        have hfind : r.monitor.engine.find? x.key = some x :=
          Keyed.find?_eq_some_of_mem Record.key hnodup hx
        have hstored : Engine.stored r.monitor.engine x.key = x.queue.entries :=
          PerKey.stored_of_some hfind
        rw [Function.comp_apply, audience, Store.live, hstored]
        exact List.length_filter_le _ _

end Registry

namespace World

variable {w v : World} {i depth m n : Nat} {key : String} {value : Json}

/-- The registrations of all spaces that have not lapsed. -/
def registered (w : World) : Store ((_ : Nat) × String) Nat := fun x => w.audience x.1 x.2

/-- There are at most so many registrations. -/
def Nests (w : World) (n : Nat) : Prop := ∃ m ≤ n, w.registered.Holds m

theorem Nests.of_audience (hnests : w.Nests n) (hsame : v.audience = w.audience) : v.Nests n := by
  have hregistered : v.registered = w.registered := by
    funext x
    rw [registered, hsame, registered]
  rwa [Nests, hregistered]

theorem Untold.nests (huntold : Untold w v) (hnests : w.Nests n) : v.Nests n :=
  hnests.of_audience huntold.audience

/-- The registrations under one key of a space have become others. -/
theorem Registers.registered_eq {entries : List (Entry Nat)}
    (hregisters : Registers w i (Function.update (w.audience i) key entries) v) :
    v.registered = Function.update w.registered ⟨i, key⟩ entries := by
  funext ⟨j, k⟩
  rw [registered, hregisters.audience]
  by_cases hj : j = i
  · subst hj
    rw [Function.update_self]
    by_cases hk : k = key
    · subst hk
      rw [Function.update_self, Function.update_self]
    · rw [Function.update_of_ne hk, Function.update_of_ne (by simpa using hk)]
      rfl
  · rw [Function.update_of_ne hj, Function.update_of_ne (by simp [hj])]
    rfl

theorem Registers.nests {entries : List (Entry Nat)}
    (hregisters : Registers w i (Function.update (w.audience i) key entries) v)
    (hnests : w.Nests (n + (w.audience i key).length)) : v.Nests (n + entries.length) := by
  obtain ⟨m, hle, hholds⟩ := hnests
  have hpart : (w.audience i key).length ≤ m := hholds.length_le ⟨i, key⟩
  have hnext := hholds.update ⟨i, key⟩ entries
  rw [← hregisters.registered_eq] at hnext
  have hbefore : (w.registered ⟨i, key⟩).length = (w.audience i key).length := rfl
  exact ⟨_, by omega, hnext⟩

/-- Nobody is registered in a space any more. -/
theorem Registers.nests_nil (hregisters : Registers w i (fun _ => []) v) (hnests : w.Nests n) :
    v.Nests n := by
  obtain ⟨m, hle, hholds⟩ := hnests
  have hfewer : ∀ x, (v.registered x).length ≤ (w.registered x).length := by
    rintro ⟨j, k⟩
    rw [registered, hregisters.audience]
    by_cases hj : j = i
    · subst hj
      rw [Function.update_self]
      exact Nat.zero_le _
    · rw [Function.update_of_ne hj]
      exact Nat.le_refl _
  obtain ⟨m', hle', hholds'⟩ := hholds.mono hfewer
  exact ⟨m', hle'.trans hle, hholds'⟩

theorem Nests.mono (hnests : w.Nests m) (hle : m ≤ n) : w.Nests n := by
  obtain ⟨k, hk, hholds⟩ := hnests
  exact ⟨k, hk.trans hle, hholds⟩

/-! ## All registrations of a world -/

/-- The sum over a list, by places. -/
theorem sum_map_eq_sum_range {β : Type} (f : β → Nat) (l : List β) :
    (l.map f).sum = ∑ i ∈ Finset.range l.length, l[i]?.elim 0 f := by
  induction l with
  | nil => rfl
  | cons a l ih =>
      rw [List.map_cons, List.sum_cons, List.length_cons, Finset.sum_range_succ', ih,
        Nat.add_comm]
      rfl

/-- The number of registrations, lapsed ones included, bounds those that have not lapsed. -/
theorem Intact.nests_registrations (hintact : w.Intact) : w.Nests w.registrations := by
  let keys (i : Nat) : Finset String := (w.spaces[i]?.bind Space.registry).elim ∅ Registry.keys
  have hspaces : ∀ i, (∀ key ∉ keys i, w.audience i key = []) ∧
      ∑ key ∈ keys i, (w.audience i key).length ≤
        w.spaces.toList[i]?.elim 0 fun s => (s.registry.map Registry.size).getD 0 := by
    intro i
    rw [Array.getElem?_toList]
    cases hspace : w.spaces[i]? with
    | none =>
        have hnokeys : keys i = ∅ := by simp only [keys, hspace]; rfl
        rw [audience_of_none hspace, hnokeys]
        exact ⟨fun _ _ => rfl, Nat.le_refl _⟩
    | some s =>
        rw [audience_of_some hspace, Space.audience]
        cases hregistry : s.registry with
        | none =>
            have hnokeys : keys i = ∅ := by
              simp only [keys, hspace, Option.bind_some, hregistry]
              rfl
            rw [hnokeys]
            exact ⟨fun _ _ => rfl, Nat.zero_le _⟩
        | some r =>
            have hkeys : keys i = r.keys := by
              simp only [keys, hspace, Option.bind_some, hregistry]
              rfl
            rw [hkeys]
            have hbound := (hintact.registry hspace hregistry).sum_audience_le w.now
            simpa [hregistry] using hbound
  refine ⟨_, ?_, (Finset.range w.spaces.size).sigma keys, fun x hnot => ?_, rfl⟩
  · have hall : w.registrations = ∑ i ∈ Finset.range w.spaces.size,
        w.spaces.toList[i]?.elim 0 fun s => (s.registry.map Registry.size).getD 0 :=
      sum_map_eq_sum_range _ w.spaces.toList
    rw [Finset.sum_sigma, hall]
    exact Finset.sum_le_sum fun i _ => (hspaces i).2
  · obtain ⟨i, key⟩ := x
    by_cases hi : i < w.spaces.size
    · have hkey : key ∉ keys i := fun hmem =>
        hnot (Finset.mem_sigma.mpr ⟨Finset.mem_range.mpr hi, hmem⟩)
      exact (hspaces i).1 key hkey
    · rw [registered, audience_of_none (Array.getElem?_eq_none (Nat.le_of_not_lt hi))]

/-! ## Telling uses up registrations -/

theorem Intact.nests_addListener (hintact : w.Intact) (hnests : w.Nests n) (i : Nat)
    (key : String) (listener timeout : Nat) :
    (w.addListener i key listener timeout).1.Nests (n + 1) := by
  obtain ⟨registered, henrols, hregisters⟩ := hintact.addListener_spec i key listener timeout
  rcases henrols with ⟨e, _, _, _, rfl⟩ | ⟨_, rfl⟩
  · obtain ⟨m, hle, hholds⟩ := hnests
    have hpart : (w.audience i key).length ≤ m := hholds.length_le ⟨i, key⟩
    obtain ⟨k, rfl⟩ := Nat.exists_eq_add_of_le' (hpart.trans hle)
    have hnext := hregisters.nests ⟨m, hle, hholds⟩
    rw [List.length_append, List.length_singleton, ← Nat.add_assoc] at hnext
    exact hnext
  · refine (hnests.of_audience ?_).mono (Nat.le_succ n)
    rw [hregisters.audience, Function.update_eq_self]

/-- An insertion that tells listeners in a way that does not add registrations. -/
theorem nests_storeTelling {tell : World → Nat → String → Json → World}
    (htell : ∀ u i key value, u.Intact → u.Nests n → (tell u i key value).Nests n)
    (hintact : w.Intact) (hnests : w.Nests n) (i : Nat) (key : String) (value : Json)
    (timeout : Nat) (placement : Placement) :
    (w.storeTelling tell i key value timeout placement).1.Nests n := by
  have hstored := (works_store (c := none) w i key value timeout placement).toLeads.intact hintact
  have hnests' := (untold_store w i key value timeout placement).nests hnests
  rw [storeTelling_eq]
  split
  · exact htell _ i key value hstored hnests'
  · exact hnests'

theorem Intact.tellOne (hintact : w.Intact) (depth i : Nat) (key : String) (value : Json)
    (listener : Nat) : (World.tellOne (tell depth) i key value w listener).Intact :=
  (works_tellOne (works_tell depth) i key value w listener).toLeads.intact hintact

/-- Whatever a listener does when it is told, at most one registration is new. -/
theorem nests_tellOne {tell : World → Nat → String → Json → World}
    (htell : ∀ u i key value, u.Intact → u.Nests n → (tell u i key value).Nests n)
    (hintact : w.Intact) (hnests : w.Nests n) (i : Nat) (key : String) (value : Json)
    (listener : Nat) : (tellOne tell i key value w listener).Nests (n + 1) := by
  rw [tellOne_eq]
  cases w.listeners[listener]? with
  | none => exact (hnests.of_audience (audience_countEvent w i _)).mono (Nat.le_succ n)
  | some l =>
      have hcalled := hintact.called i key value l
      have hnests' : (w.called i key value l).Nests n :=
        hnests.of_audience (audience_called w i key value l)
      simp only []
      generalize w.called i key value l = u at hcalled hnests' ⊢
      unfold react
      cases l.reaction with
      | note => exact hnests'.mono (Nat.le_succ n)
      | panic => exact (hnests'.of_audience (audience_countEvent u i _)).mono (Nat.le_succ n)
      | close => exact ((hcalled.closeUnsettled_spec l.home).nests_nil hnests').mono (Nat.le_succ n)
      | again => exact hcalled.nests_addListener hnests' l.home key listener 0
      | take =>
          exact ((untold_probeUnsettled u l.home .take key _).nests hnests').mono (Nat.le_succ n)
      | out k v =>
          exact (nests_storeTelling htell hcalled hnests' l.home k v 0 .tail).mono (Nat.le_succ n)

/-- Telling one listener after another, each adds at most one registration. -/
theorem nests_foldl (depth : Nat)
    (htell : ∀ n u i key value, u.Intact → u.Nests n → (tell depth u i key value).Nests n)
    (i : Nat) (key : String) (value : Json) (ids : List Nat) (hintact : w.Intact)
    (hnests : w.Nests n) :
    (ids.foldl (tellOne (tell depth) i key value) w).Nests (n + ids.length) := by
  induction ids generalizing w n with
  | nil => exact hnests
  | cons listener ids ih =>
      have hnext := ih (hintact.tellOne depth i key value listener)
        (nests_tellOne (htell n) hintact hnests i key value listener)
      rwa [Nat.add_assoc, Nat.add_comm 1] at hnext

/-- The registrations that are left once the listeners under a key have been taken. -/
theorem Intact.nests_drainListeners (hintact : w.Intact) (hnests : w.Nests n) (i : Nat)
    (key : String) : ∃ m, n = m + (w.audience i key).length ∧
      (w.drainListeners i key).1.Nests m := by
  obtain ⟨k, hle, hholds⟩ := hnests
  have hpart : (w.audience i key).length ≤ k := hholds.length_le ⟨i, key⟩
  obtain ⟨m, rfl⟩ := Nat.exists_eq_add_of_le' (hpart.trans hle)
  exact ⟨m, rfl, (hintact.drainListeners_spec i key).2.nests ⟨k, hle, hholds⟩⟩

/-- When all have been told there are at most as many registrations as before. -/
theorem Intact.nests_tell (hintact : w.Intact) (hnests : w.Nests n) (depth i : Nat)
    (key : String) (value : Json) : (tell depth w i key value).Nests n := by
  induction depth generalizing w n i key value with
  | zero => exact hnests
  | succ depth ih =>
      obtain ⟨m, rfl, hdrained⟩ := hintact.nests_drainListeners hnests i key
      have hintact' := (works_drainListeners (c := none) w i key).toLeads.intact hintact
      have htold := nests_foldl depth
        (fun n u i key value hu hn => ih hu hn i key value) i key value
        (w.drainListeners i key).2 hintact' hdrained
      rw [congrArg List.length (hintact.drainListeners_spec i key).1, List.length_map] at htold
      exact htold

/-! ## Nesting comes to an end -/

/-- It makes no difference to an insertion how listeners are told, if they are told alike. -/
theorem storeTelling_congr {tell tell' : World → Nat → String → Json → World}
    (hsame : ∀ u i key value, u.Intact → u.Nests n → tell' u i key value = tell u i key value)
    (hintact : w.Intact) (hnests : w.Nests n) (i : Nat) (key : String) (value : Json)
    (timeout : Nat) (placement : Placement) :
    w.storeTelling tell' i key value timeout placement =
      w.storeTelling tell i key value timeout placement := by
  have hstored := (works_store (c := none) w i key value timeout placement).toLeads.intact hintact
  have hless := (untold_store w i key value timeout placement).nests hnests
  rw [storeTelling_eq, storeTelling_eq, hsame _ i key value hstored hless]

/-- It makes no difference to a listener how those are told that it makes others tell, if they are
told alike. -/
theorem tellOne_congr {tell tell' : World → Nat → String → Json → World}
    (hsame : ∀ u i key value, u.Intact → u.Nests n → tell' u i key value = tell u i key value)
    (hintact : w.Intact) (hnests : w.Nests n) (i : Nat) (key : String) (value : Json)
    (listener : Nat) :
    tellOne tell' i key value w listener = tellOne tell i key value w listener := by
  rw [tellOne_eq, tellOne_eq]
  cases w.listeners[listener]? with
  | none => rfl
  | some l =>
      have hcalled := hintact.called i key value l
      have hnests' : (w.called i key value l).Nests n :=
        hnests.of_audience (audience_called w i key value l)
      simp only []
      generalize w.called i key value l = u at hcalled hnests' ⊢
      unfold react
      cases l.reaction with
      | out k v =>
          exact congrArg Prod.fst (storeTelling_congr hsame hcalled hnests' l.home k v 0 .tail)
      | _ => rfl

/-- One after another is told alike, if whatever each of them makes others tell is told alike. -/
theorem foldl_tellOne_congr (depth bound : Nat) {tell' : World → Nat → String → Json → World}
    (hsame : ∀ n < bound, ∀ u i key value, u.Intact → u.Nests n →
      tell' u i key value = tell depth u i key value)
    (i : Nat) (key : String) (value : Json) (ids : List Nat) (hintact : w.Intact)
    (hnests : w.Nests n) (hle : n + ids.length ≤ bound) :
    ids.foldl (tellOne tell' i key value) w =
      ids.foldl (tellOne (tell depth) i key value) w := by
  induction ids generalizing w n with
  | nil => rfl
  | cons listener ids ih =>
      rw [List.length_cons] at hle
      have hfirst := tellOne_congr (hsame n (by omega)) hintact hnests i key value listener
      rw [List.foldl_cons, List.foldl_cons, hfirst]
      refine ih (hintact.tellOne depth i key value listener) ?_ (by omega : n + 1 + _ ≤ bound)
      exact nests_tellOne (fun u i key value hu hn => hu.nests_tell hn depth i key value) hintact
        hnests i key value listener

/-- Insertions nest less deep than there are registrations: more room makes no difference. -/
theorem Intact.tell_succ (hintact : w.Intact) (hnests : w.Nests n) (hlt : n < depth) (i : Nat)
    (key : String) (value : Json) :
    tell (depth + 1) w i key value = tell depth w i key value := by
  induction depth generalizing w n i key value with
  | zero => exact absurd hlt (Nat.not_lt_zero n)
  | succ depth ih =>
      obtain ⟨m, rfl, hdrained⟩ := hintact.nests_drainListeners hnests i key
      have hintact' := (works_drainListeners (c := none) w i key).toLeads.intact hintact
      have hids := congrArg List.length (hintact.drainListeners_spec i key).1
      rw [List.length_map] at hids
      exact foldl_tellOne_congr depth depth
        (fun n hn u i key value hu hnests => ih hu hnests hn i key value) i key value
        (w.drainListeners i key).2 hintact' hdrained (by omega)

theorem Intact.tell_of_le (hintact : w.Intact) (hnests : w.Nests n) (hlt : n < depth) {more : Nat}
    (hle : depth ≤ more) (i : Nat) (key : String) (value : Json) :
    tell more w i key value = tell depth w i key value := by
  induction more, hle using Nat.le_induction with
  | base => rfl
  | succ more hle ih => exact (hintact.tell_succ hnests (hlt.trans_le hle) i key value).trans ih

/-- Tells the listeners registered under a key, however deep insertions nest. -/
def announce (w : World) (i : Nat) (key : String) (value : Json) : World :=
  tell (w.registrations + 1) w i key value

theorem Intact.tell_eq_announce (hintact : w.Intact) (hnests : w.Nests n) (hlt : n < depth)
    (i : Nat) (key : String) (value : Json) :
    tell depth w i key value = w.announce i key value := by
  have hall := hintact.nests_registrations
  calc tell depth w i key value
      _ = tell (max depth (w.registrations + 1)) w i key value :=
          (hintact.tell_of_le hnests hlt (Nat.le_max_left _ _) i key value).symm
      _ = w.announce i key value :=
          hintact.tell_of_le hall (Nat.lt_succ_self _) (Nat.le_max_right _ _) i key value

/-- Everybody who is registered under a key is told, one after the other, and whatever an insertion
by one of them makes others hear is told in the same way. -/
theorem Intact.announce_eq (hintact : w.Intact) (i : Nat) (key : String) (value : Json) :
    w.announce i key value =
      ((w.audience i key).map Entry.value).foldl (World.tellOne announce i key value)
        (w.drainListeners i key).1 := by
  obtain ⟨m, hm, hdrained⟩ := hintact.nests_drainListeners hintact.nests_registrations i key
  have hintact' := (works_drainListeners (c := none) w i key).toLeads.intact hintact
  have hsame := foldl_tellOne_congr w.registrations w.registrations
    (fun n hn u i key value hu hnests => (hu.tell_eq_announce hnests hn i key value).symm)
    i key value (w.drainListeners i key).2 hintact' hdrained (by
      rw [congrArg List.length (hintact.drainListeners_spec i key).1, List.length_map]
      omega)
  rw [← (hintact.drainListeners_spec i key).1]
  exact hsame.symm

theorem insertUnsettled_eq (hintact : w.Intact) (i : Nat) (key : String) (value : Json)
    (timeout : Nat) (placement : Placement) :
    w.insertUnsettled i key value timeout placement =
      w.storeTelling announce i key value timeout placement :=
  storeTelling_congr
    (fun _ i key value hu hnests => hu.tell_eq_announce hnests (Nat.lt_succ_self _) i key value)
    hintact hintact.nests_registrations i key value timeout placement

end World

end TupleSpace
