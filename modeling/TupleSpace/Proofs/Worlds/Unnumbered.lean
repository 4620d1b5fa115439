import TupleSpace.Proofs.Worlds.Deeds

/-!
# Worlds without the numbers of their next waits

Whenever a space is used it is told the number of the next wait of the world, and nobody sees these
numbers.  A world that is the same as another but for them is the same to everybody: so are the
keys, sizes, metrics, registrations and blocked calls of its spaces, the files, the directory, and
the outcomes that wait to be fetched.
-/

namespace TupleSpace

namespace World

variable {w v : World} {i : Nat} {s s' : Space} {β : Type}

/-- A world without the numbers of its next waits. -/
def unnumbered (w : World) : World :=
  { w with stamp := 0, spaces := w.spaces.map (stampSpace 0) }

/-- A world with another space under a number. -/
def replace (w : World) (i : Nat) (s : Space) : World :=
  { w with spaces := w.spaces.setIfInBounds i s }

@[simp]
theorem stampSpace_stampSpace (stamp earlier : Nat) (s : Space) :
    stampSpace stamp (stampSpace earlier s) = stampSpace stamp s := by
  obtain ⟨b, registry, _⟩ := s
  cases b <;> cases registry <;> rfl

/-- Spaces that are the same without numbers are the same under the same numbers. -/
theorem stampSpace_congr (heq : stampSpace 0 s' = stampSpace 0 s) (stamp : Nat) :
    stampSpace stamp s' = stampSpace stamp s := by
  rw [← stampSpace_stampSpace stamp 0 s', heq, stampSpace_stampSpace]

theorem getElem?_unnumbered (w : World) (i : Nat) :
    w.unnumbered.spaces[i]? = w.spaces[i]?.map (stampSpace 0) :=
  Array.getElem?_map

/-- The spaces of a world that differs from another in numbers only. -/
theorem space_of_unnumbered (heq : v.unnumbered = w.unnumbered)
    (hspace : w.spaces[i]? = some s) :
    ∃ x, v.spaces[i]? = some x ∧ stampSpace 0 x = stampSpace 0 s := by
  have hsame := getElem?_unnumbered v i
  rw [heq, getElem?_unnumbered, hspace] at hsame
  exact Option.map_eq_some_iff.mp hsame.symm

theorem unnumbered_replace (w : World) (i : Nat) (s : Space) :
    (w.replace i s).unnumbered = w.unnumbered.replace i (stampSpace 0 s) := by
  simp only [replace, unnumbered, Array.map_setIfInBounds]

theorem unnumbered_replace_congr (heq : v.unnumbered = w.unnumbered)
    (hs : stampSpace 0 s' = stampSpace 0 s) :
    (v.replace i s').unnumbered = (w.replace i s).unnumbered := by
  rw [unnumbered_replace, unnumbered_replace, heq, hs]

theorem replace_replace (w : World) (i : Nat) (s s' : Space) :
    (w.replace i s).replace i s' = w.replace i s' := by
  simp only [replace, Array.setIfInBounds_setIfInBounds]

theorem replace_self (hspace : w.spaces[i]? = some s) : w.replace i s = w := by
  obtain ⟨hlt, rfl⟩ := Array.getElem?_eq_some_iff.mp hspace
  rw [replace, Array.setIfInBounds_def, dif_pos hlt, Array.set_getElem_self]

theorem unnumbered_deliver (w : World) (f : Finished Json) :
    (w.deliver f).unnumbered = w.unnumbered.deliver f := by
  have hfuture : w.unnumbered.future? f.ticket = w.future? f.ticket := rfl
  unfold deliver
  rw [hfuture]
  split
  · rfl
  · split <;> rfl

theorem unnumbered_foldl_deliver (w : World) (fs : List (Finished Json)) :
    (fs.foldl deliver w).unnumbered = fs.foldl deliver w.unnumbered := by
  induction fs generalizing w with
  | nil => rfl
  | cons f fs ih => rw [List.foldl_cons, ih, unnumbered_deliver, List.foldl_cons]

/-- What becomes of a world by an operation on one of its spaces. -/
theorem unnumbered_onSpace (missing : β) {f : Space → Space × β}
    (hspace : w.spaces[i]? = some s)
    (hf : stampSpace 0 (f (stampSpace w.stamp s)).1 = stampSpace 0 s') :
    (w.onSpace i missing f).1.unnumbered = (w.replace i s').unnumbered := by
  have hnext : (w.onSpace i missing f).1 =
      { w.replace i (f (stampSpace w.stamp s)).1 with
        stamp := max w.stamp (spaceStamp (f (stampSpace w.stamp s)).1) } := by
    simp only [onSpace, hspace, replace]
  rw [hnext]
  exact unnumbered_replace_congr (v := w) rfl hf

/-- An operation that leaves the monitor of a space alone. -/
theorem onMonitor_of_still (missing : β) {b : β}
    {f : {σ : Type} → [Engine σ String Json] → Monitor σ String Json → Monitor σ String Json × β}
    (hspace : w.spaces[i]? = some s)
    (hstill : (stampSpace w.stamp s).backing.modify f = ((stampSpace w.stamp s).backing, b)) :
    (w.onMonitor i missing f).1.unnumbered = w.unnumbered ∧ (w.onMonitor i missing f).2 = b := by
  constructor
  · have hnext : (w.onMonitor i missing f).1.unnumbered = (w.replace i s).unnumbered := by
      apply unnumbered_onSpace missing hspace
      simp only [hstill]
      exact stampSpace_stampSpace ..
    rw [hnext, replace_self hspace]
  · rw [onMonitor, onSpace_result _ _ hspace]
    simp only [hstill]

/-! ## Calm worlds -/

theorem Calm.of_unnumbered (hcalm : w.Calm) (heq : v.unnumbered = w.unnumbered) : v.Calm := by
  intro i s hspace
  obtain ⟨x, hx, hsame⟩ := space_of_unnumbered heq.symm hspace
  rw [← calm_stampSpace 0, ← hsame, calm_stampSpace]
  exact hcalm i x hx

theorem Calm.replace (hcalm : w.Calm) (i : Nat) (hs : s.backing.Calm) : (w.replace i s).Calm := by
  intro j x hx
  replace hx : (w.spaces.setIfInBounds i s)[j]? = some x := hx
  rw [Array.getElem?_setIfInBounds] at hx
  split at hx
  · split at hx
    · cases hx
      exact hs
    · cases hx
  · exact hcalm j x hx

/-- Nothing runs in a space in which no call is ready. -/
theorem settleSpace_of_calm (hcalm : ∀ s, w.spaces[i]? = some s → s.backing.Calm) :
    (w.settleSpace i).unnumbered = w.unnumbered := by
  cases hspace : w.spaces[i]? with
  | none =>
      have hnothing : w.settleSpace i = w := by
        simp only [settleSpace, onMonitor, onSpace, hspace, List.foldl_nil]
      rw [hnothing]
  | some s =>
      obtain ⟨hstill, hnone⟩ := onMonitor_of_still [] hspace
        (((calm_stampSpace w.stamp s).mpr (hcalm s hspace)).settle w.now w.cancelled)
      rw [settleSpace_eq, hnone, List.foldl_nil]
      exact hstill

theorem foldl_settleSpace_of_calm (places : List Nat)
    (hcalm : ∀ i ∈ places, ∀ s, w.spaces[i]? = some s → s.backing.Calm) :
    (places.foldl settleSpace w).unnumbered = w.unnumbered := by
  induction places generalizing w with
  | nil => rfl
  | cons i places ih =>
      have hfirst := settleSpace_of_calm (hcalm i List.mem_cons_self)
      rw [List.foldl_cons, ih, hfirst]
      intro j hj s hspace
      obtain ⟨x, hx, hsame⟩ := space_of_unnumbered hfirst.symm hspace
      rw [← calm_stampSpace 0, ← hsame, calm_stampSpace]
      exact hcalm j (List.mem_cons_of_mem i hj) x hx

/-- Nothing runs in a world in which no call is ready. -/
theorem Calm.settle (hcalm : w.Calm) : w.settle.unnumbered = w.unnumbered :=
  foldl_settleSpace_of_calm _ fun i _ s hspace => hcalm i s hspace

end World

end TupleSpace
