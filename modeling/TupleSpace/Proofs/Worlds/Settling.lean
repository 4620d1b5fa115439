import TupleSpace.Proofs.Closing

/-!
# Operations that visit every space

The cancellation of a token is announced in every space, and then the ready calls of every space
run.  Both visit the spaces in the order of their numbers, and the visit of one space does not
concern the others: it leaves them as they are, and the ends of calls that it hands out touch no
space.  So every space is visited as it was in the beginning, but for the number of its next wait,
and the ends that have been handed out in the end are those of all spaces.
-/

namespace TupleSpace

namespace World

variable {w v : World} {i n : Nat} {s : Space}

/-! ## Handing out ends of calls -/

/-- Handing out the end of a call concerns the futures and the ended calls only. -/
theorem deliver_eq (hfutures : v.futures = w.futures) (hended : v.ended = w.ended)
    (f : Finished Json) :
    v.deliver f = { v with futures := (w.deliver f).futures, ended := (w.deliver f).ended } := by
  have hfuture : v.future? f.ticket = w.future? f.ticket := by
    rw [future?, hfutures, future?]
  unfold deliver
  rw [hfuture]
  split
  · simp only [hended, ← hfutures]
  · split
    · simp only [dropFuture, hfutures, ← hended]
    · simp only [updateFuture, hfutures, ← hended]

theorem foldl_deliver_eq (hfutures : v.futures = w.futures) (hended : v.ended = w.ended)
    (fs : List (Finished Json)) :
    fs.foldl deliver v =
      { v with
        futures := (fs.foldl deliver w).futures
        ended := (fs.foldl deliver w).ended } := by
  induction fs generalizing v w with
  | nil => rw [List.foldl_nil, List.foldl_nil, ← hfutures, ← hended]
  | cons f fs ih =>
      have hfirst := deliver_eq hfutures hended f
      have hrest := ih (w := w.deliver f) (v := v.deliver f) (by rw [hfirst]) (by rw [hfirst])
      rw [List.foldl_cons, List.foldl_cons, hrest]
      simp only [hfirst]

/-- A world in which some ends of calls have been handed out, and something has happened to the
spaces. -/
def handedOut (w : World) (fs : List (Finished Json)) (spaces : Array Space) (stamp : Nat) :
    World :=
  { w with
    spaces, stamp
    futures := (fs.foldl deliver w).futures
    ended := (fs.foldl deliver w).ended }

theorem handedOut_handedOut (w : World) (fs more : List (Finished Json))
    (spaces spaces' : Array Space) (stamp stamp' : Nat) :
    (w.handedOut fs spaces stamp).handedOut more spaces' stamp' =
      w.handedOut (fs ++ more) spaces' stamp' := by
  have hrest := foldl_deliver_eq (w := fs.foldl deliver w) (v := w.handedOut fs spaces stamp)
    rfl rfl more
  rw [handedOut, hrest, handedOut, handedOut, List.foldl_append]

/-! ## Visits -/

/-- The spaces with the first numbers have been visited, and the ends of calls that came of it
handed out.  What a visit does to a space may depend on the number of its next wait. -/
structure Visited (visit : Nat → Space → Space × List (Finished Json)) (w : World) (n : Nat)
    (fs : List (Finished Json)) (v : World) : Prop where
  others : ∃ spaces stamp, v = w.handedOut fs spaces stamp
  size : v.spaces.size = w.spaces.size
  later : ∀ i : Nat, n ≤ i → v.spaces[i]? = w.spaces[i]?
  space : ∀ (i : Nat) (s : Space), i < n → w.spaces[i]? = some s →
    ∃ stamp, v.spaces[i]? = some (visit stamp s).1 ∧ (visit stamp s).2 ⊆ fs
  ended : ∀ f ∈ fs, ∃ (i : Nat) (s : Space) (stamp : Nat),
    w.spaces[i]? = some s ∧ f ∈ (visit stamp s).2

variable {visit : Nat → Space → Space × List (Finished Json)} {fs : List (Finished Json)}

/-- One more space is visited. -/
theorem Visited.succ (hvisited : Visited visit w n fs v) {v' : World}
    {more : List (Finished Json)} (hn : n < w.spaces.size)
    (hothers : ∃ spaces stamp, v' = v.handedOut more spaces stamp)
    (hsize : v'.spaces.size = v.spaces.size)
    (hself : ∀ s, v.spaces[n]? = some s →
      ∃ stamp, v'.spaces[n]? = some (visit stamp s).1 ∧ (visit stamp s).2 = more)
    (helse : ∀ j, j ≠ n → v'.spaces[j]? = v.spaces[j]?) :
    Visited visit w (n + 1) (fs ++ more) v' := by
  have hspace : w.spaces[n]? = some w.spaces[n] := Array.getElem?_eq_getElem hn
  obtain ⟨stamp', hnow, hmore⟩ := hself _ ((hvisited.later n (Nat.le_refl n)).trans hspace)
  refine ⟨?_, hsize.trans hvisited.size, fun i hi => ?_, fun i s hi hs => ?_, fun f hf => ?_⟩
  · obtain ⟨spaces, stamp, heq⟩ := hvisited.others
    obtain ⟨spaces', stamp', heq'⟩ := hothers
    exact ⟨spaces', stamp', by rw [heq', heq, handedOut_handedOut]⟩
  · rw [helse i (by omega)]
    exact hvisited.later i (by omega)
  · by_cases hlast : i = n
    · subst hlast
      cases hs.symm.trans hspace
      exact ⟨stamp', hnow, hmore ▸ List.subset_append_right _ _⟩
    · obtain ⟨stamp, hbefore, hsubset⟩ := hvisited.space i s (by omega) hs
      exact ⟨stamp, (helse i hlast).trans hbefore, fun f hf =>
        List.mem_append_left _ (hsubset hf)⟩
  · rcases List.mem_append.mp hf with hf | hf
    · exact hvisited.ended f hf
    · exact ⟨n, _, stamp', hspace, hmore ▸ hf⟩

/-- Steps that visit one space each visit them all. -/
theorem visited_range (visit : Nat → Space → Space × List (Finished Json))
    (step : World → Nat → World) (w : World)
    (hstep : ∀ v i, v.now = w.now → v.cancelled = w.cancelled →
      ∃ more, (∃ spaces stamp, step v i = v.handedOut more spaces stamp) ∧
        (step v i).spaces.size = v.spaces.size ∧
        (∀ s, v.spaces[i]? = some s →
          ∃ stamp, (step v i).spaces[i]? = some (visit stamp s).1 ∧ (visit stamp s).2 = more) ∧
        ∀ j, j ≠ i → (step v i).spaces[j]? = v.spaces[j]?)
    (hn : n ≤ w.spaces.size) : ∃ fs, Visited visit w n fs ((List.range n).foldl step w) := by
  induction n with
  | zero =>
      exact ⟨[], ⟨_, _, rfl⟩, rfl, fun _ _ => rfl, fun i _ hi => absurd hi (Nat.not_lt_zero i),
        nofun⟩
  | succ n ih =>
      obtain ⟨fs, hvisited⟩ := ih (Nat.le_of_succ_le hn)
      have hsame : ((List.range n).foldl step w).now = w.now ∧
          ((List.range n).foldl step w).cancelled = w.cancelled := by
        obtain ⟨spaces, stamp, heq⟩ := hvisited.others
        rw [heq]
        exact ⟨rfl, rfl⟩
      obtain ⟨more, hothers, hsize, hself, helse⟩ := hstep _ n hsame.1 hsame.2
      rw [List.range_succ, List.foldl_concat]
      exact ⟨fs ++ more, hvisited.succ hn hothers hsize hself helse⟩

/-! ## Cancelling and settling -/

/-- The cancellation of a token is announced in a space. -/
def announceIn (token stamp : Nat) (s : Space) : Space :=
  { stampSpace stamp s with
    backing := ((stampSpace stamp s).backing.modify fun m => (m.cancel token, ())).1 }

/-- The ready calls of a space run. -/
def settleIn (now : Nat) (cancelled : List Nat) (stamp : Nat) (s : Space) :
    Space × List (Finished Json) :=
  let settled := (stampSpace stamp s).backing.modify fun m => m.settle now cancelled
  ({ stampSpace stamp s with backing := settled.1 }, settled.2)

/-- Before any ready call runs, the cancellation of a token has been announced in every space. -/
theorem cancelUnsettled_visited (w : World) (token : Nat) :
    ∃ cancelled, (∀ t, t ∈ cancelled ↔ t ∈ token :: w.cancelled) ∧
      Visited (fun stamp s => (announceIn token stamp s, [])) { w with cancelled } w.spaces.size []
        (w.cancelUnsettled token) := by
  let cancelled := if token ∈ w.cancelled then w.cancelled else token :: w.cancelled
  refine ⟨cancelled, fun t => ?_, ?_⟩
  · unfold cancelled
    split
    · rename_i hknown
      refine ⟨List.mem_cons_of_mem token, fun hmem => ?_⟩
      rcases List.mem_cons.mp hmem with rfl | hmem
      · exact hknown
      · exact hmem
    · exact Iff.rfl
  · obtain ⟨fs, hvisited⟩ := visited_range (fun stamp s => (announceIn token stamp s, []))
      (fun v i => (v.onMonitor i () fun m => (m.cancel token, ())).1) { w with cancelled }
      (fun v i _ _ => by
        obtain ⟨spaces, stamp, heq, hsize, hself, helse⟩ :=
          onMonitor_spec v i () fun m => (m.cancel token, ())
        rw [heq]
        exact ⟨[], ⟨spaces, stamp, rfl⟩, hsize, fun s hs => ⟨v.stamp, hself s hs, rfl⟩, helse⟩)
      (Nat.le_refl _)
    have hnone : fs = [] := by
      rw [List.eq_nil_iff_forall_not_mem]
      intro f hf
      obtain ⟨_, _, _, _, hmem⟩ := hvisited.ended f hf
      cases hmem
    exact hnone ▸ hvisited

/-- In the end the ready calls of every space have run. -/
theorem settle_visited (w : World) :
    ∃ fs, Visited (settleIn w.now w.cancelled) w w.spaces.size fs w.settle := by
  apply visited_range (settleIn w.now w.cancelled) settleSpace w _ (Nat.le_refl _)
  intro v i hnow hcancelled
  obtain ⟨spaces, stamp, heq, hsize, hself, helse⟩ :=
    onMonitor_spec v i [] fun m => m.settle v.now v.cancelled
  have hsettled : v.settleSpace i =
      v.handedOut (v.onMonitor i [] fun m => m.settle v.now v.cancelled).2 spaces stamp := by
    rw [settleSpace_eq, heq]
    exact foldl_deliver_eq (w := v) (v := { v with spaces, stamp }) rfl rfl _
  refine ⟨_, ⟨spaces, stamp, hsettled⟩, by rw [hsettled]; exact hsize, fun s hs => ?_, by
    rw [hsettled]; exact helse⟩
  refine ⟨v.stamp, ?_, ?_⟩
  · rw [hsettled, settleIn, ← hnow, ← hcancelled]
    exact hself s hs
  · rw [settleIn, ← hnow, ← hcancelled, onMonitor, onSpace_result _ _ hs]

end World

end TupleSpace
