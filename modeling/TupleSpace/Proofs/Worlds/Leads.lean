import TupleSpace.Proofs.Worlds.Spaces
import TupleSpace.World.Closing

/-!
# What becomes of the spaces of a world

A step of a world keeps every space intact, under its name and with its file; what has been closed
stays closed, and spaces that come to it are intact.  Such steps follow one another, so what is
shown here of each operation holds of everything that operations are made of, and of every sequence
of them.

While a space is being closed there is a time at which it refuses operations and still has its
storage, and other calls may run then.  So a step also says which space is being closed before and
after it, if any.
-/

namespace TupleSpace

namespace World

variable {w w' w'' : World} {c c' c'' : Option Nat} {i j : Nat} {name : String} {s : Space}
  {β : Type}

/-- A world has an intact space with a number and a name; `closing` is the space that somebody is
closing. -/
structure Holds (w : World) (closing : Option Nat) (i : Nat) (name : String) (s : Space) : Prop
    where
  space : w.spaces[i]? = some s
  intact : s.Intact name w.now w.cancelled (decide (closing = some i))

/-- Futures have been numbered. -/
def Numbered (w : World) : Prop := ∀ f ∈ w.futures, f.ticket < w.nextTicket

/-- A world in which the spaces have gone on. -/
structure Leads (c : Option Nat) (w : World) (c' : Option Nat) (w' : World) : Prop where
  size : w.spaces.size ≤ w'.spaces.size
  kept : ∀ {i name s}, w.Holds c i name s → ∃ s', w'.Holds c' i name s' ∧ s.Becomes s'
  fresh : ∀ {i s'}, w.spaces.size ≤ i → w'.spaces[i]? = some s' →
    (∃ name, w'.Holds c' i name s') ∧ s'.Receptive
  numbered : w.Numbered → w'.Numbered

/-- A world in which the spaces have gone on and the directory has been left alone. -/
structure Works (c : Option Nat) (w : World) (c' : Option Nat) (w' : World) : Prop
    extends Leads c w c' w' where
  directory : w'.directory = w.directory

theorem Leads.trans (hfirst : Leads c w c' w') (hsecond : Leads c' w' c'' w'') :
    Leads c w c'' w'' where
  size := hfirst.size.trans hsecond.size
  kept hholds := by
    obtain ⟨s', hholds', hbecomes⟩ := hfirst.kept hholds
    obtain ⟨s'', hholds'', hbecomes'⟩ := hsecond.kept hholds'
    exact ⟨s'', hholds'', hbecomes.trans hbecomes'⟩
  fresh {i s''} hle hspace := by
    rcases Nat.lt_or_ge i w'.spaces.size with hlt | hge
    · obtain ⟨⟨name, hholds⟩, hreceptive⟩ := hfirst.fresh hle (Array.getElem?_eq_getElem hlt)
      obtain ⟨x, hholds', hbecomes⟩ := hsecond.kept hholds
      cases hspace.symm.trans hholds'.space
      exact ⟨⟨name, hholds'⟩, hbecomes.receptive hreceptive⟩
    · exact hsecond.fresh hge hspace
  numbered := hsecond.numbered ∘ hfirst.numbered

theorem Works.trans (hfirst : Works c w c' w') (hsecond : Works c' w' c'' w'') :
    Works c w c'' w'' :=
  ⟨hfirst.toLeads.trans hsecond.toLeads, hsecond.directory.trans hfirst.directory⟩

/-- A step that does nothing to a space. -/
theorem Leads.of_spaces (hspaces : w'.spaces = w.spaces) (hnow : w'.now = w.now)
    (hcancelled : w'.cancelled = w.cancelled) (hnumbered : w.Numbered → w'.Numbered) :
    Leads c w c w' where
  size := by rw [hspaces]
  kept {i name s} hholds := by
    refine ⟨s, ⟨hspaces ▸ hholds.space, ?_⟩, .refl s⟩
    rw [hnow, hcancelled]
    exact hholds.intact
  fresh hle hspace := by
    rw [hspaces, Array.getElem?_eq_none hle] at hspace
    cases hspace
  numbered := hnumbered

theorem Works.of_spaces (hspaces : w'.spaces = w.spaces) (hnow : w'.now = w.now)
    (hcancelled : w'.cancelled = w.cancelled) (hnumbered : w.Numbered → w'.Numbered)
    (hdirectory : w'.directory = w.directory) : Works c w c w' :=
  ⟨.of_spaces hspaces hnow hcancelled hnumbered, hdirectory⟩

theorem Works.refl (c : Option Nat) (w : World) : Works c w c w := .of_spaces rfl rfl rfl id rfl

/-- One step after another. -/
theorem Works.foldl {α : Type} {f : World → α → World} (hstep : ∀ w a, Works c w c (f w a))
    (l : List α) (w : World) : Works c w c (l.foldl f w) := by
  induction l generalizing w with
  | nil => exact .refl c w
  | cons a l ih => exact (hstep w a).trans (ih (f w a))

/-! ## Operations on one space -/

/-- An operation on one space leaves the others alone, and everything else but the stamp. -/
theorem onSpace_spec (w : World) (i : Nat) (missing : β) (f : Space → Space × β) :
    ∃ spaces stamp, (w.onSpace i missing f).1 = { w with spaces, stamp } ∧
      spaces.size = w.spaces.size ∧
      (∀ s, w.spaces[i]? = some s → spaces[i]? = some (f (stampSpace w.stamp s)).1) ∧
      ∀ j, j ≠ i → spaces[j]? = w.spaces[j]? := by
  cases hspace : w.spaces[i]? with
  | none =>
      have hnothing : (w.onSpace i missing f).1 = w := by simp only [onSpace, hspace]
      refine ⟨w.spaces, w.stamp, hnothing, rfl, fun s hs => ?_, fun _ _ => rfl⟩
      cases hs
  | some s =>
      obtain ⟨hlt, _⟩ := Array.getElem?_eq_some_iff.mp hspace
      let next := (f (stampSpace w.stamp s)).1
      have hnext : (w.onSpace i missing f).1 =
          { w with
            spaces := w.spaces.setIfInBounds i next
            stamp := max w.stamp (spaceStamp next) } := by
        simp only [onSpace, hspace, next]
      refine ⟨_, _, hnext, Array.size_setIfInBounds, ?_, fun j hj => ?_⟩
      · rintro x ⟨⟩
        rw [Array.getElem?_setIfInBounds_self_of_lt hlt]
      · rw [Array.getElem?_setIfInBounds_ne hj.symm]

/-- An operation on a monitor is one on its space. -/
theorem onMonitor_spec (w : World) (i : Nat) (missing : β)
    (f : {σ : Type} → [Engine σ String Json] → Monitor σ String Json → Monitor σ String Json × β) :
    ∃ spaces stamp, (w.onMonitor i missing f).1 = { w with spaces, stamp } ∧
      spaces.size = w.spaces.size ∧
      (∀ s, w.spaces[i]? = some s → spaces[i]? = some { stampSpace w.stamp s with
        backing := ((stampSpace w.stamp s).backing.modify f).1 }) ∧
      ∀ j, j ≠ i → spaces[j]? = w.spaces[j]? :=
  onSpace_spec w i missing _

/-- What an operation on one space returns. -/
theorem onSpace_result (missing : β) (f : Space → Space × β) (hspace : w.spaces[i]? = some s) :
    (w.onSpace i missing f).2 = (f (stampSpace w.stamp s)).2 := by
  simp only [onSpace, hspace]

/-- An operation that keeps a space intact. -/
theorem works_onSpace (missing : β) {f : Space → Space × β}
    (hothers : ∀ j, j ≠ i → decide (c' = some j) = decide (c = some j))
    (hf : ∀ {name s}, w.spaces[i]? = some s →
      (stampSpace w.stamp s).Intact name w.now w.cancelled (decide (c = some i)) →
      (f (stampSpace w.stamp s)).1.Intact name w.now w.cancelled (decide (c' = some i)) ∧
        (stampSpace w.stamp s).Becomes (f (stampSpace w.stamp s)).1) :
    Works c w c' (w.onSpace i missing f).1 := by
  obtain ⟨spaces, stamp, heq, hsize, hself, helse⟩ := onSpace_spec w i missing f
  rw [heq]
  refine ⟨⟨hsize.ge, ?_, ?_, id⟩, rfl⟩
  · intro j name s hholds
    by_cases hj : j = i
    · subst hj
      obtain ⟨hstamped, hbecomes⟩ := hholds.intact.restamp w.stamp
      obtain ⟨hintact, hbecomes'⟩ := hf hholds.space hstamped
      exact ⟨_, ⟨hself s hholds.space, hintact⟩, hbecomes.trans hbecomes'⟩
    · refine ⟨s, ⟨(helse j hj).trans hholds.space, ?_⟩, .refl s⟩
      rw [hothers j hj]
      exact hholds.intact
  · intro j s hle hspace
    rw [Array.getElem?_eq_none (hsize ▸ hle)] at hspace
    cases hspace

/-- An operation on a monitor that makes a run of it.  Whoever finishes closing the space has closed
its registrations before. -/
theorem works_onMonitor (missing : β)
    (hothers : ∀ j, j ≠ i → decide (c' = some j) = decide (c = some j))
    {f : {σ : Type} → [Engine σ String Json] → Monitor σ String Json → Monitor σ String Json × β}
    (hf : ∀ {σ : Type} [Engine σ String Json] [SpaceEngine σ] {name : String}
      (m : Monitor σ String Json),
      (Scene.mk w.now w.cancelled m (decide (c = some i))).Intact name →
      (Scene.mk w.now w.cancelled m (decide (c = some i))).Leads
        (Scene.mk w.now w.cancelled (f m).1 (decide (c' = some i))))
    (hretired : c = some i → c' ≠ some i → ∀ s, w.spaces[i]? = some s → s.Unwatched) :
    Works c w c' (w.onMonitor i missing f).1 := by
  apply works_onSpace missing hothers
  intro name s hspace hintact
  apply hintact.operate (fun m hm => hf m hm)
  intro hclosing hsettled
  rw [Space.unwatched_stampSpace]
  exact hretired (of_decide_eq_true hclosing) (of_decide_eq_false hsettled) s hspace

/-- An operation on a monitor while no space begins or ceases to be closed. -/
theorem works_onMonitor_self (missing : β)
    {f : {σ : Type} → [Engine σ String Json] → Monitor σ String Json → Monitor σ String Json × β}
    (hf : ∀ {σ : Type} [Engine σ String Json] [SpaceEngine σ] {name : String}
      (m : Monitor σ String Json),
      (Scene.mk w.now w.cancelled m (decide (c = some i))).Intact name →
      (Scene.mk w.now w.cancelled m (decide (c = some i))).Leads
        (Scene.mk w.now w.cancelled (f m).1 (decide (c = some i)))) :
    Works c w c (w.onMonitor i missing f).1 :=
  works_onMonitor missing (fun _ _ => rfl) hf fun hclosing hsettled => absurd hclosing hsettled

/-! ## Ready calls -/

/-- Handing out outcomes touches the futures and the ended calls only. -/
theorem deliver_spec (w : World) (f : Finished Json) :
    ∃ futures ended, w.deliver f = { w with futures, ended } := by
  unfold deliver
  split
  · exact ⟨w.futures, _, rfl⟩
  · split
    · exact ⟨_, w.ended, rfl⟩
    · exact ⟨_, w.ended, rfl⟩

theorem foldl_deliver_spec (w : World) (fs : List (Finished Json)) :
    ∃ futures ended, fs.foldl deliver w = { w with futures, ended } := by
  induction fs generalizing w with
  | nil => exact ⟨w.futures, w.ended, rfl⟩
  | cons f fs ih =>
      obtain ⟨futures, ended, hfirst⟩ := deliver_spec w f
      obtain ⟨futures', ended', hrest⟩ := ih { w with futures, ended }
      refine ⟨futures', ended', ?_⟩
      rw [List.foldl_cons, hfirst, hrest]

theorem Numbered.dropFuture (hnumbered : w.Numbered) (ticket : Nat) :
    (w.dropFuture ticket).Numbered :=
  fun f hf => hnumbered f (List.mem_filter.mp hf).1

theorem Numbered.updateFuture (hnumbered : w.Numbered) {ticket : Nat} {f x : Future}
    (hx : w.future? ticket = some x) (hticket : f.ticket = x.ticket) :
    (w.updateFuture f).Numbered := by
  intro y hy
  obtain ⟨z, hz, rfl⟩ := List.mem_map.mp hy
  split
  · exact hticket ▸ hnumbered x (List.mem_of_find?_eq_some hx)
  · exact hnumbered z hz

theorem Numbered.deliver (hnumbered : w.Numbered) (f : Finished Json) :
    (w.deliver f).Numbered := by
  unfold World.deliver
  split
  · exact hnumbered
  · rename_i x hx
    split
    · exact hnumbered.dropFuture f.ticket
    · exact hnumbered.updateFuture hx rfl

theorem works_deliver (w : World) (f : Finished Json) : Works c w c (w.deliver f) := by
  obtain ⟨futures, ended, heq⟩ := deliver_spec w f
  refine .of_spaces ?_ ?_ ?_ (fun hnumbered => hnumbered.deliver f) ?_ <;> rw [heq]

/-- The ready calls of a space run, and then their outcomes are handed out. -/
theorem settleSpace_eq (w : World) (i : Nat) :
    w.settleSpace i =
      (w.onMonitor i [] fun m => m.settle w.now w.cancelled).2.foldl deliver
        (w.onMonitor i [] fun m => m.settle w.now w.cancelled).1 := rfl

/-- The ready calls of a space touch no other space. -/
theorem settleSpace_spec (w : World) (i : Nat) :
    ∃ spaces stamp futures ended, w.settleSpace i = { w with spaces, stamp, futures, ended } ∧
      spaces.size = w.spaces.size ∧
      (∀ s, w.spaces[i]? = some s → spaces[i]? = some { stampSpace w.stamp s with
        backing := ((stampSpace w.stamp s).backing.modify fun m =>
          m.settle w.now w.cancelled).1 }) ∧
      ∀ j, j ≠ i → spaces[j]? = w.spaces[j]? := by
  obtain ⟨spaces, stamp, heq, hsize, hself, helse⟩ := onSpace_spec w i ([] : List (Finished Json))
    fun s =>
      let (backing, b) := s.backing.modify fun m => m.settle w.now w.cancelled
      ({ s with backing }, b)
  obtain ⟨futures, ended, hdelivered⟩ := foldl_deliver_spec
    (w.onMonitor i [] fun m => m.settle w.now w.cancelled).1
    (w.onMonitor i [] fun m => m.settle w.now w.cancelled).2
  refine ⟨spaces, stamp, futures, ended, ?_, hsize, hself, helse⟩
  rw [settleSpace_eq, hdelivered]
  exact congrArg (fun v : World => { v with futures, ended }) heq

theorem works_settleSpace (w : World) (i : Nat) : Works c w c (w.settleSpace i) := by
  have hsettled : Works c w c (w.onMonitor i [] fun m => m.settle w.now w.cancelled).1 :=
    works_onMonitor_self [] fun m _ => (Scene.mk w.now w.cancelled m _).leads_settle
  rw [settleSpace_eq]
  exact hsettled.trans (Works.foldl works_deliver _ _)

/-- Running ready calls touches the spaces, the futures and the ended calls only. -/
theorem foldl_settleSpace_spec (places : List Nat) (w : World) :
    ∃ spaces stamp futures ended,
      places.foldl settleSpace w = { w with spaces, stamp, futures, ended } ∧
        spaces.size = w.spaces.size := by
  induction places generalizing w with
  | nil => exact ⟨w.spaces, w.stamp, w.futures, w.ended, rfl, rfl⟩
  | cons i places ih =>
      obtain ⟨spaces, stamp, futures, ended, hfirst, hsize, _⟩ := settleSpace_spec w i
      obtain ⟨spaces', stamp', futures', ended', hrest, hsize'⟩ :=
        ih { w with spaces, stamp, futures, ended }
      refine ⟨spaces', stamp', futures', ended', ?_, hsize'.trans hsize⟩
      rw [List.foldl_cons, hfirst, hrest]

theorem settle_spec (w : World) :
    ∃ spaces stamp futures ended, w.settle = { w with spaces, stamp, futures, ended } ∧
      spaces.size = w.spaces.size :=
  foldl_settleSpace_spec _ w

theorem works_settle (w : World) : Works c w c w.settle :=
  Works.foldl works_settleSpace _ w

/-! ## Closing -/

/-- The registrations of a space have been closed. -/
def Unwatched (w : World) (i : Nat) : Prop :=
  ∀ s, w.spaces[i]? = some s → s.Unwatched

/-- An operation on a monitor leaves the registrations of all spaces alone. -/
theorem Unwatched.onMonitor (hunwatched : w.Unwatched i) (j : Nat) (missing : β)
    (f : {σ : Type} → [Engine σ String Json] → Monitor σ String Json → Monitor σ String Json × β) :
    (w.onMonitor j missing f).1.Unwatched i := by
  intro s' hspace'
  obtain ⟨spaces, stamp, heq, hsize, hself, helse⟩ := onMonitor_spec w j missing f
  rw [heq] at hspace'
  replace hspace' : spaces[i]? = some s' := hspace'
  by_cases hij : i = j
  · subst hij
    cases hspace : w.spaces[i]? with
    | none =>
        rw [Array.getElem?_eq_none_iff, ← hsize, ← Array.getElem?_eq_none_iff] at hspace
        cases hspace.symm.trans hspace'
    | some s =>
        rw [hself s hspace] at hspace'
        cases hspace'
        exact (Space.unwatched_stampSpace w.stamp s).mpr (hunwatched s hspace)
  · exact hunwatched s' ((helse i hij).symm.trans hspace')

theorem Unwatched.settle (hunwatched : w.Unwatched i) : w.settle.Unwatched i := by
  unfold World.settle
  generalize List.range w.spaces.size = places
  induction places generalizing w with
  | nil => exact hunwatched
  | cons j places ih =>
      refine ih (fun s hspace => ?_)
      obtain ⟨futures, ended, heq⟩ := foldl_deliver_spec
        (w.onMonitor j [] fun m => m.settle w.now w.cancelled).1
        (w.onMonitor j [] fun m => m.settle w.now w.cancelled).2
      rw [settleSpace_eq, heq] at hspace
      exact hunwatched.onMonitor j _ _ s hspace

theorem works_joinSweeper (w : World) (swept : Bool) : Works c w c (w.joinSweeper swept) := by
  unfold joinSweeper
  split
  · exact works_settle w
  · exact .refl c w

theorem Unwatched.joinSweeper (hunwatched : w.Unwatched i) (swept : Bool) :
    (w.joinSweeper swept).Unwatched i := by
  unfold World.joinSweeper
  split
  · exact hunwatched.settle
  · exact hunwatched

/-- Somebody who is closing a space closes its registrations. -/
theorem works_closeRegistry (w : World) (i : Nat) :
    Works (some i) w (some i) (w.closeRegistry i) := by
  refine Works.trans ?_ (works_joinSweeper _ _)
  apply works_onSpace false
    (f := fun s => ({ s with registry := s.registry.map Registry.close },
      s.registry.any fun r => r.monitor.sweeper.isSome)) fun _ _ => rfl
  intro name s _ hintact
  have hclosing : decide (some i = some i) = true := decide_eq_true rfl
  refine ⟨hintact.closeRegistry, rfl, id, fun _ hopen => ?_⟩
  have hclosed := (hclosing ▸ hintact).isClosed_of_closing
  exact Bool.noConfusion (hclosed.symm.trans hopen)

theorem unwatched_closeRegistry (w : World) (i : Nat) : (w.closeRegistry i).Unwatched i := by
  refine Unwatched.joinSweeper (fun s' hspace' => ?_) _
  obtain ⟨spaces, stamp, heq, hsize, hself, _⟩ := onSpace_spec w i false fun s =>
    ({ s with registry := s.registry.map Registry.close },
      s.registry.any fun r => r.monitor.sweeper.isSome)
  replace hspace' : spaces[i]? = some s' := (congrArg (·.spaces[i]?) heq).symm.trans hspace'
  cases hspace : w.spaces[i]? with
  | none =>
      rw [Array.getElem?_eq_none_iff, ← hsize, ← Array.getElem?_eq_none_iff] at hspace
      cases hspace.symm.trans hspace'
  | some s =>
      cases (hself s hspace).symm.trans hspace'
      exact (stampSpace w.stamp s).unwatched_closeRegistry

/-- Somebody begins to close an open space. -/
theorem works_shutEngine (hspace : w.spaces[i]? = some s) (hopen : s.isClosed = false) :
    Works none w (some i) (w.shutEngine i) := by
  have hshut : Works none w (some i)
      (w.onMonitor i false fun m => (m.shut, m.sweeper.isSome)).1 := by
    apply works_onSpace
    · intro j hj
      simp [hj.symm]
    · intro name s' hspace' hintact
      cases hspace.symm.trans hspace'
      rw [show decide (some i = some i) = true from decide_eq_true rfl]
      exact hintact.shut ((Space.isClosed_stampSpace w.stamp s).trans hopen)
  exact hshut.trans (works_joinSweeper _ _)

theorem Unwatched.shutEngine (hunwatched : w.Unwatched i) : (w.shutEngine i).Unwatched i :=
  (hunwatched.onMonitor i false fun m => (m.shut, m.sweeper.isSome)).joinSweeper _

/-- Somebody who has closed the registrations of a space finishes closing it. -/
theorem works_clearEngine (hunwatched : w.Unwatched i) :
    Works (some i) w none (w.clearEngine i) := by
  apply works_onMonitor () (f := fun m => (m.clear, ()))
  · intro j hj
    simp [hj.symm]
  · intro σ _ _ name m _
    exact Scene.leads_clear (s := Scene.mk w.now w.cancelled m (decide (some i = some i)))
      (decide_eq_true rfl)
  · exact fun _ _ => hunwatched

theorem works_closeEngine (hunwatched : w.Unwatched i) : Works none w none (w.closeEngine i) := by
  unfold closeEngine
  split
  · exact .refl none w
  · rename_i s hspace
    split
    · exact .refl none w
    · rename_i hopen
      exact (works_shutEngine hspace (Bool.eq_false_iff.mpr hopen)).trans
        (works_clearEngine hunwatched.shutEngine)

/-- Once somebody has closed the engine of a space the space is closed. -/
theorem Holds.isClosed_closeEngine (hholds : w.Holds none i name s) (hunwatched : w.Unwatched i)
    {s' : Space} (hspace : (w.closeEngine i).spaces[i]? = some s') : s'.isClosed = true := by
  cases hopen : s.isClosed with
  | true =>
      obtain ⟨x, hx, hbecomes⟩ := (works_closeEngine hunwatched).kept hholds
      cases hspace.symm.trans hx.space
      exact hbecomes.closed hopen
  | false =>
      have heq : w.closeEngine i = (w.shutEngine i).clearEngine i := by
        simp only [closeEngine, hholds.space, hopen, Bool.false_eq_true, if_false]
      obtain ⟨x, hx, _⟩ := (works_shutEngine hholds.space hopen).kept hholds
      obtain ⟨y, hy, hbecomes⟩ := (works_clearEngine hunwatched.shutEngine).kept hx
      rw [heq] at hspace
      cases hspace.symm.trans hy.space
      have hclosing : decide (some i = some i) = true := decide_eq_true rfl
      exact hbecomes.closed (hclosing ▸ hx.intact).isClosed_of_closing

/-- With one record per key the registrations go before the space is closed, which makes no
difference in the end. -/
theorem works_closeWatched (w : World) (i : Nat) :
    Works none w none ((w.closeRegistry i).closeEngine i) := by
  let retire (s : Space) : Space × Bool :=
    ({ s with registry := s.registry.map Registry.close },
      s.registry.any fun r => r.monitor.sweeper.isSome)
  obtain ⟨spaces, stamp, heq, hsize, hself, helse⟩ := onSpace_spec w i false retire
  have hunwatched := unwatched_closeRegistry w i
  have hjoined : Works none { w with spaces, stamp } none (w.closeRegistry i) := by
    have hcloses : w.closeRegistry i =
        World.joinSweeper { w with spaces, stamp } (w.onSpace i false retire).2 :=
      congrArg (fun v => v.joinSweeper (w.onSpace i false retire).2) heq
    rw [hcloses]
    exact works_joinSweeper _ _
  have hlater := hjoined.trans (works_closeEngine hunwatched)
  refine ⟨⟨hsize.ge.trans hlater.size, ?_, fun hle => hlater.fresh (hsize ▸ hle),
    hlater.numbered⟩, hlater.directory⟩
  intro j name s hholds
  by_cases hj : j = i
  · subst hj
    obtain ⟨hstamped, hbecomes⟩ := hholds.intact.restamp w.stamp
    have hretired : World.Holds { w with spaces, stamp } none j name _ :=
      ⟨hself s hholds.space, hstamped.closeRegistry⟩
    obtain ⟨x, hx, _⟩ := hjoined.kept hretired
    obtain ⟨s', hs', hbecomes'⟩ := hlater.kept hretired
    have hclosed := hx.isClosed_closeEngine hunwatched hs'.space
    exact ⟨s', hs', hbecomes'.storage.trans hbecomes.storage, fun _ => hclosed, fun _ hopen =>
      Bool.noConfusion (hclosed.symm.trans hopen)⟩
  · exact hlater.kept ⟨(helse j hj).trans hholds.space, hholds.intact⟩

theorem works_closeMemory (w : World) (i : Nat) : Works none w none (w.closeMemory i) := by
  unfold closeMemory
  split
  · exact .refl none w
  · rename_i s hspace
    split
    · exact works_closeWatched w i
    · split
      · exact .refl none w
      · rename_i hopen
        have hshut := works_shutEngine hspace (Bool.eq_false_iff.mpr hopen)
        exact (hshut.trans (works_closeRegistry _ i)).trans
          (works_clearEngine (unwatched_closeRegistry _ i))

/-- Storing a space touches nothing but files. -/
theorem flush_spec (w : World) (i : Nat) : ∃ files, (w.flush i).1 = { w with files } := by
  unfold flush
  repeat' split
  all_goals exact ⟨_, rfl⟩

theorem works_flush (w : World) (i : Nat) : Works c w c (w.flush i).1 := by
  obtain ⟨files, heq⟩ := flush_spec w i
  rw [heq]
  exact .of_spaces rfl rfl rfl id rfl

theorem works_closeUnsettled (w : World) (i : Nat) :
    Works none w none (w.closeUnsettled i).1 := by
  unfold closeUnsettled
  split
  · exact .refl none w
  · split
    · exact works_closeMemory w i
    · split
      · exact .refl none w
      · exact (works_flush w i).trans (works_closeMemory _ i)

theorem works_close (w : World) (i : Nat) : Works none w none (w.close i).1 :=
  (works_closeUnsettled w i).trans (works_settle _)

end World

end TupleSpace
