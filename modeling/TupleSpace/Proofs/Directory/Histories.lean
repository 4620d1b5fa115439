import TupleSpace.Proofs.Closing

/-!
# Histories of directories

Whatever happens, a directory stays in order, and keeps the spaces that it has made as long as they
are open: whoever makes it forget a space closes that.
-/

namespace TupleSpace

namespace World

variable {w v : World} {i : Nat} {name : String} {s : Space}

/-! ## Forgetting spaces -/

theorem serves_release (hrests : w.Rests) (text : String) : Serves w (w.release text).1 := by
  have hleads := leads_release w text
  obtain ⟨hsame, _⟩ | ⟨u, i, _, hslot, heq⟩ := release_cases w text
  · rw [hsame]
    exact .refl w
  · rw [heq] at hleads ⊢
    refine .forget hleads (works_close (w.evicted u.text) i).directoryOf_eq id
      (fun hnodup => Directory.nodup_evict hnodup u.text) ?_ ?_
    · intro name j hj
      replace hj := (Directory.slot?_evict w.directoryOf u.text name).symm.trans hj
      split at hj
      · cases hj
      · exact hj
    · intro name j _ hj hopen
      have hevicted : (w.evicted u.text).Rests := hrests.of_spaces rfl rfl rfl id
      have hne : name ≠ u.text := by
        rintro rfl
        cases hslot.symm.trans hj
        rw [hevicted.isClosedSpace_close i] at hopen
        cases hopen
      exact (Directory.slot?_evict w.directoryOf u.text name).trans ((if_neg hne).trans hj)

/-- Closing spaces one after the other closes each of them. -/
theorem isClosedSpace_closeEach {spaces : List Nat} (hrests : w.Rests)
    (hholds : w.Holds none i name s) (hmem : i ∈ spaces) :
    (closeEach spaces w).1.isClosedSpace i = true := by
  induction spaces generalizing w s with
  | nil => cases hmem
  | cons j rest ih =>
      have hafter := (worksOut_close w j).rests hrests
      obtain ⟨s', hholds', _⟩ := (works_close w j).kept hholds
      have hrest : (closeEach (j :: rest) w).1 = (closeEach rest (w.close j).1).1 := by
        rw [closeEach]
        simp only []
        split <;> rfl
      rw [hrest]
      rcases List.mem_cons.mp hmem with rfl | hlater
      · by_contra hopen
        have hearlier := (works_closeEach rest (w.close i).1).toLeads.isClosedSpace hholds'
          (Bool.eq_false_iff.mpr hopen)
        rw [hrests.isClosedSpace_close i] at hearlier
        cases hearlier
      · exact ih hafter hholds' hlater

theorem directoryOf_closeAll (w : World) :
    w.closeAll.1.directoryOf = { w.directoryOf with slots := [] } :=
  (works_closeEach (w.directoryOf.slots.map Prod.snd)
    { w with directory := some { w.directoryOf with slots := [] } }).directoryOf_eq

theorem serves_closeAll (hrests : w.Rests) : Serves w w.closeAll.1 := by
  have hforgotten : ({ w with directory := some { w.directoryOf with slots := [] } } :
      World).Rests := hrests.of_spaces rfl rfl rfl id
  refine .forget (leads_closeAll w) (directoryOf_closeAll w) id (fun _ => List.nodup_nil) nofun ?_
  intro name i hkept hslot hopen
  obtain ⟨s, hholds⟩ := hkept.holds
  have hmem : i ∈ w.directoryOf.slots.map Prod.snd :=
    List.mem_map.mpr ⟨(name, i), Directory.mem_of_slot? hslot, rfl⟩
  have hclosed := isClosedSpace_closeEach hforgotten ⟨hholds.space, hholds.intact⟩ hmem
  rw [closeAll, hclosed] at hopen
  cases hopen

/-! ## Histories -/

theorem serves_after (hrests : w.Rests) (d : Deed) : Serves w (w.after d) := by
  cases hd : d.isFiling with
  | false => exact .of_works (worksOut_after w hd).works
  | true =>
      cases d with
      | lookup text => exact (looksUp_lookup w text).1
      | release text => exact serves_release hrests text
      | closeAll => exact serves_closeAll hrests
      | register scheme factory =>
          exact .forget (d := w.directoryOf.register scheme factory) (.of_spaces rfl rfl rfl id) rfl
            (Directory.isSome_factory?_register w.directoryOf scheme factory) id id
            fun _ hslot _ => hslot
      | _ => cases hd

theorem serves_afterAll (hrests : w.Rests) (deeds : List Deed) : Serves w (w.afterAll deeds) := by
  induction deeds generalizing w with
  | nil => exact .refl w
  | cons d deeds ih => exact (serves_after hrests d).trans (ih (hrests.after d))

/-- The directory of every world that a history leads to is in order. -/
theorem Reached.filed (hreached : w.Reached) : w.Filed := by
  obtain ⟨epoch, files, directory, deeds, hunused, rfl⟩ := hreached
  have hrests : World.Rests { epoch, files, directory } :=
    Reached.rests ⟨epoch, files, directory, [], hunused, rfl⟩
  refine (serves_afterAll hrests deeds).filed ?_
  have hslots : (World.directoryOf { epoch, files, directory }).slots = [] := by
    cases directory with
    | none => rfl
    | some d => exact hunused d rfl
  have hnone : ∀ name, (World.directoryOf { epoch, files, directory }).slot? name = none := by
    intro name
    rw [Directory.slot?, hslots]
    rfl
  refine ⟨by rw [hslots]; exact List.nodup_nil, fun {name i} hslot => ?_,
    fun {name i} hslot => ?_⟩
  · rw [hnone] at hslot
    cases hslot
  · rw [hnone] at hslot
    cases hslot

end World

end TupleSpace
