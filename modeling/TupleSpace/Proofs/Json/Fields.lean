import Mathlib.Data.String.Basic
import TupleSpace.Json.Value

/-!
# Objects and their fields

An object made from fields keeps them in the order of their names, each name once, so there is one
list for every way in which names can stand for values.  That two objects have the same list is
therefore no more than that they have the same fields, in whatever order these were put in.
-/

namespace TupleSpace.Json

variable {name other : String} {value : Json} {fields more : List (String × Json)}

/-! ## What is found under a name -/

theorem field?_nil : (object []).field? name = none := rfl

theorem field?_cons :
    (object ((other, value) :: fields)).field? name =
      if other = name then some value else (object fields).field? name := by
  rw [field?, field?]
  by_cases heq : other = name
  · rw [if_pos heq, List.find?_cons_of_pos (by simpa using heq), Option.map_some]
  · rw [if_neg heq, List.find?_cons_of_neg (by simpa using heq)]

theorem field?_append :
    (object (fields ++ more)).field? name =
      ((object fields).field? name).or ((object more).field? name) := by
  rw [field?, field?, field?, List.find?_append, Option.map_or]

/-- A name in front of all others is not found behind them. -/
theorem field?_eq_none_of_lt (hlt : ∀ f ∈ fields, name < f.1) :
    (object fields).field? name = none := by
  rw [field?, Option.map_eq_none_iff, List.find?_eq_none]
  exact fun f hf heq => (hlt f hf).ne (beq_iff_eq.mp heq).symm

/-! ## Putting fields in -/

/-- The names of fields ascend, so that no name occurs twice. -/
def Ascending (fields : List (String × Json)) : Prop :=
  fields.Pairwise fun f g => f.1 < g.1

theorem mem_insertField {f : String × Json} (hmem : f ∈ insertField name value fields) :
    f = (name, value) ∨ f ∈ fields := by
  induction fields with
  | nil => exact .inl (List.mem_singleton.mp hmem)
  | cons g rest ih =>
      obtain ⟨n, v⟩ := g
      rw [insertField] at hmem
      split at hmem
      · exact (List.mem_cons.mp hmem).imp_right (List.mem_cons_of_mem _)
      · split at hmem
        · exact List.mem_cons.mp hmem
        · rcases List.mem_cons.mp hmem with rfl | hrest
          · exact .inr List.mem_cons_self
          · exact (ih hrest).imp_right (List.mem_cons_of_mem _)

theorem Ascending.insertField (hascending : Ascending fields) (name : String) (value : Json) :
    Ascending (insertField name value fields) := by
  induction fields with
  | nil => exact List.pairwise_singleton _ _
  | cons g rest ih =>
      obtain ⟨n, v⟩ := g
      obtain ⟨hfirst, hrest⟩ := List.pairwise_cons.mp hascending
      rw [Json.insertField]
      split
      next heq =>
        subst heq
        exact List.pairwise_cons.mpr ⟨hfirst, hrest⟩
      next hne =>
        split
        next hlt =>
          refine List.pairwise_cons.mpr ⟨fun f hf => ?_, hascending⟩
          rcases List.mem_cons.mp hf with rfl | hf
          · exact hlt
          · exact hlt.trans (hfirst f hf)
        next hnot =>
          refine List.pairwise_cons.mpr ⟨fun f hf => ?_, ih hrest⟩
          rcases mem_insertField hf with rfl | hf
          · exact lt_of_le_of_ne (not_lt.mp hnot) (Ne.symm hne)
          · exact hfirst f hf

/-- A field that has been put in is found under its name, and the others as before. -/
theorem field?_insertField :
    (object (insertField other value fields)).field? name =
      if other = name then some value else (object fields).field? name := by
  induction fields with
  | nil => exact field?_cons
  | cons g rest ih =>
      obtain ⟨n, v⟩ := g
      rw [insertField]
      by_cases hsame : other = n
      · subst hsame
        rw [if_pos rfl, field?_cons, field?_cons]
        split <;> rfl
      · rw [if_neg hsame]
        split
        · exact field?_cons
        · rw [field?_cons, field?_cons, ih]
          split_ifs with hn hother <;> simp_all

/-! ## Objects made from fields -/

/-- The fields of an object made from fields. -/
def sortedFields (fields : List (String × Json)) : List (String × Json) :=
  fields.foldl (fun acc f => insertField f.1 f.2 acc) []

theorem ofFields_eq (fields : List (String × Json)) :
    ofFields fields = object (sortedFields fields) := rfl

theorem ascending_sortedFields (fields : List (String × Json)) :
    Ascending (sortedFields fields) := by
  have hfold (acc : List (String × Json)) (hacc : Ascending acc) :
      Ascending (fields.foldl (fun acc f => insertField f.1 f.2 acc) acc) := by
    induction fields generalizing acc with
    | nil => exact hacc
    | cons f rest ih => exact ih _ (hacc.insertField f.1 f.2)
  exact hfold [] List.Pairwise.nil

/-- Of fields with one name the last counts. -/
theorem field?_ofFields (fields : List (String × Json)) (name : String) :
    (ofFields fields).field? name = (object fields.reverse).field? name := by
  have hfold (acc : List (String × Json)) :
      (object (fields.foldl (fun acc f => insertField f.1 f.2 acc) acc)).field? name =
        ((object fields.reverse).field? name).or ((object acc).field? name) := by
    induction fields generalizing acc with
    | nil => rfl
    | cons f rest ih =>
        rw [List.foldl_cons, ih, field?_insertField, List.reverse_cons, field?_append,
          Option.or_assoc, field?_cons, field?_nil]
        split <;> rfl
  exact (hfold []).trans (Option.or_none ..)

/-- The first of ascending names is the smallest. -/
theorem Ascending.first_le {found : Json} (hascending : Ascending ((other, value) :: fields))
    (hfound : (object ((other, value) :: fields)).field? name = some found) : other ≤ name := by
  by_contra hnot
  have hlt : name < other := not_le.mp hnot
  have hmissing : ∀ f ∈ (other, value) :: fields, name < f.1 := by
    intro f hf
    rcases List.mem_cons.mp hf with rfl | hf
    · exact hlt
    · exact hlt.trans ((List.pairwise_cons.mp hascending).1 f hf)
  rw [field?_eq_none_of_lt hmissing] at hfound
  cases hfound

/-- Ascending fields are determined by what is found in them. -/
theorem Ascending.eq_of_field? {fs gs : List (String × Json)} (hfs : Ascending fs)
    (hgs : Ascending gs)
    (hfound : ∀ name, (object fs).field? name = (object gs).field? name) : fs = gs := by
  have hself (n : String) (v : Json) (rest : List (String × Json)) :
      (object ((n, v) :: rest)).field? n = some v := by
    rw [field?_cons, if_pos rfl]
  induction fs generalizing gs with
  | nil =>
      cases gs with
      | nil => rfl
      | cons g gs =>
          have hfirst := hfound g.1
          rw [hself g.1 g.2 gs, field?_nil] at hfirst
          cases hfirst
  | cons f fs ih =>
      obtain ⟨n, v⟩ := f
      cases gs with
      | nil =>
          have hfirst := hfound n
          rw [hself, field?_nil] at hfirst
          cases hfirst
      | cons g gs =>
          obtain ⟨m, u⟩ := g
          have hname : n = m :=
            le_antisymm (hfs.first_le ((hfound m).trans (hself m u gs)))
              (hgs.first_le ((hfound n).symm.trans (hself n v fs)))
          subst hname
          have hvalue := hfound n
          rw [hself, hself, Option.some.injEq] at hvalue
          obtain ⟨hn, hfs⟩ := List.pairwise_cons.mp hfs
          obtain ⟨hm, hgs'⟩ := List.pairwise_cons.mp hgs
          have hrest : fs = gs := by
            refine ih hfs hgs' fun name => ?_
            by_cases heq : n = name
            · subst heq
              rw [field?_eq_none_of_lt hn, field?_eq_none_of_lt hm]
            · have hbehind := hfound name
              rwa [field?_cons, field?_cons, if_neg heq, if_neg heq] at hbehind
          rw [hvalue, hrest]

/-- Two objects made from fields are the same if the same is found in them under every name. -/
theorem ofFields_eq_iff (fs gs : List (String × Json)) :
    ofFields fs = ofFields gs ↔
      ∀ name, (object fs.reverse).field? name = (object gs.reverse).field? name := by
  refine ⟨fun heq name => ?_, fun hfound => ?_⟩
  · rw [← field?_ofFields, ← field?_ofFields, heq]
  · have hsame : sortedFields fs = sortedFields gs := by
      refine (ascending_sortedFields fs).eq_of_field? (ascending_sortedFields gs) fun name => ?_
      rw [← ofFields_eq, ← ofFields_eq, field?_ofFields, field?_ofFields, hfound name]
    rw [ofFields_eq, ofFields_eq, hsame]

end TupleSpace.Json
