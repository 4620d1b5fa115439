import Mathlib.Data.List.Nodup

/-!
# Lists of things with keys

Engines keep what they own in lists and find it by key.  Whatever the things are, replacing the
things of a key and leaving them out has the same effect on what is found later; no key has to
occur only once for that.
-/

namespace TupleSpace

namespace Keyed

variable {κ β : Type} [DecidableEq κ] (keyOf : β → κ)

/-- Replacing the things of one key is seen under that key only. -/
theorem find?_replace (y : β) (xs : List β) (key : κ) :
    (xs.map fun x => if keyOf x = keyOf y then y else x).find? (fun x => decide (keyOf x = key)) =
      if key = keyOf y then (xs.find? fun x => decide (keyOf x = key)).map fun _ => y
      else xs.find? fun x => decide (keyOf x = key) := by
  induction xs with
  | nil => simp
  | cons x xs ih =>
      rw [List.map_cons, List.find?_cons, List.find?_cons, ih]
      by_cases hx : keyOf x = keyOf y <;> by_cases hkey : key = keyOf y <;>
        by_cases hfound : keyOf x = key <;> simp_all

/-- Leaving out the things of one key is seen under that key only. -/
theorem find?_remove (gone : κ) (xs : List β) (key : κ) :
    (xs.filter fun x => decide (keyOf x ≠ gone)).find? (fun x => decide (keyOf x = key)) =
      if key = gone then none else xs.find? fun x => decide (keyOf x = key) := by
  rw [List.find?_filter]
  by_cases hkey : key = gone
  · subst hkey
    simp
  · rw [if_neg hkey]
    congr 1
    funext x
    by_cases hx : keyOf x = key <;> simp_all

/-- A thing put behind the others is found if there was none of its key. -/
theorem find?_snoc (y : β) (xs : List β) (key : κ) :
    (xs ++ [y]).find? (fun x => decide (keyOf x = key)) =
      (xs.find? fun x => decide (keyOf x = key)).or (if key = keyOf y then some y else none) := by
  rw [List.find?_append]
  by_cases hkey : key = keyOf y
  · simp [hkey]
  · simp [hkey, Ne.symm hkey]

/-- A replacement keeps every key in its place. -/
theorem map_replace (y : β) (xs : List β) :
    (xs.map fun x => if keyOf x = keyOf y then y else x).map keyOf = xs.map keyOf := by
  rw [List.map_map]
  apply List.map_congr_left
  intro x _
  by_cases hx : keyOf x = keyOf y <;> simp [hx]

/-- The keys that are left are a sublist of all keys. -/
theorem map_remove_sublist (gone : κ) (xs : List β) :
    ((xs.filter fun x => decide (keyOf x ≠ gone)).map keyOf).Sublist (xs.map keyOf) :=
  List.filter_sublist.map keyOf

/-- Leaving out the one thing of a key makes a list of things shorter by one. -/
theorem length_remove {xs : List β} {x : β} (hnodup : (xs.map keyOf).Nodup) (hmem : x ∈ xs) :
    1 + (xs.filter fun y => decide (keyOf y ≠ keyOf x)).length = xs.length := by
  have hone : xs.countP (fun y => decide (keyOf y = keyOf x)) = 1 := by
    have hcount := List.count_eq_one_of_mem hnodup (List.mem_map_of_mem hmem)
    rw [List.count, List.countP_map] at hcount
    exact (List.countP_congr fun y _ => by simp).trans hcount
  have hsplit := List.length_eq_countP_add_countP (l := xs) fun y => decide (keyOf y = keyOf x)
  rw [hone] at hsplit
  rw [← List.countP_eq_length_filter, hsplit]
  simp

/-- A key is listed exactly if something is found under it. -/
theorem mem_map_iff (xs : List β) (key : κ) :
    key ∈ xs.map keyOf ↔ (xs.find? fun x => decide (keyOf x = key)).isSome = true := by
  rw [List.find?_isSome, List.mem_map]
  simp

/-- What is found is in the list and has the key it was looked for under. -/
theorem of_find?_eq_some {xs : List β} {key : κ} {x : β}
    (hfind : xs.find? (fun x => decide (keyOf x = key)) = some x) : x ∈ xs ∧ keyOf x = key :=
  ⟨List.mem_of_find?_eq_some hfind, by simpa using List.find?_some hfind⟩

/-- In a list without repeated keys every thing is found under its key. -/
theorem find?_eq_some_of_mem {xs : List β} {x : β} (hnodup : (xs.map keyOf).Nodup)
    (hmem : x ∈ xs) : xs.find? (fun y => decide (keyOf y = keyOf x)) = some x := by
  cases hfind : xs.find? fun y => decide (keyOf y = keyOf x) with
  | none => simpa using List.find?_eq_none.mp hfind x hmem
  | some y =>
      obtain ⟨hy, hkey⟩ := of_find?_eq_some keyOf hfind
      rw [List.inj_on_of_nodup_map hnodup hy hmem hkey]

theorem not_mem_of_find?_eq_none {xs : List β} {key : κ}
    (hmissing : xs.find? (fun x => decide (keyOf x = key)) = none) : key ∉ xs.map keyOf := by
  rw [mem_map_iff, hmissing]
  simp

omit [DecidableEq κ] in
/-- A thing with a new key repeats no key. -/
theorem nodup_snoc {xs : List β} {y : β} (hnodup : (xs.map keyOf).Nodup)
    (hfresh : keyOf y ∉ xs.map keyOf) : ((xs ++ [y]).map keyOf).Nodup := by
  rw [List.map_append, List.map_singleton, List.nodup_append]
  refine ⟨hnodup, List.nodup_singleton _, ?_⟩
  intro a ha b hb hab
  rw [List.mem_singleton] at hb
  rw [hab, hb] at ha
  exact hfresh ha

end Keyed

end TupleSpace
