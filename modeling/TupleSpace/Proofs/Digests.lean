import TupleSpace.Proofs.Json.Compact
import TupleSpace.Proofs.Json.Fields
import TupleSpace.Template

/-!
# Retrieval by digest

A template made from the digest of a value is meant to match what equals that value.  It does, as
far as hashes allow: what is hashed is the compact text in UTF-8, and of values without floats no
two have the same text.  So beside the values that are equal to the given one, a digest template
can match only a value with another text and the same hash.

Nothing is said here about how hard such a value is to find.
-/

namespace TupleSpace

namespace Json

/-! ## Equality of values without floats -/

mutual

/-- Without floats, deep equality is equality. -/
theorem equals_iff {v c : Json} (hfree : v.isFloatFree = true) : v.equals c = true ↔ v = c := by
  match v, c with
  | null, c => cases c <;> simp [equals]
  | bool a, c => cases c <;> simp [equals]
  | number n, c =>
      obtain ⟨i, rfl⟩ := exists_whole_of_isFloatFree hfree
      cases c with
      | number m => cases m <;> simp [equals, Number.equals]
      | null | bool | string | array | object => simp [equals]
  | string a, c => cases c <;> simp [equals]
  | array vs, c =>
      cases c with
      | array cs =>
          rw [isFloatFree] at hfree
          rw [equals, equalItems_iff hfree, array.injEq]
      | null | bool | number | string | object => simp [equals]
  | object vs, c =>
      cases c with
      | object cs =>
          rw [isFloatFree] at hfree
          rw [equals, equalFields_iff hfree, object.injEq]
      | null | bool | number | string | array => simp [equals]

theorem equalItems_iff {vs cs : List Json} (hfree : areFloatFree vs = true) :
    equalItems vs cs = true ↔ vs = cs := by
  match vs, cs with
  | [], cs => cases cs <;> simp [equalItems]
  | v :: vs, [] => simp [equalItems]
  | v :: vs, c :: cs =>
      rw [areFloatFree_cons] at hfree
      rw [equalItems, Bool.and_eq_true, equals_iff hfree.1, equalItems_iff hfree.2, List.cons.injEq]

theorem equalFields_iff {vs cs : List (String × Json)} (hfree : fieldsAreFloatFree vs = true) :
    equalFields vs cs = true ↔ vs = cs := by
  match vs, cs with
  | [], cs => cases cs <;> simp [equalFields]
  | (name, v) :: vs, [] => simp [equalFields]
  | (name, v) :: vs, (other, c) :: cs =>
      rw [fieldsAreFloatFree_cons] at hfree
      rw [equalFields, Bool.and_eq_true, Bool.and_eq_true, beq_iff_eq, equals_iff hfree.1,
        equalFields_iff hfree.2, List.cons.injEq, Prod.mk.injEq]

end

/-- The bytes that are hashed tell values apart that are not equal. -/
theorem utf8_inj {v c : Json} (hv : v.isFloatFree = true) (hc : c.isFloatFree = true) :
    v.compact.toUTF8 = c.compact.toUTF8 ↔ v.equals c = true := by
  rw [String.toUTF8_eq_toByteArray, String.toUTF8_eq_toByteArray, String.toByteArray_inj,
    compact_inj hv hc, equals_iff hv]

end Json

/-! ## Digest templates -/

/-- Digest templates agree with equality templates, but for collisions of hashes.  Two values
without floats are hashed from the same bytes exactly if they are equal.  Whatever an equality template
matches the digest template of the same value matches, too; whatever else that matches has another
text with the same hash.  The order in which the fields of an object were put in plays no part:
objects made from fields are the same exactly if the same stands under every name. -/
theorem digests_agree_with_equality :
    (∀ {v c : Json}, v.isFloatFree = true → c.isFloatFree = true →
      (v.compact.toUTF8 = c.compact.toUTF8 ↔ v.equals c = true)) ∧
    (∀ {κ : Type} (key : κ) {v c : Json}, v.isFloatFree = true →
      ((Pattern.equal v).under key).accepts c = true →
      ((Pattern.sameDigest v).under key).accepts c = true) ∧
    (∀ {κ : Type} (key : κ) {v c : Json}, v.isFloatFree = true → c.isFloatFree = true →
      ((Pattern.sameDigest v).under key).accepts c = true →
      ((Pattern.equal v).under key).accepts c = false →
      v.compact.toUTF8 ≠ c.compact.toUTF8 ∧
        Blake3.hash v.compact.toUTF8 = Blake3.hash c.compact.toUTF8) ∧
    ∀ fs gs : List (String × Json), Json.ofFields fs = Json.ofFields gs ↔
      ∀ name, (Json.object fs.reverse).field? name = (Json.object gs.reverse).field? name := by
  refine ⟨Json.utf8_inj, ?_, ?_, Json.ofFields_eq_iff⟩
  · intro κ key v c hfree hequal
    obtain rfl : v = c := (Json.equals_iff hfree).mp hequal
    exact beq_self_eq_true v.digest
  · intro κ key v c hv hc hdigest hunequal
    have hhash : c.digest = v.digest := beq_iff_eq.mp hdigest
    refine ⟨fun hbytes => ?_, hhash.symm⟩
    have hequal : ((Pattern.equal v).under key).accepts c = true :=
      (Json.utf8_inj hv hc).mp hbytes
    rw [hequal] at hunequal
    cases hunequal

/-- Two objects that differ in one character of a string deep inside, which holds a quote, a
backslash and a line break: their fields come in two orders, and what the one hashes the other does
not.  The template of the first matches an object with the same fields put in the other way round,
and would match the second only if their hashes were the same. -/
theorem digests_agree_with_equality_of_nested_fields :
    let inner (last : String) : Json :=
      .array [.ofInt (-9223372036854775808), .string ("\"\\\n" ++ last), .array [], .null]
    let listed (last : String) : List (String × Json) :=
      [("b", inner last), ("a", .ofNat 18446744073709551615), ("", .bool true)]
    let v := Json.ofFields (listed "1")
    let c := Json.ofFields (listed "12")
    let turned := Json.ofFields (listed "1").reverse
    v.compact.toUTF8 ≠ c.compact.toUTF8 ∧
      ((Pattern.sameDigest v).under "k").accepts turned = true ∧
      (((Pattern.sameDigest v).under "k").accepts c = true →
        Blake3.hash v.compact.toUTF8 = Blake3.hash c.compact.toUTF8) := by
  intro inner listed v c turned
  obtain ⟨hbytes, hmatches, hcollides, -⟩ := digests_agree_with_equality
  have hv : v.isFloatFree = true := by decide
  have hc : c.isFloatFree = true := by decide
  have hunequal : v.equals c = false := by decide
  refine ⟨fun heq => ?_, hmatches "k" hv (by decide),
    fun hdigest => (hcollides "k" hv hc hdigest hunequal).2⟩
  rw [(hbytes hv hc).mp heq] at hunequal
  cases hunequal

end TupleSpace
