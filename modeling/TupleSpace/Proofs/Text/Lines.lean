import Mathlib.Tactic.SplitIfs
import TupleSpace.Json.Described
import TupleSpace.Metrics

/-!
# Texts on one line

A text stays on one line if it holds no line break.  Everything that is shown of a value does,
whatever characters the strings in it hold: line breaks are escaped between quotes, and there is
none in a number, a bracket or a name.  So the lines of a listing can be told apart again.
-/

namespace TupleSpace

namespace Text

/-- The text has no line break. -/
def IsLine (text : String) : Prop := '\n' ∉ text.toList

instance (text : String) : Decidable (IsLine text) :=
  inferInstanceAs (Decidable ('\n' ∉ text.toList))

variable {text more : String} {cs : List Char}

@[simp]
theorem isLine_append : IsLine (text ++ more) ↔ IsLine text ∧ IsLine more := by
  simp [IsLine, not_or]

@[simp]
theorem isLine_ofList : IsLine (String.ofList cs) ↔ '\n' ∉ cs := by
  rw [IsLine, String.toList_ofList]

theorem isLine_intercalate {texts : List String} (hmore : IsLine more)
    (htexts : ∀ text ∈ texts, IsLine text) : IsLine (more.intercalate texts) := by
  induction texts with
  | nil =>
      rw [String.intercalate_nil]
      decide
  | cons text rest ih =>
      cases rest with
      | nil => simpa using htexts text List.mem_cons_self
      | cons next rest =>
          rw [String.intercalate_cons_cons, isLine_append, isLine_append]
          exact ⟨⟨htexts text List.mem_cons_self, hmore⟩,
            ih fun x hx => htexts x (List.mem_cons_of_mem text hx)⟩

/-- Lines that have been written, each with a line break behind it, can be told apart again. -/
theorem split_lines {lines : List String} (hlines : ∀ line ∈ lines, IsLine line) :
    ((String.join (lines.map (· ++ "\n"))).split '\n').toList.map String.Slice.copy =
      lines ++ [""] := by
  rw [String.toList_split_char, String.toList_join]
  induction lines with
  | nil => rfl
  | cons line rest ih =>
      have hline : '\n' ∉ line.toList := hlines line List.mem_cons_self
      rw [List.map_cons, List.flatMap_cons, String.toList_append,
        show "\n".toList = ['\n'] from rfl, List.append_assoc, List.singleton_append,
        List.splitOn_append_cons_self_of_not_mem hline, List.map_cons, String.ofList_toList,
        ih fun x hx => hlines x (List.mem_cons_of_mem line hx), List.cons_append]

/-! ## Numbers -/

/-- Digits are no line breaks. -/
theorem not_mem_toDigits {base : Nat} (hbase : 1 < base) (hle : base ≤ 16) (n : Nat) :
    '\n' ∉ Nat.toDigits base n := by
  have hdigit : ∀ d < 16, '\n' ≠ Nat.digitChar d := by decide
  induction n using Nat.strongRecOn with
  | ind n ih =>
      rw [Nat.toDigits_eq_if hbase]
      split
      · rename_i hlt
        rw [List.mem_singleton]
        exact hdigit n (by omega)
      · rename_i hge
        have hlast : n % base < base := Nat.mod_lt n (by omega)
        have hrest := ih (n / base) (Nat.div_lt_self (by omega) hbase)
        rw [List.mem_append, List.mem_singleton, not_or]
        exact ⟨hrest, hdigit (n % base) (by omega)⟩

@[simp]
theorem isLine_toString (n : Nat) : IsLine (toString n) := by
  rw [Nat.toString_eq_ofList_toDigits, isLine_ofList]
  exact not_mem_toDigits (by decide) (by decide) n

theorem isLine_toString_int (n : Int) : IsLine (toString n) := by
  cases n with
  | ofNat n => exact isLine_toString n
  | negSucc n =>
      have hsigned : IsLine ("-" ++ toString (n + 1)) :=
        isLine_append.mpr ⟨by decide, isLine_toString (n + 1)⟩
      exact hsigned

/-! ## Quoted texts -/

/-- No character becomes a line break between quotes. -/
theorem not_mem_quoteChar (c : Char) : '\n' ∉ quoteChar c := by
  have hhex : '\n' ∉ Nat.toDigits 16 c.toNat :=
    not_mem_toDigits (by decide) (by decide) c.toNat
  unfold quoteChar
  split_ifs with hzero htab hreturn hbreak hquote hslash hvisible
  · decide
  · decide
  · decide
  · decide
  · decide
  · decide
  · rw [List.mem_singleton]
    exact fun heq => hbreak (beq_iff_eq.mpr heq.symm)
  · simpa [codePointEscape, hexDigits] using hhex

/-- Whatever a text holds, it stays on one line between quotes. -/
@[simp]
theorem isLine_quote (text : String) : IsLine (quote text) := by
  rw [quote, isLine_ofList]
  simp [not_mem_quoteChar]

end Text

open Text

/-! ## Values -/

namespace Json

variable {digits : List Char}

theorem not_mem_positionalChars (hdigits : '\n' ∉ digits) (position : Int) :
    '\n' ∉ positionalChars digits position := by
  have htake (n : Nat) : '\n' ∉ digits.take n := fun hmem => hdigits (List.mem_of_mem_take hmem)
  have hdrop (n : Nat) : '\n' ∉ digits.drop n := fun hmem => hdigits (List.mem_of_mem_drop hmem)
  unfold positionalChars zeros
  simp only []
  split_ifs <;> simp [hdigits, htake, hdrop]

theorem not_mem_scientificChars (hdigits : '\n' ∉ digits) (position : Int) :
    '\n' ∉ scientificChars digits position := by
  have hnumber : '\n' ∉ (toString position.natAbs).toList := isLine_toString position.natAbs
  have hexponent : '\n' ∉ (if position < 0 then ['-'] else ['+']) ++
      (toString position.natAbs).toList := by
    rw [List.mem_append, not_or]
    refine ⟨?_, hnumber⟩
    split_ifs <;> decide
  unfold scientificChars
  simp only []
  generalize (if position < 0 then ['-'] else ['+']) ++ (toString position.natAbs).toList =
    exponent at hexponent ⊢
  split
  · simpa [hexponent] using hdigits
  · simp only [List.mem_cons, not_or] at hdigits
    simp [hdigits, hexponent]
  · exact List.not_mem_nil

theorem not_mem_floatChars (x : Binary64) : '\n' ∉ floatChars x := by
  have hdigits : '\n' ∉ (toString (Decimal.shortest x).digits).toList := isLine_toString _
  have hsign : '\n' ∉ if x.negative then ['-'] else [] := by
    split_ifs <;> decide
  unfold floatChars
  simp only []
  generalize (toString (Decimal.shortest x).digits).toList = digits at hdigits ⊢
  generalize (if x.negative then ['-'] else []) = sign at hsign ⊢
  split
  · rw [List.mem_append, not_or]
    exact ⟨hsign, by decide⟩
  · split
    · rw [List.mem_append, not_or]
      exact ⟨hsign, not_mem_positionalChars hdigits _⟩
    · rw [List.mem_append, not_or]
      exact ⟨hsign, not_mem_scientificChars hdigits _⟩

theorem isLine_number (n : Number) : IsLine (String.ofList n.chars) := by
  rw [isLine_ofList]
  cases n with
  | whole n => exact isLine_toString_int n
  | float x => exact not_mem_floatChars x

mutual

/-- Every value stays on one line. -/
theorem isLine_describe (v : Json) : IsLine v.describe := by
  cases v with
  | null => decide
  | bool b => cases b <;> decide
  | number n =>
      rw [describe, isLine_append, isLine_append]
      exact ⟨⟨by decide, isLine_number n⟩, by decide⟩
  | string s =>
      rw [describe, isLine_append, isLine_append]
      exact ⟨⟨by decide, isLine_quote s⟩, by decide⟩
  | array items =>
      rw [describe, isLine_append, isLine_append]
      exact ⟨⟨by decide, isLine_describeItems items⟩, by decide⟩
  | object fields =>
      rw [describe, isLine_append, isLine_append]
      exact ⟨⟨by decide, isLine_describeFields fields⟩, by decide⟩

theorem isLine_describeItems (items : List Json) : IsLine (describeItems items) := by
  match items with
  | [] => decide
  | [v] => exact isLine_describe v
  | v :: next :: rest =>
      rw [describeItems, isLine_append, isLine_append]
      exact ⟨⟨isLine_describe v, by decide⟩, isLine_describeItems (next :: rest)⟩
      nofun

theorem isLine_describeFields (fields : List (String × Json)) : IsLine (describeFields fields) := by
  match fields with
  | [] => decide
  | [(n, v)] =>
      rw [describeFields, isLine_append, isLine_append]
      exact ⟨⟨isLine_quote n, by decide⟩, isLine_describe v⟩
  | (n, v) :: next :: rest =>
      rw [describeFields, isLine_append, isLine_append, isLine_append, isLine_append]
      exact ⟨⟨⟨⟨isLine_quote n, by decide⟩, isLine_describe v⟩, by decide⟩,
        isLine_describeFields (next :: rest)⟩
      nofun

end

end Json

/-! ## Counters -/

namespace Metrics

theorem isLine_text (m : Metrics) : IsLine m.text := by
  refine isLine_intercalate (by decide) fun text htext => ?_
  obtain ⟨i, hi, rfl⟩ := List.getElem_of_mem htext
  have hname : ∀ name ∈ shortNames, IsLine name := by decide
  rw [List.getElem_zipWith, isLine_append, isLine_append]
  exact ⟨⟨hname _ (List.getElem_mem _), by decide⟩, isLine_toString _⟩

end Metrics

end TupleSpace
