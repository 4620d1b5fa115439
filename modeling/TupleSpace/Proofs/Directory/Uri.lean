import Mathlib.Data.List.Basic
import TupleSpace.Directory.Uri

/-!
# Normal forms of directory strings

What a directory string means is read off its normal form: strings that mean the same have the same
normal form and no others do.  A normal form is a directory string itself, and means what the string
meant whose normal form it is, with one exception.  A name may end in a blank if an empty parameter
follows; the normal form leaves that parameter out, and then the blank is at the end.
-/

namespace TupleSpace

namespace Text

variable {c : Char} {cs : List Char}

/-- A text without blanks at its ends. -/
structure Trimmed (cs : List Char) : Prop where
  head : ∀ c ∈ cs.head?, isBlank c = false
  last : ∀ c ∈ cs.getLast?, isBlank c = false

theorem trimLeft_of_head (hhead : ∀ c ∈ cs.head?, isBlank c = false) : trimLeft cs = cs := by
  cases cs with
  | nil => rfl
  | cons c cs => rw [trimLeft, List.dropWhile_cons_of_neg (by simp [hhead c rfl])]

theorem head_trimLeft (cs : List Char) : ∀ c ∈ (trimLeft cs).head?, isBlank c = false := by
  intro c hc
  have hnot := List.head?_dropWhile_not isBlank cs
  rw [trimLeft] at hc
  rw [Option.mem_def.mp hc] at hnot
  exact hnot

theorem Trimmed.trim_eq (htrimmed : Trimmed cs) : trim cs = cs := by
  have hlast : ∀ c ∈ cs.reverse.head?, isBlank c = false := by
    rw [List.head?_reverse]
    exact htrimmed.last
  rw [trim, trimLeft_of_head htrimmed.head, trimLeft_of_head hlast, List.reverse_reverse]

theorem trimmed_trim (cs : List Char) : Trimmed (trim cs) where
  head c hc := by
    rw [trim, List.head?_reverse] at hc
    obtain ⟨dropped, hsplit⟩ : trimLeft (trimLeft cs).reverse <:+ (trimLeft cs).reverse :=
      List.dropWhile_suffix isBlank
    refine head_trimLeft cs c ?_
    rw [← List.getLast?_reverse, ← hsplit, List.getLast?_append, Option.mem_def.mp hc]
    rfl
  last c hc := by
    rw [trim, List.getLast?_reverse] at hc
    exact head_trimLeft _ c hc

theorem length_trim_le (cs : List Char) : (trim cs).length ≤ cs.length := by
  have hfirst : (trimLeft cs).length ≤ cs.length := (List.dropWhile_sublist isBlank).length_le
  have hsecond : (trimLeft (trimLeft cs).reverse).length ≤ (trimLeft cs).reverse.length :=
    (List.dropWhile_sublist isBlank).length_le
  rw [List.length_reverse] at hsecond
  rw [trim, List.length_reverse]
  exact Nat.le_trans hsecond hfirst

end Text

namespace SpaceUri

open Text

variable {a b cs : List Char} {t t' : String} {u v : SpaceUri}

/-! ## Pieces -/

theorem splitColon_of_not_mem (hcolon : ':' ∉ a) : splitColon a = (a, none) := by
  induction a with
  | nil => rfl
  | cons c a ih =>
      rw [List.mem_cons, not_or] at hcolon
      rw [splitColon, if_neg fun heq => hcolon.1 heq.symm, ih hcolon.2]

theorem splitColon_append (hcolon : ':' ∉ a) (b : List Char) :
    splitColon (a ++ ':' :: b) = (a, some b) := by
  induction a with
  | nil => rfl
  | cons c a ih =>
      rw [List.mem_cons, not_or] at hcolon
      rw [List.cons_append, splitColon, if_neg fun heq => hcolon.1 heq.symm, ih hcolon.2]

/-- What stands before the first colon and behind it. -/
theorem splitColon_spec (cs : List Char) :
    ':' ∉ (splitColon cs).1 ∧
      cs = match (splitColon cs).2 with
        | none => (splitColon cs).1
        | some rest => (splitColon cs).1 ++ ':' :: rest := by
  induction cs with
  | nil => exact ⟨List.not_mem_nil, rfl⟩
  | cons c cs ih =>
      rw [splitColon]
      split
      · rename_i hc
        exact ⟨List.not_mem_nil, by rw [hc]; rfl⟩
      · rename_i hc
        obtain ⟨hcolon, heq⟩ := ih
        refine ⟨?_, ?_⟩
        · rw [List.mem_cons, not_or]
          exact ⟨fun h => hc h.symm, hcolon⟩
        · generalize splitColon cs = pieces at heq ⊢
          obtain ⟨before, after⟩ := pieces
          rw [heq]
          cases after <;> rfl

/-! ## Schemes -/

/-- The lower case of a character is the character or a lower-case letter. -/
theorem toLower_cases (c : Char) :
    c.toLower = c ∨ 65 ≤ c.toNat ∧ c.toNat ≤ 90 ∧ c.toLower.toNat = c.toNat + 32 := by
  unfold Char.toLower
  split
  · rename_i h
    obtain ⟨hlow, hhigh⟩ := h
    have hlow : 65 ≤ c.val.toNat := UInt32.le_iff_toNat_le.mp hlow
    have hhigh : c.val.toNat ≤ 90 := UInt32.le_iff_toNat_le.mp hhigh
    refine .inr ⟨hlow, hhigh, ?_⟩
    show (c.val + 32).toNat = c.val.toNat + 32
    rw [UInt32.toNat_add]
    exact Nat.mod_eq_of_lt (by change c.val.toNat + 32 < 4294967296; omega)
  · exact .inl rfl

theorem toLower_toLower (c : Char) : c.toLower.toLower = c.toLower := by
  rcases toLower_cases c.toLower with hsame | ⟨_, hhigh, _⟩
  · exact hsame
  · rcases toLower_cases c with hsame | ⟨hlow, _, hlower⟩
    · rw [hsame, hsame]
    · omega

theorem toLower_ne_colon {c : Char} (hcolon : c ≠ ':') : c.toLower ≠ ':' := by
  rcases toLower_cases c with hsame | ⟨hlow, _, hlower⟩
  · rwa [hsame]
  · intro heq
    rw [heq] at hlower
    have hcode : ':'.toNat = 58 := rfl
    omega

theorem isBlank_toLower {c : Char} (hblank : isBlank c = false) : isBlank c.toLower = false := by
  rcases toLower_cases c with hsame | ⟨hlow, hhigh, hlower⟩
  · rwa [hsame]
  · unfold isBlank
    rw [hlower]
    simp only [Bool.or_eq_false_iff, Bool.and_eq_false_iff, decide_eq_false_iff_not,
      beq_eq_false_iff_ne]
    omega

theorem lowerScheme_lowerScheme (cs : List Char) :
    lowerScheme (lowerScheme cs) = lowerScheme cs := by
  rw [lowerScheme, lowerScheme, List.map_map]
  exact List.map_congr_left fun c _ => toLower_toLower c

theorem not_mem_lowerScheme (hcolon : ':' ∉ cs) : ':' ∉ lowerScheme cs := by
  intro hmem
  obtain ⟨c, hc, heq⟩ := List.mem_map.mp hmem
  exact toLower_ne_colon (fun h => hcolon (h ▸ hc)) heq

/-- The default scheme is as schemes are. -/
theorem default_scheme :
    ':' ∉ defaultScheme.toList ∧ lowerScheme defaultScheme.toList = defaultScheme.toList ∧
      ∀ c ∈ defaultScheme.toList.head?, isBlank c = false := by
  have hletters : defaultScheme.toList = ['t', 's', 'p', 'a', 'c', 'e'] := rfl
  rw [hletters]
  refine ⟨by decide, by decide, fun c hc => ?_⟩
  cases hc
  rfl

/-! ## Parsed strings -/

theorem parse_eq_ok_iff :
    parse t = .ok u ↔
      split (trim t.toList) = (u.scheme.toList, u.name.toList, u.param) ∧
        u.scheme.toList ≠ [] ∧ u.name.toList ≠ [] := by
  obtain ⟨scheme, name, param⟩ := u
  simp only [parse]
  generalize split (trim t.toList) = pieces
  obtain ⟨scheme', name', param'⟩ := pieces
  simp only [List.isEmpty_iff]
  constructor
  · intro hparsed
    split at hparsed
    · cases hparsed
    · split at hparsed
      · cases hparsed
      · rename_i hscheme hname
        cases hparsed
        rw [String.toList_ofList, String.toList_ofList]
        exact ⟨rfl, hscheme, hname⟩
  · rintro ⟨heq, hscheme, hname⟩
    cases heq
    rw [if_neg hscheme, if_neg hname, String.ofList_toList, String.ofList_toList]

/-- What holds of a parsed string. -/
structure Normal (u : SpaceUri) : Prop where
  scheme_ne_nil : u.scheme.toList ≠ []
  scheme_colon : ':' ∉ u.scheme.toList
  scheme_lower : lowerScheme u.scheme.toList = u.scheme.toList
  scheme_head : ∀ c ∈ u.scheme.toList.head?, isBlank c = false
  name_ne_nil : u.name.toList ≠ []
  name_colon : ':' ∉ u.name.toList
  param : ∀ p, u.param = some p → p.toList ≠ [] ∧ ∀ c ∈ p.toList.getLast?, isBlank c = false

/-- The name of a parsed string ends in a blank and has no parameter behind it. -/
def EndsBlank (u : SpaceUri) : Prop :=
  u.param = none ∧ ∃ c, u.name.toList.getLast? = some c ∧ isBlank c = true

theorem getLast?_append_colon (a : List Char) {c : Char} (hb : b.getLast? = some c) :
    (a ++ ':' :: b).getLast? = some c := by
  rw [List.getLast?_append, List.getLast?_cons, hb]
  rfl

/-- The pieces of a string as they stand in it. -/
inductive Pieces (u : SpaceUri) : List Char → Prop where
  /-- A name under the default scheme. -/
  | name : u.scheme.toList = defaultScheme.toList → u.param = none → Pieces u u.name.toList
  | schemeName (scheme : List Char) : ':' ∉ scheme → u.scheme.toList = lowerScheme scheme →
      u.param = none → Pieces u (scheme ++ ':' :: u.name.toList)
  /-- A parameter that is none. -/
  | emptyParam (scheme : List Char) : ':' ∉ scheme → u.scheme.toList = lowerScheme scheme →
      u.param = none → Pieces u (scheme ++ ':' :: (u.name.toList ++ [':']))
  | param (scheme : List Char) (p : String) : ':' ∉ scheme →
      u.scheme.toList = lowerScheme scheme → u.param = some p → p.toList ≠ [] →
      Pieces u (scheme ++ ':' :: (u.name.toList ++ ':' :: p.toList))

theorem pieces_of_split (hsplit : split cs = (u.scheme.toList, u.name.toList, u.param)) :
    ':' ∉ u.name.toList ∧ u.Pieces cs := by
  obtain ⟨hcolon, heq⟩ := splitColon_spec cs
  rw [split] at hsplit
  generalize splitColon cs = pieces at hsplit hcolon heq
  obtain ⟨before, after⟩ := pieces
  cases after with
  | none =>
      obtain ⟨hdefault, hname, hparam⟩ : defaultScheme.toList = u.scheme.toList ∧
          before = u.name.toList ∧ none = u.param := by simpa using hsplit
      simp only [] at heq
      rw [heq, hname]
      exact ⟨hname ▸ hcolon, .name hdefault.symm hparam.symm⟩
  | some rest =>
      obtain ⟨hcolon', heq'⟩ := splitColon_spec rest
      simp only [] at hsplit heq
      generalize splitColon rest = pieces at hsplit hcolon' heq'
      obtain ⟨middle, last⟩ := pieces
      obtain ⟨hscheme, hname, hparam⟩ : lowerScheme before = u.scheme.toList ∧
          middle = u.name.toList ∧ nonEmpty? last = u.param := by simpa using hsplit
      subst hname
      refine ⟨hcolon', ?_⟩
      rw [heq, heq']
      match last with
      | none => exact .schemeName before hcolon hscheme.symm hparam.symm
      | some [] => exact .emptyParam before hcolon hscheme.symm hparam.symm
      | some (c :: cs) =>
          have hp := Pieces.param before (String.ofList (c :: cs)) hcolon hscheme.symm hparam.symm
          rw [String.toList_ofList] at hp
          exact hp (List.cons_ne_nil c cs)

/-- The scheme of a string without blanks in front. -/
theorem lowered {scheme rest : List Char} (hcolon : ':' ∉ scheme)
    (hlower : u.scheme.toList = lowerScheme scheme) (htrimmed : Trimmed (scheme ++ ':' :: rest)) :
    ':' ∉ u.scheme.toList ∧ lowerScheme u.scheme.toList = u.scheme.toList ∧
      ∀ c ∈ u.scheme.toList.head?, isBlank c = false := by
  rw [hlower]
  refine ⟨not_mem_lowerScheme hcolon, lowerScheme_lowerScheme scheme, fun c hc => ?_⟩
  rw [lowerScheme, List.head?_map] at hc
  obtain ⟨d, hd, rfl⟩ := Option.map_eq_some_iff.mp hc
  refine isBlank_toLower (htrimmed.head d ?_)
  rw [List.head?_append, hd]
  rfl

theorem parse_normal (hparsed : parse t = .ok u) : u.Normal := by
  obtain ⟨hsplit, hscheme, hname⟩ := parse_eq_ok_iff.mp hparsed
  obtain ⟨hcolon, hpieces⟩ := pieces_of_split hsplit
  have htrimmed := trimmed_trim t.toList
  generalize trim t.toList = cs at hpieces htrimmed
  have hnone : u.param = none → ∀ p, u.param = some p →
      p.toList ≠ [] ∧ ∀ c ∈ p.toList.getLast?, isBlank c = false := by
    intro hnone p hp
    rw [hnone] at hp
    cases hp
  cases hpieces with
  | name hdefault hparam =>
      obtain ⟨hfree, hstill, hhead⟩ := default_scheme
      rw [← hdefault] at hfree hstill hhead
      exact ⟨hscheme, hfree, hstill, hhead, hname, hcolon, hnone hparam⟩
  | schemeName scheme hscheme' hlower hparam =>
      obtain ⟨hfree, hstill, hhead⟩ := lowered hscheme' hlower htrimmed
      exact ⟨hscheme, hfree, hstill, hhead, hname, hcolon, hnone hparam⟩
  | emptyParam scheme hscheme' hlower hparam =>
      obtain ⟨hfree, hstill, hhead⟩ := lowered hscheme' hlower htrimmed
      exact ⟨hscheme, hfree, hstill, hhead, hname, hcolon, hnone hparam⟩
  | param scheme p hscheme' hlower hparam hne =>
      obtain ⟨hfree, hstill, hhead⟩ := lowered hscheme' hlower htrimmed
      refine ⟨hscheme, hfree, hstill, hhead, hname, hcolon, fun p' hp' => ?_⟩
      cases hparam.symm.trans hp'
      refine ⟨hne, fun c hc => htrimmed.last c ?_⟩
      have hlast := getLast?_append_colon u.name.toList hc
      rw [List.getLast?_append, List.getLast?_cons, hlast]
      rfl

/-! ## Normal forms -/

theorem toList_text (u : SpaceUri) :
    u.text.toList = u.scheme.toList ++ ':' :: (u.name.toList ++
      match u.param with
      | none => []
      | some p => ':' :: p.toList) := by
  have hcolon : (":" : String).toList = [':'] := rfl
  obtain ⟨scheme, name, param⟩ := u
  cases param <;> simp [text, String.toList_append, hcolon]

/-- A normal form has the pieces that it was made of. -/
theorem Normal.split_text (hnormal : u.Normal) :
    split u.text.toList = (u.scheme.toList, u.name.toList, u.param) := by
  rw [toList_text, split, splitColon_append hnormal.scheme_colon]
  cases hparam : u.param with
  | none =>
      simp only [List.append_nil, splitColon_of_not_mem hnormal.name_colon, hnormal.scheme_lower]
      rfl
  | some p =>
      simp only [splitColon_append hnormal.name_colon, hnormal.scheme_lower]
      obtain ⟨hne, _⟩ := hnormal.param p hparam
      cases hp : p.toList with
      | nil => exact absurd hp hne
      | cons c cs => rw [nonEmpty?, ← hp, String.ofList_toList]

/-- Strings that mean something else have another normal form. -/
theorem Normal.eq_of_text_eq (hnormal : u.Normal) (hnormal' : v.Normal) (htext : u.text = v.text) :
    u = v := by
  have hpieces := hnormal.split_text
  rw [htext, hnormal'.split_text] at hpieces
  obtain ⟨hscheme, hname, hparam⟩ : v.scheme.toList = u.scheme.toList ∧
      v.name.toList = u.name.toList ∧ v.param = u.param := by simpa using hpieces
  obtain ⟨scheme, name, param⟩ := u
  obtain ⟨scheme', name', param'⟩ := v
  cases String.toList_inj.mp hscheme
  cases String.toList_inj.mp hname
  cases hparam
  rfl

/-- A normal form without a blank at its end is trimmed. -/
theorem Normal.trimmed_text (hnormal : u.Normal) (hends : ¬u.EndsBlank) :
    Trimmed u.text.toList where
  head c hc := by
    refine hnormal.scheme_head c ?_
    rw [toList_text, List.head?_append] at hc
    cases hscheme : u.scheme.toList with
    | nil => exact absurd hscheme hnormal.scheme_ne_nil
    | cons d cs =>
        rw [hscheme] at hc
        exact hc
  last c hc := by
    rw [toList_text] at hc
    cases hparam : u.param with
    | none =>
        cases hlast : u.name.toList.getLast? with
        | none => exact absurd (List.getLast?_eq_none_iff.mp hlast) hnormal.name_ne_nil
        | some d =>
            simp only [hparam, List.append_nil] at hc
            rw [getLast?_append_colon _ hlast] at hc
            cases hc
            exact Bool.eq_false_iff.mpr fun hblank => hends ⟨hparam, c, hlast, hblank⟩
    | some p =>
        obtain ⟨hne, hblank⟩ := hnormal.param p hparam
        cases hlast : p.toList.getLast? with
        | none => exact absurd (List.getLast?_eq_none_iff.mp hlast) hne
        | some d =>
            simp only [hparam] at hc
            have hwhole := getLast?_append_colon u.name.toList hlast
            rw [getLast?_append_colon _ hwhole] at hc
            cases hc
            exact hblank c hlast

theorem Normal.parse_text (hnormal : u.Normal) (hends : ¬u.EndsBlank) : parse u.text = .ok u := by
  rw [parse_eq_ok_iff, (hnormal.trimmed_text hends).trim_eq]
  exact ⟨hnormal.split_text, hnormal.scheme_ne_nil, hnormal.name_ne_nil⟩

/-- A normal form that ends in a blank does not mean what it was made of. -/
theorem EndsBlank.parse_text_ne (hends : u.EndsBlank) : parse u.text ≠ .ok u := by
  intro hparsed
  obtain ⟨hparam, c, hlast, hblank⟩ := hends
  obtain ⟨hsplit, _, _⟩ := parse_eq_ok_iff.mp hparsed
  obtain ⟨_, hpieces⟩ := pieces_of_split hsplit
  have htrimmed := trimmed_trim u.text.toList
  have hlength := length_trim_le u.text.toList
  have hnot : ∀ cs, Trimmed cs → cs.getLast? ≠ some c := fun cs hcs heq =>
    Bool.noConfusion ((hcs.last c heq).symm.trans hblank)
  generalize trim u.text.toList = cs at hpieces htrimmed hlength
  cases hpieces with
  | name => exact hnot _ htrimmed hlast
  | schemeName scheme => exact hnot _ htrimmed (getLast?_append_colon scheme hlast)
  | emptyParam scheme _ hlower =>
      -- The text would be longer than the normal form that it comes from.
      have hsame := congrArg List.length hlower
      rw [toList_text, hparam] at hlength
      simp only [lowerScheme, List.length_map, List.length_append, List.length_cons,
        List.length_nil] at hsame hlength
      omega
  | param scheme p _ _ hsome =>
      rw [hparam] at hsome
      cases hsome

/-- A normal form means what the string meant that it was made of, unless it ends in a blank. -/
theorem Normal.parse_text_iff (hnormal : u.Normal) : parse u.text = .ok u ↔ ¬u.EndsBlank :=
  ⟨fun hparsed hends => hends.parse_text_ne hparsed, hnormal.parse_text⟩

end SpaceUri

end TupleSpace
