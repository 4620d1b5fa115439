import Mathlib.Data.List.Basic
import Mathlib.Tactic.SplitIfs
import Std.Data.String.ToInt
import TupleSpace.Json.Writing
import TupleSpace.Json.Written

/-!
# Compact texts can be read in one way only

Two values with the same compact text are the same value, whatever stands behind the texts.  Of
numbers only whole ones are considered: a zero with a sign and one without equal each other as
numbers, and are written differently.

Each kind of token has its own reason.  The first character tells the kind of a value.  A number
ends at the first character that no number holds, and such a character stands behind it.  A string
ends at the first quote that is not escaped, and the reader of strings gets back what was written.
The rest is an induction on the value.
-/

namespace TupleSpace.Json

/-! ## Values without floats -/

mutual

/-- Whether every number in a value is whole. -/
def isFloatFree : Json → Bool
  | null => true
  | bool _ => true
  | number (.whole _) => true
  | number (.float _) => false
  | string _ => true
  | array items => areFloatFree items
  | object fields => fieldsAreFloatFree fields

/-- Whether every number in some items is whole. -/
def areFloatFree : List Json → Bool
  | [] => true
  | v :: vs => isFloatFree v && areFloatFree vs

/-- Whether every number in some fields is whole. -/
def fieldsAreFloatFree : List (String × Json) → Bool
  | [] => true
  | (_, v) :: fs => isFloatFree v && fieldsAreFloatFree fs

end

theorem exists_whole_of_isFloatFree {n : Number} (hfree : (number n).isFloatFree = true) :
    ∃ i, n = .whole i := by
  cases n with
  | whole i => exact ⟨i, rfl⟩
  | float x => simp [isFloatFree] at hfree

@[simp]
theorem areFloatFree_cons {v : Json} {vs : List Json} :
    areFloatFree (v :: vs) = true ↔ v.isFloatFree = true ∧ areFloatFree vs = true := by
  rw [areFloatFree, Bool.and_eq_true]

@[simp]
theorem fieldsAreFloatFree_cons {name : String} {v : Json} {fs : List (String × Json)} :
    fieldsAreFloatFree ((name, v) :: fs) = true ↔
      v.isFloatFree = true ∧ fieldsAreFloatFree fs = true := by
  rw [fieldsAreFloatFree, Bool.and_eq_true]

/-! ## What stands behind a value -/

/-- A text that can stand behind a value: it is empty, goes on with the next item or field, or ends
a list of them. -/
def Delimits (rest : List Char) : Prop :=
  ∀ c ∈ rest.head?, c = ',' ∨ c = ']' ∨ c = '}'

theorem delimits_nil : Delimits [] := nofun

theorem delimits_compactItems (vs : List Json) (rest : List Char) :
    Delimits (compactItems vs ++ rest) := by
  cases vs <;> simp [Delimits, compactItems]

theorem delimits_compactFields (fs : List (String × Json)) (rest : List Char) :
    Delimits (compactFields fs ++ rest) := by
  cases fs <;> simp [Delimits, compactFields]

/-! ## Numbers -/

/-- A whole number consists of digits and dashes. -/
def inNumeral (c : Char) : Bool := c.isDigit || c == '-'

/-- A token made of some characters ends where they end. -/
theorem token_unambiguous {p : Char → Bool} {a b r s : List Char} (ha : ∀ c ∈ a, p c = true)
    (hb : ∀ c ∈ b, p c = true) (hr : ∀ c ∈ r.head?, p c = false)
    (hs : ∀ c ∈ s.head?, p c = false) (heq : a ++ r = b ++ s) : a = b ∧ r = s := by
  have htaken {token rest : List Char} (htoken : ∀ c ∈ token, p c = true)
      (hrest : ∀ c ∈ rest.head?, p c = false) : (token ++ rest).takeWhile p = token := by
    rw [List.takeWhile_append_of_pos htoken]
    cases rest with
    | nil => rw [List.takeWhile_nil, List.append_nil]
    | cons c rest =>
        rw [List.takeWhile_cons_of_neg (by simp [hrest c rfl]), List.append_nil]
  have hsame : a = b := by
    rw [← htaken ha hr, heq, htaken hb hs]
  exact ⟨hsame, List.append_cancel_left (hsame ▸ heq)⟩

theorem Delimits.not_inNumeral {rest : List Char} (hrest : Delimits rest) :
    ∀ c ∈ rest.head?, inNumeral c = false := by
  intro c hc
  obtain rfl | rfl | rfl := hrest c hc <;> rfl

theorem chars_whole (n : Int) :
    Number.chars (.whole n) = if 0 ≤ n then Nat.toDigits 10 n.toNat
      else '-' :: Nat.toDigits 10 (-n).toNat := by
  rw [Number.chars, Int.toString_eq_repr, Int.repr_eq_if]
  split <;> simp

theorem inNumeral_of_mem_chars (n : Int) : ∀ c ∈ Number.chars (.whole n), inNumeral c = true := by
  have hdigit {m : Nat} {c : Char} (hc : c ∈ Nat.toDigits 10 m) : inNumeral c = true := by
    rw [inNumeral, Nat.isDigit_of_mem_toDigits (by decide) (by decide) hc, Bool.true_or]
  intro c hc
  rw [chars_whole] at hc
  split at hc
  · exact hdigit hc
  · obtain rfl | hc := List.mem_cons.mp hc
    · rfl
    · exact hdigit hc

theorem chars_whole_ne_nil (n : Int) : Number.chars (.whole n) ≠ [] := by
  rw [chars_whole]
  split
  · exact Nat.toDigits_ne_nil
  · exact List.cons_ne_nil _ _

/-- Whole numbers with one text behind which something else begins are the same. -/
theorem number_unambiguous {n m : Int} {r s : List Char} (hr : Delimits r) (hs : Delimits s)
    (heq : Number.chars (.whole n) ++ r = Number.chars (.whole m) ++ s) : n = m ∧ r = s := by
  obtain ⟨hchars, hrest⟩ := token_unambiguous (inNumeral_of_mem_chars n)
    (inNumeral_of_mem_chars m) hr.not_inNumeral hs.not_inNumeral heq
  rw [Number.chars, Number.chars, String.toList_inj, Int.toString_eq_repr, Int.toString_eq_repr]
    at hchars
  exact ⟨Int.repr_injective hchars, hrest⟩

/-! ## Strings -/

namespace Written

/-- The piece as which a character is read that has been written inside a string. -/
def pieceOf (c : Char) : Piece :=
  if c.toNat < 32 ∧ c.toNat ≠ 8 ∧ c.toNat ≠ 12 ∧ c ≠ '\n' ∧ c ≠ '\r' ∧ c ≠ '\t' then
    .unit c.toNat
  else .char c

theorem pieceOf_injective {c d : Char} (heq : pieceOf c = pieceOf d) : c = d := by
  unfold pieceOf at heq
  split_ifs at heq
  · exact Char.toNat_inj.mp (Piece.unit.inj heq)
  · exact Piece.char.inj heq

theorem unit?_hexPair {n : Nat} (hn : n < 32) (rest : List Char) :
    unit? ('0' :: '0' :: hexPair n ++ rest) = some (n, rest) := by
  have hdigit : ∀ d < 16, hexDigit? (Nat.digitChar d) = some d := by decide
  have hzero : hexDigit? '0' = some 0 := by decide
  simp only [hexPair, List.cons_append, List.nil_append, unit?, hzero,
    hdigit (n / 16) (by omega), hdigit (n % 16) (by omega), Option.bind_eq_bind, Option.bind_some]
  simp only [Option.pure_def, Option.some.injEq, Prod.mk.injEq, and_true]
  omega

/-- An escaped character is read back. -/
theorem pieces?_escapeChar (fuel : Nat) (c : Char) (rest : List Char) :
    pieces? (fuel + 1) (escapeChar c ++ rest) =
      (pieces? fuel rest).map fun (ps, end_) => (pieceOf c :: ps, end_) := by
  have hcode {n : Nat} (hn : c.toNat = n) : c = Char.ofNat n := by rw [← hn, Char.ofNat_toNat]
  unfold escapeChar
  split_ifs with hquote hslash hback hfeed hline hreturn htab hcontrol
  · obtain rfl := beq_iff_eq.mp hquote
    rfl
  · obtain rfl := beq_iff_eq.mp hslash
    rfl
  · obtain rfl := hcode (beq_iff_eq.mp hback)
    rfl
  · obtain rfl := hcode (beq_iff_eq.mp hfeed)
    rfl
  · obtain rfl := beq_iff_eq.mp hline
    rfl
  · obtain rfl := beq_iff_eq.mp hreturn
    rfl
  · obtain rfl := beq_iff_eq.mp htab
    rfl
  · have hpiece : pieceOf c = .unit c.toNat :=
      if_pos ⟨hcontrol, by simpa using hback, by simpa using hfeed, by simpa using hline,
        by simpa using hreturn, by simpa using htab⟩
    have hunit := unit?_hexPair hcontrol rest
    rw [hpiece]
    simp only [List.cons_append, List.nil_append, pieces?] at hunit ⊢
    rw [if_neg (by decide), if_pos (by decide), if_pos (by decide), hunit]
  · have hpiece : pieceOf c = .char c := if_neg fun hunit => hcontrol hunit.1
    rw [hpiece]
    simp only [List.singleton_append, pieces?]
    rw [if_neg hquote, if_neg hslash, if_neg hcontrol]

/-- The inside of a string is read back up to the closing quote. -/
theorem pieces?_escaped {fuel : Nat} {cs : List Char} (hfuel : cs.length < fuel)
    (rest : List Char) :
    pieces? fuel (cs.flatMap escapeChar ++ '"' :: rest) = some (cs.map pieceOf, rest) := by
  induction cs generalizing fuel with
  | nil =>
      obtain ⟨fuel, rfl⟩ := Nat.exists_eq_add_of_lt hfuel
      simp [pieces?]
  | cons c cs ih =>
      cases fuel with
      | zero => cases hfuel
      | succ fuel =>
          have hrest := ih (Nat.lt_of_succ_lt_succ hfuel)
          rw [List.flatMap_cons, List.append_assoc, pieces?_escapeChar, hrest]
          rfl

end Written

/-- Strings with one text are the same, whatever stands behind them. -/
theorem string_unambiguous {a b : String} {r s : List Char}
    (heq : stringChars a ++ r = stringChars b ++ s) : a = b ∧ r = s := by
  have hinside : a.toList.flatMap escapeChar ++ '"' :: r =
      b.toList.flatMap escapeChar ++ '"' :: s := by
    simpa [stringChars] using heq
  let fuel := max a.toList.length b.toList.length + 1
  have hlong : a.toList.length < fuel ∧ b.toList.length < fuel := by omega
  have ha := Written.pieces?_escaped hlong.1 r
  have hb := Written.pieces?_escaped hlong.2 s
  rw [hinside, hb, Option.some.injEq, Prod.mk.injEq] at ha
  have hlists := List.map_injective_iff.mpr (fun _ _ => Written.pieceOf_injective) ha.1
  exact ⟨(String.toList_inj.mp hlists).symm, ha.2.symm⟩

/-! ## Kinds -/

/-- The kinds of values. -/
inductive Kind where
  | null
  | bool
  | number
  | string
  | array
  | object
deriving DecidableEq, Repr

/-- The kind of a value. -/
def kind : Json → Kind
  | null => .null
  | bool _ => .bool
  | number _ => .number
  | string _ => .string
  | array _ => .array
  | object _ => .object

/-- The kind of a value whose text begins with a character. -/
def Kind.ofFirst? (c : Char) : Option Kind :=
  if c = 'n' then some .null
  else if c = 't' ∨ c = 'f' then some .bool
  else if inNumeral c then some .number
  else if c = '"' then some .string
  else if c = '[' then some .array
  else if c = '{' then some .object
  else none

theorem Kind.ofFirst?_of_inNumeral {c : Char} (hc : inNumeral c = true) :
    Kind.ofFirst? c = some .number := by
  have hne {d : Char} (hd : inNumeral d = false) : c ≠ d := by
    rintro rfl
    rw [hc] at hd
    cases hd
  unfold Kind.ofFirst?
  rw [if_neg (hne (by decide)), if_neg (not_or.mpr ⟨hne (by decide), hne (by decide)⟩), if_pos hc]

/-- The first character tells the kind of a value. -/
theorem exists_first {v : Json} (hfree : v.isFloatFree = true) :
    ∃ c rest, compactChars v = c :: rest ∧ Kind.ofFirst? c = some v.kind := by
  cases v with
  | null => exact ⟨_, _, rfl, rfl⟩
  | bool b => cases b <;> exact ⟨_, _, rfl, rfl⟩
  | number n =>
      obtain ⟨i, rfl⟩ := exists_whole_of_isFloatFree hfree
      obtain ⟨c, rest, hchars⟩ := List.exists_cons_of_ne_nil (chars_whole_ne_nil i)
      have hc := inNumeral_of_mem_chars i c (hchars ▸ List.mem_cons_self)
      exact ⟨c, rest, hchars, Kind.ofFirst?_of_inNumeral hc⟩
  | string s => exact ⟨_, _, rfl, rfl⟩
  | array items => cases items <;> exact ⟨_, _, rfl, rfl⟩
  | object fields => rcases fields with _ | ⟨⟨name, v⟩, fs⟩ <;> exact ⟨_, _, rfl, rfl⟩

theorem kind_eq {v c : Json} {r s : List Char} (hv : v.isFloatFree = true)
    (hc : c.isFloatFree = true) (heq : compactChars v ++ r = compactChars c ++ s) :
    v.kind = c.kind := by
  obtain ⟨x, xs, hx, hkind⟩ := exists_first hv
  obtain ⟨y, ys, hy, hkind'⟩ := exists_first hc
  rw [hx, hy, List.cons_append, List.cons_append] at heq
  rw [(List.cons.inj heq).1, hkind'] at hkind
  exact (Option.some.inj hkind).symm

/-- No value begins as a list of items or fields ends. -/
theorem compactChars_ne_closing {v : Json} (hfree : v.isFloatFree = true) {c : Char}
    (hclosing : Kind.ofFirst? c = none) (r s : List Char) : compactChars v ++ r ≠ c :: s := by
  obtain ⟨x, xs, hx, hkind⟩ := exists_first hfree
  rintro heq
  rw [hx, List.cons_append] at heq
  rw [(List.cons.inj heq).1, hclosing] at hkind
  cases hkind

/-! ## Values -/

mutual

/-- Values with one text behind which something else begins are the same. -/
theorem compactChars_unambiguous {v c : Json} (hv : v.isFloatFree = true)
    (hc : c.isFloatFree = true) {r s : List Char} (hr : Delimits r) (hs : Delimits s)
    (heq : compactChars v ++ r = compactChars c ++ s) : v = c ∧ r = s := by
  have hkind := kind_eq hv hc heq
  match v, c with
  | null, null => exact ⟨rfl, List.append_cancel_left heq⟩
  | bool a, bool b =>
      cases a <;> cases b
      · exact ⟨rfl, List.append_cancel_left heq⟩
      · simp [compactChars] at heq
      · simp [compactChars] at heq
      · exact ⟨rfl, List.append_cancel_left heq⟩
  | number n, number m =>
      obtain ⟨i, rfl⟩ := exists_whole_of_isFloatFree hv
      obtain ⟨j, rfl⟩ := exists_whole_of_isFloatFree hc
      obtain ⟨rfl, hrest⟩ := number_unambiguous hr hs heq
      exact ⟨rfl, hrest⟩
  | string a, string b =>
      obtain ⟨rfl, hrest⟩ := string_unambiguous heq
      exact ⟨rfl, hrest⟩
  | array [], array [] => exact ⟨rfl, List.append_cancel_left heq⟩
  | array [], array (c :: cs) =>
      rw [isFloatFree, areFloatFree_cons] at hc
      simp only [compactChars, List.cons_append, List.append_assoc, List.cons.injEq] at heq
      exact absurd heq.2.symm (compactChars_ne_closing hc.1 (by decide) _ _)
  | array (v :: vs), array [] =>
      rw [isFloatFree, areFloatFree_cons] at hv
      simp only [compactChars, List.cons_append, List.append_assoc, List.cons.injEq] at heq
      exact absurd heq.2 (compactChars_ne_closing hv.1 (by decide) _ _)
  | array (v :: vs), array (c :: cs) =>
      rw [isFloatFree, areFloatFree_cons] at hv hc
      simp only [compactChars, List.cons_append, List.append_assoc, List.cons.injEq] at heq
      obtain ⟨rfl, hitems⟩ := compactChars_unambiguous hv.1 hc.1 (delimits_compactItems vs r)
        (delimits_compactItems cs s) heq.2
      obtain ⟨rfl, hrest⟩ := compactItems_unambiguous hv.2 hc.2 hitems
      exact ⟨rfl, hrest⟩
  | object [], object [] => exact ⟨rfl, List.append_cancel_left heq⟩
  | object [], object ((name, c) :: cs) => simp [compactChars, stringChars] at heq
  | object ((name, v) :: vs), object [] => simp [compactChars, stringChars] at heq
  | object ((name, v) :: vs), object ((other, c) :: cs) =>
      rw [isFloatFree, fieldsAreFloatFree_cons] at hv hc
      simp only [compactChars, List.cons_append, List.append_assoc, List.cons.injEq] at heq
      obtain ⟨rfl, hvalue⟩ := string_unambiguous heq.2
      obtain ⟨rfl, hfields⟩ := compactChars_unambiguous hv.1 hc.1 (delimits_compactFields vs r)
        (delimits_compactFields cs s) (List.cons.inj hvalue).2
      obtain ⟨rfl, hrest⟩ := compactFields_unambiguous hv.2 hc.2 hfields
      exact ⟨rfl, hrest⟩

theorem compactItems_unambiguous {vs cs : List Json} (hv : areFloatFree vs = true)
    (hc : areFloatFree cs = true) {r s : List Char}
    (heq : compactItems vs ++ r = compactItems cs ++ s) : vs = cs ∧ r = s := by
  match vs, cs with
  | [], [] => exact ⟨rfl, List.append_cancel_left heq⟩
  | [], c :: cs => simp [compactItems] at heq
  | v :: vs, [] => simp [compactItems] at heq
  | v :: vs, c :: cs =>
      rw [areFloatFree_cons] at hv hc
      simp only [compactItems, List.cons_append, List.append_assoc, List.cons.injEq] at heq
      obtain ⟨rfl, hitems⟩ := compactChars_unambiguous hv.1 hc.1 (delimits_compactItems vs r)
        (delimits_compactItems cs s) heq.2
      obtain ⟨rfl, hrest⟩ := compactItems_unambiguous hv.2 hc.2 hitems
      exact ⟨rfl, hrest⟩

theorem compactFields_unambiguous {vs cs : List (String × Json)}
    (hv : fieldsAreFloatFree vs = true) (hc : fieldsAreFloatFree cs = true) {r s : List Char}
    (heq : compactFields vs ++ r = compactFields cs ++ s) : vs = cs ∧ r = s := by
  match vs, cs with
  | [], [] => exact ⟨rfl, List.append_cancel_left heq⟩
  | [], (name, c) :: cs => simp [compactFields] at heq
  | (name, v) :: vs, [] => simp [compactFields] at heq
  | (name, v) :: vs, (other, c) :: cs =>
      rw [fieldsAreFloatFree_cons] at hv hc
      simp only [compactFields, List.cons_append, List.append_assoc, List.cons.injEq] at heq
      obtain ⟨rfl, hvalue⟩ := string_unambiguous heq.2
      obtain ⟨rfl, hfields⟩ := compactChars_unambiguous hv.1 hc.1 (delimits_compactFields vs r)
        (delimits_compactFields cs s) (List.cons.inj hvalue).2
      obtain ⟨rfl, hrest⟩ := compactFields_unambiguous hv.2 hc.2 hfields
      exact ⟨rfl, hrest⟩

end

/-- Values with the same compact form are the same. -/
theorem compact_inj {v c : Json} (hv : v.isFloatFree = true) (hc : c.isFloatFree = true) :
    v.compact = c.compact ↔ v = c := by
  refine ⟨fun heq => ?_, congrArg compact⟩
  have hchars : compactChars v ++ [] = compactChars c ++ [] := by
    rw [String.ofList_injective heq]
  exact (compactChars_unambiguous hv hc delimits_nil delimits_nil hchars).1

end TupleSpace.Json
