import Mathlib.Data.List.Nodup
import Mathlib.Data.List.TakeWhile
import Mathlib.Logic.Function.Basic
import TupleSpace.Proofs.KeyQueue.Walks

/-!
# Stores and fading

The contents of a space as a function of the key, and the one thing that happens to them behind the
back of their users: an expired entry is dropped.  `Fades` counts such drops, whichever operation
performs them and in whatever order.  Fading never changes what is live, now or later, so whoever
looks at the live entries only cannot tell when a dropped entry went.
-/

namespace TupleSpace

/-! ## Places in a list -/

namespace Placement

variable {β γ : Type}

/-- A list with one more element in its place. -/
def place (x : β) (xs : List β) : Placement → List β
  | .tail => xs ++ [x]
  | .head => x :: xs
  | .replace => [x]

theorem map_place (f : β → γ) (x : β) (xs : List β) (placement : Placement) :
    (placement.place x xs).map f = placement.place (f x) (xs.map f) := by
  cases placement <;> simp [place]

theorem filter_place {p : β → Bool} {x : β} (hx : p x = true) (xs : List β)
    (placement : Placement) :
    (placement.place x xs).filter p = placement.place x (xs.filter p) := by
  cases placement <;> simp [place, hx]

theorem mem_place_self (x : β) (xs : List β) (placement : Placement) :
    x ∈ placement.place x xs := by
  cases placement <;> simp [place]

/-- What was in a list before stays there, unless it is replaced. -/
theorem mem_place_of_ne {x y : β} (hne : y ≠ x) (xs : List β) (placement : Placement) :
    y ∈ placement.place x xs ↔ placement ≠ .replace ∧ y ∈ xs := by
  cases placement <;> simp [place, hne]

theorem nodup_place {x : β} {xs : List β} (hx : x ∉ xs) (hnodup : xs.Nodup)
    (placement : Placement) : (placement.place x xs).Nodup := by
  cases placement with
  | tail => simpa [place] using List.Nodup.concat hx hnodup
  | head => exact List.nodup_cons.mpr ⟨hx, hnodup⟩
  | replace => exact List.nodup_singleton x

end Placement

theorem KeyQueue.insert_entries {α : Type} (q : KeyQueue α) (e : Entry α)
    (placement : Placement) : (q.insert e placement).entries = placement.place e q.entries := by
  cases placement <;> rfl

/-! ## Stores -/

/-- The entries under every key, expired ones included, the head first. -/
abbrev Store (κ α : Type) := κ → List (Entry α)

namespace Store

variable {κ α : Type} [DecidableEq κ] {now later m n : Nat} {st st' st'' : Store κ α}

/-- The entries that are live at an instant. -/
def live (now : Nat) (st : Store κ α) : Store κ α :=
  fun key => (st key).filter (·.isLive now)

omit [DecidableEq κ] in
/-- Of the entries that are live now, those that are still live later are the ones live later. -/
theorem live_live (hle : now ≤ later) (st : Store κ α) :
    live later (live now st) = live later st := by
  funext key
  simp only [live, List.filter_filter]
  apply List.filter_congr
  intro e _
  cases hlive : e.isLive later with
  | false => rfl
  | true => rw [Entry.isLive_anti hle hlive]; rfl

theorem live_update (now : Nat) (st : Store κ α) (key : κ) (entries : List (Entry α)) :
    live now (Function.update st key entries) =
      Function.update (live now st) key (entries.filter (·.isLive now)) := by
  funext k
  by_cases hk : k = key
  · subst hk
    simp [live]
  · simp [live, hk]

/-- A number of expired entries has been dropped, one after the other. -/
inductive Fades (now : Nat) : Nat → Store κ α → Store κ α → Prop
  | /-- Nothing was dropped. -/
    refl (st : Store κ α) : Fades now 0 st st
  | /-- One expired entry was dropped, then the others. -/
    drop {n : Nat} {st st' : Store κ α} {key : κ} {before after : List (Entry α)} {e : Entry α}
      (stored : st key = before ++ e :: after) (expired : e.isExpired now = true)
      (rest : Fades now n (Function.update st key (before ++ after)) st') :
      Fades now (n + 1) st st'

namespace Fades

theorem trans (hfirst : Fades now m st st') (hsecond : Fades now n st' st'') :
    Fades now (m + n) st st'' := by
  induction hfirst with
  | refl => simpa using hsecond
  | drop stored expired rest ih =>
      have hrest := Fades.drop stored expired (ih hsecond)
      rwa [Nat.add_right_comm]

/-- Fading hides nothing that is live, at that instant or after it. -/
theorem live_eq (hfades : Fades now n st st') (hle : now ≤ later) :
    live later st' = live later st := by
  induction hfades with
  | refl => rfl
  | @drop n st st' key before after e stored expired rest ih =>
      rw [ih]
      funext k
      have hgone : e.isExpired later = true := Entry.isExpired_mono hle expired
      by_cases hk : k = key
      · subst hk
        simp [live, stored, Entry.isLive_eq_not, hgone]
      · simp [live, hk]

/-- What has not faded was there before. -/
theorem subset (hfades : Fades now n st st') (key : κ) : st' key ⊆ st key := by
  induction hfades with
  | refl => exact List.Subset.refl _
  | @drop n st st' k before after e stored expired rest ih =>
      intro x hx
      have hmem := ih hx
      by_cases hk : key = k
      · subst hk
        rw [Function.update_self] at hmem
        rw [stored]
        exact List.append_subset.mpr ⟨List.subset_append_left _ _, fun y hy =>
          List.mem_append_right _ (List.mem_cons_of_mem e hy)⟩ hmem
      · rwa [Function.update_of_ne hk] at hmem

/-- Where there is nothing, nothing can fade. -/
theorem eq_nil {key : κ} (hfades : Fades now n st st') (hnil : st key = []) : st' key = [] :=
  List.subset_nil.mp (hnil ▸ hfades.subset key)

/-- Dropping the expired entries of a stretch of one queue is fading. -/
theorem of_stretch (now : Nat) (key : κ) (kept before after : List (Entry α))
    (hstored : st key = kept ++ (before ++ after)) :
    Fades now (before.countP (·.isExpired now)) st
      (Function.update st key (kept ++ (before.filter (·.isLive now) ++ after))) := by
  induction before generalizing kept st with
  | nil =>
      rw [List.filter_nil, ← hstored, Function.update_eq_self]
      exact .refl st
  | cons e before ih =>
      by_cases hexpired : e.isExpired now = true
      · have hrest := ih kept
          (Function.update_self key (kept ++ (before ++ after)) st)
        rw [Function.update_idem] at hrest
        simpa [Entry.isLive_eq_not, hexpired] using Fades.drop hstored hexpired hrest
      · have hrest := ih (kept ++ [e]) (by simpa using hstored)
        simpa [Entry.isLive_eq_not, hexpired] using hrest

/-- Dropping the expired entries in front of some others is fading. -/
theorem of_front (now : Nat) (key : κ) (before after : List (Entry α))
    (hstored : st key = before ++ after) :
    Fades now (before.countP (·.isExpired now)) st
      (Function.update st key (before.filter (·.isLive now) ++ after)) :=
  of_stretch now key [] before after hstored

/-- Dropping every expired entry of one queue is fading. -/
theorem of_filter (now : Nat) (st : Store κ α) (key : κ) :
    Fades now ((st key).countP (·.isExpired now)) st
      (Function.update st key ((st key).filter (·.isLive now))) := by
  simpa using of_front now key (st key) [] (List.append_nil (st key)).symm

/-- Dropping the expired head of one queue is fading. -/
theorem of_dropWhile (now : Nat) (st : Store κ α) (key : κ) :
    Fades now ((st key).takeWhile (·.isExpired now)).length st
      (Function.update st key ((st key).dropWhile (·.isExpired now))) := by
  let head := (st key).takeWhile fun e => e.isExpired now
  have hhead : ∀ e ∈ head, e.isExpired now = true := by
    intro e he
    have hp := @List.mem_takeWhile_imp _ (fun x : Entry α => x.isExpired now) _ _ he
    exact hp
  have hnone : head.filter (·.isLive now) = [] :=
    List.filter_eq_nil_iff.mpr fun e he => by simp [Entry.isLive_eq_not, hhead e he]
  have hfades := of_front now key head ((st key).dropWhile (·.isExpired now))
    List.takeWhile_append_dropWhile.symm
  rwa [hnone, List.nil_append, List.countP_eq_length.mpr hhead] at hfades

end Fades

end Store

end TupleSpace
