import TupleSpace.Proofs.Abandonment
import TupleSpace.Proofs.Listeners.Nesting

/-!
# What becomes of registrations

A history of a world is told from the point of view of registrations: `Happening` is something that
happens to one of them.  Every deed has its happenings in their order, those of listeners that react
to an insertion included, and `Accounts` says that they account for everything.  Whoever was
registered or has been accepted since has been told, removed or dropped, or has lapsed, or is still
registered; and the counters of a space have gone up by one for everybody who was told, and for
everybody who panicked.
-/

namespace TupleSpace

/-- Something that happens to registrations of a space. -/
inductive Happening where
  | /-- A registration is accepted. -/
    accepted (space : Nat) (key : String) (e : Entry Nat)
  | /-- A registration is removed at somebody's wish. -/
    removed (now space : Nat) (key : String) (e : Entry Nat)
  | /-- The listener of a registration is told of an insertion, and may panic over it. -/
    told (now space : Nat) (key : String) (e : Entry Nat) (value : Json) (panicked : Bool)
  | /-- Whoever is registered is dropped because the space is closed. -/
    dropped (space : Nat) (audience : Store String Nat)

namespace Happening

/-- The registrations under a key of a space that a happening makes. -/
def entered (i : Nat) (key : String) : Happening → List (Entry Nat)
  | accepted j k e => if j = i ∧ k = key then [e] else []
  | _ => []

/-- The registrations under a key of a space that a happening ends. -/
def ended (i : Nat) (key : String) : Happening → List (Entry Nat)
  | removed _ j k e => if j = i ∧ k = key then [e] else []
  | told _ j k e _ _ => if j = i ∧ k = key then [e] else []
  | dropped j audience => if j = i then audience key else []
  | accepted _ _ _ => []

/-- What a happening adds to the counters of a space. -/
def counted (i : Nat) : Happening → Nat × Nat
  | told _ j _ _ _ panicked => if j = i then (1, if panicked then 1 else 0) else 0
  | _ => 0

/-- A happening falls into a time, and no listener is told and no registration removed after it has
lapsed. -/
def Timely (start stop : Nat) : Happening → Prop
  | removed now _ _ e => start ≤ now ∧ now ≤ stop ∧ e.isLive now = true
  | told now _ _ e _ _ => start ≤ now ∧ now ≤ stop ∧ e.isLive now = true
  | _ => True

theorem Timely.mono {h : Happening} {start stop start' stop' : Nat} (htimely : h.Timely start stop)
    (hstart : start' ≤ start) (hstop : stop ≤ stop') : h.Timely start' stop' := by
  cases h with
  | removed now i key e =>
      exact ⟨hstart.trans htimely.1, htimely.2.1.trans hstop, htimely.2.2⟩
  | told now i key e value panicked =>
      exact ⟨hstart.trans htimely.1, htimely.2.1.trans hstop, htimely.2.2⟩
  | accepted | dropped => trivial

end Happening

namespace World

variable {w v w' : World} {log log' : List Happening} {i j : Nat} {key : String} {value : Json}
  {e : Entry Nat} {s : Space}

/-- So many happenings account for what has become of registrations. -/
structure Accounts (w : World) (log : List Happening) (w' : World) : Prop where
  now : w.now ≤ w'.now
  /-- Whoever was registered, or has been accepted since, has been told, removed or dropped, or has
  lapsed, or is still registered. -/
  audience : ∀ i key, ∃ lapsed : List (Entry Nat), (∀ e ∈ lapsed, e.isLive w'.now = false) ∧
    (w.audience i key ++ log.flatMap (Happening.entered i key)).Perm
      (log.flatMap (Happening.ended i key) ++ lapsed ++ w'.audience i key)
  /-- Everybody who has been told has been counted, and so has everybody who has panicked. -/
  told : ∀ i, w'.told i = w.told i + (log.map (Happening.counted i)).sum
  timely : ∀ h ∈ log, h.Timely w.now w'.now

namespace Accounts

theorem trans (hfirst : Accounts w log v) (hsecond : Accounts v log' w') :
    Accounts w (log ++ log') w' where
  now := hfirst.now.trans hsecond.now
  audience i key := by
    obtain ⟨lapsed, hlapsed, hperm⟩ := hfirst.audience i key
    obtain ⟨lapsed', hlapsed', hperm'⟩ := hsecond.audience i key
    refine ⟨lapsed ++ lapsed', fun e he => ?_, ?_⟩
    · rcases List.mem_append.mp he with he | he
      · by_contra hlive
        have hbefore := Entry.isLive_anti hsecond.now (Bool.not_eq_false _ ▸ hlive)
        exact Bool.noConfusion ((hlapsed e he).symm.trans hbefore)
      · exact hlapsed' e he
    · rw [List.perm_iff_count] at hperm hperm' ⊢
      intro a
      have hcount := hperm a
      have hcount' := hperm' a
      simp only [List.flatMap_append, List.count_append] at hcount hcount' ⊢
      omega
  told i := by
    rw [hsecond.told i, hfirst.told i, List.map_append, List.sum_append, add_assoc]
  timely h hmem := by
    rcases List.mem_append.mp hmem with hmem | hmem
    · exact (hfirst.timely h hmem).mono (Nat.le_refl _) hsecond.now
    · exact (hsecond.timely h hmem).mono hfirst.now (Nat.le_refl _)

/-- The order of happenings makes no difference to what they account for. -/
theorem perm (haccounts : Accounts w log w') (hperm : log.Perm log') : Accounts w log' w' where
  now := haccounts.now
  audience i key := by
    obtain ⟨lapsed, hlapsed, hall⟩ := haccounts.audience i key
    have hentered := List.Perm.flatMap_right (Happening.entered i key) hperm
    have hended := List.Perm.flatMap_right (Happening.ended i key) hperm
    exact ⟨lapsed, hlapsed, ((hentered.symm.append_left _).trans hall).trans
      ((hended.append_right _).append_right _)⟩
  told i := by rw [haccounts.told i, (hperm.map _).sum_eq]
  timely h hmem := haccounts.timely h (hperm.mem_iff.mpr hmem)

end Accounts

/-- Nothing has happened to registrations. -/
theorem Untold.accounts (huntold : Untold w v) : Accounts w [] v where
  now := huntold.now.ge
  audience i key := ⟨[], nofun, by simp [huntold.audience]⟩
  told i := by
    rw [huntold.told]
    exact (add_zero _).symm
  timely := nofun

theorem Accounts.before_untold (haccounts : Accounts w log v) (huntold : Untold v w') :
    Accounts w log w' := by
  have hboth := haccounts.trans huntold.accounts
  rwa [List.append_nil] at hboth

/-- Only what concerns spaces matters. -/
theorem accounts_of_spaces (hspaces : w'.spaces = w.spaces) (hnow : w'.now = w.now) :
    Accounts w [] w' where
  now := hnow.ge
  audience i key := ⟨[], nofun, by simp [audience, hspaces, hnow]⟩
  told i := by
    rw [World.told, hspaces]
    exact (add_zero _).symm
  timely := nofun

/-- Time passes, and registrations lapse. -/
theorem accounts_later (w : World) {now : Nat} (hle : w.now ≤ now) :
    Accounts w [] { w with now } where
  now := hle
  audience i key := by
    have hlater : audience { w with now } i key = (w.audience i key).filter (·.isLive now) := by
      rw [audience, audience]
      cases w.spaces[i]? with
      | none => rfl
      | some s =>
          show s.audience now key = (s.audience w.now key).filter _
          rw [Space.audience, Space.audience]
          cases s.registry with
          | none => rfl
          | some r => exact Registry.audience_later hle r key
    refine ⟨(w.audience i key).filter fun e => !e.isLive now, fun e he => ?_, ?_⟩
    · simpa using (List.mem_filter.mp he).2
    · rw [hlater]
      simp only [List.flatMap_nil, List.append_nil, List.nil_append]
      exact ((List.filter_append_perm (·.isLive now) (w.audience i key)).symm.trans
        List.perm_append_comm)
  told i := (add_zero _).symm
  timely := nofun

/-! ## Happenings, one by one -/

/-- The registrations of one space have become others. -/
theorem Registers.accounts {registered : Store String Nat}
    (hregisters : Registers w i registered v)
    (hself : ∀ key, (w.audience i key ++ log.flatMap (Happening.entered i key)).Perm
      (log.flatMap (Happening.ended i key) ++ registered key))
    (hothers : ∀ j key, j ≠ i → log.flatMap (Happening.entered j key) = [] ∧
      log.flatMap (Happening.ended j key) = [])
    (hcounted : ∀ j, (log.map (Happening.counted j)).sum = 0)
    (htimely : ∀ h ∈ log, h.Timely w.now w.now) : Accounts w log v where
  now := hregisters.now.ge
  audience j key := by
    refine ⟨[], nofun, ?_⟩
    rw [hregisters.audience, List.append_nil]
    by_cases hj : j = i
    · subst hj
      rw [Function.update_self]
      exact hself key
    · obtain ⟨hentered, hended⟩ := hothers j key hj
      rw [Function.update_of_ne hj, hentered, hended, List.append_nil]
      exact .refl _
  told j := by rw [hregisters.told, hcounted j, add_zero]
  timely := by
    rw [hregisters.now]
    exact htimely

/-- The happenings of registering a listener. -/
def addLog (w : World) (i : Nat) (key : String) (listener timeout : Nat) : List Happening :=
  match (w.addListener i key listener timeout).2, Entry.withTimeout? listener timeout w.now with
  | .ok (), some e => if i < w.spaces.size then [.accepted i key e] else []
  | _, _ => []

theorem Intact.accounts_addListener (hintact : w.Intact) (i : Nat) (key : String)
    (listener timeout : Nat) :
    Accounts w (w.addLog i key listener timeout) (w.addListener i key listener timeout).1 := by
  obtain ⟨registered, henrols, hregisters⟩ := hintact.addListener_spec i key listener timeout
  rcases henrols with ⟨e, hlt, hok, hentry, rfl⟩ | ⟨hrefused, rfl⟩
  · have hlog : w.addLog i key listener timeout = [.accepted i key e] := by
      simp only [addLog, hok, hentry, hlt, if_true]
    rw [hlog]
    refine hregisters.accounts (fun k => ?_) (fun j k hj => ?_) (fun _ => rfl) fun h hmem => ?_
    · by_cases hk : k = key
      · subst hk
        simp [Happening.entered, Happening.ended]
      · simp [Happening.entered, Happening.ended, hk, Ne.symm hk]
    · simp [Happening.entered, Happening.ended, Ne.symm hj]
    · rw [List.mem_singleton.mp hmem]
      trivial
  · have hlog : w.addLog i key listener timeout = [] := by
      unfold addLog
      split
      · rename_i hok _
        rcases hrefused with hbeyond | hrefused
        · exact if_neg hbeyond.not_gt
        · exact absurd hok hrefused
      · rfl
    rw [hlog]
    exact (hregisters.accounts (fun k => by simp) (fun _ _ _ => ⟨rfl, rfl⟩) (fun _ => rfl) nofun)

/-- The happenings of removing a listener. -/
def removeLog (w : World) (i : Nat) (key : String) (listener : Nat) : List Happening :=
  ((w.audience i key).find? fun e => e.value == listener).toList.map (.removed w.now i key)

theorem isLive_of_mem_audience (hmem : e ∈ w.audience i key) : e.isLive w.now = true := by
  rw [audience] at hmem
  cases hspace : w.spaces[i]? with
  | none =>
      rw [hspace] at hmem
      cases hmem
  | some s =>
      rw [hspace, Option.elim_some, Space.audience] at hmem
      cases hregistry : s.registry with
      | none =>
          rw [hregistry] at hmem
          cases hmem
      | some r =>
          rw [hregistry] at hmem
          exact Registry.isLive_of_mem_audience hmem

theorem Intact.accounts_removeListener (hintact : w.Intact) (i : Nat) (key : String)
    (listener : Nat) :
    Accounts w (w.removeLog i key listener) (w.removeListener i key listener).1 := by
  obtain ⟨_, hregisters⟩ := hintact.removeListener_spec i key listener
  unfold removeLog
  cases hfound : (w.audience i key).find? fun e => e.value == listener with
  | none =>
      have hnobody := List.find?_eq_none.mp hfound
      rw [List.eraseP_of_forall_not hnobody, Function.update_eq_self] at hregisters
      exact hregisters.accounts (fun k => by simp) (fun _ _ _ => ⟨rfl, rfl⟩) (fun _ => rfl) nofun
  | some e =>
      obtain ⟨hvalue, before, after, hsplit, hbefore⟩ := List.find?_eq_some_iff_append.mp hfound
      have hleft : (w.audience i key).eraseP (fun e => e.value == listener) = before ++ after := by
        rw [hsplit, List.eraseP_append_right _ fun x hx => by simpa using hbefore x hx,
          List.eraseP_cons, hvalue]
        rfl
      rw [hleft] at hregisters
      refine hregisters.accounts (fun k => ?_) (fun j k hj => ?_) (fun _ => rfl) fun h hmem => ?_
      · by_cases hk : k = key
        · subst hk
          simp only [Option.toList_some, List.map_cons, List.map_nil, List.flatMap_cons,
            List.flatMap_nil, Happening.entered, Happening.ended, and_self, if_true,
            List.append_nil, Function.update_self, hsplit]
          exact List.perm_middle
        · simp [Happening.entered, Happening.ended, hk, Ne.symm hk]
      · simp [Happening.entered, Happening.ended, Ne.symm hj]
      · rw [List.mem_singleton.mp hmem]
        exact ⟨Nat.le_refl _, Nat.le_refl _,
          isLive_of_mem_audience (List.mem_of_find?_eq_some hfound)⟩

/-- The happenings of closing a space. -/
def closeLog (w : World) (i : Nat) : List Happening := [.dropped i (w.audience i)]

theorem Intact.accounts_closeUnsettled (hintact : w.Intact) (i : Nat) :
    Accounts w (w.closeLog i) (w.closeUnsettled i).1 := by
  refine (hintact.closeUnsettled_spec i).accounts (fun k => ?_) (fun j k hj => ?_) (fun _ => rfl)
    fun h hmem => ?_
  · simp [closeLog, Happening.entered, Happening.ended]
  · simp [closeLog, Happening.entered, Happening.ended, Ne.symm hj]
  · rw [List.mem_singleton.mp hmem]
    trivial

end World

end TupleSpace
