import TupleSpace.Proofs.EagerExpiry

/-!
# What an insertion gives to the calls that are blocked

An insertion into a space without expired entries in which no blocked call has anything to find.
The blocked calls are then let run again, in any order and any number of times.  Whatever they see
that was not there before is the new entry, so only the calls that want it can end; the first take
among them removes it, and then there is nothing to find for anybody as there was before.

`Delivering` says how far this has got, and every run of a blocked call preserves it.  Once nobody
has anything to find any more, `Delivered` says who has got what.
-/

namespace TupleSpace

variable {κ α : Type} [DecidableEq κ]

/-! ## Takes and reads -/

/-- Whether a take or a read accepts a value under a key. -/
def Retrieval.wants (q : Retrieval κ α) (key : κ) (value : α) : Bool :=
  decide (q.key = key) && q.accepts value

theorem Retrieval.wants_iff {q : Retrieval κ α} {key : κ} {value : α} :
    q.wants key value = true ↔ q.key = key ∧ q.accepts value = true := by
  simp [wants]

/-- The take or the read that a request is, if it is one. -/
def Request.retrieval? : Request κ α → Option (Retrieval κ α)
  | retrieve q => some q
  | _ => none

/-- The end of a take or a read. -/
structure Retrieved (κ α : Type) where
  ticket : Nat
  retrieval : Retrieval κ α
  outcome : Outcome α

namespace Retrieved

/-- The call that has ended. -/
def call (c : Retrieved κ α) : Nat × Retrieval κ α := (c.ticket, c.retrieval)

/-- The number of takes among some ends. -/
def takes (ended : List (Retrieved κ α)) : Nat :=
  ended.countP fun c => decide (c.retrieval.mode = .take)

end Retrieved

/-- The end of a take or a read, if it is what was seen. -/
def Event.retrieved? : Event κ α → Option (Retrieved κ α)
  | .ended _ ticket (.retrieve q) o => some ⟨ticket, q, o⟩
  | _ => none

/-- The entries that an insertion leaves beside its own. -/
def Placement.kept {β : Type} (xs : List β) : Placement → List β
  | .replace => []
  | _ => xs

namespace Placement

variable {β : Type} {x : β} {xs : List β} {p : β → Bool}

theorem kept_subset (xs : List β) (placement : Placement) : placement.kept xs ⊆ xs := by
  cases placement <;> simp [kept]

/-- Taking the only element that is accepted away again leaves the others. -/
theorem eraseP_place (hx : p x = true) (hxs : ∀ y ∈ xs, p y = false) (placement : Placement) :
    (placement.place x xs).eraseP p = placement.kept xs := by
  have hrejected : ∀ y ∈ xs, ¬ p y = true := fun y hy => by simp [hxs y hy]
  cases placement with
  | tail =>
      rw [place, List.eraseP_append_right _ hrejected, List.eraseP_cons_of_pos hx, List.append_nil]
      rfl
  | head => exact List.eraseP_cons_of_pos hx
  | replace => exact List.eraseP_cons_of_pos hx

end Placement

namespace Eager

variable {key : κ} {e : Entry α} {placement : Placement} {s s' : Eager κ α}
  {ended : List (Retrieved κ α)} {ticket place : Nat}

/-- The takes and reads that are blocked, in the order in which they were started. -/
def retrievals (s : Eager κ α) : List (Nat × Retrieval κ α) :=
  s.blocked.filterMap fun c => c.2.retrieval?.map fun q => (c.1, q)

/-- No take and no read that is blocked has anything to find, or has to give up. -/
structure Still (s : Eager κ α) : Prop where
  missed : ∀ c ∈ s.retrievals, ∀ x ∈ s.store c.2.key, c.2.accepts x.value = false
  patient : ∀ c ∈ s.retrievals,
    (c.2.patience.isOver s.now || Monitor.isCancelled s.cancelled (.retrieve c.2)) = false

/-! ## A call that runs again -/

/-- A blocked call that runs again ends, or keeps its place. -/
theorem step_rerun {q : Request κ α} (hsome : s.blocked[place]? = some (ticket, q)) :
    s.step (.rerun place) =
      match look s.now (Monitor.isCancelled s.cancelled q) s.store q with
      | (some o, store) =>
        ({ s with store, blocked := s.blocked.eraseIdx place }, some (.ended s.now ticket q o))
      | (none, store) => ({ s with store }, none) := by
  simp only [step, hsome, serve]
  split <;> rename_i heq <;> simp_all

omit [DecidableEq κ] in
/-- Only the end of a take or a read changes which of them are blocked. -/
theorem retrievals_erase {q : Request κ α} (hsome : s.blocked[place]? = some (ticket, q)) :
    ∃ earlier later, s.retrievals =
        earlier ++ (q.retrieval?.map fun q => (ticket, q)).toList ++ later ∧
      retrievals { s with blocked := s.blocked.eraseIdx place } = earlier ++ later := by
  obtain ⟨earlier, later, hblocked, hlength⟩ : ∃ earlier later,
      s.blocked = earlier ++ (ticket, q) :: later ∧ earlier.length = place := by
    obtain ⟨hlt, _⟩ := List.getElem?_eq_some_iff.mp hsome
    refine ⟨_, _, split_at_place hsome, ?_⟩
    rw [List.length_take, Nat.min_eq_left hlt.le]
  refine ⟨retrievals { s with blocked := earlier }, retrievals { s with blocked := later }, ?_, ?_⟩
  · simp only [retrievals, hblocked, List.filterMap_append, List.filterMap_cons]
    cases q <;> simp [Request.retrieval?]
  · have herased : s.blocked.eraseIdx place = earlier ++ later := by
      rw [hblocked, ← hlength, erase_at_place]
    simp only [retrievals, herased, List.filterMap_append]

/-! ## How far an insertion has got -/

/-- An entry has been inserted into a space, and blocked calls have run since. -/
structure Delivering (key : κ) (e : Entry α) (placement : Placement) (s : Eager κ α)
    (ended : List (Retrieved κ α)) (s' : Eager κ α) : Prop where
  now : s'.now = s.now
  cancelled : s'.cancelled = s.cancelled
  /-- The takes and reads that were blocked have ended or are still blocked. -/
  accounted : (ended.map Retrieved.call ++ s'.retrievals).Perm s.retrievals
  /-- Those that do not want the entry are still blocked. -/
  others : (s'.retrievals.filter fun c => !c.2.wants key e.value) =
    s.retrievals.filter fun c => !c.2.wants key e.value
  /-- Those that have ended wanted the entry and have got its value. -/
  returned : ∀ c ∈ ended,
    c.retrieval.wants key e.value = true ∧ c.outcome = .ok (.found (some e.value))
  /-- The entry is there until the first take has ended. -/
  contents :
    (Retrieved.takes ended = 0 ∧
        s'.store = Function.update s.store key (placement.place e (s.store key))) ∨
      (Retrieved.takes ended = 1 ∧
        s'.store = Function.update s.store key (placement.kept (s.store key)))

namespace Delivering

/-- An insertion by which nobody has run yet. -/
theorem start (key : κ) (e : Entry α) (placement : Placement) (s : Eager κ α) :
    Delivering key e placement s []
      { s with store := Function.update s.store key (placement.place e (s.store key)) } where
  now := rfl
  cancelled := rfl
  accounted := .refl _
  others := rfl
  returned := nofun
  contents := .inl ⟨rfl, rfl⟩

variable (hstill : s.Still) (hdelivering : Delivering key e placement s ended s')

include hdelivering in
theorem mem_retrievals {c : Nat × Retrieval κ α} (hmem : c ∈ s'.retrievals) :
    c ∈ s.retrievals :=
  hdelivering.accounted.subset (List.mem_append_right _ hmem)

include hdelivering in
/-- What changes neither the takes and reads that are blocked nor the contents makes no
difference. -/
theorem congr {s'' : Eager κ α} (hnow : s''.now = s'.now)
    (hcancelled : s''.cancelled = s'.cancelled)
    (hstore : s''.store = s'.store) (hretrievals : s''.retrievals = s'.retrievals) :
    Delivering key e placement s ended s'' where
  now := hnow.trans hdelivering.now
  cancelled := hcancelled.trans hdelivering.cancelled
  accounted := hretrievals ▸ hdelivering.accounted
  others := hretrievals ▸ hdelivering.others
  returned := hdelivering.returned
  contents := hstore ▸ hdelivering.contents

include hstill hdelivering in
/-- A take or a read that finds something finds the new entry. -/
theorem eq_of_found {c : Nat × Retrieval κ α} (hmem : c ∈ s'.retrievals) {x : Entry α}
    (hx : x ∈ s'.store c.2.key) (haccepted : c.2.accepts x.value = true) :
    c.2.key = key ∧ x = e ∧ Retrieved.takes ended = 0 ∧
      s'.store = Function.update s.store key (placement.place e (s.store key)) := by
  have hold : x ∉ s.store c.2.key := by
    intro hx
    rw [hstill.missed c (hdelivering.mem_retrievals hmem) x hx] at haccepted
    cases haccepted
  have hkey : c.2.key = key := by
    by_contra hne
    apply hold
    rcases hdelivering.contents with ⟨_, hstore⟩ | ⟨_, hstore⟩ <;>
      rwa [hstore, Function.update_of_ne hne] at hx
  rw [hkey] at hx hold
  rcases hdelivering.contents with ⟨hnone, hstore⟩ | ⟨_, hstore⟩
  · refine ⟨hkey, ?_, hnone, hstore⟩
    by_contra hne
    rw [hstore, Function.update_self, Placement.mem_place_of_ne hne] at hx
    exact hold hx.2
  · rw [hstore, Function.update_self] at hx
    exact absurd (Placement.kept_subset _ _ hx) hold

include hstill hdelivering in
/-- A take or a read that runs again and finds something has got the new entry; a take removes
it. -/
theorem found {q : Retrieval κ α} {x : Entry α}
    (hsome : s'.blocked[place]? = some (ticket, .retrieve q))
    (hfind : (s'.store q.key).find? (fun x => q.accepts x.value) = some x) :
    x = e ∧ Delivering key e placement s (ended ++ [⟨ticket, q, .ok (.found (some e.value))⟩])
      { s' with
        store := q.mode.leave s'.store q.key
          ((s'.store q.key).eraseP fun x => q.accepts x.value)
        blocked := s'.blocked.eraseIdx place } := by
  obtain ⟨earlier, later, hbefore, hafter⟩ := retrievals_erase hsome
  rw [Request.retrieval?, Option.map_some, Option.toList_some] at hbefore
  have hmem : (ticket, q) ∈ s'.retrievals := by simp [hbefore]
  have haccepted : q.accepts x.value = true := by simpa using List.find?_some hfind
  obtain ⟨hkey, rfl, hnone, hstore⟩ := eq_of_found hstill hdelivering hmem
    (List.mem_of_find?_eq_some hfind) haccepted
  refine ⟨rfl, ?_⟩
  replace hkey : q.key = key := hkey
  have hwants : q.wants key x.value = true := Retrieval.wants_iff.mpr ⟨hkey, haccepted⟩
  have hrejected : ∀ y ∈ s.store key, q.accepts y.value = false :=
    hkey ▸ hstill.missed (ticket, q) (hdelivering.mem_retrievals hmem)
  refine ⟨hdelivering.now, hdelivering.cancelled, ?_, ?_, ?_, ?_⟩
  · have haccounted := hdelivering.accounted
    rw [hbefore] at haccounted
    show ((ended ++ [_]).map Retrieved.call ++ retrievals { s' with blocked := _ }).Perm _
    rw [hafter, List.map_append]
    refine List.Perm.trans ?_ haccounted
    rw [List.append_assoc, List.append_assoc]
    have hmiddle : (earlier ++ (ticket, q) :: later).Perm ((ticket, q) :: (earlier ++ later)) :=
      List.perm_middle
    exact hmiddle.symm.append_left _
  · have hothers := hdelivering.others
    rw [hbefore] at hothers
    show (retrievals { s' with blocked := _ }).filter _ = _
    rw [hafter, ← hothers]
    simp [hwants]
  · intro c hc
    rcases List.mem_append.mp hc with hc | hc
    · exact hdelivering.returned c hc
    · rw [List.mem_singleton.mp hc]
      exact ⟨hwants, rfl⟩
  · have herased : (placement.place x (s.store key)).eraseP
        (fun y : Entry α => q.accepts y.value) = placement.kept (s.store key) :=
      Placement.eraseP_place (p := fun y : Entry α => q.accepts y.value) haccepted hrejected
        placement
    rw [Retrieved.takes] at hnone
    rw [Retrieved.takes, List.countP_append, hnone, hkey, hstore, Function.update_self, herased]
    cases hmode : q.mode with
    | take => exact .inr ⟨by simp [hmode], Function.update_idem ..⟩
    | read => exact .inl ⟨by simp [hmode], rfl⟩

include hdelivering in
/-- Nothing changes if another call than a take or a read runs again. -/
theorem rerun_other {q : Request κ α} (hsome : s'.blocked[place]? = some (ticket, q))
    (hkind : q.retrieval? = none)
    (hstore : (look s'.now (Monitor.isCancelled s'.cancelled q) s'.store q).2 = s'.store) :
    Delivering key e placement s
      (ended ++ (s'.step (.rerun place)).2.toList.filterMap Event.retrieved?)
      (s'.step (.rerun place)).1 := by
  obtain ⟨earlier, later, hbefore, hafter⟩ := retrievals_erase hsome
  have hsilent : ∀ o, Event.retrieved? (.ended s'.now ticket q o) = none := by
    intro o
    cases q with
    | retrieve => cases hkind
    | drain => rfl
    | presence => rfl
  rw [hkind, Option.map_none, Option.toList_none, List.append_nil] at hbefore
  rw [step_rerun hsome]
  split <;> rename_i heq <;> rw [heq] at hstore
  · simp only [Option.toList_some, List.filterMap_cons, hsilent, List.filterMap_nil,
      List.append_nil]
    exact hdelivering.congr rfl rfl hstore (hafter.trans hbefore.symm)
  · simp only [Option.toList_none, List.filterMap_nil, List.append_nil]
    exact hdelivering.congr rfl rfl hstore rfl

include hstill hdelivering in
/-- Every run of a blocked call preserves how far the insertion has got. -/
theorem rerun (place : Nat) :
    Delivering key e placement s
      (ended ++ (s'.step (.rerun place)).2.toList.filterMap Event.retrieved?)
      (s'.step (.rerun place)).1 := by
  cases hsome : s'.blocked[place]? with
  | none =>
      simp only [step, hsome]
      simpa using hdelivering
  | some c =>
      obtain ⟨ticket, request⟩ := c
      cases request with
      | drain k patience => exact hdelivering.rerun_other hsome rfl (look_store_drain k patience)
      | presence keys deadline =>
          exact hdelivering.rerun_other hsome rfl (look_store_presence keys deadline)
      | retrieve q =>
          rw [step_rerun hsome]
          cases hfind : (s'.store q.key).find? fun x => q.accepts x.value with
          | some x =>
              obtain ⟨rfl, hfound⟩ := found hstill hdelivering hsome hfind
              simp only [look, hfind]
              exact hfound
          | none =>
              obtain ⟨earlier, later, hbefore, _⟩ := retrievals_erase hsome
              have hmem : (ticket, q) ∈ s'.retrievals := by
                simp [hbefore, Request.retrieval?]
              have hpatient := hstill.patient _ (hdelivering.mem_retrievals hmem)
              rw [← hdelivering.now, ← hdelivering.cancelled] at hpatient
              simp only [look, hfind, hpatient]
              simpa using hdelivering

end Delivering

/-! ## Who has got what -/

/-- An entry has been inserted into a space, and nobody who is still blocked has anything to
find. -/
structure Delivered (key : κ) (e : Entry α) (placement : Placement) (s : Eager κ α)
    (ended : List (Retrieved κ α)) (s' : Eager κ α) : Prop where
  /-- The takes and reads that were blocked have ended or are still blocked. -/
  accounted : (ended.map Retrieved.call ++ s'.retrievals).Perm s.retrievals
  /-- Those under other keys, and those that reject the value, are still blocked. -/
  others : (s'.retrievals.filter fun c => !c.2.wants key e.value) =
    s.retrievals.filter fun c => !c.2.wants key e.value
  /-- Those that have ended accept the value under its key, and have got it. -/
  returned : ∀ c ∈ ended,
    c.retrieval.wants key e.value = true ∧ c.outcome = .ok (.found (some e.value))
  /-- At most one of them is a take. -/
  oneTake : Retrieved.takes ended ≤ 1
  /-- If a take wants the value, one has got it and the value is not stored. -/
  taken : (∃ c ∈ s.retrievals, c.2.wants key e.value = true ∧ c.2.mode = .take) →
    Retrieved.takes ended = 1 ∧
      s'.store = Function.update s.store key (placement.kept (s.store key)) ∧
      ∀ x ∈ s'.store key, x.value ≠ e.value
  /-- If only reads want the value, all of them have got it and the value is stored. -/
  stored : (∀ c ∈ s.retrievals, c.2.wants key e.value = true → c.2.mode = .read) →
    (ended.map Retrieved.call).Perm (s.retrievals.filter fun c => c.2.wants key e.value) ∧
      s'.store = Function.update s.store key (placement.place e (s.store key))

namespace Delivering

variable (hdelivering : Delivering key e placement s ended s')
  (hrest : ∀ c ∈ s'.retrievals, ∀ x ∈ s'.store c.2.key, c.2.accepts x.value = false)

include hdelivering in
/-- A take that has got the entry was blocked before. -/
theorem exists_take (htakes : Retrieved.takes ended ≠ 0) :
    ∃ c ∈ s.retrievals, c.2.wants key e.value = true ∧ c.2.mode = .take := by
  obtain ⟨c, hc, hmode⟩ := List.countP_pos_iff.mp (Nat.pos_of_ne_zero htakes)
  have hmem : c.call ∈ s.retrievals :=
    hdelivering.accounted.subset (List.mem_append_left _ (List.mem_map_of_mem hc))
  exact ⟨c.call, hmem, (hdelivering.returned c hc).1, of_decide_eq_true hmode⟩

include hrest in
/-- Nobody who is still blocked wants an entry that is still there. -/
theorem not_wants (hstored : e ∈ s'.store key) :
    ∀ c ∈ s'.retrievals, c.2.wants key e.value = false := by
  intro c hc
  by_contra hwants
  obtain ⟨hkey, haccepts⟩ := Retrieval.wants_iff.mp (Bool.not_eq_false _ ▸ hwants)
  rw [hrest c hc e (hkey ▸ hstored)] at haccepts
  cases haccepts

include hdelivering hrest in
theorem delivered (hstill : s.Still) : Delivered key e placement s ended s' where
  accounted := hdelivering.accounted
  others := hdelivering.others
  returned := hdelivering.returned
  oneTake := by
    rcases hdelivering.contents with ⟨htakes, _⟩ | ⟨htakes, _⟩ <;> omega
  taken := by
    rintro ⟨c, hc, hwants, hmode⟩
    obtain ⟨hkey, haccepts⟩ := Retrieval.wants_iff.mp hwants
    rcases hdelivering.contents with ⟨htakes, hstore⟩ | ⟨htakes, hstore⟩
    · exfalso
      have hstored : e ∈ s'.store key := by
        rw [hstore, Function.update_self]
        exact Placement.mem_place_self ..
      rcases List.mem_append.mp (hdelivering.accounted.symm.subset hc) with hended | hblocked
      · obtain ⟨r, hr, rfl⟩ := List.mem_map.mp hended
        exact List.countP_eq_zero.mp htakes r hr (decide_eq_true hmode)
      · rw [not_wants hrest hstored c hblocked] at hwants
        cases hwants
    · refine ⟨htakes, hstore, ?_⟩
      intro x hx hvalue
      rw [hstore, Function.update_self] at hx
      have hmissed := hstill.missed c hc x (hkey ▸ Placement.kept_subset _ _ hx)
      rw [hvalue, haccepts] at hmissed
      cases hmissed
  stored := by
    intro hreads
    rcases hdelivering.contents with ⟨_, hstore⟩ | ⟨htakes, _⟩
    · have hstored : e ∈ s'.store key := by
        rw [hstore, Function.update_self]
        exact Placement.mem_place_self ..
      refine ⟨?_, hstore⟩
      have hwanting := hdelivering.accounted.filter fun c => c.2.wants key e.value
      have hended : (ended.map Retrieved.call).filter (fun c => c.2.wants key e.value) =
          ended.map Retrieved.call := by
        rw [List.filter_eq_self]
        intro c hc
        obtain ⟨r, hr, rfl⟩ := List.mem_map.mp hc
        exact (hdelivering.returned r hr).1
      have hnobody : s'.retrievals.filter (fun c => c.2.wants key e.value) = [] := by
        rw [List.filter_eq_nil_iff]
        intro c hc
        rw [not_wants hrest hstored c hc]
        exact Bool.false_ne_true
      rwa [List.filter_append, hended, hnobody, List.append_nil] at hwanting
    · obtain ⟨c, hc, hwants, hmode⟩ := hdelivering.exists_take (by omega)
      rw [hreads c hc hwants] at hmode
      cases hmode

end Delivering

end Eager

end TupleSpace
