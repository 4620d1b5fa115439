import TupleSpace.Proofs.Listeners.Accounts

/-!
# The chronicle of registrations

The happenings of a deed, in their order.  Most deeds have none.  An insertion that is told has one
for each listener that was registered, followed by those of what the listener does in turn; so the
chronicle of an insertion recurs as telling does, and the registrations that have been taken and
wait for their turn are carried along as if they had just been accepted.
-/

namespace TupleSpace

namespace World

variable {w v v' : World} {i depth : Nat} {key : String} {value : Json} {e : Entry Nat}
  {n n' : Nat × Nat}

/-! ## Time stands still while listeners are told -/

theorem Intact.now_addListener (hintact : w.Intact) (i : Nat) (key : String)
    (listener timeout : Nat) : (w.addListener i key listener timeout).1.now = w.now := by
  obtain ⟨_, _, hregisters⟩ := hintact.addListener_spec i key listener timeout
  exact hregisters.now

theorem now_storeTelling {tell : World → Nat → String → Json → World}
    (htell : ∀ u i key value, u.Intact → (tell u i key value).now = u.now) (hintact : w.Intact)
    (i : Nat) (key : String) (value : Json) (timeout : Nat) (placement : Placement) :
    (w.storeTelling tell i key value timeout placement).1.now = w.now := by
  have hstored := (works_store (c := none) w i key value timeout placement).toLeads.intact hintact
  have hnow := (untold_store w i key value timeout placement).now
  rw [storeTelling_eq]
  split
  · exact (htell _ i key value hstored).trans hnow
  · exact hnow

theorem now_tellOne {tell : World → Nat → String → Json → World}
    (htell : ∀ u i key value, u.Intact → (tell u i key value).now = u.now) (hintact : w.Intact)
    (i : Nat) (key : String) (value : Json) (listener : Nat) :
    (tellOne tell i key value w listener).now = w.now := by
  rw [tellOne_eq]
  cases w.listeners[listener]? with
  | none => exact now_onSpace ..
  | some l =>
      have hcalled := hintact.called i key value l
      have hnow : (w.called i key value l).now = w.now := now_onSpace ..
      simp only []
      generalize w.called i key value l = u at hcalled hnow ⊢
      unfold react
      cases l.reaction with
      | note => exact hnow
      | panic => exact (now_onSpace ..).trans hnow
      | close => exact (hcalled.closeUnsettled_spec l.home).now.trans hnow
      | again => exact (hcalled.now_addListener l.home key listener 0).trans hnow
      | take => exact (untold_probeUnsettled u l.home .take key _).now.trans hnow
      | out k v => exact (now_storeTelling htell hcalled l.home k v 0 .tail).trans hnow

theorem Intact.now_tell (hintact : w.Intact) (depth i : Nat) (key : String) (value : Json) :
    (tell depth w i key value).now = w.now := by
  induction depth generalizing w i key value with
  | zero => rfl
  | succ depth ih =>
      have heach : ∀ (ids : List Nat) (u : World), u.Intact →
          (ids.foldl (World.tellOne (tell depth) i key value) u).now = u.now := by
        intro ids
        induction ids with
        | nil => exact fun _ _ => rfl
        | cons listener ids hrest =>
            intro u hu
            exact (hrest _ (hu.tellOne depth i key value listener)).trans
              (now_tellOne (fun u i key value hu => ih hu i key value) hu i key value listener)
      have hdrained := (works_drainListeners (c := none) w i key).toLeads.intact hintact
      exact (heach _ _ hdrained).trans (hintact.drainListeners_spec i key).2.now

/-! ## The happenings of an insertion -/

/-- Whether a listener panics when it is told of an insertion. -/
def panics (w : World) (listener : Nat) : Bool :=
  w.listeners[listener]?.any fun l => l.reaction matches .panic

/-- The happenings of an insertion. -/
def storeLog (tellLog : World → Nat → String → Json → List Happening) (w : World) (i : Nat)
    (key : String) (value : Json) (timeout : Nat) (placement : Placement) : List Happening :=
  if (w.store i key value timeout placement).2.isOk && w.isWatched i key then
    tellLog (w.store i key value timeout placement).1 i key value
  else []

/-- The happenings of what a listener does once it has noted that it was told. -/
def reactLog (tellLog : World → Nat → String → Json → List Happening) (key : String)
    (listener : Nat) (l : Listener) (w : World) : List Happening :=
  match l.reaction with
  | .close => w.closeLog l.home
  | .again => w.addLog l.home key listener 0
  | .out k v => w.storeLog tellLog l.home k v 0 .tail
  | .note | .panic | .take => []

/-- The happenings of telling one listener. -/
def tellOneLog (tellLog : World → Nat → String → Json → List Happening) (i : Nat) (key : String)
    (value : Json) (w : World) (e : Entry Nat) : List Happening :=
  .told w.now i key e value (w.panics e.value) ::
    w.listeners[e.value]?.elim [] fun l => (w.called i key value l).reactLog tellLog key e.value l

/-- The happenings of telling one listener after another. -/
def tellEachLog (tell : World → Nat → String → Json → World)
    (tellLog : World → Nat → String → Json → List Happening) (i : Nat) (key : String)
    (value : Json) : List (Entry Nat) → World → List Happening
  | [], _ => []
  | e :: es, w =>
    w.tellOneLog tellLog i key value e ++
      tellEachLog tell tellLog i key value es (tellOne tell i key value w e.value)

/-- The happenings of telling the listeners registered under a key. -/
def tellLog : Nat → World → Nat → String → Json → List Happening
  | 0, _, _, _, _ => []
  | depth + 1, w, i, key, value =>
    tellEachLog (tell depth) (tellLog depth) i key value (w.audience i key)
      (w.drainListeners i key).1

/-- The happenings of an insertion by a caller. -/
def insertLog (w : World) (i : Nat) (key : String) (value : Json) (timeout : Nat)
    (placement : Placement) : List Happening :=
  w.storeLog (tellLog (w.registrations + 1)) i key value timeout placement

/-! ### They account for everything -/

theorem Counts.trans (hfirst : Counts w i n v) (hsecond : Counts v i n' v') :
    Counts w i (n + n') v' where
  now := hsecond.now.trans hfirst.now
  audience := hsecond.audience.trans hfirst.audience
  told := by rw [hsecond.told, hfirst.told, Function.update_self, Function.update_idem, add_assoc]
  listeners := hsecond.listeners.trans hfirst.listeners

/-- A listener that has been taken from the registrations is told. -/
theorem Counts.accounts (panicked : Bool)
    (hcounts : Counts w i (1, if panicked then 1 else 0) v) (hlive : e.isLive w.now = true) :
    Accounts w [.accepted i key e, .told w.now i key e value panicked] v where
  now := hcounts.now.ge
  audience j k := by
    refine ⟨[], nofun, ?_⟩
    rw [hcounts.audience]
    simp only [List.flatMap_cons, List.flatMap_nil, Happening.entered, Happening.ended,
      List.append_nil, List.nil_append]
    exact List.perm_append_comm
  told j := by
    rw [hcounts.told]
    by_cases hj : j = i
    · subst hj
      simp [Happening.counted]
    · simp [Happening.counted, hj, Ne.symm hj]
  timely h hmem := by
    rcases List.mem_cons.mp hmem with rfl | hmem
    · trivial
    · rw [List.mem_singleton.mp hmem, hcounts.now]
      exact ⟨Nat.le_refl _, Nat.le_refl _, hlive⟩

theorem accounts_storeTelling {tell : World → Nat → String → Json → World}
    {tellLog : World → Nat → String → Json → List Happening}
    (htell : ∀ u i key value, u.Intact → Accounts u (tellLog u i key value) (tell u i key value))
    (hintact : w.Intact) (i : Nat) (key : String) (value : Json) (timeout : Nat)
    (placement : Placement) :
    Accounts w (w.storeLog tellLog i key value timeout placement)
      (w.storeTelling tell i key value timeout placement).1 := by
  have hstored := (works_store (c := none) w i key value timeout placement).toLeads.intact hintact
  have huntold := (untold_store w i key value timeout placement).accounts
  rw [storeTelling_eq, storeLog]
  split
  · exact huntold.trans (htell _ i key value hstored)
  · exact huntold

/-- What a listener does when it is told is accounted for. -/
theorem accounts_react {tell : World → Nat → String → Json → World}
    {tellLog : World → Nat → String → Json → List Happening}
    (htell : ∀ u i key value, u.Intact → Accounts u (tellLog u i key value) (tell u i key value))
    (hintact : w.Intact) (i : Nat) (key : String) (listener : Nat) {l : Listener}
    (hcalm : l.reaction ≠ .panic) :
    Accounts w (w.reactLog tellLog key listener l) (w.react tell i key listener l) := by
  unfold react reactLog
  cases hreaction : l.reaction with
  | note => exact (Untold.refl w).accounts
  | panic => exact absurd hreaction hcalm
  | close => exact hintact.accounts_closeUnsettled l.home
  | again => exact hintact.accounts_addListener l.home key listener 0
  | take =>
      have hprobed := untold_probeUnsettled w l.home .take key fun _ => true
      have hnoted : ∀ (u : World) (n : Note), Untold u (u.note n) :=
        fun _ _ => .of_spaces rfl rfl rfl
      exact (hprobed.trans (hnoted _ _)).accounts
  | out k v => exact accounts_storeTelling htell hintact l.home k v 0 .tail

/-- Telling one listener, whose registration has been taken. -/
theorem accounts_tellOne {tell : World → Nat → String → Json → World}
    {tellLog : World → Nat → String → Json → List Happening}
    (htell : ∀ u i key value, u.Intact → Accounts u (tellLog u i key value) (tell u i key value))
    (hintact : w.Intact) (hlt : i < w.spaces.size) (hlive : e.isLive w.now = true) (key : String)
    (value : Json) :
    Accounts w (.accepted i key e :: w.tellOneLog tellLog i key value e)
      (tellOne tell i key value w e.value) := by
  have hfired := counts_countEvent hlt .listenerFired
  rw [tellOne_eq, tellOneLog, panics]
  cases hlistener : w.listeners[e.value]? with
  | none => exact Counts.accounts false hfired hlive
  | some l =>
      have hcalled : Counts w i (1, 0) (w.called i key value l) :=
        ⟨hfired.now, hfired.audience, hfired.told, hfired.listeners⟩
      have hsize : i < (w.called i key value l).spaces.size := by
        have hsame : (w.called i key value l).spaces.size = w.spaces.size := size_onSpace w i _ _
        rwa [hsame]
      have hcalled' := hintact.called i key value l
      simp only [Option.any_some, Option.elim_some]
      by_cases hpanic : l.reaction = .panic
      · have hcounts := hcalled.trans (counts_countEvent hsize .listenerPanic)
        have hlog : (w.called i key value l).reactLog tellLog key e.value l = [] := by
          simp only [reactLog, hpanic]
        have hreact : (w.called i key value l).react tell i key e.value l =
            (w.called i key value l).countEvent i .listenerPanic := by simp only [react, hpanic]
        rw [hlog, hreact, hpanic]
        exact Counts.accounts true hcounts hlive
      · have hquiet : (l.reaction matches .panic) = false := by
          cases hreaction : l.reaction with
          | panic => exact absurd hreaction hpanic
          | _ => rfl
        rw [hquiet]
        exact (Counts.accounts false hcalled hlive).trans
          (accounts_react htell hcalled' i key e.value hpanic)

theorem lt_of_mem_audience (hmem : e ∈ w.audience i key) : i < w.spaces.size := by
  by_contra hge
  rw [audience_of_none (Array.getElem?_eq_none (Nat.le_of_not_lt hge))] at hmem
  cases hmem

/-- Telling one listener after another, whose registrations have been taken. -/
theorem accounts_tellEach
    (htell : ∀ u i key value, u.Intact →
      Accounts u (tellLog depth u i key value) (tell depth u i key value))
    (key : String) (value : Json) (es : List (Entry Nat)) (hintact : w.Intact)
    (hes : ∀ e ∈ es, i < w.spaces.size ∧ e.isLive w.now = true) :
    Accounts w
      (es.map (.accepted i key) ++ tellEachLog (tell depth) (tellLog depth) i key value es w)
      ((es.map Entry.value).foldl (tellOne (tell depth) i key value) w) := by
  induction es generalizing w with
  | nil => exact (Untold.refl w).accounts
  | cons e es ih =>
      obtain ⟨hlt, hlive⟩ := hes e List.mem_cons_self
      have hfirst := accounts_tellOne htell hintact hlt hlive key value
      have hnow := now_tellOne (fun u i key value hu => hu.now_tell depth i key value) hintact i key
        value e.value
      have hsize := (works_tellOne (works_tell depth) i key value w e.value).size
      have hrest := ih (hintact.tellOne depth i key value e.value) fun x hx => by
        obtain ⟨hlt, hlive⟩ := hes x (List.mem_cons_of_mem e hx)
        exact ⟨hlt.trans_le hsize, hnow ▸ hlive⟩
      refine (hfirst.trans hrest).perm ?_
      rw [List.map_cons, List.cons_append, List.cons_append, tellEachLog]
      exact (List.perm_append_comm_assoc _ _ _).cons _

/-- Registrations that have been taken may as well have been accepted afterwards. -/
theorem Accounts.taken {log : List Happening}
    (hregisters : Registers w i (Function.update (w.audience i) key []) v)
    (haccounts : Accounts v ((w.audience i key).map (.accepted i key) ++ log) v') :
    Accounts w log v' where
  now := hregisters.now ▸ haccounts.now
  audience j k := by
    obtain ⟨lapsed, hlapsed, hperm⟩ := haccounts.audience j k
    have hentered : v.audience j k ++
        ((w.audience i key).map (.accepted i key)).flatMap (Happening.entered j k) =
          w.audience j k := by
      rw [hregisters.audience, List.flatMap_map]
      by_cases hj : j = i
      · subst hj
        rw [Function.update_self]
        by_cases hk : k = key
        · subst hk
          simp [Happening.entered]
        · simp [Happening.entered, hk, Ne.symm hk]
      · simp [Happening.entered, hj, Ne.symm hj]
    have hended :
        ((w.audience i key).map (.accepted i key)).flatMap (Happening.ended j k) = [] := by
      rw [List.flatMap_map]
      exact List.flatMap_eq_nil_iff.mpr fun _ _ => rfl
    rw [List.flatMap_append, ← List.append_assoc, hentered, List.flatMap_append, hended] at hperm
    exact ⟨lapsed, hlapsed, hperm⟩
  told j := by
    have hcounted :
        (((w.audience i key).map (.accepted i key)).map (Happening.counted j)).sum = 0 :=
      List.sum_eq_zero fun c hc => by
        rw [List.map_map] at hc
        obtain ⟨_, _, rfl⟩ := List.mem_map.mp hc
        rfl
    rw [haccounts.told, hregisters.told, List.map_append, List.sum_append, hcounted, zero_add]
  timely h hmem := hregisters.now ▸ haccounts.timely h (List.mem_append_right _ hmem)

/-- Taking the listeners under a key ends their registrations, and being told is what happens to
them. -/
theorem Intact.accounts_tell (hintact : w.Intact) (depth i : Nat) (key : String) (value : Json) :
    Accounts w (tellLog depth w i key value) (tell depth w i key value) := by
  induction depth generalizing w i key value with
  | zero => exact (Untold.refl w).accounts
  | succ depth ih =>
      obtain ⟨hids, hregisters⟩ := hintact.drainListeners_spec i key
      have hdrains := works_drainListeners (c := none) w i key
      have htold : tell (depth + 1) w i key value =
          ((w.audience i key).map Entry.value).foldl (World.tellOne (tell depth) i key value)
            (w.drainListeners i key).1 := by
        rw [← hids]
        rfl
      have heach := accounts_tellEach (i := i) (fun u i key value hu => ih hu i key value) key value
        (w.audience i key) (hdrains.toLeads.intact hintact) fun e he =>
          ⟨(lt_of_mem_audience he).trans_le hdrains.size,
            hregisters.now ▸ isLive_of_mem_audience he⟩
      rw [htold, tellLog]
      exact heach.taken hregisters

theorem Intact.accounts_insertUnsettled (hintact : w.Intact) (i : Nat) (key : String)
    (value : Json) (timeout : Nat) (placement : Placement) :
    Accounts w (w.insertLog i key value timeout placement)
      (w.insertUnsettled i key value timeout placement).1 :=
  accounts_storeTelling (fun _ i key value hu => hu.accounts_tell _ i key value) hintact i key value
    timeout placement

end World

end TupleSpace
