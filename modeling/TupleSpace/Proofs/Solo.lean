import TupleSpace.Proofs.Run.Blocked
import TupleSpace.World.Calls

/-!
# Worlds of one space

A world in which somebody has made one space, with neither listeners nor futures.  What the
operations of the world do then is what they do to the monitor of that space, whichever kind it
has.
-/

namespace TupleSpace

/-- The engines that a space can have. -/
class Housed (σ : Type) [Engine σ String Json] where
  /-- The monitor of such an engine, as one of the two kinds. -/
  house : Monitor σ String Json → Backing
  view_house : ∀ {β : Type}
    (f : {τ : Type} → [Engine τ String Json] → Monitor τ String Json → β)
    (m : Monitor σ String Json), (house m).view f = f m
  modify_house : ∀ {β : Type}
    (f : {τ : Type} → [Engine τ String Json] → Monitor τ String Json →
      Monitor τ String Json × β)
    (m : Monitor σ String Json), (house m).modify f = (house (f m).1, (f m).2)

instance : Housed (PerKey String Json) where
  house := .perKey
  view_house _ _ := rfl
  modify_house _ _ := rfl

instance : Housed (SingleLock String Json) where
  house := .singleLock
  view_house _ _ := rfl
  modify_house _ _ := rfl

namespace World

variable {σ : Type} [Engine σ String Json] [Housed σ] {w : World} {m : Monitor σ String Json}

/-- The world has one space, which has this monitor. -/
structure Hosts (w : World) (m : Monitor σ String Json) : Prop where
  spaces : w.spaces = #[{ backing := Housed.house m }]
  futures : w.futures = []

/-- The world with another monitor in its space. -/
def rehouse (w : World) (m : Monitor σ String Json) : World :=
  { w with spaces := #[{ backing := Housed.house m }], stamp := max w.stamp m.stamp }

theorem stampSpace_house (stamp : Nat) (m : Monitor σ String Json) :
    stampSpace stamp { backing := Housed.house m } =
      { backing := Housed.house (stampMonitor stamp m) } := by
  simp only [stampSpace, Housed.modify_house, Option.map_none]

theorem spaceStamp_house (m : Monitor σ String Json) :
    spaceStamp { backing := Housed.house m } = m.stamp := by
  simp only [spaceStamp, Housed.view_house, Option.map_none, Option.getD_none, Nat.max_zero]

/-- An operation on the one space. -/
theorem Hosts.onSpace_eq {β : Type} (hhosts : w.Hosts m) (missing : β)
    {f : Space → Space × β} {m' : Monitor σ String Json}
    (hf : (f { backing := Housed.house (stampMonitor w.stamp m) }).1 =
      { backing := Housed.house m' }) :
    w.onSpace 0 missing f =
      (w.rehouse m', (f { backing := Housed.house (stampMonitor w.stamp m) }).2) := by
  have hspace : w.spaces[0]? = some { backing := Housed.house m } := by
    rw [hhosts.spaces]
    rfl
  unfold onSpace
  rw [hspace]
  simp only [stampSpace_house, hf, spaceStamp_house, hhosts.spaces, List.setIfInBounds_toArray,
    List.set_cons_zero]
  rfl

/-- An operation on the monitor of the one space. -/
theorem Hosts.onMonitor_eq {β : Type} (hhosts : w.Hosts m) (missing : β)
    (f : {τ : Type} → [Engine τ String Json] → Monitor τ String Json →
      Monitor τ String Json × β) :
    w.onMonitor 0 missing f =
      (w.rehouse (f (stampMonitor w.stamp m)).1, (f (stampMonitor w.stamp m)).2) := by
  have hmodify := Housed.modify_house f (stampMonitor w.stamp m)
  have hbacking : ({ backing := ((Housed.house (stampMonitor w.stamp m)).modify f).1 } : Space) =
      { backing := Housed.house (f (stampMonitor w.stamp m)).1 } := by
    rw [hmodify]
  unfold onMonitor
  rw [hhosts.onSpace_eq missing hbacking]
  simp only [hmodify]

/-- Without listeners a value is stored and that is all. -/
theorem Hosts.insert_eq (hhosts : w.Hosts m) (key : String) (value : Json) (timeout : Nat)
    (placement : Placement) :
    w.insert 0 key value timeout placement =
      ((w.store 0 key value timeout placement).1.settle,
        (w.store 0 key value timeout placement).2) := by
  have hunwatched : w.isWatched 0 key = false := by
    rw [isWatched, hhosts.spaces]
    rfl
  unfold insert insertUnsettled storeTelling
  rw [hunwatched]
  generalize w.store 0 key value timeout placement = stored
  obtain ⟨w', result⟩ := stored
  cases result <;> rfl

/-- Without futures whoever asks gets the outcomes of calls. -/
theorem deliver_of_no_futures (hfutures : w.futures = []) (f : Finished Json) :
    w.deliver f = { w with ended := w.ended ++ [f] } := by
  simp only [deliver, future?, hfutures, List.find?_nil]

theorem foldl_deliver_of_no_futures (hfutures : w.futures = []) (fs : List (Finished Json)) :
    fs.foldl deliver w = { w with ended := w.ended ++ fs } := by
  induction fs generalizing w with
  | nil => rw [List.foldl_nil, List.append_nil]
  | cons f fs ih =>
      rw [List.foldl_cons, deliver_of_no_futures hfutures,
        ih (w := { w with ended := w.ended ++ [f] }) hfutures, List.append_assoc,
        List.singleton_append]

/-- The ready calls of the one space run. -/
theorem Hosts.settleSpace_eq (hhosts : w.Hosts m) :
    w.settleSpace 0 =
      { w.rehouse ((stampMonitor w.stamp m).settle w.now w.cancelled).1 with
        ended := w.ended ++ ((stampMonitor w.stamp m).settle w.now w.cancelled).2 } := by
  unfold settleSpace
  rw [hhosts.onMonitor_eq]
  exact foldl_deliver_of_no_futures (w := w.rehouse _) hhosts.futures _

theorem Hosts.settle_eq (hhosts : w.Hosts m) : w.settle = w.settleSpace 0 := by
  simp only [settle, hhosts.spaces, List.size_toArray, List.length_singleton, List.range_one,
    List.foldl_cons, List.foldl_nil]

/-- The alarms of the world are those of its one space. -/
theorem Hosts.nextAlarm?_eq (hhosts : w.Hosts m) :
    w.nextAlarm? = m.nextAlarm?.map fun a => (0, a) := by
  have hspace : ({ backing := Housed.house m } : Space).nextAlarm? = m.nextAlarm? := by
    simp only [Space.nextAlarm?, Housed.view_house, Option.bind_none]
    cases m.nextAlarm? <;> rfl
  simp only [nextAlarm?, hhosts.spaces, List.zipIdx_cons, List.zipIdx_nil, List.foldl_cons,
    List.foldl_nil, hspace]
  cases m.nextAlarm? <;> rfl

/-- The next alarm of the one space goes off. -/
theorem Hosts.ring_eq (hhosts : w.Hosts m) {a : Alarm} (halarm : m.nextAlarm? = some a) :
    w.ring 0 a =
      (({ w with now := max w.now a.instant } : World).rehouse
        ((stampMonitor w.stamp m).fire (max w.now a.instant) a.since)).settleSpace 0 := by
  have hhosts' : ({ w with now := max w.now a.instant } : World).Hosts m :=
    ⟨hhosts.spaces, hhosts.futures⟩
  have hfire : (fireSpace (max w.now a.instant) a
      { backing := Housed.house (stampMonitor w.stamp m) }) =
        { backing := Housed.house
            ((stampMonitor w.stamp m).fire (max w.now a.instant) a.since) } := by
    have hsame : (stampMonitor w.stamp m).nextAlarm? = some a := halarm
    simp only [fireSpace, Housed.view_house, hsame, if_true, Housed.modify_house]
  unfold ring
  simp only []
  rw [hhosts'.onSpace_eq () (f := fun s => (fireSpace (max w.now a.instant) a s, ())) hfire]

theorem Hosts.alarmBound_view (hhosts : w.Hosts m) (span : Nat) :
    w.alarmBound span = (Housed.house m).view (fun m => monitorAlarms span m) + 1 := by
  unfold alarmBound
  rw [hhosts.spaces]
  simp only [List.map_cons, List.map_nil, List.foldr_cons, List.foldr_nil, Option.map_none,
    Option.getD_none, Nat.add_zero]

/-- The alarms that the world allows for are those that its one monitor allows for. -/
theorem Hosts.alarmBound_eq (hhosts : w.Hosts m) (span : Nat) :
    w.alarmBound span = monitorAlarms span m + 1 := by
  have hview : (Housed.house m).view (fun m => monitorAlarms span m) = monitorAlarms span m :=
    Housed.view_house _ _
  exact (hhosts.alarmBound_view span).trans (congrArg (· + 1) hview)

end World

end TupleSpace
