import TupleSpace.Proofs.NonBlocking
import TupleSpace.Proofs.Text.Lines
import TupleSpace.Proofs.Worlds.Deeds

/-!
# What a listing says

The text of a listing can be read line by line, whatever characters the keys and the values hold.
It says how many keys there are, shows as many of them as its settings allow in the order of their
quoted texts, and says how many it leaves out.  Beside a key stands what somebody who reads under it
without waiting would be given at the same instant, although a reader drops the expired entries on
the way and a listing looks past them.
-/

namespace TupleSpace

open Text

/-- Whoever looks past the expired entries sees the first live one. -/
theorem KeyQueue.peek?_eq_find? {α : Type} (q : KeyQueue α) (now : Nat) :
    q.peek? now = ((q.live now).find? fun _ => true).map Entry.value := by
  obtain ⟨entries⟩ := q
  unfold peek? live
  induction entries with
  | nil => rfl
  | cons e rest ih =>
      rw [List.findSome?_cons, List.filter_cons, Entry.isLive, Entry.get?]
      cases e.isExpired now with
      | true => exact ih
      | false => rfl

/-! ## Listings of engines -/

namespace Listing

section Engines

variable {σ α : Type} [Engine σ String α] (describe : α → String) (now : Nat) (s : σ)

/-- The row of a key. -/
def rowOf (key : String) : ListingRow where
  key := quote key
  size := Engine.size s key
  head := (KeyQueue.peek? ⟨Engine.stored s key⟩ now).map describe

/-- The keys in the order of their quoted texts. -/
def inOrder (keys : List String) : List String :=
  keys.mergeSort fun a b => decide (quote a ≤ quote b)

theorem inOrder_perm (keys : List String) : (inOrder keys).Perm keys := List.mergeSort_perm ..

theorem inOrder_sorted (keys : List String) :
    (inOrder keys).Pairwise fun a b => quote a ≤ quote b := by
  let le (a b : String) : Bool := decide (quote a ≤ quote b)
  have htrans (a b c : String) (hab : le a b = true) (hbc : le b c = true) : le a c = true :=
    decide_eq_true (String.le_trans (of_decide_eq_true hab) (of_decide_eq_true hbc))
  have htotal (a b : String) : (le a b || le b a) = true := by
    rcases String.le_total (quote a) (quote b) with hab | hba
    · rw [show le a b = true from decide_eq_true hab, Bool.true_or]
    · rw [show le b a = true from decide_eq_true hba, Bool.or_true]
  exact (List.pairwise_mergeSort htrans htotal keys).imp of_decide_eq_true

/-- Sorting the rows is sorting the keys. -/
theorem sortedRows_ofEngine :
    (ofEngine describe now s).sortedRows =
      (inOrder (Engine.keys s)).map (rowOf describe now s) :=
  (List.map_mergeSort (f := rowOf describe now s) fun _ _ _ _ => rfl).symm

theorem plainLines_ofEngine :
    (ofEngine describe now s).plainLines =
      ("space " ++ Engine.name s ++ " (" ++ toString (Engine.keys s).length ++ " keys)" ++
          if Engine.isClosed s then " closed" else "") ::
        ((inOrder (Engine.keys s)).take (Engine.config s).dumpLimit).map
          (fun key => rowText (rowOf describe now s key)) ++
        ((if (Engine.config s).dumpLimit < (Engine.keys s).length then
          ["  ... " ++ toString ((Engine.keys s).length - (Engine.config s).dumpLimit) ++ " more"]
          else []) ++
          ["  gc short=" ++ toString (Engine.pending s .short) ++ " long=" ++
              toString (Engine.pending s .long),
            "  metrics " ++ (Engine.metrics s).text]) := by
  have hcount : (ofEngine describe now s).rows.length = (Engine.keys s).length :=
    List.length_map _
  unfold plainLines
  rw [sortedRows_ofEngine, ← List.map_take, List.map_map, hcount, List.append_assoc]
  rfl

end Engines

theorem isLine_rowText (key : String) (size : Nat) {head : Option String}
    (hhead : ∀ text ∈ head, IsLine text) : IsLine (rowText ⟨quote key, size, head⟩) := by
  have hplain : IsLine ("  " ++ quote key ++ " size=" ++ toString size) := by
    rw [isLine_append, isLine_append, isLine_append]
    exact ⟨⟨⟨by decide, isLine_quote key⟩, by decide⟩, isLine_toString size⟩
  unfold rowText
  cases head with
  | none => exact isLine_append.mpr ⟨hplain, show IsLine "" by decide⟩
  | some text =>
      exact isLine_append.mpr ⟨hplain, isLine_append.mpr ⟨by decide, hhead text rfl⟩⟩

/-- Nothing in a listing breaks a line, unless the name of the space does. -/
theorem isLine_plainLines {σ α : Type} [Engine σ String α] {describe : α → String}
    (hdescribe : ∀ v, IsLine (describe v)) (now : Nat) {s : σ} (hname : IsLine (Engine.name s)) :
    ∀ line ∈ (ofEngine describe now s).plainLines, IsLine line := by
  intro line hline
  rw [plainLines_ofEngine] at hline
  simp only [List.mem_append, List.mem_cons, List.not_mem_nil, or_false] at hline
  obtain (rfl | hrow) | hmore | rfl | rfl := hline
  · have hstatus : IsLine (if Engine.isClosed s then " closed" else "") := by
      split <;> decide
    simp only [isLine_append, isLine_toString, hstatus, and_true]
    exact ⟨⟨⟨by decide, hname⟩, by decide⟩, by decide⟩
  · obtain ⟨key, _, rfl⟩ := List.mem_map.mp hrow
    refine isLine_rowText key _ fun text htext => ?_
    obtain ⟨v, _, rfl⟩ := Option.map_eq_some_iff.mp htext
    exact hdescribe v
  · split at hmore
    · rw [List.mem_singleton] at hmore
      rw [hmore, isLine_append, isLine_append]
      exact ⟨⟨by decide, isLine_toString _⟩, by decide⟩
    · cases hmore
  · simp only [isLine_append, isLine_toString, and_true]
    exact ⟨by decide, by decide⟩
  · exact isLine_append.mpr ⟨by decide, Metrics.isLine_text _⟩

end Listing

/-! ## Listings of spaces -/

/-- What somebody is given who reads under a key of an open space without waiting is what a listing
shows of the key. -/
theorem Scene.Open.probe_eq_peek? {σ κ α : Type} [DecidableEq κ] [Engine σ κ α]
    [Bookkeeping σ κ α] [LawfulEngine σ κ α] [SweepBooks σ κ α] [PromptEngine σ κ α]
    {s : Scene σ κ α} (hopen : s.Open) (hneat : SweepBooks.Neat s.monitor.engine) (key : κ) :
    (s.monitor.probe s.now .read key fun _ => true).2 =
      .ok (KeyQueue.peek? ⟨Engine.stored s.monitor.engine key⟩ s.now) := by
  rw [(hopen.promptlyAgrees hneat).probe 0 key (fun _ => true) .read, KeyQueue.peek?_eq_find?]
  rfl

namespace Backing

/-- What somebody is told who reads under a key without waiting. -/
def glance (b : Backing) (now : Nat) (key : String) : Except SpaceError (Option Json) :=
  (b.modify fun m => m.probe now .read key fun _ => true).2

variable {b : Backing} {name : String} {now : Nat} {cancelled : List Nat}

theorem Intact.glance_open (hintact : b.Intact name now cancelled false)
    (hopen : b.isClosed = false) (key : String) :
    b.glance now key =
      .ok (b.viewEngine fun e => KeyQueue.peek? ⟨Engine.stored e key⟩ now) := by
  cases b with
  | perKey m =>
      replace hintact : (Scene.mk now cancelled m false).Intact name := hintact
      exact (hintact.orderly.open_of_isClosed hopen).probe_eq_peek? hintact.neat key
  | singleLock m =>
      replace hintact : (Scene.mk now cancelled m false).Intact name := hintact
      exact (hintact.orderly.open_of_isClosed hopen).probe_eq_peek? hintact.neat key

/-- There is no key in a space that has been closed. -/
theorem Intact.keys_closed (hintact : b.Intact name now cancelled false)
    (hclosed : b.isClosed = true) : b.viewEngine Engine.keys = [] := by
  cases b with
  | perKey m =>
      replace hintact : (Scene.mk now cancelled m false).Intact name := hintact
      exact (hintact.gone hclosed rfl).keys
  | singleLock m =>
      replace hintact : (Scene.mk now cancelled m false).Intact name := hintact
      exact (hintact.gone hclosed rfl).keys

end Backing

namespace Space

variable {s : Space} {name indent : String} {now : Nat} {cancelled : List Nat}

/-- The first line of a listing. -/
def headline (s : Space) : String :=
  "space " ++ s.name ++ " (" ++ toString s.keys.length ++ " keys)" ++
    if s.isClosed then " closed" else ""

/-- The line of a key, by the answers that readers are given. -/
def keyLine (s : Space) (answer : String → Except SpaceError (Option Json)) (key : String) :
    String :=
  "  " ++ quote key ++ " size=" ++ toString (s.size key) ++
    match answer key with
    | .ok (some v) => " head=" ++ v.describe
    | _ => ""

/-- The lines behind those of the keys: how many keys have been left out, and two more. -/
def footer (s : Space) : List String :=
  (if s.config.dumpLimit < s.keys.length then
    ["  ... " ++ toString (s.keys.length - s.config.dumpLimit) ++ " more"] else []) ++
    ["  gc short=" ++ toString (s.pending .short) ++ " long=" ++ toString (s.pending .long),
      "  metrics " ++ s.metrics.text]

/-- A text lists a space in which readers are given some answers: its lines, and the keys in the
order in which all of them would be listed. -/
structure ListedAs (s : Space) (answer : String → Except SpaceError (Option Json))
    (indent text : String) (keys lines : List String) : Prop where
  complete : keys.Perm s.keys
  sorted : keys.Pairwise fun a b => quote a ≤ quote b
  /-- Between the first line and the last ones stand the first keys. -/
  shown : lines = (s.headline :: (keys.take s.config.dumpLimit).map (s.keyLine answer) ++
    s.footer).map (indent ++ ·)
  length : lines.length = 3 + min s.config.dumpLimit s.keys.length +
    if s.config.dumpLimit < s.keys.length then 1 else 0
  indented : ∀ line ∈ lines, indent.toList <+: line.toList
  /-- The text consists of these lines, each with a line break behind it. -/
  written : (text.split '\n').toList.map String.Slice.copy = lines ++ [""]

/-- What is shown of a key is what readers are given. -/
theorem Intact.keyLine_eq (hintact : s.Intact name now cancelled false) {key : String}
    (hkey : key ∈ s.keys) :
    s.keyLine (s.backing.glance now) key = s.backing.viewEngine fun e =>
      Listing.rowText (Listing.rowOf Json.describe now e key) := by
  have hopen : s.backing.isClosed = false := by
    by_contra hclosed
    have hnone := hintact.backing.keys_closed (Bool.not_eq_false _ ▸ hclosed)
    rw [keys, hnone] at hkey
    cases hkey
  rw [keyLine, hintact.backing.glance_open hopen]
  obtain ⟨b, registry, storage⟩ := s
  cases b with
  | perKey m =>
      simp only [Backing.viewEngine, Backing.view, Listing.rowText, Listing.rowOf]
      cases KeyQueue.peek? ⟨Engine.stored m.engine key⟩ now <;> rfl
  | singleLock m =>
      simp only [Backing.viewEngine, Backing.view, Listing.rowText, Listing.rowOf]
      cases KeyQueue.peek? ⟨Engine.stored m.engine key⟩ now <;> rfl

theorem Intact.plainLines_eq (hintact : s.Intact name now cancelled false) :
    (s.backing.viewEngine fun e => (Listing.ofEngine Json.describe now e).plainLines) =
      s.headline :: ((Listing.inOrder s.keys).take s.config.dumpLimit).map
        (s.keyLine (s.backing.glance now)) ++ s.footer := by
  have hrows : ((Listing.inOrder s.keys).take s.config.dumpLimit).map
      (s.keyLine (s.backing.glance now)) =
        ((Listing.inOrder s.keys).take s.config.dumpLimit).map fun key =>
          s.backing.viewEngine fun e =>
            Listing.rowText (Listing.rowOf Json.describe now e key) :=
    List.map_congr_left fun key hkey =>
      hintact.keyLine_eq ((Listing.inOrder_perm s.keys).subset (List.mem_of_mem_take hkey))
  rw [hrows]
  obtain ⟨b, registry, storage⟩ := s
  cases b with
  | perKey m => exact Listing.plainLines_ofEngine Json.describe now m.engine
  | singleLock m => exact Listing.plainLines_ofEngine Json.describe now m.engine

theorem isLine_plainLines (hname : IsLine s.name) (now : Nat) :
    ∀ line ∈ s.backing.viewEngine fun e => (Listing.ofEngine Json.describe now e).plainLines,
      IsLine line := by
  obtain ⟨b, registry, storage⟩ := s
  cases b with
  | perKey m => exact Listing.isLine_plainLines Json.isLine_describe now hname
  | singleLock m => exact Listing.isLine_plainLines Json.isLine_describe now hname

/-- What a space without a file lists of itself.  Its registrations come behind that, if there are
any. -/
theorem dump_eq (hstorage : s.storage = none) (now : Nat) (indent : String) :
    ∃ more, s.dump now indent = String.join (((s.backing.viewEngine fun e =>
        (Listing.ofEngine Json.describe now e).plainLines).map (indent ++ ·)).map (· ++ "\n")) ++
          more ∧
      (s.registry = none → more = "") := by
  obtain ⟨b, registry, storage⟩ := s
  cases hstorage
  refine ⟨String.join ((registry.toList.flatMap fun r =>
    (r.listing now).lines (indent ++ "  ")).map (· ++ "\n")), ?_, ?_⟩
  · rw [← String.join_append, ← List.map_append]
    cases b <;> rfl
  · rintro rfl
    rfl

/-- The listing of a space. -/
theorem Intact.listed (hintact : s.Intact name now cancelled false) (hstorage : s.storage = none)
    (hname : IsLine s.name) (hindent : IsLine indent) :
    ∃ own more keys lines, s.dump now indent = own ++ more ∧ (s.registry = none → more = "") ∧
      s.ListedAs (s.backing.glance now) indent own keys lines := by
  have hperm : (Listing.inOrder s.keys).Perm s.keys := Listing.inOrder_perm s.keys
  have hbreaks := s.isLine_plainLines hname now
  obtain ⟨more, hdump, hmore⟩ := dump_eq hstorage now indent
  rw [hintact.plainLines_eq] at hbreaks hdump
  refine ⟨_, more, _, _, hdump, hmore, hperm, Listing.inOrder_sorted s.keys, rfl, ?_, ?_, ?_⟩
  · simp only [List.length_map, List.length_append, List.length_cons, List.length_take,
      hperm.length_eq, footer, List.length_nil]
    split <;> simp only [List.length_cons, List.length_nil] <;> omega
  · rintro _ hline
    obtain ⟨line, _, rfl⟩ := List.mem_map.mp hline
    exact ⟨line.toList, (String.toList_append ..).symm⟩
  · refine split_lines fun _ hline => ?_
    obtain ⟨line, hmem, rfl⟩ := List.mem_map.mp hline
    exact isLine_append.mpr ⟨hindent, hbreaks line hmem⟩

/-- The listing of a space on which no listener was ever registered. -/
theorem Intact.listed_alone (hintact : s.Intact name now cancelled false)
    (hstorage : s.storage = none) (hregistry : s.registry = none) (hname : IsLine s.name)
    (hindent : IsLine indent) :
    ∃ keys lines, s.ListedAs (s.backing.glance now) indent (s.dump now indent) keys lines := by
  obtain ⟨own, more, keys, lines, hdump, hmore, hlisted⟩ := hintact.listed hstorage hname hindent
  rw [hmore hregistry, String.append_empty] at hdump
  exact ⟨keys, lines, hdump ▸ hlisted⟩

end Space

/-! ## What a listing says of every space -/

namespace World

/-- What readers are given in a world is what readers of the space are given. -/
theorem probe_result {w : World} {i : Nat} {s : Space} (hspace : w.spaces[i]? = some s)
    (key : String) : (w.probe i .read key fun _ => true).2 = s.backing.glance w.now key := by
  have hunsettled : (w.probe i .read key fun _ => true).2 =
      (w.probeUnsettled i .read key fun _ => true).2 := rfl
  rw [hunsettled, probeUnsettled, onMonitor, onSpace_result _ _ hspace]
  obtain ⟨b, registry, storage⟩ := s
  cases b <;> rfl

end World

/-- A space lists itself truly in every state that a history of a world leads to, and in every state
in between, except while it is being closed.  Unless listeners have been registered there is nothing
else in the listing.  A listing is a function of the state, so it leaves everything as it is. -/
theorem dump_tells_truth :
    (∀ {w : World} {i : Nat} {s : Space} {indent : String}, w.Reached → w.spaces[i]? = some s →
      s.storage = none → IsLine s.name → IsLine indent →
      ∃ own more keys lines, s.dump w.now indent = own ++ more ∧ (s.registry = none → more = "") ∧
        s.ListedAs (fun key => (w.probe i .read key fun _ => true).2) indent own keys lines) ∧
    (∀ {name : String} {config : SpaceConfig} {now stamp : Nat} {cancelled : List Nat}
      {acts : List (Action String Json)} {indent : String}, IsLine name → IsLine indent →
      let perKey : Scene (PerKey String Json) String Json :=
        (PerKey.scene name config now stamp cancelled).run acts
      let singleLock : Scene (SingleLock String Json) String Json :=
        (SingleLock.scene name config now stamp cancelled).run acts
      let ofPerKey : Space := { backing := .perKey perKey.monitor }
      let ofSingleLock : Space := { backing := .singleLock singleLock.monitor }
      (perKey.closing = false → ∃ keys lines, ofPerKey.ListedAs
        (fun key => (perKey.monitor.probe perKey.now .read key fun _ => true).2) indent
        (ofPerKey.dump perKey.now indent) keys lines) ∧
      (singleLock.closing = false → ∃ keys lines, ofSingleLock.ListedAs
        (fun key => (singleLock.monitor.probe singleLock.now .read key fun _ => true).2) indent
        (ofSingleLock.dump singleLock.now indent) keys lines)) ∧
    (∀ key, IsLine (quote key)) ∧ ∀ v : Json, IsLine v.describe := by
  refine ⟨?_, ?_, isLine_quote, Json.isLine_describe⟩
  · intro w i s indent hreached hspace hstorage hname hindent
    obtain ⟨name, hholds⟩ := hreached.rests.holds hspace
    rw [show (fun key => (w.probe i .read key fun _ => true).2) = s.backing.glance w.now from
      funext (World.probe_result hspace)]
    exact hholds.intact.listed hstorage hname hindent
  · intro name config now stamp cancelled acts indent hname hindent perKey singleLock ofPerKey
      ofSingleLock
    have hperKey := (PerKey.intact_scene name config now stamp cancelled).run acts
    have hsingleLock := (SingleLock.intact_scene name config now stamp cancelled).run acts
    refine ⟨fun hsettled => ?_, fun hsettled => ?_⟩
    · have hintact : ofPerKey.Intact name perKey.now perKey.cancelled false :=
        ⟨hsettled ▸ hperKey, nofun, fun _ _ => nofun⟩
      exact hintact.listed_alone rfl rfl (hintact.name_eq.symm ▸ hname) hindent
    · have hintact : ofSingleLock.Intact name singleLock.now singleLock.cancelled false :=
        ⟨hsettled ▸ hsingleLock, nofun, fun _ _ => nofun⟩
      exact hintact.listed_alone rfl rfl (hintact.name_eq.symm ▸ hname) hindent

set_option maxRecDepth 100000 in
/-- A space that shows one key holds two, and in the key that comes first there is a line break, as
there is in the older of its two entries, which has expired.  The listing has five lines, and a
space of the other kind lists itself with as many. -/
theorem dump_tells_truth_across_line_breaks :
    let deeds : List World.Deed :=
      [.openPerKey "a" { dumpLimit := 1 }, .insert 0 "key" .null 0 .tail,
        .insert 0 "break\n" (.string "\n") 5 .tail, .insert 0 "break\n" (.bool true) 0 .tail,
        .advance 10]
    let w := World.afterAll { epoch := ⟨0, 0, 0⟩ } deeds
    let scene := (SingleLock.scene "b" { dumpLimit := 1 } 0 0 []).run
      [.insert "break\n" (.string "\n") 0 .tail, .insert "key" .null 0 .tail]
    let other : Space := { backing := .singleLock scene.monitor }
    (∃ s keys lines, w.spaces[0]? = some s ∧ s.size "break\n" = 2 ∧
      s.ListedAs (fun key => (w.probe 0 .read key fun _ => true).2) "> " (s.dump w.now "> ") keys
        lines ∧ lines.length = 5) ∧
    ∃ keys lines, other.ListedAs
      (fun key => (scene.monitor.probe scene.now .read key fun _ => true).2) ""
      (other.dump scene.now "") keys lines ∧ lines.length = 5 := by
  intro deeds w scene other
  obtain ⟨hworlds, hscenes, -, -⟩ := dump_tells_truth
  have hreached : w.Reached := ⟨⟨0, 0, 0⟩, {}, none, deeds, nofun, rfl⟩
  have hfacts : w.spaces[0]?.map (fun s => (s.registry.isNone, s.storage.isNone, s.name,
      s.size "break\n", s.config.dumpLimit, s.keys.length)) = some (true, true, "a", 2, 1, 2) := by
    decide +kernel
  obtain ⟨s, hspace, hs⟩ := Option.map_eq_some_iff.mp hfacts
  obtain ⟨hregistry, hstorage, hname, hsize, hlimit, hkeys⟩ := by
    simpa only [Prod.ext_iff] using hs
  have hindent : IsLine "> " := by decide
  have hline : IsLine s.name := hname ▸ (by decide : IsLine "a")
  obtain ⟨own, more, keys, lines, hdump, hmore, hlisted⟩ :=
    hworlds hreached hspace (Option.isNone_iff_eq_none.mp hstorage) hline hindent
  rw [hmore (Option.isNone_iff_eq_none.mp hregistry), String.append_empty] at hdump
  obtain ⟨keys', lines', hlisted'⟩ := (@hscenes "b" { dumpLimit := 1 } 0 0 []
    [.insert "break\n" (.string "\n") 0 .tail, .insert "key" .null 0 .tail] "" (by decide)
    (by decide)).2 rfl
  refine ⟨⟨s, keys, lines, hspace, hsize, hdump ▸ hlisted, ?_⟩, keys', lines', hlisted', ?_⟩
  · rw [hlisted.length, hlimit, hkeys]
    rfl
  · rw [hlisted'.length]
    decide +kernel

end TupleSpace
