import Mathlib.Algebra.GroupWithZero.Nat
import Mathlib.Algebra.Order.BigOperators.Group.List
import Mathlib.Algebra.Order.Group.Nat
import TupleSpace.Proofs.Files

/-!
# Files on disks that fail

How the file at a path is replaced, step by step: the directories above it are made, the text goes
to a scratch file beside it, and the scratch file then takes its place, or is removed if it does
not get there.  A disk may fail at every one of these steps, and in the middle of some.  Whenever it
does, no file is different from what it was; and if it does not, the outcome is that of writing the
file at once.
-/

namespace TupleSpace.Files

/-! ## Replacing a file -/

/-- The steps in which a file is replaced. -/
inductive WriteStep where
  | /-- The directories above it are made. -/
    parents
  | /-- An empty scratch file is made. -/
    scratch
  | /-- The text is written to the scratch file. -/
    contents
  | /-- The scratch file is forced to the disk. -/
    sync
  | /-- The scratch file takes the place of the file. -/
    rename
deriving DecidableEq, Repr

/-- What can be different from one disk to another. -/
structure Disk where
  /-- Why a step fails, if it does. -/
  fault? : WriteStep → Option FileError
  /-- How many of the directories above a file are there if making them fails. -/
  made : Nat
  /-- What has got into a scratch file if writing to it fails. -/
  torn : String → String
  /-- The name of a scratch file in a directory. -/
  scratchName : Files → List String → String
  /-- No scratch file has the name of something that is there. -/
  fresh : ∀ (f : Files) (directory : List String),
    f.node? (directory ++ [scratchName f directory]) = none

/-- Takes away what stands at the parts of a path. -/
def erase (f : Files) (path : List String) : Files :=
  { nodes := f.nodes.filter fun x => x.1 != path }

namespace Disk

/-- Whether no step fails but those that cannot succeed on any disk. -/
def Faultless (disk : Disk) : Prop := ∀ step, disk.fault? step = none

/-- The directories above a path are made. -/
def makeParents (disk : Disk) (f : Files) (path : String) : Files × Except FileError Unit :=
  match disk.fault? .parents with
  | some e => ((((above (parts path)).take disk.made).foldlM makeOne f).toOption.getD f, .error e)
  | none =>
    match f.makeParts (parts path).dropLast with
    | .error e => (f, .error e)
    | .ok f => (f, .ok ())

/-- A text gets into a scratch file that is there. -/
def fill (disk : Disk) (f : Files) (scratch : List String) (text : String) :
    Files × Except FileError Unit :=
  match disk.fault? .contents with
  | some e => (f.set scratch (.file (disk.torn text)), .error e)
  | none =>
    match disk.fault? .sync with
    | some e => (f.set scratch (.file text), .error e)
    | none => (f.set scratch (.file text), .ok ())

/-- A scratch file takes the place of the file at a path. -/
def rename (disk : Disk) (f : Files) (scratch : List String) (path : String) :
    Except FileError Files :=
  match disk.fault? .rename with
  | some e => .error e
  | none =>
    match f.node? scratch with
    | some (.file text) => (f.erase scratch).write path text
    | _ => .error .notFound

/-- Puts a text at a path by way of a scratch file, which is removed if it does not get there. -/
def putInPlace (disk : Disk) (f : Files) (path text : String) : Files × Except FileError Unit :=
  match disk.fault? .scratch with
  | some e => (f, .error e)
  | none =>
    let directory := (parts path).dropLast
    let scratch := directory ++ [disk.scratchName f directory]
    match disk.fill (f.set scratch (.file "")) scratch text with
    | (f, .error e) => (f.erase scratch, .error e)
    | (f, .ok ()) =>
      match disk.rename f scratch path with
      | .error e => (f.erase scratch, .error e)
      | .ok f => (f, .ok ())

/-- Replaces the file at a path. -/
def replace (disk : Disk) (f : Files) (path text : String) : Files × Except FileError Unit :=
  match disk.makeParents f path with
  | (f, .error e) => (f, .error e)
  | (f, .ok ()) => disk.putInPlace f path text

end Disk

/-! ## Scratch files -/

variable {f f' : Files} {path : String} {text : String} {p : List String} {disk : Disk}

theorem erase_set (f : Files) (p : List String) (n : FileNode) :
    (f.set p n).erase p = f.erase p := by
  simp [erase, set, List.filter_append, List.filter_filter]

theorem node?_eq_none_iff (hp : p ≠ []) : f.node? p = none ↔ ∀ x ∈ f.nodes, x.1 ≠ p := by
  rw [node?, List.isEmpty_eq_false_iff.mpr hp, if_neg Bool.false_ne_true, Option.map_eq_none_iff,
    List.find?_eq_none]
  simp only [beq_iff_eq, ne_eq]

theorem erase_of_none (hp : p ≠ []) (hnone : f.node? p = none) : f.erase p = f := by
  have hall : f.nodes.filter (fun x => x.1 != p) = f.nodes :=
    List.filter_eq_self.mpr fun x hx => bne_iff_ne.mpr ((node?_eq_none_iff hp).mp hnone x hx)
  rw [erase, hall]

/-- Nothing is left of a scratch file once it is removed. -/
theorem erase_scratch (hp : p ≠ []) (hfresh : f.node? p = none) (n m : FileNode) :
    ((f.set p n).set p m).erase p = f := by
  rw [erase_set, erase_set, erase_of_none hp hfresh]

theorem Disk.not_faultless {step : WriteStep} {e : FileError} (hfault : disk.fault? step = some e) :
    ¬disk.Faultless :=
  fun hnone => absurd (hfault.symm.trans (hnone step)) nofun

theorem Disk.fill_spec (disk : Disk) (f : Files) (scratch : List String) (text : String) :
    (∃ n e, disk.fill f scratch text = (f.set scratch n, .error e) ∧ ¬disk.Faultless) ∨
      disk.fill f scratch text = (f.set scratch (.file text), .ok ()) := by
  unfold fill
  cases hcontents : disk.fault? .contents with
  | some e => exact .inl ⟨_, e, rfl, not_faultless hcontents⟩
  | none =>
      cases hsync : disk.fault? .sync with
      | some e => exact .inl ⟨_, e, rfl, not_faultless hsync⟩
      | none => exact .inr rfl

/-- A scratch file that takes the place of a file brings its text there. -/
theorem Disk.rename_spec (disk : Disk) {scratch : List String}
    (hscratch : f.node? scratch = some (.file text)) (path : String) :
    (∃ e, disk.rename f scratch path = .error e ∧ ¬disk.Faultless) ∨
      disk.rename f scratch path = (f.erase scratch).write path text := by
  unfold rename
  cases hrename : disk.fault? .rename with
  | some e => exact .inl ⟨e, rfl, not_faultless hrename⟩
  | none =>
      rw [hscratch]
      exact .inr rfl

/-! ## How replacing a file ends -/

/-- A tree of files in which somebody has tried in vain to write to a path. -/
structure Spares (path : String) (f g : Files) : Prop where
  grows : f.GrowsTo g
  same : g.node? (parts path) = f.node? (parts path)

theorem spares_withParents (f : Files) (path : String) : Spares path f (f.withParents path) :=
  ⟨(f.withParents_spec path).1, (f.withParents_spec path).2⟩

/-- Directories above a path are made, all of them or some. -/
theorem Disk.makeParents_spec (disk : Disk) (f : Files) (path : String) :
    (∃ g e, disk.makeParents f path = (g, .error e) ∧ Spares path f g ∧
        (disk.Faultless → g = f.withParents path ∧
          f.makeParts (parts path).dropLast = .error e)) ∨
      ∃ g, disk.makeParents f path = (g, .ok ()) ∧ Spares path f g ∧ g = f.withParents path ∧
        f.makeParts (parts path).dropLast = .ok g := by
  unfold makeParents
  cases hfault : disk.fault? .parents with
  | some e =>
      refine .inl ⟨_, e, rfl, ?_, fun hnone => absurd hnone (not_faultless hfault)⟩
      have hmember : ∀ p ∈ (above (parts path)).take disk.made, p ∈ above (parts path) :=
        fun p hp => List.mem_of_mem_take hp
      have hne : ∀ p ∈ (above (parts path)).take disk.made, p ≠ [] :=
        fun p hp => ne_nil_of_mem_above (hmember p hp)
      cases hmade : ((above (parts path)).take disk.made).foldlM makeOne f with
      | error e => exact ⟨.refl f, rfl⟩
      | ok g =>
          refine ⟨growsTo_makeAll hne hmade, ?_⟩
          exact (makeAll_spec hne hmade _).trans
            (if_neg fun hmem => not_mem_above_self _ (hmember _ hmem))
  | none =>
      have hspares := spares_withParents f path
      cases hmade : f.makeParts (parts path).dropLast with
      | error e =>
          have hsame : f = f.withParents path := by
            rw [withParents, hmade]
            rfl
          exact .inl ⟨f, e, rfl, ⟨.refl f, rfl⟩, fun _ => ⟨hsame, rfl⟩⟩
      | ok g =>
          have hsame : g = f.withParents path := by
            rw [withParents, hmade]
            rfl
          exact .inr ⟨g, rfl, hsame ▸ hspares, hsame, rfl⟩

/-- A text that does not get to its place leaves nothing behind. -/
theorem Disk.putInPlace_spec (disk : Disk) (f : Files) (path text : String) :
    (∃ e, disk.putInPlace f path text = (f, .error e) ∧
        (disk.Faultless → f.write path text = .error e)) ∨
      ∃ g, disk.putInPlace f path text = (g, .ok ()) ∧ f.write path text = .ok g := by
  unfold putInPlace
  cases hmade : disk.fault? .scratch with
  | some e => exact .inl ⟨e, rfl, fun hnone => absurd hnone (not_faultless hmade)⟩
  | none =>
      simp only []
      have hfresh := disk.fresh f (parts path).dropLast
      generalize (parts path).dropLast ++ [disk.scratchName f (parts path).dropLast] = scratch
        at hfresh ⊢
      have hne : scratch ≠ [] := by
        rintro rfl
        cases hfresh
      have herased := erase_scratch hne hfresh (.file "")
      rcases disk.fill_spec (f.set scratch (.file "")) scratch text with
        ⟨n, e, hfilled, hfault⟩ | hfilled
      · rw [hfilled]
        exact .inl ⟨e, congrArg (·, _) (herased n), fun hnone => absurd hnone hfault⟩
      · rw [hfilled]
        have hscratch : ((f.set scratch (.file "")).set scratch (.file text)).node? scratch =
            some (.file text) := (node?_set hne _ _ _).trans (if_pos rfl)
        rcases disk.rename_spec hscratch path with ⟨e, hrenamed, hfault⟩ | hrenamed
        · simp only [hrenamed, herased]
          exact .inl ⟨e, rfl, fun hnone => absurd hnone hfault⟩
        · rw [herased] at hrenamed
          simp only [hrenamed, herased]
          cases hwritten : f.write path text with
          | error e => exact .inl ⟨e, rfl, fun _ => rfl⟩
          | ok g => exact .inr ⟨g, rfl, rfl⟩

/-- However a disk fails, all that is left of an attempt to replace a file are directories above it;
and a file that has been replaced is as if it had been written at once. -/
theorem Disk.replace_spec (disk : Disk) (f : Files) (path text : String) :
    (∃ g e, disk.replace f path text = (g, .error e) ∧ Spares path f g ∧
        (disk.Faultless → g = f.withParents path ∧ f.writeDeep path text = .error e)) ∨
      ∃ g, disk.replace f path text = (g, .ok ()) ∧ f.writeDeep path text = .ok g := by
  unfold replace writeDeep
  rcases disk.makeParents_spec f path with
    ⟨g, e, hparents, hspares, hfaultless⟩ | ⟨g, hparents, hspares, hsame, hmade⟩
  · rw [hparents]
    refine .inl ⟨g, e, rfl, hspares, fun hnone => ?_⟩
    obtain ⟨hsame, hmade⟩ := hfaultless hnone
    rw [hmade]
    exact ⟨hsame, rfl⟩
  · rw [hparents, hmade]
    rcases disk.putInPlace_spec g path text with ⟨e, hput, hfaultless⟩ | ⟨h, hput, hwritten⟩
    · exact .inl ⟨g, e, hput, hspares, fun hnone => ⟨hsame, hfaultless hnone⟩⟩
    · exact .inr ⟨h, hput, hwritten⟩

/-! ## A disk without faults -/

/-- A name that is longer than every part of a path that leads anywhere. -/
def unusedName (f : Files) : String :=
  String.ofList (List.replicate (((f.nodes.flatMap Prod.fst).map String.length).sum + 1) '.')

theorem node?_unusedName (f : Files) (directory : List String) :
    f.node? (directory ++ [f.unusedName]) = none := by
  have hne : directory ++ [f.unusedName] ≠ [] := List.append_ne_nil_of_right_ne_nil _ (by simp)
  rw [node?_eq_none_iff hne]
  intro x hx hpath
  have hused : f.unusedName ∈ f.nodes.flatMap Prod.fst := by
    rw [List.mem_flatMap]
    refine ⟨x, hx, ?_⟩
    rw [hpath]
    exact List.mem_append_right _ (List.mem_singleton_self _)
  have hlength : f.unusedName.length = ((f.nodes.flatMap Prod.fst).map String.length).sum + 1 :=
    String.length_ofList.trans List.length_replicate
  have hle : f.unusedName.length ≤ ((f.nodes.flatMap Prod.fst).map String.length).sum :=
    List.single_le_sum (fun _ _ => Nat.zero_le _) _ (List.mem_map_of_mem hused)
  rw [hlength] at hle
  exact Nat.not_succ_le_self _ hle

/-- A disk that never fails. -/
def Disk.sound : Disk where
  fault? _ := none
  made := 0
  torn text := text
  scratchName f _ := f.unusedName
  fresh := node?_unusedName

theorem Disk.faultless_sound : Disk.sound.Faultless := fun _ => rfl

end TupleSpace.Files
