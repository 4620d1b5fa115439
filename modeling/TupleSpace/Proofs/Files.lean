import TupleSpace.Files

/-!
# Files that are written and read

What is written to a path is read back from it.  A file can be written over, because whatever keeps
a file from being written also keeps it from being read.
-/

namespace TupleSpace.Files

variable {f f' : Files} {path : String} {text : String}

/-! ## Nodes -/

theorem node?_nil (f : Files) : f.node? [] = some .directory := rfl

theorem node?_set {at_ : List String} (hne : at_ ≠ []) (f : Files) (n : FileNode)
    (p : List String) : (f.set at_ n).node? p = if p = at_ then some n else f.node? p := by
  have hothers : ((f.nodes.filter fun x => x.1 != at_) ++ [(at_, n)]).find? (fun x => x.1 == p) =
      if p = at_ then some (at_, n) else f.nodes.find? fun x => x.1 == p := by
    rw [List.find?_append, List.find?_filter]
    by_cases hp : p = at_
    · subst hp
      have hnone : f.nodes.find? (fun x => decide ((x.1 != p) = true ∧ (x.1 == p) = true)) =
          none := by
        rw [List.find?_eq_none]
        intro x _
        simp
      rw [hnone]
      simp
    · have hsame : (fun x : List String × FileNode =>
            decide ((x.1 != at_) = true ∧ (x.1 == p) = true)) = fun x => x.1 == p := by
        funext x
        by_cases hx : x.1 = p <;> simp [hx, hp]
      rw [hsame, if_neg hp]
      simp [Ne.symm hp]
  unfold node? set
  by_cases hempty : p.isEmpty = true
  · have hp : p ≠ at_ := by
      rintro rfl
      exact hne (List.isEmpty_iff.mp hempty)
    rw [if_pos hempty, if_pos hempty, if_neg hp]
  · rw [if_neg hempty, if_neg hempty, hothers]
    split <;> rfl

/-! ## Directories above a path -/

theorem mem_above {p q : List String} : q ∈ above p ↔ ∃ n, 0 < n ∧ n < p.length ∧ q = p.take n := by
  unfold above
  rw [List.mem_map]
  constructor
  · rintro ⟨n, hn, rfl⟩
    rw [List.mem_range] at hn
    exact ⟨n + 1, by omega, by omega, rfl⟩
  · rintro ⟨n, hpos, hlt, rfl⟩
    refine ⟨n - 1, by rw [List.mem_range]; omega, ?_⟩
    rw [Nat.sub_add_cancel hpos]

theorem not_mem_above_self (p : List String) : p ∉ above p := by
  rw [mem_above]
  rintro ⟨n, _, hlt, heq⟩
  have hlength := congrArg List.length heq
  rw [List.length_take] at hlength
  omega

theorem ne_nil_of_mem_above {p q : List String} (hq : q ∈ above p) : q ≠ [] := by
  obtain ⟨n, hpos, hlt, rfl⟩ := mem_above.mp hq
  intro hnil
  have hlength := congrArg List.length hnil
  rw [List.length_take, List.length_nil] at hlength
  omega

/-- The directories that are made for a file are those above it. -/
theorem above_dropLast (p : List String) :
    (above p.dropLast ++ if p.dropLast.isEmpty then [] else [p.dropLast]) = above p := by
  unfold above
  rw [List.length_dropLast]
  by_cases hempty : p.dropLast.isEmpty = true
  · rw [if_pos hempty]
    have hlength := congrArg List.length (List.isEmpty_iff.mp hempty)
    rw [List.length_dropLast, List.length_nil] at hlength
    rw [hlength]
    rfl
  · rw [if_neg hempty]
    have hne : p.dropLast ≠ [] := fun hnil => hempty (List.isEmpty_iff.mpr hnil)
    have hpos := List.length_pos_iff.mpr hne
    rw [List.length_dropLast] at hpos
    obtain ⟨n, hn⟩ : ∃ n, p.length - 1 = n + 1 := ⟨p.length - 2, by omega⟩
    rw [hn, List.range_succ, List.map_append]
    congr 1
    · apply List.map_congr_left
      intro k hk
      rw [Nat.add_sub_cancel, List.mem_range] at hk
      rw [List.dropLast_eq_take, List.take_take, Nat.min_eq_left (by omega)]
    · rw [List.map_singleton, List.dropLast_eq_take, hn]

/-- Makes one directory, unless it is there. -/
def makeOne (f : Files) (p : List String) : Except FileError Files :=
  match f.node? p with
  | some .directory => .ok f
  | some (.file _) => .error .notADirectory
  | none => .ok (f.set p .directory)

/-- Writing a file makes the directories above it one by one. -/
theorem makeParts_dropLast (f : Files) (p : List String) :
    f.makeParts p.dropLast = (above p).foldlM makeOne f := by
  unfold makeParts
  rw [above_dropLast]
  rfl

/-- Making directories leaves directories at all their places, and changes nothing anywhere else. -/
theorem makeAll_spec {paths : List (List String)} (hne : ∀ p ∈ paths, p ≠ [])
    (hmade : paths.foldlM makeOne f = .ok f') :
    ∀ p, f'.node? p = if p ∈ paths then some .directory else f.node? p := by
  induction paths generalizing f with
  | nil =>
      cases hmade
      intro p
      rfl
  | cons q paths ih =>
      obtain ⟨hq, hothers⟩ := List.forall_mem_cons.mp hne
      rw [List.foldlM_cons] at hmade
      have hfirst : ∃ g : Files, (∀ p, g.node? p = if p = q then some .directory else f.node? p) ∧
          paths.foldlM makeOne g = .ok f' := by
        rw [makeOne] at hmade
        cases hnode : f.node? q with
        | none =>
            rw [hnode] at hmade
            exact ⟨f.set q .directory, node?_set hq f .directory, hmade⟩
        | some node =>
            rw [hnode] at hmade
            cases node with
            | directory =>
                refine ⟨f, fun p => ?_, hmade⟩
                split
                · rename_i hp
                  rw [hp, hnode]
                · rfl
            | file => cases hmade
      obtain ⟨g, hg, hrest⟩ := hfirst
      intro p
      rw [ih hothers hrest p, hg p]
      by_cases hp : p = q
      · simp [hp]
      · simp [hp]

/-- Directories can be made wherever no file is in the way. -/
theorem makeAll_ok {paths : List (List String)} (hne : ∀ p ∈ paths, p ≠ [])
    (hclear : ∀ p ∈ paths, ∀ text, f.node? p ≠ some (.file text)) :
    ∃ f', paths.foldlM makeOne f = .ok f' := by
  induction paths generalizing f with
  | nil => exact ⟨f, rfl⟩
  | cons q paths ih =>
      obtain ⟨hq, hothers⟩ := List.forall_mem_cons.mp hne
      obtain ⟨hclearq, hclears⟩ := List.forall_mem_cons.mp hclear
      rw [List.foldlM_cons, makeOne]
      cases hnode : f.node? q with
      | none =>
          apply ih hothers
          intro p hp text
          rw [node?_set hq]
          split
          · nofun
          · exact hclears p hp text
      | some node =>
          cases node with
          | directory => exact ih hothers hclears
          | file text => exact absurd hnode (hclearq text)

theorem blocked_eq_false_iff {p : List String} :
    f.blocked p = false ↔ ∀ q ∈ above p, ∀ text, f.node? q ≠ some (.file text) := by
  unfold blocked
  rw [List.any_eq_false]
  constructor
  · intro hclear q hq text hfile
    apply hclear q hq
    rw [hfile]
  · intro hclear q hq
    split
    · rename_i text hfile
      exact absurd hfile (hclear q hq text)
    · exact Bool.false_ne_true

/-! ## More directories -/

/-- A tree of files has become another one by getting more directories. -/
def GrowsTo (f g : Files) : Prop :=
  ∀ p, g.node? p = f.node? p ∨ f.node? p = none ∧ g.node? p = some .directory

theorem GrowsTo.refl (f : Files) : f.GrowsTo f := fun _ => .inl rfl

theorem GrowsTo.file_iff (hgrows : f.GrowsTo f') (p : List String) (text : String) :
    f'.node? p = some (.file text) ↔ f.node? p = some (.file text) := by
  rcases hgrows p with hsame | ⟨hnone, hmade⟩
  · rw [hsame]
  · rw [hnone, hmade]
    exact ⟨nofun, nofun⟩

theorem GrowsTo.blocked_eq (hgrows : f.GrowsTo f') (p : List String) :
    f'.blocked p = f.blocked p := by
  have hiff : f'.blocked p = false ↔ f.blocked p = false := by
    simp only [blocked_eq_false_iff, ne_eq, hgrows.file_iff]
  cases hblocked : f.blocked p with
  | false => exact hiff.mpr hblocked
  | true =>
      cases hclear : f'.blocked p with
      | false =>
          rw [hiff.mp hclear] at hblocked
          cases hblocked
      | true => rfl

/-- More directories change nothing at a path at which none of them has come. -/
theorem GrowsTo.lookup_eq (hgrows : f.GrowsTo f')
    (hsame : f'.node? (parts path) = f.node? (parts path)) : f'.lookup path = f.lookup path := by
  simp only [lookup, hgrows.blocked_eq, hsame]

/-- More directories change no file. -/
theorem GrowsTo.lookup_file_iff (hgrows : f.GrowsTo f') (path text : String) :
    f'.lookup path = .ok (.file text) ↔ f.lookup path = .ok (.file text) := by
  rcases hgrows (parts path) with hsame | ⟨hnone, hmade⟩
  · rw [hgrows.lookup_eq hsame]
  · simp only [lookup, hgrows.blocked_eq, hnone, hmade]
    split
    · rfl
    · split <;> exact ⟨nofun, nofun⟩

theorem growsTo_makeAll {paths : List (List String)} (hne : ∀ p ∈ paths, p ≠ [])
    (hmade : paths.foldlM makeOne f = .ok f') : f.GrowsTo f' := by
  induction paths generalizing f with
  | nil =>
      cases hmade
      exact .refl _
  | cons q paths ih =>
      obtain ⟨hq, hothers⟩ := List.forall_mem_cons.mp hne
      rw [List.foldlM_cons, makeOne] at hmade
      cases hnode : f.node? q with
      | none =>
          rw [hnode] at hmade
          have hrest := ih hothers hmade
          intro p
          have hp := hrest p
          rw [node?_set hq] at hp
          split at hp
          · rename_i heq
            right
            rw [heq]
            exact ⟨hnode, heq ▸ hp.elim id And.right⟩
          · exact hp
      | some node =>
          rw [hnode] at hmade
          cases node with
          | directory => exact ih hothers hmade
          | file => cases hmade

/-- Making the directories above a path, as far as possible, changes nothing at the path itself. -/
theorem withParents_spec (f : Files) (path : String) :
    f.GrowsTo (f.withParents path) ∧
      (f.withParents path).node? (parts path) = f.node? (parts path) := by
  unfold withParents
  rw [makeParts_dropLast]
  cases hmade : (above (parts path)).foldlM makeOne f with
  | error e => exact ⟨.refl f, rfl⟩
  | ok g =>
      have hne : ∀ p ∈ above (parts path), p ≠ [] := fun p hp => ne_nil_of_mem_above hp
      refine ⟨growsTo_makeAll hne hmade, ?_⟩
      exact (makeAll_spec hne hmade _).trans (if_neg (not_mem_above_self _))

/-! ## Writing -/

/-- A path that can lead to a file has an end. -/
theorem parts_ne_nil (hfile : wantsDirectory path = false) : parts path ≠ [] := by
  unfold wantsDirectory at hfile
  unfold parts
  generalize pieces path = pieces at *
  cases hlast : pieces.getLast? with
  | none => simp [hlast] at hfile
  | some last =>
      rw [hlast] at hfile
      simp only [Bool.or_eq_false_iff] at hfile
      obtain ⟨others, rfl⟩ := List.getLast?_eq_some_iff.mp hlast
      rw [List.foldl_append, List.foldl_cons, List.foldl_nil, addPart]
      simp [hfile.1.1, hfile.1.2, hfile.2]

/-- What has been written to a path is read back from it. -/
theorem read_of_writeDeep (hwritten : f.writeDeep path text = .ok f') :
    f'.lookup path = .ok (.file text) := by
  rw [writeDeep, makeParts_dropLast] at hwritten
  cases hmade : (above (parts path)).foldlM makeOne f with
  | error e =>
      rw [hmade] at hwritten
      cases hwritten
  | ok g =>
      rw [hmade] at hwritten
      replace hwritten : g.write path text = .ok f' := hwritten
      have hnodes := makeAll_spec (fun p hp => ne_nil_of_mem_above hp) hmade
      unfold write at hwritten
      split at hwritten
      · cases hwritten
      rename_i hpath
      split at hwritten
      · cases hwritten
      rename_i hfile
      have hnil := parts_ne_nil (Bool.not_eq_true _ ▸ hfile)
      have hset : f' = g.set (parts path) (.file text) := by
        split at hwritten
        · split at hwritten
          · cases hwritten
          · cases hwritten
            rfl
        · cases hwritten
        · split at hwritten <;> cases hwritten
      have hblocked : f'.blocked (parts path) = false := by
        rw [blocked_eq_false_iff]
        intro q hq other
        have hother : q ≠ parts path := fun heq => not_mem_above_self _ (heq ▸ hq)
        rw [hset, node?_set hnil, if_neg hother, hnodes, if_pos hq]
        nofun
      have hnode : f'.node? (parts path) = some (.file text) := by
        rw [hset, node?_set hnil, if_pos rfl]
      simp [lookup, hpath, hblocked, hnode, hfile]

/-- A file that can be read can be written over. -/
theorem writeDeep_of_read {old : String} (hread : f.lookup path = .ok (.file old))
    (text : String) : ∃ f', f.writeDeep path text = .ok f' := by
  unfold lookup at hread
  split at hread
  · cases hread
  rename_i hpath
  split at hread
  · cases hread
  rename_i hblocked
  split at hread
  · cases hread
  · cases hread
  rename_i found hnode
  split at hread
  · cases hread
  rename_i hfile
  have hclear := blocked_eq_false_iff.mp (Bool.not_eq_true _ ▸ hblocked)
  have hnil := parts_ne_nil (Bool.not_eq_true _ ▸ hfile)
  obtain ⟨g, hmade⟩ := makeAll_ok (fun p hp => ne_nil_of_mem_above hp) hclear
  have hnodes := makeAll_spec (fun p hp => ne_nil_of_mem_above hp) hmade
  have hparent : g.node? (parts path).dropLast = some .directory := by
    by_cases hempty : (parts path).dropLast = []
    · rw [hempty, node?_nil]
    · rw [hnodes, if_pos]
      have hlast : (parts path).dropLast ∈ above (parts path) := by
        rw [← above_dropLast, if_neg (by simpa using hempty)]
        exact List.mem_append_right _ (List.mem_singleton_self _)
      exact hlast
  have hend : g.node? (parts path) = some (.file found) := by
    rw [hnodes, if_neg (not_mem_above_self _), hnode]
  refine ⟨g.set (parts path) (.file text), ?_⟩
  rw [writeDeep, makeParts_dropLast, hmade]
  show g.write path text = _
  simp [write, hpath, hfile, hparent, hend]

theorem exists?_of_read (hread : f.lookup path = .ok (.file text)) : f.exists? path = true := by
  rw [exists?, hread]
  rfl

theorem read_of_lookup (hread : f.lookup path = .ok (.file text)) : f.read path = .ok text := by
  rw [read, hread]

end TupleSpace.Files
