import StubLoader.Proofs.FileTree.Places
/-!
# Writing to file trees

Where a write succeeds, the path leads to a file that holds just what was written, or to a device.
What paths to other places lead to stays as it was, and so it does when directories are made.
-/

namespace StubLoader.FileTree

variable {t t' : FileTree} {cwd p q : Path}

/-! ### What is held -/

/-- A file that holds just the bytes, or a device. -/
def Node.Holds (bytes : Bytes) : Node → Prop
  | .directory => False
  | .file held _ => held = bytes
  | .device _ => True

/-- The path leads to a file that holds just the bytes, or to a device. -/
def Holds (t : FileTree) (cwd p : Path) (bytes : Bytes) : Prop :=
  ∃ node, t.look cwd p = .ok node ∧ node.Holds bytes

theorem look_eq_ok_iff {node : Node} : t.look cwd p = .ok node ↔
    t.resolve cwd p = .ok (placed cwd p) ∧ t.node? (placed cwd p) = some node := by
  unfold look
  cases h : t.resolve cwd p with
  | error e => simp [bind, Except.bind]
  | ok place =>
    obtain rfl := resolve_eq_ok h
    simp only [bind, Except.bind, true_and]
    cases t.node? (placed cwd p) with
    | none => simp [throw, throwThe, MonadExceptOf.throw]
    | some node' => simp [pure, Except.pure]

/-- What a path leads to is still there when the tree has grown elsewhere. -/
theorem Holds.grows {bytes : Bytes} (hheld : t.Holds cwd q bytes) (h : t.Grows t')
    (hsame : t'.node? (placed cwd q) = t.node? (placed cwd q)) : t'.Holds cwd q bytes := by
  obtain ⟨node, hlook, hnode⟩ := hheld
  obtain ⟨hresolve, hplace⟩ := look_eq_ok_iff.mp hlook
  exact ⟨node, look_eq_ok_iff.mpr ⟨h.resolve hresolve, hsame.trans hplace⟩, hnode⟩

/-! ### New entries -/

theorem newPlace_eq_ok {last : Bytes} {front : List Bytes} {found : IoError} {place : Place}
    (h : t.newPlace cwd p last front found = .ok place) :
    Path.Component.ofSegment? last = some (.name last) ∧ last.length ≤ maxName ∧
      ∃ directory, front.foldlM t.step (origin cwd p) = .ok directory ∧
        t.node? directory = some .directory ∧ place = directory ++ [last] := by
  unfold newPlace at h
  by_cases hlast : Path.isIdle last = true ∨ last = [Path.dot, Path.dot]
  · rw [if_pos hlast] at h
    obtain ⟨_, -, h⟩ := Json.bind_eq_ok h
    cases h
  · rw [if_neg hlast] at h
    rw [not_or] at hlast
    obtain ⟨directory, hfront, h⟩ := Json.bind_eq_ok h
    obtain ⟨⟨⟩, hdirectory, h⟩ := Json.bind_eq_ok h
    by_cases hlong : maxName < last.length
    · rw [if_pos hlong] at h
      cases h
    · rw [if_neg hlong] at h
      cases h
      exact ⟨ofSegment?_name hlast.1 hlast.2, Nat.not_lt.mp hlong, directory, hfront,
        checkDirectory_eq_ok_iff.mp hdirectory, rfl⟩

/-- The path is a name in a directory that it leads to. -/
structure Entry (t : FileTree) (cwd p : Path) (directory : Place) (last : Bytes) : Prop where
  check : checkPath p = .ok ()
  front : ∃ front, Path.segments p.bytes = front ++ [last] ∧
    front.foldlM t.step (origin cwd p) = .ok directory
  directory : t.node? directory = some .directory
  name : Path.Component.ofSegment? last = some (.name last)
  length : last.length ≤ maxName

section Entry

variable {directory : Place} {last bytes : Bytes} (h : t.Entry cwd p directory last)
include h

/-- The path leads to the entry once there is one, however the tree has grown. -/
theorem Entry.resolve (hgrows : t.Grows t') (hsome : (t'.node? (directory ++ [last])).isSome) :
    t'.resolve cwd p = .ok (directory ++ [last]) := by
  obtain ⟨hcheck, ⟨front, hsegments, hfront⟩, hdirectory, hname, hlength⟩ := h
  have hstep : t'.step directory last = .ok (directory ++ [last]) := by
    refine step_eq_ok_iff.mpr ⟨hgrows.directory _ hdirectory, ?_, fun _ => ⟨hlength, hsome⟩⟩
    rw [landing, hname]
    rfl
  rw [FileTree.resolve, hcheck, hsegments]
  simp only [bind, Except.bind, List.foldlM_append, hgrows.foldlM hfront, List.foldlM_cons, hstep]
  rfl

/-- What is there already is what the path leads to. -/
theorem Entry.look {node : Node} (hnode : t.node? (directory ++ [last]) = some node) :
    t.look cwd p = .ok node := by
  have hresolve := h.resolve ⟨fun _ h => h, fun _ h => h⟩ (by rw [hnode]; rfl)
  rw [resolve_eq_ok hresolve] at hnode hresolve
  exact look_eq_ok_iff.mpr ⟨hresolve, hnode⟩

/-- What is put there, where no directory was, is what the path leads to then. -/
theorem Entry.put (hnode : t.node? (directory ++ [last]) ≠ some .directory) (node : Node) :
    directory ++ [last] = placed cwd p ∧ (t.put (placed cwd p) node).look cwd p = .ok node := by
  have hput : (t.put (directory ++ [last]) node).node? (directory ++ [last]) = some node := by
    rw [node?_put, if_neg (by simp), if_pos rfl]
  have hresolve := h.resolve (grows_put hnode node) (by rw [hput]; rfl)
  have hplaced := resolve_eq_ok hresolve
  rw [hplaced] at hput hresolve
  exact ⟨hplaced, look_eq_ok_iff.mpr ⟨hresolve, hput⟩⟩

end Entry

/-- Without a slash at its end a path is its segments up to the last, and the last. -/
theorem segments_eq_of_reverse {segments : List Bytes} {last : Bytes} {front : List Bytes}
    (h : segments.reverse.dropWhile (· = []) = last :: front)
    (hslash : segments.reverse.head? ≠ some []) : segments = front.reverse ++ [last] := by
  have hreverse : segments.reverse = last :: front := by
    match hreversed : segments.reverse with
    | [] => simp [hreversed] at h
    | s :: ss =>
      rw [hreversed] at hslash h
      have hs : s ≠ [] := fun hs => hslash (congrArg some hs)
      rwa [List.dropWhile_cons, if_neg (by simpa using hs)] at h
  rw [← List.reverse_reverse segments, hreverse, List.reverse_cons]

/-- There is a file at the place, or nothing. -/
def Vacant (t : FileTree) (place : Place) : Prop :=
  ∀ node, t.node? place = some node → ∃ held executable, node = .file held executable

theorem Vacant.ne_directory {place : Place} (h : t.Vacant place) :
    t.node? place ≠ some .directory := by
  intro hnode
  obtain ⟨_, _, heq⟩ := h _ hnode
  cases heq

/-- What a write that succeeds has done: nothing if the path leads to a device, and otherwise there
is now a file, where there was one before or nothing. -/
theorem store_eq_ok {bytes : Bytes} {executable : Bool}
    (h : t.store cwd p bytes executable = .ok t') :
    (t' = t ∧ ∃ device, t.look cwd p = .ok (.device device)) ∨
      ∃ executable, t.Vacant (placed cwd p) ∧
        t' = t.put (placed cwd p) (.file bytes executable) ∧
        t'.look cwd p = .ok (.file bytes executable) := by
  obtain ⟨⟨⟩, hcheck, h⟩ := Json.bind_eq_ok h
  dsimp only at h
  split at h
  · cases h
  · next last front hsegments =>
    by_cases hslash : (Path.segments p.bytes).reverse.head? = some []
    · rw [if_pos hslash] at h
      obtain ⟨_, -, h⟩ := Json.bind_eq_ok h
      obtain ⟨_, -, h⟩ := Json.bind_eq_ok h
      cases h
    rw [if_neg hslash] at h
    obtain ⟨place, hplace, h⟩ := Json.bind_eq_ok h
    obtain ⟨hname, hlength, directory, hfront, hdirectory, rfl⟩ := newPlace_eq_ok hplace
    have hentry : t.Entry cwd p directory last :=
      ⟨hcheck, ⟨_, segments_eq_of_reverse hsegments hslash, hfront⟩, hdirectory, hname, hlength⟩
    have hwritten : ∀ executable, t.Vacant (directory ++ [last]) →
        t.put (directory ++ [last]) (.file bytes executable) = t' → ∃ executable,
          t.Vacant (placed cwd p) ∧ t' = t.put (placed cwd p) (.file bytes executable) ∧
          t'.look cwd p = .ok (.file bytes executable) := by
      rintro executable hvacant rfl
      obtain ⟨hplaced, hlook⟩ := hentry.put hvacant.ne_directory (.file bytes executable)
      rw [hplaced] at hvacant ⊢
      exact ⟨executable, hvacant, rfl, hlook⟩
    split at h
    · cases h
    · next hnode =>
      split_ifs at h
      cases h
      exact .inl ⟨rfl, _, hentry.look hnode⟩
    · next hnode =>
      cases h
      exact .inl ⟨rfl, _, hentry.look hnode⟩
    · next executable hnode =>
      refine .inr (hwritten executable (fun node h => ?_) (Except.ok.inj h))
      rw [hnode] at h
      cases h
      exact ⟨_, _, rfl⟩
    · next hnode =>
      refine .inr (hwritten executable (fun node h => ?_) (Except.ok.inj h))
      rw [hnode] at h
      cases h

/-- What was written is there. -/
theorem holds_of_store {bytes : Bytes} {executable : Bool}
    (h : t.store cwd p bytes executable = .ok t') : t'.Holds cwd p bytes := by
  rcases store_eq_ok h with ⟨rfl, device, hlook⟩ | ⟨executable, -, -, hlook⟩
  · exact ⟨_, hlook, trivial⟩
  · exact ⟨_, hlook, rfl⟩

/-- What other paths lead to is as it was. -/
theorem Holds.store {held bytes : Bytes} {executable : Bool} (hheld : t.Holds cwd q held)
    (h : t.store cwd p bytes executable = .ok t') (hne : placed cwd p ≠ placed cwd q) :
    t'.Holds cwd q held := by
  rcases store_eq_ok h with ⟨rfl, -⟩ | ⟨executable, hvacant, rfl, -⟩
  · exact hheld
  · refine hheld.grows (grows_put hvacant.ne_directory _) ?_
    rw [node?_put, if_neg (Ne.symm hne)]
    split_ifs with hroot
    · rw [hroot, node?, if_pos rfl]
    · rfl

/-! ### Directories -/

/-- What is at places is still there. -/
def Extends (t t' : FileTree) : Prop :=
  ∀ place node, t.node? place = some node → t'.node? place = some node

theorem Extends.grows (h : t.Extends t') : t.Grows t' := by
  refine ⟨fun place => h place .directory, fun place hsome => ?_⟩
  obtain ⟨node, hnode⟩ := Option.isSome_iff_exists.mp hsome
  rw [h place node hnode]
  rfl

theorem Holds.extends {bytes : Bytes} (hheld : t.Holds cwd q bytes) (h : t.Extends t') :
    t'.Holds cwd q bytes := by
  obtain ⟨node, hlook, hnode⟩ := hheld
  obtain ⟨hresolve, hplace⟩ := look_eq_ok_iff.mp hlook
  exact ⟨node, look_eq_ok_iff.mpr ⟨h.grows.resolve hresolve, h _ node hplace⟩, hnode⟩

theorem extends_put {place : Place} (h : t.node? place = none) (node : Node) :
    t.Extends (t.put place node) := by
  intro place' node' hnode
  rw [node?_put]
  split_ifs with hroot heq
  · rwa [node?, if_pos hroot] at hnode
  · rw [heq, h] at hnode
    cases hnode
  · exact hnode

theorem extends_makeDirectory (h : t.makeDirectory cwd p = .ok t') : t.Extends t' := by
  obtain ⟨⟨⟩, -, h⟩ := Json.bind_eq_ok h
  dsimp only at h
  split at h
  · cases h
  · obtain ⟨place, -, h⟩ := Json.bind_eq_ok h
    by_cases hsome : (t.node? place).isSome = true
    · rw [if_pos hsome] at h
      cases h
    · rw [if_neg hsome] at h
      cases h
      exact extends_put (by simpa using hsome) .directory

theorem extends_makeAll (cwd : Path) : ∀ (steps : Nat) (p : Path) (t : FileTree),
    t.Extends (makeAll cwd steps p t).2
  | 0, _, _ => fun _ _ h => h
  | steps + 1, p, t => by
    unfold makeAll
    by_cases hempty : p.isEmpty = true
    · rw [if_pos hempty]
      exact fun _ _ h => h
    rw [if_neg hempty]
    cases hmade : t.makeDirectory cwd p with
    | ok t' => exact extends_makeDirectory hmade
    | error e =>
      dsimp only
      by_cases hkind : e.kind ≠ .notFound
      · rw [if_pos hkind]
        exact fun _ _ h => h
      rw [if_neg hkind]
      cases p.parent? with
      | none => exact fun _ _ h => h
      | some parent =>
        have habove := extends_makeAll cwd steps parent t
        dsimp only
        generalize makeAll cwd steps parent t = above at habove ⊢
        obtain ⟨e | ⟨⟩, u⟩ := above
        · exact habove
        · cases hagain : u.makeDirectory cwd p with
          | error e => simpa only [hagain] using habove
          | ok t' =>
            simp only [hagain]
            exact fun place node h => extends_makeDirectory hagain _ _ (habove place node h)

/-- Making directories leaves what is there as it is. -/
theorem extends_makeDirectories (t : FileTree) (cwd p : Path) :
    t.Extends (t.makeDirectories cwd p).2 := extends_makeAll cwd _ p t

end StubLoader.FileTree
