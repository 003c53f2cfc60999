import StubLoader.Proofs.Command.Files
import StubLoader.Proofs.FileTree.Writing
/-!
# The files of a machine

A machine keeps what a command writes: in its file tree the names below a directory lead to places
of their own, and neither directories that are made nor what is printed changes a file.
-/

namespace StubLoader.Machine

variable {m m' : Machine} {p q : Path} {bytes held : Bytes}

/-- What a path leads to on a machine, in terms of its file tree. -/
theorem holds_iff : world.Holds m p bytes ↔ m.tree.Holds m.cwd p bytes := by
  have hload : ((world.load p).run m).1 = m.tree.load m.cwd p := rfl
  have hisFile : ((world.isFile p).run m).1 = m.tree.isFile m.cwd p := rfl
  rw [World.Holds, hload, hisFile, FileTree.load, FileTree.isFile, FileTree.Holds]
  cases m.tree.look m.cwd p with
  | error e => simp [bind, Except.bind]
  | ok node =>
    cases node with
    | directory =>
      simp [bind, Except.bind, throw, throwThe, MonadExceptOf.throw, FileTree.Node.Holds]
    | file _ _ | device _ => simp [bind, Except.bind, pure, Except.pure, FileTree.Node.Holds]

/-- A machine that has written something stands where it did, over the file tree with that. -/
theorem store_eq_ok (h : m.store p bytes = (.ok (), m')) :
    m'.cwd = m.cwd ∧ m.tree.store m.cwd p bytes false = .ok m'.tree := by
  unfold store at h
  split at h
  · cases h
  · next tree hstored =>
    have hlook : ∀ device, m.tree.look m.cwd p = .ok (.device device) → tree = m.tree := by
      intro device hdevice
      rcases FileTree.store_eq_ok hstored with ⟨rfl, -⟩ | ⟨_, hvacant, -, -⟩
      · rfl
      · obtain ⟨_, hplace⟩ := FileTree.look_eq_ok_iff.mp hdevice
        obtain ⟨_, _, heq⟩ := hvacant _ hplace
        cases heq
    split at h
    · next hdevice =>
      cases h
      exact ⟨rfl, hlook _ hdevice ▸ hstored⟩
    · next hdevice =>
      cases h
      exact ⟨rfl, hlook _ hdevice ▸ hstored⟩
    · cases h
      exact ⟨rfl, hstored⟩

/-- A machine keeps its files. -/
theorem world_keepsFiles : world.KeepsFiles := by
  constructor
  case store =>
    intro p bytes m m' h
    obtain ⟨hcwd, hstored⟩ := store_eq_ok h
    rw [holds_iff, hcwd]
    exact FileTree.holds_of_store hstored
  case store_apart =>
    intro p q directory names names' bytes held m m' hp hq hne h hheld
    obtain ⟨hcwd, hstored⟩ := store_eq_ok h
    rw [holds_iff] at hheld ⊢
    rw [hcwd]
    exact hheld.store hstored (FileTree.placed_ne hp hq hne)
  case makeDirectories =>
    intro p q held m hheld
    rw [holds_iff] at hheld ⊢
    exact hheld.extends (FileTree.extends_makeDirectories m.tree m.cwd p)
  case print | printError =>
    intro q bytes held m hheld
    rw [holds_iff] at hheld ⊢
    exact hheld

end StubLoader.Machine
