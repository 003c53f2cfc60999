import StubLoader.Proofs.Path.Containment
import StubLoader.Proofs.Path.Naming
/-!
# Targets

The artifact of a source goes to its module path below the output directory. Two artifacts go to the
same file exactly if their module paths are the same, and so, of sources that are found by names,
exactly if these are files of the same directory and the same stem:

    base/d₁/…/dₖ/stem.ext    base/d₁/…/dₖ/stem.ext'    ↦    outDir/d₁/…/dₖ/stem_pb.js
-/

namespace StubLoader.Output

open StubLoader.Path

/-- Where the artifact of a module path goes. -/
def target (outDir : Path) (mode : Mode) (modulePath : String) : Path :=
  locate outDir (modulePath ++ suffix mode)

variable {base base' source source' : Path} {m m' : String}

/-- What a target is found by from the output directory. -/
theorem exists_names_target (h : modulePath base source = .ok m) (outDir : Path) (mode : Mode) :
    ∃ names, (target outDir mode m).components = outDir.components ++ named names ∧
      m ++ suffix mode = "/".intercalate names := by
  obtain ⟨names, hnames⟩ := exists_spelled h mode
  exact ⟨names, components_locate_of_spelled hnames outDir, hnames.text_eq⟩

theorem suffix_inj {mode : Mode} (h : m ++ suffix mode = m' ++ suffix mode) : m = m' := by
  have hchars := congrArg String.toList h
  rw [String.toList_append, String.toList_append] at hchars
  exact String.toList_inj.mp (List.append_cancel_right hchars)

/-- Different module paths are different names below the output directory. -/
theorem exists_names_apart (h : modulePath base source = .ok m)
    (h' : modulePath base' source' = .ok m') (hne : m ≠ m') (outDir : Path) (mode : Mode) :
    ∃ names names', (target outDir mode m).components = outDir.components ++ named names ∧
      (target outDir mode m').components = outDir.components ++ named names' ∧ names ≠ names' := by
  obtain ⟨names, hcomponents, hnames⟩ := exists_names_target h outDir mode
  obtain ⟨names', hcomponents', hnames'⟩ := exists_names_target h' outDir mode
  refine ⟨names, names', hcomponents, hcomponents', ?_⟩
  rintro rfl
  exact hne (suffix_inj (hnames.trans hnames'.symm))

/-- Artifacts go to the same file exactly if their module paths are the same. -/
theorem target_eq_iff (h : modulePath base source = .ok m) (h' : modulePath base' source' = .ok m')
    (outDir : Path) (mode : Mode) : target outDir mode m = target outDir mode m' ↔ m = m' := by
  refine ⟨fun heq => ?_, fun heq => heq ▸ rfl⟩
  by_contra hne
  obtain ⟨names, names', hcomponents, hcomponents', hnames⟩ :=
    exists_names_apart h h' hne outDir mode
  rw [heq, hcomponents'] at hcomponents
  exact hnames (named_injective (List.append_cancel_left hcomponents).symm)

/-- The source is found from the base by the names of directories and of a file with the stem. -/
structure FoundBy (base source : Path) (dirs : List String) (stem : String) : Prop where
  isName_dirs : ∀ d ∈ dirs, IsName d
  isName_stem : IsName stem
  file : ∃ file, HasStem stem file ∧
    source.normalize.components = base.normalize.components ++ named (dirs ++ [file])

section FoundBy

variable {dirs dirs' : List String} {stem stem' : String}

theorem FoundBy.modulePath_eq (h : FoundBy base source dirs stem) :
    modulePath base source = .ok ("/".intercalate (dirs ++ [stem])) := by
  obtain ⟨file, hfile, hsource⟩ := h.file
  exact modulePath_named h.isName_stem hfile hsource

theorem FoundBy.spelled (h : FoundBy base source dirs stem) :
    Spelled (dirs ++ [stem]) ("/".intercalate (dirs ++ [stem])) := by
  refine ⟨by simp, fun name hname => ?_, rfl⟩
  rcases List.mem_append.mp hname with hname | hname
  · exact h.isName_dirs name hname
  · rw [List.mem_singleton.mp hname]
    exact h.isName_stem

/-- Of a source that is found by names its directories and its stem are left, and nothing else. -/
theorem FoundBy.modulePath_eq_iff (h : FoundBy base source dirs stem)
    (h' : FoundBy base' source' dirs' stem') :
    modulePath base source = modulePath base' source' ↔ dirs = dirs' ∧ stem = stem' := by
  rw [h.modulePath_eq, h'.modulePath_eq, Except.ok.injEq]
  constructor
  · intro htext
    have hspelled := h.spelled
    rw [htext] at hspelled
    exact List.append_singleton_inj.mp (hspelled.names_eq h'.spelled)
  · rintro ⟨rfl, rfl⟩
    rfl

end FoundBy

end StubLoader.Output
