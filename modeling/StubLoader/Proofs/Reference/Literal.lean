import StubLoader.Proofs.Json.Printing
import StubLoader.Proofs.Text.Utf8
import StubLoader.Reference
/-!
# The literal of a reference

A reference has a literal exactly if its paths are texts. The literal spells the tree `r.tree`
and holds no control character, whatever the entry point, the paths and the options hold.
-/

namespace StubLoader

open Json

namespace Path

theorem toString?_ofString (s : String) : (Path.ofString s).toString? = some s := by
  rw [toString?, Utf8.toString?, ofString, Utf8.ofString, Utf8.decode_encode]
  exact congrArg some String.ofList_toList

theorem eq_ofString {p : Path} {s : String} (h : p.toString? = some s) : p = Path.ofString s := by
  rw [toString?, Utf8.toString?] at h
  cases hd : Utf8.decode p.bytes with
  | error e => rw [hd] at h; cases h
  | ok cs =>
    rw [hd] at h
    cases h
    have hbytes : p = ⟨Utf8.encode cs⟩ := by rw [Utf8.encode_of_decode hd]
    rw [hbytes, ofString, Utf8.ofString, String.toList_ofList]

end Path

/-! ### Trees -/

namespace Path

/-- A path as the string that its literal spells. -/
def tree (p : Path) : Tree := .str (p.toString?.getD "")

end Path

namespace Options

/-- What the text of options spells. -/
def tree (o : Options) : Tree :=
  .obj (("basePath", o.basePath.tree) :: ("mode", .str o.mode.name) :: treeMembers o.extra)

/-- What the text of a path is. -/
theorem printPath_eq_ok {p : Path} {text : List Char} (h : printPath p = .ok text) :
    ∃ s, p.toString? = some s ∧ text = printString s := by
  unfold printPath at h
  split at h
  · next s hs => cases h; exact ⟨s, hs, rfl⟩
  · cases h

/-- What the members of a text of options are. -/
theorem print_eq_ok {o : Options} {text : List Char} (h : o.print = .ok text) :
    ∃ path, printPath o.basePath = .ok path ∧
      text = '\x7b' :: commaSeparated (printMember "basePath" path ::
        printMember "mode" o.mode.print :: printMembers o.extra) ++ ['\x7d'] := by
  unfold Options.print at h
  cases hp : printPath o.basePath with
  | error e => rw [hp] at h; cases h
  | ok path =>
    rw [hp] at h
    cases h
    exact ⟨path, rfl, rfl⟩

theorem writes_printPath {p : Path} {text : List Char} (h : printPath p = .ok text) :
    Writes text p.tree := by
  obtain ⟨s, hs, rfl⟩ := printPath_eq_ok h
  rw [Path.tree, hs]
  exact writes_printString s

theorem writes_print {o : Options} {text : List Char} (h : o.print = .ok text) :
    Writes text o.tree := by
  obtain ⟨path, hp, rfl⟩ := print_eq_ok h
  refine writes_obj (.cons ⟨path, rfl, writes_printPath hp⟩ (.cons ⟨o.mode.print, rfl, ?_⟩ ?_))
  · exact writes_printString o.mode.name
  · exact writes_printMembers fun m _ => Json.writes_print m.2

theorem noControls_printPath {p : Path} {text : List Char} (h : printPath p = .ok text) :
    NoControls text := by
  obtain ⟨s, -, rfl⟩ := printPath_eq_ok h
  exact noControls_printString s

theorem noControls_print {o : Options} {text : List Char} (h : o.print = .ok text) :
    NoControls text := by
  obtain ⟨path, hp, rfl⟩ := print_eq_ok h
  refine noControls_brackets (by decide) (by decide) fun p hmem => ?_
  rcases List.mem_cons.mp hmem with rfl | hmem
  · exact noControls_printMember _ (noControls_printPath hp)
  · rcases List.mem_cons.mp hmem with rfl | hmem
    · exact noControls_printMember _ (noControls_printString _)
    · exact noControls_printMembers (fun m _ => Json.noControls_print m.2) p hmem

end Options

namespace Reference

/-- What the literal of a reference spells. -/
def tree (r : Reference) : Tree := .arr [.str r.entryPoint, r.options.tree, r.source.tree]

/-- What the parts of a literal are. -/
theorem print_eq_ok {r : Reference} {text : List Char} (h : r.print = .ok text) :
    ∃ options source, r.options.print = .ok options ∧ Options.printPath r.source = .ok source ∧
      text = '[' :: commaSeparated [printString r.entryPoint, options, source] ++ [']'] := by
  unfold Reference.print at h
  cases ho : r.options.print with
  | error e => rw [ho] at h; cases h
  | ok options =>
    rw [ho] at h
    cases hs : Options.printPath r.source with
    | error e => rw [hs] at h; cases h
    | ok source =>
      rw [hs] at h
      cases h
      exact ⟨options, source, rfl, rfl, rfl⟩

/-- The literal spells the tree of the reference. -/
theorem writes_print {r : Reference} {text : List Char} (h : r.print = .ok text) :
    Writes text r.tree := by
  obtain ⟨options, source, ho, hs, rfl⟩ := print_eq_ok h
  exact writes_arr (.cons (writes_printString r.entryPoint)
    (.cons (Options.writes_print ho) (.cons (Options.writes_printPath hs) .nil)))

/-- The literal has no control character. -/
theorem noControls_print {r : Reference} {text : List Char} (h : r.print = .ok text) :
    NoControls text := by
  obtain ⟨options, source, ho, hs, rfl⟩ := print_eq_ok h
  refine noControls_brackets (by decide) (by decide) fun p hp => ?_
  simp only [List.mem_cons, List.not_mem_nil, or_false] at hp
  rcases hp with rfl | rfl | rfl
  · exact noControls_printString _
  · exact Options.noControls_print ho
  · exact Options.noControls_printPath hs

/-- The paths of a reference that has a literal are texts. -/
theorem toString?_of_print {r : Reference} {text : List Char} (h : r.print = .ok text) :
    (∃ s, r.options.basePath.toString? = some s) ∧ ∃ s, r.source.toString? = some s := by
  obtain ⟨options, source, hoptions, hsource, -⟩ := print_eq_ok h
  obtain ⟨path, hpath, -⟩ := Options.print_eq_ok hoptions
  obtain ⟨s, hs, -⟩ := Options.printPath_eq_ok hpath
  obtain ⟨s', hs', -⟩ := Options.printPath_eq_ok hsource
  exact ⟨⟨s, hs⟩, s', hs'⟩

/-- A reference whose paths are texts has a literal. -/
theorem exists_print {r : Reference} {basePath source : String}
    (hb : r.options.basePath.toString? = some basePath) (hs : r.source.toString? = some source) :
    ∃ text, r.print = .ok text := by
  unfold Reference.print Options.print Options.printPath
  rw [hb, hs]
  exact ⟨_, rfl⟩

theorem render_eq_ok {r : Reference} {literal : String} (h : r.render = .ok literal) :
    ∃ text, r.print = .ok text ∧ literal = String.ofList text := by
  unfold render at h
  split at h
  · next text htext => cases h; exact ⟨text, htext, rfl⟩
  · cases h

theorem render_eq {r : Reference} {text : List Char} (h : r.print = .ok text) :
    r.render = .ok (String.ofList text) := by
  rw [render, h]

end Reference

end StubLoader
