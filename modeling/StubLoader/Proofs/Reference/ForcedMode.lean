import StubLoader.Proofs.Json.LastWins
import StubLoader.Proofs.Reference.Companion
/-!
# The mode that other readers see

The literal of a companion writes the base path and the mode of its options first and the members
that are handed through after them. This library refuses a literal in which one of those is called
`basePath` or `mode`; a reader to which the last of several equal keys counts takes it instead. So
such a reader sees the codec asked for exactly if no member says otherwise.
-/

namespace StubLoader

open Json

namespace Reference

/-- The value under a key of the options in a literal, if the last of several equal keys counts. -/
def optionUnder? (key : String) : Tree → Option Tree
  | .arr [_, .obj ms, _] => last? key ms
  | _ => none

/-- Under a key the options have what is handed through, or else what they begin with. -/
theorem optionUnder?_tree (key : String) (r : Reference) : optionUnder? key r.tree =
    ((last? key r.options.extra).map Json.tree).or
      (last? key [("basePath", r.options.basePath.tree), ("mode", .str r.options.mode.name)]) := by
  have hsplit : ("basePath", r.options.basePath.tree) :: ("mode", Tree.str r.options.mode.name) ::
      treeMembers r.options.extra =
        [("basePath", r.options.basePath.tree), ("mode", .str r.options.mode.name)] ++
          r.options.extra.map fun m => (m.1, m.2.tree) := by
    rw [treeMembers_eq_map]
    rfl
  rw [tree, Options.tree, optionUnder?, hsplit, last?_append, last?_map]

theorem tree_eq_str {v : Json} {s : String} : v.tree = .str s ↔ v = .str s := by
  cases v <;> simp [Json.tree]

/-- A string that the options begin with is seen exactly if nothing else is handed through under
its key. -/
theorem optionUnder?_eq_iff {key s : String} {r : Reference}
    (h : last? key [("basePath", r.options.basePath.tree), ("mode", .str r.options.mode.name)] =
      some (.str s)) :
    optionUnder? key r.tree = some (.str s) ↔
      ∀ v, last? key r.options.extra = some v → v = .str s := by
  rw [optionUnder?_tree, h]
  cases last? key r.options.extra with
  | none => simp
  | some v => simp [tree_eq_str]

/-- The literal of a companion is a spelling of one tree. In its options, read so that the last of
several equal keys counts, there stands the codec's mode exactly if no other mode is handed through,
and the base path of the request exactly if no other base path is. If this library accepts the
literal, it finds both in any case. -/
theorem codec_seen_iff (entryPoint : String) (request : Request) {text : List Char}
    (h : (companion entryPoint request).print = .ok text) :
    ∃ t basePath, SpellsAll t text ∧ (∀ t', SpellsAll t' text → t' = t) ∧
      request.options.basePath.toString? = some basePath ∧
      (optionUnder? "mode" t = some (.str "Message") ↔
        ∀ v, last? "mode" request.options.extra = some v → v = .str "Message") ∧
      (optionUnder? "basePath" t = some (.str basePath) ↔
        ∀ v, last? "basePath" request.options.extra = some v → v = .str basePath) ∧
      ∀ r, parse (String.ofList text) = .ok r →
        r.options.mode = .message ∧ r.options.basePath = request.options.basePath := by
  obtain ⟨⟨basePath, hbase⟩, -⟩ := toString?_of_print h
  have hspell : SpellsAll (companion entryPoint request).tree text := by
    rw [← String.toList_ofList (l := text)]
    exact spellsAll_print h
  refine ⟨(companion entryPoint request).tree, basePath, hspell, fun t' ht' => ht'.unique hspell,
    hbase, optionUnder?_eq_iff rfl, optionUnder?_eq_iff ?_, fun r hr => ?_⟩
  · have htree : (companion entryPoint request).options.basePath.tree = .str basePath := by
      rw [Path.tree, hbase]
      rfl
    rw [htree]
    rfl
  · obtain ⟨-, -, hbasePath, hmode⟩ := given_of_parse_print h hr
    exact ⟨hmode, hbasePath⟩

/-- A request that hands another mode through. -/
def otherMode : Request :=
  ⟨.ofString "/p/a", ⟨.ofString "/p", .service, [("mode", .str "Service")]⟩⟩

/-- A member called `mode` that is handed through is what such a reader sees. -/
theorem otherMode_seen : ∃ text t, (companion "loader" otherMode).print = .ok text ∧
    SpellsAll t text ∧ optionUnder? "mode" t = some (.str "Service") := by
  have hprint : ∃ text, (companion "loader" otherMode).print = .ok text :=
    exists_print (Path.toString?_ofString "/p") (Path.toString?_ofString "/p/a")
  obtain ⟨text, htext⟩ := hprint
  have hspell := spellsAll_print htext
  rw [String.toList_ofList] at hspell
  exact ⟨text, _, htext, hspell, rfl⟩

theorem codec_seen_sample : ∃ text t, sample.print = .ok text ∧ SpellsAll t text ∧
    optionUnder? "mode" t = some (.str "Message") := by
  obtain ⟨text, htext⟩ : ∃ text, (companion sample.entryPoint
      ⟨sample.source, sample.options⟩).print = .ok text :=
    exists_print (Path.toString?_ofString "/p") (Path.toString?_ofString "/p/x")
  obtain ⟨t, _, hspell, -, -, hmode, -, -⟩ := codec_seen_iff _ _ htext
  exact ⟨text, t, htext, hspell, hmode.mpr (by decide)⟩

end Reference

end StubLoader
