import StubLoader.Proofs.Reference.WireFormat
/-!
# References from options that were read

The options in a document may open as many brackets at once as readers go deep. The literal of a
reference opens one more around them, so it is parsed back exactly if the options leave that one
bracket free.
-/

namespace StubLoader

open Json

namespace Options

/-! ### Options and their text -/

/-- The options that a text holds are those of the tree that it spells. -/
theorem exists_tree {text : String} {o : Options} (h : parse text = .ok o) :
    ∃ t, SpellsAll t text.toList ∧ ofTree? maxDepth t = some o := by
  have hread : readAll (read maxDepth) text = .ok o := by
    unfold parse at h
    match hr : readAll (read maxDepth) text with
    | .error e => rw [hr] at h; cases h
    | .ok o' => rw [hr] at h; cases h; rfl
  obtain ⟨t, ht⟩ := spellsAll_of_readAll (sound_read maxDepth) hread
  have hmeaning := readAll_toOption (reads_read maxDepth) ht
  rw [hread] at hmeaning
  exact ⟨t, ht, hmeaning.symm⟩

/-- Options whose base path is a text have a text. -/
theorem exists_print {o : Options} {s : String} (hs : o.basePath.toString? = some s) :
    ∃ text, o.print = .ok text := by
  unfold print printPath
  rw [hs]
  exact ⟨_, rfl⟩

theorem render_eq {o : Options} {text : List Char} (h : o.print = .ok text) :
    o.render = .ok (String.ofList text) := by
  rw [render, h]

theorem spellsAll_print {o : Options} {text : List Char} (h : o.print = .ok text) :
    SpellsAll o.tree (String.ofList text).toList := by
  refine ⟨[], ?_, rfl⟩
  have hwrites := writes_print h []
  rwa [List.append_nil, ← String.toList_ofList (l := text)] at hwrites

/-- Options that are what their own tree stands for are read back from their text. -/
theorem parse_print {o : Options} {text : List Char} (h : o.print = .ok text)
    (htree : ofTree? maxDepth o.tree = some o) : parse (String.ofList text) = .ok o := by
  have hread := readAll_toOption (reads_read maxDepth) (spellsAll_print h)
  rw [htree] at hread
  rw [parse, toOption_eq_some.mp hread]
  rfl

/-- A mode opens no brackets. -/
theorem nests_withMode {o : Options} {mode : Mode} {depth : Nat} :
    (o.withMode mode).tree.Nests depth ↔ o.tree.Nests depth := by
  cases depth with
  | zero => exact Iff.rfl
  | succ depth => simp [tree, withMode, Tree.Nests]

end Options

namespace Reference

/-- Around its options a reference opens one bracket. -/
theorem nests_tree {r : Reference} {depth : Nat} :
    r.tree.Nests (depth + 1) ↔ r.options.tree.Nests depth := by
  simp [tree, Path.tree, Tree.Nests]

/-- A literal that nests too deep is refused. -/
theorem parse_of_not_nests {r : Reference} {text : List Char} (h : r.print = .ok text)
    (hnests : ¬r.tree.Nests maxDepth) :
    ∃ fault, parse (String.ofList text) = .error (.reference fault) := by
  refine (parse_ok_or_error _).resolve_left ?_
  rintro ⟨r', hparse⟩
  obtain ⟨t, ht, hr⟩ := exists_tree hparse
  rw [strip_ofList h] at ht
  rw [ht.unique (spellsAll_print h)] at hr
  exact hnests (unpadded_of_ofTree? hr).2

/-! ### Literals of companions -/

section Companions

variable {o : Options} {source : Path} {entryPoint : String}

theorem make_withMode (hgiven : o.basePath.isEmpty = false) (habsolute : source.isAbsolute = true)
    (mode : Mode) :
    Request.make source (o.withMode mode) = .ok ⟨source, o.withMode mode⟩ := by
  have hvalidate : (o.withMode mode).validate = .ok () := by
    rw [Options.validate, Options.withMode, hgiven]
    rfl
  rw [Request.make, habsolute, hvalidate]
  rfl

theorem options_companion (mode : Mode) :
    (companion entryPoint ⟨source, o.withMode mode⟩).options = o.withMode .message := rfl

theorem toRequest_companion (hgiven : o.basePath.isEmpty = false)
    (habsolute : source.isAbsolute = true) (mode : Mode) :
    (companion entryPoint ⟨source, o.withMode mode⟩).toRequest =
      .ok (Request.companion ⟨source, o.withMode mode⟩) :=
  make_withMode hgiven habsolute .message

/-- A reader that goes as deep as the reference leaves one bracket less for the options. -/
theorem nests_companion {mode : Mode} {depth : Nat} :
    (companion entryPoint ⟨source, o.withMode mode⟩).tree.Nests (depth + 1) ↔
      o.tree.Nests depth := by
  rw [nests_tree, options_companion, Options.nests_withMode]

end Companions

/-- Options are read from a text of integers, their base path is not empty, the source is absolute
and the entry point has a name. Then the request for a stub can be made, its companion has a
literal and stands for the companion request. The literal is parsed as the companion if the options
open at most 126 brackets at once, and otherwise it is refused. -/
theorem companion_of_parsed {text : String} {o : Options}
    (hints : ∀ t, SpellsAll t text.toList → t.IntegersOnly) (h : Options.parse text = .ok o)
    (hgiven : o.basePath.isEmpty = false) {source : String}
    (habsolute : (Path.ofString source).isAbsolute = true) {entryPoint : String}
    (hentry : entryPoint ≠ "") :
    ∃ request literal, Request.make (.ofString source) (o.withMode .service) = .ok request ∧
      (companion entryPoint request).render = .ok literal ∧
      (companion entryPoint request).toRequest = .ok request.companion ∧
      (o.tree.Nests 126 → parse literal = .ok (companion entryPoint request)) ∧
      (¬o.tree.Nests 126 → ∃ fault, parse literal = .error (.reference fault)) := by
  obtain ⟨t, ht, ho⟩ := Options.exists_tree h
  obtain ⟨hbase, hextra, hkeys⟩ := Options.tidy_of_ofTree? (hints t ht) ho
  have hsource : ∃ s, (Path.ofString source).toString? = some s :=
    ⟨source, Path.toString?_ofString source⟩
  let emitted : Reference := companion entryPoint ⟨.ofString source, o.withMode .service⟩
  obtain ⟨literal, hprint⟩ : ∃ literal, emitted.print = .ok literal := by
    obtain ⟨⟨_, hbase⟩, ⟨_, hsource⟩⟩ := And.intro hbase hsource
    exact exists_print hbase hsource
  have hnests : emitted.tree.Nests maxDepth ↔ o.tree.Nests 126 := nests_companion
  refine ⟨_, String.ofList literal, make_withMode hgiven habsolute .service, render_eq hprint,
    toRequest_companion hgiven habsolute .service, fun hfits => ?_, fun hdeep => ?_⟩
  · have hportable : emitted.Portable :=
      ⟨hentry, hsource, hbase, hgiven, rfl, .obj hextra.ascending hextra.plain, hkeys,
        hnests.mpr hfits⟩
    exact parse_print hprint hportable.ofTree?_tree hportable.validate
  · exact parse_of_not_nests hprint fun hfits => hdeep (hnests.mp hfits)

theorem companion_of_parsed_sample : ∃ text request literal,
    Options.parse text = .ok sample.options ∧
      Request.make (.ofString "/p/x") (sample.options.withMode .service) = .ok request ∧
      (companion "loader" request).render = .ok literal ∧
      parse literal = .ok (companion "loader" request) := by
  obtain ⟨text, htext⟩ := Options.exists_print (o := sample.options)
    (Path.toString?_ofString "/p")
  have hnests : sample.options.tree.Nests maxDepth := by decide
  have htree := Options.ofTree?_tree (Path.toString?_ofString "/p") sample_portable.extra
    sample_portable.keys hnests
  have hparse := Options.parse_print htext htree
  have hints : ∀ t, SpellsAll t (String.ofList text).toList → t.IntegersOnly := by
    intro t ht
    rw [ht.unique (Options.spellsAll_print htext)]
    cases sample_integersOnly with
    | arr hitems => exact hitems sample.options.tree (by simp)
  have habsolute : (Path.ofString "/p/x").isAbsolute = true := by decide
  have hentry : "loader" ≠ "" := by decide
  obtain ⟨request, literal, hmake, hrender, -, hdeep, -⟩ :=
    companion_of_parsed hints hparse rfl habsolute hentry
  exact ⟨_, request, literal, hparse, hmake, hrender, hdeep (by decide)⟩

/-! ### Options that leave no bracket free -/

/-- `null` inside this many arrays. -/
def nested : Nat → Json
  | 0 => .null
  | n + 1 => .arr [nested n]

theorem plain_nested : ∀ n, (nested n).Plain
  | 0 => .null
  | n + 1 => .arr (List.forall_mem_singleton.mpr (plain_nested n))

theorem nests_nested : ∀ {n depth : Nat}, (nested n).tree.Nests depth ↔ n ≤ depth
  | 0, depth => by cases depth <;> simp [nested, Json.tree, Tree.Nests]
  | n + 1, 0 => by simp [nested, Json.tree, Tree.Nests]
  | n + 1, depth + 1 => by
    have ih := @nests_nested n depth
    simpa [nested, Json.tree, treeItems, Tree.Nests] using ih

/-- Options that open 127 brackets at once. -/
def deepOptions : Options := ⟨.ofString "/p", .service, [("x", nested 126)]⟩

/-- Such options are read, and the literal made from them is refused. -/
theorem deepOptions_refused : ∃ text request literal, deepOptions.render = .ok text ∧
    Options.parse text = .ok deepOptions ∧
    Request.make (.ofString "/p/a") deepOptions = .ok request ∧
    (companion "loader" request).render = .ok literal ∧
    ∃ fault, parse literal = .error (.reference fault) := by
  obtain ⟨text, htext⟩ := Options.exists_print (o := deepOptions)
    (Path.toString?_ofString "/p")
  have hextra : (Json.obj deepOptions.extra).Plain :=
    .obj (List.pairwise_singleton _ _) (List.forall_mem_singleton.mpr (plain_nested 126))
  have hnests : ∀ {depth}, deepOptions.tree.Nests (depth + 1) ↔ 126 ≤ depth := by
    intro depth
    have hnested := @nests_nested 126 depth
    simpa [deepOptions, Options.tree, Path.tree, treeMembers, Tree.Nests] using hnested
  have htree : Options.ofTree? maxDepth deepOptions.tree = some deepOptions :=
    Options.ofTree?_tree (Path.toString?_ofString "/p") hextra (by decide) (hnests.mpr (by decide))
  obtain ⟨literal, hliteral⟩ : ∃ literal,
      (companion "loader" ⟨.ofString "/p/a", deepOptions⟩).print = .ok literal :=
    exists_print (Path.toString?_ofString "/p") (Path.toString?_ofString "/p/a")
  refine ⟨_, ⟨.ofString "/p/a", deepOptions⟩, _, Options.render_eq htext,
    Options.parse_print htext htree, rfl, render_eq hliteral, parse_of_not_nests hliteral ?_⟩
  intro hdeep
  have hoptions : deepOptions.tree.Nests 126 :=
    Options.nests_withMode.mp (nests_tree.mp hdeep)
  exact absurd (hnests.mp hoptions) (by decide)

end Reference

end StubLoader
