import StubLoader.Proofs.Json.Plain
import StubLoader.Proofs.Reference.Literal
import StubLoader.Proofs.Reference.Reading
import StubLoader.Proofs.Text.Blank
/-!
# References and back

A *portable* reference is one that its literal says everything about. It is parsed back from its
literal, and a reference parsed from a text without fractions, exponents and large numbers is
portable.
-/

namespace StubLoader

open Json

/-- A reference to a codec under usable options whose literal can be read back. -/
structure Reference.Portable (r : Reference) : Prop where
  entryPoint : r.entryPoint ≠ ""
  source : ∃ s, r.source.toString? = some s
  basePath : ∃ s, r.options.basePath.toString? = some s
  baseGiven : r.options.basePath.isEmpty = false
  mode : r.options.mode = .message
  /-- The members handed through have no doubles and only numbers of 64 bits. -/
  extra : (Json.obj r.options.extra).Plain
  /-- None of them is taken for another one. -/
  keys : ∀ m ∈ r.options.extra, m.1 ≠ "basePath" ∧ m.1 ≠ "mode" ∧ m.1 ≠ "kind"
  /-- The literal opens no more brackets at once than readers accept. -/
  nests : r.tree.Nests maxDepth

/-! ### Options -/

namespace Options

/-- Members that are handed through are put behind those read before them. -/
theorem foldlM_take {depth : Nat} : ∀ {ms : Members} {d : Draft}, Ascending (d.extra ++ ms) →
    (∀ m ∈ ms, m.1 ≠ "basePath" ∧ m.1 ≠ "mode" ∧ m.1 ≠ "kind") →
    (∀ m ∈ ms, m.2.tree.read? depth = some m.2) →
      (treeMembers ms).foldlM (Draft.take? depth) d = some { d with extra := d.extra ++ ms }
  | [], d, _, _, _ => by rw [List.append_nil]; rfl
  | m :: ms, d, hkeys, hnames, h => by
    obtain ⟨hbase, hmode, hkind⟩ := hnames m List.mem_cons_self
    have htake : Draft.take? depth d (m.1, m.2.tree) = some { d with extra := d.extra ++ [m] } := by
      rw [Draft.take?, if_neg hbase, if_neg (by rintro (h | h) <;> contradiction),
        h m List.mem_cons_self, Option.map_some, insert_of_ascending hkeys]
    rw [List.append_cons] at hkeys
    have hrest := foldlM_take (d := { d with extra := d.extra ++ [m] }) hkeys
      (fun n hn => hnames n (List.mem_cons_of_mem m hn))
      (fun n hn => h n (List.mem_cons_of_mem m hn))
    rw [treeMembers, List.foldlM_cons, htake, Option.bind_eq_bind, Option.bind_some, hrest,
      List.append_assoc, List.singleton_append]

/-- The tree of options gives a draft its base path and its mode first. -/
theorem ofTree?_eq_bind {o : Options} {depth : Nat} {s : String}
    (hs : o.basePath.toString? = some s) : ofTree? (depth + 1) o.tree =
      ((treeMembers o.extra).foldlM (Draft.take? depth) ⟨some o.basePath, some o.mode, []⟩).bind
        Draft.complete? := by
  have hbase : Draft.take? depth ⟨none, none, []⟩ ("basePath", o.basePath.tree) =
      some ⟨some o.basePath, none, []⟩ := by
    rw [Path.tree, hs, Option.getD_some, Path.eq_ofString hs]
    rfl
  have hmode : Draft.take? depth ⟨some o.basePath, none, []⟩ ("mode", .str o.mode.name) =
      some ⟨some o.basePath, some o.mode, []⟩ := by
    cases o.mode <;> rfl
  rw [tree, ofTree?, List.foldlM_cons, hbase, Option.bind_eq_bind, Option.bind_some,
    List.foldlM_cons, hmode, Option.bind_eq_bind, Option.bind_some]

/-- Options are what their own tree stands for. -/
theorem ofTree?_tree {o : Options} {depth : Nat} {s : String}
    (hs : o.basePath.toString? = some s) (hextra : (Json.obj o.extra).Plain)
    (hkeys : ∀ m ∈ o.extra, m.1 ≠ "basePath" ∧ m.1 ≠ "mode" ∧ m.1 ≠ "kind")
    (hnests : o.tree.Nests depth) : ofTree? depth o.tree = some o := by
  cases depth with
  | zero => exact absurd hnests id
  | succ depth =>
    have hread : ∀ m ∈ o.extra, m.2.tree.read? depth = some m.2 := by
      intro m hm
      cases hextra with
      | obj hascending hplain =>
        refine (hplain m hm).read?_tree (hnests (m.1, m.2.tree) ?_)
        rw [treeMembers_eq_map]
        exact List.mem_cons_of_mem _ (List.mem_cons_of_mem _ (List.mem_map_of_mem hm))
    have hascending : Ascending o.extra := by cases hextra; assumption
    have hfold := foldlM_take (d := ⟨some o.basePath, some o.mode, []⟩) hascending hkeys hread
    rw [ofTree?_eq_bind hs, hfold]
    rfl

/-- What holds of a draft all of whose members were taken from a tree of integers. -/
structure Draft.Tidy (depth : Nat) (d : Draft) : Prop where
  basePath : ∀ p, d.basePath = some p → ∃ s, p.toString? = some s
  extra : PlainMembers depth d.extra
  keys : ∀ m ∈ d.extra, m.1 ≠ "basePath" ∧ m.1 ≠ "mode" ∧ m.1 ≠ "kind"

theorem Draft.Tidy.take {depth : Nat} {d d' : Draft} {m : String × Tree} (h : d.Tidy depth)
    (hm : m.2.IntegersOnly) (htake : d.take? depth m = some d') : d'.Tidy depth := by
  unfold Draft.take? at htake
  by_cases hbase : m.1 = "basePath"
  · rw [if_pos hbase] at htake
    obtain ⟨p, hp, rfl⟩ := Option.map_eq_some_iff.mp htake
    refine ⟨fun q hq => ?_, h.extra, h.keys⟩
    cases hq
    split at hp
    · cases hp
    · obtain ⟨s, -, rfl⟩ := Option.map_eq_some_iff.mp hp
      exact ⟨s, Path.toString?_ofString s⟩
  · rw [if_neg hbase] at htake
    by_cases hmode : m.1 = "mode" ∨ m.1 = "kind"
    · rw [if_pos hmode] at htake
      obtain ⟨mode, -, rfl⟩ := Option.map_eq_some_iff.mp htake
      exact ⟨h.basePath, h.extra, h.keys⟩
    · rw [if_neg hmode] at htake
      obtain ⟨v, hv, rfl⟩ := Option.map_eq_some_iff.mp htake
      obtain ⟨hplain, hnests⟩ := hm.plain hv
      refine ⟨h.basePath, h.extra.insert m.1 hplain hnests, fun n hn => ?_⟩
      rcases mem_insert hn with rfl | hn
      · exact ⟨hbase, fun e => hmode (.inl e), fun e => hmode (.inr e)⟩
      · exact h.keys n hn

/-- What the options of a tree of integers hold. -/
theorem tidy_of_ofTree? {t : Tree} {depth : Nat} {o : Options} (ht : t.IntegersOnly)
    (h : ofTree? (depth + 1) t = some o) : (∃ s, o.basePath.toString? = some s) ∧
      PlainMembers depth o.extra ∧
      ∀ m ∈ o.extra, m.1 ≠ "basePath" ∧ m.1 ≠ "mode" ∧ m.1 ≠ "kind" := by
  cases ht with
  | obj hms =>
    obtain ⟨d, hd, hcomplete⟩ := Option.bind_eq_some_iff.mp h
    obtain ⟨p, hp, rfl⟩ := Option.map_eq_some_iff.mp hcomplete
    have hempty : Draft.Tidy depth ⟨none, none, []⟩ :=
      ⟨fun _ h => (nomatch h), .nil depth, fun _ h => nomatch h⟩
    have htidy : d.Tidy depth :=
      foldlM_invariant (fun m hm b b' hb hstep => hb.take (hms m hm) hstep) hempty hd
    exact ⟨htidy.basePath p hp, htidy.extra, htidy.keys⟩
  | _ => cases h

end Options

/-! ### References -/

namespace Reference

/-- A portable reference is what its own tree stands for. -/
theorem Portable.ofTree?_tree {r : Reference} (h : r.Portable) :
    ofTree? maxDepth r.tree = some r := by
  obtain ⟨basePath, hbase⟩ := h.basePath
  obtain ⟨source, hsource⟩ := h.source
  have hoptions : Options.ofTree? 126 r.options.tree = some r.options :=
    Options.ofTree?_tree hbase h.extra h.keys (h.nests r.options.tree (by simp))
  have hpath : Path.ofString source = r.source := (Path.eq_ofString hsource).symm
  rw [tree, Path.tree, hsource, maxDepth, ofTree?, hoptions]
  simp only [Tree.text?, Option.getD_some, Option.bind_eq_bind, Option.bind_some, hpath]
  rfl

theorem Portable.validate {r : Reference} (h : r.Portable) : r.validate = .ok () := by
  have hentry : r.entryPoint.isEmpty = false := by
    rw [String.isEmpty_eq_false_iff]
    exact h.entryPoint
  simp only [Reference.validate, hentry, h.mode, Options.validate, h.baseGiven, Bool.false_eq_true,
    if_false, ne_eq, not_true]

theorem strip_ofList {r : Reference} {text : List Char} (h : r.print = .ok text) :
    Text.strip (String.ofList text) = String.ofList text := by
  obtain ⟨options, source, -, -, rfl⟩ := print_eq_ok h
  rw [Text.strip, String.toList_ofList, Text.trim_brackets _ (by decide) (by decide)]

theorem spellsAll_print {r : Reference} {text : List Char} (h : r.print = .ok text) :
    SpellsAll r.tree (String.ofList text).toList := by
  refine ⟨[], ?_, rfl⟩
  have hspell := writes_print h []
  rwa [List.append_nil, ← String.toList_ofList (l := text)] at hspell

/-- What a literal is parsed as is what the tree of the reference stands for. -/
theorem parse_print {r r' : Reference} {text : List Char} (h : r.print = .ok text)
    (htree : ofTree? maxDepth r.tree = some r') (hvalid : r'.validate = .ok ()) :
    parse (String.ofList text) = .ok r' := by
  have hread := readAll_toOption (reads_read maxDepth) (spellsAll_print h)
  rw [htree] at hread
  rw [parse, strip_ofList h, toOption_eq_some.mp hread]
  simp only [hvalid]

/-- A portable reference has a literal, and is parsed back from it. -/
theorem Portable.parse_render {r : Reference} (h : r.Portable) :
    ∃ literal, r.render = .ok literal ∧ parse literal = .ok r := by
  obtain ⟨basePath, hbase⟩ := h.basePath
  obtain ⟨source, hsource⟩ := h.source
  obtain ⟨text, htext⟩ := exists_print hbase hsource
  exact ⟨String.ofList text, render_eq htext, parse_print htext h.ofTree?_tree h.validate⟩

/-- The numbers of the text, blanks around it aside, are integers that fit into 64 bits. -/
def IntegersOnly (text : String) : Prop :=
  ∀ t, SpellsAll t (Text.strip text).toList → t.IntegersOnly

theorem parse_eq_ok {text : String} {r : Reference} (h : parse text = .ok r) :
    readAll (read maxDepth) (Text.strip text) = .ok r ∧ r.validate = .ok () := by
  unfold parse at h
  match hr : readAll (read maxDepth) (Text.strip text) with
  | .error e => rw [hr] at h; cases h
  | .ok r' =>
    rw [hr] at h
    dsimp only at h
    split at h
    · cases h
    · next hv => cases h; exact ⟨rfl, hv⟩

/-- What is parsed is what a tree stands for which the text spells. -/
theorem exists_tree {text : String} {r : Reference} (h : parse text = .ok r) :
    ∃ t, SpellsAll t (Text.strip text).toList ∧ ofTree? maxDepth t = some r := by
  have hr := (parse_eq_ok h).1
  obtain ⟨t, ht⟩ := spellsAll_of_readAll (sound_read maxDepth) hr
  have hread := readAll_toOption (reads_read maxDepth) ht
  rw [hr] at hread
  exact ⟨t, ht, hread.symm⟩

theorem validate_eq_ok {r : Reference} (h : r.validate = .ok ()) :
    r.entryPoint ≠ "" ∧ r.options.mode = .message ∧ r.options.basePath.isEmpty = false := by
  unfold Reference.validate at h
  split_ifs at h with hentry hmode
  refine ⟨fun he => hentry (by rw [he]; rfl), by simpa using hmode, ?_⟩
  unfold Options.validate at h
  split_ifs at h with hbase
  simpa using hbase

theorem ofTree?_eq_some {depth : Nat} {t : Tree} {r : Reference}
    (h : ofTree? (depth + 1) t = some r) : ∃ e o s, t = .arr [.str e, o, .str s] ∧
      Options.ofTree? depth o = some r.options ∧ r.entryPoint = e ∧ r.source = Path.ofString s := by
  unfold ofTree? at h
  split at h
  · next hdepth =>
    cases hdepth
    obtain ⟨entryPoint, he, h⟩ := Option.bind_eq_some_iff.mp h
    obtain ⟨options, ho, h⟩ := Option.bind_eq_some_iff.mp h
    obtain ⟨source, hs, h⟩ := Option.bind_eq_some_iff.mp h
    cases h
    exact ⟨entryPoint, _, source, by rw [Tree.text?_eq_some.mp he, Tree.text?_eq_some.mp hs], ho,
      rfl, rfl⟩
  · cases h

/-- A reference parsed from a text whose numbers are integers of 64 bits is portable. -/
theorem portable_of_parse {text : String} {r : Reference} (hints : IntegersOnly text)
    (h : parse text = .ok r) : r.Portable := by
  obtain ⟨t, ht, hr⟩ := exists_tree h
  obtain ⟨hentry, hmode, hbase⟩ := validate_eq_ok (parse_eq_ok h).2
  obtain ⟨e, o, s, rfl, ho, -, hs⟩ := ofTree?_eq_some hr
  have hoptions : o.IntegersOnly := by
    cases hints _ ht with
    | arr hitems => exact hitems o (by simp)
  obtain ⟨hpath, hextra, hkeys⟩ := Options.tidy_of_ofTree? hoptions ho
  refine ⟨hentry, ⟨s, hs ▸ Path.toString?_ofString s⟩, hpath, hbase, hmode,
    .obj hextra.ascending hextra.plain, hkeys, ?_⟩
  -- one bracket around the parts, one around the options
  have hmembers : ∀ m ∈ ("basePath", r.options.basePath.tree) ::
      ("mode", Tree.str r.options.mode.name) :: treeMembers r.options.extra, m.2.Nests 125 := by
    refine List.forall_mem_cons.mpr ⟨trivial, List.forall_mem_cons.mpr ⟨trivial, ?_⟩⟩
    rw [treeMembers_eq_map]
    exact List.forall_mem_map.mpr hextra.nests
  exact List.forall_mem_cons.mpr ⟨trivial, List.forall_mem_cons.mpr ⟨hmembers,
    List.forall_mem_cons.mpr ⟨trivial, fun _ h => nomatch h⟩⟩⟩

/-- A portable reference is parsed back from its literal.
Every reference that is parsed from a text whose numbers are integers of 64 bits is portable, so
that parsing its literal gives it once more. -/
theorem portable_round_trip :
    (∀ r : Reference, r.Portable → ∃ literal, r.render = .ok literal ∧ parse literal = .ok r) ∧
      ∀ (text : String) (r : Reference), IntegersOnly text → parse text = .ok r →
        r.Portable ∧ ∃ literal, r.render = .ok literal ∧ parse literal = .ok r := by
  refine ⟨fun r h => h.parse_render, fun text r hints h => ?_⟩
  have hportable := portable_of_parse hints h
  exact ⟨hportable, hportable.parse_render⟩

/-- A reference with a list among the members handed through. -/
def sample : Reference where
  entryPoint := "loader"
  options := ⟨.ofString "/p", .message, [("a", .arr [.int (-1), .str "\n"])]⟩
  source := .ofString "/p/x"

theorem sample_portable : sample.Portable where
  entryPoint := by decide
  source := ⟨"/p/x", Path.toString?_ofString _⟩
  basePath := ⟨"/p", Path.toString?_ofString _⟩
  baseGiven := rfl
  mode := rfl
  extra := by
    refine .obj (List.pairwise_singleton _ _) (List.forall_mem_singleton.mpr (.arr ?_))
    exact List.forall_mem_cons.mpr ⟨.int (by decide) (by decide),
      List.forall_mem_singleton.mpr (.str _)⟩
  keys := by decide
  nests := by decide

theorem sample_integersOnly : sample.tree.IntegersOnly := by
  have hnumber : IsInteger ['-', '1'] := ⟨-1, by decide, by decide, rfl⟩
  have hextra : (Tree.arr [.number ['-', '1'], .str "\n"]).IntegersOnly :=
    .arr (List.forall_mem_cons.mpr ⟨.number hnumber, List.forall_mem_singleton.mpr (.str _)⟩)
  refine .arr (List.forall_mem_cons.mpr ⟨.str _, List.forall_mem_cons.mpr ⟨?_,
    List.forall_mem_singleton.mpr (.str _)⟩⟩)
  exact .obj (List.forall_mem_cons.mpr ⟨.str _, List.forall_mem_cons.mpr ⟨.str _,
    List.forall_mem_singleton.mpr hextra⟩⟩)

theorem portable_round_trip_sample :
    ∃ literal, sample.render = .ok literal ∧ IntegersOnly literal ∧
      parse literal = .ok sample ∧ sample.Portable := by
  obtain ⟨literal, hrender, hparse⟩ := portable_round_trip.1 sample sample_portable
  obtain ⟨text, htext, rfl⟩ := render_eq_ok hrender
  have hints : IntegersOnly (String.ofList text) := by
    intro t ht
    rw [strip_ofList htext] at ht
    exact ht.unique (spellsAll_print htext) ▸ sample_integersOnly
  exact ⟨_, hrender, hints, hparse, (portable_round_trip.2 _ sample hints hparse).1⟩

end Reference

end StubLoader
