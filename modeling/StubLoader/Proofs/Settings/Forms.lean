import StubLoader.Proofs.Reference.Literal
import StubLoader.Proofs.Settings.Reading
/-!
# The forms of settings

Settings are written as an object of all fields. They are read from an object of some of them, in
any order and among members that are not known, and from an array of the first few values. Whatever
the form, what is not given has its standard value.
-/

namespace StubLoader.Settings

open Json

/-! ### Fields -/

/-- The fields of settings, in the order in which they are declared. -/
inductive Field where
  | compiler
  | plugin
  | pluginName
  | entryPoint
  | workspaceLabel
  | tempRoot
  | maxConcurrentRuns
  deriving DecidableEq

/-- All fields in order. -/
def Field.all : List Field :=
  [.compiler, .plugin, .pluginName, .entryPoint, .workspaceLabel, .tempRoot, .maxConcurrentRuns]

/-- The key of a field. -/
def Field.key : Field → String
  | .compiler => "compiler"
  | .plugin => "plugin"
  | .pluginName => "plugin_name"
  | .entryPoint => "entry_point"
  | .workspaceLabel => "workspace_prefix"
  | .tempRoot => "temp_root"
  | .maxConcurrentRuns => "max_concurrent_runs"

theorem Field.mem_all (f : Field) : f ∈ Field.all := by
  cases f <;> decide

/-- What the value of a field says. -/
def value (s : Settings) : Field → Tree
  | .compiler => s.compiler.tree
  | .plugin => s.plugin.tree
  | .pluginName => .str s.pluginName
  | .entryPoint => .str s.entryPoint
  | .workspaceLabel => .str s.workspaceLabel
  | .tempRoot => s.tempRoot.elim .null Path.tree
  | .maxConcurrentRuns => .number (printInt s.maxConcurrentRuns)

/-- The paths are texts, and the number of runs is one of 64 bits. -/
structure Printable (s : Settings) : Prop where
  compiler : ∃ path, s.compiler.toString? = some path
  plugin : ∃ path, s.plugin.toString? = some path
  tempRoot : ∀ p, s.tempRoot = some p → ∃ path, p.toString? = some path
  maxConcurrentRuns : s.maxConcurrentRuns < UInt64.size

/-- The draft to which the fields were given. -/
def drafted (s : Settings) (fields : List Field) : Draft where
  compiler := if .compiler ∈ fields then some s.compiler else none
  plugin := if .plugin ∈ fields then some s.plugin else none
  pluginName := if .pluginName ∈ fields then some s.pluginName else none
  entryPoint := if .entryPoint ∈ fields then some s.entryPoint else none
  workspaceLabel := if .workspaceLabel ∈ fields then some s.workspaceLabel else none
  tempRoot := if .tempRoot ∈ fields then some s.tempRoot else none
  maxConcurrentRuns := if .maxConcurrentRuns ∈ fields then some s.maxConcurrentRuns else none

/-- The settings with the fields listed taken from `s'`. -/
def replace (s : Settings) (fields : List Field) (s' : Settings) : Settings where
  compiler := if .compiler ∈ fields then s'.compiler else s.compiler
  plugin := if .plugin ∈ fields then s'.plugin else s.plugin
  pluginName := if .pluginName ∈ fields then s'.pluginName else s.pluginName
  entryPoint := if .entryPoint ∈ fields then s'.entryPoint else s.entryPoint
  workspaceLabel := if .workspaceLabel ∈ fields then s'.workspaceLabel else s.workspaceLabel
  tempRoot := if .tempRoot ∈ fields then s'.tempRoot else s.tempRoot
  maxConcurrentRuns :=
    if .maxConcurrentRuns ∈ fields then s'.maxConcurrentRuns else s.maxConcurrentRuns

theorem complete_drafted (s : Settings) (fields : List Field) :
    (s.drafted fields).complete = standard.replace fields s := by
  have hgetD : ∀ {α : Type} (p : Prop) [Decidable p] (v w : α),
      (if p then some v else none).getD w = if p then v else w := by
    intro α p _ v w
    split_ifs <;> rfl
  simp only [Draft.complete, drafted, replace, hgetD]

theorem replace_all (s s' : Settings) : s.replace Field.all s' = s' := by
  simp only [replace, Field.mem_all, if_true]

/-! ### Values read back -/

theorem tree_ofString (path : String) : (Path.ofString path).tree = .str path := by
  rw [Path.tree, Path.toString?_ofString, Option.getD_some]

theorem path?_tree {p : Path} (h : ∃ path, p.toString? = some path) : path? p.tree = some p := by
  obtain ⟨s, hs⟩ := h
  rw [Path.tree, hs, path?, Tree.text?, Option.map_some, Option.getD_some, ← Path.eq_ofString hs]

theorem tempRoot?_value {s : Settings} (h : s.Printable) :
    tempRoot? (s.value .tempRoot) = some s.tempRoot := by
  cases hp : s.tempRoot with
  | none => rw [value, hp]; rfl
  | some p =>
    rw [value, hp]
    exact congrArg (Option.map some) (path?_tree (h.tempRoot p hp))

/-- A field not given before is taken. -/
theorem take?_field {s : Settings} (h : s.Printable) {fields : List Field} {f : Field}
    (hf : f ∉ fields) :
    (s.drafted fields).take? (f.key, s.value f) = some (s.drafted (f :: fields)) := by
  cases f with
  | compiler =>
    simp [Draft.take?, Field.key, drafted, hf, value, path?_tree h.compiler]
  | plugin =>
    simp [Draft.take?, Field.key, drafted, hf, value, path?_tree h.plugin]
  | pluginName | entryPoint | workspaceLabel =>
    simp [Draft.take?, Field.key, drafted, hf, value, Tree.text?]
  | tempRoot => simp [Draft.take?, Field.key, drafted, hf, tempRoot?_value h]
  | maxConcurrentRuns =>
    simp [Draft.take?, Field.key, drafted, hf, value,
      Tree.natural?_printInt h.maxConcurrentRuns]

/-- A member that is not known changes nothing. -/
theorem take?_unknown (d : Draft) {key : String} {t : Tree} (hkey : ∀ f : Field, key ≠ f.key)
    (ht : t.Unpadded) : d.take? (key, t) = some d := by
  have h₁ : key ≠ "compiler" := hkey .compiler
  have h₂ : key ≠ "plugin" := hkey .plugin
  have h₃ : key ≠ "plugin_name" := hkey .pluginName
  have h₄ : key ≠ "entry_point" := hkey .entryPoint
  have h₅ : key ≠ "workspace_prefix" := hkey .workspaceLabel
  have h₆ : key ≠ "temp_root" := hkey .tempRoot
  have h₇ : key ≠ "max_concurrent_runs" := hkey .maxConcurrentRuns
  simp [Draft.take?, ht]

/-! ### Objects -/

/-- The members are those of the fields, in the order in which these are listed, with any others
between them. -/
inductive Names (s : Settings) : List Field → List (String × Tree) → Prop where
  | nil : Names s [] []
  | field (f : Field) {fields : List Field} {ms : List (String × Tree)} (h : Names s fields ms) :
    Names s (f :: fields) ((f.key, s.value f) :: ms)
  | other {key : String} (t : Tree) {fields : List Field} {ms : List (String × Tree)}
    (hkey : ∀ f : Field, key ≠ f.key) (h : Names s fields ms) : Names s fields ((key, t) :: ms)

theorem names_all (s : Settings) : ∀ fields : List Field,
    s.Names fields (fields.map fun f => (f.key, s.value f))
  | [] => .nil
  | f :: fields => .field f (names_all s fields)

theorem drafted_congr (s : Settings) {fields fields' : List Field}
    (h : ∀ f, f ∈ fields ↔ f ∈ fields') : s.drafted fields = s.drafted fields' := by
  simp only [drafted, h]

/-- The members are taken one after the other. -/
theorem Names.foldlM_take? {s : Settings} (hs : s.Printable) {fields : List Field}
    {ms : List (String × Tree)} (h : s.Names fields ms) : ∀ {given : List Field},
      (fields ++ given).Nodup → (∀ m ∈ ms, m.2.Unpadded) →
        ms.foldlM Draft.take? (s.drafted given) = some (s.drafted (fields ++ given)) := by
  induction h with
  | nil => exact fun _ _ => rfl
  | @field f fields ms _ ih =>
    intro given hnodup hms
    obtain ⟨hf, hnodup'⟩ := List.nodup_cons.mp hnodup
    have hnew : f ∉ given := fun h => hf (List.mem_append_right _ h)
    have hmove : (fields ++ f :: given).Nodup := List.perm_middle.nodup_iff.mpr hnodup
    rw [List.foldlM_cons, take?_field hs hnew, Option.bind_eq_bind, Option.bind_some,
      ih hmove fun m hm => hms m (List.mem_cons_of_mem _ hm)]
    exact congrArg some (drafted_congr s fun _ => List.perm_middle.mem_iff)
  | other t hkey _ ih =>
    intro given hnodup hms
    rw [List.foldlM_cons, take?_unknown _ hkey (hms _ List.mem_cons_self), Option.bind_eq_bind,
      Option.bind_some, ih hnodup fun m hm => hms m (List.mem_cons_of_mem _ hm)]

theorem ofTree?_obj {s : Settings} (hs : s.Printable) {fields : List Field}
    {ms : List (String × Tree)} (h : s.Names fields ms) (hnodup : fields.Nodup)
    (hms : ∀ m ∈ ms, m.2.Unpadded) :
    ofTree? (.obj ms) = some (standard.replace fields s) := by
  have hfold : ms.foldlM Draft.take? (s.drafted []) = some (s.drafted (fields ++ [])) :=
    h.foldlM_take? hs (by rwa [List.append_nil]) hms
  rw [List.append_nil] at hfold
  exact (congrArg (Option.map Draft.complete) hfold).trans
    (congrArg some (complete_drafted s fields))

/-! ### Arrays -/

theorem ofItems?_take {s : Settings} (h : s.Printable) (k : Nat) :
    ofItems? ((Field.all.take k).map s.value) = some (s.drafted (Field.all.take k)) := by
  have hcompiler : path? (s.value .compiler) = some s.compiler := path?_tree h.compiler
  have hplugin : path? (s.value .plugin) = some s.plugin := path?_tree h.plugin
  have htemp := tempRoot?_value h
  have hname : (s.value .pluginName).text? = some s.pluginName := rfl
  have hentry : (s.value .entryPoint).text? = some s.entryPoint := rfl
  have hlabel : (s.value .workspaceLabel).text? = some s.workspaceLabel := rfl
  have hcount : (s.value .maxConcurrentRuns).natural? = some s.maxConcurrentRuns :=
    Tree.natural?_printInt h.maxConcurrentRuns
  match k with
  | 0 | 1 | 2 | 3 | 4 | 5 | 6 | k + 7 =>
    simp [ofItems?, part?, Field.all, drafted, hcompiler, hplugin, hname, hentry, hlabel, htemp,
      hcount]

theorem ofTree?_arr {s : Settings} (h : s.Printable) (k : Nat) :
    ofTree? (.arr ((Field.all.take k).map s.value)) =
      some (standard.replace (Field.all.take k) s) :=
  (congrArg (Option.map Draft.complete) (ofItems?_take h k)).trans
    (congrArg some (complete_drafted s _))

/-! ### Texts -/

/-- A text that says what a tree says is parsed as the settings that the tree stands for. -/
theorem parse_of_ofTree? {t : Tree} {text : String} {s : Settings} (h : SpellsAll t text.toList)
    (hs : ofTree? t = some s) : parse text = .ok s := by
  have hread := readAll_toOption reads_read h
  rw [hs] at hread
  rw [parse, toOption_eq_some.mp hread]
  rfl

theorem exists_printPath {p : Path} (h : ∃ path, p.toString? = some path) :
    ∃ text, Options.printPath p = .ok text ∧ Writes text p.tree := by
  obtain ⟨s, hs⟩ := h
  have hprint : Options.printPath p = .ok (printString s) := by rw [Options.printPath, hs]
  exact ⟨_, hprint, Options.writes_printPath hprint⟩

/-- The text of the place for scratch directories. -/
def printTempRoot : Option Path → Except DocumentFault (List Char)
  | none => .ok Json.null.print
  | some p => Options.printPath p

theorem Printable.exists_printTempRoot {s : Settings} (h : s.Printable) :
    ∃ text, printTempRoot s.tempRoot = .ok text ∧ Writes text (s.value .tempRoot) := by
  cases hroot : s.tempRoot with
  | none => exact ⟨_, rfl, by rw [value, hroot]; exact writes_print .null⟩
  | some p =>
    rw [value, hroot]
    exact exists_printPath (h.tempRoot p hroot)

/-- What the members of a text of settings are. -/
theorem print_eq {s : Settings} {compiler plugin tempRoot : List Char}
    (hcompiler : Options.printPath s.compiler = .ok compiler)
    (hplugin : Options.printPath s.plugin = .ok plugin)
    (htemp : printTempRoot s.tempRoot = .ok tempRoot) :
    s.print = .ok ('\x7b' :: commaSeparated [printMember "compiler" compiler,
      printMember "plugin" plugin, printMember "plugin_name" (printString s.pluginName),
      printMember "entry_point" (printString s.entryPoint),
      printMember "workspace_prefix" (printString s.workspaceLabel),
      printMember "temp_root" tempRoot,
      printMember "max_concurrent_runs" (printInt s.maxConcurrentRuns)] ++ ['\x7d']) := by
  unfold Settings.print
  cases hroot : s.tempRoot with
  | none =>
    rw [hroot] at htemp
    cases htemp
    rw [hcompiler, hplugin]
    rfl
  | some p =>
    rw [hroot] at htemp
    have hp : Options.printPath p = .ok tempRoot := htemp
    dsimp only
    rw [hp, hcompiler, hplugin]
    rfl

/-- Printable settings have a text, which spells the object of all their fields. -/
theorem Printable.exists_print {s : Settings} (h : s.Printable) : ∃ text, s.print = .ok text ∧
    Writes text (.obj (Field.all.map fun f => (f.key, s.value f))) := by
  obtain ⟨compiler, hcompiler, hc⟩ := exists_printPath h.compiler
  obtain ⟨plugin, hplugin, hp⟩ := exists_printPath h.plugin
  obtain ⟨tempRoot, htemp, ht⟩ := h.exists_printTempRoot
  refine ⟨_, print_eq hcompiler hplugin htemp, writes_obj ?_⟩
  exact .cons ⟨_, rfl, hc⟩ <| .cons ⟨_, rfl, hp⟩ <| .cons ⟨_, rfl, writes_printString _⟩ <|
    .cons ⟨_, rfl, writes_printString _⟩ <| .cons ⟨_, rfl, writes_printString _⟩ <|
    .cons ⟨_, rfl, ht⟩ <| .cons ⟨_, rfl, writes_number (isNumeral_printInt _)⟩ .nil

theorem Printable.unpadded_value {s : Settings} (h : s.Printable) (f : Field) :
    (s.value f).Unpadded := by
  cases f with
  | compiler | plugin | pluginName | entryPoint | workspaceLabel => exact .str _
  | tempRoot =>
    rw [value]
    cases s.tempRoot with
    | none => exact .null
    | some p => exact .str _
  | maxConcurrentRuns =>
    refine .number fun hpadded => ?_
    have hvalue := literal?_printInt (n := s.maxConcurrentRuns) (by omega)
      (Int.ofNat_lt.mpr h.maxConcurrentRuns)
    rw [hpadded.literal?] at hvalue
    cases hvalue

/-- Printable settings are parsed back from their text. -/
theorem Printable.parse_render {s : Settings} (h : s.Printable) :
    ∃ text, s.render = .ok text ∧ parse text = .ok s := by
  obtain ⟨cs, hprint, hwrites⟩ := h.exists_print
  refine ⟨String.ofList cs, by rw [render, hprint], ?_⟩
  have hspell : SpellsAll (.obj (Field.all.map fun f => (f.key, s.value f)))
      (String.ofList cs).toList := by
    rw [String.toList_ofList]
    exact ⟨[], by simpa using hwrites [], rfl⟩
  have hms : ∀ m ∈ Field.all.map fun f => (f.key, s.value f), (Prod.snd m).Unpadded :=
    List.forall_mem_map.mpr fun f _ => h.unpadded_value f
  have htree := ofTree?_obj h (names_all s Field.all) (by decide) hms
  rw [replace_all] at htree
  exact parse_of_ofTree? hspell htree

/-- An object of fields and other members is parsed as the standard settings with these fields
replaced. -/
theorem Printable.parse_obj {s : Settings} (h : s.Printable) {fields : List Field}
    {ms : List (String × Tree)} {text : String} (hnodup : fields.Nodup) (hms : s.Names fields ms)
    (htext : IsText (.obj ms) text.toList) :
    parse text = .ok (standard.replace fields s) := by
  obtain ⟨hspell, hunpadded⟩ := htext
  refine parse_of_ofTree? hspell (ofTree?_obj h hms hnodup ?_)
  cases hunpadded
  assumption

/-- An array of the first values is parsed as the standard settings with these fields replaced. -/
theorem Printable.parse_arr {s : Settings} (h : s.Printable) (k : Nat) {text : String}
    (htext : IsText (.arr ((Field.all.take k).map s.value)) text.toList) :
    parse text = .ok (standard.replace (Field.all.take k) s) :=
  parse_of_ofTree? htext.1 (ofTree?_arr h k)

/-- The forms of settings agree. Settings are parsed back from their own text. An object that names
some fields, in any order and with any other members between them, stands for the standard settings
with just these fields replaced. An array of the first `k` values stands for the same settings as
an object that names the first `k` fields. -/
theorem settings_forms_agree :
    (∀ s : Settings, s.Printable → ∃ text, s.render = .ok text ∧ parse text = .ok s) ∧
    (∀ (s : Settings) (fields : List Field) (ms : List (String × Tree)) (text : String),
      s.Printable → fields.Nodup → s.Names fields ms → IsText (.obj ms) text.toList →
        parse text = .ok (standard.replace fields s)) ∧
    ∀ (s : Settings) (k : Nat) (ms : List (String × Tree)) (text text' : String), s.Printable →
      IsText (.arr ((Field.all.take k).map s.value)) text.toList →
      s.Names (Field.all.take k) ms → IsText (.obj ms) text'.toList →
        parse text = .ok (standard.replace (Field.all.take k) s) ∧ parse text' = parse text := by
  refine ⟨fun s hs => hs.parse_render, fun s fields ms text hs hnodup hms htext =>
    hs.parse_obj hnodup hms htext, fun s k ms text text' hs htext hms htext' => ?_⟩
  have harr := hs.parse_arr k htext
  have hnodup : (Field.all.take k).Nodup := (List.take_sublist k _).nodup (by decide)
  exact ⟨harr, (hs.parse_obj hnodup hms htext').trans harr.symm⟩

/-- A value without zeros too many is what its text says. -/
theorem isText_render {v : Json} (h : v.tree.Unpadded) : IsText v.tree v.render.toList := by
  refine ⟨⟨[], ?_, rfl⟩, h⟩
  rw [Json.render, String.toList_ofList]
  simpa using writes_print v []

/-- Settings with a place for scratch directories and as many runs as there can be. -/
def sample : Settings where
  compiler := .ofString "/bin/protoc"
  plugin := .ofString "gen"
  pluginName := "gen"
  entryPoint := "a \"b\""
  workspaceLabel := ""
  tempRoot := some (.ofString "/t")
  maxConcurrentRuns := UInt64.size - 1

theorem sample_printable : sample.Printable where
  compiler := ⟨_, Path.toString?_ofString _⟩
  plugin := ⟨_, Path.toString?_ofString _⟩
  tempRoot := by
    rintro p hp
    cases hp
    exact ⟨_, Path.toString?_ofString _⟩
  maxConcurrentRuns := by decide

/-- Two fields of the sample, the later one first, and a member that is not known between them. -/
def mixedMembers : Json := .obj [("max_concurrent_runs", .int (2 ^ 64 - 1)),
  ("retries", .arr [.int 3, .obj [("again", .null)]]), ("compiler", .str "/bin/protoc")]

/-- The first two fields of the sample. -/
def firstMembers : Json := .obj [("compiler", .str "/bin/protoc"), ("plugin", .str "gen")]

/-- The first two values of the sample. -/
def firstItems : Json := .arr [.str "/bin/protoc", .str "gen"]

theorem settings_forms_agree_sample :
    (∃ text, sample.render = .ok text ∧ parse text = .ok sample) ∧
      parse mixedMembers.render =
        .ok { standard with
          compiler := .ofString "/bin/protoc", maxConcurrentRuns := UInt64.size - 1 } ∧
      parse firstItems.render =
        .ok { standard with compiler := .ofString "/bin/protoc", plugin := .ofString "gen" } ∧
      parse firstMembers.render = parse firstItems.render := by
  obtain ⟨hrender, hobj, harr⟩ := settings_forms_agree
  have hcompiler : sample.value .compiler = .str "/bin/protoc" := tree_ofString _
  have hplugin : sample.value .plugin = .str "gen" := tree_ofString _
  have hmixed : sample.Names [.maxConcurrentRuns, .compiler]
      [("max_concurrent_runs", .number (printInt (2 ^ 64 - 1))),
        ("retries", .arr [.number (printInt 3), .obj [("again", .null)]]),
        ("compiler", .str "/bin/protoc")] := by
    refine .field .maxConcurrentRuns (.other _ (fun f => by cases f <;> decide) ?_)
    exact hcompiler ▸ .field .compiler .nil
  have hfirst : sample.Names (Field.all.take 2)
      [("compiler", .str "/bin/protoc"), ("plugin", .str "gen")] :=
    hcompiler ▸ hplugin ▸ .field .compiler (.field .plugin .nil)
  have hitems : (Field.all.take 2).map sample.value = [.str "/bin/protoc", .str "gen"] := by
    rw [← hcompiler, ← hplugin]
    rfl
  have htext : IsText (.arr ((Field.all.take 2).map sample.value)) firstItems.render.toList := by
    rw [hitems]
    exact isText_render (v := firstItems) (by decide)
  obtain ⟨hvalues, hsame⟩ := harr sample 2 _ _ _ sample_printable htext hfirst
    (isText_render (v := firstMembers) (by decide))
  exact ⟨hrender sample sample_printable, hobj sample _ _ _ sample_printable (by decide) hmixed
    (isText_render (v := mixedMembers) (by decide)), hvalues, hsame⟩

end StubLoader.Settings
