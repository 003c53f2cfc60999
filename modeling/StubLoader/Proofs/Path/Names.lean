import StubLoader.Proofs.Path.Joining
/-!
# Names

What is generated for a source is named by names between slashes, whatever base and source are: the
steps of a source below its base are names once the others are left out, and with the suffix behind
it so is what is left of the last one. Such a text is read back as the names that it is made of.
-/

namespace StubLoader

namespace Path

/-! ### Names -/

/-- The text can name a directory or a file. -/
structure IsName (name : String) : Prop where
  ne_empty : name ≠ ""
  ne_dot : name ≠ "."
  ne_dots : name ≠ ".."
  noSlash : '/' ∉ name.toList

/-- The steps to the named entries, one below the other. -/
def named (names : List String) : List Component := names.map fun name => .name (Utf8.ofString name)

theorem named_append (names names' : List String) :
    named (names ++ names') = named names ++ named names' := List.map_append

theorem named_injective : Function.Injective named :=
  List.map_injective_iff.mpr fun _ _ h => Utf8.ofString_inj (Component.name.inj h)

theorem slash_not_mem_ofString {name : String} (h : '/' ∉ name.toList) :
    slash ∉ Utf8.ofString name :=
  fun hmem => h (Utf8.mem_of_mem_encode (by decide) (by decide) hmem)

theorem IsName.wellFormed {name : String} (h : IsName name) :
    (Component.name (Utf8.ofString name)).WellFormed :=
  ⟨fun heq => h.ne_empty (Utf8.ofString_inj heq), fun heq => h.ne_dot (Utf8.ofString_inj heq),
    fun heq => h.ne_dots (Utf8.ofString_inj heq), slash_not_mem_ofString h.noSlash⟩

theorem isName_of_wellFormed {name : String}
    (h : (Component.name (Utf8.ofString name)).WellFormed) : IsName name := by
  obtain ⟨hempty, hdot, hdots, hslash⟩ := h
  refine ⟨?_, ?_, ?_, fun hmem => hslash ?_⟩
  · rintro rfl
    exact hempty rfl
  · rintro rfl
    exact hdot rfl
  · rintro rfl
    exact hdots rfl
  · exact List.mem_flatMap.mpr ⟨'/', hmem, by decide⟩

/-- Names that are shown are joined as they are. -/
theorem toSlash_named (names : List String) : toSlash (named names) = "/".intercalate names := by
  unfold toSlash named
  rw [List.filterMap_map]
  refine congrArg _ (Eq.trans (List.filterMap_congr (g := some) fun name _ => ?_)
    List.filterMap_some)
  exact congrArg some (Utf8.toStringLossy_ofString name)

/-! ### Names between slashes -/

theorem ofString_intercalate : ∀ names : List String,
    Utf8.ofString ("/".intercalate names) = joinSegments (names.map Utf8.ofString)
  | [] => rfl
  | [name] => by simp [joinSegments]
  | name :: other :: names => by
    rw [String.intercalate_cons_cons, Utf8.ofString_append, Utf8.ofString_append,
      ofString_intercalate (other :: names), List.append_assoc]
    rfl

/-- What is written behind joined segments is written behind the last of them. -/
theorem joinSegments_concat_append (suffix : Bytes) : ∀ (ss : List Bytes) (s : Bytes),
    joinSegments (ss ++ [s]) ++ suffix = joinSegments (ss ++ [s ++ suffix])
  | [], _ => rfl
  | [_], _ => by simp [joinSegments]
  | s :: t :: ss, u => by
    have hjoin (last : Bytes) : joinSegments (s :: t :: ss ++ [last]) =
        s ++ slash :: joinSegments (t :: ss ++ [last]) := rfl
    rw [hjoin, hjoin, List.append_assoc, List.cons_append,
      joinSegments_concat_append suffix (t :: ss) u]

theorem intercalate_concat_append (names : List String) (name suffix : String) :
    "/".intercalate (names ++ [name]) ++ suffix = "/".intercalate (names ++ [name ++ suffix]) := by
  apply Utf8.ofString_inj
  simp only [Utf8.ofString_append, ofString_intercalate, List.map_append, List.map_cons,
    List.map_nil]
  exact joinSegments_concat_append ..

/-- The text is these names, with slashes between them. -/
structure Spelled (names : List String) (text : String) : Prop where
  ne_nil : names ≠ []
  isName : ∀ name ∈ names, IsName name
  text_eq : text = "/".intercalate names

section Spelled

variable {names : List String} {text : String} (h : Spelled names text)
include h

theorem Spelled.wellFormed : ∀ s ∈ names.map Utf8.ofString, (Component.name s).WellFormed :=
  List.forall_mem_map.mpr fun name hname => (h.isName name hname).wellFormed

theorem Spelled.segments_eq : segments (Utf8.ofString text) = names.map Utf8.ofString := by
  rw [h.text_eq, ofString_intercalate]
  exact segments_joinSegments (by simpa using h.ne_nil) fun s hs => (h.wellFormed s hs).2.2.2

theorem Spelled.isAbsolute_eq : (ofString text).isAbsolute = false := by
  rw [ofString, h.text_eq, ofString_intercalate]
  cases names with
  | nil => exact absurd rfl h.ne_nil
  | cons name names =>
    obtain ⟨hempty, -, -, hslash⟩ := (h.isName name List.mem_cons_self).wellFormed
    exact isAbsolute_joinSegments hempty hslash _

theorem Spelled.steps_eq : (ofString text).steps = named names := by
  rw [steps, ofString, h.segments_eq, List.filterMap_map, named, ← List.filterMap_eq_map]
  refine List.filterMap_congr fun name hname => ?_
  exact ofSegment?_of_wellFormed (h.isName name hname).wellFormed

/-- The names are what stands between the slashes. -/
theorem Spelled.splitOn_eq : text.toList.splitOn '/' = names.map String.toList := by
  rw [h.text_eq, String.toList_intercalate]
  refine List.splitOn_intercalate '/' ?_ (by simpa using h.ne_nil)
  exact List.forall_mem_map.mpr fun name hname => (h.isName name hname).noSlash

/-- No other names are spelled so. -/
theorem Spelled.names_eq {names' : List String} (h' : Spelled names' text) : names = names' :=
  List.map_injective_iff.mpr (fun _ _ => String.toList_inj.mp)
    (h.splitOn_eq.symm.trans h'.splitOn_eq)

/-- It begins as its first name does, so not with a slash. -/
theorem Spelled.exists_head : ∃ c rest, text.toList = c :: rest ∧ c ≠ '/' := by
  obtain ⟨hne, hnames, rfl⟩ := h
  cases names with
  | nil => exact absurd rfl hne
  | cons name names =>
    have hname := hnames name List.mem_cons_self
    have hfirst : name.toList <+: ("/".intercalate (name :: names)).toList := by
      cases names with
      | nil => simp
      | cons other names => simp [String.intercalate_cons_cons, List.append_assoc]
    cases hchars : name.toList with
    | nil => exact absurd (String.toList_eq_nil_iff.mp hchars) hname.ne_empty
    | cons c cs =>
      rw [hchars] at hfirst
      obtain ⟨rest, hrest⟩ := hfirst
      refine ⟨c, cs ++ rest, hrest.symm, fun heq => hname.noSlash ?_⟩
      rw [hchars, heq]
      exact List.mem_cons_self

end Spelled

/-- With something longer than the other steps behind it, the last name is still a name. -/
theorem Spelled.concat_append {dirs : List String} {stem suffix : String}
    (hdirs : ∀ d ∈ dirs, IsName d) (hstem : '/' ∉ stem.toList) (hslash : '/' ∉ suffix.toList)
    (hlong : 2 < suffix.toList.length) :
    Spelled (dirs ++ [stem ++ suffix]) ("/".intercalate (dirs ++ [stem]) ++ suffix) := by
  refine ⟨by simp, fun name hname => ?_, intercalate_concat_append ..⟩
  rcases List.mem_append.mp hname with hname | hname
  · exact hdirs name hname
  · rw [List.mem_singleton.mp hname]
    have hlength : 2 < (stem ++ suffix).toList.length := by
      rw [String.toList_append, List.length_append]
      omega
    constructor
    case noSlash => simp [hstem, hslash]
    all_goals
      intro heq
      rw [heq] at hlength
      simp at hlength

/-! ### Module paths -/

/-- A name that is shown as a text and written again is a name. -/
theorem wellFormed_ofString_toStringLossy {s : Bytes} (h : (Component.name s).WellFormed) :
    (Component.name (Utf8.ofString (Utf8.toStringLossy s))).WellFormed := by
  obtain ⟨hempty, hdot, hdots, hslash⟩ := h
  obtain ⟨hmem, heq⟩ := Utf8.encode_decodeLossy s
  rw [Utf8.ofString, Utf8.toStringLossy, String.toList_ofList]
  have hother : ∀ t : Bytes, (∀ b ∈ t, b.toNat < 0x80) → s ≠ t →
      Utf8.encode (Utf8.decodeLossy s) ≠ t := by
    rintro t hlow hne rfl
    exact hne (heq hlow).symm
  refine ⟨hother [] (List.forall_mem_nil _) hempty, hother [dot] ?_ hdot,
    hother [dot, dot] ?_ hdots, fun hmem' => hslash (hmem slash hmem' (by decide +kernel))⟩
  · decide +kernel
  · decide +kernel

theorem slash_not_mem_stem {s : Bytes} (h : slash ∉ s) : slash ∉ stem s := by
  unfold stem
  dsimp only
  split_ifs
  · exact h
  · refine fun hmem => h (List.mem_reverse.mp ?_)
    exact (List.dropWhile_sublist _).subset (List.mem_of_mem_drop (List.mem_reverse.mp hmem))

theorem wellFormed_of_mem_moduleSteps {below : List Component} (h : ∀ c ∈ below, c.WellFormed) :
    ∀ c ∈ Output.moduleSteps below, c.WellFormed := by
  unfold Output.moduleSteps
  split
  · next s hlast =>
    have hs : (Component.name s).WellFormed := h _ (List.mem_of_getLast? hlast)
    intro c hc
    rcases List.mem_append.mp hc with hc | hc
    · exact h c (List.dropLast_subset _ hc)
    · exact wellFormed_of_ofSegment? (slash_not_mem_stem hs.2.2.2) (Option.mem_toList.mp hc)
  · exact h

/-- What is joined are the names among the steps, as they are shown. -/
theorem exists_names_toSlash {cs : List Component} (h : ∀ c ∈ cs, c.WellFormed) :
    ∃ names : List String, toSlash cs = "/".intercalate names ∧ ∀ name ∈ names, IsName name := by
  refine ⟨_, rfl, fun name hname => ?_⟩
  obtain ⟨c, hc, hshown⟩ := List.mem_filterMap.mp hname
  cases c with
  | name s =>
    cases hshown
    exact isName_of_wellFormed (wellFormed_ofString_toStringLossy (h _ hc))
  | root | current | parent => cases hshown

end Path

namespace Output

open StubLoader.Path

/-- What is generated for a stem is named by it and the suffix. -/
theorem spelled_generated {dirs : List String} {stem : String} (hdirs : ∀ d ∈ dirs, IsName d)
    (hstem : '/' ∉ stem.toList) (mode : Mode) :
    Spelled (dirs ++ [stem ++ suffix mode])
      ("/".intercalate (dirs ++ [stem]) ++ suffix mode) := by
  refine .concat_append hdirs hstem ?_ ?_
  · cases mode <;> decide
  · cases mode <;> decide

variable {base source : Path} {modulePath : String}

/-- A module path is made of names. -/
theorem exists_names (h : Output.modulePath base source = .ok modulePath) :
    ∃ names : List String, modulePath = "/".intercalate names ∧ ∀ name ∈ names, IsName name := by
  unfold Output.modulePath at h
  dsimp only at h
  split_ifs at h
  cases h
  refine exists_names_toSlash (wellFormed_of_mem_moduleSteps fun c hc => ?_)
  exact wellFormed_of_mem_components (List.mem_of_mem_drop hc)

/-- What is generated is named by names between slashes. -/
theorem exists_spelled (h : Output.modulePath base source = .ok modulePath) (mode : Mode) :
    ∃ names, Spelled names (modulePath ++ suffix mode) := by
  obtain ⟨names, rfl, hnames⟩ := exists_names h
  rcases List.eq_nil_or_concat names with rfl | ⟨dirs, stem, rfl⟩
  · -- nothing is left of the source but the suffix
    exact ⟨_, @spelled_generated [] "" (List.forall_mem_nil _) (by simp) mode⟩
  · rw [List.concat_eq_append] at hnames ⊢
    have hdirs : ∀ d ∈ dirs, IsName d := fun d hd => hnames d (by simp [hd])
    have hstem : IsName stem := hnames stem (by simp)
    exact ⟨_, spelled_generated hdirs hstem.noSlash mode⟩

end Output

namespace Path

/-- The steps to a generated file are names. -/
theorem wellFormed_of_mem_segments {base source : Path} {modulePath : String}
    (h : Output.modulePath base source = .ok modulePath) (mode : Mode) :
    ∀ t ∈ segments (Utf8.ofString (modulePath ++ Output.suffix mode)),
      (Component.name t).WellFormed := by
  obtain ⟨names, hnames⟩ := Output.exists_spelled h mode
  rw [hnames.segments_eq]
  exact hnames.wellFormed

/-- A generated file is found from its directory by names alone. -/
theorem components_generated {base source : Path} {modulePath : String}
    (h : Output.modulePath base source = .ok modulePath) (mode : Mode) (w : Path) :
    (Output.locate w (modulePath ++ Output.suffix mode)).components = w.components ++
      (segments (Utf8.ofString (modulePath ++ Output.suffix mode))).map .name :=
  components_foldl_join_names w (wellFormed_of_mem_segments h mode)

end Path

end StubLoader
