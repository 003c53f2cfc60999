import StubLoader.Proofs.Path.Canonical
import StubLoader.Proofs.Path.Names
import StubLoader.Proofs.Stub.Redirect
/-!
# The sibling of a module

A stub names its codec by a way that climbs from the directory of the module to the output directory
and goes down again by the same names:

    d₁/…/dₖ/file    ↦    "../…/../d₁/…/dₖ/file_pb"

Seen from the directory of the module the way leads to the codec, and to that of no other module: a
literal holds no other one, since it has no quotes but its own, and the names that it ends in are
those of the module.
-/

namespace StubLoader

namespace Path

/-! ### Up and down again -/

/-- As many steps up as there were names lead back, wherever the names began. -/
theorem foldl_named_climb (names : List String) : ∀ done : List Component,
    (named names ++ List.replicate names.length Component.parent).foldl foldStep done = done := by
  induction names with
  | nil => intro done; rfl
  | cons name names ih =>
    intro done
    have hlast : named (name :: names) ++ List.replicate (name :: names).length Component.parent =
        .name (Utf8.ofString name) ::
          (named names ++ List.replicate names.length .parent ++ [.parent]) := by
      simp [named, List.replicate_succ']
    -- the name that was taken first is the last one to be given back
    rw [hlast, List.foldl_cons, List.foldl_append, ih]
    cases done with
    | nil => rfl
    | cons c done => cases c <;> rfl

theorem folded_named (names : List String) : Folded (named names).reverse := by
  induction names using List.reverseRecOn with
  | nil => exact .climb 0
  | append_singleton names name ih =>
    rw [named_append, List.reverse_append]
    exact ih.name (Utf8.ofString name)

theorem bytes_named (names : List String) :
    (named names).map Component.bytes = names.map Utf8.ofString := by
  simp [named, Component.bytes]

theorem wellFormed_named {names : List String} (h : ∀ name ∈ names, IsName name) :
    ∀ c ∈ named names, c.WellFormed ∧ c ≠ .root ∧ c ≠ .current := by
  intro c hc
  obtain ⟨name, hname, rfl⟩ := List.mem_map.mp hc
  exact ⟨(h name hname).wellFormed, by simp, by simp⟩

theorem Spelled.ofComponents_eq {names : List String} {text : String} (h : Spelled names text) :
    ofComponents (named names) = ofString text := by
  rw [ofComponents_relative (wellFormed_named h.isName), bytes_named, ← ofString_intercalate,
    ← h.text_eq]
  rfl

theorem components_named {names : List String} (h : ∀ name ∈ names, IsName name) :
    components ⟨joinSegments (names.map Utf8.ofString)⟩ = named names := by
  rw [← bytes_named]
  exact components_joinSegments (wellFormed_named h)

/-! ### The directory of a module -/

/-- Names are not idle, so none of them is dropped. -/
theorem dropIdle_names : ∀ {ss : List Bytes}, (∀ s ∈ ss, (Component.name s).WellFormed) →
    dropIdle ss = ss
  | [], _ => rfl
  | [s], h => by simp [dropIdle, (h s List.mem_cons_self).1]
  | s :: t :: ss, h => by
    have hs := h s List.mem_cons_self
    simp [dropIdle, isIdle, hs.1, hs.2.1]

variable {dirs : List String} {file m : String}

/-- The directory of a module has its names without the last one. -/
theorem Spelled.parent?_eq (h : Spelled (dirs ++ [file]) m) :
    (ofString m).parent? = some ⟨joinSegments (dirs.map Utf8.ofString)⟩ := by
  have hwell := h.wellFormed
  have hreverse : (segments (ofString m).bytes).reverse =
      Utf8.ofString file :: (dirs.map Utf8.ofString).reverse := by
    rw [ofString, h.segments_eq]
    simp
  have hall : ∀ s ∈ Utf8.ofString file :: (dirs.map Utf8.ofString).reverse,
      (Component.name s).WellFormed := by
    intro s hs
    refine hwell s ?_
    rw [← List.mem_reverse, ← h.segments_eq]
    exact hreverse ▸ hs
  have hdirs := (List.forall_mem_cons.mp hall).2
  rw [parent?, hreverse, dropIdle_names hall]
  dsimp only
  rw [dropIdle_names hdirs]
  rcases List.eq_nil_or_concat dirs with rfl | ⟨front, dir, rfl⟩
  · simp [h.isAbsolute_eq, joinSegments]
  · simp

end Path

namespace Stub

open StubLoader.Path

/-! ### The way to the codec -/

/-- The way that a literal quotes. -/
def siblingPath (modulePath : List Char) : List Char :=
  climb modulePath ++ modulePath ++ ['_', 'p', 'b']

theorem siblingLiteral_eq (modulePath : List Char) :
    siblingLiteral modulePath = '"' :: (siblingPath modulePath ++ ['"']) := by
  simp [siblingLiteral, siblingPath]

/-- A climb has a step up for every slash, and then comes what is written behind it. -/
theorem steps_climb (modulePath rest : List Char) :
    steps ⟨Utf8.encode (climb modulePath ++ rest)⟩ =
      List.replicate (modulePath.count '/') .parent ++ steps ⟨Utf8.encode rest⟩ := by
  have hup : ∀ depth, steps ⟨Utf8.encode ((List.replicate depth ['.', '.', '/']).flatten ++ rest)⟩ =
      List.replicate depth .parent ++ steps ⟨Utf8.encode rest⟩ := by
    intro depth
    induction depth with
    | zero => rfl
    | succ depth ih =>
      rw [List.replicate_succ, List.replicate_succ, List.cons_append, ← ih]
      exact steps_append [dot, dot] _
  unfold climb
  split
  · next hzero =>
    rw [hzero]
    exact steps_append [dot] _
  · exact hup _

theorem isAbsolute_siblingPath (modulePath : List Char) :
    Path.isAbsolute ⟨Utf8.encode (siblingPath modulePath)⟩ = false := by
  unfold siblingPath climb
  split
  · rfl
  · next hdepth =>
    obtain ⟨depth, hsucc⟩ := Nat.exists_eq_succ_of_ne_zero hdepth
    rw [hsucc]
    rfl

section Module

variable {names dirs : List String} {file m : String}

theorem count_slash : ∀ {names : List String}, (∀ name ∈ names, IsName name) →
    ("/".intercalate names).toList.count '/' = names.length - 1
  | [], _ => rfl
  | [name], h => by simpa using List.count_eq_zero.mpr (h name List.mem_cons_self).noSlash
  | name :: other :: names, h => by
    have hname := List.count_eq_zero.mpr (h name List.mem_cons_self).noSlash
    have hrest := count_slash fun n hn => h n (List.mem_cons_of_mem name hn)
    simp [String.intercalate_cons_cons, -String.toList_intercalate, hname, hrest]

/-- What is generated for a module besides its stub. -/
theorem spelled_codec (h : Spelled (dirs ++ [file]) m) :
    Spelled (dirs ++ [file ++ "_pb"]) (m ++ "_pb") := by
  rw [h.text_eq]
  refine .concat_append (fun d hd => h.isName d (by simp [hd])) ?_ (by decide) (by decide)
  exact (h.isName file (by simp)).noSlash

/-- The way has a step up for every directory of the module, and then the names of the codec. -/
theorem steps_siblingPath (h : Spelled (dirs ++ [file]) m) :
    steps ⟨Utf8.encode (siblingPath m.toList)⟩ =
      List.replicate dirs.length .parent ++ named (dirs ++ [file ++ "_pb"]) := by
  have hdepth : m.toList.count '/' = dirs.length := by
    rw [h.text_eq, count_slash h.isName]
    simp
  have hcodec : (⟨Utf8.encode (m.toList ++ ['_', 'p', 'b'])⟩ : Path) = ofString (m ++ "_pb") := by
    simp [ofString, Utf8.ofString]
  rw [siblingPath, List.append_assoc, steps_climb, hdepth, hcodec, (spelled_codec h).steps_eq]

/-- From the directory of a module the way leads to its codec. -/
theorem normalize_join_siblingPath (h : Spelled (dirs ++ [file]) m) :
    (join ⟨joinSegments (dirs.map Utf8.ofString)⟩
      ⟨Utf8.encode (siblingPath m.toList)⟩).normalize = ofString (m ++ "_pb") := by
  have hdirs : ∀ d ∈ dirs, IsName d := fun d hd => h.isName d (by simp [hd])
  have hback := foldl_named_climb dirs []
  have hfold : fold (named dirs ++ (List.replicate dirs.length .parent ++
      named (dirs ++ [file ++ "_pb"]))) = named (dirs ++ [file ++ "_pb"]) := by
    rw [← List.append_assoc, fold_append, fold, hback]
    exact (folded_named _).fold
  rw [Path.normalize, fold_join (isAbsolute_siblingPath _), components_named hdirs,
    steps_siblingPath h, hfold, (spelled_codec h).ofComponents_eq]

/-! ### One way for every module -/

/-- The names that a way ends in are those of its module. -/
theorem eq_of_siblingPath_eq {names' : List String} {n : String} (hm : Spelled names m)
    (hn : Spelled names' n) (h : siblingPath m.toList = siblingPath n.toList) : m = n := by
  have hclimb : climb m.toList ++ m.toList = climb n.toList ++ n.toList :=
    List.append_cancel_right h
  have hsteps (names : List String) (m : String) (hm : Spelled names m) :
      (steps ⟨Utf8.encode (climb m.toList ++ m.toList)⟩).filter Component.isName = named names := by
    have htail : steps ⟨Utf8.encode m.toList⟩ = named names := hm.steps_eq
    rw [steps_climb, htail, List.filter_append]
    simp [named, Component.isName]
  have hnamed : named names = named names' := by
    rw [← hsteps names m hm, hclimb, hsteps names' n hn]
  rw [hm.text_eq, hn.text_eq, named_injective hnamed]

end Module

/-- Between quotes there is no other text in quotes than the text itself. -/
theorem eq_of_infix_quoted {q r : List Char} (hr : '"' ∉ r)
    (h : '"' :: (q ++ ['"']) <:+: '"' :: (r ++ ['"'])) : q = r := by
  obtain ⟨before, behind, h⟩ := h
  cases before with
  | cons c before =>
    -- the outer quotes would be one too many beside the inner ones
    have hcount := congrArg (List.count '"') h
    obtain ⟨rfl, -⟩ := List.cons.inj h
    have hnone := List.count_eq_zero.mpr hr
    simp at hcount
    omega
  | nil =>
    simp only [List.nil_append, List.cons_append, List.append_assoc, List.cons.injEq, true_and] at h
    exact ((List.append_cons_inj_of_notMem hr List.not_mem_nil).mp h.symm).1.symm

/-- A module's literal quotes a relative way, which leads from the directory of the module to its
codec, below the output directory. No literal holds that of another module, if no quote is in the
path of its own. -/
theorem siblingLiteral_leads_to_codec {names : List String} {m : String} (h : Spelled names m) :
    (∃ (way : List Char) (directory : Path),
      siblingLiteral m.toList = '"' :: (way ++ ['"']) ∧
      Path.isAbsolute ⟨Utf8.encode way⟩ = false ∧
      (ofString m).parent? = some directory ∧
      (directory.join ⟨Utf8.encode way⟩).normalize = ofString (m ++ "_pb")) ∧
    ∀ (names' : List String) (n : String), Spelled names' n → '"' ∉ n.toList → m ≠ n →
      ¬siblingLiteral m.toList <:+: siblingLiteral n.toList := by
  constructor
  · rcases List.eq_nil_or_concat names with rfl | ⟨dirs, file, rfl⟩
    · exact absurd rfl h.ne_nil
    · rw [List.concat_eq_append] at h
      exact ⟨_, _, siblingLiteral_eq _, isAbsolute_siblingPath _, h.parent?_eq,
        normalize_join_siblingPath h⟩
  · intro names' n hn hquote hne hinfix
    rw [siblingLiteral_eq, siblingLiteral_eq] at hinfix
    have hway : '"' ∉ siblingPath n.toList := by
      intro hmem
      simp only [siblingPath, List.mem_append] at hmem
      rcases hmem with (hmem | hmem) | hmem
      · rcases mem_climb hmem with heq | heq <;> cases heq
      · exact hquote hmem
      · revert hmem
        decide
    exact hne (eq_of_siblingPath_eq h hn (eq_of_infix_quoted hway hinfix))

/-- A file in a directory, and one of the same name above it. -/
theorem siblingLiteral_leads_to_codec_sample :
    (∃ (way : List Char) (directory : Path),
      siblingLiteral "x/a".toList = '"' :: (way ++ ['"']) ∧
      Path.isAbsolute ⟨Utf8.encode way⟩ = false ∧
      (ofString "x/a").parent? = some directory ∧
      (directory.join ⟨Utf8.encode way⟩).normalize = ofString "x/a_pb") ∧
    ¬siblingLiteral "x/a".toList <:+: siblingLiteral "a".toList ∧
    ¬siblingLiteral "a".toList <:+: siblingLiteral "x/a".toList := by
  have hname : IsName "a" := ⟨by decide, by decide, by decide, by decide⟩
  have hdir : IsName "x" := ⟨by decide, by decide, by decide, by decide⟩
  have hinner : Spelled ["x", "a"] "x/a" := ⟨by simp, by simp [hname, hdir], by decide⟩
  have houter : Spelled ["a"] "a" := ⟨by simp, by simp [hname], by decide⟩
  obtain ⟨hway, hother⟩ := siblingLiteral_leads_to_codec hinner
  refine ⟨hway, hother ["a"] "a" houter (by decide) (by decide), ?_⟩
  exact (siblingLiteral_leads_to_codec houter).2 ["x", "a"] "x/a" hinner (by decide) (by decide)

end Stub

end StubLoader
