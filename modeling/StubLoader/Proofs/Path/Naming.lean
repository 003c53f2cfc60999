import StubLoader.Proofs.Path.Names
import StubLoader.Proofs.Run.Transcript
/-!
# The names of generated files

A source that is found from the base path by some names, the last one its own, gets a module path of
the same names, the last one cut to its stem:

    base/d₁/…/dₖ/stem.ext    ↦    d₁/…/dₖ/stem    ↦    w/d₁/…/dₖ/stem_pb.js

However base and source are spelled, only their folded steps count. A source has no module path
exactly if it does not lie strictly under its base.
-/

namespace StubLoader

namespace Path

/-! ### Stems -/

theorem dot_not_mem_encode {cs : List Char} (h : '.' ∉ cs) : dot ∉ Utf8.encode cs :=
  fun hmem => h (Utf8.mem_of_mem_encode (by decide) (by decide) hmem)

/-- What is before the last dot of a name is its stem, unless that is nothing. -/
theorem stem_append_dot {s e : Bytes} (hs : s ≠ []) (he : dot ∉ e) : stem (s ++ dot :: e) = s := by
  have hdrop : (s ++ dot :: e).reverse.dropWhile (· != dot) = dot :: s.reverse := by
    rw [List.reverse_append, List.reverse_cons, List.append_assoc, List.dropWhile_append_of_pos]
    · simp
    · intro b hb
      simpa using fun heq : b = dot => he (heq ▸ List.mem_reverse.mp hb)
  unfold stem
  rw [hdrop]
  simp [hs]

/-- A name is its own stem if no dot stands behind its first byte. -/
theorem stem_of_not_mem_tail {s : Bytes} (h : dot ∉ s.tail) : stem s = s := by
  cases s with
  | nil => rfl
  | cons b r =>
    have hdrop : ((b :: r).reverse.dropWhile (· != dot)).drop 1 = [] := by
      rw [List.reverse_cons, List.dropWhile_append_of_pos]
      · rw [List.dropWhile_cons]
        split <;> rfl
      · intro c hc
        simpa using fun heq : c = dot => h (heq ▸ List.mem_reverse.mp hc)
    unfold stem
    rw [hdrop]
    rfl

/-- Behind the first byte of a text a dot stands only if one stands behind the first character. -/
theorem dot_not_mem_tail_encode {cs : List Char} (h : '.' ∉ cs.tail) :
    dot ∉ (Utf8.encode cs).tail := by
  cases cs with
  | nil => exact List.not_mem_nil
  | cons c cs =>
    rw [Utf8.encode, List.flatMap_cons, ← Utf8.encode]
    cases hc : Utf8.encodeChar c with
    | nil =>
      intro hmem
      exact dot_not_mem_encode h (List.mem_of_mem_tail hmem)
    | cons b r =>
      rw [List.cons_append, List.tail_cons, List.mem_append, not_or]
      refine ⟨fun hmem => ?_, dot_not_mem_encode h⟩
      -- a character with a byte below 0x80 has no other byte
      have hsingle := (Utf8.encodeChar_of_mem (hc ▸ List.mem_cons_of_mem b hmem) (by decide)).1
      rw [hc] at hsingle
      cases hsingle
      exact List.not_mem_nil hmem

/-- The files with a given stem: the one that is named by it, if it has no dot behind its first
character, and those that have an extension as well. -/
inductive HasStem (stem : String) : String → Prop where
  | bare (h : '.' ∉ stem.toList.tail) : HasStem stem stem
  | extended {ext : String} (hdot : '.' ∉ ext.toList) (hslash : '/' ∉ ext.toList) :
    HasStem stem (stem ++ "." ++ ext)

theorem HasStem.stem_eq {name file : String} (h : HasStem name file) (hname : name ≠ "") :
    stem (Utf8.ofString file) = Utf8.ofString name := by
  cases h with
  | bare h => exact stem_of_not_mem_tail (dot_not_mem_tail_encode h)
  | extended hdot hslash =>
    rw [Utf8.ofString_append, Utf8.ofString_append, List.append_assoc]
    exact stem_append_dot (fun heq => hname (Utf8.ofString_inj heq)) (dot_not_mem_encode hdot)

end Path

namespace Output

open StubLoader.Path

/-! ### Module paths -/

section Named

variable {base source : Path} {dirs : List String} {stem file : String}

theorem moduleSteps_named (hstem : IsName stem) (hfile : HasStem stem file) :
    moduleSteps (named (dirs ++ [file])) = named (dirs ++ [stem]) := by
  have hlast : (named (dirs ++ [file])).getLast? = some (.name (Utf8.ofString file)) := by
    rw [named_append]
    exact List.getLast?_concat
  have hfront : (named (dirs ++ [file])).dropLast = named dirs := by
    rw [named_append]
    exact List.dropLast_concat
  unfold moduleSteps
  rw [hlast]
  dsimp only
  rw [hfront, hfile.stem_eq hstem.ne_empty, ofSegment?_of_wellFormed hstem.wellFormed, named_append]
  rfl

/-- A source that is found from the base by names has the module path of these names. -/
theorem modulePath_named (hstem : IsName stem) (hfile : HasStem stem file)
    (hsource : source.normalize.components =
      base.normalize.components ++ named (dirs ++ [file])) :
    modulePath base source = .ok ("/".intercalate (dirs ++ [stem])) := by
  have hbelow : (named (dirs ++ [file])).isEmpty = false := by
    rw [named_append]
    simp [named]
  unfold modulePath
  dsimp only
  rw [hsource, if_pos (List.isPrefixOf_iff_prefix.mpr (List.prefix_append _ _)), List.drop_left,
    hbelow, moduleSteps_named hstem hfile, toSlash_named]
  rfl

end Named

/-- A source has no module path exactly if it does not lie strictly under its base. -/
theorem modulePath_eq_error_iff (base source : Path) :
    (∃ fault, modulePath base source = .error fault) ↔
      ¬source.normalize.StrictlyUnder base.normalize := by
  have hnormal : modulePath base source = modulePath base.normalize source.normalize := by
    unfold modulePath
    rw [normalize_normalize, normalize_normalize]
  have hbase := normalize_normalize base
  have hsource := normalize_normalize source
  rw [hnormal]
  constructor
  · rintro ⟨fault, hfault⟩
    exact modulePath_eq_error hbase hsource hfault
  · intro hnot
    cases hmodule : modulePath base.normalize source.normalize with
    | error fault => exact ⟨fault, rfl⟩
    | ok m => exact absurd (modulePath_eq_ok hbase hsource hmodule) hnot

/-! ### Generated files -/

theorem segments_generated {dirs : List String} {stem : String} (hdirs : ∀ d ∈ dirs, IsName d)
    (hstem : IsName stem) (mode : Mode) :
    segments (Utf8.ofString ("/".intercalate (dirs ++ [stem]) ++ suffix mode)) =
      (dirs ++ [stem ++ suffix mode]).map Utf8.ofString :=
  (spelled_generated hdirs hstem.noSlash mode).segments_eq

/-- A source that is found from the base path by names has their module path, with the last of them
cut to its stem, and what is generated for it is found from every directory by the same names, with
the suffix of the mode behind the last. A source has no module path, and that is a fault of the
options, exactly if it does not lie strictly under its base. -/
theorem generated_named_after_source {base source : Path} {dirs : List String} {stem file : String}
    (hdirs : ∀ d ∈ dirs, IsName d) (hstem : IsName stem) (hfile : HasStem stem file)
    (hsource : source.normalize.components =
      base.normalize.components ++ named (dirs ++ [file])) :
    (modulePath base source = .ok ("/".intercalate (dirs ++ [stem])) ∧
      ∀ mode, resolve base source mode =
          .ok ("/".intercalate (dirs ++ [stem]) ++ suffix mode) ∧
        ∀ w : Path, (locate w ("/".intercalate (dirs ++ [stem]) ++ suffix mode)).components =
          w.components ++ named (dirs ++ [stem ++ suffix mode])) ∧
    ∀ base source : Path, (∃ fault, modulePath base source = .error fault) ↔
      ¬source.normalize.StrictlyUnder base.normalize := by
  have hmodule := modulePath_named hstem hfile hsource
  refine ⟨⟨hmodule, fun mode => ⟨?_, fun w => ?_⟩⟩, modulePath_eq_error_iff⟩
  · rw [resolve, hmodule]
    rfl
  · rw [components_generated hmodule, segments_generated hdirs hstem, List.map_map]
    rfl

/-- A hidden file with two extensions, below a base and by a way that are both spelled oddly. -/
theorem generated_named_after_source_sample :
    modulePath (.ofString "/p//q/..") (.ofString "/./x/../p/d//.a.b.proto") = .ok "d/.a.b" ∧
      (locate (.ofString "w/") "d/.a.b_pb_service.js").components =
        named ["w", "d", ".a.b_pb_service.js"] := by
  have hdirs : ∀ d ∈ ["d"], IsName d := by
    intro d hd
    rw [List.mem_singleton.mp hd]
    exact ⟨by decide, by decide, by decide, by decide⟩
  have hstem : IsName ".a.b" := ⟨by decide, by decide, by decide, by decide⟩
  have hfile : HasStem ".a.b" ".a.b.proto" :=
    @HasStem.extended ".a.b" "proto" (by decide) (by decide)
  have hsource : (Path.ofString "/./x/../p/d//.a.b.proto").normalize.components =
      (Path.ofString "/p//q/..").normalize.components ++ named ["d", ".a.b.proto"] := by
    decide +kernel
  obtain ⟨⟨hmodule, hgenerated⟩, -⟩ :=
    generated_named_after_source hdirs hstem hfile hsource
  exact ⟨hmodule, (hgenerated .service).2 (.ofString "w/")⟩

end Output

end StubLoader
