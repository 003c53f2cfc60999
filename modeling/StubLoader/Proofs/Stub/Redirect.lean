import StubLoader.Proofs.Reference.Companion
import StubLoader.Proofs.Stub.Occurrences
/-!
# What is left of a redirected import

A stub that was made is its text with the one import of the codec replaced by the reference, and a
statement that holds the reference once more:

    before  reference  after  line end  merge head  reference  merge tail

The import cannot come back at a seam: it begins and ends with a quote, while a reference begins
with `["` and ends with `"]`, and the merge statement has no quotes of its own. So it stands in the
stub just as often as in the two references, unless the path of the module itself holds one of those
pairs.
-/

namespace StubLoader

open Json

namespace Stub

/-! ### Pairs of characters -/

/-- A pair stands in two texts put together if it does in one of them or at their seam. -/
theorem pair_infix_append_iff {a b : Char} {left right : List Char} :
    [a, b] <:+: left ++ right ↔ [a, b] <:+: left ∨ [a, b] <:+: right ∨
      (left.getLast? = some a ∧ right.head? = some b) := by
  rw [infix_append_iff_straddles (List.cons_ne_nil a [b])]
  have hseam : Straddles [a, b] left right ↔ left.getLast? = some a ∧ right.head? = some b := by
    constructor
    · rintro ⟨p, q, hpq, hp, hq, ⟨before, rfl⟩, ⟨after, rfl⟩⟩
      obtain ⟨c, p, rfl⟩ := List.exists_cons_of_ne_nil hp
      obtain ⟨d, q, rfl⟩ := List.exists_cons_of_ne_nil hq
      cases p with
      | nil => cases hpq; simp
      | cons e p => simp at hpq
    · rintro ⟨hleft, hright⟩
      obtain ⟨before, rfl⟩ := List.getLast?_eq_some_iff.mp hleft
      obtain ⟨after, rfl⟩ := List.head?_eq_some_iff.mp hright
      exact ⟨[a], [b], rfl, by simp, by simp, List.suffix_append _ _, List.prefix_append [b] after⟩
  rw [hseam]

theorem not_pair_infix_of_left {a b : Char} {text : List Char} (h : a ∉ text) :
    ¬[a, b] <:+: text := fun hp => h (hp.subset List.mem_cons_self)

theorem not_pair_infix_of_right {a b : Char} {text : List Char} (h : b ∉ text) :
    ¬[a, b] <:+: text := fun hp => h (hp.subset (by simp))

/-! ### The import -/

/-- The path of a module holds neither of the pairs that a reference begins and ends with. -/
structure Unbracketed (modulePath : List Char) : Prop where
  opening : ¬['[', '"'] <:+: modulePath
  closing : ¬['"', ']'] <:+: modulePath

section Import

variable {modulePath : List Char}

theorem mem_climb {c : Char} (h : c ∈ climb modulePath) : c = '.' ∨ c = '/' := by
  unfold climb at h
  split at h
  · simpa using h
  · obtain ⟨step, hstep, hc⟩ := List.mem_flatten.mp h
    rw [(List.mem_replicate.mp hstep).2] at hc
    simpa using hc

theorem getLast?_climb (modulePath : List Char) : (climb modulePath).getLast? = some '/' := by
  unfold climb
  split
  · rfl
  · next hdepth =>
    obtain ⟨depth, hsucc⟩ := Nat.exists_eq_succ_of_ne_zero hdepth
    rw [hsucc, List.replicate_succ', List.flatten_append]
    simp

theorem head?_siblingLiteral : (siblingLiteral modulePath).head? = some '"' := rfl

theorem getLast?_siblingLiteral : (siblingLiteral modulePath).getLast? = some '"' := by
  rw [siblingLiteral, List.getLast?_append_of_ne_nil _ (by simp)]
  rfl

/-- A pair is in an import only if it is in the path of the module, when nothing else in the import
can be its first or its last character. -/
theorem not_pair_infix_siblingLiteral {a b : Char} (h : ¬[a, b] <:+: modulePath)
    (hhead : ¬[a, b] <:+: '"' :: climb modulePath) (hslash : a ≠ '/') (hunderscore : b ≠ '_')
    (htail : ¬[a, b] <:+: ['_', 'p', 'b', '"']) : ¬[a, b] <:+: siblingLiteral modulePath := by
  have hlast : ('"' :: climb modulePath).getLast? = some '/' := by
    rw [List.getLast?_cons, getLast?_climb]
    rfl
  rw [siblingLiteral, pair_infix_append_iff, pair_infix_append_iff]
  rintro ((hp | hp | ⟨hp, -⟩) | hp | ⟨-, hp⟩)
  · exact hhead hp
  · exact h hp
  · rw [hlast] at hp
    exact hslash (Option.some.inj hp).symm
  · exact htail hp
  · exact hunderscore (Option.some.inj hp).symm

theorem Unbracketed.siblingLiteral (h : Unbracketed modulePath) :
    Unbracketed (siblingLiteral modulePath) := by
  constructor
  · refine not_pair_infix_siblingLiteral h.opening (not_pair_infix_of_left fun hmem => ?_)
      (by decide) (by decide) (by decide)
    rcases List.mem_cons.mp hmem with hq | hmem
    · exact absurd hq (by decide)
    · exact absurd (mem_climb hmem) (by decide)
  · refine not_pair_infix_siblingLiteral h.closing (not_pair_infix_of_right fun hmem => ?_)
      (by decide) (by decide) (by decide)
    rcases List.mem_cons.mp hmem with hq | hmem
    · exact absurd hq (by decide)
    · exact absurd (mem_climb hmem) (by decide)

/-! ### Seams -/

/-- The text begins and ends as a reference does. -/
def Bracketed (reference : List Char) : Prop :=
  ∃ middle, reference = '[' :: '"' :: (middle ++ ['"', ']'])

theorem not_straddles_before (h : Unbracketed modulePath) {reference : List Char}
    (hreference : Bracketed reference) (left right : List Char) :
    ¬Straddles (siblingLiteral modulePath) left (reference ++ right) := by
  obtain ⟨middle, rfl⟩ := hreference
  rintro ⟨p, q, hpq, -, hq, -, hbegins⟩
  rw [List.cons_append, List.cons_append] at hbegins
  obtain ⟨q, rfl, htail⟩ := (List.prefix_cons_iff.mp hbegins).resolve_left hq
  rcases List.prefix_cons_iff.mp htail with rfl | ⟨q, rfl, -⟩
  · have hlast := @getLast?_siblingLiteral modulePath
    rw [hpq] at hlast
    simp at hlast
  · refine h.siblingLiteral.opening (hpq ▸ ?_)
    exact (List.prefix_append ['[', '"'] q).isInfix.trans (List.suffix_append p _).isInfix

theorem not_straddles_after (h : Unbracketed modulePath) {reference : List Char}
    (hreference : Bracketed reference) (right : List Char) :
    ¬Straddles (siblingLiteral modulePath) reference right := by
  obtain ⟨middle, rfl⟩ := hreference
  rintro ⟨p, q, hpq, hp, -, hsuffix, -⟩
  have hend : '[' :: '"' :: (middle ++ ['"', ']']) = '[' :: '"' :: middle ++ ['"'] ++ [']'] := by
    simp
  rw [hend, List.suffix_concat_iff] at hsuffix
  rcases hsuffix with rfl | ⟨p, rfl, hsuffix⟩
  · exact hp rfl
  · rcases List.suffix_concat_iff.mp hsuffix with rfl | ⟨p, rfl, -⟩
    · have hhead := @head?_siblingLiteral modulePath
      rw [hpq] at hhead
      simp at hhead
    · refine h.siblingLiteral.closing (hpq ▸ ?_)
      rw [List.append_assoc p]
      exact (List.suffix_append p ['"', ']']).isInfix.trans (List.prefix_append _ q).isInfix

theorem not_straddles_of_no_quote {right : List Char} (h : '"' ∉ right) (left : List Char) :
    ¬Straddles (siblingLiteral modulePath) left right := by
  rintro ⟨p, q, hpq, -, hq, -, hbegins⟩
  have hlast := @getLast?_siblingLiteral modulePath
  rw [hpq, List.getLast?_append_of_ne_nil _ hq] at hlast
  exact h (hbegins.subset (List.mem_of_getLast? hlast))

theorem count_eq_zero_of_no_quote {text : List Char} (h : '"' ∉ text) :
    count (siblingLiteral modulePath) text = 0 :=
  (count_eq_zero_iff siblingLiteral_ne_nil).mpr fun hp => h (hp.subset List.mem_cons_self)

/-! ### The redirected text -/

/-- In a text whose one import is replaced, the import stands as often as in the reference that is
put there and in the statement that merges its exports. -/
theorem count_redirected (h : Unbracketed modulePath) {text reference : List Char}
    (hreference : Bracketed reference) (hone : count (siblingLiteral modulePath) text = 1) :
    count (siblingLiteral modulePath)
      (endLine (replaceFirst (siblingLiteral modulePath) reference text) ++
        mergeStatement reference) = 2 * count (siblingLiteral modulePath) reference := by
  have hoccurs : siblingLiteral modulePath <:+: text :=
    infix_of_count_ne_zero siblingLiteral_ne_nil (by omega)
  obtain ⟨before, after, rfl, hfirst, hcount, hreplace⟩ :=
    exists_split siblingLiteral_ne_nil hoccurs
  have hbefore : count (siblingLiteral modulePath) before = 0 :=
    (count_eq_zero_iff siblingLiteral_ne_nil).mpr fun hp =>
      hfirst (hp.trans (List.prefix_append _ _).isInfix)
  have hafter : count (siblingLiteral modulePath) after = 0 := by omega
  have hline := endLine_eq (before ++ reference ++ after)
  have hhead : '"' ∉ missingLineEnd (before ++ reference ++ after) ++ mergeHead := by
    unfold missingLineEnd
    split_ifs <;> decide
  generalize missingLineEnd (before ++ reference ++ after) = fill at hline hhead
  have htail : '"' ∉ mergeTail := by decide
  have hparts : endLine (before ++ reference ++ after) ++ mergeStatement reference =
      before ++ (reference ++ (after ++ (fill ++ mergeHead) ++ (reference ++ mergeTail))) := by
    rw [hline, mergeStatement]
    simp only [List.append_assoc]
  rw [hreplace, hparts,
    count_append siblingLiteral_ne_nil (not_straddles_before h hreference _ _),
    count_append siblingLiteral_ne_nil (not_straddles_after h hreference _),
    count_append siblingLiteral_ne_nil (not_straddles_before h hreference _ _),
    count_append siblingLiteral_ne_nil (not_straddles_of_no_quote hhead _),
    count_append siblingLiteral_ne_nil (not_straddles_after h hreference _),
    count_eq_zero_of_no_quote hhead, count_eq_zero_of_no_quote htail, hbefore, hafter]
  omega

end Import

end Stub

/-! ### Made stubs -/

/-- A literal begins with the quote of its entry point and ends with that of its source. -/
theorem Reference.bracketed_of_print {r : Reference} {text : List Char} (h : r.print = .ok text) :
    Stub.Bracketed text := by
  obtain ⟨options, source, -, hsource, rfl⟩ := print_eq_ok h
  obtain ⟨s, -, rfl⟩ := Options.printPath_eq_ok hsource
  refine ⟨r.entryPoint.toList.flatMap escape ++ '"' :: ',' :: options ++ ',' :: '"' ::
    s.toList.flatMap escape, ?_⟩
  simp [commaSeparated, printString]

/-- The path of a request's module, seen from the current directory. -/
def Request.HasModulePath (request : Request) (cwd : Path) (modulePath : String) : Prop :=
  ∃ base, request.options.resolvedBasePath cwd = .ok base ∧
    Output.modulePath base request.source.normalize = .ok modulePath

/-- A stub is a text in which the import stands once, redirected. -/
theorem Transcript.redirected {p : Pipeline} {request : Request} {xs : List Exchange}
    {result : Outcome Bytes} {artifact : Bytes} (h : Transcript p request xs result)
    (hresult : result = .ok artifact) (hservice : request.mode = .service) :
    ∃ modulePath literal text, request.HasModulePath p.cwd modulePath ∧
      (Reference.companion p.settings.entryPoint request).print = .ok literal ∧
      Stub.count (Stub.siblingLiteral modulePath.toList) text = 1 ∧
      artifact = Utf8.encode (Stub.endLine
        (Stub.replaceFirst (Stub.siblingLiteral modulePath.toList) literal text) ++
          Stub.mergeStatement literal) := by
  cases h with
  | notCreated e => cases hresult
  | created h answer =>
    obtain rfl := concluded_eq_ok hresult
    cases h with
    | read hbase _ _ hmodule hprocessed =>
      cases hprocessed with
      | verbatim hmode => rw [hservice] at hmode; cases hmode
      | redirected _ _ hliteral hone => exact ⟨_, _, _, ⟨_, hbase, hmodule⟩, hliteral, hone, rfl⟩

namespace Pipeline

variable {σ : Type} {host : Host σ} {p : Pipeline} {request : Request}

/-- In a stub that was made the import of its module stands twice as often as in the literal of its
reference, so not at all unless the literal brings it along; and to redirect the stub once more
always fails, with that count. This holds of every module whose path has neither `["` nor `"]` in
it. -/
theorem import_only_in_reference (hservice : request.mode = .service) {again : Nat} {s t : σ}
    {out : Bytes} {notices : List Notice}
    (h : p.drive host request again s = (.finished (.ok out), notices, t)) :
    ∃ modulePath literal text, request.HasModulePath p.cwd modulePath ∧
      (Reference.companion p.settings.entryPoint request).print = .ok literal ∧
      Utf8.decode out = .ok text ∧
      (Stub.Unbracketed modulePath.toList →
        (Stub.siblingLiteral modulePath.toList <:+: text ↔
          Stub.siblingLiteral modulePath.toList <:+: literal) ∧
        Stub.count (Stub.siblingLiteral modulePath.toList) text =
          2 * Stub.count (Stub.siblingLiteral modulePath.toList) literal ∧
        ∀ reference, Stub.redirect text modulePath.toList reference =
          .error (.stubImport (String.ofList (Stub.siblingLiteral modulePath.toList))
            (Stub.count (Stub.siblingLiteral modulePath.toList) text))) := by
  obtain ⟨ds, hdrive⟩ := Run.exists_ledger h
  obtain ⟨xs, htranscript, -⟩ := transcript_of_drive hdrive
  obtain ⟨modulePath, literal, text, hmodule, hliteral, hone, rfl⟩ :=
    htranscript.redirected rfl hservice
  refine ⟨modulePath, literal, _, hmodule, hliteral, Utf8.decode_encode _, fun hpath => ?_⟩
  have hcount := Stub.count_redirected hpath (Reference.bracketed_of_print hliteral) hone
  have hiff (cs : List Char) :=
    @Stub.count_eq_zero_iff _ (@Stub.siblingLiteral_ne_nil modulePath.toList) cs
  refine ⟨?_, hcount, fun reference => ?_⟩
  · rw [← not_iff_not, ← hiff, ← hiff, hcount]
    omega
  · unfold Stub.redirect
    dsimp only
    split
    · omega
    · rfl

/-- A pipeline at the root of all files whose entry point has this name. -/
def naming (entryPoint : String) : Pipeline :=
  { standard with settings := { standard.settings with entryPoint } }

/-- The request for the stub of a file, seen from the root of all files. -/
def stubFor (source : String) : Request := ⟨.ofString source, ⟨.ofString "/", .service, []⟩⟩

/-- A host on which the compiler always writes this text. -/
def writing (text : String) : Host Unit := .steady (.ofString "/w") (Utf8.ofString text)

theorem import_only_in_reference_sample : ∃ out notices text,
    standard.drive (writing "\"./a_pb\"") (stubFor "/a") 0 () = (.finished (.ok out), notices, ()) ∧
      Utf8.decode out = .ok text ∧ ¬Stub.siblingLiteral ['a'] <:+: text := by
  have hdrive : ∃ out notices, standard.drive (writing "\"./a_pb\"") (stubFor "/a") 0 () =
      (.finished (.ok out), notices, ()) := ⟨_, _, rfl⟩
  obtain ⟨out, notices, hdrive⟩ := hdrive
  obtain ⟨modulePath, literal, text, ⟨base, hbase, hmodule⟩, hprint, htext, hredirected⟩ :=
    import_only_in_reference rfl hdrive
  have hbase' : (stubFor "/a").options.resolvedBasePath standard.cwd = .ok (.ofString "/") := rfl
  obtain rfl := Except.ok.inj (hbase'.symm.trans hbase)
  have hmodule' : Output.modulePath (.ofString "/") (stubFor "/a").source.normalize = .ok "a" := rfl
  obtain rfl := Except.ok.inj (hmodule'.symm.trans hmodule)
  have hliteral :
      ((Reference.companion standard.settings.entryPoint (stubFor "/a")).print).toOption.any
        (fun literal => !decide (Stub.siblingLiteral "a".toList <:+: literal)) = true := by
    decide +kernel
  rw [hprint] at hliteral
  have hfree : ¬Stub.siblingLiteral "a".toList <:+: literal := by
    simpa [Except.toOption] using hliteral
  refine ⟨out, notices, text, hdrive, htext, fun hin => hfree ?_⟩
  exact (hredirected ⟨by decide, by decide⟩).1.mp hin

/-- The stub that is made of a text in which the import stands once has it in it again. -/
def FindsAgain (entryPoint source modulePath text : String) (found : Nat) : Prop :=
  (stubFor source).HasModulePath standard.cwd modulePath ∧
    ∃ out notices, (naming entryPoint).drive (writing text) (stubFor source) 0 () =
        (.finished (.ok out), notices, ()) ∧
      (Utf8.decode out).toOption.map (Stub.count (Stub.siblingLiteral modulePath.toList)) =
        some found

/-- The entry point brings the import along, or the import comes back at one of the seams of the
reference with the text around it. -/
theorem import_found_again :
    FindsAgain "./a_pb" "/a" "a" "\"./a_pb\"" 2 ∧
      FindsAgain "x_pb" "/a[\"x" "a[\"x" "\"./a\"./a[\"x_pb\"" 1 ∧
      FindsAgain "loader" "/a\"]z\"../a" "a\"]z\"../a" "\"../a\"]z\"../a_pb\"z\"../a_pb\"" 1 :=
  ⟨⟨⟨_, rfl, rfl⟩, _, _, rfl, by decide +kernel⟩,
    ⟨⟨_, rfl, rfl⟩, _, _, rfl, by decide +kernel⟩,
    ⟨⟨_, rfl, rfl⟩, _, _, rfl, by decide +kernel⟩⟩

end Pipeline

end StubLoader
