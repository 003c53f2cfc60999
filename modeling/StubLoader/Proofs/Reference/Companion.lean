import StubLoader.Proofs.Reference.RoundTrip
import StubLoader.Proofs.Run.Alike
import StubLoader.Proofs.Run.Transcript
/-!
# Stubs and their codecs

A stub ends with a line from which the reference to its codec can be taken, and following that
reference is as good as asking for the codec: the run goes the same way on every host. What is
handed through may come back changed, as a double does that has no short decimal; a run for a codec
never looks at it.
-/

namespace StubLoader

open Json

/-! ### The last line of a stub -/

namespace Stub

/-- The last line of a text that ends with a line end, with that. -/
def lastLine (text : List Char) : List Char :=
  (text.dropLast.reverse.takeWhile (· ≠ '\n')).reverse ++ ['\n']

/-- A line without the text that is fixed in the statement that merges exports. -/
def merged (line : List Char) : List Char :=
  (line.drop mergeHead.length).take (line.length - (mergeHead.length + mergeTail.length))

theorem merged_mergeStatement (reference : List Char) :
    merged (mergeStatement reference) = reference := by
  have hlength : (mergeHead ++ reference ++ mergeTail).length -
      (mergeHead.length + mergeTail.length) = reference.length := by
    simp only [List.length_append]
    omega
  rw [merged, mergeStatement, hlength, List.append_assoc, List.drop_left, List.take_left]

theorem getLast?_endLine (text : List Char) : (endLine text).getLast? = some '\n' := by
  unfold endLine
  split_ifs with h
  · exact h
  · simp

theorem lastLine_append {body line : List Char} (hbody : body.getLast? = some '\n')
    (hline : '\n' ∉ line) : lastLine (body ++ (line ++ ['\n'])) = line ++ ['\n'] := by
  obtain ⟨before, rfl⟩ := List.getLast?_eq_some_iff.mp hbody
  have hall : ∀ c ∈ line.reverse, (decide (c ≠ '\n')) = true := by
    intro c hc
    simp only [decide_eq_true_eq]
    rintro rfl
    exact hline (List.mem_reverse.mp hc)
  have hdrop : (before ++ ['\n'] ++ (line ++ ['\n'])).dropLast = before ++ ['\n'] ++ line := by
    rw [← List.append_assoc, List.dropLast_concat]
  rw [lastLine, hdrop, List.reverse_append, List.takeWhile_append_of_pos hall]
  simp

/-- The statement that merges the exports of a reference without control characters is one line. -/
theorem mergeStatement_eq_line {reference : List Char} (h : NoControls reference) :
    ∃ line, mergeStatement reference = line ++ ['\n'] ∧ '\n' ∉ line := by
  have htail : mergeTail = mergeTail.dropLast ++ ['\n'] := by decide
  refine ⟨mergeHead ++ reference ++ mergeTail.dropLast, ?_, ?_⟩
  · rw [mergeStatement, List.append_assoc (mergeHead ++ reference), ← htail]
  · rw [List.mem_append, List.mem_append]
    rintro ((hhead | hreference) | hlast)
    · exact absurd hhead (by decide)
    · exact absurd (h _ hreference) (by decide)
    · exact absurd hlast (by decide)

/-- The reference can be taken from the last line of the text that it was put into. -/
theorem merged_lastLine {body reference : List Char} (hbody : body.getLast? = some '\n')
    (h : NoControls reference) :
    merged (lastLine (body ++ mergeStatement reference)) = reference := by
  obtain ⟨line, hline, hmem⟩ := mergeStatement_eq_line h
  rw [hline, lastLine_append hbody hmem, ← hline, merged_mergeStatement]

end Stub

/-! ### What a literal stands for -/

namespace Options

/-- The draft has these for its base path and its mode. -/
def Draft.Given (basePath : Path) (mode : Mode) (d : Draft) : Prop :=
  d.basePath = some basePath ∧ d.mode = some mode

/-- Members that come later change neither the base path nor the mode. -/
theorem Draft.Given.take {depth : Nat} {d d' : Draft} {m : String × Tree} {basePath : Path}
    {mode : Mode} (h : d.Given basePath mode) (htake : d.take? depth m = some d') :
    d'.Given basePath mode := by
  unfold Draft.take? at htake
  simp only [h.1, h.2, Option.isSome_some, if_true, Option.map_none] at htake
  split_ifs at htake
  obtain ⟨v, -, rfl⟩ := Option.map_eq_some_iff.mp htake
  exact ⟨rfl, rfl⟩

/-- Whatever is handed through, the base path and the mode are read back. -/
theorem given_of_ofTree?_tree {o o' : Options} {depth : Nat} {s : String}
    (hs : o.basePath.toString? = some s) (h : ofTree? (depth + 1) o.tree = some o') :
    o'.basePath = o.basePath ∧ o'.mode = o.mode := by
  rw [ofTree?_eq_bind hs] at h
  obtain ⟨d, hd, hcomplete⟩ := Option.bind_eq_some_iff.mp h
  have hstart : Draft.Given o.basePath o.mode ⟨some o.basePath, some o.mode, []⟩ := ⟨rfl, rfl⟩
  have hgiven : d.Given o.basePath o.mode :=
    foldlM_invariant (fun _ _ _ _ hb hstep => hb.take hstep) hstart hd
  rw [Draft.complete?, hgiven.1, hgiven.2] at hcomplete
  cases hcomplete
  exact ⟨rfl, rfl⟩

end Options

namespace Reference

/-- A literal is parsed as a reference that names the same entry point, the same source, the same
base path and the same mode. -/
theorem given_of_parse_print {r r' : Reference} {text : List Char} (h : r.print = .ok text)
    (hparse : parse (String.ofList text) = .ok r') :
    r'.entryPoint = r.entryPoint ∧ r'.source = r.source ∧
      r'.options.basePath = r.options.basePath ∧ r'.options.mode = r.options.mode := by
  obtain ⟨⟨basePath, hbase⟩, ⟨source, hsource⟩⟩ := toString?_of_print h
  obtain ⟨t, ht, htree⟩ := exists_tree hparse
  rw [strip_ofList h] at ht
  rw [ht.unique (spellsAll_print h)] at htree
  obtain ⟨e, o, s, heq, ho, hentry, hs⟩ := ofTree?_eq_some htree
  rw [tree, Path.tree, hsource] at heq
  cases heq
  obtain ⟨hbasePath, hmode⟩ := Options.given_of_ofTree?_tree hbase ho
  exact ⟨hentry, hs.trans (Path.eq_ofString hsource).symm, hbasePath, hmode⟩

theorem le_of_mem_encode {cs : List Char} (h : NoControls cs) : ∀ b ∈ Utf8.encode cs, 0x20 ≤ b := by
  intro b hb
  obtain ⟨c, hc, hb⟩ := List.mem_flatMap.mp hb
  exact UInt8.le_iff_toNat_le.mpr (Utf8.le_of_mem_encodeChar (h c hc) hb)

end Reference

/-! ### Following a reference -/

namespace Pipeline

variable {p : Pipeline} {source : Path} {options : Options} {request : Request}

/-- The request that a stub's reference stands for is as good as that for the codec. -/
theorem follow_companion (hmade : Request.make source options = .ok request) {literal : List Char}
    (hprint : (Reference.companion p.settings.entryPoint request).print = .ok literal)
    {r : Reference} (hparse : Reference.parse (String.ofList literal) = .ok r) :
    ∃ request', p.follow (String.ofList literal) = .ok request' ∧
      request'.Alike request.companion := by
  obtain ⟨rfl, habsolute, -⟩ := Request.make_eq_ok hmade
  obtain ⟨hentry, hsource, hbasePath, hmode⟩ := Reference.given_of_parse_print hprint hparse
  obtain ⟨-, -, hbase⟩ := Reference.validate_eq_ok (Reference.parse_eq_ok hparse).2
  refine ⟨⟨r.source, r.options⟩, ?_, ⟨hsource, hbasePath, hmode, rfl⟩⟩
  have hrequest : r.toRequest = .ok ⟨r.source, r.options⟩ := by
    rw [Reference.toRequest, Request.make, hsource, Options.validate_of_basePath hbase]
    simp [Reference.companion, Request.companion, habsolute]
  have hmatch : r.entryPoint = p.settings.entryPoint := hentry
  rw [follow, hparse]
  simp only [bind, Except.bind]
  rw [if_neg (not_not_intro hmatch)]
  exact hrequest

/-- Follows a reference and drives the run. -/
def pursue {σ : Type} (host : Host σ) (p : Pipeline) (literal : String) (again : Nat) (s : σ) :
    Run.Progress × List Notice × σ :=
  match p.follow literal with
  | .error e => (.finished (.error e), [], s)
  | .ok request => p.drive host request again s

theorem pursue_eq {σ : Type} {host : Host σ} {literal : String} {again : Nat} {s : σ}
    (h : p.follow literal = .ok request) :
    p.pursue host literal again s = p.drive host request again s := by
  unfold pursue
  rw [h]

theorem pursue_zero {σ : Type} (host : Host σ) (p : Pipeline) (literal : String) (s : σ) :
    p.pursue host literal 0 s = p.resolve host literal s := by
  unfold pursue resolve
  cases p.follow literal with
  | error e => rfl
  | ok request => exact drive_zero host p request s

/-- A stub ends with the statement that merges the exports of what its reference leads to. -/
theorem stub_eq_append {σ : Type} {host : Host σ} (hservice : request.mode = .service) {again : Nat}
    {s t : σ} {out : Bytes} {notices : List Notice}
    (h : p.drive host request again s = (.finished (.ok out), notices, t)) :
    ∃ body literal, (Reference.companion p.settings.entryPoint request).print = .ok literal ∧
      out = Utf8.encode (body ++ Stub.mergeStatement literal) ∧ body.getLast? = some '\n' := by
  obtain ⟨ds, hdrive⟩ := Run.exists_ledger h
  obtain ⟨xs, htranscript, -⟩ := transcript_of_drive hdrive
  obtain ⟨modulePath, bytes, hprocessed⟩ := htranscript.processed rfl
  cases hprocessed with
  | verbatim hmode => rw [hservice] at hmode; cases hmode
  | redirected _ _ hliteral _ => exact ⟨_, _, hliteral, rfl, Stub.getLast?_endLine _⟩

/-- A stub that was made ends with a line of its own, from which its reference can be taken: the
literal of the companion, which has no control byte in it. Wherever that literal can be parsed, to
follow it is to run the request for the codec: on every host, so also on one that keeps a ledger,
the two come equally far, with the same notices and the same host. -/
theorem stub_leads_to_codec (p : Pipeline) {source : Path} {options : Options} {request : Request}
    (hmade : Request.make source options = .ok request) :
    (request.mode = .service → ∀ {σ : Type} (host : Host σ) again s out notices t,
      p.drive host request again s = (.finished (.ok out), notices, t) →
        ∃ body literal, (Reference.companion p.settings.entryPoint request).print = .ok literal ∧
          out = Utf8.encode (body ++ Stub.mergeStatement literal) ∧
          body.getLast? = some '\n' ∧
          (∃ line, Stub.mergeStatement literal = line ++ ['\n'] ∧ '\n' ∉ line) ∧
          (Utf8.decode out).toOption.map (Stub.merged ∘ Stub.lastLine) = some literal) ∧
    ∀ literal, (Reference.companion p.settings.entryPoint request).print = .ok literal →
      (∀ b ∈ Utf8.encode literal, 0x20 ≤ b) ∧
      ∀ r, Reference.parse (String.ofList literal) = .ok r →
        ∀ {σ : Type} (host : Host σ) again s, Run.AlikeReadings
          (p.pursue host (String.ofList literal) again s)
          (p.drive host request.companion again s) := by
  refine ⟨?_, ?_⟩
  · intro hservice σ host again s out notices t h
    obtain ⟨body, literal, hprint, hout, hbody⟩ := stub_eq_append hservice h
    have hcontrols := Reference.noControls_print hprint
    refine ⟨body, literal, hprint, hout, hbody, Stub.mergeStatement_eq_line hcontrols, ?_⟩
    rw [hout, Utf8.decode_encode]
    exact congrArg some (Stub.merged_lastLine hbody hcontrols)
  · intro literal hprint
    refine ⟨Reference.le_of_mem_encode (Reference.noControls_print hprint), ?_⟩
    intro r hparse σ host again s
    obtain ⟨request', hfollow, halike⟩ := follow_companion hmade hprint hparse
    rw [pursue_eq hfollow]
    exact Run.alike_drive host p halike again s

/-- The request for the stub of a file `a` at the root of all files. -/
def stubRequest : Request := ⟨⟨[Path.slash, 0x61]⟩, ⟨⟨[Path.slash]⟩, .service, []⟩⟩

/-- The reference that this stub has for its codec. -/
def stubReference : Reference := .companion standard.settings.entryPoint stubRequest

/-- A host on which the stub is made that imports the codec of the file `a`. -/
def stubHost : Host Unit := .steady ⟨[Path.slash, 0x77]⟩ (Utf8.ofString "\"./a_pb\"")

theorem stubReference_portable : stubReference.Portable where
  entryPoint := by decide
  source := ⟨"/a", by decide⟩
  basePath := ⟨"/", by decide⟩
  baseGiven := rfl
  mode := rfl
  extra := .obj .nil (fun _ h => nomatch h)
  keys := fun _ h => nomatch h
  nests := by decide

theorem stub_leads_to_codec_sample : ∃ literal, stubReference.print = .ok literal ∧
    (∃ out notices, standard.drive stubHost stubRequest 0 () = (.finished (.ok out), notices, ()) ∧
      (Utf8.decode out).toOption.map (Stub.merged ∘ Stub.lastLine) = some literal) ∧
    Run.AlikeReadings (standard.pursue stubHost (String.ofList literal) 0 ())
      (standard.drive stubHost stubRequest.companion 0 ()) := by
  have hmade : Request.make stubRequest.source stubRequest.options = .ok stubRequest := by decide
  obtain ⟨hstub, hfollow⟩ := stub_leads_to_codec standard hmade
  obtain ⟨_, hrender, hparse⟩ := stubReference_portable.parse_render
  obtain ⟨text, htext, rfl⟩ := Reference.render_eq_ok hrender
  have hdrive : ∃ out notices,
      standard.drive stubHost stubRequest 0 () = (.finished (.ok out), notices, ()) := ⟨_, _, rfl⟩
  obtain ⟨out, notices, hdrive⟩ := hdrive
  obtain ⟨-, literal, hprint, -, -, -, hmerged⟩ := hstub rfl stubHost 0 () out notices () hdrive
  obtain rfl : text = literal := Except.ok.inj (htext.symm.trans hprint)
  exact ⟨text, htext, ⟨out, notices, hdrive, hmerged⟩,
    (hfollow text htext).2 _ hparse stubHost 0 ()⟩

end Pipeline

end StubLoader
