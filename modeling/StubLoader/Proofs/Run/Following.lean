import StubLoader.Proofs.Reference.Companion
import StubLoader.Proofs.Run.Cleanup
import StubLoader.Proofs.Text.Utf8
/-!
# Following references

A text is followed or refused. It is refused before the host hears of it, if it spells no reference
or one that this pipeline may not follow. Otherwise it is one run for a codec and nothing else: the
run has the source and the options of the reference, the compiler is told to write a codec, and what
it wrote is delivered byte by byte.
-/

namespace StubLoader

/-! ### The compiler's arguments -/

namespace Compiler

/-- Texts that differ early do not begin each other, whatever comes after. -/
theorem not_prefix_append {flag head : Bytes} (n : Nat) (hflag : n ≤ flag.length)
    (hhead : n ≤ head.length) (hne : flag.take n ≠ head.take n) (rest : Bytes) :
    ¬flag <+: head ++ rest := by
  rintro ⟨tail, htail⟩
  refine hne ?_
  have htake := congrArg (List.take n) htail
  rwa [List.take_append_of_le_length hflag, List.take_append_of_le_length hhead] at htake

/-- No argument for a codec asks for a stub. -/
theorem not_service_arguments (pluginName : String) (plugin base w : Path) {source : Path}
    (hsource : source.isAbsolute = true) :
    ∀ arg ∈ arguments pluginName plugin source base w .message,
      ¬Utf8.ofString (outputFlag .service) <+: arg := by
  intro arg harg
  simp only [arguments, List.mem_cons, List.not_mem_nil, or_false] at harg
  rcases harg with rfl | rfl | rfl | rfl
  · rw [Utf8.ofString_append, Utf8.ofString_append, List.append_assoc, List.append_assoc]
    exact not_prefix_append 3 (by decide) (by decide) (by decide) _
  · exact not_prefix_append 3 (by decide) (by decide) (by decide) _
  · exact not_prefix_append 6 (by decide) (by decide) (by decide) _
  · rintro ⟨tail, htail⟩
    have hhead : (Utf8.ofString (outputFlag .service)).head? ≠ some Path.slash := by decide
    rw [Path.isAbsolute, ← htail, beq_iff_eq, List.head?_append_of_ne_nil _ (by decide)] at hsource
    exact hhead hsource

/-- One of them asks for a codec, in the directory of the run. -/
theorem message_mem_arguments (pluginName : String) (plugin source base w : Path) :
    Utf8.ofString "--js_out=import_style=commonjs,binary:" ++ w.bytes ∈
      arguments pluginName plugin source base w .message :=
  List.mem_cons_of_mem _ (List.mem_cons_of_mem _ List.mem_cons_self)

end Compiler

/-! ### The calls of a run for a codec -/

namespace Call

/-- Whether a program is run. -/
def isCompilation : Call → Bool
  | .runProcess .. => true
  | _ => false

/-- A call that a run for a codec may make once it has asked for its directory: not for another
one, and a program is run on the source, with the base of the options, to write a codec. It is told
so by an argument, the source is the last one, and none asks for a stub. -/
def ForCodec (p : Pipeline) (request : Request) : Call → Prop
  | .createWorkspace .. => False
  | .runProcess _ args => ∃ plugin base w, request.options.resolvedBasePath p.cwd = .ok base ∧
    args = Compiler.arguments p.settings.pluginName plugin request.source.normalize base w
      .message ∧
    Utf8.ofString "--js_out=import_style=commonjs,binary:" ++ w.bytes ∈ args ∧
    args.getLast? = some request.source.normalize.bytes ∧
    ∀ arg ∈ args, ¬Utf8.ofString "--js_service_out=" <+: arg
  | .findExecutable _ | .loadFile _ | .removeWorkspace _ => True

end Call

/-- The calls of a run for a codec: it asks for its directory once, and first of all, and runs the
compiler once at most. -/
def CodecCalls (p : Pipeline) (request : Request) (calls : List Call) : Prop :=
  ∃ rest,
    calls = .createWorkspace (p.settings.scratchRoot p.temp) p.settings.workspaceLabel :: rest ∧
    (∀ call ∈ rest, call.ForCodec p request) ∧ rest.countP Call.isCompilation ≤ 1

/-- The call that the deed is. -/
def Deed.asked? : Deed → Option Call
  | .asked call => some call
  | .answered _ | .discarded _ => none

theorem asked_ledgerOf (xs : List Exchange) :
    (ledgerOf xs).filterMap Deed.asked? = xs.map Exchange.call := by
  induction xs with
  | nil => rfl
  | cons x xs ih => exact congrArg (x.call :: ·) ih

theorem asked_held (run : Run) :
    (run.stage.held.map Deed.discarded).toList.filterMap Deed.asked? = [] := by
  cases run.stage.held <;> rfl

section Codec

open Exchange

variable {p : Pipeline} {request : Request}

/-- A program that such a run starts writes a codec. -/
theorem CodecCalls.forCodec_of_mem {calls : List Call} (h : CodecCalls p request calls)
    {compiler : Path} {args : List Bytes} (hmem : .runProcess compiler args ∈ calls) :
    (Call.runProcess compiler args).ForCodec p request := by
  obtain ⟨rest, rfl, hrest, -⟩ := h
  rcases List.mem_cons.mp hmem with heq | hmem
  · cases heq
  · exact hrest _ hmem

/-- A run may make one more call that is neither for a directory nor for the compiler. -/
theorem CodecCalls.concat {calls : List Call} (h : CodecCalls p request calls) {call : Call}
    (hcall : call.ForCodec p request) (hcompilation : call.isCompilation = false) :
    CodecCalls p request (calls ++ [call]) := by
  obtain ⟨rest, rfl, hrest, hcount⟩ := h
  refine ⟨rest ++ [call], rfl, ?_, ?_⟩
  · intro c hc
    rcases List.mem_append.mp hc with hc | hc
    · exact hrest c hc
    · exact List.mem_singleton.mp hc ▸ hcall
  · simpa [List.countP_append, hcompilation] using hcount

variable (hmode : request.mode = .message) (habsolute : request.source.isAbsolute = true)
include hmode habsolute

theorem forCodec_compilation {base : Path}
    (hbase : request.options.resolvedBasePath p.cwd = .ok base) (w compiler plugin : Path)
    (answer : Except IoError ProcessOutput) :
    (compilation p request w base compiler plugin answer).call.ForCodec p request := by
  refine ⟨plugin, base, w, hbase, by rw [hmode], ?_⟩
  rw [hmode]
  exact ⟨Compiler.message_mem_arguments _ _ _ _ _, rfl,
    Compiler.not_service_arguments _ _ _ _ (Path.isAbsolute_normalize habsolute)⟩

theorem Middle.codecCalls {w : Path} {xs : List Exchange} {outcome : Outcome Bytes}
    (h : Middle p request w xs outcome) (answer : Except IoError Path) :
    CodecCalls p request ((creation p answer :: xs).map Exchange.call) := by
  refine ⟨xs.map Exchange.call, rfl, ?_, ?_⟩
  · cases h with
    | badBase hbase => exact fun _ h => nomatch h
    | noCompiler hbase => simp [lookup, Call.ForCodec]
    | noPlugin hbase => simp [lookup, Call.ForCodec]
    | notStarted hbase | notCompiled hbase | notUnder hbase | notRead hbase | read hbase =>
      have hcompile := forCodec_compilation hmode habsolute hbase
      simpa [lookup, reading, Call.ForCodec] using hcompile _ _ _ _
  · cases h <;> simp [lookup, compilation, reading, Call.isCompilation, List.countP_cons]

/-- The calls of a run for a codec, however far it has come. -/
theorem Run.At.codecCalls {xs : List Exchange} {run : Run} {call : Call}
    {resume : call.Answer → Run.Step} (h : Run.At p request xs run)
    (hnext : run.next p = .asks call resume) :
    CodecCalls p request (xs.map Exchange.call ++ [call]) := by
  cases h with
  | create => cases hnext; exact ⟨[], rfl, List.forall_mem_nil _, Nat.zero_le 1⟩
  | @findCompiler w base hbase =>
    cases hnext
    exact Middle.codecCalls (w := w) hmode habsolute (.noCompiler hbase) (.ok w)
  | @findPlugin w base compiler hbase =>
    cases hnext
    exact Middle.codecCalls (w := w) hmode habsolute (.noPlugin hbase) (.ok w)
  | @compile w base compiler plugin hbase =>
    cases hnext
    exact Middle.codecCalls hmode habsolute (.notStarted (e := .emptyPath) hbase) (.ok w)
  | read hbase hexit hunder hmodule =>
    cases hnext
    exact Middle.codecCalls hmode habsolute
      (.notRead (e := .emptyPath) hbase hexit hunder hmodule) _
  | release h hok =>
    cases hnext
    exact (h.codecCalls hmode habsolute _).concat trivial rfl
  | ended h => cases hnext

theorem Transcript.codecCalls {xs : List Exchange} {result : Outcome Bytes}
    (h : Transcript p request xs result) : CodecCalls p request (xs.map Exchange.call) := by
  cases h with
  | notCreated e => exact ⟨[], rfl, List.forall_mem_nil _, Nat.zero_le 1⟩
  | created h answer =>
    rw [← List.cons_append, List.map_append]
    exact (h.codecCalls hmode habsolute _).concat trivial rfl

omit habsolute in
/-- What is delivered for a codec was read from the compiler's output directory. -/
theorem Transcript.verbatim {xs : List Exchange} {artifact : Bytes}
    (h : Transcript p request xs (.ok artifact)) :
    ∃ w modulePath, reading request w modulePath (.ok artifact) ∈ xs := by
  generalize hresult : Except.ok artifact = result at h
  cases h with
  | notCreated e => cases hresult
  | @created w ys outcome h answer =>
    obtain rfl := concluded_eq_ok hresult.symm
    cases h with
    | @read base compiler plugin output modulePath =>
      next hprocessed =>
      cases hprocessed with
      | verbatim => exact ⟨w, modulePath, by simp⟩
      | redirected hservice => rw [hmode] at hservice; cases hservice

/-- What the host of a run for a codec sees, and what comes of it. -/
structure CodecRun (p : Pipeline) (request : Request) (progress : Run.Progress)
    (ds : List Deed) : Prop where
  calls : CodecCalls p request (ds.filterMap Deed.asked?)
  /-- What is delivered is what was read. -/
  verbatim : ∀ out, progress = .finished (.ok out) →
    ∃ w modulePath, .answered (reading request w modulePath (.ok out)) ∈ ds

/-- A run for a codec, driven however long. -/
theorem Pipeline.codecRun_drive {σ : Type} (host : Host σ) (again : Nat) (s : σ) :
    CodecRun p request (p.drive host.ledger request again (s, [])).1
      (p.drive host.ledger request again (s, [])).2.2.2 := by
  rcases hpolls : Run.polls host.ledger p again (.initial request) false (s, []) with
    ⟨progress, notices, t, ds⟩
  have hleft := Run.polls_left Run.open_start hpolls
  rw [Pipeline.drive, hpolls]
  cases progress with
  | finished result =>
    obtain ⟨xs, run, hreach, hstage, rfl⟩ := hleft
    have htranscript := hreach.at.transcript hstage
    refine ⟨?_, ?_⟩
    · rw [asked_ledgerOf]
      exact htranscript.codecCalls hmode habsolute
    · rintro out ⟨⟩
      obtain ⟨w, modulePath, hmem⟩ := htranscript.verbatim hmode
      exact ⟨w, modulePath, mem_ledgerOf hmem⟩
  | suspended run | crashed run =>
    obtain ⟨xs, call, resume, hreach, hnext, rfl⟩ := hleft
    refine ⟨?_, fun _ h => by cases h⟩
    have hcalls := hreach.at.codecCalls hmode habsolute hnext
    simpa [Run.abandon_ledger, asked_ledgerOf, asked_held, Deed.asked?] using hcalls

end Codec

/-! ### Refused or followed -/

namespace Reference

/-- The reference that a text spells, whatever it asks for. -/
def spelled? (literal : String) : Except Json.Error Reference :=
  Json.readAll (read Json.maxDepth) (Text.strip literal)

/-- The pipeline may follow the reference. -/
structure Usable (p : Pipeline) (r : Reference) : Prop where
  named : r.entryPoint ≠ ""
  own : r.entryPoint = p.settings.entryPoint
  codec : r.options.mode = .message
  basePath : r.options.basePath.isEmpty = false
  source : r.source.isAbsolute = true

/-- The pipeline refuses to follow the text, and why. -/
inductive Refused (p : Pipeline) (literal : String) : Failure → Prop where
  | unreadable {e : Json.Error} (h : spelled? literal = .error e) :
    Refused p literal (.reference (.malformed e))
  | nameless {r : Reference} (h : spelled? literal = .ok r) (hempty : r.entryPoint = "") :
    Refused p literal (.reference .noEntryPoint)
  | stub {r : Reference} (h : spelled? literal = .ok r) (hmode : r.options.mode = .service) :
    Refused p literal (.reference (.wrongMode .service))
  | baseless {r : Reference} (h : spelled? literal = .ok r)
    (hbase : r.options.basePath.isEmpty = true) :
    Refused p literal (.reference (.badOptions .noBasePath))
  | other {r : Reference} (h : spelled? literal = .ok r)
    (hother : r.entryPoint ≠ p.settings.entryPoint) :
    Refused p literal (.reference (.otherEntryPoint r.entryPoint p.settings.entryPoint))
  | relative {r : Reference} (h : spelled? literal = .ok r)
    (hsource : r.source.isAbsolute = false) :
    Refused p literal (.options (.relativeSource r.source))

end Reference

namespace Pipeline

open Reference

theorem follow_of_spelled {p : Pipeline} {literal : String} {r : Reference}
    (h : spelled? literal = .ok r) : p.follow literal = match r.validate with
      | .error fault => .error (.reference fault)
      | .ok () =>
        if r.entryPoint = p.settings.entryPoint then r.toRequest
        else .error (.reference (.otherEntryPoint r.entryPoint p.settings.entryPoint)) := by
  rw [spelled?] at h
  cases hvalidate : r.validate with
  | error fault =>
    have hparse : Reference.parse literal = .error (.reference fault) := by
      simp only [Reference.parse, h, hvalidate]
    exact congrArg (fun parsed => parsed >>= _) hparse
  | ok _ =>
    have hparse : Reference.parse literal = .ok r := by
      simp only [Reference.parse, h, hvalidate]
    refine (congrArg (fun parsed => parsed >>= _) hparse).trans ?_
    by_cases hentry : r.entryPoint = p.settings.entryPoint
    · exact (if_neg fun hother => hother hentry).trans (if_pos hentry).symm
    · exact (if_pos hentry).trans (if_neg hentry).symm

/-- A text is refused, or the request of the reference that it spells is made. -/
theorem refused_or_follow (p : Pipeline) (literal : String) :
    (∃ e, Refused p literal e ∧ p.follow literal = .error e) ∨
      ∃ r, spelled? literal = .ok r ∧ r.Usable p ∧
        p.follow literal = .ok ⟨r.source, r.options⟩ := by
  cases hspelled : spelled? literal with
  | error e =>
    refine .inl ⟨_, .unreadable hspelled, ?_⟩
    rw [spelled?] at hspelled
    rw [follow, Reference.parse, hspelled]
    rfl
  | ok r =>
    rw [follow_of_spelled hspelled, Reference.validate]
    -- the checks in the order in which they are made
    by_cases hempty : r.entryPoint = ""
    · exact .inl ⟨_, .nameless hspelled hempty, by rw [hempty]; rfl⟩
    rw [if_neg (by simpa using hempty)]
    cases hmode : r.options.mode with
    | service => exact .inl ⟨_, .stub hspelled hmode, rfl⟩
    | message =>
      rw [if_neg (not_not_intro rfl)]
      cases hbase : r.options.basePath.isEmpty with
      | true =>
        refine .inl ⟨_, .baseless hspelled hbase, ?_⟩
        rw [Options.validate, hbase]
        rfl
      | false =>
        rw [Options.validate_of_basePath hbase]
        dsimp only
        split_ifs with hown
        · rw [Reference.toRequest, Request.make, Options.validate_of_basePath hbase]
          cases hsource : r.source.isAbsolute with
          | false => exact .inl ⟨_, .relative hspelled hsource, rfl⟩
          | true => exact .inr ⟨r, rfl, ⟨hempty, hown, hmode, hbase, hsource⟩, rfl⟩
        · exact .inl ⟨_, .other hspelled hown, rfl⟩

/-- A text is refused without a call to the host, or it is one run for a codec: that of the source
and the options of the reference that it spells. Writing the calls down does not change it. -/
theorem refused_or_followed (p : Pipeline) (literal : String) :
    (∃ e, Refused p literal e ∧ ∀ {σ : Type} (host : Host σ) again s,
      p.pursue host literal again s = (.finished (.error e), [], s) ∧
      p.pursue host.ledger literal again (s, []) = (.finished (.error e), [], s, [])) ∨
    ∃ r, spelled? literal = .ok r ∧ r.Usable p ∧ ∀ {σ : Type} (host : Host σ) again s,
      p.pursue host literal again s = p.drive host ⟨r.source, r.options⟩ again s ∧
      ∃ progress notices t ds, p.pursue host literal again s = (progress, notices, t) ∧
        p.pursue host.ledger literal again (s, []) = (progress, notices, t, ds) ∧
        CodecRun p ⟨r.source, r.options⟩ progress ds := by
  rcases p.refused_or_follow literal with ⟨e, hrefused, hfollow⟩ | ⟨r, hspelled, husable, hfollow⟩
  · refine .inl ⟨e, hrefused, fun host again s => ?_⟩
    rw [pursue, pursue, hfollow]
    exact ⟨rfl, rfl⟩
  · refine .inr ⟨r, hspelled, husable, fun host again s => ?_⟩
    have hrun := @codecRun_drive p ⟨r.source, r.options⟩ husable.codec husable.source _ host again s
    rw [pursue_eq hfollow, pursue_eq hfollow]
    rcases hdrive : p.drive host ⟨r.source, r.options⟩ again s with ⟨progress, notices, t⟩
    obtain ⟨ds, hledger⟩ := Run.exists_ledger hdrive
    rw [hledger] at hrun ⊢
    exact ⟨rfl, progress, notices, t, ds, rfl, rfl, hrun⟩

/-- A literal for the codec of a file `a` at the root of all files. -/
def sampleLiteral : String :=
  "[\"grpc-web-loader\",\x7b\"basePath\":\"/\",\"mode\":\"Message\"\x7d,\"/a\"]"

/-- Following it runs the compiler, which is told to write a codec and no stub, and what is
delivered is the byte that was read. -/
theorem refused_or_followed_sample : ∃ notices ds compiler args,
    standard.pursue sampleHost.ledger sampleLiteral 0 ((), []) =
      (.finished (.ok [0x78]), notices, (), ds) ∧
    .asked (.runProcess compiler args) ∈ ds ∧
    (∃ w : Path, Utf8.ofString "--js_out=import_style=commonjs,binary:" ++ w.bytes ∈ args) ∧
    (∀ arg ∈ args, ¬Utf8.ofString "--js_service_out=" <+: arg) ∧
    ∃ w modulePath, .answered (Exchange.reading sampleRequest w modulePath (.ok [0x78])) ∈ ds := by
  have hfollow : standard.follow sampleLiteral = .ok sampleRequest := by decide +kernel
  -- the call stands behind those for the directory and the tools, each with its answer
  have hpursue : ∃ notices ds compiler args,
      standard.pursue sampleHost.ledger sampleLiteral 0 ((), []) =
        (.finished (.ok [0x78]), notices, (), ds) ∧
      ds[6]? = some (.asked (.runProcess compiler args)) := by
    rw [pursue_eq hfollow]
    exact ⟨_, _, _, _, rfl, rfl⟩
  obtain ⟨notices, ds, compiler, args, hpursue, hcall⟩ := hpursue
  have hmem := List.mem_of_getElem? hcall
  rcases refused_or_followed standard sampleLiteral with
    ⟨e, -, hrefused⟩ | ⟨r, -, husable, hfollowed⟩
  · cases hpursue.symm.trans (hrefused sampleHost 0 ()).2
  obtain ⟨-, _, _, _, _, -, hledger, hrun⟩ := hfollowed sampleHost 0 ()
  cases hpursue.symm.trans hledger
  obtain ⟨_, _, w, -, -, hflag, -, hservice⟩ :=
    hrun.calls.forCodec_of_mem (List.mem_filterMap.mpr ⟨_, hmem, rfl⟩)
  obtain ⟨w', modulePath, hread⟩ := hrun.verbatim _ rfl
  have hmode : (⟨r.source, r.options⟩ : Request).mode = .message := husable.codec
  rw [Exchange.reading, hmode] at hread
  exact ⟨notices, ds, compiler, args, hpursue, hmem, ⟨w, hflag⟩, hservice, w', modulePath, hread⟩

end Pipeline

end StubLoader
