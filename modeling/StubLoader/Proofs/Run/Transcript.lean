import StubLoader.Proofs.Path.Normal
import StubLoader.Proofs.Run.Ledger
import StubLoader.Proofs.Stub.Occurrences
/-!
# Transcripts of runs

What a run that is not given up does, from the outside: it makes its directory, or fails at once;
it looks up the compiler, then the plugin, runs the compiler and reads the generated file, and
stops at the first of these that fails; then it removes the directory it was given. Its result is
the first failure, else that of the removal, else the artifact.

`Transcript` says so by listing the exchanges; nothing in it mentions stages or states. That every
run follows it is shown by one invariant, `At`, which ties the stage of a run to the exchanges
behind it, step by step.
-/

namespace StubLoader

/-! ### What a run is to do -/

/-- The steps of the base begin those of the source, and there are more of them. -/
def Path.StrictlyUnder (source base : Path) : Prop :=
  base.components <+: source.components ∧ base.components ≠ source.components

/-- What becomes of a generated file: a codec is delivered as it is, and a stub with its import
redirected to the reference, if it is a text, the reference has a literal and the import stands
there once. -/
inductive Processed (entryPoint : String) (request : Request) (modulePath : String)
    (bytes : Bytes) : Outcome Bytes → Prop where
  | verbatim (hmode : request.mode = .message) :
    Processed entryPoint request modulePath bytes (.ok bytes)
  | notText {fault : Utf8.Fault} (hmode : request.mode = .service)
    (htext : Utf8.decode bytes = .error fault) :
    Processed entryPoint request modulePath bytes (.error (.io (.notText fault)))
  | noLiteral {text : List Char} {fault : DocumentFault} (hmode : request.mode = .service)
    (htext : Utf8.decode bytes = .ok text)
    (hliteral : (Reference.companion entryPoint request).print = .error fault) :
    Processed entryPoint request modulePath bytes (.error (.document fault))
  | otherCount {text literal : List Char} {found : Nat} (hmode : request.mode = .service)
    (htext : Utf8.decode bytes = .ok text)
    (hliteral : (Reference.companion entryPoint request).print = .ok literal)
    (hfound : Stub.count (Stub.siblingLiteral modulePath.toList) text = found) (hone : found ≠ 1) :
    Processed entryPoint request modulePath bytes
      (.error (.stubImport (String.ofList (Stub.siblingLiteral modulePath.toList)) found))
  | redirected {text literal : List Char} (hmode : request.mode = .service)
    (htext : Utf8.decode bytes = .ok text)
    (hliteral : (Reference.companion entryPoint request).print = .ok literal)
    (hone : Stub.count (Stub.siblingLiteral modulePath.toList) text = 1) :
    Processed entryPoint request modulePath bytes (.ok (Utf8.encode
      (Stub.endLine (Stub.replaceFirst (Stub.siblingLiteral modulePath.toList) literal text)
        ++ Stub.mergeStatement literal)))

section Exchanges

variable (p : Pipeline) (request : Request) (w base compiler plugin : Path) (modulePath : String)

/-- A directory is asked for. -/
def Exchange.creation (answer : Except IoError Path) : Exchange :=
  ⟨.createWorkspace (p.settings.scratchRoot p.temp) p.settings.workspaceLabel, answer⟩

/-- A tool is looked up. -/
def Exchange.lookup (tool : Path) (answer : Option Path) : Exchange :=
  ⟨.findExecutable tool, answer⟩

/-- The compiler is run on the source, to write into `w`. -/
def Exchange.compilation (answer : Except IoError ProcessOutput) : Exchange :=
  ⟨.runProcess compiler (Compiler.arguments p.settings.pluginName plugin request.source.normalize
    base w request.mode), answer⟩

/-- The generated file is read. -/
def Exchange.reading (answer : Except IoError Bytes) : Exchange :=
  ⟨.loadFile (Output.locate w (modulePath ++ Output.suffix request.mode)), answer⟩

/-- The directory is removed. -/
def Exchange.removal (answer : Except IoError Unit) : Exchange := ⟨.removeWorkspace w, answer⟩

end Exchanges

open Exchange

/-- What a run does between the making of its directory `w` and its removal, and what comes of
it. -/
inductive Middle (p : Pipeline) (request : Request) (w : Path) :
    List Exchange → Outcome Bytes → Prop where
  | badBase {e : Failure} (hbase : request.options.resolvedBasePath p.cwd = .error e) :
    Middle p request w [] (.error e)
  | noCompiler {base : Path} (hbase : request.options.resolvedBasePath p.cwd = .ok base) :
    Middle p request w [lookup p.settings.compiler none]
      (.error (.toolNotFound p.settings.compiler.display))
  | noPlugin {base compiler : Path} (hbase : request.options.resolvedBasePath p.cwd = .ok base) :
    Middle p request w [lookup p.settings.compiler (some compiler), lookup p.settings.plugin none]
      (.error (.toolNotFound p.settings.plugin.display))
  | notStarted {base compiler plugin : Path} {e : IoError}
    (hbase : request.options.resolvedBasePath p.cwd = .ok base) :
    Middle p request w
      [lookup p.settings.compiler (some compiler), lookup p.settings.plugin (some plugin),
        compilation p request w base compiler plugin (.error e)]
      (.error (.io e))
  | notCompiled {base compiler plugin : Path} {output : ProcessOutput}
    (hbase : request.options.resolvedBasePath p.cwd = .ok base) (hexit : output.success = false) :
    Middle p request w
      [lookup p.settings.compiler (some compiler), lookup p.settings.plugin (some plugin),
        compilation p request w base compiler plugin (.ok output)]
      (.error (.compile output.status (Utf8.toStringLossy output.stderr)))
  | notUnder {base compiler plugin : Path} {output : ProcessOutput} {fault : OptionsFault}
    (hbase : request.options.resolvedBasePath p.cwd = .ok base) (hexit : output.success = true)
    (hunder : ¬request.source.normalize.StrictlyUnder base)
    (hfault : Output.modulePath base request.source.normalize = .error fault) :
    Middle p request w
      [lookup p.settings.compiler (some compiler), lookup p.settings.plugin (some plugin),
        compilation p request w base compiler plugin (.ok output)]
      (.error (.options fault))
  | notRead {base compiler plugin : Path} {output : ProcessOutput} {modulePath : String}
    {e : IoError} (hbase : request.options.resolvedBasePath p.cwd = .ok base)
    (hexit : output.success = true) (hunder : request.source.normalize.StrictlyUnder base)
    (hmodule : Output.modulePath base request.source.normalize = .ok modulePath) :
    Middle p request w
      [lookup p.settings.compiler (some compiler), lookup p.settings.plugin (some plugin),
        compilation p request w base compiler plugin (.ok output),
        reading request w modulePath (.error e)]
      (.error (.io e))
  | read {base compiler plugin : Path} {output : ProcessOutput} {modulePath : String}
    {bytes : Bytes} {outcome : Outcome Bytes}
    (hbase : request.options.resolvedBasePath p.cwd = .ok base) (hexit : output.success = true)
    (hunder : request.source.normalize.StrictlyUnder base)
    (hmodule : Output.modulePath base request.source.normalize = .ok modulePath)
    (hprocessed : Processed p.settings.entryPoint request modulePath bytes outcome) :
    Middle p request w
      [lookup p.settings.compiler (some compiler), lookup p.settings.plugin (some plugin),
        compilation p request w base compiler plugin (.ok output),
        reading request w modulePath (.ok bytes)]
      outcome

/-- The result of a run: what came of it, unless only the removal of its directory failed. -/
def concluded : Outcome Bytes → Except IoError Unit → Outcome Bytes
  | .error e, _ => .error e
  | .ok artifact, .ok () => .ok artifact
  | .ok _, .error e => .error (.io e)

/-- The exchanges and the result of a run. -/
inductive Transcript (p : Pipeline) (request : Request) :
    List Exchange → Outcome Bytes → Prop where
  | notCreated (e : IoError) : Transcript p request [creation p (.error e)] (.error (.io e))
  | created {w : Path} {xs : List Exchange} {outcome : Outcome Bytes}
    (h : Middle p request w xs outcome) (answer : Except IoError Unit) :
    Transcript p request (creation p (.ok w) :: (xs ++ [removal w answer]))
      (concluded outcome answer)

theorem concluded_eq_ok {outcome : Outcome Bytes} {answer : Except IoError Unit} {artifact : Bytes}
    (h : concluded outcome answer = .ok artifact) : outcome = .ok artifact := by
  cases outcome with
  | error e => cases h
  | ok a => cases answer with
    | error e => cases h
    | ok _ => exact h

/-- An artifact is what becomes of a generated file. -/
theorem Transcript.processed {p : Pipeline} {request : Request} {xs : List Exchange}
    {result : Outcome Bytes} {artifact : Bytes} (h : Transcript p request xs result)
    (hresult : result = .ok artifact) : ∃ modulePath bytes,
      Processed p.settings.entryPoint request modulePath bytes (.ok artifact) := by
  cases h with
  | notCreated e => cases hresult
  | created h answer =>
    obtain rfl := concluded_eq_ok hresult
    cases h with
    | read _ _ _ _ hprocessed => exact ⟨_, _, hprocessed⟩

/-! ### Parts of a run -/

theorem processed_finish (entryPoint : String) (request : Request) (modulePath : String)
    (bytes : Bytes) : Processed entryPoint request modulePath bytes
      (Artifact.finish entryPoint request modulePath bytes) := by
  unfold Artifact.finish
  cases hmode : request.mode with
  | message => exact .verbatim hmode
  | service =>
    dsimp only
    cases htext : Utf8.decode bytes with
    | error fault => exact .notText hmode htext
    | ok text =>
      dsimp only
      rw [Reference.render]
      cases hliteral : (Reference.companion entryPoint request).print with
      | error fault => exact .noLiteral hmode htext hliteral
      | ok literal =>
        simp only [bind, Except.bind, String.toList_ofList]
        by_cases hone : Stub.count (Stub.siblingLiteral modulePath.toList) text = 1
        · rw [Stub.redirect_of_count_eq_one hone]
          exact .redirected hmode htext hliteral hone
        · rw [Stub.redirect_of_count_ne_one hone]
          exact .otherCount hmode htext hliteral rfl hone

section Judge

variable {output : ProcessOutput}

theorem judge_of_failure (h : output.success = false) : Compiler.judge output =
    .error (.compile output.status (Utf8.toStringLossy output.stderr)) := by
  simp [Compiler.judge, h]

theorem judge_of_success (h : output.success = true) : Compiler.judge output =
    .ok ⟨Utf8.toStringLossy output.stdout, Utf8.toStringLossy output.stderr⟩ := by
  simp [Compiler.judge, h]

end Judge

/-- The base of a request is folded. -/
theorem normalize_of_resolvedBasePath {o : Options} {cwd base : Path}
    (h : o.resolvedBasePath cwd = .ok base) : base.normalize = base := by
  unfold Options.resolvedBasePath Path.absolutize? at h
  split at h
  · cases h
  · split_ifs at h
    cases h
    exact Path.normalize_normalize _

theorem modulePath_eq_ok {base source : Path} (hbase : base.normalize = base)
    (hsource : source.normalize = source) {modulePath : String}
    (h : Output.modulePath base source = .ok modulePath) : source.StrictlyUnder base := by
  unfold Output.modulePath at h
  rw [hbase, hsource] at h
  dsimp only at h
  split_ifs at h with hbegins hbelow
  refine ⟨List.isPrefixOf_iff_prefix.mp hbegins, fun heq => hbelow ?_⟩
  rw [heq, List.drop_length]
  rfl

theorem modulePath_eq_error {base source : Path} (hbase : base.normalize = base)
    (hsource : source.normalize = source) {fault : OptionsFault}
    (h : Output.modulePath base source = .error fault) : ¬source.StrictlyUnder base := by
  unfold Output.modulePath at h
  rw [hbase, hsource] at h
  dsimp only at h
  rintro ⟨hbegins, hne⟩
  split_ifs at h with hbegins' hbelow
  · obtain ⟨below, heq⟩ := hbegins
    rw [← heq, List.drop_left, List.isEmpty_iff] at hbelow
    rw [hbelow, List.append_nil] at heq
    exact hne heq
  · exact hbegins' (List.isPrefixOf_iff_prefix.mpr hbegins)

/-! ### The invariant -/

namespace Run

/-- Where a run for the request stands after these exchanges. -/
inductive At (p : Pipeline) (request : Request) : List Exchange → Run → Prop where
  | create : At p request [] (.initial request)
  | findCompiler {w base : Path} (hbase : request.options.resolvedBasePath p.cwd = .ok base) :
    At p request [creation p (.ok w)] ⟨request, .workspaceAcquired, .findCompiler w base⟩
  | findPlugin {w base compiler : Path}
    (hbase : request.options.resolvedBasePath p.cwd = .ok base) :
    At p request [creation p (.ok w), lookup p.settings.compiler (some compiler)]
      ⟨request, .workspaceAcquired, .findPlugin w base compiler⟩
  | compile {w base compiler plugin : Path}
    (hbase : request.options.resolvedBasePath p.cwd = .ok base) :
    At p request
      [creation p (.ok w), lookup p.settings.compiler (some compiler),
        lookup p.settings.plugin (some plugin)]
      ⟨request, .toolsResolved, .compile w base compiler plugin⟩
  | read {w base compiler plugin : Path} {output : ProcessOutput} {modulePath : String}
    (hbase : request.options.resolvedBasePath p.cwd = .ok base) (hexit : output.success = true)
    (hunder : request.source.normalize.StrictlyUnder base)
    (hmodule : Output.modulePath base request.source.normalize = .ok modulePath) :
    At p request
      [creation p (.ok w), lookup p.settings.compiler (some compiler),
        lookup p.settings.plugin (some plugin),
        compilation p request w base compiler plugin (.ok output)]
      ⟨request, .resolved, .read w modulePath⟩
  /-- A run that gives its directory back has an artifact or some failure, and no more to do. -/
  | release {w : Path} {xs : List Exchange} {outcome : Outcome Bytes} {state : RunState}
    (h : Middle p request w xs outcome) (hok : outcome.isOk → state = .postProcessed) :
    At p request (creation p (.ok w) :: xs) ⟨request, state, .release w outcome⟩
  | ended {xs : List Exchange} {result : Outcome Bytes} {state : RunState}
    (h : Transcript p request xs result) :
    At p request xs ⟨request, state, .ended result⟩

theorem fail_fst (run : Run) (failure : Failure) :
    ∃ state, (run.fail failure).1 = ⟨run.request, state, .ended (.error failure)⟩ := by
  unfold fail
  dsimp only
  split_ifs
  · exact ⟨_, rfl⟩
  · exact ⟨_, rfl⟩

theorem reach_of_canBecome {run : Run} {target : RunState}
    (h : run.state.canBecome target = true) (refuse : Failure → Step) (next : Run → Step) :
    run.reach target refuse next =
      report (.stateChanged run.state target) (next { run with state := target }) := if_pos h

variable {p : Pipeline} {request : Request}

theorem at_created (answer : Except IoError Path) :
    At p request [creation p answer] ((Run.initial request).created p answer).1 := by
  cases answer with
  | error e =>
    obtain ⟨state, hfail⟩ := fail_fst (.initial request) (.io e)
    rw [created, hfail]
    exact .ended (.notCreated e)
  | ok w =>
    rw [created, reach_of_canBecome rfl]
    dsimp only [report, Run.initial]
    cases hbase : request.options.resolvedBasePath p.cwd with
    | error e => exact .release (.badBase hbase) (fun h => nomatch h)
    | ok base => exact .findCompiler hbase

theorem at_compilerSought {w base : Path}
    (hbase : request.options.resolvedBasePath p.cwd = .ok base) (answer : Option Path) :
    At p request [creation p (.ok w), lookup p.settings.compiler answer]
      (compilerSought p ⟨request, .workspaceAcquired, .findCompiler w base⟩ w base answer).1 := by
  cases answer with
  | none => exact .release (.noCompiler hbase) (fun h => nomatch h)
  | some compiler => exact .findPlugin hbase

theorem at_pluginSought {w base compiler : Path}
    (hbase : request.options.resolvedBasePath p.cwd = .ok base) (answer : Option Path) :
    At p request
      [creation p (.ok w), lookup p.settings.compiler (some compiler),
        lookup p.settings.plugin answer]
      (pluginSought p ⟨request, .workspaceAcquired, .findPlugin w base compiler⟩ w base compiler
        answer).1 := by
  cases answer with
  | none => exact .release (.noPlugin hbase) (fun h => nomatch h)
  | some plugin =>
    rw [pluginSought, reach_of_canBecome rfl]
    exact .compile hbase

theorem at_compiled {w base compiler plugin : Path}
    (hbase : request.options.resolvedBasePath p.cwd = .ok base)
    (answer : Except IoError ProcessOutput) :
    At p request
      [creation p (.ok w), lookup p.settings.compiler (some compiler),
        lookup p.settings.plugin (some plugin),
        compilation p request w base compiler plugin answer]
      (compiled ⟨request, .toolsResolved, .compile w base compiler plugin⟩ w base answer).1 := by
  cases answer with
  | error e => exact .release (.notStarted hbase) (fun h => nomatch h)
  | ok output =>
    have hnormal := normalize_of_resolvedBasePath hbase
    have hsource := Path.normalize_normalize request.source
    cases hexit : output.success with
    | false =>
      rw [compiled, judge_of_failure hexit]
      exact .release (.notCompiled hbase hexit) (fun h => nomatch h)
    | true =>
      rw [compiled, judge_of_success hexit]
      dsimp only [warn]
      rw [reach_of_canBecome rfl]
      dsimp only [report]
      cases hmodule : Output.modulePath base request.source.normalize with
      | error fault =>
        exact .release (.notUnder hbase hexit (modulePath_eq_error hnormal hsource hmodule) hmodule)
          (fun h => nomatch h)
      | ok modulePath =>
        dsimp only
        rw [reach_of_canBecome rfl]
        exact .read hbase hexit (modulePath_eq_ok hnormal hsource hmodule) hmodule

theorem at_read {w base compiler plugin : Path} {output : ProcessOutput} {modulePath : String}
    (hbase : request.options.resolvedBasePath p.cwd = .ok base) (hexit : output.success = true)
    (hunder : request.source.normalize.StrictlyUnder base)
    (hmodule : Output.modulePath base request.source.normalize = .ok modulePath)
    (answer : Except IoError Bytes) :
    At p request
      [creation p (.ok w), lookup p.settings.compiler (some compiler),
        lookup p.settings.plugin (some plugin),
        compilation p request w base compiler plugin (.ok output),
        reading request w modulePath answer]
      (Run.read p ⟨request, .resolved, .read w modulePath⟩ w modulePath answer).1 := by
  cases answer with
  | error e => exact .release (.notRead hbase hexit hunder hmodule) (fun h => nomatch h)
  | ok bytes =>
    have hprocessed := processed_finish p.settings.entryPoint request modulePath bytes
    rw [Run.read]
    cases hfinish : Artifact.finish p.settings.entryPoint request modulePath bytes with
    | error e =>
      rw [hfinish] at hprocessed
      exact .release (.read hbase hexit hunder hmodule hprocessed) (fun h => nomatch h)
    | ok artifact =>
      rw [hfinish] at hprocessed
      dsimp only
      rw [reach_of_canBecome rfl]
      exact .release (.read hbase hexit hunder hmodule hprocessed) (fun _ => rfl)

theorem at_released {w : Path} {xs : List Exchange} {outcome : Outcome Bytes} {state : RunState}
    (h : Middle p request w xs outcome) (hok : outcome.isOk → state = .postProcessed)
    (answer : Except IoError Unit) :
    At p request (creation p (.ok w) :: (xs ++ [removal w answer]))
      (released ⟨request, state, .release w outcome⟩ w outcome answer).1 := by
  have hfail (e : Failure) (hconcluded : concluded outcome answer = .error e) :
      At p request (creation p (.ok w) :: (xs ++ [removal w answer]))
        (fail ⟨request, state, .release w outcome⟩ e).1 := by
    obtain ⟨state', hstate⟩ := fail_fst ⟨request, state, .release w outcome⟩ e
    rw [hstate, ← hconcluded]
    exact .ended (.created h answer)
  cases answer with
  | error removal =>
    cases outcome with
    | error e => exact hfail e rfl
    | ok artifact => exact hfail (.io removal) rfl
  | ok _ =>
    cases outcome with
    | error e => exact hfail e rfl
    | ok artifact =>
      obtain rfl := hok rfl
      dsimp only [released, report]
      rw [reach_of_canBecome rfl]
      exact .ended (.created h (.ok ()))

/-- Every answer takes a run to the place in its transcript that comes next. -/
theorem At.step {xs : List Exchange} {run : Run} {call : Call} {resume : call.Answer → Step}
    (h : At p request xs run) (hnext : run.next p = .asks call resume) (answer : call.Answer) :
    At p request (xs ++ [⟨call, answer⟩]) (resume answer).1 := by
  cases h with
  | create => cases hnext; exact at_created answer
  | findCompiler hbase => cases hnext; exact at_compilerSought hbase answer
  | findPlugin hbase => cases hnext; exact at_pluginSought hbase answer
  | compile hbase => cases hnext; exact at_compiled hbase answer
  | read hbase hexit hunder hmodule => cases hnext; exact at_read hbase hexit hunder hmodule answer
  | release h hok => cases hnext; exact at_released h hok answer
  | ended h => cases hnext

theorem Reaches.at {xs : List Exchange} {notices : List Notice} {run : Run}
    (h : Reaches p (.initial request) xs notices run) : At p request xs run :=
  h.invariant .create At.step

theorem At.transcript {xs : List Exchange} {run : Run} {result : Outcome Bytes}
    (h : At p request xs run) (hstage : run.stage = .ended result) :
    Transcript p request xs result := by
  cases h with
  | ended h => cases hstage; exact h
  | _ => cases hstage

end Run

/-! ### Every run follows its transcript -/

/-- A host that always gives the same directory, finds every tool and has always the same file,
without anything going wrong. -/
def Host.steady (w : Path) (bytes : Bytes) : Host Unit :=
  .ofAnswers (fun call s => match call with
    | .createWorkspace .. => (.ok w, s)
    | .findExecutable tool => (some tool, s)
    | .runProcess .. => (.ok ⟨some 0, true, [], []⟩, s)
    | .loadFile _ => (.ok bytes, s)
    | .removeWorkspace _ => (.ok (), s))
    fun _ s => (.ok (), s)

theorem Request.make_eq_ok {source : Path} {options : Options} {request : Request}
    (h : Request.make source options = .ok request) :
    request = ⟨source, options⟩ ∧ source.isAbsolute = true ∧ options.basePath.isEmpty = false := by
  unfold Request.make Options.validate at h
  split_ifs at h with habs hempty
  cases h
  exact ⟨rfl, by simpa using habs, by simpa using hempty⟩

theorem Options.validate_of_basePath {o : Options} (h : o.basePath.isEmpty = false) :
    o.validate = .ok () := by
  rw [Options.validate, h]
  rfl

/-- A request that was made knows its base. -/
theorem Request.exists_resolvedBasePath {source : Path} {options : Options} {request : Request}
    (h : Request.make source options = .ok request) (cwd : Path) :
    ∃ base, request.options.resolvedBasePath cwd = .ok base := by
  obtain ⟨rfl, -, hbase⟩ := Request.make_eq_ok h
  refine ⟨Path.normalize (Path.anchor cwd options.basePath), ?_⟩
  rw [Options.resolvedBasePath, Options.validate_of_basePath hbase, Path.absolutize?, hbase]
  rfl

namespace Pipeline

variable {σ : Type} {host : Host σ} {p : Pipeline} {request : Request}

theorem transcript_of_drive {again : Nat} {s t : σ} {result : Outcome Bytes} {notices : List Notice}
    {ds : List Deed}
    (h : p.drive host.ledger request again (s, []) = (.finished result, notices, t, ds)) :
    ∃ xs, Transcript p request xs result ∧ ds = ledgerOf xs := by
  obtain ⟨notices', hpolls⟩ := drive_eq_finished p request h
  obtain ⟨xs, run, hreach, hstage, hds⟩ := Run.polls_left Run.open_start hpolls
  exact ⟨xs, hreach.at.transcript hstage, hds⟩

/-- A run that is not given up, on whatever host, makes the calls of a transcript and no others, one
after the other, and has the result of the transcript; it does come to an end if every call is
answered in the end. Writing the calls down does not change it. -/
theorem drive_follows_transcript (host : Host σ) (p : Pipeline) {source : Path} {options : Options}
    {request : Request} (hmade : Request.make source options = .ok request) (s : σ) :
    (∀ again result notices t ds,
      p.drive host.ledger request again (s, []) = (.finished result, notices, t, ds) →
        ∃ xs, Transcript p request xs result ∧ ds = ledgerOf xs) ∧
    (∀ again, Run.withoutLedger (p.drive host.ledger request again (s, [])) =
      p.drive host request again s) ∧
    (host.Answers →
      ∃ again result notices t, p.drive host request again s = (.finished result, notices, t)) ∧
    ∃ base, request.options.resolvedBasePath p.cwd = .ok base :=
  ⟨fun _ _ _ _ _ h => transcript_of_drive h,
    fun again => Run.drive_ledger host p request again s [],
    fun hhost => exists_drive p request hhost s, Request.exists_resolvedBasePath hmade p.cwd⟩

/-- The pipeline with the standard settings, at the root of all files. -/
def standard : Pipeline := ⟨.standard, ⟨[Path.slash]⟩, ⟨[Path.slash]⟩⟩

/-- The request for the codec of a file `a` at the root of all files. -/
def sampleRequest : Request := ⟨⟨[Path.slash, 0x61]⟩, .ofBasePath ⟨[Path.slash]⟩⟩

/-- A host on which that codec is one byte. -/
def sampleHost : Host Unit := .steady ⟨[Path.slash, 0x77]⟩ [0x78]

theorem drive_follows_transcript_sample :
    (∃ again result notices t, standard.drive sampleHost sampleRequest again () =
      (.finished result, notices, t)) ∧
      ∃ xs, Transcript standard sampleRequest xs (.ok [0x78]) := by
  have hmade : Request.make sampleRequest.source sampleRequest.options = .ok sampleRequest := by
    decide
  obtain ⟨hfollows, -, hends, -⟩ := drive_follows_transcript sampleHost standard hmade ()
  obtain ⟨xs, hxs, -⟩ := hfollows 0 _ _ _ _ rfl
  exact ⟨hends (Host.answers_ofAnswers _ _), xs, hxs⟩

end Pipeline

end StubLoader
