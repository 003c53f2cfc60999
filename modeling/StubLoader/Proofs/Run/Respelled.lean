import StubLoader.Proofs.Run.Lockstep
import StubLoader.Proofs.Run.Transcript
/-!
# The spelling of paths

A run takes the source of its request as it is folded, and the base path as it is seen from the root
and folded; the members that are handed through it takes for the reference in a stub alone. So two
requests for the same mode whose paths lead to the same places go the same way on every host: the
same calls are made, in the same order and with the same answers. Runs for codecs then have the same
result as well, failures included. What two stubs hold may differ, as their references keep the
paths and the options as they were given, but that is found out only when the file has been read,
and only the removal of the directory is still to come.
-/

namespace StubLoader

open Exchange

/-- Both requests are for the same mode, and their paths lead to the same places. -/
structure Request.SamePlaces (cwd : Path) (a b : Request) : Prop where
  mode : a.mode = b.mode
  source : a.source.normalize = b.source.normalize
  basePath : Path.absolutize? cwd a.options.basePath = Path.absolutize? cwd b.options.basePath

/-- Only the empty path has no place. -/
theorem Path.isSome_absolutize? (cwd p : Path) : (absolutize? cwd p).isSome = !p.isEmpty := by
  unfold absolutize?
  cases p.isEmpty <;> rfl

theorem Request.SamePlaces.resolvedBasePath {cwd : Path} {a b : Request} (h : a.SamePlaces cwd b) :
    a.options.resolvedBasePath cwd = b.options.resolvedBasePath cwd := by
  have hempty : a.options.basePath.isEmpty = b.options.basePath.isEmpty := by
    rw [← Bool.not_inj_iff, ← Path.isSome_absolutize? cwd, h.basePath, Path.isSome_absolutize?]
  unfold Options.resolvedBasePath Options.validate
  rw [hempty, h.basePath]

namespace Run

/-! ### Where two runs stand -/

/-- Two runs for these requests stand at the same place. From the time when a stub has been made or
not, what came of it may differ. -/
inductive Abreast (a b : Request) : Run → Run → Prop where
  | same (state : RunState) (stage : Stage) : Abreast a b ⟨a, state, stage⟩ ⟨b, state, stage⟩
  | releasing (hstub : a.mode = .service) (w : Path) (state state' : RunState)
      (outcome outcome' : Outcome Bytes) :
    Abreast a b ⟨a, state, .release w outcome⟩ ⟨b, state', .release w outcome'⟩
  | finished (hstub : a.mode = .service) (state state' : RunState)
      (result result' : Outcome Bytes) :
    Abreast a b ⟨a, state, .ended result⟩ ⟨b, state', .ended result'⟩

section Steps

variable {a b : Request}

/-- Two steps lead to the same place; for codecs of a source that is spelled the same, they report
the same as well. -/
def AbreastSteps (a b : Request) (x y : Step) : Prop :=
  Abreast a b x.1 y.1 ∧ (a.mode = .message → a.source = b.source → x.2 = y.2)

theorem abreast_goTo (state : RunState) (stage stage' : Stage) :
    AbreastSteps a b (goTo ⟨a, state, stage⟩ stage') (goTo ⟨b, state, stage⟩ stage') :=
  ⟨.same _ _, fun _ _ => rfl⟩

theorem abreast_giveUp (state : RunState) (stage : Stage) (w : Path) (e : Failure) :
    AbreastSteps a b (giveUp ⟨a, state, stage⟩ w e) (giveUp ⟨b, state, stage⟩ w e) :=
  abreast_goTo state stage _

theorem abreast_fail (state : RunState) (stage : Stage) (e : Failure) :
    AbreastSteps a b (fail ⟨a, state, stage⟩ e) (fail ⟨b, state, stage⟩ e) := by
  unfold fail
  dsimp only
  split_ifs
  · exact ⟨.same _ _, fun _ _ => rfl⟩
  · exact ⟨.same _ _, fun _ _ => rfl⟩

theorem abreast_report (e : Event) {x y : Step} (h : AbreastSteps a b x y) :
    AbreastSteps a b (report e x) (report e y) :=
  ⟨h.1, fun hmode hsource => by rw [report, report, h.2 hmode hsource]⟩

theorem abreast_warn (state : RunState) (stage : Stage) (remarks : Compiler.Remarks) {x y : Step}
    (h : AbreastSteps a b x y) :
    AbreastSteps a b (warn ⟨a, state, stage⟩ remarks x) (warn ⟨b, state, stage⟩ remarks y) :=
  ⟨h.1, fun hmode hsource => by rw [warn, warn, h.2 hmode hsource, hsource]⟩

theorem abreast_reach {state : RunState} {stage : Stage} (target : RunState)
    {refuse refuse' : Failure → Step} {next next' : Run → Step}
    (hrefuse : ∀ e, AbreastSteps a b (refuse e) (refuse' e))
    (hnext : AbreastSteps a b (next ⟨a, target, stage⟩) (next' ⟨b, target, stage⟩)) :
    AbreastSteps a b (reach ⟨a, state, stage⟩ target refuse next)
      (reach ⟨b, state, stage⟩ target refuse' next') := by
  unfold reach
  dsimp only
  split_ifs
  · exact abreast_report _ hnext
  · exact hrefuse _

end Steps

section Ends

theorem eq_mk {run : Run} {request : Request} {stage : Stage} (hrequest : run.request = request)
    (hstage : run.stage = stage) : run = ⟨request, run.state, stage⟩ := by
  rw [← hrequest, ← hstage]

/-- Once the file was read, a run can only give its directory back. -/
theorem read_fst (p : Pipeline) (run : Run) (w : Path) (modulePath : String)
    (answer : Except IoError Bytes) : ∃ state outcome,
      (run.read p w modulePath answer).1 = ⟨run.request, state, .release w outcome⟩ := by
  obtain ⟨outcome, hstage⟩ := (along_read p run w modulePath answer).of_read
  exact ⟨_, outcome, eq_mk (composed_request.read p run w modulePath answer) hstage⟩

/-- Once its directory was removed, or was not, a run is over. -/
theorem released_fst (run : Run) (w : Path) (outcome : Outcome Bytes)
    (answer : Except IoError Unit) : ∃ state result,
      (run.released w outcome answer).1 = ⟨run.request, state, .ended result⟩ := by
  obtain ⟨result, hstage⟩ := (along_released run w outcome answer).of_release
  exact ⟨_, result, eq_mk (composed_request.released run w outcome answer) hstage⟩

/-- What is generated for a codec is delivered as it is. -/
theorem finish_message {request : Request} (hmode : request.mode = .message) (entryPoint : String)
    (modulePath : String) (bytes : Bytes) :
    Artifact.finish entryPoint request modulePath bytes = .ok bytes := by
  rw [Artifact.finish, hmode]

end Ends

/-! ### One answer -/

section Answers

variable {p : Pipeline} {a b : Request} (h : a.SamePlaces p.cwd b) (state : RunState)
  (stage : Stage)
include h

theorem abreast_created (answer : Except IoError Path) :
    AbreastSteps a b (created p ⟨a, state, stage⟩ answer) (created p ⟨b, state, stage⟩ answer) := by
  cases answer with
  | error e => exact abreast_fail _ _ _
  | ok w =>
    refine abreast_report _ (abreast_reach _ (abreast_giveUp _ _ w) ?_)
    dsimp only
    rw [h.resolvedBasePath]
    split
    · exact abreast_giveUp _ _ _ _
    · exact abreast_goTo _ _ _

omit h in
theorem abreast_compilerSought (w base : Path) (answer : Option Path) :
    AbreastSteps a b (compilerSought p ⟨a, state, stage⟩ w base answer)
      (compilerSought p ⟨b, state, stage⟩ w base answer) := by
  cases answer with
  | none => exact abreast_giveUp _ _ _ _
  | some compiler => exact abreast_report _ (abreast_goTo _ _ _)

/-- The compiler gets the same arguments. -/
theorem arguments_samePlaces (w base plugin : Path) :
    arguments p ⟨a, state, stage⟩ w base plugin = arguments p ⟨b, state, stage⟩ w base plugin := by
  rw [arguments, arguments, h.source, h.mode]

theorem abreast_pluginSought (w base compiler : Path) (answer : Option Path) :
    AbreastSteps a b (pluginSought p ⟨a, state, stage⟩ w base compiler answer)
      (pluginSought p ⟨b, state, stage⟩ w base compiler answer) := by
  cases answer with
  | none => exact abreast_giveUp _ _ _ _
  | some plugin =>
    refine abreast_report _ (abreast_reach _ (abreast_giveUp _ _ w) ?_)
    rw [arguments_samePlaces h]
    exact abreast_report _ (abreast_goTo _ _ _)

theorem abreast_compiled (w base : Path) (answer : Except IoError ProcessOutput) :
    AbreastSteps a b (compiled ⟨a, state, stage⟩ w base answer)
      (compiled ⟨b, state, stage⟩ w base answer) := by
  cases answer with
  | error e => exact abreast_giveUp _ _ _ _
  | ok output =>
    unfold compiled
    dsimp only
    split
    · exact abreast_giveUp _ _ _ _
    · refine abreast_warn _ _ _ (abreast_reach _ (abreast_giveUp _ _ w) ?_)
      dsimp only
      rw [h.source]
      split
      · exact abreast_giveUp _ _ _ _
      · exact abreast_reach _ (abreast_giveUp _ _ w) (abreast_goTo _ _ _)

theorem abreast_read (w : Path) (modulePath : String) (answer : Except IoError Bytes) :
    AbreastSteps a b (Run.read p ⟨a, state, stage⟩ w modulePath answer)
      (Run.read p ⟨b, state, stage⟩ w modulePath answer) := by
  cases hmode : a.mode with
  | service =>
    -- what comes of a stub depends on how the paths are spelled
    obtain ⟨_, _, ha⟩ := read_fst p ⟨a, state, stage⟩ w modulePath answer
    obtain ⟨_, _, hb⟩ := read_fst p ⟨b, state, stage⟩ w modulePath answer
    refine ⟨?_, fun hmessage => by rw [hmode] at hmessage; cases hmessage⟩
    rw [ha, hb]
    exact .releasing hmode w _ _ _ _
  | message =>
    cases answer with
    | error e => exact abreast_giveUp _ _ _ _
    | ok bytes =>
      rw [Run.read, Run.read, finish_message hmode, finish_message (h.mode ▸ hmode)]
      exact abreast_reach _ (abreast_giveUp _ _ w) (abreast_goTo _ _ _)

omit h in
theorem abreast_released (w : Path) (outcome : Outcome Bytes) (answer : Except IoError Unit) :
    AbreastSteps a b (released ⟨a, state, stage⟩ w outcome answer)
      (released ⟨b, state, stage⟩ w outcome answer) := by
  unfold released
  cases answer with
  | error removal =>
    cases outcome with
    | error e => exact abreast_report _ (abreast_fail _ _ _)
    | ok artifact => exact abreast_fail _ _ _
  | ok _ =>
    refine abreast_report _ ?_
    cases outcome with
    | error e => exact abreast_fail _ _ _
    | ok artifact =>
      exact abreast_reach _ (abreast_fail _ _) (abreast_report _ (abreast_goTo _ _ _))

/-- Runs that stand at the same place are in step. For codecs they have the same result, and report
the same if the source is spelled the same. -/
theorem inStep_abreast : InStep p (Abreast a b)
    (fun result result' => a.mode = .message → result = result')
    (fun notices notices' => a.mode = .message → a.source = b.source → notices = notices') where
  held hab := by cases hab <;> rfl
  remaining hab := by cases hab <;> rfl
  next hab := by
    cases hab with
    | releasing hstub w state state' outcome outcome' =>
      refine .inr ⟨_, _, _, rfl, rfl, fun answer =>
        ⟨?_, fun hmode => by rw [hstub] at hmode; cases hmode⟩⟩
      obtain ⟨_, _, ha⟩ := released_fst ⟨a, state, .release w outcome⟩ w outcome answer
      obtain ⟨_, _, hb⟩ := released_fst ⟨b, state', .release w outcome'⟩ w outcome' answer
      rw [ha, hb]
      exact .finished hstub _ _ _ _
    | finished hstub state state' result result' =>
      exact .inl ⟨result, result', rfl, rfl, fun hmode => by rw [hstub] at hmode; cases hmode⟩
    | same state stage =>
      cases stage with
      | create => exact .inr ⟨_, _, _, rfl, rfl, abreast_created h state _⟩
      | findCompiler w base => exact .inr ⟨_, _, _, rfl, rfl, abreast_compilerSought state _ w base⟩
      | findPlugin w base compiler =>
        exact .inr ⟨_, _, _, rfl, rfl, abreast_pluginSought h state _ w base compiler⟩
      | compile w base compiler plugin =>
        unfold next
        dsimp only
        rw [arguments_samePlaces h]
        exact .inr ⟨_, _, _, rfl, rfl, abreast_compiled h state _ w base⟩
      | read w modulePath =>
        have hplace : artifactPath ⟨a, state, .read w modulePath⟩ w modulePath =
            artifactPath ⟨b, state, .read w modulePath⟩ w modulePath := by
          rw [artifactPath, artifactPath, h.mode]
        unfold next
        dsimp only
        rw [hplace]
        exact .inr ⟨_, _, _, rfl, rfl, abreast_read h state _ w modulePath⟩
      | release w outcome => exact .inr ⟨_, _, _, rfl, rfl, abreast_released state _ w outcome⟩
      | ended result => exact .inl ⟨result, result, rfl, rfl, fun _ => rfl⟩
  refl _ := fun _ _ => rfl
  append hxs hys := fun hmode hsource => by rw [hxs hmode hsource, hys hmode hsource]

end Answers

/-- One run came as far as another; if they are for codecs, to the same result. -/
def Progress.AsFar (mode : Mode) : Progress → Progress → Prop
  | .finished result, .finished result' => mode = .message → result = result'
  | .suspended a, .suspended b | .crashed a, .crashed b => a.stage.remaining = b.stage.remaining
  | _, _ => False

theorem Progress.Near.asFar {a b : Request} {x y : Progress} (h : x.Near (Abreast a b)
    (fun result result' => a.mode = .message → result = result') y) : x.AsFar a.mode y := by
  cases h with
  | finished h => exact h
  | suspended h | crashed h => cases h <;> rfl

end Run

namespace Pipeline

/-- Requests for the same mode whose paths lead to the same places, however they are spelled and
whatever is handed through, do the same to every host: driven equally long from the same state, they
leave it in the same state, with the same calls made and answered, and came equally far. If the
requests are for codecs they have the same result, failures included. -/
theorem drive_of_samePlaces {p : Pipeline} {a b : Request} (h : a.SamePlaces p.cwd b) {σ : Type}
    (host : Host σ) (again : Nat) (s : σ) : ∃ t ds progress progress' notices notices',
      p.drive host a again s = (progress, notices, t) ∧
      p.drive host b again s = (progress', notices', t) ∧
      p.drive host.ledger a again (s, []) = (progress, notices, t, ds) ∧
      p.drive host.ledger b again (s, []) = (progress', notices', t, ds) ∧
      progress.AsFar a.mode progress' := by
  have hnear :=
    Run.near_drive (Run.inStep_abreast h) host.ledger (.same .idle .create) again (s, [])
  rcases ha : p.drive host a again s with ⟨progress, notices, t⟩
  rcases hb : p.drive host b again s with ⟨progress', notices', t'⟩
  obtain ⟨ds, hads⟩ := Run.exists_ledger ha
  obtain ⟨ds', hbds⟩ := Run.exists_ledger hb
  rw [hads, hbds] at hnear
  obtain ⟨hprogress, -, hhost⟩ := hnear
  cases hhost
  exact ⟨t, ds, progress, progress', notices, notices', rfl, rfl, hads, hbds, hprogress.asFar⟩

/-- The request for the codec of the file `/p/a`, seen from `/p`, with the paths as they are. -/
def plainRequest : Request := ⟨.ofString "/p/a", ⟨.ofString "/p", .message, []⟩⟩

/-- The same, spelled with detours, the base path from the current directory, and with a member to
hand through. -/
def windingRequest : Request :=
  ⟨.ofString "/..//p/./b/../a/", ⟨.ofString "./q/../p//", .message, [("x", .null)]⟩⟩

theorem drive_of_samePlaces_sample :
    Request.make windingRequest.source windingRequest.options = .ok windingRequest ∧
      ∃ ds notices notices',
        standard.drive sampleHost.ledger plainRequest 0 ((), []) =
          (.finished (.ok [0x78]), notices, (), ds) ∧
        standard.drive sampleHost.ledger windingRequest 0 ((), []) =
          (.finished (.ok [0x78]), notices', (), ds) := by
  refine ⟨by decide +kernel, ?_⟩
  have hsame : plainRequest.SamePlaces standard.cwd windingRequest :=
    ⟨rfl, by decide +kernel, by decide +kernel⟩
  have hplain : ∃ notices ds, standard.drive sampleHost.ledger plainRequest 0 ((), []) =
      (.finished (.ok [0x78]), notices, (), ds) := ⟨_, _, rfl⟩
  obtain ⟨notices, ds, hplain⟩ := hplain
  obtain ⟨_, _, progress, progress', _, notices', -, -, hled, hled', hfar⟩ :=
    drive_of_samePlaces hsame sampleHost 0 ()
  cases hplain.symm.trans hled
  cases progress' with
  | finished result =>
    cases hfar rfl
    exact ⟨_, _, notices', hplain, hled'⟩
  | suspended run | crashed run => exact hfar.elim

end Pipeline

end StubLoader
