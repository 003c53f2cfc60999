import StubLoader.Machine.World
import StubLoader.Proofs.Batch.AtOnce
import StubLoader.Proofs.Command.Delivery
import StubLoader.Proofs.Command.Settling
import StubLoader.Proofs.Json.Reading
/-!
# The batch command

A world plays its batches on a host, as a machine does on itself. In whatever order the runs go on
and end, the command sees their results in the order of its sources. It delivers each artifact under
the name under which its run read it, so that only a file that cannot be written keeps it from its
last words; and how it ends is decided by the first result that is a failure.

    batch ─▶ log ─▶ result₁ ─▶ … ─▶ resultₙ ─▶ warnings ─▶ tally
-/

namespace StubLoader

open Session

/-- The world plays its batches on the host, in some order and possibly to a cancellation. Nothing
comes of a batch that does not begin. -/
def World.Plays {σ : Type} (w : World (StateM σ)) (host : Host σ) : Prop :=
  ∀ p requests s,
    (Batch.start? p requests .live = none → ∃ t, (w.runAll p requests).run s = (none, t)) ∧
    ∀ b₀, Batch.start? p requests .live = some b₀ → ∃ ms rs entries t,
      (b₀.play host p ms s).1.results? = some rs ∧
      (w.runAll p requests).run s = (some (rs, entries), t)

/-- A machine plays its batches on itself, one run after the other. -/
theorem Machine.world_plays : world.Plays host := by
  intro p requests s
  have hrun : (world.runAll p requests).run s = runAll p requests s := rfl
  refine ⟨fun hnone => ⟨s, by rw [hrun, runAll, hnone]⟩, fun b₀ hstart => ?_⟩
  have hhost : host.AtOnce := Host.atOnce_ofAnswers _ _
  obtain ⟨rs, hresults⟩ := Batch.exists_results_inOrder hhost hstart s
  simp only [runAll, hstart, hresults, Option.map_some] at hrun
  exact ⟨_, rs, _, _, hresults, hrun⟩

/-! ### Options and requests -/

theorem Options.exists_base {o : Options} (h : o.validate = .ok ()) (cwd : Path) :
    ∃ base, o.resolvedBasePath cwd = .ok base := by
  have hgiven : o.basePath.isEmpty = false := by
    unfold validate at h
    split_ifs at h with hempty
    simpa using hempty
  refine ⟨Path.normalize (Path.anchor cwd o.basePath), ?_⟩
  rw [resolvedBasePath, h, Path.absolutize?, hgiven]
  rfl

theorem Project.validate_of_checked {o options : Options}
    (h : (do checkOptions o; return o : Attempt Options) = .ok options) :
    options.validate = .ok () := by
  obtain ⟨⟨⟩, hcheck, h⟩ := Json.bind_eq_ok h
  cases h
  unfold checkOptions Attempt.ofOutcome at hcheck
  cases hvalidate : o.validate with
  | ok _ => rfl
  | error fault => rw [hvalidate] at hcheck; cases hcheck

/-- The options of a command have passed their check. -/
theorem Project.validate_of_optionsWith {p : Project} {basePath : Option Path} {mode : Option Mode}
    {options : Options} (h : p.optionsWith basePath mode = .ok options) :
    options.validate = .ok () := by
  unfold optionsWith at h
  generalize p.options = stated at h
  cases stated with
  | none =>
    cases basePath with
    | none => cases h
    | some basePath => exact validate_of_checked h
  | some stated =>
    cases basePath with
    | none => exact validate_of_checked h
    | some basePath => exact validate_of_checked h

theorem mapM_eq_ok {α β ε : Type} {f : α → Except ε β} : ∀ {as : List α} {bs : List β},
    as.mapM f = .ok bs → bs.length = as.length ∧ ∀ b ∈ bs, ∃ a, f a = .ok b
  | [], _, h => by cases h; exact ⟨rfl, fun _ hb => nomatch hb⟩
  | a :: as, _, h => by
    rw [List.mapM_cons] at h
    obtain ⟨b, hb, h⟩ := Json.bind_eq_ok h
    obtain ⟨bs, hbs, h⟩ := Json.bind_eq_ok h
    cases h
    obtain ⟨hlength, hmade⟩ := mapM_eq_ok hbs
    exact ⟨congrArg (· + 1) hlength, List.forall_mem_cons.mpr ⟨⟨a, hb⟩, hmade⟩⟩

namespace Session

section Command

variable {σ : Type} {s : Session (StateM σ)} {u : σ}

theorem request_eq_ok {options : Options} {source : Path} {request : Request}
    (h : s.request options source = .ok request) : request.options = options := by
  unfold Session.request at h
  split at h
  · cases h
  · next seen _ =>
    unfold Attempt.ofOutcome at h
    cases hmake : Request.make seen options with
    | error e => rw [hmake] at h; cases h
    | ok made =>
      rw [hmake] at h
      cases h
      rw [(Request.make_eq_ok hmake).1]

/-- All requests of a command have its options. -/
theorem options_of_mapM_request {options : Options} {sources : List Path} {requests : List Request}
    (h : sources.mapM (s.request options) = .ok requests) :
    ∀ request ∈ requests, request.options = options := by
  intro request hmem
  obtain ⟨source, hrequest⟩ := (mapM_eq_ok h).2 request hmem
  exact request_eq_ok hrequest

/-! ### The whole command -/

/-- What the world has come to once each line of the log has been shown. -/
def logged (s : Session (StateM σ)) (entries : List Entry) (u : σ) : σ :=
  entries.foldl (fun u entry => match entry.notice.event? with
    | some e => ((s.world.log s.filter entry.request e).run u).2
    | none => u) u

/-- What the world has come to once each of the warnings has been shown. -/
def warned (s : Session (StateM σ)) (warnings : List Warning) (u : σ) : σ :=
  warnings.foldl (fun u warning => ((s.world.warn ("⚠ " ++ warning.display)).run u).2) u

variable {base outDir : Path} {requests : List Request} {rs : List (Outcome Bytes)}

/-- How the command answers after its batch, whose log has led to the state `u`. -/
inductive Answer (s : Session (StateM σ)) (base outDir : Path) (requests : List Request)
    (rs : List (Outcome Bytes)) (warnings : List Warning) (u : σ) :
    Except Halt Unit × σ → Prop where
  | unwritten {c : Complaint} {t : σ} (h : Stuck s base outDir (requests.zip rs) u c t) :
    Answer s base outDir requests rs warnings u (.error (.complaint c), t)
  | summed {t : σ} (h : Passes (s.Settles base outDir) (requests.zip rs) u t) :
    Answer s base outDir requests rs warnings u
      ((Tally.ofResults rs warnings).verdict.mapError .complaint,
        ((s.world.say ("\n" ++ (Tally.ofResults rs warnings).line)).run (s.warned warnings t)).2)

section Results

variable {sources : List Path} {basePath : Option Path} {mode : Option Mode} {options : Options}
  (hoptions : s.project.optionsWith basePath mode = .ok options)
  (hbase : options.resolvedBasePath s.place.cwd = .ok base)
  (hrequests : sources.mapM (s.request options) = .ok requests) {t : σ}
include hoptions hbase hrequests

theorem goes_batch_none
    (hplayed : (s.world.runAll s.pipeline requests).run u = (none, t)) :
    (s.batch sources basePath mode outDir).goes u = (.error (.crash tooManyPermits), t) := by
  have hact := goes_act (s.world.runAll s.pipeline requests) u
  rw [hplayed] at hact
  unfold batch
  rw [goes_bind_ok (goes_lift_ok hoptions u), goes_bind_ok (goes_lift_ok (by rw [hbase]; rfl) u),
    goes_bind_ok (goes_lift_ok hrequests u), goes_bind_ok hact]
  rfl

variable (outDir) in
theorem goes_batch_some {entries : List Entry}
    (hplayed : (s.world.runAll s.pipeline requests).run u = (some (rs, entries), t))
    (hnamed : ∀ pair ∈ requests.zip rs, Named base pair.1 pair.2) :
    Answer s base outDir requests rs (Batch.warnings entries) (s.logged entries t)
      ((s.batch sources basePath mode outDir).goes u) := by
  have hact := goes_act (s.world.runAll s.pipeline requests) u
  rw [hplayed] at hact
  unfold batch
  rw [goes_bind_ok (goes_lift_ok hoptions u), goes_bind_ok (goes_lift_ok (by rw [hbase]; rfl) u),
    goes_bind_ok (goes_lift_ok hrequests u), goes_bind_ok hact]
  dsimp only
  rw [goes_forIn_quiet (fun u entry => match entry.notice.event? with
    | some e => ((s.world.log s.filter entry.request e).run u).2
    | none => u) entries t fun entry u => by cases entry.notice.event? <;> rfl, ← logged]
  refine goes_forIn (R := s.Settles base outDir)
    (H := fun pair u e t => ∃ c, e = .complaint c ∧ s.Blocks base outDir pair u c t)
    (fun pair hmem u => ?_) (fun v hsettled => ?_) ?_
  · rcases goes_settle s outDir (hnamed pair hmem) u with
      ⟨t, hsettles, hsettled⟩ | ⟨c, t, hblocks, hhalted⟩
    · exact .inl ⟨t, hsettles, goes_bind_ok hsettled⟩
    · exact .inr ⟨_, t, ⟨c, rfl, hblocks⟩, goes_bind_error hhalted⟩
  · rw [goes_forIn_quiet (fun u warning => ((s.world.warn ("⚠ " ++ warning.display)).run u).2)
      (Batch.warnings entries) v fun warning u => rfl, ← warned]
    exact .summed hsettled
  · rintro front pair back v _ t hpairs hfront ⟨c, rfl, hblocks⟩
    exact .unwritten ⟨hpairs, hfront, hblocks⟩

end Results

end Command

theorem start_eq_ok {σ : Type} {w : World (StateM σ)} {place : Surroundings} {line : CommandLine}
    {session : Session (StateM σ)} {s u : σ} (h : (start w place line).goes s = (.ok session, u)) :
    session.world = w ∧ session.place = place := by
  obtain ⟨project, t, -, h⟩ := goes_bind_eq_ok h
  obtain ⟨filter, t', -, h⟩ := goes_bind_eq_ok h
  cases h
  exact ⟨rfl, rfl⟩

end Session

namespace CommandLine

variable {σ : Type} {w : World (StateM σ)} {place : Surroundings} {args : List Bytes}
  {line : CommandLine}

/-- The exit code of a command, and what it says at last. -/
def ending (w : World (StateM σ)) : Except Halt Unit × σ → Nat × σ
  | (.ok (), t) => (0, t)
  | (.error (.complaint c), t) => (c.exitCode, ((w.warn ("error: " ++ c.message)).run t).2)
  | (.error (.crash message), t) => (crashCode, ((w.warn message).run t).2)

theorem execute_eq (hparse : parse args = .ok line) {session : Session (StateM σ)} {s u : σ}
    (hstart : (Session.start w place line).goes s = (.ok session, u)) :
    (execute w place args).run s = ending w ((session.perform line).goes u) := by
  have hgoes : (ExceptT.run (Session.start w place line >>= fun session =>
      session.perform line)).run s = (session.perform line).goes u := goes_bind_ok hstart
  unfold execute
  rw [hparse]
  dsimp only
  rw [StateT.run_bind, hgoes]
  rcases (session.perform line).goes u with ⟨(c | message) | ⟨⟩, t⟩ <;> rfl

/-- How a batch command ends, with its exit code, once its batch has given these results and its log
has led to the state `u`. -/
inductive BatchEnding (s : Session (StateM σ)) (base outDir : Path) (requests : List Request)
    (rs : List (Outcome Bytes)) (warnings : List Warning) (u : σ) : Nat × σ → Prop where
  /-- Every run made its artifact. -/
  | generated {t : σ} (h : ∀ result ∈ rs, ∃ artifact, result = .ok artifact)
    (hsettled : Passes (s.Settles base outDir) (requests.zip rs) u t) :
    BatchEnding s base outDir requests rs warnings u (0,
      ((s.world.say ("\n" ++ (Tally.ofResults rs warnings).line)).run (s.warned warnings t)).2)
  /-- The first failure in the order of the sources decides. -/
  | failed {i : Nat} {f : Failure} {c : Complaint} {t : σ} (hfirst : rs[i]? = some (.error f))
    (hbefore : ∀ j < i, ∃ artifact, rs[j]? = some (.ok artifact)) (hc : c.failure = some f)
    (hsettled : Passes (s.Settles base outDir) (requests.zip rs) u t) :
    BatchEnding s base outDir requests rs warnings u (f.code,
      ((s.world.warn ("error: " ++ c.message)).run
        ((s.world.say ("\n" ++ (Tally.ofResults rs warnings).line)).run
          (s.warned warnings t)).2).2)
  /-- An artifact could not be written. -/
  | unwritten {c : Complaint} {t : σ} (h : s.Stuck base outDir (requests.zip rs) u c t) :
    BatchEnding s base outDir requests rs warnings u
      (1, ((s.world.warn ("error: " ++ c.message)).run t).2)

section Ending

variable {s : Session (StateM σ)} {base outDir : Path} {requests : List Request}
  {rs : List (Outcome Bytes)} {warnings : List Warning} {u : σ}

theorem batchEnding_of_answer {moved : Except Halt Unit × σ}
    (h : s.Answer base outDir requests rs warnings u moved) :
    BatchEnding s base outDir requests rs warnings u (ending s.world moved) := by
  cases h with
  | @unwritten c t hstuck =>
    have hcode : c.exitCode = 1 := by
      rw [Complaint.exitCode, hstuck.unwritten]
      rfl
    rw [ending, hcode]
    exact .unwritten hstuck
  | summed hsettled =>
    have hfailures : (Tally.ofResults rs warnings).failures = rs.filterMap Tally.failure? := rfl
    rw [Tally.verdict]
    cases hresults : rs.filterMap Tally.failure? with
    | nil =>
      rw [hfailures, hresults]
      exact .generated (Tally.forall_ok_of_failures hresults) hsettled
    | cons first rest =>
      obtain ⟨i, hfirst, hbefore⟩ := Tally.exists_first hresults
      rw [hfailures, hresults]
      exact .failed hfirst hbefore rfl hsettled

variable {moved : Nat × σ} (h : BatchEnding s base outDir requests rs warnings u moved)
  (hdeliverable : s.Deliverable base outDir (requests.zip rs) u)
include h hdeliverable

theorem BatchEnding.code_eq_zero_iff :
    moved.1 = 0 ↔ ∀ result ∈ rs, ∃ artifact, result = .ok artifact := by
  cases h with
  | generated h _ => exact iff_of_true rfl h
  | failed hfirst _ _ _ =>
    refine iff_of_false (Failure.code_ne_zero _) fun h => ?_
    obtain ⟨artifact, hresult⟩ := h _ (List.mem_of_getElem? hfirst)
    cases hresult
  | unwritten hstuck => exact absurd hstuck hdeliverable.not_stuck

/-- The exit code is that of the first failure. -/
theorem BatchEnding.code_eq {i : Nat} {f : Failure} (hfirst : rs[i]? = some (.error f))
    (hbefore : ∀ j < i, ∃ artifact, rs[j]? = some (.ok artifact)) : moved.1 = f.code := by
  cases h with
  | generated h _ =>
    obtain ⟨artifact, hresult⟩ := h _ (List.mem_of_getElem? hfirst)
    cases hresult
  | @failed i' f' _ _ hfirst' hbefore' _ _ =>
    rcases Nat.lt_trichotomy i i' with hlt | rfl | hlt
    · obtain ⟨artifact, hresult⟩ := hbefore' i hlt
      cases hfirst.symm.trans hresult
    · cases hfirst.symm.trans hfirst'
      rfl
    · obtain ⟨artifact, hresult⟩ := hbefore i' hlt
      cases hfirst'.symm.trans hresult
  | unwritten hstuck => exact absurd hstuck hdeliverable.not_stuck

end Ending

/-- What a command takes up agrees with what its runs did: the artifact in the place of a request is
named, from the base of the command, as the run of that request read it. -/
def Agrees (p : Pipeline) (base : Path) (requests : List Request) (rs : List (Outcome Bytes))
    (ledgers : Nat → List Deed) : Prop :=
  ∀ (i : Nat) (request : Request) (artifact : Bytes), requests[i]? = some request →
    rs[i]? = some (.ok artifact) → ∃ xs relative, Transcript p request xs (.ok artifact) ∧
      ledgers i = ledgerOf xs ∧
      Output.resolve base request.source request.mode = .ok relative ∧ p.ReadAt relative xs

theorem agrees_of_inv {p : Pipeline} {base : Path} {requests : List Request} {c : Scene σ}
    (h : c.Inv p requests) {rs : List (Outcome Bytes)} (hresults : c.batch.results? = some rs)
    (hbase : ∀ request ∈ requests, request.options.resolvedBasePath p.cwd = .ok base) :
    Agrees p base requests rs c.ledgers := by
  intro i request artifact hrequest hresult
  obtain ⟨result, hresult', hverdict⟩ := h.verdict hresults hrequest
  obtain rfl := Option.some_inj.mp (hresult.symm.trans hresult')
  cases hverdict with
  | ran htranscript hledger _ =>
    obtain ⟨relative, hresolve, hread⟩ :=
      htranscript.exists_resolve rfl (hbase request (List.mem_of_getElem? hrequest))
    exact ⟨_, relative, htranscript, hledger, hresolve, hread⟩

theorem Agrees.named {p : Pipeline} {base : Path} {requests : List Request}
    {rs : List (Outcome Bytes)} {ledgers : Nat → List Deed}
    (h : Agrees p base requests rs ledgers) :
    ∀ pair ∈ requests.zip rs, Named base pair.1 pair.2 := by
  intro pair hmem artifact hresult
  obtain ⟨i, hi⟩ := List.mem_iff_getElem?.mp hmem
  obtain ⟨hrequest, hartifact⟩ := List.getElem?_zip_eq_some.mp hi
  obtain ⟨-, relative, -, -, hresolve, -⟩ := h i pair.1 artifact hrequest (hresult ▸ hartifact)
  rw [Output.resolve] at hresolve
  cases hmodule : Output.modulePath base pair.1.source with
  | error fault =>
    rw [hmodule] at hresolve
    cases hresolve
  | ok m => exact ⟨m, rfl⟩

variable {host : Host σ} {sources : List Path} {basePath : Option Path} {mode : Option Mode}
  {outDir : Path} {session : Session (StateM σ)} {s u : σ} {options : Options}
  {requests : List Request}

/-- A batch command whose requests can all be made crashes if its limit is greater than there can be
permits. Otherwise it has one result for each source, on every host and in whatever order the runs
end; the name that it finds for an artifact is the one under which the run read it; what it counts
are all of the sources; and it ends as the first failure in their order says, unless an artifact
cannot be written when its turn comes. If all of them can, its exit code is zero exactly when no run
failed, and otherwise that of the first failure. -/
theorem batch_ends_as_its_runs (hplays : w.Plays host) (hparse : parse args = .ok line)
    (hcommand : line.command = .batch sources basePath mode outDir)
    (hstart : (Session.start w place line).goes s = (.ok session, u))
    (hoptions : session.project.optionsWith basePath mode = .ok options)
    (hrequests : sources.mapM (session.request options) = .ok requests) :
    (Batch.maxPermits < session.project.settings.maxConcurrentRuns →
      ((execute w place args).run s).1 = crashCode) ∧
    (session.project.settings.maxConcurrentRuns ≤ Batch.maxPermits →
      ∃ base b₀ ms rs entries t, options.resolvedBasePath place.cwd = .ok base ∧
        Batch.start? session.pipeline requests .live = some b₀ ∧
        (b₀.play host session.pipeline ms u).1.results? = some rs ∧
        (w.runAll session.pipeline requests).run u = (some (rs, entries), t) ∧
        rs.length = sources.length ∧
        Agrees session.pipeline base requests rs
          ((Scene.initial b₀ u).play host session.pipeline ms).ledgers ∧
        (Tally.ofResults rs (Batch.warnings entries)).generated +
          (Tally.ofResults rs (Batch.warnings entries)).failed = sources.length ∧
        BatchEnding session base outDir requests rs (Batch.warnings entries)
          (session.logged entries t) ((execute w place args).run s) ∧
        (session.Deliverable base outDir (requests.zip rs) (session.logged entries t) →
          (((execute w place args).run s).1 = 0 ↔
            ∀ result ∈ rs, ∃ artifact, result = .ok artifact) ∧
          ∀ (i : Nat) (f : Failure), rs[i]? = some (.error f) →
            (∀ j < i, ∃ artifact, rs[j]? = some (.ok artifact)) →
              ((execute w place args).run s).1 = f.code)) := by
  obtain ⟨rfl, hplace⟩ := start_eq_ok hstart
  have hexecute := execute_eq hparse hstart
  rw [show session.perform line = session.batch sources basePath mode outDir by
    rw [perform, hcommand]] at hexecute
  obtain ⟨base, hbase⟩ :=
    Options.exists_base (Project.validate_of_optionsWith hoptions) session.place.cwd
  obtain ⟨hcount, -⟩ := mapM_eq_ok hrequests
  obtain ⟨hrefused, hplayed⟩ := hplays session.pipeline requests u
  refine ⟨fun hlimit => ?_, fun hlimit => ?_⟩
  · obtain ⟨t, hnone⟩ := hrefused (Batch.start?_eq_none_iff.mpr hlimit)
    rw [hexecute, goes_batch_none hoptions hbase hrequests hnone]
    rfl
  · obtain ⟨b₀, hb₀⟩ := Batch.exists_start (p := session.pipeline) hlimit requests .live
    obtain ⟨ms, rs, entries, t, hresults, hrun⟩ := hplayed b₀ hb₀
    obtain ⟨hinv, hbatch⟩ := Batch.inv_of_start? hb₀ host ms u
    have hresults' := hresults
    rw [← hbatch] at hresults'
    have hlength : rs.length = sources.length := by
      rw [(hinv.results hresults').1, hcount]
    have hbases : ∀ request ∈ requests,
        request.options.resolvedBasePath session.place.cwd = .ok base := by
      intro request hmem
      rw [options_of_mapM_request hrequests request hmem]
      exact hbase
    have hagrees := agrees_of_inv hinv hresults' hbases
    have hanswer := goes_batch_some outDir hoptions hbase hrequests hrun hagrees.named
    have hending := batchEnding_of_answer hanswer
    rw [← hexecute] at hending
    refine ⟨base, b₀, ms, rs, entries, t, hplace ▸ hbase, hb₀, hresults, hrun, hlength, hagrees, ?_,
      hending, fun hdeliverable => ⟨hending.code_eq_zero_iff hdeliverable, fun i f hfirst hbefore =>
        hending.code_eq hdeliverable hfirst hbefore⟩⟩
    rw [Tally.generated_add_failed, hlength]

end CommandLine

/-! ### A machine -/

namespace Machine

/-- Where commands are given on the machine below. -/
def workshopPlace : Surroundings := ⟨.ofString "/work", .ofString "/tmp", none, false⟩

/-- A machine with the two tools. The compiler fails on one source; for every other it writes a
codec of one byte into the first scratch directory. -/
def workshop : Machine where
  tree := ⟨[([Utf8.ofString "bin"], .directory),
    ([Utf8.ofString "bin", Utf8.ofString "protoc"], .file [] true),
    ([Utf8.ofString "bin", Utf8.ofString "protoc-gen-js_service"], .file [] true),
    ([Utf8.ofString "work"], .directory)]⟩
  cwd := workshopPlace.cwd
  temp := workshopPlace.temp
  home := none
  search := [.ofString "/bin"]
  behave _ args :=
    if args.getLast? = some (Utf8.ofString "/work/b.proto") then .ok ⟨[], ⟨some 1, false, [], []⟩⟩
    else .ok ⟨[(.ofString "/tmp/grpc-web-loader-000000/a_pb.js", [0x78])], ⟨some 0, true, [], []⟩⟩
  calls := []
  made := 0
  stdout := []
  stderr := []

/-- The machine with a project file that asks for one permit more than there can be. -/
def crowdedWorkshop : Machine :=
  let text := "[pipeline]\nmax_concurrent_runs = 2305843009213693952\n"
  { workshop with
    tree := workshop.tree.put [Utf8.ofString "work", Utf8.ofString Project.fileName]
      (.file (Utf8.ofString text) false) }

end Machine

namespace CommandLine

open Machine

/-- A batch of two sources, of which the second does not compile. -/
def workshopArgs : List Bytes :=
  ["batch", "a.proto", "b.proto", "--base-path", ".", "--out-dir", "out"].map Utf8.ofString

/-- What the arguments ask for. -/
def workshopLine : CommandLine where
  config := none
  logLevel := none
  command := .batch [.ofString "a.proto", .ofString "b.proto"] (some (.ofString ".")) none
    (.ofString "out")

/-- The session in which it is done. -/
def workshopSession : Session (StateM Machine) := ⟨world, workshopPlace, {}, .upTo .standard⟩

/-- The requests that it makes. -/
def workshopRequests : List Request :=
  [⟨.ofString "/work/a.proto", .ofBasePath (.ofString ".")⟩,
    ⟨.ofString "/work/b.proto", .ofBasePath (.ofString ".")⟩]

/-- The only artifact of the batch can be written, and its exit code is that of its only failure. -/
theorem batch_ends_as_its_runs_workshop : ∃ (rs : List (Outcome Bytes)) (entries : List Entry)
    (t : Machine) (i : Nat) (f : Failure),
    (world.runAll workshopSession.pipeline workshopRequests).run workshop =
      (some (rs, entries), t) ∧
    workshopSession.Deliverable (.ofString "/work") (.ofString "out") (workshopRequests.zip rs)
      (workshopSession.logged entries t) ∧ rs.length = 2 ∧
    (Tally.ofResults rs (Batch.warnings entries)).generated +
      (Tally.ofResults rs (Batch.warnings entries)).failed = 2 ∧
    rs[i]? = some (.error f) ∧ (∀ j < i, ∃ artifact, rs[j]? = some (.ok artifact)) ∧ f.code = 2 ∧
    ((execute world workshopPlace workshopArgs).run workshop).1 = f.code := by
  have hcode : ((execute world workshopPlace workshopArgs).run workshop).1 = 2 := by
    decide +kernel
  have hstart : (Session.start world workshopPlace workshopLine).goes workshop =
      (.ok workshopSession, workshop) := rfl
  have hoptions : ({} : Project).optionsWith (some (.ofString ".")) none =
      .ok (.ofBasePath (.ofString ".")) := rfl
  have hrequests : [Path.ofString "a.proto", .ofString "b.proto"].mapM
      (workshopSession.request (.ofBasePath (.ofString "."))) = .ok workshopRequests := rfl
  have hparse : parse workshopArgs = .ok workshopLine := rfl
  obtain ⟨-, hends⟩ :=
    batch_ends_as_its_runs world_plays hparse rfl hstart hoptions hrequests
  obtain ⟨base, _, _, rs, entries, t, hbase, -, -, hrun, hlength, -, hcount, hending, hcodes⟩ :=
    hends (by decide)
  cases hbase.symm.trans (show _ = .ok (.ofString "/work") from rfl)
  refine ⟨rs, entries, t, ?_⟩
  generalize (execute world workshopPlace workshopArgs).run workshop = moved
    at hcode hending hcodes ⊢
  cases hending with
  | generated _ _ | unwritten _ => cases hcode
  | @failed i f _ _ hfirst hbefore _ hsettled =>
    have hdeliverable := deliverable_of_passes hsettled
    obtain ⟨-, hfailure⟩ := hcodes hdeliverable
    exact ⟨i, f, hrun, hdeliverable, hlength, hcount, hfirst, hbefore, hcode,
      hfailure i f hfirst hbefore⟩

/-- Where the project file asks for too many permits, the same batch crashes and prints nothing. -/
theorem crowded_batch_crashes :
    ((execute world workshopPlace workshopArgs).run crowdedWorkshop).1 = crashCode ∧
      ((execute world workshopPlace workshopArgs).run crowdedWorkshop).2.stdout = [] := by
  decide +kernel

end CommandLine

end StubLoader
