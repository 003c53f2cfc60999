import Mathlib.Data.List.Dedup
import StubLoader.Proofs.Command.Files
import StubLoader.Proofs.Machine.Files
/-!
# The artifacts of a batch

A batch that ends well has delivered an artifact for each of its sources. Nothing but a later
artifact of the same module path takes the place of one: if no module path occurs twice then every
target holds its own artifact, and there are as many files as the command says it has generated.
Sources that differ in their extensions alone have the same module path, and only the last of them
is left.
-/

namespace StubLoader

open Session

namespace Session

variable {σ : Type} {s : Session (StateM σ)} {u v : σ} {outDir base : Path} {mode : Mode}
  {requests : List Request} {rs : List (Outcome Bytes)} {warnings : List Warning}

/-- A command that comes to its end has settled all of its results and found nothing to complain
about. -/
theorem Answer.of_ok (h : s.Answer base outDir requests rs warnings u (.ok (), v)) :
    (Tally.ofResults rs warnings).verdict = .ok () ∧
      ∃ t, Passes (s.Settles base outDir) (requests.zip rs) u t ∧
        v = ((s.world.say ("\n" ++ (Tally.ofResults rs warnings).line)).run
          (s.warned warnings t)).2 := by
  generalize hmoved : ((.ok (), v) : Except Halt Unit × σ) = moved at h
  cases h with
  | unwritten _ => cases hmoved
  | @summed t hsettled =>
    obtain ⟨hverdict, rfl⟩ := Prod.mk.inj hmoved
    refine ⟨?_, t, hsettled, rfl⟩
    cases h : (Tally.ofResults rs warnings).verdict with
    | error c =>
      rw [h] at hverdict
      cases hverdict
    | ok _ => rfl

/-- When all results are artifacts, their last ones are kept to the end of the command. -/
theorem exists_keepsLast (hfiles : s.world.KeepsFiles)
    (hmodes : ∀ request ∈ requests, request.mode = mode)
    (hall : ∀ result ∈ rs, ∃ artifact, result = .ok artifact)
    (hsettled : Passes (s.Settles base outDir) (requests.zip rs) u v) (line : String) :
    ∃ artifacts, List.Forall₂ (Delivers base outDir) (requests.zip rs) artifacts ∧
      s.KeepsLast outDir mode artifacts ((s.world.say line).run (s.warned warnings v)).2 := by
  have hnone : s.Settled base outDir mode [] u := ⟨[], .nil, fun _ _ hlast => nomatch hlast⟩
  have hend := ((hnone.passes hfiles (fun pair hpair => hmodes _ (List.of_mem_zip hpair).1)
    hsettled).warned hfiles warnings).say hfiles line
  have hfilter : (requests.zip rs).filter (·.2.isOk) = requests.zip rs := by
    refine List.filter_eq_self.mpr fun pair hpair => ?_
    obtain ⟨artifact, hartifact⟩ := hall pair.2 (List.of_mem_zip hpair).2
    rw [hartifact]
    rfl
  rwa [List.nil_append, Settled, hfilter] at hend

end Session

namespace CommandLine

variable {σ : Type} {w : World (StateM σ)}

/-- A command whose exit code is zero has come to its end. -/
theorem ok_of_code_eq_zero {moved : Except Halt Unit × σ} (h : (ending w moved).1 = 0) :
    ∃ t, moved = (.ok (), t) ∧ ending w moved = (0, t) := by
  rcases moved with ⟨(c | message) | ⟨⟩, t⟩
  · have hcode : c.exitCode = 0 := h
    rw [Complaint.exitCode] at hcode
    cases hfailure : c.failure with
    | none =>
      rw [hfailure] at hcode
      cases hcode
    | some failure =>
      rw [hfailure] at hcode
      exact absurd hcode failure.code_ne_zero
  · cases h
  · exact ⟨t, rfl, rfl⟩

/-- What is left of the artifacts of a batch, each with its module path, once all of them have been
written below the output directory, and how it compares with the number that is told. -/
structure Kept (w : World (StateM σ)) (outDir : Path) (mode : Mode)
    (artifacts : List (String × Bytes)) (generated : Nat) (t : σ) : Prop where
  /-- A target holds the last artifact of its module path. -/
  last : ∀ a ∈ artifacts, ∃ held, Json.last? a.1 artifacts = some held ∧
    w.Holds t (Output.target outDir mode a.1) held
  /-- Only those of one module path share a target. -/
  shared : ∀ a ∈ artifacts, ∀ a' ∈ artifacts,
    Output.target outDir mode a.1 = Output.target outDir mode a'.1 ↔ a.1 = a'.1
  /-- There are as many files as is told exactly if no module path occurs twice. -/
  count : (artifacts.map fun a => Output.target outDir mode a.1).dedup.length = generated ↔
    (artifacts.map (·.1)).Nodup
  /-- And then each of them holds its own artifact. -/
  own : (artifacts.map (·.1)).Nodup → ∀ a ∈ artifacts,
    w.Holds t (Output.target outDir mode a.1) a.2

theorem kept_of_settled {s : Session (StateM σ)} {base outDir : Path} {mode : Mode}
    {pairs : List (Request × Outcome Bytes)} {artifacts : List (String × Bytes)} {t : σ}
    (hdelivers : List.Forall₂ (Delivers base outDir) pairs artifacts)
    (hlast : s.KeepsLast outDir mode artifacts t) :
    Kept s.world outDir mode artifacts artifacts.length t := by
  have hshared : ∀ a ∈ artifacts, ∀ a' ∈ artifacts,
      Output.target outDir mode a.1 = Output.target outDir mode a'.1 ↔ a.1 = a'.1 := by
    intro a ha a' ha'
    obtain ⟨source, hmodule⟩ := exists_modulePath hdelivers a ha
    obtain ⟨source', hmodule'⟩ := exists_modulePath hdelivers a' ha'
    exact Output.target_eq_iff hmodule hmodule' outDir mode
  refine ⟨fun a ha => ?_, hshared, ?_, fun hkeys a ha => hlast _ _ (Json.last?_of_nodup hkeys ha)⟩
  · obtain ⟨held, hheld⟩ := Json.exists_last? ha
    exact ⟨held, hheld, hlast _ _ hheld⟩
  · have htargets : artifacts.map (fun a => Output.target outDir mode a.1) =
        (artifacts.map (·.1)).map (Output.target outDir mode) := by
      rw [List.map_map]
      rfl
    rw [← List.length_map (fun a : String × Bytes => Output.target outDir mode a.1), htargets]
    constructor
    · intro hlength
      refine List.Nodup.of_map (Output.target outDir mode) (List.dedup_eq_self.mp ?_)
      exact (List.dedup_sublist _).eq_of_length hlength
    · intro hkeys
      refine congrArg List.length (List.dedup_eq_self.mpr (hkeys.map_on fun m hm m' hm' => ?_))
      obtain ⟨a, ha, rfl⟩ := List.mem_map.mp hm
      obtain ⟨a', ha', rfl⟩ := List.mem_map.mp hm'
      exact (hshared a ha a' ha').mp

variable {host : Host σ} {place : Surroundings} {args : List Bytes} {line : CommandLine}
  {sources : List Path} {basePath : Option Path} {mode : Option Mode}
  {outDir : Path} {session : Session (StateM σ)} {s u : σ} {options : Options}
  {requests : List Request}

/-- A batch command that ends with exit code zero, in a world that keeps its files, has an artifact
for each source in their order. Each of them it has written to the target of its module path, and
then it has printed this target; at last it has told that it has generated as many as there are
sources. In the end every target holds the last artifact of its module path, so its own if no module
path occurs twice; and exactly then there are as many files as is told. Of two sources that are
found by names the module paths are the same exactly if their directories and their stems are. -/
theorem batch_keeps_last_artifacts (hplays : w.Plays host) (hfiles : w.KeepsFiles)
    (hparse : parse args = .ok line)
    (hcommand : line.command = .batch sources basePath mode outDir)
    (hstart : (Session.start w place line).goes s = (.ok session, u))
    (hoptions : session.project.optionsWith basePath mode = .ok options)
    (hrequests : sources.mapM (session.request options) = .ok requests)
    (hcode : ((execute w place args).run s).1 = 0) :
    ∃ base b₀ ms rs entries artifacts t v, options.resolvedBasePath place.cwd = .ok base ∧
      Batch.start? session.pipeline requests .live = some b₀ ∧
      (b₀.play host session.pipeline ms u).1.results? = some rs ∧
      (w.runAll session.pipeline requests).run u = (some (rs, entries), t) ∧
      List.Forall₂ (Delivers base outDir) (requests.zip rs) artifacts ∧
      artifacts.length = sources.length ∧
      Passes (session.Delivered outDir options.mode) (requests.zip artifacts)
        (session.logged entries t) v ∧
      ((execute w place args).run s).2 =
        ((w.say ("\n" ++ (Tally.ofResults rs (Batch.warnings entries)).line)).run
          (session.warned (Batch.warnings entries) v)).2 ∧
      (Tally.ofResults rs (Batch.warnings entries)).generated = sources.length ∧
      Kept w outDir options.mode artifacts
        (Tally.ofResults rs (Batch.warnings entries)).generated ((execute w place args).run s).2 ∧
      ∀ {source source' : Path} {dirs dirs' : List String} {stem stem' : String},
        Output.FoundBy base source dirs stem → Output.FoundBy base source' dirs' stem' →
          (Output.modulePath base source = Output.modulePath base source' ↔
            dirs = dirs' ∧ stem = stem') := by
  obtain ⟨rfl, hplace⟩ := start_eq_ok hstart
  have hexecute := execute_eq hparse hstart
  rw [show session.perform line = session.batch sources basePath mode outDir by
    rw [perform, hcommand]] at hexecute
  obtain ⟨base, hbase⟩ :=
    Options.exists_base (Project.validate_of_optionsWith hoptions) session.place.cwd
  obtain ⟨hcount, -⟩ := mapM_eq_ok hrequests
  obtain ⟨v, hgoes, hended⟩ := ok_of_code_eq_zero (hexecute ▸ hcode)
  obtain ⟨hrefused, hplayed⟩ := hplays session.pipeline requests u
  cases hb₀ : Batch.start? session.pipeline requests .live with
  | none =>
    obtain ⟨t, hnone⟩ := hrefused hb₀
    rw [goes_batch_none hoptions hbase hrequests hnone] at hgoes
    cases hgoes
  | some b₀ =>
    obtain ⟨ms, rs, entries, t, hresults, hrun⟩ := hplayed b₀ hb₀
    obtain ⟨hinv, hbatch⟩ := Batch.inv_of_start? hb₀ host ms u
    have hresults' := hresults
    rw [← hbatch] at hresults'
    have hlength : rs.length = requests.length := (hinv.results hresults').1
    have hoptions' := options_of_mapM_request hrequests
    have hmodes : ∀ request ∈ requests, request.mode = options.mode := fun request hmem => by
      rw [Request.mode, hoptions' request hmem]
    have hagrees := agrees_of_inv hinv hresults' fun request hmem => hoptions' request hmem ▸ hbase
    have hanswer := goes_batch_some outDir hoptions hbase hrequests hrun hagrees.named
    rw [hgoes] at hanswer
    obtain ⟨hverdict, t', hsettled, rfl⟩ := hanswer.of_ok
    obtain ⟨hall, hgenerated⟩ := Tally.of_verdict_eq_ok hverdict
    obtain ⟨artifacts, hdelivers, hlast⟩ := exists_keepsLast hfiles hmodes hall hsettled _
    have hnumber : artifacts.length = sources.length := by
      rw [← hdelivers.length_eq, List.length_zip, hlength, Nat.min_self, hcount]
    have htold : (Tally.ofResults rs (Batch.warnings entries)).generated = sources.length := by
      rw [hgenerated, hlength, hcount]
    have hdelivered := passes_delivered hdelivers
      (fun pair hpair => hmodes _ (List.of_mem_zip hpair).1) hsettled
    rw [List.map_fst_zip hlength.ge] at hdelivered
    refine ⟨base, b₀, ms, rs, entries, artifacts, t, t', hplace ▸ hbase, rfl, hresults, hrun,
      hdelivers, hnumber, hdelivered, ?_, htold, ?_,
      fun hfound hfound' => hfound.modulePath_eq_iff hfound'⟩
    · rw [hexecute, hended]
    · rw [hexecute, hended, htold, ← hnumber]
      exact kept_of_settled hdelivers hlast

/-! ### A machine that generates everything -/

/-- The machine with a compiler that never fails. In the first scratch directory it writes a codec
of one byte for the source that it knows, in the second the codecs of two others. -/
def pressroom : Machine where
  __ := Machine.workshop
  behave _ args :=
    if args.getLast? = some (Utf8.ofString "/work/a.proto") then
      .ok ⟨[(.ofString "/tmp/grpc-web-loader-000000/a_pb.js", [0x78])], ⟨some 0, true, [], []⟩⟩
    else
      .ok ⟨["a_pb.js", "d/b_pb.js"].map fun name =>
        (.ofString ("/tmp/grpc-web-loader-000001/" ++ name), [0x79]), ⟨some 0, true, [], []⟩⟩

/-- How a batch of the sources ends on it. -/
def pressroomBatch (sources : List String) : Nat × Machine :=
  (execute Machine.world Machine.workshopPlace
    ((["batch"] ++ sources ++ ["--base-path", ".", "--out-dir", "out"]).map Utf8.ofString)).run
      pressroom

/-- The requests for two sources with different module paths. -/
def pressroomRequests : List Request :=
  [⟨.ofString "/work/a.proto", .ofBasePath (.ofString ".")⟩,
    ⟨.ofString "/work/d/b.proto", .ofBasePath (.ofString ".")⟩]

/-- Both targets have been printed, and two files hold the artifacts. -/
theorem batch_keeps_last_artifacts_pressroom :
    (pressroomBatch ["a.proto", "d/b.proto"]).1 = 0 ∧
    (pressroomBatch ["a.proto", "d/b.proto"]).2.stdout = Utf8.ofString
      ("✓ /work/a.proto → out/a_pb.js\n✓ /work/d/b.proto → out/d/b_pb.js\n\n" ++
        "2 generated, 0 failed, 0 warnings\n") ∧
    ∃ (artifacts : List (String × Bytes)) (u v : Machine), artifacts.map (·.1) = ["a", "d/b"] ∧
      Passes (workshopSession.Delivered (.ofString "out") .message)
        (pressroomRequests.zip artifacts) u v ∧
      ∀ a ∈ artifacts, Machine.world.Holds (pressroomBatch ["a.proto", "d/b.proto"]).2
        (Output.target (.ofString "out") .message a.1) a.2 := by
  have hcode : (pressroomBatch ["a.proto", "d/b.proto"]).1 = 0 := by decide +kernel
  have hstart : (Session.start Machine.world Machine.workshopPlace
      ⟨none, none, .batch [.ofString "a.proto", .ofString "d/b.proto"] (some (.ofString ".")) none
        (.ofString "out")⟩).goes pressroom = (.ok workshopSession, pressroom) := rfl
  have hoptions : ({} : Project).optionsWith (some (.ofString ".")) none =
      .ok (.ofBasePath (.ofString ".")) := rfl
  have hrequests : [Path.ofString "a.proto", .ofString "d/b.proto"].mapM
      (workshopSession.request (.ofBasePath (.ofString "."))) = .ok pressroomRequests := rfl
  obtain ⟨base, _, _, rs, _, artifacts, _, v, hbase, -, -, -, hdelivers, hlength, hdelivered, -, -,
      hkept, -⟩ :=
    batch_keeps_last_artifacts Machine.world_plays Machine.world_keepsFiles rfl rfl hstart hoptions
      hrequests hcode
  cases hbase.symm.trans (show _ = .ok (.ofString "/work") from rfl)
  obtain ⟨a, b, rfl⟩ := List.length_eq_two.mp hlength
  have hkeys : [a, b].map (·.1) = ["a", "d/b"] := by
    rcases rs with _ | ⟨r, _ | ⟨r', rs⟩⟩
    · cases hdelivers
    · obtain _ | ⟨-, hrest⟩ := hdelivers
      cases hrest
    · obtain _ | ⟨ha, _ | ⟨hb, -⟩⟩ := hdelivers
      have hfirst : Output.modulePath (.ofString "/work") (.ofString "/work/a.proto") =
          .ok "a" := by decide +kernel
      have hsecond : Output.modulePath (.ofString "/work") (.ofString "/work/d/b.proto") =
          .ok "d/b" := by decide +kernel
      rw [List.map_cons, List.map_cons, List.map_nil,
        Except.ok.inj (ha.modulePath.symm.trans hfirst),
        Except.ok.inj (hb.modulePath.symm.trans hsecond)]
  exact ⟨hcode, by decide +kernel, _, _, v, hkeys, hdelivered, hkept.own (hkeys ▸ by decide)⟩

/-- Two sources that differ in their extensions alone. Both runs succeed and both artifacts are
written, but to one file, which holds the second; the command says that it has generated two. -/
theorem batch_overwrites_same_module_path :
    Path.absolutize? Machine.workshopPlace.cwd (.ofString "a.proto") ≠
      Path.absolutize? Machine.workshopPlace.cwd (.ofString "a.protodevel") ∧
    ((Machine.runAll workshopSession.pipeline
      [⟨.ofString "/work/a.proto", .ofBasePath (.ofString ".")⟩,
        ⟨.ofString "/work/a.protodevel", .ofBasePath (.ofString ".")⟩] pressroom).1.map (·.1)) =
      some [.ok [0x78], .ok [0x79]] ∧
    (pressroomBatch ["a.proto", "a.protodevel"]).1 = 0 ∧
    (pressroomBatch ["a.proto", "a.protodevel"]).2.stdout = Utf8.ofString
      ("✓ /work/a.proto → out/a_pb.js\n✓ /work/a.protodevel → out/a_pb.js\n\n" ++
        "2 generated, 0 failed, 0 warnings\n") ∧
    (pressroomBatch ["a.proto", "a.protodevel"]).2.tree.files.filter
        (fun file => ["work", "out"].map Utf8.ofString <+: file.1) =
      [(["work", "out", "a_pb.js"].map Utf8.ofString, [0x79])] := by
  decide +kernel

end CommandLine

end StubLoader
