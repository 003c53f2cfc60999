import StubLoader.Command.Delivery
import StubLoader.Proofs.Path.Names
import StubLoader.Proofs.Run.Cleanup
/-!
# Generated files stay inside

What is generated is named by names between slashes, whatever base and source are: no byte of a
source, no step up that is left below a base, and no name of dots whose stem would be another step
leads out. So from every directory these names lead to a place strictly below it:

    w    ↦    w/d₁/…/dₖ/stem_pb.js

A run asks for no file but such a one below the directory that it was given, and a delivery goes
nowhere but below the output directory.
-/

namespace StubLoader

open StubLoader.Path

/-- What is found behind a directory by one name or more lies strictly under it. -/
theorem Path.strictlyUnder_of_components {path w : Path} {names : List String}
    (hne : names ≠ []) (h : path.components = w.components ++ named names) :
    path.StrictlyUnder w := by
  refine ⟨⟨named names, h.symm⟩, fun heq => hne ?_⟩
  rw [← heq] at h
  simpa [named] using h

namespace Output

variable {base source : Path} {mode : Mode} {relative : String}

theorem exists_spelled_of_resolve (h : resolve base source mode = .ok relative) :
    ∃ names, Spelled names relative := by
  unfold resolve at h
  cases hmodule : Output.modulePath base source with
  | error fault =>
    rw [hmodule] at h
    cases h
  | ok modulePath =>
    rw [hmodule] at h
    cases h
    exact exists_spelled hmodule mode

theorem components_locate_of_spelled {names : List String} (h : Spelled names relative) (w : Path) :
    (locate w relative).components = w.components ++ named names := by
  rw [locate, components_foldl_join_names]
  · rw [h.segments_eq, List.map_map]
    rfl
  · rw [h.segments_eq]
    exact h.wellFormed

theorem strictlyUnder_locate {names : List String} (h : Spelled names relative) (w : Path) :
    (locate w relative).StrictlyUnder w :=
  strictlyUnder_of_components h.ne_nil (components_locate_of_spelled h w)

/-- The text names a place strictly below every directory, by the names between its slashes. -/
structure StaysInside (relative : String) : Prop where
  ne_empty : relative ≠ ""
  notAbsolute : relative.toList.head? ≠ some '/'
  /-- What stands between slashes is not empty and no other step, and leads to the place. -/
  names : ∃ names : List String, relative.toList.splitOn '/' = names.map String.toList ∧
    (∀ name ∈ names, IsName name) ∧
    ∀ w : Path, (locate w relative).components = w.components ++ named names ∧
      (locate w relative).StrictlyUnder w

theorem staysInside_of_spelled {names : List String} (h : Spelled names relative) :
    StaysInside relative := by
  obtain ⟨c, rest, hhead, hc⟩ := h.exists_head
  constructor
  case ne_empty =>
    rintro rfl
    simp at hhead
  case notAbsolute =>
    rw [hhead]
    simpa using hc
  case names =>
    refine ⟨names, h.splitOn_eq, h.isName, fun w => ?_⟩
    exact ⟨components_locate_of_spelled h w, strictlyUnder_locate h w⟩

end Output

/-! ### What a run reads -/

section Reading

open Exchange

variable {p : Pipeline} {request : Request}

/-- The next file that a run asks for lies strictly under the directory that it was given. -/
theorem Run.At.loads {xs : List Exchange} {run : Run} {path : Path}
    {resume : Except IoError Bytes → Run.Step} (h : Run.At p request xs run)
    (hnext : run.next p = .asks (.loadFile path) resume) :
    ∃ w, creation p (.ok w) ∈ xs ∧ path.StrictlyUnder w := by
  cases h with
  | @read w base compiler plugin output modulePath hbase hexit hunder hmodule =>
    cases hnext
    obtain ⟨names, hnames⟩ := Output.exists_spelled hmodule request.mode
    exact ⟨w, List.mem_cons_self, Output.strictlyUnder_locate hnames w⟩
  | create | findCompiler | findPlugin | compile | release | ended => cases hnext

/-- So does every file that it has asked for. -/
theorem Run.Reaches.loads {xs : List Exchange} {notices : List Notice} {run : Run}
    (h : Run.Reaches p (.initial request) xs notices run) :
    ∀ x ∈ xs, ∀ path, x.call = .loadFile path →
      ∃ w, creation p (.ok w) ∈ xs ∧ path.StrictlyUnder w := by
  induction h with
  | refl => intro x hx; cases hx
  | step h hnext answer ih =>
    intro x hx path hpath
    rcases List.mem_append.mp hx with hx | hx
    · obtain ⟨w, hw, hunder⟩ := ih x hx path hpath
      exact ⟨w, List.mem_append_left _ hw, hunder⟩
    · rw [List.mem_singleton] at hx
      subst hx
      dsimp only at hpath
      subst hpath
      obtain ⟨w, hw, hunder⟩ := h.at.loads hnext
      exact ⟨w, List.mem_append_left _ hw, hunder⟩

/-- Every file that is asked for lies strictly under a directory that the run was given before. -/
def LoadsInside (p : Pipeline) (ds : List Deed) : Prop :=
  ∀ path, .asked (.loadFile path) ∈ ds →
    ∃ w, .answered (creation p (.ok w)) ∈ ds ∧ path.StrictlyUnder w

theorem Run.Left.loadsInside {notices : List Notice} {ds : List Deed} {progress : Run.Progress}
    (h : Run.Left p (.initial request) notices ds progress) : LoadsInside p ds := by
  intro path hpath
  cases progress with
  | finished result =>
    obtain ⟨xs, run, hreach, -, rfl⟩ := h
    obtain ⟨x, hx, hcall⟩ := exists_of_asked_mem hpath
    obtain ⟨w, hw, hunder⟩ := hreach.loads x hx path hcall
    exact ⟨w, mem_ledgerOf hw, hunder⟩
  | suspended run | crashed run =>
    obtain ⟨xs, call, resume, hreach, hnext, rfl⟩ := h
    have hfound : ∃ w, creation p (.ok w) ∈ xs ∧ path.StrictlyUnder w := by
      rcases List.mem_append.mp hpath with hpath | hpath
      · obtain ⟨x, hx, hcall⟩ := exists_of_asked_mem hpath
        exact hreach.loads x hx path hcall
      · simp only [List.mem_singleton, Deed.asked.injEq] at hpath
        subst hpath
        exact hreach.at.loads hnext
    obtain ⟨w, hw, hunder⟩ := hfound
    exact ⟨w, List.mem_append_left _ (mem_ledgerOf hw), hunder⟩

theorem LoadsInside.discard {ds : List Deed} (h : LoadsInside p ds) (held : Option Path) :
    LoadsInside p (ds ++ (held.map Deed.discarded).toList) := by
  intro path hpath
  obtain ⟨w, hw, hunder⟩ := h path (by cases held <;> simpa using hpath)
  exact ⟨w, List.mem_append_left _ hw, hunder⟩

/-- A run, driven however long. -/
theorem Pipeline.loadsInside_drive {σ : Type} (host : Host σ) (p : Pipeline) (request : Request)
    (again : Nat) (s : σ) :
    LoadsInside p (p.drive host.ledger request again (s, [])).2.2.2 := by
  rcases hpolls : Run.polls host.ledger p again (.initial request) false (s, []) with
    ⟨progress, notices, t, ds⟩
  have hloads := (Run.polls_left Run.open_start hpolls).loadsInside
  rw [Pipeline.drive, hpolls]
  cases progress with
  | finished _ | suspended _ => exact hloads
  | crashed run =>
    dsimp only
    rw [Run.abandon_ledger]
    exact hloads.discard _

end Reading

/-! ### What is delivered -/

theorem Delivery.strictlyUnder_target {base outDir source target : Path} {request : Request}
    {result : Outcome Bytes} {bytes : Bytes}
    (h : Delivery.make base outDir request result = .ok (.write source target bytes)) :
    target.StrictlyUnder outDir := by
  unfold Delivery.make at h
  split at h
  · cases h
  · split at h
    · cases h
    · next relative hresolve =>
      cases h
      obtain ⟨names, hnames⟩ := Output.exists_spelled_of_resolve hresolve
      exact Output.strictlyUnder_locate hnames outDir

/-- The name of a generated file, if there is one, leads from every directory to a place strictly
below it, by the names between its slashes. So a run, whatever its host does, asks for no file but
strictly below the directory that it was given, and a delivery writes none but strictly below the
output directory. -/
theorem outputs_stay_inside :
    (∀ {base source : Path} {mode : Mode} {relative : String},
      Output.resolve base source mode = .ok relative → Output.StaysInside relative) ∧
    (∀ {σ : Type} (host : Host σ) (p : Pipeline) (request : Request) (again : Nat) (s : σ),
      LoadsInside p (p.drive host.ledger request again (s, [])).2.2.2) ∧
    ∀ {base outDir source target : Path} {request : Request} {result : Outcome Bytes}
      {bytes : Bytes}, Delivery.make base outDir request result = .ok (.write source target bytes) →
        target.StrictlyUnder outDir := by
  refine ⟨fun h => ?_, fun host p request again s => ?_, fun h => ?_⟩
  · obtain ⟨names, hnames⟩ := Output.exists_spelled_of_resolve h
    exact Output.staysInside_of_spelled hnames
  · exact p.loadsInside_drive host request again s
  · exact Delivery.strictlyUnder_target h

/-- Of a source that climbs out of its base and ends in a name of dots only the suffix is left. -/
example : Output.resolve (.ofString "") (.ofString "../..//...") .message = .ok "_pb.js" := by
  decide +kernel

end StubLoader
