import StubLoader.Command.Delivery
import StubLoader.Proofs.Path.Normal
import StubLoader.Proofs.Run.Transcript
/-!
# Deliveries and the runs before them

A delivery names the file of an artifact anew, from the request as it was made. It comes to the name
under which the run read the file, so an artifact is always delivered. The failures that a tally
counts are those of its results, and its verdict is the first of them.
-/

namespace StubLoader

open Exchange

/-! ### Names of artifacts -/

theorem Output.modulePath_normalize (base source : Path) :
    modulePath base source.normalize = modulePath base source := by
  unfold modulePath
  rw [Path.normalize_normalize]

/-- The run that left these exchanges read its artifact below its directory, at the name `relative`.
-/
def Pipeline.ReadAt (p : Pipeline) (relative : String) (xs : List Exchange) : Prop :=
  ∃ w bytes, creation p (.ok w) ∈ xs ∧
    (⟨.loadFile (Output.locate w relative), .ok bytes⟩ : Exchange) ∈ xs

/-- The name of an artifact seen from the base of its request is the one under which it was read. -/
theorem Transcript.exists_resolve {p : Pipeline} {request : Request} {xs : List Exchange}
    {result : Outcome Bytes} {artifact : Bytes} (h : Transcript p request xs result)
    (hresult : result = .ok artifact) {base : Path}
    (hbase : request.options.resolvedBasePath p.cwd = .ok base) : ∃ relative,
      Output.resolve base request.source request.mode = .ok relative ∧ p.ReadAt relative xs := by
  cases h with
  | notCreated e => cases hresult
  | @created w _ _ h answer =>
    obtain rfl := concluded_eq_ok hresult
    cases h with
    | @read base' _ _ _ modulePath bytes _ hbase' _ _ hmodule _ =>
      obtain rfl : base' = base := Except.ok.inj (hbase'.symm.trans hbase)
      refine ⟨modulePath ++ Output.suffix request.mode, ?_, w, bytes, List.mem_cons_self, ?_⟩
      · rw [Output.modulePath_normalize] at hmodule
        rw [Output.resolve, hmodule]
        rfl
      · simp [reading]

/-! ### Tallies -/

namespace Tally

/-- The first failure among results stands behind artifacts only. -/
theorem exists_first : ∀ {results : List (Outcome Bytes)} {first : Failure} {rest : List Failure},
    results.filterMap failure? = first :: rest → ∃ i : Nat, results[i]? = some (.error first) ∧
      ∀ j < i, ∃ artifact, results[j]? = some (.ok artifact)
  | .error failure :: results, first, rest, h => by
    rw [List.filterMap_cons_some (show failure? (.error failure) = some failure from rfl)] at h
    exact ⟨0, by rw [(List.cons.inj h).1]; rfl, fun j hj => absurd hj (Nat.not_lt_zero j)⟩
  | .ok artifact :: results, first, rest, h => by
    rw [List.filterMap_cons_none (show failure? (.ok artifact) = none from rfl)] at h
    obtain ⟨i, hi, hbefore⟩ := exists_first h
    refine ⟨i + 1, hi, fun j hj => ?_⟩
    cases j with
    | zero => exact ⟨artifact, rfl⟩
    | succ j => exact hbefore j (Nat.lt_of_succ_lt_succ hj)

theorem forall_ok_of_failures {results : List (Outcome Bytes)}
    (h : results.filterMap failure? = []) :
    ∀ result ∈ results, ∃ artifact, result = .ok artifact := by
  intro result hmem
  have hnone := List.filterMap_eq_nil_iff.mp h result hmem
  cases result with
  | ok artifact => exact ⟨artifact, rfl⟩
  | error failure => cases hnone

variable (results : List (Outcome Bytes)) (warnings : List Warning)

/-- Every result is an artifact or a failure. -/
theorem generated_add_failed :
    (ofResults results warnings).generated + (ofResults results warnings).failed =
      results.length := by
  have hfailed : (ofResults results warnings).failed ≤ results.length := List.length_filterMap_le ..
  rw [generated, show (ofResults results warnings).total = results.length from rfl]
  omega

variable {results warnings} in
/-- A tally without a complaint is one of artifacts only. -/
theorem of_verdict_eq_ok (h : (ofResults results warnings).verdict = .ok ()) :
    (∀ result ∈ results, ∃ artifact, result = .ok artifact) ∧
      (ofResults results warnings).generated = results.length := by
  rw [verdict] at h
  cases hfailures : (ofResults results warnings).failures with
  | nil =>
    refine ⟨forall_ok_of_failures hfailures, ?_⟩
    rw [← generated_add_failed results warnings, failed, hfailures, List.length_nil, Nat.add_zero]
  | cons first rest =>
    rw [hfailures] at h
    cases h

end Tally

theorem Failure.code_ne_zero (f : Failure) : f.code ≠ 0 := by
  cases f <;> exact Nat.succ_ne_zero _

end StubLoader
