import StubLoader.Proofs.Command.Steps
import StubLoader.Proofs.Path.Targets
/-!
# Settling results

The results of a batch are settled one after the other: an artifact is written to the target of its
module path, and a line says so; a failure is told. Each is settled in the state to which those
before it have led, and there the command goes on or gives up.
-/

namespace StubLoader.Session

variable {σ : Type} {s : Session (StateM σ)} {u : σ}

/-! ### Writing artifacts -/

/-- What keeps an artifact from being written is no failure of a run. -/
def Unwritten (c : Complaint) : Prop := c.failure = none

theorem goes_attempt_eq {α : Type} (what : String) (step : StateM σ (Except IoError α)) (u : σ) :
    (World.attempt what step).goes u =
      ((Attempt.during what ((step.run u).1.mapError Complaint.ofIo)).mapError .complaint,
        (step.run u).2) := rfl

theorem goes_attempt {α : Type} (what : String) (step : StateM σ (Except IoError α)) (u : σ) :
    (∃ a t, (World.attempt what step).goes u = (.ok a, t)) ∨
      ∃ c t, Unwritten c ∧ (World.attempt what step).goes u = (.error (.complaint c), t) := by
  rw [goes_attempt_eq]
  rcases step.run u with ⟨e | a, t⟩
  · exact .inr ⟨(Complaint.ofIo e).whileDoing what, t, rfl, rfl⟩
  · exact .inl ⟨a, t, rfl⟩

theorem goes_store (path : Path) (artifact : Bytes) (u : σ) :
    (∃ t, (s.store path artifact).goes u = (.ok (), t)) ∨
      ∃ c t, Unwritten c ∧ (s.store path artifact).goes u = (.error (.complaint c), t) := by
  have hwrite := goes_attempt ("Failed to write artifact: " ++ path.display)
    (s.world.store path artifact)
  unfold store
  split
  · next parent _ =>
    rcases goes_attempt ("Failed to create directory: " ++ parent.display)
      (s.world.makeDirectories parent) u with ⟨⟨⟩, t, hmade⟩ | ⟨c, t, hc, hmade⟩
    · rw [goes_bind_ok hmade]
      rcases hwrite t with ⟨⟨⟩, t', hstored⟩ | hstored
      · exact .inl ⟨t', hstored⟩
      · exact .inr hstored
    · exact .inr ⟨c, t, hc, goes_bind_error hmade⟩
  · rcases hwrite u with ⟨⟨⟩, t', hstored⟩ | hstored
    · exact .inl ⟨t', hstored⟩
    · exact .inr hstored

/-! ### Results one after the other -/

/-- A result is settled, which leads from one state to the other. -/
inductive Settles (s : Session (StateM σ)) (base outDir : Path) :
    Request × Outcome Bytes → σ → σ → Prop where
  /-- An artifact is written below the output directory, and a line says from where to where. -/
  | written {request : Request} {artifact : Bytes} {m : String} {u v : σ}
    (hmodule : Output.modulePath base request.source = .ok m)
    (hstore : (s.store (Output.target outDir request.mode m) artifact).goes u = (.ok (), v)) :
    Settles s base outDir (request, .ok artifact) u ((s.world.say <| "✓ " ++
      request.source.display ++ " → " ++ (Output.target outDir request.mode m).display).run v).2
  /-- A failure is told. -/
  | told (request : Request) (failure : Failure) (u : σ) :
    Settles s base outDir (request, .error failure) u
      ((s.world.say ("✗ " ++ request.source.display ++ ": " ++ failure.message)).run u).2

/-- An artifact cannot be written where it belongs, which leads from one state to the other. -/
inductive Blocks (s : Session (StateM σ)) (base outDir : Path) :
    Request × Outcome Bytes → σ → Complaint → σ → Prop where
  | mk {request : Request} {artifact : Bytes} {m : String} {c : Complaint} {u t : σ}
    (hmodule : Output.modulePath base request.source = .ok m)
    (hstore : (s.store (Output.target outDir request.mode m) artifact).goes u =
      (.error (.complaint c), t))
    (hc : Unwritten c) : Blocks s base outDir (request, .ok artifact) u c t

/-- One of the results blocks the command, in the state to which those before it have led. -/
inductive Stuck (s : Session (StateM σ)) (base outDir : Path)
    (pairs : List (Request × Outcome Bytes)) (u : σ) (c : Complaint) (t : σ) : Prop where
  | mk {front back : List (Request × Outcome Bytes)} {pair : Request × Outcome Bytes} {v : σ}
    (hpairs : pairs = front ++ pair :: back) (hfront : Passes (s.Settles base outDir) front u v)
    (h : Blocks s base outDir pair v c t)

/-- Every artifact can be written where it belongs, in the state to which the results before it have
led. -/
def Deliverable (s : Session (StateM σ)) (base outDir : Path)
    (pairs : List (Request × Outcome Bytes)) (u : σ) : Prop :=
  ∀ ⦃front back : List (Request × Outcome Bytes)⦄ ⦃request : Request⦄ ⦃artifact : Bytes⦄
    ⦃m : String⦄ ⦃v : σ⦄, pairs = front ++ (request, .ok artifact) :: back →
    Passes (s.Settles base outDir) front u v → Output.modulePath base request.source = .ok m →
    ∃ t, (s.store (Output.target outDir request.mode m) artifact).goes v = (.ok (), t)

variable {base outDir : Path} {request : Request} {result : Outcome Bytes}
  {pairs : List (Request × Outcome Bytes)}

theorem Stuck.unwritten {c : Complaint} {t : σ} (h : s.Stuck base outDir pairs u c t) :
    Unwritten c := by
  obtain ⟨-, -, -, -, hc⟩ := h
  exact hc

theorem Deliverable.not_stuck (h : s.Deliverable base outDir pairs u) {c : Complaint} {t : σ} :
    ¬s.Stuck base outDir pairs u c t := by
  rintro ⟨hpairs, hfront, hmodule, hstore, -⟩
  obtain ⟨v, hstored⟩ := h hpairs hfront hmodule
  cases hstored.symm.trans hstore

theorem Settles.unique {pair : Request × Outcome Bytes} {v t : σ}
    (h : s.Settles base outDir pair u v) (h' : s.Settles base outDir pair u t) : v = t := by
  cases h with
  | written hmodule hstore =>
    obtain ⟨hmodule', hstore'⟩ | _ := h'
    cases hmodule.symm.trans hmodule'
    cases hstore.symm.trans hstore'
    rfl
  | told request failure =>
    cases h'
    rfl

/-- Where all results have been settled, every artifact could be written. -/
theorem deliverable_of_passes {t : σ} (h : Passes (s.Settles base outDir) pairs u t) :
    s.Deliverable base outDir pairs u := by
  intro front back request artifact m v hpairs hfront hmodule
  rw [hpairs] at h
  obtain ⟨v', hfront', hback⟩ := h.of_append
  obtain rfl := hfront.unique (fun _ _ _ _ h h' => h.unique h') hfront'
  obtain _ | ⟨hsettled, -⟩ := hback
  obtain ⟨hmodule', hstore⟩ | _ := hsettled
  cases hmodule.symm.trans hmodule'
  exact ⟨_, hstore⟩

/-- Every artifact has a name below the output directory. -/
def Named (base : Path) (request : Request) (result : Outcome Bytes) : Prop :=
  ∀ artifact, result = .ok artifact → ∃ m, Output.modulePath base request.source = .ok m

/-- An artifact goes to the target of its module path, if it has one. -/
theorem make_artifact (base outDir : Path) (request : Request) (artifact : Bytes) :
    Delivery.make base outDir request (.ok artifact) =
      match Output.modulePath base request.source with
      | .error fault => .error (.options fault)
      | .ok m => .ok (.write request.source (Output.target outDir request.mode m) artifact) := by
  rw [Delivery.make, Output.resolve]
  cases Output.modulePath base request.source <;> rfl

variable (s outDir) in
theorem goes_settle (hnamed : Named base request result) (u : σ) :
    (∃ t, s.Settles base outDir (request, result) u t ∧
      (s.settle base outDir request result).goes u = (.ok (), t)) ∨
    ∃ c t, s.Blocks base outDir (request, result) u c t ∧
      (s.settle base outDir request result).goes u = (.error (.complaint c), t) := by
  unfold settle
  cases result with
  | error failure =>
    have hmake : Attempt.ofOutcome (Delivery.make base outDir request (.error failure)) =
        .ok (.tell request.source failure) := rfl
    exact .inl ⟨_, .told request failure u, goes_bind_ok (goes_lift_ok hmake u)⟩
  | ok artifact =>
    obtain ⟨m, hmodule⟩ := hnamed artifact rfl
    have hmake : Attempt.ofOutcome (Delivery.make base outDir request (.ok artifact)) =
        .ok (.write request.source (Output.target outDir request.mode m) artifact) := by
      rw [make_artifact, hmodule]
      rfl
    rw [goes_bind_ok (goes_lift_ok hmake u)]
    rcases goes_store (s := s) (Output.target outDir request.mode m) artifact u with
      ⟨t, hstored⟩ | ⟨c, t, hc, hstore⟩
    · exact .inl ⟨_, .written hmodule hstored, goes_bind_ok hstored⟩
    · exact .inr ⟨c, t, ⟨hmodule, hstore, hc⟩, goes_bind_error hstore⟩

end StubLoader.Session
