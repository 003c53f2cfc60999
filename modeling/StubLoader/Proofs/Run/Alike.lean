import StubLoader.Proofs.Run.Respelled
/-!
# Runs for codecs

A run for a codec looks at the source and the base path of its request and at nothing else, so two
of them whose requests agree in that go the same way on every host: they make the same calls, report
the same notices and have the same result. Their paths being the same, they stand abreast all along;
that they are for codecs rules out the places from which two stubs may differ.
-/

namespace StubLoader

/-- Both requests are for the codec of the same source, seen from the same base. -/
structure Request.Alike (a b : Request) : Prop where
  source : a.source = b.source
  basePath : a.options.basePath = b.options.basePath
  left : a.mode = .message
  right : b.mode = .message

theorem Request.Alike.samePlaces {a b : Request} (h : a.Alike b) (cwd : Path) :
    a.SamePlaces cwd b where
  mode := h.left.trans h.right.symm
  source := by rw [h.source]
  basePath := by rw [h.basePath]

namespace Run

/-- Two runs stand at the same place, for requests that are alike. -/
structure Alike (a b : Run) : Prop where
  request : a.request.Alike b.request
  state : a.state = b.state
  stage : a.stage = b.stage

/-- Two steps lead to runs that are alike, with the same notices. -/
def AlikeSteps (x y : Step) : Prop := x.1.Alike y.1 ∧ x.2 = y.2

theorem Abreast.alike {a b : Request} (h : a.Alike b) {x y : Run} (hxy : Abreast a b x y) :
    x.Alike y := by
  cases hxy with
  | same state stage => exact ⟨h, rfl, rfl⟩
  | releasing hstub | finished hstub =>
    rw [h.left] at hstub
    cases hstub

theorem AbreastSteps.alike {a b : Request} (h : a.Alike b) {x y : Step}
    (hsteps : AbreastSteps a b x y) : AlikeSteps x y :=
  ⟨hsteps.1.alike h, hsteps.2 h.left h.source⟩

/-! ### Many answers -/

/-- Two runs came equally far. -/
inductive Progress.Alike : Progress → Progress → Prop where
  | finished (result : Outcome Bytes) : Progress.Alike (.finished result) (.finished result)
  | suspended {a b : Run} (h : a.Alike b) : Progress.Alike (.suspended a) (.suspended b)
  | crashed {a b : Run} (h : a.Alike b) : Progress.Alike (.crashed a) (.crashed b)

/-- Two runs came equally far, with the same notices and the same host. -/
def AlikeReadings {σ : Type} (x y : Progress × List Notice × σ) : Prop :=
  x.1.Alike y.1 ∧ x.2 = y.2

section Readings

variable {σ : Type} (host : Host σ) (p : Pipeline)

/-- Runs that are alike are in step, with the same notices. -/
theorem inStep_alike : InStep p Run.Alike Eq Eq where
  held h := congrArg Stage.held h.stage
  remaining h := congrArg Stage.remaining h.stage
  next {x y} h := by
    obtain ⟨a, state, stage⟩ := x
    obtain ⟨b, state', stage'⟩ := y
    obtain ⟨hrequest, rfl, rfl⟩ := h
    -- they stand abreast, so what holds there of codecs holds of them
    rcases (inStep_abreast (hrequest.samePlaces p.cwd)).next (.same state stage) with
      ⟨result, result', ha, hb, heq⟩ | ⟨call, resume, resume', ha, hb, hsteps⟩
    · exact .inl ⟨result, result', ha, hb, heq hrequest.left⟩
    · exact .inr ⟨call, resume, resume', ha, hb, fun answer =>
        AbreastSteps.alike hrequest (hsteps answer)⟩
  refl _ := rfl
  append hxs hys := by rw [hxs, hys]

theorem Progress.Near.alike {x y : Progress} (h : x.Near Run.Alike Eq y) : x.Alike y := by
  cases h with
  | finished h => exact h ▸ .finished _
  | suspended h => exact .suspended h
  | crashed h => exact .crashed h

theorem alike_drive {a b : Request} (h : a.Alike b) (again : Nat) (s : σ) :
    AlikeReadings (p.drive host a again s) (p.drive host b again s) := by
  have hstart : (initial a).Alike (initial b) := ⟨h, rfl, rfl⟩
  obtain ⟨hprogress, hnotices, hhost⟩ := near_drive (inStep_alike p) host hstart again s
  exact ⟨hprogress.alike, Prod.ext hnotices hhost⟩

end Readings

end Run

end StubLoader
