import StubLoader.Proofs.Run.Polling
/-!
# Runs in step

Two runs are in step if they make the same call wherever they stand and whatever the answer leaves
them in step again. The host of the one cannot tell it from the other: driven equally long from the
same state of the host, both come equally far and leave the host in the same state, so on a host
that keeps a ledger they leave the same deeds.
-/

namespace StubLoader.Run

/-- Two runs came equally far: to results that agree, or to places that are related. -/
inductive Progress.Near (R : Run → Run → Prop) (E : Outcome Bytes → Outcome Bytes → Prop) :
    Progress → Progress → Prop where
  | finished {result result' : Outcome Bytes} (h : E result result') :
    Progress.Near R E (.finished result) (.finished result')
  | suspended {a b : Run} (h : R a b) : Progress.Near R E (.suspended a) (.suspended b)
  | crashed {a b : Run} (h : R a b) : Progress.Near R E (.crashed a) (.crashed b)

/-- What relates the places of two runs keeps them in step: their results agree by `E`, and their
notices by `N`. -/
structure InStep (p : Pipeline) (R : Run → Run → Prop) (E : Outcome Bytes → Outcome Bytes → Prop)
    (N : List Notice → List Notice → Prop) : Prop where
  held : ∀ {a b : Run}, R a b → a.stage.held = b.stage.held
  remaining : ∀ {a b : Run}, R a b → a.stage.remaining = b.stage.remaining
  next : ∀ {a b : Run}, R a b →
    (∃ result result', a.next p = .ended result ∧ b.next p = .ended result' ∧ E result result') ∨
      ∃ call resume resume', a.next p = .asks call resume ∧ b.next p = .asks call resume' ∧
        ∀ answer, R (resume answer).1 (resume' answer).1 ∧ N (resume answer).2 (resume' answer).2
  refl : ∀ notices, N notices notices
  append : ∀ {xs xs' ys ys' : List Notice}, N xs xs' → N ys ys' → N (xs ++ ys) (xs' ++ ys')

section Readings

variable {σ : Type} {p : Pipeline} {R : Run → Run → Prop} {E : Outcome Bytes → Outcome Bytes → Prop}
  {N : List Notice → List Notice → Prop}

/-- Two runs came equally far, with notices that agree and the same host. -/
structure NearReadings (R : Run → Run → Prop) (E : Outcome Bytes → Outcome Bytes → Prop)
    (N : List Notice → List Notice → Prop) (x y : Progress × List Notice × σ) : Prop where
  progress : x.1.Near R E y.1
  notices : N x.2.1 y.2.1
  host : x.2.2 = y.2.2

variable (h : InStep p R E N) (host : Host σ)
include h

theorem near_advance : ∀ (fuel : Nat) {a b : Run}, R a b → ∀ (issued : Bool) (s : σ),
    NearReadings R E N (advance host p fuel a issued s) (advance host p fuel b issued s)
  | 0, _, _, hab, _, _ => ⟨.suspended hab, h.refl [], rfl⟩
  | fuel + 1, a, b, hab, issued, s => by
    rw [advance_succ, advance_succ]
    rcases h.next hab with
      ⟨result, result', ha, hb, hresult⟩ | ⟨call, resume, resume', ha, hb, hstep⟩
    · rw [ha, hb]
      exact ⟨.finished hresult, h.refl [], rfl⟩
    · rw [ha, hb]
      dsimp only
      rcases host.ask issued call s with ⟨answer | _ | _, t⟩
      · obtain ⟨hprogress, hnotices, hhost⟩ := near_advance fuel (hstep answer).1 false t
        exact ⟨hprogress, h.append (hstep answer).2 hnotices, hhost⟩
      · exact ⟨.suspended hab, h.refl [], rfl⟩
      · exact ⟨.crashed hab, h.refl [], rfl⟩

theorem near_poll {a b : Run} (hab : R a b) (issued : Bool) (s : σ) :
    NearReadings R E N (a.poll host p issued s) (b.poll host p issued s) := by
  rw [poll, poll, h.remaining hab]
  exact near_advance h host _ hab issued s

theorem near_polls : ∀ (again : Nat) {a b : Run}, R a b → ∀ (issued : Bool) (s : σ),
    NearReadings R E N (polls host p again a issued s) (polls host p again b issued s)
  | 0, _, _, hab, issued, s => near_poll h host hab issued s
  | again + 1, a, b, hab, issued, s => by
    have hpoll := near_poll h host hab issued s
    rw [polls, polls]
    generalize a.poll host p issued s = x at hpoll ⊢
    generalize b.poll host p issued s = y at hpoll ⊢
    rcases x with ⟨progress, notices, t⟩
    rcases y with ⟨progress', notices', t'⟩
    obtain ⟨hprogress, hnotices, hhost⟩ := hpoll
    cases hhost
    cases hprogress with
    | finished hresult => exact ⟨.finished hresult, hnotices, rfl⟩
    | crashed hab => exact ⟨.crashed hab, hnotices, rfl⟩
    | suspended hab =>
      obtain ⟨hprogress, hlater, hhost⟩ := near_polls again hab true t
      exact ⟨hprogress, h.append hnotices hlater, hhost⟩

/-- Runs in step are driven equally far. -/
theorem near_drive {a b : Request} (hab : R (initial a) (initial b)) (again : Nat) (s : σ) :
    NearReadings R E N (p.drive host a again s) (p.drive host b again s) := by
  have hpolls := near_polls h host again hab false s
  rw [Pipeline.drive, Pipeline.drive]
  generalize polls host p again (.initial a) false s = x at hpolls ⊢
  generalize polls host p again (.initial b) false s = y at hpolls ⊢
  rcases x with ⟨progress, notices, t⟩
  rcases y with ⟨progress', notices', t'⟩
  obtain ⟨hprogress, hnotices, hhost⟩ := hpolls
  cases hhost
  have hstarted : N (.event .started :: notices) (.event .started :: notices') :=
    h.append (h.refl [.event .started]) hnotices
  cases hprogress with
  | finished hresult => exact ⟨.finished hresult, hstarted, rfl⟩
  | suspended hab => exact ⟨.suspended hab, hstarted, rfl⟩
  | crashed hab =>
    dsimp only
    rw [abandon, abandon, h.held hab]
    exact ⟨.crashed hab, h.append hstarted (h.refl _), rfl⟩

end Readings

end StubLoader.Run
