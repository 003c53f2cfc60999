import StubLoader.Proofs.Run.Steps
/-!
# Polling a run

A run is polled until it is finished: the first poll starts it, every later one asks again for the
answer at which the one before had to stop. A poll goes through at most as many calls as its run has
left, so it stops only where the host does; and on a host that settles every call in the end some
number of polls finishes the run.
-/

namespace StubLoader

namespace Host

variable {σ : Type}

/-- Asks for the answer to a call that the host knows of already, or does not. -/
def ask (host : Host σ) (issued : Bool) (call : Call) (s : σ) : Reply call.Answer × σ :=
  if issued then host.await call s else host.start call s

/-- Asking for the answer to a call, again and again, leads to one. -/
inductive Settles (host : Host σ) (call : Call) : Bool → σ → Prop where
  | now {issued : Bool} {s t : σ} {answer : call.Answer}
      (h : host.ask issued call s = (.now answer, t)) : Settles host call issued s
  | later {issued : Bool} {s t : σ} (h : host.ask issued call s = (.pending, t))
      (hlater : Settles host call true t) : Settles host call issued s

/-- Every call is answered in the end. -/
def Answers (host : Host σ) : Prop := ∀ call s, host.Settles call false s

/-- The host, but every call is outstanding once before it is taken. -/
def paced (host : Host σ) : Host σ where
  start _ s := (.pending, s)
  await := host.start
  discard := host.discard

theorem answers_ofAnswers (answer : (c : Call) → σ → c.Answer × σ)
    (discard : Path → σ → Except IoError Unit × σ) : (ofAnswers answer discard).Answers :=
  fun _ _ => .now rfl

end Host

namespace Run

/-! ### Calls left -/

/-- A step leaves a run with fewer calls than `bound`. -/
def Below (bound : Nat) (step : Step) : Prop := step.1.stage.remaining < bound

theorem Along.below {stage : Stage} {step : Step} (h : Along stage step) :
    Below stage.remaining step := Stage.Way.remaining_lt h

/-- Every answer brings a run nearer to its end. -/
theorem remaining_lt {p : Pipeline} {run : Run} {call : Call} {resume : call.Answer → Step}
    (h : run.next p = .asks call resume) (answer : call.Answer) :
    (resume answer).1.stage.remaining < run.stage.remaining :=
  (along_next h answer).below

/-! ### One poll -/

section Poll

variable {σ : Type} {host : Host σ} {p : Pipeline} {run : Run} {issued : Bool} {s t : σ}

/-- Puts the notices of a step before what follows. -/
def after (step : Step) (rest : Progress × List Notice × σ) : Progress × List Notice × σ :=
  (rest.1, step.2 ++ rest.2.1, rest.2.2)

theorem advance_succ (fuel : Nat) : advance host p (fuel + 1) run issued s =
    match run.next p with
    | .ended result => (.finished result, [], s)
    | .asks call resume =>
      match host.ask issued call s with
      | (.pending, s) => (.suspended run, [], s)
      | (.crash, s) => (.crashed run, [], s)
      | (.now answer, s) =>
        after (resume answer) (advance host p fuel (resume answer).1 false s) := rfl

/-- Fuel beyond the calls left makes no difference. -/
theorem advance_fuel : ∀ {fuel fuel' : Nat} {run : Run} {issued : Bool} {s : σ},
    run.stage.remaining < fuel → run.stage.remaining < fuel' →
      advance host p fuel run issued s = advance host p fuel' run issued s := by
  intro fuel
  induction fuel with
  | zero => exact fun h => absurd h (Nat.not_lt_zero _)
  | succ fuel ih =>
    intro fuel' run issued s h h'
    obtain ⟨fuel', rfl⟩ : ∃ n, fuel' = n + 1 := ⟨fuel' - 1, by omega⟩
    rw [advance_succ, advance_succ]
    cases hnext : run.next p with
    | ended result => rfl
    | asks call resume =>
      dsimp only
      split
      · rfl
      · rfl
      · next answer s' _ =>
        have hlt := remaining_lt hnext answer
        rw [@ih fuel' (resume answer).1 false s' (by omega) (by omega)]

theorem poll_ended {result : Outcome Bytes} (h : run.next p = .ended result) :
    poll host p run issued s = (.finished result, [], s) := by
  rw [poll, advance_succ, h]

variable {call : Call} {resume : call.Answer → Step} (hnext : run.next p = .asks call resume)
include hnext

theorem poll_pending (h : host.ask issued call s = (.pending, t)) :
    poll host p run issued s = (.suspended run, [], t) := by
  rw [poll, advance_succ, hnext]
  dsimp only
  rw [h]

theorem poll_crash (h : host.ask issued call s = (.crash, t)) :
    poll host p run issued s = (.crashed run, [], t) := by
  rw [poll, advance_succ, hnext]
  dsimp only
  rw [h]

theorem poll_now {answer : call.Answer} (h : host.ask issued call s = (.now answer, t)) :
    poll host p run issued s = after (resume answer) (poll host p (resume answer).1 false t) := by
  have hlt := remaining_lt hnext answer
  rw [poll, advance_succ, hnext]
  dsimp only
  rw [h]
  dsimp only
  rw [poll, advance_fuel hlt (Nat.lt_succ_self _)]

end Poll

/-! ### Many polls -/

section Polls

variable {σ : Type} (host : Host σ) (p : Pipeline)

/-- Polls a run, and as long as it is suspended up to `again` times more. -/
def polls : (again : Nat) → Run → (issued : Bool) → σ → Progress × List Notice × σ
  | 0, run, issued, s => poll host p run issued s
  | again + 1, run, issued, s =>
    match poll host p run issued s with
    | (.suspended run, notices, s) =>
      let (progress, later, s) := polls again run true s
      (progress, notices ++ later, s)
    | done => done

end Polls

section Finish

variable {σ : Type} {host : Host σ} {p : Pipeline} {run : Run} {issued : Bool} {s t : σ}
  {call : Call} {resume : call.Answer → Step} (hnext : run.next p = .asks call resume)
include hnext

theorem polls_now {answer : call.Answer} (h : host.ask issued call s = (.now answer, t))
    (again : Nat) : polls host p again run issued s =
      after (resume answer) (polls host p again (resume answer).1 false t) := by
  cases again with
  | zero => exact poll_now hnext h
  | succ again =>
    rw [polls, poll_now hnext h, polls]
    rcases poll host p (resume answer).1 false t with ⟨progress, notices, s'⟩
    cases progress with
    | suspended run' => simp [after, List.append_assoc]
    | finished _ | crashed _ => rfl

theorem polls_pending (h : host.ask issued call s = (.pending, t)) (again : Nat) :
    polls host p (again + 1) run issued s = polls host p again run true t := by
  rw [polls, poll_pending hnext h]
  rfl

end Finish

/-- As long as the host is in a state in which it answers the next call, and comes to such a state
by asking, some number of polls finishes a run. -/
theorem exists_polls_of {σ : Type} {host : Host σ} {p : Pipeline} {K : Run → σ → Prop}
    (hsettles : ∀ {run : Run} {call : Call} {resume : call.Answer → Step} {s : σ}, K run s →
      run.next p = .asks call resume → host.Settles call false s)
    (hpending : ∀ {run : Run} {issued : Bool} {call : Call} {resume : call.Answer → Step} {s t : σ},
      K run s → run.next p = .asks call resume → host.ask issued call s = (.pending, t) → K run t)
    (hnow : ∀ {run : Run} {issued : Bool} {call : Call} {resume : call.Answer → Step}
      {answer : call.Answer} {s t : σ}, K run s → run.next p = .asks call resume →
      host.ask issued call s = (.now answer, t) → K (resume answer).1 t) :
    ∀ (run : Run) (s : σ), K run s → ∃ again result notices t,
      polls host p again run false s = (.finished result, notices, t) := by
  intro run
  induction hn : run.stage.remaining using Nat.strongRecOn generalizing run with
  | ind n ih =>
    intro s hK
    subst hn
    cases hnext : run.next p with
    | ended result => exact ⟨0, result, [], s, poll_ended hnext⟩
    | asks call resume =>
      -- the call may be pending for a while
      have hends : ∀ {issued : Bool} {s : σ}, host.Settles call issued s → K run s →
          ∃ again result notices t,
            polls host p again run issued s = (.finished result, notices, t) := by
        intro issued s h
        induction h with
        | @now issued s t answer h =>
          intro hK
          obtain ⟨again, result, notices, t', hpolls⟩ :=
            ih _ (remaining_lt hnext answer) _ rfl t (hnow hK hnext h)
          exact ⟨again, result, _, t', by rw [polls_now hnext h, hpolls]; rfl⟩
        | later h _ ihlater =>
          intro hK
          obtain ⟨again, result, notices, t', hpolls⟩ := ihlater (hpending hK hnext h)
          exact ⟨again + 1, result, notices, t', by rw [polls_pending hnext h, hpolls]⟩
      exact hends (hsettles hK hnext) hK

/-- On a host that answers every call some number of polls finishes a run. -/
theorem exists_polls {σ : Type} {host : Host σ} (hhost : host.Answers) {p : Pipeline} (run : Run)
    (s : σ) : ∃ again result notices t,
      polls host p again run false s = (.finished result, notices, t) :=
  exists_polls_of (K := fun _ _ => True) (fun _ _ => hhost _ _) (fun _ _ _ => trivial)
    (fun _ _ _ => trivial) run s trivial

end Run

namespace Pipeline

variable {σ : Type} (host : Host σ) (p : Pipeline) (request : Request) (again : Nat) (s : σ)

/-- Runs a request and, as long as it is suspended, polls it up to `again` times more. If answering
crashes, the directory of the run is discarded. -/
def drive : Run.Progress × List Notice × σ :=
  match Run.polls host p again (.initial request) false s with
  | (.crashed run, notices, s) =>
    let (discarded, s) := run.abandon host s
    (.crashed run, .event .started :: notices ++ discarded, s)
  | (progress, notices, s) => (progress, .event .started :: notices, s)

theorem drive_zero : p.drive host request 0 s = p.run host request s := rfl

variable {host again s}

theorem drive_eq_finished {result : Outcome Bytes} {notices : List Notice} {t : σ}
    (h : p.drive host request again s = (.finished result, notices, t)) :
    ∃ notices', Run.polls host p again (.initial request) false s =
      (.finished result, notices', t) := by
  unfold drive at h
  rcases hpolls : Run.polls host p again (.initial request) false s with ⟨progress, notices', t'⟩
  rw [hpolls] at h
  cases progress with
  | finished result' => cases h; exact ⟨notices', rfl⟩
  | suspended run => cases h
  | crashed run => cases h

/-- On a host that answers every call, a run that is driven long enough finishes. -/
theorem exists_drive (hhost : host.Answers) (s : σ) :
    ∃ again result notices t, p.drive host request again s = (.finished result, notices, t) := by
  obtain ⟨again, result, notices, t, hpolls⟩ :=
    Run.exists_polls hhost (.initial request) s
  exact ⟨again, result, .event .started :: notices, t, by rw [drive, hpolls]⟩

end Pipeline

end StubLoader
