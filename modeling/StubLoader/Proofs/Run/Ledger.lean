import StubLoader.Proofs.Run.Polling
/-!
# Ledgers

What a run does to its host is written down by the host: `host.ledger` answers as `host` does and
keeps a list of *deeds*, one for a call when it is made and one for its answer when that comes. A
run by itself knows only *exchanges*, calls with their answers, and goes from stage to stage by
them. The two views agree: the deeds of a host are those of the exchanges that led the run to where
it is, and the call that is still open.
-/

namespace StubLoader

/-- A call and the answer to it. -/
structure Exchange where
  call : Call
  answer : call.Answer

/-- Something that happens between a run and its host. -/
inductive Deed where
  /-- The call is made. -/
  | asked (call : Call)
  /-- The answer comes. -/
  | answered (exchange : Exchange)
  /-- The directory of a run that is given up is removed without waiting. -/
  | discarded (path : Path)

/-- What exchanges leave in a ledger. -/
def ledgerOf (xs : List Exchange) : List Deed :=
  xs.flatMap fun x => [.asked x.call, .answered x]

theorem ledgerOf_concat (xs : List Exchange) (x : Exchange) :
    ledgerOf (xs ++ [x]) = ledgerOf xs ++ [.asked x.call, .answered x] := by
  simp [ledgerOf]

theorem mem_ledgerOf {x : Exchange} {xs : List Exchange} (h : x ∈ xs) :
    .answered x ∈ ledgerOf xs :=
  List.mem_flatMap.mpr ⟨x, h, by simp⟩

theorem exists_of_asked_mem {xs : List Exchange} {call : Call} (h : .asked call ∈ ledgerOf xs) :
    ∃ x ∈ xs, x.call = call := by
  simpa [ledgerOf, eq_comm] using h

namespace Host

variable {σ : Type}

/-- What the reply to a call leaves in a ledger. -/
def noted (call : Call) : Reply call.Answer → List Deed
  | .now answer => [.answered ⟨call, answer⟩]
  | .pending | .crash => []

/-- The host, writing down what it is asked to do and what it answers. -/
def ledger (host : Host σ) : Host (σ × List Deed) where
  start call s :=
    let (reply, t) := host.start call s.1
    (reply, t, s.2 ++ .asked call :: noted call reply)
  await call s :=
    let (reply, t) := host.await call s.1
    (reply, t, s.2 ++ noted call reply)
  discard path s :=
    let (answer, t) := host.discard path s.1
    (answer, t, s.2 ++ [.discarded path])

theorem ask_ledger (host : Host σ) (issued : Bool) (call : Call) (s : σ) (ds : List Deed) :
    host.ledger.ask issued call (s, ds) = ((host.ask issued call s).1, (host.ask issued call s).2,
      ds ++ (if issued then [] else [.asked call]) ++ noted call (host.ask issued call s).1) := by
  cases issued <;> simp [ask, ledger]

end Host

namespace Run

/-! ### A ledger changes nothing -/

section Transparent

variable {σ : Type} (host : Host σ) (p : Pipeline)

/-- A reading without the ledger. -/
def withoutLedger (read : Progress × List Notice × σ × List Deed) : Progress × List Notice × σ :=
  (read.1, read.2.1, read.2.2.1)

theorem advance_ledger : ∀ (fuel : Nat) (run : Run) (issued : Bool) (s : σ) (ds : List Deed),
    withoutLedger (advance host.ledger p fuel run issued (s, ds)) = advance host p fuel run issued s
  | 0, _, _, _, _ => rfl
  | fuel + 1, run, issued, s, ds => by
    rw [advance_succ, advance_succ]
    cases run.next p with
    | ended result => rfl
    | asks call resume =>
      dsimp only
      rw [Host.ask_ledger]
      rcases host.ask issued call s with ⟨answer | _ | _, t⟩
      · dsimp only
        rw [← advance_ledger fuel]
        rfl
      · rfl
      · rfl

/-- A run goes the same way with a ledger and without one. -/
theorem polls_ledger : ∀ (again : Nat) (run : Run) (issued : Bool) (s : σ) (ds : List Deed),
    withoutLedger (polls host.ledger p again run issued (s, ds)) = polls host p again run issued s
  | 0, _, _, _, _ => advance_ledger ..
  | again + 1, run, issued, s, ds => by
    rw [polls, polls, poll, poll, ← advance_ledger host p _ run issued s ds]
    rcases advance host.ledger p _ run issued (s, ds) with ⟨progress, notices, t, ds'⟩
    cases progress with
    | finished _ | crashed _ => rfl
    | suspended run' =>
      simp only [withoutLedger]
      rw [← polls_ledger again run' true t ds']
      rfl

theorem drive_ledger (request : Request) (again : Nat) (s : σ) (ds : List Deed) :
    withoutLedger (p.drive host.ledger request again (s, ds)) = p.drive host request again s := by
  rw [Pipeline.drive, Pipeline.drive, ← polls_ledger host p again (.initial request) false s ds]
  rcases polls host.ledger p again (.initial request) false (s, ds) with ⟨progress, notices, t, ds'⟩
  cases progress with
  | finished _ | suspended _ => rfl
  | crashed run =>
    simp only [withoutLedger, abandon]
    cases run.stage.held <;> rfl

variable {host p} in
theorem exists_ledger {request : Request} {again : Nat} {s t : σ} {progress : Progress}
    {notices : List Notice} (h : p.drive host request again s = (progress, notices, t)) :
    ∃ ds, p.drive host.ledger request again (s, []) = (progress, notices, t, ds) := by
  have hledger := drive_ledger host p request again s []
  rw [h] at hledger
  generalize p.drive host.ledger request again (s, []) = reading at hledger ⊢
  rcases reading with ⟨progress', notices', t', ds⟩
  cases hledger
  exact ⟨ds, rfl⟩

end Transparent

/-! ### Exchanges -/

/-- The exchanges lead the run from its start to where it is, with the notices on the way. -/
inductive Reaches (p : Pipeline) (start : Run) : List Exchange → List Notice → Run → Prop where
  | refl : Reaches p start [] [] start
  | step {xs : List Exchange} {notices : List Notice} {run : Run} {call : Call}
      {resume : call.Answer → Step} (h : Reaches p start xs notices run)
      (hnext : run.next p = .asks call resume) (answer : call.Answer) :
      Reaches p start (xs ++ [⟨call, answer⟩]) (notices ++ (resume answer).2) (resume answer).1

/-- What each exchange keeps holds of every run that is reached. -/
theorem Reaches.invariant {p : Pipeline} {start : Run} {P : List Exchange → Run → Prop}
    (hstart : P [] start)
    (hstep : ∀ {xs run call resume}, P xs run → run.next p = .asks call resume →
      ∀ answer, P (xs ++ [⟨call, answer⟩]) (resume answer).1)
    {xs : List Exchange} {notices : List Notice} {run : Run} (h : Reaches p start xs notices run) :
    P xs run := by
  induction h with
  | refl => exact hstart
  | step _ hnext answer ih => exact hstep ih hnext answer

/-- The deeds are those of a run that stands here, whose next call is made already or not. -/
def Open (p : Pipeline) (start run : Run) (issued : Bool) (notices : List Notice)
    (ds : List Deed) : Prop :=
  ∃ xs, Reaches p start xs notices run ∧ ds = ledgerOf xs ++
    if issued then (match run.next p with
      | .ended _ => []
      | .asks call _ => [.asked call])
    else []

/-- The notices and deeds are those of a run that came so far. -/
def Left (p : Pipeline) (start : Run) (notices : List Notice) (ds : List Deed) : Progress → Prop
  | .finished result => ∃ xs run, Reaches p start xs notices run ∧ run.stage = .ended result ∧
      ds = ledgerOf xs
  | .suspended run | .crashed run => ∃ xs call resume, Reaches p start xs notices run ∧
      run.next p = .asks call resume ∧ ds = ledgerOf xs ++ [.asked call]

section Left

variable {σ : Type} {host : Host σ} {p : Pipeline} {start : Run}

theorem open_start : Open p start start false [] [] := ⟨[], .refl, rfl⟩

theorem stage_of_next {run : Run} {result : Outcome Bytes} (h : run.next p = .ended result) :
    run.stage = .ended result := by
  unfold next at h
  split at h <;> cases h
  assumption

/-- Asking the host about the next call of a run keeps this, whether an answer comes or not. -/
structure KeptByAsking (host : Host σ) (p : Pipeline)
    (K : List Exchange → List Notice → Run → Bool → σ → Prop) : Prop where
  pending : ∀ {xs : List Exchange} {notices : List Notice} {run : Run} {issued : Bool} {call : Call}
    {resume : call.Answer → Step} {s t : σ}, K xs notices run issued s →
    run.next p = .asks call resume → host.ask issued call s = (.pending, t) →
      K xs notices run true t
  now : ∀ {xs : List Exchange} {notices : List Notice} {run : Run} {issued : Bool} {call : Call}
    {resume : call.Answer → Step} {answer : call.Answer} {s t : σ}, K xs notices run issued s →
    run.next p = .asks call resume → host.ask issued call s = (.now answer, t) →
      K (xs ++ [⟨call, answer⟩]) (notices ++ (resume answer).2) (resume answer).1 false t

/-- What is kept by asking holds of a run where a poll leaves it. -/
def Kept (host : Host σ) (p : Pipeline)
    (K : List Exchange → List Notice → Run → Bool → σ → Prop) (notices : List Notice) (t : σ) :
    Progress → Prop
  | .finished result => ∃ xs run issued, K xs notices run issued t ∧ run.stage = .ended result
  | .suspended run => ∃ xs call resume, K xs notices run true t ∧ run.next p = .asks call resume
  | .crashed run => ∃ xs call resume issued s, K xs notices run issued s ∧
      run.next p = .asks call resume ∧ host.ask issued call s = (.crash, t)

/-- What is kept by asking is kept by a poll. -/
theorem poll_invariant {K : List Exchange → List Notice → Run → Bool → σ → Prop}
    (hkept : KeptByAsking host p K) {run : Run} :
    ∀ {xs : List Exchange} {notices later : List Notice} {issued : Bool} {s t : σ}
      {progress : Progress}, K xs notices run issued s →
      poll host p run issued s = (progress, later, t) →
        Kept host p K (notices ++ later) t progress := by
  induction hn : run.stage.remaining using Nat.strongRecOn generalizing run with
  | ind n ih =>
    intro xs notices later issued s t progress hK h
    subst hn
    cases hnext : run.next p with
    | ended result =>
      rw [poll_ended hnext] at h
      cases h
      rw [List.append_nil]
      exact ⟨xs, run, issued, hK, stage_of_next hnext⟩
    | asks call resume =>
      rcases hask : host.ask issued call s with ⟨answer | _ | _, u⟩
      · rw [poll_now hnext hask] at h
        cases h
        rw [← List.append_assoc]
        exact ih _ (remaining_lt hnext answer) rfl (hkept.now hK hnext hask) rfl
      · rw [poll_pending hnext hask] at h
        cases h
        rw [List.append_nil]
        exact ⟨xs, call, resume, hkept.pending hK hnext hask, hnext⟩
      · rw [poll_crash hnext hask] at h
        cases h
        rw [List.append_nil]
        exact ⟨xs, call, resume, issued, s, hK, hnext, hask⟩

/-- It is kept by any number of polls. -/
theorem polls_invariant {K : List Exchange → List Notice → Run → Bool → σ → Prop}
    (hkept : KeptByAsking host p K) :
    ∀ {again : Nat} {xs : List Exchange} {notices later : List Notice} {run : Run} {issued : Bool}
      {s t : σ} {progress : Progress}, K xs notices run issued s →
      polls host p again run issued s = (progress, later, t) →
        Kept host p K (notices ++ later) t progress := by
  intro again
  induction again with
  | zero => exact fun hK h => poll_invariant hkept hK h
  | succ again ih =>
    intro xs notices later run issued s t progress hK h
    rw [polls] at h
    rcases hpoll : poll host p run issued s with ⟨progress₁, later₁, t₁⟩
    have hpolled := poll_invariant hkept hK hpoll
    rw [hpoll] at h
    cases progress₁ with
    | finished _ | crashed _ => cases h; exact hpolled
    | suspended run₁ =>
      obtain ⟨xs₁, _, _, hK₁, _⟩ := hpolled
      rcases hrest : polls host p again run₁ true t₁ with ⟨progress₂, later₂, t₂⟩
      simp only [hrest] at h
      cases h
      rw [← List.append_assoc]
      exact ih hK₁ hrest

/-- The deeds are those of the exchanges, and of the next call of the run if it is made already. -/
def Written (p : Pipeline) (xs : List Exchange) (run : Run) (issued : Bool) (ds : List Deed) :
    Prop :=
  ds = ledgerOf xs ++
    if issued then (match run.next p with
      | .ended _ => []
      | .asks call _ => [.asked call])
    else []

section Written

variable {xs : List Exchange} {run : Run} {issued : Bool} {s t : σ} {ds ds' : List Deed}
  {call : Call} {resume : call.Answer → Step} (h : Written p xs run issued ds)
include h

theorem Written.ended {result : Outcome Bytes} (hstage : run.stage = .ended result) :
    ds = ledgerOf xs := by
  have hnext : run.next p = .ended result := by rw [next, hstage]
  rw [Written, hnext] at h
  cases issued <;> simpa using h

variable (hnext : run.next p = .asks call resume)
include hnext

theorem Written.asking : ds ++ (if issued then [] else [.asked call]) =
    ledgerOf xs ++ [.asked call] := by
  rw [Written, hnext] at h
  rw [h]
  cases issued <;> simp

/-- What is written down when the host has been asked about the next call. -/
theorem Written.ask {reply : Reply call.Answer}
    (hask : host.ledger.ask issued call (s, ds) = (reply, t, ds')) :
    ds' = ledgerOf xs ++ .asked call :: Host.noted call reply := by
  rw [Host.ask_ledger, h.asking hnext] at hask
  cases hask
  rw [List.append_assoc]
  rfl

theorem Written.pending (hask : host.ledger.ask issued call (s, ds) = (.pending, t, ds')) :
    Written p xs run true ds' := by
  rw [Written, hnext]
  exact h.ask hnext hask

theorem Written.crash (hask : host.ledger.ask issued call (s, ds) = (.crash, t, ds')) :
    Written p xs run true ds' := by
  rw [Written, hnext]
  exact h.ask hnext hask

theorem Written.now {answer : call.Answer} {run' : Run}
    (hask : host.ledger.ask issued call (s, ds) = (.now answer, t, ds')) :
    Written p (xs ++ [⟨call, answer⟩]) run' false ds' := by
  rw [Written, h.ask hnext hask, ledgerOf_concat]
  exact (List.append_nil _).symm

end Written

theorem Written.asked {xs : List Exchange} {run : Run} {ds : List Deed} {call : Call}
    {resume : call.Answer → Step} (h : Written p xs run true ds)
    (hnext : run.next p = .asks call resume) : ds = ledgerOf xs ++ [.asked call] := by
  rwa [Written, hnext] at h

/-- The run stands here after the exchanges, and these are what the host has written down. -/
structure Stood (p : Pipeline) (start : Run) (xs : List Exchange) (notices : List Notice)
    (run : Run) (issued : Bool) (s : σ × List Deed) : Prop where
  reaches : Reaches p start xs notices run
  written : Written p xs run issued s.2

theorem keptByAsking_stood : KeptByAsking host.ledger p (Stood p start) where
  pending h hnext hask := ⟨h.reaches, h.written.pending hnext hask⟩
  now h hnext hask := ⟨h.reaches.step hnext _, h.written.now hnext hask⟩

theorem left_of_kept {notices : List Notice} {t : σ} {ds : List Deed} {progress : Progress}
    (h : Kept host.ledger p (Stood p start) notices (t, ds) progress) :
    Left p start notices ds progress := by
  cases progress with
  | finished result =>
    obtain ⟨xs, run, issued, ⟨hreach, hds⟩, hstage⟩ := h
    exact ⟨xs, run, hreach, hstage, hds.ended hstage⟩
  | suspended run =>
    obtain ⟨xs, call, resume, ⟨hreach, hds⟩, hnext⟩ := h
    exact ⟨xs, call, resume, hreach, hnext, hds.asked hnext⟩
  | crashed run =>
    obtain ⟨xs, call, resume, issued, ⟨s, ds⟩, ⟨hreach, hds⟩, hnext, hask⟩ := h
    exact ⟨xs, call, resume, hreach, hnext, (hds.crash hnext hask).asked hnext⟩

theorem poll_left {run : Run} {issued : Bool} {notices later : List Notice} {s t : σ}
    {ds ds' : List Deed} {progress : Progress} (hopen : Open p start run issued notices ds)
    (h : poll host.ledger p run issued (s, ds) = (progress, later, t, ds')) :
    Left p start (notices ++ later) ds' progress := by
  obtain ⟨xs, hreach, hds⟩ := hopen
  exact left_of_kept (poll_invariant keptByAsking_stood (s := (s, ds)) ⟨hreach, hds⟩ h)

/-- However often a run is polled, its deeds are those of the exchanges that led it to where it is,
and of the call that is still open. -/
theorem polls_left {again : Nat} {run : Run} {issued : Bool} {notices later : List Notice}
    {s t : σ} {ds ds' : List Deed} {progress : Progress}
    (hopen : Open p start run issued notices ds)
    (h : polls host.ledger p again run issued (s, ds) = (progress, later, t, ds')) :
    Left p start (notices ++ later) ds' progress := by
  obtain ⟨xs, hreach, hds⟩ := hopen
  exact left_of_kept (polls_invariant keptByAsking_stood (s := (s, ds)) ⟨hreach, hds⟩ h)

end Left

end Run

end StubLoader
