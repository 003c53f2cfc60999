import StubLoader.Proofs.Batch.Ledgers
/-!
# Permits and places

A batch never has more runs under way than permits, and however its tasks are polled, end or crash,
no permit is lost: while a request is without a result, some task can go on, and on a host whose
calls come to an end the batch can always be brought to its own. Its results stand in the places of
their requests, and a run that crashed, and only such a one, is reported as not finished.
-/

namespace StubLoader

open Run

/-! ### What only a batch says -/

/-- Whether the failure is one that a batch adds to those of its runs. -/
def Failure.isOfBatch : Failure → Bool
  | .task _ | .cancelled => true
  | _ => false

theorem resolvedBasePath_isOfBatch {o : Options} {cwd : Path} {e : Failure}
    (h : o.resolvedBasePath cwd = .error e) : e.isOfBatch = false := by
  unfold Options.resolvedBasePath at h
  split at h
  · cases h; rfl
  · split at h <;> cases h
    rfl

theorem Processed.isOfBatch {entryPoint : String} {request : Request} {modulePath : String}
    {bytes : Bytes} {outcome : Outcome Bytes} {e : Failure}
    (h : Processed entryPoint request modulePath bytes outcome) (he : outcome = .error e) :
    e.isOfBatch = false := by
  cases h <;> cases he <;> rfl

theorem Middle.isOfBatch {p : Pipeline} {request : Request} {w : Path} {xs : List Exchange}
    {outcome : Outcome Bytes} {e : Failure} (h : Middle p request w xs outcome)
    (he : outcome = .error e) : e.isOfBatch = false := by
  cases h with
  | badBase hbase => cases he; exact resolvedBasePath_isOfBatch hbase
  | read _ _ _ _ hprocessed => exact hprocessed.isOfBatch he
  | noCompiler | noPlugin | notStarted | notCompiled | notUnder | notRead => cases he; rfl

theorem Transcript.isOfBatch {p : Pipeline} {request : Request} {xs : List Exchange}
    {result : Outcome Bytes} {e : Failure} (h : Transcript p request xs result)
    (he : result = .error e) : e.isOfBatch = false := by
  cases h with
  | notCreated _ => cases he; rfl
  | @created w xs outcome h answer =>
    cases outcome with
    | error e' => cases he; exact h.isOfBatch rfl
    | ok artifact =>
      cases answer with
      | ok _ => cases he
      | error _ => cases he; rfl

/-! ### Calls that come to an end -/

namespace Host

variable {σ : Type}

/-- Asking for the answer to a call, again and again, leads to one, or crashes. -/
inductive Ends (host : Host σ) (call : Call) : Bool → σ → Prop where
  | now {issued : Bool} {s t : σ} {answer : call.Answer}
    (h : host.ask issued call s = (.now answer, t)) : Ends host call issued s
  | crash {issued : Bool} {s t : σ} (h : host.ask issued call s = (.crash, t)) :
    Ends host call issued s
  | later {issued : Bool} {s t : σ} (h : host.ask issued call s = (.pending, t))
    (hlater : Ends host call true t) : Ends host call issued s

/-- No call is answered by crashing. -/
def Reliable (host : Host σ) : Prop := ∀ call issued s, (host.ask issued call s).1 ≠ .crash

/-- No call stays without an answer for ever. -/
def Responds (host : Host σ) : Prop := ∀ call issued s, host.Ends call issued s

theorem responds_ofAnswers (answer : (c : Call) → σ → c.Answer × σ)
    (discard : Path → σ → Except IoError Unit × σ) : (ofAnswers answer discard).Responds := by
  intro call issued s
  cases issued with
  | false => exact .now rfl
  | true => exact .now rfl

end Host

/-- On a host that responds, some number of polls brings a run to its end or makes it crash. -/
theorem Run.exists_ended {σ : Type} {host : Host σ} (hhost : host.Responds) {p : Pipeline} :
    ∀ (run : Run) (issued : Bool) (s : σ), ∃ again,
      (Task.ofProgress (polls host p again run issued s).1).isEnded = true := by
  intro run
  induction hn : run.stage.remaining using Nat.strongRecOn generalizing run with
  | ind n ih =>
    intro issued s
    subst hn
    cases hnext : run.next p with
    | ended result => exact ⟨0, by rw [polls, poll_ended hnext]; rfl⟩
    | asks call resume =>
      induction hhost call issued s with
      | @now issued s t answer h =>
        obtain ⟨again, hended⟩ := ih _ (remaining_lt hnext answer) _ rfl false t
        exact ⟨again, by rw [polls_now hnext h]; exact hended⟩
      | crash h => exact ⟨0, by rw [polls, poll_crash hnext h]; rfl⟩
      | later h _ ihlater =>
        obtain ⟨again, hended⟩ := ihlater
        exact ⟨again + 1, by rw [polls_pending hnext h]; exact hended⟩

namespace Batch

section Moves

variable {σ : Type} {host : Host σ} {p : Pipeline} {b : Batch} {i : Nat} {s : σ} {run : Run}
  {issued : Bool}

/-! ### Due tasks -/

theorem poll_begun {request : Request} (htask : b.tasks[i]? = some (.waiting request))
    (htoken : b.token ≠ .cancelled) (hfree : b.free ≠ 0) :
    b.poll host p i s = ((b.grant.goOn host p i (.initial request) false s).1,
      entries request [.event .started] ++ (b.grant.goOn host p i (.initial request) false s).2.1,
      (b.grant.goOn host p i (.initial request) false s).2.2) := by
  obtain ⟨free, hfree⟩ := Nat.exists_eq_succ_of_ne_zero hfree
  simp only [poll, htask, if_neg htoken, hfree, grant]
  rfl

theorem poll_resumed (htask : b.tasks[i]? = some (.running run)) (htoken : b.token ≠ .cancelled) :
    b.poll host p i s = b.goOn host p i run true s := by
  simp only [poll, htask, if_neg htoken]

/-- Polling a task that is due goes on with its run. -/
theorem replaced_of_due (h : b.Due i run issued) : ∃ old,
    b.Replaced i old (.ofProgress (run.poll host p issued s).1) (b.poll host p i s).1 := by
  cases h with
  | begins htask htoken hfree =>
    rw [poll_begun htask htoken hfree, goOn_fst]
    exact ⟨_, replaced_begun htask hfree _⟩
  | goesOn htask htoken =>
    rw [poll_resumed htask htoken, goOn_fst]
    exact ⟨_, replaced_resumed htask _⟩

theorem host_of_due (h : b.Due i run issued) {now : Run} {notices : List Notice} {t : σ}
    (hpoll : run.poll host p issued s = (.suspended now, notices, t)) :
    (b.poll host p i s).2.2 = t := by
  cases h with
  | begins htask htoken hfree => rw [poll_begun htask htoken hfree, goOn, hpoll]
  | goesOn htask htoken => rw [poll_resumed htask htoken, goOn, hpoll]

/-- Before a cancellation, polling a task that is not due does nothing. -/
theorem poll_of_not_due (h : ∀ run issued, ¬b.Due i run issued) (htoken : b.token ≠ .cancelled) :
    b.poll host p i s = (b, [], s) := by
  have hpolled := b.polled host p i s
  generalize b.poll host p i s = moved at hpolled ⊢
  cases hpolled with
  | ended _ | queued _ _ _ => rfl
  | refused _ hcancelled | stopped _ hcancelled => exact absurd hcancelled htoken
  | begun htask htoken hfree => exact absurd (.begins htask htoken hfree) (h _ _)
  | resumed htask htoken => exact absurd (.goesOn htask htoken) (h _ _)

/-- As long as a task has not ended, some task is due. -/
theorem exists_due (hpermits : b.free + b.tasks.countP Task.isRunning = permits p)
    (htoken : b.token ≠ .cancelled) (hunfinished : ∃ task ∈ b.tasks, task.isEnded = false) :
    ∃ i run issued, b.Due i run issued := by
  by_cases hrunning : ∃ run, Task.running run ∈ b.tasks
  · obtain ⟨run, hmem⟩ := hrunning
    obtain ⟨i, htask⟩ := List.mem_iff_getElem?.mp hmem
    exact ⟨i, run, true, .goesOn htask htoken⟩
  · -- no permit is held, so one is free
    have hnone : b.tasks.countP Task.isRunning = 0 := by
      refine List.countP_eq_zero.mpr fun task hmem hheld => hrunning ?_
      cases task with
      | running run => exact ⟨run, hmem⟩
      | waiting _ | settled _ | lost => cases hheld
    have hfree : b.free ≠ 0 := by
      have hpositive : 1 ≤ permits p := Nat.le_max_left ..
      omega
    obtain ⟨task, hmem, hended⟩ := hunfinished
    obtain ⟨i, htask⟩ := List.mem_iff_getElem?.mp hmem
    cases task with
    | waiting request => exact ⟨i, .initial request, false, .begins htask htoken hfree⟩
    | running run => exact absurd ⟨run, hmem⟩ hrunning
    | settled _ | lost => cases hended

/-! ### Bringing a batch to its end -/

theorem play_append (ms ms' : List Move) : ∀ (b : Batch) (s : σ),
    (b.play host p (ms ++ ms') s).1 = ((b.play host p ms s).1.play host p ms'
      (b.play host p ms s).2.2).1 := by
  induction ms with
  | nil => exact fun _ _ => rfl
  | cons m ms ih => exact fun b s => ih _ _

/-- A run that ends when it is polled often enough ends in its batch. -/
theorem exists_replaced : ∀ (again : Nat) {b : Batch} {run : Run} {issued : Bool} {s : σ},
    b.Due i run issued →
    (Task.ofProgress (Run.polls host p again run issued s).1).isEnded = true →
      ∃ n old new, new.isEnded = true ∧
        b.Replaced i old new (b.play host p (List.replicate n (.poll i)) s).1 := by
  intro again
  induction again with
  | zero =>
    intro b run issued s hdue hended
    obtain ⟨old, hreplaced⟩ := @replaced_of_due σ host p b i s run issued hdue
    exact ⟨1, old, _, hended, hreplaced⟩
  | succ again ih =>
    intro b run issued s hdue hended
    obtain ⟨old, hreplaced⟩ := @replaced_of_due σ host p b i s run issued hdue
    rw [Run.polls] at hended
    rcases hpoll : run.poll host p issued s with ⟨progress, notices, t⟩
    rw [hpoll] at hended hreplaced
    cases progress with
    | finished _ | crashed _ => exact ⟨1, old, _, rfl, hreplaced⟩
    | suspended now =>
      have hdue' : Due (b.poll host p i s).1 i now true :=
        .goesOn hreplaced.task_new (by
          rw [hreplaced.token]
          cases hdue with
          | begins _ htoken _ | goesOn _ htoken => exact htoken)
      obtain ⟨n, mid, new, hnew, hrest⟩ := @ih _ now true t hdue' hended
      rw [← host_of_due hdue hpoll] at hrest
      exact ⟨n + 1, old, new, hnew, hreplaced.trans hrest⟩

theorem Replaced.unfinished_lt {old new : Task} {b' : Batch} (h : b.Replaced i old new b')
    (hnew : new.isEnded = true) : b'.tasks.countP (fun task => !task.isEnded) <
      b.tasks.countP (fun task => !task.isEnded) := by
  obtain ⟨hi, hold⟩ := List.getElem?_eq_some_iff.mp h.task
  have hcounted : 0 < b.tasks.countP fun task => !task.isEnded :=
    List.countP_pos_iff.mpr ⟨old, hold ▸ List.getElem_mem hi, by simp [h.unfinished]⟩
  rw [h.tasks, List.countP_set hi, hold, h.unfinished, hnew]
  simp only [Bool.not_false, Bool.not_true, if_true, if_false, Bool.false_eq_true]
  omega

theorem results?_isSome {b : Batch} (h : ∀ task ∈ b.tasks, task.isEnded = true) :
    b.results?.isSome = true := by
  rw [results?, if_pos (List.all_eq_true.mpr h)]
  rfl

/-- A batch in which some task can always be brought to its end can be brought to its own. -/
theorem exists_results_of_progress {P : Batch → Prop}
    (hprogress : ∀ {b : Batch} {s : σ}, P b → (∃ task ∈ b.tasks, task.isEnded = false) →
      ∃ ms i old new, new.isEnded = true ∧ b.Replaced i old new (b.play host p ms s).1 ∧
        P (b.play host p ms s).1) :
    ∀ {b : Batch} {s : σ}, P b → ∃ ms, ((b.play host p ms s).1.results?).isSome = true := by
  intro b
  induction hn : b.tasks.countP (fun task => !task.isEnded) using Nat.strongRecOn
    generalizing b with
  | ind n ih =>
    intro s hb
    subst hn
    by_cases hunfinished : ∃ task ∈ b.tasks, task.isEnded = false
    · obtain ⟨ms, i, old, new, hnew, hreplaced, hb'⟩ := @hprogress b s hb hunfinished
      obtain ⟨ms', hresults⟩ := @ih _ (hreplaced.unfinished_lt hnew) _ rfl
        (b.play host p ms s).2.2 hb'
      exact ⟨ms ++ ms', by rwa [play_append]⟩
    · refine ⟨[], results?_isSome fun task hmem => ?_⟩
      cases hended : task.isEnded with
      | true => rfl
      | false => exact absurd ⟨task, hmem, hended⟩ hunfinished

/-- On a host that responds, some schedule brings a batch to its end. -/
theorem exists_results (hhost : host.Responds) {b : Batch} {s : σ}
    (hpermits : b.free + b.tasks.countP Task.isRunning = permits p)
    (htoken : b.token ≠ .cancelled) :
    ∃ ms, ((b.play host p ms s).1.results?).isSome = true := by
  refine exists_results_of_progress (P := fun b =>
    b.free + b.tasks.countP Task.isRunning = permits p ∧ b.token ≠ .cancelled)
    (fun {b s} hb hunfinished => ?_) ⟨hpermits, htoken⟩
  obtain ⟨i, run, issued, hdue⟩ := exists_due hb.1 hb.2 hunfinished
  obtain ⟨again, hended⟩ := Run.exists_ended hhost (p := p) run issued s
  obtain ⟨n, old, new, hnew, hreplaced⟩ := exists_replaced again hdue hended
  exact ⟨List.replicate n (.poll i), i, old, new, hnew, hreplaced,
    hreplaced.permits.trans hb.1, hreplaced.token ▸ hb.2⟩

/-! ### Crashes -/

variable (host p) in
/-- Polling the task crashes. -/
def Crashes (b : Batch) (i : Nat) (s : σ) : Prop :=
  ∃ run issued now, b.Due i run issued ∧ (run.poll host p issued s).1 = .crashed now

variable (host p) in
/-- The task crashes in the course of the schedule. -/
def Crashed (i : Nat) : List Move → Batch → σ → Prop
  | [], _, _ => False
  | m :: ms, b, s => (m = .poll i ∧ b.Crashes host p i s) ∨
      Crashed i ms (b.move host p s m).1 (b.move host p s m).2.2

theorem crashes_of_due (h : b.Due i run issued) : b.Crashes host p i s ↔
    Task.ofProgress (run.poll host p issued s).1 = .lost := by
  constructor
  · rintro ⟨run', issued', now, hdue, hcrashed⟩
    obtain ⟨rfl, rfl⟩ := h.unique hdue
    rw [hcrashed]
    rfl
  · intro hlost
    cases hprogress : (run.poll host p issued s).1 with
    | finished _ | suspended _ => rw [hprogress] at hlost; cases hlost
    | crashed now => exact ⟨run, issued, now, h, hprogress⟩

theorem Replaced.lost {j : Nat} {old new : Task} {b' : Batch} (h : b.Replaced j old new b') :
    b'.tasks[i]? = some .lost ↔ b.tasks[i]? = some .lost ∨ (j = i ∧ new = .lost) := by
  rw [h.tasks]
  by_cases hj : j = i
  · subst hj
    have hold : b.tasks[j]? ≠ some .lost := by
      rw [h.task]
      rintro ⟨⟩
      cases h.unfinished
    rw [← h.tasks, h.task_new, Option.some_inj]
    simp [hold]
  · simp [List.getElem?_set_ne hj, hj]

/-- A task that is not due does not crash. -/
theorem lost_of_not_due {j : Nat} (h : ∀ run issued, ¬b.Due j run issued) :
    (b.poll host p j s).1.tasks[i]? = some .lost ↔ b.tasks[i]? = some .lost := by
  have hpolled := b.polled host p j s
  generalize b.poll host p j s = moved at hpolled ⊢
  cases hpolled with
  | ended _ | queued _ _ _ => rfl
  | refused htask _ => simp [(replaced_refused htask).lost]
  | stopped htask _ =>
    change (b.settle j (.settled (.error .cancelled))).tasks[i]? = _ ↔ _
    simp [(replaced_stopped htask).lost]
  | begun htask htoken hfree => exact absurd (.begins htask htoken hfree) (h _ _)
  | resumed htask htoken => exact absurd (.goesOn htask htoken) (h _ _)

theorem lost_move (m : Move) : (b.move host p s m).1.tasks[i]? = some .lost ↔
    b.tasks[i]? = some .lost ∨ (m = .poll i ∧ b.Crashes host p i s) := by
  cases m with
  | cancel => simp [move, cancel]
  | poll j =>
    rw [move, Move.poll.injEq]
    by_cases hdue : ∃ run issued, b.Due j run issued
    · obtain ⟨run, issued, hdue⟩ := hdue
      obtain ⟨old, hreplaced⟩ := @replaced_of_due σ host p b j s run issued hdue
      rw [hreplaced.lost, ← crashes_of_due hdue]
      exact or_congr_right (and_congr_right fun hj => by rw [hj])
    · rw [lost_of_not_due fun run issued h => hdue ⟨run, issued, h⟩]
      refine (or_iff_left ?_).symm
      rintro ⟨rfl, run, issued, now, h, _⟩
      exact hdue ⟨run, issued, h⟩

/-- On a host that answers no call by crashing, no run crashes. -/
theorem poll_ne_crashed (hhost : host.Reliable) (run : Run) (issued : Bool) (s : σ) (now : Run) :
    (run.poll host p issued s).1 ≠ .crashed now := by
  induction hn : run.stage.remaining using Nat.strongRecOn generalizing run issued s with
  | ind n ih =>
    subst hn
    cases hnext : run.next p with
    | ended result => rw [poll_ended hnext]; exact Progress.noConfusion
    | asks call resume =>
      have hreply := hhost call issued s
      rcases hask : host.ask issued call s with ⟨answer | _ | _, t⟩
      · rw [poll_now hnext hask]
        exact ih _ (remaining_lt hnext answer) _ false t rfl
      · rw [poll_pending hnext hask]
        exact Progress.noConfusion
      · rw [hask] at hreply
        exact absurd rfl hreply

theorem not_crashed (hhost : host.Reliable) : ∀ (ms : List Move) (b : Batch) (s : σ),
    ¬Crashed host p i ms b s
  | [], _, _ => id
  | _ :: ms, _, _ => by
    rintro (⟨_, run, issued, now, _, hnow⟩ | h)
    · exact poll_ne_crashed hhost run issued _ now hnow
    · exact not_crashed hhost ms _ _ h

/-- The tasks that are lost after a schedule are those that crashed in its course. -/
theorem lost_play : ∀ (ms : List Move) (b : Batch) (s : σ),
    (b.play host p ms s).1.tasks[i]? = some .lost ↔
      b.tasks[i]? = some .lost ∨ Crashed host p i ms b s
  | [], b, s => (or_iff_left id).symm
  | m :: ms, b, s => by
    rw [play, Crashed, ← or_assoc, ← lost_move]
    exact lost_play ms _ _

end Moves

/-! ### Batches without a token -/

section Absent

variable {σ : Type} {host : Host σ} {p : Pipeline}

theorem poll_token (b : Batch) (i : Nat) (s : σ) : (b.poll host p i s).1.token = b.token := by
  have hpolled := b.polled host p i s
  generalize b.poll host p i s = moved at hpolled ⊢
  cases hpolled with
  | ended _ | queued _ _ _ | refused _ _ | stopped _ _ => rfl
  | begun _ _ _ | resumed _ _ => exact goOn_fst ▸ become_token _

theorem play_absent : ∀ (ms : List Move) {b : Batch} {s : σ}, b.token = .absent →
    (b.play host p ms s).1.token = .absent
  | [], _, _, h => h
  | m :: ms, b, s, h => by
    refine play_absent ms ?_
    cases m with
    | cancel => exact (congrArg Token.cancel h).trans rfl
    | poll i => exact (poll_token b i s).trans h

/-- What holds of a batch at every moment. -/
structure Sound (p : Pipeline) (b : Batch) : Prop where
  /-- There are not more runs under way than permits. -/
  bounded : b.tasks.countP Task.isRunning ≤ permits p
  /-- Nor are there while a run begins. -/
  begins : ∀ i run, b.Due i run false → b.tasks.countP Task.isRunning + 1 ≤ permits p
  /-- Every permit is free or with a run. -/
  conserved : b.free + b.tasks.countP Task.isRunning = permits p
  /-- If something is left to do, some task can do it. -/
  due : (∃ task ∈ b.tasks, task.isEnded = false) → ∃ i run issued, b.Due i run issued

theorem sound_of_conserved {b : Batch}
    (hpermits : b.free + b.tasks.countP Task.isRunning = permits p)
    (htoken : b.token ≠ .cancelled) : b.Sound p := by
  refine ⟨?_, fun i run hdue => ?_, hpermits, exists_due hpermits htoken⟩
  · omega
  · cases hdue with
    | begins _ _ hfree => omega

end Absent

end Batch

/-! ### Whole batches -/

namespace Batch

theorem exists_start {p : Pipeline} (hlimit : p.settings.maxConcurrentRuns ≤ maxPermits)
    (requests : List Request) (token : Token) : ∃ b₀, start? p requests token = some b₀ :=
  ⟨_, if_pos (Nat.max_le.mpr ⟨by decide, hlimit⟩)⟩

theorem token_of_start? {p : Pipeline} {requests : List Request} {token : Token} {b₀ : Batch}
    (h : start? p requests token = some b₀) : b₀.token = token := by
  unfold start? at h
  split at h <;> cases h
  rfl

theorem not_lost_of_start? {p : Pipeline} {requests : List Request} {token : Token} {b₀ : Batch}
    (h : start? p requests token = some b₀) (i : Nat) : b₀.tasks[i]? ≠ some .lost := by
  unfold start? at h
  split at h <;> cases h
  simp

/-- A batch keeps to its permits at every moment and loses none, whatever its host does and in
whatever order its tasks go on; on a host that responds it can always be brought to its end; and
then every request has the result of its own run, unless that crashed. -/
theorem bounded_and_complete {σ : Type} (host : Host σ) (p : Pipeline) (requests : List Request)
    (hlimit : p.settings.maxConcurrentRuns ≤ maxPermits) :
    ∃ b₀, start? p requests .absent = some b₀ ∧ ∀ (ms : List Move) (s : σ),
      (b₀.play host p ms s).1.Sound p ∧
      (host.Responds → ∃ ms', ((b₀.play host p (ms ++ ms') s).1.results?).isSome = true) ∧
      ∀ rs, (b₀.play host p ms s).1.results? = some rs → rs.length = requests.length ∧
        ∀ (i : Nat) (request : Request), requests[i]? = some request →
          (rs[i]? = some (.error (.task .unfinished)) ↔ Crashed host p i ms b₀ s) ∧
          (¬Crashed host p i ms b₀ s → ∃ xs result, Transcript p request xs result ∧
            ((Scene.initial b₀ s).play host p ms).ledgers i = ledgerOf xs ∧
            rs[i]? = some result) := by
  obtain ⟨b₀, hstart⟩ := exists_start hlimit requests .absent
  refine ⟨b₀, hstart, fun ms s => ?_⟩
  have hinv : Scene.Inv p requests ((Scene.initial b₀ s).play host p ms) :=
    (Scene.Inv.initial hstart s).play ms
  obtain ⟨hbatch, -⟩ := Scene.play_initial host p ms b₀ s
  have htoken : (b₀.play host p ms s).1.token = .absent :=
    play_absent ms (token_of_start? hstart)
  have hlive : (b₀.play host p ms s).1.token ≠ .cancelled := by
    rw [htoken]
    exact Token.noConfusion
  have hpermits := hinv.permits
  rw [hbatch] at hpermits
  refine ⟨sound_of_conserved hpermits hlive, fun hhost => ?_, fun rs hresults => ?_⟩
  · obtain ⟨ms', hended⟩ := exists_results hhost hpermits hlive
    exact ⟨ms', by rwa [play_append]⟩
  · rw [← hbatch] at hresults
    refine ⟨(hinv.results hresults).1, fun i request hrequest => ?_⟩
    obtain ⟨result, hresult, hverdict⟩ := hinv.verdict hresults hrequest
    rw [hbatch, htoken] at hverdict
    rw [lost_play, or_iff_right (not_lost_of_start? hstart i)] at hverdict
    rw [hresult, Option.some_inj]
    cases hverdict with
    | @ran xs _ h hledger hcrashed =>
      refine ⟨⟨fun hresult => ?_, fun h => absurd h hcrashed⟩, fun _ => ⟨xs, _, h, hledger, rfl⟩⟩
      cases h.isOfBatch hresult
    | unfinished hcrashed => exact ⟨⟨fun _ => hcrashed, fun _ => rfl⟩, fun h => absurd hcrashed h⟩
    | cancelled hcancelled _ => cases hcancelled

/-- A host that crashes at the first call that it gets, and then has a codec of one byte. -/
def recovering : Host Bool where
  start call s := if s then ((Pipeline.sampleHost.start call ()).1, true) else (.crash, true)
  await call s := ((Pipeline.sampleHost.await call ()).1, s)
  discard path s := ((Pipeline.sampleHost.discard path ()).1, s)

theorem recovering_responds : recovering.Responds := by
  intro call issued s
  cases issued with
  | true => exact .now rfl
  | false => cases s with
    | true => exact .now rfl
    | false => exact .crash rfl

/-- A pipeline with one permit. -/
def narrow : Pipeline :=
  { Pipeline.standard with settings := { Settings.standard with maxConcurrentRuns := 0 } }

/-- Of two requests for the same codec the one whose run crashes takes nothing from the other. -/
theorem bounded_and_complete_recovering :
    ∃ b₀, start? narrow [Pipeline.sampleRequest, Pipeline.sampleRequest] .absent = some b₀ ∧
      Crashed recovering narrow 0 (inOrder 2) b₀ false ∧
      (∃ ms, ((b₀.play recovering narrow (.poll 0 :: ms) false).1.results?).isSome = true) ∧
      ∃ xs, Transcript narrow Pipeline.sampleRequest xs (.ok [0x78]) ∧
        ((Scene.initial b₀ false).play recovering narrow (inOrder 2)).ledgers 1 = ledgerOf xs := by
  obtain ⟨b₀, hstart, hsound⟩ := bounded_and_complete recovering narrow
    [Pipeline.sampleRequest, Pipeline.sampleRequest] (by decide)
  obtain ⟨-, hends, -⟩ := hsound [.poll 0] false
  obtain ⟨-, -, hresults⟩ := hsound (inOrder 2) false
  have hended : (b₀.play recovering narrow (inOrder 2) false).1.results? =
      some [.error (.task .unfinished), .ok [0x78]] := by
    cases hstart
    decide +kernel
  obtain ⟨-, hplaces⟩ := hresults _ hended
  obtain ⟨hfirst, -⟩ := hplaces 0 _ rfl
  obtain ⟨hsecond, hran⟩ := hplaces 1 _ rfl
  refine ⟨b₀, hstart, hfirst.mp rfl, hends recovering_responds, ?_⟩
  obtain ⟨xs, result, hxs, hledger, hresult⟩ := hran fun hcrashed => nomatch hsecond.mpr hcrashed
  cases hresult
  exact ⟨xs, hxs, hledger⟩

end Batch

end StubLoader
