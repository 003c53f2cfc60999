import StubLoader.Proofs.Run.Ledger
import StubLoader.Proofs.Run.Steps
/-!
# Logs

What a run reports stands between its exchanges: a log has an entry for every answer, with the
notices that it gave rise to. Among the notices are the changes of the run's state. One after the
other they lead from its first state to the one it is in, and each of them is allowed.
-/

namespace StubLoader

/-! ### Changes of state -/

/-- The change of state that a notice records. -/
def Notice.change? : Notice → Option (RunState × RunState)
  | .event (.stateChanged old new) => some (old, new)
  | _ => none

/-- The recorded changes of state, in order. -/
def changes (notices : List Notice) : List (RunState × RunState) := notices.filterMap Notice.change?

@[simp] theorem changes_append (xs ys : List Notice) :
    changes (xs ++ ys) = changes xs ++ changes ys := List.filterMap_append

@[simp] theorem changes_cons_started (notices : List Notice) :
    changes (.event .started :: notices) = changes notices := rfl

namespace RunState

/-- The changes lead from one state to another, each from where the one before led, and each is
allowed. -/
inductive Leads : RunState → List (RunState × RunState) → RunState → Prop where
  | refl (a : RunState) : Leads a [] a
  | step {a b c : RunState} {cs : List (RunState × RunState)} (h : a.canBecome b = true)
      (rest : Leads b cs c) : Leads a ((a, b) :: cs) c

theorem canBecome_failed {a : RunState} (h : a.isTerminal = false) :
    a.canBecome .failed = true := by
  cases a <;> first | rfl | cases h

theorem isTerminal_of_canBecome {a b : RunState} (h : a.canBecome b = true) :
    a.isTerminal = false := by
  cases a <;> first | rfl | (cases b <;> cases h)

namespace Leads

variable {a b c : RunState} {cs ds : List (RunState × RunState)}

theorem append (h : Leads a cs b) (h' : Leads b ds c) : Leads a (cs ++ ds) c := by
  induction h with
  | refl => exact h'
  | step hchange _ ih => exact .step hchange (ih h')

/-- Changes lead to where the last of them does. -/
theorem eq_of_concat {d : RunState} (h : Leads a (cs ++ [(b, c)]) d) : d = c := by
  induction cs generalizing a with
  | nil => cases h with
    | step _ rest => cases rest; rfl
  | cons _ _ ih => cases h with
    | step _ rest => exact ih rest

/-- On the way to a state that is not last no other is. -/
theorem live (h : Leads a cs b) (hb : b.isTerminal = false) : ∀ c ∈ cs, c.2.isTerminal = false := by
  induction h with
  | refl => exact List.forall_mem_nil _
  | step _ rest ih =>
    refine List.forall_mem_cons.mpr ⟨?_, ih hb⟩
    cases rest with
    | refl => exact hb
    | step hchange _ => exact isTerminal_of_canBecome hchange

end Leads

end RunState

namespace Run

/-! ### What a step records -/

/-- The changes that a step records lead from the state of the run to that in which it leaves it. -/
def Records (run : Run) (step : Step) : Prop := run.state.Leads (changes step.2) step.1.state

theorem changes_report {e : Event} (he : ∀ old new, e ≠ .stateChanged old new) (step : Step) :
    changes (report e step).2 = changes step.2 := by
  refine List.filterMap_cons_none ?_
  cases e with
  | stateChanged old new => exact absurd rfl (he old new)
  | _ => rfl

theorem composed_records : Composed Records where
  report he h := by
    rw [Records, changes_report he]
    exact h
  goTo run _ := .refl run.state
  giveUp run _ _ := .refl run.state
  fail run e := by
    unfold Records fail
    dsimp only
    split_ifs with hterminal
    · exact .refl _
    · exact .step (RunState.canBecome_failed (by simpa using hterminal)) (.refl _)
  reach {run target _ _} hrefuse hnext := by
    unfold reach
    split_ifs with hallowed
    · exact .step hallowed (hnext ⟨run.request, target, run.stage⟩)
    · exact hrefuse _

theorem records_warn {run : Run} {step : Step} (remarks : Compiler.Remarks)
    (h : run.Records step) : run.Records (run.warn remarks step) := by
  have hchanges : changes (run.warn remarks step).2 = changes step.2 := by
    rw [warn, changes_append]
    cases remarks.warning? run.request.source <;> rfl
  rw [Records, hchanges]
  exact h

theorem records_compiled (run : Run) (w base : Path) (answer : Except IoError ProcessOutput) :
    run.Records (run.compiled w base answer) := by
  rcases composed_records.compiled run w base answer with
    ⟨e, heq, -⟩ | ⟨output, remarks, step, -, -, heq, hstep⟩
  · rw [heq]
    exact composed_records.giveUp run w e
  · rw [heq]
    exact records_warn remarks hstep

/-- Whatever is answered, the changes that are recorded lead on from the state of the run. -/
theorem records_next {p : Pipeline} {run : Run} {call : Call} {resume : call.Answer → Step}
    (h : run.next p = .asks call resume) (answer : call.Answer) : run.Records (resume answer) := by
  unfold next at h
  split at h <;> cases h
  · exact composed_records.created p run answer
  · exact composed_records.compilerSought p run _ _ answer
  · exact composed_records.pluginSought p run _ _ _ answer
  · exact records_compiled run _ _ answer
  · exact composed_records.read p run _ _ answer
  · exact composed_records.released run _ _ answer

/-! ### Logs -/

/-- A call and its answer, with the notices that the answer gave rise to. -/
structure Entry where
  exchange : Exchange
  notices : List Notice

/-- The exchanges of a log. -/
def exchangesOf (log : List Entry) : List Exchange := log.map Entry.exchange

/-- The notices of a log. -/
def noticesOf (log : List Entry) : List Notice := log.flatMap Entry.notices

@[simp] theorem exchangesOf_concat (log : List Entry) (entry : Entry) :
    exchangesOf (log ++ [entry]) = exchangesOf log ++ [entry.exchange] := List.map_append

@[simp] theorem noticesOf_concat (log : List Entry) (entry : Entry) :
    noticesOf (log ++ [entry]) = noticesOf log ++ entry.notices := by
  simp [noticesOf]

/-- The log is that of a run from its start to where it is. -/
inductive Logged (p : Pipeline) (start : Run) : List Entry → Run → Prop where
  | refl : Logged p start [] start
  | step {log : List Entry} {run : Run} {call : Call} {resume : call.Answer → Step}
      (h : Logged p start log run) (hnext : run.next p = .asks call resume) (answer : call.Answer) :
      Logged p start (log ++ [⟨⟨call, answer⟩, (resume answer).2⟩]) (resume answer).1

section Logged

variable {p : Pipeline} {start run : Run} {log : List Entry}

theorem Logged.reaches (h : Logged p start log run) :
    Reaches p start (exchangesOf log) (noticesOf log) run := by
  induction h with
  | refl => exact .refl
  | step _ hnext answer ih =>
    rw [exchangesOf_concat, noticesOf_concat]
    exact ih.step hnext answer

theorem Reaches.logged {xs : List Exchange} {notices : List Notice}
    (h : Reaches p start xs notices run) :
    ∃ log, Logged p start log run ∧ xs = exchangesOf log ∧ notices = noticesOf log := by
  induction h with
  | refl => exact ⟨[], .refl, rfl, rfl⟩
  | step _ hnext answer ih =>
    obtain ⟨log, hlog, rfl, rfl⟩ := ih
    exact ⟨_, hlog.step hnext answer, by rw [exchangesOf_concat], by rw [noticesOf_concat]⟩

/-- The changes in a log lead to the state of the run. -/
theorem Logged.leads (h : Logged p start log run) :
    start.state.Leads (changes (noticesOf log)) run.state := by
  induction h with
  | refl => exact .refl _
  | step _ hnext answer ih =>
    rw [noticesOf_concat, changes_append]
    exact ih.append (records_next hnext answer)

end Logged

end Run

end StubLoader
