import StubLoader.Proofs.Run.Steps
import StubLoader.Proofs.Run.Transcript
import StubLoader.Proofs.Text.Utf8
/-!
# Warnings of a run

A run is warned about its source exactly if its compiler, which it runs once at most, was successful
and said something on the error stream. The warning comes with the step that hears of the compiler's
end; no other step gives rise to one, so what fails later takes nothing back.
-/

namespace StubLoader

/-! ### What the compiler answered -/

/-- What came of running a program, if that is what the exchange is. -/
def Exchange.compiled? : Exchange → Option (Except IoError ProcessOutput)
  | ⟨.runProcess _ _, answer⟩ => some answer
  | _ => none

/-- What came of running a program, if that is what the deed is. -/
def Deed.compiled? : Deed → Option (Except IoError ProcessOutput)
  | .answered x => x.compiled?
  | .asked _ | .discarded _ => none

/-- What came of the programs that were run. -/
def compilations (ds : List Deed) : List (Except IoError ProcessOutput) :=
  ds.filterMap Deed.compiled?

@[simp] theorem compilations_append (ds ds' : List Deed) :
    compilations (ds ++ ds') = compilations ds ++ compilations ds' := List.filterMap_append

@[simp] theorem compilations_nil : compilations [] = [] := rfl

@[simp] theorem compilations_asked (call : Call) (ds : List Deed) :
    compilations (.asked call :: ds) = compilations ds := rfl

theorem compilations_ledgerOf (xs : List Exchange) :
    compilations (ledgerOf xs) = xs.filterMap Exchange.compiled? := by
  induction xs with
  | nil => rfl
  | cons x xs ih =>
    have hledger : ledgerOf (x :: xs) = .asked x.call :: .answered x :: ledgerOf xs := rfl
    rw [hledger, compilations_asked, List.filterMap_cons, ← ih]
    rfl

/-- The warnings about the source of a request that the end of its compiler gives rise to: one, if
the compiler was successful and said something on the error stream, and none in all other cases. -/
inductive Warned (request : Request) :
    List (Except IoError ProcessOutput) → List Warning → Prop where
  | notRun : Warned request [] []
  | notStarted (e : IoError) : Warned request [.error e] []
  | failed {output : ProcessOutput} (h : output.success = false) : Warned request [.ok output] []
  | silent {output : ProcessOutput} (h : output.success = true) (hsilent : output.stderr = []) :
    Warned request [.ok output] []
  | said {output : ProcessOutput} (h : output.success = true) (hsaid : output.stderr ≠ []) :
    Warned request [.ok output] [⟨request.source, Utf8.toStringLossy output.stderr⟩]

/-- The warning that an answer gives rise to. -/
def Request.warning? (request : Request) : Except IoError ProcessOutput → Option Warning
  | .error _ => none
  | .ok output =>
    match Compiler.judge output with
    | .error _ => none
    | .ok remarks => remarks.warning? request.source

theorem isEmpty_toStringLossy (bytes : Bytes) :
    (Utf8.toStringLossy bytes).isEmpty = bytes.isEmpty := by
  rw [Bool.eq_iff_iff, String.isEmpty_iff, List.isEmpty_iff]
  constructor
  · intro h
    obtain ⟨-, heq⟩ := Utf8.encode_decodeLossy bytes
    have hnone : Utf8.decodeLossy bytes = [] := by simpa [Utf8.toStringLossy] using h
    rw [hnone] at heq
    exact (heq (List.forall_mem_nil _)).symm
  · rintro rfl
    rfl

/-- Of one answer comes what it gives rise to. -/
theorem warned_of_answer (request : Request) (answer : Except IoError ProcessOutput) :
    Warned request [answer] (request.warning? answer).toList := by
  cases answer with
  | error e => exact .notStarted e
  | ok output =>
    rw [Request.warning?]
    cases hexit : output.success with
    | false =>
      rw [judge_of_failure hexit]
      exact .failed hexit
    | true =>
      rw [judge_of_success hexit]
      simp only [Compiler.Remarks.warning?, isEmpty_toStringLossy, List.isEmpty_iff]
      split_ifs with hstderr
      · exact .silent hexit hstderr
      · exact .said hexit hstderr

theorem warned_of_length_le (request : Request) {answers : List (Except IoError ProcessOutput)}
    (h : answers.length ≤ 1) : Warned request answers (answers.filterMap request.warning?) := by
  match answers, h with
  | [], _ => exact .notRun
  | [answer], _ =>
    have hone := warned_of_answer request answer
    cases hanswer : request.warning? answer <;> simpa [hanswer] using hone

/-! ### The compiler is run once at most -/

section Once

open Exchange

variable {p : Pipeline} {request : Request} {xs : List Exchange}

@[simp] theorem compiled?_creation (answer : Except IoError Path) :
    (creation p answer).compiled? = none := rfl

@[simp] theorem compiled?_lookup (tool : Path) (answer : Option Path) :
    (lookup tool answer).compiled? = none := rfl

@[simp] theorem compiled?_compilation (w base compiler plugin : Path)
    (answer : Except IoError ProcessOutput) :
    (compilation p request w base compiler plugin answer).compiled? = some answer := rfl

@[simp] theorem compiled?_reading (w : Path) (modulePath : String) (answer : Except IoError Bytes) :
    (reading request w modulePath answer).compiled? = none := rfl

@[simp] theorem compiled?_removal (w : Path) (answer : Except IoError Unit) :
    (removal w answer).compiled? = none := rfl

theorem Middle.compiled_le {w : Path} {outcome : Outcome Bytes}
    (h : Middle p request w xs outcome) : (xs.filterMap Exchange.compiled?).length ≤ 1 := by
  cases h <;> simp [List.filterMap_cons]

theorem Transcript.compiled_le {result : Outcome Bytes} (h : Transcript p request xs result) :
    (xs.filterMap Exchange.compiled?).length ≤ 1 := by
  cases h with
  | notCreated e => simp [List.filterMap_cons]
  | created h answer => simpa [List.filterMap_cons] using h.compiled_le

theorem Run.At.compiled_le {run : Run} (h : Run.At p request xs run) :
    (xs.filterMap Exchange.compiled?).length ≤ 1 := by
  cases h with
  | release h hok => simpa [List.filterMap_cons] using h.compiled_le
  | ended h => exact h.compiled_le
  | create | findCompiler | findPlugin | compile | read => simp [List.filterMap_cons]

theorem Run.At.request_eq {run : Run} (h : Run.At p request xs run) : run.request = request := by
  cases h <;> rfl

end Once

/-! ### What a step tells the sink -/

/-- The warnings among notices, in order. -/
def warningsOf (notices : List Notice) : List Warning := notices.filterMap Notice.warning?

@[simp] theorem warningsOf_append (notices later : List Notice) :
    warningsOf (notices ++ later) = warningsOf notices ++ warningsOf later := List.filterMap_append

namespace Run

/-- The step gives rise to no warning. -/
def Silent (step : Step) : Prop := warningsOf step.2 = []

theorem composed_silent : Composed fun _ => Silent where
  report _ h := h
  goTo _ _ := rfl
  giveUp _ _ _ := rfl
  fail run e := by
    unfold Silent fail
    dsimp only
    split_ifs <;> rfl
  reach hrefuse hnext := by
    unfold reach
    split_ifs
    · exact hnext _
    · exact hrefuse _

/-- A step that hears of the compiler's end tells the warning that this gives rise to. -/
theorem warningsOf_compiled (run : Run) (w base : Path) (answer : Except IoError ProcessOutput) :
    warningsOf (run.compiled w base answer).2 = (run.request.warning? answer).toList := by
  rcases composed_silent.compiled run w base answer with
    ⟨e, heq, hfailed⟩ | ⟨output, remarks, step, rfl, hjudge, heq, hsilent⟩
  · have hnone : run.request.warning? answer = none := by
      cases answer with
      | error _ => rfl
      | ok output => rw [Request.warning?, hfailed output rfl]
    rw [heq, hnone]
    rfl
  · rw [heq, Request.warning?, hjudge, warn, warningsOf_append, hsilent, List.append_nil]
    dsimp only
    cases remarks.warning? run.request.source <;> rfl

variable {p : Pipeline} {run : Run} {request : Request}

/-- Every step tells the warning that its answer gives rise to, if it comes from the compiler. -/
theorem warningsOf_step {call : Call} {resume : call.Answer → Step}
    (hnext : run.next p = .asks call resume) (answer : call.Answer) :
    warningsOf (resume answer).2 =
      ((Exchange.compiled? ⟨call, answer⟩).bind run.request.warning?).toList := by
  unfold next at hnext
  split at hnext <;> cases hnext
  · exact composed_silent.created p run answer
  · exact composed_silent.compilerSought p run _ _ answer
  · exact composed_silent.pluginSought p run _ _ _ answer
  · exact warningsOf_compiled run _ _ answer
  · exact composed_silent.read p run _ _ answer
  · exact composed_silent.released run _ _ answer

/-- The warnings that the answers to the request's run gave rise to. -/
def toldOf (request : Request) (ds : List Deed) : List Warning :=
  (compilations ds).filterMap request.warning?

@[simp] theorem toldOf_append (request : Request) (ds ds' : List Deed) :
    toldOf request (ds ++ ds') = toldOf request ds ++ toldOf request ds' := by
  rw [toldOf, compilations_append, List.filterMap_append]
  rfl

@[simp] theorem toldOf_asked (request : Request) (call : Call) :
    toldOf request [.asked call] = [] := rfl

/-- A run has told the warnings that the answers so far gave rise to. -/
theorem Reaches.warningsOf_eq {xs : List Exchange} {notices : List Notice}
    (h : Reaches p (.initial request) xs notices run) :
    warningsOf notices = toldOf request (ledgerOf xs) := by
  rw [toldOf, compilations_ledgerOf]
  induction h with
  | refl => rfl
  | step h hnext answer ih =>
    rw [warningsOf_append, ih, warningsOf_step hnext, h.at.request_eq, List.filterMap_append,
      List.filterMap_append]
    cases hcompiled : Exchange.compiled? ⟨_, answer⟩ with
    | none => simp [hcompiled]
    | some output => cases houtput : request.warning? output <;> simp [hcompiled, houtput]

section Told

variable {σ : Type} {host : Host σ} {p : Pipeline} {request : Request} {run : Run} {issued : Bool}
  {notices : List Notice} {ds : List Deed}

theorem Open.warningsOf_eq (h : Open p (.initial request) run issued notices ds) :
    warningsOf notices = toldOf request ds := by
  obtain ⟨xs, hreach, rfl⟩ := h
  rw [hreach.warningsOf_eq]
  cases issued with
  | false => simp
  | true => cases run.next p <;> simp

theorem Left.warningsOf_eq {progress : Progress}
    (h : Left p (.initial request) notices ds progress) :
    warningsOf notices = toldOf request ds := by
  cases progress with
  | finished result =>
    obtain ⟨xs, run, hreach, -, rfl⟩ := h
    exact hreach.warningsOf_eq
  | suspended run | crashed run =>
    obtain ⟨xs, call, resume, hreach, -, rfl⟩ := h
    simpa using hreach.warningsOf_eq

theorem warningsOf_abandon (host : Host σ) (run : Run) (s : σ) :
    warningsOf (run.abandon host s).1 = [] := by
  unfold abandon
  cases run.stage.held <;> rfl

end Told

end Run

end StubLoader
