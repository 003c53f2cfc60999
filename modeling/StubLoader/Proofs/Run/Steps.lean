import Mathlib.Tactic.SplitIfs
import StubLoader.Run
/-!
# Steps

Whatever a run does with an answer is put together in a few ways: events are reported before a step,
a state is reached, and in the end the run goes on to a stage, gives its directory back or fails.
What these keep holds of every step. Only the step after the compiler's end does more: it may warn.

Where a step leads depends on the stage alone. Each stage has a way on, and one by which the run
gives its directory back; no way leads to a stage that was passed already.
-/

namespace StubLoader

namespace Run

/-- What the ways in which steps are put together keep; a change of state is reported only where a
state is reached or the run fails. -/
structure Composed (P : Run → Step → Prop) : Prop where
  report : ∀ {run : Run} {step : Step} {e : Event}, (∀ old new, e ≠ .stateChanged old new) →
    P run step → P run (report e step)
  goTo : ∀ (run : Run) (stage : Stage), P run (run.goTo stage)
  giveUp : ∀ (run : Run) (w : Path) (e : Failure), P run (run.giveUp w e)
  fail : ∀ (run : Run) (e : Failure), P run (run.fail e)
  reach : ∀ {run : Run} {target : RunState} {refuse : Failure → Step} {next : Run → Step},
    (∀ e, P run (refuse e)) → (∀ run, P run (next run)) → P run (run.reach target refuse next)

namespace Composed

variable {P : Run → Step → Prop} (h : Composed P) (p : Pipeline) (run : Run)
include h

theorem created (answer : Except IoError Path) : P run (run.created p answer) := by
  cases answer with
  | error e => exact h.fail run _
  | ok w =>
    refine h.report (by simp) (h.reach (h.giveUp run w) fun run => ?_)
    split
    · exact h.giveUp run w _
    · exact h.goTo run _

theorem compilerSought (w base : Path) (answer : Option Path) :
    P run (run.compilerSought p w base answer) := by
  cases answer with
  | none => exact h.giveUp run w _
  | some compiler => exact h.report (by simp) (h.goTo run _)

theorem pluginSought (w base compiler : Path) (answer : Option Path) :
    P run (run.pluginSought p w base compiler answer) := by
  cases answer with
  | none => exact h.giveUp run w _
  | some plugin =>
    refine h.report (by simp) (h.reach (h.giveUp run w) fun run => ?_)
    exact h.report (by simp) (h.goTo run _)

/-- A compiler that did not start or was not successful ends the run; else the step is that of a
warning, if there is one, and then one like the others. -/
theorem compiled (w base : Path) (answer : Except IoError ProcessOutput) :
    (∃ e, run.compiled w base answer = run.giveUp w e ∧
      ∀ output, answer = .ok output → Compiler.judge output = .error e) ∨
    ∃ output remarks step, answer = .ok output ∧ Compiler.judge output = .ok remarks ∧
      run.compiled w base answer = run.warn remarks step ∧ P run step := by
  cases answer with
  | error e => exact .inl ⟨.io e, rfl, fun _ heq => nomatch heq⟩
  | ok output =>
    unfold Run.compiled
    dsimp only
    cases hjudge : Compiler.judge output with
    | error e =>
      refine .inl ⟨e, rfl, fun output' heq => ?_⟩
      cases heq
      exact hjudge
    | ok remarks =>
      refine .inr ⟨output, remarks, _, rfl, hjudge, rfl, ?_⟩
      refine h.reach (h.giveUp run w) fun run => ?_
      split
      · exact h.giveUp run w _
      · exact h.reach (h.giveUp run w) fun run => h.goTo run _

theorem read (w : Path) (modulePath : String) (answer : Except IoError Bytes) :
    P run (run.read p w modulePath answer) := by
  cases answer with
  | error e => exact h.giveUp run w _
  | ok bytes =>
    unfold Run.read
    dsimp only
    split
    · exact h.giveUp run w _
    · exact h.reach (h.giveUp run w) fun run => h.goTo run _

theorem released (w : Path) (outcome : Outcome Bytes) (answer : Except IoError Unit) :
    P run (run.released w outcome answer) := by
  cases answer with
  | error removal =>
    cases outcome with
    | error e => exact h.report (by simp) (h.fail run e)
    | ok artifact => exact h.fail run _
  | ok _ =>
    refine h.report (by simp) ?_
    cases outcome with
    | error e => exact h.fail run e
    | ok artifact =>
      refine h.reach (h.fail run) fun run => ?_
      exact h.report (by simp) (h.goTo run _)

end Composed

theorem composed_request : Composed fun run step => step.1.request = run.request where
  report _ h := h
  goTo _ _ := rfl
  giveUp _ _ _ := rfl
  fail run e := by
    unfold fail
    dsimp only
    split_ifs <;> rfl
  reach hrefuse hnext := by
    unfold reach
    split_ifs
    · exact hnext _
    · exact hrefuse _

end Run

/-! ### Where a step leads -/

/-- The ways from a stage to that after the next answer. -/
inductive Stage.Way : Stage → Stage → Prop where
  | notCreated (e : Failure) : Way .create (.ended (.error e))
  | created (w base : Path) : Way .create (.findCompiler w base)
  /-- A directory was made, but the step could not be finished. -/
  | misplaced (w : Path) (e : Failure) : Way .create (.release w (.error e))
  | compilerFound (w base compiler : Path) :
    Way (.findCompiler w base) (.findPlugin w base compiler)
  | pluginFound (w base compiler plugin : Path) :
    Way (.findPlugin w base compiler) (.compile w base compiler plugin)
  | compiled (w base compiler plugin : Path) (modulePath : String) :
    Way (.compile w base compiler plugin) (.read w modulePath)
  | read (w : Path) (modulePath : String) (artifact : Bytes) :
    Way (.read w modulePath) (.release w (.ok artifact))
  | givenUp {stage : Stage} {w : Path} (hheld : stage.held = some w) (hcalls : 1 < stage.remaining)
    (e : Failure) : Way stage (.release w (.error e))
  | released (w : Path) (outcome result : Outcome Bytes) : Way (.release w outcome) (.ended result)

namespace Stage.Way

variable {a b : Stage} {w : Path}

theorem remaining_lt (h : a.Way b) : b.remaining < a.remaining := by
  cases h with
  | givenUp _ hcalls _ => exact hcalls
  | _ => simp [remaining]

/-- Until it is given back, a directory is kept. -/
theorem held (h : a.Way b) (hheld : a.held = some w) (hcalls : 1 < a.remaining) :
    b.held = some w := by
  cases h with
  | givenUp hheld' _ _ => exact hheld'.symm.trans hheld
  | compilerFound | pluginFound | compiled | read => exact hheld
  | notCreated | created | misplaced => cases hheld
  | released => exact absurd hcalls (Nat.lt_irrefl 1)

/-- Once the file was read, or was not, only the directory is still to be given back. -/
theorem of_read {modulePath : String} (h : (Stage.read w modulePath).Way b) :
    ∃ outcome, b = .release w outcome := by
  cases h with
  | read _ _ artifact => exact ⟨_, rfl⟩
  | givenUp hheld _ e =>
    cases hheld
    exact ⟨_, rfl⟩

/-- Once the directory was given back, or was not, a run is over. -/
theorem of_release {outcome : Outcome Bytes} (h : (Stage.release w outcome).Way b) :
    ∃ result, b = .ended result := by
  cases h with
  | released _ _ result => exact ⟨result, rfl⟩
  | givenUp _ hcalls _ => exact absurd hcalls (Nat.lt_irrefl 1)

end Stage.Way

namespace Run

/-- A step leads from the stage by one of its ways. -/
def Along (stage : Stage) (step : Step) : Prop := stage.Way step.1.stage

section Along

variable {stage : Stage}

theorem along_reach {run : Run} {target : RunState} {refuse : Failure → Step} {next : Run → Step}
    (hrefuse : ∀ e, Along stage (refuse e)) (hnext : ∀ run, Along stage (next run)) :
    Along stage (run.reach target refuse next) := by
  unfold reach
  split_ifs
  · exact hnext _
  · exact hrefuse _

theorem along_fail {run : Run} {e : Failure} (h : stage.Way (.ended (.error e))) :
    Along stage (run.fail e) := by
  unfold Along fail
  dsimp only
  split_ifs <;> exact h

variable (p : Pipeline) (run : Run) (w base : Path)

theorem along_created (answer : Except IoError Path) : Along .create (run.created p answer) := by
  cases answer with
  | error e => exact along_fail (.notCreated _)
  | ok w =>
    refine along_reach (.misplaced w) fun run => ?_
    split
    · exact .misplaced w _
    · exact .created w _

theorem along_compilerSought (answer : Option Path) :
    Along (.findCompiler w base) (run.compilerSought p w base answer) := by
  cases answer with
  | none => exact .givenUp rfl (by simp [Stage.remaining]) _
  | some compiler => exact .compilerFound w base compiler

theorem along_pluginSought (compiler : Path) (answer : Option Path) :
    Along (.findPlugin w base compiler) (run.pluginSought p w base compiler answer) := by
  have hgiven (run : Run) (e : Failure) : Along (.findPlugin w base compiler) (run.giveUp w e) :=
    .givenUp rfl (by simp [Stage.remaining]) e
  cases answer with
  | none => exact hgiven run _
  | some plugin => exact along_reach (hgiven run) fun _ => .pluginFound w base compiler plugin

theorem along_compiled (compiler plugin : Path) (answer : Except IoError ProcessOutput) :
    Along (.compile w base compiler plugin) (run.compiled w base answer) := by
  have hgiven (run : Run) (e : Failure) :
      Along (.compile w base compiler plugin) (run.giveUp w e) :=
    .givenUp rfl (by simp [Stage.remaining]) e
  cases answer with
  | error e => exact hgiven run _
  | ok output =>
    unfold compiled
    dsimp only
    split
    · exact hgiven run _
    · refine along_reach (hgiven run) fun run => ?_
      split
      · exact hgiven run _
      · exact along_reach (hgiven run) fun _ => .compiled w base compiler plugin _

theorem along_read (modulePath : String) (answer : Except IoError Bytes) :
    Along (.read w modulePath) (run.read p w modulePath answer) := by
  have hgiven (run : Run) (e : Failure) : Along (.read w modulePath) (run.giveUp w e) :=
    .givenUp rfl (by simp [Stage.remaining]) e
  cases answer with
  | error e => exact hgiven run _
  | ok bytes =>
    unfold Run.read
    dsimp only
    split
    · exact hgiven run _
    · exact along_reach (hgiven run) fun _ => .read w modulePath _

theorem along_released (outcome : Outcome Bytes) (answer : Except IoError Unit) :
    Along (.release w outcome) (run.released w outcome answer) := by
  unfold released
  cases answer with
  | error removal =>
    cases outcome with
    | error e => exact along_fail (.released w _ _)
    | ok artifact => exact along_fail (.released w _ _)
  | ok _ =>
    cases outcome with
    | error e => exact along_fail (.released w _ _)
    | ok artifact =>
      exact along_reach (fun _ => along_fail (.released w _ _)) fun _ => .released w _ _

end Along

/-- Every answer takes a run along a way of its stage. -/
theorem along_next {p : Pipeline} {run : Run} {call : Call} {resume : call.Answer → Step}
    (h : run.next p = .asks call resume) (answer : call.Answer) :
    Along run.stage (resume answer) := by
  unfold next at h
  cases hstage : run.stage with
  | create => rw [hstage] at h; cases h; exact along_created p run answer
  | findCompiler w base =>
    rw [hstage] at h; cases h; exact along_compilerSought p run w base answer
  | findPlugin w base compiler =>
    rw [hstage] at h; cases h; exact along_pluginSought p run w base compiler answer
  | compile w base compiler plugin =>
    rw [hstage] at h; cases h; exact along_compiled run w base compiler plugin answer
  | read w modulePath => rw [hstage] at h; cases h; exact along_read p run w modulePath answer
  | release w outcome => rw [hstage] at h; cases h; exact along_released run w outcome answer
  | ended result => rw [hstage] at h; cases h

end Run

end StubLoader
