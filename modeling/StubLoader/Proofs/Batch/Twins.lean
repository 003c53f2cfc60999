import StubLoader.Proofs.Batch.Sandbox
import StubLoader.Proofs.Run.Transcript
/-!
# Twins

Two runs for one request, each in a directory of its own on a sandboxed host, go the same way: they
stand at the same place after equally many answers, and their directories hold the same. So they
have the same result, but for the names of the directories, whatever else went on at the host
between the calls of either.
-/

namespace StubLoader

namespace Run

/-! ### Twins and their steps -/

/-- Two runs wait for the same, each in its directory, and both directories hold `contents`. -/
inductive TwinStages (w w' : Path) : Contents → Stage → Stage → Prop where
  | findCompiler (base : Path) :
    TwinStages w w' .empty (.findCompiler w base) (.findCompiler w' base)
  | findPlugin (base compiler : Path) :
    TwinStages w w' .empty (.findPlugin w base compiler) (.findPlugin w' base compiler)
  | compile (base compiler plugin : Path) :
    TwinStages w w' .empty (.compile w base compiler plugin) (.compile w' base compiler plugin)
  | read {contents : Contents} (modulePath : String) :
    TwinStages w w' contents (.read w modulePath) (.read w' modulePath)
  | release {contents : Contents} {outcome outcome' : Outcome Bytes}
    (h : SameOutcome w w' outcome outcome') :
    TwinStages w w' contents (.release w outcome) (.release w' outcome')
  | ended {contents : Contents} {result result' : Outcome Bytes}
    (h : SameOutcome w w' result result') :
    TwinStages w w' contents (.ended result) (.ended result')

/-- Two runs for the same request stand at the same place, each in its directory. -/
structure Twin (w w' : Path) (contents : Contents) (a b : Run) : Prop where
  request : a.request = b.request
  state : a.state = b.state
  stage : TwinStages w w' contents a.stage b.stage

section Steps

variable {w w' : Path} {contents : Contents} {a b : Run} (hrequest : a.request = b.request)
  (hstate : a.state = b.state)
include hrequest hstate

theorem twin_goTo {stage stage' : Stage} (h : TwinStages w w' contents stage stage') :
    (a.goTo stage).1.Twin w w' contents (b.goTo stage').1 := ⟨hrequest, hstate, h⟩

theorem twin_giveUp {e e' : Failure} (h : SameOutcome w w' (.error e) (.error e')) :
    (a.giveUp w e).1.Twin w w' contents (b.giveUp w' e').1 :=
  twin_goTo hrequest hstate (.release h)

theorem twin_fail {e e' : Failure} (h : SameOutcome w w' (.error e) (.error e')) :
    (a.fail e).1.Twin w w' contents (b.fail e').1 := by
  unfold fail
  rw [hstate]
  dsimp only
  split_ifs
  · exact ⟨hrequest, rfl, .ended h⟩
  · exact ⟨hrequest, rfl, .ended h⟩

theorem twin_reach (target : RunState) {refuse refuse' : Failure → Step} {next next' : Run → Step}
    (hrefuse : ∀ e, (refuse e).1.Twin w w' contents (refuse' e).1)
    (hnext : ∀ {a b : Run}, a.request = b.request → a.state = b.state →
      (next a).1.Twin w w' contents (next' b).1) :
    (a.reach target refuse next).1.Twin w w' contents (b.reach target refuse' next').1 := by
  unfold reach
  rw [hstate]
  split_ifs
  · exact hnext hrequest rfl
  · exact hrefuse _

end Steps

section Answers

variable {p : Pipeline} {request : Request} {w w' : Path}

theorem twin_created : ((Run.initial request).created p (.ok w)).1.Twin w w' .empty
    ((Run.initial request).created p (.ok w')).1 := by
  change (reach _ _ _ _).1.Twin w w' .empty (reach _ _ _ _).1
  refine twin_reach rfl rfl _ (fun e => twin_giveUp rfl rfl (.same _))
    fun {a b} hrequest hstate => ?_
  rw [hrequest]
  cases b.request.options.resolvedBasePath p.cwd with
  | error e => exact twin_giveUp hrequest hstate (.same _)
  | ok base => exact twin_goTo hrequest hstate (.findCompiler base)

variable {contents : Contents} {a b : Run} (hrequest : a.request = b.request)
  (hstate : a.state = b.state)
include hrequest hstate

theorem twin_compilerSought (base : Path) (answer : Option Path) :
    (a.compilerSought p w base answer).1.Twin w w' .empty
      (b.compilerSought p w' base answer).1 := by
  cases answer with
  | none => exact twin_giveUp hrequest hstate (.same _)
  | some compiler => exact twin_goTo hrequest hstate (.findPlugin base compiler)

theorem twin_pluginSought (base compiler : Path) (answer : Option Path) :
    (a.pluginSought p w base compiler answer).1.Twin w w' .empty
      (b.pluginSought p w' base compiler answer).1 := by
  cases answer with
  | none => exact twin_giveUp hrequest hstate (.same _)
  | some plugin =>
    exact twin_reach hrequest hstate _ (fun e => twin_giveUp hrequest hstate (.same _))
      fun hrequest hstate => twin_goTo hrequest hstate (.compile base compiler plugin)

theorem twin_compiled (base : Path) {answer answer' : Except IoError ProcessOutput}
    (h : SameAnswer w w' answer answer') :
    (a.compiled w base answer).1.Twin w w' contents (b.compiled w' base answer').1 := by
  cases h with
  | error h => exact twin_giveUp hrequest hstate (.io h)
  | ok output =>
    unfold compiled
    dsimp only
    cases Compiler.judge output with
    | error e => exact twin_giveUp hrequest hstate (.same _)
    | ok remarks =>
      refine twin_reach hrequest hstate _ (fun e => twin_giveUp hrequest hstate (.same _))
        fun {a b} hrequest hstate => ?_
      rw [hrequest]
      cases Output.modulePath base b.request.source.normalize with
      | error fault => exact twin_giveUp hrequest hstate (.same _)
      | ok modulePath =>
        exact twin_reach hrequest hstate _ (fun e => twin_giveUp hrequest hstate (.same _))
          fun hrequest hstate => twin_goTo hrequest hstate (.read modulePath)

theorem twin_read (modulePath : String) {answer answer' : Except IoError Bytes}
    (h : SameAnswer w w' answer answer') :
    (a.read p w modulePath answer).1.Twin w w' contents
      (b.read p w' modulePath answer').1 := by
  cases h with
  | error h => exact twin_giveUp hrequest hstate (.io h)
  | ok bytes =>
    unfold Run.read
    dsimp only
    rw [hrequest]
    cases Artifact.finish p.settings.entryPoint b.request modulePath bytes with
    | error e => exact twin_giveUp hrequest hstate (.same _)
    | ok artifact =>
      exact twin_reach hrequest hstate _ (fun e => twin_giveUp hrequest hstate (.same _))
        fun hrequest hstate => twin_goTo hrequest hstate (.release (.same _))

theorem twin_released {outcome outcome' : Outcome Bytes}
    (houtcome : SameOutcome w w' outcome outcome') {answer answer' : Except IoError Unit}
    (h : SameAnswer w w' answer answer') :
    (a.released w outcome answer).1.Twin w w' contents (b.released w' outcome' answer').1 := by
  cases h with
  | error h =>
    cases houtcome with
    | io houtcome => exact twin_fail hrequest hstate (.io houtcome)
    | same outcome => cases outcome with
      | error e => exact twin_fail hrequest hstate (.same _)
      | ok artifact => exact twin_fail hrequest hstate (.io h)
  | ok _ =>
    cases houtcome with
    | io houtcome => exact twin_fail hrequest hstate (.io houtcome)
    | same outcome => cases outcome with
      | error e => exact twin_fail hrequest hstate (.same _)
      | ok artifact =>
        exact twin_reach hrequest hstate _ (fun e => twin_fail hrequest hstate (.same _))
          fun hrequest hstate => twin_goTo hrequest hstate (.ended (.same _))

end Answers

/-! ### One answer for each -/

section Host

variable {σ : Type} {host : Host σ} {p : Pipeline} {disk : Disk σ} {w w' : Path}
  {contents : Contents} {a b : Run} {call call' : Call} {resume : call.Answer → Step}
  {resume' : call'.Answer → Step} {s s' t t' : σ} {answer : call.Answer}
  {answer' : call'.Answer}

/-- A call of a run and its answer, as the host sees them. -/
structure Turn (host : Host σ) (disk : Disk σ) (w : Path) (contents : Contents) {call : Call}
    (s : σ) (answer : call.Answer) (t : σ) : Prop where
  valid : disk.valid s
  holds : disk.Holds s w
  below : disk.below s w = contents
  answered : host.Answered call s answer t

/-- The search for a tool leaves a directory as it is. -/
theorem Turn.below_found (hhost : host.Sandboxed p disk) {tool : Path} {answer : Option Path}
    (h : @Turn _ host disk w contents (.findExecutable tool) s answer t) :
    disk.below t w = contents :=
  ((hhost.finds h.valid h.answered).below w).trans h.below

/-- Twins get answers that are the same but for a name, and are twins again. -/
theorem twin_step (hhost : host.Sandboxed p disk) (h : a.Twin w w' contents b)
    (ha : a.next p = .asks call resume) (hb : b.next p = .asks call' resume')
    (hs : Turn host disk w contents s answer t) (hs' : Turn host disk w' contents s' answer' t') :
    disk.below t w = disk.below t' w' ∧
      (resume answer).1.Twin w w' (disk.below t w) (resume' answer').1 := by
  obtain ⟨request, state, stage⟩ := a
  obtain ⟨request', state', stage'⟩ := b
  obtain ⟨hrequest, hstate, hstage⟩ := h
  obtain rfl : request = request' := hrequest
  have hbelow := hs.below.trans hs'.below.symm
  cases hstage with
  | findCompiler base =>
    cases ha
    cases hb
    obtain rfl := hhost.sameTool hs.valid hs'.valid hs.answered hs'.answered
    rw [hs.below_found hhost, hs'.below_found hhost]
    exact ⟨rfl, twin_compilerSought (by rfl) hstate base answer⟩
  | findPlugin base compiler =>
    cases ha
    cases hb
    obtain rfl := hhost.sameTool hs.valid hs'.valid hs.answered hs'.answered
    rw [hs.below_found hhost, hs'.below_found hhost]
    exact ⟨rfl, twin_pluginSought (by rfl) hstate base compiler answer⟩
  | compile base compiler plugin =>
    cases ha
    cases hb
    obtain ⟨hsame, hwritten⟩ := hhost.sameOutput hs.valid hs'.valid hs.holds hs'.holds hs.below
      hs'.below hs.answered hs'.answered
    exact ⟨hwritten, twin_compiled (by rfl) hstate base hsame⟩
  | read modulePath =>
    cases ha
    cases hb
    have hsame := hhost.sameFile hs.valid hs'.valid hs.holds hs'.holds hbelow hs.answered
      hs'.answered
    rw [(hhost.loads hs.valid hs.holds hs.answered).below,
      (hhost.loads hs'.valid hs'.holds hs'.answered).below]
    exact ⟨hbelow, twin_read (by rfl) hstate modulePath hsame⟩
  | release houtcome =>
    cases ha
    cases hb
    have hsame := hhost.sameRemoval hs.valid hs'.valid hs.holds hs'.holds hbelow hs.answered
      hs'.answered
    rw [(hhost.removes hs.valid hs.holds hs.answered).empty,
      (hhost.removes hs'.valid hs'.holds hs'.answered).empty]
    exact ⟨rfl, twin_released (by rfl) hstate houtcome hsame⟩
  | ended _ => cases ha

end Host

/-! ### Whole lives -/

section Lives

variable {σ : Type} (host : Host σ) (p : Pipeline) (disk : Disk σ) (request : Request)

/-- A run for the request in the directory `w`, and what that holds after the last answer. Between
two answers the host may do other things. -/
inductive Lived : Path → Contents → List Exchange → Run → Prop where
  | created {s t : σ} {w : Path} (hs : disk.valid s) (h : host.Answered p.creating s (.ok w) t) :
    Lived w .empty [⟨p.creating, .ok w⟩] ((Run.initial request).created p (.ok w)).1
  | step {w : Path} {contents : Contents} {xs : List Exchange} {run : Run} {call : Call}
    {resume : call.Answer → Step} {s t : σ} {answer : call.Answer}
    (h : Lived w contents xs run) (hnext : run.next p = .asks call resume)
    (hturn : Turn host disk w contents s answer t) :
    Lived w (disk.below t w) (xs ++ [⟨call, answer⟩]) (resume answer).1

variable {host p disk request} {w w' : Path} {contents contents' : Contents}
  {xs xs' : List Exchange} {a b : Run}

theorem Lived.reaches (h : Lived host p disk request w contents xs a) :
    ∃ notices, Reaches p (.initial request) xs notices a := by
  induction h with
  | created _ _ => exact ⟨_, .step .refl rfl _⟩
  | step _ hnext _ ih =>
    obtain ⟨notices, hreach⟩ := ih
    exact ⟨_, hreach.step hnext _⟩

theorem Lived.head (h : Lived host p disk request w contents xs a) :
    ∃ later, xs = ⟨p.creating, .ok w⟩ :: later := by
  induction h with
  | created _ _ => exact ⟨[], rfl⟩
  | step _ _ _ ih =>
    obtain ⟨later, rfl⟩ := ih
    exact ⟨_, List.cons_append⟩

/-- After equally many answers two runs for one request are twins. -/
theorem Lived.twin (hhost : host.Sandboxed p disk) (h : Lived host p disk request w contents xs a) :
    ∀ {contents' : Contents} {xs' : List Exchange} {b : Run},
      Lived host p disk request w' contents' xs' b → xs.length = xs'.length →
        contents = contents' ∧ a.Twin w w' contents b := by
  induction h with
  | created _ _ =>
    intro contents' xs' b h' hlength
    cases h' with
    | created _ _ => exact ⟨rfl, twin_created⟩
    | step h' _ _ =>
      obtain ⟨later, rfl⟩ := h'.head
      simp at hlength
  | step h hnext hturn ih =>
    intro contents' xs' b h' hlength
    cases h' with
    | created _ _ =>
      obtain ⟨later, rfl⟩ := h.head
      simp at hlength
    | step h' hnext' hturn' =>
      rw [List.length_append, List.length_append] at hlength
      obtain ⟨rfl, htwin⟩ := ih h' (Nat.add_right_cancel hlength)
      exact twin_step hhost htwin hnext hnext' hturn hturn'

/-- Before its last answer a run had a call to make. -/
theorem Lived.before (h : Lived host p disk request w contents xs a) :
    ∀ n, 0 < n → n < xs.length → ∃ contents' xs' b call resume,
      Lived host p disk request w contents' xs' b ∧ xs'.length = n ∧
        b.next p = .asks call resume := by
  induction h with
  | created _ _ =>
    intro n hpos hn
    change n < 1 at hn
    omega
  | @step w contents xs run call resume _ _ _ h hnext _ ih =>
    intro n hpos hn
    rw [List.length_append, List.length_singleton] at hn
    by_cases hlast : n = xs.length
    · exact ⟨contents, xs, run, call, resume, h, hlast.symm, hnext⟩
    · exact ih n hpos (by omega)

/-- Two runs for one request have the same result, but for the names of their directories. -/
theorem Lived.sameOutcome (hhost : host.Sandboxed p disk) {result result' : Outcome Bytes}
    (h : Lived host p disk request w contents xs a) (ha : a.stage = .ended result)
    (h' : Lived host p disk request w' contents' xs' b) (hb : b.stage = .ended result') :
    SameOutcome w w' result result' := by
  have hpos : ∀ {v c ys run}, Lived host p disk request v c ys run → 0 < ys.length := by
    intro v c ys run h
    obtain ⟨later, rfl⟩ := h.head
    exact Nat.succ_pos _
  -- a run that ended is no twin of one that has a call to make
  have hnot : ∀ {v v' c c' ys ys' run run' r}, Lived host p disk request v c ys run →
      run.stage = .ended r → Lived host p disk request v' c' ys' run' →
        ¬ys.length < ys'.length := by
    intro v v' c c' ys ys' run run' r h hended h' hlt
    obtain ⟨c'', ys'', run'', call, resume, h'', hlength, hnext⟩ := h'.before _ (hpos h) hlt
    obtain ⟨-, -, -, hstage⟩ := h.twin hhost h'' hlength.symm
    rw [hended] at hstage
    cases hstage' : run''.stage with
    | ended r' => rw [next, hstage'] at hnext; cases hnext
    | _ => rw [hstage'] at hstage; cases hstage
  obtain ⟨-, -, -, hstage⟩ := h.twin hhost h' (by
    have hle := hnot h ha h'
    have hge := hnot h' hb h
    omega)
  rw [ha, hb] at hstage
  cases hstage with
  | ended h => exact h

end Lives

end Run

end StubLoader
