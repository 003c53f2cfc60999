import StubLoader.Proofs.Run.Logs
import StubLoader.Proofs.Run.Transcript
/-!
# Recorded states

A run records every change of its state, and what it records is true. The changes lead from the
first state to a last one, by the changes that are allowed; they end in `completed` exactly if the
run delivers, and otherwise in `failed`, from the state in which the run was when the step after it
failed:

    idle                 the directory was not made
    workspaceAcquired    the base path has no place, or a tool was not found
    toolsResolved        the compiler did not run, or did not succeed
    invoked              the generated file has no place
    resolved             the file was not read, or no artifact made of it
    postProcessed        the directory was not removed

The last state is recorded after the last answer, which is about the removal of the directory unless
that was never made. As the changes that a run asks for are always allowed, no run fails over them.
-/

namespace StubLoader

open Exchange

/-! ### Where a run fails -/

section Failing

variable (p : Pipeline) (request : Request)

/-- What went wrong in each state between the making of the directory `w` and its removal: with the
last of the exchanges, or with what was to be made of it. -/
inductive Stops (w : Path) : RunState → List Exchange → Failure → Prop where
  | base {e : Failure} (hbase : request.options.resolvedBasePath p.cwd = .error e) :
    Stops w .workspaceAcquired [] e
  | tool {tool : Path} {xs : List Exchange}
    (htool : tool = p.settings.compiler ∨ tool = p.settings.plugin)
    (hlast : xs.getLast? = some (lookup tool none)) :
    Stops w .workspaceAcquired xs (.toolNotFound tool.display)
  | start {base compiler plugin : Path} {e : IoError} {xs : List Exchange}
    (hlast : xs.getLast? = some (compilation p request w base compiler plugin (.error e))) :
    Stops w .toolsResolved xs (.io e)
  | exit {base compiler plugin : Path} {output : ProcessOutput} {xs : List Exchange}
    (hlast : xs.getLast? = some (compilation p request w base compiler plugin (.ok output)))
    (hexit : output.success = false) :
    Stops w .toolsResolved xs (.compile output.status (Utf8.toStringLossy output.stderr))
  | place {base compiler plugin : Path} {output : ProcessOutput} {fault : OptionsFault}
    {xs : List Exchange}
    (hlast : xs.getLast? = some (compilation p request w base compiler plugin (.ok output)))
    (hexit : output.success = true)
    (hfault : Output.modulePath base request.source.normalize = .error fault) :
    Stops w .invoked xs (.options fault)
  | read {modulePath : String} {e : IoError} {xs : List Exchange}
    (hlast : xs.getLast? = some (reading request w modulePath (.error e))) :
    Stops w .resolved xs (.io e)
  | finish {modulePath : String} {bytes : Bytes} {e : Failure} {xs : List Exchange}
    (hlast : xs.getLast? = some (reading request w modulePath (.ok bytes)))
    (hfinish : Artifact.finish p.settings.entryPoint request modulePath bytes = .error e) :
    Stops w .resolved xs e

/-- What made a run fail that was in the given state then. -/
inductive FailsIn : RunState → List Exchange → Failure → Prop where
  | creating (e : IoError) : FailsIn .idle [creation p (.error e)] (.io e)
  | working {w : Path} {state : RunState} {xs : List Exchange} {e : Failure}
    (hmiddle : Middle p request w xs (.error e)) (h : Stops p request w state xs e)
    (answer : Except IoError Unit) :
    FailsIn state (creation p (.ok w) :: (xs ++ [removal w answer])) e
  | removing {w : Path} {xs : List Exchange} {artifact : Bytes}
    (hmiddle : Middle p request w xs (.ok artifact)) (e : IoError) :
    FailsIn .postProcessed (creation p (.ok w) :: (xs ++ [removal w (.error e)])) (.io e)

/-- The last change of state that a run records when it is over: it has delivered, or something went
wrong in the state that it leaves. -/
inductive Concludes : List (RunState × RunState) → List Exchange → Outcome Bytes → Prop where
  | completed {w : Path} {xs : List Exchange} {artifact : Bytes}
    (hmiddle : Middle p request w xs (.ok artifact)) :
    Concludes [(.postProcessed, .completed)]
      (creation p (.ok w) :: (xs ++ [removal w (.ok ())])) (.ok artifact)
  | failed {state : RunState} {xs : List Exchange} {e : Failure}
    (h : FailsIn p request state xs e) : Concludes [(state, .failed)] xs (.error e)

end Failing

section Concludes

variable {p : Pipeline} {request : Request}

/-- One change is recorded at the end, to a last state. -/
theorem Concludes.change {cs : List (RunState × RunState)} {xs : List Exchange}
    {result : Outcome Bytes} (h : Concludes p request cs xs result) :
    ∃ state last, cs = [(state, last)] ∧ last.isTerminal = true ∧
      (last = .completed ↔ ∃ artifact, result = .ok artifact) := by
  cases h with
  | completed _ => exact ⟨_, _, rfl, rfl, iff_of_true rfl ⟨_, rfl⟩⟩
  | failed _ => exact ⟨_, _, rfl, rfl, iff_of_false nofun nofun⟩

/-- What was answered last: that no directory was made, or whether the one made was removed. -/
theorem Concludes.last {cs : List (RunState × RunState)} {xs : List Exchange}
    {result : Outcome Bytes} (h : Concludes p request cs xs result) : ∃ front x, xs = front ++ [x] ∧
      ((front = [] ∧ ∃ e, x = creation p (.error e)) ∨
        ∃ w answer, front.head? = some (creation p (.ok w)) ∧ x = removal w answer) := by
  cases h with
  | @completed w xs _ _ =>
    exact ⟨creation p (.ok w) :: xs, _, rfl, .inr ⟨w, .ok (), rfl, rfl⟩⟩
  | failed h => cases h with
    | creating e => exact ⟨[], _, rfl, .inl ⟨rfl, e, rfl⟩⟩
    | @working w _ xs _ _ _ answer =>
      exact ⟨creation p (.ok w) :: xs, _, rfl, .inr ⟨w, answer, rfl, rfl⟩⟩
    | @removing w xs _ _ e =>
      exact ⟨creation p (.ok w) :: xs, _, rfl, .inr ⟨w, .error e, rfl, rfl⟩⟩

theorem Stops.live {w : Path} {state : RunState} {xs : List Exchange} {e : Failure}
    (h : Stops p request w state xs e) : state.isTerminal = false := by
  cases h <;> rfl

end Concludes

namespace Run

/-! ### The invariant -/

section Tells

variable (p : Pipeline) (request : Request)

/-- The state of a run tells where it stands, and when it is over the last changes in its log tell
how it ended. -/
def Tells (log : List Entry) (run : Run) : Prop :=
  match run.stage with
  | .release w (.error e) => ∃ xs, exchangesOf log = creation p (.ok w) :: xs ∧
      Stops p request w run.state xs e
  | .release _ (.ok _) => run.state = .postProcessed
  | .ended result => ∃ front last, log = front ++ [last] ∧
      (∀ c ∈ changes (noticesOf front), c.2.isTerminal = false) ∧
      Concludes p request (changes last.notices) (exchangesOf log) result
  | _ => run.state.isTerminal = false

end Tells

section Steps

variable {p : Pipeline} {request : Request} {log : List Entry} {w base compiler plugin : Path}

theorem Tells.live {run : Run} {call : Call} {resume : call.Answer → Step}
    (h : Tells p request log run) (hnext : run.next p = .asks call resume) :
    run.state.isTerminal = false := by
  unfold Tells at h
  unfold next at hnext
  split at h
  · obtain ⟨_, -, hstops⟩ := h
    exact hstops.live
  · rw [h]; rfl
  · next hstage => rw [hstage] at hnext; cases hnext
  · exact h

theorem tells_created (answer : Except IoError Path) :
    Tells p request [⟨creation p answer, (created p (initial request) answer).2⟩]
      (created p (initial request) answer).1 := by
  cases answer with
  | error e => exact ⟨[], _, rfl, List.forall_mem_nil _, .failed (.creating e)⟩
  | ok w =>
    rw [created, reach_of_canBecome rfl]
    dsimp only [report, initial]
    cases hbase : request.options.resolvedBasePath p.cwd with
    | error e => exact ⟨[], rfl, .base hbase⟩
    | ok base => exact rfl

theorem tells_compilerSought (hlog : exchangesOf log = [creation p (.ok w)]) (notices : List Notice)
    (answer : Option Path) : Tells p request
      (log ++ [⟨lookup p.settings.compiler answer, notices⟩])
      (compilerSought p ⟨request, .workspaceAcquired, .findCompiler w base⟩ w base answer).1 := by
  cases answer with
  | none => exact ⟨_, by rw [exchangesOf_concat, hlog]; rfl, .tool (.inl rfl) rfl⟩
  | some compiler => exact rfl

theorem tells_pluginSought
    (hlog : exchangesOf log = [creation p (.ok w), lookup p.settings.compiler (some compiler)])
    (notices : List Notice) (answer : Option Path) : Tells p request
      (log ++ [⟨lookup p.settings.plugin answer, notices⟩])
      (pluginSought p ⟨request, .workspaceAcquired, .findPlugin w base compiler⟩ w base compiler
        answer).1 := by
  cases answer with
  | none => exact ⟨_, by rw [exchangesOf_concat, hlog]; rfl, .tool (.inr rfl) rfl⟩
  | some plugin =>
    rw [pluginSought, reach_of_canBecome rfl]
    exact rfl

theorem tells_compiled
    (hlog : exchangesOf log = [creation p (.ok w), lookup p.settings.compiler (some compiler),
      lookup p.settings.plugin (some plugin)])
    (notices : List Notice) (answer : Except IoError ProcessOutput) : Tells p request
      (log ++ [⟨compilation p request w base compiler plugin answer, notices⟩])
      (compiled ⟨request, .toolsResolved, .compile w base compiler plugin⟩ w base answer).1 := by
  have hxs : exchangesOf (log ++ [⟨compilation p request w base compiler plugin answer, notices⟩]) =
      creation p (.ok w) :: [lookup p.settings.compiler (some compiler),
        lookup p.settings.plugin (some plugin),
        compilation p request w base compiler plugin answer] := by
    rw [exchangesOf_concat, hlog]
    rfl
  cases answer with
  | error e => exact ⟨_, hxs, .start rfl⟩
  | ok output =>
    cases hexit : output.success with
    | false =>
      rw [compiled, judge_of_failure hexit]
      exact ⟨_, hxs, .exit rfl hexit⟩
    | true =>
      rw [compiled, judge_of_success hexit]
      dsimp only [warn]
      rw [reach_of_canBecome rfl]
      dsimp only [report]
      cases hmodule : Output.modulePath base request.source.normalize with
      | error fault => exact ⟨_, hxs, .place rfl hexit hmodule⟩
      | ok modulePath =>
        dsimp only
        rw [reach_of_canBecome rfl]
        exact rfl

theorem tells_read {modulePath : String} {xs : List Exchange}
    (hlog : exchangesOf log = creation p (.ok w) :: xs) (notices : List Notice)
    (answer : Except IoError Bytes) : Tells p request
      (log ++ [⟨reading request w modulePath answer, notices⟩])
      (Run.read p ⟨request, .resolved, .read w modulePath⟩ w modulePath answer).1 := by
  have hxs : exchangesOf (log ++ [⟨reading request w modulePath answer, notices⟩]) =
      creation p (.ok w) :: (xs ++ [reading request w modulePath answer]) := by
    rw [exchangesOf_concat, hlog]
    rfl
  cases answer with
  | error e => exact ⟨_, hxs, .read List.getLast?_concat⟩
  | ok bytes =>
    rw [Run.read]
    cases hfinish : Artifact.finish p.settings.entryPoint request modulePath bytes with
    | error e => exact ⟨_, hxs, .finish List.getLast?_concat hfinish⟩
    | ok artifact =>
      dsimp only
      rw [reach_of_canBecome rfl]
      exact rfl

/-- A run that is not over records that it failed, and is over. -/
theorem fail_eq {run : Run} (h : run.state.isTerminal = false) (e : Failure) : run.fail e =
    (⟨run.request, .failed, .ended (.error e)⟩, [.event (.stateChanged run.state .failed)]) := by
  unfold fail
  dsimp only
  rw [h]
  rfl

theorem tells_released {xs : List Exchange} {outcome : Outcome Bytes} {state : RunState}
    (hlog : exchangesOf log = creation p (.ok w) :: xs) (hmiddle : Middle p request w xs outcome)
    (htells : Tells p request log ⟨request, state, .release w outcome⟩)
    (hlive : state.isTerminal = false)
    (hfront : ∀ c ∈ changes (noticesOf log), c.2.isTerminal = false)
    (answer : Except IoError Unit) :
    Tells p request
      (log ++ [⟨removal w answer,
        (released ⟨request, state, .release w outcome⟩ w outcome answer).2⟩])
      (released ⟨request, state, .release w outcome⟩ w outcome answer).1 := by
  have hxs (notices : List Notice) : exchangesOf (log ++ [⟨removal w answer, notices⟩]) =
      creation p (.ok w) :: (xs ++ [removal w answer]) := by
    rw [exchangesOf_concat, hlog]
    rfl
  have hfail := @fail_eq ⟨request, state, .release w outcome⟩ hlive
  cases outcome with
  | error e =>
    -- what failed first is the result, whether the directory was removed or not
    obtain ⟨ys, hys, hstops⟩ := htells
    obtain rfl := (List.cons.inj (hlog.symm.trans hys)).2
    have hfails := FailsIn.working hmiddle hstops answer
    cases answer with
    | error removal =>
      rw [released, hfail]
      exact ⟨log, _, rfl, hfront, hxs _ ▸ .failed hfails⟩
    | ok _ =>
      rw [released, hfail]
      exact ⟨log, _, rfl, hfront, hxs _ ▸ .failed hfails⟩
  | ok artifact =>
    obtain rfl : state = .postProcessed := htells
    cases answer with
    | error removal =>
      rw [released, hfail]
      exact ⟨log, _, rfl, hfront, hxs _ ▸ .failed (.removing hmiddle removal)⟩
    | ok _ =>
      dsimp only [released]
      rw [reach_of_canBecome rfl]
      exact ⟨log, _, rfl, hfront, hxs _ ▸ .completed hmiddle⟩

/-- Every answer leaves a run in a state that tells the truth. -/
theorem Tells.step {run : Run} {call : Call} {resume : call.Answer → Step}
    (hat : At p request (exchangesOf log) run) (h : Tells p request log run)
    (hfront : ∀ c ∈ changes (noticesOf log), c.2.isTerminal = false)
    (hnext : run.next p = .asks call resume) (answer : call.Answer) :
    Tells p request (log ++ [⟨⟨call, answer⟩, (resume answer).2⟩]) (resume answer).1 := by
  have hlive := h.live hnext
  generalize hlog : exchangesOf log = xs at hat
  cases hat with
  | create =>
    cases hnext
    obtain rfl : log = [] := List.map_eq_nil_iff.mp hlog
    exact tells_created answer
  | findCompiler hbase => cases hnext; exact tells_compilerSought hlog _ answer
  | findPlugin hbase => cases hnext; exact tells_pluginSought hlog _ answer
  | compile hbase => cases hnext; exact tells_compiled hlog _ answer
  | read hbase hexit hunder hmodule => cases hnext; exact tells_read hlog _ answer
  | release hmiddle hok =>
    cases hnext
    exact tells_released hlog hmiddle h hlive hfront answer
  | ended h => cases hnext

theorem Logged.tells {run : Run} (h : Logged p (.initial request) log run) :
    Tells p request log run := by
  induction h with
  | refl => exact rfl
  | step hlog hnext answer ih =>
    -- the changes so far lead to a state that is not last, so there is no last one among them
    exact ih.step hlog.reaches.at (hlog.leads.live (ih.live hnext)) hnext answer

end Steps

end Run

/-! ### Failures over states -/

section NeState

variable {p : Pipeline} {request : Request} {sought found : String}

theorem Options.resolvedBasePath_ne_state {o : Options} {cwd : Path} :
    o.resolvedBasePath cwd ≠ .error (.state sought found) := by
  unfold resolvedBasePath
  cases o.validate with
  | error fault => nofun
  | ok _ => cases Path.absolutize? cwd o.basePath <;> nofun

theorem Middle.ne_state {w : Path} {xs : List Exchange} {outcome : Outcome Bytes}
    (h : Middle p request w xs outcome) : outcome ≠ .error (.state sought found) := by
  cases h with
  | badBase hbase =>
    intro heq
    cases heq
    exact Options.resolvedBasePath_ne_state hbase
  | read _ _ _ _ hprocessed => cases hprocessed <;> nofun
  | _ => nofun

/-- No run fails over its states: the changes that it asks for are always allowed. -/
theorem Transcript.ne_state {xs : List Exchange} {result : Outcome Bytes}
    (h : Transcript p request xs result) : result ≠ .error (.state sought found) := by
  cases h with
  | notCreated e => nofun
  | @created _ _ outcome h answer =>
    cases outcome with
    | error e => exact h.ne_state
    | ok artifact => cases answer <;> nofun

end NeState

/-! ### The whole record -/

/-- What the record of a run says, with the calls and answers that it stands between, is true. -/
structure TrueRecord (p : Pipeline) (request : Request) (log : List Run.Entry)
    (result : Outcome Bytes) : Prop where
  /-- The changes lead from the first state to a last one, which tells whether the run delivers. -/
  chain : ∃ last, RunState.Leads .idle (changes (Run.noticesOf log)) last ∧
    last.isTerminal = true ∧ (last = .completed ↔ ∃ artifact, result = .ok artifact)
  /-- One of them enters a last state. -/
  once : (changes (Run.noticesOf log)).countP (·.2.isTerminal) = 1
  /-- That one is recorded after the last answer, when there is no directory to wait for. -/
  late : ∃ front entry, log = front ++ [entry] ∧
    (∀ c ∈ changes (Run.noticesOf front), c.2.isTerminal = false) ∧
    ((front = [] ∧ ∃ e, entry.exchange = creation p (.error e)) ∨
      ∃ w answer, (Run.exchangesOf front).head? = some (creation p (.ok w)) ∧
        entry.exchange = removal w answer)
  /-- A failure is recorded from the state of the step that failed. -/
  failing : ∀ state, (state, .failed) ∈ changes (Run.noticesOf log) →
    ∃ e, result = .error e ∧ FailsIn p request state (Run.exchangesOf log) e
  /-- Recording itself does not fail. -/
  recorded : ∀ sought found, result ≠ .error (.state sought found)

namespace Run

variable {p : Pipeline} {request : Request} {log : List Entry} {run : Run} {result : Outcome Bytes}

theorem Logged.trueRecord (h : Logged p (.initial request) log run)
    (hstage : run.stage = .ended result) : TrueRecord p request log result := by
  have htells := h.tells
  rw [Tells, hstage] at htells
  obtain ⟨front, last, hlog, hfront, hconcludes⟩ := htells
  obtain ⟨a, b, hlast, hterminal, hcompleted⟩ := hconcludes.change
  have hchanges : changes (noticesOf log) = changes (noticesOf front) ++ [(a, b)] := by
    rw [hlog, noticesOf_concat, changes_append, hlast]
  constructor
  case chain =>
    have hleads := h.leads
    obtain rfl : run.state = b := (hchanges ▸ hleads).eq_of_concat
    exact ⟨run.state, hleads, hterminal, hcompleted⟩
  case once =>
    have hnone : (changes (noticesOf front)).countP (·.2.isTerminal) = 0 :=
      List.countP_eq_zero.mpr fun c hc => by simp [hfront c hc]
    rw [hchanges, List.countP_append, hnone, List.countP_singleton, if_pos hterminal]
  case late =>
    refine ⟨front, last, hlog, hfront, ?_⟩
    obtain ⟨xs, x, hxs, hends⟩ := hconcludes.last
    rw [hlog, exchangesOf_concat] at hxs
    obtain ⟨rfl, hx⟩ := List.append_inj' hxs rfl
    cases hx
    exact hends.imp_left fun ⟨hnil, hcreation⟩ => ⟨List.map_eq_nil_iff.mp hnil, hcreation⟩
  case failing =>
    intro state hmem
    rw [hchanges] at hmem
    obtain hmem | hmem := List.mem_append.mp hmem
    · cases hfront _ hmem
    · rw [hlast] at hconcludes
      cases List.mem_singleton.mp hmem
      cases hconcludes with
      | failed hfails => exact ⟨_, rfl, hfails⟩
  case recorded => exact fun _ _ => (h.reaches.at.transcript hstage).ne_state

/-- A run that waits for an answer has recorded no last state. -/
theorem Reaches.leads {xs : List Exchange} {notices : List Notice} {call : Call}
    {resume : call.Answer → Step} (h : Reaches p (.initial request) xs notices run)
    (hnext : run.next p = .asks call resume) :
    RunState.Leads .idle (changes notices) run.state ∧ run.state.isTerminal = false := by
  obtain ⟨log, hlog, -, rfl⟩ := h.logged
  exact ⟨hlog.leads, hlog.tells.live hnext⟩

theorem changes_abandon {σ : Type} (host : Host σ) (run : Run) (s : σ) :
    changes (run.abandon host s).1 = [] := by
  unfold abandon
  cases run.stage.held with
  | none => rfl
  | some w =>
    dsimp only [discarded]
    cases (host.discard w s).1 <;> rfl

end Run

namespace Pipeline

variable {σ : Type} {host : Host σ} {p : Pipeline} {request : Request} {again : Nat} {s t : σ}

theorem trueRecord_of_drive {result : Outcome Bytes} {notices : List Notice} {ds : List Deed}
    (h : p.drive host.ledger request again (s, []) = (.finished result, notices, t, ds)) :
    ∃ log run, Run.Logged p (.initial request) log run ∧ run.stage = .ended result ∧
      notices = .event .started :: Run.noticesOf log ∧ ds = ledgerOf (Run.exchangesOf log) ∧
      TrueRecord p request log result := by
  unfold drive at h
  rcases hpolls : Run.polls host.ledger p again (.initial request) false (s, []) with
    ⟨progress, later, t', ds'⟩
  have hleft := Run.polls_left Run.open_start hpolls
  rw [hpolls] at h
  cases progress with
  | finished result' =>
    cases h
    obtain ⟨xs, run, hreach, hstage, hds⟩ := hleft
    obtain ⟨log, hlog, rfl, hnotices⟩ := hreach.logged
    exact ⟨log, run, hlog, hstage, congrArg _ hnotices, hds, hlog.trueRecord hstage⟩
  | suspended run | crashed run => cases h

/-- A run that is not over has recorded no last state, also when its host crashed. -/
theorem leads_of_drive {progress : Run.Progress} {notices : List Notice}
    (h : p.drive host request again s = (progress, notices, t))
    (hprogress : ∀ result, progress ≠ .finished result) :
    ∃ state, RunState.Leads .idle (changes notices) state ∧ state.isTerminal = false := by
  obtain ⟨ds, h⟩ := Run.exists_ledger h
  unfold drive at h
  rcases hpolls : Run.polls host.ledger p again (.initial request) false (s, []) with
    ⟨progress', later, t', ds'⟩
  have hleft := Run.polls_left Run.open_start hpolls
  rw [hpolls] at h
  cases progress' with
  | finished result => cases h; exact absurd rfl (hprogress result)
  | suspended run =>
    cases h
    obtain ⟨xs, call, resume, hreach, hnext, -⟩ := hleft
    exact ⟨run.state, hreach.leads hnext⟩
  | crashed run =>
    simp only [Prod.mk.injEq] at h
    obtain ⟨-, rfl, -⟩ := h
    obtain ⟨xs, call, resume, hreach, hnext, -⟩ := hleft
    rw [List.cons_append, changes_cons_started, changes_append, Run.changes_abandon,
      List.append_nil]
    exact ⟨run.state, hreach.leads hnext⟩

/-- The states that a run records on its way, on whatever host, tell the truth: about how it ends,
about when, and about what failed; and while it is under way they say that it is. It does come to an
end if every call is answered in the end, and writing the calls down does not change it. -/
theorem states_tell_truth (host : Host σ) (p : Pipeline) (request : Request) (s : σ) :
    (∀ again result notices t ds,
      p.drive host.ledger request again (s, []) = (.finished result, notices, t, ds) →
        ∃ log run, Run.Logged p (.initial request) log run ∧ run.stage = .ended result ∧
          notices = .event .started :: Run.noticesOf log ∧ ds = ledgerOf (Run.exchangesOf log) ∧
          TrueRecord p request log result) ∧
    (∀ again progress notices t, p.drive host request again s = (progress, notices, t) →
      (∀ result, progress ≠ .finished result) →
        ∃ state, RunState.Leads .idle (changes notices) state ∧ state.isTerminal = false) ∧
    (∀ again, Run.withoutLedger (p.drive host.ledger request again (s, [])) =
      p.drive host request again s) ∧
    (host.Answers →
      ∃ again result notices t, p.drive host request again s = (.finished result, notices, t)) :=
  ⟨fun _ _ _ _ _ h => trueRecord_of_drive h, fun _ _ _ _ h hprogress => leads_of_drive h hprogress,
    fun again => Run.drive_ledger host p request again s [],
    fun hhost => exists_drive p request hhost s⟩

/-- The states of a run in which nothing goes wrong. -/
example : changes (standard.drive sampleHost sampleRequest 0 ()).2.1 =
    RunState.all.dropLast.zip (RunState.all.dropLast.drop 1) := by
  rfl

end Pipeline

end StubLoader
