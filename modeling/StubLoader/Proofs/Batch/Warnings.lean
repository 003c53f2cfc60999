import StubLoader.Proofs.Batch.Ledgers
import StubLoader.Proofs.Run.Warnings
import StubLoader.Sink
/-!
# Warnings of a batch

The tasks of a batch share a sink. However they are interleaved, it is told the warnings that the
ends of their compilers give rise to, each once and no others. What was told stays told when a run
fails later or is stopped. And whatever takes the warnings, the batch and its host go the same way.
-/

namespace StubLoader

open Run

/-! ### A sink changes nothing -/

namespace Sink

variable {τ : Type}

theorem takeAll_append (sink : Sink τ) (now later : List Warning) (t : τ) :
    sink.takeAll (now ++ later) t = sink.takeAll later (sink.takeAll now t) := List.foldl_append

theorem takeAll_collecting (warnings kept : List Warning) :
    collecting.takeAll warnings kept = kept ++ warnings := by
  induction warnings generalizing kept with
  | nil => exact (List.append_nil kept).symm
  | cons warning warnings ih =>
    have htake : collecting.takeAll (warning :: warnings) kept =
        collecting.takeAll warnings (kept ++ [warning]) := rfl
    rw [htake, ih, List.append_assoc]
    rfl

end Sink

namespace Batch

@[simp] theorem warnings_append (now later : List Entry) :
    warnings (now ++ later) = warnings now ++ warnings later := List.filterMap_append

theorem warnings_entries (request : Request) (notices : List Notice) :
    warnings (entries request notices) = warningsOf notices := by
  rw [warnings, entries, List.filterMap_map]
  rfl

section Play

variable {σ τ : Type} (sink : Sink τ) (host : Host σ) (p : Pipeline)

/-- A batch goes the same way with every sink, which takes the warnings of the batch. -/
theorem playInto_eq : ∀ (ms : List Move) (b : Batch) (s : σ) (t : τ),
    playInto sink host p ms b s t =
      (b.play host p ms s, sink.takeAll (warnings (b.play host p ms s).2.1) t)
  | [], _, _, _ => rfl
  | m :: ms, b, s, t => by
    rw [playInto, play]
    dsimp only
    rw [playInto_eq ms, warnings_append, Sink.takeAll_append]

end Play

end Batch

/-! ### What a poll tells -/

namespace Run

@[simp] theorem compilations_discards (run : Run) : compilations run.discards = [] := by
  unfold discards
  cases run.stage.held <;> rfl

@[simp] theorem toldOf_discards (request : Request) (run : Run) :
    toldOf request run.discards = [] := by
  rw [toldOf, compilations_discards]
  rfl

end Run

namespace Batch

section GoOn

variable {σ : Type} {host : Host σ} {p : Pipeline} {b : Batch} {i : Nat} {request : Request}
  {run : Run} {issued : Bool} {s : σ} {ds : List Deed}

theorem warnings_stop (task : Task) :
    warnings (b.stop host i run task s).2.1 = [] := by
  have hsilent := warningsOf_abandon host run s
  rw [stop]
  dsimp only
  rw [warnings_entries, hsilent]

theorem warnings_goOn : warnings (b.goOn host p i run issued s).2.1 =
    warningsOf (run.poll host p issued s).2.1 := by
  rw [goOn]
  rcases run.poll host p issued s with ⟨progress, notices, t⟩
  cases progress with
  | finished _ | suspended _ => exact warnings_entries _ _
  | crashed now =>
    dsimp only
    rw [warnings_append, warnings_entries, warnings_stop, List.append_nil]

/-- Going on with a run tells the warnings that its ledger gives rise to beyond those before. -/
theorem toldOf_goOn {notices : List Notice}
    (hopen : Open p (.initial request) run issued notices ds) :
    toldOf request (b.goOn host.ledger p i run issued (s, ds)).2.2.2 =
      toldOf request ds ++ warnings (b.goOn host.ledger p i run issued (s, ds)).2.1 := by
  rw [goOn_ledger, warnings_goOn]
  rcases hpoll : run.poll host.ledger p issued (s, ds) with ⟨progress, later, t, ds'⟩
  have htold := (poll_left hopen hpoll).warningsOf_eq
  rw [warningsOf_append, hopen.warningsOf_eq] at htold
  cases progress <;> simp [Progress.discards, htold]

end GoOn

end Batch

/-- The compiler of a task ends once at most. -/
theorem Task.Did.compilations_le {p : Pipeline} {request : Request} {token : Token}
    {ds : List Deed} {task : Task} (h : task.Did p request token ds) :
    (compilations ds).length ≤ 1 := by
  cases h with
  | waiting | refused _ => exact Nat.zero_le 1
  | done h => simpa [compilations_ledgerOf] using h.compiled_le
  | running h _ | stopped _ h _ | lost h _ =>
    simpa [compilations_ledgerOf] using h.at.compiled_le

namespace Scene

variable {σ : Type} {host : Host σ} {p : Pipeline} {requests : List Request} {c : Scene σ}

theorem warnings_poll_ledger (host : Host σ) (p : Pipeline) (c : Scene σ) (i : Nat) :
    Batch.warnings (c.batch.poll host p i c.host).2.1 =
      Batch.warnings (c.batch.poll host.ledger p i (c.host, c.ledgers i)).2.1 := by
  rw [← poll_ledger host p c.batch i c.host (c.ledgers i)]
  rfl

/-- A poll tells the warnings that the ledger of the task gives rise to beyond those before. -/
theorem Inv.toldOf_poll (h : c.Inv p requests) {i : Nat} {request : Request}
    (hrequest : requests[i]? = some request) :
    toldOf request ((c.poll host p i).ledgers i) = toldOf request (c.ledgers i) ++
      Batch.warnings (c.batch.poll host p i c.host).2.1 := by
  have hpolled := c.batch.polled host.ledger p i (c.host, c.ledgers i)
  rw [warnings_poll_ledger, Scene.poll]
  dsimp only
  rw [Function.update_self]
  generalize c.batch.poll host.ledger p i (c.host, c.ledgers i) = moved at hpolled ⊢
  cases hpolled with
  | ended _ | queued _ _ _ | refused _ _ => exact (List.append_nil _).symm
  | begun htask htoken hfree =>
    have hopen := (h.did i _ request htask hrequest).openOfWaiting
    rw [Batch.toldOf_goOn hopen, Batch.warnings_append]
    rfl
  | resumed htask htoken =>
    obtain ⟨notices, hopen⟩ := (h.did i _ request htask hrequest).openOfRunning
    exact Batch.toldOf_goOn hopen
  | @stopped run htask htoken =>
    rw [Batch.warnings_stop, Batch.stop, abandon_ledger]
    exact (toldOf_append ..).trans (congrArg _ (toldOf_discards request run))

/-- Where there is no task, a poll tells nothing. -/
theorem Inv.warnings_poll_of_le (h : c.Inv p requests) {i : Nat} (hi : requests.length ≤ i) :
    Batch.warnings (c.batch.poll host p i c.host).2.1 = [] := by
  have hnone : c.batch.tasks[i]? = none := List.getElem?_eq_none (by rw [h.length]; exact hi)
  rw [Batch.poll, hnone]
  rfl

/-- The warnings that what the task has done gives rise to. -/
def told (requests : List Request) (c : Scene σ) (i : Nat) : List Warning :=
  match requests[i]? with
  | some request => toldOf request (c.ledgers i)
  | none => []

theorem told_poll_of_ne {i j : Nat} (hj : j ≠ i) :
    (c.poll host p i).told requests j = c.told requests j := by
  rw [told, told, Scene.poll]
  dsimp only
  rw [Function.update_of_ne hj]

theorem Inv.told_poll_self (h : c.Inv p requests) {i : Nat} (hi : i < requests.length) :
    (c.poll host p i).told requests i =
      c.told requests i ++ Batch.warnings (c.batch.poll host p i c.host).2.1 := by
  have hrequest := List.getElem?_eq_getElem hi
  rw [told, told, hrequest]
  exact h.toldOf_poll hrequest

/-- The warnings that what all tasks have done gives rise to. -/
def allTold (requests : List Request) (c : Scene σ) : List Warning :=
  (List.range requests.length).flatMap (c.told requests)

end Scene

/-- Lists that differ in one place by what is appended there. -/
theorem perm_flatMap_range {α : Type} {f g : Nat → List α} {i : Nat} {more : List α}
    (hself : g i = f i ++ more) (hothers : ∀ j, j ≠ i → g j = f j) {n : Nat} (hi : i < n) :
    ((List.range n).flatMap g).Perm ((List.range n).flatMap f ++ more) := by
  induction n with
  | zero => omega
  | succ n ih =>
    simp only [List.range_succ, List.flatMap_append, List.flatMap_cons, List.flatMap_nil,
      List.append_nil]
    rcases Nat.lt_succ_iff_lt_or_eq.mp hi with hlt | rfl
    · rw [hothers n (by omega)]
      refine ((ih hlt).append_right _).trans ?_
      rw [List.append_assoc, List.append_assoc]
      exact List.perm_append_comm.append_left _
    · have hbefore : (List.range i).flatMap g = (List.range i).flatMap f := by
        refine List.flatMap_congr fun j hj => hothers j ?_
        have hlt := List.mem_range.mp hj
        omega
      rw [hbefore, hself, List.append_assoc]

namespace Scene

variable {σ : Type} {host : Host σ} {p : Pipeline} {requests : List Request}

theorem Inv.allTold_move {c : Scene σ} (h : c.Inv p requests) (m : Batch.Move) :
    ((c.move host p m).allTold requests).Perm
      (c.allTold requests ++ Batch.warnings (c.batch.move host p c.host m).2.1) := by
  cases m with
  | cancel => exact .of_eq (List.append_nil _).symm
  | poll i =>
    rw [Scene.move, Batch.move]
    rcases Nat.lt_or_ge i requests.length with hi | hi
    · exact perm_flatMap_range (h.told_poll_self hi) (fun j hj => told_poll_of_ne hj) hi
    · rw [h.warnings_poll_of_le hi, List.append_nil, allTold, allTold]
      refine List.Perm.of_eq (List.flatMap_congr fun j hj => told_poll_of_ne ?_)
      have hlt := List.mem_range.mp hj
      omega

/-- A schedule tells the warnings that what the tasks have done gives rise to, each once. -/
theorem Inv.allTold_play (ms : List Batch.Move) : ∀ {c : Scene σ}, c.Inv p requests →
    ((c.play host p ms).allTold requests).Perm
      (c.allTold requests ++ Batch.warnings (c.batch.play host p ms c.host).2.1) := by
  induction ms with
  | nil => intro c _; simp [Batch.play, Batch.warnings]
  | cons m ms ih =>
    intro c h
    obtain ⟨hbatch, hhost⟩ := Prod.mk.inj (move_batch host p c m)
    have hmoved : (c.move host p m).Inv p requests := h.move m
    have hrest := ih hmoved
    rw [hbatch, hhost] at hrest
    rw [play_cons, Batch.play]
    dsimp only
    rw [Batch.warnings_append, ← List.append_assoc]
    exact hrest.trans ((h.allTold_move m).append_right _)

/-- What was told of a task is what the end of its compiler gives rise to. -/
theorem Inv.warned {c : Scene σ} (h : c.Inv p requests) {i : Nat} {request : Request}
    (hrequest : requests[i]? = some request) :
    Warned request (compilations (c.ledgers i)) (c.told requests i) := by
  have hi : i < c.batch.tasks.length := by
    rw [h.length]
    exact (List.getElem?_eq_some_iff.mp hrequest).1
  have hdid := h.did i _ request (List.getElem?_eq_getElem hi) hrequest
  rw [told, hrequest]
  exact warned_of_length_le request hdid.compilations_le

end Scene

namespace Batch

/-- However the tasks of a batch are interleaved, and whatever the host answers, a sink that keeps
the warnings has those that the ends of the compilers give rise to, for each request one or none,
and no others; what becomes of the run later makes no difference. With every other sink the batch
and its host go the same way. -/
theorem warned_once {p : Pipeline} {requests : List Request} {token : Token} {b : Batch}
    (hstart : start? p requests token = some b) {σ : Type} (host : Host σ) (s : σ)
    (ms : List Move) :
    (∀ {τ : Type} (sink : Sink τ) (t : τ), playInto sink host p ms b s t =
      (b.play host p ms s, sink.takeAll (warnings (b.play host p ms s).2.1) t)) ∧
    ((Scene.initial b s).play host p ms).batch = (b.play host p ms s).1 ∧
    ∃ told : Nat → List Warning,
      (playInto .collecting host p ms b s []).2.Perm
        ((List.range requests.length).flatMap told) ∧
      ∀ (i : Nat) (request : Request), requests[i]? = some request →
        Warned request (compilations (((Scene.initial b s).play host p ms).ledgers i))
          (told i) := by
  have hinitial := Scene.Inv.initial hstart s
  have hplayed : ((Scene.initial b s).play host p ms).Inv p requests := hinitial.play ms
  refine ⟨fun sink t => playInto_eq sink host p ms b s t, (Scene.play_initial host p ms b s).1,
    ((Scene.initial b s).play host p ms).told requests, ?_, fun i request => hplayed.warned⟩
  have hnone : (Scene.initial b s).allTold requests = [] := by
    refine List.flatMap_eq_nil_iff.mpr fun i _ => ?_
    rw [Scene.told]
    split <;> rfl
  have htold := @Scene.Inv.allTold_play σ host p requests ms _ hinitial
  rw [hnone, List.nil_append] at htold
  rw [playInto_eq, Sink.takeAll_collecting]
  exact htold.symm

/-- A host with a compiler that is successful, says what is no text, and writes no file. -/
def grumblingHost : Host Unit :=
  .ofAnswers (fun call s => match call with
    | .createWorkspace .. => (.ok ⟨[Path.slash, 0x77]⟩, s)
    | .findExecutable tool => (some tool, s)
    | .runProcess .. => (.ok ⟨some 0, true, [], [0xff]⟩, s)
    | .loadFile _ => (.error ⟨.notFound, "no such file"⟩, s)
    | .removeWorkspace _ => (.ok (), s))
    fun _ s => (.ok (), s)

/-- A request for a source that does not lie under its base. -/
def strayRequest : Request := ⟨.ofString "/./c", .ofBasePath (.ofString "/b")⟩

/-- Two runs whose calls are taken in turn are warned about their sources, and fail later. -/
theorem warned_once_sample :
    ∃ b ms, start? Pipeline.standard [Pipeline.sampleRequest, strayRequest] .absent = some b ∧
      (b.play grumblingHost.paced Pipeline.standard ms ()).1.results? =
        some [.error (.io ⟨.notFound, "no such file"⟩),
          .error (.options (.outsideBase (.ofString "/c") (.ofString "/b")))] ∧
      (playInto .collecting grumblingHost.paced Pipeline.standard ms b () []).2.Perm
        [⟨.ofString "/a", "\ufffd"⟩, ⟨.ofString "/./c", "\ufffd"⟩] ∧
      (playInto .logging grumblingHost.paced Pipeline.standard ms b () []).1 =
        b.play grumblingHost.paced Pipeline.standard ms () := by
  let b : Batch := ⟨[.waiting Pipeline.sampleRequest, .waiting strayRequest],
    permits Pipeline.standard, .absent, []⟩
  let inTurn : List Move := (List.replicate 7 [.poll 1, .poll 0]).flatten
  have hstart : start? Pipeline.standard [Pipeline.sampleRequest, strayRequest] .absent =
      some b := if_pos (by decide)
  obtain ⟨hsinks, -, told, hperm, hwarned⟩ := warned_once hstart grumblingHost.paced () inTurn
  have hone (i : Nat) (request : Request)
      (hrequest : [Pipeline.sampleRequest, strayRequest][i]? = some request)
      (hledger : compilations (((Scene.initial b ()).play grumblingHost.paced Pipeline.standard
        inTurn).ledgers i) = [.ok ⟨some 0, true, [], [0xff]⟩]) :
      told i = [⟨request.source, "\ufffd"⟩] := by
    have htold := hwarned i request hrequest
    have hshown : Utf8.toStringLossy [0xff] = "\ufffd" := by decide +kernel
    rw [hledger] at htold
    generalize told i = warnings at htold
    cases htold with
    | failed h => cases h
    | silent h hsilent => cases hsilent
    | said h hsaid => rw [hshown]
  have hfirst := hone 0 _ rfl (by decide +kernel)
  have hsecond := hone 1 _ rfl (by decide +kernel)
  refine ⟨b, inTurn, hstart, by decide +kernel, ?_, by rw [hsinks]⟩
  have htold : (List.range 2).flatMap told =
      [⟨.ofString "/a", "\ufffd"⟩, ⟨.ofString "/./c", "\ufffd"⟩] := by
    rw [List.range_succ, List.range_succ, List.flatMap_append, List.flatMap_append,
      List.flatMap_singleton, List.flatMap_singleton, hfirst, hsecond]
    rfl
  exact htold ▸ hperm

end Batch

end StubLoader
