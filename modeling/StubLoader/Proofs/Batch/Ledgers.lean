import Mathlib.Logic.Function.Basic
import StubLoader.Batch
import StubLoader.Proofs.Run.Cleanup
/-!
# Ledgers of a batch

Every task of a batch keeps a ledger of its own: what its run did to the host. `Task.Did` says what
a ledger holds where its task has come to, and `Batch.Polled` lists all that polling a task can do.
From these the invariant of a batch, `Scene.Inv`, is kept by every move, and so by every schedule,
whatever the host answers and when.
-/

namespace StubLoader

open Run

/-! ### Where tasks have come to -/

/-- What giving the run up leaves in a ledger. -/
def Run.discards (run : Run) : List Deed := (run.stage.held.map Deed.discarded).toList

/-- What is left in a ledger when a run came so far, beyond what it did itself. -/
def Run.Progress.discards : Progress → List Deed
  | .finished _ | .suspended _ => []
  | .crashed run => run.discards

namespace Task

/-- The result that the task has to hand over. -/
def result? : Task → Option (Outcome Bytes)
  | .settled result => some result
  | .waiting _ | .running _ | .lost => none

/-- What becomes of the task of a run that came so far. -/
def ofProgress : Progress → Task
  | .finished result => .settled result
  | .suspended run => .running run
  | .crashed _ => .lost

/-- What a task for the request has done, given what the token says. -/
inductive Did (p : Pipeline) (request : Request) (token : Token) : List Deed → Task → Prop where
  | waiting : Did p request token [] (.waiting request)
  | running {xs : List Exchange} {notices : List Notice} {run : Run} {call : Call}
    {resume : call.Answer → Step} (h : Reaches p (.initial request) xs notices run)
    (hnext : run.next p = .asks call resume) :
    Did p request token (ledgerOf xs ++ [.asked call]) (.running run)
  /-- The run came to its end. -/
  | done {xs : List Exchange} {result : Outcome Bytes} (h : Transcript p request xs result) :
    Did p request token (ledgerOf xs) (.settled result)
  /-- The task was stopped before its run began. -/
  | refused (htoken : token = .cancelled) :
    Did p request token [] (.settled (.error .cancelled))
  /-- The run was stopped while it waited for an answer. -/
  | stopped {xs : List Exchange} {notices : List Notice} {run : Run} {call : Call}
    {resume : call.Answer → Step} (htoken : token = .cancelled)
    (h : Reaches p (.initial request) xs notices run) (hnext : run.next p = .asks call resume) :
    Did p request token (ledgerOf xs ++ [.asked call] ++ run.discards)
      (.settled (.error .cancelled))
  /-- Answering a call of the run crashed. -/
  | lost {xs : List Exchange} {notices : List Notice} {run : Run} {call : Call}
    {resume : call.Answer → Step} (h : Reaches p (.initial request) xs notices run)
    (hnext : run.next p = .asks call resume) :
    Did p request token (ledgerOf xs ++ [.asked call] ++ run.discards) .lost

variable {p : Pipeline} {request : Request} {token : Token} {ds : List Deed}

theorem Did.cancel {task : Task} (h : task.Did p request token ds) :
    task.Did p request token.cancel ds := by
  have htoken : token = .cancelled → token.cancel = .cancelled := by
    rintro rfl
    rfl
  cases h with
  | waiting => exact .waiting
  | running h hnext => exact .running h hnext
  | done h => exact .done h
  | refused h => exact .refused (htoken h)
  | stopped hcancelled h hnext => exact .stopped (htoken hcancelled) h hnext
  | lost h hnext => exact .lost h hnext

theorem Did.openOfRunning {run : Run} (h : (Task.running run).Did p request token ds) :
    ∃ notices, Open p (.initial request) run true notices ds := by
  cases h with
  | running h hnext => exact ⟨_, _, h, by rw [hnext]; rfl⟩

theorem Did.openOfWaiting {given : Request} (h : (Task.waiting given).Did p request token ds) :
    Open p (.initial request) (.initial given) false [] ds := by
  cases h with
  | waiting => exact open_start

end Task

namespace Batch

/-- What a batch may give for the request, once the task has done this and `crashed` says whether
its run crashed. -/
inductive Verdict (p : Pipeline) (request : Request) (token : Token) (ds : List Deed)
    (crashed : Prop) : Outcome Bytes → Prop where
  /-- The result of the run. -/
  | ran {xs : List Exchange} {result : Outcome Bytes} (h : Transcript p request xs result)
    (hledger : ds = ledgerOf xs) (hcrashed : ¬crashed) :
    Verdict p request token ds crashed result
  | unfinished (hcrashed : crashed) :
    Verdict p request token ds crashed (.error (.task .unfinished))
  | cancelled (htoken : token = .cancelled) (hcrashed : ¬crashed) :
    Verdict p request token ds crashed (.error .cancelled)

/-! ### Polling a task -/

/-- Replaces a task that held a permit, which is given back unless it goes on being held. -/
def become (b : Batch) (i : Nat) (task : Task) : Batch :=
  if task.isRunning then b.put i task else b.settle i task

/-- The batch with one permit less. -/
def grant (b : Batch) : Batch := { b with free := b.free - 1 }

/-- The run that polling the task goes on with, and whether its call is out already. -/
inductive Due (b : Batch) (i : Nat) : Run → Bool → Prop where
  | begins {request : Request} (htask : b.tasks[i]? = some (.waiting request))
    (htoken : b.token ≠ .cancelled) (hfree : b.free ≠ 0) : Due b i (.initial request) false
  | goesOn {run : Run} (htask : b.tasks[i]? = some (.running run))
    (htoken : b.token ≠ .cancelled) : Due b i run true

theorem Due.unique {b : Batch} {i : Nat} {run run' : Run} {issued issued' : Bool}
    (h : b.Due i run issued) (h' : b.Due i run' issued') : run = run' ∧ issued = issued' := by
  cases h with
  | begins htask _ _ => cases h' with
    | begins htask' _ _ => rw [htask] at htask'; cases htask'; exact ⟨rfl, rfl⟩
    | goesOn htask' _ => rw [htask] at htask'; cases htask'
  | goesOn htask _ => cases h' with
    | begins htask' _ _ => rw [htask] at htask'; cases htask'
    | goesOn htask' _ => rw [htask] at htask'; cases htask'; exact ⟨rfl, rfl⟩

section Poll

variable {σ : Type} (host : Host σ) (p : Pipeline) (b : Batch) (i : Nat) (s : σ)

/-- All that polling a task can do. -/
inductive Polled : Moved σ → Prop where
  | ended (h : ∀ task, b.tasks[i]? = some task → task.isEnded = true) : Polled (b, [], s)
  | queued {request : Request} (htask : b.tasks[i]? = some (.waiting request))
    (htoken : b.token ≠ .cancelled) (hfree : b.free = 0) : Polled (b, [], s)
  | refused {request : Request} (htask : b.tasks[i]? = some (.waiting request))
    (htoken : b.token = .cancelled) : Polled (b.put i (.settled (.error .cancelled)), [], s)
  | begun {request : Request} (htask : b.tasks[i]? = some (.waiting request))
    (htoken : b.token ≠ .cancelled) (hfree : b.free ≠ 0) :
    Polled ((b.grant.goOn host p i (.initial request) false s).1,
      entries request [.event .started] ++ (b.grant.goOn host p i (.initial request) false s).2.1,
      (b.grant.goOn host p i (.initial request) false s).2.2)
  | resumed {run : Run} (htask : b.tasks[i]? = some (.running run))
    (htoken : b.token ≠ .cancelled) : Polled (b.goOn host p i run true s)
  | stopped {run : Run} (htask : b.tasks[i]? = some (.running run))
    (htoken : b.token = .cancelled) : Polled (b.stop host i run (.settled (.error .cancelled)) s)

theorem polled : Polled host p b i s (b.poll host p i s) := by
  unfold poll
  split
  · next request htask =>
    split
    · next htoken => exact .refused htask htoken
    · next htoken =>
      split
      · next hfree => exact .queued htask htoken hfree
      · next free hfree =>
        have hgrant : b.grant = { b with free } := by rw [grant, hfree]; rfl
        have hbegun := @Polled.begun σ host p b i s request htask htoken (by omega)
        rwa [hgrant] at hbegun
  · next run htask =>
    split
    · next htoken => exact .stopped htask htoken
    · next htoken => exact .resumed htask htoken
  · next h => exact .ended fun task htask => by rw [h] at htask; cases htask; rfl
  · next h => exact .ended fun task htask => by rw [h] at htask; cases htask; rfl
  · next h => exact .ended fun task htask => by rw [h] at htask; cases htask

variable {host p b i s} {run : Run} {issued : Bool}

theorem goOn_fst : (b.goOn host p i run issued s).1 =
    b.become i (.ofProgress (run.poll host p issued s).1) := by
  rw [goOn]
  rcases run.poll host p issued s with ⟨progress, notices, t⟩
  cases progress <;> rfl

/-- Going on with a run does to the ledger what the run does, and a crash is made good. -/
theorem goOn_ledger {ds : List Deed} : (b.goOn host.ledger p i run issued (s, ds)).2.2.2 =
    (run.poll host.ledger p issued (s, ds)).2.2.2 ++
      (run.poll host.ledger p issued (s, ds)).1.discards := by
  rw [goOn]
  rcases run.poll host.ledger p issued (s, ds) with ⟨progress, notices, t, ds'⟩
  cases progress with
  | finished _ | suspended _ => exact (List.append_nil ds').symm
  | crashed now => exact abandon_ledger host now t ds'

theorem did_goOn {request : Request} {token : Token} {notices : List Notice} {ds : List Deed}
    (hopen : Open p (.initial request) run issued notices ds) :
    (Task.ofProgress (run.poll host.ledger p issued (s, ds)).1).Did p request token
      (b.goOn host.ledger p i run issued (s, ds)).2.2.2 := by
  rw [goOn_ledger]
  rcases hpoll : run.poll host.ledger p issued (s, ds) with ⟨progress, later, t, ds'⟩
  have hleft := poll_left hopen hpoll
  cases progress with
  | finished result =>
    obtain ⟨xs, run', hreach, hstage, rfl⟩ := hleft
    rw [Progress.discards, List.append_nil]
    exact .done (hreach.at.transcript hstage)
  | suspended now =>
    obtain ⟨xs, call, resume, hreach, hnext, rfl⟩ := hleft
    rw [Progress.discards, List.append_nil]
    exact .running hreach hnext
  | crashed now =>
    obtain ⟨xs, call, resume, hreach, hnext, rfl⟩ := hleft
    exact .lost hreach hnext

end Poll

/-! ### Replacing a task -/

/-- One task was replaced: it hands over its result if it has ended, and the permits are as many as
before. -/
structure Replaced (b : Batch) (i : Nat) (old new : Task) (b' : Batch) : Prop where
  task : b.tasks[i]? = some old
  unfinished : old.isEnded = false
  tasks : b'.tasks = b.tasks.set i new
  free : b'.free + new.isRunning.toNat = b.free + old.isRunning.toNat
  token : b'.token = b.token
  joined : b'.joined = b.joined ++ (new.joined? i).toList

section Replaced

variable {b : Batch} {i : Nat} {request : Request} {run : Run}

theorem become_tasks (task : Task) : (b.become i task).tasks = b.tasks.set i task := by
  unfold become
  split <;> rfl

theorem become_joined (task : Task) :
    (b.become i task).joined = b.joined ++ (task.joined? i).toList := by
  unfold become
  split <;> rfl

theorem become_token (task : Task) : (b.become i task).token = b.token := by
  unfold become
  split <;> rfl

theorem become_free (task : Task) : (b.become i task).free + task.isRunning.toNat = b.free + 1 := by
  unfold become
  split
  · next h => rw [h]; rfl
  · next h => rw [Bool.eq_false_iff.mpr h]; rfl

theorem replaced_refused (htask : b.tasks[i]? = some (.waiting request)) {result : Outcome Bytes} :
    Replaced b i (.waiting request) (.settled result) (b.put i (.settled result)) :=
  ⟨htask, rfl, rfl, rfl, rfl, rfl⟩

theorem replaced_begun (htask : b.tasks[i]? = some (.waiting request)) (hfree : b.free ≠ 0)
    (task : Task) : Replaced b i (.waiting request) task (b.grant.become i task) := by
  refine ⟨htask, rfl, become_tasks _, ?_, become_token _, become_joined _⟩
  rw [become_free]
  change b.free - 1 + 1 = b.free + 0
  omega

theorem replaced_resumed (htask : b.tasks[i]? = some (.running run)) (task : Task) :
    Replaced b i (.running run) task (b.become i task) :=
  ⟨htask, rfl, become_tasks _, become_free _, become_token _, become_joined _⟩

theorem replaced_stopped (htask : b.tasks[i]? = some (.running run)) {result : Outcome Bytes} :
    Replaced b i (.running run) (.settled result) (b.settle i (.settled result)) :=
  ⟨htask, rfl, rfl, rfl, rfl, rfl⟩

/-- However a task is replaced, no permit is lost and none is given twice. -/
theorem Replaced.permits {old new : Task} {b' : Batch} (h : b.Replaced i old new b') :
    b'.free + b'.tasks.countP Task.isRunning = b.free + b.tasks.countP Task.isRunning := by
  have hfree := h.free
  obtain ⟨hi, hold⟩ := List.getElem?_eq_some_iff.mp h.task
  rw [h.tasks, List.countP_set hi, hold]
  -- the task that is replaced is counted if it holds a permit
  have hcounted : old.isRunning.toNat ≤ b.tasks.countP Task.isRunning := by
    cases hrunning : old.isRunning with
    | false => exact Nat.zero_le _
    | true => exact List.countP_pos_iff.mpr ⟨old, hold ▸ List.getElem_mem hi, hrunning⟩
  cases hrunning : old.isRunning <;> cases hnew : new.isRunning <;>
    simp only [hrunning, hnew, Bool.toNat_true, Bool.toNat_false, if_true, if_false,
      Bool.false_eq_true] at hfree hcounted ⊢ <;>
    omega

theorem Replaced.task_new {old new : Task} {b' : Batch} (h : b.Replaced i old new b') :
    b'.tasks[i]? = some new := by
  rw [h.tasks, List.getElem?_set_self (List.getElem?_eq_some_iff.mp h.task).1]

/-- What holds of the new task and of all others with their ledgers holds of all. -/
theorem Replaced.forall_tasks {old new : Task} {b' : Batch} (h : b.Replaced i old new b')
    {ledgers : Nat → List Deed} {ds : List Deed} {P : Nat → Task → List Deed → Prop}
    (hnew : P i new ds)
    (hothers : ∀ j task, j ≠ i → b.tasks[j]? = some task → P j task (ledgers j)) :
    ∀ j task, b'.tasks[j]? = some task → P j task (Function.update ledgers i ds j) := by
  intro j task htask
  by_cases hj : j = i
  · subst hj
    rw [h.task_new] at htask
    cases htask
    rwa [Function.update_self]
  · rw [h.tasks, List.getElem?_set_ne (Ne.symm hj)] at htask
    rw [Function.update_of_ne hj]
    exact hothers j task hj htask

/-- A task that did not end may be replaced again. -/
theorem Replaced.trans {old mid mid' new : Task} {b' b'' : Batch} (h : b.Replaced i old mid b')
    (h' : b'.Replaced i mid' new b'') : b.Replaced i old new b'' := by
  obtain rfl : mid = mid' := Option.some_inj.mp (h.task_new.symm.trans h'.task)
  have hjoined : mid.joined? i = none := by
    have hunfinished := h'.unfinished
    cases mid with
    | waiting _ | running _ => rfl
    | settled _ | lost => cases hunfinished
  refine ⟨h.task, h.unfinished, ?_, ?_, h'.token.trans h.token, ?_⟩
  · rw [h'.tasks, h.tasks, List.set_set]
  · have hfree := h.free
    have hfree' := h'.free
    omega
  · rw [h'.joined, h.joined, hjoined]
    simp

end Replaced

end Batch

/-! ### Scenes -/

/-- A batch, the host that it is played on, and what each of its tasks has done. -/
structure Scene (σ : Type) where
  batch : Batch
  host : σ
  ledgers : Nat → List Deed

namespace Scene

section Play

variable {σ : Type} (host : Host σ) (p : Pipeline)

/-- Before the first move. -/
def initial (b : Batch) (s : σ) : Scene σ := ⟨b, s, fun _ => []⟩

/-- Polls a task, which goes on with its ledger. -/
def poll (c : Scene σ) (i : Nat) : Scene σ :=
  let moved := c.batch.poll host.ledger p i (c.host, c.ledgers i)
  ⟨moved.1, moved.2.2.1, Function.update c.ledgers i moved.2.2.2⟩

/-- Does one move. -/
def move (c : Scene σ) : Batch.Move → Scene σ
  | .poll i => c.poll host p i
  | .cancel => { c with batch := c.batch.cancel }

/-- Does the moves of a schedule in turn. -/
def play (ms : List Batch.Move) (c : Scene σ) : Scene σ := ms.foldl (move host p) c

@[simp] theorem play_nil (c : Scene σ) : c.play host p [] = c := rfl

@[simp] theorem play_cons (m : Batch.Move) (ms : List Batch.Move) (c : Scene σ) :
    c.play host p (m :: ms) = (c.move host p m).play host p ms := rfl

theorem play_append (ms ms' : List Batch.Move) (c : Scene σ) :
    c.play host p (ms ++ ms') = (c.play host p ms).play host p ms' := List.foldl_append

end Play

/-! ### Ledgers change nothing -/

section Transparent

variable {σ : Type} (host : Host σ) (p : Pipeline)

/-- What happened, without the ledger. -/
def bare (moved : Batch.Moved (σ × List Deed)) : Batch.Moved σ :=
  (moved.1, moved.2.1, moved.2.2.1)

theorem stop_ledger (b : Batch) (i : Nat) (run : Run) (task : Task) (s : σ) (ds : List Deed) :
    bare (b.stop host.ledger i run task (s, ds)) = b.stop host i run task s := by
  unfold Batch.stop abandon
  cases run.stage.held <;> rfl

theorem goOn_ledger (b : Batch) (i : Nat) (run : Run) (issued : Bool) (s : σ) (ds : List Deed) :
    bare (b.goOn host.ledger p i run issued (s, ds)) = b.goOn host p i run issued s := by
  rw [Batch.goOn, Batch.goOn, Run.poll, Run.poll, ← advance_ledger host p _ run issued s ds]
  rcases advance host.ledger p _ run issued (s, ds) with ⟨progress, notices, t, ds'⟩
  cases progress with
  | finished _ | suspended _ => rfl
  | crashed now =>
    simp only [withoutLedger]
    rw [← stop_ledger host b i now .lost t ds']
    rfl

theorem poll_ledger (b : Batch) (i : Nat) (s : σ) (ds : List Deed) :
    bare (b.poll host.ledger p i (s, ds)) = b.poll host p i s := by
  unfold Batch.poll
  split
  · split
    · rfl
    · split
      · rfl
      · dsimp only
        rw [← goOn_ledger host p _ i _ false s ds]
        rfl
  · split
    · exact stop_ledger host b i _ _ s ds
    · exact goOn_ledger host p b i _ true s ds
  all_goals rfl

theorem move_batch (c : Scene σ) (m : Batch.Move) :
    ((c.move host p m).batch, (c.move host p m).host) =
      ((c.batch.move host p c.host m).1, (c.batch.move host p c.host m).2.2) := by
  cases m with
  | cancel => rfl
  | poll i =>
    rw [Batch.move, ← poll_ledger host p c.batch i c.host (c.ledgers i)]
    rfl

/-- A batch goes the same way with ledgers and without them. -/
theorem play_batch : ∀ (ms : List Batch.Move) (c : Scene σ),
    ((c.play host p ms).batch, (c.play host p ms).host) =
      ((c.batch.play host p ms c.host).1, (c.batch.play host p ms c.host).2.2)
  | [], _ => rfl
  | m :: ms, c => by
    have hmove := move_batch host p c m
    rw [play_cons, play_batch ms, Batch.play]
    injection hmove with hbatch hhost
    rw [hbatch, hhost]

theorem play_initial (ms : List Batch.Move) (b : Batch) (s : σ) :
    ((initial b s).play host p ms).batch = (b.play host p ms s).1 ∧
      ((initial b s).play host p ms).host = (b.play host p ms s).2.2 :=
  Prod.mk.inj (play_batch host p ms (initial b s))

end Transparent

/-! ### The invariant -/

/-- What holds of a batch for these requests, and of what its tasks have done, at every moment. -/
structure Inv {σ : Type} (p : Pipeline) (requests : List Request) (c : Scene σ) : Prop where
  /-- There are as many tasks as requests. -/
  length : c.batch.tasks.length = requests.length
  /-- No permit is lost, and none is given twice. -/
  permits : c.batch.free + c.batch.tasks.countP Task.isRunning = Batch.permits p
  /-- Each task does what is to be done for its own request. -/
  did : ∀ (i : Nat) (task : Task) (request : Request), c.batch.tasks[i]? = some task →
    requests[i]? = some request → task.Did p request c.batch.token (c.ledgers i)
  /-- What was handed over is in its place. -/
  slots : c.batch.joined.foldl Joined.store (List.replicate requests.length none) =
    c.batch.tasks.map Task.result?

namespace Inv

variable {σ : Type} {host : Host σ} {p : Pipeline} {requests : List Request} {c : Scene σ}

theorem initial {token : Token} {b : Batch} (hstart : Batch.start? p requests token = some b)
    (s : σ) : (Scene.initial b s).Inv p requests := by
  unfold Batch.start? at hstart
  split at hstart
  · cases hstart
    refine ⟨List.length_map _, ?_, fun i task request htask hrequest => ?_, ?_⟩
    · change _ + List.countP _ (requests.map Task.waiting) = _
      have hnone : requests.countP (Task.isRunning ∘ Task.waiting) = 0 :=
        List.countP_eq_zero.mpr fun _ _ => Bool.false_ne_true
      rw [List.countP_map, hnone]
      rfl
    · change (requests.map Task.waiting)[i]? = some task at htask
      rw [List.getElem?_map, hrequest] at htask
      cases htask
      exact .waiting
    · change List.replicate requests.length none = (requests.map Task.waiting).map Task.result?
      rw [List.map_map, ← List.map_const']
      rfl
  · cases hstart

theorem cancel (h : c.Inv p requests) :
    ({ c with batch := c.batch.cancel } : Scene σ).Inv p requests :=
  ⟨h.length, h.permits, fun i task request htask hrequest =>
    (h.did i task request htask hrequest).cancel, h.slots⟩

section Replace

variable {b' : Batch} {i : Nat} {old new : Task} (hreplaced : c.batch.Replaced i old new b')
include hreplaced

theorem slots_replace (h : c.Inv p requests) :
    b'.joined.foldl Joined.store (List.replicate requests.length none) =
      b'.tasks.map Task.result? := by
  rw [hreplaced.joined, hreplaced.tasks, List.foldl_append, h.slots, List.map_set]
  -- a task that has not ended has no result yet
  have hempty : (c.batch.tasks.map Task.result?)[i]? = some none := by
    rw [List.getElem?_map, hreplaced.task]
    have hunfinished := hreplaced.unfinished
    cases old with
    | waiting _ | running _ => rfl
    | settled _ | lost => cases hunfinished
  cases new with
  | settled result => rfl
  | waiting _ | running _ | lost =>
    obtain ⟨hi, hempty⟩ := List.getElem?_eq_some_iff.mp hempty
    exact ((congrArg _ hempty).symm.trans (List.set_getElem_self hi)).symm

theorem replace (h : c.Inv p requests) {t : σ} {ds : List Deed}
    (hdid : ∀ request, requests[i]? = some request → new.Did p request c.batch.token ds) :
    (⟨b', t, Function.update c.ledgers i ds⟩ : Scene σ).Inv p requests := by
  refine ⟨?_, hreplaced.permits.trans h.permits, fun j task request htask hrequest => ?_,
    slots_replace hreplaced h⟩
  · change b'.tasks.length = _
    rw [hreplaced.tasks, List.length_set, h.length]
  · rw [hreplaced.token]
    exact hreplaced.forall_tasks
      (P := fun j task ds => ∀ request, requests[j]? = some request →
        task.Did p request c.batch.token ds)
      hdid (fun j task _ htask request => h.did j task request htask) j task htask request hrequest

end Replace

theorem poll (h : c.Inv p requests) (i : Nat) : (c.poll host p i).Inv p requests := by
  have hpolled := c.batch.polled host.ledger p i (c.host, c.ledgers i)
  rw [Scene.poll]
  generalize c.batch.poll host.ledger p i (c.host, c.ledgers i) = moved at hpolled ⊢
  cases hpolled with
  | ended _ | queued _ _ _ => simpa only [Function.update_eq_self] using h
  | refused htask htoken =>
    refine h.replace (Batch.replaced_refused htask) fun request hrequest => ?_
    have hdid := h.did i _ request htask hrequest
    generalize c.ledgers i = ds at hdid
    cases hdid
    exact .refused htoken
  | begun htask htoken hfree =>
    dsimp only
    rw [Batch.goOn_fst]
    exact h.replace (Batch.replaced_begun htask hfree _) fun request hrequest =>
      Batch.did_goOn (h.did i _ request htask hrequest).openOfWaiting
  | resumed htask htoken =>
    rw [Batch.goOn_fst]
    refine h.replace (Batch.replaced_resumed htask _) fun request hrequest => ?_
    obtain ⟨notices, hopen⟩ := (h.did i _ request htask hrequest).openOfRunning
    exact Batch.did_goOn hopen
  | stopped htask htoken =>
    refine h.replace (Batch.replaced_stopped htask) fun request hrequest => ?_
    have hdid := h.did i _ request htask hrequest
    rw [Batch.stop, abandon_ledger]
    generalize c.ledgers i = ds at hdid
    cases hdid with
    | running hreach hnext => exact .stopped htoken hreach hnext

theorem move (h : c.Inv p requests) (m : Batch.Move) : (c.move host p m).Inv p requests := by
  cases m with
  | cancel => exact h.cancel
  | poll i => exact h.poll i

/-- The invariant holds after every schedule. -/
theorem play (ms : List Batch.Move) : ∀ {c : Scene σ}, c.Inv p requests →
    (c.play host p ms).Inv p requests := by
  induction ms with
  | nil => exact fun h => h
  | cons m ms ih => exact fun h => ih (h.move m)

/-- A batch has results once all of its tasks are over. -/
theorem isEnded_of_results {rs : List (Outcome Bytes)} (hresults : c.batch.results? = some rs) :
    ∀ task ∈ c.batch.tasks, task.isEnded = true := by
  unfold Batch.results? at hresults
  split at hresults
  · next hended => exact List.all_eq_true.mp hended
  · cases hresults

/-- A batch that is over has a result for every request: that of its task. -/
theorem results (h : c.Inv p requests) {rs : List (Outcome Bytes)}
    (hresults : c.batch.results? = some rs) : rs.length = requests.length ∧
      ∀ (i : Nat) (request : Request), requests[i]? = some request → ∃ task,
        c.batch.tasks[i]? = some task ∧ task.isEnded = true ∧
          rs[i]? = some (task.result?.getD (.error (.task .unfinished))) := by
  have hended := isEnded_of_results hresults
  unfold Batch.results? at hresults
  split at hresults
  · cases hresults
    rw [Joined.gather, h.length, h.slots, List.map_map]
    refine ⟨(List.length_map _).trans h.length, fun i request hrequest => ?_⟩
    have hi : i < c.batch.tasks.length := by
      rw [h.length]
      exact (List.getElem?_eq_some_iff.mp hrequest).1
    refine ⟨_, List.getElem?_eq_getElem hi, ?_, ?_⟩
    · exact hended _ (List.getElem_mem hi)
    · rw [List.getElem?_map, List.getElem?_eq_getElem hi]
      rfl
  · cases hresults

/-- So there is a verdict on every request. -/
theorem verdict (h : c.Inv p requests) {rs : List (Outcome Bytes)}
    (hresults : c.batch.results? = some rs) {i : Nat} {request : Request}
    (hrequest : requests[i]? = some request) : ∃ result, rs[i]? = some result ∧
      Batch.Verdict p request c.batch.token (c.ledgers i) (c.batch.tasks[i]? = some .lost)
        result := by
  obtain ⟨task, htask, hended, hresult⟩ := (h.results hresults).2 i request hrequest
  refine ⟨_, hresult, ?_⟩
  have hdid := h.did i task request htask hrequest
  rw [htask]
  generalize c.ledgers i = ds at hdid
  cases hdid with
  | waiting | running _ _ => cases hended
  | done h => exact .ran h rfl (fun hlost => nomatch hlost)
  | refused htoken => exact .cancelled htoken (fun hlost => nomatch hlost)
  | stopped htoken _ _ => exact .cancelled htoken (fun hlost => nomatch hlost)
  | lost _ _ => exact .unfinished rfl

/-- Every result is the verdict on some request. -/
theorem verdict_of_mem (h : c.Inv p requests) {rs : List (Outcome Bytes)}
    (hresults : c.batch.results? = some rs) {result : Outcome Bytes} (hmem : result ∈ rs) :
    ∃ i request, requests[i]? = some request ∧
      Batch.Verdict p request c.batch.token (c.ledgers i) (c.batch.tasks[i]? = some .lost)
        result := by
  obtain ⟨i, hi⟩ := List.mem_iff_getElem?.mp hmem
  have hlt : i < requests.length :=
    (h.results hresults).1 ▸ (List.getElem?_eq_some_iff.mp hi).1
  have hrequest := List.getElem?_eq_getElem hlt
  obtain ⟨result', hresult, hverdict⟩ := h.verdict hresults hrequest
  obtain rfl := Option.some_inj.mp (hi.symm.trans hresult)
  exact ⟨i, _, hrequest, hverdict⟩

end Inv

end Scene

end StubLoader
