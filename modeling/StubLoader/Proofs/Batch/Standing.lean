import StubLoader.Proofs.Batch.Twins
import StubLoader.Proofs.Path.Names
/-!
# Standing among others

Where a run of a batch on a sandboxed host stands, and what it has of the disk. Every answer moves
it on and its claim with it, whatever the other runs of the batch claim; so what it reads is in its
own directory, and its result is the one that it would have had alone.
-/

namespace StubLoader

open Run

namespace Run

/-! ### The directory of a run -/

section Held

variable {w : Path} {run : Run}

/-- A step leads to a run that holds the directory. -/
def Holding (w : Path) (step : Step) : Prop := step.1.stage.held = some w

theorem holding_reach {target : RunState} {refuse : Failure → Step} {next : Run → Step}
    (hrefuse : ∀ e, Holding w (refuse e)) (hnext : ∀ run, Holding w (next run)) :
    Holding w (run.reach target refuse next) := by
  unfold reach
  split_ifs
  · exact hnext _
  · exact hrefuse _

variable (p : Pipeline)

theorem holding_created : Holding w (run.created p (.ok w)) := by
  refine holding_reach (fun _ => rfl) fun run => ?_
  split
  · rfl
  · rfl

theorem Along.holding {stage : Stage} {step : Step} (h : Along stage step)
    (hheld : stage.held = some w) (hcalls : 1 < stage.remaining) : Holding w step :=
  Stage.Way.held h hheld hcalls

end Held

end Run

/-! ### What runs read -/

namespace Run

section Reading

variable {σ : Type} {host : Host σ} {p : Pipeline} {disk : Disk σ} {request : Request} {w : Path}
  {contents : Contents} {xs : List Exchange} {run : Run} {call : Call}
  {resume : call.Answer → Step}

/-- The path leads by names from the directory. -/
def Leads (w path : Path) : Prop := ∃ names : List Bytes,
  (∀ s ∈ names, (Path.Component.name s).WellFormed) ∧
    path.components = w.components ++ names.map .name

theorem Leads.isUnder {path : Path} (h : Leads w path) : w.components <+: path.components := by
  obtain ⟨names, -, heq⟩ := h
  rw [heq]
  exact List.prefix_append ..

theorem Lived.creation (h : Lived host p disk request w contents xs run) :
    ∃ s t, disk.valid s ∧ host.Answered p.creating s (.ok w) t := by
  induction h with
  | created hs h => exact ⟨_, _, hs, h⟩
  | step _ _ _ ih => exact ih

/-- A run with a directory asks for no other one, and what it reads is in its own. -/
theorem Lived.next (h : Lived host p disk request w contents xs run)
    (hnext : run.next p = .asks call resume) :
    (∀ root label, call ≠ .createWorkspace root label) ∧
      ∀ path, call = .loadFile path → Leads w path := by
  obtain ⟨notices, hreach⟩ := h.reaches
  obtain ⟨later, hhead⟩ := h.head
  have hat := hreach.at
  rw [hhead] at hat
  cases hat with
  | findCompiler _ | findPlugin _ | compile _ | release _ _ =>
    cases hnext
    exact ⟨fun _ _ => Call.noConfusion, fun _ => Call.noConfusion⟩
  | read _ _ _ hmodule =>
    cases hnext
    refine ⟨fun _ _ => Call.noConfusion, fun path hpath => ?_⟩
    cases hpath
    exact ⟨_, Path.wellFormed_of_mem_segments hmodule request.mode,
      Path.components_generated hmodule request.mode w⟩
  | ended _ => cases hnext

theorem gives?_answered (hcall : ∀ root label, call ≠ .createWorkspace root label)
    (answer : call.Answer) : Deed.gives? (.answered ⟨call, answer⟩) = none := by
  cases call with
  | createWorkspace root label => exact absurd rfl (hcall root label)
  | _ => rfl

theorem Lived.gives (h : Lived host p disk request w contents xs run) :
    (ledgerOf xs).filterMap Deed.gives? = [w] := by
  induction h with
  | created _ _ => rfl
  | step h hnext _ ih =>
    rw [ledgerOf_concat, List.filterMap_append, ih, List.filterMap_cons_none rfl,
      List.filterMap_cons_none (gives?_answered (h.next hnext).1 _)]
    rfl

theorem Lived.loads (h : Lived host p disk request w contents xs run) {path : Path}
    (hpath : .asked (.loadFile path) ∈ ledgerOf xs) : Leads w path := by
  induction h with
  | created _ _ => simp [ledgerOf, Pipeline.creating] at hpath
  | step h hnext _ ih =>
    rw [ledgerOf_concat] at hpath
    rcases List.mem_append.mp hpath with hpath | hpath
    · exact ih hpath
    · simp only [List.mem_cons, Deed.asked.injEq, reduceCtorEq, List.not_mem_nil, or_false] at hpath
      exact (h.next hnext).2 path hpath.symm

end Reading

end Run

/-! ### Where the runs stand -/

section Stands

variable {σ : Type} {host : Host σ} {p : Pipeline} {disk : Disk σ} {request : Request}

variable (host p disk request) in
/-- A run for the request stands here, with its claim on the disk. -/
inductive Stands : Claim → List Exchange → Run → Prop where
  | fresh : Stands .none [] (.initial request)
  | failed {s t : σ} {e : IoError} (hs : disk.valid s)
    (h : host.Answered p.creating s (.error e) t) :
    Stands .none [⟨p.creating, .error e⟩] ((Run.initial request).created p (.error e)).1
  | working {w : Path} {contents : Contents} {xs : List Exchange} {run : Run}
    (h : Lived host p disk request w contents xs run) (hheld : run.stage.held = some w) :
    Stands (.holds w contents) xs run
  | ended {w : Path} {contents : Contents} {xs : List Exchange} {run : Run}
    {result : Outcome Bytes} (h : Lived host p disk request w contents xs run)
    (hended : run.stage = .ended result) : Stands (.gone w) xs run

variable {s₀ s t : σ} {claims : Nat → Claim} {i : Nat} {claim : Claim} {xs : List Exchange}
  {run : Run}

/-- Every answer moves a run with a directory on, and what its directory holds with it. -/
theorem Stands.answered_working (hhost : host.Sandboxed p disk) {w : Path} {contents : Contents}
    (h : Lived host p disk request w contents xs run) (hheld : run.stage.held = some w)
    (hlaid : disk.Laid s₀ (Function.update claims i (.holds w contents)) s) {call : Call}
    {resume : call.Answer → Step} (hnext : run.next p = .asks call resume) {answer : call.Answer}
    (hanswered : host.Answered call s answer t) : ∃ claim',
      Stands host p disk request claim' (xs ++ [⟨call, answer⟩]) (resume answer).1 ∧
        disk.Laid s₀ (Function.update claims i claim') t := by
  have hclaim : Function.update claims i (.holds w contents) i = .holds w contents :=
    Function.update_self ..
  have hturn : Turn host disk w contents s answer t :=
    ⟨hlaid.valid, hlaid.holds_of_claim hclaim, hlaid.holds i w contents hclaim, hanswered⟩
  have hlived := h.step hnext hturn
  have halong := along_next hnext answer
  have unchanged : disk.Same s t → (resume answer).1.stage.held = some w → ∃ claim',
      Stands host p disk request claim' (xs ++ [⟨call, answer⟩]) (resume answer).1 ∧
        disk.Laid s₀ (Function.update claims i claim') t := by
    intro hsame hheld'
    rw [(hsame.below w).trans hturn.below] at hlived
    exact ⟨_, .working hlived hheld', hlaid.same hsame⟩
  obtain ⟨given, state, stage⟩ := run
  cases stage with
  | create => cases hheld
  | findCompiler v base =>
    cases hheld
    cases hnext
    exact unchanged (hhost.finds hturn.valid hanswered)
      (halong.holding rfl (by simp [Stage.remaining]))
  | findPlugin v base compiler =>
    cases hheld
    cases hnext
    exact unchanged (hhost.finds hturn.valid hanswered)
      (halong.holding rfl (by simp [Stage.remaining]))
  | compile v base compiler plugin =>
    cases hheld
    cases hnext
    have hlaid' := hlaid.written hclaim (hhost.compiles hturn.valid hturn.holds hanswered)
    rw [Function.update_idem] at hlaid'
    exact ⟨_, .working hlived (halong.holding rfl (by simp [Stage.remaining])), hlaid'⟩
  | read v modulePath =>
    cases hheld
    cases hnext
    exact unchanged (hhost.loads hturn.valid hturn.holds hanswered)
      (halong.holding rfl (by simp [Stage.remaining]))
  | release v outcome =>
    cases hheld
    cases hnext
    have hlaid' := hlaid.removed hclaim (hhost.removes hturn.valid hturn.holds hanswered)
    rw [Function.update_idem] at hlaid'
    obtain ⟨result, hended⟩ := halong.of_release
    exact ⟨_, .ended hlived hended, hlaid'⟩
  | ended result => cases hheld

/-- Every answer moves a run on, and its claim with it. -/
theorem Stands.answered (hhost : host.Sandboxed p disk)
    (h : Stands host p disk request claim xs run)
    (hlaid : disk.Laid s₀ (Function.update claims i claim) s) {call : Call}
    {resume : call.Answer → Step} (hnext : run.next p = .asks call resume) {answer : call.Answer}
    (hanswered : host.Answered call s answer t) : ∃ claim',
      Stands host p disk request claim' (xs ++ [⟨call, answer⟩]) (resume answer).1 ∧
        disk.Laid s₀ (Function.update claims i claim') t := by
  cases h with
  | fresh =>
    cases hnext
    cases answer with
    | error e =>
      exact ⟨.none, .failed hlaid.valid hanswered, hlaid.same (hhost.refuses hlaid.valid hanswered)⟩
    | ok w =>
      have hlaid' := hlaid.created (Function.update_self ..)
        (hhost.creates hlaid.valid hanswered)
      rw [Function.update_idem] at hlaid'
      exact ⟨_, .working (.created hlaid.valid hanswered) (holding_created p), hlaid'⟩
  | failed _ _ => cases hnext
  | working hlived hheld => exact answered_working hhost hlived hheld hlaid hnext hanswered
  | ended _ hended =>
    rw [next, hended] at hnext
    cases hnext

/-! ### One task among others -/

variable (host p disk request s₀ claims i) in
/-- A run stands here beside the claims of other tasks, and these are its deeds. -/
structure Beside (xs : List Exchange) (run : Run) (issued : Bool) (s : σ × List Deed) : Prop where
  stands : ∃ claim, Stands host p disk request claim xs run ∧
    disk.Laid s₀ (Function.update claims i claim) s.1
  written : Written p xs run issued s.2

theorem ask_of_ledger {issued : Bool} {call : Call} {reply : Reply call.Answer}
    {s t : σ × List Deed} (h : host.ledger.ask issued call s = (reply, t)) :
    host.ask issued call s.1 = (reply, t.1) := by
  obtain ⟨s, ds⟩ := s
  rw [Host.ask_ledger] at h
  cases h
  rfl

theorem keptByAsking_beside (hhost : host.Sandboxed p disk) : KeptByAsking host.ledger p
    fun xs _ run issued s => Beside host p disk request s₀ claims i xs run issued s where
  pending h hnext hask := by
    obtain ⟨claim, hstands, hlaid⟩ := h.stands
    exact ⟨⟨claim, hstands, hlaid.same (hhost.waits hlaid.valid (ask_of_ledger hask))⟩,
      h.written.pending hnext hask⟩
  now h hnext hask := by
    obtain ⟨claim, hstands, hlaid⟩ := h.stands
    exact ⟨hstands.answered hhost hlaid hnext ⟨_, ask_of_ledger hask⟩,
      h.written.now hnext hask⟩

variable (host p disk request) in
/-- A task stands here, with its claim on the disk and its deeds. -/
inductive Placed : Claim → List Deed → Task → Prop where
  | waiting : Placed .none [] (.waiting request)
  | running {claim : Claim} {xs : List Exchange} {run : Run} {call : Call}
    {resume : call.Answer → Step} (h : Stands host p disk request claim xs run)
    (hnext : run.next p = .asks call resume) :
    Placed claim (ledgerOf xs ++ [.asked call]) (.running run)
  | settled {claim : Claim} {xs : List Exchange} {run : Run} {result : Outcome Bytes}
    (h : Stands host p disk request claim xs run) (hended : run.stage = .ended result) :
    Placed claim (ledgerOf xs) (.settled result)

/-- Where a run is left after it was polled. -/
theorem placed_of_kept (hhost : host.Sandboxed p disk) {notices : List Notice} {ds : List Deed}
    {progress : Progress} (h : Kept host.ledger p
      (fun xs _ run issued s => Beside host p disk request s₀ claims i xs run issued s)
      notices (t, ds) progress) : ∃ claim,
    Placed host p disk request claim ds (.ofProgress progress) ∧
      disk.Laid s₀ (Function.update claims i claim) t := by
  cases progress with
  | finished result =>
    obtain ⟨xs, run, issued, ⟨⟨claim, hstands, hlaid⟩, hds⟩, hended⟩ := h
    rw [show ds = ledgerOf xs from hds.ended hended]
    exact ⟨claim, .settled hstands hended, hlaid⟩
  | suspended run =>
    obtain ⟨xs, call, resume, ⟨⟨claim, hstands, hlaid⟩, hds⟩, hnext⟩ := h
    rw [show ds = ledgerOf xs ++ [.asked call] from hds.asked hnext]
    exact ⟨claim, .running hstands hnext, hlaid⟩
  | crashed run =>
    obtain ⟨xs, call, resume, issued, s, ⟨⟨claim, -, hlaid⟩, -⟩, -, hask⟩ := h
    exact absurd (congrArg Prod.fst (ask_of_ledger hask)) (hhost.reliable hlaid.valid)

theorem placed_goOn (hhost : host.Sandboxed p disk) (b : Batch) {issued : Bool} {ds : List Deed}
    (h : Beside host p disk request s₀ claims i xs run issued (s, ds)) : ∃ claim,
      Placed host p disk request claim (b.goOn host.ledger p i run issued (s, ds)).2.2.2
          (.ofProgress (run.poll host.ledger p issued (s, ds)).1) ∧
        disk.Laid s₀ (Function.update claims i claim)
          (b.goOn host.ledger p i run issued (s, ds)).2.2.1 := by
  rcases hpoll : run.poll host.ledger p issued (s, ds) with ⟨progress, notices, t, ds'⟩
  have hkept : Kept host.ledger p
      (fun xs _ run issued s => Beside host p disk request s₀ claims i xs run issued s)
      ([] ++ notices) (t, ds') progress := poll_invariant (keptByAsking_beside hhost) h hpoll
  obtain ⟨claim, hplaced, hlaid⟩ := placed_of_kept hhost hkept
  rw [Batch.goOn, hpoll]
  cases progress with
  | finished _ | suspended _ => exact ⟨claim, hplaced, hlaid⟩
  | crashed _ => cases hplaced

/-! ### What tasks have done -/

/-- The directory that a run was given is the one that its claim is about. -/
theorem Stands.gives (h : Stands host p disk request claim xs run) :
    (ledgerOf xs).filterMap Deed.gives? = claim.path?.toList := by
  cases h with
  | fresh | failed _ _ => rfl
  | working h _ | ended h _ => exact h.gives

/-- What a run reads is in the directory that its claim is about. -/
theorem Stands.loads (h : Stands host p disk request claim xs run) {path : Path}
    (hpath : .asked (.loadFile path) ∈ ledgerOf xs) : ∃ w, claim.path? = some w ∧ Leads w path := by
  cases h with
  | fresh => cases hpath
  | failed _ _ => simp [ledgerOf, Pipeline.creating] at hpath
  | working h _ | ended h _ => exact ⟨_, rfl, h.loads hpath⟩

theorem Stands.next (h : Stands host p disk request claim xs run) {path : Path}
    {resume : Except IoError Bytes → Step} (hnext : run.next p = .asks (.loadFile path) resume) :
    ∃ w, claim.path? = some w ∧ Leads w path := by
  cases h with
  | fresh => cases hnext
  | failed _ _ => cases hnext
  | working h _ | ended h _ => exact ⟨_, rfl, (h.next hnext).2 path rfl⟩

variable {ds : List Deed} {task : Task}

theorem Placed.gives (h : Placed host p disk request claim ds task) :
    ds.filterMap Deed.gives? = claim.path?.toList := by
  cases h with
  | waiting => rfl
  | running h _ =>
    rw [List.filterMap_append, h.gives]
    exact List.append_nil _
  | settled h _ => exact h.gives

theorem Placed.loads (h : Placed host p disk request claim ds task) {path : Path}
    (hpath : .asked (.loadFile path) ∈ ds) : ∃ w, claim.path? = some w ∧ Leads w path := by
  cases h with
  | waiting => cases hpath
  | running h hnext =>
    rcases List.mem_append.mp hpath with hpath | hpath
    · exact h.loads hpath
    · cases List.mem_singleton.mp hpath
      exact h.next hnext
  | settled h _ => exact h.loads hpath

/-- A task that is over has nothing any more. -/
theorem Placed.not_holds (h : Placed host p disk request claim ds task)
    (hover : task.isEnded = true) (w : Path) (contents : Contents) :
    claim ≠ .holds w contents := by
  rintro rfl
  cases h with
  | running _ _ => cases hover
  | settled h hended =>
    cases h with
    | working _ hheld =>
      rw [hended] at hheld
      cases hheld

/-! ### The same result -/

/-- Two runs with these deeds have the same result, but for the names of the directories that they
were given. -/
def SameResult (ds ds' : List Deed) (result result' : Outcome Bytes) : Prop :=
  result = result' ∨ ∃ w ∈ ds.filterMap Deed.gives?, ∃ w' ∈ ds'.filterMap Deed.gives?,
    SameOutcome w w' result result'

theorem Stands.sameResult (hhost : host.Sandboxed p disk) {claim' : Claim} {xs' : List Exchange}
    {run' : Run} {result result' : Outcome Bytes} (h : Stands host p disk request claim xs run)
    (hended : run.stage = .ended result) (h' : Stands host p disk request claim' xs' run')
    (hended' : run'.stage = .ended result') :
    SameResult (ledgerOf xs) (ledgerOf xs') result result' := by
  cases h with
  | fresh => cases hended
  | working _ hheld => rw [hended] at hheld; cases hheld
  | failed hs h =>
    cases h' with
    | fresh => cases hended'
    | working _ hheld => rw [hended'] at hheld; cases hheld
    | failed hs' h' =>
      obtain ⟨w, w', hw, -⟩ | ⟨e, he, he'⟩ := hhost.sameCreation hs hs' h h'
      · cases hw
      · cases he
        cases he'
        exact .inl (Stage.ended.inj (hended.symm.trans hended'))
    | ended h' _ =>
      obtain ⟨s', t', hs', h'⟩ := h'.creation
      obtain ⟨w, w', hw, -⟩ | ⟨e, -, he⟩ := hhost.sameCreation hs hs' h h'
      · cases hw
      · cases he
  | ended h _ =>
    cases h' with
    | fresh => cases hended'
    | working _ hheld => rw [hended'] at hheld; cases hheld
    | failed hs' h' =>
      obtain ⟨s, t, hs, h⟩ := h.creation
      obtain ⟨w, w', -, hw⟩ | ⟨e, he, -⟩ := hhost.sameCreation hs hs' h h'
      · cases hw
      · cases he
    | ended h' _ =>
      refine .inr ⟨_, ?_, _, ?_, h.sameOutcome hhost hended h' hended'⟩
      · rw [h.gives]
        exact List.mem_singleton_self _
      · rw [h'.gives]
        exact List.mem_singleton_self _

/-- A run that is alone stands somewhere when it is over. -/
theorem exists_stands (hhost : host.Sandboxed p disk) (hs : disk.valid s) {again : Nat}
    {notices : List Notice} {result : Outcome Bytes}
    (h : p.drive host request again s = (.finished result, notices, t)) : ∃ claim xs run,
      Stands host p disk request claim xs run ∧ run.stage = .ended result ∧
        p.drive host.ledger request again (s, []) =
          (.finished result, notices, t, ledgerOf xs) := by
  obtain ⟨ds, hds⟩ := exists_ledger h
  obtain ⟨later, hpolls⟩ := Pipeline.drive_eq_finished p request hds
  have hbeside : Beside host p disk request s (fun _ => .none) 0 [] (.initial request) false
      (s, []) := by
    refine ⟨⟨.none, .fresh, ?_⟩, rfl⟩
    rw [Function.update_eq_self]
    exact .initial hs
  have hkept : Kept host.ledger p (fun xs _ run issued s' =>
      Beside host p disk request s (fun _ => .none) 0 xs run issued s') ([] ++ later) (t, ds)
      (.finished result) := polls_invariant (keptByAsking_beside hhost) hbeside hpolls
  obtain ⟨xs, run, issued, ⟨⟨claim, hstands, -⟩, hwritten⟩, hended⟩ := hkept
  exact ⟨claim, xs, run, hstands, hended, by rw [hds, show ds = _ from hwritten.ended hended]⟩

/-- A run that is alone comes to its end if the host answers every call in the end. -/
theorem exists_alone (hhost : host.Sandboxed p disk)
    (hsettles : ∀ call s, disk.valid s → host.Settles call false s) (hs : disk.valid s) :
    ∃ again result notices t,
      p.drive host request again s = (.finished result, notices, t) := by
  have hlaid : disk.Laid s (Function.update (fun _ => .none) 0 .none) s := by
    rw [Function.update_eq_self]
    exact .initial hs
  obtain ⟨again, result, notices, t, hpolls⟩ :=
    exists_polls_of (p := p) (K := fun run s' => ∃ claim xs,
      Stands host p disk request claim xs run ∧
        disk.Laid s (Function.update (fun _ => .none) 0 claim) s')
      (fun ⟨_, _, _, hlaid⟩ _ => hsettles _ _ hlaid.valid)
      (fun ⟨claim, xs, hstands, hlaid⟩ _ hask =>
        ⟨claim, xs, hstands, hlaid.same (hhost.waits hlaid.valid hask)⟩)
      (fun ⟨_, _, hstands, hlaid⟩ hnext hask => by
        obtain ⟨claim', hstands', hlaid'⟩ := hstands.answered hhost hlaid hnext ⟨_, hask⟩
        exact ⟨claim', _, hstands', hlaid'⟩)
      (.initial request) s ⟨.none, [], .fresh, hlaid⟩
  exact ⟨again, result, .event .started :: notices, t, by rw [Pipeline.drive, hpolls]⟩

end Stands

end StubLoader
