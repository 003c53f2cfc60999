import StubLoader.Proofs.Run.Transcript
/-!
# Cleanup

A run that was given a directory has it removed, and no other, wherever it is given up: while its
directory is being made, in the middle of its work, or while it waits for the removal. `Tidy` says
so of the deeds in a ledger, and `Pipeline.lifetime` is a run together with its giving up.
-/

namespace StubLoader

namespace Deed

/-- The directory that the deed gives to the run. -/
def gives? : Deed → Option Path
  | .answered ⟨.createWorkspace .., .ok w⟩ => some w
  | _ => none

/-- The directory that the deed is to remove, whether the run waits for that or not. -/
def removes? : Deed → Option Path
  | .asked (.removeWorkspace w) | .discarded w => some w
  | _ => none

/-- Whether the deed is a call. -/
def isCall : Deed → Bool
  | .asked _ | .discarded _ => true
  | .answered _ => false

/-- Whether a program is run or a file read. -/
def isUse : Deed → Bool
  | .asked (.runProcess ..) | .asked (.loadFile _) => true
  | _ => false

/-- Whether a removal is asked for that the run waits for. -/
def isRelease : Deed → Bool
  | .asked (.removeWorkspace _) => true
  | _ => false

/-- Whether such a removal is answered. -/
def isReleased : Deed → Bool
  | .answered ⟨.removeWorkspace _, _⟩ => true
  | _ => false

/-- Whether a directory is removed without waiting. -/
def isDiscard : Deed → Bool
  | .discarded _ => true
  | _ => false

end Deed

/-- The deeds of a run that leaves nothing behind and takes nothing else away. -/
structure Tidy (ds : List Deed) : Prop where
  /-- At most one directory is given. -/
  single : (ds.filterMap Deed.gives?).length ≤ 1
  /-- Without a directory nothing is removed. -/
  nothing : ds.filterMap Deed.gives? = [] → ds.filterMap Deed.removes? = []
  /-- The last call removes the directory. -/
  last : ∀ w ∈ ds.filterMap Deed.gives?,
    (ds.filter Deed.isCall).getLast?.bind Deed.removes? = some w
  /-- No other directory is removed. -/
  own : ∀ w ∈ ds.filterMap Deed.gives?, ∀ v ∈ ds.filterMap Deed.removes?, v = w
  /-- Nothing is run or read after a removal. -/
  unused : ds.Pairwise fun d later => d.removes?.isSome → later.isUse = false
  /-- The run asks for a removal at most once. -/
  once : ds.countP Deed.isRelease ≤ 1
  /-- A directory is discarded once, unless its removal was answered, and then never. -/
  discarded : ∀ w ∈ ds.filterMap Deed.gives?,
    ds.countP Deed.isDiscard = if ds.any Deed.isReleased then 0 else 1

/-! ### Deeds that matter -/

/-- The deed neither gives a directory nor has to do with its removal. -/
structure Deed.Plain (d : Deed) : Prop where
  gives : d.gives? = none
  removes : d.removes? = none
  released : d.isReleased = false

namespace Deed.Plain

variable {d : Deed}

theorem isRelease (h : d.Plain) : d.isRelease = false := by
  cases d with
  | asked call => cases call with
    | removeWorkspace w => exact absurd h.removes (by simp [removes?])
    | _ => rfl
  | _ => rfl

theorem isDiscard (h : d.Plain) : d.isDiscard = false := by
  cases d with
  | discarded w => exact absurd h.removes (by simp [removes?])
  | _ => rfl

end Deed.Plain

section Plain

variable {ds : List Deed} (h : ∀ d ∈ ds, d.Plain)
include h

theorem gives_plain : ds.filterMap Deed.gives? = [] :=
  List.filterMap_eq_nil_iff.mpr fun d hd => (h d hd).gives

theorem removes_plain : ds.filterMap Deed.removes? = [] :=
  List.filterMap_eq_nil_iff.mpr fun d hd => (h d hd).removes

theorem releases_plain : ds.countP Deed.isRelease = 0 :=
  List.countP_eq_zero.mpr fun d hd => by simp [(h d hd).isRelease]

theorem discards_plain : ds.countP Deed.isDiscard = 0 :=
  List.countP_eq_zero.mpr fun d hd => by simp [(h d hd).isDiscard]

theorem released_plain : ds.any Deed.isReleased = false :=
  List.any_eq_false.mpr fun d hd => by simp [(h d hd).released]

theorem unused_plain {later : List Deed}
    (hlater : later.Pairwise fun d later => d.removes?.isSome → later.isUse = false) :
    (ds ++ later).Pairwise fun d later => d.removes?.isSome → later.isUse = false := by
  have hnothing : ∀ d ∈ ds, ¬d.removes?.isSome := fun d hd => by simp [(h d hd).removes]
  refine List.pairwise_append.mpr ⟨?_, hlater, ?_⟩
  · exact List.pairwise_of_forall_mem_list fun d hd _ _ hsome => absurd hsome (hnothing d hd)
  · exact fun d hd _ _ hsome => absurd hsome (hnothing d hd)

theorem tidy_plain : Tidy ds where
  single := by simp [gives_plain h]
  nothing _ := removes_plain h
  last w hw := by simp [gives_plain h] at hw
  own w hw := by simp [gives_plain h] at hw
  unused := by simpa using unused_plain h .nil
  once := by simp [releases_plain h]
  discarded w hw := by simp [gives_plain h] at hw

end Plain

/-- The end of a run that was given the directory: its removal with the answer, or its discarding,
also when the answer to its removal is outstanding. -/
inductive Ending (w : Path) : List Deed → Prop where
  | released (answer : Except IoError Unit) :
    Ending w [.asked (.removeWorkspace w), .answered ⟨.removeWorkspace w, answer⟩]
  | discarded : Ending w [.discarded w]
  | interrupted : Ending w [.asked (.removeWorkspace w), .discarded w]

namespace Ending

variable {w : Path} {ds : List Deed} (h : Ending w ds)
include h

theorem gives : ds.filterMap Deed.gives? = [] := by cases h <;> rfl

theorem removes : ∀ v ∈ ds.filterMap Deed.removes?, v = w := by
  cases h <;> simp [List.filterMap_cons, Deed.removes?]

theorem last : ∃ d, (ds.filter Deed.isCall).getLast? = some d ∧ d.removes? = some w := by
  cases h <;> exact ⟨_, rfl, rfl⟩

theorem unused : ds.Pairwise fun d later => d.removes?.isSome → later.isUse = false := by
  cases h <;> simp [Deed.isUse]

theorem once : ds.countP Deed.isRelease ≤ 1 := by
  cases h <;> simp [List.countP_cons, Deed.isRelease]

theorem discards : ds.countP Deed.isDiscard = if ds.any Deed.isReleased then 0 else 1 := by
  cases h <;> rfl

end Ending

/-- Between the gift of a directory and the end of the run nothing need be known of the deeds but
that they are plain. -/
theorem tidy_ending (root : Path) (label : String) {w : Path} {ds ending : List Deed}
    (h : ∀ d ∈ ds, d.Plain) (hending : Ending w ending) :
    Tidy (.asked (.createWorkspace root label) ::
      .answered ⟨.createWorkspace root label, .ok w⟩ :: (ds ++ ending)) := by
  have hgives : (Deed.asked (.createWorkspace root label) ::
      .answered ⟨.createWorkspace root label, .ok w⟩ :: (ds ++ ending)).filterMap Deed.gives? =
        [w] := by
    simp [List.filterMap_cons, gives_plain h, hending.gives, Deed.gives?]
  refine ⟨?_, ?_, ?_, ?_, ?_, ?_, ?_⟩
  · simp [hgives]
  · simp [hgives]
  · obtain ⟨d, hlast, hremoves⟩ := hending.last
    simp [hgives, List.filter_cons, List.getLast?_cons, List.getLast?_append, Deed.isCall, hlast,
      hremoves]
  · simpa [hgives, List.filterMap_cons, removes_plain h, Deed.removes?] using hending.removes
  · exact .cons (fun _ _ => nofun) (.cons (fun _ _ => nofun) (unused_plain h hending.unused))
  · simpa [List.countP_cons, releases_plain h, Deed.isRelease] using hending.once
  · simpa [hgives, List.countP_cons, discards_plain h, released_plain h, Deed.isDiscard,
      Deed.isReleased] using hending.discards

/-! ### Runs that are given up -/

/-- The exchange is neither about the making of a directory nor about its removal. -/
def Exchange.Plain (x : Exchange) : Prop :=
  match x.call with
  | .createWorkspace .. | .removeWorkspace _ => False
  | .findExecutable _ | .runProcess .. | .loadFile _ => True

theorem plain_asked {call : Call} (answer : call.Answer) (h : Exchange.Plain ⟨call, answer⟩) :
    (Deed.asked call).Plain := by
  cases call with
  | createWorkspace _ _ | removeWorkspace _ => exact h.elim
  | _ => exact ⟨rfl, rfl, rfl⟩

theorem plain_answered {x : Exchange} (h : x.Plain) : (Deed.answered x).Plain := by
  rcases x with ⟨call, answer⟩
  cases call with
  | createWorkspace _ _ | removeWorkspace _ => exact h.elim
  | _ => exact ⟨rfl, rfl, rfl⟩

theorem plain_ledgerOf {xs : List Exchange} (h : ∀ x ∈ xs, x.Plain) :
    ∀ d ∈ ledgerOf xs, d.Plain := by
  intro d hd
  obtain ⟨x, hx, hd⟩ := List.mem_flatMap.mp hd
  simp only [List.mem_cons, List.not_mem_nil, or_false] at hd
  rcases hd with rfl | rfl
  · exact plain_asked x.answer (h x hx)
  · exact plain_answered (h x hx)

open Exchange

variable {p : Pipeline} {request : Request}

theorem Middle.plain {w : Path} {xs : List Exchange} {outcome : Outcome Bytes}
    (h : Middle p request w xs outcome) : ∀ x ∈ xs, x.Plain := by
  cases h <;> simp [lookup, compilation, reading, Exchange.Plain]

/-- A directory was given, and since then only plain things happened. -/
theorem tidy_created {w : Path} {xs : List Exchange} {ds ending : List Deed}
    (hxs : ∀ x ∈ xs, x.Plain) (hds : ∀ d ∈ ds, d.Plain) (hending : Ending w ending) :
    Tidy (ledgerOf (creation p (.ok w) :: xs) ++ (ds ++ ending)) := by
  have hplain : ∀ d ∈ ledgerOf xs ++ ds, d.Plain := by
    intro d hd
    rcases List.mem_append.mp hd with hd | hd
    · exact plain_ledgerOf hxs d hd
    · exact hds d hd
  have htidy := tidy_ending (p.settings.scratchRoot p.temp) p.settings.workspaceLabel hplain hending
  rwa [List.append_assoc] at htidy

theorem Transcript.tidy {xs : List Exchange} {result : Outcome Bytes}
    (h : Transcript p request xs result) : Tidy (ledgerOf xs) := by
  cases h with
  | notCreated e =>
    refine tidy_plain fun d hd => ?_
    simp only [ledgerOf, List.flatMap_cons, List.flatMap_nil, List.append_nil, List.mem_cons,
      List.not_mem_nil, or_false] at hd
    rcases hd with rfl | rfl <;> exact ⟨rfl, rfl, rfl⟩
  | @created w xs _ h answer =>
    rw [← List.cons_append, ledgerOf_concat]
    exact tidy_created h.plain (List.forall_mem_nil _) (.released answer)

namespace Run

/-- A run that waits for an answer is tidy if its directory is discarded. -/
theorem At.tidy {xs : List Exchange} {run : Run} {call : Call} {resume : call.Answer → Step}
    (h : At p request xs run) (hnext : run.next p = .asks call resume) :
    Tidy (ledgerOf xs ++ ([.asked call] ++ (run.stage.held.map Deed.discarded).toList)) := by
  have hwork {w : Path} {xs : List Exchange} {call : Call} (hxs : ∀ x ∈ xs, x.Plain)
      (hcall : (Deed.asked call).Plain) :
      Tidy (ledgerOf (creation p (.ok w) :: xs) ++ ([.asked call] ++ [.discarded w])) :=
    tidy_created hxs (fun d hd => List.mem_singleton.mp hd ▸ hcall) .discarded
  cases h with
  | create =>
    cases hnext
    refine tidy_plain fun d hd => ?_
    rw [List.mem_singleton.mp hd]
    exact ⟨rfl, rfl, rfl⟩
  | findCompiler hbase =>
    cases hnext
    exact hwork (by simp) ⟨rfl, rfl, rfl⟩
  | findPlugin hbase =>
    cases hnext
    exact hwork (by simp [lookup, Exchange.Plain]) ⟨rfl, rfl, rfl⟩
  | compile hbase =>
    cases hnext
    exact hwork (by simp [lookup, Exchange.Plain]) ⟨rfl, rfl, rfl⟩
  | read hbase hexit hunder hmodule =>
    cases hnext
    exact hwork (by simp [lookup, compilation, Exchange.Plain]) ⟨rfl, rfl, rfl⟩
  | @release w _ _ _ h hok =>
    cases hnext
    have htidy := tidy_created (p := p) (w := w) h.plain (List.forall_mem_nil _) .interrupted
    exact htidy
  | ended h => cases hnext

/-- Giving a run up discards the directory that it holds. -/
theorem abandon_ledger {σ : Type} (host : Host σ) (run : Run) (s : σ) (ds : List Deed) :
    (run.abandon host.ledger (s, ds)).2.2 = ds ++ (run.stage.held.map Deed.discarded).toList := by
  unfold abandon
  cases run.stage.held with
  | none => simp
  | some w => rfl

end Run

namespace Pipeline

variable {σ : Type} (host : Host σ) (p : Pipeline) (request : Request) (again : Nat) (s : σ)

/-- Drives a run and, if it is still suspended then, gives it up. -/
def lifetime : List Notice × σ :=
  match p.drive host request again s with
  | (.suspended run, notices, s) =>
    let (discarded, s) := run.abandon host s
    (notices ++ discarded, s)
  | (_, notices, s) => (notices, s)

theorem lifetime_ledger (ds : List Deed) : ∃ ds', p.lifetime host.ledger request again (s, ds) =
    ((p.lifetime host request again s).1, (p.lifetime host request again s).2, ds') := by
  rw [lifetime, lifetime, ← Run.drive_ledger host p request again s ds]
  rcases p.drive host.ledger request again (s, ds) with ⟨progress, notices, t, ds'⟩
  cases progress with
  | finished _ | crashed _ => exact ⟨ds', rfl⟩
  | suspended run =>
    simp only [Run.withoutLedger, Run.abandon]
    cases run.stage.held with
    | none => exact ⟨ds', rfl⟩
    | some w => exact ⟨ds' ++ [.discarded w], rfl⟩

theorem tidy_lifetime : Tidy (p.lifetime host.ledger request again (s, [])).2.2 := by
  rcases hpolls : Run.polls host.ledger p again (.initial request) false (s, []) with
    ⟨progress, notices, t, ds⟩
  have hleft := Run.polls_left Run.open_start hpolls
  rw [lifetime, drive, hpolls]
  cases progress with
  | finished result =>
    obtain ⟨xs, run, hreach, hstage, rfl⟩ := hleft
    exact (hreach.at.transcript hstage).tidy
  | suspended run | crashed run =>
    obtain ⟨xs, call, resume, hreach, hnext, rfl⟩ := hleft
    have htidy := hreach.at.tidy hnext
    rwa [← List.append_assoc, ← Run.abandon_ledger host run t] at htidy

/-- However long a run is driven, on whatever host, and whether it ends, crashes or is given up
then: its deeds are tidy. Writing them down does not change it. -/
theorem lifetime_tidy : ∃ ds, Tidy ds ∧ p.lifetime host.ledger request again (s, []) =
    ((p.lifetime host request again s).1, (p.lifetime host request again s).2, ds) := by
  obtain ⟨ds, hds⟩ := lifetime_ledger host p request again s []
  have htidy := tidy_lifetime host p request again s
  rw [hds] at htidy
  exact ⟨ds, htidy, hds⟩

end Pipeline

end StubLoader
