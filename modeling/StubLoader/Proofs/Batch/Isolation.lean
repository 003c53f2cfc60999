import StubLoader.Proofs.Batch.Standing
import StubLoader.Proofs.Scripted.Sandbox
/-!
# Isolation

The runs of a batch on a sandboxed host do not influence each other: whatever the order in which
their calls are taken, each has the result that it would have had alone, none reads below the
directory of another, and when the batch is over the disk is as it was.

Every task has a claim on the disk. That the disk holds what is claimed, and nothing else beside
what was there before, is kept by every answer that any of the runs gets.
-/

namespace StubLoader

open Run

/-! ### Whole batches -/

namespace Scene

variable {σ : Type} {host : Host σ} {p : Pipeline} {disk : Disk σ} {requests : List Request}
  {s₀ : σ} {c : Scene σ}

variable (host p disk requests s₀) in
/-- Every task has its claim on the disk, and there is nothing else that was not there before. -/
structure Isolated (claims : Nat → Claim) (c : Scene σ) : Prop where
  laid : disk.Laid s₀ claims c.host
  token : c.batch.token = .absent
  placed : ∀ (i : Nat) (task : Task) (request : Request), c.batch.tasks[i]? = some task →
    requests[i]? = some request → Placed host p disk request (claims i) (c.ledgers i) task
  unused : ∀ i, requests.length ≤ i → claims i = .none ∧ c.ledgers i = []
  length : c.batch.tasks.length = requests.length

namespace Isolated

variable {claims : Nat → Claim}

theorem initial (hs₀ : disk.valid s₀) {b : Batch}
    (hstart : Batch.start? p requests .absent = some b) :
    Isolated host p disk requests s₀ (fun _ => .none) (.initial b s₀) := by
  have hinv := Inv.initial hstart s₀
  refine ⟨.initial hs₀, Batch.token_of_start? hstart, fun i task request htask hrequest => ?_,
    fun _ _ => ⟨rfl, rfl⟩, hinv.length⟩
  have hdid := hinv.did i task request htask hrequest
  unfold Batch.start? at hstart
  split at hstart
  · cases hstart
    change (requests.map Task.waiting)[i]? = some task at htask
    rw [List.getElem?_map, hrequest] at htask
    cases htask
    exact .waiting
  · cases hstart

theorem replace (h : Isolated host p disk requests s₀ claims c) {b' : Batch} {i : Nat}
    {old new : Task} (hreplaced : c.batch.Replaced i old new b') {claim : Claim} {t : σ}
    {ds : List Deed} (hlaid : disk.Laid s₀ (Function.update claims i claim) t)
    (hplaced : ∀ request, requests[i]? = some request →
      Placed host p disk request claim ds new) :
    Isolated host p disk requests s₀ (Function.update claims i claim)
      ⟨b', t, Function.update c.ledgers i ds⟩ := by
  have hi := (List.getElem?_eq_some_iff.mp hreplaced.task).1
  refine ⟨hlaid, hreplaced.token.trans h.token, fun j task request htask hrequest => ?_,
    fun j hj => ?_, ?_⟩
  · refine hreplaced.forall_tasks
      (P := fun j task ds => ∀ request, requests[j]? = some request →
        Placed host p disk request (Function.update claims i claim j) ds task)
      (by rwa [Function.update_self]) (fun j task hj htask request => ?_) j task htask request
      hrequest
    rw [Function.update_of_ne hj]
    exact h.placed j task request htask
  · have hne : j ≠ i := by
      rintro rfl
      rw [h.length] at hi
      omega
    obtain ⟨hnone, hnil⟩ := h.unused j hj
    exact ⟨(Function.update_of_ne hne ..).trans hnone, (Function.update_of_ne hne ..).trans hnil⟩
  · change b'.tasks.length = _
    rw [hreplaced.tasks, List.length_set, h.length]

/-- A run that is due stands beside the claims of the other tasks. -/
theorem beside (h : Isolated host p disk requests s₀ claims c) {i : Nat} {run : Run}
    {issued : Bool} (hdue : c.batch.Due i run issued) : ∃ request xs,
      requests[i]? = some request ∧
        Beside host p disk request s₀ claims i xs run issued (c.host, c.ledgers i) := by
  have hrequest : ∀ {task : Task}, c.batch.tasks[i]? = some task →
      ∃ request, requests[i]? = some request := by
    intro task htask
    refine ⟨_, List.getElem?_eq_getElem ?_⟩
    rw [← h.length]
    exact (List.getElem?_eq_some_iff.mp htask).1
  have hlaid : disk.Laid s₀ (Function.update claims i (claims i)) c.host := by
    rw [Function.update_eq_self]
    exact h.laid
  cases hdue with
  | begins htask _ _ =>
    obtain ⟨request, hrequest⟩ := hrequest htask
    have hplaced := h.placed i _ request htask hrequest
    refine ⟨request, [], hrequest, ?_⟩
    generalize claims i = claim at hplaced hlaid
    generalize c.ledgers i = ds at hplaced ⊢
    cases hplaced
    exact ⟨⟨.none, .fresh, hlaid⟩, rfl⟩
  | goesOn htask _ =>
    obtain ⟨request, hrequest⟩ := hrequest htask
    have hplaced := h.placed i _ request htask hrequest
    generalize claims i = claim at hplaced hlaid
    generalize c.ledgers i = ds at hplaced ⊢
    cases hplaced with
    | @running _ xs _ call resume hstands hnext =>
      exact ⟨request, xs, hrequest, ⟨claim, hstands, hlaid⟩, by rw [Written, hnext]; rfl⟩

theorem poll (hhost : host.Sandboxed p disk) (h : Isolated host p disk requests s₀ claims c)
    (i : Nat) : ∃ claims', Isolated host p disk requests s₀ claims' (c.poll host p i) := by
  have hlive : c.batch.token ≠ .cancelled := by
    rw [h.token]
    exact Token.noConfusion
  have hpolled := c.batch.polled host.ledger p i (c.host, c.ledgers i)
  rw [Scene.poll]
  generalize c.batch.poll host.ledger p i (c.host, c.ledgers i) = moved at hpolled ⊢
  cases hpolled with
  | ended _ | queued _ _ _ => exact ⟨claims, by simpa only [Function.update_eq_self] using h⟩
  | refused _ hcancelled | stopped _ hcancelled => exact absurd hcancelled hlive
  | begun htask _ hfree =>
    obtain ⟨request, xs, hrequest, hbeside⟩ := h.beside (.begins htask hlive hfree)
    obtain ⟨claim, hplaced, hlaid⟩ := placed_goOn hhost c.batch.grant hbeside
    dsimp only
    rw [Batch.goOn_fst]
    refine ⟨_, h.replace (Batch.replaced_begun htask hfree _) hlaid fun request' hrequest' => ?_⟩
    obtain rfl := Option.some_inj.mp (hrequest.symm.trans hrequest')
    exact hplaced
  | resumed htask _ =>
    obtain ⟨request, xs, hrequest, hbeside⟩ := h.beside (.goesOn htask hlive)
    obtain ⟨claim, hplaced, hlaid⟩ := placed_goOn hhost c.batch hbeside
    rw [Batch.goOn_fst]
    refine ⟨_, h.replace (Batch.replaced_resumed htask _) hlaid fun request' hrequest' => ?_⟩
    obtain rfl := Option.some_inj.mp (hrequest.symm.trans hrequest')
    exact hplaced

theorem move (hhost : host.Sandboxed p disk) (h : Isolated host p disk requests s₀ claims c)
    (m : Batch.Move) : ∃ claims', Isolated host p disk requests s₀ claims' (c.move host p m) := by
  cases m with
  | cancel =>
    have htoken : c.batch.token.cancel = .absent := by
      rw [h.token]
      rfl
    exact ⟨claims, h.laid, htoken, h.placed, h.unused, h.length⟩
  | poll i => exact h.poll hhost i

theorem play (hhost : host.Sandboxed p disk) (ms : List Batch.Move) : ∀ {claims : Nat → Claim}
    {c : Scene σ}, Isolated host p disk requests s₀ claims c →
      ∃ claims', Isolated host p disk requests s₀ claims' (c.play host p ms) := by
  induction ms with
  | nil => exact fun h => ⟨_, h⟩
  | cons m ms ih =>
    intro claims c h
    obtain ⟨claims', h'⟩ := h.move hhost m
    exact ih h'

/-- A task stands somewhere, or there is none. -/
theorem placed_or_unused (h : Isolated host p disk requests s₀ claims c) (i : Nat) :
    (∃ task request, Placed host p disk request (claims i) (c.ledgers i) task) ∨
      claims i = .none ∧ c.ledgers i = [] := by
  rcases Nat.lt_or_ge i requests.length with hi | hi
  · have htask : i < c.batch.tasks.length := by rwa [h.length]
    exact .inl ⟨_, _, h.placed i _ _ (List.getElem?_eq_getElem htask)
      (List.getElem?_eq_getElem hi)⟩
  · exact .inr (h.unused i hi)

theorem gives (h : Isolated host p disk requests s₀ claims c) (i : Nat) :
    (c.ledgers i).filterMap Deed.gives? = (claims i).path?.toList := by
  rcases h.placed_or_unused i with ⟨task, request, hplaced⟩ | ⟨hnone, hnil⟩
  · exact hplaced.gives
  · rw [hnone, hnil]
    rfl

/-- What a task reads is in its own directory. -/
theorem loads (h : Isolated host p disk requests s₀ claims c) {i : Nat} {path : Path}
    (hpath : .asked (.loadFile path) ∈ c.ledgers i) :
    ∃ w, (claims i).path? = some w ∧ Leads w path := by
  rcases h.placed_or_unused i with ⟨task, request, hplaced⟩ | ⟨-, hnil⟩
  · exact hplaced.loads hpath
  · rw [hnil] at hpath
    cases hpath

/-- What a task reads is below the directory that it was given and below no other. -/
theorem reads (h : Isolated host p disk requests s₀ claims c) {i : Nat} {path : Path}
    (hpath : .asked (.loadFile path) ∈ c.ledgers i) :
    (∃ w ∈ (c.ledgers i).filterMap Deed.gives?, Leads w path) ∧
      ∀ j, j ≠ i → ∀ v ∈ (c.ledgers j).filterMap Deed.gives?,
        ¬v.components <+: path.components := by
  obtain ⟨w, hclaim, hleads⟩ := h.loads hpath
  refine ⟨⟨w, ?_, hleads⟩, fun j hj v hv => ?_⟩
  · rw [h.gives, hclaim]
    exact List.mem_singleton_self w
  · rw [h.gives] at hv
    exact (h.laid.apart i j w v hj.symm hclaim (Option.mem_toList.mp hv)).not_under hleads.isUnder

/-- A task that is over has the result that its run would have had alone, in whatever state the host
is then. -/
theorem sameResult (hhost : host.Sandboxed p disk) (h : Isolated host p disk requests s₀ claims c)
    {i : Nat} {task : Task} {request : Request} (htask : c.batch.tasks[i]? = some task)
    (hrequest : requests[i]? = some request) (hended : task.isEnded = true) {s t : σ}
    (hs : disk.valid s) {again : Nat} {alone : Outcome Bytes} {notices : List Notice}
    (hdrive : p.drive host request again s = (.finished alone, notices, t)) : ∃ ds,
      p.drive host.ledger request again (s, []) = (.finished alone, notices, t, ds) ∧
        SameResult (c.ledgers i) ds (task.result?.getD (.error (.task .unfinished))) alone := by
  obtain ⟨claim', xs', run', hstands', hended', hledger⟩ := exists_stands hhost hs hdrive
  refine ⟨_, hledger, ?_⟩
  have hplaced := h.placed i task request htask hrequest
  generalize c.ledgers i = ds at hplaced ⊢
  generalize claims i = claim at hplaced
  cases hplaced with
  | waiting | running _ _ => cases hended
  | settled hstands hstage => exact hstands.sameResult hhost hstage hstands' hended'

/-- When the batch is over the disk is as it was. -/
theorem restored (h : Isolated host p disk requests s₀ claims c)
    (hended : ∀ task ∈ c.batch.tasks, task.isEnded = true) :
    disk.files c.host = disk.files s₀ ∧ disk.scratch c.host = disk.scratch s₀ := by
  have hnothing : ∀ i w contents, claims i ≠ .holds w contents := by
    intro i w contents hclaim
    rcases Nat.lt_or_ge i requests.length with hi | hi
    · have htask : i < c.batch.tasks.length := by rwa [h.length]
      have hplaced := h.placed i _ _ (List.getElem?_eq_getElem htask)
        (List.getElem?_eq_getElem hi)
      exact hplaced.not_holds (hended _ (List.getElem_mem htask)) w contents hclaim
    · rw [(h.unused i hi).1] at hclaim
      cases hclaim
  constructor
  · exact funext fun q => h.laid.files q fun i w contents hclaim =>
      absurd hclaim (hnothing i w contents)
  · refine funext fun d => propext ((h.laid.scratch d).trans (or_iff_left ?_))
    rintro ⟨i, w, contents, hclaim, -⟩
    exact hnothing i w contents hclaim

end Isolated

end Scene

namespace Batch

/-- The runs of a batch on a sandboxed host do not influence each other, whatever the order in which
their calls are taken: what a run reads is in its own directory and not in another's, and when the
batch is over every request has the result that it would have had alone, but for the name of its
directory, and the disk is as it was. -/
theorem runs_isolated {σ : Type} {host : Host σ} {p : Pipeline} {disk : Disk σ}
    (hhost : host.Sandboxed p disk) {requests : List Request} {b₀ : Batch}
    (hstart : start? p requests .absent = some b₀) {s : σ} (hs : disk.valid s) (ms : List Move) :
    (∀ i path, Deed.asked (.loadFile path) ∈ ((Scene.initial b₀ s).play host p ms).ledgers i →
      (∃ w ∈ (((Scene.initial b₀ s).play host p ms).ledgers i).filterMap Deed.gives?,
        Leads w path) ∧
      ∀ j, j ≠ i → ∀ v ∈ (((Scene.initial b₀ s).play host p ms).ledgers j).filterMap Deed.gives?,
        ¬v.components <+: path.components) ∧
    ∀ rs, (b₀.play host p ms s).1.results? = some rs →
      (rs.length = requests.length ∧
        ∀ (i : Nat) (request : Request), requests[i]? = some request → ∃ result,
          rs[i]? = some result ∧
          ∀ s', disk.valid s' →
            (∀ again alone notices t,
              p.drive host request again s' = (.finished alone, notices, t) →
              ∃ ds, p.drive host.ledger request again (s', []) = (.finished alone, notices, t, ds) ∧
                SameResult (((Scene.initial b₀ s).play host p ms).ledgers i) ds result alone) ∧
            ((∀ call s, disk.valid s → host.Settles call false s) → ∃ again alone notices t,
              p.drive host request again s' = (.finished alone, notices, t))) ∧
      disk.files (b₀.play host p ms s).2.2 = disk.files s ∧
      disk.scratch (b₀.play host p ms s).2.2 = disk.scratch s := by
  obtain ⟨claims, hisolated⟩ := (Scene.Isolated.initial hs hstart).play hhost ms
  have hinv : Scene.Inv p requests ((Scene.initial b₀ s).play host p ms) :=
    (Scene.Inv.initial hstart s).play ms
  obtain ⟨hbatch, hend⟩ := Scene.play_initial host p ms b₀ s
  refine ⟨fun i path => hisolated.reads, fun rs hresults => ?_⟩
  rw [← hbatch] at hresults
  obtain ⟨hlength, hresult⟩ := hinv.results hresults
  refine ⟨⟨hlength, fun i request hrequest => ?_⟩, ?_⟩
  · obtain ⟨task, htask, hended, hresult⟩ := hresult i request hrequest
    exact ⟨_, hresult, fun s' hs' => ⟨fun again alone notices t hdrive =>
      hisolated.sameResult hhost htask hrequest hended hs' hdrive,
      fun hsettles => exists_alone hhost hsettles hs'⟩⟩
  · rw [← hend]
    exact hisolated.restored (Scene.Inv.isEnded_of_results hresults)

/-- Two runs for one file whose calls are taken in turn: each reads in its own directory, has what
it would have had alone, and leaves nothing. -/
theorem runs_isolated_in_turn :
    ∃ b₀ ms, start? Pipeline.standard [Pipeline.sampleRequest, Pipeline.sampleRequest] .absent =
        some b₀ ∧
      (b₀.play Scripted.host.paced Pipeline.standard ms Scripted.sample).1.results? =
        some [.ok [0x78], .ok [0x78]] ∧
      (∃ again alone notices t, Pipeline.standard.drive Scripted.host.paced
          Pipeline.sampleRequest again Scripted.sample = (.finished alone, notices, t) ∧
        ∃ ds, SameResult (((Scene.initial b₀ Scripted.sample).play Scripted.host.paced
          Pipeline.standard ms).ledgers 1) ds (.ok [0x78]) alone) ∧
      (Scripted.disk Pipeline.standard Scripted.sample.script).files
        (b₀.play Scripted.host.paced Pipeline.standard ms Scripted.sample).2.2 =
          Scripted.found [] := by
  let b₀ : Batch := ⟨[.waiting Pipeline.sampleRequest, .waiting Pipeline.sampleRequest],
    permits Pipeline.standard, .absent, []⟩
  let inTurn : List Move := (List.replicate 7 [.poll 0, .poll 1]).flatten
  have hstart : start? Pipeline.standard [Pipeline.sampleRequest, Pipeline.sampleRequest] .absent =
      some b₀ := if_pos (by decide)
  have hplain := Scripted.plain_sample
  have hhost : Scripted.host.paced.Sandboxed Pipeline.standard _ :=
    (Scripted.sandboxed hplain (by decide +kernel)).paced
  have hvalid := Scripted.valid_sample Pipeline.standard
  obtain ⟨-, hover⟩ := runs_isolated hhost hstart hvalid inTurn
  have hresults : (b₀.play Scripted.host.paced Pipeline.standard inTurn
      Scripted.sample).1.results? = some [.ok [0x78], .ok [0x78]] := by decide +kernel
  obtain ⟨⟨-, halone⟩, hfiles, -⟩ := hover _ hresults
  obtain ⟨result, hresult, hsame⟩ := halone 1 Pipeline.sampleRequest rfl
  obtain rfl := Option.some_inj.mp hresult
  obtain ⟨hsame, hends⟩ := hsame _ hvalid
  obtain ⟨again, alone, notices, t, hdrive⟩ := hends fun call s hs => by
    obtain ⟨answer, t, h⟩ := Scripted.exists_answer hplain hs call
    exact .later rfl (.now h)
  obtain ⟨ds, -, hsame⟩ := hsame again alone notices t hdrive
  exact ⟨b₀, inTurn, hstart, hresults, ⟨again, alone, notices, t, hdrive, ds, hsame⟩, hfiles⟩

end Batch

end StubLoader
