import StubLoader.Project
import StubLoader.Proofs.Batch.Permits
/-!
# How many permits there can be

There cannot be more than `Batch.maxPermits` permits. A batch that would need more does not begin;
every other batch keeps its results in places that there are, and can be brought to its end from
wherever it has come to, also when it was cancelled on the way.
-/

namespace StubLoader

open Run

namespace Batch

/-- A batch does not begin if its limit is too great; the least limit is none. -/
theorem start?_eq_none_iff {p : Pipeline} {requests : List Request} {token : Token} :
    start? p requests token = none ↔ maxPermits < p.settings.maxConcurrentRuns := by
  have hpermits : permits p ≤ maxPermits ↔ p.settings.maxConcurrentRuns ≤ maxPermits :=
    Nat.max_le.trans (and_iff_right (by decide))
  unfold start?
  split_ifs with h
  · exact iff_of_false id (Nat.not_lt.mpr (hpermits.mp h))
  · exact iff_of_true rfl (Nat.not_le.mp fun hle => h (hpermits.mpr hle))

section Moves

variable {σ : Type} {host : Host σ} {p : Pipeline} {b : Batch}

variable (host p b) in
/-- Polling a task leaves the batch as it is or replaces that task. -/
theorem poll_replaced (i : Nat) (s : σ) : (b.poll host p i s).1 = b ∨
    ∃ old new, b.Replaced i old new (b.poll host p i s).1 := by
  have hpolled := b.polled host p i s
  generalize b.poll host p i s = moved at hpolled ⊢
  cases hpolled with
  | ended _ | queued _ _ _ => exact .inl rfl
  | refused htask _ => exact .inr ⟨_, _, replaced_refused htask⟩
  | begun htask _ hfree => exact .inr ⟨_, _, goOn_fst ▸ replaced_begun htask hfree _⟩
  | resumed htask _ => exact .inr ⟨_, _, goOn_fst ▸ replaced_resumed htask _⟩
  | stopped htask _ => exact .inr ⟨_, _, replaced_stopped htask⟩

/-! ### Places -/

/-- There is a place for everything that was handed over. -/
def Placeable (count : Nat) (b : Batch) : Prop :=
  b.tasks.length = count ∧ ∀ i result, .done i result ∈ b.joined → i < count

theorem Replaced.placeable {count i : Nat} {old new : Task} {b' : Batch}
    (hreplaced : b.Replaced i old new b') (h : b.Placeable count) : b'.Placeable count := by
  refine ⟨by rw [hreplaced.tasks, List.length_set, h.1], fun j result hmem => ?_⟩
  rw [hreplaced.joined, List.mem_append] at hmem
  rcases hmem with hmem | hmem
  · exact h.2 j result hmem
  · have hi : i < count := h.1 ▸ (List.getElem?_eq_some_iff.mp hreplaced.task).1
    cases new with
    | waiting _ | running _ => cases hmem
    | settled result => cases List.mem_singleton.mp hmem; exact hi
    | lost => cases List.mem_singleton.mp hmem

theorem Placeable.move {count : Nat} (h : b.Placeable count) (m : Move) (s : σ) :
    (b.move host p s m).1.Placeable count := by
  cases m with
  | cancel => exact h
  | poll i =>
    rcases poll_replaced host p b i s with hsame | ⟨old, new, hreplaced⟩
    · exact hsame.symm ▸ h
    · exact hreplaced.placeable h

theorem Placeable.play {count : Nat} (ms : List Move) : ∀ {b : Batch} {s : σ},
    b.Placeable count → (b.play host p ms s).1.Placeable count := by
  induction ms with
  | nil => exact fun h => h
  | cons m ms ih => exact fun h => ih (h.move m _)

theorem placeable_of_start? {requests : List Request} {token : Token} {b₀ : Batch}
    (h : start? p requests token = some b₀) : b₀.Placeable requests.length := by
  unfold start? at h
  split at h <;> cases h
  exact ⟨List.length_map _, fun _ _ hmem => nomatch hmem⟩

/-! ### Ends -/

variable (host p) in
/-- Once the token is cancelled, a task that has not ended does so when it is polled. -/
theorem replaced_of_cancelled (htoken : b.token = .cancelled) {i : Nat} {task : Task}
    (htask : b.tasks[i]? = some task) (hended : task.isEnded = false) (s : σ) :
    ∃ old new, new.isEnded = true ∧ b.Replaced i old new (b.poll host p i s).1 := by
  have hpolled := b.polled host p i s
  generalize b.poll host p i s = moved at hpolled ⊢
  cases hpolled with
  | ended h => rw [h task htask] at hended; cases hended
  | queued _ hlive _ | begun _ hlive _ | resumed _ hlive => exact absurd htoken hlive
  | refused htask _ => exact ⟨_, _, rfl, replaced_refused htask⟩
  | stopped htask _ => exact ⟨_, _, rfl, replaced_stopped htask⟩

/-- A batch that was cancelled can be brought to its end, on any host. -/
theorem exists_results_of_cancelled {s : σ} (htoken : b.token = .cancelled) :
    ∃ ms, ((b.play host p ms s).1.results?).isSome = true := by
  refine exists_results_of_progress (P := fun b => b.token = .cancelled)
    (fun {b s} htoken ⟨task, hmem, hended⟩ => ?_) htoken
  obtain ⟨i, htask⟩ := List.mem_iff_getElem?.mp hmem
  obtain ⟨old, new, hnew, hreplaced⟩ :=
    replaced_of_cancelled host p htoken htask hended s
  exact ⟨[.poll i], i, old, new, hnew, hreplaced, hreplaced.token.trans htoken⟩

theorem exists_results_append_of_cancelled {s : σ} {ms : List Move}
    (htoken : (b.play host p ms s).1.token = .cancelled) :
    ∃ ms', ((b.play host p (ms ++ ms') s).1.results?).isSome = true := by
  obtain ⟨ms', hended⟩ := exists_results_of_cancelled htoken
  exact ⟨ms', by rwa [play_append]⟩

end Moves

/-- However it was cancelled, a batch on a host that responds can be brought to its end. -/
theorem exists_results_of_responds {σ : Type} {host : Host σ} (hhost : host.Responds)
    {p : Pipeline} {b : Batch} {s : σ}
    (hpermits : b.free + b.tasks.countP Task.isRunning = permits p) :
    ∃ ms, ((b.play host p ms s).1.results?).isSome = true := by
  by_cases htoken : b.token = .cancelled
  · exact exists_results_of_cancelled htoken
  · exact exists_results hhost hpermits htoken

/-- However a batch is played, the invariant of its scene holds. -/
theorem inv_of_start? {p : Pipeline} {requests : List Request} {token : Token} {b₀ : Batch}
    (h : start? p requests token = some b₀) {σ : Type} (host : Host σ) (ms : List Move) (s : σ) :
    Scene.Inv p requests ((Scene.initial b₀ s).play host p ms) ∧
      ((Scene.initial b₀ s).play host p ms).batch = (b₀.play host p ms s).1 :=
  ⟨(Scene.Inv.initial h s).play ms, (Scene.play_initial host p ms b₀ s).1⟩

/-- On a host that answers no call by crashing, no run is reported as not finished. -/
theorem unfinished_not_mem {σ : Type} {host : Host σ} (hhost : host.Reliable) {p : Pipeline}
    {requests : List Request} {token : Token} {b₀ : Batch}
    (hstart : start? p requests token = some b₀) {s : σ} {ms : List Move}
    {rs : List (Outcome Bytes)} (hresults : (b₀.play host p ms s).1.results? = some rs) :
    .error (.task .unfinished) ∉ rs := by
  obtain ⟨hinv, hbatch⟩ := inv_of_start? hstart host ms s
  rw [← hbatch] at hresults
  intro hmem
  obtain ⟨i, _, -, hverdict⟩ := hinv.verdict_of_mem hresults hmem
  rw [hbatch, lost_play, or_iff_right (not_lost_of_start? hstart i)] at hverdict
  cases hverdict with
  | ran h _ _ => cases h.isOfBatch rfl
  | unfinished hcrashed => exact not_crashed hhost ms b₀ s hcrashed

/-- A batch does not begin exactly if its limit is greater than there can be permits; a limit of
zero counts as one. Every other batch, whatever its requests and its token, has a place for every
result that is handed over, on every host and schedule. If the host responds, it can be brought to
its end from wherever it has come to. At its end it has one result for each request, and on a
reliable host none of them is that a run did not finish. -/
theorem begins_and_ends_within_limit (p : Pipeline) (requests : List Request) (token : Token) :
    (start? p requests token = none ↔ maxPermits < p.settings.maxConcurrentRuns) ∧
    ∀ b₀, start? p requests token = some b₀ →
      ∀ {σ : Type} (host : Host σ) (ms : List Move) (s : σ),
        (∀ i result, .done i result ∈ (b₀.play host p ms s).1.joined → i < requests.length) ∧
        (host.Responds → ∃ ms', ((b₀.play host p (ms ++ ms') s).1.results?).isSome = true) ∧
        ∀ rs, (b₀.play host p ms s).1.results? = some rs → rs.length = requests.length ∧
          (host.Reliable → .error (.task .unfinished) ∉ rs) := by
  refine ⟨start?_eq_none_iff, fun b₀ hstart σ host ms s => ?_⟩
  obtain ⟨hinv, hbatch⟩ := inv_of_start? hstart host ms s
  refine ⟨((placeable_of_start? hstart).play ms).2, fun hhost => ?_, fun rs hresults => ⟨?_, ?_⟩⟩
  · have hpermits := hinv.permits
    rw [hbatch] at hpermits
    obtain ⟨ms', hended⟩ := exists_results_of_responds hhost hpermits
    exact ⟨ms', by rwa [play_append]⟩
  · rw [← hbatch] at hresults
    exact (hinv.results hresults).1
  · exact fun hhost => unfinished_not_mem hhost hstart hresults

/-- With a limit of zero the batch begins, and ends after it was cancelled with one run done. -/
theorem begins_and_ends_within_limit_narrow :
    ∃ b₀, start? narrow [Pipeline.sampleRequest, Pipeline.sampleRequest] .live = some b₀ ∧
      (∃ ms, ((b₀.play Pipeline.sampleHost narrow ([.poll 1, .cancel] ++ ms) ()).1.results?).isSome
        = true) ∧
      ∃ rs, (b₀.play Pipeline.sampleHost narrow [.poll 1, .cancel, .poll 0] ()).1.results? =
          some rs ∧
        rs.length = 2 ∧ .error (.task .unfinished) ∉ rs := by
  obtain ⟨-, hstarted⟩ := begins_and_ends_within_limit narrow
    [Pipeline.sampleRequest, Pipeline.sampleRequest] .live
  obtain ⟨b₀, hstart⟩ := exists_start (p := narrow) (by decide)
    [Pipeline.sampleRequest, Pipeline.sampleRequest] .live
  have hended : (b₀.play Pipeline.sampleHost narrow [.poll 1, .cancel, .poll 0] ()).1.results? =
      some [.error .cancelled, .ok [0x78]] := by
    cases hstart
    decide +kernel
  have hresponds : Pipeline.sampleHost.Responds := Host.responds_ofAnswers _ _
  have hreliable : Pipeline.sampleHost.Reliable := fun call issued s => by cases issued <;> nofun
  obtain ⟨-, hends, -⟩ := hstarted b₀ hstart Pipeline.sampleHost [.poll 1, .cancel] ()
  obtain ⟨-, -, hresults⟩ :=
    hstarted b₀ hstart Pipeline.sampleHost [.poll 1, .cancel, .poll 0] ()
  obtain ⟨hlength, hfinished⟩ := hresults _ hended
  exact ⟨b₀, hstart, hends hresponds, _, hended, hlength, hfinished hreliable⟩

/-- A project that asks for one permit more than there can be. -/
def crowded : Project :=
  { settings := { Settings.standard with maxConcurrentRuns := maxPermits + 1 } }

/-- Its settings pass every check, yet no batch begins under them, not even one of no requests. -/
theorem crowded_not_started : crowded.validate = .ok () ∧
    start? ⟨crowded.settings, .ofString "/", .ofString "/tmp"⟩ [] .live = none := by
  refine ⟨by decide +kernel, if_neg (by decide)⟩

end Batch

end StubLoader
