import StubLoader.Proofs.Batch.Limits
/-!
# Batches on hosts that answer at once

On a host that answers every call at once a run ends as soon as it is polled. So a batch, however
few its permits, is over when every task has been polled once.
-/

namespace StubLoader

/-- Every call is answered when it is made. -/
def Host.AtOnce {σ : Type} (host : Host σ) : Prop :=
  ∀ call issued s, ∃ answer t, host.ask issued call s = (.now answer, t)

theorem Host.atOnce_ofAnswers {σ : Type} (answer : (c : Call) → σ → c.Answer × σ)
    (discard : Path → σ → Except IoError Unit × σ) : (ofAnswers answer discard).AtOnce := by
  intro call issued s
  cases issued with
  | false => exact ⟨_, _, rfl⟩
  | true => exact ⟨_, _, rfl⟩

open Run in
/-- On such a host a run ends when it is polled. -/
theorem Run.poll_finished {σ : Type} {host : Host σ} (hhost : host.AtOnce) {p : Pipeline}
    (run : Run) (issued : Bool) (s : σ) : ∃ result notices t,
      run.poll host p issued s = (.finished result, notices, t) := by
  induction hn : run.stage.remaining using Nat.strongRecOn generalizing run issued s with
  | ind n ih =>
    subst hn
    cases hnext : run.next p with
    | ended result => exact ⟨result, [], s, poll_ended hnext⟩
    | asks call resume =>
      obtain ⟨answer, t, hask⟩ := hhost call issued s
      obtain ⟨result, notices, t', hpoll⟩ := ih _ (remaining_lt hnext answer) _ false t rfl
      exact ⟨result, _, t', by rw [poll_now hnext hask, hpoll]; rfl⟩

namespace Batch

/-- The first `k` tasks have ended, and no run is under way. -/
structure Through (k : Nat) (b : Batch) : Prop where
  live : b.token ≠ .cancelled
  free : b.free ≠ 0
  idle : ∀ task ∈ b.tasks, task.isRunning = false
  ended : ∀ (j : Nat) (task : Task), j < k → b.tasks[j]? = some task → task.isEnded = true

section Through

variable {σ : Type} {host : Host σ} {p : Pipeline} {k : Nat} {b b' : Batch}

/-- Where the next task has ended already, it is one more that has ended. -/
theorem Through.next (h : b.Through k)
    (hended : ∀ task, b.tasks[k]? = some task → task.isEnded = true) : b.Through (k + 1) := by
  refine ⟨h.live, h.free, h.idle, fun j task hj htask => ?_⟩
  rcases Nat.lt_succ_iff_lt_or_eq.mp hj with hj | rfl
  · exact h.ended j task hj htask
  · exact hended task htask

theorem Through.replaced {old new : Task} (h : b.Through k) (hreplaced : b.Replaced k old new b')
    (hnew : new.isEnded = true) : b'.Through (k + 1) := by
  have hold : old.isRunning = false := h.idle old (List.mem_of_getElem? hreplaced.task)
  have hidle : new.isRunning = false := by
    cases new with
    | waiting _ | running _ => cases hnew
    | settled _ | lost => rfl
  have hkept : b'.Through k := by
    refine ⟨hreplaced.token ▸ h.live, ?_, fun task hmem => ?_, fun j task hj htask => ?_⟩
    · have hfree := hreplaced.free
      rw [hold, hidle, Nat.add_right_cancel_iff] at hfree
      exact hfree ▸ h.free
    · rw [hreplaced.tasks] at hmem
      rcases List.mem_or_eq_of_mem_set hmem with hmem | rfl
      · exact h.idle task hmem
      · exact hidle
    · rw [hreplaced.tasks, List.getElem?_set_ne (Nat.ne_of_gt hj)] at htask
      exact h.ended j task hj htask
  refine hkept.next fun task htask => ?_
  rw [hreplaced.task_new] at htask
  exact Option.some_inj.mp htask ▸ hnew

/-- Polling the next task ends it. -/
theorem Through.poll (hhost : host.AtOnce) (h : b.Through k) (s : σ) :
    (b.poll host p k s).1.Through (k + 1) := by
  have hpolled := b.polled host p k s
  generalize b.poll host p k s = moved at hpolled ⊢
  cases hpolled with
  | ended hended => exact h.next hended
  | queued _ _ hnone => exact absurd hnone h.free
  | refused _ hcancelled | stopped _ hcancelled => exact absurd hcancelled h.live
  | resumed htask _ => cases h.idle _ (List.mem_of_getElem? htask)
  | @begun request htask _ hfree =>
    obtain ⟨result, _, _, hpoll⟩ := Run.poll_finished hhost (p := p) (.initial request) false s
    rw [goOn_fst, hpoll]
    exact h.replaced (replaced_begun htask hfree _) rfl

theorem through_of_start? {requests : List Request} (h : start? p requests .live = some b) :
    b.Through 0 := by
  unfold start? at h
  split at h <;> cases h
  refine ⟨Token.noConfusion, Nat.ne_of_gt (Nat.le_max_left ..), fun task hmem => ?_,
    fun _ _ hj => absurd hj (Nat.not_lt_zero _)⟩
  obtain ⟨request, -, rfl⟩ := List.mem_map.mp hmem
  rfl

theorem inOrder_succ (n : Nat) : inOrder (n + 1) = inOrder n ++ [.poll n] := by
  rw [inOrder, List.range_succ, List.map_append]
  rfl

theorem Through.play_inOrder (hhost : host.AtOnce) (h : b.Through 0) (s : σ) :
    ∀ n, (b.play host p (inOrder n) s).1.Through n
  | 0 => h
  | n + 1 => by
    rw [inOrder_succ, play_append]
    exact (h.play_inOrder hhost s n).poll hhost _

end Through

/-- On a host that answers at once a batch is over when every task has been polled once. -/
theorem exists_results_inOrder {σ : Type} {host : Host σ} (hhost : host.AtOnce) {p : Pipeline}
    {requests : List Request} {b₀ : Batch} (hstart : start? p requests .live = some b₀) (s : σ) :
    ∃ rs, (b₀.play host p (inOrder requests.length) s).1.results? = some rs := by
  have hthrough := (through_of_start? hstart).play_inOrder hhost (p := p) s requests.length
  have hplaceable : (b₀.play host p (inOrder requests.length) s).1.Placeable requests.length :=
    (placeable_of_start? hstart).play _
  refine Option.isSome_iff_exists.mp (results?_isSome fun task hmem => ?_)
  obtain ⟨i, htask⟩ := List.mem_iff_getElem?.mp hmem
  exact hthrough.ended i task (hplaceable.1 ▸ (List.getElem?_eq_some_iff.mp htask).1) htask

end Batch

end StubLoader
