import StubLoader.Proofs.Batch.Limits
/-!
# Cancelling a batch

Whenever the token of a batch is cancelled, every request has the result of its run or is reported
as cancelled; from then on nothing is asked of the host but to remove directories, whatever the host
does the batch can be brought to its end, and when it is over every directory that was given to a
run has been removed. A token that is never cancelled makes no difference.
-/

namespace StubLoader

open Run

/-! ### What is left behind -/

/-- A task that is over leaves nothing behind. -/
theorem Task.Did.tidy {p : Pipeline} {request : Request} {token : Token} {ds : List Deed}
    {task : Task} (h : task.Did p request token ds) (hended : task.isEnded = true) : Tidy ds := by
  cases h with
  | waiting | running _ _ => cases hended
  | done h => exact h.tidy
  | refused _ => exact tidy_plain (List.forall_mem_nil _)
  | stopped _ hreach hnext | lost hreach hnext =>
    rw [List.append_assoc]
    exact hreach.at.tidy hnext

/-- When a batch is over, none of its tasks leaves anything behind. -/
theorem Scene.Inv.tidy {σ : Type} {p : Pipeline} {requests : List Request} {c : Scene σ}
    (h : c.Inv p requests) {rs : List (Outcome Bytes)} (hresults : c.batch.results? = some rs)
    {i : Nat} {request : Request} (hrequest : requests[i]? = some request) :
    Tidy (c.ledgers i) := by
  obtain ⟨task, htask, hended, -⟩ := (h.results hresults).2 i request hrequest
  exact (h.did i task request htask hrequest).tidy hended

namespace Scene

section Cancelled

variable {σ : Type} {host : Host σ} {p : Pipeline}

/-! ### After the cancellation -/

theorem discards_isDiscard (run : Run) : ∀ d ∈ run.discards, d.isDiscard = true := by
  unfold Run.discards
  cases run.stage.held with
  | none => exact List.forall_mem_nil _
  | some w => exact fun d hd => List.mem_singleton.mp hd ▸ rfl

/-- Once the token is cancelled, a move only discards directories. -/
theorem move_of_cancelled {c : Scene σ} (htoken : c.batch.token = .cancelled) (m : Batch.Move)
    (j : Nat) : (c.move host p m).batch.token = .cancelled ∧ ∃ ds,
      (c.move host p m).ledgers j = c.ledgers j ++ ds ∧ ∀ d ∈ ds, d.isDiscard = true := by
  cases m with
  | cancel =>
    exact ⟨congrArg Token.cancel htoken, [], (List.append_nil _).symm, List.forall_mem_nil _⟩
  | poll i =>
    refine ⟨(Batch.poll_token c.batch i _).trans htoken, ?_⟩
    have hledger : ∃ ds, (c.batch.poll host.ledger p i (c.host, c.ledgers i)).2.2.2 =
        c.ledgers i ++ ds ∧ ∀ d ∈ ds, d.isDiscard = true := by
      have hpolled := c.batch.polled host.ledger p i (c.host, c.ledgers i)
      generalize c.batch.poll host.ledger p i (c.host, c.ledgers i) = moved at hpolled ⊢
      cases hpolled with
      | ended _ | refused _ _ => exact ⟨[], (List.append_nil _).symm, List.forall_mem_nil _⟩
      | queued _ hlive _ | begun _ hlive _ | resumed _ hlive => exact absurd htoken hlive
      | @stopped run _ _ => exact ⟨run.discards, abandon_ledger .., discards_isDiscard run⟩
    change ∃ ds, Function.update c.ledgers i _ j = _ ∧ _
    by_cases hj : j = i
    · rwa [hj, Function.update_self]
    · rw [Function.update_of_ne hj]
      exact ⟨[], (List.append_nil _).symm, List.forall_mem_nil _⟩

theorem cancel_token {c : Scene σ} (htoken : c.batch.token ≠ .absent) :
    (c.move host p .cancel).batch.token = .cancelled := by
  change c.batch.token.cancel = .cancelled
  cases hc : c.batch.token with
  | absent => exact absurd hc htoken
  | live | cancelled => rfl

/-- A batch does not lose its token. -/
theorem play_token : ∀ (ms : List Batch.Move) {c : Scene σ}, c.batch.token ≠ .absent →
    (c.play host p ms).batch.token ≠ .absent
  | [], _, h => h
  | .cancel :: ms, _, h => play_token ms (by rw [cancel_token h]; exact Token.noConfusion)
  | .poll i :: ms, c, h => play_token ms ((Batch.poll_token c.batch i _).symm ▸ h)

theorem play_of_cancelled (j : Nat) : ∀ (ms : List Batch.Move) {c : Scene σ},
    c.batch.token = .cancelled → (c.play host p ms).batch.token = .cancelled ∧ ∃ ds,
      (c.play host p ms).ledgers j = c.ledgers j ++ ds ∧ ∀ d ∈ ds, d.isDiscard = true
  | [], _, htoken => ⟨htoken, [], (List.append_nil _).symm, List.forall_mem_nil _⟩
  | m :: ms, c, htoken => by
    obtain ⟨htoken', ds, hds, hdiscard⟩ := @move_of_cancelled σ host p c htoken m j
    obtain ⟨hended, ds', hds', hdiscard'⟩ := play_of_cancelled j ms htoken'
    refine ⟨hended, ds ++ ds', ?_, List.forall_mem_append.mpr ⟨hdiscard, hdiscard'⟩⟩
    rw [play_cons, hds', hds, List.append_assoc]

/-- From a cancellation on, a batch stays cancelled and only discards directories. -/
theorem play_cancel {c : Scene σ} (htoken : c.batch.token ≠ .absent) (ms ms' : List Batch.Move)
    (j : Nat) : (c.play host p (ms ++ .cancel :: ms')).batch.token = .cancelled ∧ ∃ ds,
      (c.play host p (ms ++ .cancel :: ms')).ledgers j = (c.play host p ms).ledgers j ++ ds ∧
        ∀ d ∈ ds, d.isDiscard = true := by
  rw [play_append, play_cons]
  exact play_of_cancelled j ms' (cancel_token (play_token ms htoken))

/-! ### Cancelled before the start -/

/-- Nothing was done. -/
structure Idle (s : σ) (c : Scene σ) : Prop where
  token : c.batch.token = .cancelled
  tasks : ∀ task ∈ c.batch.tasks,
    (∃ request, task = .waiting request) ∨ task = .settled (.error .cancelled)
  ledgers : c.ledgers = fun _ => []
  host : c.host = s

theorem Idle.move {s : σ} {c : Scene σ} (h : c.Idle s) (m : Batch.Move) :
    (c.move host p m).Idle s := by
  cases m with
  | cancel => exact ⟨congrArg Token.cancel h.token, h.tasks, h.ledgers, h.host⟩
  | poll i =>
    have hpolled := c.batch.polled host.ledger p i (c.host, c.ledgers i)
    rw [Scene.move, Scene.poll]
    generalize c.batch.poll host.ledger p i (c.host, c.ledgers i) = moved at hpolled ⊢
    cases hpolled with
    | ended _ => simpa only [Function.update_eq_self] using h
    | refused htask _ =>
      refine ⟨h.token, fun task htask => ?_, ?_, h.host⟩
      · rcases List.mem_or_eq_of_mem_set htask with hmem | rfl
        · exact h.tasks task hmem
        · exact .inr rfl
      · simpa only [Function.update_eq_self] using h.ledgers
    | queued _ hlive _ | begun _ hlive _ | resumed _ hlive => exact absurd h.token hlive
    | stopped htask _ =>
      rcases h.tasks _ (List.mem_of_getElem? htask) with ⟨request, hwaiting⟩ | hsettled
      · cases hwaiting
      · cases hsettled

theorem Idle.play {s : σ} (ms : List Batch.Move) : ∀ {c : Scene σ}, c.Idle s →
    (c.play host p ms).Idle s := by
  induction ms with
  | nil => exact fun h => h
  | cons m ms ih => exact fun h => ih (h.move m)

theorem Idle.results {s : σ} {c : Scene σ} (h : c.Idle s) {requests : List Request}
    (hinv : c.Inv p requests) {rs : List (Outcome Bytes)}
    (hresults : c.batch.results? = some rs) : ∀ result ∈ rs, result = .error .cancelled := by
  intro result hmem
  obtain ⟨i, _, -, hverdict⟩ := hinv.verdict_of_mem hresults hmem
  rw [h.ledgers] at hverdict
  cases hverdict with
  | ran hran hledger _ =>
    -- a run that ends has asked for its directory
    cases hran <;> cases hledger
  | unfinished hlost =>
    rcases h.tasks _ (List.mem_of_getElem? hlost) with ⟨request, hwaiting⟩ | hsettled
    · cases hwaiting
    · cases hsettled
  | cancelled _ _ => rfl

end Cancelled

end Scene

/-! ### Never cancelled -/

/-- The batch under another token. -/
def Batch.withToken (token : Token) (b : Batch) : Batch := { b with token }

/-- The scene under another token. -/
def Scene.withToken {σ : Type} (token : Token) (c : Scene σ) : Scene σ :=
  { c with batch := c.batch.withToken token }

section WithToken

variable {σ : Type} {host : Host σ} {p : Pipeline} {token : Token}

theorem Batch.goOn_withToken (b : Batch) (i : Nat) (run : Run) (issued : Bool) (s : σ) :
    (b.withToken token).goOn host p i run issued s =
      ((b.goOn host p i run issued s).1.withToken token, (b.goOn host p i run issued s).2) := by
  unfold goOn
  rcases run.poll host p issued s with ⟨progress, notices, t⟩
  cases progress <;> rfl

theorem Batch.Due.ofWithToken {b : Batch} {i : Nat} {run : Run} {issued : Bool}
    (h : (b.withToken token).Due i run issued) (hb : b.token ≠ .cancelled) :
    b.Due i run issued := by
  cases h with
  | begins htask _ hfree => exact .begins htask hb hfree
  | goesOn htask _ => exact .goesOn htask hb

variable (htoken : token ≠ .cancelled)
include htoken

/-- Polling a task does not tell tokens apart that are not cancelled. -/
theorem Batch.poll_withToken {b : Batch} (hb : b.token ≠ .cancelled) (i : Nat) (s : σ) :
    (b.withToken token).poll host p i s =
      ((b.poll host p i s).1.withToken token, (b.poll host p i s).2) := by
  by_cases hdue : ∃ run issued, b.Due i run issued
  · obtain ⟨run, issued, hdue⟩ := hdue
    cases hdue with
    | begins htask _ hfree =>
      have htask' : (b.withToken token).tasks[i]? = some (.waiting _) := htask
      rw [poll_begun htask hb hfree, poll_begun htask' htoken hfree]
      rw [show (b.withToken token).grant = b.grant.withToken token from rfl, goOn_withToken]
    | goesOn htask _ =>
      have htask' : (b.withToken token).tasks[i]? = some (.running run) := htask
      rw [poll_resumed htask hb, poll_resumed htask' htoken, goOn_withToken]
  · have hnone : ∀ run issued, ¬b.Due i run issued := fun run issued h => hdue ⟨run, issued, h⟩
    rw [poll_of_not_due hnone hb, poll_of_not_due _ htoken]
    exact fun run issued h => hnone run issued (h.ofWithToken hb)

theorem Scene.move_withToken {c : Scene σ} (hc : c.batch.token ≠ .cancelled) (i : Nat) :
    (c.withToken token).move host p (.poll i) = (c.move host p (.poll i)).withToken token := by
  simp only [move, poll, withToken]
  rw [Batch.poll_withToken htoken hc]

theorem Scene.play_withToken : ∀ (ms : List Batch.Move) {c : Scene σ},
    c.batch.token ≠ .cancelled → (∀ m ∈ ms, m ≠ .cancel) →
      (c.withToken token).play host p ms = (c.play host p ms).withToken token
  | [], _, _, _ => rfl
  | .cancel :: _, _, _, hms => absurd rfl (hms _ (List.mem_cons_self ..))
  | .poll i :: ms, c, hc, hms => by
    rw [play_cons, play_cons, move_withToken htoken hc]
    refine play_withToken ms ?_ fun m hm => hms m (List.mem_cons_of_mem _ hm)
    exact (Batch.poll_token c.batch i _).symm ▸ hc

end WithToken

/-! ### Whole batches -/

namespace Batch

/-- However a batch is played, and whenever its token is cancelled, it ends cleanly. -/
theorem cancelled_cleanly {σ : Type} (host : Host σ) (p : Pipeline) (requests : List Request)
    (hlimit : p.settings.maxConcurrentRuns ≤ maxPermits) :
    ∃ start : Token → Batch, (∀ token, start? p requests token = some (start token)) ∧
      ∀ (s : σ) (ms : List Move),
        -- every request has a result of its own, and no directory is left
        (∀ token rs, ((start token).play host p ms s).1.results? = some rs →
          rs.length = requests.length ∧
          ∀ (i : Nat) (request : Request), requests[i]? = some request → ∃ result,
            rs[i]? = some result ∧
            Verdict p request ((start token).play host p ms s).1.token
              (((Scene.initial (start token) s).play host p ms).ledgers i)
              (Crashed host p i ms (start token) s) result ∧
            (host.Reliable → ¬Crashed host p i ms (start token) s) ∧
            Tidy (((Scene.initial (start token) s).play host p ms).ledgers i)) ∧
        -- after the cancellation directories are discarded, and nothing else is done
        (∀ ms' i, ∃ ds,
          ((Scene.initial (start .live) s).play host p (ms ++ .cancel :: ms')).ledgers i
            = ((Scene.initial (start .live) s).play host p ms).ledgers i ++ ds ∧
          ∀ d ∈ ds, d.isDiscard = true) ∧
        -- and the batch can be brought to its end, whatever the host does
        (∀ token, ((start token).play host p ms s).1.token = .cancelled → ∃ ms',
          ((start token).play host p (ms ++ ms') s).1.results?.isSome = true) ∧
        (∀ ms', ∃ ms'',
          ((start .live).play host p (ms ++ .cancel :: ms' ++ ms'') s).1.results?.isSome = true) ∧
        -- a token that is cancelled before the start leaves nothing to do
        (((start .cancelled).play host p ms s).2.2 = s ∧
          (∀ i, ((Scene.initial (start .cancelled) s).play host p ms).ledgers i = []) ∧
          ∀ rs, ((start .cancelled).play host p ms s).1.results? = some rs →
            ∀ result ∈ rs, result = .error .cancelled) ∧
        -- a token that is never cancelled makes no difference
        ((∀ m ∈ ms, m ≠ .cancel) →
          ((Scene.initial (start .live) s).play host p ms).ledgers =
            ((Scene.initial (start .absent) s).play host p ms).ledgers ∧
          ((start .live).play host p ms s).2.2 = ((start .absent).play host p ms s).2.2 ∧
          ((start .live).play host p ms s).1.results? =
            ((start .absent).play host p ms s).1.results?) := by
  let start (token : Token) : Batch := ⟨requests.map .waiting, permits p, token, []⟩
  have hstart : ∀ token, start? p requests token = some (start token) := fun token =>
    if_pos (Nat.max_le.mpr ⟨by decide, hlimit⟩)
  refine ⟨start, hstart, fun s ms => ?_⟩
  have hinv : ∀ token, Scene.Inv p requests ((Scene.initial (start token) s).play host p ms) :=
    fun token => (Scene.Inv.initial (hstart token) s).play ms
  have hplay := fun token => Scene.play_initial host p ms (start token) s
  have hidle : Scene.Idle s ((Scene.initial (start .cancelled) s).play host p ms) := by
    refine Scene.Idle.play ms ⟨rfl, fun task htask => ?_, rfl, rfl⟩
    obtain ⟨request, -, rfl⟩ := List.mem_map.mp htask
    exact .inl ⟨request, rfl⟩
  have hcancelled := @Scene.play_cancel σ host p (Scene.initial (start .live) s)
    (fun h => nomatch h) ms
  refine ⟨fun token rs hresults => ?_, fun ms' i => (hcancelled ms' i).2,
    fun token => exists_results_append_of_cancelled, fun ms' => ?_,
    ⟨?_, fun i => ?_, fun rs hresults => ?_⟩, fun hms => ?_⟩
  · rw [← (hplay token).1] at hresults ⊢
    refine ⟨((hinv token).results hresults).1, fun i request hrequest => ?_⟩
    obtain ⟨result, hresult, hverdict⟩ := (hinv token).verdict hresults hrequest
    refine ⟨result, hresult, ?_, fun hhost => not_crashed hhost ms _ s,
      (hinv token).tidy hresults hrequest⟩
    rwa [(hplay token).1, lost_play, or_iff_right (not_lost_of_start? (hstart token) i),
      ← (hplay token).1] at hverdict
  · refine exists_results_append_of_cancelled ?_
    rw [← (Scene.play_initial host p (ms ++ .cancel :: ms') (start .live) s).1]
    exact (hcancelled ms' 0).1
  · rw [← (hplay .cancelled).2, hidle.host]
  · rw [hidle.ledgers]
  · rw [← (hplay .cancelled).1] at hresults
    exact hidle.results (hinv .cancelled) hresults
  · have hlive : Token.live ≠ .cancelled := fun h => nomatch h
    have habsent : (Scene.initial (start .absent) s).batch.token ≠ .cancelled :=
      fun h => nomatch h
    have hsame : (Scene.initial (start .live) s).play host p ms =
        ((Scene.initial (start .absent) s).play host p ms).withToken .live :=
      Scene.play_withToken hlive ms habsent hms
    rw [← (hplay .live).2, ← (hplay .absent).2, ← (hplay .live).1, ← (hplay .absent).1, hsame]
    exact ⟨rfl, rfl, rfl⟩

/-- Two runs are under way when the token is cancelled, one with a directory, which it then discards
in the middle of a call. Before that they did what they would have done without a token; and when
the other run has been told, the batch can be brought to its end. -/
theorem cancelled_cleanly_midway : ∃ b₀ b₁,
    start? Pipeline.standard [Pipeline.sampleRequest, Pipeline.sampleRequest] .live = some b₀ ∧
    start? Pipeline.standard [Pipeline.sampleRequest, Pipeline.sampleRequest] .absent = some b₁ ∧
    (b₀.play Pipeline.sampleHost.paced Pipeline.standard
      [.poll 0, .poll 1, .poll 0, .cancel, .poll 1, .poll 0] ()).1.results? =
        some [.error .cancelled, .error .cancelled] ∧
    (∃ (w : Path) (call : Call),
      ((Scene.initial b₀ ()).play Pipeline.sampleHost.paced Pipeline.standard
        [.poll 0, .poll 1, .poll 0, .cancel, .poll 1, .poll 0]).ledgers 0 =
          [.asked (Exchange.creation Pipeline.standard (.ok w)).call,
            .answered (Exchange.creation Pipeline.standard (.ok w)), .asked call, .discarded w]) ∧
    Tidy (((Scene.initial b₀ ()).play Pipeline.sampleHost.paced Pipeline.standard
      [.poll 0, .poll 1, .poll 0, .cancel, .poll 1, .poll 0]).ledgers 0) ∧
    (∃ ms, (b₀.play Pipeline.sampleHost.paced Pipeline.standard
      ([.poll 0, .poll 1, .poll 0] ++ .cancel :: [.poll 1] ++ ms) ()).1.results?.isSome = true) ∧
    ((Scene.initial b₀ ()).play Pipeline.sampleHost.paced Pipeline.standard
      [.poll 0, .poll 1, .poll 0]).ledgers =
        ((Scene.initial b₁ ()).play Pipeline.sampleHost.paced Pipeline.standard
          [.poll 0, .poll 1, .poll 0]).ledgers := by
  obtain ⟨start, hstart, hclean⟩ := cancelled_cleanly Pipeline.sampleHost.paced Pipeline.standard
    [Pipeline.sampleRequest, Pipeline.sampleRequest] (by decide)
  have hended : ((start .live).play Pipeline.sampleHost.paced Pipeline.standard
      [.poll 0, .poll 1, .poll 0, .cancel, .poll 1, .poll 0] ()).1.results? =
        some [.error .cancelled, .error .cancelled] := by
    rw [← Option.some_inj.mp (hstart .live)]
    decide +kernel
  have hledger : ∃ (w : Path) (call : Call),
      ((Scene.initial (start .live) ()).play Pipeline.sampleHost.paced Pipeline.standard
        [.poll 0, .poll 1, .poll 0, .cancel, .poll 1, .poll 0]).ledgers 0 =
        [.asked (Exchange.creation Pipeline.standard (.ok w)).call,
          .answered (Exchange.creation Pipeline.standard (.ok w)), .asked call, .discarded w] := by
    rw [← Option.some_inj.mp (hstart .live)]
    exact ⟨⟨[Path.slash, 0x77]⟩, .findExecutable (.ofString "protoc"), rfl⟩
  obtain ⟨hresults, -⟩ := hclean () [.poll 0, .poll 1, .poll 0, .cancel, .poll 1, .poll 0]
  obtain ⟨_, -, -, -, htidy⟩ := (hresults .live _ hended).2 0 _ rfl
  obtain ⟨-, -, -, hends, -, hsame⟩ := hclean () [.poll 0, .poll 1, .poll 0]
  obtain ⟨hledgers, -, -⟩ := hsame (by decide)
  exact ⟨start .live, start .absent, hstart .live, hstart .absent, hended, hledger, htidy,
    hends [.poll 1], hledgers⟩

end Batch

end StubLoader
