import StubLoader.Command.Session
/-!
# Steps of commands

On a world that is a state, a step of a command goes from one state to another and answers or halts.
A loop of steps comes to its end, or it halts where one of them does.
-/

namespace StubLoader.Session

/-! ### One after another -/

section Goes

variable {σ α β : Type}

/-- What a step answers in a state, and the state after it. -/
def Step.goes (x : Step (StateM σ) α) (s : σ) : Except Halt α × σ := (ExceptT.run x).run s

theorem goes_lift_ok {a : Attempt α} {v : α} (h : a = .ok v) (s : σ) :
    (lift a : Step (StateM σ) α).goes s = (.ok v, s) := by
  rw [h]
  rfl

/-- What a world does never halts a command. -/
theorem goes_act (x : StateM σ α) (s : σ) :
    (liftM x : Step (StateM σ) α).goes s = (.ok (x.run s).1, (x.run s).2) := rfl

variable {x : Step (StateM σ) α} {f : α → Step (StateM σ) β} {s t : σ}

theorem goes_bind_ok {a : α} (h : x.goes s = (.ok a, t)) : (x >>= f).goes s = (f a).goes t := by
  unfold Step.goes at h ⊢
  rw [ExceptT.run_bind, StateT.run_bind, h]
  rfl

theorem goes_bind_error {e : Halt} (h : x.goes s = (.error e, t)) :
    (x >>= f).goes s = (.error e, t) := by
  unfold Step.goes at h ⊢
  rw [ExceptT.run_bind, StateT.run_bind, h]
  rfl

/-- A step that ends has gone part by part. -/
theorem goes_bind_eq_ok {b : β} (h : (x >>= f).goes s = (.ok b, t)) :
    ∃ a u, x.goes s = (.ok a, u) ∧ (f a).goes u = (.ok b, t) := by
  rcases hx : x.goes s with ⟨e | a, u⟩
  · rw [goes_bind_error hx] at h
    cases h
  · exact ⟨a, u, rfl, (goes_bind_ok hx).symm.trans h⟩

end Goes

/-! ### Loops -/

section Loops

variable {σ α β : Type}

/-- A step for each element, one after the other, leads from one state to another. -/
inductive Passes (R : α → σ → σ → Prop) : List α → σ → σ → Prop where
  | nil (s : σ) : Passes R [] s s
  | cons {a : α} {as : List α} {s t u : σ} (h : R a s t) (hrest : Passes R as t u) :
    Passes R (a :: as) s u

namespace Passes

variable {R : α → σ → σ → Prop} {as bs : List α} {s t u : σ}

theorem of_append (h : Passes R (as ++ bs) s u) : ∃ t, Passes R as s t ∧ Passes R bs t u := by
  induction as generalizing s with
  | nil => exact ⟨s, .nil s, h⟩
  | cons a as ih =>
    obtain _ | ⟨hfirst, hrest⟩ := h
    obtain ⟨t, hfront, hback⟩ := ih hrest
    exact ⟨t, .cons hfirst hfront, hback⟩

/-- Steps that lead to one state each lead to one state together. -/
theorem unique (hR : ∀ a s t u, R a s t → R a s u → t = u) (h : Passes R as s t)
    (h' : Passes R as s u) : t = u := by
  induction h with
  | nil s =>
    cases h'
    rfl
  | cons hfirst _ ih =>
    obtain _ | ⟨hfirst', hrest'⟩ := h'
    exact ih (hR _ _ _ _ hfirst hfirst' ▸ hrest')

end Passes

variable {body : α → PUnit → Step (StateM σ) (ForInStep PUnit)}
  {f : PUnit → Step (StateM σ) β} {P : Except Halt β × σ → Prop}

/-- What follows a loop whose steps do not end it early holds if it does when the loop has passed
all of its elements, and when it halts at one of them as the step for that does. -/
theorem goes_forIn {R : α → σ → σ → Prop} {H : α → σ → Halt → σ → Prop} : ∀ {as : List α} {s : σ},
    (∀ a ∈ as, ∀ s, (∃ t, R a s t ∧ (body a ⟨⟩).goes s = (.ok (.yield ⟨⟩), t)) ∨
      ∃ e t, H a s e t ∧ (body a ⟨⟩).goes s = (.error e, t)) →
    (∀ t, Passes R as s t → P ((f ⟨⟩).goes t)) →
    (∀ front a back u e t, as = front ++ a :: back → Passes R front s u → H a u e t →
      P (.error e, t)) →
    P ((forIn as PUnit.unit body >>= f).goes s)
  | [], s, _, hended, _ => hended s (.nil s)
  | a :: as, s, hbody, hended, hhalted => by
    obtain ⟨hfirst, hrest⟩ := List.forall_mem_cons.mp hbody
    rw [List.forIn_cons, bind_assoc]
    rcases hfirst s with ⟨t, hpassed, hgoes⟩ | ⟨e, t, hstopped, hgoes⟩
    · rw [goes_bind_ok hgoes]
      refine goes_forIn hrest (fun u hpasses => hended u (.cons hpassed hpasses)) ?_
      rintro front b back u e v rfl hpasses hstopped
      exact hhalted (a :: front) b back u e v rfl (.cons hpassed hpasses) hstopped
    · rw [goes_bind_error hgoes]
      exact hhalted [] a as s e t rfl (.nil s) hstopped

/-- A loop none of whose steps halts goes from state to state. -/
theorem goes_forIn_quiet (next : σ → α → σ) (as : List α) (s : σ)
    (hbody : ∀ a s, (body a ⟨⟩).goes s = (.ok (.yield ⟨⟩), next s a)) :
    (forIn as PUnit.unit body >>= f).goes s = (f ⟨⟩).goes (as.foldl next s) := by
  induction as generalizing s with
  | nil => rfl
  | cons a as ih =>
    rw [List.forIn_cons, bind_assoc, goes_bind_ok (hbody a s), List.foldl_cons]
    exact ih _

end Loops

end StubLoader.Session
