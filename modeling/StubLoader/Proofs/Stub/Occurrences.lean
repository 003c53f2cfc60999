import Mathlib.Data.List.Infix
import Mathlib.Tactic.SplitIfs
import StubLoader.Stub
/-!
# Occurrences of a pattern in a text

`count` and `replaceFirst` are two scans of the same text. The count is zero exactly if the pattern
occurs nowhere, it adds up over the parts of a text as long as no occurrence lies across a seam
between them (`count_append`), and the scan that replaces stops where the one that counts has its
first hit (`exists_split`). The count decides whether an import is redirected at all.
-/

namespace StubLoader.Stub

/-- An occurrence of the pattern lies across the seam between two texts. -/
def Straddles (pattern left right : List Char) : Prop :=
  ∃ p q, pattern = p ++ q ∧ p ≠ [] ∧ q ≠ [] ∧ p <:+ left ∧ q <+: right

theorem Straddles.of_suffix {pattern left left' right : List Char}
    (h : Straddles pattern left' right) (hleft : left' <:+ left) :
    Straddles pattern left right := by
  obtain ⟨p, q, hpq, hp, hq, hsuffix, hbegins⟩ := h
  exact ⟨p, q, hpq, hp, hq, hsuffix.trans hleft, hbegins⟩

theorem infix_append_iff_straddles {pattern left right : List Char} (hne : pattern ≠ []) :
    pattern <:+: left ++ right ↔
      pattern <:+: left ∨ pattern <:+: right ∨ Straddles pattern left right := by
  rw [List.infix_append_iff]
  constructor
  · rintro (h | h | ⟨p, q, rfl, hsuffix, hbegins⟩)
    · exact .inl h
    · exact .inr (.inl h)
    · by_cases hp : p = []
      · subst hp
        exact .inr (.inl hbegins.isInfix)
      · by_cases hq : q = []
        · subst hq
          rw [List.append_nil]
          exact .inl hsuffix.isInfix
        · exact .inr (.inr ⟨p, q, rfl, hp, hq, hsuffix, hbegins⟩)
  · rintro (h | h | ⟨p, q, hpq, -, -, hsuffix, hbegins⟩)
    · exact .inl h
    · exact .inr (.inl h)
    · exact .inr (.inr ⟨p, q, hpq, hsuffix, hbegins⟩)

/-! ### Counting -/

section Count

variable {pattern : List Char}

theorem countFrom_drop : ∀ (skip : Nat) (text : List Char),
    countFrom pattern skip text = count pattern (text.drop skip)
  | 0, _ => rfl
  | skip + 1, [] => by rw [List.drop_nil]; rfl
  | skip + 1, _ :: cs => by rw [countFrom, List.drop_succ_cons, countFrom_drop skip cs]

theorem count_cons_of_begins {c : Char} {cs : List Char} (hne : pattern ≠ [])
    (h : pattern <+: c :: cs) :
    count pattern (c :: cs) = count pattern ((c :: cs).drop pattern.length) + 1 := by
  obtain ⟨d, ds, rfl⟩ := List.exists_cons_of_ne_nil hne
  rw [count, countFrom, if_pos (List.isPrefixOf_iff_prefix.mpr h), countFrom_drop]
  rfl

theorem count_cons_of_not_begins {c : Char} {cs : List Char} (h : ¬pattern <+: c :: cs) :
    count pattern (c :: cs) = count pattern cs := by
  rw [count, countFrom, if_neg (by rwa [List.isPrefixOf_iff_prefix])]
  rfl

/-- The pattern is not counted exactly if it does not occur. -/
theorem count_eq_zero_iff (hne : pattern ≠ []) {text : List Char} :
    count pattern text = 0 ↔ ¬pattern <:+: text := by
  induction text with
  | nil => simp [count, countFrom, hne]
  | cons c cs ih =>
    rw [List.infix_cons_iff]
    by_cases hbegins : pattern <+: c :: cs
    · rw [count_cons_of_begins hne hbegins]
      simp [hbegins]
    · rw [count_cons_of_not_begins hbegins, ih]
      simp [hbegins]

theorem infix_of_count_ne_zero (hne : pattern ≠ []) {text : List Char}
    (h : count pattern text ≠ 0) : pattern <:+: text := by
  by_contra hno
  exact h ((count_eq_zero_iff hne).mpr hno)

/-- If no occurrence lies across the seam, one that begins a text ends in its first part. -/
theorem prefix_append_iff {left right : List Char} (hleft : left ≠ [])
    (h : ¬Straddles pattern left right) : pattern <+: left ++ right ↔ pattern <+: left := by
  refine ⟨fun hp => ?_, fun hp => hp.trans (List.prefix_append left right)⟩
  rcases List.prefix_or_prefix_of_prefix hp (List.prefix_append left right) with hp' | ⟨q, rfl⟩
  · exact hp'
  · by_cases hq : q = []
    · rw [hq, List.append_nil]
    · have hbegins : q <+: right := (List.prefix_append_right_inj left).mp hp
      exact absurd ⟨left, q, rfl, hleft, hq, List.suffix_rfl, hbegins⟩ h

/-- Counts add up over two texts if no occurrence lies across the seam. -/
theorem count_append (hne : pattern ≠ []) {left right : List Char}
    (h : ¬Straddles pattern left right) :
    count pattern (left ++ right) = count pattern left + count pattern right := by
  -- an occurrence is passed over as a whole, so the induction is on the length
  induction hn : left.length using Nat.strongRecOn generalizing left with
  | ind n ih =>
    subst hn
    match left with
    | [] => simp [count, countFrom]
    | c :: cs =>
      have hfront : pattern <+: c :: (cs ++ right) ↔ pattern <+: c :: cs :=
        prefix_append_iff (List.cons_ne_nil c cs) h
      rw [List.cons_append]
      by_cases hbegins : pattern <+: c :: cs
      · have hpos := List.length_pos_of_ne_nil hne
        have hlength := hbegins.length_le
        have hshorter : ((c :: cs).drop pattern.length).length < (c :: cs).length := by
          rw [List.length_drop]
          omega
        have hdrop := ih _ hshorter (fun hs => h (hs.of_suffix (List.drop_suffix _ _))) rfl
        rw [count_cons_of_begins hne (hfront.mpr hbegins), count_cons_of_begins hne hbegins,
          ← List.cons_append, List.drop_append_of_le_length hlength, hdrop]
        omega
      · have htail := ih cs.length (by simp)
          (fun hs => h (hs.of_suffix (List.suffix_cons c cs))) rfl
        rw [count_cons_of_not_begins (fun hp => hbegins (hfront.mp hp)),
          count_cons_of_not_begins hbegins, htail]

end Count

/-! ### The first occurrence -/

/-- A text in which the pattern occurs has a first occurrence, which is the one that is counted
first and the one that is replaced. -/
theorem exists_split {pattern : List Char} (hne : pattern ≠ []) {text : List Char}
    (h : pattern <:+: text) : ∃ before after, text = before ++ pattern ++ after ∧
      ¬pattern <:+: before ++ pattern.dropLast ∧
      count pattern text = count pattern after + 1 ∧
      ∀ replacement, replaceFirst pattern replacement text = before ++ replacement ++ after := by
  induction text with
  | nil => exact absurd (List.eq_nil_of_infix_nil h) hne
  | cons c cs ih =>
    by_cases hbegins : pattern <+: c :: cs
    · obtain ⟨after, hafter⟩ := hbegins
      refine ⟨[], after, by rw [List.nil_append, hafter], ?_, ?_, fun replacement => ?_⟩
      · intro hshort
        have hle := hshort.length_le
        have := List.length_pos_of_ne_nil hne
        rw [List.nil_append, List.length_dropLast] at hle
        omega
      · rw [count_cons_of_begins hne ⟨after, hafter⟩, ← hafter, List.drop_left]
      · rw [replaceFirst, if_pos (List.isPrefixOf_iff_prefix.mpr ⟨after, hafter⟩), ← hafter,
          List.drop_left]
        rfl
    · obtain ⟨before, after, rfl, hfirst, hcount, hreplace⟩ :=
        ih ((List.infix_cons_iff.mp h).resolve_left hbegins)
      refine ⟨c :: before, after, rfl, ?_, ?_, fun replacement => ?_⟩
      · rw [List.cons_append, List.infix_cons_iff]
        rintro (hp | hi)
        · refine hbegins (hp.trans ?_)
          rw [← List.cons_append, ← List.cons_append, ← List.cons_append]
          refine List.IsPrefix.trans ?_ (List.prefix_append _ after)
          exact (List.prefix_append_right_inj _).mpr (List.dropLast_prefix pattern)
        · exact hfirst hi
      · rw [count_cons_of_not_begins hbegins, hcount]
      · rw [replaceFirst, if_neg (by rwa [List.isPrefixOf_iff_prefix]), hreplace]
        rfl

/-! ### Redirecting by the count -/

/-- What a text lacks to be ended by a line end. -/
def missingLineEnd (text : List Char) : List Char :=
  if text.getLast? = some '\n' then [] else ['\n']

theorem endLine_eq (text : List Char) : endLine text = text ++ missingLineEnd text := by
  unfold endLine missingLineEnd
  split
  · exact (List.append_nil text).symm
  · rfl

section Redirect

variable {text modulePath reference : List Char}

theorem siblingLiteral_ne_nil : siblingLiteral modulePath ≠ [] := List.cons_ne_nil _ _

theorem redirect_of_count_eq_one (h : count (siblingLiteral modulePath) text = 1) :
    redirect text modulePath reference =
      .ok (endLine (replaceFirst (siblingLiteral modulePath) reference text) ++
        mergeStatement reference) := by
  unfold redirect
  dsimp only
  rw [h]
  rfl

theorem redirect_of_count_ne_one (h : count (siblingLiteral modulePath) text ≠ 1) :
    redirect text modulePath reference =
      .error (.stubImport (String.ofList (siblingLiteral modulePath))
        (count (siblingLiteral modulePath) text)) := by
  unfold redirect
  dsimp only
  split
  · contradiction
  · rfl

end Redirect

end StubLoader.Stub
