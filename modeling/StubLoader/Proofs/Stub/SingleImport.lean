import StubLoader.Proofs.Stub.Occurrences
/-!
# The one import

Redirecting scans a text twice, once to count the import and once to replace it. Here the places
that the scans are to find are named without either: the leftmost one at which a pattern stands, and
those that are found by looking for the leftmost again and again, each time behind the last. Both
scans agree with them on every text, so that an import which is found once is the one replaced:

    before  import  after    ↦    before  reference  after  line end  merge statement

and an import which is not found once leaves no text at all, but its number.
-/

namespace StubLoader.Stub

/-! ### The leftmost place -/

/-- The pattern stands in the text between these two parts, and nowhere further to the left. -/
structure Leftmost (pattern before after text : List Char) : Prop where
  split : text = before ++ pattern ++ after
  first : ∀ before' after', text = before' ++ pattern ++ after' → before.length ≤ before'.length

section Leftmost

variable {pattern before after text : List Char}

/-- There is one leftmost place at most. -/
theorem Leftmost.unique {before' after' : List Char} (h : Leftmost pattern before after text)
    (h' : Leftmost pattern before' after' text) : before = before' ∧ after = after' := by
  have hlength : before.length = before'.length :=
    Nat.le_antisymm (h.first _ _ h'.split) (h'.first _ _ h.split)
  have hsplit := h.split.symm.trans h'.split
  rw [List.append_assoc, List.append_assoc] at hsplit
  obtain ⟨hbefore, hrest⟩ := List.append_inj hsplit hlength
  exact ⟨hbefore, List.append_cancel_left hrest⟩

/-- A place is the leftmost if the pattern does not stand in what ends just before its own end. -/
theorem leftmost_of_not_infix (hne : pattern ≠ []) (hsplit : text = before ++ pattern ++ after)
    (h : ¬pattern <:+: before ++ pattern.dropLast) : Leftmost pattern before after text := by
  refine ⟨hsplit, fun before' after' hsplit' => ?_⟩
  by_contra hlt
  have hshort : (before' ++ pattern).length ≤ (before ++ pattern.dropLast).length := by
    have hpos := List.length_pos_of_ne_nil hne
    rw [List.length_append, List.length_append, List.length_dropLast]
    omega
  have hfront : before ++ pattern.dropLast <+: text := by
    rw [hsplit, List.append_assoc]
    exact (List.prefix_append_right_inj before).mpr
      ((List.dropLast_prefix pattern).trans (List.prefix_append pattern after))
  have hfront' : before' ++ pattern <+: text := hsplit' ▸ List.prefix_append _ after'
  have hin := List.prefix_of_prefix_length_le hfront' hfront hshort
  exact h ((List.suffix_append before' pattern).isInfix.trans hin.isInfix)

/-- A pattern that stands in a text has a leftmost place there. It is counted first, and it is the
one that is replaced. -/
theorem exists_leftmost (hne : pattern ≠ []) (h : pattern <:+: text) :
    ∃ before after, Leftmost pattern before after text ∧
      count pattern text = count pattern after + 1 ∧
      ∀ replacement, replaceFirst pattern replacement text = before ++ replacement ++ after := by
  obtain ⟨before, after, hsplit, hfirst, hcount, hreplace⟩ := exists_split hne h
  exact ⟨before, after, leftmost_of_not_infix hne hsplit hfirst, hcount, hreplace⟩

end Leftmost

/-! ### One place after the other -/

/-- Looked for from left to right, each time behind the place where it was found last, the pattern
is found so many times. -/
inductive Found (pattern : List Char) : List Char → Nat → Prop where
  | absent {text : List Char} (h : ¬pattern <:+: text) : Found pattern text 0
  | next {before after text : List Char} {n : Nat} (h : Leftmost pattern before after text)
      (hrest : Found pattern after n) : Found pattern text (n + 1)

section Found

variable {pattern text : List Char}

/-- What is counted is found. -/
theorem found_count (hne : pattern ≠ []) (text : List Char) :
    Found pattern text (count pattern text) := by
  induction hn : text.length using Nat.strongRecOn generalizing text with
  | ind n ih =>
    subst hn
    by_cases hin : pattern <:+: text
    · obtain ⟨before, after, hleftmost, hcount, -⟩ := exists_leftmost hne hin
      have hshorter : after.length < text.length := by
        have hpos := List.length_pos_of_ne_nil hne
        rw [hleftmost.split, List.length_append, List.length_append]
        omega
      rw [hcount]
      exact .next hleftmost (ih _ hshorter after rfl)
    · rw [(count_eq_zero_iff hne).mpr hin]
      exact .absent hin

/-- What is found is counted. -/
theorem Found.eq_count (hne : pattern ≠ []) {n : Nat} (h : Found pattern text n) :
    n = count pattern text := by
  induction h with
  | absent hnot => exact ((count_eq_zero_iff hne).mpr hnot).symm
  | next hleftmost _ ih =>
    obtain ⟨before, after, hleftmost', hcount, -⟩ :=
      exists_leftmost hne ⟨_, _, hleftmost.split.symm⟩
    obtain ⟨-, rfl⟩ := hleftmost.unique hleftmost'
    rw [hcount, ih]

theorem found_iff (hne : pattern ≠ []) {n : Nat} : Found pattern text n ↔ n = count pattern text :=
  ⟨Found.eq_count hne, fun h => h ▸ found_count hne text⟩

/-- Of two places that share a quote only the first is found. -/
example : count (siblingLiteral ['a']) "\"./a_pb\"./a_pb\"".toList = 1 := by decide

end Found

/-! ### Redirecting -/

/-- The import is found a number of times. If that is not once, redirecting it fails with the import
and the number; if it is, the reference takes its place in the text, and nothing else there changes
but that a line end is added where there is none, and then the statement that merges the exports. -/
theorem redirect_replaces_import (text modulePath reference : List Char) :
    ∃ found, (∀ n, Found (siblingLiteral modulePath) text n ↔ n = found) ∧
      ((found ≠ 1 ∧ redirect text modulePath reference =
          .error (.stubImport (String.ofList (siblingLiteral modulePath)) found)) ∨
        (found = 1 ∧ ∃ before after, Leftmost (siblingLiteral modulePath) before after text ∧
          redirect text modulePath reference =
            .ok (before ++ reference ++ after ++ missingLineEnd (before ++ reference ++ after) ++
              mergeStatement reference))) := by
  refine ⟨count (siblingLiteral modulePath) text, fun n => found_iff siblingLiteral_ne_nil, ?_⟩
  by_cases hone : count (siblingLiteral modulePath) text = 1
  · have hin : siblingLiteral modulePath <:+: text :=
      infix_of_count_ne_zero siblingLiteral_ne_nil (by omega)
    obtain ⟨before, after, hleftmost, -, hreplace⟩ := exists_leftmost siblingLiteral_ne_nil hin
    refine .inr ⟨hone, before, after, hleftmost, ?_⟩
    rw [redirect_of_count_eq_one hone, hreplace, endLine_eq]
  · exact .inl ⟨hone, redirect_of_count_ne_one hone⟩

end StubLoader.Stub
