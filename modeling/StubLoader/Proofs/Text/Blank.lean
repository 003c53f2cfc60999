import StubLoader.Text.Blank
/-!
# Trimmed texts

A text whose first and last characters are no blanks is not changed by trimming.
-/

namespace StubLoader.Text

theorem trimStart_of_head {cs : List Char} (h : ∀ c, cs.head? = some c → isBlank c = false) :
    trimStart cs = cs := by
  cases cs with
  | nil => rfl
  | cons c cs => rw [trimStart, List.dropWhile_cons, h c rfl]; rfl

theorem trimEnd_of_getLast {cs : List Char} (h : ∀ c, cs.getLast? = some c → isBlank c = false) :
    trimEnd cs = cs := by
  have hstart : trimStart cs.reverse = cs.reverse :=
    trimStart_of_head fun c hc => h c (by rwa [List.head?_reverse] at hc)
  rw [trimStart] at hstart
  rw [trimEnd, hstart, List.reverse_reverse]

theorem trim_brackets {left right : Char} (cs : List Char) (hl : isBlank left = false)
    (hr : isBlank right = false) : trim (left :: cs ++ [right]) = left :: cs ++ [right] := by
  have hstart : trimStart (left :: cs ++ [right]) = left :: cs ++ [right] := by
    refine trimStart_of_head fun c hc => ?_
    cases hc
    exact hl
  rw [trim, hstart]
  refine trimEnd_of_getLast fun c hc => ?_
  rw [List.getLast?_concat, Option.some.injEq] at hc
  exact hc ▸ hr

end StubLoader.Text
