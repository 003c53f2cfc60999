import Mathlib.Tactic.SplitIfs
import StubLoader.Json.Printer
import StubLoader.Proofs.Json.Grammar
/-!
# String literals

The reader of string characters takes exactly the texts of the grammar, and what is written for a
string is one of them.
-/

namespace StubLoader.Json

/-! ### Reading -/

theorem escapeLetter?_u : escapeLetter? 'u' = none := by decide

theorem stringChars_backslash (cs : List Char) :
    stringChars .none ('\\' :: cs) = stringChars .slash cs := by
  simp [stringChars]

theorem stringChars_u (cs : List Char) :
    stringChars .slash ('u' :: cs) = stringChars (.unit none 0 0) cs := by
  simp [stringChars]

theorem stringChars_high (n : Nat) (cs : List Char) :
    stringChars (.high n) ('\\' :: 'u' :: cs) = stringChars (.unit (some n) 0 0) cs := by
  simp [stringChars]

/-- Four hexadecimal digits lead to what is done with their code unit. -/
theorem stringChars_digits {high : Option Nat} {a b c d : Char} {n : Nat} {cs : List Char}
    (hn : hexUnit? a b c d = some n) :
    stringChars (.unit high 0 0) (a :: b :: c :: d :: cs) =
      match high with
      | none =>
        if isLow n then .error (.before .loneSurrogate cs)
        else if isHigh n then stringChars (.high n) cs
        else pushChar (Char.ofNat n) (stringChars .none cs)
      | some first =>
        if isLow n then pushChar (pairChar first n) (stringChars .none cs)
        else .error (.before .loneSurrogate cs) := by
  unfold hexUnit? at hn
  split at hn
  · next a' b' c' d' ha hb hc hd =>
    cases hn
    cases high <;> simp [stringChars, ha, hb, hc, hd]
  · cases hn

theorem isHigh_eq_false {n : Nat} (h : n < 0xD800) : isHigh n = false := by
  simp only [isHigh, Bool.and_eq_false_iff, decide_eq_false_iff_not]
  exact Or.inl (by omega)

theorem isLow_eq_false {n : Nat} (h : n < 0xDC00) : isLow n = false := by
  simp only [isLow, Bool.and_eq_false_iff, decide_eq_false_iff_not]
  exact Or.inl (by omega)

theorem isLow_of_isHigh {n : Nat} (h : isHigh n = true) : isLow n = false := by
  simp only [isHigh, Bool.and_eq_true, decide_eq_true_eq] at h
  exact isLow_eq_false (by omega)

/-- The reader takes every text of the grammar. -/
theorem stringChars_of_stringText {cs s rest : List Char} (h : StringText cs s rest) :
    stringChars .none cs = .ok (s, rest) := by
  induction h with
  | close => simp [stringChars]
  | plain hq hb hc _ ih =>
    rw [stringChars, if_neg hq, if_neg hb, if_neg (by omega), ih]
    rfl
  | @letter l c cs s rest hl _ ih =>
    have hu : l ≠ 'u' := by
      rintro rfl
      rw [escapeLetter?_u] at hl
      cases hl
    rw [stringChars_backslash, stringChars, if_neg hu]
    simp only [hl, ih]
    rfl
  | unit hn hhigh hlow _ ih =>
    rw [stringChars_backslash, stringChars_u, stringChars_digits hn]
    simp only [hhigh, hlow, Bool.false_eq_true, if_false, ih]
    rfl
  | pair hn hhigh hm hlow _ ih =>
    rw [stringChars_backslash, stringChars_u, stringChars_digits hn]
    simp only [isLow_of_isHigh hhigh, hhigh, Bool.false_eq_true, if_false, if_true]
    rw [stringChars_high, stringChars_digits hm]
    simp only [hlow, if_true, ih]
    rfl

theorem digit_of_stringChars {high : Option Nat} {count value : Nat} {cs s rest : List Char}
    (h : stringChars (.unit high count value) cs = .ok (s, rest)) :
    ∃ c d r, cs = c :: r ∧ hexValue? c = some d ∧
      (count < 3 → stringChars (.unit high (count + 1) (value * 16 + d)) r = .ok (s, rest)) := by
  match cs with
  | [] => cases h
  | c :: r =>
    rw [stringChars] at h
    split at h
    · cases h
    · next d hd =>
      refine ⟨c, d, r, rfl, hd, fun hcount => ?_⟩
      rwa [if_pos hcount] at h

/-- What a reader of a code unit has taken before it goes on. -/
theorem digits_of_stringChars {high : Option Nat} {cs s rest : List Char}
    (h : stringChars (.unit high 0 0) cs = .ok (s, rest)) :
    ∃ a b c d n r, cs = a :: b :: c :: d :: r ∧ hexUnit? a b c d = some n := by
  obtain ⟨a, a', r₁, rfl, ha, h₁⟩ := digit_of_stringChars h
  obtain ⟨b, b', r₂, rfl, hb, h₂⟩ := digit_of_stringChars (h₁ (by omega))
  obtain ⟨c, c', r₃, rfl, hc, h₃⟩ := digit_of_stringChars (h₂ (by omega))
  obtain ⟨d, d', r₄, rfl, hd, -⟩ := digit_of_stringChars (h₃ (by omega))
  refine ⟨a, b, c, d, ((a' * 16 + b') * 16 + c') * 16 + d', r₄, rfl, ?_⟩
  simp only [hexUnit?, ha, hb, hc, hd]

theorem pushChar_eq_ok {c : Char} {read : Read (List Char)} {s rest : List Char}
    (h : pushChar c read = .ok (s, rest)) : ∃ s', s = c :: s' ∧ read = .ok (s', rest) := by
  cases read with
  | error e => cases h
  | ok v =>
    cases h
    exact ⟨v.1, rfl, rfl⟩

/-- What the reader takes is a text of the grammar. -/
theorem stringText_of_stringChars {cs s rest : List Char}
    (h : stringChars .none cs = .ok (s, rest)) : StringText cs s rest := by
  -- an escape takes several characters at once, so the induction is on the length
  induction hn : cs.length using Nat.strongRecOn generalizing cs s with
  | ind n ih =>
    subst hn
    match cs with
    | [] => simp [stringChars] at h
    | c :: cs =>
      rw [stringChars] at h
      split_ifs at h with hq hb hc
      · cases h
        exact hq ▸ .close
      · subst hb
        match cs with
        | [] => simp [stringChars] at h
        | l :: cs =>
          rw [stringChars] at h
          split_ifs at h with hu
          · subst hu
            obtain ⟨a, b, c, d, n, r, rfl, hn⟩ := digits_of_stringChars h
            rw [stringChars_digits hn] at h
            dsimp only at h
            split_ifs at h with hlow hhigh
            · -- the second unit of a pair
              match r with
              | [] => simp [stringChars] at h
              | [_] =>
                simp only [stringChars] at h
                split_ifs at h
              | e :: f :: r =>
                simp only [stringChars] at h
                split_ifs at h with he hf
                subst he hf
                obtain ⟨a', b', c', d', m, r, rfl, hm⟩ := digits_of_stringChars h
                rw [stringChars_digits hm] at h
                dsimp only at h
                split_ifs at h with hlow'
                obtain ⟨s', rfl, hs⟩ := pushChar_eq_ok h
                exact .pair hn hhigh hm hlow' (ih _ (by simp only [List.length_cons]; omega) hs rfl)
            · obtain ⟨s', rfl, hs⟩ := pushChar_eq_ok h
              exact .unit hn (by simpa using hhigh) (by simpa using hlow)
                (ih _ (by simp only [List.length_cons]; omega) hs rfl)
          · split at h
            · next hl =>
              obtain ⟨s', rfl, hs⟩ := pushChar_eq_ok h
              exact .letter hl (ih _ (by simp only [List.length_cons]; omega) hs rfl)
            · cases h
      · obtain ⟨s', rfl, hs⟩ := pushChar_eq_ok h
        exact .plain hq hb (by omega) (ih _ (by simp) hs rfl)

/-- A string literal without its opening quote, as it is read. -/
theorem string_eq_ok_iff {cs rest : List Char} {s : String} :
    string cs = .ok (s, rest) ↔ StringText cs s.toList rest := by
  constructor
  · intro h
    rw [string] at h
    cases hs : stringChars .none cs with
    | error e => rw [hs] at h; cases h
    | ok v =>
      rw [hs] at h
      cases h
      rw [String.toList_ofList]
      exact stringText_of_stringChars hs
  · intro h
    rw [string, stringChars_of_stringText h]
    exact congrArg (fun t => Except.ok (t, rest)) (String.ofList_toList)

/-! ### Writing -/

theorem hexValue?_hexDigit {n : Nat} (h : n < 16) : hexValue? (Text.hexDigit 'a' n) = some n := by
  revert n
  decide

/-- What is written for a character stands for it. -/
theorem stringText_escape (c : Char) {cs s rest : List Char} (h : StringText cs s rest) :
    StringText (escape c ++ cs) (c :: s) rest := by
  unfold escape
  split_ifs with h₁ h₂ h₃ h₄ h₅ h₆ h₇ h₈
  all_goals try (subst_vars; exact .letter rfl h)
  · -- a control character without a letter: two zeros and its code
    have hn : hexUnit? '0' '0' (Text.hexDigit 'a' (c.toNat / 16))
        (Text.hexDigit 'a' (c.toNat % 16)) = some c.toNat := by
      simp only [hexUnit?, hexValue?_hexDigit (show c.toNat / 16 < 16 by omega),
        hexValue?_hexDigit (show c.toNat % 16 < 16 by omega), show hexValue? '0' = some 0 from rfl]
      exact congrArg some (by omega)
    have hsmall : c.toNat < 0xD800 := by omega
    have htext := StringText.unit hn (isHigh_eq_false hsmall) (isLow_eq_false (by omega)) h
    rwa [Char.ofNat_toNat] at htext
  · exact .plain h₁ h₂ (by omega) h

theorem stringText_flatMap_escape (rest : List Char) : ∀ s : List Char,
    StringText (s.flatMap escape ++ '"' :: rest) s rest
  | [] => .close
  | c :: s => by
    rw [List.flatMap_cons, List.append_assoc]
    exact stringText_escape c (stringText_flatMap_escape rest s)

/-- The literal of a string stands for it. -/
theorem stringText_printString (s : String) (rest : List Char) :
    ∃ r, printString s ++ rest = '"' :: r ∧ StringText r s.toList rest := by
  refine ⟨_, ?_, stringText_flatMap_escape rest s.toList⟩
  simp [printString]

end StubLoader.Json
