import Mathlib.Algebra.Group.Int.Defs
import Mathlib.Data.List.Basic
import StubLoader.Json.Printer
import StubLoader.Proofs.Json.Numeral
/-!
# The values of number literals

`literal?` is the value that a literal has wherever it stands. An integer that fits into 64 bits
is the value of its own literal; that of a double is at least a literal of the grammar.
-/

namespace StubLoader.Json

/-- The value of a number literal, if it has one: there may be a zero too many in front, or the
number may be too large. -/
def literal? (literal : List Char) : Option Json :=
  match scalar literal with
  | .ok (v, []) => some v
  | _ => none

/-! ### Reading -/

theorem scalar_minus (cs : List Char) : scalar ('-' :: cs) = number true cs := by
  simp [scalar]

theorem scalar_digit {c : Char} (h : isDigit c = true) (cs : List Char) :
    scalar (c :: cs) = number false (c :: cs) := by
  have hn : c ≠ 'n' := by rintro rfl; cases h
  have ht : c ≠ 't' := by rintro rfl; cases h
  have hf : c ≠ 'f' := by rintro rfl; cases h
  have hm : c ≠ '-' := by rintro rfl; cases h
  rw [scalar, if_neg hn, if_neg ht, if_neg hf, if_neg hm, if_pos h]

theorem IsMagnitude.exists_cons {m : List Char} (h : IsMagnitude m) :
    ∃ c r, m = c :: r ∧ isDigit c = true := by
  obtain ⟨hw, -, -⟩ := h
  obtain ⟨c, r, rfl, hc⟩ := hw.exists_cons
  exact ⟨c, _, rfl, hc⟩

theorem scalar_magnitude {m : List Char} (h : IsMagnitude m) (rest : List Char) :
    scalar (m ++ rest) = number false (m ++ rest) := by
  obtain ⟨c, r, rfl, hc⟩ := h.exists_cons
  exact scalar_digit hc (r ++ rest)

/-- What `literal?` says of a literal that a reader of numbers takes whole. -/
theorem literal?_eq {l m : List Char} {neg : Bool} (hl : scalar l = number neg m)
    (hm : IsMagnitude m) : literal? l = (number neg m).toOption.map Prod.fst := by
  unfold literal?
  rw [hl]
  match h : number neg m with
  | .error e => rfl
  | .ok (v, r) => rw [number_rest hm h]; rfl

theorem toOption_number_append {neg : Bool} {m rest : List Char} (hm : IsMagnitude m)
    (hr : Boundary rest) : (number neg (m ++ rest)).toOption =
      ((number neg m).toOption.map Prod.fst).map fun v => (v, rest) := by
  rw [extends_number hr neg m]
  match h : number neg m with
  | .error e => rfl
  | .ok (v, r) => rw [number_rest hm h]; rfl

/-- A literal is read as its value wherever it stands. -/
theorem scalar_numeral {l rest : List Char} (hl : IsNumeral l) (hr : Boundary rest) :
    (scalar (l ++ rest)).toOption = (literal? l).map fun v => (v, rest) := by
  cases hl with
  | positive h =>
    have hs : scalar l = number false l := by simpa using scalar_magnitude h []
    rw [scalar_magnitude h, literal?_eq hs h, toOption_number_append h hr]
  | negative h =>
    rw [List.cons_append, scalar_minus, literal?_eq (scalar_minus _) h,
      toOption_number_append h hr]

/-! ### Integers -/

theorem isDigit_eq (c : Char) : isDigit c = c.isDigit := by
  simp [isDigit, Char.isDigit, Char.le_def]

theorem isDigits_natDigits (n : Nat) : IsDigits (natDigits n) := by
  refine ⟨Nat.toDigits_ne_nil, fun c hc => ?_⟩
  rw [isDigit_eq]
  exact Nat.isDigit_of_mem_toDigits (by decide) (by decide) hc

theorem isMagnitude_natDigits (n : Nat) : IsMagnitude (natDigits n) := by
  simpa using IsMagnitude.mk (isDigits_natDigits n) .absent .absent

theorem isNumeral_printInt (n : Int) : IsNumeral (printInt n) := by
  unfold printInt
  split
  · exact .negative (isMagnitude_natDigits _)
  · exact .positive (isMagnitude_natDigits _)

/-- Only the number zero is written with a zero in front. -/
theorem natDigits_head_zero {n : Nat} : (natDigits n).head? = some '0' → n = 0 := by
  induction n using Nat.strongRecOn with
  | ind n ih =>
    intro h
    unfold natDigits at h
    by_cases hn : n < 10
    · rw [Nat.toDigits_of_lt_base hn, List.head?_cons, Option.some.injEq] at h
      exact Nat.digitChar_eq_zero.mp h
    · rw [Nat.toDigits_of_base_le (by decide) (by omega),
        List.head?_append_of_ne_nil _ Nat.toDigits_ne_nil] at h
      have := ih (n / 10) (by omega) h
      omega

theorem le_ofDigitChars (ds : List Char) (s : Nat) : s ≤ Nat.ofDigitChars 10 ds s := by
  rw [Nat.ofDigitChars_eq_ofDigitChars_zero]
  have hpos : 0 < 10 ^ ds.length := Nat.pow_pos (by decide)
  exact Nat.le_trans (Nat.le_mul_of_pos_left s hpos) (Nat.le_add_right _ _)

/-- Digits whose value is in range are all taken into the significand. -/
theorem appendDigits_eq : ∀ {ds : List Char} {s : Nat},
    Nat.ofDigitChars 10 ds s ≤ maxSignificand →
      appendDigits s (ds.map digitValue) = (Nat.ofDigitChars 10 ds s, 0)
  | [], s, _ => rfl
  | d :: ds, s, h => by
    rw [Nat.ofDigitChars_cons, Nat.mul_comm] at h ⊢
    have hle : s * 10 + digitValue d ≤ maxSignificand := Nat.le_trans (le_ofDigitChars ds _) h
    rw [List.map_cons, appendDigits, if_pos hle]
    exact appendDigits_eq h

theorem number_natDigits (neg : Bool) {n : Nat} (h : n ≤ maxSignificand) :
    number neg (natDigits n) = wholeNumber neg n 0 [] := by
  have hds := isDigits_natDigits n
  have hlead : appendDigits 0 (leadingDigits (natDigits n)) = (n, 0) := by
    rw [leadingDigits, hds.takeWhile, natDigits, appendDigits_eq, Nat.ofDigitChars_ten_toDigits]
    rwa [Nat.ofDigitChars_ten_toDigits]
  have hafter : afterDigits (natDigits n) = [] := hds.dropWhile
  have hzero : ∀ r, natDigits n = '0' :: r → r = [] := by
    intro r hr
    have hn : n = 0 := natDigits_head_zero (by rw [hr]; rfl)
    subst hn
    exact ((List.cons.inj hr).2).symm
  cases hd : natDigits n with
  | nil => exact absurd hd hds.1
  | cons c r =>
    rw [hd] at hlead hafter hzero
    have hc : isDigit c = true := hds.2 c (by rw [hd]; exact List.mem_cons_self)
    have hz : ¬(c = '0' ∧ r.head?.any isDigit = true) := by
      rintro ⟨rfl, hr⟩
      rw [hzero r rfl] at hr
      cases hr
    rw [number, if_neg (by simp [hc]), if_neg hz, hlead, hafter]
    rfl

/-- An integer of 64 bits, with or without a sign, is the value of its literal. -/
theorem literal?_printInt {n : Int} (hlow : -2 ^ 63 ≤ n) (hhigh : n < 2 ^ 64) :
    literal? (printInt n) = some (.int n) := by
  have hmax : n.natAbs ≤ maxSignificand := by unfold maxSignificand; omega
  unfold printInt
  split
  · next hn =>
    rw [literal?_eq (scalar_minus _) (isMagnitude_natDigits _), number_natDigits true hmax,
      wholeNumber, if_pos rfl, integer?]
    simp only [Bool.not_true, Bool.false_eq_true, if_false]
    rw [if_pos (by omega)]
    simp only [Except.toOption, Option.map_some]
    rw [show -(n.natAbs : Int) = n by omega]
  · next hn =>
    have hs : scalar (natDigits n.natAbs) = number false (natDigits n.natAbs) := by
      simpa using scalar_magnitude (isMagnitude_natDigits n.natAbs) []
    rw [literal?_eq hs (isMagnitude_natDigits _), number_natDigits false hmax, wholeNumber,
      if_pos rfl, integer?]
    simp only [Bool.not_false, if_true, Except.toOption, Option.map_some]
    rw [show (n.natAbs : Int) = n by omega]

/-! ### Doubles -/

theorem IsDigits.append {ds es : List Char} (hd : IsDigits ds) (he : ∀ c ∈ es, isDigit c = true) :
    IsDigits (ds ++ es) := by
  refine ⟨by simp [hd.1], fun c hc => ?_⟩
  rcases List.mem_append.mp hc with h | h
  · exact hd.2 c h
  · exact he c h

theorem isDigit_of_mem_zeros {n : Nat} {c : Char} (h : c ∈ List.replicate n '0') :
    isDigit c = true := by
  rw [List.eq_of_mem_replicate h]
  rfl

theorem isMagnitude_point {whole ds : List Char} (hw : IsDigits whole) (hds : IsDigits ds) :
    IsMagnitude (whole ++ '.' :: ds) := by
  simpa using IsMagnitude.mk hw (.present hds) .absent

theorem isMagnitude_printPlain {digits : List Char} (h : IsDigits digits) (e : Int) :
    IsMagnitude (printPlain digits e) := by
  unfold printPlain
  split
  · exact isMagnitude_point (h.append fun _ => isDigit_of_mem_zeros)
      ⟨by simp, fun c hc => by rw [List.mem_singleton.mp hc]; rfl⟩
  · next he =>
    -- the digits with zeros in front are more than there are places after the point
    dsimp only
    generalize hpadded : List.replicate (e.natAbs + 1 - digits.length) '0' ++ digits = padded
    have hlen : e.natAbs < padded.length := by
      rw [← hpadded, List.length_append, List.length_replicate]
      omega
    have hall : ∀ c ∈ padded, isDigit c = true := by
      intro c hc
      rw [← hpadded] at hc
      rcases List.mem_append.mp hc with hc | hc
      · exact isDigit_of_mem_zeros hc
      · exact h.2 c hc
    refine isMagnitude_point ⟨?_, fun c hc => hall c (List.mem_of_mem_take hc)⟩
      ⟨?_, fun c hc => hall c (List.mem_of_mem_drop hc)⟩
    · rw [← List.length_pos_iff, List.length_take]
      omega
    · rw [← List.length_pos_iff, List.length_drop]
      omega

theorem isMagnitude_printScientific {digits : List Char} (h : IsDigits digits) (e : Int) :
    IsMagnitude (printScientific digits e) := by
  obtain ⟨d, r, rfl, hd⟩ := h.exists_cons
  have hw : IsDigits [d] := ⟨by simp, fun c hc => by rwa [List.mem_singleton.mp hc]⟩
  have hsign : ∀ down : Prop, [Decidable down] → IsExponent ('e' :: ([if down then '-' else '+'] ++
      natDigits (e + (r.length : Nat)).natAbs)) := by
    intro down _
    refine .present (.inl rfl) ?_ (isDigits_natDigits _)
    split
    · exact .inr (.inr rfl)
    · exact .inr (.inl rfl)
  cases r with
  | nil => exact .mk hw .absent (hsign _)
  | cons d' r =>
    have hf : IsFraction ('.' :: d' :: r) :=
      .present ⟨by simp, fun c hc => h.2 c (List.mem_cons_of_mem d hc)⟩
    have := IsMagnitude.mk hw hf (hsign (e + ((d' :: r).length : Nat) < 0))
    simpa [printScientific] using this

/-- The literal of a double is one of the grammar. -/
theorem isNumeral_printFloat (x : Binary64) : IsNumeral (printFloat x) := by
  have hsize : ∀ size : List Char, IsMagnitude size →
      IsNumeral (if x.negative then '-' :: size else size) := by
    intro size h
    split
    · exact .negative h
    · exact .positive h
  unfold printFloat
  refine hsize _ ?_
  split
  · exact @isMagnitude_point ['0'] ['0']
      ⟨by simp, fun c hc => by rw [List.mem_singleton.mp hc]; rfl⟩
      ⟨by simp, fun c hc => by rw [List.mem_singleton.mp hc]; rfl⟩
  · dsimp only
    split
    · exact isMagnitude_printPlain (isDigits_natDigits _) _
    · exact isMagnitude_printScientific (isDigits_natDigits _) _

end StubLoader.Json
