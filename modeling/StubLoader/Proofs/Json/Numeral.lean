import Mathlib.Data.List.TakeWhile
import Mathlib.Tactic.SplitIfs
import StubLoader.Json.Reader
import StubLoader.Proofs.Json.Grammar
/-!
# Number literals

A number literal is read the same whatever follows it, as long as that could not belong to it, so
that one may speak of *the* value of a literal. The reader takes literals of the grammar and takes
them whole.
-/

namespace StubLoader.Json

/-! ### Boundaries -/

theorem isNumberChar_of_isDigit {c : Char} (h : isDigit c = true) : isNumberChar c = true := by
  simp [isNumberChar, h]

theorem Boundary.isDigit {rest : List Char} (h : Boundary rest) {c : Char}
    (hc : rest.head? = some c) : isDigit c = false := by
  have hn := h c hc
  simp only [isNumberChar, Bool.or_eq_false_iff] at hn
  exact hn.1.1.1.1.1

theorem Boundary.isExponentMark {rest : List Char} (h : Boundary rest) {c : Char}
    (hc : rest.head? = some c) : isExponentMark c = false := by
  have hn := h c hc
  simp only [isNumberChar, Bool.or_eq_false_iff] at hn
  simp only [Json.isExponentMark, hn.1.1.1.2, hn.1.1.2, Bool.or_false]

theorem Boundary.ne {rest : List Char} (h : Boundary rest) {c d : Char}
    (hc : rest.head? = some c) (hd : isNumberChar d = true) : c ≠ d := by
  rintro rfl
  rw [h c hc] at hd
  cases hd

theorem boundary_nil : Boundary [] := by
  intro c h
  cases h

theorem boundary_cons {c : Char} (rest : List Char) (h : isNumberChar c = false) :
    Boundary (c :: rest) := by
  intro d hd
  cases hd
  exact h

/-! ### Digits at the start of a text -/

theorem takeWhile_append_of_head {p : Char → Bool} {rest : List Char}
    (h : ∀ c, rest.head? = some c → p c = false) :
    ∀ cs : List Char, (cs ++ rest).takeWhile p = cs.takeWhile p
  | [] => by
    cases rest with
    | nil => rfl
    | cons c r => simp [h c rfl]
  | c :: cs => by
    rw [List.cons_append, List.takeWhile_cons, List.takeWhile_cons,
      takeWhile_append_of_head h cs]

theorem dropWhile_append_of_head {p : Char → Bool} {rest : List Char}
    (h : ∀ c, rest.head? = some c → p c = false) :
    ∀ cs : List Char, (cs ++ rest).dropWhile p = cs.dropWhile p ++ rest
  | [] => by
    cases rest with
    | nil => rfl
    | cons c r => simp [h c rfl]
  | c :: cs => by
    rw [List.cons_append, List.dropWhile_cons, List.dropWhile_cons,
      dropWhile_append_of_head h cs]
    split <;> rfl

section Boundary

variable {rest : List Char} (h : Boundary rest)
include h

theorem leadingDigits_append (cs : List Char) : leadingDigits (cs ++ rest) = leadingDigits cs := by
  rw [leadingDigits, takeWhile_append_of_head (fun _ hc => h.isDigit hc) cs, leadingDigits]

theorem afterDigits_append (cs : List Char) :
    afterDigits (cs ++ rest) = afterDigits cs ++ rest :=
  dropWhile_append_of_head (fun _ hc => h.isDigit hc) cs

theorem any_isDigit_append (cs : List Char) :
    (cs ++ rest).head?.any isDigit = cs.head?.any isDigit := by
  cases cs with
  | cons c cs => rfl
  | nil =>
    cases rest with
    | nil => rfl
    | cons c r => simpa using h.isDigit rfl

end Boundary

/-! ### What follows does not matter -/

/-- Two readings agree, the text of the second going on with `rest` where that of the first ends.
Why a reading fails does not matter. -/
def Extends {α : Type} (rest : List Char) (shorter longer : Read α) : Prop :=
  longer.toOption = shorter.toOption.map fun p => (p.1, p.2 ++ rest)

theorem extends_error {α : Type} {rest : List Char} (e e' : Fault) :
    Extends (α := α) rest (.error e) (.error e') := rfl

theorem extends_ok {α : Type} {rest : List Char} (v : α) (r : List Char) :
    Extends rest (.ok (v, r)) (.ok (v, r ++ rest)) := rfl

theorem extends_makeFloat (neg : Bool) (s : Nat) (e : Int) (r rest : List Char) :
    Extends rest (makeFloat neg s e r) (makeFloat neg s e (r ++ rest)) := by
  unfold makeFloat
  cases Binary64.ofParts s e <;> rfl

theorem extends_wholeNumber (neg : Bool) (s skipped : Nat) (r rest : List Char) :
    Extends rest (wholeNumber neg s skipped r) (wholeNumber neg s skipped (r ++ rest)) := by
  unfold wholeNumber
  split
  · rfl
  · exact extends_makeFloat ..

section Boundary

variable {rest : List Char} (h : Boundary rest)
include h

theorem extends_exponentDigits (neg : Bool) (s : Nat) (e : Int) (down : Bool) (cs : List Char) :
    Extends rest (exponentDigits neg s e down cs) (exponentDigits neg s e down (cs ++ rest)) := by
  match cs, rest, h with
  | [], [], _ => exact extends_error ..
  | [], c :: r, h =>
    have hc : isDigit c = false := h.isDigit rfl
    simp only [exponentDigits, List.nil_append, hc, Bool.not_false, if_true]
    exact extends_error ..
  | c :: cs, rest, h =>
    have hlead := leadingDigits_append h (c :: cs)
    have hafter := afterDigits_append h (c :: cs)
    simp only [List.cons_append] at hlead hafter ⊢
    cases hc : isDigit c with
    | false =>
      simp only [exponentDigits, hc, Bool.not_false, if_true]
      exact extends_error ..
    | true =>
      simp only [exponentDigits, hc, Bool.not_true, Bool.false_eq_true, if_false, hlead, hafter]
      cases exponentValue 0 0 (leadingDigits (c :: cs)) with
      | ok n => exact extends_makeFloat ..
      | error read =>
        dsimp only
        split_ifs
        · exact extends_error ..
        · exact extends_ok ..

theorem exponentSign_append (cs : List Char) :
    exponentSign (cs ++ rest) = ((exponentSign cs).1, (exponentSign cs).2 ++ rest) := by
  match cs, rest, h with
  | [], [], _ => rfl
  | [], c :: r, h =>
    have hminus : c ≠ '-' := h.ne rfl (by decide)
    have hplus : c ≠ '+' := h.ne rfl (by decide)
    simp [exponentSign, hminus, hplus]
  | c :: cs, rest, h =>
    rw [List.cons_append]
    unfold exponentSign
    split <;> simp_all

theorem extends_exponentPart (neg : Bool) (s : Nat) (e : Int) (cs : List Char) :
    Extends rest (exponentPart neg s e cs) (exponentPart neg s e (cs ++ rest)) := by
  match cs, rest, h with
  | [], [], _ => exact extends_makeFloat ..
  | [], c :: r, h =>
    have hc : isExponentMark c = false := h.isExponentMark rfl
    simpa [exponentPart, hc] using extends_makeFloat neg s e [] (c :: r)
  | c :: cs, rest, h =>
    rw [List.cons_append, exponentPart, exponentPart]
    split_ifs
    · rw [exponentSign_append h cs]
      exact extends_exponentDigits h ..
    · exact extends_makeFloat neg s e (c :: cs) rest

theorem extends_fractionPart (neg : Bool) (s : Nat) (e : Int) (cs : List Char) :
    Extends rest (fractionPart neg s e cs) (fractionPart neg s e (cs ++ rest)) := by
  unfold fractionPart
  rw [leadingDigits_append h, afterDigits_append h]
  split
  · exact extends_error ..
  · exact extends_exponentPart h ..

theorem extends_afterWhole (neg : Bool) (s skipped : Nat) (cs : List Char) :
    Extends rest (afterWhole neg s skipped cs) (afterWhole neg s skipped (cs ++ rest)) := by
  match cs, rest, h with
  | [], [], _ => exact extends_wholeNumber ..
  | [], c :: r, h =>
    have hc : isExponentMark c = false := h.isExponentMark rfl
    have hp : c ≠ '.' := h.ne rfl (by decide)
    simpa [afterWhole, hc, hp] using extends_wholeNumber neg s skipped [] (c :: r)
  | c :: cs, rest, h =>
    rw [List.cons_append, afterWhole, afterWhole]
    split_ifs
    · exact extends_fractionPart h ..
    · exact extends_exponentPart h neg s skipped (c :: cs)
    · exact extends_wholeNumber neg s skipped (c :: cs) rest

/-- A number is read the same whatever follows it. -/
theorem extends_number (neg : Bool) (cs : List Char) :
    Extends rest (number neg cs) (number neg (cs ++ rest)) := by
  match cs, rest, h with
  | [], [], _ => exact extends_error ..
  | [], c :: r, h =>
    have hc : isDigit c = false := h.isDigit rfl
    simp only [number, List.nil_append, hc, Bool.not_false, if_true]
    exact extends_error ..
  | c :: cs, rest, h =>
    have hlead := leadingDigits_append h (c :: cs)
    have hafter := afterDigits_append h (c :: cs)
    rw [List.cons_append] at hlead hafter ⊢
    rw [number, number, any_isDigit_append h]
    split_ifs
    · exact extends_error ..
    · exact extends_error ..
    · rw [hlead, hafter]
      exact extends_afterWhole h ..

end Boundary

/-! ### Literals are of the grammar -/

theorem isDigits_takeWhile {c : Char} (h : isDigit c = true) (cs : List Char) :
    IsDigits ((c :: cs).takeWhile isDigit) :=
  ⟨by simp [h], fun _ hd => List.mem_takeWhile_imp hd⟩

theorem makeFloat_eq_ok {neg : Bool} {s : Nat} {e : Int} {cs r : List Char} {v : Json}
    (h : makeFloat neg s e cs = .ok (v, r)) : r = cs := by
  unfold makeFloat at h
  split at h
  · cases h; rfl
  · cases h

theorem exponentDigits_eq_ok {neg : Bool} {s : Nat} {e : Int} {down : Bool} {cs r : List Char}
    {v : Json} (h : exponentDigits neg s e down cs = .ok (v, r)) :
    ∃ ds, IsDigits ds ∧ cs = ds ++ r ∧ r = afterDigits cs := by
  unfold exponentDigits at h
  split at h
  · cases h
  · next c cs =>
    by_cases hc : (!isDigit c) = true
    · rw [if_pos hc] at h
      cases h
    rw [if_neg hc] at h
    have hr : r = afterDigits (c :: cs) := by
      split at h
      · exact makeFloat_eq_ok h
      · split at h
        · cases h
        · cases h; rfl
    refine ⟨_, isDigits_takeWhile (by simpa using hc) cs, ?_, hr⟩
    rw [hr]
    exact List.takeWhile_append_dropWhile.symm

theorem exponentSign_eq (cs : List Char) : ∃ sign,
    (sign = [] ∨ sign = ['+'] ∨ sign = ['-']) ∧ cs = sign ++ (exponentSign cs).2 := by
  unfold exponentSign
  split
  · exact ⟨['-'], .inr (.inr rfl), rfl⟩
  · exact ⟨['+'], .inr (.inl rfl), rfl⟩
  · exact ⟨[], .inl rfl, rfl⟩

theorem isExponentMark_iff {c : Char} : isExponentMark c = true ↔ c = 'e' ∨ c = 'E' := by
  simp [isExponentMark]

theorem exponentPart_eq_ok {neg : Bool} {s : Nat} {e : Int} {cs r : List Char} {v : Json}
    (h : exponentPart neg s e cs = .ok (v, r)) : ∃ ex, IsExponent ex ∧ cs = ex ++ r := by
  unfold exponentPart at h
  split at h
  · exact ⟨[], .absent, (makeFloat_eq_ok h).symm⟩
  · next c cs =>
    split_ifs at h with hc
    · obtain ⟨sign, hsign, hcs⟩ := exponentSign_eq cs
      obtain ⟨ds, hds, hr, -⟩ := @exponentDigits_eq_ok _ _ _ _ (exponentSign cs).2 _ _ h
      refine ⟨c :: (sign ++ ds), .present (isExponentMark_iff.mp hc) hsign hds, ?_⟩
      rw [hr] at hcs
      rw [hcs, List.cons_append, List.append_assoc]
    · exact ⟨[], .absent, (makeFloat_eq_ok h).symm⟩

theorem fractionPart_eq_ok {neg : Bool} {s : Nat} {e : Int} {cs r : List Char} {v : Json}
    (h : fractionPart neg s e cs = .ok (v, r)) :
    ∃ ds ex, IsDigits ds ∧ IsExponent ex ∧ cs = ds ++ (ex ++ r) := by
  unfold fractionPart at h
  split at h
  · cases h
  · next hlead =>
    obtain ⟨ex, hex, hr⟩ := exponentPart_eq_ok h
    refine ⟨cs.takeWhile isDigit, ex, ⟨?_, fun _ hd => List.mem_takeWhile_imp hd⟩, hex, ?_⟩
    · intro hnil
      exact hlead (by rw [leadingDigits, hnil]; rfl)
    · rw [← hr]
      exact List.takeWhile_append_dropWhile.symm

theorem wholeNumber_eq_ok {neg : Bool} {s skipped : Nat} {cs r : List Char} {v : Json}
    (h : wholeNumber neg s skipped cs = .ok (v, r)) : r = cs := by
  unfold wholeNumber at h
  split at h
  · cases h; rfl
  · exact makeFloat_eq_ok h

theorem afterWhole_eq_ok {neg : Bool} {s skipped : Nat} {cs r : List Char} {v : Json}
    (h : afterWhole neg s skipped cs = .ok (v, r)) :
    ∃ fr ex, IsFraction fr ∧ IsExponent ex ∧ cs = fr ++ (ex ++ r) := by
  unfold afterWhole at h
  split at h
  · exact ⟨[], [], .absent, .absent, (wholeNumber_eq_ok h).symm⟩
  · next c cs =>
    split_ifs at h with hp he
    · obtain ⟨ds, ex, hds, hex, hr⟩ := fractionPart_eq_ok h
      exact ⟨'.' :: ds, ex, .present hds, hex, by rw [hp, hr, List.cons_append]⟩
    · obtain ⟨ex, hex, hr⟩ := exponentPart_eq_ok h
      exact ⟨[], ex, .absent, hex, hr⟩
    · exact ⟨[], [], .absent, .absent, (wholeNumber_eq_ok h).symm⟩

/-- What the reader of numbers takes is a number of the grammar. -/
theorem number_eq_ok {neg : Bool} {cs r : List Char} {v : Json}
    (h : number neg cs = .ok (v, r)) : ∃ m, IsMagnitude m ∧ cs = m ++ r := by
  unfold number at h
  split at h
  · cases h
  · next c cs =>
    split_ifs at h with hc hz
    obtain ⟨fr, ex, hfr, hex, hr⟩ := afterWhole_eq_ok h
    refine ⟨_, .mk (isDigits_takeWhile (by simpa using hc) cs) hfr hex, ?_⟩
    rw [List.append_assoc, List.append_assoc, ← hr]
    exact List.takeWhile_append_dropWhile.symm

/-! ### Literals are taken whole -/

section Digits

variable {ds : List Char} (hds : IsDigits ds)
include hds

theorem IsDigits.exists_cons : ∃ d r, ds = d :: r ∧ isDigit d = true := by
  obtain ⟨hne, hall⟩ := hds
  cases ds with
  | nil => exact absurd rfl hne
  | cons d r => exact ⟨d, r, rfl, hall d List.mem_cons_self⟩

theorem IsDigits.takeWhile : ds.takeWhile isDigit = ds := List.takeWhile_eq_self_iff.mpr hds.2

theorem IsDigits.dropWhile : ds.dropWhile isDigit = [] := List.dropWhile_eq_nil_iff.mpr hds.2

theorem IsDigits.leadingDigits {rest : List Char}
    (h : ∀ c, rest.head? = some c → isDigit c = false) :
    leadingDigits (ds ++ rest) = ds.map digitValue := by
  rw [Json.leadingDigits, takeWhile_append_of_head h, hds.takeWhile]

theorem IsDigits.afterDigits {rest : List Char}
    (h : ∀ c, rest.head? = some c → isDigit c = false) : afterDigits (ds ++ rest) = rest := by
  rw [Json.afterDigits, dropWhile_append_of_head h, hds.dropWhile, List.nil_append]

theorem IsDigits.exponentSign {sign : List Char}
    (hsign : sign = [] ∨ sign = ['+'] ∨ sign = ['-']) : (exponentSign (sign ++ ds)).2 = ds := by
  obtain ⟨d, r, rfl, hd⟩ := hds.exists_cons
  have hminus : d ≠ '-' := by rintro rfl; cases hd
  have hplus : d ≠ '+' := by rintro rfl; cases hd
  rcases hsign with rfl | rfl | rfl
  · simp [Json.exponentSign, hminus, hplus]
  · rfl
  · rfl

end Digits

theorem IsExponent.head {ex : List Char} (h : IsExponent ex) {c : Char} (hc : ex.head? = some c) :
    isExponentMark c = true := by
  cases h with
  | absent => cases hc
  | present he => cases hc; exact isExponentMark_iff.mpr he

theorem isDigit_of_isExponentMark {c : Char} (h : isExponentMark c = true) : isDigit c = false := by
  rcases isExponentMark_iff.mp h with rfl | rfl <;> rfl

theorem IsExponent.isDigit_head {ex : List Char} (h : IsExponent ex) (c : Char)
    (hc : ex.head? = some c) : isDigit c = false := isDigit_of_isExponentMark (h.head hc)

theorem IsFraction.isDigit_head {fr ex : List Char} (hf : IsFraction fr) (he : IsExponent ex)
    (c : Char) (hc : (fr ++ ex).head? = some c) : isDigit c = false := by
  cases hf with
  | absent => exact he.isDigit_head c hc
  | present _ => cases hc; rfl

theorem exponentPart_rest {neg : Bool} {s : Nat} {e : Int} {ex r : List Char} {v : Json}
    (hex : IsExponent ex) (h : exponentPart neg s e ex = .ok (v, r)) : r = [] := by
  cases hex with
  | absent => exact makeFloat_eq_ok h
  | present he hsign hds =>
    rw [exponentPart, if_pos (isExponentMark_iff.mpr he)] at h
    obtain ⟨-, -, -, hr⟩ := @exponentDigits_eq_ok _ _ _ _ (exponentSign _).2 _ _ h
    rw [hds.exponentSign hsign] at hr
    rw [hr]
    exact hds.dropWhile

theorem fractionPart_rest {neg : Bool} {s : Nat} {e : Int} {ds ex r : List Char} {v : Json}
    (hds : IsDigits ds) (hex : IsExponent ex)
    (h : fractionPart neg s e (ds ++ ex) = .ok (v, r)) : r = [] := by
  unfold fractionPart at h
  split at h
  · cases h
  · rw [hds.afterDigits hex.isDigit_head] at h
    exact exponentPart_rest hex h

theorem afterWhole_rest {neg : Bool} {s skipped : Nat} {fr ex r : List Char} {v : Json}
    (hfr : IsFraction fr) (hex : IsExponent ex)
    (h : afterWhole neg s skipped (fr ++ ex) = .ok (v, r)) : r = [] := by
  cases hfr with
  | present hds =>
    rw [List.cons_append, afterWhole, if_pos rfl] at h
    exact fractionPart_rest hds hex h
  | absent =>
    rw [List.nil_append] at h
    match ex, hex with
    | [], _ => exact wholeNumber_eq_ok h
    | c :: cs, hex =>
      have hc := hex.head (c := c) rfl
      have hp : c ≠ '.' := by rintro rfl; cases hc
      rw [afterWhole, if_neg hp, if_pos hc] at h
      exact exponentPart_rest hex h

/-- A number of the grammar is taken whole. -/
theorem number_rest {neg : Bool} {m r : List Char} {v : Json} (hm : IsMagnitude m)
    (h : number neg m = .ok (v, r)) : r = [] := by
  obtain ⟨hw, hfr, hex⟩ := hm
  have hafter := hw.afterDigits (IsFraction.isDigit_head hfr hex)
  unfold number at h
  split at h
  · cases h
  · split_ifs at h
    rw [hafter] at h
    exact afterWhole_rest hfr hex h

end StubLoader.Json
