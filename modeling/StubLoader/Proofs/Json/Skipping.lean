import StubLoader.Json.Skip
import StubLoader.Proofs.Json.Meaning
import StubLoader.Proofs.Json.Reading
/-!
# Values that are passed over

The value of a member that nobody asks for is passed over whatever it is: the only spellings that
are refused are those in which a number has a zero too many in front. Depth, size and range play no
part, since the skipper keeps the open brackets in a list and looks at no value.
-/

namespace StubLoader.Json

/-! ### Zeros in front -/

/-- Whether a zero stands in front of another digit. -/
def padded : List Char → Bool
  | '0' :: d :: _ => isDigit d
  | '-' :: '0' :: d :: _ => isDigit d
  | _ => false

theorem padded_iff {literal : List Char} : padded literal = true ↔ Padded literal := by
  constructor
  · intro h
    unfold padded at h
    split at h
    · exact ⟨_, _, h, .inl rfl⟩
    · exact ⟨_, _, h, .inr rfl⟩
    · cases h
  · rintro ⟨d, r, hd, rfl | rfl⟩
    · exact hd
    · exact hd

theorem padded_digit {d : Char} (hd : isDigit d = true) (r : List Char) :
    padded (d :: r) = decide (d = '0' ∧ r.head?.any isDigit) := by
  by_cases hzero : d = '0'
  · subst hzero
    cases r with
    | nil => rfl
    | cons e r => simp [padded]
  · have hminus : d ≠ '-' := by rintro rfl; cases hd
    simp [padded, hzero, hminus]

theorem padded_minus {m : List Char} (hm : IsMagnitude m) : padded ('-' :: m) = padded m := by
  obtain ⟨d, r, rfl, hd⟩ := hm.exists_cons
  rw [padded_digit hd]
  by_cases hzero : d = '0'
  · subst hzero
    cases r with
    | nil => rfl
    | cons e r => simp [padded]
  · simp [padded, hzero]

mutual

/-- Whether no number of the tree has a zero too many in front. -/
def Tree.unpadded : Tree → Bool
  | .null | .bool _ | .str _ => true
  | .number literal => !padded literal
  | .arr items => Tree.unpaddedItems items
  | .obj members => Tree.unpaddedMembers members

/-- Whether this holds of all items. -/
def Tree.unpaddedItems : List Tree → Bool
  | [] => true
  | t :: ts => t.unpadded && Tree.unpaddedItems ts

/-- Whether this holds of the values of all members. -/
def Tree.unpaddedMembers : List (String × Tree) → Bool
  | [] => true
  | (_, t) :: ms => t.unpadded && Tree.unpaddedMembers ms

end

theorem Tree.unpaddedItems_eq_all : ∀ ts : List Tree,
    Tree.unpaddedItems ts = ts.all Tree.unpadded
  | [] => rfl
  | t :: ts => by rw [Tree.unpaddedItems, List.all_cons, Tree.unpaddedItems_eq_all ts]

theorem Tree.unpaddedMembers_eq_all : ∀ ms : List (String × Tree),
    Tree.unpaddedMembers ms = ms.all fun m => m.2.unpadded
  | [] => rfl
  | (_, t) :: ms => by rw [Tree.unpaddedMembers, List.all_cons, Tree.unpaddedMembers_eq_all ms]

theorem Tree.unpadded_iff (t : Tree) : t.unpadded = true ↔ t.Unpadded := by
  induction t using Tree.induct with
  | null => exact iff_of_true rfl .null
  | bool b => exact iff_of_true rfl (.bool b)
  | str s => exact iff_of_true rfl (.str s)
  | number literal =>
    rw [Tree.unpadded, Bool.not_eq_true', ← Bool.not_eq_true, padded_iff]
    exact ⟨.number, fun h => by cases h; assumption⟩
  | arr ts ih =>
    rw [Tree.unpadded, Tree.unpaddedItems_eq_all, List.all_eq_true]
    constructor
    · exact fun h => .arr fun t ht => (ih t ht).mp (h t ht)
    · rintro (_ | _ | _ | _ | h | _) t ht
      exact (ih t ht).mpr (h t ht)
  | obj ms ih =>
    rw [Tree.unpadded, Tree.unpaddedMembers_eq_all, List.all_eq_true]
    constructor
    · exact fun h => .obj fun m hm => (ih m hm).mp (h m hm)
    · rintro (_ | _ | _ | _ | _ | h) m hm
      exact (ih m hm).mpr (h m hm)

instance : DecidablePred Tree.Unpadded := fun t => decidable_of_iff _ t.unpadded_iff

/-! ### Strings -/

theorem skipString_plain {c : Char} (hq : c ≠ '"') (hb : c ≠ '\\') (hc : 0x20 ≤ c.toNat)
    (cs : List Char) : skipString .none (c :: cs) = skipString .none cs := by
  simp [skipString, hq, hb, Nat.not_lt.mpr hc]

theorem skipString_backslash (cs : List Char) :
    skipString .none ('\\' :: cs) = skipString .slash cs := by
  simp [skipString]

theorem skipString_u (cs : List Char) :
    skipString .slash ('u' :: cs) = skipString (.unit none 0 0) cs := by
  simp [skipString]

/-- Four hexadecimal digits are passed over, whatever they stand for. -/
theorem skipString_digits {a b c d : Char} {n : Nat} {cs : List Char}
    (hn : hexUnit? a b c d = some n) :
    skipString (.unit none 0 0) (a :: b :: c :: d :: cs) = skipString .none cs := by
  unfold hexUnit? at hn
  split at hn
  · next ha hb hc hd => simp [skipString, ha, hb, hc, hd]
  · cases hn

theorem skipString_of_stringText {cs s rest : List Char} (h : StringText cs s rest) :
    skipString .none cs = .ok rest := by
  induction h with
  | close => simp [skipString]
  | plain hq hb hc _ ih => rw [skipString_plain hq hb hc, ih]
  | @letter l c cs s rest hl _ ih =>
    have hu : l ≠ 'u' := by
      rintro rfl
      rw [escapeLetter?_u] at hl
      cases hl
    rw [skipString_backslash, skipString, if_neg hu, if_pos (by rw [hl]; rfl), ih]
  | unit hn _ _ _ ih => rw [skipString_backslash, skipString_u, skipString_digits hn, ih]
  | pair hn _ hm _ _ ih =>
    rw [skipString_backslash, skipString_u, skipString_digits hn, skipString_backslash,
      skipString_u, skipString_digits hm, ih]

/-! ### Numbers -/

/-- Passes over what follows the whole digits of a number. -/
def skipFraction (cs : List Char) : Except Fault (List Char) :=
  match cs with
  | '.' :: r =>
    if r.head?.any isDigit then skipExponent (afterDigits r) else .error (.next .invalidNumber r)
  | rest => skipExponent rest

theorem skipNumber_eq {c : Char} {r : List Char} (hc : isDigit c = true) :
    skipNumber (c :: r) = if c = '0' ∧ r.head?.any isDigit then .error (.next .invalidNumber r)
      else skipFraction (if c = '0' then r else afterDigits (c :: r)) := by
  rw [skipNumber, if_neg (by simp [hc])]
  rfl

section Numbers

variable {rest : List Char} (hrest : Boundary rest)
include hrest

theorem skipExponentDigits_append {ds : List Char} (hds : IsDigits ds) :
    skipExponentDigits (ds ++ rest) = .ok rest := by
  have hafter : afterDigits (ds ++ rest) = rest := hds.afterDigits fun _ hc => hrest.isDigit hc
  obtain ⟨d, r, rfl, hd⟩ := hds.exists_cons
  rw [skipExponentDigits, if_pos (by simpa using hd), hafter]

/-- An exponent is passed over, and where none stands nothing is. -/
theorem skipExponent_append {ex : List Char} (hex : IsExponent ex) :
    skipExponent (ex ++ rest) = .ok rest := by
  cases hex with
  | absent =>
    match rest, hrest with
    | [], _ => rfl
    | c :: r, hrest =>
      have hlow : c ≠ 'e' := hrest.ne rfl rfl
      have hhigh : c ≠ 'E' := hrest.ne rfl rfl
      simp [skipExponent, hlow, hhigh]
  | @present e sign ds he hsign hds =>
    have hdigits := skipExponentDigits_append hrest hds
    obtain ⟨d, r, rfl, hd⟩ := hds.exists_cons
    have hplus : d ≠ '+' := by rintro rfl; cases hd
    have hminus : d ≠ '-' := by rintro rfl; cases hd
    rw [List.cons_append, List.append_assoc, List.cons_append]
    rw [List.cons_append] at hdigits
    rcases he with rfl | rfl <;> rcases hsign with rfl | rfl | rfl <;>
      simpa [skipExponent, hplus, hminus] using hdigits

/-- What follows the whole digits of a number has no digit in front. -/
theorem isDigit_head_append {fr ex : List Char} (hfr : IsFraction fr) (hex : IsExponent ex)
    (c : Char) (hc : (fr ++ (ex ++ rest)).head? = some c) : isDigit c = false := by
  rw [← List.append_assoc] at hc
  match h : fr ++ ex with
  | [] =>
    rw [h, List.nil_append] at hc
    exact hrest.isDigit hc
  | d :: r =>
    rw [h] at hc
    exact IsFraction.isDigit_head hfr hex c (h ▸ hc)

theorem skipFraction_append {fr ex : List Char} (hfr : IsFraction fr) (hex : IsExponent ex) :
    skipFraction (fr ++ (ex ++ rest)) = .ok rest := by
  have hexponent := skipExponent_append hrest hex
  cases hfr with
  | absent =>
    have hpoint : ∀ r, ex ++ rest ≠ '.' :: r := by
      intro r h
      match ex, hex with
      | [], _ => exact absurd rfl (hrest.ne (c := '.') (by rw [← List.nil_append rest, h]; rfl) rfl)
      | c :: ex, hex =>
        have hc := hex.head (c := c) rfl
        cases h
        cases hc
    rw [List.nil_append, skipFraction]
    · exact hexponent
    · exact hpoint
  | present hds =>
    have hafter := hds.afterDigits (isDigit_head_append hrest .absent hex)
    rw [List.nil_append] at hafter
    rw [List.cons_append, skipFraction, hafter, hexponent, if_pos]
    obtain ⟨d, r, rfl, hd⟩ := hds.exists_cons
    simpa using hd

/-- A number is passed over unless it has a zero too many in front. -/
theorem skipNumber_append {m : List Char} (hm : IsMagnitude m) :
    (skipNumber (m ++ rest)).toOption = if padded m then none else some rest := by
  obtain ⟨hw, hfr, hex⟩ := hm
  next whole fr ex =>
  obtain ⟨d, w, rfl, hd⟩ := hw.exists_cons
  have hafter := hw.afterDigits (isDigit_head_append hrest hfr hex)
  rw [List.cons_append] at hafter
  have hany := any_isDigit_append hrest (w ++ (fr ++ ex))
  rw [List.append_assoc, List.append_assoc] at hany
  rw [List.append_assoc, List.append_assoc, List.cons_append, List.cons_append, skipNumber_eq hd,
    padded_digit hd, hany]
  by_cases hpadded : d = '0' ∧ (w ++ (fr ++ ex)).head?.any isDigit
  · rw [if_pos hpadded, decide_eq_true hpadded]
    rfl
  · have htail : (if d = '0' then w ++ (fr ++ (ex ++ rest))
        else afterDigits (d :: (w ++ (fr ++ (ex ++ rest))))) = fr ++ (ex ++ rest) := by
      split_ifs with hzero
      · -- no other whole digit follows the zero
        cases w with
        | nil => rfl
        | cons e w => exact absurd ⟨hzero, by simpa using hw.2 e (by simp)⟩ hpadded
      · exact hafter
    rw [if_neg hpadded, decide_eq_false hpadded, htail, skipFraction_append hrest hfr hex]
    rfl

end Numbers

/-! ### Scalars -/

theorem skipScalar_numeral {l rest : List Char} (hl : IsNumeral l) (hrest : Boundary rest) :
    (skipScalar (l ++ rest)).toOption = if padded l then none else some rest := by
  cases hl with
  | positive hm =>
    have hnumber := skipNumber_append hrest hm
    obtain ⟨c, r, rfl, hc⟩ := hm.exists_cons
    have hminus : c ≠ '-' := by rintro rfl; cases hc
    rw [← hnumber, List.cons_append, skipScalar, if_neg hminus, if_pos hc]
  | negative hm =>
    rw [List.cons_append, skipScalar, if_pos rfl, skipNumber_append hrest hm, padded_minus hm]

/-- What is neither array nor object is passed over unless it is a number with a zero too many. -/
theorem skipScalar_toOption {t : Tree} {cs r rest : List Char} {c : Char} (h : Spells t cs rest)
    (hrest : Boundary rest) (hc : skipSpace cs = c :: r) (hlist : c ≠ '[') (hobject : c ≠ '\x7b') :
    (skipScalar (c :: r)).toOption = if t.unpadded then some rest else none := by
  match t with
  | .null =>
    cases hc.symm.trans (h : skipSpace cs = 'n' :: 'u' :: 'l' :: 'l' :: rest)
    rfl
  | .bool true =>
    cases hc.symm.trans (h : skipSpace cs = 't' :: 'r' :: 'u' :: 'e' :: rest)
    rfl
  | .bool false =>
    cases hc.symm.trans (h : skipSpace cs = 'f' :: 'a' :: 'l' :: 's' :: 'e' :: rest)
    rfl
  | .number l =>
    rw [← hc, h.2, skipScalar_numeral h.1 hrest, Tree.unpadded]
    cases padded l <;> rfl
  | .str s =>
    obtain ⟨r', hr', hs⟩ := h
    cases hc.symm.trans hr'
    rw [skipScalar, if_neg (by decide), if_neg (by decide), if_pos rfl,
      skipString_of_stringText hs]
    rfl
  | .arr ts =>
    obtain ⟨r', hr', -⟩ := h
    cases hc.symm.trans hr'
    exact absurd rfl hlist
  | .obj ms =>
    obtain ⟨r', hr', -⟩ := h
    cases hc.symm.trans hr'
    exact absurd rfl hobject

/-! ### Steps -/

/-- Where the skipper stands: the brackets that are open, whether it has just passed over a value,
and the rest of the text. -/
structure Spot where
  frames : List Frame
  done : Bool
  rest : List Char

/-- What the skipper answers from here on. -/
def Spot.skip (bound : Nat) (s : Spot) : Except Fault (List Char) :=
  skipFrom bound s.frames s.done s.rest

/-- The skipper gets from one place to another if all is fine in between, and gives up if not. It
takes at most as many steps as there are characters in between. -/
def Leads (fine : Bool) (s s' : Spot) : Prop :=
  ∃ steps, steps + s'.rest.length ≤ s.rest.length ∧ ∀ bound,
    (s.skip (bound + steps)).toOption = if fine then (s'.skip bound).toOption else none

theorem Leads.trans {fine fine' : Bool} {s s' s'' : Spot} (h : Leads fine s s')
    (h' : Leads fine' s' s'') : Leads (fine && fine') s s'' := by
  obtain ⟨n, hlength, hn⟩ := h
  obtain ⟨m, hlength', hm⟩ := h'
  refine ⟨m + n, by omega, fun bound => ?_⟩
  rw [← Nat.add_assoc, hn, hm]
  cases fine <;> cases fine' <;> rfl

/-- One step. -/
theorem leads_step {s s' : Spot} (hlength : s'.rest.length < s.rest.length)
    (h : ∀ bound, s.skip (bound + 1) = s'.skip bound) : Leads true s s' :=
  ⟨1, by omega, fun bound => by rw [h]; rfl⟩

/-- The character that opens a bracket. -/
def Frame.opening : Frame → Char
  | .list => '['
  | .object => '\x7b'

/-- A key leads to its value. -/
theorem skipToValue_object {key : String} {cs v : List Char} (h : SpellsKey key cs v) :
    skipToValue .object cs = .ok v := by
  obtain ⟨q, r, hquote, hkey, hcolon⟩ := h
  simp only [skipToValue, hquote, if_true, skipString_of_stringText hkey]
  exact colon_eq_ok.mpr hcolon

section Steps

variable (frame : Frame) (frames : List Frame) {cs k v r rest : List Char}

theorem leads_close (h : skipSpace cs = frame.close :: rest) :
    Leads true ⟨frame :: frames, true, cs⟩ ⟨frames, true, rest⟩ := by
  refine leads_step (length_lt_of_skipSpace h) fun bound => ?_
  have hcomma : frame.close ≠ ',' := by cases frame <;> decide
  simp only [Spot.skip, skipFrom, h, if_neg hcomma, if_true]

theorem leads_comma (h : skipSpace cs = ',' :: k) (hv : skipToValue frame k = .ok v)
    (hlength : v.length ≤ k.length) :
    Leads true ⟨frame :: frames, true, cs⟩ ⟨frame :: frames, false, v⟩ := by
  refine leads_step (Nat.lt_of_le_of_lt hlength (length_lt_of_skipSpace h)) fun bound => ?_
  simp only [Spot.skip, skipFrom, h, if_true, hv]
  rfl

theorem skip_opening (h : skipSpace cs = frame.opening :: r) (bound : Nat) :
    Spot.skip (bound + 1) ⟨frames, false, cs⟩ = match skipSpace r with
      | [] => .error frame.eof
      | d :: s =>
        if d = frame.close then skipFrom bound frames true s
        else skipToValue frame (d :: s) >>= skipFrom bound (frame :: frames) false := by
  rw [Spot.skip, skipFrom.eq_4, h]
  cases frame <;> rfl

theorem leads_empty (h : skipSpace cs = frame.opening :: r)
    (hr : skipSpace r = frame.close :: rest) :
    Leads true ⟨frames, false, cs⟩ ⟨frames, true, rest⟩ := by
  have h₁ := length_lt_of_skipSpace h
  have h₂ := length_lt_of_skipSpace hr
  refine leads_step (Nat.lt_trans h₂ h₁) fun bound => ?_
  simp only [skip_opening frame frames h, hr, if_true]
  rfl

theorem leads_opening {c : Char} (h : skipSpace cs = frame.opening :: r) (hr : skipSpace r = c :: k)
    (hne : c ≠ frame.close) (hv : skipToValue frame (c :: k) = .ok v)
    (hlength : v.length ≤ (c :: k).length) :
    Leads true ⟨frames, false, cs⟩ ⟨frame :: frames, false, v⟩ := by
  have h₁ := length_lt_of_skipSpace h
  have h₂ := length_skipSpace_le r
  rw [hr] at h₂
  refine leads_step (Nat.lt_of_le_of_lt (Nat.le_trans hlength h₂) h₁) fun bound => ?_
  simp only [skip_opening frame frames h, hr, if_neg hne, hv]
  rfl

end Steps

/-! ### Values -/

/-- The skipper passes over every spelling of the tree, inside whatever brackets. -/
def Tree.Passed (t : Tree) : Prop :=
  ∀ (frames : List Frame) {cs rest : List Char}, Spells t cs rest → Boundary rest →
    Leads t.unpadded ⟨frames, false, cs⟩ ⟨frames, true, rest⟩

/-- A value that is neither array nor object takes one step. -/
theorem leads_scalar (frames : List Frame) {t : Tree} {cs r rest : List Char} {c : Char}
    (h : Spells t cs rest) (hrest : Boundary rest) (hc : skipSpace cs = c :: r) (hlist : c ≠ '[')
    (hobject : c ≠ '\x7b') : Leads t.unpadded ⟨frames, false, cs⟩ ⟨frames, true, rest⟩ := by
  have hlength := h.length_lt
  refine ⟨1, by dsimp only; omega, fun bound => ?_⟩
  have hscalar := skipScalar_toOption h hrest hc hlist hobject
  have hbracket : ¬(c = '[' ∨ c = '\x7b') := fun h => h.elim hlist hobject
  rw [Spot.skip, skipFrom.eq_4, hc]
  simp only [if_neg hbracket]
  rw [toOption_bind, hscalar]
  cases t.unpadded <;> rfl

theorem leads_moreItems (frames : List Frame) {ts : List Tree} (ih : ∀ t ∈ ts, t.Passed) :
    ∀ {cs rest : List Char}, SpellsMoreItems ts cs rest →
      Leads (Tree.unpaddedItems ts) ⟨.list :: frames, true, cs⟩ ⟨frames, true, rest⟩ := by
  induction ts with
  | nil => exact fun h => leads_close .list frames h
  | cons t ts ihts =>
    rintro cs rest ⟨k, r, hcomma, ht, hts⟩
    have hfirst := ih t List.mem_cons_self (.list :: frames) ht hts.boundary
    have hmore := ihts (fun u hu => ih u (List.mem_cons_of_mem t hu)) hts
    have hstep := leads_comma .list frames hcomma rfl (Nat.le_refl _)
    exact hstep.trans (hfirst.trans hmore)

theorem leads_moreMembers (frames : List Frame) {ms : List (String × Tree)}
    (ih : ∀ m ∈ ms, (Prod.snd m).Passed) : ∀ {cs rest : List Char}, SpellsMoreMembers ms cs rest →
      Leads (Tree.unpaddedMembers ms) ⟨.object :: frames, true, cs⟩ ⟨frames, true, rest⟩ := by
  induction ms with
  | nil => exact fun h => leads_close .object frames h
  | cons m ms ihms =>
    rintro cs rest ⟨k, v, r, hcomma, hkey, ht, hms⟩
    have hfirst := ih m List.mem_cons_self (.object :: frames) ht hms.boundary
    have hmore := ihms (fun n hn => ih n (List.mem_cons_of_mem m hn)) hms
    have hstep := leads_comma .object frames hcomma
      (skipToValue_object hkey) (Nat.le_of_lt hkey.length_lt)
    exact hstep.trans (hfirst.trans hmore)

theorem passed_arr {ts : List Tree} (ih : ∀ t ∈ ts, t.Passed) : (Tree.arr ts).Passed := by
  rintro frames cs rest ⟨r, hr, hts⟩ -
  match ts, ih, hts with
  | [], _, hclose => exact leads_empty .list frames hr hclose
  | t :: ts, ih, ⟨r', ht, hts⟩ =>
    obtain ⟨c, k, hc, hbegin⟩ := ht.begins
    have hstep := leads_opening .list frames hr hc hbegin.ne_close rfl
      (Nat.le_refl _)
    have hfirst := ih t List.mem_cons_self (.list :: frames)
      (hc ▸ spells_skipSpace.mpr ht) hts.boundary
    have hmore := leads_moreItems frames (fun u hu => ih u (List.mem_cons_of_mem t hu)) hts
    exact hstep.trans (hfirst.trans hmore)

theorem passed_obj {ms : List (String × Tree)} (ih : ∀ m ∈ ms, (Prod.snd m).Passed) :
    (Tree.obj ms).Passed := by
  rintro frames cs rest ⟨r, hr, hms⟩ -
  match ms, ih, hms with
  | [], _, hclose => exact leads_empty .object frames hr hclose
  | m :: ms, ih, ⟨v, r', ⟨q, k, hquote, hkey, hcolon⟩, ht, hms⟩ =>
    have hkey' : SpellsKey m.1 ('"' :: q) v := ⟨q, k, skipSpace_cons rfl, hkey, hcolon⟩
    have hstep := leads_opening .object frames hr hquote (by decide)
      (skipToValue_object hkey') (Nat.le_of_lt hkey'.length_lt)
    have hfirst := ih m List.mem_cons_self (.object :: frames) ht hms.boundary
    have hmore := leads_moreMembers frames (fun n hn => ih n (List.mem_cons_of_mem m hn)) hms
    exact hstep.trans (hfirst.trans hmore)

theorem passed (t : Tree) : t.Passed := by
  induction t using Tree.induct with
  | null => exact fun frames _ _ h hrest => leads_scalar frames h hrest h (by decide) (by decide)
  | bool b =>
    cases b with
    | true | false =>
      exact fun frames _ _ h hrest => leads_scalar frames h hrest h (by decide) (by decide)
  | number l =>
    intro frames cs rest h hrest
    obtain ⟨c, r, hc, hbegin⟩ := h.begins
    have hsign : c = '-' ∨ isDigit c = true := hbegin
    have hlist : c ≠ '[' := by rintro rfl; exact absurd hsign (by decide)
    have hobject : c ≠ '\x7b' := by rintro rfl; exact absurd hsign (by decide)
    exact leads_scalar frames h hrest hc hlist hobject
  | str s =>
    intro frames cs rest h hrest
    obtain ⟨r, hr, hs⟩ := h
    exact leads_scalar frames ⟨r, hr, hs⟩ hrest hr (by decide) (by decide)
  | arr ts ih => exact passed_arr ih
  | obj ms ih => exact passed_obj ih

/-- A value is passed over unless one of its numbers has a zero too many in front. -/
theorem skipValue_toOption {t : Tree} {cs rest : List Char} (h : Spells t cs rest)
    (hrest : Boundary rest) :
    (skipValue cs).toOption = if t.Unpadded then some rest else none := by
  obtain ⟨steps, hlength, hsteps⟩ := passed t [] h hrest
  obtain ⟨bound, hbound⟩ : ∃ bound, cs.length + 1 = bound + 1 + steps :=
    ⟨cs.length - steps, by dsimp only at hlength; omega⟩
  have hskip := hsteps (bound + 1)
  rw [skipValue, hbound]
  refine hskip.trans ?_
  by_cases ht : t.Unpadded
  · rw [if_pos ht, if_pos (t.unpadded_iff.mpr ht)]
    rfl
  · rw [if_neg ht, if_neg (mt t.unpadded_iff.mp ht)]

end StubLoader.Json
