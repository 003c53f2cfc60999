import StubLoader.Proofs.Json.Numeral
import StubLoader.Proofs.Json.StringText
/-!
# Spellings of trees

Spaces before a spelling do not matter, every spelling takes at least one character, and what
stands behind an item or a member is no part of a number in it.
-/

namespace StubLoader.Json

/-! ### Spaces -/

theorem skipSpace_cons {c : Char} {r : List Char} (h : isSpace c = false) :
    skipSpace (c :: r) = c :: r := by
  simp [skipSpace, h]

theorem isSpace_of_skipSpace {cs r : List Char} {c : Char} (h : skipSpace cs = c :: r) :
    isSpace c = false := by
  have hhead := List.head?_dropWhile_not isSpace cs
  rw [← skipSpace, h] at hhead
  simpa using hhead

theorem skipSpace_skipSpace (cs : List Char) : skipSpace (skipSpace cs) = skipSpace cs := by
  match h : skipSpace cs with
  | [] => rfl
  | c :: r => exact skipSpace_cons (isSpace_of_skipSpace h)

theorem length_skipSpace_le (cs : List Char) : (skipSpace cs).length ≤ cs.length :=
  (List.dropWhile_sublist isSpace).length_le

theorem isNumberChar_of_isSpace {c : Char} (h : isSpace c = true) : isNumberChar c = false := by
  simp only [isSpace, Bool.or_eq_true, beq_iff_eq] at h
  rcases h with ((rfl | rfl) | rfl) | rfl <;> rfl

/-- What is a boundary after spaces is one with them. -/
theorem boundary_of_boundary_skipSpace {cs : List Char} (h : Boundary (skipSpace cs)) :
    Boundary cs := by
  match cs with
  | [] => exact boundary_nil
  | d :: cs =>
    cases hd : isSpace d with
    | true => exact boundary_cons cs (isNumberChar_of_isSpace hd)
    | false => rwa [skipSpace_cons hd] at h

/-- Spaces, and then a character that is no part of a number, end a number. -/
theorem boundary_of_skipSpace {cs r : List Char} {c : Char} (h : skipSpace cs = c :: r)
    (hc : isNumberChar c = false) : Boundary cs :=
  boundary_of_boundary_skipSpace (h ▸ boundary_cons r hc)

theorem boundary_of_skipSpace_nil {cs : List Char} (h : skipSpace cs = []) : Boundary cs :=
  boundary_of_boundary_skipSpace (h ▸ boundary_nil)

theorem spells_skipSpace {t : Tree} {cs rest : List Char} :
    Spells t (skipSpace cs) rest ↔ Spells t cs rest := by
  cases t with
  | bool b => cases b <;> simp only [Spells, skipSpace_skipSpace]
  | _ => simp only [Spells, skipSpace_skipSpace]

/-! ### Boundaries -/

theorem SpellsMoreItems.boundary {ts : List Tree} {cs rest : List Char}
    (h : SpellsMoreItems ts cs rest) : Boundary cs := by
  cases ts with
  | nil => exact boundary_of_skipSpace h rfl
  | cons t ts =>
    obtain ⟨r, r', hcomma, -, -⟩ := h
    exact boundary_of_skipSpace hcomma rfl

theorem SpellsMoreMembers.boundary {ms : List (String × Tree)} {cs rest : List Char}
    (h : SpellsMoreMembers ms cs rest) : Boundary cs := by
  cases ms with
  | nil => exact boundary_of_skipSpace h rfl
  | cons m ms =>
    obtain ⟨k, v, r, hcomma, -, -, -⟩ := h
    exact boundary_of_skipSpace hcomma rfl

/-! ### First characters -/

theorem IsNumeral.exists_cons {l : List Char} (h : IsNumeral l) :
    ∃ c r, l = c :: r ∧ (c = '-' ∨ isDigit c = true) := by
  cases h with
  | negative _ => exact ⟨_, _, rfl, .inl rfl⟩
  | positive h =>
    obtain ⟨hw, -, -⟩ := h
    obtain ⟨c, r, rfl, hc⟩ := hw.exists_cons
    exact ⟨c, _, rfl, .inr hc⟩

/-- Whether the character may be the first one of the spelling of a tree. -/
def Tree.Begins (c : Char) : Tree → Prop
  | .null => c = 'n'
  | .bool true => c = 't'
  | .bool false => c = 'f'
  | .number _ => c = '-' ∨ isDigit c = true
  | .str _ => c = '"'
  | .arr _ => c = '['
  | .obj _ => c = '\x7b'

theorem Spells.begins {t : Tree} {cs rest : List Char} (h : Spells t cs rest) :
    ∃ c r, skipSpace cs = c :: r ∧ t.Begins c := by
  match t with
  | .null => exact ⟨_, _, h, rfl⟩
  | .bool true => exact ⟨_, _, h, rfl⟩
  | .bool false => exact ⟨_, _, h, rfl⟩
  | .number l =>
    obtain ⟨hl, hcs⟩ := h
    obtain ⟨c, r, rfl, hc⟩ := hl.exists_cons
    exact ⟨c, r ++ rest, hcs, hc⟩
  | .str s =>
    obtain ⟨r, hr, -⟩ := h
    exact ⟨_, r, hr, rfl⟩
  | .arr ts =>
    obtain ⟨r, hr, -⟩ := h
    exact ⟨_, r, hr, rfl⟩
  | .obj ms =>
    obtain ⟨r, hr, -⟩ := h
    exact ⟨_, r, hr, rfl⟩

/-- No spelling begins with a closing bracket. -/
theorem Tree.Begins.ne_close {t : Tree} {c : Char} (h : t.Begins c) : c ≠ ']' := by
  rintro rfl
  match t with
  | .null | .bool true | .bool false | .str _ | .arr _ | .obj _ => simp [Tree.Begins] at h
  | .number _ => exact h.elim (by decide) (by decide)

/-! The first character tells the kind of a tree. -/

theorem Tree.Begins.str {t : Tree} (h : t.Begins '"') : ∃ s, t = .str s := by
  match t with
  | .str s => exact ⟨s, rfl⟩
  | .null | .bool true | .bool false | .arr _ | .obj _ => simp [Tree.Begins] at h
  | .number _ => exact absurd (show '"' = '-' ∨ isDigit '"' = true from h) (by decide)

theorem Tree.Begins.null {t : Tree} (h : t.Begins 'n') : t = .null := by
  match t with
  | .null => rfl
  | .bool true | .bool false | .str _ | .arr _ | .obj _ => simp [Tree.Begins] at h
  | .number _ => exact absurd (show 'n' = '-' ∨ isDigit 'n' = true from h) (by decide)

theorem Tree.Begins.obj {t : Tree} (h : t.Begins '\x7b') : ∃ ms, t = .obj ms := by
  match t with
  | .obj ms => exact ⟨ms, rfl⟩
  | .null | .bool true | .bool false | .str _ | .arr _ => simp [Tree.Begins] at h
  | .number _ => exact absurd (show '\x7b' = '-' ∨ isDigit '\x7b' = true from h) (by decide)

theorem Tree.Begins.arr {t : Tree} (h : t.Begins '[') : ∃ ts, t = .arr ts := by
  match t with
  | .arr ts => exact ⟨ts, rfl⟩
  | .null | .bool true | .bool false | .str _ | .obj _ => simp [Tree.Begins] at h
  | .number _ => exact absurd (show '[' = '-' ∨ isDigit '[' = true from h) (by decide)

theorem Tree.Begins.bool_true {t : Tree} (h : t.Begins 't') : t = .bool true := by
  match t with
  | .bool true => rfl
  | .null | .bool false | .str _ | .arr _ | .obj _ => simp [Tree.Begins] at h
  | .number _ => exact absurd (show 't' = '-' ∨ isDigit 't' = true from h) (by decide)

theorem Tree.Begins.bool_false {t : Tree} (h : t.Begins 'f') : t = .bool false := by
  match t with
  | .bool false => rfl
  | .null | .bool true | .str _ | .arr _ | .obj _ => simp [Tree.Begins] at h
  | .number _ => exact absurd (show 'f' = '-' ∨ isDigit 'f' = true from h) (by decide)

theorem Tree.Begins.number {t : Tree} {c : Char} (h : t.Begins c)
    (hc : c = '-' ∨ isDigit c = true) : ∃ l, t = .number l := by
  match t with
  | .number l => exact ⟨l, rfl⟩
  | .null | .bool true | .bool false | .str _ | .arr _ | .obj _ =>
    cases h
    exact absurd hc (by decide)

/-! ### Lengths -/

theorem StringText.length_lt {cs s rest : List Char} (h : StringText cs s rest) :
    rest.length < cs.length := by
  induction h with
  | close => simp
  | plain _ _ _ _ ih | letter _ _ ih | unit _ _ _ _ ih | pair _ _ _ _ _ ih =>
    simp only [List.length_cons]
    omega

/-- The length of a text is at least that of any text that skipping spaces leads to. -/
theorem length_lt_of_skipSpace {cs r : List Char} {c : Char} (h : skipSpace cs = c :: r) :
    r.length < cs.length := by
  have hle := length_skipSpace_le cs
  rw [h, List.length_cons] at hle
  omega

theorem SpellsKey.length_lt {key : String} {cs rest : List Char} (h : SpellsKey key cs rest) :
    rest.length < cs.length := by
  obtain ⟨k, r, hquote, hkey, hcolon⟩ := h
  have h₁ := length_lt_of_skipSpace hquote
  have h₂ := hkey.length_lt
  have h₃ := length_lt_of_skipSpace hcolon
  omega

theorem SpellsMoreItems.length_lt {ts : List Tree}
    (ih : ∀ t ∈ ts, ∀ {cs rest}, Spells t cs rest → rest.length < cs.length) :
    ∀ {cs rest : List Char}, SpellsMoreItems ts cs rest → rest.length < cs.length := by
  induction ts with
  | nil => exact fun h => length_lt_of_skipSpace h
  | cons t ts ihts =>
    rintro cs rest ⟨r, r', hcomma, ht, hts⟩
    have h₁ := length_lt_of_skipSpace hcomma
    have h₂ := ih t List.mem_cons_self ht
    have h₃ := ihts (fun u hu => ih u (List.mem_cons_of_mem t hu)) hts
    omega

theorem SpellsMoreMembers.length_lt {ms : List (String × Tree)}
    (ih : ∀ m ∈ ms, ∀ {cs rest}, Spells m.2 cs rest → rest.length < cs.length) :
    ∀ {cs rest : List Char}, SpellsMoreMembers ms cs rest → rest.length < cs.length := by
  induction ms with
  | nil => exact fun h => length_lt_of_skipSpace h
  | cons m ms ihms =>
    rintro cs rest ⟨k, v, r, hcomma, hkey, ht, hms⟩
    have h₁ := length_lt_of_skipSpace hcomma
    have h₂ := hkey.length_lt
    have h₃ := ih m List.mem_cons_self ht
    have h₄ := ihms (fun u hu => ih u (List.mem_cons_of_mem m hu)) hms
    omega

/-- A spelling takes a character at least. -/
theorem Spells.length_lt {t : Tree} : ∀ {cs rest : List Char}, Spells t cs rest →
    rest.length < cs.length := by
  induction t using Tree.induct with
  | null =>
    intro cs rest h
    have := length_lt_of_skipSpace h
    simp only [List.length_cons] at this
    omega
  | bool b =>
    intro cs rest h
    cases b with
    | true | false =>
      have := length_lt_of_skipSpace h
      simp only [List.length_cons] at this
      omega
  | number l =>
    rintro cs rest ⟨hl, hcs⟩
    obtain ⟨c, r, rfl, -⟩ := hl.exists_cons
    have h := length_lt_of_skipSpace (r := r ++ rest) hcs
    rw [List.length_append] at h
    omega
  | str s =>
    rintro cs rest ⟨r, hr, hs⟩
    have h₁ := length_lt_of_skipSpace hr
    have h₂ := hs.length_lt
    omega
  | arr ts ih =>
    rintro cs rest ⟨r, hr, hts⟩
    have h₁ := length_lt_of_skipSpace hr
    match ts, ih, hts with
    | [], _, hts =>
      have h₂ := length_lt_of_skipSpace hts
      omega
    | t :: ts, ih, ⟨r', ht, hts⟩ =>
      have h₂ := ih t List.mem_cons_self ht
      have h₃ := SpellsMoreItems.length_lt (fun u hu => ih u (List.mem_cons_of_mem t hu)) hts
      omega
  | obj ms ih =>
    rintro cs rest ⟨r, hr, hms⟩
    have h₁ := length_lt_of_skipSpace hr
    match ms, ih, hms with
    | [], _, hms =>
      have h₂ := length_lt_of_skipSpace hms
      omega
    | m :: ms, ih, ⟨v, r', hkey, ht, hms⟩ =>
      have h₂ := hkey.length_lt
      have h₃ := ih m List.mem_cons_self ht
      have h₄ := SpellsMoreMembers.length_lt (fun u hu => ih u (List.mem_cons_of_mem m hu)) hms
      omega

/-! ### Uniqueness -/

theorem IsDigits.isNumberChar {ds : List Char} (h : IsDigits ds) :
    ∀ c ∈ ds, isNumberChar c = true := fun c hc => isNumberChar_of_isDigit (h.2 c hc)

theorem IsMagnitude.isNumberChar {m : List Char} (h : IsMagnitude m) :
    ∀ c ∈ m, isNumberChar c = true := by
  obtain ⟨hw, hf, he⟩ := h
  intro c hc
  rcases List.mem_append.mp hc with hc | hc
  · exact hw.isNumberChar c hc
  · rcases List.mem_append.mp hc with hc | hc
    · cases hf with
      | absent => cases hc
      | present hds =>
        rcases List.mem_cons.mp hc with rfl | hc
        · rfl
        · exact hds.isNumberChar c hc
    · cases he with
      | absent => cases hc
      | present he hs hds =>
        rcases List.mem_cons.mp hc with rfl | hc
        · rcases he with rfl | rfl <;> rfl
        · rcases List.mem_append.mp hc with hc | hc
          · rcases hs with rfl | rfl | rfl
            · cases hc
            · rw [List.mem_singleton.mp hc]; rfl
            · rw [List.mem_singleton.mp hc]; rfl
          · exact hds.isNumberChar c hc

theorem IsNumeral.isNumberChar {l : List Char} (h : IsNumeral l) :
    ∀ c ∈ l, isNumberChar c = true := by
  cases h with
  | positive h => exact h.isNumberChar
  | negative h =>
    intro c hc
    rcases List.mem_cons.mp hc with rfl | hc
    · rfl
    · exact h.isNumberChar c hc

/-- A literal is as long as it can be. -/
theorem IsNumeral.takeWhile {l rest : List Char} (h : IsNumeral l) (hrest : Boundary rest) :
    (l ++ rest).takeWhile Json.isNumberChar = l := by
  rw [takeWhile_append_of_head hrest, List.takeWhile_eq_self_iff.mpr h.isNumberChar]

theorem StringText.unique {cs s s' rest rest' : List Char} (h : StringText cs s rest)
    (h' : StringText cs s' rest') : s = s' ∧ rest = rest' := by
  have heq := (stringChars_of_stringText h).symm.trans (stringChars_of_stringText h')
  cases heq
  exact ⟨rfl, rfl⟩

theorem SpellsKey.unique {key key' : String} {cs rest rest' : List Char} (h : SpellsKey key cs rest)
    (h' : SpellsKey key' cs rest') : key = key' ∧ rest = rest' := by
  obtain ⟨k, r, hquote, hkey, hcolon⟩ := h
  obtain ⟨k', r', hquote', hkey', hcolon'⟩ := h'
  cases hquote.symm.trans hquote'
  obtain ⟨heq, rfl⟩ := hkey.unique hkey'
  cases hcolon.symm.trans hcolon'
  exact ⟨String.toList_inj.mp heq, rfl⟩

/-- A text spells no other tree. -/
def Tree.Alone (t : Tree) : Prop :=
  ∀ {t' : Tree} {cs rest rest' : List Char}, Spells t cs rest → Boundary rest →
    Spells t' cs rest' → Boundary rest' → t = t' ∧ rest = rest'

theorem SpellsMoreItems.unique {ts : List Tree} (ih : ∀ t ∈ ts, t.Alone) :
    ∀ {ts' : List Tree} {cs rest rest' : List Char}, SpellsMoreItems ts cs rest →
      SpellsMoreItems ts' cs rest' → ts = ts' ∧ rest = rest' := by
  induction ts with
  | nil =>
    intro ts' cs rest rest' h h'
    have hclose : skipSpace cs = ']' :: rest := h
    cases ts' with
    | nil =>
      cases hclose.symm.trans (h' : skipSpace cs = ']' :: rest')
      exact ⟨rfl, rfl⟩
    | cons t' ts' =>
      obtain ⟨r, r', hcomma, -⟩ := h'
      cases hclose.symm.trans hcomma
  | cons t ts ihts =>
    intro ts' cs rest rest' h h'
    obtain ⟨k, r, hcomma, ht, hts⟩ := h
    cases ts' with
    | nil => cases hcomma.symm.trans (h' : skipSpace cs = ']' :: rest')
    | cons t' ts' =>
      obtain ⟨k', r', hcomma', ht', hts'⟩ := h'
      cases hcomma.symm.trans hcomma'
      obtain ⟨rfl, rfl⟩ := ih t List.mem_cons_self ht hts.boundary ht' hts'.boundary
      obtain ⟨rfl, rfl⟩ := ihts (fun u hu => ih u (List.mem_cons_of_mem t hu)) hts hts'
      exact ⟨rfl, rfl⟩

theorem SpellsMoreMembers.unique {ms : List (String × Tree)} (ih : ∀ m ∈ ms, (Prod.snd m).Alone) :
    ∀ {ms' : List (String × Tree)} {cs rest rest' : List Char}, SpellsMoreMembers ms cs rest →
      SpellsMoreMembers ms' cs rest' → ms = ms' ∧ rest = rest' := by
  induction ms with
  | nil =>
    intro ms' cs rest rest' h h'
    have hclose : skipSpace cs = '\x7d' :: rest := h
    cases ms' with
    | nil =>
      cases hclose.symm.trans (h' : skipSpace cs = '\x7d' :: rest')
      exact ⟨rfl, rfl⟩
    | cons m' ms' =>
      obtain ⟨k, v, r, hcomma, -⟩ := h'
      cases hclose.symm.trans hcomma
  | cons m ms ihms =>
    intro ms' cs rest rest' h h'
    obtain ⟨k, v, r, hcomma, hkey, ht, hms⟩ := h
    cases ms' with
    | nil => cases hcomma.symm.trans (h' : skipSpace cs = '\x7d' :: rest')
    | cons m' ms' =>
      obtain ⟨k', v', r', hcomma', hkey', ht', hms'⟩ := h'
      cases hcomma.symm.trans hcomma'
      obtain ⟨hk, rfl⟩ := hkey.unique hkey'
      obtain ⟨hv, rfl⟩ := ih m List.mem_cons_self ht hms.boundary ht' hms'.boundary
      obtain ⟨rfl, rfl⟩ := ihms (fun u hu => ih u (List.mem_cons_of_mem m hu)) hms hms'
      exact ⟨congrArg (· :: ms) (Prod.ext hk hv), rfl⟩

theorem SpellsItems.unique {ts ts' : List Tree} (ih : ∀ t ∈ ts, t.Alone)
    {cs rest rest' : List Char} (h : SpellsItems ts cs rest) (h' : SpellsItems ts' cs rest') :
    ts = ts' ∧ rest = rest' := by
  match ts, ts', ih, h, h' with
  | [], [], _, hclose, hclose' =>
    cases (show skipSpace cs = ']' :: rest from hclose).symm.trans hclose'
    exact ⟨rfl, rfl⟩
  | [], t' :: _, _, hclose, ⟨_, ht', _⟩ =>
    obtain ⟨_, _, hd, hbegin⟩ := ht'.begins
    cases (show skipSpace cs = ']' :: rest from hclose).symm.trans hd
    exact absurd rfl hbegin.ne_close
  | t :: _, [], _, ⟨_, ht, _⟩, hclose' =>
    obtain ⟨_, _, hd, hbegin⟩ := ht.begins
    cases (show skipSpace cs = ']' :: rest' from hclose').symm.trans hd
    exact absurd rfl hbegin.ne_close
  | t :: ts, t' :: ts', ih, ⟨r, ht, hts⟩, ⟨r', ht', hts'⟩ =>
    obtain ⟨rfl, rfl⟩ := ih t List.mem_cons_self ht hts.boundary ht' hts'.boundary
    obtain ⟨rfl, rfl⟩ := SpellsMoreItems.unique
      (fun u hu => ih u (List.mem_cons_of_mem t hu)) hts hts'
    exact ⟨rfl, rfl⟩

theorem SpellsMembers.unique {ms ms' : List (String × Tree)} (ih : ∀ m ∈ ms, (Prod.snd m).Alone)
    {cs rest rest' : List Char} (h : SpellsMembers ms cs rest) (h' : SpellsMembers ms' cs rest') :
    ms = ms' ∧ rest = rest' := by
  match ms, ms', ih, h, h' with
  | [], [], _, hclose, hclose' =>
    cases (show skipSpace cs = '\x7d' :: rest from hclose).symm.trans hclose'
    exact ⟨rfl, rfl⟩
  | [], _ :: _, _, hclose, ⟨_, _, ⟨_, _, hquote', _⟩, _⟩ =>
    cases (show skipSpace cs = '\x7d' :: rest from hclose).symm.trans hquote'
  | _ :: _, [], _, ⟨_, _, ⟨_, _, hquote, _⟩, _⟩, hclose' =>
    cases (show skipSpace cs = '\x7d' :: rest' from hclose').symm.trans hquote
  | m :: ms, m' :: ms', ih, ⟨v, q, hkey, ht, hms⟩, ⟨v', q', hkey', ht', hms'⟩ =>
    obtain ⟨hk, rfl⟩ := hkey.unique hkey'
    obtain ⟨hv, rfl⟩ := ih m List.mem_cons_self ht hms.boundary ht' hms'.boundary
    obtain ⟨rfl, rfl⟩ := SpellsMoreMembers.unique
      (fun w hw => ih w (List.mem_cons_of_mem m hw)) hms hms'
    exact ⟨congrArg (· :: ms) (Prod.ext hk hv), rfl⟩

namespace Tree

theorem alone_null : Tree.null.Alone := by
  intro t' cs rest rest' h _ h' _
  obtain ⟨c, r, hc, hbegin⟩ := h'.begins
  have hcs : skipSpace cs = 'n' :: 'u' :: 'l' :: 'l' :: rest := h
  cases hcs.symm.trans hc
  cases hbegin.null
  cases hcs.symm.trans (h' : skipSpace cs = 'n' :: 'u' :: 'l' :: 'l' :: rest')
  exact ⟨rfl, rfl⟩

theorem alone_bool (b : Bool) : (Tree.bool b).Alone := by
  intro t' cs rest rest' h _ h' _
  obtain ⟨c, r, hc, hbegin⟩ := h'.begins
  cases b with
  | true =>
    have hcs : skipSpace cs = 't' :: 'r' :: 'u' :: 'e' :: rest := h
    cases hcs.symm.trans hc
    cases hbegin.bool_true
    cases hcs.symm.trans (h' : skipSpace cs = 't' :: 'r' :: 'u' :: 'e' :: rest')
    exact ⟨rfl, rfl⟩
  | false =>
    have hcs : skipSpace cs = 'f' :: 'a' :: 'l' :: 's' :: 'e' :: rest := h
    cases hcs.symm.trans hc
    cases hbegin.bool_false
    cases hcs.symm.trans (h' : skipSpace cs = 'f' :: 'a' :: 'l' :: 's' :: 'e' :: rest')
    exact ⟨rfl, rfl⟩

theorem alone_number (l : List Char) : (Tree.number l).Alone := by
  intro t' cs rest rest' h hrest h' hrest'
  obtain ⟨hl, hcs⟩ := h
  obtain ⟨c, r, hc, hbegin⟩ := h'.begins
  obtain ⟨d, l', rfl, hd⟩ := hl.exists_cons
  cases hcs.symm.trans hc
  obtain ⟨l'', rfl⟩ := hbegin.number hd
  obtain ⟨hl', hcs'⟩ := h'
  have heq : c :: l' ++ rest = l'' ++ rest' := hcs.symm.trans hcs'
  have hlit : c :: l' = l'' := by
    rw [← hl.takeWhile hrest, heq, hl'.takeWhile hrest']
  subst hlit
  exact ⟨rfl, List.append_cancel_left heq⟩

theorem alone_str (s : String) : (Tree.str s).Alone := by
  intro t' cs rest rest' h _ h' _
  obtain ⟨r, hr, hs⟩ := h
  obtain ⟨c, q, hc, hbegin⟩ := h'.begins
  cases hr.symm.trans hc
  obtain ⟨s', rfl⟩ := hbegin.str
  obtain ⟨r', hr', hs'⟩ := h'
  cases hr.symm.trans hr'
  obtain ⟨heq, rfl⟩ := hs.unique hs'
  exact ⟨congrArg Tree.str (String.toList_inj.mp heq), rfl⟩

theorem alone_arr {ts : List Tree} (ih : ∀ t ∈ ts, t.Alone) : (Tree.arr ts).Alone := by
  intro t' cs rest rest' h _ h' _
  obtain ⟨r, hr, hts⟩ := h
  obtain ⟨c, q, hc, hbegin⟩ := h'.begins
  cases hr.symm.trans hc
  obtain ⟨ts', rfl⟩ := hbegin.arr
  obtain ⟨r', hr', hts'⟩ := h'
  cases hr.symm.trans hr'
  obtain ⟨rfl, rfl⟩ := SpellsItems.unique ih hts hts'
  exact ⟨rfl, rfl⟩

theorem alone_obj {ms : List (String × Tree)} (ih : ∀ m ∈ ms, (Prod.snd m).Alone) :
    (Tree.obj ms).Alone := by
  intro t' cs rest rest' h _ h' _
  obtain ⟨r, hr, hms⟩ := h
  obtain ⟨c, q, hc, hbegin⟩ := h'.begins
  cases hr.symm.trans hc
  obtain ⟨ms', rfl⟩ := hbegin.obj
  obtain ⟨r', hr', hms'⟩ := h'
  cases hr.symm.trans hr'
  obtain ⟨rfl, rfl⟩ := SpellsMembers.unique ih hms hms'
  exact ⟨rfl, rfl⟩

/-- The grammar is unambiguous. -/
theorem alone (t : Tree) : t.Alone := by
  induction t using Tree.induct with
  | null => exact alone_null
  | bool b => exact alone_bool b
  | number l => exact alone_number l
  | str s => exact alone_str s
  | arr ts ih => exact alone_arr ih
  | obj ms ih => exact alone_obj ih

end Tree

end StubLoader.Json
