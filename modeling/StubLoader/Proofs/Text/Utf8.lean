import Mathlib.Tactic.ByContra
import Mathlib.Tactic.SplitIfs
import StubLoader.Text.Utf8
/-!
# Writing and reading UTF-8

The bytes of a text fall apart into its characters again, and bytes that are UTF-8 throughout are
the bytes of the text that they hold: `decode` and `encode` are inverse to each other.
-/

namespace StubLoader.Utf8

/-! ### Codes and bytes -/

theorem toNat_ofNat {n : Nat} (h : n < 256) : (UInt8.ofNat n).toNat = n := by
  rw [UInt8.toNat_ofNat']
  exact Nat.mod_eq_of_lt h

/-- The codes of characters leave out the surrogates and end at `0x10FFFF`. -/
theorem toNat_cases (c : Char) : c.toNat < 0xD800 ∨ (0xDFFF < c.toNat ∧ c.toNat < 0x110000) :=
  c.valid

theorem toNat_charOfNat {n : Nat} (h : n < 0xD800 ∨ (0xDFFF < n ∧ n < 0x110000)) :
    (Char.ofNat n).toNat = n := by
  have hv : n.isValidChar := h
  rw [Char.ofNat, dif_pos hv]
  rfl

/-! ### One character -/

theorem lead_single {b : UInt8} (h : b.toNat < 0x80) : lead b = .single := by
  rw [lead, if_pos (by simpa [UInt8.lt_iff_toNat_lt] using h)]

theorem le_of_lead_ne {b : UInt8} (h : lead b ≠ .single) : 0x80 ≤ b.toNat := by
  by_contra hlt
  exact h (lead_single (by omega))

/-- What the first byte of a longer character says. -/
theorem lead_eq (b : UInt8) (h : 0x80 ≤ b.toNat) :
    lead b =
      if b.toNat < 0xC2 then .none
      else if b.toNat ≤ 0xDF then .double
      else if b.toNat = 0xE0 then .triple 0xA0 0xBF
      else if b.toNat = 0xED then .triple 0x80 0x9F
      else if b.toNat ≤ 0xEF then .triple 0x80 0xBF
      else if b.toNat = 0xF0 then .quadruple 0x90 0xBF
      else if b.toNat ≤ 0xF3 then .quadruple 0x80 0xBF
      else if b.toNat = 0xF4 then .quadruple 0x80 0x8F
      else .none := by
  simp only [lead, UInt8.lt_iff_toNat_lt, UInt8.le_iff_toNat_le, ← UInt8.toNat_inj]
  simp only [UInt8.reduceToNat]
  grind

theorem isTail_iff (b : UInt8) : isTail b = true ↔ 0x80 ≤ b.toNat ∧ b.toNat ≤ 0xBF := by
  simp [isTail, UInt8.le_iff_toNat_le]

/-- The low six bits of a code as the byte that continues a character. -/
theorem toNat_tail (n : Nat) : (UInt8.ofNat (0x80 + n % 0x40)).toNat = 0x80 + n % 0x40 :=
  toNat_ofNat (by omega)

theorem isTail_tail (n : Nat) : isTail (UInt8.ofNat (0x80 + n % 0x40)) = true := by
  rw [isTail_iff, toNat_tail]
  omega

theorem join_tail (high n : Nat) :
    join high (UInt8.ofNat (0x80 + n % 0x40)) = high * 0x40 + n % 0x40 := by
  rw [join, toNat_tail]
  omega

theorem le_tail_iff (low : UInt8) (n : Nat) :
    low ≤ UInt8.ofNat (0x80 + n % 0x40) ↔ low.toNat ≤ 0x80 + n % 0x40 := by
  rw [UInt8.le_iff_toNat_le, toNat_tail]

theorem tail_le_iff (high : UInt8) (n : Nat) :
    UInt8.ofNat (0x80 + n % 0x40) ≤ high ↔ 0x80 + n % 0x40 ≤ high.toNat := by
  rw [UInt8.le_iff_toNat_le, toNat_tail]

section Pieces

variable {n : Nat} (bytes : Bytes)

theorem pieces_single (h : n < 0x80) :
    pieces (UInt8.ofNat n :: bytes) = .char (Char.ofNat n) :: pieces bytes := by
  have hb : (UInt8.ofNat n).toNat = n := toNat_ofNat (by omega)
  have hlead : (UInt8.ofNat n).toNat < 0x80 := by omega
  rw [pieces.eq_def]
  simp only [lead_single hlead, hb]

theorem pieces_double (h : 0x80 ≤ n) (h' : n < 0x800) :
    pieces (UInt8.ofNat (0xC0 + n / 0x40) :: UInt8.ofNat (0x80 + n % 0x40) :: bytes) =
      .char (Char.ofNat n) :: pieces bytes := by
  have hb : (UInt8.ofNat (0xC0 + n / 0x40)).toNat = 0xC0 + n / 0x40 := toNat_ofNat (by omega)
  have hl : lead (UInt8.ofNat (0xC0 + n / 0x40)) = .double := by
    rw [lead_eq _ (by omega), hb, if_neg (by omega), if_pos (by omega)]
  have hj : (0xC0 + n / 0x40) % 0x20 * 0x40 + n % 0x40 = n := by omega
  rw [pieces.eq_def]
  simp only [hl, isTail_tail, if_true, join_tail, hb, hj]

/-- Three bytes begin with one that allows for just these second ones. -/
theorem pieces_triple (h : 0x800 ≤ n) (h' : n < 0x10000) (hvalid : n < 0xD800 ∨ 0xDFFF < n) :
    pieces (UInt8.ofNat (0xE0 + n / 0x1000) :: UInt8.ofNat (0x80 + n / 0x40 % 0x40) ::
      UInt8.ofNat (0x80 + n % 0x40) :: bytes) = .char (Char.ofNat n) :: pieces bytes := by
  have hb : (UInt8.ofNat (0xE0 + n / 0x1000)).toNat = 0xE0 + n / 0x1000 := toNat_ofNat (by omega)
  have hl : ∃ low high, lead (UInt8.ofNat (0xE0 + n / 0x1000)) = .triple low high ∧
      low.toNat ≤ 0x80 + n / 0x40 % 0x40 ∧ 0x80 + n / 0x40 % 0x40 ≤ high.toNat := by
    rw [lead_eq _ (by omega), hb, if_neg (by omega), if_neg (by omega)]
    split
    · exact ⟨_, _, rfl, by simp only [UInt8.reduceToNat]; omega⟩
    split
    · exact ⟨_, _, rfl, by simp only [UInt8.reduceToNat]; omega⟩
    rw [if_pos (by omega)]
    exact ⟨_, _, rfl, by simp only [UInt8.reduceToNat]; omega⟩
  obtain ⟨low, high, hl, hlow, hhigh⟩ := hl
  have hj : ((0xE0 + n / 0x1000) % 0x10 * 0x40 + n / 0x40 % 0x40) * 0x40 + n % 0x40 = n := by
    omega
  rw [pieces.eq_def]
  simp only [hl, le_tail_iff, tail_le_iff, hlow, hhigh, and_self, if_true, isTail_tail, join_tail,
    hb, hj]

/-- So do four bytes. -/
theorem pieces_quadruple (h : 0x10000 ≤ n) (h' : n < 0x110000) :
    pieces (UInt8.ofNat (0xF0 + n / 0x40000) :: UInt8.ofNat (0x80 + n / 0x1000 % 0x40) ::
      UInt8.ofNat (0x80 + n / 0x40 % 0x40) :: UInt8.ofNat (0x80 + n % 0x40) :: bytes) =
        .char (Char.ofNat n) :: pieces bytes := by
  have hb : (UInt8.ofNat (0xF0 + n / 0x40000)).toNat = 0xF0 + n / 0x40000 := toNat_ofNat (by omega)
  have hl : ∃ low high, lead (UInt8.ofNat (0xF0 + n / 0x40000)) = .quadruple low high ∧
      low.toNat ≤ 0x80 + n / 0x1000 % 0x40 ∧ 0x80 + n / 0x1000 % 0x40 ≤ high.toNat := by
    rw [lead_eq _ (by omega), hb, if_neg (by omega), if_neg (by omega), if_neg (by omega),
      if_neg (by omega), if_neg (by omega)]
    split
    · exact ⟨_, _, rfl, by simp only [UInt8.reduceToNat]; omega⟩
    split
    · exact ⟨_, _, rfl, by simp only [UInt8.reduceToNat]; omega⟩
    rw [if_pos (by omega)]
    exact ⟨_, _, rfl, by simp only [UInt8.reduceToNat]; omega⟩
  obtain ⟨low, high, hl, hlow, hhigh⟩ := hl
  have hj : (((0xF0 + n / 0x40000) % 0x08 * 0x40 + n / 0x1000 % 0x40) * 0x40
      + n / 0x40 % 0x40) * 0x40 + n % 0x40 = n := by
    omega
  rw [pieces.eq_def]
  simp only [hl, le_tail_iff, tail_le_iff, hlow, hhigh, and_self, if_true, isTail_tail, join_tail,
    hb, hj]

/-- The bytes of a character are one piece, whatever follows. -/
theorem pieces_encodeChar (c : Char) :
    pieces (encodeChar c ++ bytes) = .char c :: pieces bytes := by
  have hvalid := toNat_cases c
  have hc : Char.ofNat c.toNat = c := Char.ofNat_toNat c
  unfold encodeChar
  dsimp only
  generalize c.toNat = n at hvalid hc ⊢
  subst hc
  split
  · exact pieces_single bytes (by omega)
  split
  · exact pieces_double bytes (by omega) (by omega)
  split
  · exact pieces_triple bytes (by omega) (by omega) (by omega)
  · exact pieces_quadruple bytes (by omega) (by omega)

end Pieces

/-! ### Texts -/

theorem chars_pieces_encode : ∀ (cs : List Char) (index : Nat),
    chars index (pieces (encode cs)) = .ok cs
  | [], _ => by rw [encode, List.flatMap_nil, pieces.eq_def, chars]
  | c :: cs, index => by
    rw [encode, List.flatMap_cons, pieces_encodeChar, chars, ← encode, chars_pieces_encode cs]
    rfl

/-- Reading undoes writing. -/
theorem decode_encode (cs : List Char) : decode (encode cs) = .ok cs := chars_pieces_encode cs 0

/-! ### Bytes -/

theorem eq_ofNat {b : UInt8} {n : Nat} (h : b.toNat = n) : UInt8.ofNat n = b := by
  rw [← h, UInt8.ofNat_toNat]

/-- The bytes of the character with a given code. -/
theorem encodeChar_ofNat {n : Nat} (h : n < 0xD800 ∨ (0xDFFF < n ∧ n < 0x110000)) :
    encodeChar (Char.ofNat n) =
      if n < 0x80 then [UInt8.ofNat n]
      else if n < 0x800 then [UInt8.ofNat (0xC0 + n / 0x40), UInt8.ofNat (0x80 + n % 0x40)]
      else if n < 0x10000 then
        [UInt8.ofNat (0xE0 + n / 0x1000), UInt8.ofNat (0x80 + n / 0x40 % 0x40),
          UInt8.ofNat (0x80 + n % 0x40)]
      else
        [UInt8.ofNat (0xF0 + n / 0x40000), UInt8.ofNat (0x80 + n / 0x1000 % 0x40),
          UInt8.ofNat (0x80 + n / 0x40 % 0x40), UInt8.ofNat (0x80 + n % 0x40)] := by
  simp only [encodeChar, toNat_charOfNat h]

theorem encodeChar_single {b : UInt8} (hb : lead b = .single) :
    encodeChar (Char.ofNat b.toNat) = [b] := by
  have hlt : b.toNat < 0x80 := by
    by_contra h
    rw [lead_eq b (by omega)] at hb
    split_ifs at hb
  rw [encodeChar_ofNat (by omega), if_pos hlt, UInt8.ofNat_toNat]

theorem encodeChar_double {b b₁ : UInt8} (hb : lead b = .double) (h₁ : isTail b₁ = true) :
    encodeChar (Char.ofNat (join (b.toNat % 0x20) b₁)) = [b, b₁] := by
  have hlead : 0xC2 ≤ b.toNat ∧ b.toNat ≤ 0xDF := by
    rw [lead_eq b (le_of_lead_ne (hb ▸ nofun))] at hb
    split_ifs at hb
    omega
  rw [isTail_iff] at h₁
  simp only [join]
  rw [encodeChar_ofNat (by omega), if_neg (by omega), if_pos (by omega),
    eq_ofNat (b := b) (by omega), eq_ofNat (b := b₁) (by omega)]

/-- The ranges that a first byte of three allows. -/
theorem lead_triple {b low high : UInt8} (hb : lead b = .triple low high) :
    (b.toNat = 0xE0 ∧ low.toNat = 0xA0 ∧ high.toNat = 0xBF) ∨
      (b.toNat = 0xED ∧ low.toNat = 0x80 ∧ high.toNat = 0x9F) ∨
      (0xE1 ≤ b.toNat ∧ b.toNat ≤ 0xEF ∧ b.toNat ≠ 0xED ∧ low.toNat = 0x80 ∧
        high.toNat = 0xBF) := by
  rw [lead_eq b (le_of_lead_ne (hb ▸ nofun))] at hb
  split_ifs at hb <;> cases hb <;> simp <;> omega

/-- The ranges that a first byte of four allows. -/
theorem lead_quadruple {b low high : UInt8} (hb : lead b = .quadruple low high) :
    (b.toNat = 0xF0 ∧ low.toNat = 0x90 ∧ high.toNat = 0xBF) ∨
      (0xF1 ≤ b.toNat ∧ b.toNat ≤ 0xF3 ∧ low.toNat = 0x80 ∧ high.toNat = 0xBF) ∨
      (b.toNat = 0xF4 ∧ low.toNat = 0x80 ∧ high.toNat = 0x8F) := by
  rw [lead_eq b (le_of_lead_ne (hb ▸ nofun))] at hb
  split_ifs at hb <;> cases hb <;> simp <;> omega

theorem encodeChar_triple {b b₁ b₂ low high : UInt8} (hb : lead b = .triple low high)
    (h₁ : low ≤ b₁ ∧ b₁ ≤ high) (h₂ : isTail b₂ = true) :
    encodeChar (Char.ofNat (join (join (b.toNat % 0x10) b₁) b₂)) = [b, b₁, b₂] := by
  have hlead := lead_triple hb
  simp only [UInt8.le_iff_toNat_le] at h₁
  rw [isTail_iff] at h₂
  simp only [join]
  rw [encodeChar_ofNat (by omega), if_neg (by omega), if_neg (by omega), if_pos (by omega),
    eq_ofNat (b := b) (by omega), eq_ofNat (b := b₁) (by omega), eq_ofNat (b := b₂) (by omega)]

theorem encodeChar_quadruple {b b₁ b₂ b₃ low high : UInt8} (hb : lead b = .quadruple low high)
    (h₁ : low ≤ b₁ ∧ b₁ ≤ high) (h₂ : isTail b₂ = true) (h₃ : isTail b₃ = true) :
    encodeChar (Char.ofNat (join (join (join (b.toNat % 0x08) b₁) b₂) b₃)) = [b, b₁, b₂, b₃] := by
  have hlead := lead_quadruple hb
  simp only [UInt8.le_iff_toNat_le] at h₁
  rw [isTail_iff] at h₂ h₃
  simp only [join]
  rw [encodeChar_ofNat (by omega), if_neg (by omega), if_neg (by omega), if_neg (by omega),
    eq_ofNat (b := b) (by omega), eq_ofNat (b := b₁) (by omega), eq_ofNat (b := b₂) (by omega),
    eq_ofNat (b := b₃) (by omega)]

/-- Bytes that are characters throughout are the bytes of these characters. -/
theorem encode_of_chars_pieces (bytes : Bytes) : ∀ {index : Nat} {cs : List Char},
    chars index (pieces bytes) = .ok cs → encode cs = bytes := by
  -- a piece that is no character ends the reading; one that is has its own bytes for a spelling
  have step : ∀ (c : Char) (written rest : Bytes), encodeChar c = written →
      (∀ {index : Nat} {cs : List Char}, chars index (pieces rest) = .ok cs → encode cs = rest) →
      ∀ {index : Nat} {cs : List Char}, chars index (.char c :: pieces rest) = .ok cs →
        encode cs = written ++ rest := by
    intro c written rest hc ih index cs h
    rw [chars] at h
    cases hr : chars (index + c.utf8Size) (pieces rest) with
    | error e => rw [hr] at h; cases h
    | ok cs' =>
      rw [hr] at h
      cases h
      rw [encode, List.flatMap_cons, hc, ← encode, ih hr]
  fun_induction pieces bytes with
  | case1 => intro index cs h; cases h; rfl
  | case3 b r hb ih => exact step _ [b] r (encodeChar_single hb) ih
  | case5 b hb b₁ r₁ h₁ ih => exact step _ [b, b₁] r₁ (encodeChar_double hb h₁) ih
  | case9 b low high hb b₁ h₁ b₂ r₂ h₂ ih =>
    exact step _ [b, b₁, b₂] r₂ (encodeChar_triple hb h₁ h₂) ih
  | case15 b low high hb b₁ h₁ b₂ h₂ b₃ r₃ h₃ ih =>
    exact step _ [b, b₁, b₂, b₃] r₃ (encodeChar_quadruple hb h₁ h₂ h₃) ih
  | _ => intro index cs h; cases h

/-- Writing undoes reading. -/
theorem encode_of_decode {bytes : Bytes} {cs : List Char} (h : decode bytes = .ok cs) :
    encode cs = bytes :=
  encode_of_chars_pieces bytes h

/-- No byte of a single-byte character is shown that was not given, and where no other byte is shown
nothing was changed. -/
def Shows (shown given : Bytes) : Prop :=
  (∀ b ∈ shown, b.toNat < 0x80 → b ∈ given) ∧ ((∀ b ∈ shown, b.toNat < 0x80) → shown = given)

/-- A character stands for its own bytes. -/
theorem Shows.char {c : Char} {written rest : Bytes} (hc : encodeChar c = written)
    {ps : List Piece} (h : Shows (encode (ps.map Piece.shown)) rest) :
    Shows (encode ((.char c :: ps).map Piece.shown)) (written ++ rest) := by
  subst hc
  obtain ⟨hmem, heq⟩ := h
  rw [List.map_cons, encode, List.flatMap_cons, ← encode, Piece.shown]
  refine ⟨fun b hb hlow => ?_, fun hlow => ?_⟩
  · rcases List.mem_append.mp hb with hb | hb
    · exact List.mem_append_left _ hb
    · exact List.mem_append_right _ (hmem b hb hlow)
  · rw [heq fun b hb => hlow b (List.mem_append_right _ hb)]

/-- The replacement character has other bytes only. -/
theorem shows_replaced {piece : Piece} (hpiece : piece.shown = replacement) {ps : List Piece}
    {given : Bytes} (h : ∀ b ∈ encode (ps.map Piece.shown), b.toNat < 0x80 → b ∈ given) :
    Shows (encode ((piece :: ps).map Piece.shown)) given := by
  have hhigh : ∀ b ∈ encodeChar replacement, ¬b.toNat < 0x80 := by decide +kernel
  rw [List.map_cons, encode, List.flatMap_cons, ← encode, hpiece]
  refine ⟨fun b hb hlow => ?_, fun hlow => ?_⟩
  · rcases List.mem_append.mp hb with hb | hb
    · exact absurd hlow (hhigh b hb)
    · exact h b hb hlow
  · have hfirst : 0xEF ∈ encodeChar replacement := by decide +kernel
    exact absurd (hlow _ (List.mem_append_left _ hfirst)) (by decide +kernel)

/-- The lossy reading makes up no bytes of single-byte characters, and where it shows nothing else
it changes nothing. -/
theorem encode_decodeLossy (bytes : Bytes) : Shows (encode (decodeLossy bytes)) bytes := by
  unfold decodeLossy
  fun_induction pieces bytes with
  | case1 => exact ⟨List.forall_mem_nil _, fun _ => rfl⟩
  | case3 b r hb ih => exact .char (encodeChar_single hb) ih
  | case5 b hb b₁ r₁ h₁ ih => exact .char (encodeChar_double hb h₁) ih
  | case9 b low high hb b₁ h₁ b₂ r₂ h₂ ih => exact .char (encodeChar_triple hb h₁ h₂) ih
  | case15 b low high hb b₁ h₁ b₂ h₂ b₃ r₃ h₃ ih =>
    exact .char (encodeChar_quadruple hb h₁ h₂ h₃) ih
  | case4 | case7 | case8 | case12 | case13 | case14 =>
    exact shows_replaced rfl (List.forall_mem_nil _)
  | case2 _ _ _ ih | case6 _ _ _ _ _ ih | case11 _ _ _ _ _ _ _ ih | case18 _ _ _ _ _ _ _ ih =>
    exact shows_replaced rfl fun c hc hlow => .tail _ (ih.1 c hc hlow)
  | case10 _ _ _ _ _ _ _ _ _ ih | case17 _ _ _ _ _ _ _ _ _ ih =>
    exact shows_replaced rfl fun c hc hlow => .tail _ (.tail _ (ih.1 c hc hlow))
  | case16 _ _ _ _ _ _ _ _ _ _ _ ih =>
    exact shows_replaced rfl fun c hc hlow => .tail _ (.tail _ (.tail _ (ih.1 c hc hlow)))

theorem ofString_append (a b : String) : ofString (a ++ b) = ofString a ++ ofString b := by
  simp [ofString, encode]

/-- The lossy reading of a text changes nothing. -/
theorem decodeLossy_encode : ∀ cs : List Char, decodeLossy (encode cs) = cs
  | [] => by rw [encode, List.flatMap_nil, decodeLossy, pieces.eq_def]; rfl
  | c :: cs => by
    rw [encode, List.flatMap_cons, decodeLossy, pieces_encodeChar, List.map_cons, ← encode,
      ← decodeLossy, decodeLossy_encode cs]
    rfl

theorem toStringLossy_ofString (s : String) : toStringLossy (ofString s) = s := by
  rw [toStringLossy, ofString, decodeLossy_encode, String.ofList_toList]

theorem ofString_inj {a b : String} (h : ofString a = ofString b) : a = b := by
  rw [← toStringLossy_ofString a, h, toStringLossy_ofString]

/-- A byte of a single-byte character is all there is of it. -/
theorem encodeChar_of_mem {c : Char} {b : UInt8} (hb : b ∈ encodeChar c) (hlow : b.toNat < 0x80) :
    encodeChar c = [b] ∧ c.toNat = b.toNat := by
  have hvalid := toNat_cases c
  unfold encodeChar at hb ⊢
  dsimp only at hb ⊢
  generalize c.toNat = n at hvalid hb ⊢
  split_ifs at hb ⊢ <;> simp only [List.mem_cons, List.not_mem_nil, or_false] at hb
  · subst hb
    exact ⟨rfl, (toNat_ofNat (by omega)).symm⟩
  all_goals
    rcases hb with rfl | rfl | rfl | rfl <;> rw [toNat_ofNat (by omega)] at hlow <;> omega

/-- A character of one byte stands in a text if its byte does. -/
theorem mem_of_mem_encode {cs : List Char} {d : Char} {b : UInt8} (hd : d.toNat = b.toNat)
    (hlow : b.toNat < 0x80) (hb : b ∈ encode cs) : d ∈ cs := by
  obtain ⟨c, hc, hb⟩ := List.mem_flatMap.mp hb
  have hcode := (encodeChar_of_mem hb hlow).2.trans hd.symm
  rwa [← Char.toNat_inj.mp hcode]

/-- A character that is no control character has no control byte. -/
theorem le_of_mem_encodeChar {c : Char} (hc : 0x20 ≤ c.toNat) {b : UInt8}
    (hb : b ∈ encodeChar c) : 0x20 ≤ b.toNat := by
  have hvalid := toNat_cases c
  generalize hn : c.toNat = n at hc hvalid
  simp only [encodeChar, hn] at hb
  split_ifs at hb <;> simp only [List.mem_cons, List.not_mem_nil, or_false] at hb <;>
    rcases hb with rfl | rfl | rfl | rfl <;> rw [toNat_ofNat (by omega)] <;> omega

end StubLoader.Utf8
