import StubLoader.Json.Decode
import StubLoader.Proofs.Json.Reading
/-!
# Typed readers and the grammar

What a string, a number, `null`, a name of a list, a member that may occur once and the items of a
fixed sequence mean to their readers. Whatever else stands there is refused.
-/

namespace StubLoader.Json

/-- The string that a tree is. -/
def Tree.text? : Tree → Option String
  | .str s => some s
  | _ => none

/-! ### Strings -/

theorem Tree.text?_eq_some {t : Tree} {s : String} : t.text? = some s ↔ t = .str s := by
  cases t <;> simp [Tree.text?]

theorem text_toOption {expected : String} {t : Tree} {cs rest : List Char}
    (h : Spells t cs rest) : (text expected cs).toOption = t.text?.map fun s => (s, rest) := by
  obtain ⟨c, r, hc, hbegin⟩ := h.begins
  rw [text, hc]
  dsimp only
  split_ifs with hquote
  · subst hquote
    obtain ⟨s, rfl⟩ := hbegin.str
    obtain ⟨r', hr', hs⟩ := h
    rw [hc] at hr'
    cases hr'
    rw [string_eq_ok_iff.mpr hs]
    rfl
  · match t with
    | .str s => exact absurd hbegin hquote
    | .null | .bool _ | .number _ | .arr _ | .obj _ => rfl

theorem reads_text (expected : String) : Reads (text expected) Tree.text? :=
  fun _ _ _ h _ => text_toOption h

theorem sound_text (expected : String) : Sound (text expected) := by
  intro cs rest s h
  unfold text at h
  split at h
  · cases h
  · next c r hc =>
    split_ifs at h with hquote
    exact ⟨.str s, r, hquote ▸ hc, string_eq_ok_iff.mp h⟩

theorem Reads.map {α β : Type} {reader : List Char → Read α} {meaning : Tree → Option α}
    (h : Reads reader meaning) (f : α → β) :
    Reads (fun cs => (reader cs).map fun (v, rest) => (f v, rest)) fun t => (meaning t).map f := by
  intro t cs rest ht hrest
  rw [toOption_map, h ht hrest, Option.map_map, Option.map_map]
  rfl

theorem Sound.map {α β : Type} {reader : List Char → Read α} (h : Sound reader) (f : α → β) :
    Sound fun cs => (reader cs).map fun (v, rest) => (f v, rest) := by
  intro cs rest v hv
  obtain ⟨w, hw, -⟩ := map_eq_ok hv
  exact h hw

/-! ### Numbers and `null` -/

/-- The integer that a tree is, if it is one and not negative. -/
def Tree.natural? : Tree → Option Nat
  | .number literal =>
    match literal? literal with
    | some (.int (.ofNat n)) => some n
    | _ => none
  | _ => none

theorem Tree.natural?_printInt {n : Nat} (h : n < UInt64.size) :
    (Tree.number (printInt n)).natural? = some n := by
  rw [Tree.natural?, literal?_printInt (by omega) (Int.ofNat_lt.mpr h)]

theorem reads_natural (expected : String) : Reads (natural expected) Tree.natural? := by
  intro t cs rest h hrest
  obtain ⟨c, r, hc, hbegin⟩ := h.begins
  rw [natural, hc]
  dsimp only
  split_ifs with hdigit
  · obtain ⟨l, rfl⟩ := hbegin.number hdigit
    have hscalar := scalar_numeral h.1 hrest
    rw [← h.2, hc] at hscalar
    rw [Tree.natural?]
    cases hl : literal? l with
    | none =>
      rw [hl] at hscalar
      obtain ⟨e, he⟩ := toOption_eq_none.mp hscalar
      rw [he]
      rfl
    | some v =>
      rw [hl] at hscalar
      rw [toOption_eq_some.mp hscalar]
      match v with
      | .int (.ofNat n) => rfl
      | .int (.negSucc n) => rfl
      | .null | .bool _ | .float _ | .str _ | .arr _ | .obj _ => rfl
  · match t with
    | .number l => exact absurd hbegin hdigit
    | .null | .bool _ | .str _ | .arr _ | .obj _ => rfl

/-- Nothing for `null`, and what the tree means otherwise. -/
def Tree.nullable? {α : Type} (meaning : Tree → Option α) : Tree → Option (Option α)
  | .null => some none
  | t => (meaning t).map some

theorem reads_nullable {α : Type} {reader : List Char → Read α} {meaning : Tree → Option α}
    (hreader : Reads reader meaning) : Reads (nullable reader) (Tree.nullable? meaning) := by
  intro t cs rest h hrest
  obtain ⟨c, r, hc, hbegin⟩ := h.begins
  by_cases hn : c = 'n'
  · subst hn
    cases hbegin.null
    cases hc.symm.trans (h : skipSpace cs = 'n' :: 'u' :: 'l' :: 'l' :: rest)
    rw [nullable, hc]
    rfl
  · have hread : nullable reader cs = (reader cs).map fun (v, rest) => (some v, rest) := by
      simp [nullable, hc, hn]
    have hmeaning : Tree.nullable? meaning t = (meaning t).map some := by
      match t with
      | .null => exact absurd hbegin hn
      | .bool _ | .number _ | .str _ | .arr _ | .obj _ => rfl
    rw [hread, hmeaning]
    exact hreader.map some h hrest

/-! ### Names -/

/-- Whether a tree is `null`. -/
def Tree.isNull : Tree → Bool
  | .null => true
  | _ => false

/-- The key of an object with one member, which is `null`. -/
def Tree.onlyKey? : List (String × Tree) → Option String
  | [(key, t)] => if t.isNull then some key else none
  | _ => none

/-- What a name of the list, as a string or as the only key of an object with `null` under it,
stands for. -/
def Tree.variant? {α : Type} (choices : List (String × α)) (depth : Nat) : Tree → Option α
  | .str s => choices.lookup s
  | .obj ms => if depth = 0 then none else (Tree.onlyKey? ms).bind (List.lookup · choices)
  | _ => none

section Names

variable {α : Type} {choices : List (String × α)}

theorem name_eq {expected : String} {cs r rest : List Char} {s : String}
    (hcs : skipSpace cs = '"' :: r) (hs : StringText r s.toList rest) :
    (name expected choices cs).toOption = (choices.lookup s).map fun v => (v, rest) := by
  have htext : text expected cs = .ok (s, rest) := by
    rw [text, hcs]
    exact string_eq_ok_iff.mpr hs
  rw [name, htext]
  simp only [bind, Except.bind]
  cases choices.lookup s <;> rfl

theorem unit_toOption {t : Tree} {cs rest : List Char} (h : Spells t cs rest) :
    (unit cs).toOption = if t.isNull then some rest else none := by
  obtain ⟨c, r, hc, hbegin⟩ := h.begins
  rw [unit, hc]
  dsimp only
  by_cases hn : c = 'n'
  · subst hn
    cases hbegin.null
    have hr : 'n' :: r = 'n' :: 'u' :: 'l' :: 'l' :: rest := hc ▸ h
    cases hr
    rfl
  · rw [if_neg hn]
    match t with
    | .null => exact absurd hbegin hn
    | .bool _ | .number _ | .str _ | .arr _ | .obj _ => rfl

theorem onlyKey_toOption {ms : List (String × Tree)} {cs rest : List Char}
    (h : SpellsMembers ms cs rest) : (onlyKey choices cs).toOption =
      ((Tree.onlyKey? ms).bind (List.lookup · choices)).map fun v => (v, rest) := by
  match ms with
  | [] =>
    have hcs : skipSpace cs = '\x7d' :: rest := h
    have hname : ∃ e, name "variant identifier" choices cs = .error e := by
      rw [name, text, hcs]
      exact ⟨_, rfl⟩
    obtain ⟨e, he⟩ := hname
    rw [onlyKey, he]
    rfl
  | (key, t) :: ms =>
    obtain ⟨v, r, ⟨k, q, hquote, hkey, hcolon⟩, ht, hms⟩ := h
    rw [onlyKey, toOption_bind_of (name_eq hquote hkey)]
    cases hlookup : choices.lookup key with
    | none => cases ms <;> cases hnull : t.isNull <;> simp [Tree.onlyKey?, hlookup, hnull]
    | some a =>
      rw [Option.bind_some, toOption_bind_ok (colon_eq_ok.mpr hcolon), toOption_bind,
        unit_toOption ht]
      cases hnull : t.isNull with
      | false => cases ms <;> simp [Tree.onlyKey?, hnull]
      | true =>
        cases ms with
        | nil =>
          have hclose : skipSpace r = '\x7d' :: rest := hms
          simp only [hclose, Tree.onlyKey?, hnull, if_true, Option.bind_some, hlookup]
          rfl
        | cons m ms =>
          obtain ⟨k', _, _, hcomma, -⟩ := hms
          simp only [Option.bind_some, if_true, hcomma, show ¬(',' = '\x7d') by decide, if_false]
          rfl

theorem reads_variant (depth : Nat) :
    Reads (variant choices depth) (Tree.variant? choices depth) := by
  intro t cs rest h _
  obtain ⟨c, r, hc, hbegin⟩ := h.begins
  rw [variant, hc]
  dsimp only
  by_cases hobject : c = '\x7b'
  · subst hobject
    obtain ⟨ms, rfl⟩ := hbegin.obj
    obtain ⟨r', hr', hms⟩ := h
    rw [hc] at hr'
    cases hr'
    rw [if_pos rfl, Tree.variant?]
    split_ifs with hdepth
    · rfl
    · exact onlyKey_toOption hms
  · rw [if_neg hobject]
    split_ifs with hquote
    · subst hquote
      obtain ⟨s, rfl⟩ := hbegin.str
      obtain ⟨r', hr', hs⟩ := h
      rw [hc] at hr'
      exact name_eq (hr' ▸ skipSpace_cons rfl) hs
    · match t with
      | .str _ => exact absurd hbegin hquote
      | .obj _ => exact absurd hbegin hobject
      | .null | .bool _ | .number _ | .arr _ => rfl

theorem text_of_name {expected : String} {cs rest : List Char} {v : α}
    (h : name expected choices cs = .ok (v, rest)) : ∃ s, text expected cs = .ok (s, rest) := by
  obtain ⟨⟨s, r⟩, hs, h⟩ := bind_eq_ok h
  dsimp only at h
  split at h
  · cases h; exact ⟨s, hs⟩
  · cases h

theorem spells_of_unit {cs rest : List Char} (h : unit cs = .ok rest) : Spells .null cs rest := by
  unfold unit at h
  split at h
  · cases h
  · next c r hc =>
    split_ifs at h with hn
    match hw : word .null ['u', 'l', 'l'] r with
    | .error e => rw [hw] at h; cases h
    | .ok (v, r') =>
      rw [hw] at h
      cases h
      rw [Spells, hc, hn, word_eq_ok hw]
      rfl

theorem spells_of_onlyKey {cs rest : List Char} {v : α} (h : onlyKey choices cs = .ok (v, rest)) :
    ∃ ms, SpellsMembers ms cs rest := by
  obtain ⟨⟨a, q⟩, hname, h⟩ := bind_eq_ok h
  obtain ⟨key, hkey⟩ := text_of_name hname
  obtain ⟨v', hcolon, h⟩ := bind_eq_ok h
  obtain ⟨r, hunit, h⟩ := bind_eq_ok h
  unfold text at hkey
  split at hkey
  · cases hkey
  · next c k hc =>
    split_ifs at hkey with hquote
    split at h
    · cases h
    · next d s hd =>
      split_ifs at h with hclose
      cases h
      subst hclose
      exact ⟨[(key, .null)], v', r, ⟨k, q, hquote ▸ hc, string_eq_ok_iff.mp hkey,
        colon_eq_ok.mp hcolon⟩, spells_of_unit hunit, hd⟩

theorem sound_variant (depth : Nat) : Sound (variant choices depth) := by
  intro cs rest v h
  unfold variant at h
  split at h
  · cases h
  · next c r hc =>
    split_ifs at h with hobject hdepth hquote
    · obtain ⟨ms, hms⟩ := spells_of_onlyKey h
      exact ⟨.obj ms, r, hobject ▸ hc, hms⟩
    · obtain ⟨s, hs⟩ := text_of_name h
      obtain ⟨t, ht⟩ := sound_text _ hs
      exact ⟨t, spells_skipSpace.mp (hc ▸ ht)⟩

end Names

/-! ### Members that may occur once -/

section Once

variable {α : Type} {reader : List Char → Read α}

/-- What a member means that may occur once. -/
def once? (meaning : Tree → Option α) (seen : Option α) (t : Tree) : Option α :=
  if seen.isSome then none else meaning t

@[simp]
theorem once?_none (meaning : Tree → Option α) (t : Tree) : once? meaning none t = meaning t := rfl

/-- A member that may occur once is read and put where it belongs. -/
theorem once_toOption {β : Type} {meaning : Tree → Option α} (hreader : Reads reader meaning)
    {t : Tree} {k v rest : List Char} (hcolon : skipSpace k = ':' :: v) (ht : Spells t v rest)
    (hrest : Boundary rest) (field : String) (seen : Option α) (put : Option α → β) :
    (once field reader seen k >>= fun p => pure (put p.1, p.2)).toOption =
      ((once? meaning seen t).map fun w => put (some w)).map fun b => (b, rest) := by
  cases seen with
  | some _ => rfl
  | none =>
    rw [once, once?, toOption_bind_pure, toOption_bind_ok (colon_eq_ok.mpr hcolon),
      toOption_bind_of (hreader ht hrest)]
    cases meaning t <;> rfl

theorem spells_of_once (hreader : Sound reader) {field : String} {seen new : Option α}
    {k rest : List Char} (h : once field reader seen k = .ok (new, rest)) :
    ∃ t v, skipSpace k = ':' :: v ∧ Spells t v rest := by
  cases seen with
  | some _ => cases h
  | none =>
    obtain ⟨v, hcolon, h⟩ := bind_eq_ok h
    obtain ⟨⟨w, r⟩, hw, h⟩ := bind_eq_ok h
    cases h
    obtain ⟨t, ht⟩ := hreader hw
    exact ⟨t, v, colon_eq_ok.mp hcolon, ht⟩

end Once

/-! ### Items of a fixed sequence -/

section Items

variable {α : Type} {reader : List Char → Read α} {expected : String}

theorem nextItem_close (first : Bool) {cs rest : List Char} (h : skipSpace cs = ']' :: rest) :
    nextItem first cs = .ok (false, ']' :: rest) := by
  rw [nextItem, h]
  rfl

theorem nextItem_first {t : Tree} {cs rest : List Char} (ht : Spells t cs rest) :
    ∃ r, nextItem true cs = .ok (true, r) ∧ Spells t r rest := by
  obtain ⟨c, r, hc, hbegin⟩ := ht.begins
  refine ⟨c :: r, ?_, hc ▸ spells_skipSpace.mpr ht⟩
  rw [nextItem, hc]
  dsimp only
  rw [if_neg hbegin.ne_close, if_pos rfl]

theorem nextItem_comma {t : Tree} {cs k rest : List Char} (hcomma : skipSpace cs = ',' :: k)
    (ht : Spells t k rest) : ∃ r, nextItem false cs = .ok (true, r) ∧ Spells t r rest := by
  obtain ⟨c, r, hc, hbegin⟩ := ht.begins
  refine ⟨c :: r, ?_, hc ▸ spells_skipSpace.mpr ht⟩
  rw [nextItem, hcomma]
  simp only [show ¬(',' = ']') by decide, if_false, if_true, Bool.false_eq_true, hc,
    if_neg hbegin.ne_close]

theorem item?_close (count : Nat) {cs rest : List Char} (h : skipSpace cs = ']' :: rest) :
    item? count reader cs = .ok (none, ']' :: rest) := by
  rw [item?, nextItem_close _ h]
  rfl

/-- An item that is there is read. -/
theorem item?_found {meaning : Tree → Option α} (hreader : Reads reader meaning) {t : Tree}
    {count : Nat} {cs r rest : List Char} (hnext : nextItem (count == 0) cs = .ok (true, r))
    (ht : Spells t r rest) (hrest : Boundary rest) :
    (item? count reader cs).toOption = (meaning t).map fun v => (some v, rest) := by
  rw [item?, toOption_bind_ok hnext]
  dsimp only
  rw [if_pos rfl, toOption_bind_of (hreader ht hrest)]
  cases meaning t <;> rfl

/-- Nothing more follows: the item that must be there is missing. -/
theorem item_close (count : Nat) {cs rest : List Char} (h : skipSpace cs = ']' :: rest) :
    (item expected count reader cs).toOption = none := by
  rw [item, item?_close count h]
  rfl

theorem item_found {meaning : Tree → Option α} (hreader : Reads reader meaning) {t : Tree}
    {count : Nat} {cs r rest : List Char} (hnext : nextItem (count == 0) cs = .ok (true, r))
    (ht : Spells t r rest) (hrest : Boundary rest) :
    (item expected count reader cs).toOption = (meaning t).map fun v => (v, rest) := by
  rw [item, toOption_bind, item?_found hreader hnext ht hrest]
  cases meaning t <;> rfl

theorem item_first {meaning : Tree → Option α} (hreader : Reads reader meaning) {t : Tree}
    {cs rest : List Char} (ht : Spells t cs rest) (hrest : Boundary rest) :
    (item expected 0 reader cs).toOption = (meaning t).map fun v => (v, rest) := by
  obtain ⟨r, hnext, hr⟩ := nextItem_first ht
  exact item_found hreader hnext hr hrest

theorem item_next {meaning : Tree → Option α} (hreader : Reads reader meaning) {t : Tree}
    (count : Nat) {cs k rest : List Char} (hcomma : skipSpace cs = ',' :: k) (ht : Spells t k rest)
    (hrest : Boundary rest) :
    (item expected (count + 1) reader cs).toOption = (meaning t).map fun v => (v, rest) := by
  obtain ⟨r, hnext, hr⟩ := nextItem_comma hcomma ht
  exact item_found hreader hnext hr hrest

/-- What the first of the trees means, if there is one. -/
def part? (meaning : Tree → Option α) : List Tree → Option (Option α)
  | [] => some none
  | t :: _ => (meaning t).map some

/-- The first item of an array that may end anywhere. -/
theorem item?_first {meaning : Tree → Option α} (hreader : Reads reader meaning) {ts : List Tree}
    {cs rest : List Char} (h : SpellsItems ts cs rest) : ∃ r, SpellsMoreItems (ts.drop 1) r rest ∧
      (item? 0 reader cs).toOption = (part? meaning ts).map fun v => (v, r) := by
  match ts, h with
  | [], hclose => exact ⟨_, skipSpace_cons rfl, by rw [item?_close 0 hclose]; rfl⟩
  | t :: ts, ⟨r, ht, hts⟩ =>
    obtain ⟨k, hnext, hk⟩ := nextItem_first ht
    have hfound : (item? 0 reader cs).toOption = (meaning t).map fun v => (some v, r) :=
      item?_found hreader hnext hk (SpellsMoreItems.boundary hts)
    refine ⟨r, hts, ?_⟩
    rw [hfound, part?, Option.map_map]
    rfl

/-- A later item of an array that may end anywhere. -/
theorem item?_next {meaning : Tree → Option α} (hreader : Reads reader meaning) (count : Nat)
    {ts : List Tree} {cs rest : List Char} (h : SpellsMoreItems (ts.drop (count + 1)) cs rest) :
    ∃ r, SpellsMoreItems (ts.drop (count + 2)) r rest ∧ (item? (count + 1) reader cs).toOption =
      (part? meaning (ts.drop (count + 1))).map fun v => (v, r) := by
  rw [← List.tail_drop]
  match ts.drop (count + 1), h with
  | [], hclose => exact ⟨_, skipSpace_cons rfl, by rw [item?_close (count + 1) hclose]; rfl⟩
  | t :: us, ⟨k, r, hcomma, ht, hus⟩ =>
    obtain ⟨k', hnext, hk⟩ := nextItem_comma hcomma ht
    have hfound : (item? (count + 1) reader cs).toOption = (meaning t).map fun v => (some v, r) :=
      item?_found hreader hnext hk (SpellsMoreItems.boundary hus)
    refine ⟨r, hus, ?_⟩
    rw [hfound, part?, Option.map_map]
    rfl

/-- What is read as the first item, or as a later one, is one. -/
theorem spells_of_item (hreader : Sound reader) {count : Nat} {cs rest : List Char} {v : α}
    (h : item expected count reader cs = .ok (v, rest)) :
    (count = 0 ∧ ∃ t, Spells t cs rest) ∨
      (count ≠ 0 ∧ ∃ k t, skipSpace cs = ',' :: k ∧ Spells t k rest) := by
  obtain ⟨⟨found, r⟩, hitem, h⟩ := bind_eq_ok h
  obtain ⟨⟨more, k⟩, hnext, hitem⟩ := bind_eq_ok hitem
  have hread : more = true ∧ ∃ t, Spells t k rest := by
    cases more with
    | false => cases hitem; cases h
    | true =>
      obtain ⟨⟨w, r'⟩, hw, hitem⟩ := bind_eq_ok hitem
      cases hitem
      cases h
      exact ⟨rfl, hreader hw⟩
  obtain ⟨rfl, t, ht⟩ := hread
  unfold nextItem at hnext
  split at hnext
  · cases hnext
  · next c q hc =>
    split_ifs at hnext with hclose hfirst hcomma
    · cases hnext
    · cases hnext
      exact .inl ⟨by simpa using hfirst, t, spells_skipSpace.mp (hc ▸ ht)⟩
    · split at hnext
      · cases hnext
      · next d s hd =>
        split_ifs at hnext
        cases hnext
        exact .inr ⟨by simpa using hfirst, q, t, hcomma ▸ hc, spells_skipSpace.mp (hd ▸ ht)⟩

end Items

theorem closeList_eq_ok {cs rest : List Char} :
    closeList cs = .ok rest ↔ skipSpace cs = ']' :: rest := by
  unfold closeList
  split
  · next h => simp [h]
  · next c r h =>
    rw [h]
    split_ifs with hclose hcomma
    · simp [hclose]
    · split <;> simp [hclose]
    · simp [hclose]

/-- An array is closed where no item is left. -/
theorem closeList_toOption {ts : List Tree} {cs rest : List Char} (h : SpellsMoreItems ts cs rest) :
    (closeList cs).toOption = if ts.isEmpty then some rest else none := by
  match ts, h with
  | [], hclose => rw [closeList_eq_ok.mpr hclose]; rfl
  | t :: ts, ⟨k, r, hcomma, _⟩ =>
    refine toOption_eq_none.mpr ?_
    match hr : closeList cs with
    | .error e => exact ⟨e, rfl⟩
    | .ok r => rw [closeList_eq_ok.mp hr] at hcomma; cases hcomma

end StubLoader.Json
