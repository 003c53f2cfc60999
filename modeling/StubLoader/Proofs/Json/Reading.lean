import StubLoader.Proofs.Json.Literal
import StubLoader.Proofs.Json.Spelling
import StubLoader.Proofs.Json.StringText
/-!
# Readers and the grammar

A reader of values takes spellings of trees only, and on each spelling it answers what the tree
means to it. Both are shown once for the readers of arrays and objects, whatever they read the
parts with, and then for values by induction on the depth.
-/

namespace StubLoader.Json

theorem toOption_eq_some {ε α : Type} {x : Except ε α} {v : α} :
    x.toOption = some v ↔ x = .ok v := by
  cases x <;> simp [Except.toOption]

theorem toOption_eq_none {ε α : Type} {x : Except ε α} :
    x.toOption = none ↔ ∃ e, x = .error e := by
  cases x <;> simp [Except.toOption]

/-- A computation that succeeds does so step by step. -/
theorem bind_eq_ok {ε α β : Type} {x : Except ε α} {f : α → Except ε β} {b : β}
    (h : (x >>= f) = .ok b) : ∃ a, x = .ok a ∧ f a = .ok b := by
  match x with
  | .error e => cases h
  | .ok a => exact ⟨a, rfl, h⟩

theorem map_eq_ok {α β : Type} {read : Read α} {f : α → β} {v : β} {rest : List Char}
    (h : read.map (fun (v, rest) => (f v, rest)) = .ok (v, rest)) :
    ∃ w, read = .ok (w, rest) ∧ v = f w := by
  match read with
  | .error e => cases h
  | .ok (w, r) => cases h; exact ⟨w, rfl, rfl⟩

theorem toOption_bind {ε α β : Type} (x : Except ε α) (f : α → Except ε β) :
    (x >>= f).toOption = x.toOption.bind fun a => (f a).toOption := by
  cases x <;> rfl

/-- A computation goes on with what its first step answers, if that is known. -/
theorem toOption_bind_of {ε α β : Type} {x : Except ε (α × List Char)} {m : Option α}
    {rest : List Char} (h : x.toOption = m.map fun v => (v, rest))
    (f : α × List Char → Except ε β) :
    (x >>= f).toOption = m.bind fun v => (f (v, rest)).toOption := by
  rw [toOption_bind, h]
  cases m <;> rfl

theorem toOption_bind_ok {ε α β : Type} {x : Except ε α} {v : α} (h : x = .ok v)
    (f : α → Except ε β) : (x >>= f).toOption = (f v).toOption := by
  rw [h]
  rfl

theorem toOption_bind_pure {ε α β : Type} (f : α → β) (x : Except ε (α × List Char)) :
    (x >>= fun p => pure (f p.1, p.2)).toOption = x.toOption.map fun p => (f p.1, p.2) := by
  cases x <;> rfl

/-- The value of a tree, inside which `depth` brackets may be open at once. -/
def Tree.read? : Nat → Tree → Option Json
  | _, .null => some .null
  | _, .bool b => some (.bool b)
  | _, .number literal => literal? literal
  | _, .str s => some (.str s)
  | 0, .arr _ => none
  | depth + 1, .arr items => (items.mapM (Tree.read? depth)).map .arr
  | 0, .obj _ => none
  | depth + 1, .obj members =>
    (members.foldlM (fun ms m => (Tree.read? depth m.2).map (insert m.1 · ms)) []).map .obj

section Parts

variable {α σ : Type}

/-- On every spelling of a tree the reader answers what the tree means. -/
def Reads (reader : List Char → Read α) (meaning : Tree → Option α) : Prop :=
  ∀ ⦃t : Tree⦄ ⦃cs rest : List Char⦄, Spells t cs rest → Boundary rest →
    (reader cs).toOption = (meaning t).map fun v => (v, rest)

/-- The reader takes spellings of trees only. -/
def Sound (reader : List Char → Read α) : Prop :=
  ∀ ⦃cs rest : List Char⦄ ⦃v : α⦄, reader cs = .ok (v, rest) → ∃ t, Spells t cs rest

/-- From after a key the reader answers what the member means. -/
def ReadsMember (reader : σ → String → List Char → Read σ)
    (meaning : σ → String × Tree → Option σ) : Prop :=
  ∀ ⦃s : σ⦄ ⦃m : String × Tree⦄ ⦃k v rest : List Char⦄, skipSpace k = ':' :: v →
    Spells m.2 v rest → Boundary rest →
      (reader s m.1 k).toOption = (meaning s m).map fun s => (s, rest)

/-- The reader takes members only, from after their keys. -/
def SoundMember (reader : σ → String → List Char → Read σ) : Prop :=
  ∀ ⦃s s' : σ⦄ ⦃key : String⦄ ⦃k rest : List Char⦄, reader s key k = .ok (s', rest) →
    ∃ t v, skipSpace k = ':' :: v ∧ Spells t v rest

/-! ### Arrays -/

variable {item : List Char → Read α} {meaning : Tree → Option α}

theorem elementsFrom_toOption (hitem : Reads item meaning) : ∀ {ts : List Tree} {t : Tree}
    {cs r rest : List Char} {bound : Nat}, Spells t cs r → SpellsMoreItems ts r rest →
    cs.length ≤ bound →
      (elementsFrom item bound cs).toOption =
        ((t :: ts).mapM meaning).map fun vs => (vs, rest) := by
  intro ts
  induction ts with
  | nil =>
    intro t cs r rest bound ht hts hbound
    have hlen := ht.length_lt
    have hclose : skipSpace r = ']' :: rest := hts
    obtain ⟨bound, rfl⟩ : ∃ b, bound = b + 1 := ⟨bound - 1, by omega⟩
    rw [elementsFrom, toOption_bind_of (hitem ht hts.boundary)]
    cases hm : meaning t with
    | none => simp [hm]
    | some v => simp [hm, hclose, Except.toOption]
  | cons u ts ih =>
    intro t cs r rest bound ht hts hbound
    have hlen := ht.length_lt
    obtain ⟨bound, rfl⟩ : ∃ b, bound = b + 1 := ⟨bound - 1, by omega⟩
    rw [elementsFrom, toOption_bind_of (hitem ht hts.boundary), List.mapM_cons]
    obtain ⟨k, r', hcomma, hu, hrest⟩ := hts
    obtain ⟨d, s, hd, hbegin⟩ := hu.begins
    have hnext : (elementsFrom item bound (d :: s)).toOption =
        ((u :: ts).mapM meaning).map fun vs => (vs, rest) := by
      refine ih (hd ▸ spells_skipSpace.mpr hu) hrest ?_
      have h₁ := length_lt_of_skipSpace hcomma
      have h₂ := length_skipSpace_le k
      rw [hd] at h₂
      omega
    cases meaning t with
    | none => rfl
    | some v =>
      simp only [Option.bind_some, hcomma, hd, if_neg hbegin.ne_close, if_false, if_true,
        show ¬(',' = ']') by decide]
      rw [toOption_bind_of hnext]
      cases (u :: ts).mapM meaning <;> rfl

/-- The reader of an array answers what its items mean. -/
theorem elements_toOption (hitem : Reads item meaning) {ts : List Tree} {cs rest : List Char}
    (h : SpellsItems ts cs rest) :
    (elements item cs).toOption = (ts.mapM meaning).map fun vs => (vs, rest) := by
  cases ts with
  | nil =>
    have hclose : skipSpace cs = ']' :: rest := h
    rw [elements, hclose]
    rfl
  | cons t ts =>
    obtain ⟨r, ht, hts⟩ := h
    obtain ⟨c, s, hc, hbegin⟩ := ht.begins
    rw [elements, hc]
    simp only [if_neg hbegin.ne_close]
    exact elementsFrom_toOption hitem (hc ▸ spells_skipSpace.mpr ht) hts (Nat.le_refl _)

theorem spells_of_elementsFrom (hitem : Sound item) : ∀ {bound : Nat} {cs rest : List Char}
    {vs : List α}, elementsFrom item bound cs = .ok (vs, rest) →
      ∃ t ts r, Spells t cs r ∧ SpellsMoreItems ts r rest := by
  intro bound
  induction bound with
  | zero => intro cs rest vs h; cases h
  | succ bound ih =>
    intro cs rest vs h
    obtain ⟨⟨v, r⟩, hv, h⟩ := bind_eq_ok h
    obtain ⟨t, ht⟩ := hitem hv
    dsimp only at h
    split at h
    · cases h
    · next c k hc =>
      split_ifs at h with hclose hcomma
      · cases h
        subst hclose
        exact ⟨t, [], r, ht, hc⟩
      · split at h
        · cases h
        · next d s hd =>
          split_ifs at h
          obtain ⟨⟨vs', rest'⟩, hmore, h⟩ := bind_eq_ok h
          cases h
          obtain ⟨u, us, r', hu, hus⟩ := ih hmore
          exact ⟨t, u :: us, r, ht, k, r', hcomma ▸ hc, spells_skipSpace.mp (hd ▸ hu), hus⟩

/-- The reader of an array takes arrays only. -/
theorem spells_of_elements (hitem : Sound item) {cs rest : List Char} {vs : List α}
    (h : elements item cs = .ok (vs, rest)) : ∃ ts, SpellsItems ts cs rest := by
  unfold elements at h
  split at h
  · cases h
  · next c r hc =>
    split_ifs at h with hclose
    · cases h
      subst hclose
      exact ⟨[], hc⟩
    · obtain ⟨t, ts, r', ht, hts⟩ := spells_of_elementsFrom hitem h
      exact ⟨t :: ts, r', spells_skipSpace.mp (hc ▸ ht), hts⟩

/-! ### Objects -/

variable {member : σ → String → List Char → Read σ} {means : σ → String × Tree → Option σ}

theorem membersFrom_toOption (hmember : ReadsMember member means) : ∀ {ms : List (String × Tree)}
    {s : σ} {m : String × Tree} {cs k v r rest : List Char} {bound : Nat},
    StringText cs m.1.toList k → skipSpace k = ':' :: v → Spells m.2 v r →
    SpellsMoreMembers ms r rest → cs.length ≤ bound →
      (membersFrom member bound s cs).toOption =
        ((m :: ms).foldlM means s).map fun s => (s, rest) := by
  intro ms
  induction ms with
  | nil =>
    intro s m cs k v r rest bound hkey hcolon ht hms hbound
    have hlen := hkey.length_lt
    have hclose : skipSpace r = '\x7d' :: rest := hms
    obtain ⟨bound, rfl⟩ : ∃ b, bound = b + 1 := ⟨bound - 1, by omega⟩
    rw [membersFrom, toOption_bind_ok (string_eq_ok_iff.mpr hkey)]
    dsimp only
    rw [toOption_bind_of (hmember hcolon ht hms.boundary)]
    cases hm : means s m with
    | none => simp [hm]
    | some s' => simp [hm, hclose, Except.toOption]
  | cons n ms ih =>
    intro s m cs k v r rest bound hkey hcolon ht hms hbound
    have hlen := hkey.length_lt
    obtain ⟨bound, rfl⟩ : ∃ b, bound = b + 1 := ⟨bound - 1, by omega⟩
    rw [membersFrom, toOption_bind_ok (string_eq_ok_iff.mpr hkey)]
    dsimp only
    rw [toOption_bind_of (hmember hcolon ht hms.boundary), List.foldlM_cons]
    obtain ⟨k', v', r', hcomma, ⟨q, k'', hquote, hkey', hcolon'⟩, hu, hrest⟩ := hms
    cases means s m with
    | none => rfl
    | some s' =>
      simp only [Option.bind_some, Option.bind_eq_bind, hcomma, hquote, if_true,
        show ¬(',' = '\x7d') by decide, if_false]
      refine ih hkey' hcolon' hu hrest ?_
      have h₁ := length_lt_of_skipSpace hcolon
      have h₂ := ht.length_lt
      have h₃ := length_lt_of_skipSpace hcomma
      have h₄ := length_lt_of_skipSpace hquote
      omega

/-- The reader of an object answers what its members mean, one after the other. -/
theorem members_toOption (hmember : ReadsMember member means) {ms : List (String × Tree)} {s : σ}
    {cs rest : List Char} (h : SpellsMembers ms cs rest) :
    (members member s cs).toOption = (ms.foldlM means s).map fun s => (s, rest) := by
  cases ms with
  | nil =>
    have hclose : skipSpace cs = '\x7d' :: rest := h
    rw [members, hclose]
    rfl
  | cons m ms =>
    obtain ⟨v, r, ⟨q, k, hquote, hkey, hcolon⟩, ht, hms⟩ := h
    rw [members, hquote]
    simp only [show ¬('"' = '\x7d') by decide, if_false, if_true]
    exact membersFrom_toOption hmember hkey hcolon ht hms (by simp)

theorem spells_of_membersFrom (hmember : SoundMember member) : ∀ {bound : Nat} {s s' : σ}
    {cs rest : List Char}, membersFrom member bound s cs = .ok (s', rest) →
      ∃ key t ms k v r, StringText cs (String.toList key) k ∧ skipSpace k = ':' :: v ∧
        Spells t v r ∧ SpellsMoreMembers ms r rest := by
  intro bound
  induction bound with
  | zero => intro s s' cs rest h; cases h
  | succ bound ih =>
    intro s s' cs rest h
    obtain ⟨⟨key, k⟩, hkey, h⟩ := bind_eq_ok h
    obtain ⟨⟨s₁, r⟩, hm, h⟩ := bind_eq_ok h
    obtain ⟨t, v, hcolon, ht⟩ := hmember hm
    dsimp only at h
    split at h
    · cases h
    · next c k' hc =>
      split_ifs at h with hclose hcomma
      · cases h
        subst hclose
        exact ⟨key, t, [], k, v, r, string_eq_ok_iff.mp hkey, hcolon, ht, hc⟩
      · split at h
        · cases h
        · next d q hd =>
          split_ifs at h with hquote
          obtain ⟨key', t', ms, k'', v', r', hkey', hcolon', ht', hms⟩ := ih h
          exact ⟨key, t, (key', t') :: ms, k, v, r, string_eq_ok_iff.mp hkey, hcolon, ht,
            k', v', r', hcomma ▸ hc, ⟨q, k'', hquote ▸ hd, hkey', hcolon'⟩, ht', hms⟩

/-- The reader of an object takes objects only. -/
theorem spells_of_members (hmember : SoundMember member) {s s' : σ} {cs rest : List Char}
    (h : members member s cs = .ok (s', rest)) : ∃ ms, SpellsMembers ms cs rest := by
  unfold members at h
  split at h
  · cases h
  · next c q hc =>
    split_ifs at h with hclose hquote
    · cases h
      subst hclose
      exact ⟨[], hc⟩
    · obtain ⟨key, t, ms, k, v, r, hkey, hcolon, ht, hms⟩ := spells_of_membersFrom hmember h
      exact ⟨(key, t) :: ms, v, r, ⟨q, k, hquote ▸ hc, hkey, hcolon⟩, ht, hms⟩

end Parts

/-! ### Values -/

theorem value_array {cs r : List Char} (h : skipSpace cs = '[' :: r) (depth : Nat) :
    value depth cs = match depth with
      | 0 => .error (.next .tooDeep ('[' :: r))
      | depth + 1 => (elements (value depth) r).map fun (vs, rest) => (.arr vs, rest) := by
  rw [value.eq_def]
  dsimp only
  rw [h]
  cases depth <;> rfl

theorem value_object {cs r : List Char} (h : skipSpace cs = '\x7b' :: r) (depth : Nat) :
    value depth cs = match depth with
      | 0 => .error (.next .tooDeep ('\x7b' :: r))
      | depth + 1 =>
        (members (insertMember (value depth)) [] r).map fun (ms, rest) => (.obj ms, rest) := by
  rw [value.eq_def]
  dsimp only
  rw [h]
  cases depth <;> rfl

theorem value_scalar {cs r : List Char} {c : Char} (h : skipSpace cs = c :: r) (hlist : c ≠ '[')
    (hobject : c ≠ '\x7b') (depth : Nat) : value depth cs = scalar (c :: r) := by
  rw [value.eq_def]
  dsimp only
  rw [h]
  dsimp only
  rw [if_neg hlist, if_neg hobject]

theorem colon_eq_ok {cs v : List Char} : colon cs = .ok v ↔ skipSpace cs = ':' :: v := by
  unfold colon
  split
  · next h => simp [h]
  · next c r h =>
    rw [h]
    split_ifs with hc
    · simp [hc]
    · simp [hc]

theorem readsMember_insertMember {item : List Char → Read Json} {meaning : Tree → Option Json}
    (hitem : Reads item meaning) : ReadsMember (insertMember item)
      fun ms m => (meaning m.2).map fun v => insert m.1 v ms := by
  intro ms m k v rest hcolon ht hrest
  rw [insertMember, toOption_bind_ok (colon_eq_ok.mpr hcolon), toOption_bind_of (hitem ht hrest)]
  dsimp only
  cases meaning m.2 <;> rfl

theorem soundMember_insertMember {item : List Char → Read Json} (hitem : Sound item) :
    SoundMember (insertMember item) := by
  intro ms ms' key k rest h
  obtain ⟨v, hcolon, h⟩ := bind_eq_ok h
  obtain ⟨⟨w, r⟩, hv, h⟩ := bind_eq_ok h
  cases h
  obtain ⟨t, ht⟩ := hitem hv
  exact ⟨t, v, colon_eq_ok.mp hcolon, ht⟩

theorem toOption_map {ε α β : Type} (f : α → β) (x : Except ε α) :
    (x.map f).toOption = x.toOption.map f := by
  cases x <;> rfl

/-- A number is read as the value of its literal. -/
theorem value_number {l cs rest : List Char} (h : Spells (.number l) cs rest)
    (hrest : Boundary rest) (depth : Nat) :
    (value depth cs).toOption = (literal? l).map fun v => (v, rest) := by
  obtain ⟨hl, hcs⟩ := h
  rw [← scalar_numeral hl hrest]
  obtain ⟨c, r, rfl, hc⟩ := hl.exists_cons
  have hlist : c ≠ '[' := by rintro rfl; exact hc.elim (by decide) (by decide)
  have hobject : c ≠ '\x7b' := by rintro rfl; exact hc.elim (by decide) (by decide)
  rw [value_scalar (r := r ++ rest) hcs hlist hobject]
  rfl

theorem value_str {s : String} {cs rest : List Char} (h : Spells (.str s) cs rest)
    (depth : Nat) : value depth cs = .ok (.str s, rest) := by
  obtain ⟨r, hr, hs⟩ := h
  rw [value_scalar hr (by decide) (by decide)]
  simp only [scalar, show ¬('"' = 'n') by decide, show ¬('"' = 't') by decide,
    show ¬('"' = 'f') by decide, show ¬('"' = '-') by decide,
    show ¬(isDigit '"' = true) by decide, if_false, if_true, string_eq_ok_iff.mpr hs]
  rfl

/-- A text that spells a tree is read as the value of the tree, or refused if it has none. -/
theorem reads_value (depth : Nat) : Reads (value depth) (Tree.read? depth) := by
  induction depth using Nat.strongRecOn with
  | ind depth ih =>
    intro t cs rest h hrest
    match t with
    | .null =>
      rw [value_scalar (r := 'u' :: 'l' :: 'l' :: rest) h (by decide) (by decide)]
      cases depth <;> rfl
    | .bool true =>
      rw [value_scalar (r := 'r' :: 'u' :: 'e' :: rest) h (by decide) (by decide)]
      cases depth <;> rfl
    | .bool false =>
      rw [value_scalar (r := 'a' :: 'l' :: 's' :: 'e' :: rest) h (by decide) (by decide)]
      cases depth <;> rfl
    | .number l =>
      rw [value_number h hrest]
      cases depth <;> rfl
    | .str s =>
      rw [value_str h]
      cases depth <;> rfl
    | .arr ts =>
      obtain ⟨r, hr, hts⟩ := h
      rw [value_array hr]
      cases depth with
      | zero => rfl
      | succ depth =>
        dsimp only
        rw [toOption_map, elements_toOption (ih depth (Nat.lt_succ_self depth)) hts, Tree.read?]
        cases ts.mapM (Tree.read? depth) <;> rfl
    | .obj ms =>
      obtain ⟨r, hr, hms⟩ := h
      rw [value_object hr]
      cases depth with
      | zero => rfl
      | succ depth =>
        dsimp only
        have hmember := readsMember_insertMember (ih depth (Nat.lt_succ_self depth))
        rw [toOption_map, members_toOption hmember hms, Tree.read?]
        simp only [Option.map_map]
        rfl

theorem word_eq_ok {v w : Json} : ∀ {ws cs rest : List Char}, word v ws cs = .ok (w, rest) →
    cs = ws ++ rest
  | [], cs, rest, h => by cases h; rfl
  | _ :: _, [], rest, h => by cases h
  | x :: ws, c :: cs, rest, h => by
    rw [word] at h
    split_ifs at h with hc
    rw [hc, word_eq_ok h, List.cons_append]

theorem spells_of_scalar {cs r rest : List Char} {c : Char} {v : Json}
    (hcs : skipSpace cs = c :: r) (h : scalar (c :: r) = .ok (v, rest)) :
    ∃ t, Spells t cs rest := by
  rw [scalar] at h
  split_ifs at h with hn ht hf hm hd hq
  · exact ⟨.null, by rw [Spells, hcs, hn, word_eq_ok h]; rfl⟩
  · exact ⟨.bool true, by rw [Spells, hcs, ht, word_eq_ok h]; rfl⟩
  · exact ⟨.bool false, by rw [Spells, hcs, hf, word_eq_ok h]; rfl⟩
  · obtain ⟨m, hm', hr⟩ := number_eq_ok h
    exact ⟨.number ('-' :: m), .negative hm', by rw [hcs, hm, hr, List.cons_append]⟩
  · obtain ⟨m, hm', hr⟩ := number_eq_ok h
    exact ⟨.number m, .positive hm', by rw [hcs, hr]⟩
  · obtain ⟨s, hs, -⟩ := map_eq_ok h
    exact ⟨.str s, r, hq ▸ hcs, string_eq_ok_iff.mp hs⟩

/-- What is read as a value spells a tree. -/
theorem sound_value (depth : Nat) : Sound (value depth) := by
  induction depth using Nat.strongRecOn with
  | ind depth ih =>
    intro cs rest v h
    match hcs : skipSpace cs with
    | [] =>
      rw [value.eq_def] at h
      simp [hcs] at h
    | c :: r =>
      by_cases hlist : c = '['
      · subst hlist
        rw [value_array hcs] at h
        match depth, h with
        | depth + 1, h =>
          obtain ⟨vs, he, -⟩ := map_eq_ok h
          obtain ⟨ts, hts⟩ := spells_of_elements (ih depth (Nat.lt_succ_self depth)) he
          exact ⟨.arr ts, r, hcs, hts⟩
      · by_cases hobject : c = '\x7b'
        · subst hobject
          rw [value_object hcs] at h
          match depth, h with
          | depth + 1, h =>
            have hmember := soundMember_insertMember (ih depth (Nat.lt_succ_self depth))
            obtain ⟨_, he, -⟩ := map_eq_ok h
            obtain ⟨ms, hms⟩ := spells_of_members hmember he
            exact ⟨.obj ms, r, hcs, hms⟩
        · rw [value_scalar hcs hlist hobject] at h
          exact spells_of_scalar hcs h

/-! ### Whole texts -/

/-- The text is a spelling of the tree, spaces around it aside. -/
def SpellsAll (t : Tree) (cs : List Char) : Prop := ∃ rest, Spells t cs rest ∧ skipSpace rest = []

theorem SpellsAll.unique {t t' : Tree} {cs : List Char} (h : SpellsAll t cs)
    (h' : SpellsAll t' cs) : t = t' := by
  obtain ⟨rest, ht, hrest⟩ := h
  obtain ⟨rest', ht', hrest'⟩ := h'
  exact (t.alone ht (boundary_of_skipSpace_nil hrest) ht' (boundary_of_skipSpace_nil hrest')).1

/-- The whole of a text that spells a tree is read as what the tree means. -/
theorem readAll_toOption {α : Type} {reader : List Char → Read α} {meaning : Tree → Option α}
    (hreader : Reads reader meaning) {t : Tree} {text : String} (h : SpellsAll t text.toList) :
    (readAll reader text).toOption = meaning t := by
  obtain ⟨rest, ht, hrest⟩ := h
  have hread := hreader ht (boundary_of_skipSpace_nil hrest)
  unfold readAll
  cases hm : meaning t with
  | none =>
    rw [hm] at hread
    obtain ⟨e, he⟩ := toOption_eq_none.mp hread
    rw [he]
    rfl
  | some v =>
    rw [hm] at hread
    rw [toOption_eq_some.mp hread]
    simp only [bind, Except.bind, hrest]
    rfl

/-- What is read as a whole text spells a tree. -/
theorem spellsAll_of_readAll {α : Type} {reader : List Char → Read α} (hreader : Sound reader)
    {text : String} {v : α} (h : readAll reader text = .ok v) :
    ∃ t, SpellsAll t text.toList := by
  unfold readAll at h
  match hr : reader text.toList with
  | .error e => rw [hr] at h; cases h
  | .ok (w, rest) =>
    rw [hr] at h
    obtain ⟨t, ht⟩ := hreader hr
    refine ⟨t, rest, ht, ?_⟩
    match hrest : skipSpace rest with
    | [] => rfl
    | c :: r => simp [bind, Except.bind, hrest, Except.mapError] at h

end StubLoader.Json
