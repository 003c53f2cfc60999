import StubLoader.Proofs.Json.LastWins
import StubLoader.Proofs.Json.Plain
/-!
# What JSON texts mean

A JSON text spells a tree whose number literals have no zero too many in front. If its numbers are
integers that fit into 64 bits, it has a value, `Tree.value`: the last of several equal keys wins at
every level. A reader finds just that value, and finds it as long as the text does not nest deeper
than the reader goes.
-/

namespace StubLoader.Json

/-! ### Numbers -/

/-- The integer written by digits, with a sign in front or without. -/
def integerOf : List Char → Int
  | '-' :: ds => -(Nat.ofDigitChars 10 ds 0 : Nat)
  | ds => (Nat.ofDigitChars 10 ds 0 : Nat)

theorem integerOf_natDigits (n : Nat) : integerOf (natDigits n) = n := by
  match h : natDigits n with
  | [] => exact absurd h (isDigits_natDigits n).1
  | c :: ds =>
    have hc : c ≠ '-' := by
      rintro rfl
      exact absurd ((isDigits_natDigits n).2 '-' (h ▸ List.mem_cons_self)) (by decide)
    have hvalue : Nat.ofDigitChars 10 (c :: ds) 0 = n := by
      rw [← h, natDigits, Nat.ofDigitChars_ten_toDigits]
    rw [integerOf, hvalue]
    exact fun _ h => hc (List.cons.inj h).1

/-- The literal of an integer writes that integer. -/
theorem integerOf_printInt (n : Int) : integerOf (printInt n) = n := by
  unfold printInt
  split
  · rw [integerOf, natDigits, Nat.ofDigitChars_ten_toDigits]
    omega
  · rw [integerOf_natDigits]
    omega

/-- A zero stands in front of another digit. -/
def Padded (literal : List Char) : Prop :=
  ∃ d r, isDigit d = true ∧ (literal = '0' :: d :: r ∨ literal = '-' :: '0' :: d :: r)

/-- A literal with a zero too many in front stands for nothing. -/
theorem Padded.literal? {literal : List Char} (h : Padded literal) :
    Json.literal? literal = none := by
  obtain ⟨d, r, hd, hliteral⟩ := h
  have hnumber : ∀ neg, ∃ e, number neg ('0' :: d :: r) = .error e := by
    intro neg
    rw [number, if_neg (by decide), if_pos ⟨rfl, by simpa using hd⟩]
    exact ⟨_, rfl⟩
  rcases hliteral with rfl | rfl
  · obtain ⟨e, he⟩ := hnumber false
    rw [Json.literal?, scalar_digit (by decide), he]
  · obtain ⟨e, he⟩ := hnumber true
    rw [Json.literal?, scalar_minus, he]

/-- No number of the tree has a zero too many in front. -/
inductive Tree.Unpadded : Tree → Prop where
  | null : Unpadded .null
  | bool (b : Bool) : Unpadded (.bool b)
  | number {literal : List Char} (h : ¬Padded literal) : Unpadded (.number literal)
  | str (s : String) : Unpadded (.str s)
  | arr {items : List Tree} (h : ∀ t ∈ items, Unpadded t) : Unpadded (.arr items)
  | obj {members : List (String × Tree)} (h : ∀ m ∈ members, Unpadded m.2) :
    Unpadded (.obj members)

/-- The characters are a JSON text that says what the tree says. -/
def IsText (t : Tree) (cs : List Char) : Prop := SpellsAll t cs ∧ t.Unpadded

/-! ### Values -/

namespace Tree

mutual

/-- The value of a tree of integers, in which the last of several equal keys wins. -/
def value : Tree → Json
  | .null => .null
  | .bool b => .bool b
  | .number literal => .int (integerOf literal)
  | .str s => .str s
  | .arr items => .arr (valueItems items)
  | .obj members => .obj (Members.ofList (valueMembers members))

/-- The values of items. -/
def valueItems : List Tree → List Json
  | [] => []
  | t :: ts => value t :: valueItems ts

/-- The members with their values. -/
def valueMembers : List (String × Tree) → List (String × Json)
  | [] => []
  | (key, t) :: ms => (key, value t) :: valueMembers ms

end

/-- Reading a member puts it among those before it, whose keys it may repeat. -/
theorem foldlM_value {depth : Nat} : ∀ {ms : List (String × Tree)} (acc : Members),
    (∀ m ∈ ms, m.2.read? depth = some m.2.value) →
      ms.foldlM (fun acc m => (Tree.read? depth m.2).map (insert m.1 · acc)) acc =
        some ((valueMembers ms).foldl (fun acc m => insert m.1 m.2 acc) acc)
  | [], _, _ => rfl
  | m :: ms, acc, h => by
    rw [List.foldlM_cons, h m List.mem_cons_self, Option.map_some, Option.bind_eq_bind,
      Option.bind_some, foldlM_value _ fun n hn => h n (List.mem_cons_of_mem m hn)]
    rfl

theorem mapM_value {depth : Nat} : ∀ {ts : List Tree}, (∀ t ∈ ts, t.read? depth = some t.value) →
    ts.mapM (Tree.read? depth) = some (valueItems ts)
  | [], _ => rfl
  | t :: ts, h => by
    rw [List.mapM_cons, h t List.mem_cons_self,
      mapM_value fun u hu => h u (List.mem_cons_of_mem t hu)]
    rfl

/-- Where numbers are integers and nesting is in bounds, the value is read. -/
theorem IntegersOnly.read? {t : Tree} (ht : t.IntegersOnly) : ∀ {depth : Nat}, t.Nests depth →
    t.read? depth = some t.value := by
  induction ht with
  | null | bool _ | str _ => intro depth _; cases depth <;> rfl
  | number h =>
    intro depth _
    obtain ⟨n, hlow, hhigh, rfl⟩ := h
    have hread : literal? (printInt n) = some (Tree.number (printInt n)).value := by
      rw [value, integerOf_printInt, literal?_printInt hlow hhigh]
    cases depth <;> exact hread
  | arr _ ih =>
    intro depth hnests
    cases depth with
    | zero => exact absurd hnests id
    | succ depth =>
      rw [Tree.read?, mapM_value fun t ht => ih t ht (hnests t ht)]
      rfl
  | obj _ ih =>
    intro depth hnests
    cases depth with
    | zero => exact absurd hnests id
    | succ depth =>
      rw [Tree.read?, foldlM_value [] fun m hm => ih m hm (hnests m hm)]
      rfl

/-! ### What cannot be read -/

theorem forall_of_mapM {α β : Type} {f : α → Option β} : ∀ {as : List α} {bs : List β},
    as.mapM f = some bs → ∀ a ∈ as, ∃ b, f a = some b
  | [], _, _ => fun _ h => nomatch h
  | a :: as, _, h => by
    rw [List.mapM_cons] at h
    obtain ⟨b, hb, h⟩ := Option.bind_eq_some_iff.mp h
    obtain ⟨bs, hbs, -⟩ := Option.bind_eq_some_iff.mp h
    exact List.forall_mem_cons.mpr ⟨⟨b, hb⟩, forall_of_mapM hbs⟩

theorem forall_of_foldlM {α β : Type} {f : β → α → Option β} : ∀ {as : List α} {b c : β},
    as.foldlM f b = some c → ∀ a ∈ as, ∃ b c, f b a = some c
  | [], _, _, _ => fun _ h => nomatch h
  | a :: as, b, _, h => by
    rw [List.foldlM_cons] at h
    obtain ⟨c, hc, h⟩ := Option.bind_eq_some_iff.mp h
    exact List.forall_mem_cons.mpr ⟨⟨b, c, hc⟩, forall_of_foldlM h⟩

/-- What is read nests no deeper than the reader goes, and has no zeros too many. -/
theorem unpadded_of_read? (t : Tree) : ∀ {depth : Nat} {v : Json}, t.read? depth = some v →
    t.Unpadded ∧ t.Nests depth := by
  induction t using Tree.induct with
  | null | bool _ | str _ => intro depth v _; cases depth <;> exact ⟨by constructor, trivial⟩
  | number literal =>
    intro depth v h
    have hread : literal? literal = some v := by
      rw [← h]
      cases depth <;> rfl
    refine ⟨.number fun hpadded => ?_, ?_⟩
    · rw [hpadded.literal?] at hread
      cases hread
    · cases depth <;> trivial
  | arr ts ih =>
    intro depth v h
    cases depth with
    | zero => cases h
    | succ depth =>
      obtain ⟨vs, hvs, -⟩ := Option.map_eq_some_iff.mp h
      have hitems : ∀ t ∈ ts, t.Unpadded ∧ t.Nests depth := by
        intro t ht
        obtain ⟨v, hv⟩ := forall_of_mapM hvs t ht
        exact ih t ht hv
      exact ⟨.arr fun t ht => (hitems t ht).1, fun t ht => (hitems t ht).2⟩
  | obj ms ih =>
    intro depth v h
    cases depth with
    | zero => cases h
    | succ depth =>
      obtain ⟨ns, hns, -⟩ := Option.map_eq_some_iff.mp h
      have hmembers : ∀ m ∈ ms, m.2.Unpadded ∧ m.2.Nests depth := by
        intro m hm
        obtain ⟨acc, acc', hstep⟩ := forall_of_foldlM hns m hm
        obtain ⟨v, hv, -⟩ := Option.map_eq_some_iff.mp hstep
        exact ih m hm hv
      exact ⟨.obj fun m hm => (hmembers m hm).1, fun m hm => (hmembers m hm).2⟩

end Tree

end StubLoader.Json
