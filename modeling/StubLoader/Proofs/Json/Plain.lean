import StubLoader.Proofs.Json.Members
import StubLoader.Proofs.Json.Printing
import StubLoader.Proofs.Json.Reading
/-!
# Plain values

A value is plain if it holds no double and its integers fit into 64 bits. Plain values are what
texts without fractions, exponents and large numbers stand for, and a plain value is read back
from its own text, as deep as readers go.
-/

namespace StubLoader.Json

/-! ### Nesting and numbers of a text -/

/-- At most `depth` brackets are open at once. -/
def Tree.Nests : Nat → Tree → Prop
  | 0, .arr _ => False
  | depth + 1, .arr items => ∀ t ∈ items, Tree.Nests depth t
  | 0, .obj _ => False
  | depth + 1, .obj members => ∀ m ∈ members, Tree.Nests depth m.2
  | _, _ => True

instance Tree.decidableNests : ∀ (depth : Nat) (t : Tree), Decidable (t.Nests depth)
  | 0, .arr _ | 0, .obj _ => .isFalse id
  | depth + 1, .arr items =>
    have := Tree.decidableNests depth
    inferInstanceAs (Decidable (∀ t ∈ items, t.Nests depth))
  | depth + 1, .obj members =>
    have := Tree.decidableNests depth
    inferInstanceAs (Decidable (∀ m ∈ members, m.2.Nests depth))
  | 0, .null | 0, .bool _ | 0, .number _ | 0, .str _ => .isTrue trivial
  | _ + 1, .null | _ + 1, .bool _ | _ + 1, .number _ | _ + 1, .str _ => .isTrue trivial

/-- The literal is that of an integer which fits into 64 bits, with or without a sign. There is no
such integer for the literal `-0`. -/
def IsInteger (literal : List Char) : Prop :=
  ∃ n : Int, -2 ^ 63 ≤ n ∧ n < 2 ^ 64 ∧ literal = printInt n

/-- All numbers of a tree are integers that fit into 64 bits. -/
inductive Tree.IntegersOnly : Tree → Prop where
  | null : IntegersOnly .null
  | bool (b : Bool) : IntegersOnly (.bool b)
  | number {literal : List Char} (h : IsInteger literal) : IntegersOnly (.number literal)
  | str (s : String) : IntegersOnly (.str s)
  | arr {items : List Tree} (h : ∀ t ∈ items, IntegersOnly t) : IntegersOnly (.arr items)
  | obj {members : List (String × Tree)} (h : ∀ m ∈ members, IntegersOnly m.2) :
    IntegersOnly (.obj members)

/-- The value has no doubles, its integers fit into 64 bits, and its objects are in order. -/
inductive Plain : Json → Prop where
  | null : Plain .null
  | bool (b : Bool) : Plain (.bool b)
  | int {n : Int} (hlow : -2 ^ 63 ≤ n) (hhigh : n < 2 ^ 64) : Plain (.int n)
  | str (s : String) : Plain (.str s)
  | arr {items : List Json} (h : ∀ v ∈ items, Plain v) : Plain (.arr items)
  | obj {members : Members} (hkeys : Ascending members) (h : ∀ m ∈ members, Plain m.2) :
    Plain (.obj members)

/-! ### Reading back -/

theorem mapM_tree {depth : Nat} : ∀ {vs : List Json},
    (∀ v ∈ vs, v.tree.read? depth = some v) → (treeItems vs).mapM (Tree.read? depth) = some vs
  | [], _ => rfl
  | v :: vs, h => by
    rw [treeItems, List.mapM_cons, h v List.mem_cons_self,
      mapM_tree fun w hw => h w (List.mem_cons_of_mem v hw)]
    rfl

/-- Members in order are put behind those read before them. -/
theorem foldlM_tree {depth : Nat} : ∀ {ms acc : Members}, Ascending (acc ++ ms) →
    (∀ m ∈ ms, m.2.tree.read? depth = some m.2) →
      (treeMembers ms).foldlM (fun acc m => (Tree.read? depth m.2).map (insert m.1 · acc)) acc =
        some (acc ++ ms)
  | [], acc, _, _ => by rw [List.append_nil]; rfl
  | m :: ms, acc, hkeys, h => by
    have hinsert := insert_of_ascending hkeys
    rw [List.append_cons] at hkeys
    have hrest := foldlM_tree hkeys fun n hn => h n (List.mem_cons_of_mem m hn)
    rw [treeMembers, List.foldlM_cons, h m List.mem_cons_self]
    simp only [Option.map_some, Option.bind_eq_bind, Option.bind_some]
    rw [hinsert, hrest, List.append_assoc, List.singleton_append]

/-- A plain value is what its own tree stands for. -/
theorem Plain.read?_tree {v : Json} (hv : v.Plain) : ∀ {depth : Nat}, v.tree.Nests depth →
    v.tree.read? depth = some v := by
  induction hv with
  | null | bool _ | str _ => intro depth _; cases depth <;> rfl
  | int hlow hhigh =>
    intro depth _
    rw [← literal?_printInt hlow hhigh]
    cases depth <;> rfl
  | @arr items _ ih =>
    intro depth hnest
    cases depth with
    | zero => exact absurd hnest id
    | succ depth =>
      have hitems : ∀ v ∈ items, v.tree.read? depth = some v := by
        intro v hv
        refine ih v hv (hnest v.tree ?_)
        rw [treeItems_eq_map]
        exact List.mem_map_of_mem hv
      rw [tree, Tree.read?, mapM_tree hitems]
      rfl
  | @obj members hkeys _ ih =>
    intro depth hnest
    cases depth with
    | zero => exact absurd hnest id
    | succ depth =>
      have hmembers : ∀ m ∈ members, m.2.tree.read? depth = some m.2 := by
        intro m hm
        refine ih m hm (hnest (m.1, m.2.tree) ?_)
        rw [treeMembers_eq_map]
        exact List.mem_map_of_mem hm
      rw [tree, Tree.read?, @foldlM_tree depth members [] hkeys hmembers]
      rfl

/-! ### What is read -/

theorem exists_of_mem_mapM {α β : Type} {f : α → Option β} : ∀ {as : List α} {bs : List β},
    as.mapM f = some bs → ∀ b ∈ bs, ∃ a ∈ as, f a = some b
  | [], bs, h => by cases h; exact fun b hb => nomatch hb
  | a :: as, bs, h => by
    rw [List.mapM_cons] at h
    obtain ⟨b, hb, h⟩ := Option.bind_eq_some_iff.mp h
    obtain ⟨bs, hbs, h⟩ := Option.bind_eq_some_iff.mp h
    cases h
    intro c hc
    rcases List.mem_cons.mp hc with rfl | hc
    · exact ⟨a, List.mem_cons_self, hb⟩
    · obtain ⟨a', ha', hc⟩ := exists_of_mem_mapM hbs c hc
      exact ⟨a', List.mem_cons_of_mem a ha', hc⟩

/-- What every step of a fold keeps holds at its end. -/
theorem foldlM_invariant {α β : Type} {f : β → α → Option β} {P : β → Prop} :
    ∀ {as : List α} {b b' : β}, (∀ a ∈ as, ∀ b b', P b → f b a = some b' → P b') →
      P b → as.foldlM f b = some b' → P b'
  | [], b, b', _, hb, h => by cases h; exact hb
  | a :: as, b, b', hstep, hb, h => by
    rw [List.foldlM_cons] at h
    obtain ⟨c, hc, h⟩ := Option.bind_eq_some_iff.mp h
    exact foldlM_invariant (fun a' ha' => hstep a' (List.mem_cons_of_mem a ha'))
      (hstep a List.mem_cons_self b c hb hc) h

/-- The members are in order, and their values are plain and nest at most `depth` brackets. -/
structure PlainMembers (depth : Nat) (ms : Members) : Prop where
  ascending : Ascending ms
  plain : ∀ m ∈ ms, m.2.Plain
  nests : ∀ m ∈ ms, m.2.tree.Nests depth

theorem PlainMembers.nil (depth : Nat) : PlainMembers depth [] :=
  ⟨List.Pairwise.nil, fun _ h => (nomatch h), fun _ h => nomatch h⟩

theorem PlainMembers.insert {depth : Nat} {ms : Members} (h : PlainMembers depth ms) (key : String)
    {v : Json} (hplain : v.Plain) (hnests : v.tree.Nests depth) :
    PlainMembers depth (insert key v ms) := by
  refine ⟨ascending_insert key v h.ascending, fun m hm => ?_, fun m hm => ?_⟩
  · rcases mem_insert hm with rfl | hm
    · exact hplain
    · exact h.plain m hm
  · rcases mem_insert hm with rfl | hm
    · exact hnests
    · exact h.nests m hm

/-- A tree whose numbers are integers stands for a plain value. -/
theorem Tree.IntegersOnly.plain {t : Tree} (ht : t.IntegersOnly) : ∀ {depth : Nat} {v : Json},
    t.read? depth = some v → v.Plain ∧ v.tree.Nests depth := by
  induction ht with
  | null | bool _ | str _ =>
    intro depth v h
    cases depth with
    | zero | succ _ => cases h; exact ⟨by constructor, trivial⟩
  | number hl =>
    intro depth v h
    obtain ⟨n, hlow, hhigh, rfl⟩ := hl
    have hv : literal? (printInt n) = some v := by
      rw [← h]
      cases depth <;> rfl
    rw [literal?_printInt hlow hhigh] at hv
    cases hv
    refine ⟨.int hlow hhigh, ?_⟩
    cases depth <;> trivial
  | @arr items _ ih =>
    intro depth v h
    cases depth with
    | zero => cases h
    | succ depth =>
      obtain ⟨vs, hvs, rfl⟩ := Option.map_eq_some_iff.mp h
      have hitems : ∀ w ∈ vs, w.Plain ∧ w.tree.Nests depth := by
        intro w hw
        obtain ⟨t, ht, htw⟩ := exists_of_mem_mapM hvs w hw
        exact ih t ht htw
      refine ⟨.arr fun w hw => (hitems w hw).1, ?_⟩
      rw [tree, treeItems_eq_map]
      exact List.forall_mem_map.mpr fun w hw => (hitems w hw).2
  | @obj members _ ih =>
    intro depth v h
    cases depth with
    | zero => cases h
    | succ depth =>
      obtain ⟨ms, hms, rfl⟩ := Option.map_eq_some_iff.mp h
      have hplain : PlainMembers depth ms := by
        refine foldlM_invariant (fun m hm acc acc' hacc hstep => ?_) (.nil depth) hms
        obtain ⟨w, hw, rfl⟩ := Option.map_eq_some_iff.mp hstep
        obtain ⟨hp, hn⟩ := ih m hm hw
        exact hacc.insert m.1 hp hn
      refine ⟨.obj hplain.ascending hplain.plain, ?_⟩
      rw [tree, treeMembers_eq_map]
      exact List.forall_mem_map.mpr hplain.nests

end StubLoader.Json
