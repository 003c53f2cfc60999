import Mathlib.Data.List.Nodup
import Mathlib.Data.List.Perm.Basic
import StubLoader.Proofs.Json.Reading
import StubLoader.Proofs.Json.Members
/-!
# The order of members

Readers take the members of an object in the order of the text. Where no key stands twice in an
object, at any level, that order makes no difference to the value that is read: it is the same for
all trees that are `Reordered`.
-/

namespace StubLoader.Json

/-! ### Members in any order -/

/-- Members of different keys may be inserted in either order. -/
theorem insert_comm {k l : String} (h : k ≠ l) (v w : Json) : ∀ ms : Members,
    insert k v (insert l w ms) = insert l w (insert k v ms)
  | [] => by
    simp only [insert]
    split_ifs <;> first | rfl | grind
  | (key, u) :: ms => by
    have ih := insert_comm h v w ms
    simp only [insert]
    split_ifs <;> simp only [insert] <;> split_ifs <;> grind

section Folding

variable {α β : Type}

theorem foldlM_eq_foldl (f : β → α → Option β) : ∀ (as : List α) (b : β),
    as.foldlM f b = as.foldl (fun acc a => acc.bind (f · a)) (some b)
  | [], _ => rfl
  | a :: as, b => by
    rw [List.foldlM_cons, List.foldl_cons, Option.bind_some]
    cases f b a with
    | some c => exact foldlM_eq_foldl f as c
    | none =>
      induction as with
      | nil => rfl
      | cons a as ih => exact ih

/-- A list may be gone through in any order if any two of its items may be taken in either. -/
theorem foldlM_perm {f : β → α → Option β} {as as' : List α} (hp : as.Perm as')
    (hswap : ∀ a ∈ as, ∀ a' ∈ as, ∀ b, (f b a).bind (f · a') = (f b a').bind (f · a)) (b : β) :
    as.foldlM f b = as'.foldlM f b := by
  rw [foldlM_eq_foldl, foldlM_eq_foldl]
  refine hp.foldl_eq' (fun a ha a' ha' acc => ?_) (some b)
  cases acc with
  | none => rfl
  | some b => exact hswap a ha a' ha' b

theorem foldlM_congr {f : β → α → Option β} {R : α → α → Prop} {as as' : List α}
    (h : List.Forall₂ R as as') (hf : ∀ a ∈ as, ∀ a', R a a' → ∀ b, f b a = f b a') :
    ∀ b, as.foldlM f b = as'.foldlM f b := by
  induction h with
  | nil => exact fun _ => rfl
  | cons h _ ih =>
    obtain ⟨hhead, htail⟩ := List.forall_mem_cons.mp hf
    intro b
    rw [List.foldlM_cons, List.foldlM_cons, hhead _ h]
    exact congrArg _ (funext (ih htail))

theorem mapM_congr {f : α → Option β} {R : α → α → Prop} {as as' : List α}
    (h : List.Forall₂ R as as') (hf : ∀ a ∈ as, ∀ a', R a a' → f a = f a') :
    as.mapM f = as'.mapM f := by
  induction h with
  | nil => rfl
  | cons h _ ih =>
    obtain ⟨hhead, htail⟩ := List.forall_mem_cons.mp hf
    rw [List.mapM_cons, List.mapM_cons, hhead _ h, ih htail]

end Folding

/-! ### Trees -/

namespace Tree

/-- No key stands twice in an object, at any level. -/
inductive Distinct : Tree → Prop where
  | null : Distinct .null
  | bool (b : Bool) : Distinct (.bool b)
  | number (literal : List Char) : Distinct (.number literal)
  | str (s : String) : Distinct (.str s)
  | arr {items : List Tree} (h : ∀ t ∈ items, Distinct t) : Distinct (.arr items)
  | obj {members : List (String × Tree)} (hkeys : (members.map Prod.fst).Nodup)
      (h : ∀ m ∈ members, Distinct m.2) : Distinct (.obj members)

mutual

/-- The trees differ in the order of the members of objects, at any level. -/
inductive Reordered : Tree → Tree → Prop where
  | refl (t : Tree) : Reordered t t
  | arr {ts us : List Tree} (h : List.Forall₂ Reordered ts us) : Reordered (.arr ts) (.arr us)
  | obj {ms ns ns' : List (String × Tree)} (h : List.Forall₂ ReorderedMember ms ns)
      (hp : ns.Perm ns') : Reordered (.obj ms) (.obj ns')

/-- The members have the same key, and values that differ in the order of members. -/
inductive ReorderedMember : String × Tree → String × Tree → Prop where
  | mk (key : String) {t u : Tree} (h : Reordered t u) : ReorderedMember (key, t) (key, u)

end

theorem map_fst_of_reordered {ms ns : List (String × Tree)}
    (h : List.Forall₂ ReorderedMember ms ns) : ms.map Prod.fst = ns.map Prod.fst := by
  induction h with
  | nil => rfl
  | cons h _ ih =>
    obtain ⟨key, -⟩ := h
    rw [List.map_cons, List.map_cons, ih]

/-- Members of different keys are read in any order. -/
theorem foldlM_read?_perm {depth : Nat} {ms ns : List (String × Tree)} (hp : ms.Perm ns)
    (hkeys : (ms.map Prod.fst).Nodup) (acc : Members) :
    ms.foldlM (fun acc m => (Tree.read? depth m.2).map (insert m.1 · acc)) acc =
      ns.foldlM (fun acc m => (Tree.read? depth m.2).map (insert m.1 · acc)) acc := by
  refine foldlM_perm hp (fun m hm n hn acc => ?_) acc
  by_cases hkey : m.1 = n.1
  · rw [List.inj_on_of_nodup_map hkeys hm hn hkey]
  · cases Tree.read? depth m.2 with
    | none => cases Tree.read? depth n.2 <;> rfl
    | some v =>
      cases Tree.read? depth n.2 with
      | none => rfl
      | some w => exact congrArg some (insert_comm (Ne.symm hkey) w v acc)

/-- Members of different keys are read the same if they are reordered and each value is read the
same. -/
theorem foldlM_read?_eq {depth : Nat} {ms ns ns' : List (String × Tree)}
    (h : List.Forall₂ ReorderedMember ms ns) (hp : ns.Perm ns') (hkeys : (ms.map Prod.fst).Nodup)
    (hread : ∀ m ∈ ms, ∀ u, m.2.Reordered u → m.2.read? depth = u.read? depth) (acc : Members) :
    ms.foldlM (fun acc m => (Tree.read? depth m.2).map (insert m.1 · acc)) acc =
      ns'.foldlM (fun acc m => (Tree.read? depth m.2).map (insert m.1 · acc)) acc := by
  refine (foldlM_congr h ?_ acc).trans
    (foldlM_read?_perm hp (map_fst_of_reordered h ▸ hkeys) acc)
  rintro _ hm _ ⟨key, hu⟩ acc
  rw [hread _ hm _ hu]

/-- Where no key stands twice, the order of members makes no difference to what is read. -/
theorem Reordered.read?_eq {t : Tree} : ∀ {u : Tree}, t.Reordered u → t.Distinct →
    ∀ depth, t.read? depth = u.read? depth := by
  induction t using Tree.induct with
  | null | bool _ | number _ | str _ => intro u h _ depth; cases h; rfl
  | arr ts ih =>
    intro u h hdistinct depth
    cases h with
    | refl => rfl
    | arr h =>
      cases hdistinct with
      | arr hitems =>
        cases depth with
        | zero => rfl
        | succ depth =>
          refine congrArg (Option.map Json.arr) (mapM_congr h fun t ht u hu => ?_)
          exact ih t ht hu (hitems t ht) depth
  | obj ms ih =>
    intro u h hdistinct depth
    cases h with
    | refl => rfl
    | obj h hp =>
      cases hdistinct with
      | obj hkeys hvalues =>
        cases depth with
        | zero => rfl
        | succ depth =>
          refine congrArg (Option.map Json.obj) (foldlM_read?_eq h hp hkeys ?_ [])
          exact fun m hm u hu => ih m hm hu (hvalues m hm) depth

end Tree

end StubLoader.Json
