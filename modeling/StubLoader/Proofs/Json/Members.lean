import Mathlib.Tactic.SplitIfs
import StubLoader.Json.Basic
/-!
# Members of objects

Objects list their members by ascending key. Inserting a member keeps it so, and members that are
inserted in ascending order are listed as they came.
-/

namespace StubLoader.Json

/-- Every key is smaller than those after it. -/
def Ascending (ms : Members) : Prop := ms.Pairwise fun a b => a.1 < b.1

theorem lt_of_not_lt_of_ne {a b : String} (h : ¬a < b) (hne : a ≠ b) : b < a :=
  Std.lt_of_le_of_ne (String.not_lt.mp h) (Ne.symm hne)

theorem mem_insert {key : String} {v : Json} {m : String × Json} :
    ∀ {ms : Members}, m ∈ insert key v ms → m = (key, v) ∨ m ∈ ms
  | [], h => .inl (List.mem_singleton.mp h)
  | (k, w) :: ms, h => by
    rw [insert] at h
    split_ifs at h
    · exact List.mem_cons.mp h
    · rcases List.mem_cons.mp h with h | h
      · exact .inl h
      · exact .inr (List.mem_cons_of_mem _ h)
    · rcases List.mem_cons.mp h with h | h
      · exact .inr (h ▸ List.mem_cons_self)
      · rcases mem_insert h with h | h
        · exact .inl h
        · exact .inr (List.mem_cons_of_mem _ h)

theorem ascending_insert (key : String) (v : Json) :
    ∀ {ms : Members}, Ascending ms → Ascending (insert key v ms)
  | [], _ => List.pairwise_singleton _ _
  | (k, w) :: ms, h => by
    obtain ⟨hk, hms⟩ := List.pairwise_cons.mp h
    rw [insert]
    split_ifs with hlt heq
    · refine List.pairwise_cons.mpr ⟨fun m hm => ?_, h⟩
      rcases List.mem_cons.mp hm with rfl | hm
      · exact hlt
      · exact String.lt_trans hlt (hk m hm)
    · exact List.pairwise_cons.mpr ⟨heq ▸ hk, hms⟩
    · refine List.pairwise_cons.mpr ⟨fun m hm => ?_, ascending_insert key v hms⟩
      rcases mem_insert hm with rfl | hm
      · exact lt_of_not_lt_of_ne hlt heq
      · exact hk m hm

/-- A member with the greatest key goes to the end. -/
theorem insert_of_greatest {key : String} (v : Json) :
    ∀ {ms : Members}, (∀ m ∈ ms, m.1 < key) → insert key v ms = ms ++ [(key, v)]
  | [], _ => rfl
  | (k, w) :: ms, h => by
    have hk : k < key := h (k, w) List.mem_cons_self
    have hne : key ≠ k := fun e => String.lt_irrefl k (e ▸ hk)
    rw [insert, if_neg (String.lt_asymm hk), if_neg hne,
      insert_of_greatest v fun m hm => h m (List.mem_cons_of_mem _ hm), List.cons_append]

theorem insert_of_ascending {ms more : Members} {m : String × Json}
    (h : Ascending (ms ++ m :: more)) : insert m.1 m.2 ms = ms ++ [m] := by
  refine insert_of_greatest m.2 fun n hn => ?_
  exact (List.pairwise_append.mp h).2.2 n hn m List.mem_cons_self

end StubLoader.Json
