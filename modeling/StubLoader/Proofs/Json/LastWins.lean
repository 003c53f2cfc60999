import Mathlib.Data.List.Induction
import Mathlib.Data.List.Nodup
import StubLoader.Proofs.Json.Members
/-!
# The last of several equal keys

Where a key stands several times in an object, the last one counts. Inserting members one after the
other keeps just these.
-/

namespace StubLoader.Json

/-- The value of the last member with the key. -/
def last? {α : Type} (key : String) (ms : List (String × α)) : Option α := ms.reverse.lookup key

section Last

variable {α β : Type}

theorem lookup_cons_eq_ite (key k : String) (v : α) (ms : List (String × α)) :
    ((k, v) :: ms).lookup key = if key = k then some v else ms.lookup key := by
  rw [List.lookup_cons]
  by_cases h : key = k
  · simp [h]
  · rw [beq_eq_false_iff_ne.mpr h, if_neg h]

theorem last?_nil (key : String) : last? key ([] : List (String × α)) = none := rfl

theorem last?_concat (key : String) (ms : List (String × α)) (m : String × α) :
    last? key (ms ++ [m]) = if key = m.1 then some m.2 else last? key ms := by
  rw [last?, List.reverse_concat, lookup_cons_eq_ite]
  rfl

theorem last?_append (key : String) (ms ns : List (String × α)) :
    last? key (ms ++ ns) = (last? key ns).or (last? key ms) := by
  induction ns using List.reverseRecOn with
  | nil => rw [List.append_nil, last?_nil, Option.none_or]
  | append_singleton ns n ih =>
    rw [← List.append_assoc, last?_concat, last?_concat, ih]
    split_ifs
    · rfl
    · rfl

theorem last?_cons (key : String) (m : String × α) (ms : List (String × α)) :
    last? key (m :: ms) = (last? key ms).or (if key = m.1 then some m.2 else none) := by
  rw [← List.singleton_append, last?_append, ← List.nil_append [m], last?_concat, last?_nil]

theorem last?_map (key : String) (f : α → β) (ms : List (String × α)) :
    last? key (ms.map fun m => (m.1, f m.2)) = (last? key ms).map f := by
  induction ms using List.reverseRecOn with
  | nil => rfl
  | append_singleton ms m ih =>
    rw [List.map_append, List.map_singleton, last?_concat, last?_concat, ih]
    split_ifs
    · rfl
    · rfl

theorem mem_of_last? {key : String} {ms : List (String × α)} {v : α}
    (h : last? key ms = some v) : (key, v) ∈ ms := by
  obtain ⟨front, back, hms, -⟩ := List.lookup_eq_some_iff.mp h
  rw [← List.mem_reverse, hms]
  simp

/-- A key that some member has has a last value. -/
theorem exists_last? {m : String × α} {ms : List (String × α)} (h : m ∈ ms) :
    ∃ v, last? m.1 ms = some v := by
  induction ms using List.reverseRecOn with
  | nil => cases h
  | append_singleton ms n ih =>
    rw [last?_concat]
    split_ifs with hkey
    · exact ⟨_, rfl⟩
    · rcases List.mem_append.mp h with hmem | hmem
      · exact ih hmem
      · exact absurd (congrArg _ (List.mem_singleton.mp hmem)) hkey

/-- Where no key stands twice, every value is the last of its key. -/
theorem last?_of_nodup {m : String × α} {ms : List (String × α)} (hkeys : (ms.map (·.1)).Nodup)
    (h : m ∈ ms) : last? m.1 ms = some m.2 := by
  obtain ⟨v, hlast⟩ := exists_last? h
  have hsame := List.inj_on_of_nodup_map hkeys h (mem_of_last? hlast) rfl
  rw [hlast, hsame]

end Last

/-! ### Inserting members -/

theorem lookup_insert (key k : String) (v : Json) : ∀ ms : Members,
    (insert k v ms).lookup key = if key = k then some v else ms.lookup key
  | [] => lookup_cons_eq_ite key k v []
  | (l, w) :: ms => by
    rw [insert]
    by_cases hlt : k < l
    · rw [if_pos hlt, lookup_cons_eq_ite]
    rw [if_neg hlt]
    by_cases heq : k = l
    · subst heq
      rw [if_pos rfl, lookup_cons_eq_ite, lookup_cons_eq_ite]
      by_cases hkey : key = k
      · rw [if_pos hkey, if_pos hkey]
      · rw [if_neg hkey, if_neg hkey, if_neg hkey]
    · rw [if_neg heq, lookup_cons_eq_ite, lookup_cons_eq_ite, lookup_insert key k v ms]
      by_cases hkey : key = k
      · rw [if_neg fun h => heq (hkey.symm.trans h), if_pos hkey, if_pos hkey]
      · rw [if_neg hkey, if_neg hkey]

theorem lookup_foldl_insert (key : String) : ∀ (ms : List (String × Json)) (acc : Members),
    (ms.foldl (fun acc m => insert m.1 m.2 acc) acc).lookup key =
      (last? key ms).or (acc.lookup key)
  | [], _ => rfl
  | m :: ms, acc => by
    rw [List.foldl_cons, lookup_foldl_insert key ms, lookup_insert, last?_cons, Option.or_assoc]
    split_ifs
    · rfl
    · rfl

/-- The members listed one after the other hold the last value of each key. -/
theorem lookup_ofList (key : String) (ms : List (String × Json)) :
    (Members.ofList ms).lookup key = last? key ms := by
  rw [Members.ofList, lookup_foldl_insert]
  exact Option.or_none

end StubLoader.Json
