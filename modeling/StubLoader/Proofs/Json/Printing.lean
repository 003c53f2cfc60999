import Mathlib.Data.List.Forall2
import StubLoader.Json.Printer
import StubLoader.Proofs.Json.Literal
import StubLoader.Proofs.Json.Spelling
import StubLoader.Proofs.Json.StringText
/-!
# Writing and the grammar

The text written for a value spells a tree, `Json.tree`, whatever it is followed by. So does any
array or object put together from such texts. No text that is written holds a control character.
-/

namespace StubLoader.Json

/-- What holds of a value if it holds of every value of whose items or members it holds. -/
theorem induct {P : Json → Prop} (null : P .null) (bool : ∀ b, P (.bool b))
    (int : ∀ n, P (.int n)) (float : ∀ x, P (.float x)) (str : ∀ s, P (.str s))
    (arr : ∀ vs, (∀ v ∈ vs, P v) → P (.arr vs))
    (obj : ∀ ms, (∀ m ∈ ms, P (Prod.snd m)) → P (.obj ms)) (v : Json) : P v :=
  @Json.rec P (fun vs => ∀ v ∈ vs, P v) (fun ms => ∀ m ∈ ms, P (Prod.snd m)) (fun m => P m.2)
    null bool int float str arr obj
    (fun _ h => nomatch h)
    (fun _ _ hv hvs => fun _ h => (List.mem_cons.mp h).elim (fun e => e ▸ hv) (hvs _))
    (fun _ h => nomatch h)
    (fun _ _ hm hms => fun _ h => (List.mem_cons.mp h).elim (fun e => e ▸ hm) (hms _))
    (fun _ _ h => h) v

mutual

/-- What the text of a value says. -/
def tree : Json → Tree
  | .null => .null
  | .bool b => .bool b
  | .int n => .number (printInt n)
  | .float x => .number (printFloat x)
  | .str s => .str s
  | .arr items => .arr (treeItems items)
  | .obj members => .obj (treeMembers members)

/-- What the texts of the items of an array say. -/
def treeItems : List Json → List Tree
  | [] => []
  | v :: vs => tree v :: treeItems vs

/-- What the texts of the members of an object say. -/
def treeMembers : List (String × Json) → List (String × Tree)
  | [] => []
  | (k, v) :: ms => (k, tree v) :: treeMembers ms

end

theorem treeItems_eq_map (vs : List Json) : treeItems vs = vs.map tree := by
  induction vs with
  | nil => rfl
  | cons v vs ih => rw [treeItems, ih, List.map_cons]

theorem treeMembers_eq_map : ∀ ms : Members, treeMembers ms = ms.map fun m => (m.1, m.2.tree)
  | [] => rfl
  | m :: ms => by rw [treeMembers, treeMembers_eq_map ms, List.map_cons]

theorem printItems_eq_map (vs : List Json) : printItems vs = vs.map print := by
  induction vs with
  | nil => rfl
  | cons v vs ih => rw [printItems, ih, List.map_cons]

theorem printMembers_eq_map :
    ∀ ms : Members, printMembers ms = ms.map fun m => printMember m.1 m.2.print
  | [] => rfl
  | m :: ms => by rw [printMembers, printMembers_eq_map ms, List.map_cons]

/-! ### Texts that spell trees -/

/-- The text spells the tree, whatever it is followed by. -/
def Writes (text : List Char) (t : Tree) : Prop := ∀ rest, Spells t (text ++ rest) rest

/-- The text spells a member of an object. -/
def WritesMember (text : List Char) (m : String × Tree) : Prop :=
  ∃ value, text = printMember m.1 value ∧ Writes value m.2

theorem commaSeparated_cons (p : List Char) :
    ∀ ps : List (List Char), commaSeparated (p :: ps) = p ++ ps.flatMap fun q => ',' :: q
  | [] => by simp [commaSeparated]
  | q :: qs => by
    rw [commaSeparated, commaSeparated_cons q qs, List.flatMap_cons, List.cons_append]
    simp

theorem writes_printString (s : String) : Writes (printString s) (.str s) := by
  intro rest
  obtain ⟨r, hr, hs⟩ := stringText_printString s rest
  exact ⟨r, by rw [hr, skipSpace_cons rfl], hs⟩

theorem writes_number {l : List Char} (h : IsNumeral l) : Writes l (.number l) := by
  intro rest
  refine ⟨h, ?_⟩
  obtain ⟨c, r, rfl, hc⟩ := h.exists_cons
  refine skipSpace_cons ?_
  rcases hc with rfl | hc
  · rfl
  · cases hs : isSpace c with
    | false => rfl
    | true => rw [← isNumberChar_of_isSpace hs, isNumberChar_of_isDigit hc]

theorem spellsMoreItems_of_writes {texts : List (List Char)} {ts : List Tree}
    (h : List.Forall₂ Writes texts ts) (rest : List Char) :
    SpellsMoreItems ts ((texts.flatMap fun q => ',' :: q) ++ ']' :: rest) rest := by
  induction h with
  | nil => exact skipSpace_cons rfl
  | cons ht _ ih =>
    rw [List.flatMap_cons, List.append_assoc, List.cons_append]
    exact ⟨_, _, skipSpace_cons rfl, ht _, ih⟩

/-- An array of texts that spell trees spells the array of the trees. -/
theorem writes_arr {texts : List (List Char)} {ts : List Tree} (h : List.Forall₂ Writes texts ts) :
    Writes ('[' :: commaSeparated texts ++ [']']) (.arr ts) := by
  intro rest
  refine ⟨commaSeparated texts ++ ']' :: rest, ?_, ?_⟩
  · rw [List.cons_append, List.cons_append, List.append_assoc]
    exact skipSpace_cons rfl
  · cases h with
    | nil => exact skipSpace_cons rfl
    | cons ht hts =>
      rw [commaSeparated_cons, List.append_assoc]
      exact ⟨_, ht _, spellsMoreItems_of_writes hts rest⟩

theorem spellsKey_printMember (key : String) (value rest : List Char) :
    SpellsKey key (printMember key value ++ rest) (value ++ rest) := by
  obtain ⟨r, hr, hs⟩ := stringText_printString key (':' :: (value ++ rest))
  refine ⟨r, ':' :: (value ++ rest), ?_, hs, skipSpace_cons rfl⟩
  rw [printMember, List.append_assoc, List.cons_append, hr]
  exact skipSpace_cons rfl

theorem spellsMoreMembers_of_writes {texts : List (List Char)} {ms : List (String × Tree)}
    (h : List.Forall₂ WritesMember texts ms) (rest : List Char) :
    SpellsMoreMembers ms ((texts.flatMap fun q => ',' :: q) ++ '\x7d' :: rest) rest := by
  induction h with
  | nil => exact skipSpace_cons rfl
  | cons hm _ ih =>
    obtain ⟨value, rfl, hv⟩ := hm
    rw [List.flatMap_cons, List.append_assoc, List.cons_append]
    exact ⟨_, _, _, skipSpace_cons rfl, spellsKey_printMember _ value _, hv _, ih⟩

/-- An object of texts that spell members spells the object of the members. -/
theorem writes_obj {texts : List (List Char)} {ms : List (String × Tree)}
    (h : List.Forall₂ WritesMember texts ms) :
    Writes ('\x7b' :: commaSeparated texts ++ ['\x7d']) (.obj ms) := by
  intro rest
  refine ⟨commaSeparated texts ++ '\x7d' :: rest, ?_, ?_⟩
  · rw [List.cons_append, List.cons_append, List.append_assoc]
    exact skipSpace_cons rfl
  · cases h with
    | nil => exact skipSpace_cons rfl
    | cons hm hms =>
      obtain ⟨value, rfl, hv⟩ := hm
      rw [commaSeparated_cons, List.append_assoc]
      exact ⟨_, _, spellsKey_printMember _ value _, hv _, spellsMoreMembers_of_writes hms rest⟩

theorem writes_printItems {vs : List Json} (h : ∀ v ∈ vs, Writes v.print v.tree) :
    List.Forall₂ Writes (printItems vs) (treeItems vs) := by
  induction vs with
  | nil => exact .nil
  | cons v vs ih =>
    exact .cons (h v List.mem_cons_self) (ih fun w hw => h w (List.mem_cons_of_mem v hw))

theorem writes_printMembers {ms : Members} (h : ∀ m ∈ ms, Writes (Prod.snd m).print m.2.tree) :
    List.Forall₂ WritesMember (printMembers ms) (treeMembers ms) := by
  induction ms with
  | nil => exact .nil
  | cons m ms ih =>
    exact .cons ⟨m.2.print, rfl, h m List.mem_cons_self⟩
      (ih fun n hn => h n (List.mem_cons_of_mem m hn))

/-- The text of a value spells its tree. -/
theorem writes_print (v : Json) : Writes v.print v.tree := by
  induction v using induct with
  | null => exact fun rest => skipSpace_cons rfl
  | bool b =>
    cases b with
    | true | false => exact fun rest => skipSpace_cons rfl
  | int n => exact writes_number (isNumeral_printInt n)
  | float x => exact writes_number (isNumeral_printFloat x)
  | str s => exact writes_printString s
  | arr vs ih => exact writes_arr (writes_printItems ih)
  | obj ms ih => exact writes_obj (writes_printMembers ih)

/-! ### Control characters -/

/-- The text has no control character. -/
def NoControls (cs : List Char) : Prop := ∀ c ∈ cs, 0x20 ≤ c.toNat

instance (cs : List Char) : Decidable (NoControls cs) :=
  List.decidableBAll (fun c : Char => 0x20 ≤ c.toNat) cs

theorem noControls_append {cs ds : List Char} :
    NoControls (cs ++ ds) ↔ NoControls cs ∧ NoControls ds := by
  simp only [NoControls, List.mem_append, or_imp, forall_and]

theorem noControls_cons {c : Char} {cs : List Char} :
    NoControls (c :: cs) ↔ 0x20 ≤ c.toNat ∧ NoControls cs := by
  simp only [NoControls, List.mem_cons, or_imp, forall_and, forall_eq]

theorem noControls_nil : NoControls [] := fun _ h => nomatch h

theorem noControls_hexDigit {n : Nat} (h : n < 16) : 0x20 ≤ (Text.hexDigit 'a' n).toNat := by
  revert n
  decide

theorem noControls_escape (c : Char) : NoControls (escape c) := by
  unfold escape
  split_ifs
  all_goals try decide
  · simp only [noControls_cons]
    exact ⟨by decide, by decide, by decide, by decide, noControls_hexDigit (by omega),
      noControls_hexDigit (by omega), noControls_nil⟩
  · exact noControls_cons.mpr ⟨by omega, noControls_nil⟩

theorem noControls_printString (s : String) : NoControls (printString s) := by
  unfold printString
  rw [noControls_append, noControls_cons]
  refine ⟨⟨by decide, fun c hc => ?_⟩, by decide⟩
  obtain ⟨d, -, hd⟩ := List.mem_flatMap.mp hc
  exact noControls_escape d c hd

theorem noControls_commaSeparated : ∀ {ps : List (List Char)}, (∀ p ∈ ps, NoControls p) →
    NoControls (commaSeparated ps)
  | [], _ => noControls_nil
  | p :: ps, h => by
    rw [commaSeparated_cons, noControls_append]
    refine ⟨h p List.mem_cons_self, fun c hc => ?_⟩
    obtain ⟨q, hq, hc⟩ := List.mem_flatMap.mp hc
    exact noControls_cons.mpr ⟨by decide, h q (List.mem_cons_of_mem p hq)⟩ c hc

theorem noControls_printMember (key : String) {value : List Char} (h : NoControls value) :
    NoControls (printMember key value) :=
  noControls_append.mpr ⟨noControls_printString key, noControls_cons.mpr ⟨by decide, h⟩⟩

theorem noControls_of_isDigit {c : Char} (h : isDigit c = true) : 0x20 ≤ c.toNat := by
  simp only [isDigit, Char.le_def, decide_eq_true_eq, UInt32.le_iff_toNat_le] at h
  have hlow : '0'.val.toNat = 48 := rfl
  have : c.toNat = c.val.toNat := rfl
  omega

theorem IsDigits.noControls {ds : List Char} (h : IsDigits ds) : NoControls ds :=
  fun c hc => noControls_of_isDigit (h.2 c hc)

theorem IsMagnitude.noControls {m : List Char} (h : IsMagnitude m) : NoControls m := by
  obtain ⟨hw, hf, he⟩ := h
  rw [noControls_append, noControls_append]
  refine ⟨hw.noControls, ?_, ?_⟩
  · cases hf with
    | absent => exact noControls_nil
    | present hds => exact noControls_cons.mpr ⟨by decide, hds.noControls⟩
  · cases he with
    | absent => exact noControls_nil
    | present he hs hds =>
      refine noControls_cons.mpr ⟨?_, noControls_append.mpr ⟨?_, hds.noControls⟩⟩
      · rcases he with rfl | rfl <;> decide
      · rcases hs with rfl | rfl | rfl <;> decide

theorem IsNumeral.noControls {l : List Char} (h : IsNumeral l) : NoControls l := by
  cases h with
  | positive h => exact h.noControls
  | negative h => exact noControls_cons.mpr ⟨by decide, h.noControls⟩

theorem noControls_brackets {left right : Char} {ps : List (List Char)} (hl : 0x20 ≤ left.toNat)
    (hr : 0x20 ≤ right.toNat) (h : ∀ p ∈ ps, NoControls p) :
    NoControls (left :: commaSeparated ps ++ [right]) :=
  noControls_append.mpr ⟨noControls_cons.mpr ⟨hl, noControls_commaSeparated h⟩,
    noControls_cons.mpr ⟨hr, noControls_nil⟩⟩

theorem noControls_printItems {vs : List Json} (h : ∀ v ∈ vs, NoControls v.print) :
    ∀ p ∈ printItems vs, NoControls p := by
  rw [printItems_eq_map]
  exact List.forall_mem_map.mpr h

theorem noControls_printMembers {ms : Members} (h : ∀ m ∈ ms, NoControls (Prod.snd m).print) :
    ∀ p ∈ printMembers ms, NoControls p := by
  rw [printMembers_eq_map]
  exact List.forall_mem_map.mpr fun m hm => noControls_printMember m.1 (h m hm)

/-- The text of a value has no control character. -/
theorem noControls_print (v : Json) : NoControls v.print := by
  induction v using induct with
  | null => decide
  | bool b => cases b <;> decide
  | int n => exact (isNumeral_printInt n).noControls
  | float x => exact (isNumeral_printFloat x).noControls
  | str s => exact noControls_printString s
  | arr vs ih => exact noControls_brackets (by decide) (by decide) (noControls_printItems ih)
  | obj ms ih => exact noControls_brackets (by decide) (by decide) (noControls_printMembers ih)

end StubLoader.Json
