import Mathlib.Data.List.Forall2
import StubLoader.Proofs.Json.Reordering
import StubLoader.Proofs.Reference.Emitted
/-!
# One literal for all spellings of the options

Options are written in many ways: their members in any order, `kind` for `mode`, a mode by any of
its names, a string with escapes or without. All of these are the same options to a reader, or all
are refused; so the references made from them have the same literal.
-/

namespace StubLoader

open Json

/-! ### Names of modes -/

namespace Mode

/-- The tree names the mode, as a string or as the only key of an object with `null` under it. -/
inductive Named (mode : Mode) : Tree → Prop where
  | name {s : String} (h : (s, mode) ∈ spellings) : Named mode (.str s)
  | key {s : String} (h : (s, mode) ∈ spellings) : Named mode (.obj [(s, .null)])

theorem lookup_of_mem_spellings {m : String × Mode} :
    m ∈ spellings → spellings.lookup m.1 = some m.2 := by
  revert m
  decide

theorem Named.variant?_eq {mode : Mode} {t : Tree} (h : mode.Named t) (depth : Nat) :
    Tree.variant? spellings (depth + 1) t = some mode := by
  cases h with
  | name h => exact lookup_of_mem_spellings h
  | key h => exact lookup_of_mem_spellings h

end Mode

/-! ### Values whose members are reordered -/

namespace Json.Tree.Reordered

variable {t u : Tree}

theorem text?_eq (h : t.Reordered u) : t.text? = u.text? := by
  cases h <;> rfl

theorem isNull_eq (h : t.Reordered u) : t.isNull = u.isNull := by
  cases h <;> rfl

theorem onlyKey?_eq {ms ns ns' : List (String × Tree)} (h : List.Forall₂ ReorderedMember ms ns)
    (hp : ns.Perm ns') : onlyKey? ms = onlyKey? ns' := by
  cases h with
  | nil => rw [hp.nil_eq]
  | cons hm hms =>
    cases hms with
    | nil =>
      rw [← hp.singleton_eq]
      obtain ⟨key, hu⟩ := hm
      rw [onlyKey?, onlyKey?, hu.isNull_eq]
    | cons _ _ =>
      cases ns' with
      | nil => cases hp.length_eq
      | cons _ ns' =>
        cases ns' with
        | nil => cases hp.length_eq
        | cons _ _ => rfl

theorem variant?_eq {α : Type} (choices : List (String × α)) (depth : Nat) (h : t.Reordered u) :
    variant? choices depth t = variant? choices depth u := by
  cases h with
  | refl => rfl
  | arr => rfl
  | obj h hp => rw [variant?, variant?, onlyKey?_eq h hp]

end Json.Tree.Reordered

/-! ### Options -/

namespace Options

/-- The members say the same of options, in which `mode` may be called `kind` and go by any of its
names. -/
structure SaysSame (m n : String × Tree) : Prop where
  key : m.1 = n.1 ∨ isMode m = true ∧ isMode n = true
  value : m.2.Reordered n.2 ∨ isMode m = true ∧ ∃ mode : Mode, mode.Named m.2 ∧ mode.Named n.2

/-- The trees say the same of options. -/
inductive Respelled : Tree → Tree → Prop where
  | reordered {t u : Tree} (h : t.Reordered u) : Respelled t u
  | members {ms ns ns' : List (String × Tree)} (h : List.Forall₂ SaysSame ms ns)
      (hp : ns.Perm ns') : Respelled (.obj ms) (.obj ns')

section Members

variable {m n : String × Tree}

theorem ne_of_isMode (h : isMode m = true) : isBase m = false := by
  simp only [isMode, decide_eq_true_eq] at h
  rcases h with h | h <;> simp [isBase, h]

theorem SaysSame.isMode_eq (h : SaysSame m n) : isMode m = isMode n := by
  rcases h.key with hkey | ⟨hm, hn⟩
  · rw [isMode, isMode, hkey]
  · rw [hm, hn]

theorem SaysSame.isBase_eq (h : SaysSame m n) : isBase m = isBase n := by
  rcases h.key with hkey | ⟨hm, hn⟩
  · rw [isBase, isBase, hkey]
  · rw [ne_of_isMode hm, ne_of_isMode hn]

theorem SaysSame.isExtra_eq (h : SaysSame m n) : isExtra m = isExtra n := by
  rw [isExtra, isExtra, h.isBase_eq, h.isMode_eq]

/-- A member that is not the mode says the same by its key and its value. -/
theorem SaysSame.of_not_isMode (h : SaysSame m n) (hmode : isMode m = false) :
    m.1 = n.1 ∧ m.2.Reordered n.2 := by
  rcases h with ⟨hkey, hvalue⟩
  rw [hmode] at hkey hvalue
  simpa using And.intro hkey hvalue

theorem SaysSame.pathOf?_eq (h : SaysSame m n) (hbase : isBase m = true) :
    pathOf? m.2 = pathOf? n.2 := by
  have hmode : isMode m = false := by
    by_contra hmode
    rw [ne_of_isMode (by simpa using hmode)] at hbase
    cases hbase
  rw [pathOf?, pathOf?, (h.of_not_isMode hmode).2.text?_eq]

theorem SaysSame.variant?_eq (h : SaysSame m n) (depth : Nat) :
    Tree.variant? Mode.spellings (depth + 1) m.2 =
      Tree.variant? Mode.spellings (depth + 1) n.2 := by
  rcases h.value with hvalue | ⟨-, mode, hm, hn⟩
  · exact hvalue.variant?_eq _ _
  · rw [hm.variant?_eq, hn.variant?_eq]

end Members

section Parts

variable {ms ns ns' : List (String × Tree)}

theorem filter_saysSame {p : String × Tree → Bool} (hp : ∀ {m n}, SaysSame m n → p m = p n)
    (h : List.Forall₂ SaysSame ms ns) : List.Forall₂ SaysSame (ms.filter p) (ns.filter p) :=
  List.rel_filter (fun _ _ hmn => iff_of_eq (congrArg (· = true) (hp hmn))) h

/-- Which of two members comes first makes no difference where only one may be. -/
theorem takeOnce_perm {α : Type} {meaning : Tree → Option α} (hp : ms.Perm ns) (seen : Option α) :
    takeOnce meaning seen ms = takeOnce meaning seen ns := by
  refine foldlM_perm hp (fun m _ n _ seen => ?_) seen
  cases seen with
  | some v => rfl
  | none => cases meaning m.2 <;> cases meaning n.2 <;> rfl

theorem takeOnce_congr {α : Type} {meaning : Tree → Option α} (h : List.Forall₂ SaysSame ms ns)
    (hmeaning : ∀ m ∈ ms, ∀ n, SaysSame m n → meaning m.2 = meaning n.2) (seen : Option α) :
    takeOnce meaning seen ms = takeOnce meaning seen ns := by
  refine foldlM_congr h (fun m hm n hmn seen => ?_) seen
  rw [hmeaning m hm n hmn]

/-- Members none of which is the mode say the same if they are reordered. -/
theorem reordered_of_saysSame (h : List.Forall₂ SaysSame ms ns) :
    (∀ m ∈ ms, isMode m = false) → List.Forall₂ Tree.ReorderedMember ms ns := by
  induction h with
  | nil => exact fun _ => .nil
  | @cons m n _ _ hmn _ ih =>
    intro hmode
    obtain ⟨hm, hms⟩ := List.forall_mem_cons.mp hmode
    obtain ⟨hkey, hvalue⟩ := hmn.of_not_isMode hm
    exact .cons (show Tree.ReorderedMember (m.1, m.2) (n.1, n.2) from hkey ▸ .mk m.1 hvalue)
      (ih hms)

theorem takeExtra_eq_of_saysSame (depth : Nat) (h : List.Forall₂ SaysSame ms ns)
    (hp : ns.Perm ns') (hkeys : (ms.map Prod.fst).Nodup) (hvalues : ∀ m ∈ ms, m.2.Distinct) :
    takeExtra depth [] (ms.filter isExtra) = takeExtra depth [] (ns'.filter isExtra) := by
  have hreordered := reordered_of_saysSame (filter_saysSame (p := isExtra) (·.isExtra_eq) h) ?_
  · refine Tree.foldlM_read?_eq hreordered (hp.filter _) ?_ ?_ []
    · exact hkeys.sublist (List.filter_sublist.map _)
    · exact fun m hm u hu => hu.read?_eq (hvalues m (List.mem_of_mem_filter hm)) depth
  · intro m hm
    have hextra := List.of_mem_filter hm
    simp only [isExtra, Bool.and_eq_true, Bool.not_eq_true'] at hextra
    exact hextra.2

end Parts

theorem ofTree?_members {depth : Nat} {ms ns ns' : List (String × Tree)}
    (h : List.Forall₂ SaysSame ms ns) (hp : ns.Perm ns') (hdistinct : (Tree.obj ms).Distinct) :
    ofTree? (depth + 2) (.obj ms) = ofTree? (depth + 2) (.obj ns') := by
  obtain ⟨hkeys, hvalues⟩ : (ms.map Prod.fst).Nodup ∧ ∀ m ∈ ms, m.2.Distinct := by
    cases hdistinct with
    | obj hkeys hvalues => exact ⟨hkeys, hvalues⟩
  have hbase : takeOnce pathOf? none (ms.filter isBase) =
      takeOnce pathOf? none (ns'.filter isBase) := by
    refine (takeOnce_congr (filter_saysSame (·.isBase_eq) h) (fun m hm n hmn => ?_) _).trans
      (takeOnce_perm (hp.filter _) _)
    exact hmn.pathOf?_eq (List.of_mem_filter hm)
  have hmode : takeOnce (Tree.variant? Mode.spellings (depth + 1)) none (ms.filter isMode) =
      takeOnce (Tree.variant? Mode.spellings (depth + 1)) none (ns'.filter isMode) := by
    refine (takeOnce_congr (filter_saysSame (·.isMode_eq) h) (fun m _ n hmn => ?_) _).trans
      (takeOnce_perm (hp.filter _) _)
    exact hmn.variant?_eq depth
  have hextra := takeExtra_eq_of_saysSame (depth + 1) h hp hkeys hvalues
  rw [ofTree?, ofTree?, foldlM_take_eq, foldlM_take_eq, hbase, hmode, hextra]

theorem saysSame_of_reordered {ms ns : List (String × Tree)}
    (h : List.Forall₂ Tree.ReorderedMember ms ns) : List.Forall₂ SaysSame ms ns :=
  h.imp fun _ _ hmn => by
    obtain ⟨key, hvalue⟩ := hmn
    exact ⟨.inl rfl, .inl hvalue⟩

/-- Trees that say the same of options stand for the same options, or none of them for any. -/
theorem Respelled.ofTree?_eq {t u : Tree} (h : Respelled t u) (hdistinct : t.Distinct)
    (depth : Nat) : ofTree? (depth + 2) t = ofTree? (depth + 2) u := by
  cases h with
  | members h hp => exact ofTree?_members h hp hdistinct
  | reordered h =>
    cases h with
    | refl => rfl
    | arr => rfl
    | obj h hp => exact ofTree?_members (saysSame_of_reordered h) hp hdistinct

/-- The options in a text are those that its tree stands for. -/
theorem parse_toOption {text : String} {t : Tree} (h : SpellsAll t text.toList) :
    (parse text).toOption = ofTree? maxDepth t := by
  rw [← readAll_toOption (reads_read maxDepth) h, parse]
  cases readAll (read maxDepth) text <;> rfl

end Options

namespace Reference

/-- The literal of the codec's reference for a source and the options in a text. -/
def companionLiteral (entryPoint : String) (source : Path) (text : String) : Outcome String := do
  let options ← Options.parse text
  let request ← Request.make source options
  (companion entryPoint request).render

/-- Two texts say the same of options, and none of the first one's objects has a key twice. Either
none of the texts is read, or the same options are read from both; then every source has, from every
entry point, the same literal under the one as under the other, or fails to have one for the same
reason. -/
theorem companionLiteral_canonical {text text' : String} {t t' : Tree}
    (ht : SpellsAll t text.toList) (ht' : SpellsAll t' text'.toList) (hdistinct : t.Distinct)
    (h : Options.Respelled t t') :
    (∃ e e', Options.parse text = .error e ∧ Options.parse text' = .error e') ∨
      ∃ o, Options.parse text = .ok o ∧ Options.parse text' = .ok o ∧
        ∀ entryPoint source,
          companionLiteral entryPoint source text = companionLiteral entryPoint source text' := by
  have hsame : (Options.parse text).toOption = (Options.parse text').toOption := by
    rw [Options.parse_toOption ht, Options.parse_toOption ht']
    exact h.ofTree?_eq hdistinct 125
  cases hparse : Options.parse text with
  | error e =>
    rw [hparse] at hsame
    obtain ⟨e', he'⟩ := toOption_eq_none.mp hsame.symm
    exact .inl ⟨e, e', rfl, he'⟩
  | ok o =>
    rw [hparse] at hsame
    have hparse' := toOption_eq_some.mp hsame.symm
    refine .inr ⟨o, rfl, hparse', fun entryPoint source => ?_⟩
    rw [companionLiteral, companionLiteral, hparse, hparse']

/-- Options that hand an object through. -/
def nestedOptions : Options :=
  ⟨.ofString "/p", .message, [("x", .obj [("a", .bool true), ("b", .null)])]⟩

/-- These options from the last member to the first, also in the object, with another name for the
mode, one letter escaped and a space. -/
def turnedMembers : List (String × Tree) :=
  [("x", .obj [("b", .null), ("a", .bool true)]), ("kind", .str "proto"), ("basePath", .str "/p")]

def turnedText : List Char :=
  '\x7b' :: commaSeparated [
    printMember "x" ('\x7b' :: commaSeparated [
      printMember "b" Json.null.print, printMember "a" (Json.bool true).print] ++ ['\x7d']),
    printMember "kind" (' ' :: printString "proto"),
    printMember "basePath" ['"', '\\', 'u', '0', '0', '2', 'f', 'p', '"']] ++ ['\x7d']

theorem writes_turnedText : Writes turnedText (.obj turnedMembers) := by
  have hobject : List.Forall₂ WritesMember
      [printMember "b" Json.null.print, printMember "a" (Json.bool true).print]
      [("b", .null), ("a", .bool true)] :=
    .cons ⟨_, rfl, Json.writes_print .null⟩ (.cons ⟨_, rfl, Json.writes_print (.bool true)⟩ .nil)
  have hmode : Writes (' ' :: printString "proto") (.str "proto") := writes_printString "proto"
  have hletter {rest : List Char} :
      StringText ('\\' :: 'u' :: '0' :: '0' :: '2' :: 'f' :: 'p' :: '"' :: rest) ['/', 'p'] rest :=
    .unit (n := 0x2f) (by decide) (by decide) (by decide)
      (.plain (by decide) (by decide) (by decide) .close)
  have hbase : Writes ['"', '\\', 'u', '0', '0', '2', 'f', 'p', '"'] (.str "/p") :=
    fun rest => ⟨_, rfl, hletter⟩
  exact writes_obj (.cons ⟨_, rfl, writes_obj hobject⟩
    (.cons ⟨_, rfl, hmode⟩ (.cons ⟨_, rfl, hbase⟩ .nil)))

theorem distinct_nestedOptions : nestedOptions.tree.Distinct := by
  refine .obj (by decide) (List.forall_mem_cons.mpr ⟨.str _, List.forall_mem_cons.mpr ⟨.str _,
    List.forall_mem_singleton.mpr (.obj (by decide) ?_)⟩⟩)
  exact List.forall_mem_cons.mpr ⟨.bool true, List.forall_mem_singleton.mpr .null⟩

theorem respelled_nestedOptions : Options.Respelled nestedOptions.tree (.obj turnedMembers) := by
  refine .members (.cons ?_ (.cons ?_ (.cons ?_ .nil))) (List.reverse_perm turnedMembers)
  · exact ⟨.inl rfl, .inl (.refl _)⟩
  · exact ⟨.inr (by decide), .inr ⟨rfl, .message, .name (by decide), .name (by decide)⟩⟩
  · exact ⟨.inl rfl, .inl (.obj (.cons ⟨"a", .refl _⟩ (.cons ⟨"b", .refl _⟩ .nil))
      (List.Perm.swap _ _ _))⟩

theorem companionLiteral_canonical_sample : ∃ text, nestedOptions.render = .ok text ∧
    Options.parse (String.ofList turnedText) = .ok nestedOptions ∧
      ∀ entryPoint source, companionLiteral entryPoint source text =
        companionLiteral entryPoint source (String.ofList turnedText) := by
  obtain ⟨text, htext⟩ := Options.exists_print (o := nestedOptions) (Path.toString?_ofString "/p")
  have hparse := Options.parse_print htext (by decide +kernel)
  have hturned : SpellsAll (.obj turnedMembers) (String.ofList turnedText).toList :=
    ⟨[], by simpa using writes_turnedText [], rfl⟩
  rcases companionLiteral_canonical (Options.spellsAll_print htext) hturned distinct_nestedOptions
    respelled_nestedOptions with ⟨e, _, herror, -⟩ | ⟨o, ho, hturned, hliteral⟩
  · cases hparse.symm.trans herror
  · obtain rfl : nestedOptions = o := Except.ok.inj (hparse.symm.trans ho)
    exact ⟨_, Options.render_eq htext, hturned, hliteral⟩

end Reference

end StubLoader
