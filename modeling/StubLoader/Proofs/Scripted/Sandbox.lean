import StubLoader.Proofs.Batch.Sandbox
import StubLoader.Scripted.Host
/-!
# Scripted sandboxes

A scripted host is sandboxed if its script is plain: its processes end at once in silence, its
removals succeed, and what its compiler generates is named from the output directory on. It numbers
its directories, so each is a new one; and what it knows of its files is told by their steps alone,
so every directory holds the same once the compiler has written to it.
-/

namespace StubLoader

namespace Scripted

/-! ### Numbered names -/

section Names

theorem le_of_mem_number (n : Nat) {b : UInt8} (hb : b ∈ Utf8.ofString (toString n)) :
    0x30 ≤ b.toNat := by
  obtain ⟨c, hc, hb⟩ := List.mem_flatMap.mp hb
  have hdigit : c.isDigit = true :=
    Nat.isDigit_of_mem_toDigits (by decide) (by decide) (Nat.toList_repr ▸ hc)
  have hlow : 0x30 ≤ c.toNat ∧ c.toNat < 0x80 := by
    simp only [Char.isDigit, Bool.and_eq_true, decide_eq_true_eq, ge_iff_le,
      UInt32.le_iff_toNat_le] at hdigit
    change 48 ≤ c.toNat ∧ c.toNat ≤ 57 at hdigit
    omega
  rw [Utf8.encodeChar, if_pos hlow.2] at hb
  rw [List.mem_singleton.mp hb, Utf8.toNat_ofNat (by omega)]
  exact hlow.1

theorem number_injective {m n : Nat}
    (h : Utf8.ofString (toString m) = Utf8.ofString (toString n)) : m = n := by
  have hdigits : Nat.toDigits 10 m = Nat.toDigits 10 n := by
    refine Except.ok.inj ((Utf8.decode_encode _).symm.trans ?_)
    rw [← Nat.toList_repr, ← Nat.toList_repr]
    exact (congrArg Utf8.decode h).trans (Utf8.decode_encode _)
  calc
    m = Nat.ofDigitChars 10 (Nat.toDigits 10 m) 0 :=
      (Nat.ofDigitChars_toDigits (by decide) (by decide)).symm
    _ = Nat.ofDigitChars 10 (Nat.toDigits 10 n) 0 := by rw [hdigits]
    _ = n := Nat.ofDigitChars_toDigits (by decide) (by decide)

theorem number_ne_nil (n : Nat) : Utf8.ofString (toString n) ≠ [] := by
  intro h
  have hnil : (toString n).toList = [] :=
    Except.ok.inj ((Utf8.decode_encode _).symm.trans (congrArg Utf8.decode h))
  exact Nat.repr_ne_empty (String.toList_eq_nil_iff.mp hnil)

/-- A label and a number are a name. -/
theorem wellFormed_numbered {label : String} (h : Path.slash ∉ Utf8.ofString label) (n : Nat) :
    (Path.Component.name (Utf8.ofString (label ++ toString n))).WellFormed := by
  rw [Utf8.ofString_append]
  obtain ⟨b, hb⟩ := List.exists_mem_of_ne_nil _ (number_ne_nil n)
  have hdigit := le_of_mem_number n hb
  have hmem : b ∈ Utf8.ofString label ++ Utf8.ofString (toString n) :=
    List.mem_append_right _ hb
  refine ⟨?_, ?_, ?_, fun hslash => ?_⟩
  · exact List.ne_nil_of_mem hmem
  · intro heq
    rw [heq] at hmem
    simp only [List.mem_cons, List.not_mem_nil, or_false] at hmem
    rw [hmem] at hdigit
    exact absurd hdigit (by decide)
  · intro heq
    rw [heq] at hmem
    simp only [List.mem_cons, List.not_mem_nil, or_false, or_self] at hmem
    rw [hmem] at hdigit
    exact absurd hdigit (by decide)
  · rcases List.mem_append.mp hslash with hslash | hslash
    · exact h hslash
    · exact absurd (le_of_mem_number n hslash) (by decide)

end Names

/-! ### Tables by steps -/

section Tables

variable {α : Type}

/-- The entry that the steps lead to. -/
def found (table : List (Path × α)) (q : Route) : Option α :=
  (table.find? fun entry => entry.1.components == q).map (·.2)

theorem found_components (table : List (Path × α)) (path : Path) :
    found table path.components = lookup path table := rfl

theorem found_cons (entry : Path × α) (table : List (Path × α)) (q : Route) :
    found (entry :: table) q =
      if entry.1.components = q then some entry.2 else found table q := by
  unfold found
  rw [List.find?_cons]
  split
  · next h => rw [if_pos (beq_iff_eq.mp h)]; rfl
  · next h => rw [if_neg (beq_eq_false_iff_ne.mp h)]

theorem found_insert (path : Path) (value : α) (table : List (Path × α)) (q : Route) :
    found (insert path value table) q =
      if path.components = q then some value else found table q := by
  induction table with
  | nil => rw [insert, found_cons]
  | cons entry table ih =>
    rw [insert]
    split
    · next h =>
      have hsame : entry.1.components = path.components := beq_iff_eq.mp h
      rw [found_cons, found_cons, hsame]
      split_ifs <;> rfl
    · next h =>
      have hother : entry.1.components ≠ path.components := fun heq => h (beq_iff_eq.mpr heq)
      rw [found_cons, found_cons, ih]
      split_ifs with hentry hpath
      · exact absurd (hentry.trans hpath.symm) hother
      all_goals rfl

theorem found_filter_not_isUnder (w : Path) (table : List (Path × α)) (q : Route) :
    found (table.filter fun entry => !entry.1.isUnder w) q =
      if w.components <+: q then none else found table q := by
  induction table with
  | nil => split_ifs <;> rfl
  | cons entry table ih =>
    rw [List.filter_cons]
    have hunder : entry.1.isUnder w = true ↔ w.components <+: entry.1.components :=
      List.isPrefixOf_iff_prefix
    by_cases hentry : entry.1.isUnder w = true
    · rw [hentry, Bool.not_true, if_neg Bool.false_ne_true, ih, found_cons]
      split_ifs with hq heq
      · rfl
      · exact absurd (heq ▸ hunder.mp hentry) hq
      · rfl
    · rw [Bool.not_eq_true] at hentry
      rw [hentry, Bool.not_false, if_pos rfl, found_cons, found_cons, ih]
      split_ifs with heq hq
      · rw [hunder.mpr (heq ▸ hq)] at hentry
        cases hentry
      all_goals rfl

end Tables

/-! ### Generated files -/

section Generated

variable {w : Path} {emitted : List (Path × Bytes)}

/-- What the compiler generates, below any directory. -/
def generated (emitted : List (Path × Bytes)) (contents : Contents) : Contents :=
  emitted.foldl (fun contents file => Function.update contents file.1.steps (some file.2)) contents

/-- The places of generated files in an output directory. -/
def placed (w : Path) (emitted : List (Path × Bytes)) : List (Path × Bytes) :=
  emitted.map fun (path, bytes) => (w.join path, bytes)

theorem found_insertAll_placed (hw : w.bytes ≠ [])
    (hrelative : ∀ file ∈ emitted, file.1.isAbsolute = false) (table : List (Path × Bytes)) :
    (fun rest => found (insertAll (placed w emitted) table) (w.components ++ rest)) =
        generated emitted (fun rest => found table (w.components ++ rest)) ∧
      ∀ q, ¬w.components <+: q → found (insertAll (placed w emitted) table) q = found table q := by
  induction emitted generalizing table with
  | nil => exact ⟨rfl, fun _ _ => rfl⟩
  | cons file emitted ih =>
    obtain ⟨hfile, hrelative⟩ := List.forall_mem_cons.mp hrelative
    have hplace := Path.components_join hw hfile
    obtain ⟨hbelow, hothers⟩ := ih hrelative (insert (w.join file.1) file.2 table)
    constructor
    · refine hbelow.trans (congrArg (generated emitted) ?_)
      refine (Function.update_eq_iff.mpr ⟨?_, fun rest hrest => ?_⟩).symm
      · rw [found_insert, hplace, if_pos rfl]
      · rw [found_insert, hplace, if_neg fun heq => hrest (List.append_cancel_left heq).symm]
    · intro q hq
      refine (hothers q hq).trans ?_
      rw [found_insert, hplace, if_neg]
      rintro rfl
      exact hq (List.prefix_append ..)

theorem not_prefix_append {flag known : Bytes} (h : ¬flag <+: known) (h' : ¬known <+: flag)
    (rest : Bytes) : ¬flag <+: known ++ rest := by
  intro hflag
  rcases List.prefix_or_prefix_of_prefix hflag (List.prefix_append known rest) with
    hprefix | hprefix
  · exact h hprefix
  · exact h' hprefix

theorem outputDirectory?_eq_none {known : Bytes}
    (h : ∀ mode, ¬Utf8.ofString (Compiler.outputFlag mode) <+: known ∧
      ¬known <+: Utf8.ofString (Compiler.outputFlag mode)) (rest : Bytes) :
    outputDirectory? (known ++ rest) = none := by
  have hnot := fun mode => not_prefix_append (h mode).1 (h mode).2 rest
  simp [outputDirectory?, hnot]

theorem outputDirectory?_flag (mode : Mode) (w : Path) :
    outputDirectory? (Utf8.ofString (Compiler.outputFlag mode) ++ w.bytes) = some w := by
  cases mode with
  | message => simp [outputDirectory?]
  | service =>
    -- the other flag is tried first
    have hother : ¬Utf8.ofString (Compiler.outputFlag .message) <+:
        Utf8.ofString (Compiler.outputFlag .service) ++ w.bytes :=
      not_prefix_append (by decide +kernel) (by decide +kernel) _
    simp [outputDirectory?, hother]

/-- The compiler is told its output directory by one of its arguments. -/
theorem findSome?_arguments (pluginName : String) (plugin source base w : Path) (mode : Mode) :
    (Compiler.arguments pluginName plugin source base w mode).findSome? outputDirectory? =
      some w := by
  have hplugin : outputDirectory?
      (Utf8.ofString ("--plugin=" ++ pluginName ++ "=") ++ plugin.bytes) = none := by
    rw [Utf8.ofString_append, Utf8.ofString_append, List.append_assoc, List.append_assoc]
    exact outputDirectory?_eq_none (fun mode => by cases mode <;> decide +kernel) _
  have hroot : outputDirectory? (Utf8.ofString "--proto_path=" ++ base.bytes) = none :=
    outputDirectory?_eq_none (fun mode => by cases mode <;> decide +kernel) _
  rw [Compiler.arguments, List.findSome?_cons, hplugin, List.findSome?_cons, hroot,
    List.findSome?_cons, outputDirectory?_flag]

end Generated

/-! ### The script -/

/-- What is given beforehand. -/
structure Script where
  tools : List (Path × Path)
  emitted : List (Path × Bytes)
  responses : List Response
  createFault : Option IoError
  readFault : Option IoError
  removeFault : Option IoError

/-- What a host has been given. -/
def script (s : Scripted) : Script :=
  ⟨s.tools, s.emitted, s.responses, s.createFault, s.readFault, s.removeFault⟩

/-- Processes end at once in silence, removals succeed, and what is generated is named from the
output directory on. -/
structure Script.Plain (script : Script) : Prop where
  silent : script.responses = []
  removes : script.removeFault = none
  relative : ∀ file ∈ script.emitted, file.1.isAbsolute = false

/-- The scratch directory with the given number. -/
def numbered (p : Pipeline) (n : Nat) : Path :=
  (p.settings.scratchRoot p.temp).join (.ofString (p.settings.workspaceLabel ++ toString n))

variable (p : Pipeline)

/-- Nothing is where directories are still to be made, and none is inside another. -/
structure Fresh (s : Scripted) : Prop where
  files : ∀ n q, s.made ≤ n → (numbered p n).components <+: q → found s.files q = none
  live : ∀ n, ∀ path ∈ s.live, (numbered p n).components <+: path.components →
    n < s.made ∧ path.components = (numbered p n).components

/-- What can be seen of the files of a host that has been given a script. -/
def disk (given : Script) : Disk Scripted where
  valid s := s.script = given ∧ s.Fresh p
  files s := found s.files
  scratch s d := ∃ path ∈ s.live, path.components = d
  given s d := ∃ n < s.made, d = (numbered p n).components

variable {p}

section Numbered

variable (hlabel : Path.slash ∉ Utf8.ofString p.settings.workspaceLabel)
include hlabel

theorem components_numbered (n : Nat) : (numbered p n).components =
    (p.settings.scratchRoot p.temp).components ++
      [.name (Utf8.ofString (p.settings.workspaceLabel ++ toString n))] :=
  Path.components_join_name _ (wellFormed_numbered hlabel n)

theorem eq_of_numbered {m n : Nat}
    (h : (numbered p m).components <+: (numbered p n).components) : m = n := by
  rw [components_numbered hlabel, components_numbered hlabel, List.prefix_append_right_inj,
    List.cons_prefix_cons, Path.Component.name.injEq, Utf8.ofString_append,
    Utf8.ofString_append] at h
  exact number_injective (List.append_cancel_left h.1)

theorem numbered_apart {m n : Nat} (h : m ≠ n) :
    Route.Apart (numbered p m).components (numbered p n).components :=
  ⟨fun hprefix => h (eq_of_numbered hlabel hprefix),
    fun hprefix => h (eq_of_numbered hlabel hprefix).symm⟩

end Numbered

/-! ### What answers do -/

section Answers

variable {given : Script} {s t : Scripted}

theorem answer_of_answered {call : Call} {answer : call.Answer}
    (h : host.Answered call s answer t) :
    Scripted.answer call { s with asked := .call call :: s.asked } = (.now answer, t) := by
  obtain ⟨issued, h⟩ := h
  cases issued with
  | false => exact h
  | true => cases h

theorem same_asked (hs : (disk p given).valid s) (asked : List Deed) :
    (disk p given).Same s { s with asked } :=
  ⟨⟨hs.1, hs.2.files, hs.2.live⟩, rfl, rfl, rfl⟩

/-- A directory is made unless the script says otherwise. -/
theorem create_cases {answer : Except IoError Path} (h : host.Answered p.creating s answer t) :
    (∃ e asked, s.script.createFault = some e ∧ answer = .error e ∧ t = { s with asked }) ∨
    ∃ asked, s.script.createFault = none ∧ answer = .ok (numbered p s.made) ∧
      t = { s with
        asked
        made := s.made + 1
        live := if s.live.any (·.sameSteps (numbered p s.made)) then s.live
          else s.live ++ [numbered p s.made] } := by
  have h := answer_of_answered h
  simp only [Scripted.answer, Pipeline.creating, create] at h
  cases hfault : s.createFault with
  | some e =>
    rw [hfault] at h
    cases h
    exact .inl ⟨e, _, hfault, rfl, rfl⟩
  | none =>
    rw [hfault] at h
    cases h
    exact .inr ⟨_, hfault, rfl, rfl⟩

variable (hscript : given.Plain) (hs : (disk p given).valid s)
include hscript hs

/-- Every call is answered at once. -/
theorem exists_answer (call : Call) : ∃ answer t, host.start call s = (.now answer, t) := by
  cases call with
  | runProcess program args =>
    have hsilent : s.responses = [] := (congrArg Script.responses hs.1).trans hscript.silent
    cases s
    subst hsilent
    exact ⟨_, _, rfl⟩
  | _ => exact ⟨_, _, rfl⟩

theorem ask_cases (issued : Bool) (call : Call) : host.ask issued call s = (.pending, s) ∨
    ∃ answer t, host.ask issued call s = (.now answer, t) := by
  cases issued with
  | true => exact .inl rfl
  | false => exact .inr (exists_answer hscript hs call)

/-- A process ends in silence and leaves what is generated in its output directory. -/
theorem process_eq {program plugin source base w : Path} {mode : Mode}
    {answer : Except IoError ProcessOutput}
    (h : host.Answered (p.compiling program plugin source base mode w) s answer t) :
    answer = .ok silence ∧ ∃ asked, t = { s with
      asked
      responses := []
      cancelled := s.cancelled || false
      files := insertAll (placed w given.emitted) s.files } := by
  have h := answer_of_answered h
  have hsilent : s.responses = [] := (congrArg Script.responses hs.1).trans hscript.silent
  obtain rfl : s.script = given := hs.1
  cases s
  subst hsilent
  simp only [Scripted.answer, Pipeline.compiling, process, generate, findSome?_arguments] at h
  cases h
  exact ⟨rfl, _, rfl⟩

theorem remove_eq {w : Path} {answer : Except IoError Unit}
    (h : host.Answered (.removeWorkspace w) s answer t) :
    answer = .ok () ∧ ∃ asked, t = { s with
      asked
      live := s.live.filter fun path => !path.sameSteps w
      files := s.files.filter fun file => !file.1.isUnder w } := by
  have h := answer_of_answered h
  have hremoves : s.removeFault = none := (congrArg Script.removeFault hs.1).trans hscript.removes
  cases s
  subst hremoves
  cases h
  exact ⟨rfl, _, rfl⟩

end Answers

section Changes

variable {given : Script} {s : Scripted}
  (hlabel : Path.slash ∉ Utf8.ofString p.settings.workspaceLabel)
include hlabel

theorem bytes_ne_of_holds {w : Path} (hw : (disk p given).Holds s w) : w.bytes ≠ [] := by
  obtain ⟨n, -, hn⟩ := hw.given
  intro hempty
  have hnone : w.components = [] := by
    obtain ⟨bytes⟩ := w
    subst hempty
    rfl
  rw [hnone, components_numbered hlabel] at hn
  exact List.append_ne_nil_of_right_ne_nil _ (List.cons_ne_nil _ _) hn.symm

/-- What is not below a directory that is to be made is not below one that was. -/
theorem not_under_made {w : Path} (hw : (disk p given).Holds s w) {n : Nat} (hn : s.made ≤ n)
    {q : Route} (hq : (numbered p n).components <+: q) : ¬w.components <+: q := by
  obtain ⟨m, hm, hcomponents⟩ := hw.given
  rw [hcomponents]
  exact (numbered_apart hlabel (by omega)).not_under hq

variable (hs : (disk p given).valid s) (asked : List Deed)
include hs

theorem created : (disk p given).Created s (numbered p s.made) { s with
    asked
    made := s.made + 1
    live := if s.live.any (·.sameSteps (numbered p s.made)) then s.live
      else s.live ++ [numbered p s.made] } := by
  obtain ⟨hscript, hfresh⟩ := hs
  have hunused : ∀ path ∈ s.live, ¬(numbered p s.made).components <+: path.components :=
    fun path hpath hprefix => absurd (hfresh.live _ path hpath hprefix).1 (Nat.lt_irrefl _)
  have hnew : s.live.any (·.sameSteps (numbered p s.made)) = false := by
    refine List.any_eq_false.mpr fun path hpath hsame => hunused path hpath ?_
    have heq : path.components = (numbered p s.made).components := beq_iff_eq.mp hsame
    exact heq ▸ List.prefix_rfl
  rw [hnew, if_neg Bool.false_ne_true]
  refine ⟨⟨hscript, fun n q hn => hfresh.files n q (Nat.le_of_succ_le hn),
    fun n path hpath hprefix => ?_⟩, fun v hv => ?_, ?_, fun d hd hscratch => ?_, rfl,
    fun d => ?_, fun v => ?_⟩
  · rcases List.mem_append.mp hpath with hpath | hpath
    · obtain ⟨hlt, heq⟩ := hfresh.live n path hpath hprefix
      exact ⟨Nat.lt_succ_of_lt hlt, heq⟩
    · cases List.mem_singleton.mp hpath
      obtain rfl := eq_of_numbered hlabel hprefix
      exact ⟨Nat.lt_succ_self _, rfl⟩
  · obtain ⟨m, hm, rfl⟩ := hv
    exact numbered_apart hlabel (Nat.ne_of_lt hm)
  · exact funext fun rest => hfresh.files _ _ (Nat.le_refl _) (List.prefix_append ..)
  · obtain ⟨path, hpath, rfl⟩ := hscratch
    exact hunused path hpath hd
  · simp only [disk, List.mem_append, List.mem_singleton, or_and_right, exists_or,
      exists_eq_left, eq_comm]
  · simp only [disk, Nat.lt_succ_iff_lt_or_eq, or_and_right, exists_or, exists_eq_left]

theorem written (hscript : given.Plain) {w : Path} (hw : (disk p given).Holds s w) :
    (disk p given).Written s w { s with
      asked
      responses := []
      cancelled := s.cancelled || false
      files := insertAll (placed w given.emitted) s.files } := by
  have hothers := (found_insertAll_placed (bytes_ne_of_holds hlabel hw) hscript.relative
    s.files).2
  have hsilent : s.responses = [] := (congrArg Script.responses hs.1).trans hscript.silent
  refine ⟨⟨?_, fun n q hn hq => ?_, hs.2.live⟩, hothers, rfl, rfl⟩
  · rw [← hs.1, script, script, hsilent]
  · exact (hothers q (not_under_made hlabel hw hn hq)).trans (hs.2.files n q hn hq)

theorem removed {w : Path} (hw : (disk p given).Holds s w) :
    (disk p given).Removed s w { s with
      asked
      live := s.live.filter fun path => !path.sameSteps w
      files := s.files.filter fun file => !file.1.isUnder w } := by
  obtain ⟨m, hm, hcomponents⟩ := hw.given
  have hfound := found_filter_not_isUnder w s.files
  refine ⟨⟨hs.1, fun n q hn hq => ?_, fun n path hpath => ?_⟩, funext fun rest => ?_,
    fun q hq => ?_, fun d => ?_, rfl⟩
  · exact (hfound q).trans ((if_neg (not_under_made hlabel hw hn hq)).trans
      (hs.2.files n q hn hq))
  · exact hs.2.live n path (List.mem_of_mem_filter hpath)
  · exact (hfound _).trans (if_pos (List.prefix_append ..))
  · exact (hfound q).trans (if_neg hq)
  · -- no directory is inside another, so just the one is removed
    constructor
    · rintro ⟨path, hpath, rfl⟩
      obtain ⟨hpath, hother⟩ := List.mem_filter.mp hpath
      refine ⟨⟨path, hpath, rfl⟩, fun hprefix => ?_⟩
      rw [hcomponents] at hprefix
      have hsame := (hs.2.live m path hpath hprefix).2
      rw [← hcomponents] at hsame
      simp [Path.sameSteps, hsame] at hother
    · rintro ⟨⟨path, hpath, rfl⟩, hprefix⟩
      refine ⟨path, List.mem_filter.mpr ⟨hpath, ?_⟩, rfl⟩
      simp only [Path.sameSteps, Bool.not_eq_true', beq_eq_false_iff_ne, ne_eq]
      intro heq
      exact hprefix (heq ▸ List.prefix_rfl)

end Changes

/-- A file is read by what its directory holds, wherever that is. -/
theorem loadFile_alike {given : Script} {s s' : Scripted} {w w' : Path} (hw : w.bytes ≠ [])
    (hw' : w'.bytes ≠ []) (hfault : s.readFault = s'.readFault)
    (hbelow : (disk p given).below s w = (disk p given).below s' w') (relative : String) :
    SameAnswer w w' (s.loadFile (Output.locate w relative))
      (s'.loadFile (Output.locate w' relative)) := by
  have hfile : lookup (Output.locate w relative) s.files =
      lookup (Output.locate w' relative) s'.files := by
    rw [← found_components, ← found_components, Path.components_locate hw,
      Path.components_locate hw']
    exact congrFun hbelow _
  rw [loadFile, loadFile, ← hfault, ← hfile]
  cases s.readFault with
  | some e => exact .error ⟨rfl, [.text e.text], by simp [Shown.fill], by simp [Shown.fill]⟩
  | none => cases lookup (Output.locate w relative) s.files with
    | some bytes => exact .ok bytes
    | none =>
      exact .error ⟨rfl, [.file relative], by simp [Shown.fill], by simp [Shown.fill]⟩

/-- A host that has been given a plain script is sandboxed, if the label of directories is a part of
a name. -/
theorem sandboxed {given : Script} (hscript : given.Plain)
    (hlabel : Path.slash ∉ Utf8.ofString p.settings.workspaceLabel) :
    host.Sandboxed p (disk p given) where
  reliable {call issued s} hs := by
    obtain h | ⟨answer, t, h⟩ := ask_cases hscript hs issued call
    · rw [h]
      exact fun hcrash => nomatch hcrash
    · rw [h]
      exact fun hcrash => nomatch hcrash
  waits {call issued s t} hs hpending := by
    obtain h | ⟨answer, t', h⟩ := ask_cases hscript hs issued call
    · rw [h] at hpending
      cases hpending
      exact ⟨hs, rfl, rfl, rfl⟩
    · rw [h] at hpending
      cases hpending
  creates hs h := by
    obtain ⟨_, _, -, hw, -⟩ | ⟨asked, -, hw, rfl⟩ := create_cases h
    · cases hw
    · cases hw
      exact created hlabel hs asked
  refuses hs h := by
    obtain ⟨_, asked, -, -, rfl⟩ | ⟨_, -, hw, -⟩ := create_cases h
    · exact same_asked hs asked
    · cases hw
  finds hs h := by
    have h := answer_of_answered h
    cases h
    exact same_asked hs _
  compiles hs hw h := by
    obtain ⟨-, asked, rfl⟩ := process_eq hscript hs h
    exact written hlabel hs asked hscript hw
  loads hs _ h := by
    have h := answer_of_answered h
    cases h
    exact same_asked hs _
  removes hs hw h := by
    obtain ⟨-, asked, rfl⟩ := remove_eq hscript hs h
    exact removed hlabel hs asked hw
  sameCreation {s s' t t' answer answer'} hs hs' h h' := by
    have hfault : s.script.createFault = s'.script.createFault := by rw [hs.1, hs'.1]
    obtain ⟨e, _, he, hanswer, -⟩ | ⟨_, hnone, hanswer, -⟩ := create_cases h
    · obtain ⟨e', _, he', hanswer', -⟩ | ⟨_, hnone', -, -⟩ := create_cases h'
      · cases he.symm.trans (hfault.trans he')
        exact .inr ⟨e, hanswer, hanswer'⟩
      · cases he.symm.trans (hfault.trans hnone')
    · obtain ⟨e', _, he', -, -⟩ | ⟨_, -, hanswer', -⟩ := create_cases h'
      · cases hnone.symm.trans (hfault.trans he')
      · exact .inl ⟨_, _, hanswer, hanswer'⟩
  sameTool {tool s s' t t' answer answer'} hs hs' h h' := by
    have htools : s.tools = s'.tools := congrArg Script.tools (hs.1.trans hs'.1.symm)
    have h := answer_of_answered h
    have h' := answer_of_answered h'
    cases h
    cases h'
    rw [htools]
  sameOutput {_ _ _ _ w w' _ s s' _ _ _ _} hs hs' hw hw' hempty hempty' h h' := by
    obtain ⟨rfl, _, rfl⟩ := process_eq hscript hs h
    obtain ⟨rfl, _, rfl⟩ := process_eq hscript hs' h'
    refine ⟨.ok silence, ?_⟩
    have hbelow := (found_insertAll_placed (bytes_ne_of_holds hlabel hw) hscript.relative s.files).1
    have hbelow' :=
      (found_insertAll_placed (bytes_ne_of_holds hlabel hw') hscript.relative s'.files).1
    exact hbelow.trans ((congrArg _ (hempty.trans hempty'.symm)).trans hbelow'.symm)
  sameFile hs hs' hw hw' hbelow h h' := by
    have h := answer_of_answered h
    have h' := answer_of_answered h'
    cases h
    cases h'
    exact loadFile_alike (bytes_ne_of_holds hlabel hw) (bytes_ne_of_holds hlabel hw')
      (congrArg Script.readFault (hs.1.trans hs'.1.symm)) hbelow _
  sameRemoval hs hs' hw hw' _ h h' := by
    obtain ⟨rfl, -⟩ := remove_eq hscript hs h
    obtain ⟨rfl, -⟩ := remove_eq hscript hs' h'
    exact .ok ()

/-! ### A host with one file -/

/-- A host with a compiler that generates the codec of one file. -/
def sample : Scripted :=
  { empty with
    tools := [(Settings.standard.compiler, ⟨[Path.slash, 0x63]⟩),
      (Settings.standard.plugin, ⟨[Path.slash, 0x70]⟩)]
    emitted := [(.ofString "a_pb.js", [0x78])] }

theorem plain_sample : sample.script.Plain := ⟨rfl, rfl, by decide +kernel⟩

theorem valid_sample (p : Pipeline) : (disk p sample.script).valid sample :=
  ⟨rfl, fun _ _ _ _ => rfl, fun _ => List.forall_mem_nil _⟩

end Scripted

end StubLoader
