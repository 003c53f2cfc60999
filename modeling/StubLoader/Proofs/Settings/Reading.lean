import StubLoader.Proofs.Json.Skipping
import StubLoader.Proofs.Reference.Reading
import StubLoader.Settings
/-!
# What settings documents mean

`Settings.ofTree?` says which trees are settings, and which ones: an object whose known members
occur once at most and whose other members are passed over, or an array of at most seven values.
The reader answers just that.
-/

namespace StubLoader.Settings

open Json

/-! ### Values -/

/-- The path that a tree stands for. -/
def path? (t : Tree) : Option Path := t.text?.map Path.ofString

/-- The place for scratch directories, or `null`, that a tree stands for. -/
def tempRoot? : Tree → Option (Option Path) := Tree.nullable? path?

theorem reads_readPath : Reads Options.readPath path? := Options.reads_readPath

theorem reads_readText : Reads readText Tree.text? := reads_text "a string"

theorem reads_readTempRoot : Reads readTempRoot tempRoot? := reads_nullable reads_readPath

theorem reads_readCount : Reads readCount Tree.natural? := reads_natural "usize"

/-! ### Objects -/

/-- Takes one member; one that is not known is passed over. -/
def Draft.take? (d : Draft) (m : String × Tree) : Option Draft :=
  match m.1 with
  | "compiler" => (once? path? d.compiler m.2).map fun v => { d with compiler := some v }
  | "plugin" => (once? path? d.plugin m.2).map fun v => { d with plugin := some v }
  | "plugin_name" =>
    (once? Tree.text? d.pluginName m.2).map fun v => { d with pluginName := some v }
  | "entry_point" =>
    (once? Tree.text? d.entryPoint m.2).map fun v => { d with entryPoint := some v }
  | "workspace_prefix" =>
    (once? Tree.text? d.workspaceLabel m.2).map fun v => { d with workspaceLabel := some v }
  | "temp_root" => (once? tempRoot? d.tempRoot m.2).map fun v => { d with tempRoot := some v }
  | "max_concurrent_runs" =>
    (once? Tree.natural? d.maxConcurrentRuns m.2).map fun v =>
      { d with maxConcurrentRuns := some v }
  | _ => if m.2.Unpadded then some d else none

/-- A member that is not known leaves the draft as it is. -/
theorem skip_toOption {t : Tree} {k v rest : List Char} (hcolon : skipSpace k = ':' :: v)
    (ht : Spells t v rest) (hrest : Boundary rest) (d : Draft) :
    (colon k >>= fun v => skipValue v >>= fun rest => pure (d, rest)).toOption =
      (if t.Unpadded then some d else none).map fun d => (d, rest) := by
  rw [toOption_bind_ok (colon_eq_ok.mpr hcolon), toOption_bind, skipValue_toOption ht hrest]
  split_ifs
  · rfl
  · rfl

theorem readsMember_readMember : ReadsMember readMember Draft.take? := by
  rintro d ⟨key, t⟩ k v rest hcolon ht hrest
  unfold readMember Draft.take?
  dsimp only at ht ⊢
  split
  · exact once_toOption reads_readPath hcolon ht hrest _ _ fun compiler => { d with compiler }
  · exact once_toOption reads_readPath hcolon ht hrest _ _ fun plugin => { d with plugin }
  · exact once_toOption reads_readText hcolon ht hrest _ _ fun pluginName => { d with pluginName }
  · exact once_toOption reads_readText hcolon ht hrest _ _ fun entryPoint => { d with entryPoint }
  · exact once_toOption reads_readText hcolon ht hrest _ _ fun workspaceLabel =>
      { d with workspaceLabel }
  · exact once_toOption reads_readTempRoot hcolon ht hrest _ _ fun tempRoot => { d with tempRoot }
  · exact once_toOption reads_readCount hcolon ht hrest _ _ fun maxConcurrentRuns =>
      { d with maxConcurrentRuns }
  · simpa only using skip_toOption hcolon ht hrest d

/-! ### Arrays -/

/-- The draft of the values of an array, in the order of the fields. -/
def ofItems? (ts : List Tree) : Option Draft := do
  let compiler ← part? path? ts
  let plugin ← part? path? (ts.drop 1)
  let pluginName ← part? Tree.text? (ts.drop 2)
  let entryPoint ← part? Tree.text? (ts.drop 3)
  let workspaceLabel ← part? Tree.text? (ts.drop 4)
  let tempRoot ← part? tempRoot? (ts.drop 5)
  let maxConcurrentRuns ← part? Tree.natural? (ts.drop 6)
  if (ts.drop 7).isEmpty then
    some { compiler, plugin, pluginName, entryPoint, workspaceLabel, tempRoot, maxConcurrentRuns }
  else none

theorem readItems_toOption {ts : List Tree} {cs rest : List Char} (h : SpellsItems ts cs rest) :
    (readItems cs).toOption = (ofItems? ts).map fun d => (d, rest) := by
  obtain ⟨r₁, h₁, hcompiler⟩ := item?_first reads_readPath h
  obtain ⟨r₂, h₂, hplugin⟩ := item?_next reads_readPath 0 h₁
  obtain ⟨r₃, h₃, hname⟩ := item?_next reads_readText 1 h₂
  obtain ⟨r₄, h₄, hentry⟩ := item?_next reads_readText 2 h₃
  obtain ⟨r₅, h₅, hlabel⟩ := item?_next reads_readText 3 h₄
  obtain ⟨r₆, h₆, htemp⟩ := item?_next reads_readTempRoot 4 h₅
  obtain ⟨r₇, h₇, hcount⟩ := item?_next reads_readCount 5 h₆
  have hclose := closeList_toOption h₇
  unfold readItems ofItems?
  simp only [toOption_bind_of hcompiler, toOption_bind_of hplugin, toOption_bind_of hname,
    toOption_bind_of hentry, toOption_bind_of hlabel, toOption_bind_of htemp,
    toOption_bind_of hcount, toOption_bind, hclose, Option.bind_eq_bind, Option.map_bind,
    Function.comp_def]
  cases (ts.drop 7).isEmpty <;> rfl

/-! ### Documents -/

/-- The settings that a tree stands for. -/
def ofTree? : Tree → Option Settings
  | .obj members => (members.foldlM Draft.take? {}).map Draft.complete
  | .arr items => (ofItems? items).map Draft.complete
  | _ => none

theorem reads_read : Reads Settings.read ofTree? := by
  intro t cs rest h hrest
  obtain ⟨c, r, hc, hbegin⟩ := h.begins
  unfold Settings.read
  rw [hc]
  dsimp only
  by_cases hobject : c = '\x7b'
  · subst hobject
    obtain ⟨ms, rfl⟩ := hbegin.obj
    obtain ⟨r', hr', hms⟩ := h
    cases hc.symm.trans hr'
    rw [if_pos rfl, toOption_map, members_toOption readsMember_readMember hms, ofTree?,
      Option.map_map, Option.map_map]
    rfl
  rw [if_neg hobject]
  by_cases hlist : c = '['
  · subst hlist
    obtain ⟨ts, rfl⟩ := hbegin.arr
    obtain ⟨r', hr', hts⟩ := h
    cases hc.symm.trans hr'
    rw [if_pos rfl, toOption_map, readItems_toOption hts, ofTree?, Option.map_map, Option.map_map]
    rfl
  · rw [if_neg hlist]
    match t with
    | .obj _ => exact absurd hbegin hobject
    | .arr _ => exact absurd hbegin hlist
    | .null | .bool _ | .number _ | .str _ => rfl

end StubLoader.Settings
