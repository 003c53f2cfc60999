import StubLoader.Proofs.Json.Decoding
import StubLoader.Reference
/-!
# What references mean

`Options.ofTree?` and `Reference.ofTree?` say which trees are options and references, and which
ones. The readers answer just that.
-/

namespace StubLoader

open Json

/-! ### Options -/

namespace Options

/-- Takes one member, inside which `depth` brackets may be open at once. -/
def Draft.take? (depth : Nat) (d : Draft) (m : String × Tree) : Option Draft :=
  if m.1 = "basePath" then
    (if d.basePath.isSome then none else m.2.text?.map Path.ofString).map
      fun p => { d with basePath := some p }
  else if m.1 = "mode" ∨ m.1 = "kind" then
    (if d.mode.isSome then none else Tree.variant? Mode.spellings depth m.2).map
      fun mode => { d with mode := some mode }
  else (m.2.read? depth).map fun v => { d with extra := Json.insert m.1 v d.extra }

/-- The options whose members were taken. -/
def Draft.complete? (d : Draft) : Option Options :=
  d.basePath.map fun basePath => ⟨basePath, d.mode.getD .message, d.extra⟩

/-- The options that a tree stands for. -/
def ofTree? : Nat → Tree → Option Options
  | depth + 1, .obj members =>
    (members.foldlM (Draft.take? depth) ⟨none, none, []⟩).bind Draft.complete?
  | _, _ => none

theorem reads_readPath : Reads readPath fun t => t.text?.map Path.ofString :=
  (reads_text "path string").map Path.ofString

theorem sound_readPath : Sound readPath := (sound_text "path string").map Path.ofString

theorem readsMember_readMember (depth : Nat) :
    ReadsMember (readMember depth) (Draft.take? depth) := by
  intro d m k v rest hcolon ht hrest
  unfold readMember Draft.take?
  by_cases hbase : m.1 = "basePath"
  · rw [if_pos hbase, if_pos hbase]
    exact once_toOption reads_readPath hcolon ht hrest _ _ fun basePath => { d with basePath }
  · rw [if_neg hbase, if_neg hbase]
    by_cases hmode : m.1 = "mode" ∨ m.1 = "kind"
    · rw [if_pos hmode, if_pos hmode]
      have hread : Reads (Mode.read depth) (Tree.variant? Mode.spellings depth) :=
        reads_variant depth
      exact once_toOption hread hcolon ht hrest _ _ fun mode => { d with mode }
    · rw [if_neg hmode, if_neg hmode]
      refine (toOption_bind_pure (fun extra => { d with extra }) _).trans ?_
      rw [readsMember_insertMember (reads_value depth) hcolon ht hrest, Option.map_map,
        Option.map_map, Option.map_map]
      rfl

theorem soundMember_readMember (depth : Nat) : SoundMember (readMember depth) := by
  intro d d' key k rest h
  unfold readMember at h
  split_ifs at h with hbase hmode
  · obtain ⟨⟨p, r⟩, honce, h⟩ := bind_eq_ok h
    cases h
    exact spells_of_once sound_readPath honce
  · obtain ⟨⟨mode, r⟩, honce, h⟩ := bind_eq_ok h
    cases h
    exact spells_of_once (sound_variant depth) honce
  · obtain ⟨⟨extra, r⟩, hinsert, h⟩ := bind_eq_ok h
    cases h
    exact soundMember_insertMember (sound_value depth) hinsert

theorem reads_read (depth : Nat) : Reads (Options.read depth) (ofTree? depth) := by
  intro t cs rest h hrest
  obtain ⟨c, r, hc, hbegin⟩ := h.begins
  unfold Options.read
  rw [hc]
  dsimp only
  by_cases hobject : c = '\x7b'
  · subst hobject
    obtain ⟨ms, rfl⟩ := hbegin.obj
    obtain ⟨r', hr', hms⟩ := h
    rw [hc] at hr'
    cases hr'
    rw [if_pos rfl]
    cases depth with
    | zero => rfl
    | succ depth =>
      have hread := members_toOption (readsMember_readMember depth) (s := ⟨none, none, []⟩) hms
      dsimp only [ofTree?]
      rw [toOption_bind_of hread]
      cases ms.foldlM (Draft.take? depth) ⟨none, none, []⟩ with
      | none => rfl
      | some d =>
        simp only [Option.bind_some, Draft.complete?]
        cases d.basePath <;> rfl
  · rw [if_neg hobject]
    match t with
    | .obj _ => exact absurd hbegin hobject
    | .null | .bool _ | .number _ | .str _ | .arr _ => cases depth <;> rfl

theorem sound_read (depth : Nat) : Sound (Options.read depth) := by
  intro cs rest o h
  unfold Options.read at h
  split at h
  · cases h
  · next c r hc =>
    split_ifs at h with hobject
    cases depth with
    | zero => cases h
    | succ depth =>
      obtain ⟨⟨d, r'⟩, hmembers, h⟩ := bind_eq_ok h
      obtain ⟨ms, hms⟩ := spells_of_members (soundMember_readMember depth) hmembers
      have hrest : r' = rest := by
        dsimp only at h
        split at h
        · cases h
        · cases h; rfl
      exact ⟨.obj ms, r, hobject ▸ hc, hrest ▸ hms⟩

end Options

/-! ### References -/

namespace Reference

/-- The reference that a tree stands for. -/
def ofTree? : Nat → Tree → Option Reference
  | depth + 1, .arr [e, o, s] => do
    let entryPoint ← e.text?
    let options ← Options.ofTree? depth o
    let source ← s.text?
    return ⟨entryPoint, options, Path.ofString source⟩
  | _, _ => none

/-- The source that is the only one of the remaining parts. -/
def onlySource? : List Tree → Option Path
  | [s] => s.text?.map Path.ofString
  | _ => none

theorem ofTree?_arr (depth : Nat) (e o : Tree) (ts : List Tree) :
    ofTree? (depth + 1) (.arr (e :: o :: ts)) = e.text?.bind fun entryPoint =>
      (Options.ofTree? depth o).bind fun options =>
        (onlySource? ts).map fun source => ⟨entryPoint, options, source⟩ := by
  match ts with
  | [s] =>
    rw [ofTree?]
    cases e.text? <;> cases Options.ofTree? depth o <;> cases hs : s.text? <;>
      simp [onlySource?, hs]
  | [] | _ :: _ :: _ => cases e.text? <;> cases Options.ofTree? depth o <;> rfl

/-- Behind the options there is a source and nothing more. -/
theorem lastPart_toOption (f : Path → Reference) {ts : List Tree} {cs rest : List Char}
    (h : SpellsMoreItems ts cs rest) :
    (item shape 2 Options.readPath cs >>= fun p =>
      closeList p.2 >>= fun rest => pure (f p.1, rest)).toOption =
        (onlySource? ts).map fun source => (f source, rest) := by
  match ts, h with
  | [], h =>
    rw [toOption_bind, item_close 2 h]
    rfl
  | s :: ts, ⟨k, r, hcomma, hs, h⟩ =>
    rw [toOption_bind_of
      (item_next Options.reads_readPath 1 hcomma hs (SpellsMoreItems.boundary h))]
    cases hsource : s.text? with
    | none => cases ts <;> simp [onlySource?, hsource]
    | some source =>
      rw [Option.map_some, Option.bind_some, toOption_bind, closeList_toOption h]
      cases ts with
      | nil => rw [onlySource?, hsource]; rfl
      | cons t ts => rfl

theorem readParts_toOption {depth : Nat} {ts : List Tree} {cs rest : List Char}
    (h : SpellsItems ts cs rest) : (readParts depth cs).toOption =
      (ofTree? (depth + 1) (.arr ts)).map fun r => (r, rest) := by
  -- unless there are three items, the reader meets a bracket or a comma in the wrong place
  unfold readParts
  match ts, h with
  | [], h =>
    rw [toOption_bind, item_close 0 h]
    rfl
  | [e], ⟨r, he, h⟩ =>
    rw [toOption_bind_of (item_first (reads_text _) he (SpellsMoreItems.boundary h))]
    cases e.text? with
    | none => rfl
    | some entryPoint =>
      rw [Option.bind_some, toOption_bind, item_close 1 h]
      rfl
  | e :: o :: ts, ⟨r, he, k, q, hcomma, ho, h⟩ =>
    rw [toOption_bind_of (item_first (reads_text _) he (boundary_of_skipSpace hcomma rfl)),
      ofTree?_arr]
    cases e.text? with
    | none => rfl
    | some entryPoint =>
      rw [Option.bind_some, Option.bind_some,
        toOption_bind_of (item_next (Options.reads_read depth) 0 hcomma ho h.boundary)]
      cases Options.ofTree? depth o with
      | none => rfl
      | some options =>
        rw [Option.bind_some, Option.bind_some, Option.map_map]
        exact lastPart_toOption (fun source => ⟨entryPoint, options, source⟩) h

theorem reads_read (depth : Nat) : Reads (Reference.read depth) (ofTree? depth) := by
  intro t cs rest h hrest
  obtain ⟨c, r, hc, hbegin⟩ := h.begins
  unfold Reference.read
  rw [hc]
  dsimp only
  by_cases hlist : c = '['
  · subst hlist
    obtain ⟨ts, rfl⟩ := hbegin.arr
    obtain ⟨r', hr', hts⟩ := h
    rw [hc] at hr'
    cases hr'
    rw [if_pos rfl]
    cases depth with
    | zero => rfl
    | succ depth => exact readParts_toOption hts
  · rw [if_neg hlist]
    match t with
    | .arr _ => exact absurd hbegin hlist
    | .null | .bool _ | .number _ | .str _ | .obj _ => cases depth <;> rfl

theorem sound_read (depth : Nat) : Sound (Reference.read depth) := by
  intro cs rest ref h
  unfold Reference.read at h
  split at h
  · cases h
  · next c r hc =>
    split_ifs at h with hlist
    cases depth with
    | zero => cases h
    | succ depth =>
      obtain ⟨⟨e, r₁⟩, h₁, h⟩ := bind_eq_ok h
      obtain ⟨⟨o, r₂⟩, h₂, h⟩ := bind_eq_ok h
      obtain ⟨⟨s, r₃⟩, h₃, h⟩ := bind_eq_ok h
      obtain ⟨r₄, hclose, h⟩ := bind_eq_ok h
      cases h
      have hfirst := spells_of_item (sound_text _) h₁
      have hsecond := spells_of_item (Options.sound_read depth) h₂
      have hthird := spells_of_item Options.sound_readPath h₃
      obtain ⟨-, te, hte⟩ := hfirst.resolve_right fun h => h.1 rfl
      obtain ⟨-, k₂, u, hcomma₂, hu⟩ := hsecond.resolve_left fun h => nomatch h.1
      obtain ⟨-, k₃, ts, hcomma₃, hts⟩ := hthird.resolve_left fun h => nomatch h.1
      exact ⟨.arr [te, u, ts], r, hlist ▸ hc, r₁, hte, k₂, r₂, hcomma₂, hu, k₃, r₃, hcomma₃,
        hts, closeList_eq_ok.mp hclose⟩

end Reference

end StubLoader
