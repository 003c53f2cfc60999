import StubLoader.Proofs.Json.Meaning
import StubLoader.Proofs.Reference.RoundTrip
/-!
# The wire format of references

Which texts are parsed as references, and as which, said without the parser: `IsWire` lists the
members of the options by what they are for and counts them, where the reader goes through them one
by one with a draft. The two agree because a draft's three parts do not look at each other: reading
the members is reading those called `basePath`, those called `mode` or `kind`, and the others, each
kind by itself.
-/

namespace StubLoader

open Json

/-! ### Members by what they are for -/

namespace Options

/-- The member is to be the base path. -/
def isBase (m : String × Tree) : Bool := m.1 = "basePath"

/-- The member is to be the mode. -/
def isMode (m : String × Tree) : Bool := m.1 = "mode" ∨ m.1 = "kind"

/-- The member is handed through. -/
def isExtra (m : String × Tree) : Bool := !isBase m && !isMode m

/-- Takes members of which at most one may be there in all. -/
def takeOnce {α : Type} (meaning : Tree → Option α) (seen : Option α) (ms : List (String × Tree)) :
    Option (Option α) :=
  ms.foldlM (fun seen m => if seen.isSome then none else (meaning m.2).map some) seen

/-- Takes members that are handed through. -/
def takeExtra (depth : Nat) (extra : Members) (ms : List (String × Tree)) : Option Members :=
  ms.foldlM (fun extra m => (Tree.read? depth m.2).map (insert m.1 · extra)) extra

/-- What a string means as a path. -/
def pathOf? (t : Tree) : Option Path := t.text?.map Path.ofString

theorem takeOnce_cons {α : Type} (meaning : Tree → Option α) (seen : Option α) (m : String × Tree)
    (ms : List (String × Tree)) : takeOnce meaning seen (m :: ms) =
      if seen.isSome then none else (meaning m.2).bind fun v => takeOnce meaning (some v) ms := by
  rw [takeOnce, List.foldlM_cons]
  split_ifs
  · rfl
  · cases meaning m.2 <;> rfl

theorem takeExtra_cons (depth : Nat) (extra : Members) (m : String × Tree)
    (ms : List (String × Tree)) : takeExtra depth extra (m :: ms) =
      (Tree.read? depth m.2).bind fun v => takeExtra depth (insert m.1 v extra) ms := by
  rw [takeExtra, List.foldlM_cons]
  cases Tree.read? depth m.2 <;> rfl

/-- Members are taken kind by kind. -/
theorem foldlM_take_eq (depth : Nat) : ∀ (ms : List (String × Tree)) (d : Draft),
    ms.foldlM (Draft.take? depth) d =
      (takeOnce pathOf? d.basePath (ms.filter isBase)).bind fun basePath =>
      (takeOnce (Tree.variant? Mode.spellings depth) d.mode (ms.filter isMode)).bind fun mode =>
      (takeExtra depth d.extra (ms.filter isExtra)).map fun extra => ⟨basePath, mode, extra⟩
  | [], d => rfl
  | m :: ms, d => by
    have ih := foldlM_take_eq depth ms
    rw [List.foldlM_cons, Draft.take?]
    by_cases hbase : m.1 = "basePath"
    · have hmode : isMode m = false := by simp [isMode, hbase]
      have hextra : isExtra m = false := by simp [isExtra, isBase, hbase]
      rw [if_pos hbase, List.filter_cons_of_pos (by simpa [isBase] using hbase),
        List.filter_cons_of_neg (by simp [hmode]), List.filter_cons_of_neg (by simp [hextra]),
        takeOnce_cons, ← pathOf?]
      cases d.basePath with
      | some p => rfl
      | none => cases pathOf? m.2 <;> simp [ih]
    have hbase' : isBase m = false := by simpa [isBase] using hbase
    by_cases hmode : m.1 = "mode" ∨ m.1 = "kind"
    · have hextra : isExtra m = false := by simp [isExtra, isMode, hmode]
      rw [if_neg hbase, if_pos hmode, List.filter_cons_of_neg (by simp [hbase']),
        List.filter_cons_of_pos (by simpa [isMode] using hmode),
        List.filter_cons_of_neg (by simp [hextra]), takeOnce_cons]
      cases d.mode with
      | some mode => simp
      | none => cases Tree.variant? Mode.spellings depth m.2 <;> simp [ih]
    · have hmode' : isMode m = false := by simpa [isMode] using hmode
      rw [if_neg hbase, if_neg hmode, List.filter_cons_of_neg (by simp [hbase']),
        List.filter_cons_of_neg (by simp [hmode']),
        List.filter_cons_of_pos (by simp [isExtra, hbase', hmode']), takeExtra_cons]
      cases Tree.read? depth m.2 <;> simp [ih]

theorem takeOnce_nil {α : Type} (meaning : Tree → Option α) (seen : Option α) :
    takeOnce meaning seen [] = some seen := rfl

/-- One member may be taken once. -/
theorem takeOnce_eq_some {α : Type} {meaning : Tree → Option α} {ms : List (String × Tree)}
    {seen : Option α} : takeOnce meaning none ms = some seen ↔
      (ms = [] ∧ seen = none) ∨ ∃ m v, ms = [m] ∧ meaning m.2 = some v ∧ seen = some v := by
  match ms with
  | [] => simp [takeOnce_nil, eq_comm]
  | [m] =>
    rw [takeOnce_cons]
    cases h : meaning m.2 <;> simp [takeOnce_nil, h, eq_comm]
  | m :: n :: ms =>
    rw [takeOnce_cons]
    cases meaning m.2 <;> simp [takeOnce_cons]

/-- Members of integers that do not nest too deep are all handed through. -/
theorem takeExtra_eq {depth : Nat} {ms : List (String × Tree)}
    (h : ∀ m ∈ ms, m.2.IntegersOnly ∧ m.2.Nests depth) :
    takeExtra depth [] ms = some (Members.ofList (Tree.valueMembers ms)) :=
  Tree.foldlM_value [] fun m hm => (h m hm).1.read? (h m hm).2

theorem onlyKey?_eq_some {ms : List (String × Tree)} {key : String} :
    Tree.onlyKey? ms = some key ↔ ms = [(key, .null)] := by
  match ms with
  | [] | _ :: _ :: _ => simp [Tree.onlyKey?]
  | [(k, t)] => cases t <;> simp [Tree.onlyKey?, Tree.isNull]

theorem unpadded_of_variant? {α : Type} {choices : List (String × α)} {depth : Nat} {t : Tree}
    {v : α} (h : Tree.variant? choices (depth + 1) t = some v) :
    t.Unpadded ∧ t.Nests (depth + 1) := by
  match t with
  | .str s => exact ⟨.str s, trivial⟩
  | .obj ms =>
    obtain ⟨key, hkey, -⟩ := Option.bind_eq_some_iff.mp h
    rw [onlyKey?_eq_some.mp hkey]
    refine ⟨.obj (List.forall_mem_singleton.mpr .null), List.forall_mem_singleton.mpr ?_⟩
    cases depth <;> trivial
  | .null | .bool _ | .number _ | .arr _ => cases h

/-- A member that is taken nests no deeper than the reader goes, and has no zeros too many. -/
theorem unpadded_of_take? {depth : Nat} {d d' : Draft} {m : String × Tree}
    (h : d.take? (depth + 1) m = some d') : m.2.Unpadded ∧ m.2.Nests (depth + 1) := by
  unfold Draft.take? at h
  split_ifs at h
  · cases h
  · obtain ⟨p, hp, -⟩ := Option.map_eq_some_iff.mp h
    obtain ⟨s, hs, -⟩ := Option.map_eq_some_iff.mp hp
    rw [Tree.text?_eq_some.mp hs]
    exact ⟨.str s, trivial⟩
  · cases h
  · obtain ⟨mode, hm, -⟩ := Option.map_eq_some_iff.mp h
    exact unpadded_of_variant? hm
  · obtain ⟨v, hv, -⟩ := Option.map_eq_some_iff.mp h
    exact Tree.unpadded_of_read? m.2 hv

theorem unpadded_of_ofTree? {depth : Nat} {t : Tree} {o : Options}
    (h : ofTree? (depth + 2) t = some o) : t.Unpadded ∧ t.Nests (depth + 2) := by
  match t, h with
  | .obj ms, h =>
    obtain ⟨d, hd, -⟩ := Option.bind_eq_some_iff.mp h
    have hmembers : ∀ m ∈ ms, m.2.Unpadded ∧ m.2.Nests (depth + 1) := by
      intro m hm
      obtain ⟨b, c, hstep⟩ := Tree.forall_of_foldlM hd m hm
      exact unpadded_of_take? hstep
    exact ⟨.obj fun m hm => (hmembers m hm).1, fun m hm => (hmembers m hm).2⟩

/-! ### The codec's mode -/

/-- The names of the codec's mode. -/
def codecNames : List String := ["Message", "message", "proto"]

/-- The tree is a name of the codec's mode, as a string or as the only key of an object with `null`
under it. -/
inductive IsCodec : Tree → Prop where
  | name {s : String} (h : s ∈ codecNames) : IsCodec (.str s)
  | key {s : String} (h : s ∈ codecNames) : IsCodec (.obj [(s, .null)])

theorem lookup_spellings {s : String} :
    Mode.spellings.lookup s = some .message ↔ s ∈ codecNames := by
  simp only [Mode.spellings, lookup_cons_eq_ite, List.lookup_nil, codecNames, List.mem_cons,
    List.not_mem_nil, or_false]
  split_ifs <;> simp_all

theorem variant?_eq_message {depth : Nat} {t : Tree} :
    Tree.variant? Mode.spellings (depth + 1) t = some .message ↔ IsCodec t := by
  constructor
  · intro h
    match t with
    | .str s => exact .name (lookup_spellings.mp h)
    | .obj ms =>
      obtain ⟨key, hkey, hlookup⟩ := Option.bind_eq_some_iff.mp h
      rw [onlyKey?_eq_some.mp hkey]
      exact .key (lookup_spellings.mp hlookup)
    | .null | .bool _ | .number _ | .arr _ => cases h
  · rintro (h | h)
    · exact lookup_spellings.mpr h
    · exact lookup_spellings.mpr h

/-- The members ask for the codec, if only by not asking for anything. -/
def AskForCodec (ms : List (String × Tree)) : Prop := ms = [] ∨ ∃ m, ms = [m] ∧ IsCodec m.2

theorem takeOnce_codec {depth : Nat} {ms : List (String × Tree)} :
    (∃ mode, takeOnce (Tree.variant? Mode.spellings (depth + 1)) none ms = some mode ∧
      mode.getD .message = .message) ↔ AskForCodec ms := by
  constructor
  · rintro ⟨mode, htake, hmode⟩
    rcases takeOnce_eq_some.mp htake with ⟨rfl, -⟩ | ⟨m, v, rfl, hv, rfl⟩
    · exact .inl rfl
    · obtain rfl : v = .message := hmode
      exact .inr ⟨m, rfl, variant?_eq_message.mp hv⟩
  · rintro (rfl | ⟨m, rfl, hm⟩)
    · exact ⟨none, rfl, rfl⟩
    · exact ⟨some .message,
        takeOnce_eq_some.mpr (.inr ⟨m, _, rfl, variant?_eq_message.mpr hm, rfl⟩), rfl⟩

/-! ### Options -/

theorem takeOnce_pathOf? {ms : List (String × Tree)} {p : Path} :
    takeOnce pathOf? none (ms.filter isBase) = some (some p) ↔
      ∃ s, ms.filter isBase = [("basePath", .str s)] ∧ p = Path.ofString s := by
  rw [takeOnce_eq_some]
  constructor
  · rintro (⟨-, h⟩ | ⟨m, v, hm, hv, h⟩)
    · cases h
    · cases h
      have hkey : isBase m = true := (List.mem_filter.mp (hm ▸ List.mem_singleton_self m)).2
      obtain ⟨s, hs, rfl⟩ := Option.map_eq_some_iff.mp hv
      refine ⟨s, ?_, rfl⟩
      rw [hm, ← Tree.text?_eq_some.mp hs, ← of_decide_eq_true hkey]
  · rintro ⟨s, hms, rfl⟩
    exact .inr ⟨_, _, hms, rfl, rfl⟩

/-- The options for a codec that an object holds. -/
theorem ofTree?_obj_eq_some {depth : Nat} {ms : List (String × Tree)} {o : Options} :
    (ofTree? (depth + 2) (.obj ms) = some o ∧ o.mode = .message) ↔
      ∃ s extra, ms.filter isBase = [("basePath", .str s)] ∧ AskForCodec (ms.filter isMode) ∧
        takeExtra (depth + 1) [] (ms.filter isExtra) = some extra ∧
        o = ⟨.ofString s, .message, extra⟩ := by
  rw [ofTree?, foldlM_take_eq]
  constructor
  · rintro ⟨h, hmode⟩
    obtain ⟨d, hd, hcomplete⟩ := Option.bind_eq_some_iff.mp h
    obtain ⟨basePath, hbase, hd⟩ := Option.bind_eq_some_iff.mp hd
    obtain ⟨mode, htake, hd⟩ := Option.bind_eq_some_iff.mp hd
    obtain ⟨extra, hextra, rfl⟩ := Option.map_eq_some_iff.mp hd
    obtain ⟨p, rfl, rfl⟩ := Option.map_eq_some_iff.mp hcomplete
    obtain ⟨s, hs, rfl⟩ := takeOnce_pathOf?.mp hbase
    refine ⟨s, extra, hs, takeOnce_codec.mp ⟨mode, htake, hmode⟩, hextra, ?_⟩
    rw [show mode.getD .message = .message from hmode]
  · rintro ⟨s, extra, hs, hcodec, hextra, rfl⟩
    obtain ⟨mode, htake, hmode⟩ := takeOnce_codec.mpr hcodec
    refine ⟨?_, rfl⟩
    rw [takeOnce_pathOf?.mpr ⟨s, hs, rfl⟩, htake, hextra]
    simp [Draft.complete?, hmode]

end Options

/-! ### References -/

namespace Reference

open Options

/-- The tree is that of a reference to a codec, namely of `r`: an array of three, a string that
names the entry point, an object with one base path and at most one mode, and a string. It opens at
most 127 brackets at once. The other members of the object are handed through, the last of several
equal keys (`lookup_ofList`) in them and in their values. -/
inductive IsWire : Tree → Reference → Prop where
  | mk {entryPoint basePath source : String} {ms : List (String × Tree)}
    (hentry : entryPoint ≠ "") (hbase : ms.filter isBase = [("basePath", .str basePath)])
    (hgiven : basePath ≠ "") (hmode : AskForCodec (ms.filter isMode))
    (hnests : (Tree.arr [.str entryPoint, .obj ms, .str source]).Nests 127) :
    IsWire (.arr [.str entryPoint, .obj ms, .str source])
      ⟨entryPoint, ⟨.ofString basePath, .message,
        Members.ofList (Tree.valueMembers (ms.filter isExtra))⟩, .ofString source⟩

theorem isEmpty_ofString {s : String} : (Path.ofString s).isEmpty = false ↔ s ≠ "" := by
  constructor
  · rintro h rfl
    exact absurd h (by decide)
  · intro hs
    rw [Bool.eq_false_iff]
    intro h
    have hbytes : Path.ofString s = ⟨[]⟩ := congrArg Path.mk (List.isEmpty_iff.mp h)
    have hstring := Path.toString?_ofString s
    rw [hbytes] at hstring
    exact hs (Option.some.inj hstring).symm

theorem validate_eq_ok_iff {r : Reference} : r.validate = .ok () ↔
    r.entryPoint ≠ "" ∧ r.options.mode = .message ∧ r.options.basePath.isEmpty = false := by
  refine ⟨validate_eq_ok, ?_⟩
  rintro ⟨hentry, hmode, hgiven⟩
  rw [validate, if_neg (by simpa using hentry), if_neg (not_not_intro hmode), Options.validate,
    hgiven]
  rfl

/-- A tree that is read as a reference nests no deeper than the reader goes, and has no zeros too
many. -/
theorem unpadded_of_ofTree? {t : Tree} {r : Reference} (h : ofTree? maxDepth t = some r) :
    t.Unpadded ∧ t.Nests maxDepth := by
  obtain ⟨e, o, s, rfl, ho, -, -⟩ := ofTree?_eq_some h
  have hparts : ∀ t ∈ [Tree.str e, o, .str s], t.Unpadded ∧ t.Nests 126 :=
    List.forall_mem_cons.mpr ⟨⟨.str e, trivial⟩, List.forall_mem_cons.mpr
      ⟨Options.unpadded_of_ofTree? ho, List.forall_mem_singleton.mpr ⟨.str s, trivial⟩⟩⟩
  exact ⟨.arr fun t ht => (hparts t ht).1, fun t ht => (hparts t ht).2⟩

/-- What is parsed has the wire format. -/
theorem isWire_of_parse {text : String} {r : Reference}
    (hints : ∀ t, IsText t (Text.strip text).toList → t.IntegersOnly) (h : parse text = .ok r) :
    ∃ t, IsText t (Text.strip text).toList ∧ IsWire t r := by
  obtain ⟨t, ht, hr⟩ := exists_tree h
  obtain ⟨hentry, hmode, hgiven⟩ := validate_eq_ok (parse_eq_ok h).2
  obtain ⟨hunpadded, hnests⟩ := unpadded_of_ofTree? hr
  obtain ⟨e, o, s, rfl, ho, hentryPoint, hsource⟩ := ofTree?_eq_some hr
  match o, ho with
  | .obj ms, ho =>
    obtain ⟨basePath, extra, hbase, hcodec, hextra, hoptions⟩ :=
      ofTree?_obj_eq_some.mp ⟨ho, hmode⟩
    have htext : IsText (.arr [.str e, .obj ms, .str s]) (Text.strip text).toList := ⟨ht, hunpadded⟩
    -- the numbers that are handed through are integers, so the values are known
    have hvalues : extra = Members.ofList (Tree.valueMembers (ms.filter isExtra)) := by
      cases hints _ htext with
      | arr hitems =>
        cases hitems (.obj ms) (by simp) with
        | obj hints =>
          have hmembers : ∀ m ∈ ms.filter isExtra, m.2.IntegersOnly ∧ m.2.Nests 125 := by
            intro m hm
            have hm := (List.mem_filter.mp hm).1
            exact ⟨hints m hm, hnests (.obj ms) (by simp) m hm⟩
          exact Option.some.inj (hextra.symm.trans (takeExtra_eq hmembers))
    have hreference : r = ⟨e, ⟨.ofString basePath, .message,
        Members.ofList (Tree.valueMembers (ms.filter isExtra))⟩, .ofString s⟩ := by
      rw [← hvalues, ← hoptions, ← hentryPoint, ← hsource]
    have hbaseGiven : basePath ≠ "" := by
      rw [hoptions] at hgiven
      exact isEmpty_ofString.mp hgiven
    rw [hreference]
    exact ⟨_, htext, .mk (hentryPoint ▸ hentry) hbase hbaseGiven hcodec hnests⟩

/-- What has the wire format is parsed. -/
theorem parse_of_isWire {text : String} {t : Tree} {r : Reference}
    (ht : SpellsAll t (Text.strip text).toList) (hints : t.IntegersOnly) (h : IsWire t r) :
    parse text = .ok r := by
  cases h with
  | @mk entryPoint basePath source ms hentry hbase hgiven hmode hnests =>
    have hmembers : ∀ m ∈ ms, m.2.IntegersOnly ∧ m.2.Nests 125 := by
      cases hints with
      | arr hitems =>
        cases hitems (.obj ms) (by simp) with
        | obj hints => exact fun m hm => ⟨hints m hm, hnests (.obj ms) (by simp) m hm⟩
    have hoptions := (ofTree?_obj_eq_some.mpr ⟨basePath, _, hbase, hmode,
      takeExtra_eq fun m hm => hmembers m (List.mem_filter.mp hm).1, rfl⟩).1
    have hread := readAll_toOption (reads_read maxDepth) ht
    rw [maxDepth, ofTree?, hoptions] at hread
    rw [parse, maxDepth, toOption_eq_some.mp hread]
    dsimp only
    rw [validate_eq_ok_iff.mpr ⟨hentry, rfl, isEmpty_ofString.mpr hgiven⟩]

/-- A text that is not parsed is refused as a reference. -/
theorem parse_ok_or_error (text : String) :
    (∃ r, parse text = .ok r) ∨ ∃ fault, parse text = .error (.reference fault) := by
  unfold parse
  split
  · exact .inr ⟨_, rfl⟩
  · split
    · exact .inr ⟨_, rfl⟩
    · exact .inl ⟨_, rfl⟩

/-- A text whose numbers, if it is a JSON text at all, are integers that fit into 64 bits is parsed
as a reference exactly if it has the wire format, blanks around it aside, and then as the reference
that its tree gives. Every other text is refused as a reference. -/
theorem parse_iff_wire {text : String}
    (hints : ∀ t, IsText t (Text.strip text).toList → t.IntegersOnly) :
    (∀ r, parse text = .ok r ↔ ∃ t, IsText t (Text.strip text).toList ∧ IsWire t r) ∧
      ((∀ t r, IsText t (Text.strip text).toList → ¬IsWire t r) →
        ∃ fault, parse text = .error (.reference fault)) := by
  refine ⟨fun r => ⟨isWire_of_parse hints, fun ⟨t, ht, hr⟩ => ?_⟩, fun hnone => ?_⟩
  · exact parse_of_isWire ht.1 (hints t ht) hr
  · refine (parse_ok_or_error text).resolve_left ?_
    rintro ⟨r, h⟩
    obtain ⟨t, ht, hr⟩ := isWire_of_parse hints h
    exact hnone t r ht hr

theorem parse_iff_wire_sample : ∃ literal, sample.render = .ok literal ∧
    ∃ t, IsText t (Text.strip literal).toList ∧ IsWire t sample := by
  obtain ⟨literal, hrender, hparse⟩ := sample_portable.parse_render
  obtain ⟨text, htext, rfl⟩ := render_eq_ok hrender
  have hints : ∀ t, IsText t (Text.strip (String.ofList text)).toList → t.IntegersOnly := by
    intro t ht
    rw [strip_ofList htext] at ht
    exact ht.1.unique (spellsAll_print htext) ▸ sample_integersOnly
  exact ⟨_, hrender, ((parse_iff_wire hints).1 sample).mp hparse⟩

end Reference

end StubLoader
