import StubLoader.Proofs.Path.Joining
/-!
# Canonical spelling

Folding gives a path one of two spellings, in which every slash stands between two names or begins
the path:

    ../…/../d₁/…/dₖ        /d₁/…/dₖ

A path that is spelled so stays as it is. Folding makes up no steps and keeps the order of those
that stay; without steps up, all but those in place do. And a directory may be folded before
something is joined to it.
-/

namespace StubLoader.Path

/-! ### Two spellings -/

/-- A path in the spelling that folding gives. -/
structure Canonical (p : Path) : Prop where
  /-- No step in place is written. -/
  noDot : [dot] ∉ segments p.bytes
  /-- No slash follows another. -/
  noDoubled : ¬[slash, slash] <:+: p.bytes
  /-- No slash ends the path, unless it is the root. -/
  noTrailing : p.bytes.getLast? = some slash → p.bytes = [slash]
  /-- Steps up come first, and from the root there are none. -/
  climbs : ∃ (n : Nat) (names : List Bytes), p.components =
    (if p.isAbsolute then [.root] else List.replicate n .parent) ++ names.map .name

/-- Folded steps are the root or a climb, and then names. -/
theorem Folded.shape {steps : List Component} (h : Folded steps) :
    ∃ (n : Nat) (names : List Bytes),
      steps.reverse = .root :: names.map .name ∨
        steps.reverse = List.replicate n .parent ++ names.map .name := by
  induction h with
  | root => exact ⟨0, [], .inl rfl⟩
  | climb n => exact ⟨n, [], .inr (by simp)⟩
  | name s _ ih =>
    obtain ⟨n, names, h | h⟩ := ih
    · exact ⟨n, names ++ [s], .inl (by simp [h])⟩
    · exact ⟨n, names ++ [s], .inr (by simp [h])⟩

theorem root_mem_components {p : Path} : .root ∈ p.components ↔ p.isAbsolute = true := by
  obtain ⟨front, steps, hcs, hfront, hsteps⟩ := components_eq p
  rw [hcs, hfront, List.mem_append]
  split_ifs with habs
  · simp [habs]
  · simpa [habs] using fun h => (hsteps _ h).2 rfl

/-- A folded path starts at the root exactly if the path does. -/
theorem isAbsolute_normalize_eq (p : Path) : p.normalize.isAbsolute = p.isAbsolute := by
  rw [Bool.eq_iff_iff]
  refine ⟨fun h => ?_, isAbsolute_normalize⟩
  rw [← root_mem_components, components_normalize] at h
  exact root_mem_components.mp (mem_fold h)

/-! ### Segments -/

section Segments

variable {cs : List Component} (h : ∀ c ∈ cs, c.WellFormed ∧ c ≠ .root ∧ c ≠ .current)
include h

theorem segments_root (hne : cs ≠ []) :
    segments (ofComponents (.root :: cs)).bytes = [] :: cs.map Component.bytes := by
  rw [ofComponents, segments, if_pos rfl, segments_spelled h hne]

theorem segments_relative (hne : cs ≠ []) :
    segments (ofComponents cs).bytes = cs.map Component.bytes := by
  rw [ofComponents_relative h, segments_spelled h hne]

end Segments

/-- The segments of a folded path are an empty one before the root, and others that are steps up or
names. -/
theorem segments_normalize (p : Path) : p.normalize.bytes = [] ∨ p.normalize.bytes = [slash] ∨
    ∃ front ss, segments p.normalize.bytes = front ++ ss ∧ (front = [] ∨ front = [[]]) ∧
      ∀ s ∈ ss, s ≠ [] ∧ s ≠ [dot] := by
  have hwell : ∀ c ∈ fold p.components, c.WellFormed := fun c hc =>
    wellFormed_of_mem_components (mem_fold hc)
  rw [normalize]
  rcases (folded_fold p).cases_root with ⟨cs, hroot, hcs⟩ | hcs
  · rw [hroot] at hwell ⊢
    by_cases hne : cs = []
    · rw [hne]
      exact .inr (.inl rfl)
    · have hsteps := fun c hc => And.intro (hwell c (List.mem_cons_of_mem _ hc)) (hcs c hc)
      exact .inr (.inr ⟨[[]], _, segments_root hsteps hne, .inr rfl,
        fun s hs => (forall_bytes hsteps s hs).1⟩)
  · by_cases hne : fold p.components = []
    · rw [hne]
      exact .inl rfl
    · have hsteps := fun c hc => And.intro (hwell c hc) (hcs c hc)
      exact .inr (.inr ⟨[], _, segments_relative hsteps hne, .inl rfl,
        fun s hs => (forall_bytes hsteps s hs).1⟩)

/-- Behind a slash that another one or nothing follows there is an empty segment. -/
theorem nil_mem_tail_segments {x y : Bytes} (hy : (segments y).head? = some []) :
    [] ∈ (segments (x ++ slash :: y)).tail := by
  rw [segments_append, List.tail_append_of_ne_nil (segments_ne_nil x)]
  exact List.mem_append_right _ (List.mem_of_head? hy)

/-- In a folded path there is none. -/
theorem nil_not_mem_tail_segments {p : Path} (h : p.normalize.bytes ≠ [slash]) :
    [] ∉ (segments p.normalize.bytes).tail := by
  rcases segments_normalize p with hnil | hroot | ⟨front, ss, hsegments, hfront, hss⟩
  · rw [hnil]
    exact List.not_mem_nil
  · exact absurd hroot h
  · rw [hsegments]
    intro hmem
    rcases hfront with rfl | rfl
    · exact (hss [] (List.mem_of_mem_tail hmem)).1 rfl
    · exact (hss [] hmem).1 rfl

theorem canonical_normalize (p : Path) : Canonical p.normalize := by
  constructor
  case noDot =>
    rcases segments_normalize p with hnil | hroot | ⟨front, ss, hsegments, hfront, hss⟩
    · rw [hnil]
      decide
    · rw [hroot]
      decide
    · rw [hsegments, List.mem_append]
      rintro (hmem | hmem)
      · rcases hfront with rfl | rfl
        · cases hmem
        · simp at hmem
      · exact (hss _ hmem).2 rfl
  case noDoubled =>
    rintro ⟨x, y, hinfix⟩
    have hbytes : x ++ slash :: (slash :: y) = p.normalize.bytes := by simpa using hinfix
    refine nil_not_mem_tail_segments (p := p) (fun hroot => ?_) ?_
    · have hlength := congrArg List.length (hbytes.trans hroot)
      simp only [List.length_append, List.length_cons, List.length_nil] at hlength
      omega
    · rw [← hbytes]
      exact nil_mem_tail_segments (by rw [segments, if_pos rfl]; rfl)
  case noTrailing =>
    intro hlast
    obtain ⟨x, hbytes⟩ := List.getLast?_eq_some_iff.mp hlast
    by_contra hroot
    refine nil_not_mem_tail_segments hroot ?_
    rw [hbytes]
    exact nil_mem_tail_segments rfl
  case climbs =>
    obtain ⟨n, names, hshape⟩ := (folded_fold p).shape
    rw [List.reverse_reverse, ← components_normalize] at hshape
    refine ⟨n, names, ?_⟩
    rcases hshape with hshape | hshape
    · have habs := root_mem_components.mp (hshape ▸ List.mem_cons_self)
      rw [hshape, if_pos habs]
      rfl
    · have hrelative : ¬p.normalize.isAbsolute = true := by
        rw [← root_mem_components, hshape]
        simp
      rw [hshape, if_neg hrelative]

/-! ### Paths that stay as they are -/

theorem joinSegments_concat {ss : List Bytes} (h : ss ≠ []) (s : Bytes) :
    joinSegments (ss ++ [s]) = joinSegments ss ++ slash :: s := by
  induction ss with
  | nil => exact absurd rfl h
  | cons t ss ih =>
    cases ss with
    | nil => rfl
    | cons u ss =>
      have hjoin (r : List Bytes) : joinSegments (t :: u :: r) =
          t ++ slash :: joinSegments (u :: r) := rfl
      rw [List.cons_append, List.cons_append, hjoin, hjoin, ← List.cons_append, ih (by simp)]
      simp

theorem joinSegments_segments (x : Bytes) : joinSegments (segments x) = x := by
  induction x with
  | nil => rfl
  | cons b x ih =>
    obtain ⟨s, ss, hsegments⟩ := List.exists_cons_of_ne_nil (segments_ne_nil x)
    rw [hsegments] at ih
    rw [segments, hsegments]
    split_ifs with hb
    · rw [joinSegments, ih, hb, List.nil_append]
      exact List.cons_ne_nil s ss
    · cases ss with
      | nil => exact congrArg _ ih
      | cons t ss => exact congrArg _ ih

/-- An empty segment stands first, or a slash is in front of it and another one or nothing behind
it. -/
theorem doubled_or_trailing {x : Bytes} (h : [] ∈ (segments x).tail) :
    x.getLast? = some slash ∨ [slash, slash] <:+: x := by
  induction x with
  | nil => cases h
  | cons b x ih =>
    -- what holds of the path behind a byte holds of the whole path
    have hback (hx : x.getLast? = some slash ∨ [slash, slash] <:+: x) :
        (b :: x).getLast? = some slash ∨ [slash, slash] <:+: b :: x := by
      refine hx.imp (fun hlast => ?_) fun hinfix => hinfix.trans (List.suffix_cons b x).isInfix
      obtain ⟨y, rfl⟩ := List.getLast?_eq_some_iff.mp hlast
      rw [← List.cons_append, List.getLast?_concat]
    rw [segments] at h
    split_ifs at h with hb
    · subst hb
      cases x with
      | nil => exact .inl rfl
      | cons c x =>
        by_cases hc : c = slash
        · subst hc
          exact .inr ⟨[], x, rfl⟩
        · refine hback (ih ?_)
          rw [List.tail_cons, segments, if_neg hc] at h
          rw [segments, if_neg hc]
          split at h
          · simp at h
          · simpa using h
    · refine hback (ih ?_)
      split at h
      · next hnil => exact absurd hnil (segments_ne_nil x)
      · next s ss hsegments =>
        rw [hsegments]
        exact h

theorem components_slash_cons (y : Bytes) : components ⟨slash :: y⟩ = .root :: steps ⟨y⟩ := by
  rw [components, segments, if_pos rfl]
  rfl

/-- Segments that all stand for steps are the spellings of these. -/
theorem map_bytes_steps {x : Bytes} (h : ∀ s ∈ segments x, s ≠ [] ∧ s ≠ [dot]) :
    (steps ⟨x⟩).map Component.bytes = segments x := by
  have hsegment : ∀ s ∈ segments x, (Component.ofSegment? s).map Component.bytes = some s := by
    intro s hs
    rw [Component.ofSegment?, if_neg (h s hs).1, if_neg (h s hs).2]
    split_ifs with hdots
    · rw [hdots]
      rfl
    · rfl
  rw [steps, List.map_filterMap, List.filterMap_congr hsegment, List.filterMap_some]

theorem Canonical.folded {p : Path} (h : Canonical p) : Folded p.components.reverse := by
  have hnames : ∀ (names : List Bytes) {front : List Component}, Folded front.reverse →
      Folded (front ++ names.map Component.name).reverse := by
    intro names
    induction names with
    | nil => simp
    | cons s names ih =>
      intro front hfront
      have hstep : Folded (front ++ [Component.name s]).reverse := by simpa using hfront.name s
      simpa using ih hstep
  obtain ⟨n, names, hcomponents⟩ := h.climbs
  rw [hcomponents]
  refine hnames names ?_
  split_ifs
  · exact .root
  · simpa using .climb n

/-- No segment of a canonical path but the one in front of the root is idle. -/
theorem Canonical.idle {p : Path} (h : Canonical p) (hroot : p.bytes ≠ [slash]) :
    ∀ s ∈ (segments p.bytes).tail, s ≠ [] ∧ s ≠ [dot] := by
  refine fun s hs => ⟨?_, ?_⟩
  · rintro rfl
    exact (doubled_or_trailing hs).elim (fun hlast => hroot (h.noTrailing hlast)) h.noDoubled
  · rintro rfl
    exact h.noDot (List.mem_of_mem_tail hs)

/-- A canonical path is the plainest spelling of its steps. -/
theorem Canonical.ofComponents_eq {p : Path} (h : Canonical p) : ofComponents p.components = p := by
  obtain ⟨_ | ⟨b, x⟩⟩ := p
  · rfl
  by_cases hb : b = slash
  · subst hb
    rw [components_slash_cons, ofComponents]
    by_cases hx : x = []
    · subst hx
      rfl
    · have hidle := h.idle (by simpa using hx)
      rw [Path.segments, if_pos rfl, List.tail_cons] at hidle
      rw [map_bytes_steps hidle, joinSegments_segments]
  · obtain ⟨s, ss, hsegments⟩ := List.exists_cons_of_ne_nil (segments_ne_nil x)
    have hfirst : segments (b :: x) = (b :: s) :: ss := by
      rw [segments, if_neg hb, hsegments]
    have hdot : b :: s ≠ [dot] := fun hs => h.noDot (by rw [hfirst, hs]; exact List.mem_cons_self)
    have hcomponents : components ⟨b :: x⟩ = steps ⟨b :: x⟩ := by
      rw [components, isAbsolute, hfirst, List.head?_cons, List.head?_cons]
      simp [hb, hdot, steps, hfirst]
    have hidle : ∀ s ∈ segments (b :: x), s ≠ [] ∧ s ≠ [dot] := by
      have htail := h.idle (by simp [hb])
      rw [hfirst, List.tail_cons] at htail
      rw [hfirst]
      exact List.forall_mem_cons.mpr ⟨⟨List.cons_ne_nil _ _, hdot⟩, htail⟩
    rw [hcomponents, ofComponents_relative (forall_steps _), map_bytes_steps hidle,
      joinSegments_segments]

theorem Canonical.normalize_eq {p : Path} (h : Canonical p) : p.normalize = p := by
  rw [normalize, h.folded.fold, h.ofComponents_eq]

/-- Without steps up, only steps in place are left out. -/
theorem fold_eq_filter {cs : List Component} (h : .parent ∉ cs) :
    fold cs = cs.filter (· != .current) := by
  have hfoldl : ∀ {cs steps : List Component}, .parent ∉ cs →
      (cs.foldl foldStep steps).reverse = steps.reverse ++ cs.filter (· != .current) := by
    intro cs
    induction cs with
    | nil => simp
    | cons c cs ih =>
      intro steps hparent
      rw [List.mem_cons, not_or] at hparent
      rw [List.foldl_cons, ih hparent.2]
      cases c with
      | parent => exact absurd rfl hparent.1
      | current => rfl
      | root | name s => simp [foldStep]
  exact hfoldl h

/-! ### Joining -/

theorem fold_append (xs ys : List Component) :
    fold (xs ++ ys) = (ys.foldl foldStep (fold xs).reverse).reverse := by
  rw [fold, fold, List.foldl_append, List.reverse_reverse]

/-- A step in place that begins a relative path does not count. -/
theorem foldl_components {p : Path} (h : p.isAbsolute = false) (done : List Component) :
    p.components.foldl foldStep done = p.steps.foldl foldStep done := by
  unfold components
  dsimp only
  rw [if_neg (by simp [h])]
  split_ifs <;> rfl

/-- To what is joined to a directory its folded steps are as good as its own. -/
theorem fold_join {a b : Path} (hb : b.isAbsolute = false) :
    fold (a.join b).components = fold (a.components ++ b.steps) := by
  by_cases ha : a.bytes = []
  · have hjoin : a.join b = b := by
      rw [join, hb, ha]
      rfl
    obtain ⟨bytes⟩ := a
    subst ha
    rw [hjoin, fold, foldl_components hb]
    rfl
  · rw [components_join ha hb]

theorem normalize_join (a b : Path) : (a.join b).normalize = (a.normalize.join b).normalize := by
  cases hb : b.isAbsolute with
  | true => rw [join, join, hb]; rfl
  | false =>
    rw [normalize, fold_join hb, normalize.eq_def (a.normalize.join b), fold_join hb,
      components_normalize, fold_append, fold_append, (folded_fold a).fold]

end StubLoader.Path
