import Mathlib.Data.List.Forall2
import StubLoader.Proofs.Command.Batch
import StubLoader.Proofs.Json.LastWins
import StubLoader.Proofs.Path.Targets
/-!
# The files of a batch

Each artifact of a batch is written at its module path below the output directory. Different module
paths are different names there, so an artifact is overwritten by a later one of the same module
path and by nothing else: in the end a file holds the last artifact that was written to it.
-/

namespace StubLoader

open StubLoader.Path Session

/-! ### Worlds with files -/

namespace World

variable {σ : Type} (w : World (StateM σ))

/-- The path can be read from, and if it leads to a file then that file holds just the bytes. -/
def Holds (s : σ) (p : Path) (bytes : Bytes) : Prop :=
  ∃ held, ((w.load p).run s).1 = .ok held ∧ (((w.isFile p).run s).1 = true → held = bytes)

/-- The files of the world are what was last written to them. No two names below one directory lead
to the same file. -/
structure KeepsFiles : Prop where
  store : ∀ {p : Path} {bytes : Bytes} {s t : σ}, (w.store p bytes).run s = (.ok (), t) →
    w.Holds t p bytes
  store_apart : ∀ {p q : Path} {directory : List Component} {names names' : List String}
    {bytes held : Bytes} {s t : σ}, p.components = directory ++ named names →
    q.components = directory ++ named names' → names ≠ names' →
    (w.store p bytes).run s = (.ok (), t) → w.Holds s q held → w.Holds t q held
  makeDirectories : ∀ {p q : Path} {held : Bytes} {s : σ}, w.Holds s q held →
    w.Holds ((w.makeDirectories p).run s).2 q held
  print : ∀ {q : Path} {bytes held : Bytes} {s : σ}, w.Holds s q held →
    w.Holds ((w.print bytes).run s).2 q held
  printError : ∀ {q : Path} {bytes held : Bytes} {s : σ}, w.Holds s q held →
    w.Holds ((w.printError bytes).run s).2 q held

end World

/-! ### Deliveries one after the other -/

namespace Session

variable {σ : Type} {s : Session (StateM σ)} {u t : σ}

theorem goes_attempt_eq_ok {α : Type} {what : String} {step : StateM σ (Except IoError α)} {a : α}
    (h : (World.attempt what step).goes u = (.ok a, t)) : step.run u = (.ok a, t) := by
  rw [goes_attempt_eq] at h
  rcases hrun : step.run u with ⟨e | b, v⟩
  · rw [hrun] at h
    cases h
  · rw [hrun] at h
    cases h
    rfl

/-- An artifact that is written is written to a file whose directory may have been made before. -/
theorem goes_store_eq_ok {path : Path} {artifact : Bytes}
    (h : (s.store path artifact).goes u = (.ok (), t)) : ∃ v,
      (v = u ∨ ∃ parent, v = ((s.world.makeDirectories parent).run u).2) ∧
      (s.world.store path artifact).run v = (.ok (), t) := by
  unfold store at h
  split at h
  · next parent _ =>
    obtain ⟨⟨⟩, v, hmade, h⟩ := goes_bind_eq_ok h
    refine ⟨v, .inr ⟨parent, ?_⟩, goes_attempt_eq_ok h⟩
    rw [goes_attempt_eq_ok hmade]
  · exact ⟨u, .inl rfl, goes_attempt_eq_ok h⟩

/-- What a file held that the store did not go to, it still holds. -/
theorem holds_after_store {p q : Path} {directory : List Component} {names names' : List String}
    {artifact held : Bytes} (hheld : s.world.Holds u q held) (hfiles : s.world.KeepsFiles)
    (hp : p.components = directory ++ named names) (hq : q.components = directory ++ named names')
    (hne : names ≠ names') (h : (s.store p artifact).goes u = (.ok (), t)) :
    s.world.Holds t q held := by
  obtain ⟨v, hmade, hstored⟩ := goes_store_eq_ok h
  refine hfiles.store_apart hp hq hne hstored ?_
  rcases hmade with rfl | ⟨parent, rfl⟩
  · exact hheld
  · exact hfiles.makeDirectories hheld

/-- The result of a request is an artifact, which is delivered to the target of its module path. -/
structure Delivers (base outDir : Path) (pair : Request × Outcome Bytes)
    (artifact : String × Bytes) : Prop where
  modulePath : Output.modulePath base pair.1.source = .ok artifact.1
  result : pair.2 = .ok artifact.2
  delivery : Delivery.make base outDir pair.1 pair.2 =
    .ok (.write pair.1.source (Output.target outDir pair.1.mode artifact.1) artifact.2)

variable {base outDir : Path} {request : Request} {artifact : Bytes}

theorem exists_modulePath {pairs : List (Request × Outcome Bytes)}
    {artifacts : List (String × Bytes)} (h : List.Forall₂ (Delivers base outDir) pairs artifacts) :
    ∀ a ∈ artifacts, ∃ source, Output.modulePath base source = .ok a.1 := by
  intro a ha
  obtain ⟨i, hi, rfl⟩ := List.mem_iff_getElem.mp ha
  exact ⟨_, (h.get (h.length_eq ▸ hi) hi).modulePath⟩

/-- An artifact is written to the target of its module path, and then a line says from where to
where. -/
def Delivered (s : Session (StateM σ)) (outDir : Path) (mode : Mode)
    (a : Request × String × Bytes) (u t : σ) : Prop :=
  ∃ v, (s.store (Output.target outDir mode a.2.1) a.2.2).goes u = (.ok (), v) ∧
    t = ((s.world.say <| "✓ " ++ a.1.source.display ++ " → " ++
      (Output.target outDir mode a.2.1).display).run v).2

/-- When results that are artifacts are settled, each of them is delivered. -/
theorem passes_delivered {mode : Mode} {pairs : List (Request × Outcome Bytes)}
    {artifacts : List (String × Bytes)}
    (hdelivers : List.Forall₂ (Delivers base outDir) pairs artifacts)
    (hmodes : ∀ pair ∈ pairs, pair.1.mode = mode)
    (h : Passes (s.Settles base outDir) pairs u t) :
    Passes (s.Delivered outDir mode) ((pairs.map (·.1)).zip artifacts) u t := by
  induction hdelivers generalizing u with
  | nil =>
    cases h
    exact .nil _
  | @cons pair artifact pairs artifacts hdelivered _ ih =>
    obtain ⟨hmode, hmodes⟩ := List.forall_mem_cons.mp hmodes
    obtain _ | ⟨hsettles, hrest⟩ := h
    refine .cons ?_ (ih hmodes hrest)
    cases hsettles with
    | told request failure => cases hdelivered.result
    | written hmodule hstore =>
      cases hdelivered.result
      cases hmodule.symm.trans hdelivered.modulePath
      subst hmode
      exact ⟨_, hstore, rfl⟩

/-! ### The last artifacts -/

/-- Every target holds the last of the artifacts that are delivered to it. -/
def KeepsLast (s : Session (StateM σ)) (outDir : Path) (mode : Mode)
    (artifacts : List (String × Bytes)) (u : σ) : Prop :=
  ∀ m held, Json.last? m artifacts = some held → s.world.Holds u (Output.target outDir mode m) held

variable {mode : Mode} {artifacts : List (String × Bytes)} {m : String}

/-- An artifact that is stored is the last one of its module path, and those of other module paths
are kept. -/
theorem KeepsLast.goes_store (h : s.KeepsLast outDir mode artifacts u)
    (hfiles : s.world.KeepsFiles)
    (hmodules : ∀ a ∈ artifacts, ∃ source, Output.modulePath base source = .ok a.1)
    (hmodule : Output.modulePath base request.source = .ok m)
    (hstored : (s.store (Output.target outDir mode m) artifact).goes u = (.ok (), t)) :
    s.KeepsLast outDir mode (artifacts ++ [(m, artifact)]) t := by
  intro m' held hlast
  rw [Json.last?_concat] at hlast
  split_ifs at hlast with hsame
  · obtain rfl := Option.some_inj.mp hlast
    rw [hsame]
    obtain ⟨v, -, hstored⟩ := goes_store_eq_ok hstored
    exact hfiles.store hstored
  · obtain ⟨source, hmodule'⟩ := hmodules _ (Json.mem_of_last? hlast)
    obtain ⟨names, names', hnames, hnames', hapart⟩ :=
      Output.exists_names_apart hmodule hmodule' (Ne.symm hsame) outDir mode
    exact holds_after_store (h m' held hlast) hfiles hnames hnames' hapart hstored

/-- The results that are artifacts have been delivered, and the last ones are kept. -/
def Settled (s : Session (StateM σ)) (base outDir : Path) (mode : Mode)
    (done : List (Request × Outcome Bytes)) (u : σ) : Prop :=
  ∃ artifacts, List.Forall₂ (Delivers base outDir) (done.filter (·.2.isOk)) artifacts ∧
    s.KeepsLast outDir mode artifacts u

section Printing

variable {done : List (Request × Outcome Bytes)} (h : s.Settled base outDir mode done u)
  (hfiles : s.world.KeepsFiles)
include h hfiles

theorem Settled.say (line : String) :
    s.Settled base outDir mode done ((s.world.say line).run u).2 := by
  obtain ⟨artifacts, hdelivers, hlast⟩ := h
  exact ⟨artifacts, hdelivers, fun m held hheld => hfiles.print (hlast m held hheld)⟩

theorem Settled.warned (warnings : List Warning) :
    s.Settled base outDir mode done (s.warned warnings u) := by
  obtain ⟨artifacts, hdelivers, hlast⟩ := h
  refine ⟨artifacts, hdelivers, fun m held hheld => ?_⟩
  have hholds := hlast m held hheld
  clear hlast
  induction warnings generalizing u with
  | nil => exact hholds
  | cons warning warnings ih => exact ih (hfiles.printError hholds)

/-- One result more. -/
theorem Settled.settles {pair : Request × Outcome Bytes} (hmode : pair.1.mode = mode)
    (hsettles : s.Settles base outDir pair u t) :
    s.Settled base outDir mode (done ++ [pair]) t := by
  cases hsettles with
  | told request failure =>
    refine Settled.say ?_ hfiles _
    rwa [Settled, List.filter_append, List.filter_singleton, Except.isOk, Except.toBool, cond_false,
      List.append_nil]
  | @written request artifact m _ v hmodule hstored =>
    obtain ⟨artifacts, hdelivers, hlast⟩ := h
    have hdelivered : Delivers base outDir (request, .ok artifact) (m, artifact) :=
      ⟨hmodule, rfl, by rw [make_artifact, hmodule]⟩
    refine Settled.say ⟨artifacts ++ [(m, artifact)], ?_, ?_⟩ hfiles _
    · rw [List.filter_append]
      exact List.rel_append hdelivers (.cons hdelivered .nil)
    · exact hlast.goes_store hfiles (exists_modulePath hdelivers) hmodule (hmode ▸ hstored)

end Printing

/-- All results, one after the other. -/
theorem Settled.passes {done pairs : List (Request × Outcome Bytes)}
    (h : s.Settled base outDir mode done u) (hfiles : s.world.KeepsFiles)
    (hmodes : ∀ pair ∈ pairs, pair.1.mode = mode)
    (hpasses : Passes (s.Settles base outDir) pairs u t) :
    s.Settled base outDir mode (done ++ pairs) t := by
  induction hpasses generalizing done with
  | nil u => rwa [List.append_nil]
  | @cons pair pairs u v t hsettles _ ih =>
    obtain ⟨hmode, hmodes⟩ := List.forall_mem_cons.mp hmodes
    have hrest := ih (h.settles hfiles hmode hsettles) hmodes
    rwa [List.append_assoc] at hrest

end Session

end StubLoader
