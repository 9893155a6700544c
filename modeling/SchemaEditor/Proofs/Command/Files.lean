import SchemaEditor.Command.DatabasePath

/-!
# What becomes of a file

A file is left alone by what is written elsewhere. Directories that are made for it do not come in its way, so the place of a
database stays where it was.
-/

namespace SchemaEditor.Command.Files

variable {φ : Type} {f f' : Files φ} {l : Location} {path : String}

/-! ## Contents -/

theorem content?_put (f : Files φ) (l : Location) (c : Content φ) : (f.put l c).content? l = some c := by
  unfold put
  by_cases hfile : f.isFile l = true
  · rw [if_pos hfile]
    obtain ⟨old, hold⟩ := Option.isSome_iff_exists.mp hfile
    unfold content? at hold ⊢
    generalize f.files = files at hold
    induction files with
    | nil => simp at hold
    | cons file files ih =>
      obtain ⟨at', content⟩ := file
      rw [List.map_cons]
      by_cases hat : at' = l
      · simp [hat]
      · have hother : (l == at') = false := by simpa using fun h => hat h.symm
        rw [if_neg hat, List.lookup_cons, hother]
        rw [List.lookup_cons, hother] at hold
        exact ih hold
  · rw [if_neg hfile]
    have hnone : f.files.lookup l = none := Option.not_isSome_iff_eq_none.mp hfile
    simp [content?, List.lookup_append, hnone]

theorem content?_put_of_ne {other : Location} (h : other ≠ l) (c : Content φ) : (f.put other c).content? l = f.content? l := by
  have hother : (l == other) = false := by simpa using h.symm
  unfold put
  split
  · unfold content?
    induction f.files with
    | nil => rfl
    | cons file files ih =>
      obtain ⟨at', content⟩ := file
      rw [List.map_cons]
      by_cases hat : at' = other
      · subst hat
        rw [if_pos rfl, List.lookup_cons, List.lookup_cons, hother, ih]
      · rw [if_neg hat, List.lookup_cons, List.lookup_cons, ih]
  · have hnone : [(other, c)].lookup l = none := by rw [List.lookup_cons, hother, List.lookup_nil]
    rw [content?, List.lookup_append, hnone, Option.or_none]
    rfl

theorem isDirectory_put (f : Files φ) (l : Location) (c : Content φ) : (f.put l c).isDirectory = f.isDirectory := by
  unfold put
  split <;> rfl

theorem here_put (f : Files φ) (l : Location) (c : Content φ) : (f.put l c).here = f.here := by
  unfold put
  split <;> rfl

/-! ## Leaving a file alone -/

/-- There may be other files and more directories, but nothing has become of a file. -/
structure Leaves (l : Location) (f f' : Files φ) : Prop where
  here : f'.here = f.here
  directories {other : Location} : f.isDirectory other = true → f'.isDirectory other = true
  file : f.isFile l = true → f.isDirectory l = false → f'.content? l = f.content? l ∧ f'.isDirectory l = false

theorem Leaves.refl (l : Location) (f : Files φ) : f.Leaves l f := ⟨rfl, id, fun _ h => ⟨rfl, h⟩⟩

theorem Leaves.isFile (h : Leaves l f f') (hfile : f.isFile l = true) (hl : f.isDirectory l = false) : f'.isFile l = true := by
  rw [Files.isFile, (h.file hfile hl).1]
  exact hfile

theorem Leaves.trans {f'' : Files φ} (h : Leaves l f f') (h' : Leaves l f' f'') : Leaves l f f'' where
  here := h'.here.trans h.here
  directories hother := h'.directories (h.directories hother)
  file hfile hl := by
    have hcontent := h.file hfile hl
    have hcontent' := h'.file (h.isFile hfile hl) hcontent.2
    exact ⟨hcontent'.1.trans hcontent.1, hcontent'.2⟩

theorem leaves_put {other : Location} (h : other ≠ l) (c : Content φ) : Leaves l f (f.put other c) where
  here := here_put f other c
  directories hother := by rwa [isDirectory_put]
  file _ hl := ⟨content?_put_of_ne h c, by rwa [isDirectory_put]⟩

/-! ## Where paths lead -/

/-- The location that a step names. -/
def named (l : Location) (s : String) : Location := if s = ".." then l.dropLast else if isName s then l ++ [s] else l

theorem nominal_eq (f : Files φ) (path : String) : f.nominal path = (steps path).foldl named (f.start path) := rfl

theorem nominal_of_here (h : f'.here = f.here) (path : String) : f'.nominal path = f.nominal path := by
  rw [nominal_eq, nominal_eq, start, start, h]

theorem named_of_member {name : String} {l' : Location} (h : member l name = .ok l') (hname : isName name = true) : l' = named l name := by
  have hup : name ≠ ".." := by
    rintro rfl
    exact absurd hname (by decide)
  unfold member at h
  split at h
  · cases h
  · cases h
    rw [named, if_neg hup, if_pos hname]

theorem named_of_step {s : String} {l' : Location} (h : f.step l s = .ok l') : l' = named l s := by
  unfold step at h
  by_cases hup : s = ".."
  · rw [if_pos hup] at h
    cases h
    rw [named, if_pos hup]
  rw [if_neg hup] at h
  by_cases hname : isName s = true
  · rw [if_neg (by simp [hname])] at h
    cases hmember : member l s with
    | error e => rw [hmember] at h; cases h
    | ok m =>
      rw [hmember] at h
      dsimp only [bind, Except.bind] at h
      have hm : m = named l s := named_of_member hmember hname
      rw [← hm]
      split at h
      · cases h; rfl
      · split at h <;> cases h
  · rw [if_pos (by simpa using hname)] at h
    cases h
    rw [named, if_neg hup, if_neg hname]

theorem named_of_foldlM {ss : List String} {l' : Location} (h : ss.foldlM f.step l = .ok l') : l' = ss.foldl named l := by
  induction ss generalizing l with
  | nil => cases h; rfl
  | cons s ss ih =>
    rw [List.foldlM_cons] at h
    cases hstep : f.step l s with
    | error e => rw [hstep] at h; cases h
    | ok m =>
      rw [hstep] at h
      rw [List.foldl_cons, ← named_of_step hstep]
      exact ih h

/-- A path that ends in a name has no steps without names at its end. -/
theorem steps_of_isName (h : isName ((steps path).getLastD "") = true) :
    namedSteps path = steps path ∧ steps path = (steps path).dropLast ++ [(steps path).getLastD ""] := by
  have hlast : (steps path).getLastD "" ≠ "" := by
    intro hlast
    rw [hlast] at h
    exact absurd h (by decide)
  rcases List.eq_nil_or_concat (steps path) with hnil | ⟨front, last, hsteps⟩
  · rw [hnil] at hlast
    exact absurd rfl hlast
  · rw [hsteps] at hlast
    have hne : last ≠ "" := by simpa using hlast
    simp [namedSteps, hsteps, hne]

/-- Something is written only where its path leads by its names. -/
theorem nominal_of_writable (h : f.writable path = .ok l) : l = f.nominal path := by
  unfold writable walk at h
  cases hwalk : (namedSteps path).dropLast.foldlM f.step (f.start path) with
  | error e => rw [hwalk] at h; cases h
  | ok around =>
    rw [hwalk] at h
    dsimp only [bind, Except.bind] at h
    split at h
    · cases h
    · next hname =>
      have hname : isName ((steps path).getLastD "") = true := by simpa using hname
      obtain ⟨hnamed, hsteps⟩ := steps_of_isName hname
      cases hmember : member around ((steps path).getLastD "") with
      | error e => rw [hmember] at h; cases h
      | ok m =>
        rw [hmember] at h
        dsimp only at h
        split at h
        · cases h
        · cases h
          have hfold := (congrArg (List.foldl named (f.start path)) hsteps).trans List.foldl_append
          rw [named_of_member hmember hname, named_of_foldlM hwalk, hnamed, nominal_eq]
          exact hfold.symm

/-! ## Writing -/

theorem leaves_makeDirectory (h : f.makeDirectory path = .ok f') (l : Location) : Leaves l f f' := by
  unfold makeDirectory at h
  dsimp only at h
  cases hwalk : f.walk path (namedSteps path).dropLast with
  | error e => rw [hwalk] at h; cases h
  | ok around =>
    rw [hwalk] at h
    dsimp only [bind, Except.bind] at h
    split at h
    · cases h
    cases hmember : member around ((namedSteps path).getLastD "") with
    | error e => rw [hmember] at h; cases h
    | ok made =>
      rw [hmember] at h
      dsimp only at h
      split at h
      · cases h
      · next hfree =>
        cases h
        refine ⟨rfl, fun hother => ?_, fun hfile hl => ⟨rfl, ?_⟩⟩
        · simp only [isDirectory, Bool.or_eq_true, List.contains_eq_mem, List.mem_append, decide_eq_true_eq] at hother ⊢
          exact hother.imp id .inl
        · -- where a file is, no directory is made
          have hne : l ≠ made := fun hmade => hfree (by simp [← hmade, hfile])
          simpa [isDirectory, hne] using hl

/-- Writing leaves a file alone, also when it fails. -/
def LeavesFile (l : Location) (f : Files φ) {α : Type} (op : EStateM FileError (Files φ) α) : Prop :=
  match op f with
  | .ok _ f' => Leaves l f f'
  | .error _ f' => Leaves l f f'

theorem LeavesFile.bind {α β : Type} {op : EStateM FileError (Files φ) α} {next : α → EStateM FileError (Files φ) β}
    (h : LeavesFile l f op) (hnext : ∀ a f', op f = .ok a f' → Leaves l f f' → LeavesFile l f' (next a)) : LeavesFile l f (op >>= next) := by
  unfold LeavesFile at h
  show match EStateM.bind op next f with | .ok _ f' => Leaves l f f' | .error _ f' => Leaves l f f'
  unfold EStateM.bind
  cases hrun : op f with
  | error e f' => rw [hrun] at h; exact h
  | ok a f' =>
    rw [hrun] at h
    have hrest := hnext a f' hrun h
    unfold LeavesFile at hrest
    dsimp only
    cases hdone : next a f' with
    | ok b f'' => rw [hdone] at hrest; exact h.trans hrest
    | error e f'' => rw [hdone] at hrest; exact h.trans hrest

theorem leavesFile_get (l : Location) (f : Files φ) : LeavesFile l f (get : EStateM FileError (Files φ) (Files φ)) := .refl l f

theorem leavesFile_ensureDirectory (f : Files φ) (path : String) : LeavesFile l f (ensureDirectory path) := by
  have hsame : Leaves l f f := .refl l f
  unfold LeavesFile ensureDirectory
  cases hmake : f.makeDirectory path with
  | ok f' => exact leaves_makeDirectory hmake l
  | error e => cases (f.walk path (steps path)).isOk <;> exact hsame

theorem leavesFile_ensureDirectories (f : Files φ) (ss : List String) : LeavesFile l f (ensureDirectories ss) := by
  induction ss generalizing f with
  | nil => exact .refl l f
  | cons s outer ih =>
    have hlast (f : Files φ) := leavesFile_ensureDirectory (l := l) f ("/".intercalate (s :: outer).reverse)
    unfold ensureDirectories
    refine (leavesFile_get l f).bind fun files f _ _ => ?_
    split
    · exact (ih f).bind fun _ f _ _ => hlast f
    · exact hlast f

/-- Saving a file leaves the others alone. -/
theorem leavesFile_save (hne : f.nominal path ≠ l) (text : String) : LeavesFile l f (save path text) := by
  unfold save
  refine (leavesFile_ensureDirectories f _).bind fun _ f₁ _ h₁ => (leavesFile_get l f₁).bind ?_
  intro files f₂ hget _
  cases hget
  cases hwritable : f₁.writable path with
  | error e => exact .refl l f₁
  | ok other =>
    have hother : other = f.nominal path := (nominal_of_writable hwritable).trans (nominal_of_here h₁.here path)
    exact leaves_put (hother ▸ hne) _

/-! ## The place of a database -/

/-- What is found in a file. -/
theorem databaseAt_file (f : Files φ) (l : Location) (readOnly : Bool) : f.databaseAt (.file l readOnly) =
    match f.content? l with
    | none => .missing
    | some (.bytes bytes) => .bytes bytes
    | some (.database content) => .database content :=
  rfl

theorem placeOfPath_eq_file {readOnly : Bool} (h : f.placeOfPath path = .file l readOnly) :
    path ≠ "" ∧ path ≠ ":memory:" ∧ l = f.nominal path ∧ f.isDirectory l.dropLast = true ∧ f.isDirectory l = false ∧ readOnly = false := by
  unfold placeOfPath at h
  split at h
  · cases h
  · next hpath =>
    dsimp only at h
    split at h
    · next hthere =>
      cases h
      have hdirectories := Bool.and_eq_true_iff.mp hthere
      exact ⟨fun h => hpath (.inl h), fun h => hpath (.inr h), rfl, hdirectories.1, by simpa using hdirectories.2, rfl⟩
    · cases h

/-- The place of a database stays where it is if no directory comes in its way. -/
theorem placeOfPath_of_file {readOnly : Bool} (h : f.placeOfPath path = .file l readOnly) (hhere : f'.here = f.here)
    (hdirectories : ∀ other, f.isDirectory other = true → f'.isDirectory other = true) (hl : f'.isDirectory l = false) :
    f'.placeOfPath path = .file l readOnly := by
  obtain ⟨hempty, hmemory, hnominal, haround, -, rfl⟩ := placeOfPath_eq_file h
  have hplace : f'.nominal path = l := (nominal_of_here hhere path).trans hnominal.symm
  unfold placeOfPath
  rw [if_neg (by simp [hempty, hmemory]), hplace]
  simp [hdirectories _ haround, hl]

/-- What a locator says to be in a file is in the file that its path leads to. -/
theorem placeOfPath_of_locator {u : Locator} {readOnly : Bool} (h : f.placeOfLocator u = .file l readOnly) :
    f.placeOfPath u.path = .file l false := by
  unfold placeOfLocator at h
  dsimp only at h
  split at h
  · cases h
  · next location _ _ hpath =>
    split at h
    · cases h
    · split at h
      · cases h
        exact (placeOfPath_eq_file hpath).2.2.2.2.2 ▸ hpath
      · cases h
  · next hother =>
    split at h
    · cases h
    · exact absurd h (hother l readOnly)

/-- The same for a locator, if a file is there. -/
theorem placeOfLocator_of_file {u : Locator} {readOnly : Bool} (h : f.placeOfLocator u = .file l readOnly) (hhere : f'.here = f.here)
    (hdirectories : ∀ other, f.isDirectory other = true → f'.isDirectory other = true) (hl : f'.isDirectory l = false)
    (hfile : f'.isFile l = true) : f'.placeOfLocator u = .file l readOnly := by
  have hpath := placeOfPath_of_locator h
  have hpath' := placeOfPath_of_file hpath hhere hdirectories hl
  unfold placeOfLocator at h ⊢
  rw [hpath] at h
  rw [hpath']
  dsimp only at h ⊢
  cases hoptions : u.options.forM fun o => Locator.checkOption o.1 o.2 with
  | error e => simp [hoptions] at h
  | ok =>
    rw [hoptions] at h
    dsimp only at h ⊢
    split at h
    · cases h
    · next hmode =>
      rw [if_neg hmode, hfile, Bool.or_true, if_pos rfl]
      split at h
      · exact h
      · cases h

theorem not_isDirectory_of_place {readOnly : Bool} (h : f.place path = .file l readOnly) : f.isDirectory l = false := by
  unfold place at h
  split at h
  · split at h
    · exact (placeOfPath_eq_file (placeOfPath_of_locator h)).2.2.2.2.1
    · cases h
  · exact (placeOfPath_eq_file h).2.2.2.2.1

theorem place_of_file {readOnly : Bool} (h : f.place path = .file l readOnly) (hhere : f'.here = f.here)
    (hdirectories : ∀ other, f.isDirectory other = true → f'.isDirectory other = true) (hl : f'.isDirectory l = false)
    (hfile : f'.isFile l = true) : f'.place path = .file l readOnly := by
  unfold place at h ⊢
  split
  · next hlocator =>
    rw [if_pos hlocator] at h
    split at h
    · exact placeOfLocator_of_file h hhere hdirectories hl hfile
    · cases h
  · next hplain =>
    rw [if_neg hplain] at h
    exact placeOfPath_of_file h hhere hdirectories hl

theorem Leaves.place {readOnly : Bool} (h : f.place path = .file l readOnly) (hfile : f.isFile l = true) (hleaves : Leaves l f f') :
    f'.place path = .file l readOnly :=
  place_of_file h hleaves.here (fun _ => hleaves.directories) (hleaves.file hfile (not_isDirectory_of_place h)).2
    (hleaves.isFile hfile (not_isDirectory_of_place h))

end SchemaEditor.Command.Files
