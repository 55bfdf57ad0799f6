/-
ImportChain.Proofs.Files.Candidates — a lookup takes the first candidate
that is a file.

A file for a place may stand at many places: at the place itself, with an
extension after it, at what the manifest of a directory names, or at
`index`. `candidates` lists all of them in the order in which they count.
The search goes through them part by part, and what it finds is the first
file of that list (`place?_eq_find?`): a part without a file lets the next
one have its turn, whichever it is.

`atPlace_first_candidate` is the main statement.
-/
import ImportChain.Files.Search
import ImportChain.Files.Tree
import ImportChain.Proofs.Files.Manifest

namespace ImportChain

/-- A disk on which every file has a canonical location. -/
def View.CanonicalFiles (v : View) : Prop :=
  ∀ place, v.isFile place = true → ∃ file, v.canonical? place = some file

/-- So it is on every disk held in memory, whatever links there are. -/
theorem Tree.canonicalFiles_view (t : Tree) : t.view.CanonicalFiles := by
  intro place hfile
  simp only [view, at?] at hfile ⊢
  cases hlocate : t.locate place with
  | none => simp [hlocate] at hfile
  | some trail => exact ⟨_, rfl⟩

/-- The first of some places that is a file. -/
def View.FirstFile (v : View) (places : List String) (file : String) : Prop :=
  Earliest (fun place => v.isFile place = true) places file

theorem View.find?_isFile_eq_some_iff {v : View} {places : List String} {file : String} :
    places.find? v.isFile = some file ↔ v.FirstFile places file :=
  find?_eq_some_iff_earliest

namespace Search

/-! ## Candidates -/

/-- A place, and then the place with each extension. -/
def variants (l : Lookup) (place : String) : List String := place :: l.extensions.map (place ++ ·)

/-- What the manifest of a directory names, main field by main field. A field
that is missing or holds no text names nothing. -/
def mainEntries (v : View) (l : Lookup) (dir : String) : List String :=
  match Manifest.read? v (Manifest.location dir) with
  | some manifest => l.mainFields.filterMap fun field => (manifest.field? field).bind Json.str?
  | none => []

/-- Where the file that an entry names may be. -/
def entryCandidates (l : Lookup) (dir entry : String) : List String :=
  let place := Location.join dir entry
  variants l place ++ variants l (Location.join place "index")

/-- Where the file that stands for a directory may be. -/
def directoryCandidates (v : View) (l : Lookup) (dir : String) : List String :=
  (mainEntries v l dir).flatMap (entryCandidates l dir) ++ variants l (Location.join dir "index")

/-- Where the file for a place may be, the first choice first. -/
def candidates (v : View) (l : Lookup) (place : String) : List String :=
  variants l place ++ if v.isDir place then directoryCandidates v l place else []

variable {v : View} {l : Lookup} {place : String} {found : Found}

theorem fileAt?_eq_find? (v : View) (l : Lookup) (place : String) :
    fileAt? v l place = (variants l place).find? v.isFile := by
  unfold fileAt? variants
  rw [List.find?_cons]
  cases v.isFile place <;> rfl

theorem entryAt?_eq_find? (v : View) (l : Lookup) (dir entry : String) :
    entryAt? v l (Location.join dir entry) = (entryCandidates l dir entry).find? v.isFile := by
  unfold entryAt? entryCandidates
  rw [List.find?_append, fileAt?_eq_find?, fileAt?_eq_find?]

theorem mainFile?_eq_find? (v : View) (l : Lookup) (dir : String) :
    mainFile? v l dir
      = ((mainEntries v l dir).flatMap (entryCandidates l dir)).find? v.isFile := by
  unfold mainFile? mainEntries
  cases Manifest.read? v (Manifest.location dir) with
  | none => rfl
  | some manifest =>
    simp only [List.find?_flatMap]
    rw [← List.head?_filterMap, ← List.head?_filterMap, List.filterMap_filterMap]
    congr 2
    funext field
    cases (manifest.field? field).bind Json.str? with
    | none => rfl
    | some entry => exact entryAt?_eq_find? v l dir entry

theorem directoryFile?_eq_find? (v : View) (l : Lookup) (dir : String) :
    directoryFile? v l dir = (directoryCandidates v l dir).find? v.isFile := by
  unfold directoryFile? directoryCandidates
  rw [List.find?_append, mainFile?_eq_find?, fileAt?_eq_find?]

/-- The file for a place is the first candidate that is a file. -/
theorem place?_eq_find? (v : View) (l : Lookup) (place : String) :
    place? v l place = (candidates v l place).find? v.isFile := by
  unfold place? candidates
  rw [List.find?_append, fileAt?_eq_find?, directoryFile?_eq_find?]
  cases (variants l place).find? v.isFile with
  | some file => rfl
  | none => cases v.isDir place <;> rfl

/-! ## What a file gives -/

/-- The nearest manifest of a file leaves it out. -/
def LeftOut (v : View) (file : String) : Prop :=
  ∃ dir owner, Location.parent? file = some dir ∧ Manifest.Nearest v dir owner
    ∧ Manifest.LeavesOut v (Manifest.location owner) file

theorem isLeftOut_iff {file : String} : isLeftOut v file = true ↔ LeftOut v file := by
  have hany : isLeftOut v file = (Location.parent? file).any fun dir =>
      (Manifest.nearest? v dir).any fun manifest => Manifest.leavesOutFile v manifest file := by
    unfold isLeftOut
    cases Location.parent? file with
    | none => rfl
    | some dir =>
      rw [Option.bind_some, Option.any_some]
      cases Manifest.nearest? v dir <;> rfl
  unfold LeftOut
  rw [hany, Option.any_eq_true]
  simp only [Manifest.any_nearest?_iff, Manifest.leavesOutFile_iff, exists_and_left]

/-- What the file at a place gives: its canonical location, unless `browser`
maps count and leave it out. -/
inductive Gives (v : View) (l : Lookup) (place : String) : Found → Prop where
  | file {file : String} (canonical : v.canonical? place = some file)
    (kept : ¬ (l.browserMaps = true ∧ LeftOut v file)) : Gives v l place (.file file)
  | ignored {file : String} (canonical : v.canonical? place = some file)
    (honored : l.browserMaps = true) (left : LeftOut v file) : Gives v l place .ignored

theorem settle_eq_ok_iff : settle v l place = .ok found ↔ Gives v l place found := by
  unfold settle
  cases hcanonical : v.canonical? place with
  | none =>
    simp only [reduceCtorEq, false_iff]
    rintro (⟨h, -⟩ | ⟨h, -, -⟩) <;> rw [hcanonical] at h <;> cases h
  | some file =>
    have hleft : (l.browserMaps && isLeftOut v file) = true
        ↔ l.browserMaps = true ∧ LeftOut v file := by
      rw [Bool.and_eq_true, isLeftOut_iff]
    by_cases h : l.browserMaps = true ∧ LeftOut v file
    · simp only [if_pos (hleft.2 h), Except.ok.injEq]
      constructor
      · rintro rfl
        exact .ignored hcanonical h.1 h.2
      · rintro (⟨hfile, hkept⟩ | -)
        · cases hcanonical.symm.trans hfile
          exact absurd h hkept
        · rfl
    · simp only [if_neg (mt hleft.1 h), Except.ok.injEq]
      constructor
      · rintro rfl
        exact .file hcanonical h
      · rintro (⟨hfile, -⟩ | ⟨hfile, honored, hout⟩)
        · cases hcanonical.symm.trans hfile
          rfl
        · cases hcanonical.symm.trans hfile
          exact absurd ⟨honored, hout⟩ h

theorem Gives.unique {other : Found} (h : Gives v l place found) (h' : Gives v l place other) :
    found = other :=
  Except.ok.inj ((settle_eq_ok_iff.2 h).symm.trans (settle_eq_ok_iff.2 h'))

/-- On such a disk every file gives something. -/
theorem exists_settle_eq_ok (h : v.CanonicalFiles) (hfile : v.isFile place = true) :
    ∃ found, settle v l place = .ok found := by
  obtain ⟨file, hcanonical⟩ := h place hfile
  unfold settle
  rw [hcanonical]
  exact ⟨_, rfl⟩

/-! ## What a place gives -/

theorem atPlace_eq_ok_iff :
    atPlace v l place = .ok found
      ↔ ∃ candidate, v.FirstFile (candidates v l place) candidate ∧ Gives v l candidate found := by
  unfold atPlace
  rw [place?_eq_find?]
  cases hfind : (candidates v l place).find? v.isFile with
  | none =>
    simp only [reduceCtorEq, false_iff]
    rintro ⟨candidate, hfirst, -⟩
    rw [View.find?_isFile_eq_some_iff.2 hfirst] at hfind
    cases hfind
  | some candidate =>
    simp only [settle_eq_ok_iff]
    constructor
    · exact fun h => ⟨candidate, View.find?_isFile_eq_some_iff.1 hfind, h⟩
    · rintro ⟨other, hfirst, h⟩
      rw [View.find?_isFile_eq_some_iff.2 hfirst] at hfind
      cases hfind
      exact h

theorem atPlace_eq_error_iff (h : v.CanonicalFiles) {e : SearchError} :
    atPlace v l place = .error e
      ↔ e = .noFile ∧ ∀ candidate ∈ candidates v l place, v.isFile candidate = false := by
  unfold atPlace
  rw [place?_eq_find?]
  cases hfind : (candidates v l place).find? v.isFile with
  | none =>
    have hnone : ∀ candidate ∈ candidates v l place, v.isFile candidate = false := by
      simpa using hfind
    exact ⟨fun he => ⟨(Except.error.inj he).symm, hnone⟩, fun he => congrArg _ he.1.symm⟩
  | some candidate =>
    have hfile := List.find?_some hfind
    obtain ⟨found, hfound⟩ := exists_settle_eq_ok h (l := l) hfile
    simp only [hfound, reduceCtorEq, false_iff]
    rintro ⟨-, hno⟩
    rw [hno candidate (List.mem_of_find?_eq_some hfind)] at hfile
    cases hfile

/-- **A lookup takes the first candidate that is a file.** What it answers is
what that file gives, and it fails, with one message, exactly if no
candidate is a file. -/
theorem atPlace_first_candidate (h : v.CanonicalFiles) (l : Lookup) (place : String) :
    (∀ candidate, v.FirstFile (candidates v l place) candidate →
      ∃ found, Gives v l candidate found ∧ atPlace v l place = .ok found)
    ∧ ((∃ e, atPlace v l place = .error e)
      ↔ ∀ candidate ∈ candidates v l place, v.isFile candidate = false)
    ∧ ∀ e, atPlace v l place = .error e → e.text = "File not found" := by
  refine ⟨fun candidate hfirst => ?_, ?_, fun e he => ?_⟩
  · obtain ⟨found, hfound⟩ := exists_settle_eq_ok h (l := l) hfirst.mem.2
    have hgives := settle_eq_ok_iff.1 hfound
    exact ⟨found, hgives, atPlace_eq_ok_iff.2 ⟨candidate, hfirst, hgives⟩⟩
  · simp only [atPlace_eq_error_iff h, exists_eq_left]
  · obtain ⟨rfl, -⟩ := (atPlace_eq_error_iff h).1 he
    rfl

end Search

/-- A disk with directories and the texts of files, all at their canonical
locations. -/
def View.ofTexts (dirs : List String) (texts : KeyMap String) : View where
  isFile place := texts.contains place
  isDir place := dirs.contains place
  read? place := texts.get? place
  canonical? place := if texts.contains place then some place else none

theorem View.canonicalFiles_ofTexts (dirs : List String) (texts : KeyMap String) :
    (ofTexts dirs texts).CanonicalFiles :=
  fun place hfile => ⟨place, if_pos hfile⟩

namespace Search

/-- A directory whose manifest has one main field that is no text, one that
leads nowhere and one that names a directory. -/
def libDisk : View :=
  .ofTexts ["/d", "/d/lib", "/d/lib/dist"]
    [("/d/lib/package.json",
        Json.canonical (.obj [("browser", .obj [("./dist/index.js", .bool false)]),
          ("module", .str "gone.js"), ("main", .str "dist")])),
      ("/d/lib/dist/index.js", ""), ("/d/lib/index.js", "")]

/-- The entry of `main` comes before the index of the directory, and counts
for loaders, which have no `browser` maps. -/
theorem atPlace_first_candidate_of_libDisk :
    libDisk.CanonicalFiles
    ∧ (∃ found, Gives libDisk (.ofOptions .normal .empty) "/d/lib/dist/index.js" found
      ∧ atPlace libDisk (.ofOptions .normal .empty) "/d/lib" = .ok found ∧ found = .ignored)
    ∧ (∃ found, Gives libDisk (.ofOptions .loader .empty) "/d/lib/dist/index.js" found
      ∧ atPlace libDisk (.ofOptions .loader .empty) "/d/lib" = .ok found
      ∧ found = .file "/d/lib/dist/index.js")
    ∧ ∃ e, atPlace libDisk (.ofOptions .normal .empty) "/d/gone" = .error e := by
  have hcanonical : libDisk.CanonicalFiles := View.canonicalFiles_ofTexts _ _
  have hnormal := atPlace_first_candidate hcanonical (.ofOptions .normal .empty) "/d/lib"
  have hloader := atPlace_first_candidate hcanonical (.ofOptions .loader .empty) "/d/lib"
  have hgone := atPlace_first_candidate hcanonical (.ofOptions .normal .empty) "/d/gone"
  obtain ⟨skipped, hskipped, hanswer⟩ :=
    hnormal.1 "/d/lib/dist/index.js" (View.find?_isFile_eq_some_iff.1 (by decide +kernel))
  obtain ⟨kept, hkept, hanswer'⟩ :=
    hloader.1 "/d/lib/dist/index.js" (View.find?_isFile_eq_some_iff.1 (by decide +kernel))
  refine ⟨hcanonical, ⟨skipped, hskipped, hanswer, ?_⟩, ⟨kept, hkept, hanswer', ?_⟩,
    hgone.2.1.2 (by decide +kernel)⟩
  · exact Except.ok.inj (hanswer.symm.trans (by decide +kernel))
  · exact Except.ok.inj (hanswer'.symm.trans (by decide +kernel))

end Search

end ImportChain
