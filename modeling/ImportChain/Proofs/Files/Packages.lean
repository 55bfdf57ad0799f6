/-
ImportChain.Proofs.Files.Packages — the nearest usable package wins.

A bare request is cut into the name of a package and a path below it
(`PackageRequest.text_ofText`). The package is usable from a directory if
it is there and its exports name a file for the path, or else a file is
found at that path (`Usable`). Going up, a directory without a usable
package is passed over, whatever it holds.

`bare_nearest_package` is the main statement.
-/
import ImportChain.Proofs.Files.Candidates
import ImportChain.Proofs.Files.Exports
import ImportChain.Proofs.Files.Location

namespace ImportChain

/-! ## Names of packages -/

namespace PackageRequest

/-- The request that a name and a path below it were cut from. -/
def text (r : PackageRequest) : String :=
  match r.subpath with
  | some subpath => r.name ++ "/" ++ subpath
  | none => r.name

/-- How many segments of a request name its package: two if it has a scope. -/
def nameLength (request : String) : Nat := if request.toList.head? = some '@' then 2 else 1

/-- A request is its package and the path below it, and the name of the
package is made of the first segments. -/
theorem text_ofText (request : String) :
    (ofText request).text = request
      ∧ Text.splitOn '/' (ofText request).name.toList
        = (Text.splitOn '/' request.toList).take (nameLength request) := by
  unfold ofText nameLength
  split
  · next tail hscoped =>
    rw [if_pos (by rw [hscoped]; rfl)]
    split
    · next hnone =>
      rw [Text.splitOn_of_notMem (Text.cutAt_eq_none_iff.1 hnone)]
      exact ⟨rfl, rfl⟩
    · next scope rest hcut =>
      obtain ⟨hrequest, hscope⟩ := Text.cutAt_eq_some_iff.1 hcut
      split
      · next hnone =>
        have hrest := Text.splitOn_of_notMem (Text.cutAt_eq_none_iff.1 hnone)
        rw [hrequest, Text.splitOn_append_cons rest hscope, hrest]
        exact ⟨rfl, rfl⟩
      · next name subpath hcut =>
        obtain ⟨rfl, hname⟩ := Text.cutAt_eq_some_iff.1 hcut
        constructor
        · simp [text, ← String.toList_inj, hrequest]
        · rw [hrequest, String.toList_ofList, Text.splitOn_append_cons _ hscope,
            Text.splitOn_append_cons _ hscope, Text.splitOn_append_cons _ hname,
            Text.splitOn_of_notMem hname]
          rfl
  · next hplain =>
    have hhead : request.toList.head? ≠ some '@' := by
      intro hhead
      obtain ⟨tail, htail⟩ := List.head?_eq_some_iff.1 hhead
      exact hplain tail htail
    rw [if_neg hhead]
    split
    · next hnone =>
      rw [Text.splitOn_of_notMem (Text.cutAt_eq_none_iff.1 hnone)]
      exact ⟨rfl, rfl⟩
    · next name subpath hcut =>
      obtain ⟨hrequest, hname⟩ := Text.cutAt_eq_some_iff.1 hcut
      constructor
      · simp [text, ← String.toList_inj, hrequest]
      · rw [hrequest, String.toList_ofList, Text.splitOn_append_cons _ hname,
          Text.splitOn_of_notMem hname]
        rfl

end PackageRequest

namespace Search

variable {v : View} {l : Lookup} {r : PackageRequest} {dir context request : String}
  {found : Found}

/-! ## One package -/

/-- The exports of the package in a directory name an entry for a path, and the
entry is a file. -/
def Exports (v : View) (dir : String) (subpath : Option String) (file : String) : Prop :=
  ∃ manifest exports entry, Manifest.read? v (Manifest.location dir) = some manifest
    ∧ manifest.field? "exports" = some exports
    ∧ Manifest.Names exports subpath entry
    ∧ file = Location.join dir entry ∧ v.isFile file = true

theorem exportedFile?_eq_some_iff {subpath : Option String} {file : String} :
    exportedFile? v dir subpath = some file ↔ Exports v dir subpath file := by
  unfold exportedFile? Exports
  simp only [Option.bind_eq_bind, Option.bind_eq_some_iff, Option.ite_none_right_eq_some,
    Option.some.injEq, Manifest.exportEntry_eq_some_iff]
  constructor
  · rintro ⟨manifest, hmanifest, exports, hexports, entry, hentry, hfile, rfl⟩
    exact ⟨manifest, exports, entry, hmanifest, hexports, hentry, rfl, hfile⟩
  · rintro ⟨manifest, exports, entry, hmanifest, hexports, hentry, rfl, hfile⟩
    exact ⟨manifest, hmanifest, exports, hexports, entry, hentry, hfile, rfl⟩

theorem Exports.isFile {subpath : Option String} {file : String} (h : Exports v dir subpath file) :
    v.isFile file = true := by
  obtain ⟨_, _, _, -, -, -, -, hfile⟩ := h
  exact hfile

/-- Where a request is sought in the directory of its package. -/
def packagePlace (r : PackageRequest) (dir : String) : String :=
  r.subpath.elim dir (Location.join dir)

/-- A package can be used from a directory: it is there, and its exports or its
files have something for the request. -/
structure Usable (v : View) (l : Lookup) (r : PackageRequest) (dir : String) : Prop where
  isDir : v.isDir (packageDir dir r.name) = true
  hasFile : (∃ file, Exports v (packageDir dir r.name) r.subpath file)
    ∨ ∃ found, atPlace v l (packagePlace r (packageDir dir r.name)) = .ok found

/-- The file that the package below a directory has for a request: the one that
its exports name, or else the first at the place of the path. -/
inductive PackageFile (v : View) (l : Lookup) (r : PackageRequest) (dir file : String) :
    Prop where
  | exported (exports : Exports v (packageDir dir r.name) r.subpath file)
  | atPlace (unexported : ∀ other, ¬ Exports v (packageDir dir r.name) r.subpath other)
    (first : v.FirstFile (candidates v l (packagePlace r (packageDir dir r.name))) file)

/-- A package has one file for a request. -/
theorem PackageFile.unique {file other : String} (h : PackageFile v l r dir file)
    (h' : PackageFile v l r dir other) : file = other := by
  rcases h with hexports | ⟨hno, hfirst⟩
  · rcases h' with hexports' | ⟨hno, -⟩
    · exact Option.some.inj ((exportedFile?_eq_some_iff.2 hexports).symm.trans
        (exportedFile?_eq_some_iff.2 hexports'))
    · exact absurd hexports (hno file)
  · rcases h' with hexports' | ⟨-, hfirst'⟩
    · exact absurd hexports' (hno other)
    · exact Option.some.inj ((View.find?_isFile_eq_some_iff.2 hfirst).symm.trans
        (View.find?_isFile_eq_some_iff.2 hfirst'))

/-- What the package below a directory gives, if the search ends there. -/
def packageAnswer? (v : View) (l : Lookup) (r : PackageRequest) (dir : String) :
    Option (Except SearchError Found) :=
  if v.isDir (packageDir dir r.name) then inPackage v l (packageDir dir r.name) r else none

theorem inDirectories_eq_findSome? (v : View) (l : Lookup) (r : PackageRequest) :
    ∀ dirs : List String, inDirectories v l r dirs
      = (dirs.findSome? (packageAnswer? v l r)).getD (.error (.noPackage r.name))
  | [] => rfl
  | dir :: above => by
      rw [inDirectories, List.findSome?_cons, inDirectories_eq_findSome? v l r above]
      have hdir : (if v.isDir (packageDir dir r.name) then inPackage v l (packageDir dir r.name) r
          else none) = packageAnswer? v l r dir := rfl
      simp only [hdir]
      cases packageAnswer? v l r dir <;> rfl

/-- On a disk where every file has a canonical location, a package that is not
usable gives nothing, and one that is gives what its file gives. -/
theorem packageAnswer?_cases (h : v.CanonicalFiles) (l : Lookup) (r : PackageRequest)
    (dir : String) :
    (¬ Usable v l r dir ∧ packageAnswer? v l r dir = none)
      ∨ ∃ file found, Usable v l r dir ∧ PackageFile v l r dir file ∧ Gives v l file found
          ∧ packageAnswer? v l r dir = some (.ok found) := by
  unfold packageAnswer?
  by_cases hdir : v.isDir (packageDir dir r.name) = true
  · rw [if_pos hdir]
    unfold inPackage
    cases hexported : exportedFile? v (packageDir dir r.name) r.subpath with
    | some file =>
      -- The search ends with this file, so that it must not fail on its location.
      have hexports := exportedFile?_eq_some_iff.1 hexported
      obtain ⟨found, hfound⟩ := exists_settle_eq_ok h (l := l) hexports.isFile
      exact .inr ⟨file, found, ⟨hdir, .inl ⟨file, hexports⟩⟩, .exported hexports,
        settle_eq_ok_iff.1 hfound, congrArg some hfound⟩
    | none =>
      have hno : ∀ file, ¬ Exports v (packageDir dir r.name) r.subpath file := fun file hfile => by
        rw [exportedFile?_eq_some_iff.2 hfile] at hexported
        cases hexported
      cases hplace : atPlace v l (packagePlace r (packageDir dir r.name)) with
      | ok found =>
        obtain ⟨file, hfirst, hgives⟩ := atPlace_eq_ok_iff.1 hplace
        have husable : Usable v l r dir := ⟨hdir, .inr ⟨found, hplace⟩⟩
        rw [packagePlace] at hplace
        simp only [hplace]
        exact .inr ⟨file, found, husable, .atPlace hno hfirst, hgives, rfl⟩
      | error e =>
        have hunusable : ¬ Usable v l r dir := fun husable => by
          rcases husable.hasFile with ⟨file, hfile⟩ | ⟨found, hfound⟩
          · exact hno file hfile
          · rw [hplace] at hfound
            cases hfound
        rw [packagePlace] at hplace
        simp only [hplace]
        exact .inl ⟨hunusable, trivial⟩
  · exact .inl ⟨fun husable => hdir husable.isDir, if_neg hdir⟩

theorem packageAnswer?_eq_none_iff (h : v.CanonicalFiles) :
    packageAnswer? v l r dir = none ↔ ¬ Usable v l r dir := by
  rcases packageAnswer?_cases h l r dir with ⟨hnot, hnone⟩ | ⟨_, found, husable, -, -, hsome⟩
  · simp [hnot, hnone]
  · simp [husable, hsome]

theorem exists_packageAnswer? (h : v.CanonicalFiles) (husable : Usable v l r dir) :
    ∃ file found, PackageFile v l r dir file ∧ Gives v l file found
      ∧ packageAnswer? v l r dir = some (.ok found) := by
  rcases packageAnswer?_cases h l r dir with ⟨hnot, -⟩ | ⟨file, found, -, hfound⟩
  · exact absurd husable hnot
  · exact ⟨file, found, hfound⟩

theorem packageAnswer?_eq_some_ok_iff (h : v.CanonicalFiles) (husable : Usable v l r dir) :
    packageAnswer? v l r dir = some (.ok found)
      ↔ ∃ file, PackageFile v l r dir file ∧ Gives v l file found := by
  obtain ⟨file, answer, hfile, hanswer, hsome⟩ := exists_packageAnswer? h husable
  constructor
  · intro hfound
    cases hsome.symm.trans hfound
    exact ⟨file, hfile, hanswer⟩
  · rintro ⟨other, hother, hfound⟩
    obtain rfl := hfile.unique hother
    rw [hsome, hanswer.unique hfound]

/-! ## All directories on the way up -/

/-- What a bare request gives comes from the nearest usable package. -/
theorem bare_eq_ok_iff (h : v.CanonicalFiles) :
    bare v l context request = .ok found
      ↔ ∃ dir, Earliest (Usable v l (.ofText request)) (Location.ancestors context) dir
          ∧ ∃ file, PackageFile v l (.ofText request) dir file ∧ Gives v l file found := by
  have hbare : bare v l context request = .ok found
      ↔ (Location.ancestors context).findSome? (packageAnswer? v l (.ofText request))
          = some (.ok found) := by
    rw [bare, inDirectories_eq_findSome?]
    cases (Location.ancestors context).findSome? _ <;> simp
  rw [hbare, findSome?_eq_some_iff_earliest fun dir => packageAnswer?_eq_none_iff h]
  refine exists_congr fun dir => and_congr_right fun hdir => ?_
  exact packageAnswer?_eq_some_ok_iff h hdir.mem.2

theorem bare_eq_error_iff (h : v.CanonicalFiles) {e : SearchError} :
    bare v l context request = .error e
      ↔ e = .noPackage (PackageRequest.ofText request).name
          ∧ ∀ dir ∈ Location.ancestors context, ¬ Usable v l (.ofText request) dir := by
  have hnone : (∀ dir ∈ Location.ancestors context, ¬ Usable v l (.ofText request) dir)
      ↔ (Location.ancestors context).findSome? (packageAnswer? v l (.ofText request)) = none := by
    simp only [List.findSome?_eq_none_iff, packageAnswer?_eq_none_iff h]
  rw [hnone, bare, inDirectories_eq_findSome?]
  cases hfirst : (Location.ancestors context).findSome? (packageAnswer? v l (.ofText request)) with
  | none => simp [eq_comm]
  | some answer =>
    obtain ⟨dir, hdir, hanswer⟩ :=
      (findSome?_eq_some_iff_earliest fun dir => packageAnswer?_eq_none_iff h).1 hfirst
    obtain ⟨_, found, -, -, hfound⟩ := exists_packageAnswer? h hdir.mem.2
    cases hanswer.symm.trans hfound
    simp

/-- **The nearest usable package wins.** A bare request is the name of a
package and a path below it. It is answered by the package below the first
directory on the way up that is usable from there, whatever unusable ones
come before, and by its exports before its other files; it fails exactly if
there is none. -/
theorem bare_nearest_package (h : v.CanonicalFiles) (l : Lookup) (context request : String) :
    ((PackageRequest.ofText request).text = request
      ∧ Text.splitOn '/' (PackageRequest.ofText request).name.toList
        = (Text.splitOn '/' request.toList).take (PackageRequest.nameLength request))
    ∧ Location.ancestors context
      = context :: (Location.parent? context).elim [] Location.ancestors
    ∧ (∀ dir, Earliest (Usable v l (.ofText request)) (Location.ancestors context) dir →
      ∃ file found, PackageFile v l (.ofText request) dir file ∧ Gives v l file found
        ∧ bare v l context request = .ok found)
    ∧ ((∃ e, bare v l context request = .error e)
      ↔ ∀ dir ∈ Location.ancestors context, ¬ Usable v l (.ofText request) dir)
    ∧ ∀ e, bare v l context request = .error e →
      e = .noPackage (PackageRequest.ofText request).name := by
  refine ⟨PackageRequest.text_ofText request, Location.ancestors_eq context,
    fun dir hdir => ?_, ?_, fun e he => ((bare_eq_error_iff h).1 he).1⟩
  · obtain ⟨file, found, hfile, hgives, -⟩ := exists_packageAnswer? h hdir.mem.2
    exact ⟨file, found, hfile, hgives, (bare_eq_ok_iff h).2 ⟨dir, hdir, file, hfile, hgives⟩⟩
  · simp only [bare_eq_error_iff h, exists_eq_left]

/-- Packages on three levels: one whose exports and files have nothing for the
request, one whose exports lead nowhere but that has a file, and one that
would do. Two more have exports, by key and by condition, that lead to other
files than their places do. -/
def packagesDisk : View :=
  .ofTexts ["/a/b/node_modules/@s/p", "/a/node_modules/@s/p", "/node_modules/@s/p",
      "/a/node_modules/q", "/a/node_modules/r", "/node_modules/r"]
    [("/a/b/node_modules/@s/p/index.js", ""),
      ("/a/node_modules/@s/p/package.json",
        Json.canonical (.obj [("exports", .obj [("./x", .str "gone.js")])])),
      ("/a/node_modules/@s/p/x.js", ""), ("/node_modules/@s/p/x.js", ""),
      ("/a/node_modules/q/package.json",
        Json.canonical (.obj [("exports", .obj [(".", .str "q.js"),
          ("./x", .obj [("import", .str "lib/x.mjs"), ("require", .str "x.js")])])])),
      ("/a/node_modules/q/x.js", ""), ("/a/node_modules/q/lib/x.mjs", ""),
      ("/a/node_modules/r/package.json",
        Json.canonical (.obj [("exports", .obj [("browser", .null), ("default", .str "r.mjs")])])),
      ("/a/node_modules/r/index.js", ""), ("/a/node_modules/r/r.mjs", ""),
      ("/node_modules/r/index.js", "")]

/-- The lookup with no options set. -/
def plainLookup : Lookup := .ofOptions .normal .empty

/-- Exports that lead to a file win over the other files of their package; those
that lead nowhere do not keep them from being found. -/
theorem bare_nearest_package_of_packagesDisk :
    packagesDisk.CanonicalFiles
    ∧ bare packagesDisk plainLookup "/a/b" "@s/p/x" = .ok (.file "/a/node_modules/@s/p/x.js")
    ∧ bare packagesDisk plainLookup "/a/b" "q/x" = .ok (.file "/a/node_modules/q/lib/x.mjs")
    ∧ atPlace packagesDisk plainLookup "/a/node_modules/q/x"
      = .ok (.file "/a/node_modules/q/x.js")
    ∧ bare packagesDisk plainLookup "/a/b" "r" = .ok (.file "/a/node_modules/r/r.mjs")
    ∧ ∃ e, bare packagesDisk plainLookup "/a/b" "@s/q" = .error e := by
  have hcanonical : packagesDisk.CanonicalFiles := View.canonicalFiles_ofTexts _ _
  -- nothing is usable from the first directory, and the file is known in the second
  have hsecond (request file : String)
      (hunusable : packageAnswer? packagesDisk plainLookup (.ofText request) "/a/b" = none)
      (husable : Usable packagesDisk plainLookup (.ofText request) "/a")
      (hfile : PackageFile packagesDisk plainLookup (.ofText request) "/a" file)
      (hsettle : settle packagesDisk plainLookup file = .ok (.file file)) :
      bare packagesDisk plainLookup "/a/b" request = .ok (.file file) := by
    obtain ⟨-, -, hnearest, -, -⟩ :=
      bare_nearest_package hcanonical plainLookup "/a/b" request
    obtain ⟨other, found, hother, hgives, hfound⟩ := hnearest "/a" ⟨["/a/b"], ["/"], by decide,
      List.forall_mem_singleton.2 ((packageAnswer?_eq_none_iff hcanonical).1 hunusable), husable⟩
    obtain rfl := hfile.unique hother
    rw [hfound, hgives.unique (settle_eq_ok_iff.1 hsettle)]
  have hexported (request file : String)
      (hunusable : packageAnswer? packagesDisk plainLookup (.ofText request) "/a/b" = none)
      (hdir : packagesDisk.isDir (packageDir "/a" (PackageRequest.ofText request).name) = true)
      (hexports : exportedFile? packagesDisk (packageDir "/a" (PackageRequest.ofText request).name)
        (PackageRequest.ofText request).subpath = some file)
      (hsettle : settle packagesDisk plainLookup file = .ok (.file file)) :
      bare packagesDisk plainLookup "/a/b" request = .ok (.file file) := by
    have hfile := exportedFile?_eq_some_iff.1 hexports
    exact hsecond request file hunusable ⟨hdir, .inl ⟨file, hfile⟩⟩ (.exported hfile) hsettle
  have hunexported : exportedFile? packagesDisk "/a/node_modules/@s/p" (some "x") = none := by
    decide +kernel
  have hplace : PackageFile packagesDisk plainLookup (.ofText "@s/p/x") "/a"
      "/a/node_modules/@s/p/x.js" := by
    refine .atPlace (fun other hother => ?_) (View.find?_isFile_eq_some_iff.1 (by decide +kernel))
    cases hunexported.symm.trans (exportedFile?_eq_some_iff.2 hother)
  obtain ⟨-, -, -, hnone, -⟩ := bare_nearest_package hcanonical plainLookup "/a/b" "@s/q"
  refine ⟨hcanonical, ?_, ?_, by decide +kernel, ?_, hnone.2 fun dir hdir husable => ?_⟩
  · exact hsecond _ _ (by decide +kernel)
      ⟨by decide +kernel, .inr ⟨.file "/a/node_modules/@s/p/x.js", by decide +kernel⟩⟩ hplace
      (by decide +kernel)
  · exact hexported _ _ (by decide +kernel) (by decide +kernel) (by decide +kernel)
      (by decide +kernel)
  · exact hexported _ _ (by decide +kernel) (by decide +kernel) (by decide +kernel)
      (by decide +kernel)
  · have hno : ∀ dir ∈ Location.ancestors "/a/b",
        packagesDisk.isDir (packageDir dir (PackageRequest.ofText "@s/q").name) = false := by
      decide +kernel
    exact Bool.false_ne_true ((hno dir hdir).symm.trans husable.isDir)

end Search

end ImportChain
