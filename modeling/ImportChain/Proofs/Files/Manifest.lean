/-
ImportChain.Proofs.Files.Manifest — what the nearest manifest leaves out.

The nearest manifest of a directory is in the first directory at or above
it that has one (`Nearest`). Its `browser` map leaves out what it sends to
`false` (`MapsToFalse`): a module by the name of a request, or a file by a
key that begins with a dot and leads from the directory of the manifest to
that file (`LeavesOut`).

A manifest is a settled value, so that a key stands for one value however
often it is written.
-/
import ImportChain.Files.Manifest
import ImportChain.Proofs.Json.Shape
import ImportChain.Proofs.Outcome

namespace ImportChain.Manifest

variable {v : View} {manifest : Json} {dir place file key name : String}

/-! ## Reading -/

theorem distinctKeys_of_read? (h : read? v place = some manifest) :
    manifest.distinctKeys = true := by
  obtain ⟨text, -, htext⟩ := Option.bind_eq_some_iff.1 h
  obtain ⟨value, -, rfl⟩ := Option.map_eq_some_iff.1 htext
  exact Json.distinctKeys_settled value

/-- The `browser` map of the manifest at a location sends a key to `false`. -/
def MapsToFalse (v : View) (place key : String) : Prop :=
  ∃ manifest browser, read? v place = some manifest
    ∧ manifest.field? "browser" = some browser ∧ browser.field? key = some (.bool false)

theorem leavesOut_iff :
    leavesOut manifest name = true
      ↔ ∃ browser, manifest.field? "browser" = some browser
          ∧ browser.field? name = some (.bool false) := by
  unfold leavesOut
  rw [decide_eq_true_iff, Option.bind_eq_some_iff]

theorem leavesOutModule_iff :
    leavesOutModule v place name = true ↔ MapsToFalse v place name := by
  unfold leavesOutModule MapsToFalse
  cases hread : read? v place with
  | none => simp
  | some manifest => simp [leavesOut_iff]

/-! ## Files -/

/-- A location that is the one of a file, or whose canonical location is. -/
def Leads (v : View) (place file : String) : Prop :=
  Location.sameParts place file = true
    ∨ ∃ canonical, v.canonical? place = some canonical
        ∧ Location.sameParts canonical file = true

theorem isLocationOf_iff : isLocationOf v file place = true ↔ Leads v place file := by
  unfold isLocationOf Leads
  cases hcanonical : v.canonical? place <;> simp

theorem mem_leftOutFiles_iff (h : manifest.distinctKeys = true) :
    key ∈ leftOutFiles manifest
      ↔ key.toList.head? = some '.' ∧ ∃ browser, manifest.field? "browser" = some browser
          ∧ browser.field? key = some (.bool false) := by
  unfold leftOutFiles
  cases hbrowser : manifest.field? "browser" with
  | none => simp
  | some browser =>
    cases browser with
    | obj fields =>
      have hnodup : (KeyMap.keys fields).Nodup := by
        cases manifest with
        | obj all =>
          have hmem := KeyMap.mem_of_get?_eq_some hbrowser
          exact (Json.distinctKeys_obj_iff.1 ((Json.distinctKeys_obj_iff.1 h).2 _ hmem)).1
        | _ => cases hbrowser
      simp [Json.obj?, Json.field?, KeyMap.get?_eq_some_iff hnodup, and_comm]
    | _ => simp [Json.obj?, Json.field?]

/-- The manifest at a location leaves out a file: a key that begins with a dot
is sent to `false` and leads to the file from the directory of the
manifest. -/
def LeavesOut (v : View) (place file : String) : Prop :=
  ∃ root key, Location.parent? place = some root ∧ key.toList.head? = some '.'
    ∧ MapsToFalse v place key ∧ Leads v (Location.join root key) file

theorem leavesOutFile_iff : leavesOutFile v place file = true ↔ LeavesOut v place file := by
  unfold leavesOutFile LeavesOut MapsToFalse
  cases hroot : Location.parent? place with
  | none => simp
  | some root =>
    cases hread : read? v place with
    | none => simp
    | some manifest =>
      have hdistinct := distinctKeys_of_read? hread
      simp [List.any_eq_true, mem_leftOutFiles_iff hdistinct, isLocationOf_iff, and_assoc]

/-! ## The nearest manifest -/

/-- The first directory, at or above a directory, that has a manifest. -/
def Nearest (v : View) (dir owner : String) : Prop :=
  Earliest (fun d => v.isFile (location d) = true) (Location.ancestors dir) owner

theorem nearest?_eq_some_iff {found : String} :
    nearest? v dir = some found ↔ ∃ owner, Nearest v dir owner ∧ found = location owner := by
  unfold nearest? Nearest
  rw [List.find?_map, Option.map_eq_some_iff]
  exact exists_congr fun owner => and_congr find?_eq_some_iff_earliest eq_comm

/-- Whether the nearest manifest has a property. -/
theorem any_nearest?_iff {test : String → Bool} :
    (nearest? v dir).any test = true
      ↔ ∃ owner, Nearest v dir owner ∧ test (location owner) = true := by
  rw [Option.any_eq_true]
  simp only [nearest?_eq_some_iff]
  constructor
  · rintro ⟨_, ⟨owner, howner, rfl⟩, htest⟩
    exact ⟨owner, howner, htest⟩
  · rintro ⟨owner, howner, htest⟩
    exact ⟨_, ⟨owner, howner, rfl⟩, htest⟩

end ImportChain.Manifest
