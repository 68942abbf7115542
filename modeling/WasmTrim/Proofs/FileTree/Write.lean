import WasmTrim.FileTree.View

/-!
# Files that are read back

What is written to a path is read from the same path again. Writing changes one place only: the file
that the path leads to, or a new one in a directory that is there. A path goes through directories
and links, and none of those is changed, so it leads to the written file afterwards.
-/

namespace WasmTrim.FileTree

variable {tree tree' : FileTree} {place here : Place} {entry file : FileEntry} {target : Target}
variable {path : String} {names : List String} {links : Nat}

/-! ### One place is changed -/

theorem find?_replace (entries : List (Place × FileEntry)) (p : Place) :
    (put.replace place entry entries).find? (·.1 = p) =
      if p = place then some (place, entry) else entries.find? (·.1 = p) := by
  induction entries with
  | nil =>
      rw [put.replace]
      by_cases hp : p = place
      · simp [hp]
      · simp [hp, Ne.symm hp]
  | cons e rest ih =>
      rw [put.replace]
      split
      · next he =>
        subst he
        by_cases hp : p = e.1
        · simp [hp]
        · simp [hp, Ne.symm hp]
      · next he =>
        rw [List.find?_cons, List.find?_cons, ih]
        by_cases hp : p = place
        · subst hp
          simp [he]
        · simp [hp]

/-- An entry that was put somewhere is there, and all other places are as they were. -/
theorem entry?_put (hplace : place ≠ []) (p : Place) :
    FileTree.entry? (tree.put place entry) p =
      if p = place then some entry else tree.entry? p := by
  unfold entry?
  rw [put, find?_replace]
  by_cases hp : p = place
  · subst hp
    rw [if_neg hplace, if_pos rfl, if_pos rfl, Option.map_some]
  · rw [if_neg hp, if_neg hp]

/-! ### Paths to a written file -/

/-- The place that a path leads to, whether something is there or not. -/
def Target.destination : Target → Place
  | .found place _ => place
  | .missing directory name => directory ++ [name]

/-- What stands at the end of a path. -/
def Target.entry? : Target → Option FileEntry
  | .found _ entry => some entry
  | .missing _ _ => none

/-- What a path leads to is what stands at its place. -/
theorem entry?_destination {aim : Aim} (h : tree.walk aim links here names = .ok target) :
    tree.entry? target.destination = target.entry? := by
  fun_induction walk tree aim links here names with
  | case1 _ _ _ hentry =>
      cases h
      exact hentry
  | case2 => cases h
  | case3 _ _ _ _ _ ih => exact ih h
  | case4 _ _ _ _ ih => exact ih h
  | case5 => cases h
  | case6 => cases h
  | case7 _ _ _ _ _ _ _ _ _ hnone =>
      cases h
      exact hnone
  | case8 => cases h
  | case9 _ _ _ _ _ _ _ _ _ _ ih => exact ih h
  | case10 _ _ _ _ _ _ _ _ _ _ _ hentry =>
      cases h
      exact hentry
  | case11 => cases h
  | case12 _ _ _ _ _ _ _ _ _ _ hentry =>
      cases h
      exact hentry
  | case13 => cases h
  | case14 => cases h
  | case15 _ _ _ _ _ _ _ _ _ _ _ _ _ ih => exact ih h

/-- A place that can be written to: a file, or nothing. -/
def Writable (tree : FileTree) (place : Place) : Prop :=
  ∀ entry, tree.entry? place = some entry → ∃ bytes executable, entry = .file bytes executable

/-- A file is put in the place of another or of nothing. -/
structure Written (tree : FileTree) (place : Place) (file : FileEntry) (tree' : FileTree) :
    Prop where
  /-- There was no directory and no link. -/
  writable : tree.Writable place
  /-- The file is there. -/
  self : tree'.entry? place = some file
  /-- It is a file. -/
  isFile : ∃ bytes executable, file = .file bytes executable
  /-- Other places are as they were. -/
  other : ∀ p, p ≠ place → tree'.entry? p = tree.entry? p

/-- A directory is still there. -/
theorem Written.directory (h : Written tree place file tree') {p : Place}
    (hp : tree.entry? p = some .directory) : tree'.entry? p = some .directory := by
  rw [h.other, hp]
  rintro rfl
  obtain ⟨_, _, ⟨⟩⟩ := h.writable _ hp

/-- A link is still there. -/
theorem Written.link (h : Written tree place file tree') {p : Place} {link : String}
    (hp : tree.entry? p = some (.link link)) : tree'.entry? p = some (.link link) := by
  rw [h.other, hp]
  rintro rfl
  obtain ⟨_, _, ⟨⟩⟩ := h.writable _ hp

section Reach

variable {name : String} {rest : List String} (hstay : ¬(name = "" ∨ name = "."))
variable (hup : ¬name = "..") (hsize : ¬maxNameSize < name.utf8ByteSize)
include hstay hup hsize

theorem walk_reach_file {bytes : ByteArray} {executable : Bool}
    (h : tree.entry? (here ++ [name]) = some (.file bytes executable)) :
    tree.walk .reach links here [name] = .ok (.found (here ++ [name]) (.file bytes executable)) := by
  simp only [walk, hstay, hup, hsize, h, if_false]
  rfl

theorem walk_reach_missing (hlast : rest.all (· == "") = true)
    (h : tree.entry? (here ++ [name]) = none) :
    tree.walk .reach links here (name :: rest) = .ok (.missing here name) := by
  simp only [walk, hstay, hup, hsize, h, hlast, if_false, if_true]
  rfl

theorem walk_reach_directory (h : tree.entry? (here ++ [name]) = some .directory) :
    tree.walk .reach links here (name :: rest) = tree.walk .reach links (here ++ [name]) rest := by
  rw [walk]
  simp only [hstay, hup, hsize, h, if_false]
  rfl

theorem walk_reach_link {link : String} (hlink : ¬link = "")
    (h : tree.entry? (here ++ [name]) = some (.link link)) :
    tree.walk .reach (links + 1) here (name :: rest) =
      tree.walk .reach links (if Path.isAbsolute link then [] else here)
        (Path.steps link ++ rest) := by
  rw [walk]
  simp only [hstay, hup, hsize, h, hlink, if_false]
  rfl

end Reach

/-- The way to a place that is written to leads to what was written. -/
theorem Written.walk (h : Written tree target.destination file tree')
    (hwalk : tree.walk .write links here names = .ok target) :
    tree'.walk .reach links here names = .ok (.found target.destination file) := by
  obtain ⟨bytes, executable, hfile⟩ := h.isFile
  subst hfile
  fun_induction FileTree.walk tree .write links here names with
  | case1 links here entry hhere =>
      cases hwalk
      have hself : tree'.entry? here = some (.file bytes executable) := h.self
      simp only [FileTree.walk, hself]
      rfl
  | case2 => cases hwalk
  | case3 links here name rest hstay ih =>
      rw [FileTree.walk, if_pos hstay]
      exact ih hwalk
  | case4 links here rest hstay ih =>
      rw [FileTree.walk, if_neg hstay, if_pos rfl]
      exact ih hwalk
  | case5 => cases hwalk
  | case6 => cases hwalk
  | case7 links here name rest last hstay hup hslash hsize hnone hlast =>
      cases hwalk
      have hrest : rest = [] := Decidable.byContradiction fun hrest => hslash ⟨rfl, hlast, hrest⟩
      rw [hrest]
      exact walk_reach_file hstay hup hsize h.self
  | case8 => cases hwalk
  | case9 links here name rest last hstay hup hslash hsize hdirectory ih =>
      rw [walk_reach_directory hstay hup hsize (h.directory hdirectory)]
      exact ih hwalk
  | case10 links here name rest last hstay hup hslash hsize former mode hfile hend =>
      cases hwalk
      have hrest : rest = [] := by simpa using hend
      rw [hrest]
      exact walk_reach_file hstay hup hsize h.self
  | case11 => cases hwalk
  | case12 links here name rest last hstay hup hslash hsize link hlink hmake => cases hmake.1
  | case13 => cases hwalk
  | case14 => cases hwalk
  | case15 here name rest last hstay hup hslash hsize link hlink hmake links hne ih =>
      rw [walk_reach_link hstay hup hsize hne (h.link hlink)]
      exact ih hwalk

/-- A path that leads somewhere is followed step by step, in any tree and for any aim. -/
theorem walk_of_lookUp {aim : Aim} (h : tree.lookUp path aim = .ok target) :
    ∃ here names, tree.walk aim maxLinks here names = .ok target ∧
      ∀ (other : FileTree) (aim' : Aim), other.current = tree.current →
        other.lookUp path aim' = other.walk aim' maxLinks here names := by
  rw [lookUp] at h
  split at h
  · cases h
  next hzero =>
  split at h
  · cases h
  next hempty =>
  split at h
  · cases h
  next hsize =>
  refine ⟨_, _, h, ?_⟩
  intro other aim' hcurrent
  rw [lookUp, if_neg hzero, if_neg hempty, if_neg hsize, hcurrent]

/-- A path that can be written to is followed in the same way for reading. -/
theorem lookUp_of_written (hlook : tree.lookUp path .write = .ok target)
    (hcurrent : tree'.current = tree.current) (h : Written tree target.destination file tree') :
    tree'.lookUp path .reach = .ok (.found target.destination file) := by
  obtain ⟨here, names, hwalk, hsame⟩ := walk_of_lookUp hlook
  rw [hsame tree' .reach hcurrent]
  exact h.walk hwalk

theorem written_put {bytes : ByteArray} {executable : Bool}
    (hwritable : tree.Writable place) :
    Written tree place (.file bytes executable) (tree.put place (.file bytes executable)) := by
  have hplace : place ≠ [] := by
    rintro rfl
    obtain ⟨_, _, ⟨⟩⟩ := hwritable .directory rfl
  constructor
  · exact hwritable
  · rw [entry?_put hplace, if_pos rfl]
  · exact ⟨bytes, executable, rfl⟩
  · intro p hp
    rw [entry?_put hplace, if_neg hp]

/-- Writing puts a file where the path leads, and nothing else. -/
theorem exists_written_of_write {bytes : ByteArray} (h : tree.write path bytes = .ok tree') :
    ∃ target executable, tree.lookUp path .write = .ok target ∧ tree'.current = tree.current ∧
      Written tree target.destination (.file bytes executable) tree' := by
  rw [write] at h
  cases hlook : tree.lookUp path .write with
  | error e =>
      rw [hlook] at h
      cases h
  | ok target =>
      obtain ⟨here, names, hwalk, _⟩ := walk_of_lookUp hlook
      have hentry := entry?_destination hwalk
      rw [hlook] at h
      cases target with
      | missing directory name =>
          cases h
          refine ⟨_, false, rfl, rfl, written_put ?_⟩
          intro entry hsome
          rw [hentry] at hsome
          cases hsome
      | found place entry =>
          cases entry with
          | file former executable =>
              cases h
              refine ⟨_, executable, rfl, rfl, written_put ?_⟩
              intro entry hsome
              rw [hentry] at hsome
              cases hsome
              exact ⟨former, executable, rfl⟩
          | directory => cases h
          | link => cases h

/-- A file that was written to a path is read from it. -/
theorem read_of_write {bytes : ByteArray} (h : tree.write path bytes = .ok tree') :
    tree'.read path = .ok bytes := by
  obtain ⟨target, executable, hlook, hcurrent, hwritten⟩ := exists_written_of_write h
  rw [read, lookUp_of_written hlook hcurrent hwritten]

/-- The bytes of a text are read as that text. -/
theorem readText_of_read {text : String} (h : tree.read path = .ok text.toUTF8) :
    tree.readText path = .ok text := by
  have hutf8 : String.fromUTF8? text.toUTF8 = some text := by
    simp only [String.fromUTF8?, String.toUTF8_eq_toByteArray, dif_pos text.isValidUTF8]
    rfl
  have hread : tree.view.read path = .ok text.toUTF8 := h
  rw [readText, FileView.readText, hread]
  simp only [bind, Except.bind, hutf8]
  rfl

/-- A text that was written to a path is read from it. -/
theorem readText_of_write {text : String} (h : tree.write path text.toUTF8 = .ok tree') :
    tree'.readText path = .ok text :=
  readText_of_read (read_of_write h)

end WasmTrim.FileTree
