import WasmTrim.Proofs.FileTree.Write

/-!
# Places that paths lead to, and changes at such places only

`FileTree.place?` tells where a path leads from the links alone, as if every other name were that of
a directory. Whatever an operation finds at the end of a path, or makes there, is at that place. So
paths can be told apart before the directories on their way are made, and they lead to the same
places as long as the links stay.

`FileTree.Touched` says that files have changed at the places of some paths at most. An operation on
files touches what it writes; operations one after another touch what each of them does.
-/

namespace WasmTrim.FileTree

variable {tree tree' tree'' : FileTree} {place here : Place} {target : Target}
variable {path source destination : String} {paths paths' names rest : List String} {links : Nat}

/-! ### Where paths lead -/

/-- The target of the link at a place. -/
def linkAt? (tree : FileTree) (place : Place) : Option String :=
  match tree.entry? place with
  | some (.link target) => some target
  | _ => none

/-- Where names lead from a directory on, if what is no link is gone into; `jump` goes on at a
link. -/
def goWith (tree : FileTree) (jump : Place → List String → Option Place) (here : Place) :
    List String → Option Place
  | [] => some here
  | name :: rest =>
    if name = "" ∨ name = "." then goWith tree jump here rest
    else if name = ".." then goWith tree jump here.dropLast rest
    else
      match tree.linkAt? (here ++ [name]) with
      | none => goWith tree jump (here ++ [name]) rest
      | some target =>
        if target = "" then none
        else jump (if Path.isAbsolute target then [] else here) (Path.steps target ++ rest)

/-- Where names lead from a directory on, through so many links at most. -/
def go (tree : FileTree) : (links : Nat) → Place → List String → Option Place
  | 0 => tree.goWith fun _ _ => none
  | links + 1 => tree.goWith (tree.go links)

/-- The place that a path leads to, seen from the current directory. -/
def place? (tree : FileTree) (path : String) : Option Place :=
  if path.toList.contains '\x00' then none
  else if path = "" then none
  else if maxPathSize < path.utf8ByteSize then none
  else tree.go maxLinks (if Path.isAbsolute path then [] else tree.current) (Path.steps path)

/-- Two paths do not lead to one place. -/
def Apart (tree : FileTree) (path path' : String) : Prop :=
  ∀ place, tree.place? path = some place → tree.place? path' ≠ some place

theorem Apart.symm {path' : String} (h : tree.Apart path path') : tree.Apart path' path :=
  fun place hplace' hplace => h place hplace hplace'

theorem linkAt?_eq_some_iff {link : String} :
    tree.linkAt? place = some link ↔ tree.entry? place = some (.link link) := by
  unfold linkAt?
  cases tree.entry? place with
  | none => simp
  | some entry => cases entry <;> simp

theorem linkAt?_eq_none (h : ∀ link, tree.entry? place ≠ some (.link link)) :
    tree.linkAt? place = none := by
  apply Option.eq_none_iff_forall_ne_some.mpr
  intro link hlink
  exact h link (linkAt?_eq_some_iff.mp hlink)

theorem go_nil : tree.go links here [] = some here := by
  cases links <;> rfl

section Go

variable {name : String}

theorem go_stay (hstay : name = "" ∨ name = ".") :
    tree.go links here (name :: rest) = tree.go links here rest := by
  cases links <;> simp only [go, goWith, if_pos hstay]

theorem go_up (hstay : ¬(name = "" ∨ name = ".")) (hup : name = "..") :
    tree.go links here (name :: rest) = tree.go links here.dropLast rest := by
  cases links <;> simp only [go, goWith, if_neg hstay, if_pos hup]

theorem go_name (hstay : ¬(name = "" ∨ name = ".")) (hup : ¬name = "..")
    (hlink : ∀ link, tree.entry? (here ++ [name]) ≠ some (.link link)) :
    tree.go links here (name :: rest) = tree.go links (here ++ [name]) rest := by
  cases links <;> simp only [go, goWith, if_neg hstay, if_neg hup, linkAt?_eq_none hlink]

theorem go_link {link : String} (hstay : ¬(name = "" ∨ name = ".")) (hup : ¬name = "..")
    (hne : ¬link = "") (hlink : tree.entry? (here ++ [name]) = some (.link link)) :
    tree.go (links + 1) here (name :: rest) =
      tree.go links (if Path.isAbsolute link then [] else here) (Path.steps link ++ rest) := by
  simp only [go, goWith, if_neg hstay, if_neg hup, linkAt?_eq_some_iff.mpr hlink, if_neg hne]

end Go

/-- Empty steps stay in place. -/
theorem go_of_all_empty (h : rest.all (· == "") = true) :
    tree.go links here rest = some here := by
  induction rest with
  | nil => exact go_nil
  | cons name rest ih =>
      rw [List.all_cons, Bool.and_eq_true, beq_iff_eq] at h
      rw [go_stay (Or.inl h.1)]
      exact ih h.2

/-- What names lead to is at the place that they lead to. A link that stands where a directory is to
be made is not followed. -/
theorem go_of_walk {aim : Aim} (h : tree.walk aim links here names = .ok target)
    (hmake : aim = .make → target.entry? = none) :
    tree.go links here names = some target.destination := by
  fun_induction walk tree aim links here names with
  | case1 =>
      cases h
      exact go_nil
  | case2 => cases h
  | case3 _ _ _ _ hstay ih =>
      rw [go_stay hstay]
      exact ih h
  | case4 _ _ _ hstay ih =>
      rw [go_up hstay rfl]
      exact ih h
  | case5 => cases h
  | case6 => cases h
  | case7 _ _ _ _ _ hstay hup _ _ hnone hlast =>
      cases h
      rw [go_name hstay hup (by simp [hnone])]
      exact go_of_all_empty hlast
  | case8 => cases h
  | case9 _ _ _ _ _ hstay hup _ _ hentry ih =>
      rw [go_name hstay hup (by simp [hentry])]
      exact ih h
  -- A file ends a path, with empty steps after it only where a directory is to be made.
  | case10 _ _ _ rest _ hstay hup _ _ _ _ hentry hend =>
      cases h
      rw [go_name hstay hup (by simp [hentry])]
      obtain hrest | ⟨haim, _⟩ := hend
      · rw [hrest]
        exact go_nil
      · cases hmake haim
  | case11 => cases h
  | case12 _ _ _ _ _ _ _ _ _ _ _ hend =>
      cases h
      cases hmake hend.1
  | case13 => cases h
  | case14 => cases h
  | case15 _ _ _ _ hstay hup _ _ _ hentry _ _ hne ih =>
      rw [go_link hstay hup hne hentry]
      exact ih h

/-- What a path leads to is at the place that it leads to. -/
theorem place?_of_lookUp {aim : Aim} (h : tree.lookUp path aim = .ok target)
    (hmake : aim = .make → target.entry? = none) :
    tree.place? path = some target.destination := by
  rw [lookUp] at h
  unfold place?
  split at h
  · cases h
  next hzero =>
  split at h
  · cases h
  next hempty =>
  split at h
  · cases h
  next hsize =>
  rw [if_neg hzero, if_neg hempty, if_neg hsize]
  exact go_of_walk h hmake

/-! ### Changes at the places of paths -/

/-- Files have changed at the places that some paths lead to, at most. Links and directories are
where they were. -/
structure Touched (paths : List String) (tree tree' : FileTree) : Prop where
  /-- Relative paths start where they did. -/
  current_eq : tree'.current = tree.current
  /-- No link was made, changed or removed. -/
  linkAt?_eq : ∀ p, tree'.linkAt? p = tree.linkAt? p
  /-- No directory was removed. -/
  directory : ∀ p, tree.entry? p = some .directory → tree'.entry? p = some .directory
  /-- Other places are as they were. -/
  other : ∀ p, (∀ path ∈ paths, tree.place? path ≠ some p) → tree'.entry? p = tree.entry? p

namespace Touched

theorem go_eq (h : Touched paths tree tree') :
    tree'.go links here names = tree.go links here names := by
  have hjump : ∀ jump, tree'.goWith jump = tree.goWith jump := by
    intro jump
    ext here names : 2
    induction names generalizing here with
    | nil => rfl
    | cons name rest ih => simp only [goWith, h.linkAt?_eq, ih]
  have hgo : tree'.go links = tree.go links := by
    induction links with
    | zero => exact hjump _
    | succ links ih => rw [go, go, ih, hjump]
  rw [hgo]

/-- Paths lead where they did. -/
theorem place?_eq (h : Touched paths tree tree') (path : String) :
    tree'.place? path = tree.place? path := by
  unfold place?
  rw [h.current_eq, h.go_eq]

theorem refl (tree : FileTree) : Touched paths tree tree where
  current_eq := rfl
  linkAt?_eq _ := rfl
  directory _ hp := hp
  other _ _ := rfl

theorem mono (h : Touched paths tree tree') (hsubset : paths ⊆ paths') :
    Touched paths' tree tree' where
  current_eq := h.current_eq
  linkAt?_eq := h.linkAt?_eq
  directory := h.directory
  other p hp := h.other p fun path hpath => hp path (hsubset hpath)

/-- What is done in two parts touches what either of them does. -/
theorem append (h : Touched paths tree tree') (h' : Touched paths' tree' tree'') :
    Touched (paths ++ paths') tree tree'' where
  current_eq := h'.current_eq.trans h.current_eq
  linkAt?_eq p := (h'.linkAt?_eq p).trans (h.linkAt?_eq p)
  directory p hp := h'.directory p (h.directory p hp)
  other p hp := by
    have hfirst : ∀ path ∈ paths, tree.place? path ≠ some p := by
      intro path hpath
      exact hp path (List.mem_append_left _ hpath)
    have hsecond : ∀ path ∈ paths', tree'.place? path ≠ some p := by
      intro path hpath
      rw [h.place?_eq]
      exact hp path (List.mem_append_right _ hpath)
    rw [h'.other p hsecond, h.other p hfirst]

theorem trans (h : Touched paths tree tree') (h' : Touched paths tree' tree'') :
    Touched paths tree tree'' := by
  apply (h.append h').mono
  simp

end Touched

/-- A path, what it stands in, and so on upwards, so many paths at most. -/
def upwards : (fuel : Nat) → String → List String
  | 0, _ => []
  | fuel + 1, path =>
    path :: match Path.parent? path with
      | none => []
      | some parent => upwards fuel parent

/-- The directories that are made for a path, if they are missing. -/
def directoriesTo (path : String) : List String :=
  upwards (path.length + 2) path

/-- The way to a file that was not touched is as it was. -/
theorem Touched.walk (h : Touched paths tree tree')
    (hother : ∀ path ∈ paths, tree.place? path ≠ some target.destination)
    (hwalk : tree.walk .reach links here names = .ok target) :
    tree'.walk .reach links here names = .ok target := by
  have hsame := h.other _ hother
  fun_induction FileTree.walk tree .reach links here names with
  | case1 links here entry hhere =>
      cases hwalk
      have hhere' : tree'.entry? here = some entry := hsame.trans hhere
      simp only [FileTree.walk, hhere']
  | case2 => cases hwalk
  | case3 links here name rest hstay ih =>
      rw [FileTree.walk, if_pos hstay]
      exact ih hwalk
  | case4 links here rest hstay ih =>
      rw [FileTree.walk, if_neg hstay, if_pos rfl]
      exact ih hwalk
  | case5 _ _ _ _ _ _ _ hslash => cases hslash.1
  | case6 => cases hwalk
  | case7 links here name rest last hstay hup hslash hsize hnone hlast =>
      cases hwalk
      exact walk_reach_missing hstay hup hsize hlast (hsame.trans hnone)
  | case8 => cases hwalk
  | case9 links here name rest last hstay hup hslash hsize hdirectory ih =>
      rw [walk_reach_directory hstay hup hsize (h.directory _ hdirectory)]
      exact ih hwalk
  | case10 links here name rest last hstay hup hslash hsize former mode hfile hend =>
      cases hwalk
      have hrest : rest = [] := by simpa using hend
      rw [hrest]
      exact walk_reach_file hstay hup hsize (hsame.trans hfile)
  | case11 => cases hwalk
  | case12 links here name rest last hstay hup hslash hsize link hlink hmake => cases hmake.1
  | case13 => cases hwalk
  | case14 => cases hwalk
  | case15 here name rest last hstay hup hslash hsize link hlink hmake links hne ih =>
      have hlink' : tree'.entry? (here ++ [name]) = some (.link link) := by
        rw [← linkAt?_eq_some_iff, h.linkAt?_eq, linkAt?_eq_some_iff, hlink]
      rw [walk_reach_link hstay hup hsize hne hlink']
      exact ih hwalk

/-- A file that was not touched is read as before. -/
theorem Touched.read_eq (h : Touched paths tree tree') {bytes : ByteArray}
    (hread : tree.read path = .ok bytes) (hapart : ∀ p ∈ paths, tree.Apart path p) :
    tree'.read path = .ok bytes := by
  cases hlook : tree.lookUp path .reach with
  | error e =>
      rw [read, hlook] at hread
      cases hread
  | ok target =>
      have hplace := place?_of_lookUp hlook (by rintro ⟨⟩)
      obtain ⟨here, names, hwalk, hsame⟩ := walk_of_lookUp hlook
      have hlook' : tree'.lookUp path .reach = .ok target := by
        rw [hsame tree' .reach h.current_eq]
        apply h.walk _ hwalk
        intro p hp
        exact hapart p hp _ hplace
      rw [read, hlook] at hread
      rw [read, hlook']
      exact hread

end WasmTrim.FileTree
