import WasmTrim.Build.Basic
import WasmTrim.Proofs.Stateful

/-!
# Where the entry points of a source lead

The entry points that are found in a source are named after its module, and the runtime finds the
module and the function in that name again. The name of the module comes from the path of the source
by one rule, and the path of the compiled module by another.

`EntryPoint.source_dispatch` says where the two rules agree and what follows for the entry points of
many sources. They agree where the path has the suffix `.py` once; the first rule drops all of them,
and the second one only the last. The name of an entry point leads to the module and the function
again that it was made of, if the function has no dot. What is compiled adds the entry points of
each source in turn, and among those the ones of a module are what its own sources make, as if there
were no others: sources of different modules never overwrite each other's.

## Implementation notes

Entry points are told apart by the module that their names lead to. What a list of sources makes of
them can then be told module by module, since naming an entry point of one module leaves those of
all others as they are.
-/

namespace WasmTrim

namespace EntryPoint

variable {module function p : String} {cs before : List Char}

/-! ### Names of entry points -/

theorem splitReversed_append (h : '.' ∉ cs) :
    splitReversed (cs ++ '.' :: before) = some (cs, before) := by
  induction cs with
  | nil => rfl
  | cons c cs ih =>
      rw [List.mem_cons, not_or] at h
      rw [List.cons_append, splitReversed, if_neg (Ne.symm h.1), ih h.2]
      rfl

/-- The module and the function are found in a name that was made of them. -/
theorem split_qualified (h : '.' ∉ function.toList) :
    split (module ++ "." ++ function) = (module, function) := by
  have hname : (module ++ "." ++ function).toList.reverse =
      function.toList.reverse ++ '.' :: module.toList.reverse := by
    simp
  have hdot : '.' ∉ function.toList.reverse := by simpa using h
  rw [split, hname, splitReversed_append hdot]
  simp

/-! ### Names of modules -/

/-- A path with dots for its separators. -/
def dotted (path : String) : String :=
  String.ofList (path.toList.map fun c => if c = '/' ∨ c = '\\' then '.' else c)

/-- Dropping the suffix as often as it is there leaves what does not end in it. -/
theorem exists_dropSourceSuffix (cs : List Char) :
    ∃ n, cs = (List.replicate n ['y', 'p', '.']).flatten ++ dropSourceSuffix cs ∧
      ¬['y', 'p', '.'] <+: dropSourceSuffix cs := by
  induction cs using dropSourceSuffix.induct with
  | case1 rest ih =>
      obtain ⟨n, hrest, hstem⟩ := ih
      refine ⟨n + 1, ?_, hstem⟩
      rw [dropSourceSuffix, List.replicate_succ, List.flatten_cons, List.append_assoc, ← hrest]
      rfl
  | case2 cs hcs =>
      have hdrop : dropSourceSuffix cs = cs := by
        rw [dropSourceSuffix]
        exact hcs
      rw [hdrop]
      refine ⟨0, rfl, ?_⟩
      rintro ⟨rest, rfl⟩
      exact hcs rest rfl

/-- The name of a source's module is its path without any suffix `.py`, with dots for separators. -/
theorem exists_moduleName (p : String) :
    ∃ stem n, p.toList = stem ++ (List.replicate n ['.', 'p', 'y']).flatten ∧
      ¬['.', 'p', 'y'] <:+ stem ∧ moduleName (p ++ ".py") = dotted (String.ofList stem) := by
  obtain ⟨n, hp, hstem⟩ := exists_dropSourceSuffix p.toList.reverse
  refine ⟨(dropSourceSuffix p.toList.reverse).reverse, n, ?_, ?_, ?_⟩
  · have hreversed := congrArg List.reverse hp
    simpa [List.reverse_flatten, List.map_replicate, List.reverse_replicate] using hreversed
  · rwa [← List.reverse_prefix, List.reverse_reverse]
  · have hname : (p ++ ".py").toList.reverse = 'y' :: 'p' :: '.' :: p.toList.reverse := by
      simp
    rw [moduleName, hname, dropSourceSuffix, dotted, String.toList_ofList]

/-- The name of a source's module is its path without the last suffix exactly if no other precedes
it. -/
theorem moduleName_eq_dotted_iff :
    moduleName (p ++ ".py") = dotted p ↔ ¬['.', 'p', 'y'] <:+ p.toList := by
  obtain ⟨stem, n, hp, hstem, hname⟩ := exists_moduleName p
  have hlength : p.toList.length = stem.length + n * 3 := by
    rw [hp]
    simp
  constructor
  · intro h
    have hsame : stem.length = p.toList.length := by
      have hdotted := congrArg (fun s => s.toList.length) (hname.symm.trans h)
      simpa [dotted] using hdotted
    obtain rfl : n = 0 := by omega
    simpa [hp] using hstem
  · intro h
    cases n with
    | zero =>
        have hsame : p = String.ofList stem := by
          rw [← String.ofList_toList (s := p), hp]
          simp
        rw [hname, ← hsame]
    | succ n =>
        refine absurd ?_ h
        rw [hp, List.replicate_succ', List.flatten_append, List.flatten_singleton,
          ← List.append_assoc]
        exact List.suffix_append ..

end EntryPoint

/-! ### Names of compiled modules -/

namespace Path

theorem splitAt_eq_splitOn (separator : Char) (cs : List Char) :
    splitAt separator cs = cs.splitOn separator := by
  induction cs with
  | nil => rfl
  | cons c cs ih =>
      rw [splitAt] at ih ⊢
      rw [List.foldr_cons, ih, List.splitOn_cons_eq_if_modifyHead]
      by_cases hc : c = separator
      · simp [hc]
      · cases hsplit : cs.splitOn separator with
        | nil => exact absurd hsplit (List.splitOn_ne_nil _ _)
        | cons part rest => simp [hc]

/-- The last part becomes longer by what has no separator. -/
theorem exists_splitOn_append {c : Char} (xs : List Char) {ys : List Char} (hys : c ∉ ys) :
    ∃ before last, xs.splitOn c = before ++ [last] ∧ (xs ++ ys).splitOn c = before ++ [last ++ ys] ∧
      (last = [] → xs = [] ∨ xs.getLast? = some c) := by
  by_cases hxs : c ∈ xs
  · obtain ⟨last, front, hreverse, hlast⟩ := List.eq_append_cons_of_mem (List.mem_reverse.mpr hxs)
    obtain rfl : xs = front.reverse ++ c :: last.reverse := by
      simpa using congrArg List.reverse hreverse
    have hlast' : c ∉ last.reverse := by simpa using hlast
    have hlonger : c ∉ last.reverse ++ ys := by simp [hlast, hys]
    refine ⟨front.reverse.splitOn c, last.reverse, ?_, ?_, ?_⟩
    · rw [List.splitOn_append_cons_self, List.splitOn_eq_singleton hlast']
    · rw [List.append_assoc, List.cons_append, List.splitOn_append_cons_self,
        List.splitOn_eq_singleton hlonger]
    · intro hnil
      rw [hnil]
      exact Or.inr List.getLast?_concat
  · refine ⟨[], xs, List.splitOn_eq_singleton hxs, ?_, Or.inl⟩
    exact List.splitOn_eq_singleton (by simp [hxs, hys])

/-- The suffix of a source is no part of its stem. -/
theorem stem_source {name : String} (h : name ≠ "") : stem (name ++ ".py") = name := by
  have hsplit : splitAt '.' (name ++ ".py").toList = name.toList.splitOn '.' ++ [['p', 'y']] := by
    have hsuffix : ['p', 'y'].splitOn '.' = [['p', 'y']] := by decide
    rw [splitAt_eq_splitOn, String.toList_append, ← hsuffix]
    exact List.splitOn_append_cons_self ..
  have hextension : splitExtension? (name ++ ".py") = some (name, "py") := by
    rw [splitExtension?, hsplit, List.reverse_append]
    cases hparts : (name.toList.splitOn '.').reverse with
    | nil => simp [List.splitOn_ne_nil] at hparts
    | cons last before =>
        have hjoined : ['.'].intercalate (last :: before).reverse = name.toList := by
          rw [← hparts, List.reverse_reverse, List.intercalate_splitOn]
        have hempty : name.toList.isEmpty = false := by simpa using h
        have hup : (name ++ ".py" == "..") = false := by
          rw [beq_eq_false_iff_ne]
          intro heq
          have hlength := congrArg (fun s => s.toList.length) heq
          simp at hlength
        simp only [List.reverse_singleton, List.singleton_append, hjoined, hempty, hup,
          Bool.or_self, String.ofList_toList, Bool.false_eq_true, if_false]
  rw [stem, hextension]

/-- A last name that is longer than those that stay in place or lead up gets another extension. -/
theorem withExtension_of_splitAt {path : String} {before : List (List Char)} {name : List Char}
    (h : splitAt '/' path.toList = before ++ [name]) (hname : 2 < name.length) (extension : String) :
    withExtension path extension = String.ofList
      (['/'].intercalate (before ++ [(stem (String.ofList name)).toList])) ++ "." ++ extension := by
  have hkept : ¬(name = [] ∨ name = ['.']) := by
    rintro (rfl | rfl)
    · cases hname
    · revert hname
      decide
  have hup : name ≠ ['.', '.'] := by
    rintro rfl
    exact absurd hname (by decide)
  rw [withExtension, h, List.reverse_append, List.reverse_singleton, List.singleton_append,
    List.dropWhile_cons_of_neg (by simpa using hkept)]
  split
  · next heq => cases heq
  · next heq => exact absurd (List.cons.inj heq).1 hup
  · next heq =>
    obtain ⟨rfl, rfl⟩ := List.cons.inj heq
    rw [List.reverse_reverse]

/-- Only the last suffix of a source gives way to that of compiled modules. -/
theorem withExtension_source {p : String} (h : p ≠ "") (hslash : p.toList.getLast? ≠ some '/') :
    withExtension (p ++ ".py") "pyc" = p ++ ".pyc" := by
  obtain ⟨before, last, hp, hsource, hlast⟩ :=
    exists_splitOn_append p.toList (show '/' ∉ ".py".toList by decide)
  have hne : last ≠ [] := by
    intro hnil
    obtain hempty | hends := hlast hnil
    · exact h (String.toList_eq_nil_iff.mp hempty)
    · exact hslash hends
  have hparts : splitAt '/' (p ++ ".py").toList = before ++ [last ++ ".py".toList] := by
    rw [splitAt_eq_splitOn, String.toList_append, hsource]
  have hlength : 2 < (last ++ ".py".toList).length := by simp
  have hstem : stem (String.ofList (last ++ ".py".toList)) = String.ofList last := by
    rw [String.ofList_append, String.ofList_toList]
    exact stem_source (by simpa using hne)
  rw [withExtension_of_splitAt hparts hlength, hstem, String.toList_ofList, ← hp,
    List.intercalate_splitOn, String.ofList_toList, String.append_assoc]
  rfl

end Path

/-! ### Entry points of many sources -/

namespace EntryPoints

open EntryPoint

variable {entries others found : EntryPoints} {module name : String}
variable {files : List (String × EntryPoints)}

/-- The entry points whose names lead to a module. -/
def ofModule (entries : EntryPoints) (module : String) : EntryPoints :=
  entries.filter fun e => (split e.name).1 = module

/-- Entry points with those that are found in sources, the paths of which are given. -/
def scanned (entries : EntryPoints) (files : List (String × EntryPoints)) : EntryPoints :=
  files.foldl (fun entries file => entries.extend (file.2.qualified (moduleName file.1))) entries

/-- Names of functions, which have no dots. -/
def Unqualified (found : EntryPoints) : Prop :=
  ∀ e ∈ found, '.' ∉ e.name.toList

instance (found : EntryPoints) : Decidable (Unqualified found) :=
  inferInstanceAs (Decidable (∀ e ∈ found, '.' ∉ e.name.toList))

/-- Naming an entry point of a module is naming it among those of the module. -/
theorem ofModule_insert_self (entries : EntryPoints) (payloads : List ByteArray)
    (h : (split name).1 = module) :
    (entries.insert name payloads).ofModule module =
      (entries.ofModule module).insert name payloads := by
  induction entries with
  | nil => simp [insert, ofModule, h]
  | cons e rest ih =>
      rw [insert]
      by_cases he : e.name = name
      · simp [ofModule, insert, he, h]
      · rw [if_neg he]
        by_cases hmodule : (split e.name).1 = module
        · simpa [ofModule, insert, he, hmodule] using ih
        · simpa [ofModule, hmodule] using ih

/-- Naming an entry point of one module leaves those of all others as they are. -/
theorem ofModule_insert_of_ne (entries : EntryPoints) (payloads : List ByteArray)
    (h : (split name).1 ≠ module) :
    (entries.insert name payloads).ofModule module = entries.ofModule module := by
  induction entries with
  | nil => simp [insert, ofModule, h]
  | cons e rest ih =>
      rw [insert]
      by_cases he : e.name = name
      · simp [ofModule, he, h]
      · rw [if_neg he]
        by_cases hmodule : (split e.name).1 = module
        · simpa [ofModule, hmodule] using ih
        · simpa [ofModule, hmodule] using ih

theorem ofModule_extend (entries others : EntryPoints) (module : String) :
    (entries.extend others).ofModule module =
      (entries.ofModule module).extend (others.ofModule module) := by
  induction others generalizing entries with
  | nil => rfl
  | cons e rest ih =>
      have hcons : entries.extend (e :: rest) = (entries.insert e.name e.payloads).extend rest := rfl
      rw [hcons, ih]
      by_cases he : (split e.name).1 = module
      · rw [ofModule_insert_self entries e.payloads he]
        simp [ofModule, extend, he]
      · rw [ofModule_insert_of_ne entries e.payloads he]
        simp [ofModule, he]

/-- What is found in a source leads to its module. -/
theorem ofModule_qualified (h : Unqualified found) (source : String) :
    (found.qualified source).ofModule module =
      if source = module then found.qualified source else [] := by
  have hsplit : ∀ e ∈ found.qualified source, (split e.name).1 = source := by
    intro e he
    obtain ⟨e, hfound, rfl⟩ := List.mem_map.mp he
    rw [split_qualified (h e hfound)]
  split
  · next heq => exact List.filter_eq_self.mpr fun e he => decide_eq_true ((hsplit e he).trans heq)
  · next hne =>
    refine List.filter_eq_nil_iff.mpr fun e he => ?_
    rw [hsplit e he]
    simpa using hne

/-- The entry points of a module are those of the sources of that module. -/
theorem ofModule_scanned (h : ∀ file ∈ files, Unqualified file.2) (entries : EntryPoints)
    (module : String) :
    (entries.scanned files).ofModule module =
      (entries.ofModule module).scanned (files.filter fun file => moduleName file.1 = module) := by
  induction files generalizing entries with
  | nil => rfl
  | cons file rest ih =>
      rw [List.forall_mem_cons] at h
      have hcons : entries.scanned (file :: rest) =
          (entries.extend (file.2.qualified (moduleName file.1))).scanned rest := rfl
      rw [hcons, ih h.2, ofModule_extend, ofModule_qualified h.1]
      by_cases hfile : moduleName file.1 = module
      · simp [scanned, hfile]
      · simp [scanned, extend, hfile]

end EntryPoints

/-- Compiling sources adds what is found in each of them, in their order. -/
theorem Building.exists_scanned_of_compileSources {σ : Type} {platform : Platform σ}
    {library : String} {scan : Scanner} {store : FrozenStore} {entries result : EntryPoints}
    {session : Session} {relatives : List String} {s t : BuildState σ}
    (h : compileSources platform library (some scan) store entries session relatives s =
      (.ok result, t)) :
    ∃ sources : List (String × String), sources.map (·.1) = relatives ∧
      result = entries.scanned (sources.map fun source => (source.1, scan source.2)) := by
  induction relatives generalizing entries session s with
  | nil =>
      cases h
      exact ⟨[], rfl, rfl⟩
  | cons relative rest ih =>
      obtain ⟨text, _, _, hcompiled⟩ := Stateful.bind_eq_ok h
      obtain ⟨_, _, _, hrest⟩ := Stateful.bind_eq_ok hcompiled
      obtain ⟨sources, hsources, rfl⟩ := ih hrest
      refine ⟨(relative, text) :: sources, ?_, rfl⟩
      rw [List.map_cons, hsources]

namespace EntryPoint

/-- Where the entry points of a source lead, and what those of many sources come to. -/
theorem source_dispatch {σ : Type} :
    (∀ p function : String, '.' ∉ function.toList →
      split (moduleName (p ++ ".py") ++ "." ++ function) = (moduleName (p ++ ".py"), function)) ∧
    (∀ p : String, ∃ stem n, p.toList = stem ++ (List.replicate n ['.', 'p', 'y']).flatten ∧
      ¬['.', 'p', 'y'] <:+ stem ∧ moduleName (p ++ ".py") = dotted (String.ofList stem)) ∧
    (∀ p : String, moduleName (p ++ ".py") = dotted p ↔ ¬['.', 'p', 'y'] <:+ p.toList) ∧
    (∀ p : String, p ≠ "" → p.toList.getLast? ≠ some '/' →
      Path.withExtension (p ++ ".py") "pyc" = p ++ ".pyc") ∧
    (∀ (platform : Platform σ) library scan store entries session relatives (s : BuildState σ) result t,
      Building.compileSources platform library (some scan) store entries session relatives s =
        (.ok result, t) →
      ∃ sources : List (String × String), sources.map (·.1) = relatives ∧
        result = entries.scanned (sources.map fun source => (source.1, scan source.2))) ∧
    ∀ files : List (String × EntryPoints), (∀ file ∈ files, EntryPoints.Unqualified file.2) →
      ∀ (entries : EntryPoints) (module : String),
        (entries.scanned files).ofModule module =
          (entries.ofModule module).scanned
            (files.filter fun file => moduleName file.1 = module) :=
  ⟨fun _ _ => split_qualified, exists_moduleName, fun _ => moduleName_eq_dotted_iff,
    fun _ => Path.withExtension_source,
    fun _ _ _ _ _ _ _ _ _ _ => Building.exists_scanned_of_compileSources,
    fun _ => EntryPoints.ofModule_scanned⟩

/-- Two sources with a function each of the same name keep both of them. -/
theorem nested_source_dispatch :
    split (moduleName ("app\\a" ++ ".py") ++ "." ++ "get") = ("app.a", "get") ∧
    Path.withExtension ("app/a" ++ ".py") "pyc" = "app/a.pyc" ∧
    (EntryPoints.scanned [] [("app/a.py", [⟨"get", []⟩]), ("app/b.py", [⟨"get", []⟩])]).ofModule
      "app.a" = [⟨"app.a.get", []⟩] := by
  obtain ⟨hsplit, _, _, hextension, _, hmodules⟩ := @source_dispatch Unit
  refine ⟨(hsplit "app\\a" "get" (by decide)).trans ?_,
    hextension "app/a" (by decide) (by decide), ?_⟩
  · decide +kernel
  · rw [hmodules _ (by decide)]
    decide +kernel

/-- The module of a source `a.py.py` is not the one that is compiled from it but that of `a.py`, and
of two functions of one name in these sources one is lost. -/
theorem doubled_source_misled :
    split (moduleName ("a.py" ++ ".py") ++ "." ++ "f") ≠ (dotted "a.py", "f") ∧
    Path.withExtension ("a.py" ++ ".py") "pyc" = "a.py.pyc" ∧
    dotted "a" ≠ dotted "a.py" ∧
    EntryPoints.scanned [] [("a" ++ ".py", [⟨"f", []⟩]), ("a.py" ++ ".py", [⟨"f", [⟨#[1]⟩]⟩])] =
      [⟨"a.f", [⟨#[1]⟩]⟩] := by
  decide +kernel

end EntryPoint

end WasmTrim
