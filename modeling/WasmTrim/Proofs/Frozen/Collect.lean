import WasmTrim.Frozen.Collect
import WasmTrim.Proofs.FileTree.Write

/-!
# What is collected

Collecting adds candidates up to the first that cannot be read. So a call that comes through adds
the wanted modules in the order of their candidates, and a call that fails adds those in front of
the one that failed. `FrozenStore.modulesIn` are the modules among candidates, and `Candidate.Fails`
says which candidates end a call.

A filter leaves out candidates before they are read. It can therefore turn a call that fails into
one that comes through, and never the other way round, and what it leaves is in the same order.

`FrozenStore.collect_filtered` has all of this. However a call ends, it has changed nothing but to
add modules behind those of the store. If it fails, there is a first candidate that ends it, and the
store has the wanted modules in front of that one: whatever the candidate had been if it could have
been read, the call would have added these modules first.

## Implementation notes

The modules of an archive and of a library are told here from the entries that a reader yields and
from what a walk meets, without candidates, by `FrozenStore.FromArchive` and `FrozenStore.FromWalk`.
Readers and walks are whatever they are: any entry may be damaged, any file unreadable, and a walk
may break off.
-/

namespace WasmTrim

variable {wanted : String → Bool} {cause : PackError}

/-- A candidate ends a call: it cannot be opened, or it is wanted and cannot be read. -/
inductive Candidate.Fails (wanted : String → Bool) : Candidate → PackError → Prop where
  /-- It cannot be opened. -/
  | broken (cause : PackError) : Fails wanted (.broken cause) cause
  /-- It cannot be read. -/
  | unreadable {path : String} (h : wanted path = true) (cause : PackError) :
      Fails wanted (.module path (.error cause)) cause

namespace FrozenStore

variable {store full left : FrozenStore} {candidate item : Candidate}
variable {before after rest candidates : List Candidate} {modules added more : List FrozenModule}

/-- A store with modules added behind its own. -/
def appended (store : FrozenStore) (modules : List FrozenModule) : FrozenStore :=
  { store with modules := store.modules ++ modules.toArray }

theorem appended_nil (store : FrozenStore) : store.appended [] = store := by
  simp [appended]

theorem appended_appended (store : FrozenStore) (modules more : List FrozenModule) :
    (store.appended modules).appended more = store.appended (modules ++ more) := by
  simp [appended]

theorem addModule_eq (store : FrozenStore) (path : String) (code : ByteArray) :
    store.addModule path code = store.appended [⟨path, code⟩] := by
  simp [addModule, appended]

/-! ### Up to the first failure -/

/-- The wanted modules among candidates that can be read. -/
def modulesIn (wanted : String → Bool) (candidates : List Candidate) : List FrozenModule :=
  candidates.filterMap fun
    | .module path (.ok code) => if wanted path then some ⟨path, code⟩ else none
    | _ => none

theorem modulesIn_append (wanted : String → Bool) (before after : List Candidate) :
    modulesIn wanted (before ++ after) = modulesIn wanted before ++ modulesIn wanted after :=
  List.filterMap_append

/-- A candidate that does not end a call adds its module if it is wanted. -/
theorem addCandidates_cons (h : ∀ cause, ¬candidate.Fails wanted cause) :
    store.addCandidates wanted (candidate :: rest) =
      (store.appended (modulesIn wanted [candidate])).addCandidates wanted rest := by
  cases candidate with
  | broken cause => exact absurd (.broken cause) (h cause)
  | module path code =>
      cases hwanted : wanted path with
      | false => cases code <;> simp [addCandidates, modulesIn, hwanted, appended_nil]
      | true =>
          cases code with
          | error cause => exact absurd (.unreadable hwanted cause) (h cause)
          | ok bytes => simp [addCandidates, modulesIn, hwanted, addModule_eq]

/-- Candidates that do not end a call add their modules, and the others follow. -/
theorem addCandidates_append (h : ∀ c ∈ before, ∀ cause, ¬c.Fails wanted cause) :
    store.addCandidates wanted (before ++ rest) =
      (store.appended (modulesIn wanted before)).addCandidates wanted rest := by
  induction before generalizing store with
  | nil => rw [modulesIn, List.filterMap_nil, appended_nil, List.nil_append]
  | cons c before ih =>
      rw [List.forall_mem_cons] at h
      rw [List.cons_append, addCandidates_cons h.1, ih h.2, appended_appended,
        ← modulesIn_append, List.singleton_append]

theorem addCandidates_of_fails (h : item.Fails wanted cause) :
    store.addCandidates wanted (item :: rest) = (store, some cause) := by
  cases h with
  | broken => rfl
  | unreadable hwanted => rw [addCandidates, if_pos hwanted]

/-- No candidate ends a call, or there is a first one that does. -/
theorem fails_none_or_first (wanted : String → Bool) (candidates : List Candidate) :
    (∀ c ∈ candidates, ∀ cause, ¬c.Fails wanted cause) ∨
      ∃ before item after cause, candidates = before ++ item :: after ∧
        (∀ c ∈ before, ∀ cause, ¬c.Fails wanted cause) ∧ item.Fails wanted cause := by
  induction candidates with
  | nil => exact Or.inl (by simp)
  | cons c rest ih =>
      by_cases hc : ∃ cause, c.Fails wanted cause
      · obtain ⟨cause, hc⟩ := hc
        exact Or.inr ⟨[], c, rest, cause, rfl, by simp, hc⟩
      · have hnone : ∀ cause, ¬c.Fails wanted cause := not_exists.mp hc
        rcases ih with hrest | ⟨before, item, after, cause, rfl, hbefore, hitem⟩
        · exact Or.inl (List.forall_mem_cons.mpr ⟨hnone, hrest⟩)
        · exact Or.inr ⟨c :: before, item, after, cause, rfl,
            List.forall_mem_cons.mpr ⟨hnone, hbefore⟩, hitem⟩

theorem addCandidates_of_none (h : ∀ c ∈ candidates, ∀ cause, ¬c.Fails wanted cause) :
    store.addCandidates wanted candidates = (store.appended (modulesIn wanted candidates), none) := by
  rw [← List.append_nil candidates, addCandidates_append h, List.append_nil]
  rfl

/-- A call comes through exactly if no candidate ends it, and then adds all wanted modules. -/
theorem addCandidates_eq_none_iff :
    store.addCandidates wanted candidates = (left, none) ↔
      (∀ c ∈ candidates, ∀ cause, ¬c.Fails wanted cause) ∧
        left = store.appended (modulesIn wanted candidates) := by
  constructor
  · intro h
    rcases fails_none_or_first wanted candidates with
      hnone | ⟨before, item, after, cause, rfl, hbefore, hitem⟩
    · rw [addCandidates_of_none hnone] at h
      exact ⟨hnone, (Prod.mk.inj h).1.symm⟩
    · rw [addCandidates_append hbefore, addCandidates_of_fails hitem] at h
      cases h
  · rintro ⟨hnone, rfl⟩
    exact addCandidates_of_none hnone

/-- A call fails exactly if a candidate ends it, and has then added the wanted modules in front of
the first one that does. -/
theorem addCandidates_eq_some_iff :
    store.addCandidates wanted candidates = (left, some cause) ↔
      ∃ before item after, candidates = before ++ item :: after ∧
        (∀ c ∈ before, ∀ cause, ¬c.Fails wanted cause) ∧ item.Fails wanted cause ∧
        left = store.appended (modulesIn wanted before) := by
  constructor
  · intro h
    rcases fails_none_or_first wanted candidates with
      hnone | ⟨before, item, after, cause, rfl, hbefore, hitem⟩
    · rw [addCandidates_of_none hnone] at h
      cases h
    · rw [addCandidates_append hbefore, addCandidates_of_fails hitem] at h
      obtain ⟨hleft, hcause⟩ := Prod.mk.inj h
      exact ⟨before, item, after, rfl, hbefore, Option.some.inj hcause ▸ hitem, hleft.symm⟩
  · rintro ⟨before, item, after, rfl, hbefore, hitem, rfl⟩
    rw [addCandidates_append hbefore, addCandidates_of_fails hitem]

/-- However a call ends, it has only added modules behind those of the store. -/
theorem exists_addCandidates (wanted : String → Bool) (store : FrozenStore)
    (candidates : List Candidate) :
    ∃ added, (store.addCandidates wanted candidates).1 = store.appended added := by
  cases hcall : store.addCandidates wanted candidates with
  | mk left failure =>
      cases failure with
      | none => exact ⟨_, (addCandidates_eq_none_iff.mp hcall).2⟩
      | some cause =>
          obtain ⟨_, _, _, _, _, _, hleft⟩ := addCandidates_eq_some_iff.mp hcall
          exact ⟨_, hleft⟩

/-! ### Filters -/

/-- What does not end a call without a filter does not end one with a filter. -/
theorem not_fails_of_all (h : ∀ cause, ¬candidate.Fails (fun _ => true) cause) (cause : PackError) :
    ¬candidate.Fails wanted cause := by
  rintro (cause | ⟨_, cause⟩)
  · exact h cause (.broken cause)
  · exact h cause (.unreadable rfl cause)

/-- The wanted modules are those among all modules that are wanted. -/
theorem modulesIn_eq_filter (wanted : String → Bool) (candidates : List Candidate) :
    modulesIn wanted candidates =
      (modulesIn (fun _ => true) candidates).filter fun m => wanted m.path := by
  induction candidates with
  | nil => rfl
  | cons c rest ih =>
      rw [← List.singleton_append, modulesIn_append, modulesIn_append, List.filter_append, ih]
      congr 1
      rcases c with cause | ⟨path, cause | code⟩
      · rfl
      · rfl
      · cases hwanted : wanted path <;> simp [modulesIn, hwanted]

end FrozenStore

/-! ### The modules of an archive -/

namespace Zip.Entry

/-- The characters of an entry's name, without slashes in front. -/
def trimmed (e : Entry) : List Char :=
  e.name.toList.dropWhile (· == '/')

/-- Tells whether an entry is a compiled module. -/
def isCompiled (e : Entry) : Bool :=
  !e.isDirectory && ".pyc".toList.isSuffixOf e.trimmed

end Zip.Entry

namespace FrozenStore

variable {entries? : ArchiveReader} {view : FileView} {directory : String}
variable {modules : List FrozenModule}

/-- Modules are those of an archive: one for each entry that is a compiled module, in the order of
the entries, by its trimmed name and with its contents. -/
inductive FromArchive (entries? : ArchiveReader) (view : FileView) :
    Option String → List FrozenModule → Prop where
  /-- There is no archive. -/
  | none : FromArchive entries? view none []
  /-- The archive was read. -/
  | read {archive : String} {bytes : ByteArray} {entries : List Zip.Entry}
      {modules : List FrozenModule} (hbytes : view.read archive = .ok bytes)
      (hentries : entries? bytes = some entries)
      (hmodules : (entries.filter (·.isCompiled)).map (fun e => (String.ofList e.trimmed, e.contents)) =
        modules.map fun m => (m.path, some m.code)) :
      FromArchive entries? view (some archive) modules

/-- The candidates in an archive, if there is one. -/
def candidatesIn (entries? : ArchiveReader) (view : FileView) : Option String → List Candidate
  | some archive => candidatesOfArchive entries? view archive
  | none => []

/-- An entry that cannot be opened is a candidate whatever it is, and otherwise compiled modules
are. -/
theorem archiveCandidates_singleton (archive : String) (e : Zip.Entry) :
    archiveCandidates archive [e] =
      if e.supported then
        if e.isCompiled then
          [.module (String.ofList e.trimmed) (match e.contents with
            | some bytes => .ok bytes
            | none => .error (.damagedEntry archive (String.ofList e.trimmed)))]
        else []
      else [.broken (.badArchive archive)] := by
  rw [archiveCandidates, List.filterMap_cons, List.filterMap_nil, Zip.Entry.isCompiled,
    Zip.Entry.trimmed]
  cases e.supported with
  | false => rfl
  | true =>
      cases e.isDirectory with
      | true => rfl
      | false =>
          dsimp only
          cases ".pyc".toList.isSuffixOf (e.name.toList.dropWhile (· == '/')) <;> rfl

/-- Entries none of which ends a call give a module each, if they are compiled modules. -/
theorem map_isCompiled {entries : List Zip.Entry}
    (h : ∀ c ∈ archiveCandidates archive entries, ∀ cause, ¬c.Fails (fun _ => true) cause) :
    (entries.filter (·.isCompiled)).map (fun e => (String.ofList e.trimmed, e.contents)) =
      (modulesIn (fun _ => true) (archiveCandidates archive entries)).map
        fun m => (m.path, some m.code) := by
  induction entries with
  | nil => rfl
  | cons e rest ih =>
      have hsplit : archiveCandidates archive (e :: rest) =
          archiveCandidates archive [e] ++ archiveCandidates archive rest :=
        List.filterMap_append (l := [e])
      rw [hsplit, List.forall_mem_append, archiveCandidates_singleton] at h
      rw [hsplit, modulesIn_append, List.map_append, ← ih h.2, archiveCandidates_singleton]
      have he := h.1
      cases hsupported : e.supported with
      | false =>
          rw [hsupported] at he
          exact absurd (.broken _) (he _ (List.mem_singleton_self _) _)
      | true =>
          cases hcompiled : e.isCompiled with
          | false => simp [modulesIn, hcompiled]
          | true =>
              cases hcontents : e.contents with
              | none =>
                  simp only [hsupported, hcompiled, hcontents, if_true] at he
                  exact absurd (.unreadable rfl _) (he _ (List.mem_singleton_self _) _)
              | some bytes => simp [modulesIn, hcompiled, hcontents]

/-- An archive is one candidate that cannot be opened, or its entries are the candidates. -/
theorem candidatesOfArchive_cases (entries? : ArchiveReader) (view : FileView) (archive : String) :
    (∃ cause, candidatesOfArchive entries? view archive = [.broken cause]) ∨
      ∃ bytes entries, view.read archive = .ok bytes ∧ entries? bytes = some entries ∧
        candidatesOfArchive entries? view archive = archiveCandidates archive entries := by
  rw [candidatesOfArchive]
  split
  · exact Or.inl ⟨_, rfl⟩
  · exact Or.inl ⟨_, rfl⟩
  · next bytes hbytes =>
    split
    · next entries hentries => exact Or.inr ⟨bytes, entries, hbytes, hentries, rfl⟩
    · exact Or.inl ⟨_, rfl⟩

/-- An archive whose candidates do not end a call was read, and gives its modules. -/
theorem fromArchive_modulesIn {archive : Option String}
    (h : ∀ c ∈ candidatesIn entries? view archive, ∀ cause, ¬c.Fails (fun _ => true) cause) :
    FromArchive entries? view archive
      (modulesIn (fun _ => true) (candidatesIn entries? view archive)) := by
  cases archive with
  | none => exact .none
  | some archive =>
      rw [candidatesIn] at h ⊢
      rcases candidatesOfArchive_cases entries? view archive with
        ⟨cause, hbroken⟩ | ⟨bytes, entries, hbytes, hentries, hcandidates⟩
      · rw [hbroken] at h
        exact absurd (.broken cause) (h _ (List.mem_singleton_self _) cause)
      · rw [hcandidates] at h ⊢
        exact .read hbytes hentries (map_isCompiled h)

/-! ### The modules of a library -/

/-- The path of something that a walk meets if it is a compiled module. -/
def compiledPath? (entry : WalkEntry) : Option String :=
  if entry.isFile ∧ entry.names.getLast?.bind Path.extension? = some "pyc" then
    some ("/".intercalate entry.names)
  else none

/-- Modules are those of a library: one for each regular file that is a compiled module, in the
order of a complete walk, by the names on the way to it and its contents. -/
def FromWalk (view : FileView) (directory : String) (modules : List FrozenModule) : Prop :=
  ∃ met : List WalkEntry, view.walk directory = met.map .ok ∧
    (met.filterMap compiledPath?).map (fun path => (path, view.read (Path.join directory path))) =
      modules.map fun m => (m.path, .ok m.code)

theorem ofWalk_cons (entry : WalkEntry) (rest : List (Except FileTree.WalkError WalkEntry)) :
    FileList.ofWalk "pyc" (.ok entry :: rest) =
      { FileList.ofWalk "pyc" rest with
        paths := (compiledPath? entry).toList ++ (FileList.ofWalk "pyc" rest).paths } := by
  rw [FileList.ofWalk, compiledPath?]
  split <;> rfl

/-- A walk that comes to its end lists the compiled modules among what it meets. -/
theorem ofWalk_eq {items : List (Except FileTree.WalkError WalkEntry)}
    (h : (FileList.ofWalk "pyc" items).failure = none) :
    ∃ met : List WalkEntry, items = met.map .ok ∧
      (FileList.ofWalk "pyc" items).paths = met.filterMap compiledPath? := by
  induction items with
  | nil => exact ⟨[], rfl, rfl⟩
  | cons item rest ih =>
      cases item with
      | error e => cases h
      | ok entry =>
          rw [ofWalk_cons] at h ⊢
          obtain ⟨met, rfl, hpaths⟩ := ih h
          refine ⟨entry :: met, rfl, ?_⟩
          rw [hpaths]
          cases hentry : compiledPath? entry <;> simp [hentry]

/-- The candidate that a file below a directory is. -/
def fileCandidate (view : FileView) (directory path : String) : Candidate :=
  .module path (match view.read (Path.join directory path) with
    | .ok bytes => .ok bytes
    | .error e => .error (.unreadable (Path.join directory path) e.message))

theorem candidatesBelow_eq (view : FileView) (directory : String) :
    candidatesBelow view directory =
      (view.filesBelow directory "pyc").paths.map (fileCandidate view directory) ++
        (view.filesBelow directory "pyc").failure.toList.map
          fun e => .broken (.unlistable directory e.message) :=
  rfl

/-- Files none of which ends a call give a module each. -/
theorem map_read {paths : List String}
    (h : ∀ path ∈ paths, ∀ cause, ¬(fileCandidate view directory path).Fails (fun _ => true) cause) :
    paths.map (fun path => (path, view.read (Path.join directory path))) =
      (modulesIn (fun _ => true) (paths.map (fileCandidate view directory))).map
        fun m => (m.path, .ok m.code) := by
  induction paths with
  | nil => rfl
  | cons path rest ih =>
      rw [List.forall_mem_cons] at h
      have hpath := h.1
      rw [List.map_cons, List.map_cons,
        ← List.singleton_append (l := rest.map (fileCandidate view directory)), modulesIn_append,
        List.map_append, ← ih h.2]
      cases hread : view.read (Path.join directory path) with
      | error e =>
          rw [fileCandidate, hread] at hpath
          exact absurd (.unreadable rfl _) (hpath _)
      | ok bytes =>
          rw [fileCandidate, hread]
          rfl

/-- A library whose candidates do not end a call was walked, and gives its modules. -/
theorem fromWalk_modulesIn
    (h : ∀ c ∈ candidatesBelow view directory, ∀ cause, ¬c.Fails (fun _ => true) cause) :
    FromWalk view directory (modulesIn (fun _ => true) (candidatesBelow view directory)) := by
  rw [candidatesBelow_eq, List.forall_mem_append] at h
  have hfailure : (view.filesBelow directory "pyc").failure = none := by
    cases hfailure : (view.filesBelow directory "pyc").failure with
    | none => rfl
    | some e =>
        rw [hfailure] at h
        exact absurd (.broken _) (h.2 _ (List.mem_singleton_self _) _)
  have hread := map_read fun path hpath => h.1 _ (List.mem_map_of_mem hpath)
  rw [candidatesBelow_eq, hfailure, Option.toList_none, List.map_nil, List.append_nil]
  obtain ⟨met, hwalk, hpaths⟩ := ofWalk_eq hfailure
  refine ⟨met, hwalk, ?_⟩
  rw [← hpaths]
  exact hread

/-! ### Collecting with and without a filter -/

/-- The paths that are wanted with a filter, and all without one. -/
def wantedBy (filter : Option (List String)) (path : String) : Bool :=
  match filter with
  | some paths => paths.contains path
  | none => true

/-- All that may be a compiled module, in the order in which it is come to. -/
def candidatesFrom (entries? : ArchiveReader) (view : FileView) (archive : Option String)
    (directory : String) : List Candidate :=
  candidatesIn entries? view archive ++ candidatesBelow view directory

theorem collectFrom_eq (store : FrozenStore) (entries? : ArchiveReader) (view : FileView)
    (filter : Option (List String)) (archive : Option String) (directory : String) :
    store.collectFrom entries? view filter archive directory =
      store.addCandidates (wantedBy filter) (candidatesFrom entries? view archive directory) := by
  cases archive <;> rfl

/-- A filtered collection is the filter of the full one, and adds what comes first even
if it fails. -/
theorem collect_filtered (store : FrozenStore) (entries? : ArchiveReader) (view : FileView)
    (archive : Option String) (directory : String) :
    (∀ full, store.collectFrom entries? view none archive directory = (full, none) →
      ∃ fromArchive fromWalk, FromArchive entries? view archive fromArchive ∧
        FromWalk view directory fromWalk ∧ full = store.appended (fromArchive ++ fromWalk) ∧
        ∀ filter : List String, store.collectFrom entries? view (some filter) archive directory =
          (store.appended ((fromArchive ++ fromWalk).filter fun m => filter.contains m.path), none)) ∧
    (∀ filter, ∃ added,
      (store.collectFrom entries? view filter archive directory).1 = store.appended added) ∧
    ∀ filter left cause,
      store.collectFrom entries? view filter archive directory = (left, some cause) →
      ∃ before item after,
        candidatesFrom entries? view archive directory = before ++ item :: after ∧
        item.Fails (wantedBy filter) cause ∧
        left = store.appended (modulesIn (wantedBy filter) before) ∧
        ∀ items, ∃ more, (store.addCandidates (wantedBy filter) (before ++ items ++ after)).1 =
          left.appended more := by
  refine ⟨?_, ?_, ?_⟩
  · intro full hfull
    rw [collectFrom_eq] at hfull
    obtain ⟨hnone, rfl⟩ := addCandidates_eq_none_iff.mp hfull
    obtain ⟨harchive, hwalk⟩ := List.forall_mem_append.mp hnone
    refine ⟨_, _, fromArchive_modulesIn harchive, fromWalk_modulesIn hwalk, ?_, fun filter => ?_⟩
    · rw [candidatesFrom, modulesIn_append]
      rfl
    · rw [collectFrom_eq, addCandidates_of_none fun c hc => not_fails_of_all (hnone c hc),
        modulesIn_eq_filter, candidatesFrom, modulesIn_append]
      rfl
  · intro filter
    rw [collectFrom_eq]
    exact exists_addCandidates _ store _
  · intro filter left cause hleft
    rw [collectFrom_eq] at hleft
    obtain ⟨before, item, after, hsplit, hbefore, hitem, rfl⟩ := addCandidates_eq_some_iff.mp hleft
    refine ⟨before, item, after, hsplit, hitem, rfl, fun items => ?_⟩
    rw [List.append_assoc, addCandidates_append hbefore]
    exact exists_addCandidates _ _ _

/-- An archive with one entry, `/os.pyc`. -/
def smallArchive : ByteArray :=
  ⟨#[80, 75, 3, 4, 20, 0, 0, 0, 0, 0, 0, 0, 33, 0, 17, 69, 176, 106, 2, 0, 0, 0, 2, 0, 0, 0, 7, 0,
    0, 0, 47, 111, 115, 46, 112, 121, 99, 111, 115, 80, 75, 1, 2, 20, 3, 20, 0, 0, 0, 0, 0, 0, 0,
    33, 0, 17, 69, 176, 106, 2, 0, 0, 0, 2, 0, 0, 0, 7, 0, 0, 0, 0, 0, 0, 0, 0, 0, 0, 0, 128, 1,
    0, 0, 0, 0, 47, 111, 115, 46, 112, 121, 99, 80, 75, 5, 6, 0, 0, 0, 0, 1, 0, 1, 0, 53, 0, 0, 0,
    39, 0, 0, 0, 0, 0]⟩

/-- A tree with that archive and a library of one compiled module and its source. -/
def libraryTree : FileTree where
  entries := [(["std.zip"], .file smallArchive false), (["lib"], .directory),
    (["lib", "contract.py"], .file ⟨#[115]⟩ false), (["lib", "contract.pyc"], .file ⟨#[99]⟩ false)]

theorem entries?_smallArchive : Zip.entries? smallArchive =
    some [{ name := "/os.pyc", supported := true, contents := some ⟨#[111, 115]⟩ }] := by
  have hfields : (Zip.entries? smallArchive).map (·.map fun e => (e.name, e.supported, e.contents)) =
      some [("/os.pyc", true, some ⟨#[111, 115]⟩)] := by
    decide +kernel
  obtain ⟨entries, hentries, hmap⟩ := Option.map_eq_some_iff.mp hfields
  obtain ⟨⟨name, supported, contents⟩, rfl, he⟩ := List.map_eq_singleton_iff.mp hmap
  cases he
  exact hentries

theorem read_libraryTree_archive : libraryTree.read "std.zip" = .ok smallArchive := by
  have hsteps : Path.steps "std.zip" = ["std.zip"] := by decide +kernel
  have hlook : libraryTree.lookUp "std.zip" .reach =
      .ok (.found ["std.zip"] (.file smallArchive false)) := by
    rw [FileTree.lookUp, if_neg (by decide), if_neg (by decide), if_neg (by decide), hsteps]
    exact FileTree.walk_reach_file (by decide) (by decide) (by decide) rfl
  rw [FileTree.read, hlook]

theorem read_libraryTree_none : libraryTree.read "none.zip" = .error .notFound := by
  have hsteps : Path.steps "none.zip" = ["none.zip"] := by decide +kernel
  have hlook : libraryTree.lookUp "none.zip" .reach = .ok (.missing [] "none.zip") := by
    rw [FileTree.lookUp, if_neg (by decide), if_neg (by decide), if_neg (by decide), hsteps]
    exact FileTree.walk_reach_missing (by decide) (by decide) (by decide) rfl (by decide +kernel)
  rw [FileTree.read, hlook]

theorem read_libraryTree_contract : libraryTree.read "lib/contract.pyc" = .ok ⟨#[99]⟩ := by
  have hsteps : Path.steps "lib/contract.pyc" = ["lib", "contract.pyc"] := by decide +kernel
  have hlook : libraryTree.lookUp "lib/contract.pyc" .reach =
      .ok (.found ["lib", "contract.pyc"] (.file ⟨#[99]⟩ false)) := by
    rw [FileTree.lookUp, if_neg (by decide), if_neg (by decide), if_neg (by decide), hsteps,
      FileTree.walk_reach_directory (by decide) (by decide) (by decide) rfl]
    exact FileTree.walk_reach_file (by decide) (by decide) (by decide) rfl
  rw [FileTree.read, hlook]

theorem filesBelow_libraryTree :
    libraryTree.view.filesBelow "lib" "pyc" = ⟨["contract.pyc"], none⟩ := by
  have hlook : libraryTree.lookUp "lib" .reach = .ok (.found ["lib"] .directory) := by
    have hsteps : Path.steps "lib" = ["lib"] := by decide +kernel
    rw [FileTree.lookUp, if_neg (by decide), if_neg (by decide), if_neg (by decide), hsteps,
      FileTree.walk_reach_directory (by decide) (by decide) (by decide) rfl, FileTree.walk]
    rfl
  have hfiles : libraryTree.view.filesBelow "lib" "pyc" =
      FileList.ofWalk "pyc" (libraryTree.metBelow "lib") :=
    rfl
  rw [hfiles, FileTree.metBelow, hlook]
  decide +kernel

theorem candidatesFrom_libraryTree :
    candidatesFrom Zip.entries? libraryTree.view (some "std.zip") "lib" =
      [.module "os.pyc" (.ok ⟨#[111, 115]⟩), .module "contract.pyc" (.ok ⟨#[99]⟩)] := by
  have harchive : libraryTree.view.read "std.zip" = .ok smallArchive := read_libraryTree_archive
  have hcontract : libraryTree.view.read "lib/contract.pyc" = .ok ⟨#[99]⟩ :=
    read_libraryTree_contract
  have hjoin : Path.join "lib" "contract.pyc" = "lib/contract.pyc" := by decide +kernel
  have htrimmed : String.ofList (Zip.Entry.trimmed ⟨"/os.pyc", true, some ⟨#[111, 115]⟩⟩) =
      "os.pyc" := by decide +kernel
  have hcompiled : Zip.Entry.isCompiled ⟨"/os.pyc", true, some ⟨#[111, 115]⟩⟩ = true := by
    decide +kernel
  rw [candidatesFrom, candidatesIn, candidatesOfArchive, harchive, candidatesBelow_eq,
    filesBelow_libraryTree]
  simp only [entries?_smallArchive, archiveCandidates_singleton, hcompiled, htrimmed,
    List.map_cons, fileCandidate, hjoin, hcontract]
  rfl

/-- The library is collected behind the archive, and a filter leaves one module of them. An archive
that is not there ends a call before anything is added. -/
theorem library_collected :
    (∃ full, empty.collect libraryTree none (some "std.zip") "lib" = (full, none) ∧
      full.modules = #[⟨"os.pyc", ⟨#[111, 115]⟩⟩, ⟨"contract.pyc", ⟨#[99]⟩⟩]) ∧
    empty.collect libraryTree (some ["contract.pyc"]) (some "std.zip") "lib" =
      (empty.appended [⟨"contract.pyc", ⟨#[99]⟩⟩], none) ∧
    ∃ cause, empty.collect libraryTree none (some "none.zip") "lib" = (empty, some cause) ∧
      ∃ before item after, candidatesFrom Zip.entries? libraryTree.view (some "none.zip") "lib" =
        before ++ item :: after ∧ item.Fails (wantedBy none) cause := by
  have hfull : empty.collectFrom Zip.entries? libraryTree.view none (some "std.zip") "lib" =
      (empty.appended [⟨"os.pyc", ⟨#[111, 115]⟩⟩, ⟨"contract.pyc", ⟨#[99]⟩⟩], none) := by
    rw [collectFrom_eq, candidatesFrom_libraryTree]
    rfl
  obtain ⟨fromArchive, fromWalk, _, _, hadded, hfiltered⟩ :=
    (collect_filtered empty Zip.entries? libraryTree.view (some "std.zip") "lib").1 _ hfull
  have hmodules : fromArchive ++ fromWalk =
      [⟨"os.pyc", ⟨#[111, 115]⟩⟩, ⟨"contract.pyc", ⟨#[99]⟩⟩] := by
    have harrays := congrArg FrozenStore.modules hadded
    simpa [appended, empty] using harrays.symm
  refine ⟨⟨_, hfull, rfl⟩, ?_, ?_⟩
  · rw [collect, hfiltered, hmodules]
    rfl
  · have hnone : empty.collectFrom Zip.entries? libraryTree.view none (some "none.zip") "lib" =
        (empty, some (.unreadable "none.zip" FileError.notFound.message)) := by
      have hread : libraryTree.view.read "none.zip" = .error .notFound := read_libraryTree_none
      rw [collectFrom_eq, candidatesFrom, candidatesIn, candidatesOfArchive, hread]
      rfl
    obtain ⟨before, item, after, hsplit, hitem, _⟩ :=
      (collect_filtered empty Zip.entries? libraryTree.view (some "none.zip") "lib").2.2 none _ _
        hnone
    exact ⟨_, hnone, before, item, after, hsplit, hitem⟩

end FrozenStore

end WasmTrim
