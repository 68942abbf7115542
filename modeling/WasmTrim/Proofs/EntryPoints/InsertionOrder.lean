import WasmTrim.EntryPoints.OfJson
import WasmTrim.Proofs.Keyed

/-!
# Entry points in the order of their names

Storage couples the entry points of a contract, so the order in which they are traced matters. It is
the order in which their names first came up, whatever was done to make them: naming one again
replaces its payloads and leaves it where it is.

`EntryPoints.Operation` has all that is done to entry points, and `EntryPoints.namings` tells from
operations alone which names came up with which payloads, one after another.
`EntryPoints.operations_keep_order` says what entry points are by their namings: each name once,
where it first came up, with the payloads of its last naming. A text that describes no entry points
changes nothing. Naming the entry points of others is naming them one by one, doing it twice is
doing it once, and it does not matter whether others are extended first. Qualifying changes each
name where it stands.

Texts are read by any reader that makes of an object what `ReadsInOrder` says.

## Implementation notes

An operation that names the entry points of others has the operations that made those, so operations
are trees, and what is proved of a sequence of them is proved of single ones along with it.
-/

namespace WasmTrim

open Keyed

/-- A reader makes a map of what is written: each key where it is first written, with its last
value. -/
def ReadsInOrder (written? read? : ObjectReader) : Prop :=
  ∀ text map, read? text = some map ↔
    ∃ members, written? text = some members ∧ Latest Prod.fst members map

namespace Json

theorem put_eq : distinctMembers.put = place Prod.fst := by
  funext known member
  induction known with
  | nil => rfl
  | cons m rest ih => rw [distinctMembers.put, place, ih]

theorem distinctMembers_eq (members : List (String × Json)) :
    distinctMembers members = placeAll Prod.fst [] members := by
  rw [distinctMembers, put_eq, placeAll]

theorem readsInOrder_readObject? : ReadsInOrder writtenMembers? readObject? := by
  intro text map
  rw [readObject?, Option.map_eq_some_iff]
  simp only [latest_iff, distinctMembers_eq, eq_comm]

end Json

namespace EntryPoints

/-- What is done to entry points. -/
inductive Operation where
  /-- Names one. -/
  | insert (name : String) (payloads : List ByteArray)
  /-- Names those that other operations make. -/
  | extend (others : List Operation)
  /-- Starts over with names that have no payloads. -/
  | ofNames (names : List String)
  /-- Starts over with those of a JSON text, if it describes some. -/
  | parse (text : String)
  /-- Qualifies all names by a module. -/
  | qualified (module : String)

section Operations

variable (read? : ObjectReader)

mutual

/-- The entry points after an operation. -/
def after (entries : EntryPoints) : Operation → EntryPoints
  | .insert name payloads => entries.insert name payloads
  | .extend others => entries.extend (afterAll [] others)
  | .ofNames names => EntryPoints.ofNames names
  | .parse text => (parseWith? read? text).getD entries
  | .qualified module => entries.qualified module

/-- The entry points after operations, one after another. -/
def afterAll (entries : EntryPoints) : List Operation → EntryPoints
  | [] => entries
  | operation :: rest => afterAll (after entries operation) rest

end

/-- The entry points that operations make of none. -/
def made (operations : List Operation) : EntryPoints :=
  afterAll read? [] operations

mutual

/-- The namings after an operation, given those before it: each name that came up with its payloads,
the earliest first. -/
def namingsAfter (log : List EntryPoint) : Operation → List EntryPoint
  | .insert name payloads => log ++ [⟨name, payloads⟩]
  | .extend others => log ++ namingsAfterAll [] others
  | .ofNames names => names.map fun name => ⟨name, []⟩
  | .parse text => (parseWith? read? text).getD log
  | .qualified module => log.map fun e => { e with name := module ++ "." ++ e.name }

/-- The namings after operations. -/
def namingsAfterAll (log : List EntryPoint) : List Operation → List EntryPoint
  | [] => log
  | operation :: rest => namingsAfterAll (namingsAfter log operation) rest

end

/-- Each name that came up in operations, with its payloads, the earliest first. -/
def namings (operations : List Operation) : List EntryPoint :=
  namingsAfterAll read? [] operations

end Operations

variable {entries others : EntryPoints} {name module text : String}
variable {pairs : List (String × Json)}

/-! ### Entry points as keyed lists -/

theorem insert_eq (entries : EntryPoints) (name : String) (payloads : List ByteArray) :
    entries.insert name payloads = place EntryPoint.name entries ⟨name, payloads⟩ := by
  induction entries with
  | nil => rfl
  | cons e rest ih => rw [insert, place, ih]

theorem extend_eq (entries others : EntryPoints) :
    entries.extend others = placeAll EntryPoint.name entries others := by
  simp only [extend, insert_eq]
  rfl

theorem ofNames_eq (names : List String) :
    ofNames names = placeAll EntryPoint.name [] (names.map fun name => ⟨name, []⟩) := by
  simp only [ofNames, insert_eq, placeAll, List.foldl_map]

/-- Qualified names are the same only for the same name. -/
theorem qualified_inj {a b : String} : module ++ "." ++ a = module ++ "." ++ b ↔ a = b := by
  constructor
  · intro h
    exact String.append_right_inj _ |>.mp h
  · rintro rfl
    rfl

theorem qualified_extend (entries others : EntryPoints) (module : String) :
    (entries.extend others).qualified module =
      (entries.qualified module).extend (others.qualified module) := by
  have hnames (a b : EntryPoint) :
      module ++ "." ++ a.name = module ++ "." ++ b.name ↔ a.name = b.name := qualified_inj
  rw [extend_eq, extend_eq]
  exact map_placeAll EntryPoint.name EntryPoint.name hnames entries others

/-! ### Entry points of a text -/

/-- The entry point that a key and its value describe. -/
def entryOf? : String × Json → Option EntryPoint
  | (name, payloads) => payloads.texts?.map fun texts => ⟨name, texts.map String.toUTF8⟩

/-- Naming what members describe, one after another, is naming all that they describe. -/
theorem foldlM_insert (pairs : List (String × Json)) (known : EntryPoints) :
    (pairs.foldlM (fun entries (name, payloads) => do
        return insert entries name ((← payloads.texts?).map String.toUTF8)) known) =
      (pairs.mapM entryOf?).map (placeAll EntryPoint.name known) := by
  induction pairs generalizing known with
  | nil => rfl
  | cons pair rest ih =>
      obtain ⟨name, payloads⟩ := pair
      rw [List.foldlM_cons, List.mapM_cons, entryOf?]
      cases htexts : payloads.texts? with
      | none =>
          simp only [htexts]
          rfl
      | some texts =>
          simp only [htexts]
          refine (ih (known.insert name (texts.map String.toUTF8))).trans ?_
          rw [insert_eq]
          cases rest.mapM entryOf? <;> rfl

theorem name_of_entryOf? {pair : String × Json} {e : EntryPoint} (h : entryOf? pair = some e) :
    e.name = pair.1 := by
  obtain ⟨texts, _, rfl⟩ := Option.map_eq_some_iff.mp h
  rfl

theorem map_name_of_mapM (h : pairs.mapM entryOf? = some entries) :
    entries.map EntryPoint.name = pairs.map Prod.fst := by
  induction pairs generalizing entries with
  | nil =>
      cases h
      rfl
  | cons pair rest ih =>
      rw [List.mapM_cons] at h
      obtain ⟨e, he, h⟩ := Option.bind_eq_some_iff.mp h
      obtain ⟨others, hothers, h⟩ := Option.bind_eq_some_iff.mp h
      cases h
      rw [List.map_cons, List.map_cons, name_of_entryOf? he, ih hothers]

/-- Members of distinct keys describe one entry point each, in their order. -/
theorem ofMembers?_of_nodup (h : (pairs.map Prod.fst).Nodup) :
    ofMembers? pairs = pairs.mapM entryOf? := by
  rw [ofMembers?, foldlM_insert]
  cases hentries : pairs.mapM entryOf? with
  | none => rfl
  | some entries =>
      have hnodup : (entries.map EntryPoint.name).Nodup := by
        rwa [map_name_of_mapM hentries]
      rw [Option.map_some, placeAll_nil hnodup]

section Parse

variable {written? read? : ObjectReader}

/-- A text describes entry points exactly if it is an object and the last value of each of its keys
has payloads. -/
theorem parseWith?_eq_some_iff (h : ReadsInOrder written? read?) :
    parseWith? read? text = some entries ↔ ∃ members last, written? text = some members ∧
      Latest Prod.fst members last ∧ last.mapM entryOf? = some entries := by
  have hnodup : ∀ {members last : List (String × Json)}, Latest Prod.fst members last →
      (last.map Prod.fst).Nodup := by
    intro members last hlast
    rw [latest_iff.mp hlast]
    exact nodup_placeAll_nil Prod.fst members
  rw [parseWith?, Option.bind_eq_some_iff]
  constructor
  · rintro ⟨last, hread, hentries⟩
    obtain ⟨members, hwritten, hlast⟩ := (h text last).mp hread
    rw [ofMembers?_of_nodup (hnodup hlast)] at hentries
    exact ⟨members, last, hwritten, hlast, hentries⟩
  · rintro ⟨members, last, hwritten, hlast, hentries⟩
    refine ⟨last, (h text last).mpr ⟨members, hwritten, hlast⟩, ?_⟩
    rwa [ofMembers?_of_nodup (hnodup hlast)]

theorem nodup_of_parseWith? (h : parseWith? read? text = some entries) :
    (entries.map EntryPoint.name).Nodup := by
  obtain ⟨members, _, hentries⟩ := Option.bind_eq_some_iff.mp h
  rw [ofMembers?, foldlM_insert] at hentries
  obtain ⟨others, _, rfl⟩ := Option.map_eq_some_iff.mp hentries
  exact nodup_placeAll_nil EntryPoint.name others

end Parse

/-! ### Entry points after operations -/

section After

variable {read? : ObjectReader}

mutual

/-- An operation does to the namings what it does to the entry points that they come to. -/
theorem after_placeAll (log : List EntryPoint) : (operation : Operation) →
    after read? (placeAll EntryPoint.name [] log) operation =
      placeAll EntryPoint.name [] (namingsAfter read? log operation)
  | .insert name payloads => by
    rw [after, namingsAfter, insert_eq, placeAll_append]
    rfl
  | .extend others => by
    have hothers := afterAll_placeAll [] others
    have hnil : placeAll EntryPoint.name [] [] = [] := rfl
    rw [hnil] at hothers
    rw [after, namingsAfter, hothers, extend_eq, placeAll_placeAll_nil, placeAll_append]
  | .ofNames names => by
    rw [after, namingsAfter, ofNames_eq]
  | .parse text => by
    rw [after, namingsAfter]
    cases h : parseWith? read? text with
    | none => rfl
    | some entries => exact (placeAll_nil (nodup_of_parseWith? h)).symm
  | .qualified module => by
    have h := qualified_extend [] log module
    rw [extend_eq, extend_eq] at h
    rw [after, namingsAfter, h]
    rfl

/-- Operations do to the namings what they do to the entry points that these come to. -/
theorem afterAll_placeAll (log : List EntryPoint) : (operations : List Operation) →
    afterAll read? (placeAll EntryPoint.name [] log) operations =
      placeAll EntryPoint.name [] (namingsAfterAll read? log operations)
  | [] => rfl
  | operation :: rest => by
    rw [afterAll, namingsAfterAll, after_placeAll log operation]
    exact afterAll_placeAll (namingsAfter read? log operation) rest

end

theorem made_eq (operations : List Operation) :
    made read? operations = placeAll EntryPoint.name [] (namings read? operations) :=
  afterAll_placeAll [] operations

theorem nodup_made (operations : List Operation) :
    ((made read? operations).map EntryPoint.name).Nodup := by
  rw [made_eq]
  exact nodup_placeAll_nil EntryPoint.name (namings read? operations)

/-- Naming entry points one by one is naming them all. -/
theorem afterAll_insert (entries others : EntryPoints) :
    afterAll read? entries (others.map fun e => .insert e.name e.payloads) =
      entries.extend others := by
  induction others generalizing entries with
  | nil => rfl
  | cons e rest ih =>
      rw [List.map_cons, afterAll, ih]
      rfl

end After

theorem nodup_qualified_iff :
    ((entries.qualified module).map EntryPoint.name).Nodup ↔
      (entries.map EntryPoint.name).Nodup := by
  have hnames : (entries.qualified module).map EntryPoint.name =
      (entries.map EntryPoint.name).map (module ++ "." ++ ·) := by
    rw [qualified, List.map_map, List.map_map]
    rfl
  rw [hnames]
  exact List.nodup_map_iff fun _ _ => qualified_inj.mp

/-- Entry points are a map in the order of insertion, whatever operations made them and whatever
reader their texts were read by. -/
theorem operations_keep_order {written? read? : ObjectReader} (h : ReadsInOrder written? read?) :
    (∀ operations entries, entries = made read? operations ↔
      Latest EntryPoint.name (namings read? operations) entries) ∧
    (∀ operations, ((made read? operations).map EntryPoint.name).Nodup) ∧
    (∀ text, parseWith? read? text = none →
      ∀ entries, after read? entries (.parse text) = entries) ∧
    (∀ text entries, parseWith? read? text = some entries ↔
      ∃ members last, written? text = some members ∧ Latest Prod.fst members last ∧
        last.mapM entryOf? = some entries) ∧
    (∀ entries others, after read? entries (.extend others) =
      afterAll read? entries ((made read? others).map fun e => .insert e.name e.payloads)) ∧
    (∀ entries others, afterAll read? entries [.extend others, .extend others] =
      after read? entries (.extend others)) ∧
    (∀ (entries more : EntryPoints) others, entries.extend ((made read? others).extend more) =
      (entries.extend (made read? others)).extend more) ∧
    (∀ (entries : EntryPoints) (module : String) (i : Nat), (entries.qualified module)[i]? =
      entries[i]?.map fun e => EntryPoint.mk (module ++ "." ++ e.name) e.payloads) ∧
    ∀ (entries : EntryPoints) (module : String), ((entries.qualified module).map EntryPoint.name).Nodup ↔
      (entries.map EntryPoint.name).Nodup := by
  refine ⟨?_, nodup_made, ?_, fun _ _ => parseWith?_eq_some_iff h, ?_, ?_, ?_, ?_,
    fun _ _ => nodup_qualified_iff⟩
  · intro operations entries
    rw [latest_iff, made_eq]
  · intro text hnone entries
    rw [after, hnone, Option.getD_none]
  · intro entries others
    exact (afterAll_insert entries (made read? others)).symm
  · intro entries others
    have hnodup : ((made read? others).map EntryPoint.name).Nodup := nodup_made others
    have htwice := placeAll_twice hnodup entries
    rw [← extend_eq, ← extend_eq] at htwice
    exact htwice
  · intro entries more others
    have hnodup : ((made read? others).map EntryPoint.name).Nodup := nodup_made others
    have hassoc := placeAll_placeAll hnodup entries more
    simp only [← extend_eq] at hassoc
    exact hassoc
  · intro entries module i
    exact List.getElem?_map

/-- An entry point that is named again, qualified, and then followed by a text that
describes none. -/
def mixedOperations : List Operation :=
  [.insert "get" [⟨#[1]⟩], .extend [.ofNames ["set", "get"]], .qualified "app", .parse "[1]"]

/-- It keeps its place and loses its payloads, and the text changes nothing. -/
theorem mixedOperations_keep_order :
    ReadsInOrder Json.writtenMembers? Json.readObject? ∧
    parseWith? Json.readObject? "[1]" = none ∧
    after Json.readObject? [⟨"app.get", []⟩] (.parse "[1]") = [⟨"app.get", []⟩] ∧
    Latest EntryPoint.name (namings Json.readObject? mixedOperations)
      [⟨"app.get", []⟩, ⟨"app.set", []⟩] := by
  have hread := Json.readsInOrder_readObject?
  obtain ⟨hlatest, _, hnone, _⟩ := operations_keep_order hread
  have h : parseWith? Json.readObject? "[1]" = none := by decide
  exact ⟨hread, h, hnone _ h _, (hlatest mixedOperations _).mp (by decide)⟩

end EntryPoints

end WasmTrim
