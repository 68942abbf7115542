import WasmTrim.EntryPoints.Basic
import WasmTrim.Json.Object

/-!
# Entry points from a file

A JSON object that gives each entry point an array of sample payloads. Entry points come in the
order of the map that the object is read as, so what becomes of a key that is written twice is up to
the reader.
-/

namespace WasmTrim.EntryPoints

/-- The entry points that the members of a map describe. -/
def ofMembers? (members : List (String × Json)) : Option EntryPoints :=
  members.foldlM (fun entries (name, payloads) => do
    return insert entries name ((← payloads.texts?).map String.toUTF8)) []

/-- The entry points that a JSON text describes, if a reader makes a map of it. -/
def parseWith? (read? : ObjectReader) (text : String) : Option EntryPoints :=
  (read? text).bind ofMembers?

/-- The entry points that a JSON text describes. -/
def parse? (text : String) : Option EntryPoints :=
  parseWith? Json.readObject? text

end WasmTrim.EntryPoints
