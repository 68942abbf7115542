import WasmTrim.Json.Parse
import WasmTrim.Json.Strict

/-!
# Objects as maps

What a text that is an object makes of its members: a map that has each key where it is first
written, with the value that is written last.
-/

namespace WasmTrim

/-- Reads a text that is an object as a map, the keys in the order of the map. -/
abbrev ObjectReader := String → Option (List (String × Json))

namespace Json

/-- The members of a text that is an object, one by one as they are written. -/
def writtenMembers? : ObjectReader := fun text =>
  match parse? text with
  | some (.object members) =>
    if canKeep maxDepth (.object members) then
      some (members.map fun (key, value) => (key.getD "", value))
    else none
  | _ => none

/-- Members as a map. -/
def distinctMembers (members : List (String × Json)) : List (String × Json) :=
  members.foldl put []
where
  /-- Gives a key a value, in place where the key is known. -/
  put (known : List (String × Json)) (member : String × Json) : List (String × Json) :=
    match known with
    | [] => [member]
    | m :: rest => if m.1 = member.1 then member :: rest else m :: put rest member

/-- Reads a text that is an object as a map. -/
def readObject? : ObjectReader := fun text =>
  (writtenMembers? text).map distinctMembers

end Json

end WasmTrim
