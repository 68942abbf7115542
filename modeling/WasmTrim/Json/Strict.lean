import WasmTrim.Json.Basic
import WasmTrim.Json.Magnitude

/-!
# Values that can be kept

A reader that keeps a whole value, rather than skipping what it does not know, asks for more than
syntax: every string must denote a text, every number must be one that a float can hold, and arrays
and objects may be nested 127 deep at most.
-/

namespace WasmTrim.Json

mutual

/-- Tells whether a value can be kept when `depth` more levels of nesting are allowed. -/
def canKeep (depth : Nat) : Json → Bool
  | .number literal => Magnitude.inRange literal
  | .string text => text.isSome
  | .array items => 0 < depth && canKeepItems (depth - 1) items
  | .object members => 0 < depth && canKeepMembers (depth - 1) members
  | _ => true

/-- Tells whether all items of an array can be kept. -/
def canKeepItems (depth : Nat) : List Json → Bool
  | [] => true
  | item :: rest => canKeep depth item && canKeepItems depth rest

/-- Tells whether all members of an object can be kept. -/
def canKeepMembers (depth : Nat) : List (Option String × Json) → Bool
  | [] => true
  | (key, value) :: rest => key.isSome && canKeep depth value && canKeepMembers depth rest

end

/-- How deep values may be nested. -/
def maxDepth : Nat := 127

end WasmTrim.Json
