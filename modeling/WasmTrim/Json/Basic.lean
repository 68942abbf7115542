import WasmTrim.Text.Digits

/-!
# JSON values

Values as their text writes them: an object keeps its members in written order, repeated keys
included, and a number keeps its spelling. A string whose escapes leave half of a surrogate pair
alone is well formed as JSON but denotes no text.
-/

namespace WasmTrim

/-- A JSON value. -/
inductive Json where
  /-- The null value. -/
  | null
  /-- A truth value. -/
  | bool (value : Bool)
  /-- A number, as it is spelled. -/
  | number (literal : String)
  /-- A string; it has no text when half of a surrogate pair stands alone in it. -/
  | string (text : Option String)
  /-- An array. -/
  | array (items : List Json)
  /-- An object, its members in written order. -/
  | object (members : List (Option String × Json))
  deriving Repr, Inhabited

namespace Json

/-- The string that denotes a text. -/
def ofString (text : String) : Json := .string (some text)

/-- The object with the given members. -/
def ofMembers (members : List (String × Json)) : Json :=
  .object (members.map fun (key, value) => (some key, value))

/-- The text of a string. -/
def text? : Json → Option String
  | .string text => text
  | _ => none

/-- The value of a truth value. -/
def bool? : Json → Option Bool
  | .bool value => some value
  | _ => none

/-- The texts of an array of strings. -/
def texts? : Json → Option (List String)
  | .array items => items.mapM text?
  | _ => none

/-- The value of the first member with the given key. -/
def member? (key : String) : Json → Option Json
  | .object members => (members.find? fun (k, _) => k == some key).map (·.2)
  | _ => none

/-- The characters that write one character of a string. -/
def escapeChar (c : Char) : List Char :=
  if c = '"' then ['\\', '"']
  else if c = '\\' then ['\\', '\\']
  else if c.toNat < 32 then '\\' :: 'u' :: '0' :: '0' :: hexByte c.toNat.toUInt8
  else [c]

/-- Writes a string behind the text written so far. -/
def writeString (out : String) (text : String) : String :=
  (text.toList.foldl (fun out c => (escapeChar c).foldl String.push out) (out.push '"')).push '"'

mutual

/-- Writes a value behind the text written so far. -/
def write (out : String) : Json → String
  | .null => out ++ "null"
  | .bool value => out ++ (if value then "true" else "false")
  | .number literal => out ++ literal
  | .string text => writeString out (text.getD "")
  | .array items => (writeItems (out.push '[') items).push ']'
  | .object members => (writeMembers (out.push '\x7b') members).push '\x7d'

/-- Writes the items of an array. -/
def writeItems (out : String) : List Json → String
  | [] => out
  | [item] => write out item
  | item :: next :: rest => writeItems ((write out item).push ',') (next :: rest)

/-- Writes the members of an object. -/
def writeMembers (out : String) : List (Option String × Json) → String
  | [] => out
  | [(key, value)] => write ((writeString out (key.getD "")).push ':') value
  | (key, value) :: next :: rest =>
    writeMembers ((write ((writeString out (key.getD "")).push ':') value).push ',')
      (next :: rest)

end

/-- The text of a value, without blanks. -/
def render (value : Json) : String :=
  write "" value

end Json

end WasmTrim
