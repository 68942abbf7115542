/-!
# S-expressions

The structure that the text form of a module is read into: atoms and lists, nothing else. An atom
keeps the exact text it was written with; for a quoted string that includes the quotes and the
escapes. `Sexpr.toText` writes a tree on one line, with one space between neighbours.

## Implementation notes

Printing threads the text written so far through the tree, so that a tree is printed in one pass
over one growing string.
-/

namespace WasmTrim

/-- A tree of the text form. -/
inductive Sexpr where
  /-- A bare word or a quoted string, verbatim. -/
  | atom (text : String)
  /-- A parenthesised sequence. -/
  | list (items : List Sexpr)
  deriving Repr, Inhabited, BEq

namespace Sexpr

mutual

/-- Decides whether two trees are the same. -/
def decEq : (s t : Sexpr) → Decidable (s = t)
  | .atom a, .atom b => if h : a = b then isTrue (by rw [h]) else isFalse (by simpa using h)
  | .atom _, .list _ => isFalse (by simp)
  | .list _, .atom _ => isFalse (by simp)
  | .list xs, .list ys =>
    match decEqItems xs ys with
    | isTrue h => isTrue (by rw [h])
    | isFalse h => isFalse (by simpa using h)

/-- Decides whether two sequences of trees are the same. -/
def decEqItems : (xs ys : List Sexpr) → Decidable (xs = ys)
  | [], [] => isTrue rfl
  | [], _ :: _ => isFalse (by simp)
  | _ :: _, [] => isFalse (by simp)
  | x :: xs, y :: ys =>
    match decEq x y, decEqItems xs ys with
    | isTrue h, isTrue h' => isTrue (by rw [h, h'])
    | isFalse h, _ => isFalse (by simp [h])
    | _, isFalse h => isFalse (by simp [h])

end

instance : DecidableEq Sexpr := decEq

/-- The text of an atom. -/
def atom? : Sexpr → Option String
  | .atom text => some text
  | .list _ => none

/-- The items of a list. -/
def list? : Sexpr → Option (List Sexpr)
  | .list items => some items
  | .atom _ => none

/-- The items of a list; an atom has none. -/
def items : Sexpr → List Sexpr
  | .list items => items
  | .atom _ => []

/-- Tells a list from an atom. -/
def isList : Sexpr → Bool
  | .list _ => true
  | .atom _ => false

/-- The keyword of a list: its first item, when that is an atom. -/
def head? : Sexpr → Option String
  | .list (.atom keyword :: _) => some keyword
  | _ => none

/-- Tells whether a tree is a list that starts with the given keyword. -/
def isForm (keyword : String) (t : Sexpr) : Bool :=
  t.head? == some keyword

mutual

/-- Writes a tree behind the text written so far. -/
def write (out : String) : Sexpr → String
  | .atom text => out ++ text
  | .list items => (writeItems (out.push '(') items).push ')'

/-- Writes trees behind the text written so far, with one space between neighbours. -/
def writeItems (out : String) : List Sexpr → String
  | [] => out
  | [t] => write out t
  | t :: u :: rest => writeItems ((write out t).push ' ') (u :: rest)

end

/-- The tree on one line. -/
def toText (t : Sexpr) : String :=
  write "" t

instance : ToString Sexpr := ⟨toText⟩

@[simp] theorem atom?_atom (text : String) : (atom text).atom? = some text := rfl

@[simp] theorem atom?_list (items : List Sexpr) : (list items).atom? = none := rfl

@[simp] theorem items_list (items : List Sexpr) : (list items).items = items := rfl

@[simp] theorem items_atom (text : String) : (atom text).items = [] := rfl

@[simp] theorem isList_list (items : List Sexpr) : (list items).isList = true := rfl

@[simp] theorem isList_atom (text : String) : (atom text).isList = false := rfl

@[simp] theorem head?_cons_atom (keyword : String) (rest : List Sexpr) :
    (list (atom keyword :: rest)).head? = some keyword := rfl

end Sexpr

end WasmTrim
