/-!
# Maps as sorted lists

Finite maps that are shown in the order of their keys: from register ids, and from storage keys. A
map is a list of keys and values with strictly increasing keys.
-/

namespace WasmTrim.SortedMap

variable {κ β : Type} [LT κ] [DecidableLT κ] [DecidableEq κ]

/-- The value of a key. -/
def get? (key : κ) : List (κ × β) → Option β
  | [] => none
  | (k, v) :: rest => if k = key then some v else get? key rest

/-- Gives a key a value. -/
def insert (key : κ) (value : β) : List (κ × β) → List (κ × β)
  | [] => [(key, value)]
  | (k, v) :: rest =>
    if k = key then (key, value) :: rest
    else if key < k then (key, value) :: (k, v) :: rest
    else (k, v) :: insert key value rest

/-- Takes a key out of a map. -/
def erase (key : κ) (map : List (κ × β)) : List (κ × β) :=
  map.filter fun entry => entry.1 ≠ key

/-- A key has the value that it was given, and every other key the one that it had. -/
theorem get?_insert (key key' : κ) (value : β) (map : List (κ × β)) :
    get? key' (insert key value map) = if key' = key then some value else get? key' map := by
  induction map with
  | nil => by_cases h : key = key' <;> simp [insert, get?, h, eq_comm]
  | cons entry rest ih =>
    obtain ⟨k, v⟩ := entry
    by_cases h : k = key
    · subst h
      by_cases h' : key' = k <;> simp [insert, get?, h', eq_comm]
    · simp only [insert, h, if_false]
      split
      · by_cases h' : key = key' <;> simp [get?, h', eq_comm]
      · simp only [get?, ih]
        by_cases h' : k = key'
        · subst h'
          simp [h]
        · simp [h']

omit [LT κ] [DecidableLT κ] in
/-- A key that was taken out has no value, and every other key the one that it had. -/
theorem get?_erase (key key' : κ) (map : List (κ × β)) :
    get? key' (erase key map) = if key' = key then none else get? key' map := by
  induction map with
  | nil => simp [erase, get?]
  | cons entry rest ih =>
    obtain ⟨k, v⟩ := entry
    simp only [erase] at ih ⊢
    by_cases h : k = key
    · subst h
      by_cases h' : key' = k
      · simp_all
      · simp_all [get?, eq_comm]
    · by_cases h' : k = key' <;> simp_all [get?]

end WasmTrim.SortedMap
