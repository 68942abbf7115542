/-!
# Sets as sorted lists

Finite sets that are shown in order: of names, which are ordered by their characters, and of
fingerprints. A set is a strictly increasing list, so two sets with the same members are the same
list.
-/

namespace WasmTrim

variable {α : Type} [LT α] [DecidableLT α] [DecidableEq α]

/-- Adds a member to a set. -/
def insertSorted (x : α) : List α → List α
  | [] => [x]
  | y :: rest =>
    if x = y then y :: rest
    else if x < y then x :: y :: rest
    else y :: insertSorted x rest

/-- Adds members to a set, one by one. -/
def insertAllSorted (set xs : List α) : List α :=
  xs.foldl (fun set x => insertSorted x set) set

/-- The set of the members of a list. -/
def sortedSet (xs : List α) : List α :=
  insertAllSorted [] xs

/-- Adding a member adds that member and no other. -/
theorem mem_insertSorted {x y : α} {set : List α} :
    y ∈ insertSorted x set ↔ y = x ∨ y ∈ set := by
  induction set with
  | nil => simp [insertSorted]
  | cons z rest ih =>
    simp only [insertSorted]
    split
    · next h => simp [h]
    · split
      · simp
      · simp only [List.mem_cons, ih]
        constructor
        · rintro (h | h | h) <;> simp [h]
        · rintro (h | h | h) <;> simp [h]

/-- Adding members adds those members and no others. -/
theorem mem_insertAllSorted {y : α} {set xs : List α} :
    y ∈ insertAllSorted set xs ↔ y ∈ set ∨ y ∈ xs := by
  induction xs generalizing set with
  | nil => simp [insertAllSorted]
  | cons x rest ih =>
    have step : insertAllSorted set (x :: rest) = insertAllSorted (insertSorted x set) rest := rfl
    rw [step, ih, mem_insertSorted, List.mem_cons]
    constructor
    · rintro ((h | h) | h) <;> simp [h]
    · rintro (h | h | h) <;> simp [h]

/-- The set of a list has the members of that list. -/
@[simp] theorem mem_sortedSet {y : α} {xs : List α} : y ∈ sortedSet xs ↔ y ∈ xs := by
  simp [sortedSet, mem_insertAllSorted]

end WasmTrim
