import WasmTrim.Fingerprint
import WasmTrim.Strip.KnownFunctions
import WasmTrim.Text.Blank

/-!
# Which functions go

A function is a candidate for removal when the trace never saw its fingerprint and nobody pinned it.
The removal mode then decides which of the candidates go.
-/

namespace WasmTrim

/-- How many of the candidates go. -/
inductive RemovalMode where
  /-- None. -/
  | off
  /-- Those known to be unnecessary for running contracts. -/
  | safe
  /-- All. -/
  | aggressive
  deriving Repr, DecidableEq

namespace RemovalMode

instance : Inhabited RemovalMode := ⟨.aggressive⟩

/-- The word for a mode. -/
def name : RemovalMode → String
  | .off => "off"
  | .safe => "safe"
  | .aggressive => "aggressive"

instance : ToString RemovalMode := ⟨name⟩

/-- The mode that a word stands for. -/
def ofName? (word : String) : Option RemovalMode :=
  [off, safe, aggressive].find? (·.name == word)

/-- The report that a word stands for no mode. -/
def unknownMessage (word : String) : String :=
  s!"unknown removal mode '{word}' (expected off, safe or aggressive)"

end RemovalMode

/-- The evidence on which functions are removed. -/
structure StripPolicy where
  /-- How many of the candidates go. -/
  mode : RemovalMode
  /-- The fingerprints that the trace saw. -/
  called : List UInt32
  /-- Names that are kept besides the ones that always are. -/
  extraPinned : List String := []
  /-- The builtin modules that the trace saw loading. -/
  loadedBuiltins : List String := []
  deriving Repr, Inhabited

namespace StripPolicy

/-- The names given as pinned, without blanks around them; blank ones are left out. -/
def trimmedPins (names : List String) : List String :=
  (names.map fun name => String.ofList (trimBlanks name.toList)).filter (· != "")

/-- The fingerprints of all pinned functions. -/
def pinned (policy : StripPolicy) : List UInt32 :=
  (pinnedFunctions ++ trimmedPins policy.extraPinned).map fingerprint

/-- The starts of names that mode `safe` lets go. -/
def safePrefixes (policy : StripPolicy) : List String :=
  removablePrefixes ++ unloadedBuiltinPrefixes policy.loadedBuiltins

/-- Tells whether a function was neither seen running nor pinned. -/
def isCandidate (policy : StripPolicy) (name : String) : Bool :=
  !policy.called.contains (fingerprint name) && !policy.pinned.contains (fingerprint name)

/-- Tells whether the mode lets a candidate of this name go. -/
def modeAllows (policy : StripPolicy) (name : String) : Bool :=
  match policy.mode with
  | .off => false
  | .aggressive => true
  | .safe =>
    policy.safePrefixes.any (·.toList.isPrefixOf name.toList) ||
      removableSuffixes.any (·.toList.isSuffixOf name.toList)

/-- Tells whether a function of this name is removed. -/
def removes (policy : StripPolicy) (name : String) : Bool :=
  policy.isCandidate name && policy.modeAllows name

end StripPolicy

end WasmTrim
