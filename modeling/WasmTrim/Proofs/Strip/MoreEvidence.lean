import WasmTrim.Proofs.Strip.Addresses
import WasmTrim.Proofs.Strip.Evidence

/-!
# More evidence never removes more

What is added to the evidence of a policy, a function that was seen running, a pin, or a builtin
module that was seen loading, can only keep functions, and so can a milder mode. Names that share a
fingerprint share its evidence, so a collision keeps functions too and never removes one.

`Sexpr.strip_removed_antitone` is about what is removed. Mode `off` removes nothing, mode `safe`
some of what `aggressive` removes, and that is all whose fingerprint was neither seen nor pinned. No
pinned name goes, whatever the mode.

## Implementation notes

Fingerprints are compared, names are meant. What a collision does is therefore said against the
decision that the names alone would give.
-/

namespace WasmTrim

namespace StripPolicy

variable {policy less more : StripPolicy} {name : String}

/-- The names of all pinned functions. -/
def pinnedNames (policy : StripPolicy) : List String :=
  pinnedFunctions ++ trimmedPins policy.extraPinned

/-- A policy has the evidence of another and perhaps more, in the same mode. -/
structure MoreEvidence (less more : StripPolicy) : Prop where
  /-- The mode is the same. -/
  mode_eq : more.mode = less.mode
  /-- Every function that was seen running still was. -/
  called : less.called ⊆ more.called
  /-- Every pin is still given. -/
  extraPinned : less.extraPinned ⊆ more.extraPinned
  /-- Every builtin module that was seen loading still was. -/
  loadedBuiltins : less.loadedBuiltins ⊆ more.loadedBuiltins

/-- A name is among the trimmed pins when it is what trimming leaves of one of them, and
not empty. -/
theorem mem_trimmedPins {pins : List String} :
    name ∈ trimmedPins pins ↔
      name ≠ "" ∧ ∃ pin ∈ pins, String.ofList (trimBlanks pin.toList) = name := by
  rw [trimmedPins, List.mem_filter, List.mem_map, bne_iff_ne, and_comm]

/-- A candidate has a fingerprint that was neither seen nor pinned. -/
theorem isCandidate_eq_true_iff :
    policy.isCandidate name = true ↔
      fingerprint name ∉ policy.called ∧ fingerprint name ∉ policy.pinnedNames.map fingerprint := by
  rw [isCandidate, pinned, ← pinnedNames, Bool.and_eq_true, Bool.not_eq_true', Bool.not_eq_true',
    ← Bool.not_eq_true, ← Bool.not_eq_true, List.contains_iff_mem, List.contains_iff_mem]

theorem removes_eq_true_iff :
    policy.removes name = true ↔
      policy.isCandidate name = true ∧ policy.modeAllows name = true := by
  rw [removes, Bool.and_eq_true]

theorem removes_of_mem_pinnedNames (h : name ∈ policy.pinnedNames) : policy.removes name = false := by
  rw [← Bool.not_eq_true, removes_eq_true_iff, isCandidate_eq_true_iff]
  rintro ⟨⟨_, hpinned⟩, _⟩
  exact hpinned (List.mem_map_of_mem h)

/-- A start of names is removable for a builtin module that owns it and was not seen loading. -/
theorem mem_unloadedBuiltinPrefixes {loaded : List String} {start : String} :
    start ∈ unloadedBuiltinPrefixes loaded ↔
      ∃ owner ∈ builtinModules, owner.1 ∉ loaded ∧ start ∈ owner.2 := by
  rw [unloadedBuiltinPrefixes, List.mem_flatMap]
  apply exists_congr
  intro owner
  by_cases hloaded : owner.1 ∈ loaded
  · simp [hloaded]
  · simp [hloaded]

theorem unloadedBuiltinPrefixes_subset {loaded loaded' : List String} (h : loaded ⊆ loaded') :
    unloadedBuiltinPrefixes loaded' ⊆ unloadedBuiltinPrefixes loaded := by
  intro start hstart
  obtain ⟨owner, howner, hunloaded, hmem⟩ := mem_unloadedBuiltinPrefixes.mp hstart
  exact mem_unloadedBuiltinPrefixes.mpr ⟨owner, howner, fun hmem' => hunloaded (h hmem'), hmem⟩

namespace MoreEvidence

theorem pinnedNames (h : MoreEvidence less more) : less.pinnedNames ⊆ more.pinnedNames := by
  intro name hname
  rcases List.mem_append.mp hname with hdefault | hextra
  · exact List.mem_append_left _ hdefault
  · obtain ⟨hne, pin, hpin, htrim⟩ := mem_trimmedPins.mp hextra
    exact List.mem_append_right _ (mem_trimmedPins.mpr ⟨hne, pin, h.extraPinned hpin, htrim⟩)

theorem isCandidate (h : MoreEvidence less more) (hname : more.isCandidate name = true) :
    less.isCandidate name = true := by
  rw [isCandidate_eq_true_iff] at hname ⊢
  obtain ⟨hcalled, hpinned⟩ := hname
  constructor
  · exact fun hmem => hcalled (h.called hmem)
  · exact fun hmem => hpinned (List.map_subset fingerprint h.pinnedNames hmem)

theorem modeAllows (h : MoreEvidence less more) (hname : more.modeAllows name = true) :
    less.modeAllows name = true := by
  rw [StripPolicy.modeAllows, h.mode_eq] at hname
  rw [StripPolicy.modeAllows]
  split at hname
  · cases hname
  · rfl
  · rw [Bool.or_eq_true] at hname ⊢
    apply hname.imp_left
    rw [List.any_eq_true, List.any_eq_true]
    rintro ⟨start, hstart, hprefix⟩
    refine ⟨start, ?_, hprefix⟩
    rcases List.mem_append.mp hstart with hknown | hbuiltin
    · exact List.mem_append_left _ hknown
    · exact List.mem_append_right _ (unloadedBuiltinPrefixes_subset h.loadedBuiltins hbuiltin)

/-- What goes with more evidence goes with less. -/
theorem removes (h : MoreEvidence less more) (hname : more.removes name = true) :
    less.removes name = true := by
  rw [removes_eq_true_iff] at hname ⊢
  exact ⟨h.isCandidate hname.1, h.modeAllows hname.2⟩

end MoreEvidence

/-! ### Names and their fingerprints -/

/-- The functions that would go if names were compared instead of fingerprints, given the names of
the functions that were seen running. -/
def RemovesByName (policy : StripPolicy) (seen : List String) (name : String) : Prop :=
  name ∉ seen ∧ name ∉ policy.pinnedNames ∧ policy.modeAllows name = true

variable {seen : List String}

/-- Comparing fingerprints removes what comparing names would, but for functions that share their
fingerprint with the evidence of another name. -/
theorem removes_iff_removesByName (hseen : ∀ f, f ∈ policy.called ↔ f ∈ seen.map fingerprint) :
    policy.removes name = true ↔ policy.RemovesByName seen name ∧
      ∀ other ∈ seen ++ policy.pinnedNames, fingerprint other = fingerprint name → other = name := by
  rw [removes_eq_true_iff, isCandidate_eq_true_iff, hseen, RemovesByName]
  constructor
  · rintro ⟨⟨hcalled, hpinned⟩, hmode⟩
    refine ⟨⟨?_, ?_, hmode⟩, ?_⟩
    · exact fun hmem => hcalled (List.mem_map_of_mem hmem)
    · exact fun hmem => hpinned (List.mem_map_of_mem hmem)
    · intro other hother hcollision
      rcases List.mem_append.mp hother with hmem | hmem
      · exact absurd (List.mem_map.mpr ⟨other, hmem, hcollision⟩) hcalled
      · exact absurd (List.mem_map.mpr ⟨other, hmem, hcollision⟩) hpinned
  · rintro ⟨⟨hunseen, hunpinned, hmode⟩, hunique⟩
    refine ⟨⟨?_, ?_⟩, hmode⟩
    · intro hmem
      obtain ⟨other, hother, hcollision⟩ := List.mem_map.mp hmem
      have heq := hunique other (List.mem_append_left _ hother) hcollision
      exact hunseen (heq ▸ hother)
    · intro hmem
      obtain ⟨other, hother, hcollision⟩ := List.mem_map.mp hmem
      have heq := hunique other (List.mem_append_right _ hother) hcollision
      exact hunpinned (heq ▸ hother)

end StripPolicy

namespace Sexpr

open StripPolicy (MoreEvidence)

/-- With more evidence, or in a milder mode, fewer functions of a module go. Collisions of
fingerprints only keep functions, and pinned names stay in every mode. -/
theorem strip_removed_antitone (module : Sexpr) :
    (∀ less more, MoreEvidence less more → ∀ store store',
      (module.strip more store).1.removed ⊆ (module.strip less store').1.removed) ∧
    ∀ (policy : StripPolicy) (store : FrozenStore),
      (module.strip { policy with mode := .off } store).1.removed = [] ∧
      (module.strip { policy with mode := .safe } store).1.removed ⊆
        (module.strip { policy with mode := .aggressive } store).1.removed ∧
      (∀ name, name ∈ (module.strip { policy with mode := .aggressive } store).1.removed ↔
        name ∈ module.functionNames ∧ fingerprint name ∉ policy.called ∧
          fingerprint name ∉ policy.pinnedNames.map fingerprint) ∧
      (∀ seen : List String, (∀ f, f ∈ policy.called ↔ f ∈ seen.map fingerprint) →
        ∀ name, name ∈ (module.strip policy store).1.removed ↔
          name ∈ module.functionNames ∧ policy.RemovesByName seen name ∧
            ∀ other ∈ seen ++ policy.pinnedNames,
              fingerprint other = fingerprint name → other = name) ∧
      (∀ pin ∈ pinnedFunctions, pin ∉ (module.strip policy store).1.removed) ∧
      ∀ pin ∈ policy.extraPinned, String.ofList (trimBlanks pin.toList) ≠ "" →
        String.ofList (trimBlanks pin.toList) ∉ (module.strip policy store).1.removed := by
  constructor
  · intro less more hmore store store' name hname
    rw [mem_removed_iff] at hname ⊢
    exact ⟨hname.1, hmore.removes hname.2⟩
  · intro policy store
    have hpinned : ∀ name ∈ policy.pinnedNames, name ∉ (module.strip policy store).1.removed := by
      intro name hname hmem
      have hremoves := ((mem_removed_iff module policy store).mp hmem).2
      rw [StripPolicy.removes_of_mem_pinnedNames hname] at hremoves
      cases hremoves
    refine ⟨?_, ?_, ?_, ?_, ?_, ?_⟩
    · apply List.eq_nil_iff_forall_not_mem.mpr
      intro name hname
      rw [mem_removed_iff, StripPolicy.removes_eq_true_iff] at hname
      cases hname.2.2
    · intro name hname
      rw [mem_removed_iff, StripPolicy.removes_eq_true_iff] at hname ⊢
      exact ⟨hname.1, hname.2.1, rfl⟩
    · intro name
      rw [mem_removed_iff, StripPolicy.removes_eq_true_iff, StripPolicy.isCandidate_eq_true_iff]
      exact and_congr_right fun _ => and_iff_left rfl
    · intro seen hseen name
      rw [mem_removed_iff, StripPolicy.removes_iff_removesByName hseen]
    · exact fun pin hpin => hpinned pin (List.mem_append_left _ hpin)
    · intro pin hpin hne
      exact hpinned _ (List.mem_append_right _ (StripPolicy.mem_trimmedPins.mpr ⟨hne, pin, hpin, rfl⟩))

/-- A pin with blanks around it keeps a function that goes without it, and lets no other go. -/
theorem strip_removed_callingModule :
    (callingModule.strip { blindPolicy with extraPinned := [" f\n"] } .empty).1.removed ⊆
        (callingModule.strip blindPolicy .empty).1.removed ∧
      "f" ∈ (callingModule.strip blindPolicy .empty).1.removed ∧
      "f" ∉ (callingModule.strip { blindPolicy with extraPinned := [" f\n"] } .empty).1.removed := by
  obtain ⟨hmore, hpolicy⟩ := strip_removed_antitone callingModule
  obtain ⟨_, _, _, _, _, hpins⟩ := hpolicy { blindPolicy with extraPinned := [" f\n"] } .empty
  refine ⟨?_, ?_, ?_⟩
  · apply hmore
    exact ⟨rfl, List.Subset.refl _, List.nil_subset _, List.Subset.refl _⟩
  · rw [mem_removed_iff]
    exact ⟨by decide, removes_blindPolicy⟩
  · have htrim : String.ofList (trimBlanks " f\n".toList) = "f" := by decide
    have hpin := hpins " f\n" (List.mem_singleton_self _)
    rw [htrim] at hpin
    exact hpin (by decide)

end Sexpr

end WasmTrim
