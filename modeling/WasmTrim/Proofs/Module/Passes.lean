import Mathlib.Logic.Relation
import WasmTrim.Module.File
import WasmTrim.Proofs.Compression.Restore
import WasmTrim.Proofs.FileTree.Write
import WasmTrim.Proofs.Instrument
import WasmTrim.Proofs.Sexpr.Lexable
import WasmTrim.Proofs.Strip.Addresses

/-!
# Modules between passes

The stages of a build hand modules to each other as files. That is safe because every pass makes a
module that is read back from its own text: what it keeps could be read before, and what it adds is
put together from words, numerals, plain names and quoted bytes. So modules may be written and read
between any two passes, whatever the passes and their order.

## Implementation notes

`Sexpr.Pass` has one constructor for each pass, and compression may use any codec. What a module has
to keep is that it is a list with atoms that can be read, which is what reading gives it.
-/

namespace WasmTrim

open Frozen

namespace EntryPoint

open Token (PlainText)

theorem mem_of_splitReversed {cs after before : List Char}
    (h : splitReversed cs = some (after, before)) :
    (∀ c ∈ after, c ∈ cs) ∧ ∀ c ∈ before, c ∈ cs := by
  induction cs generalizing after with
  | nil => cases h
  | cons c rest ih =>
      rw [splitReversed] at h
      split at h
      · cases h
        exact ⟨by simp, fun c hc => List.mem_cons_of_mem _ hc⟩
      · obtain ⟨⟨after', before'⟩, hrest, heq⟩ := Option.map_eq_some_iff.mp h
        cases heq
        obtain ⟨hafter, hbefore⟩ := ih hrest
        constructor
        · exact List.forall_mem_cons.mpr
            ⟨List.mem_cons_self .., fun d hd => List.mem_cons_of_mem c (hafter d hd)⟩
        · exact fun d hd => List.mem_cons_of_mem c (hbefore d hd)

/-- The module and the function of a plain name are plain. -/
theorem plainText_split {name : String} (h : PlainText name) :
    PlainText (split name).1 ∧ PlainText (split name).2 := by
  rw [split]
  split
  · next after before hsplit =>
    obtain ⟨hafter, hbefore⟩ := mem_of_splitReversed hsplit
    constructor
    · intro c hc
      rw [String.toList_ofList, List.mem_reverse] at hc
      exact h c (List.mem_reverse.mp (hbefore c hc))
    · intro c hc
      rw [String.toList_ofList, List.mem_reverse] at hc
      exact h c (List.mem_reverse.mp (hafter c hc))
  · constructor
    · have hmodule : PlainText EntryPoints.defaultModule := by decide
      exact hmodule
    · exact h

end EntryPoint

namespace Sexpr

open Token (PlainText)

variable {module field t u : Sexpr} {removed : List String} {sites : List (String × UInt32)}

/-! ### Reports and hooks -/

theorem lexable_hookImport (hook : TraceHook) : Lexable (hookImport hook) := by
  have hname : PlainText hook.importName := by cases hook <;> decide
  have hhost : Token.Lexable ("\"" ++ hostModule ++ "\"") := Token.lexable_quote (by decide)
  have hquoted := Token.lexable_quote hname
  have hid := Token.lexable_identifier hname
  have hwords := Token.lexable_words ["import", "func", "param", "i32"] (by decide)
  simp only [List.forall_mem_cons] at hwords
  simp [hookImport, hwords, hhost, hquoted, hid]

theorem lexable_entryReports (name : String) : ∀ item ∈ entryReports name, Lexable item := by
  have hlocal : Lexable (.list [.atom "local.get", .atom "$0"]) := by
    have hwords := Token.lexable_words ["local.get", "$0"] (by decide)
    simpa using hwords
  have hreport : Lexable (call TraceHook.functionCall.importName [i32Const (fingerprint name)]) := by
    apply lexable_call
    · decide
    · exact List.forall_mem_singleton.mpr (lexable_i32Const _)
  have hload (hook : TraceHook) :
      Lexable (call hook.importName [.list [.atom "local.get", .atom "$0"]]) := by
    apply lexable_call
    · cases hook <;> decide
    · exact List.forall_mem_singleton.mpr hlocal
  rw [entryReports]
  split
  · next hook _ =>
    exact List.forall_mem_cons.mpr ⟨hload hook, List.forall_mem_singleton.mpr hreport⟩
  · exact List.forall_mem_singleton.mpr hreport

/-- The parts of a function form can be read if the form can. -/
theorem Lexable.declaration_instructions (h : Lexable field) :
    (∀ item ∈ declaration field.items, Lexable item) ∧
      ∀ item ∈ instructions field.items, Lexable item := by
  have hitems := h.items
  rw [← declaration_append_instructions field.items] at hitems
  exact List.forall_mem_append.mp hitems

theorem Lexable.reportEntry (h : Lexable field) : Lexable (reportEntry field) := by
  rcases reportEntry_cases field with hself | ⟨name, _, hreports⟩
  · rw [hself]
    exact h
  · obtain ⟨hdeclaration, hbody⟩ := h.declaration_instructions
    have hfront := List.forall_mem_append.mpr ⟨hdeclaration, lexable_entryReports name⟩
    rw [hreports, lexable_list_iff]
    exact List.forall_mem_append.mpr ⟨hfront, hbody⟩

theorem Lexable.instrument (h : Lexable module) : Lexable (instrument module) := by
  have hreporting (fields : List Sexpr) (hfields : ∀ field ∈ fields, Lexable field) :
      ∀ item ∈ fields.map Sexpr.reportEntry, Lexable item := by
    intro item hitem
    obtain ⟨field, hfield, rfl⟩ := List.mem_map.mp hitem
    exact (hfields field hfield).reportEntry
  have hhooks : ∀ item ∈ hookImports, Lexable item := by
    intro item hitem
    obtain ⟨hook, _, rfl⟩ := List.mem_map.mp hitem
    exact lexable_hookImport hook
  have hfields := h.fields
  rw [Sexpr.instrument]
  apply h.withFields
  split
  · exact hreporting module.fields hfields
  · obtain ⟨front, back, hsplit, _, hplaced⟩ := placeHooks_map_reportEntry module.fields
    rw [hsplit] at hfields
    obtain ⟨hfront, hback⟩ := List.forall_mem_append.mp hfields
    have hbefore := List.forall_mem_append.mpr ⟨hreporting front hfront, hhooks⟩
    rw [hplaced]
    exact List.forall_mem_append.mpr ⟨hbefore, hreporting back hback⟩

/-! ### Stripping -/

theorem lexable_unreachable : Lexable unreachable := by
  have hkeyword : Token.Lexable "unreachable" := Token.lexable_of_isWord (by decide)
  simp [unreachable, hkeyword]

theorem lexable_foldedReport (address : UInt32) : Lexable (foldedReport address) := by
  have hkeyword : Token.Lexable "block" := Token.lexable_of_isWord (by decide)
  have hcall : Lexable (call panicHandler [i32Const address]) := by
    apply lexable_call
    · decide
    · exact List.forall_mem_singleton.mpr (lexable_i32Const address)
  simp [foldedReport, hkeyword, hcall, lexable_unreachable]

theorem lexable_unfoldedReport (address : UInt32) :
    ∀ item ∈ unfoldedReport address, Lexable item := by
  have hwords := Token.lexable_words ["i32.const", "call", "unreachable"] (by decide)
  have hhandler : Token.Lexable ("$" ++ panicHandler) := Token.lexable_identifier (by decide)
  have haddress : Token.Lexable (toString address.toNat) := Token.lexable_toString address.toNat
  simp only [List.forall_mem_cons] at hwords
  simpa [unfoldedReport, hwords, hhandler] using haddress

mutual

/-- Replacing calls keeps to trees that can be read. -/
theorem Replaced.lexable : {t u : Sexpr} → {sites : List (String × UInt32)} →
    Replaced removed t u sites → Lexable t → Lexable u
  | _, _, _, .atom _, h => h
  | _, _, _, .folded _ _ address, _ => lexable_foldedReport address
  | _, _, _, .nil, h => h
  | _, _, _, .cons _ hfirst hrest, h => by
    obtain ⟨hfirst', hrest'⟩ := List.forall_mem_cons.mp (lexable_list_iff.mp h)
    apply lexable_list_iff.mpr
    exact List.forall_mem_cons.mpr ⟨hfirst.lexable hfirst', hrest.lexable hrest'⟩

/-- Replacing calls behind the first item of a list keeps to trees that can be read. -/
theorem ReplacedIn.lexable : {ts us : List Sexpr} → {sites : List (String × UInt32)} →
    ReplacedIn removed ts us sites → (∀ t ∈ ts, Lexable t) → ∀ u ∈ us, Lexable u
  | _, _, _, .nil, h => h
  | _, _, _, .unfolded _ address hrest, h => by
    obtain ⟨_, hothers⟩ := List.forall_mem_cons.mp h
    obtain ⟨_, hrest'⟩ := List.forall_mem_cons.mp hothers
    exact List.forall_mem_append.mpr ⟨lexable_unfoldedReport address, hrest.lexable hrest'⟩
  | _, _, _, .cons _ hitem hrest, h => by
    obtain ⟨hitem', hrest'⟩ := List.forall_mem_cons.mp h
    exact List.forall_mem_cons.mpr ⟨hitem.lexable hitem', hrest.lexable hrest'⟩

end

theorem FieldReplaced.lexable (h : FieldReplaced removed t u sites) (ht : Lexable t) :
    Lexable u := by
  cases h with
  | other => exact ht
  | stub =>
      have hdeclaration := ht.declaration_instructions.1
      have hbody := List.forall_mem_singleton.mpr lexable_unreachable
      rw [Sexpr.stub, lexable_list_iff]
      exact List.forall_mem_append.mpr ⟨hdeclaration, hbody⟩
  | kept _ _ hcalls => exact hcalls.lexable ht

theorem FieldsReplaced.lexable {ts us : List Sexpr} (h : FieldsReplaced removed ts us sites)
    (hts : ∀ t ∈ ts, Lexable t) : ∀ u ∈ us, Lexable u := by
  induction h with
  | nil => exact hts
  | cons hfield _ ih =>
      obtain ⟨hfirst, hrest⟩ := List.forall_mem_cons.mp hts
      exact List.forall_mem_cons.mpr ⟨hfield.lexable hfirst, ih hrest⟩

theorem Lexable.strip (h : Lexable module) (policy : StripPolicy) (store : FrozenStore) :
    Lexable (module.strip policy store).1.module := by
  obtain ⟨_, hfields, _⟩ :=
    replaced_stripFields (module.strip policy store).1.removed store module.fields
  exact h.withFields (hfields.lexable h.fields)

/-! ### Shims and data -/

theorem PlacedEntry.lexable_fields {e : PlacedEntry} (h : PlainText e.name) :
    ∀ field ∈ e.fields, Lexable field := by
  obtain ⟨hmodule, hfunction⟩ := EntryPoint.plainText_split h
  have hid : Token.Lexable
      ("$" ++ (EntryPoint.split e.name).1 ++ "_" ++ (EntryPoint.split e.name).2) := by
    rw [String.append_assoc, String.append_assoc]
    apply Token.lexable_identifier
    exact hmodule.append (PlainText.append (by decide) hfunction)
  have hexport := Token.lexable_quote hfunction
  have hwords := Token.lexable_words ["export", "func"] (by decide)
  have hcall : Lexable
      (call dispatcher [i32Const e.moduleAddress, i32Const e.functionAddress]) := by
    apply lexable_call
    · decide
    · exact List.forall_mem_cons.mpr
        ⟨lexable_i32Const _, List.forall_mem_singleton.mpr (lexable_i32Const _)⟩
  simp only [List.forall_mem_cons] at hwords
  simp [PlacedEntry.fields, shim, hwords, hid, hexport, hcall]

theorem Lexable.addShims (h : Lexable module) {entries : EntryPoints}
    (hnames : ∀ e ∈ entries, PlainText e.name) (store : FrozenStore) :
    Lexable (module.addShims entries store).1 := by
  obtain ⟨placed, hplaced, hshims, _⟩ := interns_shims store (entries.map (·.name))
  have hadded : ∀ field ∈ placed.flatMap PlacedEntry.fields, Lexable field := by
    intro field hfield
    obtain ⟨shim, hshim, hfield⟩ := List.mem_flatMap.mp hfield
    have hname : shim.name ∈ entries.map (·.name) := by
      rw [← hplaced]
      exact List.mem_map_of_mem hshim
    obtain ⟨e, he, hename⟩ := List.mem_map.mp hname
    apply PlacedEntry.lexable_fields _ field hfield
    rw [← hename]
    exact hnames e he
  rw [Sexpr.addShims]
  apply h.withFields
  rw [hshims]
  exact List.forall_mem_append.mpr ⟨h.fields, hadded⟩

theorem Lexable.embedIn (h : Lexable module) {store : FrozenStore}
    (hembed : store.embedIn module = .ok t) : t.isList = true ∧ Lexable t := by
  have hname : Token.Lexable segmentName := Token.lexable_of_isWord (by decide)
  obtain ⟨image, _, rfl⟩ := FrozenStore.embedIn_eq_ok hembed
  have hdata := List.forall_mem_singleton.mpr
    (lexable_dataField hname baseAddress.toUInt32 image)
  exact ⟨rfl, h.withFields (List.forall_mem_append.mpr ⟨h.fields, hdata⟩)⟩

/-- The fields of compressed data can be read, whatever the frames are. -/
theorem lexable_compressedFields (first second : Compression.Piece) :
    ∀ field ∈ compressedFields first second, Lexable field := by
  have hnames := Token.lexable_words Compression.fieldNames (by decide)
  rw [Compression.fieldNames] at hnames
  simp only [List.forall_mem_cons] at hnames
  obtain ⟨hheader, hfirst, hsecond, _⟩ := hnames
  refine List.forall_mem_cons.mpr ⟨lexable_dataField hheader _ _, ?_⟩
  refine List.forall_mem_cons.mpr ⟨lexable_dataField hfirst _ _, ?_⟩
  exact List.forall_mem_singleton.mpr (lexable_dataField hsecond _ _)

theorem Lexable.compressDataWith (h : Lexable module) {encode : ByteArray → ByteArray}
    {report : Compression.Report} (hcompress : module.compressDataWith encode = .ok (t, report)) :
    t.isList = true ∧ Lexable t := by
  obtain ⟨image, _, _, _, rfl⟩ := compressDataWith_eq_ok hcompress
  have hkept : ∀ field ∈ module.fields.filter denotesNoSegment, Lexable field :=
    fun field hfield => h.fields field ((List.mem_filter.mp hfield).1)
  have hframes := lexable_compressedFields (piecesFor encode image).1 (piecesFor encode image).2
  exact ⟨rfl, h.withFields (List.forall_mem_append.mpr ⟨hkept, hframes⟩)⟩

/-! ### Passes in any order -/

/-- One pass makes a module of another. -/
inductive Pass : Sexpr → Sexpr → Prop
  /-- Functions report when they are entered. -/
  | instrument (module : Sexpr) : Pass module module.instrument
  /-- Functions are removed. -/
  | strip (module : Sexpr) (policy : StripPolicy) (store : FrozenStore) :
      Pass module (module.strip policy store).1.module
  /-- Entry points with plain names are given shims. -/
  | addShims (module : Sexpr) {entries : EntryPoints} (store : FrozenStore)
      (hnames : ∀ e ∈ entries, PlainText e.name) : Pass module (module.addShims entries store).1
  /-- The frozen image is embedded. -/
  | embed {module t : Sexpr} {store : FrozenStore} (h : store.embedIn module = .ok t) :
      Pass module t
  /-- Data is compressed, by whatever codec. -/
  | compress {module t : Sexpr} {encode : ByteArray → ByteArray} {report : Compression.Report}
      (h : module.compressDataWith encode = .ok (t, report)) : Pass module t

/-- A pass makes a list that can be read of a tree that can be read. -/
theorem Pass.lexable (h : Pass t u) (ht : Lexable t) : u.isList = true ∧ Lexable u := by
  cases h with
  | instrument => exact ⟨rfl, ht.instrument⟩
  | strip => exact ⟨rfl, ht.strip _ _⟩
  | addShims _ hnames => exact ⟨rfl, ht.addShims hnames _⟩
  | embed h => exact ht.embedIn h
  | compress h => exact ht.compressDataWith h

open Relation (ReflTransGen)

theorem lexable_of_passes (h : ReflTransGen Pass t u) (ht : t.isList = true ∧ Lexable t) :
    u.isList = true ∧ Lexable u := by
  induction h with
  | refl => exact ht
  | tail _ hpass ih => exact hpass.lexable ih.2

/-- Whatever passes are made of a module that was read, the outcome is read from its own text, and
from a file that it is written to. -/
theorem passes_read_back {source : String} (hread : parse source = .ok module)
    (hpasses : ReflTransGen Pass module t) :
    (∃ text, parse text = .ok t) ∧ parse t.toText = .ok t ∧
      ∀ (files files' : FileTree) (path : String), files.writeModule path t = .ok files' →
        files'.readModule path = .ok t := by
  obtain ⟨hlist, hlexable⟩ := lexable_of_passes hpasses (lexable_of_parse hread)
  have hself := parse_toText hlist hlexable
  refine ⟨⟨t.toText, hself⟩, hself, ?_⟩
  intro files files' path hwrite
  have htext : files'.view.readText path = .ok t.toText := FileTree.readText_of_write hwrite
  rw [FileTree.readModule, FileView.readModule, htext]
  exact hself

/-- The module that is instrumented, stripped without evidence and given a shim. -/
def passedModule : Sexpr :=
  ((callingModule.instrument.strip blindPolicy .empty).1.module.addShims
    [⟨"counter.add", []⟩] .empty).1

/-- It is read back. -/
theorem passes_read_back_callingModule :
    parse "(module (func $f nop) (func (call $f)))" = .ok callingModule ∧
      ReflTransGen Pass callingModule passedModule ∧
      parse passedModule.toText = .ok passedModule := by
  have hread : parse "(module (func $f nop) (func (call $f)))" = .ok callingModule := by cbv
  have hplain : PlainText "counter.add" := by decide
  have hnames : ∀ e ∈ ([⟨"counter.add", []⟩] : EntryPoints), PlainText e.name :=
    List.forall_mem_singleton.mpr hplain
  have hpasses : ReflTransGen Pass callingModule passedModule := by
    apply ReflTransGen.head (.instrument callingModule)
    apply ReflTransGen.head (.strip _ blindPolicy .empty)
    exact ReflTransGen.single (.addShims _ .empty hnames)
  exact ⟨hread, hpasses, (passes_read_back hread hpasses).2.1⟩

end Sexpr

end WasmTrim
