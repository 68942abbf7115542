import Mathlib.Data.List.TakeWhile
import WasmTrim.Proofs.Instrument
import WasmTrim.Proofs.Stateful
import WasmTrim.Proofs.Strip.Addresses

/-!
# Fields as a lens

Reading the fields of a module and putting others in their place are the two sides of a lens,
exactly for fields that are none or start with a list. The passes of a build work through it: each
does to a module what it does to the fields alone, and puts the outcome under the header. So passes
that follow one another are changes of fields that follow one another, and the keyword and the name
in front of the fields stay.

`Sexpr.fields_withFields_lens` has the laws of a lens, each with the exact condition that it holds
under. Fields that are led by a list are read as they were put in, and others replace them without a
trace; putting in what was read changes nothing for a module that starts with a word. Whatever
passes are made over a module, with whatever happens to the image before each, the outcome is the
module with other fields, again led by a list.

## Implementation notes

What a pass does to fields is not defined a second time: `FieldPass.change` makes the pass over a
module of these fields under the bare keyword.

Compression is none of these passes. It leaves fields out, and an atom that stood behind them may
come to stand in front, where it joins the header.
-/

namespace WasmTrim

namespace Sexpr

variable {module : Sexpr} {fs : List Sexpr}

/-! ### The laws of the lens -/

/-- There are no fields, or the first of them is a list. -/
def LedByList (fs : List Sexpr) : Prop :=
  ∀ field ∈ fs.head?, field.isList = true

instance (fs : List Sexpr) : Decidable (LedByList fs) :=
  inferInstanceAs (Decidable (∀ field ∈ fs.head?, field.isList = true))

theorem ledByList_fields (module : Sexpr) : LedByList module.fields :=
  fun _ => isList_of_mem_head?_fields

theorem ledByList_iff_takeWhile : LedByList fs ↔ fs.takeWhile (!·.isList) = [] := by
  cases fs with
  | nil => simp [LedByList]
  | cons field rest => simp [LedByList, List.takeWhile_cons]

theorem ledByList_iff_dropWhile : LedByList fs ↔ fs.dropWhile (!·.isList) = fs := by
  rw [ledByList_iff_takeWhile]
  have hsplit := List.takeWhile_append_dropWhile (p := fun t : Sexpr => !t.isList) (l := fs)
  constructor
  · intro hnone
    rwa [hnone, List.nil_append] at hsplit
  · intro hall
    rwa [hall, List.append_left_eq_self] at hsplit

/-- Fields that are put into a module are read from it exactly if they are led by a list. -/
theorem fields_withFields_iff : LedByList fs ↔ (module.withFields fs).fields = fs := by
  rw [fields_withFields_eq_dropWhile]
  exact ledByList_iff_dropWhile

/-- They are replaced without a trace under the same condition. -/
theorem withFields_withFields_iff :
    LedByList fs ↔ ∀ gs, (module.withFields fs).withFields gs = module.withFields gs := by
  constructor
  · exact withFields_withFields module
  · intro h
    have hheaders : (module.withFields fs).header ++ [] = module.header ++ [] := list.inj (h [])
    rw [List.append_nil, List.append_nil, header_withFields_eq_append,
      List.append_right_eq_self] at hheaders
    exact ledByList_iff_takeWhile.mpr hheaders

/-- A module is what its own fields make of it exactly if it starts with a word. -/
theorem withFields_fields_iff :
    (∃ keyword rest, module = .list (.atom keyword :: rest)) ↔
      module.withFields module.fields = module := by
  constructor
  · rintro ⟨keyword, rest, hstart⟩
    exact (eq_header_fields hstart).symm
  · intro hwhole
    cases hheader : module.header with
    | nil => exact absurd hheader (header_ne_nil module)
    | cons first others =>
        rw [withFields, hheader] at hwhole
        have hmem : first ∈ module.header := by
          rw [hheader]
          exact List.mem_cons_self ..
        have hatom : first.isList = false := isList_of_mem_header hmem
        cases first with
        | list => cases hatom
        | atom keyword => exact ⟨keyword, _, hwhole.symm⟩

/-- Whatever stands behind atoms are fields that were put into a module of these atoms. -/
theorem list_append_eq_withFields {leading : List Sexpr} (hne : leading ≠ [])
    (hatoms : ∀ item ∈ leading, item.isList = false) (fs : List Sexpr) :
    .list (leading ++ fs) = (list leading).withFields fs := by
  have hall : leading.takeWhile (!·.isList) = leading :=
    List.takeWhile_eq_self_iff.mpr fun item hitem => by rw [hatoms item hitem, Bool.not_false]
  rw [withFields, header, items_list, hall]
  cases leading with
  | nil => exact absurd rfl hne
  | cons => rfl

/-! ### Single passes -/

/-- The module of some fields under the bare keyword. -/
def ofFields (fs : List Sexpr) : Sexpr :=
  .list (.atom "module" :: fs)

theorem fields_ofFields (h : LedByList fs) : (ofFields fs).fields = fs :=
  fields_withFields (ofFields []) h

variable {like : Sexpr}

/-- Instrumentation does the same to modules with the same fields. -/
theorem instrument_of_fields_eq (h : like.fields = module.fields) :
    module.instrument = module.withFields like.instrument.fields := by
  rw [fields_instrument_eq, h]
  rfl

/-- So does stripping, with the same functions removed and retained and the same names interned. -/
theorem strip_of_fields_eq (h : like.fields = module.fields) (policy : StripPolicy)
    (store : FrozenStore) :
    module.strip policy store =
      ({ (like.strip policy store).1 with
          module := module.withFields (like.strip policy store).1.module.fields },
        (like.strip policy store).2) := by
  have hnames : like.functionNames = module.functionNames := by
    rw [functionNames, functionNames, h]
  rw [fields_strip, removed_strip, hnames, h]
  simp only [strip, hnames, h]

/-- So does adding shims, with the same names interned. -/
theorem addShims_of_fields_eq (h : like.fields = module.fields) (entries : EntryPoints)
    (store : FrozenStore) :
    module.addShims entries store =
      (module.withFields (like.addShims entries store).1.fields,
        (like.addShims entries store).2) := by
  rw [fields_addShims, h]
  rfl

/-- So does embedding the image, which also fails for them alike. -/
theorem embedIn_of_fields_eq (h : like.fields = module.fields) (store : FrozenStore) :
    store.embedIn module =
      (store.embedIn like).map fun t => module.withFields t.fields := by
  rw [FrozenStore.embedIn, FrozenStore.embedIn]
  cases store.image with
  | error e => rfl
  | ok image =>
      have hled : LedByList
          [dataField Frozen.segmentName Frozen.baseAddress.toUInt32 image] := by
        rintro _ ⟨⟩
        rfl
      have hput : (like.withFields (like.fields ++
          [dataField Frozen.segmentName Frozen.baseAddress.toUInt32 image])).fields =
          module.fields ++ [dataField Frozen.segmentName Frozen.baseAddress.toUInt32 image] := by
        rw [fields_withFields_append like hled, h]
      exact congrArg (fun fs => Except.ok (module.withFields fs)) hput.symm

end Sexpr

/-! ### Passes one after another -/

/-- Computations on an image to be, which packing may end. -/
abbrev Packing (α : Type) := Stateful PackError FrozenStore α

/-- The passes that put fields into a module, each with what it is told. -/
inductive FieldPass where
  /-- Functions report when they are entered. -/
  | instrument
  /-- Functions are removed. -/
  | strip (policy : StripPolicy)
  /-- Entry points are given shims. -/
  | addShims (entries : EntryPoints)
  /-- The image is embedded. -/
  | embed

namespace FieldPass

open Sexpr

/-- Makes a pass over a module, with the image to be. -/
def run : FieldPass → Sexpr → Packing Sexpr
  | .instrument, module => pure module.instrument
  | .strip policy, module => fun store =>
    let (stripped, store) := module.strip policy store
    (.ok stripped.module, store)
  | .addShims entries, module => fun store =>
    let (shimmed, store) := module.addShims entries store
    (.ok shimmed, store)
  | .embed, module => fun store => (store.embedIn module, store)

/-- What a pass makes of fields, told from a module that has only these. -/
def change (pass : FieldPass) (fs : List Sexpr) : Packing (List Sexpr) :=
  Sexpr.fields <$> pass.run (ofFields fs)

/-- A pass puts what it makes of the fields of a module in their place. -/
theorem run_eq (pass : FieldPass) (module : Sexpr) :
    pass.run module = module.withFields <$> pass.change module.fields := by
  have hlike : (ofFields module.fields).fields = module.fields :=
    fields_ofFields (ledByList_fields module)
  rw [change, Functor.map_map]
  funext store
  rw [Stateful.map_apply]
  -- The pass does the same to both modules, since they have the same fields.
  cases pass with
  | instrument => exact congrArg (fun t => (Except.ok t, store)) (instrument_of_fields_eq hlike)
  | strip policy =>
      exact congrArg (fun outcome => (Except.ok outcome.1.module, outcome.2))
        (strip_of_fields_eq hlike policy store)
  | addShims entries =>
      exact congrArg (fun outcome => (Except.ok outcome.1, outcome.2))
        (addShims_of_fields_eq hlike entries store)
  | embed => exact congrArg (·, store) (embedIn_of_fields_eq hlike store)

/-- What a pass makes of fields is led by a list. -/
theorem ledByList_of_change {pass : FieldPass} {fs gs : List Sexpr} {store store' : FrozenStore}
    (h : pass.change fs store = (.ok gs, store')) : LedByList gs := by
  rw [change, Stateful.map_apply] at h
  cases hrun : (pass.run (ofFields fs) store).1 with
  | error e =>
      rw [hrun] at h
      cases h
  | ok t =>
      rw [hrun] at h
      cases h
      exact ledByList_fields t

end FieldPass

/-- Passes one after another, with what happens to the image before them. -/
inductive FieldPasses where
  /-- A single pass. -/
  | one (pass : FieldPass)
  /-- Something happens to the image before some passes, as when modules are collected. -/
  | behind (gather : Packing Unit) (passes : FieldPasses)
  /-- Others follow some passes. -/
  | andThen (passes others : FieldPasses)

namespace FieldPasses

open Sexpr

/-- Makes passes over a module. -/
def run : FieldPasses → Sexpr → Packing Sexpr
  | one pass, module => pass.run module
  | behind gather passes, module => gather >>= fun _ => passes.run module
  | andThen passes others, module => passes.run module >>= others.run

/-- What passes make of fields: what each makes of those that the one before it made. -/
def change : FieldPasses → List Sexpr → Packing (List Sexpr)
  | one pass, fs => pass.change fs
  | behind gather passes, fs => gather >>= fun _ => passes.change fs
  | andThen passes others, fs => passes.change fs >>= others.change

theorem ledByList_of_change {passes : FieldPasses} {fs gs : List Sexpr}
    {store store' : FrozenStore} (h : passes.change fs store = (.ok gs, store')) :
    LedByList gs := by
  induction passes generalizing fs store with
  | one pass => exact FieldPass.ledByList_of_change h
  | behind gather passes ih =>
      obtain ⟨_, _, _, hchange⟩ := Stateful.bind_eq_ok h
      exact ih hchange
  | andThen passes others _ ih =>
      obtain ⟨_, _, _, hchange⟩ := Stateful.bind_eq_ok h
      exact ih hchange

/-- Passes put what they make of the fields of a module in their place. -/
theorem run_eq (passes : FieldPasses) (module : Sexpr) :
    passes.run module = module.withFields <$> passes.change module.fields := by
  induction passes generalizing module with
  | one pass => exact pass.run_eq module
  | behind gather passes ih => rw [run, change, map_bind, ih]
  | andThen passes others ih ihOthers =>
      rw [run, change, ih, bind_map_left, map_bind]
      apply Stateful.bind_congr_ok
      intro store gs store' hchange
      have hled : LedByList gs := ledByList_of_change hchange
      -- Only the fields that the first passes made are left to see.
      have hput : (module.withFields gs).withFields = module.withFields :=
        funext (withFields_withFields module hled)
      rw [ihOthers, fields_withFields module hled, hput]

end FieldPasses

namespace Sexpr

/-- Reading fields and putting others in their place obeys the three laws of a lens, each exactly
for the fields or modules named here. Passes change fields alone, and leave what stands in front. -/
theorem fields_withFields_lens :
    (∀ (module : Sexpr) (fs : List Sexpr), LedByList fs ↔ (module.withFields fs).fields = fs) ∧
    (∀ (module : Sexpr) (fs : List Sexpr), LedByList fs ↔
      ∀ gs, (module.withFields fs).withFields gs = module.withFields gs) ∧
    (∀ module : Sexpr, (∃ keyword rest, module = .list (.atom keyword :: rest)) ↔
      module.withFields module.fields = module) ∧
    (∀ (passes : FieldPasses) (module : Sexpr),
      passes.run module = module.withFields <$> passes.change module.fields ∧
      ∀ store fs store', passes.change module.fields store = (.ok fs, store') → LedByList fs) ∧
    ∀ (passes : FieldPasses) (leading fs : List Sexpr), leading ≠ [] →
      (∀ item ∈ leading, item.isList = false) → LedByList fs →
      passes.run (.list (leading ++ fs)) =
        (fun gs => .list (leading ++ gs)) <$> passes.change fs := by
  refine ⟨fun _ _ => fields_withFields_iff, fun _ _ => withFields_withFields_iff,
    fun _ => withFields_fields_iff, ?_, ?_⟩
  · intro passes module
    exact ⟨passes.run_eq module, fun _ _ _ => FieldPasses.ledByList_of_change⟩
  · intro passes leading fs hne hatoms hled
    -- The atoms are the header of a module of their own, and the fields are put into that.
    have hput : ((list leading).withFields fs).withFields = fun gs => .list (leading ++ gs) := by
      funext gs
      rw [withFields_withFields _ hled, list_append_eq_withFields hne hatoms]
    rw [list_append_eq_withFields hne hatoms, passes.run_eq, fields_withFields _ hled, hput]

/-- The fields of a module with one function. -/
def functionFields : List Sexpr :=
  [.list [.atom "memory", .atom "1"], .list [.atom "func", .atom "$f", .atom "nop"]]

/-- The function was seen running and stays, another name is interned, and an entry point is given a
shim. -/
def keepingPasses : FieldPasses :=
  .andThen (.one (.strip ⟨.aggressive, [fingerprint "f"], [], []⟩))
    (.behind (fun store => (.ok (), (store.intern "g").2)) (.one (.addShims [⟨"f", []⟩])))

/-- Over a module with a name, these passes leave keyword and name where they are. -/
theorem fields_withFields_lens_keepingPasses :
    LedByList functionFields ∧
    ((ofFields []).withFields functionFields).fields = functionFields ∧
    keepingPasses.run (.list ([.atom "module", .atom "$m"] ++ functionFields)) =
      (fun gs => .list ([.atom "module", .atom "$m"] ++ gs)) <$>
        keepingPasses.change functionFields ∧
    (keepingPasses.run (.list ([.atom "module", .atom "$m"] ++ functionFields)) .empty).1.map
        toText =
      .ok ("(module $m (memory 1) (func $f nop) (export \"f\" (func $contract_f)) " ++
        "(func $contract_f (call $contract_entry_point " ++
        "(i32.const 1081346) (i32.const 1081355))))") := by
  obtain ⟨hread, _, _, _, hpasses⟩ := fields_withFields_lens
  have hled : LedByList functionFields := by decide
  refine ⟨hled, (hread _ _).mp hled, ?_, by decide +kernel⟩
  exact hpasses keepingPasses _ _ (by decide) (by decide) hled

end Sexpr

end WasmTrim
