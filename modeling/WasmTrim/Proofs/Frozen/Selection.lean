import WasmTrim.Proofs.Frozen.DataPath
import WasmTrim.Proofs.Session.MemoryAccess
import WasmTrim.Proofs.Text.Utf8
import WasmTrim.Session.SourceCompilation

/-!
# Modules that are reported are kept

The runtime reports a load of a frozen module by the address of the path in the module's record. The
path was text, stands between two words and zeros in the table, lies in guest memory, is read up to
its zero byte, and becomes text again; and it has to be the path that the module was added with, or
the module is not among those that are selected in the end.

`FrozenStore.reported_modules_kept` is about stores that have an image and whose paths have no zero
byte. The image is in guest memory once a session has written it there, or once a guest's data is
laid, of which it is the last segment if the image was embedded in the guest's text.

## Implementation notes

Behind a record stands the next one, which starts with an address that is not zero. So the zero byte
that ends a path must be one of the record itself, and there is one since paths are shorter than
their place. All of this lies within the longest text that the host reads.
-/

namespace WasmTrim

open Frozen

/-! ### Guest memory that shows an image -/

namespace GuestMemory

variable {memory : GuestMemory} {place : Nat} {front part back text : ByteArray}

/-- Where some bytes show, each part of them does. -/
theorem Holds.middle (h : memory.Holds place (front ++ part ++ back)) :
    memory.Holds (place + front.size) part := by
  have hinside := h.inside
  rw [ByteArray.size_append, ByteArray.size_append] at hinside
  refine ⟨by omega, fun i hi => ?_⟩
  calc
    memory.contents.byteAt (place + front.size + i) =
        memory.contents.byteAt (place + (front.size + i)) := by rw [Nat.add_assoc]
    _ = byteAt (front ++ part ++ back) (front.size + i) := by
      apply h.byteAt_eq
      rw [ByteArray.size_append, ByteArray.size_append]
      omega
    _ = byteAt part i := by
      rw [ByteArray.append_assoc, byteAt_append_right, byteAt_append_left back hi]

/-- A text that a zero byte ends is read whole, if it is not too long. -/
theorem textAt?_of_holds (h : memory.Holds place (text ++ zeros 1))
    (hzero : 0 ∉ text.data.toList) (hshort : text.size < maxTextSize) :
    memory.textAt? place = some text := by
  have hinside := h.inside
  have hsize : (text ++ zeros 1).size = text.size + 1 := by
    rw [ByteArray.size_append, size_zeros]
  have hread : (text ++ zeros 1).size ≤ min (memory.size - place) maxTextSize := by omega
  obtain ⟨back, hwindow⟩ := Overlay.exists_window_eq_append h.byteAt_eq hread
  rw [textAt?, if_pos (by omega), hwindow, ByteArray.append_assoc,
    FrozenStore.beforeZero_append_zeros hzero Nat.one_pos]

end GuestMemory

/-- A session that wrote bytes holds them. -/
theorem Session.holds_of_write {session later : Session} {address : UInt32} {bytes : ByteArray}
    (hbytes : bytes.size < 0x100000000) (h : session.write address bytes = .ok later) :
    ∃ memory, later.memory = .ok memory ∧ memory.Holds address.toNat bytes := by
  cases hmemory : session.memory with
  | error e =>
      rw [Session.write, hmemory] at h
      cases h
  | ok memory =>
      have haddress : address.toNat < 0x100000000 := address.toNat_lt
      rw [write_eq hmemory address (by omega)] at h
      cases hwrite : memory.write? address.toNat bytes with
      | none =>
          rw [hwrite] at h
          cases h
      | some written =>
          rw [hwrite] at h
          cases h
          exact ⟨written, memory_withMemory hmemory, (GuestMemory.replaced_of_write? hwrite).holds⟩

namespace Instance

variable {blank now : Instance} {memory : GuestMemory} {data : List Patch} {place : Nat}
variable {bytes : ByteArray}

/-- Data is laid into a memory by writing it there. -/
theorem lay?_eq_map (h : blank.memory = some memory) (data : List Patch) :
    blank.lay? data =
      (memory.writeAll? data).map fun memory => { blank with memory := some memory } := by
  cases data with
  | nil =>
      rw [lay?, GuestMemory.writeAll?, List.foldlM_nil, Option.pure_def, Option.map_some, ← h]
  | cons p rest => simp only [lay?, h]

/-- Data that is laid last shows whole, whatever was laid before. -/
theorem holds_of_lay? (h : blank.lay? (data ++ [⟨place, bytes⟩]) = some now) :
    ∃ memory, now.memory = some memory ∧ memory.Holds place bytes := by
  cases hmemory : blank.memory with
  | none =>
      cases data <;> simp [lay?, hmemory] at h
  | some memory =>
      rw [lay?_eq_map hmemory] at h
      obtain ⟨written, hwritten, rfl⟩ := Option.map_eq_some_iff.mp h
      rw [GuestMemory.writeAll?, List.foldlM_append, Option.bind_eq_bind,
        Option.bind_eq_some_iff] at hwritten
      obtain ⟨earlier, _, hlast⟩ := hwritten
      have hwrite : earlier.write? place bytes = some written := by simpa using hlast
      exact ⟨written, rfl, (GuestMemory.replaced_of_write? hwrite).holds⟩

end Instance

namespace FrozenStore

variable {store : FrozenStore} {image : ByteArray} {m : FrozenModule}
variable {before after : List FrozenModule}

/-! ### The place of a path -/

theorem tableOf_append (offset : Nat) (before after : List FrozenModule) :
    tableOf offset (before ++ after) =
      tableOf offset before ++ tableOf (offset + codeSpan before) after := by
  induction before generalizing offset with
  | nil => exact ByteArray.empty_append.symm
  | cons m rest ih =>
      rw [List.cons_append, tableOf, tableOf, ih, codeSpan, ByteArray.append_assoc, Nat.add_assoc]

/-- A path lies behind the two words of its record, with a zero byte behind it. -/
theorem exists_layout_eq (h : Fits store) (hsplit : store.modules.toList = before ++ m :: after) :
    ∃ front back, store.layout = front ++ (m.path.toUTF8 ++ zeros 1) ++ back ∧
      front.size = recordSize * before.length + 8 := by
  have hshort : m.path.utf8ByteSize < 56 := h.paths m (by rw [hsplit]; simp)
  have hbefore : ∀ m' ∈ before, m'.path.utf8ByteSize < 56 := fun m' hm =>
    h.paths m' (by rw [hsplit]; exact List.mem_append_left _ hm)
  generalize hoffset : stringsOffset + store.pool.size = offset
  have htable : (tableOf offset before).size = recordSize * before.length := by
    rw [size_records (records_eq_ok_iff.mpr ⟨hbefore, ByteArray.empty_append.symm⟩),
      ByteArray.size_empty, Nat.zero_add]
  have hpadding : recordSize - 8 - m.path.utf8ByteSize = 1 + (55 - m.path.utf8ByteSize) := by
    rw [recordSize]
    omega
  refine ⟨tableOf offset before ++ word32Bytes (address (offset + codeSpan before)) ++
      word32Bytes m.code.size.toUInt32,
    zeros (55 - m.path.utf8ByteSize) ++ tableOf (offset + codeSpan before + m.code.size) after ++
      zeros (recordSize * (slots - store.modules.size)) ++ store.pool ++ store.blobs, ?_, ?_⟩
  · rw [layout, hoffset, hsplit, tableOf_append, tableOf, record, hpadding, zeros_add]
    simp only [ByteArray.append_assoc]
  · simp only [ByteArray.size_append, size_word32Bytes, htable]

/-- Where memory shows an image, every path is read at its place in the table. -/
theorem textAt?_of_split {memory : GuestMemory} (himage : store.image = .ok image)
    (hholds : memory.Holds baseAddress image)
    (hsplit : store.modules.toList = before ++ m :: after)
    (hpath : 0 ∉ m.path.toUTF8.data.toList) :
    memory.textAt? (baseAddress + recordSize * before.length + 8) = some m.path.toUTF8 := by
  obtain ⟨hfits, rfl⟩ := image_eq_ok_iff.mp himage
  obtain ⟨front, back, hlayout, hfront⟩ := exists_layout_eq hfits hsplit
  have hshort : m.path.toUTF8.size < 56 := hfits.paths m (by rw [hsplit]; simp)
  rw [hlayout] at hholds
  rw [Nat.add_assoc, ← hfront]
  exact GuestMemory.textAt?_of_holds hholds.middle hpath (Nat.lt_trans hshort (by decide))

end FrozenStore

namespace HostImport

variable {memory : GuestMemory} {address : UInt32} {path : String}

/-- The hook for loads of frozen modules, as a guest imports it. -/
def frozenHook (type : FunctionType) : ImportedFunction :=
  ⟨hostModule, TraceHook.frozenModuleLoad.importName, type⟩

/-- The hook notes the text that it is given the address of, and does nothing else. -/
theorem answer_frozenHook {bytes : ByteArray} (type : FunctionType) (host : HostState)
    (htext : memory.textAt? address.toNat = some bytes) :
    (frozenHook type).answer host (some memory) [.i32 address] =
      .ok { host := { host with trace := host.trace.addFrozen (Utf8.decodeLossy bytes) }
            memory := some memory } := by
  have hfind : find? hostModule TraceHook.frozenModuleLoad.importName =
      some (hook .frozenModuleLoad) := by
    have hoffered : hook .frozenModuleLoad ∈ all := by decide
    exact find?_name hoffered
  have hname : Serving.nameAt address { host, memory := some memory } =
      (.ok (Utf8.decodeLossy bytes), { host, memory := some memory }) := by
    rw [HostScope.nameAt_apply rfl, HostFunction.readName_eq_ok_iff.mpr]
    rw [Option.bind_some, htext, Option.map_some]
  rw [ImportedFunction.answer, frozenHook, hfind]
  simp only [hook, HostFunction.answer, HostFunction.serve, Stateful.bind_apply_ok hname]
  rfl

end HostImport

/-! ### From the report to the selection -/

namespace FrozenStore

variable {store : FrozenStore} {image : ByteArray} {m : FrozenModule}

/-- The address of the path in a record. -/
def pathAddress (i : Nat) : UInt32 :=
  (baseAddress + recordSize * i + 8).toUInt32

theorem toNat_pathAddress {i : Nat} (h : i ≤ 511) :
    (pathAddress i).toNat = baseAddress + recordSize * i + 8 := by
  simp only [pathAddress, baseAddress, recordSize]
  exact toNat_toUInt32 (by omega)

/-- What comes of the report of a module of a store. -/
structure Recognised (store : FrozenStore) (m : FrozenModule) (memory : GuestMemory)
    (host : HostState) (reply : HostReply) : Prop where
  /-- The host keeps what it kept, with the path of the module as one that was loaded. -/
  host_eq : reply.host = { host with trace := host.trace.addFrozen m.path }
  /-- The memory is the same. -/
  memory_eq : reply.memory = some memory
  /-- Nothing is returned. -/
  results_eq : reply.results = []
  /-- No other path is taken for one that was loaded. -/
  mem_iff : ∀ path, path ∈ reply.host.trace.frozenModules ↔
    path = m.path ∨ path ∈ host.trace.frozenModules
  /-- The module is kept where the modules of the store are filtered by what was loaded. -/
  kept : m ∈ store.modules.toList.filter fun m => reply.host.trace.frozenModules.contains m.path

theorem recognised_addFrozen (memory : GuestMemory) (host : HostState)
    (hm : m ∈ store.modules.toList) :
    Recognised store m memory host
      { host := { host with trace := host.trace.addFrozen m.path }, memory := some memory } where
  host_eq := rfl
  memory_eq := rfl
  results_eq := rfl
  mem_iff _ := mem_insertSorted
  kept := List.mem_filter.mpr
    ⟨hm, List.contains_iff_mem.mpr (mem_insertSorted.mpr (Or.inl rfl))⟩

theorem dataSegments_embedIn {module packed : Sexpr} (himage : store.image = .ok image)
    (h : store.embedIn module = .ok packed) :
    packed.dataSegments = module.dataSegments ++ [⟨baseAddress.toUInt32, image⟩] := by
  obtain ⟨image', himage', rfl⟩ := embedIn_eq_ok h
  obtain rfl : image = image' := Except.ok.inj (himage.symm.trans himage')
  have hname : Sexpr.isQuoted (.atom segmentName) = false := by decide
  have hsegment := Sexpr.dataSegment?_dataField hname baseAddress.toUInt32 image
  rw [Sexpr.dataSegments_withFields, List.filterMap_append,
    List.filterMap_cons_some (Sexpr.activeSegment?_of_ok hsegment)]
  rfl

/-- A module that is reported by the address in its own record is recognised: its path, the same
characters, joins those that were loaded, nothing else changes, and the module is among the selected
ones. -/
theorem reported_modules_kept (hpath : ∀ m ∈ store.modules.toList, 0 ∉ m.path.toUTF8.data.toList)
    (himage : store.image = .ok image) :
    (∀ session later, Compiling.layImage store session = (.ok (), later) →
      ∃ memory, later.memory = .ok memory ∧ memory.Holds baseAddress image) ∧
    (∀ module packed, store.embedIn module = .ok packed →
      packed.dataSegments = module.dataSegments ++ [⟨baseAddress.toUInt32, image⟩]) ∧
    (∀ (blank now : Instance) (data : List Patch),
      blank.lay? (data ++ [⟨baseAddress, image⟩]) = some now →
      ∃ memory, now.memory = some memory ∧ memory.Holds baseAddress image) ∧
    ∀ memory : GuestMemory, memory.Holds baseAddress image →
      ∀ i m, store.modules[i]? = some m → ∀ type host, ∃ reply,
        (HostImport.frozenHook type).answer host (some memory) [.i32 (pathAddress i)] = .ok reply ∧
        Recognised store m memory host reply := by
  have hwindow := size_image_le himage
  refine ⟨?_, fun _ _ => dataSegments_embedIn himage, fun _ _ _ => Instance.holds_of_lay?, ?_⟩
  · intro session later hlay
    rw [Compiling.layImage, himage] at hlay
    simp only [Compiling.write] at hlay
    cases hwrite : session.write baseAddress.toUInt32 image with
    | error e =>
        rw [hwrite] at hlay
        cases hlay
    | ok written =>
        rw [hwrite] at hlay
        cases hlay
        exact Session.holds_of_write (Nat.lt_of_le_of_lt hwindow (by decide)) hwrite
  · intro memory hholds i m hm type host
    obtain ⟨hi, rfl⟩ := Array.getElem?_eq_some_iff.mp hm
    have hmem : store.modules[i] ∈ store.modules.toList := Array.getElem_mem_toList hi
    have hsplit : store.modules.toList =
        store.modules.toList.take i ++ store.modules[i] :: store.modules.toList.drop (i + 1) := by
      rw [← Array.getElem_toList hi, ← List.drop_eq_getElem_cons, List.take_append_drop]
    have hlength : (store.modules.toList.take i).length = i := by
      rw [List.length_take, Array.length_toList]
      exact Nat.min_eq_left (Nat.le_of_lt hi)
    have hmodules := (image_eq_ok_iff.mp himage).1.modules
    have htext := textAt?_of_split himage hholds hsplit (hpath _ hmem)
    rw [hlength, ← toNat_pathAddress (by omega)] at htext
    have hanswer := HostImport.answer_frozenHook type host htext
    rw [Utf8.decodeLossy_toUTF8] at hanswer
    exact ⟨_, hanswer, recognised_addFrozen memory host hmem⟩

/-- The second module of a small store is recognised by its record, in the memory of a guest whose
data lies under the image. -/
theorem smallStore_second_kept : ∃ image memory reply, smallStore.image = .ok image ∧
    memory.Holds baseAddress image ∧
    (HostImport.frozenHook { params := [.i32] }).answer {} (some memory) [.i32 1048648] =
      .ok reply ∧
    reply.host.trace.frozenModules = ["pkg/b.pyc"] ∧
    ⟨"pkg/b.pyc", ⟨#[]⟩⟩ ∈ smallStore.modules.toList.filter fun m =>
      reply.host.trace.frozenModules.contains m.path := by
  have himage := image_of_fits fits_smallStore
  obtain ⟨_, _, hlaid, hreported⟩ := reported_modules_kept (by decide) himage
  have hlay : ∃ now, (⟨some { size := 16777216 }, []⟩ : Instance).lay?
      ([⟨1048580, ⟨#[1, 2]⟩⟩] ++ [⟨baseAddress, smallStore.layout⟩]) = some now := by
    have hold : (GuestMemory.mk 16777216 [] (by decide)).write? 1048580 ⟨#[1, 2]⟩ =
        some ⟨16777216, [⟨1048580, ⟨#[1, 2]⟩⟩], by decide⟩ := rfl
    have hfits : baseAddress + smallStore.layout.size ≤ 16777216 :=
      Nat.le_trans (Nat.add_le_add_left (size_image_le himage) _) (by decide)
    have hnew : (GuestMemory.mk 16777216 [⟨1048580, ⟨#[1, 2]⟩⟩] (by decide)).write?
        baseAddress smallStore.layout = some ⟨16777216,
          [⟨baseAddress, smallStore.layout⟩, ⟨1048580, ⟨#[1, 2]⟩⟩], by decide⟩ :=
      if_pos hfits
    have hwritten : (GuestMemory.mk 16777216 [] (by decide)).writeAll?
        ([⟨1048580, ⟨#[1, 2]⟩⟩] ++ [⟨baseAddress, smallStore.layout⟩]) = some ⟨16777216,
          [⟨baseAddress, smallStore.layout⟩, ⟨1048580, ⟨#[1, 2]⟩⟩], by decide⟩ := by
      rw [GuestMemory.writeAll?, List.singleton_append, List.foldlM_cons, hold,
        Option.bind_eq_bind, Option.bind_some, List.foldlM_cons, hnew]
      rfl
    rw [Instance.lay?_eq_map rfl, hwritten]
    exact ⟨_, rfl⟩
  obtain ⟨now, hnow⟩ := hlay
  obtain ⟨memory, _, hholds⟩ := hlaid _ now _ hnow
  obtain ⟨reply, hreply, hrecognised⟩ :=
    hreported memory hholds 1 ⟨"pkg/b.pyc", ⟨#[]⟩⟩ rfl { params := [.i32] } {}
  have haddress : pathAddress 1 = 1048648 := rfl
  rw [haddress] at hreply
  have hloaded : reply.host.trace.frozenModules = ["pkg/b.pyc"] := by
    rw [hrecognised.host_eq]
    rfl
  exact ⟨_, memory, reply, himage, hholds, hreply, hloaded, hrecognised.kept⟩

end FrozenStore

end WasmTrim
