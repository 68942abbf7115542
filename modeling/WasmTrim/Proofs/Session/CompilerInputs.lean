import WasmTrim.Proofs.Frozen.Loader
import WasmTrim.Proofs.Guest.Region
import WasmTrim.Proofs.Session.Compilation

/-!
# What a guest's compiler is handed

Where the allocator of a guest puts things is out of its host's control. `Session.Provides` says
what it promises: each region that it returns lies within the memory, apart from the image and from
the regions that it returned before, and it writes to none of these. The invariant that follows is
`Session.Intact`: whatever was laid so far lies where it was laid. Taking room once more keeps it,
so all is intact when the compiler is called.

`compiler_gets_inputs_intact` follows a compilation to its end. A failure of the preparations comes
out the same whatever the compiler would do. A null pointer as the answer means that nothing was
made; any other one, together with the word behind the third argument, says which bytes of the
memory that the compiler left are the result. What lies in its place when the compiler is called is
an image that can be made and fits, and where the pointers lead, the source and the name of its
file, each up to a zero byte.

## Implementation notes

The promise is about the allocations of one compilation and no others, since no guest can make it of
regions of every size.
-/

namespace WasmTrim

open Frozen Stateful

namespace GuestMemory

variable {memory : GuestMemory} {place : Nat} {text : String}

/-- Memory shows a text that a zero byte ends, and no zero byte before that. -/
structure HoldsText (memory : GuestMemory) (place : Nat) (text : String) : Prop where
  /-- The bytes of the text and a zero byte are there. -/
  holds : memory.Holds place (text.toUTF8.push 0)
  /-- The text does not end earlier. -/
  ne_zero : ∀ i < text.utf8ByteSize, memory.contents.byteAt (place + i) ≠ 0

theorem Holds.holdsText (h : memory.Holds place (text.toUTF8.push 0))
    (hzero : 0 ∉ text.toUTF8.data.toList) : memory.HoldsText place text where
  holds := h
  ne_zero i hi := by
    have hsize : i < text.toUTF8.size := hi
    rw [h.byteAt_eq i (ByteArray.size_push ▸ Nat.lt_succ_of_lt hi), push_eq_append,
      byteAt_append_left _ hsize]
    exact byteAt_ne_zero_of_not_mem hzero hsize

end GuestMemory

namespace Compiling

/-! ### The allocator's promise -/

/-- What the host asks the guest's allocator for. -/
inductive Room where
  /-- Room for a word that the guest will set. -/
  | word
  /-- Room for a text and a zero byte. -/
  | text (content : String)

namespace Room

/-- The number of bytes that are asked for. -/
def size : Room → UInt32
  | .word => 4
  | .text content => (content.toUTF8.push 0).size.toUInt32

/-- Asks for room, and lays what is to be there. -/
def take : Room → Compiling UInt32
  | .word => call allocator [4]
  | .text content => copyText content

/-- What the host does in the room that it was given. -/
def fill (session : Session) (address : UInt32) : Room → Session
  | .word => session
  | .text content => session.after (.write address (content.toUTF8.push 0))

/-- What shows in the room then; the host leaves a word as it finds it. -/
def Shows (bytes : ByteArray) : Room → Prop
  | .word => bytes.size = 4
  | .text content => bytes = content.toUTF8.push 0

/-- A text that is not too long. -/
def Short : Room → Prop
  | .word => True
  | .text content => content.utf8ByteSize < 0x7fffffff

/-- The number of bytes that are asked for a short text is a word. -/
theorem toNat_size_text {content : String} (h : content.utf8ByteSize < 0x7fffffff) :
    (Room.text content).size.toNat = (content.toUTF8.push 0).size := by
  have hbytes : (content.toUTF8.push 0).size = content.utf8ByteSize + 1 := ByteArray.size_push
  exact toNat_toUInt32 (by omega)

/-- The room for one compilation, in the order in which it is asked for. -/
def all (source file : String) : List Room :=
  [.word, .text source, .text file]

end Room

end Compiling

namespace Session

open Compiling

/-- The allocator returns a region when it is asked for `n` bytes, and some regions are taken. -/
structure Allocates (session later : Session) (memory laid : GuestMemory) (taken : List Region)
    (n address : UInt32) : Prop where
  /-- The call returns. -/
  returns : session.callWord allocator [n] = (.ok address, later)
  /-- There is a memory before the call. -/
  memory_eq : session.memory = .ok memory
  /-- There is a memory after it. -/
  laid_eq : later.memory = .ok laid
  /-- The region lies within the memory. -/
  inside : address.toNat + n.toNat ≤ laid.size
  /-- It is apart from those that are taken. -/
  apart : ∀ r ∈ taken, Region.Apart ⟨address.toNat, n.toNat⟩ r
  /-- Nothing is written to these. -/
  spares : memory.Spares laid taken

/-- The allocator does so each time, while the host fills the room that it is given. -/
inductive Provides : Session → List Region → List Room → Prop where
  /-- All room has been given. -/
  | done {session : Session} {taken : List Region} : Provides session taken []
  /-- Room is given, which is taken then. -/
  | room {session later : Session} {memory laid : GuestMemory} {taken : List Region} {room : Room}
      {rest : List Room} {address : UInt32}
      (allocates : session.Allocates later memory laid taken room.size address)
      (provides : Provides (room.fill later address) (⟨address.toNat, room.size.toNat⟩ :: taken)
        rest) :
      Provides session taken (room :: rest)

/-- Patches lie in a session's memory, each apart from the others. -/
structure Intact (session : Session) (memory : GuestMemory) (pieces : List Patch) : Prop where
  /-- The memory is the session's. -/
  memory_eq : session.memory = .ok memory
  /-- The patches lie where they were laid. -/
  holds : ∀ p ∈ pieces, memory.Holds p.start p.bytes
  /-- They are apart. -/
  apart : (pieces.map Patch.region).Pairwise Region.Apart

variable {session later : Session} {memory laid : GuestMemory} {pieces : List Patch} {p : Patch}
variable {room : Room} {rest : List Room}

/-- A patch joins the others if it spares them. -/
theorem Intact.cons (h : session.Intact memory pieces) (hlaid : later.memory = .ok laid)
    (hspares : memory.Spares laid (pieces.map Patch.region)) (hp : laid.Holds p.start p.bytes)
    (hapart : ∀ r ∈ pieces.map Patch.region, Region.Apart p.region r) :
    later.Intact laid (p :: pieces) where
  memory_eq := hlaid
  holds := by
    refine List.forall_mem_cons.mpr ⟨hp, fun q hq => ?_⟩
    exact (h.holds q hq).of_spares hspares (List.mem_map_of_mem hq)
  apart := List.pairwise_cons.mpr ⟨hapart, h.apart⟩

/-- Taking room keeps all intact, and what is laid in the room then lies there. -/
theorem Intact.take (h : session.Intact memory pieces)
    (hprovides : session.Provides (pieces.map Patch.region) (room :: rest)) (hshort : room.Short) :
    ∃ address bytes later laid, room.take session = (.ok address, later) ∧ room.Shows bytes ∧
      later.guest = session.guest ∧ later.Intact laid (⟨address.toNat, bytes⟩ :: pieces) ∧
      later.Provides ((⟨address.toNat, bytes⟩ :: pieces).map Patch.region) rest := by
  cases hprovides with
  | @room _ later _ laid _ _ _ address allocates provides =>
    cases h.memory_eq.symm.trans allocates.memory_eq
    have hguest := guest_of_callWord allocates.returns
    cases room with
    | word =>
        -- The host writes nothing here: what is laid is what the memory shows.
        have hregion : Patch.region ⟨address.toNat, laid.contents.window address.toNat 4⟩ =
            ⟨address.toNat, Room.word.size.toNat⟩ := by
          rw [Patch.region, Overlay.size_window]
          rfl
        refine ⟨address, laid.contents.window address.toNat 4, later, laid,
          call_of_ok allocates.returns, Overlay.size_window .., hguest, ?_, ?_⟩
        · exact h.cons allocates.laid_eq allocates.spares
            (GuestMemory.holds_window allocates.inside) (hregion ▸ allocates.apart)
        · rwa [List.map_cons, hregion]
    | text content =>
        -- Neither the call nor the write touches what is taken.
        obtain ⟨hreturns, _, hlaid, hinside, hapart, hspares⟩ := allocates
        rw [Room.toNat_size_text hshort] at hinside hapart provides
        obtain ⟨written, hwrite, hreplaced⟩ :=
          (accessesExactly hlaid).write_inside address _ hinside
        refine ⟨address, _, later.withMemory written, written, copyText_of_ok hreturns hwrite, rfl,
          hguest, ?_, ?_⟩
        · exact h.cons (memory_withMemory hlaid)
            (hspares.trans (hreplaced.spares hapart)) hreplaced.holds hapart
        · rwa [Room.fill, after_write hwrite] at provides

end Session

namespace Compiling

variable {store : FrozenStore} {source file : String} {session : Session} {memory : GuestMemory}
variable {image : ByteArray}

/-- What a guest's memory shows where the compiler is told to look. -/
structure Handed (memory : GuestMemory) (image : ByteArray) (source file : String)
    (s f l : UInt32) : Prop where
  /-- The image lies where the runtime looks for it. -/
  image_holds : memory.Holds baseAddress image
  /-- The source is where the first pointer leads. -/
  source_holds : memory.HoldsText s.toNat source
  /-- The name of its file is where the second one leads. -/
  file_holds : memory.HoldsText f.toNat file
  /-- There is room for a word where the third one leads. -/
  room : l.toNat + 4 ≤ memory.size
  /-- Nothing of this overlaps. -/
  apart : [⟨f.toNat, file.utf8ByteSize + 1⟩, ⟨s.toNat, source.utf8ByteSize + 1⟩, ⟨l.toNat, 4⟩,
    ⟨baseAddress, image.size⟩].Pairwise Region.Apart

theorem layImage_of_ok (hmemory : session.memory = .ok memory) (himage : store.image = .ok image)
    (hfits : baseAddress + image.size ≤ memory.size) :
    ∃ later laid, layImage store session = (.ok (), later) ∧
      session.after (.write baseAddress.toUInt32 image) = later ∧ later.guest = session.guest ∧
      later.Intact laid [⟨baseAddress, image⟩] := by
  obtain ⟨laid, hwrite, hreplaced⟩ :=
    (Session.accessesExactly hmemory).write_inside baseAddress.toUInt32 image hfits
  refine ⟨session.withMemory laid, laid, ?_, Session.after_write hwrite, rfl, ?_⟩
  · rw [layImage, himage]
    exact write_of_ok hwrite
  · exact ⟨Session.memory_withMemory hmemory, List.forall_mem_singleton.mpr hreplaced.holds,
      List.pairwise_singleton ..⟩

/-- Where the allocator keeps its promise, everything is intact when the compiler is called. -/
theorem prepare_intact (hmemory : session.memory = .ok memory)
    (hsource : 0 ∉ source.toUTF8.data.toList) (hfile : 0 ∉ file.toUTF8.data.toList)
    (hsourceShort : source.utf8ByteSize < 0x7fffffff) (hfileShort : file.utf8ByteSize < 0x7fffffff)
    (himage : store.image = .ok image) (hfits : baseAddress + image.size ≤ memory.size)
    (hprovides : (session.after (.write baseAddress.toUInt32 image)).Provides
      [⟨baseAddress, image.size⟩] (Room.all source file)) :
    ∃ s f l ready atCall, prepare store source file session = (.ok (s, f, l), ready) ∧
      ready.guest = session.guest ∧ ready.memory = .ok atCall ∧
      Handed atCall image source file s f l := by
  obtain ⟨start, _, hlay, hafter, hstart, hintact⟩ := layImage_of_ok hmemory himage hfits
  rw [hafter] at hprovides
  obtain ⟨l, cell, given, _, hcell, hcellSize, hgiven, hintact, hprovides⟩ :=
    hintact.take hprovides trivial
  obtain ⟨s, _, copied, _, hsourceTake, rfl, hcopied, hintact, hprovides⟩ :=
    hintact.take hprovides hsourceShort
  obtain ⟨f, _, ready, atCall, hfileTake, rfl, hready, hintact, _⟩ :=
    hintact.take hprovides hfileShort
  have hprepare : prepare store source file session = (.ok (s, f, l), ready) := by
    simp only [Room.take] at hcell hsourceTake hfileTake
    rw [prepare, bind_apply_ok hlay, bind_apply_ok hcell, bind_apply_ok hsourceTake,
      bind_apply_ok hfileTake]
    rfl
  have hguest : ready.guest = session.guest :=
    hready.trans (hcopied.trans (hgiven.trans hstart))
  refine ⟨s, f, l, ready, atCall, hprepare, hguest, hintact.memory_eq, ?_⟩
  have hholds := hintact.holds
  simp only [List.forall_mem_cons] at hholds
  obtain ⟨hfileHolds, hsourceHolds, hcellHolds, himageHolds, _⟩ := hholds
  refine ⟨himageHolds, hsourceHolds.holdsText hsource, hfileHolds.holdsText hfile, ?_, ?_⟩
  · rw [← hcellSize]
    exact hcellHolds.inside
  · have hapart := hintact.apart
    simp only [List.map_cons, List.map_nil, Patch.region, ByteArray.size_push] at hapart
    rwa [hcellSize] at hapart

/-- How a source comes to the compiler of a guest whose allocator keeps its promise. -/
structure HandsOver (store : FrozenStore) (source file : String) (session : Session)
    (memory : GuestMemory) : Prop where
  /-- If there is no image, nothing is done. -/
  no_image : ∀ cause, store.image = .error cause →
    prepare store source file session = (.error (.pack cause), session)
  /-- Nor is anything done if the image does not fit into the memory. -/
  no_room : ∀ image, store.image = .ok image → memory.size < baseAddress + image.size →
    prepare store source file session =
      (.error (.session (.badWrite baseAddress (baseAddress + image.size))), session)
  /-- Otherwise the compiler is called, and what it is handed is intact. -/
  handed : ∀ image, store.image = .ok image → baseAddress + image.size ≤ memory.size →
    ∃ s f l ready atCall, prepare store source file session = (.ok (s, f, l), ready) ∧
      ready.guest = session.guest ∧ ready.memory = .ok atCall ∧
      Handed atCall image source file s f l

theorem handsOver (hmemory : session.memory = .ok memory)
    (hsource : 0 ∉ source.toUTF8.data.toList) (hfile : 0 ∉ file.toUTF8.data.toList)
    (hsourceShort : source.utf8ByteSize < 0x7fffffff) (hfileShort : file.utf8ByteSize < 0x7fffffff)
    (hprovides : ∀ image, store.image = .ok image → baseAddress + image.size ≤ memory.size →
      (session.after (.write baseAddress.toUInt32 image)).Provides [⟨baseAddress, image.size⟩]
        (Room.all source file)) :
    HandsOver store source file session memory where
  no_image cause himage := by
    have hlay : layImage store session = (.error (.pack cause), session) := by
      rw [layImage, himage]
      rfl
    exact bind_apply_error hlay
  no_room image himage hroom := by
    have hsize : image.size < 0x8000000000000000 :=
      Nat.lt_of_le_of_lt (FrozenStore.size_image_le himage) (by decide)
    have hwrite := ((Session.accessesExactly hmemory).write_outside baseAddress.toUInt32 image
      hsize hroom).1
    have hlay : layImage store session =
        (.error (.session (.badWrite baseAddress (baseAddress + image.size))), session) := by
      rw [layImage, himage]
      exact write_of_error hwrite
    exact bind_apply_error hlay
  handed image himage hfits :=
    prepare_intact hmemory hsource hfile hsourceShort hfileShort himage hfits
      (hprovides image himage hfits)

end Compiling

/-- A guest's compiler is called after all preparations, and only if they succeed; its answer
decides how the compilation ends. If the allocator keeps its promise, it is handed the image and
both texts intact. -/
theorem compiler_gets_inputs_intact :
    (∀ store source file (session : Session) cause later,
      Compiling.prepare store source file session = (.error cause, later) →
        session.compile store source file = (.error cause, later) ∧
        ∀ other, (session.withCompiler other).compile store source file =
          (.error cause, later.withCompiler other)) ∧
    (∀ store source file (session : Session) s f l ready answer later,
      Compiling.prepare store source file session = (.ok (s, f, l), ready) →
        ready.callWord Compiling.compiler [s, f, l] = (answer, later) →
          Compiling.Concludes file l answer later (session.compile store source file)) ∧
    ∀ store source file (session : Session) memory, session.memory = .ok memory →
      0 ∉ source.toUTF8.data.toList → 0 ∉ file.toUTF8.data.toList →
      source.utf8ByteSize < 0x7fffffff → file.utf8ByteSize < 0x7fffffff →
      (∀ image, store.image = .ok image → baseAddress + image.size ≤ memory.size →
        (session.after (.write baseAddress.toUInt32 image)).Provides [⟨baseAddress, image.size⟩]
          (Compiling.Room.all source file)) →
        Compiling.HandsOver store source file session memory := by
  refine ⟨fun store source file session cause later h => ⟨Compiling.compile_of_error h, ?_⟩, ?_, ?_⟩
  · intro other
    apply Compiling.compile_of_error
    rw [Compiling.blind_prepare store source file session other, h]
  · intro store source file session s f l ready answer later hprepare hcall
    rw [Compiling.compile_of_ok hprepare]
    exact Compiling.concludes hcall
  · intro store source file session memory hmemory hsource hfile hsourceShort hfileShort hprovides
    exact Compiling.handsOver hmemory hsource hfile hsourceShort hfileShort hprovides

namespace Compiling

/-- A compiler that answers the image's table. -/
def tableCompiler : ExportedFunction where
  type := { params := [.i32, .i32, .i32], results := [.i32] }
  call := fun now arguments =>
    match now.memory, arguments with
    | some memory, [_, _, .i32 l] =>
      match memory.write? l.toNat (word32Bytes stringsOffset.toUInt32) with
      | some written => .done { now with memory := some written } [.i32 baseAddress.toUInt32]
      | none => .trapped now .outOfBounds
    | _, _ => .trapped now .unreachable

/-- A guest whose allocator hands out what lies behind the address in its first global. -/
def bumpingGuest : Guest where
  exportsMemory := true
  function? := fun name =>
    if name = allocator then some {
      type := { params := [.i32], results := [.i32] }
      call := fun now arguments =>
        match now.globals, arguments with
        | [.i32 free], [.i32 n] => .done { now with globals := [.i32 (free + n)] } [.i32 free]
        | _, _ => .trapped now .unreachable }
    else if name = compiler then some tableCompiler
    else none

/-- A session of that guest. -/
def bumping (memory : GuestMemory) (free : UInt32) : Session where
  guest := bumpingGuest
  now := { memory := some memory, globals := [.i32 free] }
  host := {}
  history := []

variable {memory : GuestMemory} {free : UInt32} {ready : Session} {s f l : UInt32}

theorem memory_bumping (memory : GuestMemory) (free : UInt32) :
    (bumping memory free).memory = .ok memory := rfl

theorem callWord_bumping (memory : GuestMemory) (free n : UInt32) :
    (bumping memory free).callWord allocator [n] = (.ok free, bumping memory (free + n)) := rfl

/-- Filling room changes bytes of the memory only. -/
theorem exists_fill_bumping (room : Room) (memory : GuestMemory) (free address : UInt32) :
    ∃ written, written.size = memory.size ∧
      room.fill (bumping memory free) address = bumping written free := by
  cases room with
  | word => exact ⟨memory, rfl, rfl⟩
  | text content =>
      have hwrite : (bumping memory free).write address (content.toUTF8.push 0) =
          match memory.replace? address.toUInt64
            (address.toUInt64 + (content.toUTF8.push 0).size.toUInt64) (content.toUTF8.push 0) with
          | some written => .ok (bumping written free)
          | none => .error (.badWrite address.toUInt64.toNat
              (address.toUInt64 + (content.toUTF8.push 0).size.toUInt64).toNat) := rfl
      rw [Room.fill, Session.after, hwrite]
      cases hreplace : memory.replace? address.toUInt64
          (address.toUInt64 + (content.toUTF8.push 0).size.toUInt64) (content.toUTF8.push 0) with
      | none => exact ⟨memory, rfl, rfl⟩
      | some written => exact ⟨written, GuestMemory.size_of_replace? hreplace, rfl⟩

/-- The number of bytes that are asked for in all. -/
def Room.total : List Room → Nat
  | [] => 0
  | room :: rest => room.size.toNat + Room.total rest

theorem provides_bumping (rooms : List Room) : ∀ {memory : GuestMemory} {free : UInt32}
    {taken : List Region}, (∀ r ∈ taken, r.stop ≤ free.toNat) →
      free.toNat + Room.total rooms ≤ memory.size →
      free.toNat + Room.total rooms < 0x100000000 →
      (bumping memory free).Provides taken rooms := by
  induction rooms with
  | nil => exact fun _ _ _ => .done
  | cons room rest ih =>
      intro memory free taken htaken hroom hword
      rw [Room.total] at hroom hword
      have hfree : (free + room.size).toNat = free.toNat + room.size.toNat := by
        rw [UInt32.toNat_add]
        omega
      obtain ⟨written, hsize, hfill⟩ := exists_fill_bumping room memory (free + room.size) free
      have hallocates : (bumping memory free).Allocates (bumping memory (free + room.size)) memory
          memory taken room.size free := by
        refine ⟨callWord_bumping .., rfl, rfl, by omega, fun r hr => Or.inr (htaken r hr), ?_⟩
        exact ⟨Nat.le_refl _, fun _ _ _ _ => rfl⟩
      refine .room hallocates ?_
      rw [hfill]
      refine ih (List.forall_mem_cons.mpr ⟨?_, fun r hr => ?_⟩) ?_ ?_
      · exact Nat.le_of_eq hfree.symm
      · exact Nat.le_trans (htaken r hr) (by omega)
      · omega
      · omega

/-- A guest with all the memory that there can be has room enough, half of it at negative
addresses. -/
theorem provides_behind_image {image : ByteArray} (himage : image.size ≤ windowSize) :
    ((bumping (.ofPages 65536) 0x7ffffffe).after (.write baseAddress.toUInt32 image)).Provides
      [⟨baseAddress, image.size⟩] (Room.all "a" "b") := by
  have hstop : baseAddress + image.size ≤ maxAddress := Nat.add_le_add_left himage baseAddress
  have hfits : baseAddress + image.size ≤ (GuestMemory.ofPages 65536).size :=
    Nat.le_trans hstop (by decide)
  obtain ⟨written, hwrite, hreplaced⟩ := (Session.accessesExactly
    (memory_bumping _ 0x7ffffffe)).write_inside baseAddress.toUInt32 image hfits
  rw [Session.after_write hwrite]
  refine provides_bumping _ (List.forall_mem_singleton.mpr ?_) ?_ (by decide)
  · exact Nat.le_trans hstop (by decide)
  · rw [hreplaced.size_eq]
    decide

theorem callWord_tableCompiler (hguest : ready.guest = bumpingGuest)
    (hmemory : ready.memory = .ok memory) (hroom : l.toNat + 4 ≤ memory.size) :
    ∃ later written, ready.callWord compiler [s, f, l] = (.ok baseAddress.toUInt32, later) ∧
      later.memory = .ok written ∧
      memory.Replaced written l.toNat (word32Bytes stringsOffset.toUInt32) := by
  obtain ⟨written, hwrite⟩ : ∃ written,
      memory.write? l.toNat (word32Bytes stringsOffset.toUInt32) = some written := ⟨_, if_pos hroom⟩
  obtain ⟨hexports, hnow⟩ := Session.memory_eq_ok_iff.mp hmemory
  have hactivity : tableCompiler.invoke ready.now ([s, f, l].map .i32) =
      .done { ready.now with memory := some written } [.i32 baseAddress.toUInt32] := by
    simp [ExportedFunction.invoke, tableCompiler, Value.type, hnow, hwrite]
  have hcall : ready.callWord compiler [s, f, l] =
      (.ok baseAddress.toUInt32, ready.withMemory written) := by
    have hfunction : ready.guest.function? compiler = some tableCompiler := by
      rw [hguest]
      rfl
    simp only [Session.callWord, hfunction, Session.invoke, hactivity]
    rfl
  exact ⟨_, written, hcall, Session.memory_withMemory hmemory,
    GuestMemory.replaced_of_write? hwrite⟩

end Compiling

/-- A guest without room for the image is never asked to compile. With all the memory that there can
be, it hands out addresses of either sign, and its compiler finds the image. -/
theorem bumping_gets_inputs_intact : ∃ image, FrozenStore.empty.image = .ok image ∧
    smallSession.compile .empty "a" "b" =
      (.error (.session (.badWrite baseAddress (baseAddress + image.size))), smallSession) ∧
    ((Compiling.bumping (.ofPages 65536) 0x7ffffffe).compile .empty "a" "b").1 = .ok image := by
  obtain ⟨hfails, hconcludes, hhands⟩ := compiler_gets_inputs_intact
  obtain ⟨image, himage⟩ : ∃ image, FrozenStore.empty.image = .ok image :=
    FrozenStore.exists_image (by decide) (by decide) (by simp [FrozenStore.empty])
  refine ⟨image, himage, ?_, ?_⟩
  · have hsmall (image : ByteArray) : ({ size := 4 } : GuestMemory).size < baseAddress + image.size :=
      Nat.lt_add_right image.size (by decide)
    have hhands := hhands .empty "a" "b" smallSession { size := 4 } rfl (by decide) (by decide)
      (by decide) (by decide) fun image _ hfits => absurd hfits (Nat.not_le.mpr (hsmall image))
    exact (hfails _ _ _ _ _ _ (hhands.no_room image himage (hsmall image))).1
  · have hhands := hhands .empty "a" "b" (Compiling.bumping (.ofPages 65536) 0x7ffffffe) _ rfl
      (by decide) (by decide) (by decide) (by decide) fun _ himage _ =>
        Compiling.provides_behind_image (FrozenStore.size_image_le himage)
    have hsize : image.size = stringsOffset := by
      obtain ⟨hfits, rfl⟩ := FrozenStore.image_eq_ok_iff.mp himage
      rw [FrozenStore.size_layout hfits]
      rfl
    obtain ⟨s, f, l, ready, atCall, hprepare, hguest, hready, hhanded⟩ :=
      hhands.handed image himage (by rw [hsize]; decide)
    obtain ⟨later, written, hanswer, hlater, hreplaced⟩ :=
      Compiling.callWord_tableCompiler hguest hready hhanded.room
    -- The word for the length lies apart from the image, which is the last of the four regions.
    have hapart := (List.pairwise_cons.mp hhanded.apart.of_cons.of_cons).1
    have hholds : written.Holds baseAddress image :=
      hhanded.image_holds.of_spares (hreplaced.spares hapart) (List.mem_singleton_self _)
    refine ((hconcludes _ _ _ _ _ _ _ _ _ _ hprepare hanswer).made image).mpr ?_
    refine ⟨_, rfl, by decide, stringsOffset.toUInt32, written, hlater, hreplaced.holds, ?_, hholds⟩
    rw [hsize]
    decide

end WasmTrim
