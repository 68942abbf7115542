import WasmTrim.Memory.Overlay
import WasmTrim.Proofs.Memory.Bytes

/-!
# What shows through an overlay

Reading a window of an overlay and reading its bytes one by one agree, and a patch that is laid
hides exactly the addresses that it covers.
-/

namespace WasmTrim

section CopySlice

variable {source target : ByteArray} {i j n : Nat}

/-- Copying a range that exists puts it between two kept parts. -/
theorem copySlice_eq (hsource : i + n ≤ source.size) :
    source.copySlice i target j n =
      target.extract 0 j ++ source.extract i (i + n) ++ target.extract (j + n) target.size := by
  rw [ByteArray.copySlice_eq_append, ByteArray.size_data, ByteArray.size_data,
    Nat.min_eq_left (by omega)]

theorem size_copySlice (hsource : i + n ≤ source.size) (htarget : j + n ≤ target.size) :
    (source.copySlice i target j n).size = target.size := by
  rw [copySlice_eq hsource]
  simp only [ByteArray.size_append, ByteArray.size_extract]
  omega

theorem byteAt_copySlice (hsource : i + n ≤ source.size) (htarget : j + n ≤ target.size)
    (k : Nat) :
    byteAt (source.copySlice i target j n) k =
      if j ≤ k ∧ k < j + n then byteAt source (i + (k - j)) else byteAt target k := by
  have hfront : (target.extract 0 j).size = j := by
    rw [ByteArray.size_extract]
    omega
  have hmiddle : (source.extract i (i + n)).size = n := by
    rw [ByteArray.size_extract]
    omega
  rw [copySlice_eq hsource, byteAt_append, ByteArray.size_append, hfront, hmiddle]
  by_cases hk : k < j + n
  · rw [if_pos hk, byteAt_append, hfront]
    by_cases hj : k < j
    · rw [if_pos hj, if_neg (by omega), byteAt_extract, Nat.zero_add, if_pos hj]
    · rw [if_neg hj, if_pos (by omega), byteAt_extract, if_pos (by omega)]
  · rw [if_neg hk, if_neg (by omega), byteAt_extract]
    have hplace : j + n + (k - (j + n)) = k := by omega
    rw [hplace]
    split
    · rfl
    · exact (byteAt_of_le (by omega)).symm

end CopySlice

namespace Patch

theorem size_paint (p : Patch) (origin : Nat) (window : ByteArray) :
    (p.paint origin window).size = window.size := by
  have hstop : p.stop = p.start + p.bytes.size := rfl
  simp only [paint]
  split
  · exact size_copySlice (by omega) (by omega)
  · rfl

/-- Painting changes the indices of the window that the patch covers. -/
theorem byteAt_paint (p : Patch) (origin : Nat) {window : ByteArray} {i : Nat}
    (hi : i < window.size) :
    WasmTrim.byteAt (p.paint origin window) i =
      if p.start ≤ origin + i ∧ origin + i < p.start + p.bytes.size then
        WasmTrim.byteAt p.bytes (origin + i - p.start)
      else WasmTrim.byteAt window i := by
  have hstop : p.stop = p.start + p.bytes.size := rfl
  simp only [paint]
  split
  · rw [byteAt_copySlice (by omega) (by omega)]
    by_cases hcovered : p.start ≤ origin + i ∧ origin + i < p.start + p.bytes.size
    · rw [if_pos (by omega), if_pos hcovered]
      congr 1
      omega
    · rw [if_neg (by omega), if_neg hcovered]
  · rw [if_neg (by omega)]

end Patch

namespace Overlay

/-- A patch shows at the addresses that it covers, and what is below it shows elsewhere. -/
theorem byteAt_lay (overlay : Overlay) (start : Nat) (bytes : ByteArray) (a : Nat) :
    byteAt (overlay.lay start bytes) a =
      if start ≤ a ∧ a < start + bytes.size then WasmTrim.byteAt bytes (a - start)
      else byteAt overlay a := by
  by_cases hcovered : start ≤ a ∧ a < start + bytes.size
  · calc
      byteAt (overlay.lay start bytes) a = bytes.get (a - start) (by omega) := dif_pos hcovered
      _ = WasmTrim.byteAt bytes (a - start) := (byteAt_of_lt (by omega)).symm
      _ = _ := (if_pos hcovered).symm
  · exact (dif_neg hcovered).trans (if_neg hcovered).symm

theorem stop_le_lay {overlay : Overlay} {start bound : Nat} {bytes : ByteArray}
    (h : start + bytes.size ≤ bound) (hearlier : ∀ p ∈ overlay, p.stop ≤ bound) :
    ∀ p ∈ overlay.lay start bytes, p.stop ≤ bound :=
  List.forall_mem_cons.mpr ⟨h, hearlier⟩

/-- Beyond all patches there are zeros. -/
theorem byteAt_eq_zero {overlay : Overlay} {a : Nat} (h : ∀ p ∈ overlay, p.stop ≤ a) :
    byteAt overlay a = 0 := by
  induction overlay with
  | nil => rfl
  | cons p earlier ih =>
      have hp : p.start + p.bytes.size ≤ a := h p (List.mem_cons_self ..)
      calc
        byteAt (p :: earlier) a = byteAt earlier a :=
          (byteAt_lay earlier p.start p.bytes a).trans (if_neg (by omega))
        _ = 0 := ih fun q hq => h q (List.mem_cons_of_mem p hq)

@[simp] theorem size_window (overlay : Overlay) (origin size : Nat) :
    (overlay.window origin size).size = size := by
  induction overlay with
  | nil => exact size_zeros size
  | cons p earlier ih => exact (p.size_paint origin _).trans ih

/-- A window holds what shows at its addresses. -/
theorem byteAt_window (overlay : Overlay) (origin : Nat) {size i : Nat} (hi : i < size) :
    WasmTrim.byteAt (overlay.window origin size) i = overlay.byteAt (origin + i) := by
  induction overlay with
  | nil => exact byteAt_zeros size i
  | cons p earlier ih =>
      have hinside : i < (window earlier origin size).size := by rwa [size_window]
      have hpaint := p.byteAt_paint origin hinside
      have hlay := byteAt_lay earlier p.start p.bytes (origin + i)
      rw [ih] at hpaint
      exact hpaint.trans hlay.symm

/-- A window that a patch covers reads the patch, if nothing was laid over it. -/
theorem window_eq_of_byteAt {overlay : Overlay} {origin : Nat} {bytes : ByteArray}
    (h : ∀ i < bytes.size, overlay.byteAt (origin + i) = WasmTrim.byteAt bytes i) :
    overlay.window origin bytes.size = bytes := by
  apply ext_byteAt (size_window overlay origin bytes.size)
  intro i hi
  rw [size_window] at hi
  rw [byteAt_window overlay origin hi, h i hi]

/-- Windows that meet are one window. -/
theorem window_add (overlay : Overlay) (origin m n : Nat) :
    overlay.window origin (m + n) =
      overlay.window origin m ++ overlay.window (origin + m) n := by
  apply ext_byteAt
  · rw [ByteArray.size_append, size_window, size_window, size_window]
  · intro i hi
    rw [size_window] at hi
    rw [byteAt_window overlay origin hi, byteAt_append, size_window]
    split
    · next hfront => rw [byteAt_window overlay origin hfront]
    · next hback =>
      rw [byteAt_window overlay (origin + m) (by omega)]
      congr 1
      omega

/-- A window that shows some bytes first starts with them. -/
theorem exists_window_eq_append {overlay : Overlay} {origin size : Nat} {bytes : ByteArray}
    (h : ∀ i < bytes.size, overlay.byteAt (origin + i) = WasmTrim.byteAt bytes i)
    (hsize : bytes.size ≤ size) : ∃ back, overlay.window origin size = bytes ++ back := by
  obtain ⟨more, rfl⟩ := Nat.exists_eq_add_of_le hsize
  exact ⟨_, (window_add overlay origin bytes.size more).trans (by rw [window_eq_of_byteAt h])⟩

end Overlay

end WasmTrim
