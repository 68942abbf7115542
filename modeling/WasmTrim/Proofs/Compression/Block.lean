import WasmTrim.Compression.Block
import WasmTrim.Proofs.Memory.Bytes

/-!
# Blocks behind other bytes

A block that expands by itself expands in the same way behind any bytes, because its matches never
reach behind its own start.
-/

namespace WasmTrim.Lz4

theorem append_push (front out : ByteArray) (b : UInt8) :
    (front ++ out).push b = front ++ out.push b := by
  apply ByteArray.ext
  simp only [ByteArray.data_append, ByteArray.data_push, Array.push_append]

/-- A match that stays within the bytes behind `front` copies the same bytes. -/
theorem copyMatch_append (front : ByteArray) {out : ByteArray} {distance : Nat}
    (h : distance ≤ out.size) (n : Nat) :
    copyMatch (front ++ out) distance n = front ++ copyMatch out distance n := by
  induction n generalizing out with
  | zero => rfl
  | succ n ih =>
      have hplace : (front ++ out).size - distance = front.size + (out.size - distance) := by
        rw [ByteArray.size_append]
        omega
      rw [copyMatch, copyMatch, hplace, byteAt_append_right, append_push]
      apply ih
      rw [ByteArray.size_push]
      omega

/-- Expanding a block behind more bytes gives the same bytes behind them. -/
theorem expand?_append (front : ByteArray) {input out result : ByteArray} {stop place : Nat}
    (h : expand? input stop place out = some result) :
    expand? input stop place (front ++ out) = some (front ++ result) := by
  fun_induction expand? input stop place out with
  | case1 => cases h
  | case2 place out hplace token literals first _ hliterals last joined hlast =>
      have hbits : length? input stop (place + 1) (byteAt input place >>> 4) = _ := hliterals
      have hjoined : front ++ out ++ input.extract first last = front ++ result := by
        rw [ByteArray.append_assoc, ← Option.some.inj h]
      rw [expand?, if_pos hplace]
      simp only [hbits]
      rw [if_pos hlast, ← hjoined]
  | case3 => cases h
  | case4 => cases h
  | case5 => cases h
  | case6 place out hplace token literals first _ hliterals last joined hlast hroom distance
      length next _ hlength hdistance ih =>
      have hbits : length? input stop (place + 1) (byteAt input place >>> 4) = _ := hliterals
      have hmatch : length? input stop (first + literals + 2) (byteAt input place &&& 15) = _ :=
        hlength
      have hjoined : front ++ out ++ input.extract first last = front ++ joined :=
        ByteArray.append_assoc
      have hfront : ¬(distance = 0 ∨ (front ++ joined).size < distance) := by
        rw [ByteArray.size_append]
        omega
      rw [← ih h, ← copyMatch_append front (by omega), expand?, if_pos hplace]
      simp only [hbits]
      rw [if_neg hlast, if_neg hroom]
      simp only [hmatch]
      rw [hjoined]
      exact if_neg hfront
  | case7 => cases h

/-- Decoding a block by itself and behind any bytes agree. -/
theorem decodeBlock?_behind {block raw : ByteArray} (h : decodeBlock? block .empty = some raw)
    (front : ByteArray) : decodeBlock? block front = some (front ++ raw) := by
  have hbehind := expand?_append front h
  rwa [ByteArray.append_empty] at hbehind

/-- Nothing expands an empty block. -/
theorem size_pos_of_decodeBlock? {block out raw : ByteArray}
    (h : decodeBlock? block out = some raw) : 0 < block.size := by
  apply Nat.pos_of_ne_zero
  intro hempty
  rw [decodeBlock?, hempty, expand?, if_neg (Nat.lt_irrefl 0)] at h
  cases h

end WasmTrim.Lz4
