/-
**The bytes of a word.**

* `or_byte`, `or_bytes` — bytes that are shifted apart do not meet.
* `join16`, `join32` — the bytes of a word make up the word.
* `toNat_bytes16`, `toNat_bytes32` — the word that bytes make up.
* `littleEndian16`, `littleEndian32` — reading the bytes of a word, the low one first.
-/

import Mathlib

namespace Robocon.Lib

theorem or_byte {high low : ℕ} (byte : low < 256) : high * 256 ||| low = high * 256 + low := by
  have joined := Nat.shiftLeft_add_eq_or_of_lt (show low < 2 ^ 8 from byte) high
  rw [Nat.shiftLeft_eq] at joined
  exact joined.symm

theorem or_bytes {a b c d : ℕ} (second : b < 256) (third : c < 256) (fourth : d < 256) :
    a * 16777216 ||| b * 65536 ||| c * 256 ||| d = ((a * 256 + b) * 256 + c) * 256 + d := by
  have shifted : ∀ x y, x * 256 ||| y * 256 = (x ||| y) * 256 := fun x y => by
    simpa only [Nat.shiftLeft_eq] using (Nat.shiftLeft_or_distrib (i := 8) (a := x) (b := y)).symm
  have three : a * 16777216 ||| b * 65536 = (a * 65536 ||| b * 256) * 256 := by
    rw [← shifted, Nat.mul_assoc, Nat.mul_assoc]
  have two : a * 65536 ||| b * 256 = (a * 256 ||| b) * 256 := by
    rw [← shifted, Nat.mul_assoc]
  rw [three, shifted, or_byte fourth, two, or_byte second, or_byte third]

/-- **The two bytes of a word.** -/
theorem join16 (word : UInt16) :
    (word >>> 8).toUInt8.toUInt16 <<< 8 ||| word.toUInt8.toUInt16 = word := by
  have bound := word.toNat_lt
  have top : word.toNat / 256 % 256 * 256 < 65536 := by omega
  have byte : word.toNat % 256 < 256 := Nat.mod_lt _ (by decide)
  apply UInt16.toNat_inj.mp
  simp only [UInt16.toNat_or, UInt16.toNat_shiftLeft, UInt16.toNat_shiftRight,
    UInt16.toNat_toUInt8, UInt8.toNat_toUInt16, Nat.shiftLeft_eq, Nat.shiftRight_eq_div_pow,
    UInt16.reduceToNat, Nat.reduceMod, Nat.reducePow, Nat.mod_eq_of_lt top]
  rw [or_byte byte]
  omega

/-- **The four bytes of a long word.** -/
theorem join32 (word : UInt32) :
    (word >>> 24).toUInt8.toUInt32 <<< 24 ||| (word >>> 16).toUInt8.toUInt32 <<< 16 |||
      (word >>> 8).toUInt8.toUInt32 <<< 8 ||| word.toUInt8.toUInt32 = word := by
  have bound := word.toNat_lt
  have byte : ∀ n : ℕ, n % 256 < 256 := fun n => Nat.mod_lt n (by decide)
  have room : ∀ n k : ℕ, k ≤ 16777216 → n % 256 * k < 4294967296 := fun n k few =>
    calc n % 256 * k ≤ 255 * 16777216 := Nat.mul_le_mul (Nat.le_of_lt_succ (byte n)) few
      _ < 4294967296 := by norm_num
  apply UInt32.toNat_inj.mp
  simp only [UInt32.toNat_or, UInt32.toNat_shiftLeft, UInt32.toNat_shiftRight,
    UInt32.toNat_toUInt8, UInt8.toNat_toUInt32, Nat.shiftLeft_eq, Nat.shiftRight_eq_div_pow,
    UInt32.reduceToNat, Nat.reduceMod, Nat.reducePow]
  rw [Nat.mod_eq_of_lt (room _ _ le_rfl), Nat.mod_eq_of_lt (room _ _ (by norm_num)),
    Nat.mod_eq_of_lt (room _ _ (by norm_num))]
  rw [or_bytes (byte _) (byte _) (byte _)]
  omega

theorem toNat_bytes16 (low high : UInt8) :
    (low.toUInt16 ||| high.toUInt16 <<< 8).toNat = high.toNat * 256 + low.toNat := by
  have top : high.toNat * 256 < 65536 := by
    have bound := high.toNat_lt
    omega
  simp only [UInt16.toNat_or, UInt16.toNat_shiftLeft, UInt8.toNat_toUInt16, Nat.shiftLeft_eq,
    UInt16.reduceToNat, Nat.reduceMod, Nat.reducePow, Nat.mod_eq_of_lt top]
  rw [Nat.lor_comm, or_byte low.toNat_lt]

/-- The long word of four bytes, the low one first. -/
theorem toNat_bytes32 (a b c d : UInt8) :
    (a.toUInt32 ||| b.toUInt32 <<< 8 ||| c.toUInt32 <<< 16 ||| d.toUInt32 <<< 24).toNat =
      ((d.toNat * 256 + c.toNat) * 256 + b.toNat) * 256 + a.toNat := by
  have room : ∀ (byte : UInt8) (k : ℕ), k ≤ 16777216 → byte.toNat * k < 4294967296 :=
    fun byte k few =>
      calc byte.toNat * k ≤ 255 * 16777216 := Nat.mul_le_mul (Nat.le_of_lt_succ byte.toNat_lt) few
        _ < 4294967296 := by norm_num
  simp only [UInt32.toNat_or, UInt32.toNat_shiftLeft, UInt8.toNat_toUInt32, Nat.shiftLeft_eq,
    UInt32.reduceToNat, Nat.reduceMod, Nat.reducePow]
  rw [Nat.mod_eq_of_lt (room _ _ le_rfl), Nat.mod_eq_of_lt (room _ _ (by norm_num)),
    Nat.mod_eq_of_lt (room _ _ (by norm_num))]
  rw [← or_bytes c.toNat_lt b.toNat_lt a.toNat_lt, Nat.lor_comm _ (d.toNat * 16777216),
    Nat.lor_comm _ (c.toNat * 65536), Nat.lor_comm a.toNat, Nat.lor_assoc, Nat.lor_assoc]

/-- The number of some bytes, the low one first. -/
def littleEndian (bytes : List UInt8) : ℕ := bytes.foldr (fun byte n => byte.toNat + 256 * n) 0

theorem littleEndian16 (word : UInt16) :
    littleEndian [word.toUInt8, (word >>> 8).toUInt8] = word.toNat := by
  have whole := toNat_bytes16 word.toUInt8 (word >>> 8).toUInt8
  rw [UInt16.or_comm, join16] at whole
  rw [whole]
  simp only [littleEndian, List.foldr_cons, List.foldr_nil]
  omega

theorem littleEndian32 (word : UInt32) :
    littleEndian [word.toUInt8, (word >>> 8).toUInt8, (word >>> 16).toUInt8,
      (word >>> 24).toUInt8] = word.toNat := by
  have bound := word.toNat_lt
  simp only [littleEndian, List.foldr_cons, List.foldr_nil, UInt32.toNat_toUInt8,
    UInt32.toNat_shiftRight, Nat.shiftRight_eq_div_pow, UInt32.reduceToNat, Nat.reduceMod,
    Nat.reducePow]
  omega

end Robocon.Lib
