import SeriesIngest.Codec.Qualifier

/-!
# Offsets written into column names

An offset in range comes back out of the column name it is packed into. A second offset below
3840, shifted up by four bits above the flags, reads back as the same number of seconds; a
millisecond offset below `2 ^ 22`, shifted up by six bits under the marker nibble, reads back
as the same number of milliseconds. An offset in range is also left alone by the 64-bit
arithmetic it is computed in, so `buildQualifier` succeeds on it.

Main statements: `buildQualifier_of_seconds` and `buildQualifier_of_millis`.
-/

namespace SeriesIngest

/-- A value of the signed 64-bit range is its own 64-bit result. -/
theorem wrap64_of_mem {n : Int} (lo : Number.int64Min ≤ n) (hi : n ≤ Number.int64Max) :
    Number.wrap64 n = n := by
  simp only [Number.wrap64, Number.int64Min, Number.int64Max] at *
  have h1 : (0 : Int) ≤ n + Int.pow 2 63 := by simp [Int.pow] at *; omega
  have h2 : n + Int.pow 2 63 < Int.pow 2 64 := by simp [Int.pow] at *; omega
  rw [Int.emod_eq_of_lt h1 h2]
  omega

/-- An offset that a column name can hold is its own 64-bit result. -/
theorem wrap64_of_offset {n : Int} (lo : 0 ≤ n) (hi : n ≤ 0x3FFFFF) : Number.wrap64 n = n :=
  wrap64_of_mem (by simp [Number.int64Min, Int.pow]; omega)
    (by simp [Number.int64Max, Int.pow]; omega)

/-- A second offset below 3840 comes back from its two-byte word, whatever the flags. -/
theorem seconds_word_offset (d : Nat) (hd : d < 3840) (f : UInt16) :
    (((d.toUInt16 <<< 4) ||| (f &&& flagsMask)) >>> 4).toNat = d := by
  have hf : (f &&& flagsMask).toNat < 2 ^ 4 := by
    simp only [UInt16.toNat_and, flagsMask]
    exact Nat.lt_of_le_of_lt Nat.and_le_right (by decide)
  simp only [UInt16.toNat_shiftRight, UInt16.toNat_or, UInt16.toNat_shiftLeft]
  have hd16 : d.toUInt16.toNat = d := by simp [Nat.toUInt16_eq]; omega
  have h4 : (4 : UInt16).toNat % 16 = 4 := by decide
  rw [hd16, h4, Nat.shiftLeft_eq, Nat.mod_eq_of_lt (by omega), ← Nat.shiftLeft_eq,
    ← Nat.shiftLeft_add_eq_or_of_lt hf, Nat.shiftRight_eq_div_pow, Nat.shiftLeft_eq]
  omega

/-- A millisecond offset up to `0x3FFFFF` comes back from its four-byte word, whatever the
flags. -/
theorem millis_word_offset (d : Nat) (hd : d ≤ 0x3FFFFF) (f : UInt16) :
    ((((0xF0000000 : UInt32) ||| (d.toUInt32 <<< 6) ||| (f &&& flagsMask).toUInt32) >>> 6)
      &&& 0x3FFFFF).toNat = d := by
  have hd : d < 2 ^ 22 := Nat.lt_of_le_of_lt hd (by decide)
  have hf : (f &&& flagsMask).toUInt32.toNat < 2 ^ 6 := by
    simp only [UInt16.toNat_toUInt32, UInt16.toNat_and, flagsMask]
    exact Nat.lt_of_le_of_lt Nat.and_le_right (by decide)
  simp only [UInt32.toNat_and, UInt32.toNat_shiftRight, UInt32.toNat_or, UInt32.toNat_shiftLeft]
  have hd32 : d.toUInt32.toNat = d := by simp [Nat.toUInt32_eq]; omega
  have h6 : (6 : UInt32).toNat % 32 = 6 := by decide
  have hm : (0x3FFFFF : UInt32).toNat = 2 ^ 22 - 1 := by decide
  have hF : (0xF0000000 : UInt32).toNat = (15 <<< 22) <<< 6 := by decide
  rw [hd32, h6, hm, hF, Nat.shiftLeft_eq d, Nat.mod_eq_of_lt (by omega), ← Nat.shiftLeft_eq d,
    ← Nat.shiftLeft_or_distrib, ← Nat.shiftLeft_add_eq_or_of_lt hd 15,
    ← Nat.shiftLeft_add_eq_or_of_lt hf, Nat.and_two_pow_sub_one_eq_mod,
    Nat.shiftRight_eq_div_pow, Nat.shiftLeft_eq, Nat.shiftLeft_eq]
  omega

/-- A timestamp in seconds at most 3839 seconds past the base time has a two-byte column name
holding exactly that offset. -/
theorem buildQualifier_of_seconds {ts : Int} {base : UInt32} (f : UInt16)
    (hs : Time.isMillis ts = false) (h0 : 0 ≤ ts - base.toNat)
    (h1 : ts - base.toNat ≤ maxSecondDelta) :
    ∃ q, buildQualifier ts base f = .ok q ∧ q.isMillis = false ∧
      (q.deltaSeconds : Int) = ts - base.toNat ∧
      (q.offsetMs : Int) = 1000 * (ts - base.toNat) := by
  unfold maxSecondDelta at h1
  have hw := wrap64_of_offset h0 (by omega)
  have hd := seconds_word_offset (ts - base.toNat).toNat (by omega) f
  refine ⟨.seconds (((ts - base.toNat).toNat.toUInt16 <<< 4) ||| (f &&& flagsMask)), ?_, rfl,
    ?_, ?_⟩
  · simp [buildQualifier, hs, encodeSecondsQualifier, hw, checkDelta, maxSecondDelta,
      Functor.map, Except.map, show ¬(ts - base.toNat < 0) by omega,
      show ¬(ts - base.toNat > 3839) by omega]
  · simp only [Qualifier.deltaSeconds, hd]
    omega
  · simp only [Qualifier.offsetMs, hd]
    omega

/-- A timestamp in milliseconds at most `0x3FFFFF` milliseconds past the base time has a
four-byte column name holding exactly that offset. -/
theorem buildQualifier_of_millis {ts : Int} {base : UInt32} (f : UInt16)
    (hs : Time.isMillis ts = true) (h0 : 0 ≤ ts - base.toNat * 1000)
    (h1 : ts - base.toNat * 1000 ≤ maxMillisDelta) :
    ∃ q, buildQualifier ts base f = .ok q ∧ q.isMillis = true ∧
      (q.offsetMs : Int) = ts - base.toNat * 1000 ∧ q.deltaSeconds = q.offsetMs / 1000 := by
  unfold maxMillisDelta at h1
  have hw := wrap64_of_offset h0 h1
  have hd := millis_word_offset (ts - base.toNat * 1000).toNat (by omega) f
  refine ⟨.millis ((0xF0000000 : UInt32) ||| ((ts - base.toNat * 1000).toNat.toUInt32 <<< 6) |||
    (f &&& flagsMask).toUInt32), ?_, rfl, ?_, rfl⟩
  · simp [buildQualifier, hs, encodeMillisQualifier, hw, checkDelta, maxMillisDelta,
      Functor.map, Except.map, show ¬(ts - base.toNat * 1000 < 0) by omega,
      show ¬(ts - base.toNat * 1000 > 0x3FFFFF) by omega]
  · simp only [Qualifier.offsetMs, hd]
    omega

end SeriesIngest
