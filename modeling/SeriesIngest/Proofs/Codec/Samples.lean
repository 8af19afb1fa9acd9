import Mathlib.Tactic.IntervalCases
import SeriesIngest.Proofs.Row.Rebase
import SeriesIngest.Proofs.Codec.QualifierOffset
import SeriesIngest.Proofs.Time.BaseTime
import SeriesIngest.Write.Buffer

/-!
# What a buffered sample reads back

A sample is buffered as its column name and its raw value. The raw value of an integer is the
integer read back from its two's-complement bytes, which is the integer itself in the signed
64-bit range (`EncodedValue.raw_encodeLong`); the raw value of a float is its bit pattern. The
column name keeps the value's flags, so it tells an integer from a float
(`Qualifier.isInteger_of_encodeValue`), and for a checked timestamp it gives the timestamp back
from the base time in the timestamp's own resolution (`Qualifier.time_of_buildQualifier`).

The accessors of a buffer read a sample through these facts, and fail with the index and the
size past the last sample.
-/

namespace SeriesIngest

/-- The `w` bytes of an integer read back as the integer wrapped to `8 * w` bits. -/
theorem toIntBE_ofIntBE (w : Nat) (hw : 0 < w) (v : Int) :
    Bytes.toIntBE (Bytes.ofIntBE w v) = (v + 2 ^ (8 * w - 1)) % 2 ^ (8 * w) - 2 ^ (8 * w - 1) := by
  obtain ⟨k, rfl⟩ : ∃ k, w = k + 1 := ⟨w - 1, by omega⟩
  -- `h` is half the range of the width, the first value that wraps
  generalize hh : (2 : Int) ^ (8 * (k + 1) - 1) = h
  have hM : (2 : Int) ^ (8 * (k + 1)) = 2 * h := by
    rw [← hh, ← pow_succ']
    congr 1
  have hpos : 0 < h := hh ▸ Int.pow_pos (by decide)
  have hInt : Int.pow 2 (8 * (k + 1)) = 2 * h := hM
  have h0 := Int.emod_nonneg v (show 2 * h ≠ 0 by omega)
  have h1 := Int.emod_lt_of_pos v (show 0 < 2 * h by omega)
  have hnat : ((256 ^ (k + 1) : Nat) : Int) = 2 * h := by
    rw [← hM]
    push_cast
    rw [show (256 : Int) = 2 ^ 8 by rfl, ← pow_mul]
  have hhalf : ((Nat.pow 2 (8 * (k + 1) - 1) : Nat) : Int) = h := by
    rw [← hh]
    rfl
  have hn : (((v % (2 * h)).toNat % 256 ^ (k + 1) : Nat) : Int) = v % (2 * h) := by
    rw [Int.natCast_mod, Int.toNat_of_nonneg h0, hnat, Int.emod_eq_of_lt h0 h1]
  simp only [Bytes.toIntBE, Bytes.ofIntBE, Bytes.toNatBE_ofNatBE, Bytes.length_ofNatBE, hInt, hM]
  rw [← Int.emod_add_emod v (2 * h) h]
  generalize (v % (2 * h)).toNat % 256 ^ (k + 1) = n at hn ⊢
  rw [← hn] at h0 h1 ⊢
  split_ifs with hc
  · have hwrap : ((n : Int) + h) % (2 * h) = n - h := by
      rw [show (n : Int) + h = (n - h) + 2 * h * 1 by ring, Int.add_mul_emod_self_left,
        Int.emod_eq_of_lt (by omega) (by omega)]
    omega
  · have hkeep : ((n : Int) + h) % (2 * h) = n + h := Int.emod_eq_of_lt (by omega) (by omega)
    omega

/-- An integer that fits in `w` bytes reads back from them as itself. -/
theorem toIntBE_ofIntBE_of_fits (w : Nat) (hw : 0 < w) {v : Int} (lo : -2 ^ (8 * w - 1) ≤ v)
    (hi : v < 2 ^ (8 * w - 1)) : Bytes.toIntBE (Bytes.ofIntBE w v) = v := by
  have hM : (2 : Int) ^ (8 * w) = 2 * 2 ^ (8 * w - 1) := by
    rw [← pow_succ']
    congr 1
    omega
  rw [toIntBE_ofIntBE w hw, hM, Int.emod_eq_of_lt (by omega) (by omega)]
  omega

/-- A value between `-2 ^ 63` and `2 ^ 63` is its own 64-bit result. -/
theorem wrap64_of_fits {v c : Int} (hc : c ≤ 2 ^ 63) (lo : -c ≤ v) (hi : v < c) :
    Number.wrap64 v = v :=
  wrap64_of_mem (show -(2 ^ 63 : Int) ≤ v by omega) (show v ≤ 2 ^ 63 - 1 by omega)

namespace EncodedValue

/-- The flags of an integer stored in 1, 2, 4 or 8 bytes mark an integer. -/
theorem flagsInteger_of_width {w : Nat} (hw : w = 1 ∨ w = 2 ∨ w = 4 ∨ w = 8) :
    flagsInteger (w - 1).toUInt16 = true := by
  rcases hw with rfl | rfl | rfl | rfl <;> decide

/-- The raw value of an integer stored in 1, 2, 4 or 8 bytes is read back from all its bytes. -/
theorem raw_ofIntBE {w : Nat} (hw : w = 1 ∨ w = 2 ∨ w = 4 ∨ w = 8) (v : Int) :
    (⟨Bytes.ofIntBE w v, (w - 1).toUInt16⟩ : EncodedValue).raw = Bytes.toIntBE (Bytes.ofIntBE w v) := by
  have hlen : (Bytes.ofIntBE w v).length = w := Bytes.length_ofNatBE _ _
  simp only [raw, isInteger, flagsInteger_of_width hw, if_true, hlen]
  split_ifs with hmem
  · rfl
  · rw [List.take_of_length_le (by rw [hlen]; simp at hmem; omega)]

/-- The raw value of a stored integer is the integer as 64-bit arithmetic holds it: the integer
itself in the signed 64-bit range. -/
theorem raw_encodeLong (v : Int) : (encodeLong v).raw = Number.wrap64 v := by
  unfold encodeLong integerWidth
  split_ifs with h1 h2 h4
  · rw [raw_ofIntBE (.inl rfl), toIntBE_ofIntBE_of_fits 1 (by decide) h1.1 h1.2,
      wrap64_of_fits (by decide) h1.1 h1.2]
  · rw [raw_ofIntBE (.inr (.inl rfl)), toIntBE_ofIntBE_of_fits 2 (by decide) h2.1 h2.2,
      wrap64_of_fits (by decide) h2.1 h2.2]
  · rw [raw_ofIntBE (.inr (.inr (.inl rfl))), toIntBE_ofIntBE_of_fits 4 (by decide) h4.1 h4.2,
      wrap64_of_fits (by decide) h4.1 h4.2]
  · -- eight bytes wrap exactly as 64-bit arithmetic does
    rw [raw_ofIntBE (.inr (.inr (.inr rfl))), toIntBE_ofIntBE 8 (by decide)]
    rfl

/-- The raw value of a stored float is its bit pattern, and the stored value is not an
integer. -/
theorem raw_of_encodeFloat {x : Float.Binary32} {ev : EncodedValue} (h : encodeFloat x = .ok ev) :
    ev.isInteger = false ∧ ev.raw = x.bits.toNat := by
  unfold encodeFloat at h
  split at h
  · cases h
  · cases h
    have hint : flagsInteger (floatFlag ||| 0x3) = false := by decide
    refine ⟨hint, ?_⟩
    simp only [raw, isInteger, hint, Bool.false_eq_true, if_false]
    rw [List.take_of_length_le (by simp), Bytes.toNatBE_ofNatBE,
      Nat.mod_eq_of_lt (by simpa using x.bits.toNat_lt)]

end EncodedValue

namespace Qualifier

variable {ts : Int} {base : UInt32} {f : UInt16}

/-- A two-byte column name holds the value flags below its offset. -/
theorem flags_seconds (d f : UInt16) :
    (Qualifier.seconds ((d <<< 4) ||| (f &&& flagsMask))).flags = f &&& flagsMask := by
  apply UInt16.toBitVec_inj.1
  ext i hi
  simp [flags, flagsMask, BitVec.getElem_shiftLeft]
  interval_cases i <;> simp

/-- A four-byte column name holds the value flags below its offset. -/
theorem flags_millis (d : UInt32) (f : UInt16) :
    (Qualifier.millis ((0xF0000000 : UInt32) ||| (d <<< 6) ||| (f &&& flagsMask).toUInt32)).flags =
      f &&& flagsMask := by
  apply UInt16.toBitVec_inj.1
  ext i hi
  simp [flags, flagsMask, BitVec.getElem_shiftLeft]
  interval_cases i <;> simp

/-- A column name keeps the value flags it is built with. -/
theorem flags_of_buildQualifier {q : Qualifier} (h : buildQualifier ts base f = .ok q) :
    q.flags = f &&& flagsMask := by
  unfold buildQualifier encodeMillisQualifier encodeSecondsQualifier checkDelta at h
  split at h
  · generalize Number.wrap64 (ts - base.toNat * 1000) = d at h
    by_cases hd : d < 0 ∨ d > maxMillisDelta
    · simp [hd, Except.map] at h
    · simp only [hd, if_false, Except.map] at h
      cases h
      exact flags_millis _ f
  · generalize Number.wrap64 (ts - base.toNat) = d at h
    by_cases hd : d < 0 ∨ d > maxSecondDelta
    · simp [hd, Except.map] at h
    · simp only [hd, if_false, Except.map] at h
      cases h
      exact flags_seconds _ f

/-- Masking the flags keeps the mark of an integer. -/
theorem flagsInteger_mask (f : UInt16) : flagsInteger (f &&& flagsMask) = flagsInteger f := by
  simp only [flagsInteger, flagsMask, floatFlag, UInt16.and_assoc]
  rfl

/-- The column name of a stored value tells whether the value is an integer. -/
theorem isInteger_of_encodeValue {value : DataValue} {ev : EncodedValue} {q : Qualifier}
    (hev : encodeValue value = .ok ev) (hq : buildQualifier ts base ev.flags = .ok q) :
    q.isInteger = value.isInteger := by
  rw [isInteger, flags_of_buildQualifier hq, flagsInteger_mask]
  cases value with
  | integer v =>
    cases hev
    unfold encodeLong integerWidth
    split_ifs
    · exact EncodedValue.flagsInteger_of_width (.inl rfl)
    · exact EncodedValue.flagsInteger_of_width (.inr (.inl rfl))
    · exact EncodedValue.flagsInteger_of_width (.inr (.inr (.inl rfl)))
    · exact EncodedValue.flagsInteger_of_width (.inr (.inr (.inr rfl)))
  | float x => exact (EncodedValue.raw_of_encodeFloat hev).1

/-- Against any base time, the column name of a checked timestamp gives the timestamp back, in
its own resolution: the base time plus the offset in seconds, or the base time in milliseconds
plus the offset in milliseconds. -/
theorem time_of_buildQualifier (hts : Db.checkTimestamp ts = .ok ()) {q : Qualifier}
    (h : buildQualifier ts base f = .ok q) :
    q.isMillis = Time.isMillis ts ∧ (q.isMillis = false → (base.toNat : Int) + q.deltaSeconds = ts) ∧
      (q.isMillis = true → (base.toNat : Int) * 1000 + q.offsetMs = ts) := by
  obtain ⟨ht0, ht1⟩ := (checkTimestamp_eq_ok_iff ts).1 hts
  have hb := base.toNat_lt
  cases hms : Time.isMillis ts
  · have hw : Number.wrap64 (ts - base.toNat) = ts - base.toNat :=
      wrap64_of_fits (c := 2 ^ 62) (by decide) (by omega) (by omega)
    have hin : 0 ≤ ts - base.toNat ∧ ts - base.toNat ≤ maxSecondDelta := by
      by_contra hout
      have hbad : ts < base.toNat ∨ maxSecondDelta < ts - base.toNat := by omega
      simp [buildQualifier, hms, encodeSecondsQualifier, hw, checkDelta, hbad, Except.map,
        Functor.map] at h
    obtain ⟨q', hq', hm, hd, -⟩ := buildQualifier_of_seconds f hms hin.1 hin.2
    rw [h, Except.ok.injEq] at hq'
    subst hq'
    exact ⟨hm, fun _ => by omega, fun hc => absurd hc (by rw [hm]; decide)⟩
  · have hw : Number.wrap64 (ts - base.toNat * 1000) = ts - base.toNat * 1000 :=
      wrap64_of_fits (c := 2 ^ 62) (by decide) (by omega) (by omega)
    have hin : 0 ≤ ts - base.toNat * 1000 ∧ ts - base.toNat * 1000 ≤ maxMillisDelta := by
      by_contra hout
      have hbad : ts < base.toNat * 1000 ∨ maxMillisDelta < ts - base.toNat * 1000 := by omega
      simp [buildQualifier, hms, encodeMillisQualifier, hw, checkDelta, hbad, Except.map,
        Functor.map] at h
    obtain ⟨q', hq', hm, ho, -⟩ := buildQualifier_of_millis f hms hin.1 hin.2
    rw [h, Except.ok.injEq] at hq'
    subst hq'
    exact ⟨hm, fun hc => absurd hc (by rw [hm]; decide), fun _ => by omega⟩

end Qualifier

namespace SampleBuffer

variable {b : SampleBuffer} {i : Nat}

theorem get_of_lt (h : i < b.samples.length) : b.get i = .ok b.samples[i] := by
  simp [get, h]

theorem get_of_le (h : b.size ≤ i) : b.get i = .error (.indexOutOfRange i b.size) := by
  simp [get, List.getElem?_eq_none (show b.samples.length ≤ i from h)]

/-- Past the last sample, every accessor fails with the index and the size. -/
theorem accessors_of_le (h : b.size ≤ i) (base : UInt32) :
    b.timestamp i base = .error (.indexOutOfRange i b.size) ∧
      b.isInteger i = .error (.indexOutOfRange i b.size) ∧
      b.longValue i = .error (.indexOutOfRange i b.size) ∧
      b.doubleValue i = .error (.indexOutOfRange i b.size) := by
  have hget := get_of_le h
  refine ⟨?_, ?_, ?_, ?_⟩ <;> simp [timestamp, isInteger, longValue, doubleValue, hget, bind,
    Except.bind]

/-- A sample buffered at the column name of a checked timestamp reads back that timestamp. -/
theorem timestamp_of_get {ts : Int} {base : UInt32} {f : UInt16} {q : Qualifier} {v : Int}
    (hget : b.get i = .ok (q, v)) (hts : Db.checkTimestamp ts = .ok ())
    (hq : buildQualifier ts base f = .ok q) : b.timestamp i base = .ok ts := by
  obtain ⟨-, hsec, hms⟩ := Qualifier.time_of_buildQualifier hts hq
  simp only [timestamp, hget, bind, Except.bind]
  cases q with
  | seconds w => exact congrArg Except.ok (hsec rfl)
  | millis w => exact congrArg Except.ok (hms rfl)

/-- A sample buffered with a stored value tells whether the value is an integer. -/
theorem isInteger_of_get {ts : Int} {base : UInt32} {q : Qualifier} {v : Int} {value : DataValue}
    {ev : EncodedValue} (hget : b.get i = .ok (q, v)) (hev : encodeValue value = .ok ev)
    (hq : buildQualifier ts base ev.flags = .ok q) : b.isInteger i = .ok value.isInteger := by
  simp [isInteger, hget, Qualifier.isInteger_of_encodeValue hev hq, bind, Except.bind, pure,
    Except.pure]

/-- A sample buffered with a stored integer reads back the integer as 64-bit arithmetic holds it,
and refuses to be read as a float. -/
theorem integer_of_get {ts : Int} {base : UInt32} {q : Qualifier} {n : Int}
    (hget : b.get i = .ok (q, (encodeLong n).raw))
    (hq : buildQualifier ts base (encodeLong n).flags = .ok q) :
    b.longValue i = .ok (Number.wrap64 n) ∧ b.doubleValue i = .error (.typeMismatch i .float) := by
  have hint : q.isInteger = true := Qualifier.isInteger_of_encodeValue
    (show encodeValue (.integer n) = .ok (encodeLong n) from rfl) hq
  simp [longValue, doubleValue, hget, hint, EncodedValue.raw_encodeLong, bind, Except.bind, pure,
    Except.pure, throw, throwThe, MonadExceptOf.throw]

/-- A sample buffered with a stored float reads back the float widened to a double, and refuses
to be read as an integer. -/
theorem float_of_get {ts : Int} {base : UInt32} {q : Qualifier} {x : Float.Binary32}
    {ev : EncodedValue} (hev : encodeFloat x = .ok ev) (hget : b.get i = .ok (q, ev.raw))
    (hq : buildQualifier ts base ev.flags = .ok q) :
    b.doubleValue i = .ok x.widen ∧ b.longValue i = .error (.typeMismatch i .long) := by
  obtain ⟨-, hraw⟩ := EncodedValue.raw_of_encodeFloat hev
  have hfloat : q.isInteger = false := Qualifier.isInteger_of_encodeValue
    (show encodeValue (.float x) = .ok ev from hev) hq
  have hbits : ((x.bits.toNat : Int) % Int.pow 2 32).toNat.toUInt32 = x.bits := by
    have hlt : (x.bits.toNat : Int) < Int.pow 2 32 := by
      have := x.bits.toNat_lt
      show (x.bits.toNat : Int) < 4294967296
      omega
    rw [Int.emod_eq_of_lt (by omega) hlt, Int.toNat_natCast]
    exact UInt32.ofNat_toNat
  refine ⟨?_, ?_⟩
  · simp only [doubleValue, hget, bind, Except.bind, hfloat, Bool.false_eq_true, if_false, hraw,
      hbits, pure, Except.pure]
  · simp only [longValue, hget, bind, Except.bind, hfloat, Bool.false_eq_true, if_false, throw,
      throwThe, MonadExceptOf.throw]

end SampleBuffer

end SeriesIngest
