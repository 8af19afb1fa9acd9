import SeriesIngest.Proofs.Codec.AppendFraming

/-!
# The column-name codec is exact

A column name is built from a timestamp, a base time and value flags. The offset of the timestamp
from the base time is taken in the timestamp's own resolution (`Qualifier.offsetOf`), in 64-bit
arithmetic, and checked against the greatest offset a name of that resolution holds. For a
timestamp of the signed 64-bit range that arithmetic never wraps an offset into range: the base
time in milliseconds is below `2 ^ 42`, so a difference that wraps lands near `2 ^ 63`, far above
every bound. So a name is built exactly when the exact offset lies in range.

The name built then encodes the point exactly (`Qualifier.Encodes`): two or four bytes as the
resolution asks, read back from its own bytes, the low four bits of the flags, the offset in
seconds and in milliseconds, and the timestamp given back from the base time by a buffer holding
it. Conversely a name read from some bytes is written back as the bytes it was read from: reading
a name keeps every bit of the bytes it reads.

Main statement: `Qualifier.buildQualifier_exact`.
-/

namespace SeriesIngest

namespace Bytes

/-- A byte followed by more bytes reads as the byte shifted past them. -/
theorem toNatBE_cons (x : UInt8) (b : Bytes) :
    toNatBE (x :: b) = x.toNat * 256 ^ b.length + toNatBE b := by
  rw [toNatBE, List.foldl_cons, foldl_toNatBE, Nat.zero_mul, Nat.zero_add]

/-- Big-endian bytes read as a number below the first one they cannot hold. -/
theorem toNatBE_lt (b : Bytes) : toNatBE b < 256 ^ b.length := by
  induction b with
  | nil => simp [toNatBE]
  | cons x b ih =>
    have hx : x.toNat * 256 ^ b.length ≤ 255 * 256 ^ b.length :=
      Nat.mul_le_mul_right _ (Nat.le_of_lt_succ x.toNat_lt)
    rw [toNatBE_cons, List.length_cons, Nat.pow_succ]
    omega

/-- The bytes of a width see the number only modulo that width. -/
theorem ofNatBE_add_mul (w n m : Nat) : ofNatBE w (n + m * 256 ^ w) = ofNatBE w n := by
  induction w generalizing m with
  | zero => rfl
  | succ w ih =>
    have hpos : 0 < 256 ^ w := Nat.pow_pos (by decide)
    have hhead : (n + m * 256 ^ (w + 1)) / 256 ^ w % 256 = n / 256 ^ w % 256 := by
      rw [Nat.pow_succ, ← Nat.mul_assoc, Nat.mul_right_comm, Nat.add_mul_div_right _ _ hpos,
        Nat.add_mul_mod_self_right]
    have htail : n + m * 256 ^ (w + 1) = n + m * 256 * 256 ^ w := by
      rw [Nat.pow_succ, Nat.mul_assoc, Nat.mul_comm 256]
    simp only [ofNatBE, Nat.pow_eq, hhead]
    rw [htail, ih]

/-- Bytes written back at their own width after being read are the bytes. -/
theorem ofNatBE_toNatBE (b : Bytes) : ofNatBE b.length (toNatBE b) = b := by
  induction b with
  | nil => rfl
  | cons x b ih =>
    have hlt := toNatBE_lt b
    have hhead : (toNatBE b + x.toNat * 256 ^ b.length) / 256 ^ b.length % 256 = x.toNat := by
      rw [Nat.add_mul_div_right _ _ (Nat.pow_pos (by decide)), Nat.div_eq_of_lt hlt,
        Nat.zero_add, Nat.mod_eq_of_lt x.toNat_lt]
    rw [toNatBE_cons, Nat.add_comm, List.length_cons, ofNatBE]
    simp only [Nat.pow_eq, hhead, UInt8.ofNat_toNat, ofNatBE_add_mul, ih]

end Bytes

namespace SampleBuffer

/-- A buffer gives the timestamp of a sample back from the base time and its column name alone. -/
theorem timestamp_of_get_eq {b : SampleBuffer} {i : Nat} {q : Qualifier} {v : Int}
    (h : b.get i = .ok (q, v)) (base : UInt32) :
    b.timestamp i base =
      .ok (if q.isMillis then (base.toNat : Int) * 1000 + q.offsetMs else base.toNat + q.deltaSeconds) := by
  cases q <;> simp [timestamp, h, Qualifier.isMillis, bind, Except.bind, pure, Except.pure]

end SampleBuffer

namespace Qualifier

/-! ### The exact offset -/

/-- The offset of a timestamp from a base time as an exact integer, in the timestamp's own
resolution: seconds past the base time, or milliseconds past it. -/
def offsetOf (ts : Int) (base : UInt32) : Int :=
  if Time.isMillis ts then ts - base.toNat * 1000 else ts - base.toNat

/-- The greatest offset a column name of the timestamp's resolution holds. -/
def maxOffsetOf (ts : Int) : Int :=
  if Time.isMillis ts then maxMillisDelta else maxSecondDelta

/-- An offset passes the check exactly when it lies between zero and the bound. -/
theorem checkDelta_eq_ok (d m : Int) : checkDelta d m = .ok () ↔ 0 ≤ d ∧ d ≤ m := by
  unfold checkDelta
  split_ifs with h <;> simp <;> omega

/-- A difference at most `2 ^ 62` below the signed 64-bit range that wraps leaves it only to land
past `2 ^ 62`, so its 64-bit result lies in a range below `2 ^ 62` exactly when it does. -/
theorem wrap64_mem_iff {n m : Int} (lo : Number.int64Min - 2 ^ 62 ≤ n)
    (hi : n ≤ Number.int64Max) (hm : m < 2 ^ 62) :
    (0 ≤ Number.wrap64 n ∧ Number.wrap64 n ≤ m) ↔ (0 ≤ n ∧ n ≤ m) := by
  by_cases hn : Number.int64Min ≤ n
  · rw [wrap64_of_mem hn hi]
  · -- the difference wrapped once, up by `2 ^ 64`
    have h63 : Int.pow 2 63 = 2 ^ 63 := rfl
    have h64 : Int.pow 2 64 = 2 ^ 64 := rfl
    simp only [Number.wrap64, Number.int64Min, Number.int64Max, h63, h64] at hn lo hi ⊢
    omega

/-- Of a timestamp in the signed 64-bit range, the 64-bit offset from any base time, in seconds
or in milliseconds, is in a range below `2 ^ 62` exactly when the exact offset is. -/
theorem wrap64_offset_mem_iff {ts m : Int} (lo : Number.int64Min ≤ ts)
    (hi : ts ≤ Number.int64Max) (base : UInt32) (hm : m < 2 ^ 62) {c : Int}
    (hs0 : 0 ≤ c) (hs : c ≤ 1000) :
    (0 ≤ Number.wrap64 (ts - base.toNat * c) ∧ Number.wrap64 (ts - base.toNat * c) ≤ m) ↔
      (0 ≤ ts - base.toNat * c ∧ ts - base.toNat * c ≤ m) := by
  have hbase : (base.toNat : Int) ≤ 2 ^ 32 - 1 := by have := base.toNat_lt; omega
  have hb : (base.toNat : Int) * c ≤ (2 ^ 32 - 1) * 1000 :=
    Int.mul_le_mul hbase hs hs0 (by decide)
  have hb0 : 0 ≤ (base.toNat : Int) * c := Int.mul_nonneg (Int.natCast_nonneg _) hs0
  have h63 : Int.pow 2 63 = 2 ^ 63 := rfl
  refine wrap64_mem_iff ?_ ?_ hm <;>
    simp only [Number.int64Min, Number.int64Max, h63] at lo hi ⊢ <;> omega

/-- A column name is built for a timestamp of the signed 64-bit range exactly when its exact
offset from the base time lies in the range of its resolution. -/
theorem exists_buildQualifier_iff {ts : Int} (lo : Number.int64Min ≤ ts)
    (hi : ts ≤ Number.int64Max) (base : UInt32) (f : UInt16) :
    (∃ q, buildQualifier ts base f = .ok q) ↔ 0 ≤ offsetOf ts base ∧ offsetOf ts base ≤ maxOffsetOf ts := by
  cases hms : Time.isMillis ts
  · have hiff := wrap64_offset_mem_iff lo hi base (m := maxSecondDelta) (by decide) (c := 1)
      (by decide) (by decide)
    simp only [Int.mul_one] at hiff
    simp only [offsetOf, maxOffsetOf, hms, Bool.false_eq_true, if_false, ← hiff,
      ← checkDelta_eq_ok, buildQualifier, encodeSecondsQualifier]
    cases checkDelta (Number.wrap64 (ts - base.toNat)) maxSecondDelta <;>
      simp [bind, Except.bind, pure, Except.pure, Except.map]
  · have hiff := wrap64_offset_mem_iff lo hi base (m := maxMillisDelta) (by decide)
      (c := 1000) (by decide) le_rfl
    simp only [offsetOf, maxOffsetOf, hms, if_true, ← hiff, ← checkDelta_eq_ok, buildQualifier,
      encodeMillisQualifier]
    cases checkDelta (Number.wrap64 (ts - base.toNat * 1000)) maxMillisDelta <;>
      simp [bind, Except.bind, pure, Except.pure, Except.map]

/-! ### What a column name built holds -/

/-- A column name encodes a timestamp against a base time with flags: its length is the
resolution's, it reads back from its bytes, it keeps the low four bits of the flags, it holds the
exact offset in seconds and in milliseconds, and a buffer holding it gives the timestamp back. -/
structure Encodes (q : Qualifier) (ts : Int) (base : UInt32) (f : UInt16) : Prop where
  len : q.len = if Time.isMillis ts then 4 else 2
  decode_toBytes : decode q.toBytes = .ok q
  flags : q.flags = f &&& 0xF
  deltaSeconds : (q.deltaSeconds : Int) =
    if Time.isMillis ts then offsetOf ts base / 1000 else offsetOf ts base
  offsetMs : (q.offsetMs : Int) = if Time.isMillis ts then offsetOf ts base else 1000 * offsetOf ts base
  timestamp : ∀ (b : SampleBuffer) i v, b.get i = .ok (q, v) → b.timestamp i base = .ok ts

/-- The length of a column name is told by its resolution. -/
theorem len_eq (q : Qualifier) : q.len = if q.isMillis then 4 else 2 := by
  cases q <;> rfl

/-- A column name built for a timestamp of the signed 64-bit range encodes the timestamp. -/
theorem encodes_of_buildQualifier {ts : Int} (lo : Number.int64Min ≤ ts)
    (hi : ts ≤ Number.int64Max) {base : UInt32} {f : UInt16} {q : Qualifier}
    (h : buildQualifier ts base f = .ok q) : q.Encodes ts base f := by
  obtain ⟨h0, h1⟩ := (exists_buildQualifier_iff lo hi base f).1 ⟨q, h⟩
  have hdec : decode q.toBytes = .ok q := by
    simpa using decode_toBytes_append (marked_of_buildQualifier h) []
  have hflags : q.flags = f &&& 0xF := flags_of_buildQualifier h
  cases hms : Time.isMillis ts
  · simp only [offsetOf, maxOffsetOf, hms, Bool.false_eq_true, if_false] at h0 h1
    obtain ⟨q', hq', hm, hd, ho⟩ := buildQualifier_of_seconds f hms h0 h1
    rw [h, Except.ok.injEq] at hq'
    subst hq'
    refine ⟨by rw [len_eq, hm, hms], hdec, hflags, ?_, ?_, fun b i v hget => ?_⟩
    · simpa [offsetOf, hms] using hd
    · simpa [offsetOf, hms] using ho
    · rw [SampleBuffer.timestamp_of_get_eq hget, hm, if_neg Bool.false_ne_true, hd]
      congr 1
      omega
  · simp only [offsetOf, maxOffsetOf, hms, if_true] at h0 h1
    obtain ⟨q', hq', hm, ho, hd⟩ := buildQualifier_of_millis f hms h0 h1
    rw [h, Except.ok.injEq] at hq'
    subst hq'
    refine ⟨by rw [len_eq, hm, hms], hdec, hflags, ?_, ?_, fun b i v hget => ?_⟩
    · simp only [offsetOf, hms, if_true, hd, ← ho]
      omega
    · simpa [offsetOf, hms] using ho
    · rw [SampleBuffer.timestamp_of_get_eq hget, hm, if_pos rfl, ho]
      congr 1
      omega

/-! ### Reading a column name keeps its bytes -/

/-- A column name read from the front of some bytes writes back as the bytes it read. -/
theorem toBytes_of_decode {b : Bytes} {q : Qualifier} (h : decode b = .ok q) :
    q.toBytes = b.take q.len := by
  rcases b with _ | ⟨x, _ | ⟨y, r⟩⟩
  · simp [decode] at h
  · simp [decode] at h
  by_cases hx : (x &&& 0xF0 == 0xF0) = true
  · rcases r with _ | ⟨z, _ | ⟨w, r'⟩⟩
    · simp [decode, hx] at h
    · simp [decode, hx] at h
    simp only [decode, hx, if_true, Except.ok.injEq] at h
    subst h
    have hlt : Bytes.toNatBE [x, y, z, w] < 4294967296 := by
      simpa using Bytes.toNatBE_lt [x, y, z, w]
    have hround : Bytes.ofNatBE 4 (Bytes.toNatBE [x, y, z, w]) = [x, y, z, w] := by
      simpa using Bytes.ofNatBE_toNatBE [x, y, z, w]
    simp [toBytes, len, Nat.mod_eq_of_lt hlt, hround]
  · simp only [decode, hx, Bool.false_eq_true, if_false, Except.ok.injEq] at h
    subst h
    have hlt : Bytes.toNatBE [x, y] < 65536 := by simpa using Bytes.toNatBE_lt [x, y]
    have hround : Bytes.ofNatBE 2 (Bytes.toNatBE [x, y]) = [x, y] := by
      simpa using Bytes.ofNatBE_toNatBE [x, y]
    simp [toBytes, len, Nat.mod_eq_of_lt hlt, hround]

/-- A column name is built exactly when the exact offset from the base time is in range, over the
whole signed 64-bit range; it reads back, keeps the flags and gives the timestamp back. -/
theorem buildQualifier_exact {ts : Int} (lo : Number.int64Min ≤ ts) (hi : ts ≤ Number.int64Max)
    (base : UInt32) (f : UInt16) :
    ((∃ q, buildQualifier ts base f = .ok q) ↔
      0 ≤ offsetOf ts base ∧ offsetOf ts base ≤ maxOffsetOf ts) ∧
    (∀ q, buildQualifier ts base f = .ok q → q.Encodes ts base f) ∧
    (∀ (b : Bytes) q, decode b = .ok q → q.toBytes = b.take q.len) :=
  ⟨exists_buildQualifier_iff lo hi base f, fun _ h => encodes_of_buildQualifier lo hi h,
    fun _ _ h => toBytes_of_decode h⟩

/-- The column name of 1500.25 seconds past a base time, given in milliseconds, is built and
encodes its point. -/
theorem millis_column_exact :
    Number.int64Min ≤ 1356999900250 ∧ 1356999900250 ≤ Number.int64Max ∧
    ((∃ q, buildQualifier 1356999900250 1356998400 1 = .ok q) ↔
      0 ≤ offsetOf 1356999900250 1356998400 ∧
        offsetOf 1356999900250 1356998400 ≤ maxOffsetOf 1356999900250) ∧
    (∀ q, buildQualifier 1356999900250 1356998400 1 = .ok q → q.Encodes 1356999900250 1356998400 1) ∧
    (∀ (b : Bytes) q, decode b = .ok q → q.toBytes = b.take q.len) :=
  ⟨by decide, by decide, buildQualifier_exact (by decide) (by decide) 1356998400 1⟩

end Qualifier

end SeriesIngest
