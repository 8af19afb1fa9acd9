import SeriesIngest.Proofs.Codec.Samples
import SeriesIngest.Proofs.Float.ExactRounding

/-!
# The value codec is exact

An integer of the signed 64-bit range is stored in the first of 1, 2, 4 and 8 bytes that holds it
in two's complement (`integerWidth_le`), its flags give that width less one, and both readers give
it back. A finite float is stored as the 4 big-endian bytes of its bit pattern under the flags
`0xB`, and reading it back widens it to a double and narrows it again, which gives back the same
single bit for bit (`Float.Binary32.narrow_widen`); only a NaN or an infinity is refused.

Each reader first compares the float bit of the flags with the kind it reads, then the byte count
with the flags, then the byte count with the kind's widths (`decodeLong_eq`, `decodeFloat_eq`): it
fails on the kind exactly when the float bit disagrees, and otherwise on the value exactly when a
byte count is wrong.

Main statement: `value_codec_exact`.
-/

namespace SeriesIngest

/-- Whether `w` bytes of two's complement hold `v`. -/
def FitsBytes (w : Nat) (v : Int) : Prop := -2 ^ (8 * w - 1) ≤ v ∧ v < 2 ^ (8 * w - 1)

instance (w : Nat) (v : Int) : Decidable (FitsBytes w v) := inferInstanceAs (Decidable (_ ∧ _))

/-! ### The width of an integer -/

theorem integerWidth_eq (v : Int) :
    integerWidth v =
      if FitsBytes 1 v then 1 else if FitsBytes 2 v then 2 else if FitsBytes 4 v then 4 else 8 :=
  rfl

theorem integerWidth_mem (v : Int) : integerWidth v ∈ [1, 2, 4, 8] := by
  rw [integerWidth_eq]
  split_ifs <;> decide

/-- No width of the four that holds `v` is below the width chosen for it. -/
theorem integerWidth_le {v : Int} {w : Nat} (hw : w ∈ [1, 2, 4, 8]) (h : FitsBytes w v) :
    integerWidth v ≤ w := by
  rw [integerWidth_eq]
  simp only [List.mem_cons, List.not_mem_nil, or_false] at hw
  -- the width chosen is the first that holds `v`, so a smaller `w` was tried and did not
  split_ifs <;> rcases hw with rfl | rfl | rfl | rfl <;> first | decide | contradiction

/-- The width chosen for a signed 64-bit integer holds it. -/
theorem fitsBytes_integerWidth {v : Int} (lo : Number.int64Min ≤ v) (hi : v ≤ Number.int64Max) :
    FitsBytes (integerWidth v) v := by
  rw [integerWidth_eq]
  split_ifs with h1 h2 h4
  · exact h1
  · exact h2
  · exact h4
  · have h63 : Int.pow 2 63 = 2 ^ (8 * 8 - 1) := rfl
    simp only [Number.int64Min, Number.int64Max, h63] at lo hi
    exact ⟨lo, by omega⟩

example : integerWidth 127 = 1 ∧ integerWidth 128 = 2 ∧ integerWidth (-32769) = 4 ∧
    integerWidth (2 ^ 31) = 8 := by
  decide

/-! ### Stored integers -/

theorem length_encodeLong (v : Int) : (encodeLong v).bytes.length = integerWidth v :=
  Bytes.length_ofNatBE _ _

/-- The flags of a stored integer hold its width less one, announce its width, and mark an
integer. -/
theorem flags_encodeLong (v : Int) :
    (encodeLong v).flags.toNat = integerWidth v - 1 ∧
      valueLen (encodeLong v).flags = integerWidth v ∧
      flagsInteger (encodeLong v).flags = true := by
  have hw := integerWidth_mem v
  simp only [List.mem_cons, List.not_mem_nil, or_false] at hw
  simp only [encodeLong]
  rcases hw with h | h | h | h <;> rw [h] <;> decide

/-! ### The readers -/

theorem decodeLong_eq (flags : UInt16) (b : Bytes) :
    decodeLong flags b =
      if flagsInteger flags = false then .error (.typeMismatch 0 .long)
      else if b.length ≠ valueLen flags then
        .error (.invalidValue (.lengthMismatch flags (valueLen flags) b.length))
      else if b.length ∈ [1, 2, 4, 8] then .ok (Bytes.toIntBE b)
      else .error (.invalidValue (.integerWidth b.length)) := by
  unfold decodeLong checkLength
  cases flagsInteger flags <;> by_cases hl : b.length = valueLen flags <;>
    simp [hl, bind, Except.bind, pure, Except.pure, throw, throwThe, MonadExceptOf.throw]

theorem decodeFloat_eq (flags : UInt16) (b : Bytes) :
    decodeFloat flags b =
      if flagsInteger flags = true then .error (.typeMismatch 0 .float)
      else if b.length ≠ valueLen flags then
        .error (.invalidValue (.lengthMismatch flags (valueLen flags) b.length))
      else if b.length = 4 then .ok (Float.Binary32.widen ⟨(Bytes.toNatBE b).toUInt32⟩)
      else if b.length = 8 then .ok ⟨(Bytes.toNatBE b).toUInt64⟩
      else .error (.invalidValue (.floatWidth b.length)) := by
  unfold decodeFloat checkLength
  cases flagsInteger flags <;> by_cases hl : b.length = valueLen flags <;>
    simp [hl, bind, Except.bind, pure, Except.pure, throw, throwThe, MonadExceptOf.throw]

theorem decodeLong_typeMismatch_iff (flags : UInt16) (b : Bytes) :
    (∃ i k, decodeLong flags b = .error (.typeMismatch i k)) ↔ flagsInteger flags = false := by
  rw [decodeLong_eq]
  split_ifs <;> simp_all

theorem decodeLong_invalidValue_iff {flags : UInt16} (h : flagsInteger flags = true) (b : Bytes) :
    (∃ f, decodeLong flags b = .error (.invalidValue f)) ↔
      b.length ≠ valueLen flags ∨ b.length ∉ [1, 2, 4, 8] := by
  rw [decodeLong_eq, if_neg (by simp [h])]
  split_ifs <;> simp_all

theorem decodeLong_of_width {flags : UInt16} (h : flagsInteger flags = true) {b : Bytes}
    (hl : b.length = valueLen flags) (hw : b.length ∈ [1, 2, 4, 8]) :
    decodeLong flags b = .ok (Bytes.toIntBE b) := by
  rw [decodeLong_eq, if_neg (by simp [h]), if_neg (not_not.2 hl), if_pos hw]

theorem decodeFloat_typeMismatch_iff (flags : UInt16) (b : Bytes) :
    (∃ i k, decodeFloat flags b = .error (.typeMismatch i k)) ↔ flagsInteger flags = true := by
  rw [decodeFloat_eq]
  split_ifs <;> simp_all

theorem decodeFloat_invalidValue_iff {flags : UInt16} (h : flagsInteger flags = false) (b : Bytes) :
    (∃ f, decodeFloat flags b = .error (.invalidValue f)) ↔
      b.length ≠ valueLen flags ∨ b.length ∉ [4, 8] := by
  rw [decodeFloat_eq, if_neg (by simp [h])]
  split_ifs <;> simp_all

theorem decodeFloat_of_width {flags : UInt16} (h : flagsInteger flags = false) {b : Bytes}
    (hl : b.length = valueLen flags) (hw : b.length ∈ [4, 8]) :
    ∃ d, decodeFloat flags b = .ok d := by
  rw [decodeFloat_eq, if_neg (by simp [h]), if_neg (not_not.2 hl)]
  simp only [List.mem_cons, List.not_mem_nil, or_false] at hw
  rcases hw with h4 | h8
  · exact ⟨_, if_pos h4⟩
  · rw [if_neg (by omega), if_pos h8]
    exact ⟨_, rfl⟩

/-! ### Round trips -/

/-- A signed 64-bit integer reads back from its stored bytes. -/
theorem decodeLong_encodeLong {v : Int} (lo : Number.int64Min ≤ v) (hi : v ≤ Number.int64Max) :
    decodeLong (encodeLong v).flags (encodeLong v).bytes = .ok v := by
  obtain ⟨-, hlen, hint⟩ := flags_encodeLong v
  have hfit := fitsBytes_integerWidth lo hi
  have hw := integerWidth_mem v
  have hpos : 0 < integerWidth v := by
    simp only [List.mem_cons, List.not_mem_nil, or_false] at hw
    omega
  rw [decodeLong_of_width hint (by rw [hlen, length_encodeLong]) (by rwa [length_encodeLong])]
  exact congrArg Except.ok (toIntBE_ofIntBE_of_fits _ hpos hfit.1 hfit.2)

theorem decodeValue_encodeLong {v : Int} (lo : Number.int64Min ≤ v) (hi : v ≤ Number.int64Max) :
    decodeValue (encodeLong v).flags (encodeLong v).bytes = .ok (.integer v) := by
  rw [decodeValue, if_pos (flags_encodeLong v).2.2, decodeLong_encodeLong lo hi]
  rfl

theorem encodeFloat_of_finite {x : Float.Binary32} (hn : x.isNaN = false)
    (hi : x.isInfinite = false) : encodeFloat x = .ok ⟨Bytes.ofNatBE 4 x.bits.toNat, 0xB⟩ := by
  rw [encodeFloat, hn, hi]
  rfl

theorem encodeFloat_invalidValue_iff (x : Float.Binary32) :
    (∃ f, encodeFloat x = .error (.invalidValue f)) ↔
      x.isNaN = true ∨ x.isInfinite = true := by
  unfold encodeFloat
  cases x.isNaN <;> cases x.isInfinite <;> simp

/-- A finite float reads back from its stored bytes as the same float, bit for bit. -/
theorem decodeValue_encodeFloat {x : Float.Binary32} (hn : x.isNaN = false)
    (hi : x.isInfinite = false) :
    decodeValue 0xB (Bytes.ofNatBE 4 x.bits.toNat) = .ok (.float x) := by
  have hbits : Bytes.toNatBE (Bytes.ofNatBE 4 x.bits.toNat) = x.bits.toNat := by
    rw [Bytes.toNatBE_ofNatBE, Nat.mod_eq_of_lt (by simpa using x.bits.toNat_lt)]
  -- four bytes under float flags: the single is widened, then narrowed back by `decodeValue`
  rw [decodeValue, if_neg (by decide), decodeFloat_eq, if_neg (by decide), Bytes.length_ofNatBE,
    if_neg (by decide), if_pos rfl, hbits, Float.Binary32.mk_toNat_toUInt32]
  exact congrArg (fun y => Except.ok (DataValue.float y)) (Float.Binary32.narrow_widen hn hi)

/-- Values round-trip with the least width: integers in the first of 1, 2, 4, 8 bytes, finite
floats bit for bit as singles; the readers fail exactly on the wrong kind or width. -/
theorem value_codec_exact :
    (∀ v : Int, Number.int64Min ≤ v → v ≤ Number.int64Max →
      integerWidth v ∈ [1, 2, 4, 8] ∧ FitsBytes (integerWidth v) v ∧
      (∀ w ∈ [1, 2, 4, 8], FitsBytes w v → integerWidth v ≤ w) ∧
      (encodeLong v).bytes.length = integerWidth v ∧
      (encodeLong v).flags.toNat = integerWidth v - 1 ∧
      decodeLong (encodeLong v).flags (encodeLong v).bytes = .ok v ∧
      decodeValue (encodeLong v).flags (encodeLong v).bytes = .ok (.integer v) ∧
      (encodeLong v).raw = v) ∧
    (∀ x : Float.Binary32, x.isNaN = false → x.isInfinite = false →
      encodeFloat x = .ok ⟨Bytes.ofNatBE 4 x.bits.toNat, 0xB⟩ ∧
      (⟨Bytes.ofNatBE 4 x.bits.toNat, 0xB⟩ : EncodedValue).raw = x.bits.toNat ∧
      decodeValue 0xB (Bytes.ofNatBE 4 x.bits.toNat) = .ok (.float x)) ∧
    (∀ x : Float.Binary32,
      (∃ f, encodeFloat x = .error (.invalidValue f)) ↔
        x.isNaN = true ∨ x.isInfinite = true) ∧
    (∀ flags b, (∃ i k, decodeLong flags b = .error (.typeMismatch i k)) ↔
      flagsInteger flags = false) ∧
    (∀ flags b, flagsInteger flags = true →
      ((∃ f, decodeLong flags b = .error (.invalidValue f)) ↔
        b.length ≠ valueLen flags ∨ b.length ∉ [1, 2, 4, 8]) ∧
      (b.length = valueLen flags → b.length ∈ [1, 2, 4, 8] →
        decodeLong flags b = .ok (Bytes.toIntBE b))) ∧
    (∀ flags b, (∃ i k, decodeFloat flags b = .error (.typeMismatch i k)) ↔
      flagsInteger flags = true) ∧
    (∀ flags b, flagsInteger flags = false →
      ((∃ f, decodeFloat flags b = .error (.invalidValue f)) ↔
        b.length ≠ valueLen flags ∨ b.length ∉ [4, 8]) ∧
      (b.length = valueLen flags → b.length ∈ [4, 8] →
        ∃ d, decodeFloat flags b = .ok d)) := by
  refine ⟨fun v lo hi => ?_, fun x hn hi => ?_, encodeFloat_invalidValue_iff,
    decodeLong_typeMismatch_iff, fun flags b h => ⟨decodeLong_invalidValue_iff h b,
      decodeLong_of_width h⟩, decodeFloat_typeMismatch_iff, fun flags b h =>
      ⟨decodeFloat_invalidValue_iff h b, decodeFloat_of_width h⟩⟩
  · refine ⟨integerWidth_mem v, fitsBytes_integerWidth lo hi, fun w hw => integerWidth_le hw,
      length_encodeLong v, (flags_encodeLong v).1, decodeLong_encodeLong lo hi,
      decodeValue_encodeLong lo hi, ?_⟩
    rw [EncodedValue.raw_encodeLong, wrap64_of_mem lo hi]
  · have henc := encodeFloat_of_finite hn hi
    exact ⟨henc, (EncodedValue.raw_of_encodeFloat henc).2, decodeValue_encodeFloat hn hi⟩

end SeriesIngest
