import Mathlib.Algebra.Order.Field.Power
import Mathlib.Tactic.FieldSimp
import Mathlib.Tactic.Linarith
import SeriesIngest.Float.Word

/-!
# Rounding is exact on the values of a format

`BinaryFormat.round` rounds a quotient `n / d` to the nearest pattern of a format. On a quotient
that the format holds exactly, a finite value `m * 2 ^ e` of one of its own patterns, no rounding
happens: the exponent estimate `floorLog2` finds the exponent (`floorLog2_eq`), the quotient in
units of the quantum is a whole number, and `roundHalfEven` of a whole number is that number. So
the pattern comes back from its value (`BinaryFormat.round_pack`), subnormal or normal, and zero
with its sign.

A pattern is put together from its sign, its biased exponent field and its fraction
(`BinaryFormat.pack`), and every pattern of the format's width is the pattern of its own parts
(`BinaryFormat.pack_parts`). Every finite single is the value of a double
(`BinaryFormat.exists_double_parts`): a normal single keeps its fraction under a rebiased field,
and a subnormal single becomes a normal double. Widening a finite single to a double and narrowing
it back therefore gives the single back, bit for bit (`Binary32.narrow_widen`).

Values are compared as rationals: a power of two with an integer exponent is the pair that
`pow2Frac` writes it as (`pow2Frac_div`).
-/

namespace SeriesIngest.Float

/-! ### Powers of two -/

/-- The numerator of a power of two written as a pair is positive. -/
theorem pow2Frac_fst_pos (e : Int) : 0 < (pow2Frac e).1 := by
  unfold pow2Frac; split <;> simp [Nat.pow_eq]

/-- The denominator of a power of two written as a pair is positive. -/
theorem pow2Frac_snd_pos (e : Int) : 0 < (pow2Frac e).2 := by
  unfold pow2Frac; split <;> simp [Nat.pow_eq]

/-- A power of two written as a pair is that power of two. -/
theorem pow2Frac_div (e : Int) : ((pow2Frac e).1 : ℚ) / (pow2Frac e).2 = 2 ^ e := by
  unfold pow2Frac
  split
  · next h =>
    simp only [Nat.pow_eq, Nat.cast_pow, Nat.cast_ofNat, Nat.cast_one, div_one]
    rw [← zpow_natCast, Int.toNat_of_nonneg h]
  · next h =>
    simp only [Nat.pow_eq, Nat.cast_pow, Nat.cast_ofNat, Nat.cast_one, one_div]
    rw [← zpow_natCast, Int.toNat_of_nonneg (by omega), ← zpow_neg, neg_neg]

/-- Two powers of two compare as their exponents. -/
theorem two_zpow_lt_iff {a b : Int} : (2 : ℚ) ^ a < 2 ^ b ↔ a < b :=
  zpow_lt_zpow_iff_right₀ one_lt_two

/-- The power of two of a natural exponent, cast. -/
theorem two_zpow_natCast (k : Nat) : (2 : ℚ) ^ (k : Int) = ((2 ^ k : Nat) : ℚ) := by
  rw [zpow_natCast]; push_cast; rfl

/-- A power of two written as a pair compares with `n / d` as the cross products do. -/
theorem lt_pow2Frac_iff {n d : Nat} (hd : 0 < d) (e : Int) :
    n * (pow2Frac e).2 < (pow2Frac e).1 * d ↔ (n : ℚ) / d < 2 ^ e := by
  have hb := pow2Frac_snd_pos e
  rw [← pow2Frac_div, div_lt_div_iff₀ (by exact_mod_cast hd) (by exact_mod_cast hb)]
  exact_mod_cast Iff.rfl

/-! ### The exponent and the rounded quotient -/

/-- `floorLog2 n d` is the exponent of the greatest power of two at most `n / d`. -/
theorem floorLog2_eq {n d : Nat} (hn : 0 < n) (hd : 0 < d) {E : Int}
    (h₁ : (2 : ℚ) ^ E ≤ n / d) (h₂ : (n : ℚ) / d < 2 ^ (E + 1)) : floorLog2 n d = E := by
  have hn₁ := Nat.log2_self_le (Nat.pos_iff_ne_zero.1 hn)
  have hn₂ := @Nat.lt_log2_self n
  have hd₁ := Nat.log2_self_le (Nat.pos_iff_ne_zero.1 hd)
  have hd₂ := @Nat.lt_log2_self d
  have hdq : (0 : ℚ) < d := by exact_mod_cast hd
  have h2 : (2 : ℚ) ≠ 0 := two_ne_zero
  -- the estimate `log2 n - log2 d` is the exponent or one above it
  have hlo : (2 : ℚ) ^ ((Nat.log2 n : Int) - Nat.log2 d - 1) < n / d := by
    rw [lt_div_iff₀ hdq]
    calc (2 : ℚ) ^ ((Nat.log2 n : Int) - Nat.log2 d - 1) * d
        < 2 ^ ((Nat.log2 n : Int) - Nat.log2 d - 1) * 2 ^ ((Nat.log2 d + 1 : Nat) : Int) := by
          rw [two_zpow_natCast (Nat.log2 d + 1)]
          exact mul_lt_mul_of_pos_left (by exact_mod_cast hd₂) (zpow_pos two_pos _)
      _ = 2 ^ (Nat.log2 n : Int) := by
          rw [← zpow_add₀ h2]; congr 1; push_cast; omega
      _ ≤ n := by rw [two_zpow_natCast]; exact_mod_cast hn₁
  have hhi : (n : ℚ) / d < 2 ^ ((Nat.log2 n : Int) - Nat.log2 d + 1) := by
    rw [div_lt_iff₀ hdq]
    calc (n : ℚ) < 2 ^ ((Nat.log2 n + 1 : Nat) : Int) := by
          rw [two_zpow_natCast]; exact_mod_cast hn₂
      _ = 2 ^ ((Nat.log2 n : Int) - Nat.log2 d + 1) * 2 ^ (Nat.log2 d : Int) := by
          rw [← zpow_add₀ h2]; congr 1; push_cast; omega
      _ ≤ 2 ^ ((Nat.log2 n : Int) - Nat.log2 d + 1) * d := by
          rw [two_zpow_natCast]
          exact mul_le_mul_of_nonneg_left (by exact_mod_cast hd₁) (zpow_pos two_pos _).le
  unfold floorLog2
  dsimp only
  split_ifs with h
  · have h' := (lt_pow2Frac_iff hd _).1 h
    have a₁ := two_zpow_lt_iff.1 (lt_of_le_of_lt h₁ h')
    have a₂ := two_zpow_lt_iff.1 (lt_trans hlo h₂)
    omega
  · have h' := le_of_not_gt fun h'' => h ((lt_pow2Frac_iff hd _).2 h'')
    have a₁ := two_zpow_lt_iff.1 (lt_of_le_of_lt h' h₂)
    have a₂ := two_zpow_lt_iff.1 (lt_of_le_of_lt h₁ hhi)
    omega

/-- `floorLog2` of a quotient `M * 2 ^ Q` is the exponent of `M`'s leading bit plus `Q`. -/
theorem floorLog2_of_eq {n d M : Nat} (hn : 0 < n) (hd : 0 < d) (hM : 0 < M) {Q : Int}
    (hval : (n : ℚ) / d = M * 2 ^ Q) : floorLog2 n d = (Nat.log2 M : Int) + Q := by
  have h2 : (2 : ℚ) ≠ 0 := two_ne_zero
  have hM₁ := Nat.log2_self_le (Nat.pos_iff_ne_zero.1 hM)
  have hM₂ := @Nat.lt_log2_self M
  have hQ : (0 : ℚ) < 2 ^ Q := zpow_pos two_pos Q
  apply floorLog2_eq hn hd <;> rw [hval]
  · rw [zpow_add₀ h2, two_zpow_natCast]
    exact mul_le_mul_of_nonneg_right (by exact_mod_cast hM₁) hQ.le
  · rw [show ((Nat.log2 M : Int) + Q + 1) = ((Nat.log2 M + 1 : Nat) : Int) + Q by push_cast; omega,
      zpow_add₀ h2, two_zpow_natCast]
    exact mul_lt_mul_of_pos_right (by exact_mod_cast hM₂) hQ

/-- Rounding a quotient that is a whole number gives that number. -/
theorem roundHalfEven_of_eq {n d k : Nat} (hd : 0 < d) (h : n = k * d) : roundHalfEven n d = k := by
  subst h
  -- no remainder, so neither a half nor more is left to round up
  simp only [roundHalfEven, Nat.mul_div_cancel _ hd, Nat.mul_mod_left]
  exact if_neg (by omega)

namespace BinaryFormat

variable {f : BinaryFormat}

/-! ### Patterns and their parts -/

/-- The pattern of a sign, a biased exponent field and a fraction. -/
def pack (f : BinaryFormat) (neg : Bool) (field frac : Nat) : Nat :=
  (if neg then 2 ^ f.signBit else 0) + field * 2 ^ f.fracBits + frac

/-- The biased exponent field of a pattern. -/
def expField (f : BinaryFormat) (bits : Nat) : Nat := bits / 2 ^ f.fracBits % 2 ^ f.expBits

/-- The magnitude of a finite pattern with these parts: a subnormal fraction at the lowest
quantum, or a normal fraction under its leading bit at the field's exponent. -/
def value (f : BinaryFormat) (field frac : Nat) : ℚ :=
  if field = 0 then (frac : ℚ) * 2 ^ (1 - (f.bias : Int) - f.fracBits)
  else ((frac + 2 ^ f.fracBits : Nat) : ℚ) * 2 ^ ((field : Int) - f.bias - f.fracBits)

/-- The sign bit sits above the exponent field and the fraction. -/
theorem signBit_pow : 2 ^ f.signBit = 2 ^ f.expBits * 2 ^ f.fracBits := by
  rw [signBit, Nat.pow_add, Nat.mul_comm]

/-- A pattern put together from its parts splits back into them: the fraction below the field,
the field below the sign. -/
theorem parts_pack (neg : Bool) {field frac : Nat} (hfield : field < 2 ^ f.expBits)
    (hfrac : frac < 2 ^ f.fracBits) :
    f.fraction (f.pack neg field frac) = frac ∧ f.expField (f.pack neg field frac) = field ∧
      f.isNeg (f.pack neg field frac) = neg := by
  have hP : 0 < 2 ^ f.fracBits := Nat.two_pow_pos _
  have hQ : 0 < 2 ^ f.expBits := Nat.two_pow_pos _
  -- the pattern is `(s * 2 ^ E + field) * 2 ^ F + frac` for the sign bit `s`
  have hpack : f.pack neg field frac =
      ((if neg then 1 else 0) * 2 ^ f.expBits + field) * 2 ^ f.fracBits + frac := by
    simp only [pack, signBit_pow]
    cases neg <;> simp [Nat.add_mul]
  have hdiv : f.pack neg field frac / 2 ^ f.fracBits =
      (if neg then 1 else 0) * 2 ^ f.expBits + field := by
    rw [hpack, Nat.add_comm, Nat.add_mul_div_right _ _ hP, Nat.div_eq_of_lt hfrac, Nat.zero_add]
  refine ⟨?_, ?_, ?_⟩
  · simp only [fraction, Nat.pow_eq]
    rw [hpack, Nat.add_comm, Nat.add_mul_mod_self_right, Nat.mod_eq_of_lt hfrac]
  · simp only [expField]
    rw [hdiv, Nat.add_comm, Nat.add_mul_mod_self_right, Nat.mod_eq_of_lt hfield]
  · simp only [isNeg, Nat.pow_eq, signBit_pow]
    rw [Nat.mul_comm, ← Nat.div_div_eq_div_mul, hdiv, Nat.add_comm, Nat.add_mul_div_right _ _ hQ,
      Nat.div_eq_of_lt hfield, Nat.zero_add]
    cases neg <;> rfl

/-- Every pattern of the format's width is the pattern of its own parts. -/
theorem pack_parts {bits : Nat} (h : bits < 2 ^ (f.signBit + 1)) :
    f.pack (f.isNeg bits) (f.expField bits) (f.fraction bits) = bits := by
  have hP : 0 < 2 ^ f.fracBits := Nat.two_pow_pos _
  have hQ : 0 < 2 ^ f.expBits := Nat.two_pow_pos _
  have hs : bits / 2 ^ f.fracBits / 2 ^ f.expBits < 2 := by
    rw [Nat.div_div_eq_div_mul, Nat.mul_comm, ← signBit_pow,
      Nat.div_lt_iff_lt_mul (Nat.two_pow_pos _), ← Nat.pow_succ']
    exact h
  have h₁ := Nat.mod_add_div bits (2 ^ f.fracBits)
  have h₂ := Nat.mod_add_div (bits / 2 ^ f.fracBits) (2 ^ f.expBits)
  simp only [pack, isNeg, fraction, expField, Nat.pow_eq, signBit_pow]
  rw [Nat.mul_comm (2 ^ f.expBits), ← Nat.div_div_eq_div_mul]
  rw [← h₂, Nat.mul_add] at h₁
  generalize bits / 2 ^ f.fracBits / 2 ^ f.expBits = s at hs h₁ ⊢
  rcases (by omega : s = 0 ∨ s = 1) with rfl | rfl
  · simp only [mul_zero, add_zero, Nat.zero_mod, Nat.reduceBEq, Bool.false_eq_true, ↓reduceIte,
      zero_add] at h₁ ⊢
    linarith
  · simp only [mul_one, Nat.mod_succ, BEq.rfl, ↓reduceIte] at h₁ ⊢
    linarith

/-- A pattern built from parts in range fits the format's width. -/
theorem pack_lt (neg : Bool) {field frac : Nat} (hfield : field < f.maxField)
    (hfrac : frac < 2 ^ f.fracBits) : f.pack neg field frac < 2 ^ (f.signBit + 1) := by
  have hmax : field + 1 ≤ 2 ^ f.expBits := by
    simp only [maxField, Nat.pow_eq] at hfield
    omega
  have hlow : field * 2 ^ f.fracBits + frac < 2 ^ f.signBit := by
    calc field * 2 ^ f.fracBits + frac < (field + 1) * 2 ^ f.fracBits := by
          rw [Nat.add_mul, Nat.one_mul]; omega
      _ ≤ 2 ^ f.expBits * 2 ^ f.fracBits := Nat.mul_le_mul_right _ hmax
      _ = 2 ^ f.signBit := signBit_pow.symm
  rw [Nat.pow_succ]
  unfold pack
  split <;> omega

/-- A pattern built from parts in range reads back as the finite value of those parts: a
subnormal fraction doubled at the lowest exponent, or a normal one with its leading bit. -/
theorem unpack_pack (neg : Bool) {field frac : Nat} (hfield : field < f.maxField)
    (hfrac : frac < 2 ^ f.fracBits) :
    f.unpack (f.pack neg field frac) =
      if field = 0 then .finite neg (frac * 2) (-((f.bias : Int) + f.fracBits))
      else .finite neg (frac + 2 ^ f.fracBits) ((field : Int) - ((f.bias : Int) + f.fracBits)) := by
  have hmax : f.maxField < 2 ^ f.expBits := by
    simp only [maxField, Nat.pow_eq]
    have := Nat.two_pow_pos f.expBits
    omega
  obtain ⟨h₁, h₂, h₃⟩ := parts_pack (f := f) neg (by omega : field < 2 ^ f.expBits) hfrac
  simp only [fraction, expField, isNeg, Nat.pow_eq] at h₁ h₂ h₃
  simp only [unpack, Nat.pow_eq, h₁, h₂, h₃, Nat.ne_of_lt hfield, if_false]

/-- A natural number scaled by `2 ^ k` and then by `2 ^ b` is scaled by `2 ^ (k + b)`. -/
theorem cast_mul_two_pow_zpow (M k : Nat) (b : Int) :
    ((M * 2 ^ k : Nat) : ℚ) * 2 ^ b = M * 2 ^ ((k : Int) + b) := by
  rw [zpow_add₀ two_ne_zero, two_zpow_natCast, ← mul_assoc]
  push_cast
  rfl

/-- A pattern built from parts in range denotes the magnitude of those parts. -/
theorem unpack_pack_value (neg : Bool) {field frac : Nat} (hfield : field < f.maxField)
    (hfrac : frac < 2 ^ f.fracBits) :
    ∃ m e, f.unpack (f.pack neg field frac) = .finite neg m e ∧
      (m : ℚ) * 2 ^ e = f.value field frac := by
  rw [unpack_pack neg hfield hfrac]
  by_cases hz : field = 0
  · refine ⟨frac * 2, -((f.bias : Int) + f.fracBits), by simp [hz], ?_⟩
    rw [value, if_pos hz, show frac * 2 = frac * 2 ^ 1 from rfl, cast_mul_two_pow_zpow]
    congr 2
    push_cast
    omega
  · refine ⟨frac + 2 ^ f.fracBits, (field : Int) - ((f.bias : Int) + f.fracBits), by simp [hz], ?_⟩
    rw [value, if_neg hz]
    congr 2
    omega

/-! ### Rounding a value of the format -/

/-- A quotient equal to a positive multiple of a power of two has a positive numerator. -/
theorem pos_of_div_eq {n d M : Nat} {Q : Int} (hM : 0 < M) (h : (n : ℚ) / d = M * 2 ^ Q) :
    0 < n := by
  refine Nat.pos_of_ne_zero fun h0 => ?_
  rw [h0, Nat.cast_zero, zero_div] at h
  exact (mul_pos (by exact_mod_cast hM) (zpow_pos two_pos Q)).ne h

/-- Rounding a quotient that the format holds exactly: the quotient is `M * 2 ^ Q` with `M` of
at most `F + 1` bits and `Q` the quantum its exponent asks for, so no rounding happens and the
pattern is read off `M` and `Q`. -/
theorem round_of_exact {neg : Bool} {n d M : Nat} (hn : n ≠ 0) (hd : 0 < d) {E Q : Int}
    (hE : floorLog2 n d = E) (hQ : max (E - f.fracBits) (1 - (f.bias : Int) - f.fracBits) = Q)
    (hval : (n : ℚ) / d = M * 2 ^ Q) (hM : M < 2 ^ (f.fracBits + 1)) :
    f.round neg n d =
      if M < 2 ^ f.fracBits then (if neg then 2 ^ f.signBit else 0) + M
      else if Q - (1 - (f.bias : Int) - f.fracBits) + 1 ≥ f.maxField then f.infBits neg
      else (if neg then 2 ^ f.signBit else 0) +
        (Q - (1 - (f.bias : Int) - f.fracBits) + 1).toNat * 2 ^ f.fracBits + (M - 2 ^ f.fracBits) := by
  have ha := pow2Frac_fst_pos Q
  have hb := pow2Frac_snd_pos Q
  -- the quotient in units of the quantum is `M` exactly
  have hround : roundHalfEven (n * (pow2Frac Q).2) (d * (pow2Frac Q).1) = M := by
    refine roundHalfEven_of_eq (Nat.mul_pos hd ha) ?_
    have hq : (n : ℚ) * (pow2Frac Q).2 = M * (d * (pow2Frac Q).1) := by
      rw [← pow2Frac_div] at hval
      field_simp at hval
      linarith
    exact_mod_cast hq
  unfold round
  simp only [hn, if_false, hE, hQ]
  rcases hp : pow2Frac Q with ⟨a, b⟩
  rw [hp] at hround
  simp only [hround, Nat.pow_eq, Nat.ne_of_lt hM, if_false]

/-- Rounding is exact on the values of the format: a quotient equal to the magnitude of a finite
pattern rounds to that pattern. -/
theorem round_pack (neg : Bool) {field frac n d : Nat} (hd : 0 < d) (hfield : field < f.maxField)
    (hfrac : frac < 2 ^ f.fracBits) (hval : (n : ℚ) / d = f.value field frac) :
    f.round neg n d = f.pack neg field frac := by
  have hdq : (0 : ℚ) < d := by exact_mod_cast hd
  by_cases hz : field = 0
  · subst hz
    simp only [value, if_true] at hval
    by_cases hf0 : frac = 0
    · subst hf0
      have hn : n = 0 := by
        rw [Nat.cast_zero, zero_mul, div_eq_zero_iff] at hval
        exact_mod_cast hval.resolve_right hdq.ne'
      simp [round, hn, pack]
    · have hfpos := Nat.pos_of_ne_zero hf0
      have hn := pos_of_div_eq hfpos hval
      have hL := (Nat.log2_lt hf0).2 hfrac
      have hF : frac < 2 ^ (f.fracBits + 1) := by rw [Nat.pow_succ]; omega
      rw [round_of_exact hn.ne' hd (floorLog2_of_eq hn hd hfpos hval) (by omega) hval hF]
      simp [hfrac, pack]
  · have hM : 0 < frac + 2 ^ f.fracBits := by have := Nat.two_pow_pos f.fracBits; omega
    have hlog : Nat.log2 (frac + 2 ^ f.fracBits) = f.fracBits :=
      (Nat.log2_eq_iff hM.ne').2 ⟨by omega, by rw [Nat.pow_succ]; omega⟩
    simp only [value, hz, if_false] at hval
    have hn := pos_of_div_eq hM hval
    rw [round_of_exact hn.ne' hd (floorLog2_of_eq hn hd hM hval) (by omega) hval
      (by rw [Nat.pow_succ]; omega)]
    have hfield' : ((field : Int) - f.bias - f.fracBits) - (1 - (f.bias : Int) - f.fracBits) + 1 =
        field := by omega
    simp only [hfield', Int.toNat_natCast, pack, Nat.not_lt.2 (Nat.le_add_left _ _), if_false,
      ge_iff_le, Int.ofNat_le, Nat.not_le.2 hfield, Nat.add_sub_cancel]

/-- Rounding `m * 2 ^ e`, as a conversion between formats writes it, to a format that holds
it exactly gives the pattern of its parts. -/
theorem round_mul_pow2Frac (neg : Bool) {m : Nat} {e : Int} {field frac : Nat}
    (hfield : field < f.maxField) (hfrac : frac < 2 ^ f.fracBits)
    (hv : (m : ℚ) * 2 ^ e = f.value field frac) :
    f.round neg (m * (pow2Frac e).1) (pow2Frac e).2 = f.pack neg field frac :=
  round_pack neg (pow2Frac_snd_pos e) hfield hfrac
    (by rw [Nat.cast_mul, mul_div_assoc, pow2Frac_div, hv])

/-! ### Singles among doubles -/

/-- Every finite magnitude of the single format is one of the double format: a normal single
keeps its fraction, shifted up, under a field rebiased by `1023 - 127`; a subnormal single is a
normal double, its leading bit moved up to the implicit place. -/
theorem exists_double_parts {field frac : Nat} (hfield : field < single.maxField)
    (hfrac : frac < 2 ^ single.fracBits) :
    ∃ field' frac', field' < double.maxField ∧ frac' < 2 ^ double.fracBits ∧
      double.value field' frac' = single.value field frac := by
  have hs : single.bias = 127 ∧ single.fracBits = 23 ∧ single.maxField = 255 := ⟨rfl, rfl, rfl⟩
  have hd : double.bias = 1023 ∧ double.fracBits = 52 ∧ double.maxField = 2047 := ⟨rfl, rfl, rfl⟩
  rw [hs.2.2] at hfield
  rw [hs.2.1] at hfrac
  simp only [value, hs.1, hs.2.1, hd.1, hd.2.1, hd.2.2]
  by_cases hz : field = 0
  · by_cases hf0 : frac = 0
    · exact ⟨0, 0, by decide, by decide, by simp [hz, hf0]⟩
    · have hL := (Nat.log2_lt hf0).2 hfrac
      have hL₁ := Nat.log2_self_le hf0
      have hL₂ := @Nat.lt_log2_self frac
      have hshift : 2 ^ (Nat.log2 frac + 1) * 2 ^ (52 - Nat.log2 frac) = 2 ^ 53 := by
        rw [← Nat.pow_add]; congr 1; omega
      have hlow : 2 ^ Nat.log2 frac * 2 ^ (52 - Nat.log2 frac) = 2 ^ 52 := by
        rw [← Nat.pow_add]; congr 1; omega
      have hup : frac * 2 ^ (52 - Nat.log2 frac) < 2 ^ 53 :=
        hshift ▸ Nat.mul_lt_mul_of_pos_right hL₂ (Nat.two_pow_pos _)
      have hdown : 2 ^ 52 ≤ frac * 2 ^ (52 - Nat.log2 frac) :=
        hlow ▸ Nat.mul_le_mul_right _ hL₁
      refine ⟨Nat.log2 frac + 874, frac * 2 ^ (52 - Nat.log2 frac) - 2 ^ 52, by omega, by omega, ?_⟩
      rw [if_neg (by omega), if_pos hz, Nat.sub_add_cancel hdown, cast_mul_two_pow_zpow]
      exact congrArg (fun k : Int => (frac : ℚ) * 2 ^ k) (by omega)
  · refine ⟨field + 896, frac * 2 ^ 29, by omega, by omega, ?_⟩
    rw [if_neg (by omega), if_neg hz, show frac * 2 ^ 29 + 2 ^ 52 = (frac + 2 ^ 23) * 2 ^ 29 by omega,
      cast_mul_two_pow_zpow]
    exact congrArg (fun k : Int => ((frac + 2 ^ 23 : Nat) : ℚ) * 2 ^ k) (by omega)

/-- A double pattern built from parts in range is its own 64-bit word. -/
theorem toNat_toUInt64_pack (s : Bool) {fld frc : Nat} (hfld : fld < double.maxField)
    (hfrc : frc < 2 ^ double.fracBits) :
    (double.pack s fld frc).toUInt64.toNat = double.pack s fld frc :=
  UInt64.toNat_ofNat_of_lt' (pack_lt s hfld hfrc)

end BinaryFormat

namespace Binary64

open BinaryFormat

/-- A finite double narrows to the single nearest its value. -/
theorem narrow_of_unpack {y : Binary64} {neg : Bool} {m : Nat} {e : Int}
    (h : y.unpack = .finite neg m e) :
    y.narrow = ⟨(single.round neg (m * (pow2Frac e).1) (pow2Frac e).2).toUInt32⟩ := by
  unfold narrow
  rw [h]

end Binary64

namespace Binary32

open BinaryFormat

/-- The field of a finite single is below the field of infinities and NaNs. -/
theorem expField_lt_of_finite {x : Binary32} (hn : x.isNaN = false) (hi : x.isInfinite = false) :
    single.expField x.bits.toNat < single.maxField := by
  have hlt : single.expField x.bits.toNat < 2 ^ single.expBits := Nat.mod_lt _ (Nat.two_pow_pos _)
  refine Nat.lt_of_le_of_ne (by simpa [maxField] using Nat.le_sub_one_of_lt hlt) fun heq => ?_
  -- a pattern with the full field is an infinity or a NaN
  simp only [isNaN, isInfinite, unpack, BinaryFormat.unpack, Nat.pow_eq] at hn hi
  rw [expField] at heq
  rw [if_pos heq] at hn hi
  by_cases hf : x.bits.toNat % 2 ^ single.fracBits = 0
  · simp [hf] at hi
  · simp [hf] at hn

/-- A single is the word of its own bit pattern. -/
theorem mk_toNat_toUInt32 (x : Binary32) : (⟨x.bits.toNat.toUInt32⟩ : Binary32) = x := by
  rw [Nat.toUInt32_eq, UInt32.ofNat_toNat]

/-- A finite single widens to the double nearest its value. -/
theorem widen_of_unpack {x : Binary32} {neg : Bool} {m : Nat} {e : Int}
    (h : x.unpack = .finite neg m e) :
    x.widen = ⟨(double.round neg (m * (pow2Frac e).1) (pow2Frac e).2).toUInt64⟩ := by
  unfold widen
  rw [h]

/-- A finite single widened to a double and narrowed back is the same single, bit for bit:
negative zero and subnormals included. -/
theorem narrow_widen {x : Binary32} (hn : x.isNaN = false) (hi : x.isInfinite = false) :
    x.widen.narrow = x := by
  have hbits : x.bits.toNat < 2 ^ (single.signBit + 1) := x.bits.toNat_lt
  have hfld := expField_lt_of_finite hn hi
  have hfrc : single.fraction x.bits.toNat < 2 ^ single.fracBits :=
    Nat.mod_lt _ (Nat.two_pow_pos _)
  obtain ⟨m, e, hu, hv⟩ := unpack_pack_value (single.isNeg x.bits.toNat) hfld hfrc
  rw [pack_parts hbits] at hu
  obtain ⟨fld, frc, hfld', hfrc', hval⟩ := exists_double_parts hfld hfrc
  -- the single widens to the double of the same magnitude
  have hw : x.widen = ⟨(double.pack (single.isNeg x.bits.toNat) fld frc).toUInt64⟩ := by
    rw [widen_of_unpack hu, round_mul_pow2Frac _ hfld' hfrc' (hv.trans hval.symm)]
  -- and the double narrows back to the single of that magnitude
  obtain ⟨m', e', hu', hv'⟩ := unpack_pack_value (single.isNeg x.bits.toNat) hfld' hfrc'
  have hu64 : (⟨(double.pack (single.isNeg x.bits.toNat) fld frc).toUInt64⟩ : Binary64).unpack =
      .finite (single.isNeg x.bits.toNat) m' e' := by
    rw [Binary64.unpack, toNat_toUInt64_pack _ hfld' hfrc', hu']
  rw [hw, Binary64.narrow_of_unpack hu64, round_mul_pow2Frac _ hfld hfrc (hv'.trans hval),
    pack_parts hbits, mk_toNat_toUInt32]

end Binary32

end SeriesIngest.Float
