import SeriesIngest.Number.Signed

/-!
# Decimal integers read back

An integer is written as its decimal digits, after a `-` when it is negative. Read back, the
digits build the value from the left, one place up and one digit more at a time, and every value
on the way lies between zero and the value written: so the range checks of the reading never
fire on a signed 64-bit integer, and it reads back as itself (`parseInt64_toString`).
-/

namespace SeriesIngest.Number

/-- Reading digits onto a value never goes below it. -/
theorem le_ofDigitChars (l : List Char) (init : Nat) : init ≤ Nat.ofDigitChars 10 l init := by
  rw [Nat.ofDigitChars_eq_ofDigitChars_zero]
  exact Nat.le_add_right_of_le (Nat.le_mul_of_pos_left init (Nat.pow_pos (by decide)))

theorem digit_bounds {c : Char} (h : c.isDigit = true) :
    ('0' ≤ c ∧ c ≤ '9') ∧ 48 ≤ c.toNat ∧ c.toNat ≤ 57 := by
  have h' := h
  simp only [Char.isDigit, Bool.and_eq_true, decide_eq_true_eq] at h'
  exact ⟨⟨h'.1, h'.2⟩, Char.isDigit_iff_toNat.1 h⟩

/-- Digits read onto `a`, with the sign `neg`, give the value they continue it to when that value
is in range: every value on the way lies between `a` and it. -/
theorem readDigits_ofDigitChars (neg : Bool) {ds : List Char} (hds : ∀ c ∈ ds, c.isDigit = true)
    (a : Nat)
    (hlo : int64Min ≤ if neg then -(Nat.ofDigitChars 10 ds a : Int) else Nat.ofDigitChars 10 ds a)
    (hhi : (if neg then -(Nat.ofDigitChars 10 ds a : Int) else Nat.ofDigitChars 10 ds a) ≤
      int64Max) :
    readDigits neg (if neg then -(a : Int) else a) ds =
      .ok (if neg then -(Nat.ofDigitChars 10 ds a : Int) else Nat.ofDigitChars 10 ds a) := by
  induction ds generalizing a with
  | nil => simp [readDigits]
  | cons c ds ih =>
    simp only [List.mem_cons, forall_eq_or_imp] at hds
    obtain ⟨hc, h48, h57⟩ := digit_bounds hds.1
    rw [Nat.ofDigitChars_cons] at hlo hhi ⊢
    have hmono := le_ofDigitChars ds (10 * a + (c.toNat - '0'.toNat))
    have hzero : '0'.toNat = 48 := rfl
    rw [readDigits, if_pos hc]
    -- the next value is the value so far one place up, and the digit, with the sign
    have hnext : (if neg then (if neg then -(a : Int) else a) * 10 -
          ((c.toNat : Int) - ('0'.toNat : Int))
        else (if neg then -(a : Int) else a) * 10 + ((c.toNat : Int) - ('0'.toNat : Int))) =
        if neg then -((10 * a + (c.toNat - '0'.toNat) : Nat) : Int)
        else ((10 * a + (c.toNat - '0'.toNat) : Nat) : Int) := by
      cases neg <;> simp only [hzero] <;> push_cast <;> omega
    simp only []
    rw [hnext]
    have hmin : int64Min ≤ 0 := by decide
    have hmax : 0 ≤ int64Max := by decide
    rw [if_neg (by cases neg <;> simp at hhi hmono ⊢ <;> omega),
      if_neg (by cases neg <;> simp at hlo hmono ⊢ <;> omega)]
    exact ih hds.2 _ hlo hhi

/-- The text of an integer: a `-` when it is negative, then the digits of its magnitude. -/
theorem toList_toString (n : Int) :
    (toString n).toList = (if n < 0 then ['-'] else []) ++ Nat.toDigits 10 n.natAbs := by
  rw [Int.toString_eq_repr, Int.repr_eq_if]
  by_cases h : 0 ≤ n
  · rw [if_pos h, if_neg (by omega), Nat.toList_repr, List.nil_append]
    congr
    omega
  · rw [if_neg h, if_pos (by omega), String.toList_append, Nat.toList_repr]
    congr
    omega

/-- Every character of an integer's text is `-` or a digit. -/
theorem mem_toString {n : Int} {c : Char} (h : c ∈ (toString n).toList) :
    c = '-' ∨ c.isDigit = true := by
  rw [toList_toString, List.mem_append] at h
  rcases h with h | h
  · split at h
    · exact .inl (List.mem_singleton.1 h)
    · exact absurd h List.not_mem_nil
  · exact .inr (Nat.isDigit_of_mem_toDigits (by decide) (by decide) h)

theorem toString_ne_empty (n : Int) : toString n ≠ "" := by
  intro h
  have h' := congrArg String.toList h
  rw [toList_toString] at h'
  exact Nat.toDigits_ne_nil (List.append_eq_nil_iff.1 h').2

/-- A text that starts with a digit reads as unsigned digits. -/
theorem parseInt64_digits {s : String} {d : Char} {ds : List Char} (h : s.toList = d :: ds)
    (hd : d.isDigit = true) : parseInt64 s = readDigits false 0 (d :: ds) := by
  unfold parseInt64
  rw [h]
  -- a digit is no sign, so only the last pattern matches
  have hp : d ≠ '+' := by
    rintro rfl
    exact absurd hd (by decide)
  have hm : d ≠ '-' := by
    rintro rfl
    exact absurd hd (by decide)
  split <;> simp_all

/-- A signed 64-bit integer written in decimal reads back as itself. -/
theorem parseInt64_toString {n : Int} (lo : int64Min ≤ n) (hi : n ≤ int64Max) :
    parseInt64 (toString n) = .ok n := by
  obtain ⟨d, ds, hdigits⟩ :=
    List.exists_cons_of_ne_nil (Nat.toDigits_ne_nil (n := n.natAbs) (b := 10))
  have hall : ∀ c ∈ d :: ds, c.isDigit = true := fun c hc =>
    Nat.isDigit_of_mem_toDigits (by decide) (by decide) (hdigits ▸ hc)
  have hval : Nat.ofDigitChars 10 (d :: ds) 0 = n.natAbs := hdigits ▸ Nat.ofDigitChars_ten_toDigits
  by_cases hn : n < 0
  · have hs : (toString n).toList = '-' :: d :: ds := by
      rw [toList_toString, if_pos hn, hdigits]
      rfl
    have hread := readDigits_ofDigitChars true hall 0
    simp only [if_true, hval, Int.natCast_zero, Int.neg_zero] at hread
    rw [parseInt64, hs]
    show readDigits true 0 (d :: ds) = _
    rw [hread (by omega) (by omega)]
    congr 1
    omega
  · have hs : (toString n).toList = d :: ds := by
      rw [toList_toString, if_neg hn, hdigits]
      rfl
    have hread := readDigits_ofDigitChars false hall 0
    simp only [Bool.false_eq_true, if_false, hval, Int.natCast_zero] at hread
    rw [parseInt64_digits hs (hall d (List.mem_cons_self ..)), hread (by omega) (by omega)]
    congr 1
    omega

example : parseInt64 (toString (-9223372036854775808 : Int)) = .ok (-9223372036854775808) := by
  rfl

end SeriesIngest.Number
