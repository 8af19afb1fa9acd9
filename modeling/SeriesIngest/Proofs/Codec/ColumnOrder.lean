import SeriesIngest.Proofs.Codec.AppendExact
import SeriesIngest.Proofs.Store.KeyOrder

/-!
# Column order follows time order

A row lists its cells in the byte order of their column names, and a column name is the word of
its offset written big-endian. Big-endian bytes of one width order as the numbers they write
(`Bytes.ofNatBE_lt_ofNatBE`), and the offset sits above the flag bits of the word, under the
marker nibble of a four-byte name. So names of one resolution sort by their offsets whatever
their flags (`Qualifier.toBytes_lt_of_offsetMs_lt`), and a two-byte name sorts before a
four-byte one, whose first byte carries the marker (`Qualifier.toBytes_seconds_lt_millis`).

For names built against one base time, the offset is the timestamp's distance from it, so they
sort as their timestamps (`Qualifier.toBytes_lt_of_buildQualifier`); and a row that keeps its
cells in column order lists names of one resolution in time order
(`Qualifier.times_sorted_of_row`). Across resolutions that is not so: every name in seconds
sorts before every name in milliseconds, whatever the times.

Main statement: `Qualifier.columns_follow_time`.
-/

namespace SeriesIngest

namespace Bytes

/-- The bytes of a width see the number only below that width. -/
theorem ofNatBE_mod (w n : Nat) : ofNatBE w (n % 256 ^ w) = ofNatBE w n := by
  conv_rhs => rw [← Nat.mod_add_div n (256 ^ w), Nat.mul_comm]
  rw [ofNatBE_add_mul]

/-- Big-endian bytes of one width order as the numbers they write. -/
theorem ofNatBE_lt_ofNatBE {w n m : Nat} (hnm : n < m) (hm : m < 256 ^ w) :
    ofNatBE w n < ofNatBE w m := by
  induction w generalizing n m with
  | zero => simp at hm; omega
  | succ w ih =>
    -- the leading digits decide, unless they are equal and the rest decides
    have hpos : 0 < 256 ^ w := Nat.pow_pos (by decide)
    have hdm : m / 256 ^ w < 256 := Nat.div_lt_of_lt_mul (by rw [Nat.pow_succ] at hm; omega)
    have hdn : n / 256 ^ w ≤ m / 256 ^ w := Nat.div_le_div_right hnm.le
    simp only [ofNatBE, Nat.pow_eq]
    rcases Nat.lt_or_eq_of_le hdn with hlt | heq
    · apply List.Lex.rel
      have hdn' : n / 256 ^ w < 256 := by omega
      rw [UInt8.lt_iff_toNat_lt, UInt8.toNat_ofNat', UInt8.toNat_ofNat', Nat.mod_eq_of_lt hdn',
        Nat.mod_eq_of_lt hdn', Nat.mod_eq_of_lt hdm, Nat.mod_eq_of_lt hdm]
      exact hlt
    · rw [heq]
      apply List.Lex.cons
      rw [← ofNatBE_mod w n, ← ofNatBE_mod w m]
      refine ih ?_ (Nat.mod_lt _ hpos)
      have hn := Nat.mod_add_div n (256 ^ w)
      have hm' := Nat.mod_add_div m (256 ^ w)
      rw [heq] at hn
      omega

end Bytes

namespace Qualifier

/-! ### Names sort by resolution, then by offset -/

/-- The offset of a two-byte name is the word above its four flag bits, in seconds. -/
theorem offsetMs_seconds (r : UInt16) : (seconds r).offsetMs = r.toNat / 16 * 1000 := by
  simp [offsetMs, UInt16.toNat_shiftRight, Nat.shiftRight_eq_div_pow]

/-- The offset of a four-byte name is the 22 bits above its six low bits, in milliseconds. -/
theorem offsetMs_millis (r : UInt32) : (millis r).offsetMs = r.toNat / 64 % 4194304 := by
  simp only [offsetMs, UInt32.toNat_and, UInt32.toNat_shiftRight, Nat.shiftRight_eq_div_pow]
  rw [show (0x3FFFFF : UInt32).toNat = 2 ^ 22 - 1 by decide, Nat.and_two_pow_sub_one_eq_mod]
  rfl

/-- A name is built in the timestamp's resolution. -/
theorem isMillis_of_buildQualifier {ts : Int} {base : UInt32} {f : UInt16} {q : Qualifier}
    (h : buildQualifier ts base f = .ok q) : q.isMillis = Time.isMillis ts := by
  unfold buildQualifier at h
  split at h
  · next hms =>
    cases he : encodeMillisQualifier ts base f <;> rw [he] at h <;> cases h
    exact hms.symm
  · next hms =>
    cases he : encodeSecondsQualifier ts base f <;> rw [he] at h <;> cases h
    simp only [isMillis, Bool.not_eq_true] at hms ⊢
    exact hms.symm

/-- A marked two-byte name sorts before a marked four-byte name: its first byte is below `0xF0`,
the other's is not. -/
theorem toBytes_seconds_lt_millis {r : UInt16} {s : UInt32} (hr : (seconds r).Marked)
    (hs : (millis s).Marked) : (seconds r).toBytes < (millis s).toBytes := by
  simp only [toBytes, Bytes.ofNatBE, Nat.pow_eq]
  apply List.Lex.rel
  simp only [Marked] at hr hs
  have hsl := s.toNat_lt
  rw [UInt8.lt_iff_toNat_lt, UInt8.toNat_ofNat', UInt8.toNat_ofNat']
  simp only [Nat.reducePow]
  omega

/-- Marked names of one resolution sort by their offsets: the offset sits above the flags in
the word, under the marker nibble of a four-byte name. -/
theorem toBytes_lt_of_offsetMs_lt {q₁ q₂ : Qualifier} (h₁ : q₁.Marked) (h₂ : q₂.Marked)
    (hk : q₁.isMillis = q₂.isMillis) (h : q₁.offsetMs < q₂.offsetMs) :
    q₁.toBytes < q₂.toBytes := by
  cases q₁ with
  | seconds r =>
    cases q₂ with
    | seconds s =>
      rw [offsetMs_seconds, offsetMs_seconds] at h
      exact Bytes.ofNatBE_lt_ofNatBE (by omega) s.toNat_lt
    | millis s => cases hk
  | millis r =>
    cases q₂ with
    | seconds s => cases hk
    | millis s =>
      simp only [Marked] at h₁ h₂
      have hr := r.toNat_lt
      have hs := s.toNat_lt
      rw [offsetMs_millis, offsetMs_millis] at h
      exact Bytes.ofNatBE_lt_ofNatBE (by omega) s.toNat_lt

/-! ### Built names sort by time -/

/-- Names built against one base time for timestamps of one resolution sort as the timestamps,
whatever the flags. -/
theorem toBytes_lt_of_buildQualifier {t₁ t₂ : Int} (lo₁ : Number.int64Min ≤ t₁)
    (hi₁ : t₁ ≤ Number.int64Max) (lo₂ : Number.int64Min ≤ t₂) (hi₂ : t₂ ≤ Number.int64Max)
    {base : UInt32} {f₁ f₂ : UInt16} {q₁ q₂ : Qualifier} (hk : Time.isMillis t₁ = Time.isMillis t₂)
    (hlt : t₁ < t₂) (h₁ : buildQualifier t₁ base f₁ = .ok q₁)
    (h₂ : buildQualifier t₂ base f₂ = .ok q₂) : q₁.toBytes < q₂.toBytes := by
  have e₁ := (encodes_of_buildQualifier lo₁ hi₁ h₁).offsetMs
  have e₂ := (encodes_of_buildQualifier lo₂ hi₂ h₂).offsetMs
  refine toBytes_lt_of_offsetMs_lt (marked_of_buildQualifier h₁) (marked_of_buildQualifier h₂)
    (by rw [isMillis_of_buildQualifier h₁, isMillis_of_buildQualifier h₂, hk]) ?_
  -- both offsets are the timestamps' distances from the base time, in milliseconds
  simp only [offsetOf, ← hk] at e₁ e₂
  cases hm : Time.isMillis t₁ <;> simp only [hm, if_true, if_false, Bool.false_eq_true] at e₁ e₂ <;>
    omega

/-- Every built name in seconds sorts before every built name in milliseconds, whatever the base
times and the timestamps. -/
theorem toBytes_lt_of_seconds_of_millis {t₁ t₂ : Int} {b₁ b₂ : UInt32} {f₁ f₂ : UInt16}
    {q₁ q₂ : Qualifier} (hs : Time.isMillis t₁ = false) (hm : Time.isMillis t₂ = true)
    (h₁ : buildQualifier t₁ b₁ f₁ = .ok q₁) (h₂ : buildQualifier t₂ b₂ f₂ = .ok q₂) :
    q₁.toBytes < q₂.toBytes := by
  have k₁ := isMillis_of_buildQualifier h₁
  have k₂ := isMillis_of_buildQualifier h₂
  cases q₁ with
  | millis r => simp [isMillis, hs] at k₁
  | seconds r =>
    cases q₂ with
    | seconds s => simp [isMillis, hm] at k₂
    | millis s =>
      exact toBytes_seconds_lt_millis (marked_of_buildQualifier h₁) (marked_of_buildQualifier h₂)

/-- A row that keeps its cells in column order, whose columns are the names built against one
base time for timestamps of one resolution, lists the timestamps in order: a later timestamp
listed first would have the smaller name. -/
theorem times_sorted_of_row {r : Row} (hr : r.Sorted) {base : UInt32} {m : Bool}
    {cells : List (Int × Qualifier)}
    (hcells : ∀ c ∈ cells, Number.int64Min ≤ c.1 ∧ c.1 ≤ Number.int64Max ∧
      Time.isMillis c.1 = m ∧ ∃ f, buildQualifier c.1 base f = .ok c.2)
    (hcols : r.map Prod.fst = cells.map fun c => c.2.toBytes) :
    (cells.map Prod.fst).Pairwise (· ≤ ·) := by
  have hbytes : (cells.map fun c => c.2.toBytes).Pairwise (· < ·) := by
    rw [← hcols, List.pairwise_map]
    exact hr
  rw [List.pairwise_map] at hbytes ⊢
  refine hbytes.imp_of_mem fun {c₁ c₂} h₁ h₂ hlt => ?_
  obtain ⟨lo₁, hi₁, hm₁, f₁, hb₁⟩ := hcells c₁ h₁
  obtain ⟨lo₂, hi₂, hm₂, f₂, hb₂⟩ := hcells c₂ h₂
  by_contra hgt
  exact List.lt_asymm hlt
    (toBytes_lt_of_buildQualifier lo₂ hi₂ lo₁ hi₁ (hm₂.trans hm₁.symm) (by omega) hb₂ hb₁)

/-- Column names of one resolution sort as their timestamps and seconds sort before milliseconds, so
a store kept in key order lists such a row's cells in time order. -/
theorem columns_follow_time (base : UInt32) :
    (∀ (t₁ t₂ : Int) (f₁ f₂ : UInt16) (q₁ q₂ : Qualifier),
      Number.int64Min ≤ t₁ → t₁ ≤ Number.int64Max → Number.int64Min ≤ t₂ → t₂ ≤ Number.int64Max →
      Time.isMillis t₁ = Time.isMillis t₂ → t₁ < t₂ →
      buildQualifier t₁ base f₁ = .ok q₁ → buildQualifier t₂ base f₂ = .ok q₂ →
      q₁.toBytes < q₂.toBytes) ∧
    (∀ (t₁ t₂ : Int) (b₁ b₂ : UInt32) (f₁ f₂ : UInt16) (q₁ q₂ : Qualifier),
      Time.isMillis t₁ = false → Time.isMillis t₂ = true →
      buildQualifier t₁ b₁ f₁ = .ok q₁ → buildQualifier t₂ b₂ f₂ = .ok q₂ →
      q₁.toBytes < q₂.toBytes) ∧
    (∀ (s s' : Store) (w : CellWrite), s.Sorted → s.put w = .ok s' → s'.Sorted) ∧
    (∀ (s : Store) (table key : Bytes) (r : Row), s.Sorted → s.row? table key = some r →
      ∀ (m : Bool) (cells : List (Int × Qualifier)),
        (∀ c ∈ cells, Number.int64Min ≤ c.1 ∧ c.1 ≤ Number.int64Max ∧
          Time.isMillis c.1 = m ∧ ∃ f, buildQualifier c.1 base f = .ok c.2) →
        r.map Prod.fst = cells.map (fun c => c.2.toBytes) →
        (cells.map Prod.fst).Pairwise (· ≤ ·)) :=
  ⟨fun _ _ _ _ _ _ lo₁ hi₁ lo₂ hi₂ hk hlt h₁ h₂ =>
      toBytes_lt_of_buildQualifier lo₁ hi₁ lo₂ hi₂ hk hlt h₁ h₂,
    fun _ _ _ _ _ _ _ _ hs hm h₁ h₂ => toBytes_lt_of_seconds_of_millis hs hm h₁ h₂,
    fun _ _ _ hs h => hs.put h,
    fun _ _ _ _ hs hr _ _ hcells hcols => times_sorted_of_row (hs.row? hr) hcells hcols⟩

end Qualifier

end SeriesIngest
