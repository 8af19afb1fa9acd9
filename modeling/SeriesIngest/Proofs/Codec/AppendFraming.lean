import SeriesIngest.Proofs.Codec.Samples
import SeriesIngest.Codec.Append

/-!
# Append columns read back

An append column is a run of points, each its column name followed by its value bytes, with
nothing between them: reading it back relies on every point framing itself. The first byte of a
column name tells the name's length (`Qualifier.Marked`), and the flags inside the name tell the
length of the value that follows (`AppendPoint.Framed`). Every point the write path builds
frames itself (`framed_of_encodeValue`). So bytes appended after a column that reads back are
read after it (`parseAppendFrom_append`), and points that frame themselves read back as
exactly those points (`parseAppendFrom_flatMap`).

Main statement: `parseAppend_append_flatMap`.
-/

namespace SeriesIngest

namespace Qualifier

/-- A column name whose first byte tells its length: a two-byte name stays below `0xF000`, and a
four-byte name has the upper four bits of its first byte set. -/
def Marked : Qualifier → Prop
  | .seconds raw => raw.toNat < 0xF000
  | .millis raw => 0xF0000000 ≤ raw.toNat

/-- A byte has its upper four bits set exactly when it is at least `0xF0`. -/
theorem marker_ofNat : ∀ n, n < 256 → (UInt8.ofNat n &&& 0xF0 == 0xF0) = decide (240 ≤ n) := by
  decide +kernel

theorem len_pos (q : Qualifier) : 0 < q.len := by
  cases q <;> simp [len]

theorem length_toBytes (q : Qualifier) : q.toBytes.length = q.len := by
  cases q <;> simp [toBytes, len]

/-- A marked column name reads back from the front of any bytes that start with it. -/
theorem decode_toBytes_append {q : Qualifier} (hq : q.Marked) (rest : Bytes) :
    decode (q.toBytes ++ rest) = .ok q := by
  cases q with
  | seconds raw =>
    have hv := Bytes.toNatBE_ofNatBE 2 raw.toNat
    have hm := marker_ofNat (raw.toNat / 256 % 256) (Nat.mod_lt _ (by decide))
    have hlt : ¬ 240 ≤ raw.toNat / 256 % 256 := by simp only [Marked] at hq; omega
    simp [Bytes.ofNatBE, Nat.pow_eq] at hv
    simp [toBytes, Bytes.ofNatBE, decode, hm, hlt, hv]
  | millis raw =>
    have hv := Bytes.toNatBE_ofNatBE 4 raw.toNat
    have hm := marker_ofNat (raw.toNat / 16777216 % 256) (Nat.mod_lt _ (by decide))
    have hr := raw.toNat_lt
    have hle : 240 ≤ raw.toNat / 16777216 % 256 := by simp only [Marked] at hq; omega
    simp [Bytes.ofNatBE, Nat.pow_eq] at hv
    simp [toBytes, Bytes.ofNatBE, decode, hm, hle, hv]

/-- A column name read from the front of some bytes is read alike whatever follows them, and
takes no more bytes than there are. -/
theorem decode_append {b : Bytes} {q : Qualifier} (h : decode b = .ok q) (rest : Bytes) :
    decode (b ++ rest) = .ok q ∧ q.len ≤ b.length := by
  match b with
  | [] => simp [decode] at h
  | [x] => simp [decode] at h
  | x :: y :: r =>
    by_cases hx : (x &&& 0xF0 == 0xF0) = true
    · match r with
      | [] => simp [decode, hx] at h
      | [z] => simp [decode, hx] at h
      | z :: w :: r' =>
        simp only [decode, hx, if_true, List.cons_append, Except.ok.injEq] at h ⊢
        subst h
        simp [len]
    · simp only [decode, hx, Bool.false_eq_true, if_false, List.cons_append, Except.ok.injEq] at h ⊢
      subst h
      simp [len]

/-- Every column name the write path builds is marked: a second offset is at most 3839, so its
word stays below `0xF000`, and a millisecond word carries the marker nibble. -/
theorem marked_of_buildQualifier {ts : Int} {base : UInt32} {f : UInt16} {q : Qualifier}
    (h : buildQualifier ts base f = .ok q) : q.Marked := by
  unfold buildQualifier encodeMillisQualifier encodeSecondsQualifier checkDelta at h
  split at h
  · generalize Number.wrap64 (ts - base.toNat * 1000) = d at h
    by_cases hd : d < 0 ∨ d > maxMillisDelta
    · simp [hd, Except.map] at h
    · simp only [hd, if_false, Except.map] at h
      cases h
      simp only [Marked, UInt32.toNat_or]
      exact le_trans (by decide) (Nat.left_le_or.trans Nat.left_le_or)
  · generalize Number.wrap64 (ts - base.toNat) = d at h
    by_cases hd : d < 0 ∨ d > maxSecondDelta
    · simp [hd, Except.map] at h
    · simp only [hd, if_false, Except.map] at h
      cases h
      unfold maxSecondDelta at hd
      -- the offset comes back out of the word, so the word is below `3840 * 16`
      have hoff := seconds_word_offset d.toNat (by omega) f
      have h4 : (4 : UInt16).toNat % 16 = 4 := by decide
      simp only [UInt16.toNat_shiftRight, Nat.shiftRight_eq_div_pow, h4] at hoff
      simp only [Marked]
      omega

end Qualifier

/-- Masking the flags keeps the byte count they announce. -/
theorem valueLen_mask (f : UInt16) : valueLen (f &&& flagsMask) = valueLen f := by
  simp only [valueLen, flagsMask, lengthMask, UInt16.and_assoc]
  rfl

/-- A stored value has as many bytes as its flags announce. -/
theorem length_of_encodeValue {value : DataValue} {ev : EncodedValue}
    (h : encodeValue value = .ok ev) : ev.bytes.length = valueLen ev.flags := by
  cases value with
  | integer v =>
    cases h
    unfold encodeLong integerWidth
    split_ifs <;> simp [Bytes.ofIntBE, valueLen, lengthMask]
  | float x =>
    simp only [encodeValue, encodeFloat] at h
    split at h
    · cases h
    · cases h
      simp [valueLen, lengthMask, floatFlag]

namespace AppendPoint

/-- A point that frames itself: its column name is marked, and its value has the length the
name's flags announce. -/
structure Framed (p : AppendPoint) : Prop where
  marked : p.qualifier.Marked
  length : p.value.length = p.qualifier.valueLen

end AppendPoint

/-- A point built from a stored value and a column name built for its flags frames itself. -/
theorem framed_of_encodeValue {value : DataValue} {ev : EncodedValue} {ts : Int} {base : UInt32}
    {q : Qualifier} (hev : encodeValue value = .ok ev) (hq : buildQualifier ts base ev.flags = .ok q) :
    (AppendPoint.mk q ev.bytes).Framed := by
  refine ⟨Qualifier.marked_of_buildQualifier hq, ?_⟩
  rw [length_of_encodeValue hev, Qualifier.valueLen, Qualifier.flags_of_buildQualifier hq,
    valueLen_mask]

/-- A column that starts with a column name and the value bytes it announces reads as that
point, then as the rest. -/
theorem parseAppendFrom_of_decode {pos : Nat} {b : Bytes} {q : Qualifier}
    (hd : Qualifier.decode b = .ok q) (hlong : q.valueLen ≤ (b.drop q.len).length) :
    parseAppendFrom pos b = (parseAppendFrom (pos + q.len + q.valueLen)
      ((b.drop q.len).drop q.valueLen)).map (⟨q, (b.drop q.len).take q.valueLen⟩ :: ·) := by
  cases b with
  | nil => simp [Qualifier.decode] at hd
  | cons x xs =>
    rw [parseAppendFrom.eq_2, hd]
    simp only [Nat.not_lt.2 hlong, if_false]
    cases parseAppendFrom (pos + q.len + q.valueLen) ((List.drop q.len (x :: xs)).drop q.valueLen) <;>
      rfl

/-- A column that reads back starts with a column name and the value bytes it announces. -/
theorem parseAppendFrom_cons_inv {pos : Nat} {x : UInt8} {xs : Bytes} {ps : List AppendPoint}
    (h : parseAppendFrom pos (x :: xs) = .ok ps) :
    ∃ q ps', Qualifier.decode (x :: xs) = .ok q ∧ q.valueLen ≤ ((x :: xs).drop q.len).length ∧
      parseAppendFrom (pos + q.len + q.valueLen) (((x :: xs).drop q.len).drop q.valueLen) =
        .ok ps' ∧
      ps = ⟨q, ((x :: xs).drop q.len).take q.valueLen⟩ :: ps' := by
  rw [parseAppendFrom.eq_2] at h
  rcases hd : Qualifier.decode (x :: xs) with e | q <;> rw [hd] at h
  · cases h
  · dsimp only at h
    split at h
    · cases h
    · next hlong =>
      split at h
      · cases h
      · next ps' hrec =>
        cases h
        exact ⟨q, ps', rfl, Nat.le_of_not_lt hlong, hrec, rfl⟩

/-- Bytes appended after a column that reads back are read after its points: every point of the
column ends where its own name says, whatever follows. -/
theorem parseAppendFrom_append {pos : Nat} {a : Bytes} {ps : List AppendPoint}
    (h : parseAppendFrom pos a = .ok ps) (b : Bytes) :
    parseAppendFrom pos (a ++ b) = (parseAppendFrom (pos + a.length) b).map (ps ++ ·) := by
  -- on the length of the column, which each point read shortens
  induction hn : a.length using Nat.strong_induction_on generalizing a pos ps with
  | _ n ih =>
  cases a with
  | nil =>
    rw [parseAppendFrom.eq_1] at h
    cases h
    rw [List.length_nil] at hn
    subst hn
    simp only [List.nil_append, Nat.add_zero]
    cases parseAppendFrom pos b <;> rfl
  | cons x xs =>
    obtain ⟨q, ps', hd, hlong, hrec, rfl⟩ := parseAppendFrom_cons_inv h
    obtain ⟨hd', hlen⟩ := Qualifier.decode_append hd b
    have hdrop : (x :: xs ++ b).drop q.len = (x :: xs).drop q.len ++ b :=
      List.drop_append_of_le_length hlen
    have hshort : (((x :: xs).drop q.len).drop q.valueLen).length < n := by
      have := q.len_pos
      simp only [List.length_drop] at hlong ⊢
      omega
    have hpos : pos + q.len + q.valueLen + (((x :: xs).drop q.len).drop q.valueLen).length =
        pos + n := by
      simp only [List.length_drop] at hlong ⊢
      omega
    rw [parseAppendFrom_of_decode hd' (by rw [hdrop, List.length_append]; omega), hdrop,
      List.drop_append_of_le_length hlong, List.take_append_of_le_length hlong,
      ih _ hshort hrec rfl, hpos]
    cases parseAppendFrom (pos + n) b <;> rfl

/-- A point that frames itself reads back on its own. -/
theorem parseAppendFrom_toBytes {p : AppendPoint} (hp : p.Framed) (pos : Nat) :
    parseAppendFrom pos p.toBytes = .ok [p] := by
  have hd := Qualifier.decode_toBytes_append hp.marked p.value
  have hdrop : (p.qualifier.toBytes ++ p.value).drop p.qualifier.len = p.value := by
    rw [← p.qualifier.length_toBytes, List.drop_left]
  rw [AppendPoint.toBytes, parseAppendFrom_of_decode hd (by rw [hdrop, hp.length]), hdrop,
    ← hp.length, List.drop_length, List.take_length, parseAppendFrom.eq_1]
  rfl

/-- Points that frame themselves, written one after another, read back as exactly those
points. -/
theorem parseAppendFrom_flatMap {ps : List AppendPoint} (hps : ∀ p ∈ ps, p.Framed) (pos : Nat) :
    parseAppendFrom pos (ps.flatMap AppendPoint.toBytes) = .ok ps := by
  induction ps generalizing pos with
  | nil => exact parseAppendFrom.eq_1 pos
  | cons p ps ih =>
    rw [List.flatMap_cons, parseAppendFrom_append (parseAppendFrom_toBytes (hps p (.head _)) pos),
      ih (fun p hp => hps p (.tail _ hp))]
    rfl

/-- Points that frame themselves, appended to a column that reads back, are read back after its
points, in the order they were appended. -/
theorem parseAppend_append_flatMap {a : Bytes} {ps qs : List AppendPoint}
    (h : parseAppend a = .ok ps) (hqs : ∀ p ∈ qs, p.Framed) :
    parseAppend (a ++ qs.flatMap AppendPoint.toBytes) = .ok (ps ++ qs) := by
  rw [parseAppend, parseAppendFrom_append h, parseAppendFrom_flatMap hqs]
  rfl

end SeriesIngest
