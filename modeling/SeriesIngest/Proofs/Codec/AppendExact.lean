import SeriesIngest.Proofs.Codec.QualifierExact

/-!
# The append format is exact

An append column is read by a loop that frames each point by its own column name: the first byte
of the name tells the name's length (`Qualifier.headLen`), and the flags inside the name tell the
length of the value that follows. A point frames itself (`AppendPoint.Framed`) exactly when its
name reads back from its own bytes and its value has the length the name announces
(`AppendPoint.framed_iff`), and every name read from bytes is such a name
(`Qualifier.marked_of_decode`).

Both directions of the format hold. Points that frame themselves read back from their
concatenation as exactly those points; a column that reads back holds points that frame
themselves and write back as the column (`parseAppendFrom_eq_ok`). A column fails to read back
exactly at a point boundary where the bytes left hold no whole point (`AppendPoint.CutShort`),
and then with an invalid value (`parseAppendFrom_eq_error`, `parseAppendFrom_of_cutShort`). The
reader stops on all bytes by its own recursion: each point read shortens the bytes left.

Main statement: `parseAppend_exact`.
-/

namespace SeriesIngest

namespace Qualifier

/-- The length of the column name that starts with this byte: four bytes under the marker
nibble, else two. -/
def headLen (x : UInt8) : Nat := if x &&& 0xF0 == 0xF0 then 4 else 2

/-- Reading a column name fails exactly when the bytes end before the length their first byte
announces. -/
theorem decode_cons_eq_error_iff (x : UInt8) (r : Bytes) :
    (∃ e, decode (x :: r) = .error e) ↔ (x :: r).length < headLen x := by
  rcases r with _ | ⟨y, _ | ⟨z, _ | ⟨w, r⟩⟩⟩ <;>
    by_cases hx : (x &&& 0xF0 == 0xF0) = true <;> simp [decode, headLen, hx]

/-- Reading a column name fails only with an invalid value. -/
theorem invalidValue_of_decode {b : Bytes} {e : WriteError} (h : decode b = .error e) :
    ∃ f, e = .invalidValue f := by
  rcases b with _ | ⟨x, r⟩
  · exact ⟨_, (Except.error.inj h).symm⟩
  rcases r with _ | ⟨y, _ | ⟨z, _ | ⟨w, r⟩⟩⟩ <;>
    by_cases hx : (x &&& 0xF0 == 0xF0) = true <;> simp [decode, hx] at h <;> exact ⟨_, h.symm⟩

/-- A byte carries the marker nibble exactly when it is at least `0xF0`. -/
theorem marker_iff (x : UInt8) : (x &&& 0xF0 == 0xF0) = decide (240 ≤ x.toNat) := by
  simpa using marker_ofNat x.toNat x.toNat_lt

/-- Every column name read from bytes is marked: a two-byte name read from a first byte below
`0xF0` stays below `0xF000`, and a four-byte name keeps the marker nibble it was read under. -/
theorem marked_of_decode {b : Bytes} {q : Qualifier} (h : decode b = .ok q) : q.Marked := by
  rcases b with _ | ⟨x, _ | ⟨y, r⟩⟩
  · simp [decode] at h
  · simp [decode] at h
  have hx := marker_iff x
  by_cases hm : 240 ≤ x.toNat
  · rcases r with _ | ⟨z, _ | ⟨w, r'⟩⟩
    · simp [decode, hx, hm] at h
    · simp [decode, hx, hm] at h
    simp only [decode, hx, hm, decide_true, if_true, Except.ok.injEq] at h
    subst h
    have hlt : Bytes.toNatBE [x, y, z, w] < 4294967296 := by
      simpa using Bytes.toNatBE_lt [x, y, z, w]
    have hval := Bytes.toNatBE_cons x [y, z, w]
    have hrest := Bytes.toNatBE_lt [y, z, w]
    simp only [List.length_cons, List.length_nil] at hval hrest
    simp only [Marked, Nat.toUInt32_eq, UInt32.toNat_ofNat', Nat.mod_eq_of_lt hlt]
    omega
  · simp only [decode, hx, hm, decide_false, Bool.false_eq_true, if_false, Except.ok.injEq] at h
    subst h
    have hlt : Bytes.toNatBE [x, y] < 65536 := by simpa using Bytes.toNatBE_lt [x, y]
    have hval := Bytes.toNatBE_cons x [y]
    have hrest := Bytes.toNatBE_lt [y]
    simp only [List.length_cons, List.length_nil] at hval hrest
    simp only [Marked, Nat.toUInt16_eq, UInt16.toNat_ofNat', Nat.mod_eq_of_lt hlt]
    omega

/-- A column name is marked exactly when it reads back from its own bytes. -/
theorem marked_iff_decode_toBytes (q : Qualifier) : q.Marked ↔ decode q.toBytes = .ok q :=
  ⟨fun hq => by simpa using decode_toBytes_append hq [], marked_of_decode⟩

end Qualifier

namespace AppendPoint

/-- A point frames itself exactly when its column name reads back from its own bytes and its
value has the length the name's flags announce. -/
theorem framed_iff (p : AppendPoint) :
    p.Framed ↔ Qualifier.decode p.qualifier.toBytes = .ok p.qualifier ∧
      p.value.length = p.qualifier.valueLen := by
  rw [← Qualifier.marked_iff_decode_toBytes]
  exact ⟨fun h => ⟨h.marked, h.length⟩, fun h => ⟨h.1, h.2⟩⟩

/-- Bytes left at a point boundary that hold no whole point: they end before the column name
that their first byte starts, or before the value that the name's flags announce. -/
def CutShort (rest : Bytes) : Prop :=
  ∃ x r, rest = x :: r ∧ (rest.length < Qualifier.headLen x ∨
    ∃ q, Qualifier.decode rest = .ok q ∧ rest.length < q.len + q.valueLen)

end AppendPoint

/-! ### One point at the front of a column -/

/-- The point read from the front of a column frames itself, and its bytes followed by the bytes
after it are the column. -/
theorem framed_of_decode {c : Bytes} {q : Qualifier} (hd : Qualifier.decode c = .ok q)
    (hlong : q.valueLen ≤ (c.drop q.len).length) :
    (AppendPoint.mk q ((c.drop q.len).take q.valueLen)).Framed ∧
      (AppendPoint.mk q ((c.drop q.len).take q.valueLen)).toBytes ++
        (c.drop q.len).drop q.valueLen = c := by
  refine ⟨⟨Qualifier.marked_of_decode hd, by simpa using hlong⟩, ?_⟩
  rw [AppendPoint.toBytes, Qualifier.toBytes_of_decode hd, List.append_assoc,
    List.take_append_drop, List.take_append_drop]

/-- The bytes after the first point of a column are fewer than the column's: the reader's
recursion stops. -/
theorem length_after_point_lt (q : Qualifier) {c : Bytes} (hc : c ≠ []) :
    ((c.drop q.len).drop q.valueLen).length < c.length := by
  have := q.len_pos
  have := List.length_pos_iff.2 hc
  simp only [List.length_drop]
  omega

/-- A column that fails to read back fails at its first point in one of three ways: its column
name cannot be read, its value is cut short, or the points after it fail. -/
theorem parseAppendFrom_cons_error_inv {pos : Nat} {x : UInt8} {xs : Bytes} {e : WriteError}
    (h : parseAppendFrom pos (x :: xs) = .error e) :
    Qualifier.decode (x :: xs) = .error e ∨
    (∃ q, Qualifier.decode (x :: xs) = .ok q ∧ ((x :: xs).drop q.len).length < q.valueLen ∧
      ∃ f, e = .invalidValue f) ∨
    (∃ q, Qualifier.decode (x :: xs) = .ok q ∧ q.valueLen ≤ ((x :: xs).drop q.len).length ∧
      parseAppendFrom (pos + q.len + q.valueLen) (((x :: xs).drop q.len).drop q.valueLen) =
        .error e) := by
  rw [parseAppendFrom.eq_2] at h
  rcases hd : Qualifier.decode (x :: xs) with e' | q <;> rw [hd] at h
  · cases h
    exact .inl rfl
  · dsimp only at h
    split at h
    · next hshort =>
      cases h
      exact .inr (.inl ⟨q, rfl, hshort, _, rfl⟩)
    · next hlong =>
      split at h
      · next e' hrec =>
        cases h
        exact .inr (.inr ⟨q, rfl, Nat.le_of_not_lt hlong, hrec⟩)
      · cases h

/-! ### Both directions of the format -/

/-- A column that reads back holds points that frame themselves and write back as its bytes. -/
theorem parseAppendFrom_eq_ok {pos : Nat} {c : Bytes} {ps : List AppendPoint}
    (h : parseAppendFrom pos c = .ok ps) :
    (∀ p ∈ ps, p.Framed) ∧ ps.flatMap AppendPoint.toBytes = c := by
  -- on the length of the column, which each point read shortens
  induction hn : c.length using Nat.strong_induction_on generalizing c pos ps with
  | _ n ih =>
  cases c with
  | nil =>
    rw [parseAppendFrom.eq_1] at h
    cases h
    exact ⟨by simp, rfl⟩
  | cons x xs =>
    obtain ⟨q, ps', hd, hlong, hrec, rfl⟩ := parseAppendFrom_cons_inv h
    have hshort := hn ▸ length_after_point_lt q (List.cons_ne_nil x xs)
    obtain ⟨hps', hbytes⟩ := ih _ hshort hrec rfl
    obtain ⟨hp, hhead⟩ := framed_of_decode hd hlong
    refine ⟨List.forall_mem_cons.2 ⟨hp, hps'⟩, ?_⟩
    rw [List.flatMap_cons, hbytes, hhead]

/-- A column that fails to read back fails with an invalid value, at a point boundary: it is
points that frame themselves followed by bytes that hold no whole point. -/
theorem parseAppendFrom_eq_error {pos : Nat} {c : Bytes} {e : WriteError}
    (h : parseAppendFrom pos c = .error e) :
    (∃ f, e = .invalidValue f) ∧ ∃ (ps : List AppendPoint) (rest : Bytes),
      (∀ p ∈ ps, p.Framed) ∧ c = ps.flatMap AppendPoint.toBytes ++ rest ∧
        AppendPoint.CutShort rest := by
  induction hn : c.length using Nat.strong_induction_on generalizing c pos with
  | _ n ih =>
  cases c with
  | nil =>
    rw [parseAppendFrom.eq_1] at h
    cases h
  | cons x xs =>
    rcases parseAppendFrom_cons_error_inv h with hd | ⟨q, hd, hshort, hf⟩ | ⟨q, hd, hlong, hrec⟩
    · exact ⟨Qualifier.invalidValue_of_decode hd, [], x :: xs, by simp, rfl,
        x, xs, rfl, .inl ((Qualifier.decode_cons_eq_error_iff x xs).1 ⟨e, hd⟩)⟩
    · refine ⟨hf, [], x :: xs, by simp, rfl, x, xs, rfl, .inr ⟨q, hd, ?_⟩⟩
      simp only [List.length_drop] at hshort
      omega
    · have hshort := hn ▸ length_after_point_lt q (List.cons_ne_nil x xs)
      obtain ⟨hf, ps, rest, hps, hbytes, hcut⟩ := ih _ hshort hrec rfl
      obtain ⟨hp, hhead⟩ := framed_of_decode hd hlong
      refine ⟨hf, _ :: ps, rest, List.forall_mem_cons.2 ⟨hp, hps⟩, ?_, hcut⟩
      rw [List.flatMap_cons, List.append_assoc, ← hbytes, hhead]

/-- Bytes that hold no whole point fail to read, with an invalid value. -/
theorem parseAppendFrom_of_cutShort {rest : Bytes} (h : AppendPoint.CutShort rest) (pos : Nat) :
    ∃ f, parseAppendFrom pos rest = .error (.invalidValue f) := by
  obtain ⟨x, r, rfl, hname | ⟨q, hd, hvalue⟩⟩ := h
  · obtain ⟨e, he⟩ := (Qualifier.decode_cons_eq_error_iff x r).2 hname
    obtain ⟨f, rfl⟩ := Qualifier.invalidValue_of_decode he
    rw [parseAppendFrom.eq_2, he]
    exact ⟨f, rfl⟩
  · have hshort : ((x :: r).drop q.len).length < q.valueLen := by
      have hlen := (Qualifier.decode_append hd []).2
      simp only [List.length_drop]
      omega
    rw [parseAppendFrom.eq_2, hd]
    exact ⟨_, if_pos hshort⟩

/-- The append format is exact: points that frame themselves read back from their concatenation,
a column that reads back writes back as itself, and reading fails exactly inside a column name or
value. -/
theorem parseAppend_exact :
    (∀ ps : List AppendPoint, (∀ p ∈ ps, Qualifier.decode p.qualifier.toBytes = .ok p.qualifier ∧
        p.value.length = p.qualifier.valueLen) →
      parseAppend (ps.flatMap AppendPoint.toBytes) = .ok ps) ∧
    (∀ c ps, parseAppend c = .ok ps →
      (∀ p ∈ ps, p.Framed) ∧ ps.flatMap AppendPoint.toBytes = c) ∧
    (∀ c, (∃ e, parseAppend c = .error e) ↔ ∃ (ps : List AppendPoint) (rest : Bytes),
      (∀ p ∈ ps, p.Framed) ∧ c = ps.flatMap AppendPoint.toBytes ++ rest ∧
        AppendPoint.CutShort rest) ∧
    (∀ c e, parseAppend c = .error e → ∃ f, e = .invalidValue f) := by
  refine ⟨fun ps hps => parseAppendFrom_flatMap (fun p hp => (p.framed_iff).2 (hps p hp)) 0,
    fun c ps h => parseAppendFrom_eq_ok h, fun c => ⟨?_, ?_⟩,
    fun c e h => (parseAppendFrom_eq_error h).1⟩
  · rintro ⟨e, h⟩
    exact (parseAppendFrom_eq_error h).2
  · rintro ⟨ps, rest, hps, rfl, hcut⟩
    obtain ⟨f, hf⟩ := parseAppendFrom_of_cutShort hcut (0 + (ps.flatMap AppendPoint.toBytes).length)
    refine ⟨.invalidValue f, ?_⟩
    rw [parseAppend, parseAppendFrom_append (parseAppendFrom_flatMap hps 0), hf]
    rfl

end SeriesIngest
