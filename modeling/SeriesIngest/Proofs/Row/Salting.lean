import SeriesIngest.Proofs.Row.Frame

/-!
# Salting is stable and exact

A bucket salter of `w` bytes hashes the metric id and the tag ids of a row and writes the bucket,
the hash modulo the bucket count, big-endian over the first `w` bytes of the row. On its own it
salts every row that reaches the tag ids when it has a bucket and at most eight salt bytes. A
wider salt would be cut out of the eight bytes of the bucket number, and the salter stops
(`Salter.salt_nine_bytes`).

Where it salts, it rewrites the salt bytes only and salting again changes nothing; the bucket is
below the bucket count and reads the metric id and the tag ids only, never the salt or the base
time. The salt reads back as the bucket exactly when the bucket is below `256 ^ w`, which holds
of every row when there are at most `256 ^ min w 4` buckets: the bound usable settings keep,
along with a salt of at most eight bytes (`Config.salt_of_validate`).

Main statement: `Salter.salt_stable_exact`.
-/

namespace SeriesIngest

namespace Salter

variable {w m : Nat} {b : UInt32} {hashFn : Bytes → UInt64} {row : Bytes}

/-- A bucket salter reads the bucket of every row that reaches the tag ids, when it has a
bucket. -/
theorem bucket?_eq_ok (hb : 1 ≤ b.toNat) (hrow : w + m + RowLayout.timestampBytes ≤ row.length) :
    bucket? w b m hashFn row = .ok (bucketOf w b m hashFn row) := by
  have hb0 : b ≠ 0 := fun h => by simp [h] at hb
  rw [bucket?, if_neg (by omega), if_neg (by omega), if_neg hb0]

theorem bucketOf_lt (hb : 1 ≤ b.toNat) (row : Bytes) : bucketOf w b m hashFn row < b.toNat :=
  Nat.mod_lt _ hb

/-- The bucket reads the metric id and the tag ids only: the salt and the base time do not
count. -/
theorem bucketOf_fields {row' : Bytes} (hmetric : (row'.drop w).take m = (row.drop w).take m)
    (htags : row'.drop (w + m + RowLayout.timestampBytes) =
      row.drop (w + m + RowLayout.timestampBytes)) :
    bucketOf w b m hashFn row' = bucketOf w b m hashFn row := by
  simp only [bucketOf, hmetric, htags]

/-- A salter of one to eight bytes with a bucket salts every row that reaches the tag ids. -/
theorem salt_bucket_eq_ok (hw : 1 ≤ w) (hw8 : w ≤ 8) (hb : 1 ≤ b.toNat)
    (hrow : w + m + RowLayout.timestampBytes ≤ row.length) :
    (Salter.bucket w b m hashFn).salt row = .ok ((Salter.bucket w b m hashFn).apply row) := by
  rw [salt, if_neg (by omega), bucket?_eq_ok hb hrow]
  exact if_neg (by omega)

/-- A salter of nine bytes stops, even on a row that reaches the tag ids. -/
theorem salt_nine_bytes :
    (Salter.bucket 9 20 3 (Hash.xxHash64 0)).salt
      [0, 0, 0, 0, 0, 0, 0, 0, 0, 0, 0, 1, 0, 0, 0, 0, 0, 0, 1, 0, 0, 1] =
      .error (.tooWide 9) := by
  rw [salt, if_neg (by decide), bucket?_eq_ok (by decide) (by decide)]
  rfl

/-- The salt a bucket salter writes is the bucket, big-endian in the salt's bytes. -/
theorem take_apply (hw : 1 ≤ w) (row : Bytes) :
    ((Salter.bucket w b m hashFn).apply row).take w = Bytes.ofNatBE w (bucketOf w b m hashFn row) := by
  rw [apply, if_neg (by omega)]
  exact List.take_left' (Bytes.length_ofNatBE _ _)

/-- The salt reads back as the bucket exactly when the bucket is below `256 ^ w`. -/
theorem toNatBE_take_apply_eq_iff (hw : 1 ≤ w) (row : Bytes) :
    Bytes.toNatBE (((Salter.bucket w b m hashFn).apply row).take w) = bucketOf w b m hashFn row ↔
      bucketOf w b m hashFn row < 256 ^ w := by
  rw [take_apply hw, Bytes.toNatBE_ofNatBE]
  exact Nat.mod_eq_iff_lt (by positivity)

/-- With at most `256 ^ min w 4` buckets every bucket is below `256 ^ w`. -/
theorem bucketOf_lt_pow (hb : 1 ≤ b.toNat) (hfit : b.toNat ≤ 256 ^ min w 4) (row : Bytes) :
    bucketOf w b m hashFn row < 256 ^ w :=
  calc bucketOf w b m hashFn row
      < b.toNat := bucketOf_lt hb row
    _ ≤ 256 ^ min w 4 := hfit
    _ ≤ 256 ^ w := Nat.pow_le_pow_right (by decide) (Nat.min_le_left w 4)

end Salter

/-- Usable settings with a salt ask for at most eight salt bytes and for one bucket up to
`256 ^ min w 4` buckets, `w` being the salt's width. -/
theorem Config.salt_of_validate {c : Config} (h : c.validate = .ok ()) (hw : 0 < c.saltWidth) :
    c.saltWidth ≤ 8 ∧ 1 ≤ c.saltBuckets.toNat ∧ c.saltBuckets.toNat ≤ 256 ^ min c.saltWidth 4 := by
  have hz : c.saltBuckets = 0 ↔ c.saltBuckets.toNat = 0 := by
    rw [← UInt32.toNat_inj]
    rfl
  have hpow : Nat.pow 2 (8 * min c.saltWidth 4) = 256 ^ min c.saltWidth 4 := by
    rw [Nat.pow_eq, Nat.pow_mul]
  unfold Config.validate Config.checkWidth at h
  simp only [bind, Except.bind, throw, throwThe, MonadExceptOf.throw, pure, Except.pure, hz,
    hpow] at h
  -- the failing checks are refuted by `h`; what passed them has the salt bounds
  split_ifs at h
  omega

namespace Salter

/-- A bucket salter of one to eight bytes rewrites only the salt, idempotently, with a bucket read
off the ids alone; the salt reads back as the bucket exactly when it fits its width. -/
theorem salt_stable_exact (hw : 1 ≤ w) (hw8 : w ≤ 8) (hb : 1 ≤ b.toNat)
    (hrow : w + m + RowLayout.timestampBytes ≤ row.length) :
    ∃ k salted, bucket? w b m hashFn row = .ok k ∧ (Salter.bucket w b m hashFn).salt row = .ok salted ∧
      salted.length = row.length ∧ salted.drop w = row.drop w ∧
      (Salter.bucket w b m hashFn).salt salted = .ok salted ∧
      k < b.toNat ∧
      (∀ row' : Bytes, w + m + RowLayout.timestampBytes ≤ row'.length →
        (row'.drop w).take m = (row.drop w).take m →
        row'.drop (w + m + RowLayout.timestampBytes) =
          row.drop (w + m + RowLayout.timestampBytes) →
        bucket? w b m hashFn row' = .ok k) ∧
      (Bytes.toNatBE (salted.take w) = k ↔ k < 256 ^ w) ∧
      (b.toNat ≤ 256 ^ min w 4 → Bytes.toNatBE (salted.take w) = k) ∧
      ∀ c : Config, c.validate = .ok () → 0 < c.saltWidth →
        c.saltWidth ≤ 8 ∧ 1 ≤ c.saltBuckets.toNat ∧ c.saltBuckets.toNat ≤ 256 ^ min c.saltWidth 4 := by
  have hwidth : (Salter.bucket w b m hashFn).width ≤ row.length := by
    simp only [width]
    omega
  have hlen := (Salter.bucket w b m hashFn).length_apply hwidth
  have hdrop := (Salter.bucket w b m hashFn).drop_apply hwidth
  refine ⟨_, _, bucket?_eq_ok hb hrow, salt_bucket_eq_ok hw hw8 hb hrow, hlen, hdrop, ?_,
    bucketOf_lt hb row, fun row' hrow' hmetric htags => ?_, toNatBE_take_apply_eq_iff hw row,
    fun hfit => (toNatBE_take_apply_eq_iff hw row).2 (bucketOf_lt_pow hb hfit row),
    fun c hc hcw => Config.salt_of_validate hc hcw⟩
  · rw [salt_bucket_eq_ok hw hw8 hb (hlen ▸ hrow), apply_apply]
  · rw [bucket?_eq_ok hb hrow', bucketOf_fields hmetric htags]

/-- A one-byte salter of twenty buckets, hashing with the seed-0 xxHash64, on a row with a
three-byte metric id and one tag. -/
theorem salt_stable_exact_one_byte :
    1 ≤ 1 ∧ 1 ≤ 8 ∧ 1 ≤ (20 : UInt32).toNat ∧
      1 + 3 + RowLayout.timestampBytes ≤ [0, 0, 0, 1, 0, 0, 0, 0, 0, 0, 1, 0, 0, 1].length ∧
      ∃ k salted, bucket? 1 20 3 (Hash.xxHash64 0) [0, 0, 0, 1, 0, 0, 0, 0, 0, 0, 1, 0, 0, 1] = .ok k ∧
        (Salter.bucket 1 20 3 (Hash.xxHash64 0)).salt [0, 0, 0, 1, 0, 0, 0, 0, 0, 0, 1, 0, 0, 1] =
          .ok salted ∧
        salted.length = [0, 0, 0, 1, 0, 0, 0, 0, 0, 0, 1, 0, 0, 1].length ∧
        salted.drop 1 = [0, 0, 0, 1, 0, 0, 0, 0, 0, 0, 1, 0, 0, 1].drop 1 ∧
        (Salter.bucket 1 20 3 (Hash.xxHash64 0)).salt salted = .ok salted ∧
        k < (20 : UInt32).toNat ∧
        (∀ row' : Bytes, 1 + 3 + RowLayout.timestampBytes ≤ row'.length →
          (row'.drop 1).take 3 = ([0, 0, 0, 1, 0, 0, 0, 0, 0, 0, 1, 0, 0, 1].drop 1).take 3 →
          row'.drop (1 + 3 + RowLayout.timestampBytes) =
            [0, 0, 0, 1, 0, 0, 0, 0, 0, 0, 1, 0, 0, 1].drop (1 + 3 + RowLayout.timestampBytes) →
          bucket? 1 20 3 (Hash.xxHash64 0) row' = .ok k) ∧
        (Bytes.toNatBE (salted.take 1) = k ↔ k < 256 ^ 1) ∧
        ((20 : UInt32).toNat ≤ 256 ^ min 1 4 → Bytes.toNatBE (salted.take 1) = k) ∧
        ∀ c : Config, c.validate = .ok () → 0 < c.saltWidth →
          c.saltWidth ≤ 8 ∧ 1 ≤ c.saltBuckets.toNat ∧
            c.saltBuckets.toNat ≤ 256 ^ min c.saltWidth 4 :=
  ⟨by decide, by decide, by decide, by decide,
    salt_stable_exact
      (by decide) (by decide) (by decide) (by decide)⟩

end Salter

end SeriesIngest
