import SeriesIngest.Write.Db
import SeriesIngest.Proofs.Codec.QualifierOffset

/-!
# Base times of accepted timestamps

The write path accepts exactly the timestamps from 0 to 4294967295999: seconds up to the
greatest 32-bit second, and milliseconds from `2 ^ 32` to the last millisecond of that second.
The 13-digit limit on milliseconds is never the one that refuses. For an accepted timestamp
and a window that the settings' check allows, the arithmetic of rows is exact: the timestamp in
milliseconds stays far inside 64 bits, its second is its millisecond count divided by 1000, its
base time is that second rounded down to the window and fits 32 bits, base times grow with
time, and the column name against the base time exists for every flags value, with an offset
below one window.

Main statement: `checkTimestamp_window_arithmetic`.
-/

namespace SeriesIngest

/-- A timestamp counts milliseconds exactly when it lies outside `[0, 2 ^ 32)`. -/
theorem isMillis_iff (ts : Int) : Time.isMillis ts = true ↔ ts < 0 ∨ 4294967296 ≤ ts := by
  simp [Time.isMillis, Int.pow]

/-- The write path accepts a timestamp exactly when it lies in `[0, 4294967295999]`. -/
theorem checkTimestamp_eq_ok_iff (ts : Int) :
    Db.checkTimestamp ts = .ok () ↔ 0 ≤ ts ∧ ts ≤ 4294967295999 := by
  unfold Db.checkTimestamp Time.toSeconds Time.maxMsTimestamp Time.msPerSecond
  by_cases hn : ts < 0
  · constructor
    · intro h
      simp [hn] at h
    · intro h
      omega
  · by_cases hms : Time.isMillis ts = true
    · have hbig := (isMillis_iff ts).1 hms
      rw [Int.tdiv_eq_ediv_of_nonneg (by omega)]
      simp only [hn, hms, if_false, if_true]
      split <;> (try split) <;> simp [Int.pow] at * <;> omega
    · have hsmall : ts < 4294967296 := by
        have := mt (isMillis_iff ts).2 hms
        omega
      simp [hn, hms]
      omega

/-- An accepted timestamp in milliseconds lies in `[0, 4294967295999]`. -/
theorem toMillis_of_accepted {ts : Int} (h0 : 0 ≤ ts) (h1 : ts ≤ 4294967295999) :
    0 ≤ Time.toMillis ts ∧ Time.toMillis ts ≤ 4294967295999 := by
  unfold Time.toMillis Time.msPerSecond
  split
  · omega
  · next hs =>
    -- a timestamp in seconds is below 2 ^ 32
    have := mt (isMillis_iff ts).2 hs
    omega

/-- The second of a timestamp that is not negative is its millisecond count divided by 1000. -/
theorem toSeconds_eq_toMillis_div {ts : Int} (h0 : 0 ≤ ts) :
    Time.toSeconds ts = Time.toMillis ts / 1000 := by
  unfold Time.toSeconds Time.toMillis Time.msPerSecond
  split
  · exact Int.tdiv_eq_ediv_of_nonneg h0
  · omega

/-- The second of an accepted timestamp fits 32 bits. -/
theorem toSeconds_of_accepted {ts : Int} (h0 : 0 ≤ ts) (h1 : ts ≤ 4294967295999) :
    0 ≤ Time.toSeconds ts ∧ Time.toSeconds ts < 4294967296 := by
  rw [toSeconds_eq_toMillis_div h0]
  have := toMillis_of_accepted h0 h1
  omega

/-- Rounding a count that is not negative down to a multiple of `w` keeps it in `[0, s]`. -/
theorem floor_window_mem {s w : Int} (hs : 0 ≤ s) (hw : 0 ≤ w) :
    0 ≤ s - s % w ∧ s - s % w ≤ s := by
  rcases Int.lt_or_eq_of_le hw with hw | hw
  · have := Int.emod_nonneg s (Int.ne_of_gt hw)
    have := Int.emod_lt_of_pos s hw
    have := Int.emod_def s w
    have : 0 ≤ w * (s / w) :=
      Int.mul_nonneg (Int.le_of_lt hw) (Int.ediv_nonneg hs (Int.le_of_lt hw))
    omega
  · subst hw
    simp [hs]

/-- Rounding down to a multiple of `w` keeps the order. -/
theorem floor_window_mono {s t w : Int} (hst : s ≤ t) (hw : 0 ≤ w) :
    s - s % w ≤ t - t % w := by
  rcases Int.lt_or_eq_of_le hw with hw | hw
  · have := Int.emod_def s w
    have := Int.emod_def t w
    have := Int.mul_le_mul_of_nonneg_left (Int.ediv_le_ediv hw hst) (Int.le_of_lt hw)
    omega
  · subst hw
    simp

/-- The base time of an accepted timestamp is its second rounded down to the window, with
nothing cut off by the 32 bits it is kept in. -/
theorem Config.baseTimeOf_toNat (c : Config) {ts : Int} (h0 : 0 ≤ ts)
    (h1 : ts ≤ 4294967295999) :
    ((c.baseTimeOf ts).toNat : Int) =
      Time.toSeconds ts - Time.toSeconds ts % (c.window.toNat : Int) := by
  have hs := toSeconds_of_accepted h0 h1
  have hr := floor_window_mem hs.1 (Int.natCast_nonneg c.window.toNat)
  unfold Config.baseTimeOf
  simp only
  rw [Int.tmod_eq_emod_of_nonneg hs.1]
  generalize Time.toSeconds ts = s at *
  generalize (c.window.toNat : Int) = w at *
  have hp : Int.pow 2 32 = 4294967296 := by decide
  rw [hp, Int.emod_eq_of_lt hr.1 (by omega)]
  simp [Nat.toUInt32_eq]
  omega

/-- Of two accepted timestamps, the later one in milliseconds has the later or equal base
time. -/
theorem Config.baseTimeOf_le (c : Config) {t u : Int} (ht0 : 0 ≤ t) (ht1 : t ≤ 4294967295999)
    (hu0 : 0 ≤ u) (hu1 : u ≤ 4294967295999) (h : Time.toMillis t ≤ Time.toMillis u) :
    c.baseTimeOf t ≤ c.baseTimeOf u := by
  rw [UInt32.le_iff_toNat_le]
  have a := c.baseTimeOf_toNat ht0 ht1
  have b := c.baseTimeOf_toNat hu0 hu1
  have hs : Time.toSeconds t ≤ Time.toSeconds u := by
    rw [toSeconds_eq_toMillis_div ht0, toSeconds_eq_toMillis_div hu0]
    omega
  have := floor_window_mono hs (Int.natCast_nonneg c.window.toNat)
  omega

/-- Settings that pass their check have a window of 1 to 3840 seconds. -/
theorem Config.window_of_validate {c : Config} (h : c.validate = .ok ()) :
    1 ≤ c.window.toNat ∧ c.window.toNat ≤ maxBaseTimeWindow := by
  have hz : c.window = 0 ↔ c.window.toNat = 0 := by
    constructor
    · intro h
      simp [h]
    · intro h
      exact UInt32.toNat_inj.mp (by simpa using h)
  by_cases hw : c.window = 0 ∨ c.window.toNat > maxBaseTimeWindow
  · unfold Config.validate at h
    simp only [hw, if_true] at h
    split at h <;> (try split at h) <;>
      simp_all [bind, Except.bind, throw, throwThe, MonadExceptOf.throw]
  · rw [hz] at hw
    omega

/-- Against the base time of an accepted timestamp, under a window of 1 to 3840 seconds, the
column name exists for every flags value, keeps the timestamp's resolution, holds its exact
offset, and that offset is below one window. -/
theorem Config.buildQualifier_baseTimeOf (c : Config) {ts : Int} (h0 : 0 ≤ ts)
    (h1 : ts ≤ 4294967295999) (hw0 : 1 ≤ c.window.toNat)
    (hw1 : c.window.toNat ≤ maxBaseTimeWindow) (f : UInt16) :
    ∃ q, buildQualifier ts (c.baseTimeOf ts) f = .ok q ∧ q.isMillis = Time.isMillis ts ∧
      (q.offsetMs : Int) = Time.toMillis ts - 1000 * (c.baseTimeOf ts).toNat ∧
      q.deltaSeconds < c.window.toNat ∧ q.offsetMs < 1000 * c.window.toNat := by
  have hb := c.baseTimeOf_toNat h0 h1
  have hsec := toSeconds_eq_toMillis_div h0
  have hm := isMillis_iff ts
  unfold maxBaseTimeWindow at hw1
  have hwpos : (0 : Int) < (c.window.toNat : Int) := by omega
  have hr0 := Int.emod_nonneg (Time.toSeconds ts) (Int.ne_of_gt hwpos)
  have hr1 := Int.emod_lt_of_pos (Time.toSeconds ts) hwpos
  cases hms : Time.isMillis ts
  · have hsm : Time.toMillis ts = ts * 1000 := by simp [Time.toMillis, hms, Time.msPerSecond]
    have hs : Time.toSeconds ts = ts := by simp [Time.toSeconds, hms]
    rw [hsm]
    rw [hs] at hb hr0 hr1
    obtain ⟨q, hq, hqm, hqd, hqo⟩ := @buildQualifier_of_seconds ts (c.baseTimeOf ts) f hms
      (by omega) (by unfold maxSecondDelta; omega)
    exact ⟨q, hq, hqm, by omega, by omega, by omega⟩
  · have hsm : Time.toMillis ts = ts := by simp [Time.toMillis, hms]
    rw [hsm] at hsec ⊢
    rw [hsec] at hb hr0 hr1
    obtain ⟨q, hq, hqm, hqo, hqd⟩ := @buildQualifier_of_millis ts (c.baseTimeOf ts) f hms
      (by omega) (by unfold maxMillisDelta; omega)
    exact ⟨q, hq, hqm, by omega, by omega, by omega⟩

/-- The timestamp and window arithmetic of the write path is exact under settings that pass
their check. -/
theorem checkTimestamp_window_arithmetic (c : Config) (hc : c.validate = .ok ()) :
    (∀ ts, Db.checkTimestamp ts = .ok () ↔ 0 ≤ ts ∧ ts ≤ 4294967295999) ∧
    0 < c.window.toNat ∧ (1000 * c.window.toNat : Int) - 1 ≤ maxMillisDelta ∧
    ∀ ts, Db.checkTimestamp ts = .ok () →
      (0 ≤ Time.toMillis ts ∧ Time.toMillis ts ≤ 4294967295999) ∧
      Time.toSeconds ts = Time.toMillis ts / 1000 ∧
      ((c.baseTimeOf ts).toNat : Int) =
        Time.toSeconds ts - Time.toSeconds ts % (c.window.toNat : Int) ∧
      (∀ u, Db.checkTimestamp u = .ok () → Time.toMillis ts ≤ Time.toMillis u →
        c.baseTimeOf ts ≤ c.baseTimeOf u) ∧
      ∀ f, ∃ q, buildQualifier ts (c.baseTimeOf ts) f = .ok q ∧
        q.isMillis = Time.isMillis ts ∧
        (q.offsetMs : Int) = Time.toMillis ts - 1000 * (c.baseTimeOf ts).toNat ∧
        q.deltaSeconds < c.window.toNat ∧ q.offsetMs < 1000 * c.window.toNat := by
  have hw := Config.window_of_validate hc
  refine ⟨checkTimestamp_eq_ok_iff, by omega,
    by unfold maxBaseTimeWindow at hw; unfold maxMillisDelta; omega, ?_⟩
  intro ts hts
  have ⟨h0, h1⟩ := (checkTimestamp_eq_ok_iff ts).1 hts
  refine ⟨toMillis_of_accepted h0 h1, toSeconds_eq_toMillis_div h0,
    c.baseTimeOf_toNat h0 h1, ?_, fun f => c.buildQualifier_baseTimeOf h0 h1 hw.1 hw.2 f⟩
  intro u hu hle
  have ⟨hu0, hu1⟩ := (checkTimestamp_eq_ok_iff u).1 hu
  exact c.baseTimeOf_le h0 h1 hu0 hu1 hle

/-- Settings with the widest window pass their check, so their timestamp arithmetic is exact. -/
theorem widest_window_arithmetic :
    ({ window := 3840 } : Config).validate = .ok () ∧
    ((∀ ts, Db.checkTimestamp ts = .ok () ↔ 0 ≤ ts ∧ ts ≤ 4294967295999) ∧
    0 < ({ window := 3840 } : Config).window.toNat ∧
    (1000 * ({ window := 3840 } : Config).window.toNat : Int) - 1 ≤ maxMillisDelta ∧
    ∀ ts, Db.checkTimestamp ts = .ok () →
      (0 ≤ Time.toMillis ts ∧ Time.toMillis ts ≤ 4294967295999) ∧
      Time.toSeconds ts = Time.toMillis ts / 1000 ∧
      ((({ window := 3840 } : Config).baseTimeOf ts).toNat : Int) =
        Time.toSeconds ts - Time.toSeconds ts % (({ window := 3840 } : Config).window.toNat : Int) ∧
      (∀ u, Db.checkTimestamp u = .ok () → Time.toMillis ts ≤ Time.toMillis u →
        ({ window := 3840 } : Config).baseTimeOf ts ≤ ({ window := 3840 } : Config).baseTimeOf u) ∧
      ∀ f, ∃ q, buildQualifier ts (({ window := 3840 } : Config).baseTimeOf ts) f = .ok q ∧
        q.isMillis = Time.isMillis ts ∧
        (q.offsetMs : Int) =
          Time.toMillis ts - 1000 * (({ window := 3840 } : Config).baseTimeOf ts).toNat ∧
        q.deltaSeconds < ({ window := 3840 } : Config).window.toNat ∧
        q.offsetMs < 1000 * ({ window := 3840 } : Config).window.toNat) :=
  ⟨rfl, checkTimestamp_window_arithmetic { window := 3840 } rfl⟩

end SeriesIngest

