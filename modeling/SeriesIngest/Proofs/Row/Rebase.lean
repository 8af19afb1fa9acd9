import Mathlib.Tactic.Ring
import SeriesIngest.Row.Key

/-!
# Moving a row key to another base time

A key's base time sits at a fixed offset, after the salt and the metric id. `withBaseTime`
writes another base time there and salts the key again. The salt is computed from the bytes
after it alone, so these laws hold for every key that fits the rules' layout: the base time
reads back as written, and moving a key twice is moving it once.

Main statements: `KeyRules.baseTime_withBaseTime` and `KeyRules.withBaseTime_withBaseTime`.
-/

namespace SeriesIngest

namespace Bytes

/-- Reading big-endian bytes on top of a running value shifts the value past them. -/
theorem foldl_toNatBE (b : Bytes) (acc : Nat) :
    b.foldl (fun acc x => acc * 256 + x.toNat) acc = acc * 256 ^ b.length + toNatBE b := by
  induction b generalizing acc with
  | nil => simp [toNatBE]
  | cons x b ih =>
    simp only [toNatBE, List.foldl_cons, List.length_cons] at ih ⊢
    rw [ih, ih (0 * 256 + x.toNat)]
    ring

/-- Big-endian bytes of a width read back as the number modulo that width. -/
theorem toNatBE_ofNatBE (w n : Nat) : toNatBE (ofNatBE w n) = n % 256 ^ w := by
  induction w with
  | zero => simp [toNatBE, ofNatBE, Nat.mod_one]
  | succ w ih =>
    have hhead : (UInt8.ofNat (n / Nat.pow 256 w % 256)).toNat = n / 256 ^ w % 256 := by
      simp [Nat.pow_eq]
    rw [ofNatBE, toNatBE, List.foldl_cons, foldl_toNatBE, ih, length_ofNatBE, hhead,
      Nat.mod_pow_succ]
    ring

end Bytes

namespace Salter

/-- The bucket of a row depends only on the bytes after the salt. -/
theorem bucketOf_congr {w m : Nat} {b : UInt32} {hash : Bytes → UInt64} {row row' : Bytes}
    (h : row.drop w = row'.drop w) : bucketOf w b m hash row = bucketOf w b m hash row' := by
  have hd : ∀ r : Bytes, r.drop (w + m + RowLayout.timestampBytes) =
      (r.drop w).drop (m + RowLayout.timestampBytes) := by
    intro r
    rw [List.drop_drop, Nat.add_assoc]
  simp only [bucketOf, hd, h]

/-- A salted key depends only on the bytes after the salt. -/
theorem apply_congr (s : Salter) {row row' : Bytes} (h : row.drop s.width = row'.drop s.width) :
    s.apply row = s.apply row' := by
  cases s with
  | none =>
    simp only [width, List.drop_zero] at h
    rw [h]
  | bucket w b m hash =>
    simp only [width] at h
    by_cases hw : w = 0
    · subst hw
      simpa [apply] using h
    · have hbucket : bucketOf w b m hash row = bucketOf w b m hash row' := bucketOf_congr h
      simp only [apply, hw, if_false, h, hbucket]

/-- Salting leaves the bytes after the salt alone. -/
theorem drop_apply (s : Salter) {row : Bytes} (h : s.width ≤ row.length) :
    (s.apply row).drop s.width = row.drop s.width := by
  cases s with
  | none => rfl
  | bucket w b m hash =>
    by_cases hw : w = 0
    · subst hw
      simp [apply]
    · simp [apply, hw, width]

/-- Salting keeps the length of a key that holds the salt. -/
theorem length_apply (s : Salter) {row : Bytes} (h : s.width ≤ row.length) :
    (s.apply row).length = row.length := by
  cases s with
  | none => rfl
  | bucket w b m hash =>
    simp only [width] at h
    by_cases hw : w = 0
    · subst hw
      simp [apply]
    · simp [apply, hw]
      omega

end Salter

namespace KeyRules

/-- The rules' salter writes exactly the salt of their layout. -/
def SaltFits (r : KeyRules) : Prop := r.salter.width = r.layout.saltWidth

/-- A key fits the rules when it has their layout and is long enough to hold a base time. -/
def Fits (r : KeyRules) (k : RowKey) : Prop :=
  k.layout = r.layout ∧ r.layout.tagsOffset ≤ k.bytes.length

@[simp] theorem layout_withBaseTime (r : KeyRules) (k : RowKey) (b : UInt32) :
    (r.withBaseTime k b).layout = k.layout := rfl

@[simp] theorem metricResolved_withBaseTime (r : KeyRules) (k : RowKey) (b : UInt32) :
    (r.withBaseTime k b).metricResolved = k.metricResolved := rfl

/-- Cutting a key around its base time and putting the pieces back keeps the cut after the salt. -/
theorem drop_rebased {l : List UInt8} {off sw : Nat} (B : Bytes) (hsw : sw ≤ off)
    (hl : off ≤ l.length) :
    (l.take off ++ B ++ l.drop (off + RowLayout.timestampBytes)).drop sw =
      (l.take off).drop sw ++ B ++ l.drop (off + RowLayout.timestampBytes) := by
  have hlen : sw ≤ (l.take off ++ B).length := by simp; omega
  rw [List.drop_append_of_le_length hlen, List.drop_append_of_le_length (by simp; omega)]

/-- A key made of the salt, a metric id padded or cut to its width, a base time and tag ids fits
the rules. -/
theorem fits_template {r : KeyRules} (hr : r.SaltFits) (mid : Option Bytes)
    (pairs : List (Bytes × Bytes)) (b : Bool) :
    r.Fits ⟨r.salter.apply (List.replicate r.layout.saltWidth 0 ++
      ((mid.getD []) ++ List.replicate (r.layout.metricWidth - (mid.getD []).length) 0).take
        r.layout.metricWidth ++ List.replicate RowLayout.timestampBytes 0 ++
      ((sortPairs pairs).map fun (k, v) => k ++ v).flatten), r.layout, b⟩ := by
  refine ⟨rfl, ?_⟩
  simp only [RowLayout.tagsOffset, RowLayout.timestampOffset]
  rw [Salter.length_apply _ (by rw [hr]; simp)]
  simp only [List.length_append, List.length_replicate, List.length_take]
  omega

/-- A template built by the rules fits them. -/
theorem buildTemplate_fits {r : KeyRules} (hr : r.SaltFits) {ids ids' : IdRegistry}
    {metric : String} {tags : Tags} {T : RowKey}
    (h : r.buildTemplate ids metric tags = (ids', .ok T)) : r.Fits T := by
  unfold buildTemplate at h
  split at h
  · cases h
  by_cases ha : r.autoCreateMetrics
  · rcases hg : ids.getOrCreate .metric metric with ⟨ids₁, _ | mid⟩
    · simp [ha, hg] at h
    rcases hrt : r.resolveTags ids₁ tags.toList with ⟨ids₂, _ | ps⟩
    · simp [ha, hg, hrt] at h
    simp only [ha, hg, hrt, if_true, Prod.mk.injEq, Except.ok.injEq] at h
    obtain ⟨-, rfl⟩ := h
    exact fits_template hr _ _ _
  · rcases hrt : r.resolveTags ids tags.toList with ⟨ids₂, _ | ps⟩
    · simp [ha, hrt] at h
    simp only [ha, hrt, Bool.false_eq_true, if_false, Prod.mk.injEq, Except.ok.injEq] at h
    obtain ⟨-, rfl⟩ := h
    exact fits_template hr _ _ _

section Rebase

variable {r : KeyRules} {k : RowKey}

theorem saltWidth_le_timestampOffset (l : RowLayout) : l.saltWidth ≤ l.timestampOffset := by
  simp [RowLayout.timestampOffset]

/-- A key that fits holds every byte before its base time. -/
theorem Fits.timestampOffset_le (hk : r.Fits k) : r.layout.timestampOffset ≤ k.bytes.length := by
  have := hk.2
  simp only [RowLayout.tagsOffset] at this
  omega

/-- The bytes of a key that fits between its salt and its base time: the metric field. -/
theorem Fits.length_metricPart (hk : r.Fits k) :
    ((k.bytes.take r.layout.timestampOffset).drop r.layout.saltWidth).length =
      r.layout.timestampOffset - r.layout.saltWidth := by
  have := hk.timestampOffset_le
  simp only [List.length_drop, List.length_take]
  omega

/-- After the salt, a moved key is the old key with the new base time written in. -/
theorem drop_withBaseTime (hr : r.SaltFits) (hk : r.Fits k) (b : UInt32) :
    (r.withBaseTime k b).bytes.drop r.layout.saltWidth =
      (k.bytes.take r.layout.timestampOffset).drop r.layout.saltWidth ++
        Bytes.ofNatBE RowLayout.timestampBytes b.toNat ++
        k.bytes.drop (r.layout.timestampOffset + RowLayout.timestampBytes) := by
  have hoff := saltWidth_le_timestampOffset r.layout
  have hlen := hk.timestampOffset_le
  simp only [withBaseTime]
  rw [← hr, Salter.drop_apply _ (by rw [hr]; simp; omega), hr, drop_rebased _ hoff hlen]

/-- A moved key still fits the rules. -/
theorem fits_withBaseTime (hr : r.SaltFits) (hk : r.Fits k) (b : UInt32) :
    r.Fits (r.withBaseTime k b) := by
  refine ⟨hk.1, ?_⟩
  have hlen := hk.2
  simp only [RowLayout.tagsOffset, RowLayout.timestampOffset] at hlen
  simp only [withBaseTime]
  rw [Salter.length_apply _ (by rw [hr]; simp; omega)]
  simp [RowLayout.tagsOffset, RowLayout.timestampOffset, RowLayout.timestampBytes]
  omega

/-- A moved key reads back the base time written into it. -/
theorem baseTime_withBaseTime (hr : r.SaltFits) (hk : r.Fits k) (b : UInt32) :
    (r.withBaseTime k b).baseTime = b := by
  have hoff := saltWidth_le_timestampOffset r.layout
  have hcut := hk.length_metricPart
  have hdrop : (r.withBaseTime k b).bytes.drop r.layout.timestampOffset =
      Bytes.ofNatBE RowLayout.timestampBytes b.toNat ++
        k.bytes.drop (r.layout.timestampOffset + RowLayout.timestampBytes) := by
    have h := congrArg (List.drop (r.layout.timestampOffset - r.layout.saltWidth))
      (drop_withBaseTime hr hk b)
    rw [List.drop_drop, Nat.add_sub_of_le hoff, List.append_assoc, List.drop_left' hcut] at h
    exact h
  have hb : b.toNat % 256 ^ RowLayout.timestampBytes = b.toNat :=
    Nat.mod_eq_of_lt (by simpa [RowLayout.timestampBytes] using b.toNat_lt)
  simp only [RowKey.baseTime, layout_withBaseTime, hk.1, hdrop,
    List.take_left' (Bytes.length_ofNatBE _ _), Bytes.toNatBE_ofNatBE, hb, UInt32.ofNat_toNat]

/-- Two keys alike around their base times move to the same key. -/
theorem withBaseTime_congr (hr : r.SaltFits) {k' : RowKey} (hk : r.Fits k) (hk' : r.Fits k')
    (hl : k.layout = k'.layout) (hm : k.metricResolved = k'.metricResolved)
    (hpre : (k.bytes.take r.layout.timestampOffset).drop r.layout.saltWidth =
      (k'.bytes.take r.layout.timestampOffset).drop r.layout.saltWidth)
    (hpost : k.bytes.drop (r.layout.timestampOffset + RowLayout.timestampBytes) =
      k'.bytes.drop (r.layout.timestampOffset + RowLayout.timestampBytes)) (b : UInt32) :
    r.withBaseTime k b = r.withBaseTime k' b := by
  have hoff := saltWidth_le_timestampOffset r.layout
  have hbytes : (r.withBaseTime k b).bytes = (r.withBaseTime k' b).bytes := by
    apply Salter.apply_congr
    rw [hr, drop_rebased _ hoff hk.timestampOffset_le, drop_rebased _ hoff hk'.timestampOffset_le,
      hpre, hpost]
  simp only [withBaseTime] at hbytes ⊢
  rw [hbytes, hl, hm]

/-- Moving a key twice is moving it once. -/
theorem withBaseTime_withBaseTime (hr : r.SaltFits) (hk : r.Fits k) (a b : UInt32) :
    r.withBaseTime (r.withBaseTime k a) b = r.withBaseTime k b := by
  have hoff := saltWidth_le_timestampOffset r.layout
  have hd := drop_withBaseTime hr hk a
  have hcut := hk.length_metricPart
  -- the parts before and after the base time survive the first move
  have hpre : ((r.withBaseTime k a).bytes.take r.layout.timestampOffset).drop r.layout.saltWidth =
      (k.bytes.take r.layout.timestampOffset).drop r.layout.saltWidth := by
    rw [List.drop_take, hd, List.append_assoc, List.take_left' hcut]
  have hpost : (r.withBaseTime k a).bytes.drop (r.layout.timestampOffset + RowLayout.timestampBytes) =
      k.bytes.drop (r.layout.timestampOffset + RowLayout.timestampBytes) := by
    have h := congrArg (List.drop (r.layout.timestampOffset - r.layout.saltWidth +
      RowLayout.timestampBytes)) hd
    rw [List.drop_drop, show r.layout.saltWidth + (r.layout.timestampOffset - r.layout.saltWidth +
        RowLayout.timestampBytes) = r.layout.timestampOffset + RowLayout.timestampBytes by omega,
      List.append_assoc, ← hcut, List.drop_length_add_append,
      List.drop_left' (Bytes.length_ofNatBE _ _)] at h
    exact h
  exact withBaseTime_congr hr (fits_withBaseTime hr hk a) hk rfl rfl hpre hpost b

end Rebase

end KeyRules

end SeriesIngest
