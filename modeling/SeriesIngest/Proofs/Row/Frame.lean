import SeriesIngest.Proofs.Row.Template

/-!
# Moving a key changes its base time only

The rules make keys by building templates and by moving keys they made to other base times
(`KeyRules.Makes`). Every such key is salted already. When the salter writes the salt of the
layout and a bucket salter reads the layout's metric field (`KeyRules.SaltsLayout`), the bucket
of a key reads its metric id and tag ids only, so moving a made key rewrites the four base time
bytes and nothing else: the salt, the metric id, the tag ids, the length and whether the metric
resolved all stay. Rolling a key over moves it the same way and queues the old row, with its old
base time, for compaction.

Main statement: `KeyRules.withBaseTime_frame`.
-/

namespace SeriesIngest

namespace Salter

/-- Salting twice is salting once. -/
theorem apply_apply (s : Salter) (row : Bytes) : s.apply (s.apply row) = s.apply row := by
  refine s.apply_congr ?_
  cases s with
  | none => rfl
  | bucket w b m hash =>
    by_cases hw : w = 0
    · simp [apply, hw]
    · simp only [apply, hw, if_false, width]
      exact List.drop_left' (Bytes.length_ofNatBE _ _)

/-- The bucket of a row reads the metric field after the salt and the bytes after the base time
only. -/
theorem bucketOf_frame {w m : Nat} {b : UInt32} {hash : Bytes → UInt64} {row row' : Bytes}
    (hpre : row.take (w + m) = row'.take (w + m))
    (hpost : row.drop (w + m + RowLayout.timestampBytes) =
      row'.drop (w + m + RowLayout.timestampBytes)) :
    bucketOf w b m hash row = bucketOf w b m hash row' := by
  simp only [bucketOf, List.take_drop, hpre, hpost]

end Salter

namespace KeyRules

/-- The salter writes the salt of the layout, and a bucket salter hashes the layout's metric
field. -/
structure SaltsLayout (r : KeyRules) : Prop where
  fits : r.SaltFits
  metric : ∀ w b m hash, r.salter = .bucket w b m hash → m = r.layout.metricWidth

/-- The keys the rules make: the templates they build, and the keys they made moved to any base
time. -/
inductive Makes (r : KeyRules) : RowKey → Prop
  | template {ids ids' : IdRegistry} {metric : String} {tags : Tags} {T : RowKey} :
      r.buildTemplate ids metric tags = (ids', .ok T) → r.Makes T
  | moved {k : RowKey} (b : UInt32) : r.Makes k → r.Makes (r.withBaseTime k b)

variable {r : KeyRules} {k : RowKey}

theorem Makes.fits (hr : r.SaltFits) (hk : r.Makes k) : r.Fits k := by
  induction hk with
  | template h => exact buildTemplate_fits hr h
  | moved b _ ih => exact fits_withBaseTime hr ih b

/-- A key the rules make is salted already. -/
theorem Makes.salted (hk : r.Makes k) : r.salter.apply k.bytes = k.bytes := by
  cases hk with
  | template h =>
    obtain ⟨-, -, -, -, rfl⟩ := r.buildTemplate_eq_ok h
    exact r.salter.apply_apply _
  | moved b _ => exact r.salter.apply_apply _

/-- The bytes of a key with another base time written in, before salting. -/
def rebased (r : KeyRules) (k : RowKey) (b : UInt32) : Bytes :=
  k.bytes.take r.layout.timestampOffset ++ Bytes.ofNatBE RowLayout.timestampBytes b.toNat ++
    k.bytes.drop (r.layout.timestampOffset + RowLayout.timestampBytes)

section Frame

variable (hk : r.Fits k) (b : UInt32)
include hk

theorem take_rebased : (r.rebased k b).take r.layout.timestampOffset =
    k.bytes.take r.layout.timestampOffset := by
  rw [rebased, List.append_assoc, List.take_left' (List.length_take_of_le hk.timestampOffset_le)]

/-- Writing the base time keeps every byte before it. -/
theorem take_rebased_of_le {n : Nat} (hn : n ≤ r.layout.timestampOffset) :
    (r.rebased k b).take n = k.bytes.take n :=
  calc (r.rebased k b).take n
      = ((r.rebased k b).take r.layout.timestampOffset).take n := by
        rw [List.take_take, Nat.min_eq_left hn]
    _ = (k.bytes.take r.layout.timestampOffset).take n := by rw [take_rebased hk b]
    _ = k.bytes.take n := by rw [List.take_take, Nat.min_eq_left hn]

theorem drop_rebased_tags :
    (r.rebased k b).drop r.layout.tagsOffset = k.bytes.drop r.layout.tagsOffset := by
  have hlen : (k.bytes.take r.layout.timestampOffset ++
      Bytes.ofNatBE RowLayout.timestampBytes b.toNat).length = r.layout.tagsOffset := by
    rw [List.length_append, List.length_take_of_le hk.timestampOffset_le, Bytes.length_ofNatBE]
    rfl
  rw [rebased, List.drop_left' hlen]
  rfl

theorem length_rebased : (r.rebased k b).length = k.bytes.length := by
  have := hk.2
  simp only [RowLayout.tagsOffset] at this
  simp only [rebased, List.length_append, List.length_take, List.length_drop, Bytes.length_ofNatBE]
  omega

/-- A made key with another base time written in is salted already: the bucket reads the metric
id and the tag ids, which stay, and the salt is the bucket of the key. -/
theorem apply_rebased (hs : r.SaltsLayout) (hsalt : r.salter.apply k.bytes = k.bytes) :
    r.salter.apply (r.rebased k b) = r.rebased k b := by
  have hfit : r.salter.width = r.layout.saltWidth := hs.fits
  rcases hsal : r.salter with _ | ⟨w, bk, m, hash⟩
  · rfl
  have hw : w = r.layout.saltWidth := by rw [← hfit, hsal, Salter.width]
  have hm : m = r.layout.metricWidth := hs.metric w bk m hash hsal
  by_cases hw0 : w = 0
  · simp [Salter.apply, hw0]
  rw [hsal] at hsalt
  have hoff : w + m = r.layout.timestampOffset := by rw [hw, hm]; rfl
  -- the bucket reads what the move keeps
  have hbucket : Salter.bucketOf w bk m hash (r.rebased k b) = Salter.bucketOf w bk m hash k.bytes := by
    refine Salter.bucketOf_frame ?_ ?_
    · rw [hoff, take_rebased hk b]
    · rw [hoff, ← RowLayout.tagsOffset, drop_rebased_tags hk b]
  -- and the salt of the key is its bucket
  have hsalt_take : k.bytes.take w = Bytes.ofNatBE w (Salter.bucketOf w bk m hash k.bytes) := by
    conv_lhs => rw [← hsalt]
    simp only [Salter.apply, hw0, if_false]
    exact List.take_left' (Bytes.length_ofNatBE _ _)
  have htake : (r.rebased k b).take w = k.bytes.take w := take_rebased_of_le hk b (by omega)
  simp only [Salter.apply, hw0, if_false]
  rw [hbucket, ← hsalt_take, ← htake, List.take_append_drop]

end Frame

section Moved

variable (hs : r.SaltsLayout) (hk : r.Makes k) (b : UInt32)
include hs hk

/-- Moving a made key writes the base time into its bytes, and salting leaves them so. -/
theorem bytes_withBaseTime : (r.withBaseTime k b).bytes = r.rebased k b :=
  apply_rebased (hk.fits hs.fits) b hs hk.salted

theorem salt_withBaseTime : (r.withBaseTime k b).salt = k.salt := by
  have hfit := hk.fits hs.fits
  simp only [RowKey.salt, layout_withBaseTime, hfit.1, bytes_withBaseTime hs hk b]
  exact take_rebased_of_le hfit b (by simp [RowLayout.timestampOffset])

theorem metricUid_withBaseTime : (r.withBaseTime k b).metricUid = k.metricUid := by
  have hfit := hk.fits hs.fits
  have hfield : ((r.rebased k b).drop r.layout.metricStart).take r.layout.metricWidth =
      (k.bytes.drop r.layout.metricStart).take r.layout.metricWidth := by
    have hend : r.layout.metricStart + r.layout.metricWidth ≤ r.layout.timestampOffset := by
      simp [RowLayout.metricStart, RowLayout.timestampOffset]
    rw [List.take_drop, List.take_drop, take_rebased_of_le hfit b hend]
  simp only [RowKey.metricUid, layout_withBaseTime, metricResolved_withBaseTime, hfit.1,
    bytes_withBaseTime hs hk b, hfield]

theorem tagUids_withBaseTime : (r.withBaseTime k b).tagUids = k.tagUids := by
  have hfit := hk.fits hs.fits
  simp only [RowKey.tagUids, layout_withBaseTime, hfit.1, bytes_withBaseTime hs hk b,
    drop_rebased_tags hfit b]

theorem length_withBaseTime : (r.withBaseTime k b).bytes.length = k.bytes.length := by
  rw [bytes_withBaseTime hs hk b, length_rebased (hk.fits hs.fits) b]

end Moved

/-- Moving a key rewrites its four base-time bytes and nothing else, the last move wins, and rolling
a key over schedules the old row once for compaction. -/
theorem withBaseTime_frame {r : KeyRules} (hs : r.SaltsLayout) {k : RowKey} (hk : r.Makes k)
    (a b : UInt32) :
    (r.withBaseTime k b).baseTime = b ∧
    r.withBaseTime (r.withBaseTime k a) b = r.withBaseTime k b ∧
    (r.withBaseTime k b).bytes = k.bytes.take r.layout.timestampOffset ++
      Bytes.ofNatBE RowLayout.timestampBytes b.toNat ++ k.bytes.drop r.layout.tagsOffset ∧
    (r.withBaseTime k b).salt = k.salt ∧
    (r.withBaseTime k b).metricUid = k.metricUid ∧
    (r.withBaseTime k b).tagUids = k.tagUids ∧
    (r.withBaseTime k b).bytes.length = k.bytes.length ∧
    (r.withBaseTime k b).metricResolved = k.metricResolved ∧
    (r.withBaseTime k b).layout = k.layout ∧
    ∀ db : Db, db.rules = r → db.rollToBaseTime k b =
      ({ db with compaction := db.compaction.map fun q => q.schedule k.bytes k.baseTime },
        r.withBaseTime k b) := by
  have hfit := hk.fits hs.fits
  refine ⟨baseTime_withBaseTime hs.fits hfit b, withBaseTime_withBaseTime hs.fits hfit a b,
    bytes_withBaseTime hs hk b, salt_withBaseTime hs hk b, metricUid_withBaseTime hs hk b,
    tagUids_withBaseTime hs hk b, length_withBaseTime hs hk b, rfl, rfl, ?_⟩
  rintro db rfl
  rfl

/-- Rules with a one-byte bucket salt over twenty buckets, hashed with the seed-0 xxHash64, and
3-byte ids. -/
def saltedRules : KeyRules := ⟨⟨1, 3, 3, 3⟩, 8, "", true, true, .bucket 1 20 3 (Hash.xxHash64 0)⟩

/-- The template of `sys.cpu` with one tag under `saltedRules`, in bucket 12. -/
def saltedCpuKey : RowKey := ⟨[12, 0, 0, 1, 0, 0, 0, 0, 0, 0, 1, 0, 0, 1], ⟨1, 3, 3, 3⟩, true⟩

theorem saltedRules_saltsLayout : saltedRules.SaltsLayout :=
  ⟨rfl, fun _ _ _ _ h => by cases h; rfl⟩

theorem saltedCpuKey_made : saltedRules.Makes saltedCpuKey := by
  have h : (saltedRules.buildTemplate (IdRegistry.ofWidths 3 3 3) "sys.cpu" cpuTags).2 =
      .ok saltedCpuKey := by decide +kernel
  exact .template (Prod.ext rfl h : saltedRules.buildTemplate (IdRegistry.ofWidths 3 3 3) "sys.cpu"
    cpuTags = ((saltedRules.buildTemplate (IdRegistry.ofWidths 3 3 3) "sys.cpu" cpuTags).1,
      .ok saltedCpuKey))

theorem saltedCpuKey_frame : saltedRules.SaltsLayout ∧ saltedRules.Makes saltedCpuKey ∧
    (saltedRules.withBaseTime saltedCpuKey 3600).baseTime = 3600 ∧
    saltedRules.withBaseTime (saltedRules.withBaseTime saltedCpuKey 0) 3600 =
      saltedRules.withBaseTime saltedCpuKey 3600 ∧
    (saltedRules.withBaseTime saltedCpuKey 3600).bytes =
      saltedCpuKey.bytes.take saltedRules.layout.timestampOffset ++
        Bytes.ofNatBE RowLayout.timestampBytes (3600 : UInt32).toNat ++
        saltedCpuKey.bytes.drop saltedRules.layout.tagsOffset ∧
    (saltedRules.withBaseTime saltedCpuKey 3600).salt = saltedCpuKey.salt ∧
    (saltedRules.withBaseTime saltedCpuKey 3600).metricUid = saltedCpuKey.metricUid ∧
    (saltedRules.withBaseTime saltedCpuKey 3600).tagUids = saltedCpuKey.tagUids ∧
    (saltedRules.withBaseTime saltedCpuKey 3600).bytes.length = saltedCpuKey.bytes.length ∧
    (saltedRules.withBaseTime saltedCpuKey 3600).metricResolved = saltedCpuKey.metricResolved ∧
    (saltedRules.withBaseTime saltedCpuKey 3600).layout = saltedCpuKey.layout ∧
    ∀ db : Db, db.rules = saltedRules → db.rollToBaseTime saltedCpuKey 3600 =
      ({ db with compaction := db.compaction.map fun q =>
          q.schedule saltedCpuKey.bytes saltedCpuKey.baseTime },
        saltedRules.withBaseTime saltedCpuKey 3600) :=
  ⟨saltedRules_saltsLayout, saltedCpuKey_made,
    withBaseTime_frame saltedRules_saltsLayout saltedCpuKey_made 0 3600⟩

end KeyRules

end SeriesIngest
