import Mathlib.Algebra.Group.Nat.Defs
import Mathlib.Data.Nat.Log
import SeriesIngest.Proofs.Write.BufferRoom

/-!
# How the sample buffer grows

A sample buffer for a window of `W` seconds starts with room for `min 4 W` samples. An append
first takes note of the sample's resolution, raising the limit from `W` to `1000 * W` at the
first millisecond sample, and then, on a full buffer, doubles the capacity up to the limit; a
full buffer at its limit cannot grow, and the program stops there with a fault. A reset empties
the buffer and starts the growth over.

Along every sequence of appends and resets the buffer keeps `SampleBuffer.Grown`: its size is
within its capacity, its capacity within its limit and at least `min 4 W`, it has taken note of
a millisecond sample exactly when it holds one, and while it holds none its capacity is the
closed form `min W (max 4 (2 ^ Nat.clog 2 n))` for its `n` samples: four, doubled until it holds
`n`, and never past the window. So an append fails exactly when the buffer holds as many samples
as the limit that counts the new sample's resolution; otherwise it adds the sample at the end.

Main statement: `SampleBuffer.growth_law`.
-/

namespace SeriesIngest

/-- A call on the sample buffer of a row. -/
inductive BufferCall where
  | append (q : Qualifier) (v : Int)
  | reset

namespace BufferCall

/-- The appends since the last reset, counted call by call. -/
def tally (n : Nat) : BufferCall → Nat
  | .append _ _ => n + 1
  | .reset => 0

end BufferCall

/-! ### Capacities reached by doubling -/

section Doubling

/-- One more than a power of two needs the next power. -/
theorem clog_two_pow_add_one (m : Nat) : Nat.clog 2 (2 ^ m + 1) = m + 1 := by
  apply Nat.le_antisymm
  · rw [Nat.clog_le_iff_le_pow (by omega), Nat.pow_succ]
    have : 1 ≤ 2 ^ m := Nat.one_le_two_pow
    omega
  · rw [Nat.succ_le_iff, Nat.lt_clog_iff_pow_lt (by omega)]
    omega

/-- While `n` samples leave room, one more sample needs no more doubling. -/
theorem max_four_pow_clog_succ_of_lt {n : Nat} (h : n < max 4 (2 ^ Nat.clog 2 n)) :
    max 4 (2 ^ Nat.clog 2 (n + 1)) = max 4 (2 ^ Nat.clog 2 n) := by
  rcases le_total (2 ^ Nat.clog 2 n) 4 with h4 | h4
  · rw [max_eq_left h4] at h ⊢
    have hc : Nat.clog 2 (n + 1) ≤ 2 := (Nat.clog_le_iff_le_pow (by omega)).2 (by omega)
    have hp : 2 ^ Nat.clog 2 (n + 1) ≤ 2 ^ 2 := Nat.pow_le_pow_right (by omega) hc
    exact max_eq_left hp
  · rw [max_eq_right h4] at h
    have hle : Nat.clog 2 (n + 1) ≤ Nat.clog 2 n := (Nat.clog_le_iff_le_pow (by omega)).2 h
    rw [Nat.le_antisymm hle (Nat.clog_mono_right 2 (Nat.le_succ n))]

/-- When `n` samples fill what doubling reached, one more sample doubles it. -/
theorem max_four_pow_clog_succ_of_eq {n : Nat} (h : n = max 4 (2 ^ Nat.clog 2 n)) :
    max 4 (2 ^ Nat.clog 2 (n + 1)) = 2 * n := by
  -- a full capacity is a power of two: four, or the power at `n`
  obtain ⟨m, hm⟩ : ∃ m, n = 2 ^ m := by
    rcases le_total (2 ^ Nat.clog 2 n) 4 with h4 | h4
    · exact ⟨2, by rw [max_eq_left h4] at h; exact h⟩
    · exact ⟨Nat.clog 2 n, by rw [max_eq_right h4] at h; exact h⟩
  have h4 : 4 ≤ n := h ▸ le_max_left _ _
  rw [hm, clog_two_pow_add_one, Nat.pow_succ, Nat.mul_comm]
  exact max_eq_right (by omega)

end Doubling

namespace SampleBuffer

/-! ### One append -/

@[simp] theorem noting_samples (b : SampleBuffer) (q : Qualifier) :
    (b.noting q).samples = b.samples := by
  unfold noting; split <;> rfl

@[simp] theorem noting_capacity (b : SampleBuffer) (q : Qualifier) :
    (b.noting q).capacity = b.capacity := by
  unfold noting; split <;> rfl

@[simp] theorem noting_window (b : SampleBuffer) (q : Qualifier) :
    (b.noting q).window = b.window := by
  unfold noting; split <;> rfl

@[simp] theorem noting_size (b : SampleBuffer) (q : Qualifier) :
    (b.noting q).size = b.size := by
  simp [size]

@[simp] theorem noting_hasMillis (b : SampleBuffer) (q : Qualifier) :
    (b.noting q).hasMillis = (b.hasMillis || q.isMillis) := by
  unfold noting; split <;> simp_all

/-- The limit once the sample's resolution is noted. -/
theorem noting_limit (b : SampleBuffer) (q : Qualifier) :
    (b.noting q).limit = if b.hasMillis || q.isMillis then b.window * 1000 else b.window := by
  simp [limit]

/-- Noting a resolution never lowers the limit. -/
theorem limit_le_noting (b : SampleBuffer) (q : Qualifier) : b.limit ≤ (b.noting q).limit := by
  unfold noting
  split
  · simp only [limit, if_true]
    split <;> omega
  · exact Nat.le_refl _

/-- `append` works on the buffer that has noted the sample's resolution. -/
theorem append_eq_noting (b : SampleBuffer) (q : Qualifier) (v : Int) :
    b.append q v =
      if (b.noting q).size = (b.noting q).capacity then
        if min (2 * (b.noting q).capacity) (b.noting q).limit ≤ (b.noting q).capacity then
          (b.noting q, .error ⟨(b.noting q).capacity⟩)
        else
          ({ (b.noting q) with
              capacity := min (2 * (b.noting q).capacity) (b.noting q).limit
              samples := (b.noting q).samples ++ [(q, v)] }, .ok ())
      else ({ (b.noting q) with samples := (b.noting q).samples ++ [(q, v)] }, .ok ()) := rfl

/-- An append to a buffer with room adds the sample. -/
theorem append_of_ne {b : SampleBuffer} {q : Qualifier} (v : Int) (h : b.size ≠ b.capacity) :
    b.append q v =
      ({ (b.noting q) with capacity := b.capacity, samples := b.samples ++ [(q, v)] }, .ok ()) := by
  simp only [append_eq_noting, noting_size, noting_samples, noting_capacity, if_neg h]

/-- An append to a full buffer below its limit doubles the capacity, up to the limit, and adds
the sample. -/
theorem append_of_grow {b : SampleBuffer} {q : Qualifier} (v : Int) (h : b.size = b.capacity)
    (hg : b.capacity < min (2 * b.capacity) (b.noting q).limit) :
    b.append q v =
      ({ (b.noting q) with
          capacity := min (2 * b.capacity) (b.noting q).limit
          samples := b.samples ++ [(q, v)] }, .ok ()) := by
  simp only [append_eq_noting, noting_size, noting_samples, noting_capacity, if_pos h,
    if_neg (Nat.not_le.2 hg)]

/-- An append to a full buffer that cannot grow fails, having noted the resolution. -/
theorem append_of_stuck {b : SampleBuffer} {q : Qualifier} (v : Int) (h : b.size = b.capacity)
    (hg : min (2 * b.capacity) (b.noting q).limit ≤ b.capacity) :
    b.append q v = (b.noting q, .error ⟨b.capacity⟩) := by
  simp only [append_eq_noting, noting_size, noting_capacity, if_pos h, if_pos hg]

/-! ### The invariant of the calls -/

/-- What a buffer for a window keeps along its calls: its size within its capacity, its capacity
within its limit and at least `min 4 window`, a millisecond sample noted exactly when one is held,
and, while none is, the capacity that doubling from four reaches for its size, capped at the
window. -/
structure Grown (window : Nat) (b : SampleBuffer) : Prop where
  window_eq : b.window = window
  size_le_capacity : b.size ≤ b.capacity
  capacity_le_limit : b.capacity ≤ b.limit
  initial_le_capacity : min 4 window ≤ b.capacity
  hasMillis_iff : b.hasMillis = true ↔ ∃ s ∈ b.samples, s.1.isMillis = true
  doubling : b.hasMillis = false → b.capacity = min window (max 4 (2 ^ Nat.clog 2 b.size))

theorem grown_empty (window : Nat) : (empty window).Grown window where
  window_eq := rfl
  size_le_capacity := by simp [empty, size]
  capacity_le_limit := by simp [empty, limit, initialCapacity]
  initial_le_capacity := by simp [empty, initialCapacity]
  hasMillis_iff := by simp [empty]
  doubling _ := by simp [empty, size, initialCapacity, Nat.min_comm]

section Grown

variable {W : Nat} {b : SampleBuffer}

theorem Grown.reset (h : b.Grown W) : b.reset.Grown W := by
  rw [SampleBuffer.reset, h.window_eq]
  exact grown_empty W

/-- The buffer after an append that added the sample with capacity `c`: it keeps the invariant
when `c` holds the new sample, stays within the limit, and is what doubling reaches while every
sample counts seconds. -/
theorem Grown.added (h : b.Grown W) (q : Qualifier) (v : Int) {c : Nat} (hc : b.capacity ≤ c)
    (hcl : c ≤ (b.noting q).limit) (hsc : b.size < c)
    (hd : b.hasMillis = false → q.isMillis = false →
      c = min W (max 4 (2 ^ Nat.clog 2 (b.size + 1)))) :
    ({ (b.noting q) with capacity := c, samples := b.samples ++ [(q, v)] }).Grown W where
  window_eq := by simp [h.window_eq]
  size_le_capacity := by simp only [size, List.length_append, List.length_singleton] at hsc ⊢; omega
  capacity_le_limit := hcl
  initial_le_capacity := le_trans h.initial_le_capacity hc
  hasMillis_iff := by
    simp only [noting_hasMillis, Bool.or_eq_true, h.hasMillis_iff, List.mem_append,
      List.mem_singleton]
    constructor
    · rintro (⟨s, hs, hm⟩ | hq)
      · exact ⟨s, .inl hs, hm⟩
      · exact ⟨(q, v), .inr rfl, hq⟩
    · rintro ⟨s, hs | rfl, hm⟩
      · exact .inl ⟨s, hs, hm⟩
      · exact .inr hm
  doubling hm := by
    simp only [noting_hasMillis, Bool.or_eq_false_iff] at hm
    simpa [size] using hd hm.1 hm.2

/-- Under the invariant, a full buffer is stuck exactly when it holds as many samples as the limit
that counts the new sample's resolution. -/
theorem Grown.stuck_iff (h : b.Grown W) (q : Qualifier) :
    (b.size = b.capacity ∧ min (2 * b.capacity) (b.noting q).limit ≤ b.capacity) ↔
      b.size = (b.noting q).limit := by
  have hsc := h.size_le_capacity
  have hcl := le_trans h.capacity_le_limit (limit_le_noting b q)
  -- no capacity comes only from a window of no seconds, where every limit is zero
  have hzero : b.capacity = 0 → (b.noting q).limit = 0 := by
    intro hc
    have hw : W = 0 := by
      have := h.initial_le_capacity
      omega
    rw [noting_limit, h.window_eq, hw]
    simp
  constructor
  · rintro ⟨hfull, hstuck⟩
    by_cases hc : b.capacity = 0
    · have := hzero hc
      omega
    · omega
  · intro hlim
    omega

/-- An append keeps the invariant when it succeeds. -/
theorem Grown.append (h : b.Grown W) {q : Qualifier} {v : Int} {b' : SampleBuffer}
    (hb : b.append q v = (b', .ok ())) : b'.Grown W := by
  have hsc := h.size_le_capacity
  have hcl := le_trans h.capacity_le_limit (limit_le_noting b q)
  by_cases hfull : b.size = b.capacity
  · by_cases hstuck : min (2 * b.capacity) (b.noting q).limit ≤ b.capacity
    · rw [append_of_stuck v hfull hstuck] at hb
      cases hb
    · rw [append_of_grow v hfull (by omega)] at hb
      cases hb
      refine h.added q v (by omega) (min_le_right _ _) (by omega) fun hm hq => ?_
      -- the capacity was below the window, so it was what doubling reached, and full
      have hlim : (b.noting q).limit = W := by simp [noting_limit, hm, hq, h.window_eq]
      have hdb := h.doubling hm
      rw [hlim] at hstuck ⊢
      have hn : b.size = max 4 (2 ^ Nat.clog 2 b.size) := by omega
      rw [max_four_pow_clog_succ_of_eq hn, hfull, Nat.min_comm]
  · rw [append_of_ne v hfull] at hb
    cases hb
    refine h.added q v (Nat.le_refl _) hcl (by omega) fun hm _ => ?_
    -- room left: the size is below what doubling reached, which one more sample keeps
    have hdb := h.doubling hm
    have hlt : b.size < max 4 (2 ^ Nat.clog 2 b.size) := by omega
    rw [max_four_pow_clog_succ_of_lt hlt, hdb]

/-- On a buffer that keeps the invariant, an append fails exactly when the buffer holds as many
samples as the limit that counts the new sample's resolution, and otherwise adds the sample,
doubling the capacity when the buffer was full. -/
theorem Grown.append_eq (h : b.Grown W) (q : Qualifier) (v : Int) :
    b.append q v =
      if b.size = (b.noting q).limit then (b.noting q, .error ⟨b.capacity⟩)
      else
        ({ (b.noting q) with
            capacity := if b.size = b.capacity then min (2 * b.capacity) (b.noting q).limit
              else b.capacity
            samples := b.samples ++ [(q, v)] }, .ok ()) := by
  have hstuck := h.stuck_iff q
  by_cases hlim : b.size = (b.noting q).limit
  · obtain ⟨hfull, hmin⟩ := hstuck.2 hlim
    rw [if_pos hlim, append_of_stuck v hfull hmin]
  · rw [if_neg hlim]
    by_cases hfull : b.size = b.capacity
    · have hgrow : b.capacity < min (2 * b.capacity) (b.noting q).limit := by
        have := mt hstuck.1 hlim
        omega
      rw [append_of_grow v hfull hgrow, if_pos hfull]
    · rw [append_of_ne v hfull, if_neg hfull]

end Grown

/-! ### Runs of calls -/

/-- The buffer after a call, or the fault of an append that cannot grow the buffer: the program
stops at that fault. -/
def call (b : SampleBuffer) : BufferCall → Except GrowthFault SampleBuffer
  | .append q v =>
    match b.append q v with
    | (b', .ok ()) => .ok b'
    | (_, .error f) => .error f
  | .reset => .ok b.reset

/-- The buffer after a sequence of calls, or the fault that stopped it. -/
def run (b : SampleBuffer) : List BufferCall → Except GrowthFault SampleBuffer
  | [] => .ok b
  | c :: cs =>
    match b.call c with
    | .ok b' => b'.run cs
    | .error f => .error f

theorem call_append_eq_ok {b b' : SampleBuffer} {q : Qualifier} {v : Int} :
    b.call (.append q v) = .ok b' ↔ b.append q v = (b', .ok ()) := by
  simp only [call]
  split <;> simp_all

theorem run_cons_eq_ok {b b'' : SampleBuffer} {c : BufferCall} {cs : List BufferCall} :
    b.run (c :: cs) = .ok b'' ↔ ∃ b', b.call c = .ok b' ∧ b'.run cs = .ok b'' := by
  simp only [run]
  split <;> simp_all

section Run

variable {W : Nat} {b b' : SampleBuffer}

/-- A call that goes through keeps the invariant. -/
theorem Grown.call (h : b.Grown W) {c : BufferCall} (hc : b.call c = .ok b') : b'.Grown W := by
  cases c with
  | append q v => exact h.append (call_append_eq_ok.1 hc)
  | reset =>
    cases hc
    exact h.reset

/-- A call that goes through leaves one more sample after an append and none after a reset. -/
theorem size_call (h : b.Grown W) {c : BufferCall} (hc : b.call c = .ok b') :
    b'.size = c.tally b.size := by
  cases c with
  | append q v =>
    have hb := call_append_eq_ok.1 hc
    rw [h.append_eq] at hb
    split at hb
    · cases hb
    · cases hb
      simp [size, BufferCall.tally]
  | reset =>
    cases hc
    rfl

/-- A run that goes through keeps the invariant, and leaves as many samples as appends since the
last reset. -/
theorem Grown.run (h : b.Grown W) {cs : List BufferCall} (hr : b.run cs = .ok b') :
    b'.Grown W ∧ b'.size = cs.foldl BufferCall.tally b.size := by
  induction cs generalizing b with
  | nil =>
    cases hr
    exact ⟨h, rfl⟩
  | cons c cs ih =>
    obtain ⟨b₁, hc, hr⟩ := run_cons_eq_ok.1 hr
    rw [List.foldl_cons, ← size_call h hc]
    exact ih (h.call hc) hr

end Run

/-! ### The growth law -/

/-- Along every run of appends and resets the size stays within the capacity and the capacity within
the limit; an append fails exactly at the limit of its resolution, and the capacity doubles from
four while no sample counts milliseconds. -/
theorem growth_law {W : Nat} {cs : List BufferCall} {b : SampleBuffer}
    (hrun : (empty W).run cs = .ok b) :
    b.size ≤ b.capacity ∧ b.capacity ≤ b.limit ∧ min 4 W ≤ b.capacity ∧
    (∀ q v, (b.append q v).2 = .error ⟨b.capacity⟩ ↔
      b.size = if b.hasMillis || q.isMillis then W * 1000 else W) ∧
    (W = 0 → ∀ q v, (b.append q v).2 ≠ .ok ()) ∧
    (∀ q v, b.size ≠ (if b.hasMillis || q.isMillis then W * 1000 else W) →
      (b.append q v).2 = .ok () ∧ (b.append q v).1.samples = b.samples ++ [(q, v)] ∧
        (b.append q v).1.get b.size = .ok (q, v) ∧
        ∀ i < b.size, (b.append q v).1.get i = b.get i) ∧
    b.size = cs.foldl BufferCall.tally 0 ∧
    ((∀ s ∈ b.samples, s.1.isMillis = false) →
      b.capacity = min W (max 4 (2 ^ Nat.clog 2 (cs.foldl BufferCall.tally 0)))) ∧
    b.reset.size = 0 ∧ b.reset.hasMillis = false ∧ b.reset.capacity = min 4 W := by
  obtain ⟨h, hsize⟩ := (grown_empty W).run hrun
  replace hsize : b.size = cs.foldl BufferCall.tally 0 := hsize
  have hlimit : ∀ q, (b.noting q).limit = if b.hasMillis || q.isMillis then W * 1000 else W := by
    intro q
    rw [noting_limit, h.window_eq]
  have hfault : ∀ q v, (b.append q v).2 = .error ⟨b.capacity⟩ ↔ b.size = (b.noting q).limit := by
    intro q v
    rw [h.append_eq]
    by_cases hl : b.size = (b.noting q).limit <;> simp [hl]
  refine ⟨h.size_le_capacity, h.capacity_le_limit, h.initial_le_capacity,
    fun q v => hlimit q ▸ hfault q v, fun hw q v => ?_, fun q v hne => ?_, hsize, fun hsec => ?_,
    ?_⟩
  · have hcap := le_trans h.size_le_capacity h.capacity_le_limit
    have hzero : b.size = (b.noting q).limit := by
      rw [hlimit, hw]
      simp only [limit, h.window_eq, hw] at hcap
      simp only [Nat.zero_mul, ite_self]
      split at hcap <;> omega
    rw [(hfault q v).2 hzero]
    simp
  · rw [h.append_eq, if_neg (hlimit q ▸ hne)]
    refine ⟨rfl, rfl, ?_, fun i hi => ?_⟩
    · simp [get, size]
    · have hi' : i < b.samples.length := hi
      simp only [get, List.getElem?_append_left hi', List.getElem?_eq_getElem hi']
  · have hm : b.hasMillis = false := by
      rw [← Bool.not_eq_true, h.hasMillis_iff]
      rintro ⟨s, hs, hms⟩
      simp [hsec s hs] at hms
    rw [h.doubling hm, hsize]
  · simp [SampleBuffer.reset, h.window_eq, empty, size, initialCapacity]

/-- A buffer for ten seconds after one integer sample at offset zero. -/
def oneSecondBuffer : SampleBuffer := ⟨[(.seconds 0, 1)], 4, 10, false⟩

/-- One sample in a ten-second buffer leaves the first capacity of four. -/
theorem growth_law_one_sample :
    (empty 10).run [.append (.seconds 0) 1] = .ok oneSecondBuffer ∧
    oneSecondBuffer.size ≤ oneSecondBuffer.capacity ∧
    oneSecondBuffer.capacity ≤ oneSecondBuffer.limit ∧ min 4 10 ≤ oneSecondBuffer.capacity ∧
    (∀ q v, (oneSecondBuffer.append q v).2 = .error ⟨oneSecondBuffer.capacity⟩ ↔
      oneSecondBuffer.size = if oneSecondBuffer.hasMillis || q.isMillis then 10 * 1000 else 10) ∧
    (10 = 0 → ∀ q v, (oneSecondBuffer.append q v).2 ≠ .ok ()) ∧
    (∀ q v,
      oneSecondBuffer.size ≠ (if oneSecondBuffer.hasMillis || q.isMillis then 10 * 1000 else 10) →
      (oneSecondBuffer.append q v).2 = .ok () ∧
        (oneSecondBuffer.append q v).1.samples = oneSecondBuffer.samples ++ [(q, v)] ∧
        (oneSecondBuffer.append q v).1.get oneSecondBuffer.size = .ok (q, v) ∧
        ∀ i < oneSecondBuffer.size, (oneSecondBuffer.append q v).1.get i = oneSecondBuffer.get i) ∧
    oneSecondBuffer.size = ([.append (.seconds 0) 1] : List BufferCall).foldl BufferCall.tally 0 ∧
    ((∀ s ∈ oneSecondBuffer.samples, s.1.isMillis = false) →
      oneSecondBuffer.capacity = min 10
        (max 4 (2 ^ Nat.clog 2 (([.append (.seconds 0) 1] : List BufferCall).foldl
          BufferCall.tally 0)))) ∧
    oneSecondBuffer.reset.size = 0 ∧ oneSecondBuffer.reset.hasMillis = false ∧
    oneSecondBuffer.reset.capacity = min 4 10 :=
  ⟨by rfl, growth_law (by rfl)⟩

end SampleBuffer

end SeriesIngest
