import Mathlib.Data.Finset.Card
import SeriesIngest.Write.Buffer

/-!
# Room in the sample buffer of a row

The samples of one row are the points of one window, in strictly increasing time. Their offsets
from the row's base time are distinct and below one window: below `window` seconds while all of
them count seconds, below `window * 1000` milliseconds in any case. So a row never holds more
samples than the buffer's limit, and a sample later than all others and still inside the window
always finds room: the buffer grows when full, and a full buffer below its limit can still grow.

`SampleBuffer.Ordered` is that invariant of the buffer of a row; `SampleBuffer.Ordered.append`
says that appending a later sample of the window succeeds and keeps it.
-/

namespace SeriesIngest

/-- A strictly increasing list of numbers below `n` has at most `n` entries. -/
theorem length_le_of_pairwise_lt {l : List Nat} {n : Nat} (hl : l.Pairwise (· < ·))
    (hn : ∀ x ∈ l, x < n) : l.length ≤ n := by
  have hnd : l.Nodup := hl.imp fun h => Nat.ne_of_lt h
  calc l.length = l.toFinset.card := (List.toFinset_card_of_nodup hnd).symm
    _ ≤ (Finset.range n).card :=
      Finset.card_le_card fun x hx => Finset.mem_range.2 (hn x (List.mem_toFinset.1 hx))
    _ = n := Finset.card_range n

/-- A second offset in milliseconds is its count of seconds times 1000. -/
theorem Qualifier.offsetMs_of_seconds {q : Qualifier} (h : q.isMillis = false) :
    q.offsetMs = q.deltaSeconds * 1000 := by
  cases q with
  | seconds _ => rfl
  | millis _ => cases h

namespace SampleBuffer

/-- The buffer as `append` sees it once it has taken note of the sample's resolution. -/
def noting (b : SampleBuffer) (q : Qualifier) : SampleBuffer :=
  if q.isMillis then { b with hasMillis := true } else b

/-- The buffer of a row with base time `base` (in seconds), after a point at `last` (in
milliseconds): the samples' offsets are strictly increasing, below one window, and not past
`last`; they count seconds while no millisecond sample came; and their number stays within the
capacity, the capacity within the limit. -/
structure Ordered (window base : Nat) (last : Int) (b : SampleBuffer) : Prop where
  window_eq : b.window = window
  increasing : (b.samples.map fun s => s.1.offsetMs).Pairwise (· < ·)
  below_window : ∀ s ∈ b.samples, s.1.offsetMs < window * 1000
  not_after : ∀ s ∈ b.samples, (1000 * base + s.1.offsetMs : Int) ≤ last
  seconds_only : b.hasMillis = false → ∀ s ∈ b.samples, s.1.isMillis = false
  size_le_capacity : b.size ≤ b.capacity
  capacity_le_limit : b.capacity ≤ b.limit
  capacity_pos : 0 < b.capacity

/-- An empty buffer of a window is the buffer of any row of that window. -/
theorem ordered_empty {window : Nat} (hw : 0 < window) (base : Nat) (last : Int) :
    (empty window).Ordered window base last :=
  { window_eq := rfl
    increasing := List.Pairwise.nil
    below_window := by simp [empty]
    not_after := by simp [empty]
    seconds_only := by simp [empty]
    size_le_capacity := by simp [empty, size]
    capacity_le_limit := by simp [empty, limit, initialCapacity]
    capacity_pos := by simp [empty, initialCapacity]; omega }

/-- A later point keeps the buffer ordered. -/
theorem Ordered.later {window base : Nat} {last last' : Int} {b : SampleBuffer}
    (h : b.Ordered window base last) (hl : last ≤ last') : b.Ordered window base last' :=
  { h with not_after := fun s hs => le_trans (h.not_after s hs) hl }

/-- A sample later than every sample of the buffer and inside the window finds the buffer below
its limit, once the limit counts the sample's own resolution. -/
theorem Ordered.size_lt_limit {window base : Nat} {last : Int} {b : SampleBuffer} {q : Qualifier}
    (h : b.Ordered window base last) (hq : q.offsetMs < window * 1000)
    (hlater : last < (1000 * base + q.offsetMs : Int)) : b.size < (b.noting q).limit := by
  -- the offsets with the new one are strictly increasing and below the window
  have hinc : (b.samples.map (fun s => s.1.offsetMs) ++ [q.offsetMs]).Pairwise (· < ·) := by
    refine List.pairwise_append.2 ⟨h.increasing, List.pairwise_singleton _ _, ?_⟩
    intro x hx y hy
    obtain ⟨s, hs, rfl⟩ := List.mem_map.1 hx
    rw [List.mem_singleton.1 hy]
    have := h.not_after s hs
    omega
  by_cases hm : b.hasMillis = true ∨ q.isMillis = true
  · have hlim : (b.noting q).limit = b.window * 1000 := by
      rcases hm with hm | hm <;> unfold noting limit <;> split <;> simp_all
    have hlen := length_le_of_pairwise_lt hinc (by
      intro x hx
      rcases List.mem_append.1 hx with hx | hx
      · obtain ⟨s, hs, rfl⟩ := List.mem_map.1 hx
        exact h.below_window s hs
      · rw [List.mem_singleton.1 hx]
        exact hq)
    simp only [List.length_append, List.length_map, List.length_singleton] at hlen
    rw [hlim, h.window_eq]
    simp only [size]
    omega
  · simp only [not_or, Bool.not_eq_true] at hm
    have hsec := h.seconds_only hm.1
    have hlim : (b.noting q).limit = b.window := by simp [noting, limit, hm.1, hm.2]
    have hsecs : (b.samples.map (fun s => s.1.deltaSeconds) ++ [q.deltaSeconds]).Pairwise
        (· < ·) := by
      have hmap : b.samples.map (fun s => s.1.deltaSeconds) ++ [q.deltaSeconds] =
          (b.samples.map (fun s => s.1.offsetMs) ++ [q.offsetMs]).map (· / 1000) := by
        simp only [List.map_append, List.map_map, List.map_cons, List.map_nil,
          Qualifier.offsetMs_of_seconds hm.2, Nat.mul_div_cancel _ (show 0 < 1000 by omega)]
        congr 1
        apply List.map_congr_left
        intro s hs
        simp [Qualifier.offsetMs_of_seconds (hsec s hs)]
      rw [hmap, List.pairwise_map]
      refine hinc.imp_of_mem fun {x y} hx hy hxy => ?_
      have hwhole : ∀ z ∈ b.samples.map (fun s => s.1.offsetMs) ++ [q.offsetMs], z % 1000 = 0 := by
        intro z hz
        rcases List.mem_append.1 hz with hz | hz
        · obtain ⟨s, hs, rfl⟩ := List.mem_map.1 hz
          simp [Qualifier.offsetMs_of_seconds (hsec s hs)]
        · simp [List.mem_singleton.1 hz, Qualifier.offsetMs_of_seconds hm.2]
      have := hwhole x hx
      have := hwhole y hy
      omega
    have hlen : (b.samples.map (fun s => s.1.deltaSeconds) ++ [q.deltaSeconds]).length ≤
        window := length_le_of_pairwise_lt hsecs (by
      intro x hx
      rcases List.mem_append.1 hx with hx | hx
      · obtain ⟨s, hs, rfl⟩ := List.mem_map.1 hx
        have := h.below_window s hs
        rw [Qualifier.offsetMs_of_seconds (hsec s hs)] at this
        omega
      · rw [List.mem_singleton.1 hx]
        rw [Qualifier.offsetMs_of_seconds hm.2] at hq
        omega)
    simp only [List.length_append, List.length_map, List.length_singleton] at hlen
    rw [hlim, h.window_eq]
    simp only [size]
    omega

/-- Appending a sample later than every sample of the buffer and inside the window succeeds:
the sample is added, and the buffer stays ordered with the sample as the last point. -/
theorem Ordered.append {window base : Nat} {last : Int} {b : SampleBuffer} {q : Qualifier}
    (h : b.Ordered window base last) (hq : q.offsetMs < window * 1000)
    (hlater : last < (1000 * base + q.offsetMs : Int)) (v : Int) :
    (b.append q v).2 = .ok () ∧ (b.append q v).1.samples = b.samples ++ [(q, v)] ∧
      (b.append q v).1.Ordered window base (1000 * base + q.offsetMs) := by
  have hroom := h.size_lt_limit hq hlater
  have hlim : b.limit ≤ (b.noting q).limit := by
    by_cases hq' : q.isMillis
    · simp only [noting, hq', if_true, limit]
      split <;> omega
    · simp [noting, hq']
  have hsamples : ∀ b' : SampleBuffer, b'.samples = b.samples ++ [(q, v)] →
      b'.window = b.window → b'.hasMillis = (b.noting q).hasMillis →
      b'.size ≤ b'.capacity → b'.capacity ≤ b'.limit → 0 < b'.capacity →
      b'.Ordered window base (1000 * base + q.offsetMs) := by
    intro b' hs hw hm h1 h2 h3
    refine ⟨hw.trans h.window_eq, ?_, ?_, ?_, ?_, h1, h2, h3⟩
    · rw [hs, List.map_append]
      refine List.pairwise_append.2 ⟨h.increasing, List.pairwise_singleton _ _, ?_⟩
      intro x hx y hy
      obtain ⟨s, hs', rfl⟩ := List.mem_map.1 hx
      simp only [List.map_cons, List.map_nil, List.mem_singleton] at hy
      subst hy
      have := h.not_after s hs'
      omega
    · intro s hs'
      rw [hs] at hs'
      rcases List.mem_append.1 hs' with hs' | hs'
      · exact h.below_window s hs'
      · rw [List.mem_singleton.1 hs']
        exact hq
    · intro s hs'
      rw [hs] at hs'
      rcases List.mem_append.1 hs' with hs' | hs'
      · exact le_trans (h.not_after s hs') (by omega)
      · rw [List.mem_singleton.1 hs']
    · intro hf s hs'
      rw [hs] at hs'
      have hf' : b.hasMillis = false ∧ q.isMillis = false := by
        unfold noting at hm
        split at hm <;> simp_all
      rcases List.mem_append.1 hs' with hs' | hs'
      · exact h.seconds_only hf'.1 s hs'
      · rw [List.mem_singleton.1 hs']
        exact hf'.2
  have hcap := h.capacity_pos
  have hsize := h.size_le_capacity
  have hcl := h.capacity_le_limit
  unfold SampleBuffer.append
  dsimp only
  -- `noting` is the buffer `append` works on
  rw [show (if q.isMillis = true then { b with hasMillis := true } else b) = b.noting q from rfl]
  have hsz : (b.noting q).size = b.size := by unfold noting; split <;> rfl
  have hcp : (b.noting q).capacity = b.capacity := by unfold noting; split <;> rfl
  have hsm : (b.noting q).samples = b.samples := by unfold noting; split <;> rfl
  have hwn : (b.noting q).window = b.window := by unfold noting; split <;> rfl
  rw [hsz, hcp]
  split
  · next hfull =>
    -- a full buffer below its limit grows
    have hgrow : ¬ min (2 * b.capacity) (b.noting q).limit ≤ b.capacity := by omega
    rw [if_neg hgrow]
    refine ⟨rfl, by simp [hsm], hsamples _ (by simp [hsm]) hwn rfl ?_ (min_le_right _ _) ?_⟩
    · simp only [size, List.length_append, hsm, List.length_singleton]
      simp only [size] at hfull
      omega
    · show 0 < min (2 * b.capacity) (b.noting q).limit
      omega
  · next hnotfull =>
    refine ⟨rfl, by simp [hsm], hsamples _ (by simp [hsm]) hwn rfl ?_ ?_ ?_⟩
    · simp only [size, List.length_append, hsm, List.length_singleton]
      simp only [size] at hnotfull hsize
      omega
    · show b.capacity ≤ (b.noting q).limit
      exact le_trans hcl hlim
    · exact hcap

end SampleBuffer

end SeriesIngest
