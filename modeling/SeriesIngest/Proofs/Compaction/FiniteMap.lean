import Mathlib.Data.Finmap
import SeriesIngest.Proofs.Store.MapModel

/-!
# The compaction queue is a finite map

Seen from outside, the compaction queue is a finite map from rows to base times (`QueueMap`).
Queuing a row sets its base time, replacing one queued before; asking whether a row is queued
and how many rows are queued reads the map. Draining at `now` gives the entries whose window has
passed, `base + window ≤ now` in exact arithmetic, in ascending key order and so each row once,
and removes exactly those: every entry before the drain is drained or kept, never both
(`QueueMap.Drained`).

The queue keeps its rows in a list in key order (`BytesMap.Sorted`), which queuing and draining
keep. Read as a finite map (`BytesMap.toFinmap`), each call acts on the queue as on the map and
answers as the map does (`CompactionQueue.step_answers`), so every run of calls on a new queue
is a run of the map (`CompactionQueue.queue_refines_finite_map`).

Main statement: `CompactionQueue.queue_refines_finite_map`.
-/

namespace SeriesIngest

/-! ### Maps in key order as finite maps -/

theorem Finmap.keys_insert {α : Type} {β : α → Type} [DecidableEq α] (s : Finmap β) (a : α)
    (b : β a) : (s.insert a b).keys = insert a s.keys := by
  ext x
  simp [Finmap.mem_keys, Finmap.mem_insert]

namespace BytesMap

variable {α : Type}

/-- The finite map of a map's entries. -/
def toFinmap (m : BytesMap α) : Finmap fun _ : Bytes => α :=
  List.toFinmap (m.map fun e => ⟨e.1, e.2⟩)

theorem toFinmap_cons (k : Bytes) (v : α) (m : BytesMap α) :
    BytesMap.toFinmap ((k, v) :: m) = m.toFinmap.insert k v := rfl

theorem lookup_toFinmap (m : BytesMap α) (k : Bytes) : m.toFinmap.lookup k = m.find? k := by
  induction m with
  | nil => rfl
  | cons e m ih =>
    obtain ⟨k', v'⟩ := e
    rw [toFinmap_cons, find?_cons]
    by_cases h : k' = k
    · subst h
      rw [Finmap.lookup_insert, if_pos rfl]
    · rw [if_neg h, Finmap.lookup_insert_of_ne _ (Ne.symm h), ih]

/-- In a map kept in key order a key finds exactly its entry. -/
theorem find?_eq_some_iff {m : BytesMap α} (hm : m.Sorted) (k : Bytes) (v : α) :
    m.find? k = some v ↔ (k, v) ∈ m :=
  ⟨mem_of_find?, find?_of_mem hm⟩

theorem toFinmap_insert (m : BytesMap α) (k : Bytes) (v : α) :
    (m.insert k v).toFinmap = m.toFinmap.insert k v := by
  refine Finmap.ext_lookup fun k' => ?_
  rw [lookup_toFinmap, find?_insert]
  by_cases h : k' = k
  · subst h
    rw [if_pos rfl, Finmap.lookup_insert]
  · rw [if_neg h, Finmap.lookup_insert_of_ne _ h, lookup_toFinmap]

/-- A map kept in key order has as many keys as entries. -/
theorem card_keys_toFinmap {m : BytesMap α} (hm : m.Sorted) : m.toFinmap.keys.card = m.length := by
  induction m with
  | nil => rfl
  | cons e m ih =>
    obtain ⟨k, v⟩ := e
    rw [Sorted, List.pairwise_cons] at hm
    -- the first key is below every later one, so the rest does not hold it
    have hk : k ∉ (BytesMap.toFinmap m).keys := by
      rw [Finmap.mem_keys, ← Finmap.lookup_eq_none, lookup_toFinmap]
      cases hf : BytesMap.find? m k with
      | none => rfl
      | some w => exact absurd (hm.1 _ (mem_of_find? hf)) (List.lt_irrefl k)
    rw [toFinmap_cons, Finmap.keys_insert, Finset.card_insert_of_notMem hk, ih hm.2,
      List.length_cons]

end BytesMap

/-! ### The map model -/

/-- The compaction queue as a finite map from rows to base times. -/
abbrev QueueMap := Finmap fun _ : Bytes => UInt32

/-- The calls on a compaction queue: queuing a row with its base time, draining at a time,
asking whether a row is queued, and asking how many are. -/
inductive QueueCall where
  | schedule (row : Bytes) (base : UInt32)
  | drain (now : Int)
  | contains (row : Bytes)
  | size
  deriving Repr, DecidableEq

/-- The answer to a call. -/
inductive QueueAnswer where
  | scheduled
  | drained (entries : List (Bytes × UInt32))
  | contains (queued : Bool)
  | size (n : Nat)
  deriving Repr, DecidableEq

namespace QueueMap

/-- Draining `m` at `now`, with a window of `window` seconds, gives the entries `out` and keeps
the map `m'`. -/
structure Drained (window : UInt32) (now : Int) (m : QueueMap) (out : List (Bytes × UInt32))
    (m' : QueueMap) : Prop where
  /-- The drained entries come in ascending key order, so each row once. -/
  ascending : out.Pairwise fun a b => a.1 < b.1
  /-- The drained entries are those whose window has passed. -/
  drained : ∀ r b, (r, b) ∈ out ↔ m.lookup r = some b ∧ (b.toNat : Int) + window.toNat ≤ now
  /-- Every entry before the drain is drained or kept, and nothing else is kept. -/
  conserved : ∀ r b, m.lookup r = some b ↔ (r, b) ∈ out ∨ m'.lookup r = some b
  /-- No drained row is kept. -/
  disjoint : ∀ r b, (r, b) ∈ out → r ∉ m'

/-- One call on the map: its answer and the map after it. -/
inductive Answers (window : UInt32) : QueueMap → QueueCall → QueueAnswer → QueueMap → Prop
  | schedule (m : QueueMap) (row : Bytes) (base : UInt32) :
      Answers window m (.schedule row base) .scheduled (m.insert row base)
  | drain {m m' : QueueMap} {out : List (Bytes × UInt32)} (now : Int) :
      Drained window now m out m' → Answers window m (.drain now) (.drained out) m'
  | contains (m : QueueMap) (row : Bytes) :
      Answers window m (.contains row) (.contains (decide (row ∈ m))) m
  | size (m : QueueMap) : Answers window m .size (.size m.keys.card) m

/-- Calls one after another on the map, with their answers. -/
inductive Runs (window : UInt32) : QueueMap → List QueueCall → List QueueAnswer → QueueMap → Prop
  | nil (m : QueueMap) : Runs window m [] [] m
  | cons {m m' m'' : QueueMap} {c : QueueCall} {a : QueueAnswer} {cs : List QueueCall}
      {as : List QueueAnswer} :
      Answers window m c a m' → Runs window m' cs as m'' → Runs window m (c :: cs) (a :: as) m''

end QueueMap

/-! ### The queue refines the map -/

namespace CompactionQueue

/-- The queue read as a finite map. -/
def toMap (c : CompactionQueue) : QueueMap := c.rows.toFinmap

/-- One call on the queue and its answer. -/
def step (c : CompactionQueue) : QueueCall → CompactionQueue × QueueAnswer
  | .schedule row base => (c.schedule row base, .scheduled)
  | .drain now => ((c.drain now).1, .drained (c.drain now).2)
  | .contains row => (c, .contains (c.contains row))
  | .size => (c, .size c.size)

/-- Calls one after another, with their answers. -/
def run (c : CompactionQueue) : List QueueCall → CompactionQueue × List QueueAnswer
  | [] => (c, [])
  | call :: calls => ((c.step call).1.run calls).map id ((c.step call).2 :: ·)

variable {c : CompactionQueue}

@[simp] theorem window_step (call : QueueCall) : (c.step call).1.window = c.window := by
  cases call <;> rfl

/-- Queuing and draining keep the rows in key order. -/
theorem sorted_step (hc : c.rows.Sorted) (call : QueueCall) : (c.step call).1.rows.Sorted := by
  cases call with
  | schedule row base => exact BytesMap.sorted_insert hc row base
  | drain now => exact hc.filter _
  | contains | size => exact hc

/-- Draining a queue in key order lists the ready entries in key order and keeps the others. -/
theorem drained_drain (hc : c.rows.Sorted) (now : Int) :
    QueueMap.Drained c.window now c.toMap (c.drain now).2 (c.drain now).1.toMap := by
  have hkept : (c.drain now).1.rows.Sorted := c.sorted_step hc (.drain now)
  have hlookup : ∀ r b, c.toMap.lookup r = some b ↔ (r, b) ∈ c.rows := fun r b => by
    rw [toMap, BytesMap.lookup_toFinmap, BytesMap.find?_eq_some_iff hc]
  have hlookup' : ∀ r b, (c.drain now).1.toMap.lookup r = some b ↔
      (r, b) ∈ c.rows ∧ ¬ (b.toNat : Int) + c.window.toNat ≤ now := fun r b => by
    rw [toMap, BytesMap.lookup_toFinmap, BytesMap.find?_eq_some_iff hkept]
    simp [drain, ready]
  have hout : ∀ r b, (r, b) ∈ (c.drain now).2 ↔
      (r, b) ∈ c.rows ∧ (b.toNat : Int) + c.window.toNat ≤ now := fun r b => by
    simp [drain, ready]
  refine ⟨hc.filter _, fun r b => by rw [hout, hlookup], fun r b => ?_, fun r b hr hm => ?_⟩
  · rw [hlookup, hout, hlookup']
    by_cases hb : (b.toNat : Int) + c.window.toNat ≤ now <;> simp [hb]
  · -- a row kept has a base that is not ready, so it is not the drained entry of that row
    obtain ⟨b', hb'⟩ := Finmap.mem_iff.1 hm
    obtain ⟨hmem', hnot⟩ := (hlookup' r b').1 hb'
    obtain ⟨hmem, hready⟩ := (hout r b).1 hr
    have hfind := BytesMap.find?_of_mem hc hmem
    rw [BytesMap.find?_of_mem hc hmem', Option.some.injEq] at hfind
    exact hnot (hfind ▸ hready)

/-- One call on a queue in key order acts on its map as on the map model, with the same
answer. -/
theorem step_answers (hc : c.rows.Sorted) (call : QueueCall) :
    QueueMap.Answers c.window c.toMap call (c.step call).2 (c.step call).1.toMap := by
  cases call with
  | schedule row base =>
    have h : (c.schedule row base).toMap = c.toMap.insert row base :=
      BytesMap.toFinmap_insert c.rows row base
    exact h ▸ .schedule c.toMap row base
  | drain now => exact .drain now (c.drained_drain hc now)
  | contains row =>
    have h : c.contains row = decide (row ∈ c.toMap) := by
      rw [Bool.eq_iff_iff, decide_eq_true_iff, ← Finmap.lookup_isSome, toMap,
        BytesMap.lookup_toFinmap]
      rfl
    show QueueMap.Answers c.window c.toMap _ (.contains (c.contains row)) c.toMap
    rw [h]
    exact .contains c.toMap row
  | size =>
    have h : c.size = c.toMap.keys.card := (BytesMap.card_keys_toFinmap hc).symm
    show QueueMap.Answers c.window c.toMap _ (.size c.size) c.toMap
    rw [h]
    exact .size c.toMap

/-- Every run of calls on a queue in key order is a run of its map. -/
theorem runs_toMap (hc : c.rows.Sorted) (calls : List QueueCall) :
    QueueMap.Runs c.window c.toMap calls (c.run calls).2 (c.run calls).1.toMap := by
  induction calls generalizing c with
  | nil => exact .nil _
  | cons call calls ih =>
    have hstep := c.step_answers hc call
    have hrest := ih (c.sorted_step hc call)
    rw [window_step] at hrest
    exact .cons hstep hrest

/-- Over every sequence of calls the compaction queue is a finite map from rows to base times, and
a drain at `now` removes and gives exactly the ripe entries, once each, in key order. -/
theorem queue_refines_finite_map (window : UInt32) (calls : List QueueCall) :
    QueueMap.Runs window ∅ calls (({ window } : CompactionQueue).run calls).2
      (({ window } : CompactionQueue).run calls).1.toMap :=
  runs_toMap (c := { window }) List.Pairwise.nil calls

/-- A row queued twice is one entry; draining before the window has passed gives nothing, and
at its end the rows in key order. -/
example : (({ window := 3600 } : CompactionQueue).run
    [.schedule [98] 0, .schedule [97] 3600, .schedule [99] 0, .schedule [99] 0, .size,
      .drain 3599, .drain 3600, .contains [97], .drain 7200, .size]).2 =
    [.scheduled, .scheduled, .scheduled, .scheduled, .size 3, .drained [],
      .drained [([98], 0), ([99], 0)], .contains true, .drained [([97], 3600)], .size 0] := by
  decide

end CompactionQueue

end SeriesIngest
