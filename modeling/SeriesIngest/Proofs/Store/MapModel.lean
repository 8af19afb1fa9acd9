import SeriesIngest.Proofs.Store.KeyOrder
import SeriesIngest.Store.Calls

/-!
# The store is a map

Seen from outside, the store is a map from table names to a column family and the bytes of each
cell by row key and column, with the failure switch, the two write counters and the flush
interval beside it (`StoreMap`). Creating a table that exists changes nothing; a put replaces a
cell, an append adds its bytes at the end of the cell or makes it; a write is refused first by
the switch, then for a missing table, then for another family, and a refused write changes
nothing; a write taken counts once, as durable or deferred.

The store keeps its tables in a list and its rows and cells in maps kept in key order. Every call
acts on its abstraction (`Store.toMap`) as on the map, and gives the same answer
(`Store.step_toMap`), so over every sequence of calls the store and the map agree
(`Store.run_toMap`). A listing reads the map back in order: rows ascend by key, cells by column,
and a listed row is exactly the row of the map, never empty. The flush interval is the last one
set. Stores made with one handle share it (`Store.shareRun`): every such store reads the last
interval set through any of them.

Main statement: `Store.store_refines_map`.
-/

namespace SeriesIngest

/-! ### Maps kept in key order -/

namespace BytesMap

variable {α : Type}

theorem find?_cons (k' : Bytes) (v' : α) (m : BytesMap α) (k : Bytes) :
    BytesMap.find? ((k', v') :: m) k = if k' = k then some v' else m.find? k := by
  by_cases h : k' = k <;> simp [find?, h]

/-- In a map kept in key order an entry is what its key finds. -/
theorem find?_of_mem {m : BytesMap α} (hm : m.Sorted) {k : Bytes} {v : α} (h : (k, v) ∈ m) :
    m.find? k = some v := by
  induction m with
  | nil => cases h
  | cons e m ih =>
    obtain ⟨k', v'⟩ := e
    rw [Sorted, List.pairwise_cons] at hm
    rw [find?_cons]
    rcases List.mem_cons.1 h with he | he
    · cases he
      simp
    · have hlt : k' < k := hm.1 (k, v) he
      rw [if_neg fun e => List.lt_irrefl _ (e ▸ hlt)]
      exact ih hm.2 he

/-- Two maps kept in key order that find the same values are equal. -/
theorem eq_of_find? {m m' : BytesMap α} (hm : m.Sorted) (hm' : m'.Sorted)
    (h : ∀ k, m.find? k = m'.find? k) : m = m' := by
  have hnd : ∀ {l : BytesMap α}, l.Sorted → l.Nodup := by
    intro l hl
    refine hl.imp ?_
    intro a b hlt e
    subst e
    exact List.lt_irrefl _ hlt
  have hmem : ∀ e, e ∈ m ↔ e ∈ m' := by
    intro e
    constructor
    · intro he
      exact mem_of_find? ((h e.1).symm.trans (find?_of_mem hm he))
    · intro he
      exact mem_of_find? ((h e.1).trans (find?_of_mem hm' he))
  refine List.Perm.eq_of_pairwise (fun a b _ _ hab hba => ?_) hm hm'
    ((List.perm_ext_iff_of_nodup (hnd hm) (hnd hm')).2 hmem)
  exact absurd hba (List.lt_asymm hab)

theorem insert_ne_nil (m : BytesMap α) (k : Bytes) (v : α) : m.insert k v ≠ [] := by
  cases m with
  | nil => simp [insert]
  | cons e m =>
    obtain ⟨k', v'⟩ := e
    rw [insert_cons]
    split_ifs <;> simp

end BytesMap

/-! ### The map model -/

/-- A table as a map: its column family, and the bytes of each cell by row key and column. -/
@[ext]
structure TableMap where
  family : Bytes
  cells : Bytes → Bytes → Option Bytes

/-- The store as a map from table names, with its switch, counters and flush interval. -/
@[ext]
structure StoreMap where
  tables : Bytes → Option TableMap
  failing : Bool
  durableWrites : Nat
  deferredWrites : Nat
  flushInterval : UInt16

/-- The write a call asks for: a put's or an append's. -/
def StoreCall.writes? : StoreCall → Option CellWrite
  | .put w => some w
  | .append w => some w
  | _ => none

/-- Whether a call, with its answer, is a write the store took and counts as durable (`d` true)
or deferred (`d` false). -/
def StoreCall.countsAs (d : Bool) (c : StoreCall) (a : Except StoreError Unit) : Bool :=
  a.toBool && c.writes?.any fun w => w.durable == d

namespace TableMap

/-- The table with one cell set. -/
def set (t : TableMap) (key column value : Bytes) : TableMap :=
  { t with cells := fun k c => if k = key ∧ c = column then some value else t.cells k c }

end TableMap

namespace StoreMap

/-- The bytes of a cell: none where the table or the cell is missing. -/
def cell (m : StoreMap) (table key column : Bytes) : Option Bytes :=
  (m.tables table).bind fun t => t.cells key column

/-- Creates a table with a family and no cells; a table that exists is left as it is. -/
def createTable (m : StoreMap) (name family : Bytes) : StoreMap :=
  match m.tables name with
  | some _ => m
  | none =>
    { m with tables := fun n => if n = name then some ⟨family, fun _ _ => none⟩ else m.tables n }

/-- The table a write goes to: the switch refuses it first, then a missing table, then another
family. -/
def target (m : StoreMap) (w : CellWrite) : Except StoreError TableMap :=
  if m.failing then .error (.rejected "store is failing writes")
  else
    match m.tables w.table with
    | none => .error (.tableNotFound w.table)
    | some t => if t.family = w.family then .ok t else .error (.familyNotFound w.table w.family)

/-- Sets the cell of a write to what `cell` makes of its old bytes, and counts the write as
durable or deferred. -/
def write (m : StoreMap) (w : CellWrite) (cell : Option Bytes → Bytes) :
    Except StoreError StoreMap := do
  let t ← m.target w
  pure { m with
    tables := fun n =>
      if n = w.table then some (t.set w.key w.column (cell (t.cells w.key w.column)))
      else m.tables n
    durableWrites := if w.durable then m.durableWrites + 1 else m.durableWrites
    deferredWrites := if w.durable then m.deferredWrites else m.deferredWrites + 1 }

/-- A put replaces the cell. -/
def put (m : StoreMap) (w : CellWrite) : Except StoreError StoreMap :=
  m.write w fun _ => w.value

/-- An append adds its bytes at the end of the cell, or makes the cell. -/
def append (m : StoreMap) (w : CellWrite) : Except StoreError StoreMap :=
  m.write w fun old => old.getD [] ++ w.value

/-- One call to the map and its answer. -/
def step (m : StoreMap) : StoreCall → StoreMap × Except StoreError Unit
  | .createTable name family => (m.createTable name family, .ok ())
  | .put w => afterWrite m (m.put w)
  | .append w => afterWrite m (m.append w)
  | .setFailing on => ({ m with failing := on }, .ok ())
  | .setFlushInterval ms => ({ m with flushInterval := ms }, .ok ())

/-- Calls one after another, with their answers. -/
def run (m : StoreMap) : List StoreCall → StoreMap × List (Except StoreError Unit)
  | [] => (m, [])
  | c :: cs => ((m.step c).1.run cs).map id ((m.step c).2 :: ·)

/-- A row of the store lists the row `key` of `table` in the map: in column order, not empty,
and with the map's bytes in every column. -/
def Lists (m : StoreMap) (table key : Bytes) (r : Row) : Prop :=
  r ≠ [] ∧ r.Sorted ∧ ∀ column, r.find? column = m.cell table key column

end StoreMap

/-! ### The store and its abstraction -/

/-- A table as the map model sees it. -/
def Table.toMap (t : Table) : TableMap :=
  ⟨t.family, fun key column => (t.rows.find? key).bind fun r => r.find? column⟩

namespace Store

/-- The store as the map model sees it. -/
def toMap (s : Store) : StoreMap :=
  ⟨fun name => (s.table? name).map Table.toMap, s.failing, s.durableWrites, s.deferredWrites,
    s.flushInterval⟩

/-- A store whose tables list their rows, and rows their cells, in key order, with no empty
row. -/
structure WellFormed (s : Store) : Prop where
  sorted : s.Sorted
  rows_ne_nil : ∀ e ∈ s.tables, ∀ r ∈ e.2.rows, r.2 ≠ []

theorem wellFormed_empty (fi : UInt16) : ({ flushInterval := fi } : Store).WellFormed where
  sorted := by simp [Store.Sorted]
  rows_ne_nil := by simp

/-- A put or an append: the cell of the write set to what `cell` makes of its old bytes. -/
def write (s : Store) (w : CellWrite) (cell : Option Bytes → Bytes) : Except StoreError Store := do
  let t ← s.target w
  let row := (t.rows.find? w.key).getD []
  pure (s.commit w.table
    { t with rows := t.rows.insert w.key (row.insert w.column (cell (row.find? w.column))) }
    w.durable)

theorem put_eq_write (s : Store) (w : CellWrite) : s.put w = s.write w fun _ => w.value := rfl

theorem append_eq_write (s : Store) (w : CellWrite) :
    s.append w = s.write w fun old => old.getD [] ++ w.value := rfl

variable {s : Store}

/-- The store finds the table of a write as the map does. -/
theorem target_toMap (w : CellWrite) : s.toMap.target w = (s.target w).map Table.toMap := by
  unfold StoreMap.target target
  cases hf : s.failing
  · simp only [toMap, hf, Bool.false_eq_true, if_false]
    cases ht : s.table? w.table with
    | none => rfl
    | some t =>
      simp only [Option.map_some]
      by_cases hfam : t.family = w.family <;> simp [Table.toMap, hfam, Except.map]
  · simp [toMap, hf, Except.map]

/-- A write the store takes sets the cell of the map as the map's write does. -/
theorem write_toMap (w : CellWrite) (cell : Option Bytes → Bytes) :
    s.toMap.write w cell = (s.write w cell).map toMap := by
  unfold StoreMap.write write
  rw [target_toMap]
  rcases ht : s.target w with e | t
  · rfl
  have htab := table?_of_target ht
  simp only [Except.map, bind, Except.bind, pure, Except.pure, Except.ok.injEq]
  -- the table of the write is replaced, every other table is as it was
  refine StoreMap.ext (funext fun n => ?_) rfl (by cases w.durable <;> rfl)
    (by cases w.durable <;> rfl) rfl
  simp only [toMap, table?_commit htab]
  split_ifs with hn
  · refine congrArg some (TableMap.ext rfl (funext fun k => funext fun c => ?_))
    simp only [Table.toMap, TableMap.set, BytesMap.find?_insert, BytesMap.find?_getD]
    by_cases hk : k = w.key
    · by_cases hc : c = w.column <;> simp [hk, hc, BytesMap.find?_insert, BytesMap.find?_getD]
    · simp [hk]
  · rfl

/-- Creating a table acts on the map as creating it there. -/
theorem createTable_toMap (name family : Bytes) :
    (s.createTable name family).toMap = s.toMap.createTable name family := by
  unfold createTable StoreMap.createTable
  cases ht : s.table? name with
  | some t => simp [toMap, ht]
  | none =>
    simp only [toMap, ht, Option.map_none]
    refine StoreMap.ext (funext fun n => ?_) rfl rfl rfl rfl
    -- the new table is the last, and no table before it has its name
    have hnone : s.tables.find? (fun e => decide (e.1 = name)) = none := by
      simpa [table?] using ht
    by_cases hn : n = name
    · subst hn
      simp [table?, List.find?_append, hnone, Table.toMap, BytesMap.find?]
    · simp [table?, List.find?_append, hn, Ne.symm hn]

/-- A refused write leaves the state; a taken one gives its new state. -/
theorem afterWrite_map {σ τ : Type} (f : σ → τ) (s : σ) (r : Except StoreError σ) :
    (afterWrite (f s) (r.map f)) = ((afterWrite s r).1 |> f, (afterWrite s r).2) := by
  cases r <;> rfl

/-- One call to the store is one call to the map, with the same answer. -/
theorem step_toMap (c : StoreCall) :
    (s.step c).1.toMap = (s.toMap.step c).1 ∧ (s.step c).2 = (s.toMap.step c).2 := by
  cases c with
  | createTable name family => exact ⟨createTable_toMap name family, rfl⟩
  | put w =>
    have h := afterWrite_map toMap s (s.write w fun _ => w.value)
    rw [← write_toMap] at h
    simp only [step, StoreMap.step, StoreMap.put, put_eq_write, h, and_self]
  | append w =>
    have h := afterWrite_map toMap s (s.write w fun old => old.getD [] ++ w.value)
    rw [← write_toMap] at h
    simp only [step, StoreMap.step, StoreMap.append, append_eq_write, h, and_self]
  | setFailing on => exact ⟨rfl, rfl⟩
  | setFlushInterval ms => exact ⟨rfl, rfl⟩

/-- Over every sequence of calls, the store and the map agree on the state and on every
answer. -/
theorem run_toMap (s : Store) (cs : List StoreCall) :
    (s.run cs).1.toMap = (s.toMap.run cs).1 ∧ (s.run cs).2 = (s.toMap.run cs).2 := by
  induction cs generalizing s with
  | nil => exact ⟨rfl, rfl⟩
  | cons c cs ih =>
    obtain ⟨hstate, hanswer⟩ := s.step_toMap c
    obtain ⟨ih₁, ih₂⟩ := ih (s.step c).1
    simp only [run, StoreMap.run, Prod.map_fst, Prod.map_snd, id, ih₁, ih₂, hstate, hanswer,
      and_self]

/-! ### A listing reads the map in order -/

theorem toMap_cell (table key column : Bytes) :
    s.toMap.cell table key column = s.cell? table key column := by
  cases ht : s.table? table <;> simp [StoreMap.cell, toMap, cell?, row?, ht, Table.toMap]

/-- The rows of a table the store finds are not empty. -/
theorem WellFormed.rows_ne_nil_of_table? (hs : s.WellFormed) {name : Bytes} {t : Table}
    (h : s.table? name = some t) : ∀ r ∈ t.rows, r.2 ≠ [] := by
  simp only [table?, Option.map_eq_some_iff] at h
  obtain ⟨e, he, rfl⟩ := h
  exact hs.rows_ne_nil e (List.mem_of_find?_eq_some he)

/-- A row the store finds lists the map's row. -/
theorem WellFormed.lists_of_find? (hs : s.WellFormed) {table key : Bytes} {t : Table} {r : Row}
    (ht : s.table? table = some t) (hr : t.rows.find? key = some r) :
    s.toMap.Lists table key r := by
  have hmem := BytesMap.mem_of_find? hr
  refine ⟨hs.rows_ne_nil_of_table? ht _ hmem, (hs.sorted.table? ht).2 _ hmem, fun column => ?_⟩
  simp [StoreMap.cell, toMap, ht, Table.toMap, hr]

/-- The row of a key is the row that lists the map's row. -/
theorem WellFormed.row?_eq_some_iff (hs : s.WellFormed) (table key : Bytes) (r : Row) :
    s.row? table key = some r ↔ s.toMap.Lists table key r := by
  constructor
  · intro h
    simp only [row?, Option.bind_eq_some_iff] at h
    obtain ⟨t, ht, hr⟩ := h
    exact hs.lists_of_find? ht hr
  · rintro ⟨hne, hsorted, hcells⟩
    -- a listed row has a first cell, so the map has that cell, in a row of the store
    obtain ⟨⟨c, v⟩, rest, rfl⟩ := List.exists_cons_of_ne_nil hne
    have hcell : s.cell? table key c = some v := by
      rw [← toMap_cell, ← hcells c, BytesMap.find?_cons, if_pos rfl]
    simp only [cell?, Option.bind_eq_some_iff] at hcell
    obtain ⟨r', hr', -⟩ := hcell
    simp only [row?, Option.bind_eq_some_iff] at hr'
    obtain ⟨t, ht, hfind⟩ := hr'
    obtain ⟨-, hsorted', hcells'⟩ := hs.lists_of_find? ht hfind
    have heq : r' = (c, v) :: rest :=
      BytesMap.eq_of_find? hsorted' hsorted fun column =>
        (hcells' column).trans (hcells column).symm
    simp [row?, ht, hfind, heq]

/-- A key has no row exactly when the map has no cell in its row. -/
theorem WellFormed.row?_eq_none_iff (hs : s.WellFormed) (table key : Bytes) :
    s.row? table key = none ↔ ∀ column, s.toMap.cell table key column = none := by
  constructor
  · intro h column
    rw [toMap_cell, cell?, h, Option.bind_none]
  · intro h
    cases hr : s.row? table key with
    | none => rfl
    | some r =>
      obtain ⟨hne, -, hcells⟩ := (hs.row?_eq_some_iff table key r).1 hr
      obtain ⟨⟨c, v⟩, rest, rfl⟩ := List.exists_cons_of_ne_nil hne
      have hc := hcells c
      rw [h c, BytesMap.find?_cons, if_pos rfl] at hc
      cases hc

/-- A listing of a table gives its rows in ascending key order. -/
theorem WellFormed.rows_sorted (hs : s.WellFormed) (table : Bytes) : (s.rows table).Sorted := by
  unfold rows
  split
  · next t ht => exact (hs.sorted.table? ht).1
  · exact List.Pairwise.nil

/-- A listing of a table gives exactly the rows that list the map's rows. -/
theorem WellFormed.mem_rows_iff (hs : s.WellFormed) (table key : Bytes) (r : Row) :
    (key, r) ∈ s.rows table ↔ s.toMap.Lists table key r := by
  rw [← hs.row?_eq_some_iff]
  unfold rows row?
  cases ht : s.table? table with
  | none => simp
  | some t =>
    simp only [Option.bind_some]
    exact ⟨BytesMap.find?_of_mem (hs.sorted.table? ht).1, BytesMap.mem_of_find?⟩

/-! ### Every call keeps the store well formed -/

theorem WellFormed.write (hs : s.WellFormed) {w : CellWrite} {cell : Option Bytes → Bytes}
    {s' : Store} (h : s.write w cell = .ok s') : s'.WellFormed := by
  unfold Store.write at h
  rcases ht : s.target w with e | t <;>
    simp only [ht, bind, Except.bind, pure, Except.pure, reduceCtorEq, Except.ok.injEq] at h
  subst h
  have htab := table?_of_target ht
  refine ⟨hs.sorted.commit ((hs.sorted.table? htab).setCell _ _ _) _ _, fun e he r hr => ?_⟩
  simp only [commit, List.mem_map] at he
  obtain ⟨e', he', rfl⟩ := he
  split_ifs at hr
  · rcases BytesMap.mem_insert hr with rfl | hr
    · exact BytesMap.insert_ne_nil _ _ _
    · exact hs.rows_ne_nil_of_table? htab r hr
  · exact hs.rows_ne_nil e' he' r hr

theorem WellFormed.createTable (hs : s.WellFormed) (name family : Bytes) :
    (s.createTable name family).WellFormed := by
  refine ⟨hs.sorted.createTable name family, ?_⟩
  unfold Store.createTable
  split
  · exact hs.rows_ne_nil
  · intro e he r hr
    rcases List.mem_append.1 he with he | he
    · exact hs.rows_ne_nil e he r hr
    · simp only [List.mem_singleton] at he
      subst he
      cases hr

theorem WellFormed.step (hs : s.WellFormed) (c : StoreCall) : (s.step c).1.WellFormed := by
  cases c with
  | createTable name family => exact hs.createTable name family
  | put w =>
    show (afterWrite s (s.put w)).1.WellFormed
    rcases h : s.put w with e | s'
    · exact hs
    · exact hs.write ((put_eq_write s w).symm.trans h)
  | append w =>
    show (afterWrite s (s.append w)).1.WellFormed
    rcases h : s.append w with e | s'
    · exact hs
    · exact hs.write ((append_eq_write s w).symm.trans h)
  | setFailing on => exact ⟨hs.sorted, hs.rows_ne_nil⟩
  | setFlushInterval ms => exact ⟨hs.sorted, hs.rows_ne_nil⟩

theorem WellFormed.run (hs : s.WellFormed) (cs : List StoreCall) : (s.run cs).1.WellFormed := by
  induction cs generalizing s with
  | nil => exact hs
  | cons c cs ih => exact ih (hs.step c)

end Store

/-! ### The flush interval -/

namespace StoreMap

/-- A call keeps the flush interval unless it sets one. -/
theorem flushInterval_step (m : StoreMap) (c : StoreCall) :
    (m.step c).1.flushInterval = c.interval?.getD m.flushInterval := by
  have hwrite : ∀ (w : CellWrite) (cell : Option Bytes → Bytes),
      (afterWrite m (m.write w cell)).1.flushInterval = m.flushInterval := by
    intro w cell
    unfold write
    rcases m.target w with e | t <;> rfl
  cases c with
  | createTable name family =>
    show (m.createTable name family).flushInterval = m.flushInterval
    unfold createTable
    split <;> rfl
  | put w => exact hwrite w _
  | append w => exact hwrite w _
  | setFailing on => rfl
  | setFlushInterval ms => rfl

/-- After a run the flush interval is the last one set, or the first one when none was set. -/
theorem flushInterval_run (m : StoreMap) (cs : List StoreCall) :
    (m.run cs).1.flushInterval =
      ((cs.filterMap StoreCall.interval?).getLast?).getD m.flushInterval := by
  induction cs generalizing m with
  | nil => rfl
  | cons c cs ih =>
    have hrun : (m.run (c :: cs)).1 = ((m.step c).1.run cs).1 := rfl
    rw [hrun, ih, flushInterval_step, List.filterMap_cons]
    cases c.interval? with
    | none => rfl
    | some ms => simp only [List.getLast?_cons, Option.getD_some]

theorem tables_of_target {m : StoreMap} {w : CellWrite} {t : TableMap} (h : m.target w = .ok t) :
    m.tables w.table = some t := by
  unfold target at h
  split_ifs at h
  split at h
  · cases h
  · next t' ht =>
    split_ifs at h
    cases h
    exact ht

/-- A call counts one write, as durable or deferred as it asks, exactly when it is a write the
map takes. -/
theorem counters_step (m : StoreMap) (c : StoreCall) :
    (m.step c).1.durableWrites = m.durableWrites + (if c.countsAs true (m.step c).2 then 1 else 0) ∧
      (m.step c).1.deferredWrites =
        m.deferredWrites + (if c.countsAs false (m.step c).2 then 1 else 0) := by
  have hwrite : ∀ (w : CellWrite) (cell : Option Bytes → Bytes),
      (afterWrite m (m.write w cell)).1.durableWrites = m.durableWrites +
          (if (afterWrite m (m.write w cell)).2.toBool && (w.durable == true) then 1 else 0) ∧
        (afterWrite m (m.write w cell)).1.deferredWrites = m.deferredWrites +
          (if (afterWrite m (m.write w cell)).2.toBool && (w.durable == false) then 1 else 0) := by
    intro w cell
    unfold write
    rcases m.target w with e | t
    · exact ⟨rfl, rfl⟩
    · cases w.durable <;> exact ⟨rfl, rfl⟩
  cases c with
  | createTable name family =>
    show (m.createTable name family).durableWrites = _ ∧
      (m.createTable name family).deferredWrites = _
    unfold createTable
    split <;> exact ⟨rfl, rfl⟩
  | put w => exact hwrite w _
  | append w => exact hwrite w _
  | setFailing on => exact ⟨rfl, rfl⟩
  | setFlushInterval ms => exact ⟨rfl, rfl⟩

/-- Over a run each counter counts the writes the map took that asked for it. -/
theorem counters_run (m : StoreMap) (cs : List StoreCall) :
    (m.run cs).1.durableWrites =
        m.durableWrites + (cs.zip (m.run cs).2).countP (fun p => p.1.countsAs true p.2) ∧
      (m.run cs).1.deferredWrites =
        m.deferredWrites + (cs.zip (m.run cs).2).countP (fun p => p.1.countsAs false p.2) := by
  induction cs generalizing m with
  | nil => exact ⟨rfl, rfl⟩
  | cons c cs ih =>
    have hrun : m.run (c :: cs) =
        (((m.step c).1.run cs).1, (m.step c).2 :: ((m.step c).1.run cs).2) := rfl
    obtain ⟨hd, hf⟩ := counters_step m c
    obtain ⟨ihd, ihf⟩ := ih (m.step c).1
    rw [hrun, List.zip_cons_cons, List.countP_cons, List.countP_cons]
    dsimp only
    constructor
    · rw [ihd, hd]
      omega
    · rw [ihf, hf]
      omega

end StoreMap

/-! ### Stores that share a flush interval -/

namespace Store

/-- A call keeps the store's handle. -/
theorem flushHandle_step (s : Store) (c : StoreCall) : (s.step c).1.flushHandle = s.flushHandle := by
  have hwrite : ∀ (w : CellWrite) (cell : Option Bytes → Bytes),
      (afterWrite s (s.write w cell)).1.flushHandle = s.flushHandle := by
    intro w cell
    unfold write
    rcases s.target w with e | t <;> rfl
  cases c with
  | createTable name family =>
    show (s.createTable name family).flushHandle = s.flushHandle
    unfold createTable
    split <;> rfl
  | put w => exact hwrite w fun _ => w.value
  | append w => exact hwrite w fun old => old.getD [] ++ w.value
  | setFailing on => rfl
  | setFlushInterval ms => rfl

/-- A call keeps the store's flush interval unless it sets one. -/
theorem flushInterval_step (s : Store) (c : StoreCall) :
    (s.step c).1.flushInterval = c.interval?.getD s.flushInterval :=
  (congrArg StoreMap.flushInterval (step_toMap c).1).trans (StoreMap.flushInterval_step _ c)

/-- The interval that a call at a place sets in the stores holding handle `h`, where `hs` gives
the handle held at each place. -/
def setsShared (hs : List Nat) (h : Nat) (call : Nat × StoreCall) : Option UInt16 :=
  if hs[call.1]? = some h then call.2.interval? else none

/-- No call changes the handle held at a place. -/
theorem handles_shareStep (P : List Store) (call : Nat × StoreCall) :
    (shareStep P call).map flushHandle = P.map flushHandle := by
  unfold shareStep
  cases hi : P[call.1]? with
  | none => rfl
  | some s =>
    cases call.2.interval? with
    | some ms =>
      rw [List.map_map]
      refine List.map_congr_left fun t _ => ?_
      by_cases hh : t.flushHandle = s.flushHandle <;> simp [hh, setFlushInterval]
    | none =>
      have hs : (P.map flushHandle)[call.1]? = some s.flushHandle := by simp [hi]
      have hlt : call.1 < (P.map flushHandle).length := (List.getElem?_eq_some_iff.1 hs).1
      dsimp only
      rw [List.map_set, flushHandle_step]
      exact List.ext_getElem? fun j => by
        by_cases hj : call.1 = j
        · subst hj
          rw [hs, List.getElem?_set_self hlt]
        · rw [List.getElem?_set_ne hj]

/-- A call sets the interval of a store that shares the handle of the store it goes to, and
keeps the interval of every other store. -/
theorem shareStep_getElem? {P : List Store} {j : Nat} {t : Store} (ht : P[j]? = some t)
    (call : Nat × StoreCall) :
    ∃ t', (shareStep P call)[j]? = some t' ∧ t'.flushHandle = t.flushHandle ∧
      t'.flushInterval = (setsShared (P.map flushHandle) t.flushHandle call).getD t.flushInterval := by
  simp only [shareStep, setsShared, List.getElem?_map]
  cases hi : P[call.1]? with
  | none => exact ⟨t, ht, rfl, by simp⟩
  | some s =>
    cases hc : call.2.interval? with
    | some ms =>
      refine ⟨if t.flushHandle = s.flushHandle then t.setFlushInterval ms else t,
        by simp [ht], ?_, ?_⟩
      · split <;> rfl
      · by_cases hh : t.flushHandle = s.flushHandle
        · simp [hh, setFlushInterval]
        · simp [hh, Ne.symm hh]
    | none =>
      by_cases hj : call.1 = j
      · subst hj
        obtain rfl : s = t := Option.some.inj (hi.symm.trans ht)
        refine ⟨(s.step call.2).1, ?_, flushHandle_step s call.2, by simp [flushInterval_step, hc]⟩
        exact List.getElem?_set_self (List.getElem?_eq_some_iff.1 hi).1
      · exact ⟨t, by rw [List.getElem?_set_ne hj]; exact ht, rfl, by simp⟩

/-- After any calls, every store reads the last interval set through a store that holds its
handle, or its first interval when none was set. -/
theorem shareRun_getElem? {P : List Store} {j : Nat} {t : Store} (ht : P[j]? = some t)
    (calls : List (Nat × StoreCall)) :
    ∃ t', (shareRun P calls)[j]? = some t' ∧ t'.flushHandle = t.flushHandle ∧
      t'.flushInterval =
        ((calls.filterMap (setsShared (P.map flushHandle) t.flushHandle)).getLast?).getD
          t.flushInterval := by
  induction calls generalizing P t with
  | nil => exact ⟨t, ht, rfl, rfl⟩
  | cons call calls ih =>
    obtain ⟨t₁, ht₁, hh₁, hi₁⟩ := shareStep_getElem? ht call
    obtain ⟨t', ht', hh', hi'⟩ := ih ht₁
    refine ⟨t', ht', hh'.trans hh₁, ?_⟩
    rw [hi', handles_shareStep, hh₁, hi₁, List.filterMap_cons]
    cases setsShared (P.map flushHandle) t.flushHandle call with
    | none => rfl
    | some ms => simp only [List.getLast?_cons, Option.getD_some]

/-- Two stores made with one handle and a third with another: a set through the first is what
the second reads, and the third keeps its interval. -/
example : (shareRun [{}, {}, { flushHandle := 1 }] [(0, .setFlushInterval 5000)]).map
    flushInterval = [5000, 5000, 0] := by
  decide

end Store

/-! ### Call by call -/

namespace Store

variable {s : Store}

/-- A write the store takes sets its cell to what `cell` makes of the old bytes, and changes no
other cell. -/
theorem cell?_write {w : CellWrite} {cell : Option Bytes → Bytes} {s' : Store}
    (h : s.write w cell = .ok s') (table key column : Bytes) :
    s'.cell? table key column =
      if table = w.table ∧ key = w.key ∧ column = w.column then
        some (cell (s.cell? table key column))
      else s.cell? table key column := by
  have hm : s.toMap.write w cell = .ok s'.toMap := by simp [write_toMap, h, Except.map]
  rw [← toMap_cell, ← toMap_cell]
  unfold StoreMap.write at hm
  rcases ht : s.toMap.target w with e | t <;>
    simp only [ht, bind, Except.bind, pure, Except.pure, reduceCtorEq, Except.ok.injEq] at hm
  have htab := StoreMap.tables_of_target ht
  rw [← hm]
  -- the map's write sets one cell of one table
  by_cases h₁ : table = w.table
  · subst h₁
    by_cases h₂ : key = w.key
    · subst h₂
      by_cases h₃ : column = w.column
      · subst h₃
        simp [StoreMap.cell, TableMap.set, htab]
      · simp [StoreMap.cell, TableMap.set, htab, h₃]
    · simp [StoreMap.cell, TableMap.set, htab, h₂]
  · simp [StoreMap.cell, h₁]

/-- A put the store takes replaces its cell and changes no other. -/
theorem cell?_put {w : CellWrite} {s' : Store} (h : s.put w = .ok s') (table key column : Bytes) :
    s'.cell? table key column =
      if table = w.table ∧ key = w.key ∧ column = w.column then some w.value
      else s.cell? table key column :=
  cell?_write ((put_eq_write s w).symm.trans h) table key column

/-- A put or an append answers as the store finds the table of its write. -/
theorem step_answer {c : StoreCall} {w : CellWrite} (hc : c.writes? = some w) :
    (s.step c).2 = (s.target w).map fun _ => () := by
  have hwrite : ∀ cell : Option Bytes → Bytes,
      (afterWrite s (s.write w cell)).2 = (s.target w).map fun _ => () := by
    intro cell
    unfold Store.write
    rcases s.target w with e | t <;> rfl
  cases c with
  | put w' =>
    cases hc
    exact hwrite fun _ => w.value
  | append w' =>
    cases hc
    exact hwrite fun old => old.getD [] ++ w.value
  | createTable name family => cases hc
  | setFailing on => cases hc
  | setFlushInterval ms => cases hc

/-- The store refuses a write by its switch, then for a missing table, then for another
family. -/
theorem target_eq_error_iff {w : CellWrite} {e : StoreError} :
    s.target w = .error e ↔ (s.failing = true ∧ e = .rejected "store is failing writes") ∨
      (s.failing = false ∧ s.table? w.table = none ∧ e = .tableNotFound w.table) ∨
      (s.failing = false ∧ ∃ t, s.table? w.table = some t ∧ t.family ≠ w.family ∧
        e = .familyNotFound w.table w.family) := by
  unfold target
  cases hf : s.failing
  · cases ht : s.table? w.table with
    | none => simp [eq_comm]
    | some t => by_cases hfam : t.family = w.family <;> simp [hfam, eq_comm]
  · simp [eq_comm]

/-- A refused call leaves the store as it was. -/
theorem step_of_error {c : StoreCall} {e : StoreError} (h : (s.step c).2 = .error e) :
    (s.step c).1 = s := by
  have hwrite : ∀ r : Except StoreError Store, (afterWrite s r).2 = .error e →
      (afterWrite s r).1 = s := by
    intro r hr
    cases r with
    | error e' => rfl
    | ok s' => cases hr
  cases c with
  | put w => exact hwrite _ h
  | append w => exact hwrite _ h
  | createTable name family => cases h
  | setFailing on => cases h
  | setFlushInterval ms => cases h

/-- The store refines the map model: over every run from a well formed store they agree on state
and answers, listings read the map in order, and the counters count the writes taken; each call
obeys the map's laws; and stores sharing a flush interval read the last value set. -/
theorem store_refines_map {s₀ : Store} (h₀ : s₀.WellFormed) (cs : List StoreCall) :
    (s₀.run cs).1.toMap = (s₀.toMap.run cs).1 ∧ (s₀.run cs).2 = (s₀.toMap.run cs).2 ∧
    (∀ table, ((s₀.run cs).1.rows table).Sorted ∧
      ∀ key r, (key, r) ∈ (s₀.run cs).1.rows table ↔ (s₀.run cs).1.toMap.Lists table key r) ∧
    (∀ table key r,
      (s₀.run cs).1.row? table key = some r ↔ (s₀.run cs).1.toMap.Lists table key r) ∧
    (s₀.run cs).1.durableWrites =
      s₀.durableWrites + (cs.zip (s₀.run cs).2).countP (fun p => p.1.countsAs true p.2) ∧
    (s₀.run cs).1.deferredWrites =
      s₀.deferredWrites + (cs.zip (s₀.run cs).2).countP (fun p => p.1.countsAs false p.2) ∧
    (s₀.run cs).1.flushInterval =
      ((cs.filterMap StoreCall.interval?).getLast?).getD s₀.flushInterval ∧
    (∀ (s : Store) name family t,
      s.table? name = some t → s.step (.createTable name family) = (s, .ok ())) ∧
    (∀ (s s' : Store) w, s.put w = .ok s' → ∀ table key column,
      s'.cell? table key column =
        if table = w.table ∧ key = w.key ∧ column = w.column then some w.value
        else s.cell? table key column) ∧
    (∀ (s s' : Store) w, s.append w = .ok s' → ∀ table key column,
      s'.cell? table key column =
        if table = w.table ∧ key = w.key ∧ column = w.column then
          some ((s.cell? table key column).getD [] ++ w.value)
        else s.cell? table key column) ∧
    (∀ (s : Store) c w e, c.writes? = some w → ((s.step c).2 = .error e ↔
      (s.failing = true ∧ e = .rejected "store is failing writes") ∨
      (s.failing = false ∧ s.table? w.table = none ∧ e = .tableNotFound w.table) ∨
      (s.failing = false ∧ ∃ t, s.table? w.table = some t ∧ t.family ≠ w.family ∧
        e = .familyNotFound w.table w.family))) ∧
    (∀ (s : Store) c e, (s.step c).2 = .error e → (s.step c).1 = s) ∧
    (∀ (P : List Store) (calls : List (Nat × StoreCall)) (j : Nat) (t : Store), P[j]? = some t →
      ∃ t', (shareRun P calls)[j]? = some t' ∧ t'.flushHandle = t.flushHandle ∧
        t'.flushInterval =
          ((calls.filterMap (setsShared (P.map flushHandle) t.flushHandle)).getLast?).getD
            t.flushInterval) := by
  obtain ⟨hstate, hanswers⟩ := s₀.run_toMap cs
  have hwf := h₀.run cs
  obtain ⟨hd, hf⟩ := s₀.toMap.counters_run cs
  have hd' : (s₀.run cs).1.durableWrites = (s₀.toMap.run cs).1.durableWrites := by
    rw [← hstate]; rfl
  have hf' : (s₀.run cs).1.deferredWrites = (s₀.toMap.run cs).1.deferredWrites := by
    rw [← hstate]; rfl
  have hi : (s₀.run cs).1.flushInterval = (s₀.toMap.run cs).1.flushInterval := by rw [← hstate]; rfl
  have hcreate : ∀ (s : Store) name family t,
      s.table? name = some t → s.step (.createTable name family) = (s, .ok ()) := by
    intro s name family t ht
    simp [step, createTable, ht]
  have hrefuse : ∀ (s : Store) c w e, c.writes? = some w → ((s.step c).2 = .error e ↔
      (s.failing = true ∧ e = .rejected "store is failing writes") ∨
      (s.failing = false ∧ s.table? w.table = none ∧ e = .tableNotFound w.table) ∨
      (s.failing = false ∧ ∃ t, s.table? w.table = some t ∧ t.family ≠ w.family ∧
        e = .familyNotFound w.table w.family)) := by
    intro s c w e hc
    rw [step_answer hc, ← target_eq_error_iff]
    cases s.target w <;> simp [Except.map]
  refine ⟨hstate, hanswers, fun table => ⟨hwf.rows_sorted table, hwf.mem_rows_iff table⟩,
    hwf.row?_eq_some_iff, by rw [hd', hd, ← hanswers]; rfl, by rw [hf', hf, ← hanswers]; rfl,
    by rw [hi, StoreMap.flushInterval_run]; rfl, hcreate, fun s s' w h => cell?_put h,
    fun s s' w h => cell?_append h, hrefuse, fun s c e h => step_of_error h,
    fun P calls j t ht => shareRun_getElem? ht calls⟩

/-- Calls that create a table, put and append to one cell, refuse a put while the switch is on,
and set the flush interval. -/
def tsdbCalls : List StoreCall :=
  [.createTable (Bytes.ofString "tsdb") dataFamily,
    .put ⟨Bytes.ofString "tsdb", [1], dataFamily, [0], [7], true⟩,
    .append ⟨Bytes.ofString "tsdb", [1], dataFamily, [0], [8], false⟩,
    .setFailing true,
    .put ⟨Bytes.ofString "tsdb", [2], dataFamily, [0], [9], true⟩,
    .setFailing false,
    .setFlushInterval 5000]

theorem tsdb_store_refines_map : ({} : Store).WellFormed ∧
    (({} : Store).run tsdbCalls).1.toMap = (({} : Store).toMap.run tsdbCalls).1 ∧
    (({} : Store).run tsdbCalls).2 = (({} : Store).toMap.run tsdbCalls).2 ∧
    (∀ table, ((({} : Store).run tsdbCalls).1.rows table).Sorted ∧
      ∀ key r, (key, r) ∈ (({} : Store).run tsdbCalls).1.rows table ↔
        (({} : Store).run tsdbCalls).1.toMap.Lists table key r) ∧
    (∀ table key r, (({} : Store).run tsdbCalls).1.row? table key = some r ↔
      (({} : Store).run tsdbCalls).1.toMap.Lists table key r) ∧
    (({} : Store).run tsdbCalls).1.durableWrites = ({} : Store).durableWrites +
      (tsdbCalls.zip (({} : Store).run tsdbCalls).2).countP (fun p => p.1.countsAs true p.2) ∧
    (({} : Store).run tsdbCalls).1.deferredWrites = ({} : Store).deferredWrites +
      (tsdbCalls.zip (({} : Store).run tsdbCalls).2).countP (fun p => p.1.countsAs false p.2) ∧
    (({} : Store).run tsdbCalls).1.flushInterval =
      ((tsdbCalls.filterMap StoreCall.interval?).getLast?).getD ({} : Store).flushInterval ∧
    (∀ (s : Store) name family t,
      s.table? name = some t → s.step (.createTable name family) = (s, .ok ())) ∧
    (∀ (s s' : Store) w, s.put w = .ok s' → ∀ table key column,
      s'.cell? table key column =
        if table = w.table ∧ key = w.key ∧ column = w.column then some w.value
        else s.cell? table key column) ∧
    (∀ (s s' : Store) w, s.append w = .ok s' → ∀ table key column,
      s'.cell? table key column =
        if table = w.table ∧ key = w.key ∧ column = w.column then
          some ((s.cell? table key column).getD [] ++ w.value)
        else s.cell? table key column) ∧
    (∀ (s : Store) c w e, c.writes? = some w → ((s.step c).2 = .error e ↔
      (s.failing = true ∧ e = .rejected "store is failing writes") ∨
      (s.failing = false ∧ s.table? w.table = none ∧ e = .tableNotFound w.table) ∨
      (s.failing = false ∧ ∃ t, s.table? w.table = some t ∧ t.family ≠ w.family ∧
        e = .familyNotFound w.table w.family))) ∧
    (∀ (s : Store) c e, (s.step c).2 = .error e → (s.step c).1 = s) ∧
    (∀ (P : List Store) (calls : List (Nat × StoreCall)) (j : Nat) (t : Store), P[j]? = some t →
      ∃ t', (shareRun P calls)[j]? = some t' ∧ t'.flushHandle = t.flushHandle ∧
        t'.flushInterval =
          ((calls.filterMap (setsShared (P.map flushHandle) t.flushHandle)).getLast?).getD
            t.flushInterval) :=
  ⟨wellFormed_empty 0, store_refines_map (wellFormed_empty 0) tsdbCalls⟩

end Store

end SeriesIngest
