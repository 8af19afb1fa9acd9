import SeriesIngest.Proofs.Client.Durability
import SeriesIngest.Proofs.Codec.AppendFraming

/-!
# Append mode from end to end

In append mode every store request of the write path appends its point, column name then value
bytes, to the one append column of its row. Over every run of the clients, whatever the order in
which their writes are awaited and however often the store refuses them, the append column of
each row of the table grows by exactly the points of the requests the store took for that row, in
the order it took them (`ClientRun.storedBy`), and no other column of the table changes
(`Db.AppendsOnly`). Every such point frames itself, so a column that reads back before the run
reads back after it, with those points after its own.

Main statement: `ClientRun.append_column_reads_back`.
-/

namespace SeriesIngest

namespace BytesMap

variable {α : Type}

theorem find?_insert_self (m : BytesMap α) (k : Bytes) (v : α) :
    (m.insert k v).find? k = some v := by
  induction m with
  | nil => simp [insert, find?]
  | cons e m ih =>
    obtain ⟨k', v'⟩ := e
    unfold insert
    split_ifs with h₁ h₂
    · simp [find?]
    · simp [find?]
    · simpa [find?, Ne.symm h₁] using ih

theorem find?_insert_of_ne (m : BytesMap α) {k k' : Bytes} (v : α) (h : k' ≠ k) :
    (m.insert k v).find? k' = m.find? k' := by
  induction m with
  | nil => simp [insert, find?, Ne.symm h]
  | cons e m ih =>
    obtain ⟨k'', v'⟩ := e
    unfold insert
    split_ifs with h₁ h₂
    · subst h₁
      simp [find?, Ne.symm h]
    · simp [find?, Ne.symm h]
    · by_cases h₃ : k'' = k'
      · simp [find?, h₃]
      · simpa [find?, h₃] using ih

/-- Inserting a key changes the value of that key and no other. -/
theorem find?_insert (m : BytesMap α) (k k' : Bytes) (v : α) :
    (m.insert k v).find? k' = if k' = k then some v else m.find? k' := by
  split_ifs with h
  · subst h
    exact find?_insert_self m k' v
  · exact find?_insert_of_ne m v h

theorem find?_getD {β : Type} (o : Option (BytesMap β)) (k : Bytes) :
    (o.getD []).find? k = o.bind (·.find? k) := by
  cases o <;> rfl

end BytesMap

namespace Store

/-- The bytes of a cell of a table: none where the table, the row or the column is missing. -/
def cell? (s : Store) (table key column : Bytes) : Option Bytes :=
  (s.row? table key).bind fun row => row.find? column

theorem cell?_congr {s s' : Store} (h : s'.tables = s.tables) : s'.cell? = s.cell? := by
  funext table key column
  simp [cell?, row?, table?, h]

/-- A write replaces the table it found, and no other. -/
theorem table?_commit {s : Store} {name : Bytes} {t₀ : Table} (h : s.table? name = some t₀)
    (t : Table) (d : Bool) (n : Bytes) :
    (s.commit name t d).table? n = if n = name then some t else s.table? n := by
  unfold table? commit at *
  simp only [List.find?_map]
  have hf : ((fun e : Bytes × Table => decide (e.1 = n)) ∘
      fun e : Bytes × Table => if e.1 = name then (name, t) else e) = fun e => decide (e.1 = n) := by
    funext e
    by_cases he : e.1 = name <;> simp [he]
  rw [hf]
  split_ifs with hn
  · subst hn
    obtain ⟨e, he, rfl⟩ := Option.map_eq_some_iff.1 h
    have he1 : e.1 = n := by simpa using List.find?_some he
    simp [he, he1]
  · cases hfind : List.find? (fun e => decide (e.1 = n)) s.tables with
    | none => simp
    | some e =>
      have he1 : e.1 = n := by simpa using List.find?_some hfind
      simp [he1, hn]

theorem table?_of_target {s : Store} {w : CellWrite} {t : Table} (h : s.target w = .ok t) :
    s.table? w.table = some t := by
  unfold target at h
  split_ifs at h
  split at h
  · cases h
  · next t' ht =>
    split_ifs at h
    cases h
    exact ht

/-- An append the store takes adds its bytes at the end of its cell, and changes no other cell. -/
theorem cell?_append {s s' : Store} {w : CellWrite} (h : s.append w = .ok s')
    (table key column : Bytes) :
    s'.cell? table key column =
      if table = w.table ∧ key = w.key ∧ column = w.column then
        some ((s.cell? table key column).getD [] ++ w.value)
      else s.cell? table key column := by
  unfold append at h
  rcases ht : s.target w with e | t <;> simp only [ht, bind, Except.bind, pure, Except.pure,
    reduceCtorEq, Except.ok.injEq] at h
  subst h
  have htab := table?_of_target ht
  simp only [cell?, row?, table?_commit htab]
  by_cases h₁ : table = w.table
  · subst h₁
    simp only [htab, if_true, Option.bind_some, BytesMap.find?_insert, BytesMap.find?_getD]
    by_cases h₂ : key = w.key
    · subst h₂
      by_cases h₃ : column = w.column
      · simp [h₃, BytesMap.find?_insert]
      · simp [h₃, BytesMap.find?_insert, BytesMap.find?_getD]
    · simp [h₂]
  · simp [h₁]

end Store

/-- The point a request writes, as an append column holds it. -/
def WriteRequest.point (r : WriteRequest) : AppendPoint := ⟨r.qualifier, r.value⟩

namespace Db

/-- The request that the store takes when a pending write is awaited now: none when the write
issues none, or when the store refuses it. -/
def stored (db : Db) (pw : PendingWrite) : Option WriteRequest :=
  if (db.settle pw).2.toBool then db.issued pw else none

/-- A write the store takes issues its request. -/
theorem issued_of_stored {db : Db} {pw : PendingWrite} {r : WriteRequest} (h : db.stored pw = some r) :
    db.issued pw = some r := by
  unfold stored at h
  split at h
  · exact h
  · cases h

/-- `db'` has the settings and the tables of `db`. -/
structure KeepsCells (db db' : Db) : Prop where
  config : db'.config = db.config
  tables : db'.store.tables = db.store.tables

section KeepsCells

variable {db db' db'' : Db}

theorem KeepsCells.refl (db : Db) : KeepsCells db db := ⟨rfl, rfl⟩

theorem KeepsCells.trans (h₁ : KeepsCells db db') (h₂ : KeepsCells db' db'') :
    KeepsCells db db'' :=
  ⟨h₂.config.trans h₁.config, h₂.tables.trans h₁.tables⟩

theorem Frame.keepsCells (h : Frame db db') : KeepsCells db db' := ⟨h.config, by rw [h.store]⟩

/-- The calls of the clients write nothing: only awaiting a write does. -/
theorem keepsCells_addEncodedPoint (db : Db) (metric : String) (ts : Int) (value : EncodedValue)
    (tags : Tags) : KeepsCells db (db.addEncodedPoint metric ts value tags).1 := by
  unfold addEncodedPoint
  split
  · exact KeepsCells.refl db
  · have h₁ : KeepsCells db (db.buildTemplate metric tags).1 := ⟨rfl, rfl⟩
    rcases hb : db.buildTemplate metric tags with ⟨db₁, e | T⟩ <;> rw [hb] at h₁
    · exact h₁
    · dsimp only
      split <;> exact h₁

theorem keepsCells_addPoint (db : Db) (metric : String) (ts : Int) (value : DataValue)
    (tags : Tags) : KeepsCells db (db.addPoint metric ts value tags).1 := by
  unfold addPoint
  split
  · exact KeepsCells.refl db
  · exact keepsCells_addEncodedPoint _ _ _ _ _

theorem keepsCells_placeNow (db : Db) (w : Writer) (ts : Int) (value : EncodedValue) :
    KeepsCells db (db.placeNow w ts value).1 := by
  unfold placeNow
  dsimp only
  split
  · have h₁ := (frame_writeAllowed db w.session w.metric ts value).keepsCells
    rcases hw : db.writeAllowed w.session w.metric ts value with ⟨db₁, _ | _⟩ <;> rw [hw] at h₁ <;>
      exact h₁
  · exact KeepsCells.refl db

theorem keepsCells_addValue (db : Db) (w : Writer) (ts : Int) (value : DataValue) :
    KeepsCells db (db.addValue w ts value).1 := by
  unfold addValue
  split
  · exact KeepsCells.refl db
  · next ev _ =>
    unfold addEncoded
    dsimp only
    split
    · exact KeepsCells.refl db
    · split
      · exact KeepsCells.refl db
      · split
        · split
          · split
            · exact ⟨(keepsCells_addEncodedPoint _ w.metric ts ev w.tags).config,
                (keepsCells_addEncodedPoint _ w.metric ts ev w.tags).tables⟩
            · exact KeepsCells.refl db
          · exact keepsCells_placeNow db w ts ev
        · exact keepsCells_placeNow db w ts ev

theorem keepsCells_setSeries (db : Db) (w : Writer) (metric : String) (tags : Tags) :
    KeepsCells db (db.setSeries w metric tags).1 := by
  unfold setSeries
  have h₁ : KeepsCells db (db.buildTemplate metric tags).1 := ⟨rfl, rfl⟩
  rcases hb : db.buildTemplate metric tags with ⟨db₁, e | T⟩ <;> rw [hb] at h₁
  · exact h₁
  · exact ⟨h₁.config, h₁.tables⟩

theorem keepsCells_setBatchImport (db : Db) (w : Writer) (on : Bool) :
    KeepsCells db (db.setBatchImport w on).1 := by
  unfold setBatchImport
  split
  · exact KeepsCells.refl db
  · dsimp only
    split
    · split <;> exact ⟨rfl, rfl⟩
    · split <;> exact ⟨rfl, rfl⟩

end KeepsCells

/-- `db'` has the settings of `db`, and its table differs from that of `db` only in the append
columns, each of which has grown by the points of the requests of `new` to its row, in order. -/
structure AppendsOnly (db db' : Db) (new : List WriteRequest) : Prop where
  config : db'.config = db.config
  append : ∀ key, (db'.store.cell? db.table key appendColumn).getD [] =
    (db.store.cell? db.table key appendColumn).getD [] ++
      (new.filter (·.row = key)).flatMap (·.point.toBytes)
  other : ∀ key column, column ≠ appendColumn →
    db'.store.cell? db.table key column = db.store.cell? db.table key column

section AppendsOnly

variable {db db' db'' : Db} {new new' : List WriteRequest}

theorem KeepsCells.appendsOnly (h : KeepsCells db db') : AppendsOnly db db' [] :=
  ⟨h.config, fun _ => by simp [Store.cell?_congr h.tables], fun _ _ _ => by
    rw [Store.cell?_congr h.tables]⟩

theorem AppendsOnly.trans (h₁ : AppendsOnly db db' new) (h₂ : AppendsOnly db' db'' new') :
    AppendsOnly db db'' (new ++ new') := by
  have ht : db'.table = db.table := by simp only [table, h₁.config]
  refine ⟨h₂.config.trans h₁.config, fun key => ?_, fun key column hc => ?_⟩
  · rw [← ht, h₂.append, ht, h₁.append, List.filter_append, List.flatMap_append,
      List.append_assoc]
  · rw [← ht, h₂.other key column hc, ht, h₁.other key column hc]

end AppendsOnly

/-- In append mode the store write of a request appends its point to the append column of its
row. -/
theorem cellWrite_of_append {db : Db} (happ : db.config.useAppendWrites = true) (r : WriteRequest) :
    db.cellWrite r = ⟨db.table, r.row, dataFamily, appendColumn, r.point.toBytes, r.durable⟩ := by
  simp [cellWrite, happ, WriteRequest.point]

/-- In append mode, a request the store takes appends its point to the append column of its row,
and a request it refuses changes nothing. -/
theorem appendsOnly_dispatch {db : Db} (happ : db.config.useAppendWrites = true) (r : WriteRequest) :
    AppendsOnly db (db.dispatch r).1 (if (db.dispatch r).2.toBool then [r] else []) := by
  rcases hs : db.store.append (db.cellWrite r) with e | s'
  · have hd : db.dispatch r = (db, .error (.store e)) := by simp [dispatch, happ, hs]
    rw [hd]
    exact (KeepsCells.refl db).appendsOnly
  · have hd₁ : (db.dispatch r).1.config = db.config := by simp [dispatch, happ, hs]
    have hd₂ : (db.dispatch r).1.store = s' := by simp [dispatch, happ, hs]
    have hd₃ : (db.dispatch r).2 = .ok () := by simp [dispatch, happ, hs]
    have hc := Store.cell?_append hs
    rw [cellWrite_of_append happ] at hc
    rw [hd₃]
    refine ⟨hd₁, fun key => ?_, fun key column hcol => ?_⟩
    · rw [hd₂]
      by_cases hk : key = r.row
      · subst hk
        simp [hc, Except.toBool]
      · simp [hc, hk, Ne.symm hk, Except.toBool]
    · simp [hd₂, hc, hcol]

/-- In append mode, awaiting a write appends the point of the request the store takes, if any,
to the append column of its row, and changes nothing else of the table. -/
theorem appendsOnly_settle {db : Db} (happ : db.config.useAppendWrites = true) (pw : PendingWrite) :
    AppendsOnly db (db.settle pw).1 (db.stored pw).toList := by
  obtain ⟨db₁, hf, -, ⟨hnone, h⟩ | ⟨r, hr, h⟩⟩ := settle_stages db pw
  · have hs : db.stored pw = none := by simp [stored, hnone]
    rw [h, hs]
    exact hf.keepsCells.appendsOnly
  · have hd := appendsOnly_dispatch (hf.config ▸ happ) r
    have hs : db.stored pw = if (db₁.dispatch r).2.toBool then some r else none := by
      simp only [stored, h, hr]
    rw [h, hs]
    have h₂ := hf.keepsCells.appendsOnly.trans hd
    split
    · next hok =>
      simpa [hok] using h₂
    · next hok =>
      simpa [hok] using h₂

/-- A placed point frames itself. -/
theorem Places.framed {db : Db} {p : AddedPoint} {row : RowKey} {q : Qualifier}
    {ev : EncodedValue} (h : db.Places p row q ev) : (AppendPoint.mk q ev.bytes).Framed :=
  framed_of_encodeValue h.encoded h.qualifier

/-- Every point the store takes from a pending write of a sound database frames itself. -/
theorem framed_of_stored {db : Db} (hd : db.Sound) {p : AddedPoint} {pw : PendingWrite}
    (hp : db.PendingOk p pw) {r : WriteRequest} (h : db.stored pw = some r) : r.point.Framed := by
  obtain ⟨row, ev, hpl, -, hval⟩ := hp.issued hd (issued_of_stored h)
  have hpt : r.point = AppendPoint.mk r.qualifier ev.bytes := by rw [WriteRequest.point, hval]
  rw [hpt]
  exact hpl.framed

end Db

namespace ClientRun

/-- The request that the store takes on a call: on an await, the request of the awaited write,
if the store takes it; on any other call, none. -/
def stored (R : ClientRun) : ClientCall → Option WriteRequest
  | .await i => (R.pending[i]?).bind fun e => R.db.stored e.2
  | _ => none

/-- The requests the store takes over a run of calls, in the order it takes them. -/
def storedBy (R : ClientRun) : List ClientCall → List WriteRequest
  | [] => []
  | c :: cs => (R.stored c).toList ++ (R.step c).storedBy cs

variable {R : ClientRun}

theorem appendsOnly_of_keepsCells {c : ClientCall} (h : Db.KeepsCells R.db (R.step c).db)
    (hs : R.stored c = none) : Db.AppendsOnly R.db (R.step c).db (R.stored c).toList := by
  rw [hs]
  exact h.appendsOnly

/-- Only awaiting a write writes to the store: every other call keeps the settings and the
tables. -/
theorem keepsCells_step {c : ClientCall} (hc : ∀ i, c ≠ .await i) (R : ClientRun) :
    Db.KeepsCells R.db (R.step c).db := by
  cases c with
  | setSeries i metric tags =>
    simp only [step]
    split
    · next w _ =>
      have h := Db.keepsCells_setSeries R.db w metric tags
      rcases hs : R.db.setSeries w metric tags with ⟨db, _ | _⟩ <;> rw [hs] at h <;> exact h
    · exact Db.KeepsCells.refl _
  | add i ts value =>
    simp only [step]
    split
    · next w _ =>
      have h := Db.keepsCells_addValue R.db w ts value
      rcases ha : R.db.addValue w ts value with ⟨db, _ | _⟩ <;> rw [ha] at h <;> exact h
    · exact Db.KeepsCells.refl _
  | addPoint metric ts value tags =>
    have h := Db.keepsCells_addPoint R.db metric ts value tags
    simp only [step]
    rcases ha : R.db.addPoint metric ts value tags with ⟨db, _ | _⟩ <;> rw [ha] at h <;> exact h
  | setBatchImport i on =>
    simp only [step]
    split
    · exact Db.keepsCells_setBatchImport _ _ _
    · exact Db.KeepsCells.refl _
  | await i => exact absurd rfl (hc i)
  | _ => exact ⟨rfl, rfl⟩

/-- In append mode, a call appends the point of the request the store takes on it, if any, and
changes nothing else of the table. -/
theorem appendsOnly_step (happ : R.db.config.useAppendWrites = true) (c : ClientCall) :
    Db.AppendsOnly R.db (R.step c).db (R.stored c).toList := by
  cases c with
  | await i =>
    simp only [step, stored]
    split
    · next p pw hi =>
      simpa [hi] using Db.appendsOnly_settle happ pw
    · next hi =>
      simpa [hi] using (Db.KeepsCells.refl R.db).appendsOnly
  | _ => exact appendsOnly_of_keepsCells (keepsCells_step (fun _ h => by cases h) R) rfl

/-- In append mode, a run of calls appends the points of the requests the store takes, each to
the append column of its row in the order the store takes them, and changes nothing else of the
table. -/
theorem appendsOnly_run (happ : R.db.config.useAppendWrites = true) (cs : List ClientCall) :
    Db.AppendsOnly R.db (R.run cs).db (R.storedBy cs) := by
  -- on the calls, from the state each call starts in
  induction cs generalizing R with
  | nil => exact (Db.KeepsCells.refl R.db).appendsOnly
  | cons c cs ih =>
    have h₁ := appendsOnly_step happ c
    exact h₁.trans (ih (h₁.config ▸ happ))

/-- Every point the store takes in a run of the clients frames itself. -/
theorem Inv.framed_storedBy (h : R.Inv) (cs : List ClientCall) :
    ∀ r ∈ R.storedBy cs, r.point.Framed := by
  induction cs generalizing R with
  | nil => simp [storedBy]
  | cons c cs ih =>
    intro r hr
    rcases List.mem_append.1 hr with hc | hrest
    · cases c with
      | await i =>
        simp only [stored, Option.mem_toList, Option.bind_eq_some_iff] at hc
        obtain ⟨e, he, hs⟩ := hc
        exact Db.framed_of_stored h.sound (h.pending e (List.mem_of_getElem? he)) hs
      | _ => simp [stored] at hc
    · exact ih (h.step c) r hrest

/-- In append mode a row's append column that reads back before a run reads back after it as its
points before, then the points of the requests the store took for the row. -/
theorem appendColumn_run (hR : R.Reachable) (happ : R.db.config.useAppendWrites = true)
    (cs : List ClientCall) (key : Bytes) {ps : List AppendPoint}
    (hps : parseAppend ((R.db.store.cell? R.db.table key appendColumn).getD []) = .ok ps) :
    parseAppend (((R.run cs).db.store.cell? R.db.table key appendColumn).getD []) =
      .ok (ps ++ ((R.storedBy cs).filter (·.row = key)).map WriteRequest.point) := by
  have hframed : ∀ p ∈ ((R.storedBy cs).filter (·.row = key)).map WriteRequest.point, p.Framed := by
    intro p hp
    obtain ⟨r, hr, rfl⟩ := List.mem_map.1 hp
    exact hR.inv.framed_storedBy cs r (List.mem_filter.1 hr).1
  rw [(appendsOnly_run happ cs).append key, ← List.flatMap_map]
  exact parseAppend_append_flatMap hps hframed

/-- In append mode every run leaves each readable append column as its points before, then the
points of the requests the store took for the row, in order; no other column is written. -/
theorem append_column_reads_back (hR : R.Reachable) (happ : R.db.config.useAppendWrites = true)
    (cs : List ClientCall) (key : Bytes) {ps : List AppendPoint}
    (hps : parseAppend ((R.db.store.cell? R.db.table key appendColumn).getD []) = .ok ps) :
    parseAppend (((R.run cs).db.store.cell? R.db.table key appendColumn).getD []) =
        .ok (ps ++ ((R.storedBy cs).filter (·.row = key)).map WriteRequest.point) ∧
      ∀ column, column ≠ appendColumn →
        (R.run cs).db.store.cell? R.db.table key column = R.db.store.cell? R.db.table key column :=
  ⟨appendColumn_run hR happ cs key hps, (appendsOnly_run happ cs).other key⟩

/-- The database of the default table in append mode. -/
def appendDb : Db :=
  (Db.build { useAppendWrites := true } tsdbStore {}).toOption.get (by decide)

/-- The row of `sys.cpu` with `host=web01` at base time 0, with the first ids. -/
def cpuRowKey : Bytes := [0, 0, 1, 0, 0, 0, 0, 0, 0, 1, 0, 0, 1]

/-- A writer adds two points and the handle a third, at an earlier time; the first write is
awaited while the store refuses writes, then the other two in the other order. -/
def appendCalls : List ClientCall :=
  [.newWriter, .setSeries 0 "sys.cpu" ⟨[⟨"host", "web01"⟩]⟩, .add 0 1000 (.integer 1),
    .add 0 1001 (.integer 300), .addPoint "sys.cpu" 999 (.integer 7) ⟨[⟨"host", "web01"⟩]⟩,
    .failWrites true, .await 0, .failWrites false, .await 1, .await 0]

example : (parseAppend ((((ClientRun.start appendDb).run appendCalls).db.store.cell?
    appendDb.table cpuRowKey appendColumn).getD [])).toOption.map
      (·.map (·.qualifier.deltaSeconds)) = some [999, 1001] := by
  decide +kernel

/-- The row of the three points reads back as the two the store took, in the order it took
them. -/
theorem append_clients_read_back :
    (ClientRun.start appendDb).Reachable ∧ appendDb.config.useAppendWrites = true ∧
      parseAppend (((ClientRun.start appendDb).db.store.cell? appendDb.table cpuRowKey
        appendColumn).getD []) = .ok [] ∧
      (parseAppend ((((ClientRun.start appendDb).run appendCalls).db.store.cell? appendDb.table
          cpuRowKey appendColumn).getD []) =
        .ok ([] ++ (((ClientRun.start appendDb).storedBy appendCalls).filter
          (·.row = cpuRowKey)).map WriteRequest.point) ∧
      ∀ column, column ≠ appendColumn →
        ((ClientRun.start appendDb).run appendCalls).db.store.cell? appendDb.table cpuRowKey
          column = (ClientRun.start appendDb).db.store.cell? appendDb.table cpuRowKey column) := by
  have hR : (ClientRun.start appendDb).Reachable :=
    .start (show Db.build { useAppendWrites := true } tsdbStore {} = .ok appendDb from rfl)
  have happ : appendDb.config.useAppendWrites = true := by decide +kernel
  have hcell : (ClientRun.start appendDb).db.store.cell? appendDb.table cpuRowKey appendColumn =
      none := by
    decide +kernel
  have hps : parseAppend (((ClientRun.start appendDb).db.store.cell? appendDb.table cpuRowKey
      appendColumn).getD []) = .ok [] := by
    rw [hcell]
    exact parseAppendFrom.eq_1 0
  exact ⟨hR, happ, hps, append_column_reads_back hR happ appendCalls cpuRowKey hps⟩

end ClientRun

end SeriesIngest
