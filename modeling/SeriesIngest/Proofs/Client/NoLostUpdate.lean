import SeriesIngest.Proofs.Client.AwaitOrder
import SeriesIngest.Proofs.Store.MapModel

/-!
# No lost update while no series is set across a filtered write

In put mode every write the store takes puts the value of its point in the point's cell: the row
of its series at its base time, under its column name. A write is lost when a later one is put in
the same cell. Points of one series placed at distinct times have distinct cells
(`Db.Writes.ts_eq`), and with out-of-order points refused a writer's session places its points
in strictly increasing time; so as long as every point of the writer is placed by its current
session, every point the store took stays in its cell, with its value.

A write waiting on the filter is placed, when awaited, by the session it was added to. Setting
the series while such a write waits starts a session whose watermark does not see it, and
`overtaken_writes_share_cell` is a run in which a later point then takes its cell. The runs here
set the writer's series only while no write waits on the filter (`ClientRun.switchesSettled`).

`ClientRun.CellsKept` is what such a run keeps, `CellsKept.step` what one call keeps and
`CellsKept.run` what a whole run keeps.

Main statement: `ClientRun.accepted_points_keep_cells`.
-/

namespace SeriesIngest

namespace Store

variable {s : Store} {w : CellWrite} {table key column : Bytes}

/-- A put leaves every other cell as it was, whether the store takes it or not. -/
theorem cell?_putOr_of_ne (h : ¬(table = w.table ∧ key = w.key ∧ column = w.column)) :
    (s.putOr w).cell? table key column = s.cell? table key column := by
  rcases hp : s.put w with e | s'
  · simp only [putOr, hp]
  · simp only [putOr, hp]
    rw [cell?_put hp, if_neg h]

end Store

/-- The cell a request writes in put mode: its row key and its column name. -/
def WriteRequest.cell (r : WriteRequest) : Bytes × Bytes := (r.row, r.qualifier.toBytes)

namespace PendingWrite

/-- Whether a pending write holds a store request decided when it was made. -/
def carriesRequest : PendingWrite → Bool
  | .issue _ => true
  | _ => false

/-- Whether a pending write waits on the filter before its session places it. -/
def waitsOnFilter : PendingWrite → Bool
  | .admitted .. => true
  | _ => false

/-- A pending write that a writer whose session is `sid` may leave: a failure, a decided request,
or a write waiting on the filter under that session, but never a point handed to the handle. -/
def OfSession (sid : Option Nat) : PendingWrite → Prop
  | .failed _ | .issue _ => True
  | .point .. => False
  | .admitted s .. => some s = sid

/-- Only a write waiting on the filter names a session, and it keeps naming the writer's session
as long as the writer keeps it. -/
theorem OfSession.of_kept {pw : PendingWrite} {sid sid' : Option Nat} (h : pw.OfSession sid)
    (hs : pw.waitsOnFilter = true → ∀ s, sid = some s → sid' = some s) : pw.OfSession sid' := by
  cases pw with
  | failed e => trivial
  | issue r => trivial
  | point metric tags ts value row q => exact h.elim
  | admitted s metric tags ts value durable => exact (hs rfl s h.symm).symm

end PendingWrite

namespace Db

/-! ### Watermarks that only rise -/

/-- The watermark `wm'` is `wm`, or a time after `wm`. -/
def Raises (wm wm' : Option Int) : Prop :=
  wm' = wm ∨ ∃ u, notAfter wm u = false ∧ wm' = some u

theorem Raises.refl (wm : Option Int) : Raises wm wm := .inl rfl

/-- A raised watermark still covers every time the old one covered. -/
theorem Raises.covers {wm wm' : Option Int} {t : Int} (h : Raises wm wm')
    (ht : notAfter wm t = true) : notAfter wm' t = true := by
  rcases h with rfl | ⟨u, hlate, rfl⟩
  · exact ht
  · exact notAfter_some_of_le (lt_of_notAfter ht hlate).le

/-- Times all before `t`, with `t` put first: distinct if they were, and none after `t`. -/
theorem placed_cons_of_lt {T : List Int} {t : Int} (hd : T.Nodup) (hlt : ∀ x ∈ T, x < t) :
    (t :: T).Nodup ∧ ∀ x ∈ t :: T, notAfter (some t) x = true := by
  refine ⟨List.nodup_cons.2 ⟨fun ht => lt_irrefl t (hlt t ht), hd⟩, fun x hx => ?_⟩
  rcases List.mem_cons.1 hx with rfl | hx
  · exact notAfter_some_of_le le_rfl
  · exact notAfter_some_of_le (hlt x hx).le

theorem raises_settle (db : Db) (pw : PendingWrite) (sid : Nat) :
    Raises (db.session sid).watermark ((db.settle pw).1.session sid).watermark := by
  rcases watermark_settle db pw sid with h | ⟨ts, -, hlate, hup⟩
  · exact .inl h
  · exact .inr ⟨_, hlate, hup⟩

theorem raises_addValue (db : Db) (w : Writer) (ts : Int) (value : DataValue) (sid : Nat) :
    Raises (db.session sid).watermark ((db.addValue w ts value).1.session sid).watermark := by
  rcases watermark_addValue db w ts value sid with h | ⟨-, hlate, hup⟩
  · exact .inl h
  · exact .inr ⟨_, hlate, hup⟩

/-! ### Where a request writes its point -/

section Writes

variable {db db' : Db} {p p' : AddedPoint} {r r' : WriteRequest}

/-- The request `r` writes the point `p` where the database places it: to the row of its series
at its base time, under its column name, with its encoded value. -/
def Writes (db : Db) (p : AddedPoint) (r : WriteRequest) : Prop :=
  ∃ row ev, db.Places p row r.qualifier ev ∧ r.row = row.bytes ∧ r.value = ev.bytes

theorem Writes.of_extends (h : db.Writes p r) (he : Extends db db') : db'.Writes p r := by
  obtain ⟨row, ev, hpl, hrow, hval⟩ := h
  exact ⟨row, ev, hpl.of_extends he, hrow, hval⟩

/-- Requests that write their points to one cell write points of one timestamp. -/
theorem Writes.ts_eq (hd : db.Sound) (h : db.Writes p r) (h' : db.Writes p' r')
    (hcell : r.cell = r'.cell) : p.ts = p'.ts := by
  obtain ⟨row, ev, hpl, hrow, -⟩ := h
  obtain ⟨row', ev', hpl', hrow', -⟩ := h'
  simp only [WriteRequest.cell, Prod.mk.injEq] at hcell
  rw [Qualifier.toBytes_injective hcell.2] at hpl
  exact (hpl.ts_flags_eq hd hpl' (hrow.symm.trans (hcell.1.trans hrow'))).1

end Writes

/-! ### Awaiting a write in put mode -/

section Settle

variable {db : Db} {pw : PendingWrite} {r : WriteRequest}

/-- The store accepts the store write of every request it takes. -/
theorem target_of_stored (h : db.stored pw = some r) :
    (db.store.target (db.cellWrite r)).toBool = true := by
  obtain ⟨db₁, hf, -, ⟨hnone, -⟩ | ⟨r', hr, hs⟩⟩ := settle_stages db pw
  · simp [stored, hnone] at h
  · have hok : (db₁.dispatch r').2.toBool = true ∧ r' = r := by
      simpa [stored, hs, hr] using h
    obtain ⟨hok, rfl⟩ := hok
    rwa [toBool_dispatch, cellWrite_congr hf.config, hf.store] at hok

/-- In put mode, awaiting a write puts the value of the request the store takes in its cell, and
leaves every other cell of the table as it was. -/
theorem cell?_settle (hput : db.config.useAppendWrites = false) (pw : PendingWrite)
    (key column : Bytes) :
    (db.settle pw).1.store.cell? db.table key column =
      (db.stored pw).elim (db.store.cell? db.table key column) fun r =>
        if (key, column) = r.cell then some r.value else db.store.cell? db.table key column := by
  rw [store_settle_put hput]
  rcases hs : db.stored pw with _ | r
  · rfl
  · have hw : db.cellWrite r =
        ⟨db.table, r.row, dataFamily, r.qualifier.toBytes, r.value, r.durable⟩ := by
      simp [cellWrite, hput]
    simp only [Option.elim_some]
    split
    · next hk =>
      simp only [WriteRequest.cell, Prod.mk.injEq] at hk
      obtain ⟨rfl, rfl⟩ := hk
      have hself := Store.cell?_putOr_self (target_of_stored hs)
      rw [hw] at hself ⊢
      exact hself
    · next hk =>
      rw [hw]
      exact Store.cell?_putOr_of_ne fun hc => hk (by simp [WriteRequest.cell, hc.2.1, hc.2.2])

variable {sid : Nat} {metric : String} {tags : Tags} {ts : Int} {value : EncodedValue}
  {durable : Bool}

/-- With out-of-order points refused, a session places a point only after its watermark, and
raises the watermark to the point's time. -/
theorem writeAllowed_ok_late (hooo : db.config.allowOutOfOrder = false) {x : Bytes × Qualifier}
    (h : (db.writeAllowed sid metric ts value).2 = .ok x) :
    notAfter (db.session sid).watermark (Time.toMillis ts) = false ∧
      ((db.writeAllowed sid metric ts value).1.session sid).watermark =
        some (Time.toMillis ts) := by
  rcases hrow : (db.session sid).row with _ | row
  · simp [writeAllowed, hrow] at h
  have hsome : (db.session sid).row.isSome := by simp [hrow]
  cases hlate : notAfter (db.session sid).watermark (Time.toMillis ts)
  · rw [writeAllowed_of_late hsome hlate]
    exact ⟨rfl, watermark_acceptInOrder (lt_size_of_row_isSome hsome) metric ts value⟩
  · obtain ⟨last, hwm, hle⟩ := notAfter_eq_true.1 hlate
    simp [writeAllowed, hrow, hwm, hle, hooo] at h

/-- With out-of-order points refused, a write waiting on the filter that the store takes came
after the watermark of its session, and raised it to the point's time. -/
theorem stored_admitted (hooo : db.config.allowOutOfOrder = false)
    (h : db.stored (.admitted sid metric tags ts value durable) = some r) :
    notAfter (db.session sid).watermark (Time.toMillis ts) = false ∧
      ((db.settle (.admitted sid metric tags ts value durable)).1.session sid).watermark =
        some (Time.toMillis ts) := by
  have hi := issued_of_stored h
  have hf := frame_consult db metric ts value tags
  have hs := sessions_consult db metric ts value tags
  rcases hc : db.consult metric ts value tags with ⟨db₁, e | _ | _⟩ <;> rw [hc] at hf hs <;>
    dsimp only at hf hs
  · simp [issued, hc] at hi
  · simp [issued, hc] at hi
  rcases hw : db₁.writeAllowed sid metric ts value with ⟨db₂, e | ⟨row, q⟩⟩
  · simp [issued, hc, hw] at hi
  obtain ⟨hlate, hup⟩ :=
    writeAllowed_ok_late (by rw [hf.config]; exact hooo) (show _ = _ by rw [hw])
  rw [session_of_sessions hs] at hlate
  rw [hw] at hup
  refine ⟨hlate, ?_⟩
  simp only [settle, hc, hw]
  rw [session_of_sessions (sessions_dispatch db₂ _)]
  exact hup

end Settle

/-- With out-of-order points refused, an add hands back a pending write of the writer's session,
holding a decided request only while the filter is off. -/
theorem addValue_ofSession {db : Db} {w : Writer} {ts : Int} {value : DataValue} {pw : PendingWrite}
    (hooo : db.config.allowOutOfOrder = false) (h : (db.addValue w ts value).2 = .ok pw) :
    pw.OfSession (some w.session) ∧ (pw.carriesRequest = true → db.filtersPoints = false) := by
  obtain ⟨ev, -, -, -, heq⟩ := addValue_eq_placeNow hooo h
  rw [heq] at h
  unfold placeNow at h
  dsimp only at h
  split at h
  · next hf =>
    have hf' : db.filtersPoints = false := by simpa using hf
    split at h <;> cases h <;> exact ⟨trivial, fun _ => hf'⟩
  · cases h
    exact ⟨rfl, fun hc => by cases hc⟩

/-- Setting a writer's series builds keys as before. -/
theorem extends_setSeries (db : Db) (w : Writer) (metric : String) (tags : Tags) :
    Extends db (db.setSeries w metric tags).1 := by
  have h₁ := (continues_buildTemplate db metric tags).toExtends
  unfold setSeries
  rcases hb : db.buildTemplate metric tags with ⟨db₁, e | T⟩ <;> rw [hb] at h₁
  · exact h₁
  · exact ⟨h₁.config, h₁.rules, h₁.ids⟩

/-- Switching batch import builds keys as before. -/
theorem extends_setBatchImport (db : Db) (w : Writer) (on : Bool) :
    Extends db (db.setBatchImport w on).1 := by
  unfold setBatchImport
  split
  · exact Extends.refl db
  · dsimp only
    split <;> split <;> exact ⟨rfl, rfl, IdRegistry.Keeps.refl _⟩

end Db

namespace ClientCall

/-- Whether a call adds a point other than through writer `i`: through another writer, or through
the handle. -/
def addsOutside (i : Nat) : ClientCall → Bool
  | .add j .. => j != i
  | .addPoint .. => true
  | _ => false

end ClientCall

namespace ClientRun

variable {R : ClientRun} {c : ClientCall} {cs : List ClientCall} {i j : Nat}
  {L : List (AddedPoint × WriteRequest)}

/-- The write the store takes on a call, beside its point: on an await, the awaited write's
request, if the store takes it. -/
def taken (R : ClientRun) : ClientCall → Option (AddedPoint × WriteRequest)
  | .await j => R.pending[j]?.bind fun e => (R.db.stored e.2).map (e.1, ·)
  | _ => none

/-- The writes the store takes over a run of calls, each beside its point, in the order it takes
them. -/
def takenBy (R : ClientRun) : List ClientCall → List (AddedPoint × WriteRequest)
  | [] => []
  | c :: cs => (R.taken c).toList ++ (R.step c).takenBy cs

/-- Whether a call sets writer `i`'s series while a write waits on the filter. -/
def switchesWhileFiltering (R : ClientRun) (i : Nat) : ClientCall → Bool
  | .setSeries j .. => j == i && R.pending.any (·.2.waitsOnFilter)
  | _ => false

/-- Whether a run of calls sets writer `i`'s series only while no write waits on the filter. -/
def switchesSettled (R : ClientRun) (i : Nat) : List ClientCall → Bool
  | [] => true
  | c :: cs => !R.switchesWhileFiltering i c && (R.step c).switchesSettled i cs

/-- The session of writer `i`, if there is a writer `i`. -/
def sessionOf (R : ClientRun) (i : Nat) : Option Nat := R.writers[i]?.map Writer.session

/-- The times of the points placed so far: those of the writes the store took, then those of the
decided requests still pending. -/
def placedTimes (R : ClientRun) (L : List (AddedPoint × WriteRequest)) : List Int :=
  L.map (Time.toMillis ·.1.ts) ++
    (R.pending.filter (·.2.carriesRequest)).map (Time.toMillis ·.1.ts)

/-- What a run keeps for writer `i` and the writes `L` the store took: the points placed so far
come at distinct times, none after the writer's watermark; every pending write belongs to the
writer's session; and every write taken writes its point where the database places it, in a cell
that still holds its value. -/
structure CellsKept (i : Nat) (R : ClientRun) (L : List (AddedPoint × WriteRequest)) : Prop where
  before : ∀ t ∈ R.placedTimes L, Db.notAfter (R.watermarkOf i) t = true
  distinct : (R.placedTimes L).Nodup
  session : ∀ e ∈ R.pending, e.2.OfSession (R.sessionOf i)
  writes : ∀ e ∈ L, R.db.Writes e.1 e.2
  cells : ∀ e ∈ L, R.db.store.cell? R.db.table e.2.row e.2.qualifier.toBytes = some e.2.value

/-! ### The writer's session and watermark along the calls -/

theorem watermarkOf_of_sessionOf {sid : Nat} (h : R.sessionOf i = some sid) :
    R.watermarkOf i = (R.db.session sid).watermark := by
  simp only [sessionOf, Option.map_eq_some_iff] at h
  obtain ⟨w, hw, rfl⟩ := h
  simp [watermarkOf, hw]

/-- A call that keeps the writers and raises at most the watermark of each session raises at most
the watermark of each writer. -/
theorem raises_watermarkOf {R' : ClientRun} (hw : R'.writers = R.writers)
    (h : ∀ sid, Db.Raises (R.db.session sid).watermark (R'.db.session sid).watermark) :
    Db.Raises (R.watermarkOf i) (R'.watermarkOf i) := by
  simp only [watermarkOf, hw]
  cases R.writers[i]? with
  | none => exact .refl _
  | some w => exact h w.session

/-- A new writer's session is pushed after the others, with no watermark. -/
theorem watermarkOf_newWriter (h : R.Inv) (i : Nat) :
    (R.step .newWriter).watermarkOf i = R.watermarkOf i := by
  set s₀ := Session.start none R.db.window none
  have hstep : R.step .newWriter =
      { R with
        db := { R.db with sessions := R.db.sessions.push s₀ }
        writers := R.writers ++ [⟨"", ⟨[]⟩, R.db.sessions.size, false⟩] } := rfl
  have hpush := Db.session_push R.db s₀
  rw [hstep]
  simp only [watermarkOf]
  rcases Nat.lt_or_ge i R.writers.length with hi | hi
  · rw [List.getElem?_append_left hi]
    rcases hw : R.writers[i]? with _ | w
    · rfl
    · have hlt := h.bounded w (List.mem_of_getElem? hw)
      simp [hpush, Nat.ne_of_lt hlt]
  · rw [List.getElem?_append_right hi, List.getElem?_eq_none hi]
    rcases Nat.eq_or_lt_of_le hi with heq | hgt
    · simp only [← heq, Nat.sub_self, List.getElem?_cons_zero, Option.bind_some]
      rw [hpush, if_pos rfl]
      rfl
    · rw [List.getElem?_eq_none (by simp only [List.length_singleton]; omega)]
      rfl

theorem sessionOf_newWriter {sid : Nat} (h : R.sessionOf i = some sid) :
    (R.step .newWriter).sessionOf i = some sid := by
  simp only [sessionOf, Option.map_eq_some_iff] at h ⊢
  obtain ⟨w, hw, rfl⟩ := h
  exact ⟨w, List.getElem?_append_left (List.getElem?_eq_some_iff.1 hw).1 ▸ hw, rfl⟩

/-- Setting another writer's series pushes a session after the others and leaves writer `i`
alone. -/
theorem setSeries_of_ne (h : R.Inv) (hji : j ≠ i) (metric : String) (tags : Tags) :
    (R.step (.setSeries j metric tags)).sessionOf i = R.sessionOf i ∧
      (R.step (.setSeries j metric tags)).watermarkOf i = R.watermarkOf i := by
  simp only [step]
  rcases hw : R.writers[j]? with _ | w
  · exact ⟨rfl, rfl⟩
  unfold Db.setSeries
  have hs := Db.sessions_buildTemplate R.db metric tags
  rcases hb : R.db.buildTemplate metric tags with ⟨db₁, e | T⟩ <;> rw [hb] at hs <;>
    dsimp only at hs ⊢
  · exact ⟨rfl, by simp [watermarkOf, Db.session_of_sessions hs]⟩
  · refine ⟨by simp [sessionOf, List.getElem?_set_ne hji], ?_⟩
    simp only [watermarkOf, List.getElem?_set_ne hji]
    rcases hwi : R.writers[i]? with _ | w'
    · rfl
    · have hlt : w'.session < db₁.sessions.size := hs ▸ h.bounded w' (List.mem_of_getElem? hwi)
      simp only [Option.bind_some]
      rw [Db.session_push, if_neg (Nat.ne_of_lt hlt), Db.session_of_sessions hs]

/-- Switching batch import keeps every writer's session and every session. -/
theorem setBatchImport_sessionOf (on : Bool) :
    (R.step (.setBatchImport j on)).sessionOf i = R.sessionOf i ∧
      (R.step (.setBatchImport j on)).watermarkOf i = R.watermarkOf i := by
  simp only [step]
  rcases hw : R.writers[j]? with _ | w
  · exact ⟨rfl, rfl⟩
  have hs := Db.session_of_sessions (Db.sessions_setBatchImport R.db w on)
  have hsid : (R.db.setBatchImport w on).2.session = w.session := by
    unfold Db.setBatchImport
    split
    · rfl
    · dsimp only
      split <;> (try split) <;> rfl
  by_cases hji : j = i
  · subst hji
    obtain ⟨hlt, hwj⟩ := List.getElem?_eq_some_iff.1 hw
    simp [sessionOf, watermarkOf, hlt, hwj, hs, hsid]
  · simp [sessionOf, watermarkOf, List.getElem?_set_ne hji, hs]

/-! ### One call -/

/-- A call that builds keys as before and keeps the cells keeps every taken write where it is. -/
theorem CellsKept.of_keeps (h : CellsKept i R L) {R' : ClientRun}
    (hb : ∀ t ∈ R'.placedTimes L, Db.notAfter (R'.watermarkOf i) t = true)
    (hd : (R'.placedTimes L).Nodup) (hs : ∀ e ∈ R'.pending, e.2.OfSession (R'.sessionOf i))
    (he : Db.Extends R.db R'.db) (hk : Db.KeepsCells R.db R'.db) : CellsKept i R' L where
  before := hb
  distinct := hd
  session := hs
  writes e hmem := (h.writes e hmem).of_extends he
  cells e hmem := by
    have htable : R'.db.table = R.db.table := by simp only [Db.table, hk.config]
    rw [htable, Store.cell?_congr hk.tables]
    exact h.cells e hmem

/-- A call that keeps the times placed and the cells, builds keys as before, raises at most the
writer's watermark and leaves every pending write in the writer's session keeps the invariant. -/
theorem CellsKept.of_quiet (h : CellsKept i R L) {R' : ClientRun}
    (ht : R'.placedTimes L = R.placedTimes L) (hwm : Db.Raises (R.watermarkOf i) (R'.watermarkOf i))
    (hs : ∀ e ∈ R'.pending, e.2.OfSession (R'.sessionOf i)) (he : Db.Extends R.db R'.db)
    (hk : Db.KeepsCells R.db R'.db) : CellsKept i R' L :=
  h.of_keeps (fun t hmem => hwm.covers (h.before t (ht ▸ hmem))) (ht ▸ h.distinct) hs he hk

/-- A call that keeps the pending writes and writer `i`'s session and watermark, builds keys as
before and keeps the cells keeps the invariant. -/
theorem CellsKept.of_writer_kept (h : CellsKept i R L) {R' : ClientRun}
    (hp : R'.pending = R.pending) (hsess : R'.sessionOf i = R.sessionOf i)
    (hwm : R'.watermarkOf i = R.watermarkOf i) (he : Db.Extends R.db R'.db)
    (hk : Db.KeepsCells R.db R'.db) : CellsKept i R' L := by
  refine h.of_quiet (by simp only [placedTimes, hp]) (by rw [hwm]; exact .refl _)
    (fun e he' => ?_) he hk
  rw [hp] at he'
  rw [hsess]
  exact h.session e he'

/-- Adding a point to writer `i`. A write holding a decided request was placed at once, after the
watermark, which it raised to its time. -/
theorem CellsKept.add (h : CellsKept i R L) (hR : R.Inv)
    (hooo : R.db.config.allowOutOfOrder = false) (ts : Int) (value : DataValue) : CellsKept i (R.step (.add i ts value)) L := by
  rcases hw : R.writers[i]? with _ | w
  · have hstep : R.step (.add i ts value) = R := by simp [step, hw]
    rw [hstep]
    exact h
  have hmem := List.mem_of_getElem? hw
  have hc := (Db.addValue_continues hR.sound ts value fun hrow => (hR.writers w hmem hrow).1).1
  have hk := Db.keepsCells_addValue R.db w ts value
  have hraise := Db.raises_addValue R.db w ts value w.session
  have hwm : R.watermarkOf i = (R.db.session w.session).watermark := by simp [watermarkOf, hw]
  rcases ha : R.db.addValue w ts value with ⟨db₁, e | pw⟩ <;> rw [ha] at hc hk hraise <;>
    dsimp only at hc hk hraise
  · have hstep : R.step (.add i ts value) = { R with db := db₁ } := by simp [step, hw, ha]
    rw [hstep]
    exact h.of_quiet rfl (by simpa [watermarkOf, hw] using hraise) h.session hc.toExtends hk
  set p : AddedPoint := ⟨w.metric, w.tags, ts, value⟩
  set R' : ClientRun := { R with db := db₁, pending := R.pending ++ [(p, pw)] }
  have hstep : R.step (.add i ts value) = R' := by
    simp [step, hw, ha, p, R']
  have hadd : (R.db.addValue w ts value).2 = .ok pw := by rw [ha]
  obtain ⟨hsess, hcarry⟩ := Db.addValue_ofSession hooo hadd
  have hsession : ∀ e ∈ R.pending ++ [(p, pw)], e.2.OfSession (R.sessionOf i) := by
    intro e he
    rcases List.mem_append.1 he with he | he
    · exact h.session e he
    · rw [List.mem_singleton.1 he]
      simpa [sessionOf, hw] using hsess
  have hwm' : R'.watermarkOf i = (db₁.session w.session).watermark := by
    simp [R', watermarkOf, hw]
  rw [hstep]
  cases hcr : pw.carriesRequest
  · have ht : R'.placedTimes L = R.placedTimes L := by
      simp [R', placedTimes, List.filter_append, hcr]
    exact h.of_quiet ht (by rw [hwm, hwm']; exact hraise) hsession hc.toExtends hk
  · obtain ⟨hlate, hup⟩ := Db.addValue_late hooo (hcarry hcr) hadd
    rw [ha] at hup
    rw [← hwm] at hlate
    have ht : R'.placedTimes L = R.placedTimes L ++ [Time.toMillis ts] := by
      simp [R', placedTimes, List.filter_append, hcr, p]
    obtain ⟨hnd, hna⟩ := Db.placed_cons_of_lt h.distinct fun x hx =>
      Db.lt_of_notAfter (h.before x hx) hlate
    have hperm := List.perm_append_singleton (Time.toMillis ts) (R.placedTimes L)
    refine h.of_keeps (fun x hx => ?_) ?_ hsession hc.toExtends hk
    · rw [hwm', hup]
      exact hna x (hperm.subset (ht ▸ hx))
    · rw [ht]
      exact hperm.nodup_iff.2 hnd

/-- Awaiting the pending write at `j`, whose point is `p`: before, the times placed are, up to
order, the awaited write's if it holds a request, and the rest; after, they are the awaited
point's if the store took a request `o` for it, and the same rest. -/
theorem placedTimes_await {p : AddedPoint} {pw : PendingWrite} (hj : R.pending[j]? = some (p, pw))
    (db : Db) (done : List (AddedPoint × Except WriteError Unit)) (o : Option WriteRequest) :
    ∃ rest, (R.placedTimes L).Perm
        ((if pw.carriesRequest then [Time.toMillis p.ts] else []) ++ rest) ∧
      (({ R with db := db, pending := R.pending.eraseIdx j, done := done } : ClientRun).placedTimes
        (L ++ (o.map (p, ·)).toList)).Perm
        ((o.map fun _ => Time.toMillis p.ts).toList ++ rest) := by
  obtain ⟨hlt, hget⟩ := List.getElem?_eq_some_iff.1 hj
  have hperm : ((p, pw) :: R.pending.eraseIdx j).Perm R.pending := by
    have h := List.getElem_cons_eraseIdx_perm hlt
    rwa [hget] at h
  set E := ((R.pending.eraseIdx j).filter (·.2.carriesRequest)).map (Time.toMillis ·.1.ts)
  refine ⟨L.map (Time.toMillis ·.1.ts) ++ E, ?_, ?_⟩
  · have hP := (hperm.symm.filter (·.2.carriesRequest)).map (Time.toMillis ·.1.ts)
    unfold placedTimes
    cases hcr : pw.carriesRequest
    · simpa [List.filter_cons, hcr, E] using hP.append_left (L.map (Time.toMillis ·.1.ts))
    · simp only [List.filter_cons, hcr, if_true, List.map_cons] at hP
      simpa [E] using (hP.append_left (L.map (Time.toMillis ·.1.ts))).trans List.perm_middle
  · cases o with
    | none => simp [placedTimes, E]
    | some r =>
      simp only [placedTimes, Option.map_some, Option.toList_some, List.map_append, List.map_cons,
        List.map_nil, List.append_assoc, List.singleton_append]
      exact List.perm_middle

/-- Awaiting a pending write. A taken request writes its point to a cell none of the earlier ones
holds: for a decided request its time was placed already, and a write waiting on the filter is
placed, under the writer's current session, after its watermark. -/
theorem CellsKept.await (h : CellsKept i R L) (hR : R.Inv)
    (hput : R.db.config.useAppendWrites = false) (hooo : R.db.config.allowOutOfOrder = false)
    (j : Nat) : CellsKept i (R.step (.await j)) (L ++ (R.taken (.await j)).toList) := by
  rcases hj : R.pending[j]? with _ | ⟨p, pw⟩
  · have hstep : R.step (.await j) = R := by simp [step, hj]
    have htaken : R.taken (.await j) = none := by simp [taken, hj]
    rw [hstep, htaken, Option.toList_none, List.append_nil]
    exact h
  have hmem : (p, pw) ∈ R.pending := List.mem_of_getElem? hj
  set R' : ClientRun :=
    { R with
      db := (R.db.settle pw).1
      pending := R.pending.eraseIdx j
      done := R.done ++ [(p, (R.db.settle pw).2)] } with hR'
  have hstep : R.step (.await j) = R' := by simp [step, hj, R']
  have htaken : R.taken (.await j) = (R.db.stored pw).map (p, ·) := by simp [taken, hj]
  rw [hstep, htaken]
  have hc := Db.continues_settle hR.sound (hR.pending _ hmem)
  have htable : R'.db.table = R.db.table := by simp only [R', Db.table, hc.config]
  have hwm : Db.Raises (R.watermarkOf i) (R'.watermarkOf i) :=
    raises_watermarkOf rfl fun sid => Db.raises_settle R.db pw sid
  have hsession : ∀ e ∈ R'.pending, e.2.OfSession (R'.sessionOf i) := fun e he =>
    h.session e (List.mem_of_mem_eraseIdx he)
  obtain ⟨rest, hold, hnew⟩ := placedTimes_await (L := L) hj R'.db R'.done (R.db.stored pw)
  have hrest : rest.Nodup ∧ ∀ x ∈ rest, x ∈ R.placedTimes L := by
    have hnd := (hold.nodup_iff).1 h.distinct
    exact ⟨(List.nodup_append.1 hnd).2.1, fun x hx => hold.symm.subset (List.mem_append_right _ hx)⟩
  rcases hs : R.db.stored pw with _ | r
  · rw [hs] at hnew
    refine ⟨fun x hx => hwm.covers (h.before x (hrest.2 x (hnew.subset hx))),
      hnew.symm.nodup_iff.1 hrest.1, hsession, fun e he => ?_, fun e he => ?_⟩
    · simp only [Option.map_none, Option.toList_none, List.append_nil] at he
      exact (h.writes e he).of_extends hc.toExtends
    · simp only [Option.map_none, Option.toList_none, List.append_nil] at he
      rw [htable, Db.cell?_settle hput, hs]
      exact h.cells e he
  rw [hs] at hnew
  simp only [Option.map_some, Option.toList_some] at hnew ⊢
  have hw : R.db.Writes p r := (hR.pending _ hmem).issued hR.sound (Db.issued_of_stored hs)
  have htimes : (R'.placedTimes (L ++ [(p, r)])).Nodup ∧
      ∀ x ∈ R'.placedTimes (L ++ [(p, r)]), Db.notAfter (R'.watermarkOf i) x = true := by
    cases pw with
    | failed e => simp [Db.stored, Db.issued] at hs
    | point metric tags ts value row q => exact (h.session _ hmem).elim
    | issue r' =>
      have hsame := hnew.trans hold.symm
      exact ⟨hsame.symm.nodup_iff.1 h.distinct,
        fun x hx => hwm.covers (h.before x (hsame.subset hx))⟩
    | admitted sid metric tags ts ev durable =>
      -- placed now by the writer's session, after its watermark
      have hts : ts = p.ts := (hR.pending _ hmem).1
      subst hts
      obtain ⟨hlate, hup⟩ := Db.stored_admitted hooo hs
      have hsid : R.sessionOf i = some sid := (h.session _ hmem).symm
      rw [← watermarkOf_of_sessionOf hsid] at hlate
      have hup' : R'.watermarkOf i = some (Time.toMillis p.ts) := by
        rw [show R'.watermarkOf i = (R'.db.session sid).watermark from
          watermarkOf_of_sessionOf hsid]
        exact hup
      obtain ⟨hnd, hna⟩ := Db.placed_cons_of_lt hrest.1 fun x hx =>
        Db.lt_of_notAfter (h.before x (hrest.2 x hx)) hlate
      refine ⟨hnew.symm.nodup_iff.1 hnd, fun x hx => ?_⟩
      rw [hup']
      exact hna x (hnew.subset hx)
  -- so the taken point's time is none of the earlier ones', nor is its cell
  have hfresh : Time.toMillis p.ts ∉ L.map (Time.toMillis ·.1.ts) := by
    have hL := (List.nodup_append.1 htimes.1).1
    rw [List.map_append, List.nodup_append] at hL
    exact fun hx => hL.2.2 _ hx _ (List.mem_singleton_self _) rfl
  refine ⟨htimes.2, htimes.1, hsession, fun e he => ?_, fun e he => ?_⟩
  · rcases List.mem_append.1 he with he | he
    · exact (h.writes e he).of_extends hc.toExtends
    · rw [List.mem_singleton.1 he]
      exact hw.of_extends hc.toExtends
  · rw [htable, Db.cell?_settle hput, hs, Option.elim_some]
    rcases List.mem_append.1 he with he | he
    · have hne : (e.2.row, e.2.qualifier.toBytes) ≠ r.cell := fun hcell => by
        have hts := (h.writes e he).ts_eq hR.sound hw hcell
        exact hfresh (hts ▸ List.mem_map_of_mem he)
      rw [if_neg hne]
      exact h.cells e he
    · rw [List.mem_singleton.1 he]
      simp [WriteRequest.cell]

/-- A call other than an await takes no write. -/
theorem taken_eq_none (hc : ∀ j, c ≠ .await j) : R.taken c = none := by
  cases c with
  | await j => exact absurd rfl (hc j)
  | _ => rfl

/-- No call changes the settings. -/
theorem config_step (R : ClientRun) (c : ClientCall) : (R.step c).db.config = R.db.config := by
  cases c with
  | await j =>
    simp only [step]
    split
    · exact (Db.alike_settle R.db _).config
    · rfl
  | _ => exact (keepsCells_step (fun _ h => by cases h) R).config

/-- The step lemma: every call but an add outside writer `i`, and but setting writer `i`'s series
while a write waits on the filter, keeps the invariant, with the write the store takes on it. -/
theorem CellsKept.step (h : CellsKept i R L) (hR : R.Inv)
    (hput : R.db.config.useAppendWrites = false) (hooo : R.db.config.allowOutOfOrder = false)
    (hc : c.addsOutside i = false) (hsw : R.switchesWhileFiltering i c = false) :
    CellsKept i (R.step c) (L ++ (R.taken c).toList) := by
  by_cases ha : ∃ j, c = .await j
  · obtain ⟨j, rfl⟩ := ha
    exact h.await hR hput hooo j
  rw [taken_eq_none fun j hj => ha ⟨j, hj⟩, Option.toList_none, List.append_nil]
  have hk := keepsCells_step (fun j hj => ha ⟨j, hj⟩) R
  cases c with
  | add j ts value =>
    obtain rfl : j = i := by simpa [ClientCall.addsOutside] using hc
    exact h.add hR hooo ts value
  | addPoint => cases hc
  | newWriter =>
    refine h.of_quiet rfl (by rw [watermarkOf_newWriter hR]; exact .refl _) (fun e he => ?_)
      ⟨rfl, rfl, IdRegistry.Keeps.refl _⟩ hk
    exact (h.session e he).of_kept fun _ s hs => sessionOf_newWriter hs
  | setSeries j metric tags =>
    have hp : (R.step (.setSeries j metric tags)).pending = R.pending := by
      simp only [step]
      split
      · split <;> rfl
      · rfl
    have he : Db.Extends R.db (R.step (.setSeries j metric tags)).db := by
      simp only [step]
      split
      · next w _ =>
        have hw := Db.extends_setSeries R.db w metric tags
        rcases hs : R.db.setSeries w metric tags with ⟨db, _ | _⟩ <;> rw [hs] at hw <;> exact hw
      · exact Db.Extends.refl _
    by_cases hji : j = i
    · -- the writer's series is set while no write waits on the filter
      subst hji
      have hwait : ∀ e ∈ R.pending, e.2.waitsOnFilter = false := by
        simpa [switchesWhileFiltering] using hsw
      refine h.of_quiet (by simp only [placedTimes, hp])
        (by rw [watermarkOf_setSeries]; exact .refl _) (fun e he' => ?_) he hk
      rw [hp] at he'
      exact (h.session e he').of_kept fun hwt => absurd hwt (by simp [hwait e he'])
    · obtain ⟨hsess, hwm⟩ := setSeries_of_ne hR hji metric tags
      exact h.of_writer_kept hp hsess hwm he hk
  | setBatchImport j on =>
    have hp : (R.step (.setBatchImport j on)).pending = R.pending := by
      simp only [step]
      split <;> rfl
    have he : Db.Extends R.db (R.step (.setBatchImport j on)).db := by
      simp only [step]
      split
      · exact Db.extends_setBatchImport _ _ _
      · exact Db.Extends.refl _
    obtain ⟨hsess, hwm⟩ := setBatchImport_sessionOf (R := R) (i := i) (j := j) on
    exact h.of_writer_kept hp hsess hwm he hk
  | await j => exact absurd ⟨j, rfl⟩ ha
  | _ => exact h.of_quiet rfl (.refl _) h.session ⟨rfl, rfl, IdRegistry.Keeps.refl _⟩ hk

/-- The run lemma: a run of calls in which only writer `i` adds points, and its series is set only
while no write waits on the filter, keeps the invariant, with the writes the store takes. -/
theorem CellsKept.run (h : CellsKept i R L) (hR : R.Inv)
    (hput : R.db.config.useAppendWrites = false) (hooo : R.db.config.allowOutOfOrder = false)
    (hcs : ∀ c ∈ cs, c.addsOutside i = false) (hsw : R.switchesSettled i cs = true) :
    CellsKept i (R.run cs) (L ++ R.takenBy cs) := by
  induction cs generalizing R L with
  | nil => simpa [takenBy] using h
  | cons c cs ih =>
    simp only [switchesSettled, Bool.and_eq_true, Bool.not_eq_true'] at hsw
    have hcfg := config_step R c
    rw [run_cons, takenBy, ← List.append_assoc]
    exact ih (h.step hR hput hooo (hcs c List.mem_cons_self) hsw.1) (hR.step c)
      (by rw [hcfg, hput]) (by rw [hcfg, hooo]) (fun c' hc' => hcs c' (List.mem_cons_of_mem _ hc'))
      hsw.2

/-- The writes taken sit in distinct cells. -/
theorem CellsKept.cells_nodup (h : CellsKept i R L) (hd : R.db.Sound) :
    (L.map (·.2.cell)).Nodup := by
  have htimes : (L.map (Time.toMillis ·.1.ts)).Nodup := (List.nodup_append.1 h.distinct).1
  refine (htimes.of_map _).map_on fun e he e' he' hcell => ?_
  have hts := (h.writes e he).ts_eq hd (h.writes e' he') hcell
  exact List.inj_on_of_nodup_map htimes he he' (by rw [hts])

/-! ### Whole runs -/

/-- No lost update: in put mode with out-of-order points refused, when only writer `i` adds points
and sets its series only while no write waits on the filter, every write the store takes leaves
its point's encoded value in the point's own cell, which no other taken write shares. -/
theorem accepted_points_keep_cells (hR : R.Reachable) (hpend : R.pending = [])
    (hput : R.db.config.useAppendWrites = false) (hooo : R.db.config.allowOutOfOrder = false)
    (hcs : ∀ c ∈ cs, c.addsOutside i = false) (hsw : R.switchesSettled i cs = true) :
    (∀ e ∈ R.takenBy cs, (R.run cs).db.Writes e.1 e.2 ∧
      (R.run cs).db.store.cell? (R.run cs).db.table e.2.row e.2.qualifier.toBytes =
        some e.2.value) ∧
      ((R.takenBy cs).map (·.2.cell)).Nodup := by
  have h₀ : CellsKept i R [] :=
    ⟨by simp [placedTimes, hpend], by simp [placedTimes, hpend], by simp [hpend], by simp, by simp⟩
  have h := h₀.run hR.inv hput hooo hcs hsw
  rw [List.nil_append] at h
  exact ⟨fun e he => ⟨h.writes e he, h.cells e he⟩, h.cells_nodup (hR.run cs).inv.sound⟩

/-- Writer 0 sets the series `sys.cpu` `host=web01`, adds a point that waits on the filter and
awaits it, sets the series again, adds a point at the same time, which is refused, adds one a
millisecond later, and awaits it. -/
def settledCalls : List ClientCall :=
  [.newWriter, .setSeries 0 "sys.cpu" ⟨[⟨"host", "web01"⟩]⟩, .add 0 1000 (.integer 1), .await 0,
    .setSeries 0 "sys.cpu" ⟨[⟨"host", "web01"⟩]⟩, .add 0 1000 (.integer 2),
    .add 0 1001 (.integer 3), .await 0]

/-- The store takes both points the filter admitted, in two cells. -/
example : ((start filteredDb).takenBy settledCalls).map (·.2.cell) =
    [([0, 0, 1, 0, 0, 0, 0, 0, 0, 1, 0, 0, 1], [62, 128]),
      ([0, 0, 1, 0, 0, 0, 0, 0, 0, 1, 0, 0, 1], [62, 144])] := by
  decide +kernel

/-- With the series set again only after the waiting point was awaited, both points keep their
cells. -/
theorem settled_switches_keep_cells :
    (start filteredDb).Reachable ∧ (start filteredDb).pending = [] ∧
      filteredDb.config.useAppendWrites = false ∧ filteredDb.config.allowOutOfOrder = false ∧
      (∀ c ∈ settledCalls, c.addsOutside 0 = false) ∧
      (start filteredDb).switchesSettled 0 settledCalls = true ∧
      (∀ e ∈ (start filteredDb).takenBy settledCalls,
        ((start filteredDb).run settledCalls).db.Writes e.1 e.2 ∧
        ((start filteredDb).run settledCalls).db.store.cell?
          ((start filteredDb).run settledCalls).db.table e.2.row e.2.qualifier.toBytes =
            some e.2.value) ∧
      (((start filteredDb).takenBy settledCalls).map (·.2.cell)).Nodup := by
  have hR : (start filteredDb).Reachable :=
    .start (show Db.build {} tsdbStore { filter := some admitAll } = .ok filteredDb from rfl)
  have hput : filteredDb.config.useAppendWrites = false := rfl
  have hooo : filteredDb.config.allowOutOfOrder = false := rfl
  have hcs : ∀ c ∈ settledCalls, c.addsOutside 0 = false := by
    simp [settledCalls, ClientCall.addsOutside]
  have hsw : (start filteredDb).switchesSettled 0 settledCalls = true := by decide +kernel
  exact ⟨hR, rfl, hput, hooo, hcs, hsw, accepted_points_keep_cells hR rfl hput hooo hcs hsw⟩

end ClientRun

end SeriesIngest
