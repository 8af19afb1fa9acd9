import SeriesIngest.Proofs.Store.Commute
import SeriesIngest.Proofs.Row.Separation

/-!
# Points added through the handle, in any order

Take clients that only add points through the handle and await their writes, when every name of
the points already has an id. Adding a point then changes nothing of the database, and a write
changes only the store, which keeps taking exactly the writes it took before. So each point's
request is fixed when it is added, whatever ran before, and the store takes the same requests in
any order of the calls.

In put mode two requests to different cells commute, and distinct points are put to different
cells (`Db.Places.collides`), so the final store is the same. In append mode each row's append
column reads back as the same points in some order.

Points that do meet in a cell are put in the order they are awaited, and the cell keeps the
later one (`ClientRun.store_addThenAwait`). Tags are sorted by id in the row key, so points whose
tags differ only in their order are such points.

Main statements: `ClientRun.handle_writes_any_order`, `ClientRun.store_addThenAwait`.
-/

namespace SeriesIngest

namespace Store

variable {s s' : Store} {w : CellWrite}

/-- After a write commits a table of the same family, the store takes a write exactly when it
took it before. -/
theorem toBool_target_commit {t : Table} (h : s.target w = .ok t) {t' : Table}
    (hf : t'.family = t.family) (d : Bool) (w' : CellWrite) :
    ((s.commit w.table t' d).target w').toBool = (s.target w').toBool := by
  rw [target_commit h hf]
  split_ifs with ht hfam
  · rw [target_congr ht (hfam.symm.trans (family_of_target h)), h]
    rfl
  · rfl
  · rfl

theorem toBool_target_put (h : s.put w = .ok s') (w' : CellWrite) :
    (s'.target w').toBool = (s.target w').toBool := by
  rcases ht : s.target w with e | t
  · simp [put, ht, bind, Except.bind] at h
  · rw [put_of_target ht, Except.ok.injEq] at h
    subst h
    exact toBool_target_commit ht (by rfl) _ w'

theorem toBool_target_append (h : s.append w = .ok s') (w' : CellWrite) :
    (s'.target w').toBool = (s.target w').toBool := by
  rcases ht : s.target w with e | t
  · simp [append, ht, bind, Except.bind] at h
  · simp only [append, ht, bind, Except.bind, pure, Except.pure, Except.ok.injEq] at h
    subst h
    exact toBool_target_commit ht (by rfl) _ w'

theorem toBool_target_putOr (w' : CellWrite) : ((s.putOr w).target w').toBool = (s.target w').toBool := by
  rcases hp : s.put w with e | s'
  · simp [putOr, hp]
  · simp [putOr, hp, toBool_target_put hp]

end Store

namespace Db

/-- `db'` makes the writes of `db`: the same settings, key rules, ids and filter, and a store
that takes a write exactly when the store of `db` takes it. -/
structure Alike (db db' : Db) : Prop where
  config : db'.config = db.config
  rules : db'.rules = db.rules
  ids : db'.ids = db.ids
  filter : db'.filter = db.filter
  takes : ∀ w, (db'.store.target w).toBool = (db.store.target w).toBool

section Alike

variable {db db' db'' : Db}

theorem Alike.refl (db : Db) : Alike db db := ⟨rfl, rfl, rfl, rfl, fun _ => rfl⟩

theorem Alike.trans (h₁ : Alike db db') (h₂ : Alike db' db'') : Alike db db'' :=
  ⟨h₂.config.trans h₁.config, h₂.rules.trans h₁.rules, h₂.ids.trans h₁.ids,
    h₂.filter.trans h₁.filter, fun w => (h₂.takes w).trans (h₁.takes w)⟩

theorem Frame.alike (h : Frame db db') : Alike db db' :=
  ⟨h.config, h.rules, h.ids, h.filter, fun w => by rw [h.store]⟩

/-- A request the store takes changes only the store, which takes the same writes after it. -/
theorem alike_dispatch (db : Db) (r : WriteRequest) : Alike db (db.dispatch r).1 := by
  unfold dispatch
  dsimp only
  split
  · exact Alike.refl db
  · next store hs =>
    refine ⟨rfl, rfl, rfl, rfl, fun w' => ?_⟩
    dsimp only
    split at hs
    · exact Store.toBool_target_append hs w'
    · exact Store.toBool_target_put hs w'

/-- Awaiting a write keeps the database making the same writes. -/
theorem alike_settle (db : Db) (pw : PendingWrite) : Alike db (db.settle pw).1 := by
  obtain ⟨db₁, hf, -, ⟨-, h⟩ | ⟨r, -, h⟩⟩ := settle_stages db pw
  · rw [h]
    exact hf.alike
  · rw [h]
    exact hf.alike.trans (alike_dispatch db₁ r)

theorem cellWrite_congr (h : db'.config = db.config) (r : WriteRequest) :
    db'.cellWrite r = db.cellWrite r := by
  simp [cellWrite, table, h]

/-- The filter's answer reads only the filter. -/
theorem consult_congr (h : db'.filter = db.filter) (metric : String) (ts : Int)
    (value : EncodedValue) (tags : Tags) :
    (db'.consult metric ts value tags).2 = (db.consult metric ts value tags).2 := by
  simp only [consult, h]
  cases db.filter with
  | none => rfl
  | some f =>
    dsimp only
    split_ifs
    · cases f.verdict ⟨metric, Time.toMillis ts, value.bytes, tags, value.flags⟩ with
      | error e => rfl
      | ok b => cases b <;> rfl
    · rfl

/-- A request is taken exactly when the store takes its write. -/
theorem toBool_dispatch (db : Db) (r : WriteRequest) :
    (db.dispatch r).2.toBool = (db.store.target (db.cellWrite r)).toBool := by
  rcases ht : db.store.target (db.cellWrite r) with e | t <;>
    by_cases happ : db.config.useAppendWrites <;>
    simp [dispatch, happ, Store.append, Store.put, ht, bind, Except.bind, pure, Except.pure,
      Except.toBool]

/-- The request the store takes when a point handed to the handle is awaited: the point's, when
the filter admits it, its metric has an id and the store takes its write. -/
theorem stored_point {db₁ : Db} {res : Except WriteError Bool} {metric : String} {tags : Tags}
    {ts : Int} {value : EncodedValue} (hc : db.consult metric ts value tags = (db₁, res))
    (row : RowKey) (q : Qualifier) :
    db.stored (.point metric tags ts value row q) =
      if res = .ok true ∧ row.metricResolved = true ∧
          (db.store.target (db.cellWrite ⟨row.bytes, q, value.bytes, true⟩)).toBool = true
      then some ⟨row.bytes, q, value.bytes, true⟩ else none := by
  have hf : Frame db db₁ := by simpa [hc] using frame_consult db metric ts value tags
  simp only [stored, settle, issued, hc]
  rcases res with e | _ | _
  · simp [Except.toBool]
  · simp [Except.toBool]
  · by_cases hres : row.metricResolved
    · simp [hres, toBool_dispatch, cellWrite_congr hf.config, hf.store]
    · simp [hres, rejectMetric, Except.toBool]

theorem stored_point_congr (h : Alike db db') (metric : String) (tags : Tags) (ts : Int)
    (value : EncodedValue) (row : RowKey) (q : Qualifier) :
    db'.stored (.point metric tags ts value row q) = db.stored (.point metric tags ts value row q) := by
  rcases hc : db.consult metric ts value tags with ⟨db₁, res⟩
  rcases hc' : db'.consult metric ts value tags with ⟨db₁', res'⟩
  have hres : res' = res := by
    have := consult_congr h.filter metric ts value tags
    rwa [hc, hc'] at this
  rw [stored_point hc, stored_point hc', hres, cellWrite_congr h.config, h.takes]

/-- Adding a point reads only the settings, the key rules and the ids. -/
theorem addPoint_congr (h : Alike db db') (metric : String) (ts : Int) (value : DataValue)
    (tags : Tags) : (db'.addPoint metric ts value tags).2 = (db.addPoint metric ts value tags).2 := by
  unfold addPoint
  split
  · rfl
  · unfold addEncodedPoint
    split
    · rfl
    · simp only [buildTemplate, h.rules, h.ids]
      generalize db.rules.buildTemplate db.ids metric tags = b
      obtain ⟨ids, res⟩ := b
      cases res with
      | error e => rfl
      | ok T =>
        simp only [withBaseTime, baseTimeOf, h.config]
        split <;> rfl

end Alike

/-- The handle hands a point over as a point write. -/
theorem addPoint_point {db : Db} {metric : String} {ts : Int} {value : DataValue} {tags : Tags}
    {pw : PendingWrite} (h : (db.addPoint metric ts value tags).2 = .ok pw) :
    ∃ ev row q, pw = .point metric tags ts ev row q := by
  rcases henc : encodeValue value with e | ev
  · simp [addPoint, henc] at h
  simp only [addPoint, henc, addEncodedPoint] at h
  split at h
  · cases h
  · rcases hb : db.buildTemplate metric tags with ⟨db₁, e | T⟩ <;> rw [hb] at h
    · cases h
    · dsimp only at h
      split at h
      · cases h
      · cases h
        exact ⟨ev, _, _, rfl⟩

/-- In put mode, awaiting a write puts the request the store takes, if any, and leaves the store
as it was otherwise. -/
theorem store_settle_put {db : Db} (hput : db.config.useAppendWrites = false) (pw : PendingWrite) :
    (db.settle pw).1.store = (db.stored pw).elim db.store fun r => db.store.putOr (db.cellWrite r) := by
  obtain ⟨db₁, hf, -, ⟨hnone, h⟩ | ⟨r, hr, h⟩⟩ := settle_stages db pw
  · simp [h, stored, hnone, hf.store]
  · have hw : db₁.cellWrite r = db.cellWrite r := cellWrite_congr hf.config r
    have hput₁ : db₁.config.useAppendWrites = false := by rw [hf.config, hput]
    rcases hs : db.store.put (db.cellWrite r) with e | s'
    · simp [h, stored, dispatch, hput₁, hw, hf.store, hs, Except.toBool]
    · simp [h, stored, hr, dispatch, hput₁, hw, hf.store, hs, Except.toBool, Store.putOr]

/-- The request the store takes for a point added through the handle and awaited with nothing
in between: none when adding it fails. -/
def handleStored (db : Db) (p : AddedPoint) : Option WriteRequest :=
  match (db.addPoint p.metric p.ts p.value p.tags).2 with
  | .ok pw => db.stored pw
  | .error _ => none

/-- With no filter, a point whose series has a template built with no new ids and with its metric
resolved is stored at the template moved to the base time of its timestamp, when the store takes
the write. -/
theorem handleStored_of_template {db : Db} (hd : db.Sound) (hfilter : db.filter = none)
    {p : AddedPoint} {ev : EncodedValue} {T : RowKey} {q : Qualifier}
    (henc : encodeValue p.value = .ok ev) (hts : checkTimestamp p.ts = .ok ())
    (hT : db.rules.buildTemplate db.ids p.metric p.tags = (db.ids, .ok T))
    (hres : T.metricResolved = true) (hq : buildQualifier p.ts (db.baseTimeOf p.ts) ev.flags = .ok q)
    (htake : (db.store.target (db.cellWrite
      ⟨(db.withBaseTime T (db.baseTimeOf p.ts)).bytes, q, ev.bytes, true⟩)).toBool = true) :
    db.handleStored p = some ⟨(db.withBaseTime T (db.baseTimeOf p.ts)).bytes, q, ev.bytes, true⟩ := by
  have hc : db.consult p.metric p.ts ev p.tags = (db, .ok true) := by simp [consult, hfilter]
  have hres' : (db.withBaseTime T (db.baseTimeOf p.ts)).metricResolved = true := hres
  simp only [handleStored, addPoint_of_template hd henc hts hT, hq, Except.map]
  rw [stored_point hc]
  simp [hres', htake]

/-- The request of a point added through the handle writes the point's value to the cell where
the handle places the point. -/
theorem places_of_handleStored {db : Db} (hd : db.Sound) {p : AddedPoint}
    (hn : db.ids.Names p.metric p.tags) {x : WriteRequest} (h : db.handleStored p = some x) :
    ∃ row ev, db.Places p row x.qualifier ev ∧ x.row = row.bytes := by
  unfold handleStored at h
  split at h
  · next pw hpw =>
    rcases henc : encodeValue p.value with e | ev
    · simp [addPoint, henc] at hpw
    have hadd : db.addPoint p.metric p.ts p.value p.tags = db.addEncodedPoint p.metric p.ts ev p.tags := by
      simp [addPoint, henc]
    rw [hadd] at hpw
    have hsame : (db.addEncodedPoint p.metric p.ts ev p.tags).1 = db := by
      rw [← hadd]
      exact addPoint_of_names hn p.ts p.value
    have hok := (addEncodedPoint_continues hd p henc).2 pw hpw
    rw [hsame] at hok
    obtain ⟨ev', row, q, rfl⟩ := addPoint_point (hadd ▸ hpw)
    rcases hc : db.consult p.metric p.ts ev' p.tags with ⟨db₁, res⟩
    rw [stored_point hc] at h
    split_ifs at h with hcond
    cases h
    exact ⟨row, ev', hok hcond.2.1, rfl⟩
  · cases h

/-- The store takes the write of a point's request. -/
theorem takes_of_handleStored {db : Db} {p : AddedPoint} {x : WriteRequest}
    (h : db.handleStored p = some x) : (db.store.target (db.cellWrite x)).toBool = true := by
  unfold handleStored at h
  split at h
  · next pw hpw =>
    obtain ⟨ev, row, q, rfl⟩ := addPoint_point hpw
    rcases hc : db.consult p.metric p.ts ev p.tags with ⟨db₁, res⟩
    rw [stored_point hc] at h
    split_ifs at h with hcond
    cases h
    exact hcond.2.2
  · cases h

/-- Two points whose requests write one cell meet there. -/
theorem collides_of_handleStored {db : Db} (hd : db.Sound) (hsep : db.rules.Separates db.ids)
    {p p' : AddedPoint} (hn : db.ids.Names p.metric p.tags) (hn' : db.ids.Names p'.metric p'.tags)
    {x y : WriteRequest} (hx : db.handleStored p = some x) (hy : db.handleStored p' = some y)
    (hrow : x.row = y.row) (hq : x.qualifier = y.qualifier) : p.Collides p' := by
  obtain ⟨row, ev, hpl, hxr⟩ := places_of_handleStored hd hn hx
  obtain ⟨row', ev', hpl', hyr⟩ := places_of_handleStored hd hn' hy
  rw [hq] at hpl
  exact hpl.collides hd hsep hpl' (by rw [← hxr, ← hyr, hrow])

end Db

namespace ClientCall

/-- The point a call adds through the handle. -/
def added : ClientCall → Option AddedPoint
  | .addPoint metric ts value tags => some ⟨metric, tags, ts, value⟩
  | _ => none

/-- Whether a call goes through the handle: it adds a point or awaits a write. -/
def throughHandle : ClientCall → Bool
  | .addPoint .. => true
  | .await _ => true
  | _ => false

/-- The call that adds a point through the handle. -/
def ofPoint (p : AddedPoint) : ClientCall := .addPoint p.metric p.ts p.value p.tags

@[simp] theorem added_ofPoint (p : AddedPoint) : (ofPoint p).added = some p := rfl

@[simp] theorem throughHandle_ofPoint (p : AddedPoint) : (ofPoint p).throughHandle = true := rfl

/-- Adds the points through the handle, then awaits the oldest pending write once per point. -/
def addThenAwait (ps : List AddedPoint) : List ClientCall :=
  ps.map ofPoint ++ List.replicate ps.length (.await 0)

end ClientCall

/-- Calls through the handle only, which add the points `points` in some order. -/
structure HandleCalls (cs : List ClientCall) (points : List AddedPoint) : Prop where
  handle : ∀ c ∈ cs, c.throughHandle = true
  adds : (cs.filterMap ClientCall.added).Perm points

theorem HandleCalls.names {cs : List ClientCall} {points : List AddedPoint} {ids : IdRegistry}
    (h : HandleCalls cs points) (hn : ∀ p ∈ points, ids.Names p.metric p.tags) :
    ∀ c ∈ cs, ∀ p, c.added = some p → ids.Names p.metric p.tags :=
  fun c hc p hp => hn p (h.adds.subset (List.mem_filterMap.2 ⟨c, hc, hp⟩))

theorem HandleCalls.addThenAwait (ps : List AddedPoint) :
    HandleCalls (ClientCall.addThenAwait ps) ps := by
  refine ⟨fun c hc => ?_, ?_⟩
  · simp only [ClientCall.addThenAwait, List.mem_append, List.mem_map, List.mem_replicate] at hc
    rcases hc with ⟨p, -, rfl⟩ | ⟨-, rfl⟩ <;> rfl
  · have hawait : (List.replicate ps.length (ClientCall.await 0)).filterMap ClientCall.added = [] :=
      List.filterMap_eq_nil_iff.2 fun c hc => by rw [List.eq_of_mem_replicate hc]; rfl
    simp [ClientCall.addThenAwait, List.filterMap_append, List.filterMap_map, Function.comp_def, hawait]

/-- Taking out the element at an index of a list, filtered, leaves the rest of the filtered
list. -/
theorem filterMap_eraseIdx_perm {α β : Type} (f : α → Option β) {l : List α} {i : Nat} {a : α}
    (h : l[i]? = some a) : ((f a).toList ++ (l.eraseIdx i).filterMap f).Perm (l.filterMap f) := by
  obtain ⟨hi, ha⟩ := List.getElem?_eq_some_iff.1 h
  have hp := (List.getElem_cons_eraseIdx_perm hi).filterMap f
  rw [ha] at hp
  cases hfa : f a <;> simpa [List.filterMap_cons, hfa] using hp

namespace ClientRun

theorem run_append (R : ClientRun) (cs cs' : List ClientCall) : R.run (cs ++ cs') = (R.run cs).run cs' :=
  List.foldl_append

theorem storedBy_append (R : ClientRun) (cs cs' : List ClientCall) :
    R.storedBy (cs ++ cs') = R.storedBy cs ++ (R.run cs).storedBy cs' := by
  induction cs generalizing R with
  | nil => rfl
  | cons c cs ih => simp [storedBy, ih]

/-- The clients' database makes the writes of `db`, and each pending write is the one the handle
gives at `db` for its point. -/
structure Follows (db : Db) (S : ClientRun) : Prop where
  alike : Db.Alike db S.db
  pending : ∀ e ∈ S.pending, (db.addPoint e.1.metric e.1.ts e.1.value e.1.tags).2 = .ok e.2

section Follows

variable {db : Db} {S : ClientRun} {c : ClientCall} {cs : List ClientCall}

/-- A pending write, awaited now, has the store take the request its point has at `db`. -/
theorem Follows.stored_pending (h : S.Follows db) {e : AddedPoint × PendingWrite} (he : e ∈ S.pending) :
    S.db.stored e.2 = db.handleStored e.1 := by
  have hpw := h.pending e he
  obtain ⟨ev, row, q, hq⟩ := Db.addPoint_point hpw
  rw [Db.handleStored, hpw, hq]
  exact Db.stored_point_congr h.alike _ _ _ _ _ _

/-- Adding a point whose names have ids leaves the clients' database as it is, with the answer
the handle gives at `db`. -/
theorem Follows.addPoint (h : S.Follows db) {metric : String} {tags : Tags}
    (hn : db.ids.Names metric tags) (ts : Int) (value : DataValue) :
    S.db.addPoint metric ts value tags = (S.db, (db.addPoint metric ts value tags).2) :=
  Prod.ext (Db.addPoint_of_names (h.alike.ids ▸ hn) ts value) (Db.addPoint_congr h.alike metric ts value tags)

/-- A call through the handle keeps the clients following `db`: the requests taken, then those
still pending, are those pending before, then that of the point added. -/
theorem follows_step (h : S.Follows db) (hc : c.throughHandle = true)
    (hn : ∀ p, c.added = some p → db.ids.Names p.metric p.tags) :
    (S.step c).Follows db ∧
      ((S.stored c).toList ++ (S.step c).pending.filterMap (db.handleStored ·.1)).Perm
        (S.pending.filterMap (db.handleStored ·.1) ++ c.added.toList.filterMap db.handleStored) := by
  cases c with
  | addPoint metric ts value tags =>
    have ha := h.addPoint (hn _ rfl) ts value
    rcases hr : (db.addPoint metric ts value tags).2 with e | pw <;> rw [hr] at ha
    · have hnone : db.handleStored ⟨metric, tags, ts, value⟩ = none := by simp [Db.handleStored, hr]
      refine ⟨by simpa [step, ha] using h, ?_⟩
      simp [step, ha, stored, ClientCall.added, hnone]
    · have hnew : db.handleStored ⟨metric, tags, ts, value⟩ = db.stored pw := by
        simp [Db.handleStored, hr]
      refine ⟨⟨by simpa [step, ha] using h.alike, fun e he => ?_⟩, ?_⟩
      · simp only [step, ha, List.mem_append, List.mem_singleton] at he
        rcases he with he | rfl
        · exact h.pending e he
        · exact hr
      · simp only [step, ha, stored, ClientCall.added, Option.toList_none, List.nil_append,
          Option.toList_some, List.filterMap_append]
        exact List.Perm.refl _
  | await i =>
    simp only [step, stored]
    split
    · next p pw hi =>
      have hs : S.db.stored pw = db.handleStored p := h.stored_pending (List.mem_of_getElem? hi)
      refine ⟨⟨h.alike.trans (Db.alike_settle _ _), fun e he =>
        h.pending e (List.mem_of_mem_eraseIdx he)⟩, ?_⟩
      simpa [hi, hs, ClientCall.added] using
        filterMap_eraseIdx_perm (fun e : AddedPoint × PendingWrite => db.handleStored e.1) hi
    · next hi => exact ⟨h, by simp [hi, ClientCall.added]⟩
  | _ => cases hc

/-- Over calls through the handle, the requests the store takes, then those of the points still
pending, are the requests of the points pending at first, then those of the points added. -/
theorem follows_run (h : S.Follows db) (hc : ∀ c ∈ cs, c.throughHandle = true)
    (hn : ∀ c ∈ cs, ∀ p, c.added = some p → db.ids.Names p.metric p.tags) :
    (S.run cs).Follows db ∧
      (S.storedBy cs ++ (S.run cs).pending.filterMap (db.handleStored ·.1)).Perm
        (S.pending.filterMap (db.handleStored ·.1) ++
          (cs.filterMap ClientCall.added).filterMap db.handleStored) := by
  -- on the calls, from the state each call starts in
  induction cs generalizing S with
  | nil => simpa [storedBy] using h
  | cons c cs ih =>
    obtain ⟨h₁, hp₁⟩ := follows_step h (hc c List.mem_cons_self) (hn c List.mem_cons_self)
    obtain ⟨h₂, hp₂⟩ := ih h₁ (fun c' hc' => hc c' (List.mem_cons_of_mem _ hc'))
      (fun c' hc' => hn c' (List.mem_cons_of_mem _ hc'))
    have hadds : ((c :: cs).filterMap ClientCall.added).filterMap db.handleStored =
        c.added.toList.filterMap db.handleStored ++
          (cs.filterMap ClientCall.added).filterMap db.handleStored := by
      cases hca : c.added with
      | none => simp [hca]
      | some p => cases hp : db.handleStored p <;> simp [hca, hp]
    refine ⟨h₂, ?_⟩
    rw [run_cons, storedBy, hadds, List.append_assoc]
    have e₂ := hp₂.append_left (S.stored c).toList
    have e₁ := hp₁.append_right ((cs.filterMap ClientCall.added).filterMap db.handleStored)
    rw [List.append_assoc, List.append_assoc] at e₁
    exact e₂.trans (by rwa [← List.append_assoc] at e₁ ⊢)

/-- In put mode, a call through the handle puts the request the store takes on it, if any, and
leaves the store as it was otherwise. -/
theorem store_step_put (hput : db.config.useAppendWrites = false) (h : S.Follows db)
    (hc : c.throughHandle = true) (hn : ∀ p, c.added = some p → db.ids.Names p.metric p.tags) :
    (S.step c).db.store = (S.stored c).elim S.db.store fun r => S.db.store.putOr (db.cellWrite r) := by
  cases c with
  | addPoint metric ts value tags =>
    have ha := h.addPoint (hn _ rfl) ts value
    rcases hr : (db.addPoint metric ts value tags).2 with e | pw <;> simp [step, ha, hr, stored]
  | await i =>
    simp only [step, stored]
    split
    · next p pw hi =>
      have hput' : S.db.config.useAppendWrites = false := by rw [h.alike.config, hput]
      simp only [hi, Option.bind_some, Db.store_settle_put hput' pw, Db.cellWrite_congr h.alike.config]
    · next hi => simp [hi]
  | _ => cases hc

/-- In put mode, over calls through the handle, the store is the first store with the requests
the store takes put in the order it takes them. -/
theorem store_run_put (hput : db.config.useAppendWrites = false) (h : S.Follows db)
    (hc : ∀ c ∈ cs, c.throughHandle = true)
    (hn : ∀ c ∈ cs, ∀ p, c.added = some p → db.ids.Names p.metric p.tags) :
    (S.run cs).db.store = (S.storedBy cs).foldl (fun s r => s.putOr (db.cellWrite r)) S.db.store := by
  induction cs generalizing S with
  | nil => rfl
  | cons c cs ih =>
    have h₁ := (follows_step h (hc c List.mem_cons_self) (hn c List.mem_cons_self)).1
    rw [run_cons, storedBy, List.foldl_append,
      ih h₁ (fun c' hc' => hc c' (List.mem_cons_of_mem _ hc'))
        (fun c' hc' => hn c' (List.mem_cons_of_mem _ hc')),
      store_step_put hput h (hc c List.mem_cons_self) (hn c List.mem_cons_self)]
    cases S.stored c <;> rfl

/-- Points added through the handle are pending in the order they were added, those the handle
refuses left out, and the store takes nothing on the way. -/
theorem run_ofPoints {ps : List AddedPoint} (h : S.Follows db)
    (hn : ∀ p ∈ ps, db.ids.Names p.metric p.tags) :
    S.storedBy (ps.map ClientCall.ofPoint) = [] ∧
      (S.run (ps.map ClientCall.ofPoint)).pending.map Prod.fst =
        S.pending.map Prod.fst ++ ps.filter fun p => (db.addPoint p.metric p.ts p.value p.tags).2.toBool := by
  induction ps generalizing S with
  | nil => simp [storedBy]
  | cons p ps ih =>
    have hn₀ : ∀ q, (ClientCall.ofPoint p).added = some q → db.ids.Names q.metric q.tags := by
      intro q hq
      rw [ClientCall.added_ofPoint, Option.some.injEq] at hq
      exact hq ▸ hn p List.mem_cons_self
    obtain ⟨hs, hp⟩ := ih (follows_step h rfl hn₀).1 fun q hq => hn q (List.mem_cons_of_mem _ hq)
    refine ⟨by rw [List.map_cons, storedBy, hs]; rfl, ?_⟩
    rw [List.map_cons, run_cons, hp]
    have ha := h.addPoint (hn p List.mem_cons_self) p.ts p.value
    rcases hr : (db.addPoint p.metric p.ts p.value p.tags).2 with e | pw <;>
      simp [step, ClientCall.ofPoint, ha, hr, Except.toBool]

/-- Awaiting the oldest pending write `n` times has the store take the requests of the `n`
oldest pending points, in the order they were added. -/
theorem storedBy_awaitOldest (h : S.Follows db) (n : Nat) :
    S.storedBy (List.replicate n (.await 0)) = (S.pending.take n).filterMap (db.handleStored ·.1) := by
  induction n generalizing S with
  | zero => simp [storedBy]
  | succ n ih =>
    rw [List.replicate_succ, storedBy, ih (follows_step h rfl (fun _ hq => by cases hq)).1]
    rcases hp : S.pending with _ | ⟨e, rest⟩
    · simp [stored, step, hp]
    · have hs : S.db.stored e.2 = db.handleStored e.1 := h.stored_pending (by simp [hp])
      rcases hx : db.handleStored e.1 with _ | x <;> simp [stored, step, hp, hs, hx]

end Follows

section Order

variable {R : ClientRun} {points : List AddedPoint} {cs : List ClientCall}

/-- From clients with nothing pending, calls through the handle that add the points and await
them all have the store take the requests of the points, in some order. -/
theorem storedBy_perm (hpend : R.pending = []) (hnames : ∀ p ∈ points, R.db.ids.Names p.metric p.tags)
    (hcs : HandleCalls cs points) (hdone : (R.run cs).pending = []) :
    (R.storedBy cs).Perm (points.filterMap R.db.handleStored) := by
  have hf : R.Follows R.db := ⟨Db.Alike.refl _, by simp [hpend]⟩
  have h := (follows_run hf hcs.handle (hcs.names hnames)).2
  rw [hdone, hpend] at h
  simpa using h.trans (hcs.adds.filterMap _)

/-- Points added through the handle, then awaited oldest first, have the store take their
requests in the order the points were added. -/
theorem storedBy_addThenAwait {ps : List AddedPoint} (hpend : R.pending = [])
    (hnames : ∀ p ∈ ps, R.db.ids.Names p.metric p.tags) :
    R.storedBy (ClientCall.addThenAwait ps) = ps.filterMap R.db.handleStored := by
  have hf : R.Follows R.db := ⟨Db.Alike.refl _, by simp [hpend]⟩
  obtain ⟨hs, hp⟩ := run_ofPoints hf hnames
  have hcs := HandleCalls.addThenAwait ps
  have hf' : (R.run (ps.map ClientCall.ofPoint)).Follows R.db :=
    (follows_run hf (fun c hc => hcs.handle c (List.mem_append_left _ hc))
      fun c hc => hcs.names hnames c (List.mem_append_left _ hc)).1
  rw [hpend, List.map_nil, List.nil_append] at hp
  have hlen : (R.run (ps.map ClientCall.ofPoint)).pending.length ≤ ps.length := by
    have hl := congrArg List.length hp
    rw [List.length_map] at hl
    rw [hl]
    exact List.length_filter_le _ _
  have hfst : ∀ l : List (AddedPoint × PendingWrite),
      l.filterMap (R.db.handleStored ·.1) = (l.map Prod.fst).filterMap R.db.handleStored :=
    fun l => by rw [List.filterMap_map]; rfl
  rw [ClientCall.addThenAwait, storedBy_append, hs, storedBy_awaitOldest hf', List.nil_append,
    List.take_of_length_le hlen, hfst, hp, List.filterMap_filter]
  congr 1
  funext p
  cases ha : (R.db.addPoint p.metric p.ts p.value p.tags).2 <;> simp [ha, Db.handleStored, Except.toBool]

/-- In put mode, points added through the handle and then awaited oldest first are put in the
order they were added: where two of them meet in one cell, the later one is what the cell
holds. -/
theorem store_addThenAwait {ps : List AddedPoint} (hput : R.db.config.useAppendWrites = false)
    (hpend : R.pending = []) (hnames : ∀ p ∈ ps, R.db.ids.Names p.metric p.tags) :
    (R.run (ClientCall.addThenAwait ps)).db.store =
      (ps.filterMap R.db.handleStored).foldl (fun s r => s.putOr (R.db.cellWrite r)) R.db.store := by
  have hcs := HandleCalls.addThenAwait ps
  rw [store_run_put hput ⟨Db.Alike.refl _, by simp [hpend]⟩ hcs.handle (hcs.names hnames),
    storedBy_addThenAwait hpend hnames]

/-- In put mode, of two points added and then awaited oldest first, the cell of the later one's
request holds its value, whatever the earlier one wrote. -/
theorem cell_addThenAwait_later {p p' : AddedPoint} {x y : WriteRequest}
    (hput : R.db.config.useAppendWrites = false) (hpend : R.pending = [])
    (hnames : ∀ q ∈ [p, p'], R.db.ids.Names q.metric q.tags) (hx : R.db.handleStored p = some x)
    (hy : R.db.handleStored p' = some y) :
    (R.run (ClientCall.addThenAwait [p, p'])).db.store.cell? R.db.table y.row y.qualifier.toBytes =
      some y.value := by
  have hw : R.db.cellWrite y = ⟨R.db.table, y.row, dataFamily, y.qualifier.toBytes, y.value, y.durable⟩ := by
    simp [Db.cellWrite, hput]
  rw [store_addThenAwait hput hpend hnames]
  simp only [List.filterMap_cons, hx, hy, List.filterMap_nil, List.foldl_cons, List.foldl_nil, hw]
  -- the earlier put changes no store's answer, so the store takes the later one too
  exact Store.cell?_putOr_self (by rw [Store.toBool_target_putOr, ← hw]; exact Db.takes_of_handleStored hy)

/-- Points added through the handle and awaited in any order leave the same store when their names
have ids that tell them apart and no two distinct points meet in one cell. -/
theorem handle_writes_any_order (hR : R.Reachable) (hpend : R.pending = [])
    (hsep : R.db.rules.Separates R.db.ids) (hnames : ∀ p ∈ points, R.db.ids.Names p.metric p.tags)
    (hdistinct : ∀ p ∈ points, ∀ q ∈ points, p.Collides q → p = q) {cs' : List ClientCall}
    (hcs : HandleCalls cs points) (hcs' : HandleCalls cs' points)
    (hdone : (R.run cs).pending = []) (hdone' : (R.run cs').pending = []) :
    (R.db.config.useAppendWrites = false → (R.run cs).db.store = (R.run cs').db.store) ∧
      (R.db.config.useAppendWrites = true → ∀ key ps,
        parseAppend ((R.db.store.cell? R.db.table key appendColumn).getD []) = .ok ps →
        ∃ qs qs', parseAppend (((R.run cs).db.store.cell? R.db.table key appendColumn).getD []) =
            .ok qs ∧
          parseAppend (((R.run cs').db.store.cell? R.db.table key appendColumn).getD []) =
            .ok qs' ∧ qs.Perm qs') := by
  have hf : R.Follows R.db := ⟨Db.Alike.refl _, by simp [hpend]⟩
  have hperm₁ := storedBy_perm hpend hnames hcs hdone
  have hperm := hperm₁.trans (storedBy_perm hpend hnames hcs' hdone').symm
  refine ⟨fun hput => ?_, fun happ key ps hps => ?_⟩
  · rw [store_run_put hput hf hcs.handle (hcs.names hnames),
      store_run_put hput hf hcs'.handle (hcs'.names hnames)]
    refine hperm.foldl_eq' (fun x hx y hy z => ?_) _
    by_cases hxy : x = y
    · rw [hxy]
    · -- two requests of distinct points write different cells, so their puts commute
      refine Store.putOr_comm (by simp [Db.cellWrite, hput]) (by simp [Db.cellWrite, hput])
        (fun hcell => hxy ?_) z
      obtain ⟨p, hp, hpx⟩ := List.mem_filterMap.1 (hperm₁.subset hx)
      obtain ⟨p', hp', hpy⟩ := List.mem_filterMap.1 (hperm₁.subset hy)
      simp only [Db.cellWrite, hput, Bool.false_eq_true, if_false, Prod.mk.injEq] at hcell
      have hpp := hdistinct p hp p' hp' (Db.collides_of_handleStored hR.inv.sound hsep
        (hnames p hp) (hnames p' hp') hpx hpy hcell.1 (Qualifier.toBytes_injective hcell.2))
      subst hpp
      rw [hpx] at hpy
      exact Option.some.inj hpy
  · exact ⟨_, _, appendColumn_run hR happ cs key hps, appendColumn_run hR happ cs' key hps,
      ((hperm.filter _).map _).append_left ps⟩

end Order

/-! ### Points of `sys.cpu` -/

/-- Ids for the metric `sys.cpu`, the tag keys `host` and `dc` and the tag values `web01` and
`x`, three bytes wide. -/
def cpuIds : IdRegistry :=
  ⟨{ width := 3, next := 2, entries := [("sys.cpu", [0, 0, 1])] },
    { width := 3, next := 3, entries := [("host", [0, 0, 1]), ("dc", [0, 0, 2])] },
    { width := 3, next := 3, entries := [("web01", [0, 0, 1]), ("x", [0, 0, 2])] }⟩

/-- The default table in put mode, with the ids of `cpuIds`. -/
def cpuDb : Db := (Db.build {} tsdbStore { ids := some cpuIds }).toOption.get (by decide)

theorem reachable_cpuDb : (start cpuDb).Reachable :=
  .start (show Db.build {} tsdbStore { ids := some cpuIds } = .ok cpuDb from rfl)

theorem separates_cpuDb : cpuDb.rules.Separates cpuDb.ids :=
  KeyRules.separates_of_entries (fun k => by cases k <;> decide) (fun k => by cases k <;> decide)
    (by decide +kernel) (by decide)

/-- Points of two series of `sys.cpu`, a second apart. -/
def webPoint : AddedPoint := ⟨"sys.cpu", ⟨[⟨"host", "web01"⟩]⟩, 1000, .integer 1⟩
def dcPoint : AddedPoint := ⟨"sys.cpu", ⟨[⟨"dc", "x"⟩]⟩, 1001, .integer 2⟩

/-- Two points of different series, added and awaited in two orders, leave one store. -/
theorem cpu_points_any_order :
    (start cpuDb).Reachable ∧ (start cpuDb).pending = [] ∧ cpuDb.rules.Separates cpuDb.ids ∧
      (∀ p ∈ [webPoint, dcPoint], cpuDb.ids.Names p.metric p.tags) ∧
      (∀ p ∈ [webPoint, dcPoint], ∀ q ∈ [webPoint, dcPoint], p.Collides q → p = q) ∧
      HandleCalls (ClientCall.addThenAwait [webPoint, dcPoint]) [webPoint, dcPoint] ∧
      HandleCalls [.ofPoint dcPoint, .await 0, .ofPoint webPoint, .await 0] [webPoint, dcPoint] ∧
      ((start cpuDb).run (ClientCall.addThenAwait [webPoint, dcPoint])).pending = [] ∧
      ((start cpuDb).run [.ofPoint dcPoint, .await 0, .ofPoint webPoint, .await 0]).pending = [] ∧
      ((start cpuDb).run (ClientCall.addThenAwait [webPoint, dcPoint])).db.store =
        ((start cpuDb).run [.ofPoint dcPoint, .await 0, .ofPoint webPoint, .await 0]).db.store := by
  have hnames : ∀ p ∈ [webPoint, dcPoint], cpuDb.ids.Names p.metric p.tags := by decide +kernel
  have hdistinct : ∀ p ∈ [webPoint, dcPoint], ∀ q ∈ [webPoint, dcPoint], p.Collides q → p = q := by
    intro p hp q hq hc
    simp only [List.mem_cons, List.not_mem_nil, or_false] at hp hq
    rcases hp with rfl | rfl <;> rcases hq with rfl | rfl
    · rfl
    · exact absurd hc.2.2.1 (by decide)
    · exact absurd hc.2.2.1 (by decide)
    · rfl
  have hcs' : HandleCalls [.ofPoint dcPoint, .await 0, .ofPoint webPoint, .await 0] [webPoint, dcPoint] :=
    ⟨by decide, List.Perm.swap _ _ []⟩
  have hdone : ((start cpuDb).run (ClientCall.addThenAwait [webPoint, dcPoint])).pending = [] :=
    List.isEmpty_iff.1 (by decide +kernel)
  have hdone' : ((start cpuDb).run [.ofPoint dcPoint, .await 0, .ofPoint webPoint, .await 0]).pending = [] :=
    List.isEmpty_iff.1 (by decide +kernel)
  exact ⟨reachable_cpuDb, rfl, separates_cpuDb, hnames, hdistinct, HandleCalls.addThenAwait _, hcs', hdone,
    hdone', (handle_writes_any_order reachable_cpuDb rfl separates_cpuDb hnames hdistinct
      (HandleCalls.addThenAwait _) hcs' hdone hdone').1 rfl⟩

/-- One series with its tags in two orders, `host=web01,dc=x` and `dc=x,host=web01`, at one
timestamp with two values. -/
def hostDcPoint : AddedPoint := ⟨"sys.cpu", ⟨[⟨"host", "web01"⟩, ⟨"dc", "x"⟩]⟩, 1000, .integer 1⟩
def dcHostPoint : AddedPoint := ⟨"sys.cpu", ⟨[⟨"dc", "x"⟩, ⟨"host", "web01"⟩]⟩, 1000, .integer 2⟩

/-- Points whose tags differ only in their order have one row key and one column, so the cell
holds the point added later: adding the two in the two orders leaves two different stores. -/
theorem permuted_tags_later_point_wins :
    hostDcPoint.tags ≠ dcHostPoint.tags ∧ ∃ key column,
      ((start cpuDb).run (ClientCall.addThenAwait [hostDcPoint, dcHostPoint])).db.store.cell?
          cpuDb.table key column = some [2] ∧
      ((start cpuDb).run (ClientCall.addThenAwait [dcHostPoint, hostDcPoint])).db.store.cell?
          cpuDb.table key column = some [1] := by
  have hd : cpuDb.Sound := reachable_cpuDb.inv.sound
  have hput : cpuDb.config.useAppendWrites = false := rfl
  have hnames : ∀ p ∈ [hostDcPoint, dcHostPoint], cpuDb.ids.Names p.metric p.tags := by decide +kernel
  -- the two series have one template: their tags are sorted by id
  obtain ⟨T, hT, hres⟩ := cpuDb.rules.buildTemplate_ok_of_names (hnames hostDcPoint (by simp))
    (by decide +kernel)
  have hT' : cpuDb.rules.buildTemplate cpuDb.ids dcHostPoint.metric dcHostPoint.tags = (cpuDb.ids, .ok T) :=
    (cpuDb.rules.buildTemplate_perm (hnames hostDcPoint (by simp)) (hnames dcHostPoint (by simp))
      (List.Perm.swap _ _ []) (by decide +kernel) (by decide +kernel)).symm.trans hT
  obtain ⟨q, hq⟩ : ∃ q, buildQualifier 1000 (cpuDb.baseTimeOf 1000) 0 = .ok q := ⟨_, rfl⟩
  have hw : ∀ v, cpuDb.cellWrite ⟨(cpuDb.withBaseTime T (cpuDb.baseTimeOf 1000)).bytes, q, v, true⟩ =
      ⟨cpuDb.table, (cpuDb.withBaseTime T (cpuDb.baseTimeOf 1000)).bytes, dataFamily, q.toBytes, v, true⟩ :=
    fun v => by simp [Db.cellWrite, hput]
  have htable : (cpuDb.store.target ⟨cpuDb.table, [], dataFamily, [], [], true⟩).toBool = true := by
    decide +kernel
  have htake : ∀ v, (cpuDb.store.target (cpuDb.cellWrite
      ⟨(cpuDb.withBaseTime T (cpuDb.baseTimeOf 1000)).bytes, q, v, true⟩)).toBool = true := by
    intro v
    rw [hw, ← htable]
    exact congrArg Except.toBool (Store.target_congr rfl rfl)
  have hs₁ : cpuDb.handleStored hostDcPoint =
      some ⟨(cpuDb.withBaseTime T (cpuDb.baseTimeOf 1000)).bytes, q, [1], true⟩ :=
    Db.handleStored_of_template hd rfl (show encodeValue hostDcPoint.value = .ok ⟨[1], 0⟩ from rfl) rfl hT hres hq
      (htake _)
  have hs₂ : cpuDb.handleStored dcHostPoint =
      some ⟨(cpuDb.withBaseTime T (cpuDb.baseTimeOf 1000)).bytes, q, [2], true⟩ :=
    Db.handleStored_of_template hd rfl (show encodeValue dcHostPoint.value = .ok ⟨[2], 0⟩ from rfl) rfl hT' hres hq
      (htake _)
  -- both requests write one cell, and the later put is what it holds
  have hput' : (start cpuDb).db.config.useAppendWrites = false := hput
  exact ⟨by decide, _, _, cell_addThenAwait_later hput' rfl hnames hs₁ hs₂,
    cell_addThenAwait_later hput' rfl (fun p hp => hnames p (by simp at hp ⊢; tauto)) hs₂ hs₁⟩

end ClientRun

end SeriesIngest
