import SeriesIngest.Proofs.Client.CallView

/-!
# Awaiting a writer's writes in any order

Without a filter, a writer's call does all its write needs before it returns: it orders the
point against the watermark, rolls the row, buffers the sample and fixes the request the write
will make. Awaiting the write only issues that request. So the order of awaiting reaches nothing
the calls read, and the result of each write is fixed when its call returns.

The argument runs two clients side by side (`ClientRun.Trails`). `T` makes a writer's calls and
awaits nothing; `S` makes the same calls and awaits some of the writes in between. The calls
cannot tell the two databases apart (`Db.SameCalls`), and each write `S` awaits gives back, counts
and stores what `T`'s database answers it. Two runs that await everything trail one run `T`, so
their writers, sessions, counters and results agree, and their stores are `T`'s after the puts of
the awaited requests in two orders. Those puts commute when no two meet in one cell. That holds
when out-of-order points are refused, since a writer's pending points then come in strictly
increasing time (`ClientRun.PendingInOrder`), and when no two added points share their timestamp
and value flags. In append mode every order appends the same points to each row.

Main statement: `ClientRun.await_order_irrelevant`.
-/

namespace SeriesIngest

/-! ### Calls of one writer -/

namespace ClientCall

/-- Whether a call is one a writer makes on itself: setting its series, adding a point, switching
batch import, or setting the buffering time. -/
def ofWriter : ClientCall → Bool
  | .setSeries .. | .add .. | .setBatchImport .. | .setBufferingTime _ => true
  | _ => false

/-- Whether a call awaits a write. -/
def isAwait : ClientCall → Bool
  | .await _ => true
  | _ => false

/-- The writer a call of a writer on itself names. -/
def writer? : ClientCall → Option Nat
  | .setSeries i .. | .add i .. | .setBatchImport i _ => some i
  | _ => none

/-- The timestamp and value flags of the point an add call makes. -/
def addKey : ClientCall → Option (Int × Except WriteError UInt16)
  | .add _ ts value => some (ts, (encodeValue value).map EncodedValue.flags)
  | _ => none

theorem ofWriter_of_writer? {c : ClientCall} {i : Nat} (h : c.writer? = some i) :
    c.ofWriter = true := by
  cases c <;> simp_all [writer?, ofWriter]

theorem exists_eq_await {c : ClientCall} (h : c.isAwait = true) : ∃ i, c = .await i := by
  cases c <;> first | exact ⟨_, rfl⟩ | cases h

end ClientCall

/-- The timestamp and value flags of a point: two points of one series meet in one cell exactly
when these agree. -/
def AddedPoint.cellKey (p : AddedPoint) : Int × Except WriteError UInt16 :=
  (p.ts, (encodeValue p.value).map EncodedValue.flags)

/-! ### A writer's call on databases the calls cannot tell apart -/

namespace Db

/-- A store whose flush interval is set takes the same puts. -/
theorem putOr_flushInterval (s : Store) (x : UInt16) (w : CellWrite) :
    ({ s with flushInterval := x } : Store).putOr w = { s.putOr w with flushInterval := x } := by
  rcases ht : s.target w with e | t
  · have ht' : ({ s with flushInterval := x } : Store).target w = .error e := ht
    rw [Store.putOr_of_error ht, Store.putOr_of_error ht']
  · have ht' : ({ s with flushInterval := x } : Store).target w = .ok t := ht
    rw [Store.putOr_of_target ht, Store.putOr_of_target ht']
    rfl

theorem foldl_putOr_flushInterval (f : WriteRequest → CellWrite) (rs : List WriteRequest)
    (s : Store) (x : UInt16) :
    rs.foldl (fun s r => s.putOr (f r)) { s with flushInterval := x } =
      { rs.foldl (fun s r => s.putOr (f r)) s with flushInterval := x } := by
  induction rs generalizing s with
  | nil => rfl
  | cons r rs ih => simp only [List.foldl_cons, putOr_flushInterval, ih]

end Db

namespace ClientRun

variable {D : Db} {R S T : ClientRun} {c : ClientCall}

/-- A writer's call keeps the answers writes get, gives back no write and writes none, and
changes at most the flush interval of the store. -/
theorem step_ofWriter (hc : c.ofWriter = true) (R : ClientRun) :
    Db.Answers R.db (R.step c).db ∧ (R.step c).done = R.done ∧
      (R.step c).db.stats.pointsWritten = R.db.stats.pointsWritten ∧
      (R.step c).db.store =
        { R.db.store with flushInterval := (R.step c).db.store.flushInterval } := by
  cases c with
  | setSeries i metric tags =>
    simp only [step]
    split
    · next w _ =>
      have ha := Db.answers_setSeries R.db w metric tags
      have hn := (Db.counts_setSeries R.db w metric tags).written
      have hs := Db.store_setSeries R.db w metric tags
      rcases hr : R.db.setSeries w metric tags with ⟨db, _ | _⟩ <;> rw [hr] at ha hn hs <;>
        exact ⟨ha, rfl, hn, by rw [hs]⟩
    · exact ⟨Db.Answers.refl _, rfl, rfl, rfl⟩
  | add i ts value =>
    simp only [step]
    split
    · next w _ =>
      have ha := Db.answers_addValue R.db w ts value
      have hs := Db.store_addValue R.db w ts value
      have hn : (R.db.addValue w ts value).1.stats.pointsWritten = R.db.stats.pointsWritten := by
        obtain ⟨hok, herr⟩ := Db.counts_addValue R.db w ts value
        rcases hr : (R.db.addValue w ts value).2 with e | pw
        · exact (herr e hr).written
        · exact (hok pw hr).written
      rcases hr : R.db.addValue w ts value with ⟨db, _ | _⟩ <;> rw [hr] at ha hn hs <;>
        exact ⟨ha, rfl, hn, by rw [hs]⟩
    · exact ⟨Db.Answers.refl _, rfl, rfl, rfl⟩
  | setBatchImport i on =>
    simp only [step]
    split
    · next w _ =>
      refine ⟨Db.answers_setBatchImport R.db w on, rfl,
        (Db.counts_setBatchImport R.db w on).written, ?_⟩
      unfold Db.setBatchImport
      split
      · rfl
      · dsimp only
        split <;> (try split) <;> rfl
    · exact ⟨Db.Answers.refl _, rfl, rfl, rfl⟩
  | setBufferingTime ms =>
    exact ⟨Db.answers_of_target rfl rfl (fun _ => rfl), rfl, rfl, rfl⟩
  | _ => cases hc

/-- A writer's call on two clients with the same writers and databases the calls cannot tell
apart leaves them so, pends the same writes on both, and counts the same refusals. -/
theorem step_ofWriter_sameCalls (hc : c.ofWriter = true) (hw : S.writers = T.writers)
    (hs : Db.SameCalls S.db T.db) :
    (S.step c).writers = (T.step c).writers ∧ Db.SameCalls (S.step c).db (T.step c).db ∧
      (∃ new, (S.step c).pending = S.pending ++ new ∧ (T.step c).pending = T.pending ++ new) ∧
      (S.step c).db.stats.metricRejections + T.db.stats.metricRejections =
        (T.step c).db.stats.metricRejections + S.db.stats.metricRejections := by
  cases c with
  | setSeries i metric tags =>
    simp only [step, hw]
    split
    · next w _ =>
      have hk₁ := (Db.counts_setSeries S.db w metric tags).refused
      have hk₂ := (Db.counts_setSeries T.db w metric tags).refused
      obtain ⟨d₁, d₂, r, hr₁, hr₂, hd⟩ := (hs.setSeries w metric tags).exists_eq
      rw [hr₁] at hk₁ ⊢
      rw [hr₂] at hk₂ ⊢
      dsimp only at hk₁ hk₂
      rcases r with e | w' <;> dsimp only <;>
        exact ⟨rfl, hd, ⟨[], by simp, by simp⟩, by omega⟩
    · exact ⟨hw, hs, ⟨[], by simp, by simp⟩, by omega⟩
  | add i ts value =>
    simp only [step, hw]
    split
    · next w _ =>
      have hk₁ := Db.counts_addValue S.db w ts value
      have hk₂ := Db.counts_addValue T.db w ts value
      obtain ⟨d₁, d₂, r, hr₁, hr₂, hd⟩ := (hs.addValue w ts value).exists_eq
      rw [hr₁] at hk₁ ⊢
      rw [hr₂] at hk₂ ⊢
      rcases r with e | pw
      · have e₁ := (hk₁.2 e rfl).refused
        have e₂ := (hk₂.2 e rfl).refused
        dsimp only at e₁ e₂ ⊢
        exact ⟨rfl, hd, ⟨[], by simp, by simp⟩, by omega⟩
      · have e₁ := (hk₁.1 pw rfl).refused
        have e₂ := (hk₂.1 pw rfl).refused
        dsimp only at e₁ e₂ ⊢
        exact ⟨rfl, hd, ⟨_, rfl, rfl⟩, by omega⟩
    · exact ⟨hw, hs, ⟨[], by simp, by simp⟩, by omega⟩
  | setBatchImport i on =>
    simp only [step, hw]
    split
    · next w _ =>
      have h₁ := hs.setBatchImport w on
      have hk₁ := (Db.counts_setBatchImport S.db w on).refused
      have hk₂ := (Db.counts_setBatchImport T.db w on).refused
      rw [h₁.2]
      dsimp only
      exact ⟨rfl, h₁.1, ⟨[], by simp, by simp⟩, by omega⟩
    · exact ⟨hw, hs, ⟨[], by simp, by simp⟩, by omega⟩
  | setBufferingTime ms =>
    exact ⟨hw, hs.setBufferingTime ms, ⟨[], by simp [step], by simp [step]⟩,
      by simp only [step, Db.setBufferingTime]; omega⟩
  | _ => cases hc

/-! ### One run trailing another -/

/-- `S` makes the calls `T` made and awaits, in the order `A`, some of the writes they returned:
the same writers, a database the calls cannot tell apart from `T`'s, the writes not awaited
still pending, and each awaited write given back, counted and, in put mode, stored as `D`
answers it. -/
structure Trails (D : Db) (T S : ClientRun) (A : List (AddedPoint × PendingWrite)) : Prop where
  writers : S.writers = T.writers
  calls : Db.SameCalls S.db T.db
  answersT : Db.Answers D T.db
  answersS : Db.Answers D S.db
  pending : (A ++ S.pending).Perm T.pending
  done : S.done = T.done ++ A.map fun e => (e.1, (D.settle e.2).2)
  written : S.db.stats.pointsWritten =
    T.db.stats.pointsWritten + (A.map fun e => (D.settle e.2).2.toBool.toNat).sum
  refused : S.db.stats.metricRejections = T.db.stats.metricRejections +
    (A.map fun e => (refusedMetric (D.settle e.2).2 && !e.2.counted).toNat).sum
  store : D.config.useAppendWrites = false →
    S.db.store = (A.filterMap (D.stored ·.2)).foldl (fun s r => s.putOr (D.cellWrite r)) T.db.store

theorem trails_refl (R : ClientRun) : Trails R.db R R [] where
  writers := rfl
  calls := Db.SameCalls.refl _
  answersT := Db.Answers.refl _
  answersS := Db.Answers.refl _
  pending := List.Perm.refl _
  done := by simp
  written := by simp
  refused := by simp
  store := fun _ => rfl

variable {A : List (AddedPoint × PendingWrite)}

/-- A writer's call made by both runs keeps one trailing the other. -/
theorem Trails.call (h : Trails D T S A) (hc : c.ofWriter = true) :
    Trails D (T.step c) (S.step c) A := by
  obtain ⟨haT, hdT, hwT, hsT⟩ := step_ofWriter hc T
  obtain ⟨haS, hdS, hwS, hsS⟩ := step_ofWriter hc S
  obtain ⟨hw, hcalls, ⟨new, hpS, hpT⟩, hrefused⟩ :=
    step_ofWriter_sameCalls hc h.writers h.calls
  refine ⟨hw, hcalls, h.answersT.trans haT, h.answersS.trans haS, ?_, ?_, ?_, ?_,
    fun hput => ?_⟩
  · rw [hpS, hpT, ← List.append_assoc]
    exact h.pending.append_right new
  · rw [hdS, hdT, h.done]
  · rw [hwS, hwT, h.written]
  · have := h.refused
    omega
  · -- the call sets the flush interval of both stores alike, which no put reads
    rw [hsS, h.store hput, hsT,
      Db.foldl_putOr_flushInterval _ _ T.db.store (T.step c).db.store.flushInterval,
      hcalls.flushInterval]

/-- Awaiting a write of `S` keeps `S` trailing `T`, with the write awaited last; the store takes the
request `D` gives the write. -/
theorem Trails.await (h : Trails D T S A) (hf : D.filtersPoints = false)
    (hfix : ∀ e ∈ T.pending, e.2.MadeWith false) (i : Nat) :
    ∃ A', Trails D T (S.step (.await i)) (A ++ A') ∧
      (S.stored (.await i)).toList = A'.filterMap (D.stored ·.2) := by
  rcases hi : S.pending[i]? with _ | e
  · refine ⟨[], ?_, by simp [stored, hi]⟩
    simpa [step, hi] using h
  · have hmem : e ∈ S.pending := List.mem_of_getElem? hi
    have hpw : e.2.MadeWith false :=
      hfix e (h.pending.subset (List.mem_append_right _ hmem))
    have hS : S.db.filtersPoints = false := h.answersS.filtersPoints.trans hf
    have hres : (S.db.settle e.2).2 = (D.settle e.2).2 := Db.settle_answers h.answersS hf hpw
    have hstored : S.db.stored e.2 = D.stored e.2 := Db.stored_answers h.answersS hf hpw
    obtain ⟨p, pw⟩ := e
    have hstep : S.step (.await i) = { S with
        db := (S.db.settle pw).1, pending := S.pending.eraseIdx i,
        done := S.done ++ [(p, (S.db.settle pw).2)] } := by
      simp [step, hi]
    rw [hstep]
    refine ⟨[(p, pw)], ⟨h.writers, (Db.sameCalls_settle hS hpw).symm.trans h.calls, h.answersT,
      h.answersS.trans (Db.answers_settle S.db pw), ?_, ?_, ?_, ?_, fun hput => ?_⟩,
      by simp only [stored, hi, Option.bind_some, hstored, List.filterMap_cons, List.filterMap_nil]
         cases D.stored pw <;> rfl⟩
    · obtain ⟨hlt, hget⟩ := List.getElem?_eq_some_iff.1 hi
      have hperm := List.getElem_cons_eraseIdx_perm hlt
      rw [hget] at hperm
      simpa using (hperm.append_left A).trans h.pending
    · simp [h.done, hres]
    · dsimp only
      rw [Db.written_settle hS hpw, h.written, hres]
      simp only [List.map_append, List.map_cons, List.map_nil, List.sum_append, List.sum_cons,
        List.sum_nil]
      omega
    · dsimp only
      rw [Db.refused_settle hS hpw, h.refused, hres]
      simp only [List.map_append, List.map_cons, List.map_nil, List.sum_append, List.sum_cons,
        List.sum_nil]
      omega
    · have hput' : S.db.config.useAppendWrites = false := by rw [h.answersS.config, hput]
      dsimp only
      rw [Db.store_settle_put hput' pw, hstored, h.store hput, List.filterMap_append,
        List.foldl_append]
      simp only [Db.cellWrite_congr h.answersS.config, List.filterMap_cons, List.filterMap_nil]
      cases D.stored pw <;> rfl

/-- Without a filter no pending write waits for one. -/
theorem Inv.madeWith_false (h : R.Inv) (hf : R.db.filtersPoints = false) :
    ∀ e ∈ R.pending, e.2.MadeWith false := fun e he => hf ▸ h.madeWith e he

/-- The run lemma: `S` makes the calls of a list, `T` only those that are not awaits, and `S`
keeps trailing `T`, having awaited in some order `A'` more of `T`'s writes; the store takes the
requests `D` gives those writes. -/
theorem Trails.run (h : Trails D T S A) (hf : D.filtersPoints = false) (hT : T.Reachable)
    {cs : List ClientCall} (hcs : ∀ c ∈ cs, c.ofWriter = true ∨ c.isAwait = true) :
    ∃ A', Trails D (T.run (cs.filter fun c => !c.isAwait)) (S.run cs) (A ++ A') ∧
      S.storedBy cs = A'.filterMap (D.stored ·.2) := by
  induction cs generalizing T S A with
  | nil => exact ⟨[], by simpa using h, rfl⟩
  | cons c cs ih =>
    have hrest : ∀ c ∈ cs, c.ofWriter = true ∨ c.isAwait = true :=
      fun c' hc' => hcs c' (List.mem_cons_of_mem _ hc')
    cases hc : c.isAwait
    · have hw : c.ofWriter = true := (hcs c List.mem_cons_self).resolve_right (by simp [hc])
      obtain ⟨A', h', hs⟩ := ih (h.call hw) (hT.step c) hrest
      have hnone : S.stored c = none := by
        cases c <;> first | rfl | cases hc
      exact ⟨A', by simpa [List.filter_cons, hc] using h', by simp [storedBy, hnone, hs]⟩
    · obtain ⟨i, rfl⟩ := ClientCall.exists_eq_await hc
      have hfix := hT.inv.madeWith_false (h.answersT.filtersPoints.trans hf)
      obtain ⟨A₁, h₁, hs₁⟩ := h.await hf hfix i
      obtain ⟨A₂, h₂, hs₂⟩ := ih h₁ hT hrest
      exact ⟨A₁ ++ A₂, by simpa [List.filter_cons, ClientCall.isAwait] using h₂,
        by simp [storedBy, hs₁, hs₂]⟩

/-! ### Which points the pending writes hold -/

/-- A writer's call pends at most the point of an add, whose key the call names. -/
theorem pending_keys_step (hc : c.ofWriter = true) (R : ClientRun) :
    ((R.step c).pending.map (·.1.cellKey)).Sublist
      (R.pending.map (·.1.cellKey) ++ c.addKey.toList) := by
  cases c with
  | setSeries i metric tags =>
    simp only [step]
    split
    · split <;> simp [ClientCall.addKey]
    · simp [ClientCall.addKey]
  | add i ts value =>
    simp only [step]
    split
    · split <;> simp [ClientCall.addKey, AddedPoint.cellKey]
    · simp [ClientCall.addKey]
  | setBatchImport i on =>
    simp only [step]
    split <;> simp [ClientCall.addKey]
  | setBufferingTime ms => simp [step, ClientCall.addKey]
  | _ => cases hc

theorem pending_keys_run {cs : List ClientCall} (hcs : ∀ c ∈ cs, c.ofWriter = true)
    (R : ClientRun) :
    ((R.run cs).pending.map (·.1.cellKey)).Sublist
      (R.pending.map (·.1.cellKey) ++ cs.filterMap ClientCall.addKey) := by
  induction cs generalizing R with
  | nil => simp
  | cons c cs ih =>
    have h := (ih (fun c' hc' => hcs c' (List.mem_cons_of_mem _ hc')) (R.step c)).trans
      ((pending_keys_step (hcs c List.mem_cons_self) R).append_right _)
    cases hk : c.addKey <;> simpa [List.filterMap_cons, hk] using h

end ClientRun

namespace Db

variable {db : Db} {w : Writer} {ts : Int} {value : DataValue} {pw : PendingWrite}

/-- A time at or before a watermark comes before every time after it. -/
theorem lt_of_notAfter {wm : Option Int} {t u : Int} (ht : notAfter wm t = true)
    (hu : notAfter wm u = false) : t < u := by
  obtain ⟨last, rfl, hle⟩ := notAfter_eq_true.1 ht
  exact lt_of_le_of_lt hle (lt_of_notAfter_some hu)

theorem notAfter_some_of_le {t u : Int} (h : t ≤ u) : notAfter (some u) t = true :=
  notAfter_eq_true.2 ⟨u, rfl, h⟩

/-- With out-of-order points refused, an add that hands back a pending write went the in-order
way: its value encodes, the writer's session has a row, the point comes after the watermark, and
`placeNow` placed it. -/
theorem addValue_eq_placeNow (hooo : db.config.allowOutOfOrder = false)
    (h : (db.addValue w ts value).2 = .ok pw) :
    ∃ ev, encodeValue value = .ok ev ∧ (db.session w.session).row.isSome ∧
      notAfter (db.session w.session).watermark (Time.toMillis ts) = false ∧
      db.addValue w ts value = db.placeNow w ts ev := by
  rcases henc : encodeValue value with e | ev
  · simp [addValue, henc] at h
  have hadd : db.addValue w ts value = db.addEncoded w ts ev := by simp [addValue, henc]
  rw [hadd] at h ⊢
  cases hrow : (db.session w.session).row.isSome
  · have hnone : (db.session w.session).row = none := by simpa using hrow
    simp [addEncoded, hnone] at h
  rcases hts : checkTimestamp ts with e | ⟨⟩
  · obtain ⟨row, hr⟩ := Option.isSome_iff_exists.1 hrow
    simp [addEncoded, hr, hts] at h
  cases hlate : notAfter (db.session w.session).watermark (Time.toMillis ts)
  · exact ⟨ev, rfl, rfl, rfl, addEncoded_of_late hrow hts hlate⟩
  · obtain ⟨last, hwm, hle⟩ := notAfter_eq_true.1 hlate
    rw [addEncoded_of_notAfter hrow hts hwm hle] at h
    simp [hooo] at h

/-- Without a filter and with out-of-order points refused, every point an add hands back a
pending write for came after the watermark of the writer's session, and raised it to its
time. -/
theorem addValue_late (hooo : db.config.allowOutOfOrder = false) (hf : db.filtersPoints = false)
    (h : (db.addValue w ts value).2 = .ok pw) :
    notAfter (db.session w.session).watermark (Time.toMillis ts) = false ∧
      ((db.addValue w ts value).1.session w.session).watermark = some (Time.toMillis ts) := by
  obtain ⟨ev, -, hrow, hlate, heq⟩ := addValue_eq_placeNow hooo h
  refine ⟨hlate, ?_⟩
  have hplace : (db.placeNow w ts ev).1 = (db.acceptInOrder w.session w.metric ts ev).1 := by
    simp only [placeNow, hf, Bool.not_false, if_true]
    rw [← writeAllowed_of_late hrow hlate]
    rcases db.writeAllowed w.session w.metric ts ev with ⟨db₁, _ | ⟨row, q⟩⟩ <;> rfl
  rw [heq, hplace]
  exact watermark_acceptInOrder (lt_size_of_row_isSome hrow) w.metric ts ev

end Db

namespace ClientRun

variable {R : ClientRun} {c : ClientCall} {i : Nat}

/-- The watermark of writer `i`: that of its session. -/
def watermarkOf (R : ClientRun) (i : Nat) : Option Int :=
  R.writers[i]?.bind fun w => (R.db.session w.session).watermark

/-- The writes pending from writer `i` hold points at or before its watermark, in strictly
increasing time. -/
structure PendingInOrder (i : Nat) (R : ClientRun) : Prop where
  before : ∀ e ∈ R.pending, Db.notAfter (R.watermarkOf i) (Time.toMillis e.1.ts) = true
  increasing : R.pending.Pairwise fun e e' => Time.toMillis e.1.ts < Time.toMillis e'.1.ts

/-- Pending writes of points in strictly increasing time hold distinct points. -/
theorem PendingInOrder.keys_nodup (h : PendingInOrder i R) :
    (R.pending.map (·.1.cellKey)).Nodup := by
  rw [List.Nodup, List.pairwise_map]
  refine h.increasing.imp fun hlt hkey => ?_
  have hts : _ = _ := congrArg Prod.fst hkey
  simp only [AddedPoint.cellKey] at hts
  rw [hts] at hlt
  exact lt_irrefl _ hlt

theorem PendingInOrder.congr (h : PendingInOrder i R) {R' : ClientRun}
    (hp : R'.pending = R.pending) (hW : R'.watermarkOf i = R.watermarkOf i) :
    PendingInOrder i R' :=
  ⟨by rw [hp, hW]; exact h.before, by rw [hp]; exact h.increasing⟩

theorem watermarkOf_setSeries (R : ClientRun) (i : Nat) (metric : String) (tags : Tags) :
    (R.step (.setSeries i metric tags)).watermarkOf i = R.watermarkOf i := by
  simp only [step]
  rcases hw : R.writers[i]? with _ | w
  · rfl
  · have hs := Db.sessions_buildTemplate R.db metric tags
    obtain ⟨hlt, hwi⟩ := List.getElem?_eq_some_iff.1 hw
    simp only [Db.setSeries]
    rcases hb : R.db.buildTemplate metric tags with ⟨db₁, e | T⟩ <;> rw [hb] at hs <;>
      dsimp only at hs ⊢
    · simp [watermarkOf, hw, Db.session_of_sessions hs]
    · simp [watermarkOf, hlt, hwi, Db.session_push, Db.session_of_sessions hs, Session.start]

theorem watermarkOf_setBatchImport (R : ClientRun) (i : Nat) (on : Bool) :
    (R.step (.setBatchImport i on)).watermarkOf i = R.watermarkOf i := by
  simp only [step]
  rcases hw : R.writers[i]? with _ | w
  · rfl
  · obtain ⟨hlt, hwi⟩ := List.getElem?_eq_some_iff.1 hw
    have hs := Db.session_of_sessions (Db.sessions_setBatchImport R.db w on)
    have hsid : (R.db.setBatchImport w on).2.session = w.session := by
      unfold Db.setBatchImport
      split
      · rfl
      · dsimp only
        split <;> (try split) <;> rfl
    simp [watermarkOf, hlt, hwi, hs, hsid]

/-- The step lemma: writer `i`'s calls keep its pending writes in order, without a filter and
with out-of-order points refused. -/
theorem PendingInOrder.step (h : PendingInOrder i R)
    (hooo : R.db.config.allowOutOfOrder = false) (hf : R.db.filtersPoints = false)
    (hc : c.writer? = some i) : PendingInOrder i (R.step c) := by
  cases c with
  | setSeries j metric tags =>
    obtain rfl : j = i := by simpa [ClientCall.writer?] using hc
    have hp : (R.step (.setSeries j metric tags)).pending = R.pending := by
      simp only [step]
      split
      · split <;> rfl
      · rfl
    exact h.congr hp (watermarkOf_setSeries R j metric tags)
  | setBatchImport j on =>
    obtain rfl : j = i := by simpa [ClientCall.writer?] using hc
    have hp : (R.step (.setBatchImport j on)).pending = R.pending := by
      simp only [step]
      split <;> rfl
    exact h.congr hp (watermarkOf_setBatchImport R j on)
  | add j ts value =>
    obtain rfl : j = i := by simpa [ClientCall.writer?] using hc
    rcases hw : R.writers[j]? with _ | w
    · simpa [step, hw] using h
    have hW : R.watermarkOf j = (R.db.session w.session).watermark := by simp [watermarkOf, hw]
    have hraise : ∀ wm, Db.notAfter (R.watermarkOf j) (Time.toMillis ts) = false →
        wm = some (Time.toMillis ts) →
        ∀ e ∈ R.pending, Db.notAfter wm (Time.toMillis e.1.ts) = true := by
      rintro wm hlate rfl e he
      exact Db.notAfter_some_of_le (Db.lt_of_notAfter (h.before e he) hlate).le
    rcases hr : R.db.addValue w ts value with ⟨db, e | pw⟩
    · have hW' : (R.step (.add j ts value)).watermarkOf j = (db.session w.session).watermark := by
        simp [step, hw, hr, watermarkOf]
      have hp : (R.step (.add j ts value)).pending = R.pending := by simp [step, hw, hr]
      refine ⟨?_, by rw [hp]; exact h.increasing⟩
      rw [hp, hW']
      have hwm := Db.watermark_addValue R.db w ts value w.session
      rw [hr] at hwm
      rcases hwm with hsame | ⟨-, hlate, hup⟩
      · rw [hsame, ← hW]
        exact h.before
      · exact hraise _ (hW ▸ hlate) hup
    · obtain ⟨hlate, hup⟩ := Db.addValue_late hooo hf
        (show (R.db.addValue w ts value).2 = .ok pw by rw [hr])
      rw [hr] at hup
      have hW' : (R.step (.add j ts value)).watermarkOf j = some (Time.toMillis ts) := by
        simp [step, hw, hr, watermarkOf, hup]
      have hp : (R.step (.add j ts value)).pending =
          R.pending ++ [(⟨w.metric, w.tags, ts, value⟩, pw)] := by simp [step, hw, hr]
      rw [← hW] at hlate
      refine ⟨?_, ?_⟩
      · rw [hp, hW']
        intro e he
        rcases List.mem_append.1 he with he | he
        · exact hraise _ hlate rfl e he
        · rw [List.mem_singleton.1 he]
          exact Db.notAfter_some_of_le le_rfl
      · rw [hp, List.pairwise_append]
        exact ⟨h.increasing, List.pairwise_singleton _ _,
          fun e he e' he' => by
            rw [List.mem_singleton.1 he']
            exact Db.lt_of_notAfter (h.before e he) hlate⟩
  | _ => cases hc

/-- The run lemma: over writer `i`'s calls alone its pending writes stay in order. -/
theorem PendingInOrder.run (h : PendingInOrder i R) (hooo : R.db.config.allowOutOfOrder = false)
    (hf : R.db.filtersPoints = false) {cs : List ClientCall}
    (hcs : ∀ c ∈ cs, c.writer? = some i) :
    PendingInOrder i (R.run cs) := by
  induction cs generalizing R with
  | nil => exact h
  | cons c cs ih =>
    have hc := hcs c List.mem_cons_self
    have ha := (step_ofWriter (ClientCall.ofWriter_of_writer? hc) R).1
    exact ih (h.step hooo hf hc) (by rw [ha.config, hooo]) (by rw [ha.filtersPoints, hf])
      (fun c' hc' => hcs c' (List.mem_cons_of_mem _ hc'))

end ClientRun

/-! ### Writes to distinct cells -/

/-- Puts of requests to distinct cells commute, so any order of them leaves one store. -/
theorem Db.foldl_putOr_perm {db : Db} (hput : db.config.useAppendWrites = false)
    {rs rs' : List WriteRequest} (hperm : rs.Perm rs')
    (hcells : ∀ x ∈ rs, ∀ y ∈ rs, x.row = y.row → x.qualifier = y.qualifier → x = y)
    (s : Store) :
    rs.foldl (fun s r => s.putOr (db.cellWrite r)) s =
      rs'.foldl (fun s r => s.putOr (db.cellWrite r)) s := by
  refine hperm.foldl_eq' (fun x hx y hy z => ?_) s
  by_cases hxy : x = y
  · rw [hxy]
  · refine Store.putOr_comm (by simp [Db.cellWrite, hput]) (by simp [Db.cellWrite, hput])
      (fun hcell => hxy ?_) z
    simp only [Db.cellWrite, hput, Bool.false_eq_true, if_false, Prod.mk.injEq] at hcell
    exact hcells x hx y hy hcell.1 (Qualifier.toBytes_injective hcell.2)

namespace ClientRun

variable {D : Db} {T S S' : ClientRun} {A A' : List (AddedPoint × PendingWrite)}

/-- Two pending writes whose requests meet in one cell hold points of one timestamp and the same
value flags. -/
theorem Inv.cellKey_eq_of_stored (hT : T.Inv) (hD : Db.Answers D T.db)
    (hf : D.filtersPoints = false) {e e' : AddedPoint × PendingWrite} (he : e ∈ T.pending)
    (he' : e' ∈ T.pending) {x y : WriteRequest} (hx : D.stored e.2 = some x)
    (hy : D.stored e'.2 = some y) (hrow : x.row = y.row) (hq : x.qualifier = y.qualifier) :
    e.1.cellKey = e'.1.cellKey := by
  have hmade := hT.madeWith_false (hD.filtersPoints.trans hf)
  rw [← Db.stored_answers hD hf (hmade e he)] at hx
  rw [← Db.stored_answers hD hf (hmade e' he')] at hy
  obtain ⟨row, ev, hp, hxr, -⟩ := (hT.pending e he).issued hT.sound (Db.issued_of_stored hx)
  obtain ⟨row', ev', hp', hyr, -⟩ :=
    (hT.pending e' he').issued hT.sound (Db.issued_of_stored hy)
  rw [hq] at hp
  obtain ⟨hts, hfl⟩ := hp.ts_flags_eq hT.sound hp' (by rw [← hxr, ← hyr, hrow])
  simp [AddedPoint.cellKey, hts, hp.encoded, hp'.encoded, Except.map, hfl]

/-- Two runs trailing one that await all its writes, of distinct points, in put mode leave
one store. -/
theorem Trails.store_eq (h : Trails D T S A) (h' : Trails D T S' A') (hS : S.pending = [])
    (hS' : S'.pending = []) (hT : T.Inv) (hf : D.filtersPoints = false)
    (hkeys : (T.pending.map (·.1.cellKey)).Nodup) (hput : D.config.useAppendWrites = false) :
    S.db.store = S'.db.store := by
  have hA : A.Perm T.pending := by simpa [hS] using h.pending
  have hA' : A'.Perm T.pending := by simpa [hS'] using h'.pending
  rw [h.store hput, h'.store hput]
  refine Db.foldl_putOr_perm hput ((hA.trans hA'.symm).filterMap _) (fun x hx y hy hrow hq => ?_) _
  obtain ⟨e, he, hex⟩ := List.mem_filterMap.1 hx
  obtain ⟨e', he', hey⟩ := List.mem_filterMap.1 hy
  -- requests meeting in one cell come from writes of one point key, so from one write
  have hee : e = e' := List.inj_on_of_nodup_map hkeys (hA.subset he) (hA.subset he')
    (hT.cellKey_eq_of_stored h.answersT hf (hA.subset he) (hA.subset he') hex hey hrow hq)
  rw [hee, hey] at hex
  exact (Option.some.inj hex).symm

/-! ### Any order of awaiting -/

variable {R : ClientRun} {cs cs' : List ClientCall} {i : Nat}

/-- Without a filter, two ways of awaiting one writer's writes leave the same writers, sessions,
counters and results up to order; the same put-mode store when out-of-order points are refused or
keys differ; and append columns that read back alike up to order. -/
theorem await_order_irrelevant (hR : R.Reachable) (hpend : R.pending = [])
    (hfilter : R.db.filtersPoints = false)
    (hcs : ∀ c ∈ cs, c.isAwait = true ∨ c.writer? = some i)
    (hcs' : ∀ c ∈ cs', c.isAwait = true ∨ c.writer? = some i)
    (hsame : cs.filter (fun c => !c.isAwait) = cs'.filter (fun c => !c.isAwait))
    (hdone : (R.run cs).pending = []) (hdone' : (R.run cs').pending = [])
    (hapart : R.db.config.allowOutOfOrder = false ∨ (cs.filterMap ClientCall.addKey).Nodup) :
    (R.run cs).writers = (R.run cs').writers ∧
      (R.run cs).db.sessions = (R.run cs').db.sessions ∧
      (R.run cs).db.stats = (R.run cs').db.stats ∧
      (R.run cs).done.Perm (R.run cs').done ∧
      (R.db.config.useAppendWrites = false → (R.run cs).db.store = (R.run cs').db.store) ∧
      (R.db.config.useAppendWrites = true → ∀ key ps,
        parseAppend ((R.db.store.cell? R.db.table key appendColumn).getD []) = .ok ps →
        ∃ qs qs', parseAppend (((R.run cs).db.store.cell? R.db.table key appendColumn).getD []) =
            .ok qs ∧
          parseAppend (((R.run cs').db.store.cell? R.db.table key appendColumn).getD []) =
            .ok qs' ∧ qs.Perm qs') := by
  have hcalls : ∀ cs : List ClientCall,
      (∀ c ∈ cs, c.isAwait = true ∨ c.writer? = some i) →
      ∀ c ∈ cs, c.ofWriter = true ∨ c.isAwait = true := fun cs hcs c hc =>
    (hcs c hc).elim .inr fun hw => .inl (ClientCall.ofWriter_of_writer? hw)
  -- both runs trail the run of the writer's calls alone, awaiting all its writes
  obtain ⟨A, h, hst⟩ := (trails_refl R).run hfilter hR (hcalls cs hcs)
  obtain ⟨A', h', hst'⟩ := (trails_refl R).run hfilter hR (hcalls cs' hcs')
  rw [← hsame] at h'
  rw [List.nil_append] at h h'
  have hA : A.Perm (R.run (cs.filter fun c => !c.isAwait)).pending := by
    simpa [hdone] using h.pending
  have hA' : A'.Perm (R.run (cs.filter fun c => !c.isAwait)).pending := by
    simpa [hdone'] using h'.pending
  have hperm : A.Perm A' := hA.trans hA'.symm
  have hview : Db.SameCalls (R.run cs).db (R.run cs').db := h.calls.trans h'.calls.symm
  refine ⟨h.writers.trans h'.writers.symm, hview.sessions, hview.stats ?_ ?_, ?_,
    fun hput => ?_, fun happ key ps hps => ?_⟩
  · rw [h.written, h'.written, (hperm.map _).sum_nat]
  · rw [h.refused, h'.refused, (hperm.map _).sum_nat]
  · rw [h.done, h'.done]
    exact (hperm.map _).append_left _
  · have hwriter : ∀ c ∈ cs.filter (fun c => !c.isAwait), c.writer? = some i := fun c hc => by
      obtain ⟨hc, hna⟩ := List.mem_filter.1 hc
      exact (hcs c hc).resolve_left (by simpa using hna)
    -- the writes the writer's calls leave pending hold distinct points
    have hkeys : ((R.run (cs.filter fun c => !c.isAwait)).pending.map (·.1.cellKey)).Nodup := by
      rcases hapart with hooo | hnodup
      · have hin : PendingInOrder i R := ⟨by simp [hpend], by simp [hpend]⟩
        exact (hin.run hooo hfilter hwriter).keys_nodup
      · have hsub := pending_keys_run
          (fun c hc => ClientCall.ofWriter_of_writer? (hwriter c hc)) R
        rw [hpend, List.map_nil, List.nil_append] at hsub
        exact hsub.nodup ((List.filter_sublist.filterMap _).nodup hnodup)
    exact h.store_eq h' hdone hdone' (hR.run _).inv hfilter hkeys hput
  · refine ⟨_, _, appendColumn_run hR happ cs key hps, appendColumn_run hR happ cs' key hps, ?_⟩
    rw [hst, hst']
    exact (((hperm.filterMap _).filter _).map _).append_left ps

/-- The clients of `cpuDb` with one writer, with no series yet. -/
def cpuWriterClients : ClientRun := (start cpuDb).step .newWriter

/-- Writer 0 sets the series `sys.cpu` `host=web01`, adds two points a second apart, and then
makes the awaits given. -/
def cpuWriterCalls (awaits : List ClientCall) : List ClientCall :=
  [.setSeries 0 "sys.cpu" ⟨[⟨"host", "web01"⟩]⟩, .add 0 1000 (.integer 1), .add 0 1001 (.integer 2)] ++
    awaits

/-- Awaiting the two writes first to last or last to first leaves the same sessions, results and
store. -/
theorem cpu_writes_awaited_any_order :
    ((cpuWriterClients.run (cpuWriterCalls [.await 0, .await 0])).pending = [] ∧
      (cpuWriterClients.run (cpuWriterCalls [.await 1, .await 0])).pending = []) ∧
    (cpuWriterClients.run (cpuWriterCalls [.await 0, .await 0])).db.sessions =
        (cpuWriterClients.run (cpuWriterCalls [.await 1, .await 0])).db.sessions ∧
      (cpuWriterClients.run (cpuWriterCalls [.await 0, .await 0])).done.Perm
        (cpuWriterClients.run (cpuWriterCalls [.await 1, .await 0])).done ∧
      (cpuWriterClients.run (cpuWriterCalls [.await 0, .await 0])).db.store =
        (cpuWriterClients.run (cpuWriterCalls [.await 1, .await 0])).db.store := by
  have hdone : (cpuWriterClients.run (cpuWriterCalls [.await 0, .await 0])).pending = [] :=
    List.isEmpty_iff.1 (by decide +kernel)
  have hdone' : (cpuWriterClients.run (cpuWriterCalls [.await 1, .await 0])).pending = [] :=
    List.isEmpty_iff.1 (by decide +kernel)
  have h := await_order_irrelevant (reachable_cpuDb.step .newWriter) rfl rfl
    (i := 0) (by decide) (by decide) (by rfl) hdone hdone' (.inl rfl)
  exact ⟨⟨hdone, hdone'⟩, h.2.1, h.2.2.2.1, h.2.2.2.2.1 rfl⟩

end ClientRun

end SeriesIngest
