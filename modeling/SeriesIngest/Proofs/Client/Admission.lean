import Mathlib.Data.List.Forall2
import SeriesIngest.Proofs.Client.Atomicity

/-!
# The admission filter

The filter is asked about a point only when the point's pending write is awaited, and then once:
with the point's metric, its time in milliseconds, its encoded value's bytes and flags, and its
tags. So over every run of the clients, with the filter on, the questions asked are those of the
awaited writes, one each, in the order they were awaited; with it off, or with no filter, none.

A point that the filter drops gives `Ok` and changes nothing but the count of dropped points: no
store write, no session moves. A filter that fails fails the write and changes nothing. And with
the filter on, a writer's call that returns a pending write changes nothing either, except the
count of points handed to the handle when the point is at or before the watermark.

Main statement: `ClientRun.filter_asked_once_per_awaited_write`.
-/

namespace SeriesIngest

/-- The question that the filter is asked about a point: the point's metric, its time in
milliseconds, the bytes and flags of its encoded value, and its tags. -/
def AddedPoint.AskedAs (p : AddedPoint) (a : Admission) : Prop :=
  ∃ ev, encodeValue p.value = .ok ev ∧
    a = ⟨p.metric, Time.toMillis p.ts, ev.bytes, p.tags, ev.flags⟩

/-- The question a pending write puts to the filter when it runs, if it asks one. -/
def PendingWrite.question : PendingWrite → Option Admission
  | .failed _ | .issue _ => none
  | .point metric tags ts ev _ _ => some ⟨metric, Time.toMillis ts, ev.bytes, tags, ev.flags⟩
  | .admitted _ metric tags ts ev _ => some ⟨metric, Time.toMillis ts, ev.bytes, tags, ev.flags⟩

/-- A pending write made while the filter is on asks it about the point it carries. -/
theorem PendingWrite.question_of_carries {p : AddedPoint} {pw : PendingWrite}
    (hcar : pw.Carries p) (hmade : pw.MadeWith true) : ∃ a, pw.question = some a ∧ p.AskedAs a := by
  cases pw with
  | failed e => cases hmade
  | issue r => cases hmade
  | point metric tags ts ev row q =>
    obtain ⟨rfl, rfl, rfl, henc⟩ := hcar
    exact ⟨_, rfl, ev, henc, rfl⟩
  | admitted sid metric tags ts ev durable =>
    obtain ⟨rfl, rfl, rfl, henc⟩ := hcar
    exact ⟨_, rfl, ev, henc, rfl⟩

namespace Db

variable {db : Db}

theorem build_admissions {config : Config} {store : Store} {parts : DbParts}
    (h : Db.build config store parts = .ok db) : db.admissions = [] := by
  rcases hv : config.validate with e | ⟨⟩
  · simp [build, hv, bind, Except.bind] at h
  simp only [build, hv, bind, Except.bind] at h
  split at h
  · cases h
  · simp only [pure, Except.pure, Except.ok.injEq] at h
    subst h
    rfl

/-- Asking the filter adds the point's question to those asked, when the filter is on. -/
theorem admissions_consult (db : Db) (metric : String) (ts : Int) (value : EncodedValue)
    (tags : Tags) : (db.consult metric ts value tags).1.admissions = db.admissions ++
      if db.filtersPoints then [⟨metric, Time.toMillis ts, value.bytes, tags, value.flags⟩] else [] := by
  unfold consult filtersPoints
  split
  · next f hf =>
    split
    · dsimp only
      split <;> rfl
    · simp
  · simp

/-- Awaiting a write adds its question to those asked, when the filter is on. -/
theorem admissions_settle (db : Db) (pw : PendingWrite) :
    (db.settle pw).1.admissions = db.admissions ++
      if db.filtersPoints then pw.question.toList else [] := by
  cases pw with
  | failed e => simp [settle, PendingWrite.question]
  | issue r => simp [PendingWrite.question, settle, (unasked_dispatch db r).admissions]
  | point metric tags ts value row q =>
    have h₁ := admissions_consult db metric ts value tags
    dsimp only [settle]
    rcases hc : db.consult metric ts value tags with ⟨db₁, e | _ | _⟩ <;> rw [hc] at h₁
    · exact h₁
    · exact h₁
    · dsimp only
      split
      · exact h₁
      · exact (unasked_dispatch db₁ _).admissions.trans h₁
  | admitted sid metric tags ts value durable =>
    have h₁ := admissions_consult db metric ts value tags
    dsimp only [settle]
    rcases hc : db.consult metric ts value tags with ⟨db₁, e | _ | _⟩ <;> rw [hc] at h₁
    · exact h₁
    · exact h₁
    · have h₂ := (unasked_writeAllowed db₁ sid metric ts value).admissions.trans h₁
      dsimp only
      rcases hw : db₁.writeAllowed sid metric ts value with ⟨db₂, _ | _⟩ <;> rw [hw] at h₂
      · exact h₂
      · exact (unasked_dispatch db₂ _).admissions.trans h₂

section Verdict

variable {pw : PendingWrite} {f : AdmissionFilter} {a : Admission}

/-- A point that the filter drops is counted, and nothing else changes. -/
theorem settle_of_dropped (hf : db.filter = some f) (hon : f.filtersPoints = true)
    (hq : pw.question = some a) (hv : f.verdict a = .ok false) :
    db.settle pw = ({ db with
      admissions := db.admissions ++ [a],
      stats := { db.stats with pointsFiltered := db.stats.pointsFiltered + 1 } }, .ok ()) := by
  cases pw with
  | failed e => cases hq
  | issue r => cases hq
  | point metric tags ts value row q =>
    cases hq
    simp [settle, consult, hf, hon, hv]
  | admitted sid metric tags ts value durable =>
    cases hq
    simp [settle, consult, hf, hon, hv]

/-- A filter that fails fails the write, and nothing changes but the question asked. -/
theorem settle_of_filter_error {reason : String} (hf : db.filter = some f)
    (hon : f.filtersPoints = true) (hq : pw.question = some a) (hv : f.verdict a = .error reason) :
    db.settle pw = ({ db with admissions := db.admissions ++ [a] }, .error (.filter reason)) := by
  cases pw with
  | failed e => cases hq
  | issue r => cases hq
  | point metric tags ts value row q =>
    cases hq
    simp [settle, consult, hf, hon, hv]
  | admitted sid metric tags ts value durable =>
    cases hq
    simp [settle, consult, hf, hon, hv]

end Verdict

/-- With the filter on, a writer's call that returns a pending write changes nothing, except the
count of points handed to the handle for a point at or before the watermark. -/
theorem addValue_of_filtersPoints {w : Writer} {ts : Int} {value : DataValue} {db' : Db}
    {pw : PendingWrite} (hd : db.Sound)
    (hw : (db.session w.session).row.isSome → db.Builds w.metric w.tags)
    (hon : db.filtersPoints = true) (h : db.addValue w ts value = (db', .ok pw)) :
    db' = db ∨ db' = { db with stats :=
      { db.stats with outOfOrderDelegated := db.stats.outOfOrderDelegated + 1 } } := by
  rcases henc : encodeValue value with e | ev
  · simp [addValue, henc] at h
  have hadd : db.addValue w ts value = db.addEncoded w ts ev := by simp [addValue, henc]
  rw [hadd] at h
  by_cases hrow : (db.session w.session).row.isSome
  · obtain ⟨row, hr⟩ := Option.isSome_iff_exists.1 hrow
    rcases hts : checkTimestamp ts with e | ⟨⟩
    · simp [addEncoded, hr, hts] at h
    cases hlate : notAfter (db.session w.session).watermark (Time.toMillis ts)
    · rw [addEncoded_of_late hrow hts hlate] at h
      simp only [placeNow, hon, Bool.not_true, Bool.false_eq_true, if_false, Prod.mk.injEq] at h
      exact .inl h.1.symm
    · obtain ⟨last, hwm, hle⟩ := notAfter_eq_true.1 hlate
      rw [addEncoded_of_notAfter hrow hts hwm hle] at h
      split at h
      · let db₁ : Db :=
          { db with stats := { db.stats with outOfOrderDelegated := db.stats.outOfOrderDelegated + 1 } }
        have hb : db₁.Builds w.metric w.tags := hw hrow
        obtain ⟨pw', hpw⟩ := addEncodedPoint_of_builds (hd.congr rfl rfl : db₁.Sound) hts hb ev
        rw [hpw, Prod.mk.injEq] at h
        exact .inr h.1.symm
      · cases h
  · have hnone : (db.session w.session).row = none := by simpa using hrow
    simp [addEncoded, hnone] at h

end Db

namespace ClientRun

/-- A call asks the filter nothing and awaits nothing, or it awaits one pending write. -/
theorem step_cases (R : ClientRun) (c : ClientCall) :
    ((R.step c).done = R.done ∧ (R.step c).db.admissions = R.db.admissions) ∨
      ∃ i p pw, R.pending[i]? = some (p, pw) ∧ R.step c = { R with
        db := (R.db.settle pw).1,
        pending := R.pending.eraseIdx i,
        done := R.done ++ [(p, (R.db.settle pw).2)] } := by
  cases c with
  | newWriter => exact .inl ⟨rfl, rfl⟩
  | setSeries i metric tags =>
    refine .inl ?_
    simp only [step]
    split
    · next w _ =>
      have h := (Db.unasked_setSeries R.db w metric tags).admissions
      rcases hs : R.db.setSeries w metric tags with ⟨db, _ | _⟩ <;> rw [hs] at h <;> exact ⟨rfl, h⟩
    · exact ⟨rfl, rfl⟩
  | add i ts value =>
    refine .inl ?_
    simp only [step]
    split
    · next w _ =>
      have h := (Db.unasked_addValue R.db w ts value).admissions
      rcases ha : R.db.addValue w ts value with ⟨db, _ | _⟩ <;> rw [ha] at h <;> exact ⟨rfl, h⟩
    · exact ⟨rfl, rfl⟩
  | addPoint metric ts value tags =>
    refine .inl ?_
    have h := (Db.unasked_addPoint R.db metric ts value tags).admissions
    simp only [step]
    rcases ha : R.db.addPoint metric ts value tags with ⟨db, _ | _⟩ <;> rw [ha] at h <;>
      exact ⟨rfl, h⟩
  | setBatchImport i on =>
    refine .inl ?_
    simp only [step]
    split
    · exact ⟨rfl, (Db.unasked_setBatchImport _ _ _).admissions⟩
    · exact ⟨rfl, rfl⟩
  | setBufferingTime ms => exact .inl ⟨rfl, rfl⟩
  | await i =>
    simp only [step]
    split
    · next p pw hi => exact .inr ⟨i, p, pw, hi, rfl⟩
    · exact .inl ⟨rfl, rfl⟩
  | answer verdict => exact .inl ⟨rfl, rfl⟩
  | failWrites on => exact .inl ⟨rfl, rfl⟩

/-- With the filter on, the questions asked are those of the awaited writes, one each and in the
order they were awaited; with it off, none. -/
theorem Reachable.asked {R : ClientRun} (h : R.Reachable) :
    if R.db.filtersPoints then List.Forall₂ (fun a d => d.1.AskedAs a) R.db.admissions R.done
    else R.db.admissions = [] := by
  induction h with
  | start hb =>
    dsimp only [ClientRun.start]
    rw [Db.build_admissions hb]
    split
    · exact .nil
    · rfl
  | step c hR ih =>
    have hinv := hR.inv
    rw [filtersPoints_step]
    rcases step_cases _ c with ⟨hd, ha⟩ | ⟨i, p, pw, hi, hstep⟩
    · rw [hd, ha]
      exact ih
    · have hmem := List.mem_of_getElem? hi
      rw [hstep]
      dsimp only
      rw [Db.admissions_settle]
      split
      · next hon =>
        rw [if_pos hon] at ih
        obtain ⟨a, hq, hask⟩ := PendingWrite.question_of_carries (hinv.carries _ hmem)
          (hon ▸ hinv.madeWith _ hmem)
        rw [hq]
        exact List.rel_append ih (.cons hask .nil)
      · next hoff =>
        rw [if_neg hoff] at ih
        simp [ih]

/-- The filter is asked only about awaited writes, once each, in await order and about their own
points, and never with the filter off; a drop or a failing filter writes nothing and moves no
session. -/
theorem filter_asked_once_per_awaited_write {R : ClientRun} (hR : R.Reachable) :
    (if R.db.filtersPoints then List.Forall₂ (fun a d => d.1.AskedAs a) R.db.admissions R.done
      else R.db.admissions = []) ∧
    (∀ i p pw f, R.pending[i]? = some (p, pw) → R.db.filter = some f → f.filtersPoints = true →
      ∃ a, p.AskedAs a ∧
        (f.verdict a = .ok false → R.step (.await i) = { R with
          db := { R.db with
            admissions := R.db.admissions ++ [a],
            stats := { R.db.stats with pointsFiltered := R.db.stats.pointsFiltered + 1 } },
          pending := R.pending.eraseIdx i,
          done := R.done ++ [(p, .ok ())] }) ∧
        (∀ reason, f.verdict a = .error reason → R.step (.await i) = { R with
          db := { R.db with admissions := R.db.admissions ++ [a] },
          pending := R.pending.eraseIdx i,
          done := R.done ++ [(p, .error (.filter reason))] })) ∧
    (∀ w ∈ R.writers, R.db.filtersPoints = true → ∀ ts value db pw,
      R.db.addValue w ts value = (db, .ok pw) →
        db = R.db ∨ db = { R.db with stats :=
          { R.db.stats with outOfOrderDelegated := R.db.stats.outOfOrderDelegated + 1 } }) := by
  have h := hR.inv
  refine ⟨hR.asked, fun i p pw f hi hf hon => ?_, fun w hw hon ts value db pw ha =>
    Db.addValue_of_filtersPoints h.sound (fun hrow => (h.writers w hw hrow).2) hon ha⟩
  have hmem := List.mem_of_getElem? hi
  have hfilt : R.db.filtersPoints = true := by simp [Db.filtersPoints, hf, hon]
  obtain ⟨a, hq, hask⟩ := PendingWrite.question_of_carries (h.carries _ hmem)
    (hfilt ▸ h.madeWith _ hmem)
  refine ⟨a, hask, fun hv => ?_, fun reason hv => ?_⟩
  · simp only [step, hi, Db.settle_of_dropped hf hon hq hv]
  · simp only [step, hi, Db.settle_of_filter_error hf hon hq hv]

/-- A database whose filter admits every point, with one writer that sets a series and adds a
point, which waits for the filter. -/
def filteredClients : ClientRun :=
  (start filteredDb).run [.newWriter, .setSeries 0 "sys.cpu" ⟨[⟨"host", "web01"⟩]⟩,
    .add 0 1000 (.integer 1)]

theorem filtered_clients_ask_once :
    filteredClients.Reachable ∧
    (if filteredClients.db.filtersPoints then
        List.Forall₂ (fun a d => d.1.AskedAs a) filteredClients.db.admissions filteredClients.done
      else filteredClients.db.admissions = []) ∧
    (∀ i p pw f, filteredClients.pending[i]? = some (p, pw) → filteredClients.db.filter = some f →
      f.filtersPoints = true → ∃ a, p.AskedAs a ∧
        (f.verdict a = .ok false → filteredClients.step (.await i) = { filteredClients with
          db := { filteredClients.db with
            admissions := filteredClients.db.admissions ++ [a],
            stats := { filteredClients.db.stats with
              pointsFiltered := filteredClients.db.stats.pointsFiltered + 1 } },
          pending := filteredClients.pending.eraseIdx i,
          done := filteredClients.done ++ [(p, .ok ())] }) ∧
        (∀ reason, f.verdict a = .error reason → filteredClients.step (.await i) =
          { filteredClients with
            db := { filteredClients.db with admissions := filteredClients.db.admissions ++ [a] },
            pending := filteredClients.pending.eraseIdx i,
            done := filteredClients.done ++ [(p, .error (.filter reason))] })) ∧
    (∀ w ∈ filteredClients.writers, filteredClients.db.filtersPoints = true →
      ∀ ts value db pw, filteredClients.db.addValue w ts value = (db, .ok pw) →
        db = filteredClients.db ∨ db = { filteredClients.db with stats :=
          { filteredClients.db.stats with
            outOfOrderDelegated := filteredClients.db.stats.outOfOrderDelegated + 1 } }) := by
  have hR : filteredClients.Reachable :=
    (Reachable.start (show Db.build {} tsdbStore { filter := some admitAll } = .ok filteredDb
      from rfl)).run _
  exact ⟨hR, filter_asked_once_per_awaited_write hR⟩

end ClientRun

end SeriesIngest
