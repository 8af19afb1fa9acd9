import SeriesIngest.Write.Writer

/-!
# The batch-import ratchet

A writer in batch-import mode writes without durability, and the store then buffers its edits
for the store's flush interval, which every writer of the store shares. Switching the mode on
raises the interval to the configured default `D` unless it is already larger; switching it off
drops the interval to zero only while it still holds `D`; asking for the mode in force does
nothing. The two conditions are not inverse: switching on and then off restores an interval `I`
exactly when `I = 0`, `I > D` or `D = 0`, so an interval of `D` or below that the user set is
lost on the way.

`ModeCall.ratchet` says what one call of a writer's user does to the pair of the mode and the
interval. `Db.modeRun_eq` says that a run of such calls changes nothing else of the database and
of the writer, and leaves what the fold of `ModeCall.ratchet` gives.

Main statement: `Db.batchImport_ratchet`.
-/

namespace SeriesIngest

/-- A call of a writer's user on the writer's batch-import mode or on the flush interval of the
store. -/
inductive ModeCall where
  | setBatchImport (on : Bool)
  | setBufferingTime (ms : UInt16)

namespace ModeCall

/-- The mode a call asks for, if it asks for one. -/
def mode? : ModeCall → Option Bool
  | .setBatchImport on => some on
  | .setBufferingTime _ => none

/-- What a call does to the mode and the interval under the default `D`. A call for the mode in
force does nothing; switching on raises the interval to `D`; switching off takes back an interval
that still is `D`; setting the buffering time sets the interval. -/
def ratchet (D : UInt16) : Bool × UInt16 → ModeCall → Bool × UInt16
  | (mode, i), .setBatchImport on =>
    if mode = on then (mode, i)
    else if on then (true, max i D)
    else (false, if i = D then 0 else i)
  | (mode, _), .setBufferingTime ms => (mode, ms)

/-- A call for a mode leaves that mode. -/
theorem ratchet_mode (D : UInt16) (s : Bool × UInt16) (on : Bool) :
    (ratchet D s (.setBatchImport on)).1 = on := by
  obtain ⟨mode, i⟩ := s
  cases mode <;> cases on <;> simp [ratchet]

/-- After any calls the mode is the last one asked for, or the first mode when none was. -/
theorem foldl_ratchet_mode (D : UInt16) (s : Bool × UInt16) (cs : List ModeCall) :
    (cs.foldl (ratchet D) s).1 = ((cs.filterMap mode?).getLast?).getD s.1 := by
  induction cs generalizing s with
  | nil => rfl
  | cons c cs ih =>
    rw [List.foldl_cons, ih, List.filterMap_cons]
    cases c with
    | setBatchImport on => simp only [mode?, List.getLast?_cons, Option.getD_some, ratchet_mode]
    | setBufferingTime ms => rfl

/-- Switching on and then off restores the interval `I` exactly when `I` is zero, `I` is above the
default, or the default is zero. -/
theorem ratchet_on_off (D I : UInt16) :
    (([.setBatchImport true, .setBatchImport false] : List ModeCall).foldl (ratchet D)
      (false, I)).2 = I ↔ I = 0 ∨ D < I ∨ D = 0 := by
  show (if (if I ≤ D then D else I) = D then 0 else if I ≤ D then D else I) = I ↔ _
  by_cases hle : I ≤ D
  · -- switching on raises `I` to `D`, and switching off drops `D` to zero
    rw [if_pos hle, if_pos rfl]
    simp only [UInt16.le_iff_toNat_le, UInt16.lt_iff_toNat_lt, ← UInt16.toNat_inj,
      UInt16.toNat_zero] at hle ⊢
    omega
  · -- `I` is above `D`: switching on keeps it, and switching off keeps what is not `D`
    have hne : I ≠ D := fun h => hle (h ▸ UInt16.le_refl I)
    rw [if_neg hle, if_neg hne]
    exact iff_of_true rfl (Or.inr (Or.inl (UInt16.not_le.1 hle)))

/-- Under the default of 5000 ms: on and off go back to 0, while an interval of 10000 ms set in
between outlasts both. -/
example : ([.setBatchImport true, .setBatchImport false, .setBufferingTime 10000,
    .setBatchImport true, .setBatchImport false] : List ModeCall).scanl (ratchet 5000) (false, 0) =
    [(false, 0), (true, 5000), (false, 0), (false, 10000), (true, 10000), (false, 10000)] := by
  decide

end ModeCall

namespace Db

/-- One call of a writer's user, on the writer's mode or on the store's flush interval. -/
def modeCall (db : Db) (w : Writer) : ModeCall → Db × Writer
  | .setBatchImport on => db.setBatchImport w on
  | .setBufferingTime ms => (db.setBufferingTime ms, w)

/-- A sequence of such calls. -/
def modeRun (db : Db) (w : Writer) : List ModeCall → Db × Writer
  | [] => (db, w)
  | c :: cs => (db.modeCall w c).1.modeRun (db.modeCall w c).2 cs

@[simp] theorem setBufferingTime_config (db : Db) (ms : UInt16) :
    (db.setBufferingTime ms).config = db.config := rfl

@[simp] theorem setBufferingTime_flushInterval (db : Db) (ms : UInt16) :
    (db.setBufferingTime ms).store.flushInterval = ms := rfl

@[simp] theorem setBufferingTime_setBufferingTime (db : Db) (ms ms' : UInt16) :
    (db.setBufferingTime ms).setBufferingTime ms' = db.setBufferingTime ms' := rfl

@[simp] theorem setBufferingTime_self (db : Db) :
    db.setBufferingTime db.store.flushInterval = db := rfl

/-- Switching on raises the interval to the default unless it is already larger. -/
theorem ite_gt_eq_max (i D : UInt16) : (if D > i then D else i) = max i D := by
  show _ = if i ≤ D then D else i
  by_cases h : D > i
  · rw [if_pos h, if_pos (UInt16.le_of_lt h)]
  · have h' : D ≤ i := UInt16.not_lt.1 h
    rw [if_neg h]
    split
    · exact UInt16.le_antisymm ‹_› h'
    · rfl

/-- Switching the mode changes the mode and the interval as the ratchet says, and nothing else. -/
theorem setBatchImport_eq (db : Db) (w : Writer) (on : Bool) :
    db.setBatchImport w on =
      let s := ModeCall.ratchet db.config.defaultBatchBufferMs
        (w.batchImport, db.store.flushInterval) (.setBatchImport on)
      (db.setBufferingTime s.2, { w with batchImport := s.1 }) := by
  obtain ⟨metric, tags, session, mode⟩ := w
  cases mode <;> cases on
  · simp [setBatchImport, ModeCall.ratchet]
  · by_cases h : db.config.defaultBatchBufferMs > db.store.flushInterval <;>
      simp [setBatchImport, ModeCall.ratchet, ← ite_gt_eq_max, h]
  · by_cases h : db.store.flushInterval = db.config.defaultBatchBufferMs <;>
      simp [setBatchImport, ModeCall.ratchet, h]
  · simp [setBatchImport, ModeCall.ratchet]

/-- A call changes the mode and the interval as the ratchet says, and nothing else. -/
theorem modeCall_eq (db : Db) (w : Writer) (c : ModeCall) :
    db.modeCall w c =
      let s := ModeCall.ratchet db.config.defaultBatchBufferMs
        (w.batchImport, db.store.flushInterval) c
      (db.setBufferingTime s.2, { w with batchImport := s.1 }) := by
  cases c with
  | setBatchImport on => exact setBatchImport_eq db w on
  | setBufferingTime ms => rfl

/-- A run of calls changes the mode and the interval as the fold of the ratchet says, and nothing
else. -/
theorem modeRun_eq (db : Db) (w : Writer) (cs : List ModeCall) :
    db.modeRun w cs =
      let s := cs.foldl (ModeCall.ratchet db.config.defaultBatchBufferMs)
        (w.batchImport, db.store.flushInterval)
      (db.setBufferingTime s.2, { w with batchImport := s.1 }) := by
  induction cs generalizing db w with
  | nil => rfl
  | cons c cs ih =>
    -- the rest of the run starts where the call leaves the mode and the interval
    rw [modeRun, ih, modeCall_eq]
    simp

/-- The batch-import ratchet: a call for the mode in force does nothing, switching on and off moves
the shared interval as the ratchet says and restores it exactly when `I = 0`, `I > D` or `D = 0`,
and any run of calls leaves the ratchet's fold. -/
theorem batchImport_ratchet (db : Db) (w : Writer) :
    let D := db.config.defaultBatchBufferMs
    let I := db.store.flushInterval
    db.setBatchImport w w.batchImport = (db, w) ∧
    (w.batchImport = false →
      db.setBatchImport w true = (db.setBufferingTime (max I D), { w with batchImport := true })) ∧
    (w.batchImport = true →
      db.setBatchImport w false =
        (db.setBufferingTime (if I = D then 0 else I), { w with batchImport := false })) ∧
    (w.batchImport = false →
      ((db.modeRun w [.setBatchImport true, .setBatchImport false]).1.store.flushInterval = I ↔
        I = 0 ∨ D < I ∨ D = 0)) ∧
    ∀ cs : List ModeCall,
      db.modeRun w cs =
        (db.setBufferingTime (cs.foldl (ModeCall.ratchet D) (w.batchImport, I)).2,
          { w with batchImport := (cs.foldl (ModeCall.ratchet D) (w.batchImport, I)).1 }) ∧
      (db.modeRun w cs).2.batchImport = ((cs.filterMap ModeCall.mode?).getLast?).getD w.batchImport := by
  intro D I
  refine ⟨?_, fun hoff => ?_, fun hon => ?_, fun hoff => ?_, fun cs => ⟨modeRun_eq db w cs, ?_⟩⟩
  · simp [setBatchImport_eq, ModeCall.ratchet]
  · simp [setBatchImport_eq, ModeCall.ratchet, hoff, I, D]
  · simp [setBatchImport_eq, ModeCall.ratchet, hon, I, D]
  · rw [modeRun_eq, setBufferingTime_flushInterval, hoff]
    exact ModeCall.ratchet_on_off D I
  · rw [modeRun_eq]
    exact ModeCall.foldl_ratchet_mode D _ cs

end Db

end SeriesIngest
