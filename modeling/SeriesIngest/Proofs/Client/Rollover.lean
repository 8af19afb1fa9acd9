import SeriesIngest.Proofs.Client.Rows

/-!
# Rollovers and the compaction queue

A session opens its row at the base time of the first point it accepts, with no rollover and
nothing queued. Every later point it accepts has the row's base time, and stays in the row, or a
later one, a whole window or more on, and the row rolls over (`Db.InOrder`). A rollover alone is
counted, empties the buffer before the point goes in, and queues the row it leaves for compaction
with that row's base time. A session whose metric has no id never opens its row, so never rolls
over.

So over any run the compaction queue is the one before with exactly the rows left queued, in the
order they were left (`ClientRun.leftRows`); the rows one session leaves were opened, and have
increasing base times, all before the base time of the row the session is on. Opening or rolling
over is idempotent: asked again for a time of the same window, it changes nothing.

Main statement: `ClientRun.rows_roll_over_by_window`.
-/

namespace SeriesIngest

namespace Db

/-- The compaction queue after the rows left are queued in order, each with its base time. -/
def scheduleLeft (queue : Option CompactionQueue) (left : List (Nat × RowKey)) :
    Option CompactionQueue :=
  left.foldl (fun queue x => queue.map fun c => c.schedule x.2.bytes x.2.baseTime) queue

theorem scheduleLeft_append (queue : Option CompactionQueue) (l₁ l₂ : List (Nat × RowKey)) :
    scheduleLeft queue (l₁ ++ l₂) = scheduleLeft (scheduleLeft queue l₁) l₂ :=
  List.foldl_append

section Idempotent

variable {db : Db} {T : RowKey} {sid : Nat} {ts ts' : Int}

/-- Opening or rolling over the row of a filling session is idempotent for the times of one
window: the row it leaves has the first time's base time, so a second call finds it near. -/
theorem Filling.rollIfNeeded_rollIfNeeded (hd : db.Sound) (hT : db.rules.Fits T)
    (h : Filling db T (db.session sid)) (hb : db.baseTimeOf ts' = db.baseTimeOf ts) :
    (db.rollIfNeeded sid ts).rollIfNeeded sid ts' = db.rollIfNeeded sid ts := by
  have hsid := h.lt_size
  obtain ⟨k, hk⟩ := h.exists_row
  have hmoved : (db.withBaseTime k (db.baseTimeOf ts)).baseTime = db.baseTimeOf ts := by
    rw [h.withBaseTime_row hd hT hk, hd.baseTime_withBaseTime hT]
  have hnear : ((db.baseTimeOf ts').toNat : Int) -
      (db.withBaseTime k (db.baseTimeOf ts)).baseTime.toNat < db.window := by
    rw [hmoved, hb]
    simpa using hd.window_pos
  cases ho : (db.session sid).opened
  · rw [rollIfNeeded_of_closed hk ho]
    exact rollIfNeeded_of_near (by rw [session_setSession_self hsid])
      (by rw [session_setSession_self hsid]) hnear
  · by_cases hfar : (db.window : Int) ≤ (db.baseTimeOf ts).toNat - k.baseTime.toNat
    · rw [rollIfNeeded_of_far hk ho hfar]
      have hsid' : sid < ({ db with
          compaction := db.compaction.map fun c => c.schedule k.bytes k.baseTime
          stats := { db.stats with rollovers := db.stats.rollovers + 1 } } : Db).sessions.size :=
        hsid
      exact rollIfNeeded_of_near (by rw [session_setSession_self hsid'])
        (by rw [session_setSession_self hsid']; exact ho) hnear
    · have hnear' : ((db.baseTimeOf ts).toNat : Int) - k.baseTime.toNat < db.window :=
        Int.lt_of_not_ge hfar
      rw [rollIfNeeded_of_near hk ho hnear']
      exact rollIfNeeded_of_near hk ho (by rw [hb]; exact hnear')

end Idempotent

end Db

namespace ClientRun

/-- The row that a call leaves in a session by rolling it over: the session's opened row, whose
metric has an id, when the call accepts a point there with another base time. -/
def leftBy (R : ClientRun) (c : ClientCall) : Option (Nat × RowKey) :=
  match R.offered c with
  | some (sid, p) =>
    match (R.db.session sid).row with
    | some k =>
      if (R.acceptedBy c sid).isSome = true ∧ k.metricResolved = true ∧
          (R.db.session sid).opened = true ∧ R.db.baseTimeOf p.ts ≠ k.baseTime then some (sid, k)
      else none
    | none => none
  | none => none

/-- The rows that the calls of a run leave, with their sessions, in the order they were left. -/
def leftRows : ClientRun → List ClientCall → List (Nat × RowKey)
  | _, [] => []
  | R, c :: cs => (R.leftBy c).toList ++ leftRows (R.step c) cs

/-- The rows left in one session. -/
def leftIn (sid : Nat) (left : List (Nat × RowKey)) : List RowKey :=
  left.filterMap fun x => if x.1 = sid then some x.2 else none

section Left

variable {R : ClientRun} {c : ClientCall} {sid : Nat} {p : AddedPoint} {k : RowKey}

theorem leftBy_of_accepted (hacc : R.acceptedBy c sid = some p)
    (hk : (R.db.session sid).row = some k) :
    R.leftBy c = if k.metricResolved = true ∧ (R.db.session sid).opened = true ∧
      R.db.baseTimeOf p.ts ≠ k.baseTime then some (sid, k) else none := by
  simp only [leftBy, (acceptedBy_eq_some hacc).1, hk, hacc, Option.isSome_some, true_and]

theorem leftBy_of_none (hnone : ∀ sid, R.acceptedBy c sid = none) : R.leftBy c = none := by
  unfold leftBy
  split
  · next sid p _ =>
    split
    · rw [if_neg]
      simp [hnone sid]
    · rfl
  · rfl

/-- A row left by a call was the opened row of its session, whose metric has an id, and the call
accepted a point there with another base time. -/
theorem leftBy_eq_some (h : R.leftBy c = some (sid, k)) :
    (R.db.session sid).row = some k ∧ (R.db.session sid).opened = true ∧
      k.metricResolved = true ∧ ∃ p, R.acceptedBy c sid = some p ∧ R.db.baseTimeOf p.ts ≠ k.baseTime := by
  unfold leftBy at h
  split at h
  · next s p' hoff =>
    split at h
    · next k' hk =>
      split at h
      · next hc =>
        simp only [Option.some.injEq, Prod.mk.injEq] at h
        obtain ⟨rfl, rfl⟩ := h
        obtain ⟨hsome, hres, ho, hne⟩ := hc
        obtain ⟨p'', hp''⟩ := Option.isSome_iff_exists.1 hsome
        have hoff' := (acceptedBy_eq_some hp'').1
        rw [hoff, Option.some.injEq, Prod.mk.injEq] at hoff'
        obtain ⟨-, hpp⟩ := hoff'
        exact ⟨hk, ho, hres, p'', hp'', hpp ▸ hne⟩
      · cases h
    · cases h
  · cases h

/-- A call that accepts no point in a session leaves no row there. -/
theorem leftBy_ne_of_none (hacc : R.acceptedBy c sid = none) (k' : RowKey) :
    R.leftBy c ≠ some (sid, k') := by
  intro hl
  obtain ⟨-, -, -, p, hp, -⟩ := leftBy_eq_some hl
  rw [hacc] at hp
  cases hp

/-- A call leaves no row of a session whose metric has no id. -/
theorem leftBy_ne_of_unresolved (hk : (R.db.session sid).row = some k)
    (hres : k.metricResolved = false) (k' : RowKey) : R.leftBy c ≠ some (sid, k') := by
  intro hl
  obtain ⟨hk', -, hres', -⟩ := leftBy_eq_some hl
  rw [hk, Option.some.injEq] at hk'
  subst hk'
  rw [hres] at hres'
  cases hres'

/-- A call that accepts a point of the row's base time leaves no row there. -/
theorem leftBy_ne_of_same (hk : (R.db.session sid).row = some k)
    (hacc : R.acceptedBy c sid = some p) (hbase : R.db.baseTimeOf p.ts = k.baseTime)
    (k' : RowKey) : R.leftBy c ≠ some (sid, k') := by
  intro hl
  obtain ⟨hk', -, -, p', hp', hne⟩ := leftBy_eq_some hl
  rw [hk, Option.some.injEq] at hk'
  rw [hacc, Option.some.injEq] at hp'
  subst hk' hp'
  exact hne hbase

theorem leftIn_append (l₁ l₂ : List (Nat × RowKey)) :
    leftIn sid (l₁ ++ l₂) = leftIn sid l₁ ++ leftIn sid l₂ :=
  List.filterMap_append

theorem leftIn_self : leftIn sid [(sid, k)] = [k] := by
  simp [leftIn]

theorem leftIn_toList_of_ne {o : Option (Nat × RowKey)} (h : ∀ k, o ≠ some (sid, k)) :
    leftIn sid o.toList = [] := by
  rcases o with _ | ⟨s, k⟩
  · rfl
  · have hs : s ≠ sid := fun hs => h k (by rw [hs])
    simp [leftIn, hs]

end Left

section Steps

variable {R : ClientRun}

/-- A call counts one rollover for the row it leaves, if any, and queues that row for
compaction with its base time; it counts and queues nothing else. -/
theorem Inv.stats_step (h : R.Inv) (c : ClientCall) :
    (R.step c).db.stats.rollovers = R.db.stats.rollovers + (R.leftBy c).toList.length ∧
      (R.step c).db.compaction = Db.scheduleLeft R.db.compaction (R.leftBy c).toList := by
  cases h.rowStep c with
  | keep hg hnone =>
    rw [leftBy_of_none hnone]
    exact ⟨hg.rollovers, hg.compaction⟩
  | accept hacc _ _ _ _ _ _ _ =>
    obtain ⟨ev, -, -, -, -, hmove⟩ := h.inOrder_of_accepted hacc
    cases hmove with
    | refuses hk hres _ hr hc =>
      rw [leftBy_of_accepted hacc hk, if_neg (by simp [hres])]
      exact ⟨hr, hc⟩
    | opens hk _ ho _ _ _ hr hc =>
      rw [leftBy_of_accepted hacc hk, if_neg (by simp [ho])]
      exact ⟨hr, hc⟩
    | stays hk _ _ hbase _ _ hr hc =>
      rw [leftBy_of_accepted hacc hk, if_neg (by simp [hbase])]
      exact ⟨hr, hc⟩
    | rolls hk hres ho hlt _ _ _ hr hc =>
      rw [leftBy_of_accepted hacc hk, if_pos ⟨hres, ho, (UInt32.ne_of_lt hlt).symm⟩]
      exact ⟨hr, hc⟩

/-- Over a run, the rollovers counted are the rows left, and the compaction queue receives
exactly those rows, in the order they were left. -/
theorem Reachable.stats_run (hR : R.Reachable) (cs : List ClientCall) :
    (R.run cs).db.stats.rollovers = R.db.stats.rollovers + (R.leftRows cs).length ∧
      (R.run cs).db.compaction = Db.scheduleLeft R.db.compaction (R.leftRows cs) := by
  induction cs generalizing R with
  | nil => exact ⟨rfl, rfl⟩
  | cons c cs ih =>
    obtain ⟨hr, hc⟩ := hR.inv.stats_step c
    obtain ⟨hr', hc'⟩ := ih (hR.step c)
    simp only [run_cons, leftRows, List.length_append, Db.scheduleLeft_append]
    rw [hr', hc', hr, hc]
    exact ⟨by omega, rfl⟩

/-- An opened row stays opened: a call keeps it, or leaves it for a row of a later base time. -/
theorem Inv.opened_step (h : R.Inv) (c : ClientCall) {sid : Nat} {k : RowKey}
    (hk : (R.db.session sid).row = some k) (ho : (R.db.session sid).opened = true) :
    ∃ k', ((R.step c).db.session sid).row = some k' ∧ ((R.step c).db.session sid).opened = true ∧
      ((R.leftBy c = some (sid, k) ∧ k.baseTime < k'.baseTime) ∨
        ((∀ k'', R.leftBy c ≠ some (sid, k'')) ∧ k' = k)) := by
  have hsid := Db.lt_size_of_row_isSome (show (R.db.session sid).row.isSome by simp [hk])
  rcases hacc : R.acceptedBy c sid with _ | p
  · have hsame := (h.session_of_unaccepted hacc).1 hsid
    exact ⟨k, by rw [hsame]; exact hk, by rw [hsame]; exact ho, .inr ⟨leftBy_ne_of_none hacc, rfl⟩⟩
  · obtain ⟨ev, -, -, -, -, hmove⟩ := h.inOrder_of_accepted hacc
    cases hmove with
    | refuses hk' hres hse _ _ =>
      rw [hk, Option.some.injEq] at hk'
      subst hk'
      exact ⟨k, by rw [hse]; exact hk, by rw [hse]; exact ho,
        .inr ⟨leftBy_ne_of_unresolved hk hres, rfl⟩⟩
    | opens _ _ ho' _ _ _ _ _ =>
      rw [ho] at ho'
      cases ho'
    | stays hk' _ _ hbase _ hse _ _ =>
      rw [hk, Option.some.injEq] at hk'
      subst hk'
      exact ⟨k, by rw [hse]; exact hk, by rw [hse]; exact ho,
        .inr ⟨leftBy_ne_of_same hk hacc hbase, rfl⟩⟩
    | rolls hk' hres _ hlt hbt _ hse _ _ =>
      rw [hk, Option.some.injEq] at hk'
      subst hk'
      refine ⟨_, by rw [hse], by rw [hse]; exact ho, .inl ⟨?_, by rw [hbt]; exact hlt⟩⟩
      rw [leftBy_of_accepted hacc hk, if_pos ⟨hres, ho, (UInt32.ne_of_lt hlt).symm⟩]

/-- The rows one session leaves over a run have increasing base times, all before the base time
of the opened row the session ends on; and they, and that row, are no earlier than the opened
row the session starts with. -/
theorem Reachable.leftIn_increasing (hR : R.Reachable) (cs : List ClientCall) (sid : Nat) :
    ((leftIn sid (R.leftRows cs)).map (·.baseTime)).Pairwise (· < ·) ∧
      (∀ k ∈ leftIn sid (R.leftRows cs), ∃ k₁, ((R.run cs).db.session sid).row = some k₁ ∧
        ((R.run cs).db.session sid).opened = true ∧ k.baseTime < k₁.baseTime) ∧
      ∀ k₀, (R.db.session sid).row = some k₀ → (R.db.session sid).opened = true →
        (∀ k ∈ leftIn sid (R.leftRows cs), k₀.baseTime ≤ k.baseTime) ∧
        ∃ k₁, ((R.run cs).db.session sid).row = some k₁ ∧
          ((R.run cs).db.session sid).opened = true ∧ k₀.baseTime ≤ k₁.baseTime := by
  induction cs generalizing R with
  | nil =>
    refine ⟨.nil, fun k hk => by simp [leftRows, leftIn] at hk, fun k₀ hk ho => ?_⟩
    exact ⟨fun k hk => by simp [leftRows, leftIn] at hk, k₀, hk, ho, UInt32.le_refl _⟩
  | cons c cs ih =>
    obtain ⟨hinc, hlast, hfrom⟩ := ih (hR.step c)
    rw [leftRows, leftIn_append, run_cons]
    by_cases hl : ∃ k, R.leftBy c = some (sid, k)
    · -- this call leaves the row `k` of the session: the row it moves to has a later base time
      obtain ⟨k, hl⟩ := hl
      obtain ⟨hk, ho, -⟩ := leftBy_eq_some hl
      obtain ⟨k', hk', ho', hmove⟩ := hR.inv.opened_step c hk ho
      have hlt : k.baseTime < k'.baseTime := by
        rcases hmove with ⟨-, hlt⟩ | ⟨hne, -⟩
        · exact hlt
        · exact absurd hl (hne k)
      obtain ⟨hafter, k₁, hk₁, ho₁, hle₁⟩ := hfrom k' hk' ho'
      rw [hl, Option.toList_some, leftIn_self]
      simp only [List.singleton_append, List.map_cons, List.pairwise_cons, List.mem_cons,
        forall_eq_or_imp]
      refine ⟨⟨fun b hb => ?_, hinc⟩, ⟨⟨k₁, hk₁, ho₁, UInt32.lt_of_lt_of_le hlt hle₁⟩, hlast⟩,
        fun k₀ hk₀ _ => ?_⟩
      · obtain ⟨k'', hk'', rfl⟩ := List.mem_map.1 hb
        exact UInt32.lt_of_lt_of_le hlt (hafter k'' hk'')
      · rw [hk, Option.some.injEq] at hk₀
        subst hk₀
        exact ⟨⟨UInt32.le_refl _, fun k'' hk'' =>
            UInt32.le_of_lt (UInt32.lt_of_lt_of_le hlt (hafter k'' hk''))⟩,
          k₁, hk₁, ho₁, UInt32.le_of_lt (UInt32.lt_of_lt_of_le hlt hle₁)⟩
    · simp only [not_exists] at hl
      rw [leftIn_toList_of_ne hl, List.nil_append]
      refine ⟨hinc, hlast, fun k₀ hk ho => ?_⟩
      obtain ⟨k', hk', ho', hmove⟩ := hR.inv.opened_step c hk ho
      rcases hmove with ⟨hl', -⟩ | ⟨-, hkept⟩
      · exact absurd hl' (hl k₀)
      · rw [hkept] at hk'
        exact hfrom k₀ hk' ho'

/-- A session whose metric has no id was never opened. -/
theorem Inv.closed_of_unresolved (h : R.Inv) {sid : Nat} {k : RowKey}
    (hk : (R.db.session sid).row = some k) (hres : k.metricResolved = false) :
    (R.db.session sid).opened = false := by
  obtain ⟨T, -, hfill⟩ := h.sessions sid (by simp [hk])
  have hT := hfill.metricResolved_row hk
  cases hfill with
  | fresh ho _ _ => exact ho
  | opened _ _ hres' _ _ _ _ =>
    rw [hres] at hT
    rw [← hT] at hres'
    cases hres'

/-- A call keeps the row of a session whose metric has no id, leaves it closed, and leaves no
row there. -/
theorem Inv.unresolved_step (h : R.Inv) (c : ClientCall) {sid : Nat} {k : RowKey}
    (hk : (R.db.session sid).row = some k) (hres : k.metricResolved = false) :
    ((R.step c).db.session sid).row = some k ∧ ((R.step c).db.session sid).opened = false ∧
      ∀ k', R.leftBy c ≠ some (sid, k') := by
  have hsid := Db.lt_size_of_row_isSome (show (R.db.session sid).row.isSome by simp [hk])
  have hclosed := h.closed_of_unresolved hk hres
  have hnone : ∀ k', R.leftBy c ≠ some (sid, k') := leftBy_ne_of_unresolved hk hres
  rcases hacc : R.acceptedBy c sid with _ | p
  · have hsame := (h.session_of_unaccepted hacc).1 hsid
    exact ⟨by rw [hsame]; exact hk, by rw [hsame]; exact hclosed, hnone⟩
  · obtain ⟨ev, -, -, -, -, hmove⟩ := h.inOrder_of_accepted hacc
    cases hmove with
    | refuses _ _ hse _ _ => exact ⟨by rw [hse]; exact hk, by rw [hse]; exact hclosed, hnone⟩
    | opens hk' hres' _ _ _ _ _ _ =>
      rw [hk, Option.some.injEq] at hk'
      subst hk'
      rw [hres] at hres'
      cases hres'
    | stays _ _ ho _ _ _ _ _ =>
      rw [hclosed] at ho
      cases ho
    | rolls _ _ ho _ _ _ _ _ _ =>
      rw [hclosed] at ho
      cases ho

/-- Over a run, a session whose metric has no id keeps its row closed and leaves no row. -/
theorem Reachable.unresolved_run (hR : R.Reachable) (cs : List ClientCall) {sid : Nat}
    {k : RowKey} (hk : (R.db.session sid).row = some k) (hres : k.metricResolved = false) :
    ((R.run cs).db.session sid).row = some k ∧ ((R.run cs).db.session sid).opened = false ∧
      leftIn sid (R.leftRows cs) = [] := by
  induction cs generalizing R with
  | nil => exact ⟨hk, hR.inv.closed_of_unresolved hk hres, rfl⟩
  | cons c cs ih =>
    obtain ⟨hk', -, hnone⟩ := hR.inv.unresolved_step c hk hres
    rw [leftRows, leftIn_append, run_cons, leftIn_toList_of_ne hnone, List.nil_append]
    exact ih (hR.step c) hk'

/-- At every reachable state, opening or rolling over a row is idempotent for the times of one
window. -/
theorem Inv.rollIfNeeded_rollIfNeeded (h : R.Inv) (sid : Nat) {ts ts' : Int}
    (hb : R.db.baseTimeOf ts' = R.db.baseTimeOf ts) :
    (R.db.rollIfNeeded sid ts).rollIfNeeded sid ts' = R.db.rollIfNeeded sid ts := by
  cases hrow : (R.db.session sid).row with
  | none =>
    have hkeep : ∀ t, R.db.rollIfNeeded sid t = R.db := fun t => by
      simp [Db.rollIfNeeded, hrow]
    rw [hkeep, hkeep]
  | some k =>
    obtain ⟨T, hT, hfill⟩ := h.sessions sid (by simp [hrow])
    exact hfill.rollIfNeeded_rollIfNeeded h.sound hT hb

end Steps

/-- Each point a session accepts refuses, opens, stays or rolls over by whole windows
(`Db.InOrder`); over any run the rollovers counted are the rows left, queued for compaction in
order and with increasing base times. -/
theorem rows_roll_over_by_window {R : ClientRun} (hR : R.Reachable) :
    (∀ c sid p, R.acceptedBy c sid = some p →
      ∃ ev, encodeValue p.value = .ok ev ∧ Db.InOrder R.db (R.step c).db sid p.ts ev) ∧
    (∀ cs, (R.run cs).db.stats.rollovers = R.db.stats.rollovers + (R.leftRows cs).length ∧
      (R.run cs).db.compaction = Db.scheduleLeft R.db.compaction (R.leftRows cs)) ∧
    (∀ cs sid, ((leftIn sid (R.leftRows cs)).map (·.baseTime)).Pairwise (· < ·) ∧
      ∀ k ∈ leftIn sid (R.leftRows cs), ∃ k₁, ((R.run cs).db.session sid).row = some k₁ ∧
        ((R.run cs).db.session sid).opened = true ∧ k.baseTime < k₁.baseTime) ∧
    (∀ cs sid k, (R.db.session sid).row = some k → k.metricResolved = false →
      ((R.run cs).db.session sid).row = some k ∧ ((R.run cs).db.session sid).opened = false ∧
        leftIn sid (R.leftRows cs) = []) ∧
    (∀ sid ts ts', R.db.baseTimeOf ts' = R.db.baseTimeOf ts →
      (R.db.rollIfNeeded sid ts).rollIfNeeded sid ts' = R.db.rollIfNeeded sid ts) := by
  have h := hR.inv
  refine ⟨fun c sid p hacc => ?_, hR.stats_run, fun cs sid => ?_,
    fun cs sid k hk hres => hR.unresolved_run cs hk hres,
    fun sid ts ts' hb => h.rollIfNeeded_rollIfNeeded sid hb⟩
  · obtain ⟨ev, hev, -, -, -, hmove⟩ := h.inOrder_of_accepted hacc
    exact ⟨ev, hev, hmove⟩
  · obtain ⟨hinc, hlast, -⟩ := hR.leftIn_increasing cs sid
    exact ⟨hinc, hlast⟩

/-- A writer of the fresh database that adds two points an hour apart, so its row rolls over. -/
def rolloverClients : ClientRun :=
  (start freshDb).run [.newWriter, .setSeries 0 "sys.cpu" ⟨[⟨"host", "web01"⟩]⟩,
    .add 0 1000 (.integer 1), .add 0 5000 (.integer 2)]

example : rolloverClients.db.stats.rollovers = 1 := by decide +kernel

theorem rollover_clients_roll_by_window :
    rolloverClients.Reachable ∧
    (∀ c sid p, rolloverClients.acceptedBy c sid = some p →
      ∃ ev, encodeValue p.value = .ok ev ∧
        Db.InOrder rolloverClients.db (rolloverClients.step c).db sid p.ts ev) ∧
    (∀ cs, (rolloverClients.run cs).db.stats.rollovers =
        rolloverClients.db.stats.rollovers + (rolloverClients.leftRows cs).length ∧
      (rolloverClients.run cs).db.compaction =
        Db.scheduleLeft rolloverClients.db.compaction (rolloverClients.leftRows cs)) ∧
    (∀ cs sid, ((leftIn sid (rolloverClients.leftRows cs)).map (·.baseTime)).Pairwise (· < ·) ∧
      ∀ k ∈ leftIn sid (rolloverClients.leftRows cs),
        ∃ k₁, ((rolloverClients.run cs).db.session sid).row = some k₁ ∧
          ((rolloverClients.run cs).db.session sid).opened = true ∧ k.baseTime < k₁.baseTime) ∧
    (∀ cs sid k, (rolloverClients.db.session sid).row = some k → k.metricResolved = false →
      ((rolloverClients.run cs).db.session sid).row = some k ∧
        ((rolloverClients.run cs).db.session sid).opened = false ∧
        leftIn sid (rolloverClients.leftRows cs) = []) ∧
    (∀ sid ts ts', rolloverClients.db.baseTimeOf ts' = rolloverClients.db.baseTimeOf ts →
      (rolloverClients.db.rollIfNeeded sid ts).rollIfNeeded sid ts' =
        rolloverClients.db.rollIfNeeded sid ts) := by
  have hR : rolloverClients.Reachable := (Reachable.start build_freshDb).run _
  exact ⟨hR, rows_roll_over_by_window hR⟩

end ClientRun

end SeriesIngest
