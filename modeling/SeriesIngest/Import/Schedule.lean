import SeriesIngest.Write.Pending

/-!
# The order in which the import tool's writes finish

The import tool keeps its pending writes in a queue and waits on them from one thread that
grants each of its turns a budget of store operations. A turn ends whenever the tool has to
wait: for more of its file, or for writes held back by a spent budget. A new turn starts with
the full budget, and when it started with a file read, that read took one operation of it.

Waiting for a write runs the oldest one. When the budget is spent, a write that would reach the
store is put back at the end of the queue instead; after two such writes, or once every queued
write has been tried, the turn ends and waiting resumes at the new front of the queue with a
fresh budget. A write that does not reach the store (one that failed when it was added, or one
refused before the store) finishes without budget. The tool installs no admission filter, so a
write reaches the store exactly when it is neither failed, nor for a metric without id, nor
refused by a failing store.

The loop of the tool takes its policy as a `Schedule`: any choice that finishes a write whenever
one is queued and never loses or invents one. `Schedule.budgeted` is the runtime's.
-/

namespace SeriesIngest.Import

/-- The store operations of one turn. -/
def turnBudget : Nat := 128

/-- The budget left in a turn that started with a file read. -/
def afterRead : Nat := turnBudget - 1

/-- Whether running a pending write reaches the store. -/
def reachesStore (db : Db) : PendingWrite → Bool
  | .failed _ => false
  | .issue _ => !db.store.failing
  | .point _ _ _ _ row _ => row.metricResolved && !db.store.failing
  | .admitted .. => !db.store.failing

/-- The budget a pending write takes. -/
def cost (db : Db) (p : PendingWrite) : Nat := if reachesStore db p then 1 else 0

/-- The next pending write to finish when waiting on the queue with the given budget, the
queue after it, and the budget left. -/
def nextWrite (db : Db) (budget : Nat) : List PendingWrite →
    Option (PendingWrite × List PendingWrite × Nat)
  | [] => none
  | f :: rest =>
    if budget > 0 ∨ !reachesStore db f then some (f, rest, budget - cost db f)
    else
      match rest with
      | [] => some (f, [], turnBudget - cost db f)
      | g :: more =>
        if !reachesStore db g then some (g, more ++ [f], 0)
        else
          match more ++ [f, g] with
          | h :: queue => some (h, queue, turnBudget - cost db h)
          | [] => none

/-- Waiting never loses or invents a write: the finished write and the queue after it hold
the writes of the queue before. -/
theorem nextWrite_perm (db : Db) (budget : Nat) (q : List PendingWrite) (p : PendingWrite)
    (rest : List PendingWrite) (b : Nat) (h : nextWrite db budget q = some (p, rest, b)) :
    (p :: rest).Perm q := by
  rcases q with _ | ⟨f, _ | ⟨g, more⟩⟩
  · simp [nextWrite] at h
  · simp only [nextWrite] at h
    split at h <;>
      (simp only [Option.some.injEq, Prod.mk.injEq] at h; obtain ⟨rfl, rfl, -⟩ := h; rfl)
  · simp only [nextWrite] at h
    split at h
    · simp only [Option.some.injEq, Prod.mk.injEq] at h
      obtain ⟨rfl, rfl, -⟩ := h
      rfl
    · split at h
      · simp only [Option.some.injEq, Prod.mk.injEq] at h
        obtain ⟨rfl, rfl, -⟩ := h
        exact (List.Perm.cons _ (List.perm_append_singleton _ _)).trans (List.Perm.swap _ _ _)
      · cases hq : more ++ [f, g] with
        | nil => simp at hq
        | cons x queue =>
          simp only [hq, Option.some.injEq, Prod.mk.injEq] at h
          obtain ⟨rfl, rfl, -⟩ := h
          rw [← hq]
          exact List.perm_append_comm.trans (List.Perm.refl _)

/-- Waiting on a queue that holds a write finishes one. -/
theorem nextWrite_eq_none {db : Db} {budget : Nat} {q : List PendingWrite}
    (h : nextWrite db budget q = none) : q = [] := by
  rcases q with _ | ⟨f, _ | ⟨g, more⟩⟩
  · rfl
  · simp only [nextWrite] at h
    split at h <;> cases h
  · simp only [nextWrite] at h
    split at h
    · cases h
    · split at h
      · cases h
      · cases hq : more ++ [f, g] with
        | nil => simp at hq
        | cons x queue => simp [hq] at h

/-- A policy for which pending write finishes when the tool waits: from the database, the budget
left in the turn and the queue, the write that finishes, the queue after it and the budget left.
It finishes a write whenever one is queued, and never loses or invents one. -/
structure Schedule where
  next : Db → Nat → List PendingWrite → Option (PendingWrite × List PendingWrite × Nat)
  perm : ∀ {db budget q p rest b}, next db budget q = some (p, rest, b) → (p :: rest).Perm q
  progress : ∀ {db budget q}, next db budget q = none → q = []

/-- The runtime's policy: the oldest write, within the turn's budget of store operations. -/
def Schedule.budgeted : Schedule :=
  ⟨nextWrite, fun h => nextWrite_perm _ _ _ _ _ _ h, nextWrite_eq_none⟩

end SeriesIngest.Import
