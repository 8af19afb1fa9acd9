import SeriesIngest.Store.Memory

/-!
# Calls to stores

The calls that change a store, and what one call and a sequence of calls do, with the store's
answers. A process may hold several stores made with one flush-interval handle: setting the
interval through one of them sets it for all (`Store.shareStep`).
-/

namespace SeriesIngest

/-- The calls that change a store: creating a table, a put, an append, switching the refusal
of writes, and setting the flush interval. -/
inductive StoreCall where
  | createTable (table family : Bytes)
  | put (w : CellWrite)
  | append (w : CellWrite)
  | setFailing (on : Bool)
  | setFlushInterval (ms : UInt16)
  deriving Repr, DecidableEq

/-- The interval a call sets, if it sets one. -/
def StoreCall.interval? : StoreCall → Option UInt16
  | .setFlushInterval ms => some ms
  | _ => none

/-- A write's state and answer: the new state when it is taken, the old one with the refusal
when it is not. -/
def afterWrite {σ : Type} (s : σ) : Except StoreError σ → σ × Except StoreError Unit
  | .ok s' => (s', .ok ())
  | .error e => (s, .error e)

namespace Store

/-- One call to the store and its answer; a refused write leaves the store as it was. -/
def step (s : Store) : StoreCall → Store × Except StoreError Unit
  | .createTable name family => (s.createTable name family, .ok ())
  | .put w => afterWrite s (s.put w)
  | .append w => afterWrite s (s.append w)
  | .setFailing on => (s.setFailing on, .ok ())
  | .setFlushInterval ms => (s.setFlushInterval ms, .ok ())

/-- Calls one after another, with their answers. -/
def run (s : Store) : List StoreCall → Store × List (Except StoreError Unit)
  | [] => (s, [])
  | c :: cs => ((s.step c).1.run cs).map id ((s.step c).2 :: ·)

/-- A call to the store at a place among the stores of a process. Setting the flush interval sets
it in every store that holds the same handle; any other call acts on that store alone. -/
def shareStep (P : List Store) (call : Nat × StoreCall) : List Store :=
  match P[call.1]?, call.2.interval? with
  | none, _ => P
  | some s, some ms =>
    P.map fun t => if t.flushHandle = s.flushHandle then t.setFlushInterval ms else t
  | some s, none => P.set call.1 (s.step call.2).1

/-- Calls to the stores of a process, one after another. -/
def shareRun (P : List Store) (calls : List (Nat × StoreCall)) : List Store :=
  calls.foldl shareStep P

end Store

end SeriesIngest
