import SeriesIngest.Proofs.Import.Loop

/-!
# The import tool's report

An import over usable settings and a file it can read always finishes: the invariant of the import
loop (`Import.Run.Inv`) holds from the database the tool builds over its fresh table, and neither
feeding the lines nor awaiting the pending writes ever stops the run. At the end the tool logs two
summary lines. The first reports the points and the refusals it counted; since every pending write
was awaited, they add up to the lines of the file that hold a point. The second reports the
database's counters, whose points written are the points the tool counted.

Main statement: `Import.import_report_accurate`.
-/

namespace SeriesIngest

namespace Db

/-- Leaving batch-import mode, writer after writer, writes nothing. -/
theorem wroteNothing_foldl_setBatchImport (ws : List (String × Writer)) (on : Bool) (db : Db) :
    WroteNothing db (ws.foldl (fun db (_, w) => (db.setBatchImport w on).1) db) := by
  induction ws generalizing db with
  | nil => exact WroteNothing.refl db
  | cons e ws ih => exact (wroteNothing_setBatchImport db e.2 on).trans (ih _)

end Db

namespace Import

namespace Run

/-- The summary the tool logs at the end: the points and refusals it counted, and the points the
database wrote. -/
theorem finish_log (r : Run) :
    ∃ (pre : List LogLine) (rows filtered late rollovers unknown : Nat),
      r.finish.log.toList = pre ++
        [⟨.info, logTarget, "imported " ++ toString r.points ++ " points (" ++
            toString r.rejected ++ " rejected) into " ++ toString rows ++ " rows of " ++
            toString r.writers.length ++ " series"⟩,
          ⟨.info, logTarget, "written " ++ toString r.db.stats.pointsWritten ++ ", filtered " ++
            toString filtered ++ ", out of order " ++ toString late ++ ", rollovers " ++
            toString rollovers ++ ", unknown metric " ++ toString unknown⟩] := by
  -- leaving batch-import mode writes nothing, so the counters are those of the run
  set db := r.writers.foldl (fun db (_, w) => (db.setBatchImport w false).1) r.db with hdb
  have hn : Db.WroteNothing r.db db := Db.wroteNothing_foldl_setBatchImport r.writers false r.db
  refine ⟨db.log.toList, (db.store.rows db.table).length, db.stats.pointsFiltered,
    db.stats.outOfOrderDelegated, db.stats.rollovers, db.stats.metricRejections, ?_⟩
  simp only [finish, ← hdb, Db.say, Array.toList_push, List.append_assoc, List.singleton_append,
    hn.written]

end Run

/-- Under every schedule, an import over usable settings and a readable file finishes without an
error and reports every line that holds a point exactly once, as a point or as rejected; the points
it reports are the points the database wrote. -/
theorem import_report_accurate (sched : Schedule) {o : Options} {read : String → FileRead}
    {config : Config} {text : String} (hpath : o.path ≠ "") (hconfig : loadConfig o read = .ok config)
    (hvalid : config.validate = .ok ()) (hread : read o.path = .contents text) :
    ∃ points rejected rows series filtered late rollovers unknown : Nat,
      points + rejected = (splitLines text).countP holdsPoint ∧
      (run sched o read).exitCode = 0 ∧ (run sched o read).stderr = [] ∧
      ∃ pre post, (run sched o read).stdout = pre ++
        [LogLine.text ⟨.info, logTarget, "imported " ++ toString points ++ " points (" ++
            toString rejected ++ " rejected) into " ++ toString rows ++ " rows of " ++
            toString series ++ " series"⟩,
          LogLine.text ⟨.info, logTarget, "written " ++ toString points ++ ", filtered " ++
            toString filtered ++ ", out of order " ++ toString late ++ ", rollovers " ++
            toString rollovers ++ ", unknown metric " ++ toString unknown⟩] ++ post := by
  obtain ⟨db, hb⟩ := Db.build_ok (({} : Store).createTable (Bytes.ofString config.table) dataFamily)
    hvalid
  have ht : db.TakesWrites := Db.takesWrites_of_created (by
    rw [(Db.build_parts hb).1, Db.table, (Db.build_sound hb).2.1])
  -- feeding every line and awaiting every write never stops the run
  obtain ⟨r₁, hf, h₁, ht₁⟩ := Run.feed_ok sched (Run.inv_start hb ht) 1 (fileLines text)
  obtain ⟨r₂, hd, h₂, ht₂, hp₂⟩ := Run.drain_ok sched h₁
  obtain ⟨pre, rows, filtered, late, rollovers, unknown, hlog⟩ := r₂.finish_log
  have hrun : run sched o read = ⟨0, ("config: " ++ o.debugText) :: r₂.finish.log.toList.map LogLine.text ++
      (if o.dump then dumpLines r₂.finish else []), []⟩ := by
    have hne : o.path.isEmpty = false := by simpa [String.isEmpty_iff] using hpath
    simp only [run, hne, hconfig, hb, hread, hf, hd, bind, Except.bind, Bool.false_eq_true,
      if_false]
  refine ⟨r₂.points, r₂.rejected, rows, r₂.writers.length, filtered, late, rollovers, unknown,
    ?_, by rw [hrun], by rw [hrun], ?_⟩
  · -- every pending write was awaited, so the count is that of the lines
    have hcount : r₂.tally = (splitLines text).countP holdsPoint := by
      rw [ht₂, ht₁]
      simp [Run.tally, splitLines]
    simpa [Run.tally, hp₂] using hcount
  · refine ⟨("config: " ++ o.debugText) :: pre.map LogLine.text,
      if o.dump then dumpLines r₂.finish else [], ?_⟩
    rw [hrun, hlog, h₂.written]
    simp

/-- A file of two points, a comment, a blank line and a line that does not parse, imported with
the default settings under the runtime's schedule. -/
theorem import_report_sample :
    ({ path := "import.txt" } : Options).path ≠ "" ∧
      loadConfig { path := "import.txt" }
        (fun _ => .contents "m 1000 1 a=b\n# note\n\nm x 1\nm 1001 2 a=b\n") = .ok {} ∧
      ({} : Config).validate = .ok () ∧
      (fun _ => FileRead.contents "m 1000 1 a=b\n# note\n\nm x 1\nm 1001 2 a=b\n")
        ({ path := "import.txt" } : Options).path =
        .contents "m 1000 1 a=b\n# note\n\nm x 1\nm 1001 2 a=b\n" ∧
      ∃ points rejected rows series filtered late rollovers unknown : Nat,
        points + rejected =
          (splitLines "m 1000 1 a=b\n# note\n\nm x 1\nm 1001 2 a=b\n").countP holdsPoint ∧
        (run Schedule.budgeted { path := "import.txt" }
          (fun _ => .contents "m 1000 1 a=b\n# note\n\nm x 1\nm 1001 2 a=b\n")).exitCode = 0 ∧
        (run Schedule.budgeted { path := "import.txt" }
          (fun _ => .contents "m 1000 1 a=b\n# note\n\nm x 1\nm 1001 2 a=b\n")).stderr = [] ∧
        ∃ pre post, (run Schedule.budgeted { path := "import.txt" }
          (fun _ => .contents "m 1000 1 a=b\n# note\n\nm x 1\nm 1001 2 a=b\n")).stdout = pre ++
          [LogLine.text ⟨.info, logTarget, "imported " ++ toString points ++ " points (" ++
              toString rejected ++ " rejected) into " ++ toString rows ++ " rows of " ++
              toString series ++ " series"⟩,
            LogLine.text ⟨.info, logTarget, "written " ++ toString points ++ ", filtered " ++
              toString filtered ++ ", out of order " ++ toString late ++ ", rollovers " ++
              toString rollovers ++ ", unknown metric " ++ toString unknown⟩] ++ post :=
  ⟨by decide, rfl, rfl, rfl, import_report_accurate Schedule.budgeted (by decide) rfl rfl rfl⟩

end Import

end SeriesIngest
