import ZeroDowntime.ApiWrites
import ZeroDowntime.Lineage
/-!
# ApiHistory — the versioned tables only grow

Every call changes a versioned table by one statement's worth (`exec_stepped`), and such a change adds rows and marks
active ones.  So any two moments of a run are related as the history of an append-only table.
-/
namespace ZeroDowntime
namespace Api

open Versioned (Row Table Entity)

structure Db.Grows (db db' : Db) : Prop where
  osVersions : db.osVersions.Grows db'.osVersions
  osAssignments : db.osAssignments.Grows db'.osAssignments
  applicationConfigs : db.applicationConfigs.Grows db'.applicationConfigs
  applicationAssignments : db.applicationAssignments.Grows db'.applicationAssignments

structure Db.Chained (db : Db) : Prop where
  osVersions : db.osVersions.Chained
  osAssignments : db.osAssignments.Chained
  applicationConfigs : db.applicationConfigs.Chained
  applicationAssignments : db.applicationAssignments.Chained

/-- All four tables of a database, and of the same database later. -/
structure Db.AppendOnly (db db' : Db) : Prop where
  osVersions : db.osVersions.AppendOnly db'.osVersions
  osAssignments : db.osAssignments.AppendOnly db'.osAssignments
  applicationConfigs : db.applicationConfigs.AppendOnly db'.applicationConfigs
  applicationAssignments : db.applicationAssignments.AppendOnly db'.applicationAssignments

theorem Stepped.grows {be : Backend} {db db' : Db} (h : Stepped be db db') : db.Grows db' :=
  ⟨Entity.grows_change h.osVersions, Entity.grows_change h.osAssignments, Entity.grows_change h.applicationConfigs,
    Entity.grows_change h.applicationAssignments⟩

theorem Stepped.chained {be : Backend} {db db' : Db} (hc : db.Chained) (h : Stepped be db db') : db'.Chained :=
  ⟨Entity.chained_change hc.osVersions h.osVersions, Entity.chained_change hc.osAssignments h.osAssignments,
    Entity.chained_change hc.applicationConfigs h.applicationConfigs,
    Entity.chained_change hc.applicationAssignments h.applicationAssignments⟩

theorem Db.Grows.refl (db : Db) : db.Grows db := ⟨.refl _, .refl _, .refl _, .refl _⟩

theorem Db.Grows.trans {db db' db'' : Db} (h : db.Grows db') (h' : db'.Grows db'') : db.Grows db'' :=
  ⟨h.osVersions.trans h'.osVersions, h.osAssignments.trans h'.osAssignments,
    h.applicationConfigs.trans h'.applicationConfigs, h.applicationAssignments.trans h'.applicationAssignments⟩

theorem run_concat (be : Backend) (calls : List Call) (c : Call) : run be (calls ++ [c]) = exec be (run be calls) c := by
  unfold run
  rw [List.foldl_append]
  rfl

theorem run_stepped (be : Backend) (calls : List Call) (c : Call) :
    Stepped be (run be calls) (run be (calls ++ [c])) := by
  rw [run_concat]
  exact exec_stepped be _ (run_sound be calls) c

theorem run_grows (be : Backend) : ∀ later calls : List Call, (run be calls).Grows (run be (calls ++ later))
  | [], calls => by
    rw [List.append_nil]
    exact .refl _
  | c :: later, calls => by
    have hrest := run_grows be later (calls ++ [c])
    rw [List.append_assoc] at hrest
    exact (run_stepped be calls c).grows.trans hrest

theorem empty_chained : Db.empty.Chained :=
  ⟨Table.chained_empty, Table.chained_empty, Table.chained_empty, Table.chained_empty⟩

theorem run_chained (be : Backend) (calls : List Call) : (run be calls).Chained :=
  (run_induction be (fun db => db.Sound ∧ db.Chained) ⟨empty_sound, empty_chained⟩
    (fun db c h => ⟨exec_sound be db h.1 c, (exec_stepped be db h.1 c).chained h.2⟩) calls).2

/-- **Whatever is called in between, and whether it fails or not: no row is lost, no column of a row but its two marks
ever changes, a mark once set stays, no row has both, and a superseded row names a later row of its table**, so that
going from successor to successor ends at a row that is active or deleted. -/
theorem history_append_only (be : Backend) (calls later : List Call) :
    (run be calls).AppendOnly (run be (calls ++ later)) := by
  have hg := run_grows be later calls
  have hc := run_chained be (calls ++ later)
  exact ⟨hg.osVersions.appendOnly hc.osVersions, hg.osAssignments.appendOnly hc.osAssignments,
    hg.applicationConfigs.appendOnly hc.applicationConfigs,
    hg.applicationAssignments.appendOnly hc.applicationAssignments⟩

end Api
end ZeroDowntime
