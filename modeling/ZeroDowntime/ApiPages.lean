import ZeroDowntime.ApiPaginator
import ZeroDowntime.ApiTargets
/-!
# ApiPages — the pages of a device's assignments

The assignments of a device are cut in memory, at an offset that is the product of two 64-bit numbers, of which the route
bounds only one.
-/
namespace ZeroDowntime
namespace Api

open Versioned (Row Table)

/-- `list_application_assignments_for_device` of a build: `none` if the offset of the page panics. -/
def listForDevice (o : Overflow) (no : NullOrder) (deviceId : Int) (groupId applicationConfigId : Option Int)
    (page pageSize : UInt64) (db : Db) : Option (List (Row ApplicationAssignment) × Nat) :=
  (o.mul page pageSize).map (fun start =>
    let rows := deduplicated no deviceId groupId applicationConfigId db
    ((rows.drop start.toNat).take pageSize.toNat, rows.length))

/-! ## Pages -/

theorem length_deduplicated_lt (no : NullOrder) (d : Int) (g c : Option Int) (db : Db) :
    (deduplicated no d g c db).length < 2147483648 := by
  unfold deduplicated
  obtain ⟨l, hrows, -, -, hle⟩ := rowsForDevice_eq no ApplicationAssignment.deviceId ApplicationAssignment.groupId d g
    (fun a => c.all (fun id => decide (a.applicationConfigId = id))) db.applicationAssignments
  simp only [hrows]
  have hkept := (Ranked.keepFirst_sublist (fun m : Row ApplicationAssignment => (configIdToAppId db
    ((l.insertionSort (no.readLe ApplicationAssignment.deviceId)).map
      (fun m => m.data.applicationConfigId))).lookup m.data.applicationConfigId)
    (l.insertionSort (no.readLe ApplicationAssignment.deviceId)) []).length_le
  rw [List.length_insertionSort] at hkept
  have := db.applicationAssignments.length_lt
  simp only [Versioned.idLimit] at this
  omega

theorem nodup_deduplicated (no : NullOrder) (d : Int) (g c : Option Int) (db : Db) :
    (deduplicated no d g c db).Nodup := by
  unfold deduplicated rowsForDevice
  refine (Ranked.keepFirst_sublist _ _ _).nodup ((List.perm_insertionSort _ _).nodup_iff.2 ?_)
  refine List.Nodup.filter _ (db.applicationAssignments.ids.imp ?_)
  rintro a b hab rfl
  omega

theorem listForDevice_wraps (no : NullOrder) (d : Int) (g c : Option Int) (page pageSize : UInt64) (db : Db) :
    listForDevice .wraps no d g c page pageSize db =
      some (listApplicationAssignmentsForDevice no d g c page pageSize db) := rfl

theorem listForDevice_eq (o : Overflow) (no : NullOrder) (d : Int) (g c : Option Int) (page pageSize : UInt64) (db : Db)
    (h : page.toNat * pageSize.toNat < 18446744073709551616) : listForDevice o no d g c page pageSize db =
      some (Paging.page pageSize.toNat page.toNat (deduplicated no d g c db), (deduplicated no d g c db).length) := by
  obtain ⟨start, hmul, hstart⟩ := (o.mul_exact page pageSize).2 h
  rw [listForDevice, hmul, Option.map_some, hstart]
  rfl

/-- The pages the routes count from 1 to `n`. -/
def pagesUpTo (o : Overflow) (no : NullOrder) (d : Int) (g c : Option Int) (pageSize : UInt64) (db : Db) (n : Nat) :
    List (Option (List (Row ApplicationAssignment))) :=
  (List.range n).map (fun k =>
    (listForDevice o no d g c (PageParams.toDbPage ⟨UInt64.ofNat (k + 1), pageSize⟩) pageSize db).map Prod.fst)

theorem pagesUpTo_eq (o : Overflow) (no : NullOrder) (d : Int) (g c : Option Int) (pageSize : UInt64) (db : Db) (n : Nat)
    (hs : 1 ≤ pageSize.toNat) (hn : n * pageSize.toNat < 9223372036854775808) : pagesUpTo o no d g c pageSize db n =
      (List.range n).map (fun k => some (Paging.page pageSize.toNat k (deduplicated no d g c db))) := by
  have hle : n ≤ n * pageSize.toNat := Nat.le_mul_of_pos_right n hs
  refine List.map_congr_left (fun k hk => ?_)
  have hk := List.mem_range.1 hk
  have hof : (UInt64.ofNat (k + 1)).toNat = k + 1 := by
    rw [UInt64.toNat_ofNat']
    omega
  have hpage : (PageParams.toDbPage ⟨UInt64.ofNat (k + 1), pageSize⟩).toNat = k := by
    rw [PageParams.toNat_toDbPage _ (by rw [hof]; omega), hof, Nat.add_sub_cancel]
  have hfit : k * pageSize.toNat ≤ n * pageSize.toNat := Nat.mul_le_mul_right _ hk.le
  rw [listForDevice_eq _ _ _ _ _ _ _ _ (by rw [hpage]; omega), Option.map_some, hpage]

/-- **A page is the run of positions it stands for, cut at an offset that neither panics nor wraps, exactly when that offset
fits 64 bits; and the pages `Page.new` counts are, one after another, the list without duplicates.** -/
theorem pages_of_device_exact (o : Overflow) (no : NullOrder) (d : Int) (g c : Option Int) (db : Db) (params : PageParams)
    (hv : params.validate = .ok ()) :
    ((∃ start, o.mul params.toDbPage params.pageSize = some start ∧
        start.toNat = (params.page.toNat - 1) * params.pageSize.toNat ∧
        listForDevice o no d g c params.toDbPage params.pageSize db =
          some ((deduplicated no d g c db).extract ((params.page.toNat - 1) * params.pageSize.toNat)
            (params.page.toNat * params.pageSize.toNat), (deduplicated no d g c db).length)) ↔
      (params.page.toNat - 1) * params.pageSize.toNat < 18446744073709551616) ∧
    ((deduplicated no d g c db).length ≤ (params.page.toNat - 1) * params.pageSize.toNat →
      (deduplicated no d g c db).extract ((params.page.toNat - 1) * params.pageSize.toNat)
        (params.page.toNat * params.pageSize.toNat) = []) ∧
    ∀ data total, listForDevice o no d g c params.toDbPage params.pageSize db = some (data, total) →
      ∃ pages : List (List (Row ApplicationAssignment)), pagesUpTo o no d g c params.pageSize db
          (Page.new data params.page params.pageSize (UInt64.ofNat total)).totalPages.toNat = pages.map some ∧
        pages.flatten = deduplicated no d g c db ∧ pages.flatten.Nodup := by
  obtain ⟨hpage, hsize, hmax⟩ := params.validate_eq_ok.1 hv
  have hdb := params.toNat_toDbPage hpage
  have hslice : (deduplicated no d g c db).extract ((params.page.toNat - 1) * params.pageSize.toNat)
      (params.page.toNat * params.pageSize.toNat) =
      Paging.page params.pageSize.toNat (params.page.toNat - 1) (deduplicated no d g c db) := by
    rw [Paging.page_eq_extract, Nat.sub_add_cancel hpage]
  refine ⟨⟨?_, fun hfit => ?_⟩, fun hend => ?_, fun data total hlist => ?_⟩
  · rintro ⟨start, hmul, hstart, -⟩
    rw [← hdb] at hstart ⊢
    exact (o.mul_exact _ _).1 ⟨start, hmul, hstart⟩
  · rw [← hdb] at hfit
    obtain ⟨start, hmul, hstart⟩ := (o.mul_exact _ _).2 hfit
    exact ⟨start, hmul, by rw [hstart, hdb], by rw [listForDevice_eq _ _ _ _ _ _ _ _ hfit, hslice, hdb]⟩
  · rw [hslice, Paging.page_eq_nil _ _ _ hend]
  · have htotal : total = (deduplicated no d g c db).length := by
      rw [listForDevice, Option.map_eq_some_iff] at hlist
      obtain ⟨_, -, heq⟩ := hlist
      exact (congrArg Prod.snd heq).symm
    have hlen := length_deduplicated_lt no d g c db
    obtain ⟨hreach, hlast⟩ := totalPages_spec data params.page params.pageSize total hsize (by omega)
    refine ⟨(List.range (Page.new data params.page params.pageSize (UInt64.ofNat total)).totalPages.toNat).map
      (fun k => Paging.page params.pageSize.toNat k (deduplicated no d g c db)), ?_, ?_⟩
    · rw [pagesUpTo_eq _ _ _ _ _ _ _ _ hsize (by omega), List.map_map]
      rfl
    · rw [← List.flatMap_def, Paging.flatMap_page _ _ _ (by omega)]
      exact ⟨rfl, nodup_deduplicated no d g c db⟩

theorem pages_of_device_overridden : ∃ start, Overflow.panics.mul 2 1 = some start ∧ start.toNat = 2 ∧
    listForDevice .panics .last 1 (some 1) none 2 1 (run .sqlite overridden) =
      some ((deduplicated .last 1 (some 1) none (run .sqlite overridden)).extract 2 3,
        (deduplicated .last 1 (some 1) none (run .sqlite overridden)).length) :=
  (pages_of_device_exact .panics .last 1 (some 1) none (run .sqlite overridden) ⟨3, 1⟩ (by decide)).1.2 (by decide)

/-- Page 2^63 + 1 of two rows each lies past the end: it panics, or it is the first page again. -/
theorem far_page_wraps : (PageParams.mk 9223372036854775809 2).validate = .ok () ∧
    (deduplicated .last 1 (some 1) none (run .sqlite overridden)).length ≤ (9223372036854775809 - 1) * 2 ∧
    listForDevice .panics .last 1 (some 1) none (PageParams.toDbPage ⟨9223372036854775809, 2⟩) 2
      (run .sqlite overridden) = none ∧
    (listForDevice .wraps .last 1 (some 1) none (PageParams.toDbPage ⟨9223372036854775809, 2⟩) 2
      (run .sqlite overridden)).map (fun r => r.1.map Row.id) = some [2] := by
  refine ⟨by decide, by decide, by decide, ?_⟩
  rw [listForDevice_wraps]
  decide

end Api
end ZeroDowntime
