import ZeroDowntime.Paging
/-!
# ApiPaginator — the numbers a page is asked for with

The routes count pages from 1, the queries from 0.  The offset of a page is the product of two 64-bit numbers, of which the
routes bound only one.
-/
namespace ZeroDowntime
namespace Api

structure PageParams where
  page : UInt64
  pageSize : UInt64
  deriving DecidableEq, Repr

def PageParams.validate (p : PageParams) : Except String Unit :=
  if p.page < 1 then .error "page must be >= 1"
  else if p.pageSize = 0 then .error "page_size must be > 0"
  else if 200 < p.pageSize then .error "page_size must be <= 200"
  else .ok ()

def PageParams.toDbPage (p : PageParams) : UInt64 := p.page - 1

structure Page (α : Type) where
  page : UInt64
  pageSize : UInt64
  totalItems : UInt64
  totalPages : UInt64
  data : List α
  deriving DecidableEq, Repr

/-- `u64::div_ceil`. -/
def divCeil (a b : UInt64) : UInt64 := if 0 < a % b then a / b + 1 else a / b

def Page.new {α : Type} (data : List α) (page pageSize totalItems : UInt64) : Page α where
  page := page
  pageSize := pageSize
  totalItems := totalItems
  totalPages := divCeil totalItems (max pageSize 1)
  data := data

/-- How a build treats arithmetic overflow. -/
inductive Overflow
  | panics
  | wraps
  deriving DecidableEq, Repr

/-- `a * b`, `none` where it panics. -/
def Overflow.mul (o : Overflow) (a b : UInt64) : Option UInt64 :=
  if o = .panics ∧ 18446744073709551616 ≤ a.toNat * b.toNat then none else some (a * b)

/-- `paginate(page_size)` and `fetch_page(page)` of rows the database returns in this order: the paginator panics at a page
size of 0, and multiplies. -/
def fetchPage {α : Type} (o : Overflow) (pageSize page : UInt64) (returned : List α) : Option (List α) :=
  if pageSize = 0 then none
  else (o.mul pageSize page).map (fun start => (returned.drop start.toNat).take pageSize.toNat)

/-! ## Arithmetic -/

theorem PageParams.validate_eq_ok (p : PageParams) : p.validate = .ok () ↔
    1 ≤ p.page.toNat ∧ 1 ≤ p.pageSize.toNat ∧ p.pageSize.toNat ≤ 200 := by
  unfold validate
  simp only [UInt64.lt_iff_toNat_lt, ← UInt64.toNat_inj, UInt64.toNat_ofNat]
  split
  · simp; omega
  split
  · simp; omega
  split
  · simp; omega
  · simp; omega

theorem PageParams.toNat_toDbPage (p : PageParams) (h : 1 ≤ p.page.toNat) : p.toDbPage.toNat = p.page.toNat - 1 := by
  rw [toDbPage, UInt64.toNat_sub_of_le _ _ (by simpa [UInt64.le_iff_toNat_le] using h)]
  rfl

/-- **The product is the exact one only if it fits**, whether the build panics or wraps. -/
theorem Overflow.mul_exact (o : Overflow) (a b : UInt64) :
    (∃ c, o.mul a b = some c ∧ c.toNat = a.toNat * b.toNat) ↔ a.toNat * b.toNat < 18446744073709551616 := by
  unfold mul
  split
  · simp; omega
  · simp only [Option.some.injEq, exists_eq_left', UInt64.toNat_mul]
    constructor
    · intro h; rw [← h]; exact Nat.mod_lt _ (by decide)
    · exact Nat.mod_eq_of_lt

theorem divCeil_mul (a b : UInt64) (hb : 1 ≤ b.toNat) (ha : a.toNat < 9223372036854775808) :
    a.toNat ≤ (divCeil a b).toNat * b.toNat ∧ (divCeil a b).toNat * b.toNat < a.toNat + b.toNat := by
  have hmod := Nat.mod_lt a.toNat hb
  have hdiv := Nat.div_add_mod a.toNat b.toNat
  have hq : a.toNat / b.toNat ≤ a.toNat := Nat.div_le_self _ _
  unfold divCeil
  rw [Nat.mul_comm] at hdiv
  split
  · rename_i h
    rw [UInt64.lt_iff_toNat_lt, UInt64.toNat_mod] at h
    rw [UInt64.toNat_add, UInt64.toNat_div, Nat.mod_eq_of_lt (by simp; omega), Nat.add_mul]
    simp at h ⊢
    omega
  · rename_i h
    rw [UInt64.lt_iff_toNat_lt, UInt64.toNat_mod] at h
    rw [UInt64.toNat_div]
    simp at h
    omega

theorem fetchPage_eq {α : Type} (o : Overflow) (pageSize page : UInt64) (returned : List α) (hs : pageSize ≠ 0)
    (h : page.toNat * pageSize.toNat < 18446744073709551616) :
    fetchPage o pageSize page returned = some (Paging.page pageSize.toNat page.toNat returned) := by
  rw [Nat.mul_comm] at h
  obtain ⟨start, hmul, hstart⟩ := (o.mul_exact pageSize page).2 h
  rw [fetchPage, if_neg hs, hmul, Option.map_some, hstart, Paging.page, Nat.mul_comm]

theorem fetchPage_sublist {α : Type} {o : Overflow} {pageSize page : UInt64} {returned data : List α}
    (h : fetchPage o pageSize page returned = some data) : data.Sublist returned := by
  unfold fetchPage at h
  split at h
  · cases h
  · obtain ⟨start, -, rfl⟩ := Option.map_eq_some_iff.1 h
    exact (List.take_sublist _ _).trans (List.drop_sublist _ _)

/-- **A product that does not fit panics, or leads to an earlier page.** -/
theorem fetchPage_of_overflow {α : Type} (o : Overflow) (pageSize page : UInt64) (returned : List α) (hs : pageSize ≠ 0)
    (h : 18446744073709551616 ≤ page.toNat * pageSize.toNat) :
    fetchPage o pageSize page returned = match o with
      | .panics => none
      | .wraps => some ((returned.drop (page.toNat * pageSize.toNat % 18446744073709551616)).take pageSize.toNat) := by
  rw [Nat.mul_comm] at h
  cases o with
  | panics => rw [fetchPage, if_neg hs, Overflow.mul, if_pos ⟨rfl, h⟩]; rfl
  | wraps =>
    rw [fetchPage, if_neg hs, Overflow.mul, if_neg (fun hp => nomatch hp.1), Option.map_some, UInt64.toNat_mul,
      Nat.mul_comm page.toNat]

/-- The pages counted by `Page.new` end where the list does. -/
theorem totalPages_spec {α : Type} (data : List α) (page pageSize : UInt64) (total : Nat) (hs : 1 ≤ pageSize.toNat)
    (ht : total < 2147483648) :
    total ≤ (Page.new data page pageSize (UInt64.ofNat total)).totalPages.toNat * pageSize.toNat ∧
    (Page.new data page pageSize (UInt64.ofNat total)).totalPages.toNat * pageSize.toNat < total + pageSize.toNat := by
  have hmax : max pageSize 1 = pageSize := by
    change (if pageSize ≤ 1 then 1 else pageSize) = pageSize
    split
    · rename_i h
      exact UInt64.le_antisymm (UInt64.le_iff_toNat_le.2 hs) h
    · rfl
  have htotal : (UInt64.ofNat total).toNat = total := by
    rw [UInt64.toNat_ofNat']
    omega
  have := divCeil_mul (UInt64.ofNat total) pageSize hs (by omega)
  rw [htotal] at this
  simpa only [Page.new, hmax] using this

end Api
end ZeroDowntime
