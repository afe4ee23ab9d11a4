import Mathlib.Data.List.Nodup
import ZeroDowntime.Upserts
/-!
# Grouping — rows collected in a hash map under a key

A row is put at the end of its key's list, so the list of a key is the rows of that key in their order, whatever other
rows are collected with them (`getD_collect`, `getD_collect_join`).  Rows with distinct keys are indexed by them
(`getElem?_index`).
-/
namespace Grouping

open Std (HashMap)
open Upserts (lookup)

variable {κ α β : Type} [DecidableEq κ]

/-- The rows of one key among those of several. -/
theorem filter_of_mem (key : α → κ) (rows : List α) (ks : List κ) (k : κ) (hk : k ∈ ks) :
    (rows.filter (fun r => decide (key r ∈ ks))).filter (fun r => decide (key r = k)) =
      rows.filter (fun r => decide (key r = k)) := by
  rw [List.filter_filter]
  refine List.filter_congr (fun r _ => ?_)
  by_cases h : key r = k
  · simp [h, hk]
  · simp [h]

theorem filter_key_eq (key : α → κ) (rows : List α) (hnd : (rows.map key).Nodup) (r : α) (hr : r ∈ rows) :
    rows.filter (fun s => decide (key s = key r)) = [r] := by
  refine List.perm_singleton.1 ((List.perm_ext_iff_of_nodup (hnd.of_map.filter _) (List.nodup_singleton r)).2 (fun s => ?_))
  rw [List.mem_filter, decide_eq_true_eq, List.mem_singleton]
  constructor
  · rintro ⟨hs, he⟩
    exact List.inj_on_of_nodup_map hnd hs hr he
  · rintro rfl
    exact ⟨hr, rfl⟩

/-- Where no row is skipped, the values are in step with the rows. -/
theorem forall₂_filterMap {R : α → β → Prop} {value : α → Option β} : ∀ (rows : List α),
    (∀ r ∈ rows, ∃ v, value r = some v ∧ R r v) → List.Forall₂ R rows (rows.filterMap value)
  | [], _ => List.Forall₂.nil
  | r :: rows, h => by
    obtain ⟨v, hv, hR⟩ := h r List.mem_cons_self
    rw [List.filterMap_cons_some hv]
    exact List.Forall₂.cons hR (forall₂_filterMap rows (fun s hs => h s (List.mem_cons_of_mem r hs)))

variable [Hashable κ]

/-- `entry(k).or_default().push(v)` -/
def push (m : HashMap κ (List β)) (k : κ) (v : β) : HashMap κ (List β) := m.alter k (fun o => some (o.getD [] ++ [v]))

/-- The values of the rows by their keys; a row without a value is skipped. -/
def collect (key : α → κ) (value : α → Option β) (rows : List α) : HashMap κ (List β) :=
  rows.foldl (fun m r =>
    match value r with
    | some v => push m (key r) v
    | none => m) ∅

/-- `into_iter().map(|r| (key(r), r)).collect()` -/
def index (key : α → κ) (rows : List α) : HashMap κ α := HashMap.ofList (rows.map (fun r => (key r, r)))

theorem getD_push (m : HashMap κ (List β)) (k k' : κ) (v : β) :
    (push m k v).getD k' [] = m.getD k' [] ++ if k = k' then [v] else [] := by
  unfold push
  rw [HashMap.getD_alter]
  by_cases h : k = k'
  · subst h
    rw [if_pos (beq_self_eq_true k), if_pos rfl, Option.getD_some, HashMap.getD_eq_getD_getElem?]
  · rw [if_neg (by simpa using h), if_neg h, List.append_nil]

theorem getD_foldl_push (key : α → κ) (value : α → Option β) (k : κ) : ∀ (rows : List α) (m : HashMap κ (List β)),
    (rows.foldl (fun m r =>
      match value r with
      | some v => push m (key r) v
      | none => m) m).getD k [] = m.getD k [] ++ (rows.filter (fun r => decide (key r = k))).filterMap value
  | [], m => by simp
  | r :: rows, m => by
    rw [List.foldl_cons, getD_foldl_push key value k rows]
    cases hv : value r with
    | none => by_cases h : key r = k <;> simp [h, hv]
    | some v => by_cases h : key r = k <;> simp [h, hv, getD_push]

/-- **The list of a key is the values of the rows of that key.** -/
theorem getD_collect (key : α → κ) (value : α → Option β) (rows : List α) (k : κ) :
    (collect key value rows).getD k [] = (rows.filter (fun r => decide (key r = k))).filterMap value := by
  rw [collect, getD_foldl_push, HashMap.getD_empty, List.nil_append]

/-- **A key's list does not depend on the keys it is fetched with**, also where each row is fetched with its partner. -/
theorem getD_collect_join {γ : Type} (key : α → κ) (partner : α → γ) (value : α × γ → Option β) (rows : List α) (ks : List κ)
    (k : κ) (hk : k ∈ ks) :
    (collect (fun r => key r.1) value ((rows.filter (fun r => decide (key r ∈ ks))).map (fun r => (r, partner r)))).getD k []
      = (rows.filter (fun r => decide (key r = k))).filterMap (fun r => value (r, partner r)) := by
  rw [getD_collect, List.filter_map, List.filterMap_map]
  exact congrArg (List.filterMap _) (filter_of_mem key rows ks k hk)

theorem getElem?_index (key : α → κ) (rows : List α) (hnd : (rows.map key).Nodup) (k : κ) :
    (index key rows)[k]? = lookup key k rows := by
  unfold index
  cases hf : lookup key k rows with
  | none =>
    refine HashMap.getElem?_ofList_of_contains_eq_false ?_
    rw [Upserts.lookup_eq_none] at hf
    simpa using hf
  | some r =>
    obtain ⟨hm, hr⟩ := (Upserts.lookup_eq_some rows hnd k r).1 hf
    refine HashMap.getElem?_ofList_of_mem (k := k) (beq_self_eq_true k) ?_ ?_
    · rw [List.pairwise_map]
      exact (List.pairwise_map.1 hnd).imp (fun h => beq_false_of_ne h)
    · exact List.mem_map.2 ⟨r, hm, by rw [hr]⟩

/-- **Nor does the row of a key.** -/
theorem getElem?_index_batch (key : α → κ) (rows : List α) (hnd : (rows.map key).Nodup) (ks : List κ) (k : κ)
    (hk : k ∈ ks) : (index key (rows.filter (fun r => decide (key r ∈ ks))))[k]? =
      lookup key k rows := by
  rw [getElem?_index _ _ ((List.filter_sublist.map key).nodup hnd), lookup, lookup, ← List.head?_filter, ← List.head?_filter,
    filter_of_mem _ _ _ _ hk]

end Grouping
