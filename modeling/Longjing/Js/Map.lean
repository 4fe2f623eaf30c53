import Mathlib.Data.List.Basic
import Mathlib.Tactic.Common

/-!
A JavaScript `Map` (and a table with a primary key) as the list of its entries, in insertion order.
-/

namespace Longjing
namespace Js

abbrev Map (α β : Type) := List (α × β)

namespace Map

variable {α β : Type} [DecidableEq α]

def get (m : Map α β) (key : α) : Option β := List.lookup key m

/-- An entry that is set again keeps its place. -/
def set (m : Map α β) (key : α) (value : β) : Map α β :=
  match m with
  | [] => [(key, value)]
  | (k, v) :: rest => if k = key then (key, value) :: rest else (k, v) :: set rest key value

def delete (m : Map α β) (key : α) : Map α β := m.filter (·.1 ≠ key)

theorem get_cons (k : α) (v : β) (m : Map α β) (key : α)
    : get ((k, v) :: m) key = if key = k then some v else get m key := by
  unfold get
  rw [List.lookup_cons]
  by_cases h : key = k
  . simp [h]
  . have : (key == k) = false := by simpa using h
    simp [this, h]

theorem get_set (m : Map α β) (key : α) (value : β) (key' : α)
    : get (set m key value) key' = if key' = key then some value else get m key' := by
  induction m with
  | nil => rw [set, get_cons]
  | cons entry rest ih =>
    obtain ⟨k, v⟩ := entry
    unfold set
    split
    next h =>
      subst h
      rw [get_cons, get_cons]
      split <;> rfl
    next h =>
      rw [get_cons, get_cons, ih]
      split
      next hk =>
        rw [if_neg (by rw [hk]; exact h)]
      next => rfl

theorem get_append (m : Map α β) (k : α) (v : β) (key : α)
    : get (m ++ [(k, v)]) key = (get m key).or (if key = k then some v else none) := by
  induction m with
  | nil =>
    rw [List.nil_append, get_cons]
    rfl
  | cons entry rest ih =>
    obtain ⟨k', v'⟩ := entry
    rw [List.cons_append, get_cons, get_cons]
    split
    . rfl
    . exact ih

theorem get_delete (m : Map α β) (key key' : α)
    : get (delete m key) key' = if key' = key then none else get m key' := by
  induction m with
  | nil => simp [delete, get]
  | cons entry rest ih =>
    obtain ⟨k, v⟩ := entry
    unfold delete at ih ⊢
    by_cases hk : k = key
    . rw [List.filter_cons_of_neg (by simp [hk]), ih, get_cons]
      split
      next => rfl
      next hne => rw [if_neg (by rw [hk]; exact hne)]
    . rw [List.filter_cons_of_pos (by simp [hk]), get_cons, get_cons, ih]
      split
      next hkey => rw [if_neg (by rw [hkey]; exact hk)]
      next => rfl

theorem mem_of_get {m : Map α β} {key : α} {value : β} (h : get m key = some value)
    : (key, value) ∈ m := by
  induction m with
  | nil => simp [get] at h
  | cons entry rest ih =>
    obtain ⟨k, v⟩ := entry
    rw [get_cons] at h
    split at h
    next hk =>
      rw [Option.some.injEq] at h
      simp [hk, h]
    next => exact List.mem_cons_of_mem _ (ih h)

theorem mem_set {m : Map α β} {key : α} {value : β} {entry : α × β} (h : entry ∈ set m key value)
    : entry = (key, value) ∨ entry ∈ m := by
  induction m with
  | nil =>
    simp only [set, List.mem_singleton] at h
    exact Or.inl h
  | cons first rest ih =>
    obtain ⟨k, v⟩ := first
    unfold set at h
    split at h
    next =>
      rcases List.mem_cons.mp h with h | h
      . exact Or.inl h
      . exact Or.inr (List.mem_cons_of_mem _ h)
    next =>
      rcases List.mem_cons.mp h with h | h
      . exact Or.inr (by simp [h])
      . exact (ih h).imp_right (List.mem_cons_of_mem _)

def Distinct (m : Map α β) : Prop := (m.map Prod.fst).Nodup

theorem get_eq_none {m : Map α β} {key : α} (h : key ∉ m.map Prod.fst) : get m key = none := by
  unfold get
  rw [List.lookup_eq_none_iff]
  intro entry hentry
  have hne : key ≠ entry.1 := fun heq => h (heq ▸ List.mem_map_of_mem hentry)
  simpa using hne

theorem get_of_mem {m : Map α β} {key : α} {value : β} (h : Distinct m) (hmem : (key, value) ∈ m)
    : get m key = some value := by
  induction m with
  | nil => exact absurd hmem List.not_mem_nil
  | cons entry rest ih =>
    obtain ⟨k, v⟩ := entry
    obtain ⟨hfresh, hrest⟩ := List.nodup_cons.mp h
    rw [get_cons]
    rcases List.mem_cons.mp hmem with heq | hlater
    . cases heq
      exact if_pos rfl
    . rw [if_neg, ih hrest hlater]
      rintro rfl
      exact hfresh (List.mem_map.mpr ⟨_, hlater, rfl⟩)

theorem keys_set (m : Map α β) (key : α) (value : β)
    : (set m key value).map Prod.fst
      = if key ∈ m.map Prod.fst then m.map Prod.fst else m.map Prod.fst ++ [key] := by
  induction m with
  | nil => rfl
  | cons entry rest ih =>
    obtain ⟨k, v⟩ := entry
    unfold set
    by_cases hk : k = key
    . simp [hk]
    . rw [if_neg hk, List.map_cons, ih, List.map_cons]
      by_cases hmem : key ∈ rest.map Prod.fst
      . rw [if_pos hmem, if_pos (List.mem_cons_of_mem _ hmem)]
      . rw [if_neg hmem, if_neg, List.cons_append]
        simp only [List.mem_cons, not_or]
        exact ⟨Ne.symm hk, hmem⟩

theorem Distinct.set {m : Map α β} (h : Distinct m) (key : α) (value : β) : Distinct (set m key value) := by
  unfold Distinct at h ⊢
  rw [keys_set]
  split
  . exact h
  next hmem => exact List.nodup_append.mpr ⟨h, List.pairwise_singleton _ key, by
      rintro k hk _ hkey rfl
      exact hmem (List.mem_singleton.mp hkey ▸ hk)⟩

theorem set_of_not_mem {m : Map α β} {key : α} (h : key ∉ m.map Prod.fst) (value : β)
    : set m key value = m ++ [(key, value)] := by
  induction m with
  | nil => rfl
  | cons entry rest ih =>
    obtain ⟨k, v⟩ := entry
    simp only [List.map_cons, List.mem_cons, not_or] at h
    unfold set
    rw [if_neg (Ne.symm h.1), ih h.2, List.cons_append]

theorem mem_delete {m : Map α β} {key : α} {entry : α × β} : entry ∈ delete m key ↔ entry ∈ m ∧ entry.1 ≠ key := by
  simp [delete]

theorem not_mem_keys_delete (m : Map α β) (key : α) : key ∉ (delete m key).map Prod.fst := by
  intro hmem
  obtain ⟨entry, hentry, hkey⟩ := List.mem_map.mp hmem
  exact (mem_delete.mp hentry).2 hkey

/-- Entries are dropped or get another value. -/
def filterMapValues (f : β → Option β) (m : Map α β) : Map α β :=
  m.filterMap fun (key, value) => (f value).map (key, ·)

omit [DecidableEq α] in
theorem mem_keys_filterMapValues {f : β → Option β} {m : Map α β} {key : α}
    (h : key ∈ (filterMapValues f m).map Prod.fst) : key ∈ m.map Prod.fst := by
  unfold filterMapValues at h
  simp only [List.mem_map, List.mem_filterMap, Option.map_eq_some_iff] at h
  obtain ⟨_, ⟨entry, hentry, _, _, rfl⟩, rfl⟩ := h
  exact List.mem_map.mpr ⟨entry, hentry, rfl⟩

omit [DecidableEq α] in
theorem filterMapValues_cons (f : β → Option β) (k : α) (v : β) (m : Map α β)
    : filterMapValues f ((k, v) :: m)
      = match f v with
        | some v' => (k, v') :: filterMapValues f m
        | none => filterMapValues f m := by
  unfold filterMapValues
  cases hf : f v with
  | none => rw [List.filterMap_cons_none (by simp [hf])]
  | some v' => simp [hf]

omit [DecidableEq α] in
theorem Distinct.filterMapValues {m : Map α β} (h : Distinct m) (f : β → Option β)
    : Distinct (filterMapValues f m) := by
  induction m with
  | nil => exact List.nodup_nil
  | cons entry rest ih =>
    obtain ⟨k, v⟩ := entry
    obtain ⟨hfresh, hrest⟩ := List.nodup_cons.mp h
    rw [filterMapValues_cons]
    cases f v with
    | none => exact ih hrest
    | some v' => exact List.nodup_cons.mpr ⟨fun hmem => hfresh (mem_keys_filterMapValues hmem), ih hrest⟩

theorem get_filterMapValues {m : Map α β} (h : Distinct m) (f : β → Option β) (key : α)
    : get (filterMapValues f m) key = (get m key).bind f := by
  induction m with
  | nil => rfl
  | cons entry rest ih =>
    obtain ⟨k, v⟩ := entry
    obtain ⟨hfresh, hrest⟩ := List.nodup_cons.mp h
    rw [filterMapValues_cons, get_cons]
    by_cases hkey : key = k
    . subst hkey
      have hnone : get (filterMapValues f rest) key = none :=
        get_eq_none fun hmem => hfresh (mem_keys_filterMapValues hmem)
      cases hf : f v with
      | none => simp [hnone, hf]
      | some v' => simp [get_cons, hf]
    . rw [if_neg hkey]
      cases hf : f v with
      | none => exact ih hrest
      | some v' =>
        simp only
        rw [get_cons, if_neg hkey, ih hrest]

end Map
end Js
end Longjing
