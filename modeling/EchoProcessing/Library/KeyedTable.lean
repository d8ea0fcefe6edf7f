/-
Tables with a unique index.

The index is a field of the table, so a value with two rows of one key cannot be
built. Updates keep every key; an insertion that would break the index is
refused, as a database refuses it.
-/

import Mathlib.Data.List.Nodup
import Mathlib.Data.List.Basic

namespace EchoProcessing

universe u v w

@[ext]
structure KeyedTable {ρ : Type u} {κ : Type v} (key : ρ → κ) where
  rows : List ρ
  unique : (rows.map key).Nodup

namespace KeyedTable

variable {ρ : Type u} {κ : Type v} {key : ρ → κ}

def empty : KeyedTable key :=
  { rows := [], unique := List.nodup_nil }

/-- One `update` statement: every row is changed, no key is. -/
def modify (table : KeyedTable key) (change : ρ → ρ)
    (keeps : ∀ row, key (change row) = key row) : KeyedTable key :=
  { rows := table.rows.map change
    unique := by
      have same : key ∘ change = key := funext keeps
      rw [List.map_map, same]
      exact table.unique }

theorem eq_of_key_eq (table : KeyedTable key) {left right : ρ}
    (leftMember : left ∈ table.rows) (rightMember : right ∈ table.rows)
    (same : key left = key right) : left = right :=
  List.inj_on_of_nodup_map table.unique leftMember rightMember same

@[simp]
theorem rows_modify (table : KeyedTable key) (change : ρ → ρ)
    (keeps : ∀ row, key (change row) = key row) :
    (table.modify change keeps).rows = table.rows.map change := rfl

def restrict (table : KeyedTable key) (keep : ρ → Bool) : KeyedTable key :=
  { rows := table.rows.filter keep
    unique := table.unique.sublist (List.filter_sublist.map key) }

theorem restrict_of_append {table next : KeyedTable key} {keep : ρ → Bool} {fresh : List ρ}
    (rows : next.rows = table.rows ++ fresh) (dropped : ∀ row ∈ fresh, keep row = false) :
    next.restrict keep = table.restrict keep := by
  have none : fresh.filter keep = [] := by
    rw [List.filter_eq_nil_iff]
    intro row member
    rw [dropped row member]
    exact Bool.false_ne_true
  apply KeyedTable.ext
  change next.rows.filter keep = table.rows.filter keep
  rw [rows, List.filter_append, none, List.append_nil]

section Lookup

variable [DecidableEq κ]

def find? (table : KeyedTable key) (wanted : κ) : Option ρ :=
  table.rows.find? (fun row => decide (key row = wanted))

theorem find?_eq_some_iff (table : KeyedTable key) (wanted : κ) (row : ρ) :
    table.find? wanted = some row ↔ row ∈ table.rows ∧ key row = wanted := by
  constructor
  · intro found
    have selected := List.find?_some found
    exact ⟨List.mem_of_find?_eq_some found, of_decide_eq_true selected⟩
  · rintro ⟨member, same⟩
    cases found : table.find? wanted with
    | none =>
        have absent := List.find?_eq_none.mp found row member
        exact absurd (decide_eq_true same) absent
    | some other =>
        have otherMember := List.mem_of_find?_eq_some found
        have selected := List.find?_some found
        have otherKey : key other = wanted := of_decide_eq_true selected
        rw [table.eq_of_key_eq otherMember member (otherKey.trans same.symm)]

theorem find?_eq_none_iff (table : KeyedTable key) (wanted : κ) :
    table.find? wanted = none ↔ ∀ row ∈ table.rows, key row ≠ wanted := by
  simp [find?]

theorem find?_modify (table : KeyedTable key) (change : ρ → ρ)
    (keeps : ∀ row, key (change row) = key row) (wanted : κ) :
    (table.modify change keeps).find? wanted = (table.find? wanted).map change := by
  have same : (fun row => decide (key row = wanted)) ∘ change =
      fun row => decide (key row = wanted) := by
    funext row
    simp only [Function.comp_apply, keeps]
  simp only [find?, rows_modify, List.find?_map, same]

/-- Overwrite all the columns of the row that has the key of `row`. -/
def replace (table : KeyedTable key) (row : ρ) : KeyedTable key :=
  table.modify (fun old => if key old = key row then row else old) (by
    intro old
    by_cases same : key old = key row
    · rw [if_pos same, same]
    · rw [if_neg same])

theorem rows_replace (table : KeyedTable key) (row : ρ) :
    (table.replace row).rows =
      table.rows.map (fun old => if key old = key row then row else old) := rfl

theorem find?_replace (table : KeyedTable key) (row : ρ) (wanted : κ) :
    (table.replace row).find? wanted =
      if wanted = key row then (table.find? wanted).map (fun _ => row)
      else table.find? wanted := by
  unfold replace
  rw [find?_modify]
  cases found : table.find? wanted with
  | none => simp
  | some old =>
      have oldKey := ((table.find?_eq_some_iff wanted old).mp found).2
      by_cases same : wanted = key row
      · simp [same, oldKey]
      · have different : key old ≠ key row := by rw [oldKey]; exact same
        simp [same, different]

theorem mem_replace_iff (table : KeyedTable key) (row other : ρ) :
    other ∈ (table.replace row).rows ↔
      (other ∈ table.rows ∧ key other ≠ key row) ∨
        (other = row ∧ ∃ old ∈ table.rows, key old = key row) := by
  rw [rows_replace, List.mem_map]
  constructor
  · rintro ⟨old, member, image⟩
    by_cases same : key old = key row
    · rw [if_pos same] at image
      exact Or.inr ⟨image.symm, old, member, same⟩
    · rw [if_neg same] at image
      subst image
      exact Or.inl ⟨member, same⟩
  · rintro (⟨member, different⟩ | ⟨same, old, member, sameKey⟩)
    · exact ⟨other, member, if_neg different⟩
    · subst same
      exact ⟨old, member, if_pos sameKey⟩

/-- A column on which the new row agrees with the row it overwrites is unchanged. -/
theorem map_rows_replace {α : Type w} (table : KeyedTable key) (row : ρ) (column : ρ → α)
    (same : ∀ old ∈ table.rows, key old = key row → column row = column old) :
    (table.replace row).rows.map column = table.rows.map column := by
  rw [rows_replace, List.map_map]
  apply List.map_congr_left
  intro old member
  by_cases sameKey : key old = key row
  · simp only [Function.comp_apply, if_pos sameKey]
    exact same old member sameKey
  · simp only [Function.comp_apply, if_neg sameKey]

/-- One `update` statement whose `where` clause names a key. -/
def updateAt (table : KeyedTable key) (wanted : κ) (change : ρ → ρ)
    (keeps : ∀ row, key (change row) = key row) : KeyedTable key :=
  table.modify (fun row => if key row = wanted then change row else row) (by
    intro row
    by_cases same : key row = wanted
    · rw [if_pos same, keeps]
    · rw [if_neg same])

theorem find?_updateAt (table : KeyedTable key) (wanted : κ) (change : ρ → ρ)
    (keeps : ∀ row, key (change row) = key row) (other : κ) :
    (table.updateAt wanted change keeps).find? other =
      if other = wanted then (table.find? other).map change else table.find? other := by
  unfold updateAt
  rw [find?_modify]
  cases found : table.find? other with
  | none => simp
  | some row =>
      have rowKey := ((table.find?_eq_some_iff other row).mp found).2
      by_cases same : other = wanted
      · simp [same, rowKey]
      · simp [same, rowKey]

/-- Insert the rows, or refuse them all when the index would be violated. -/
def insertAll? (table : KeyedTable key) (fresh : List ρ) : Option (KeyedTable key) :=
  if distinct : ((table.rows ++ fresh).map key).Nodup then
    some { rows := table.rows ++ fresh, unique := distinct }
  else none

theorem insertAll?_eq_some_iff (table : KeyedTable key) (fresh : List ρ)
    (next : KeyedTable key) :
    table.insertAll? fresh = some next ↔ next.rows = table.rows ++ fresh := by
  unfold insertAll?
  constructor
  · intro inserted
    split at inserted
    · rw [← Option.some.inj inserted]
    · cases inserted
  · intro same
    have distinct : ((table.rows ++ fresh).map key).Nodup := same ▸ next.unique
    rw [dif_pos distinct]
    exact congrArg some (KeyedTable.ext same.symm)

/-- An insertion appends the rows, or no table has them appended. -/
theorem insertAll?_cases (table : KeyedTable key) (fresh : List ρ) :
    (∃ stored, table.insertAll? fresh = some stored ∧
        ∀ next : KeyedTable key, next.rows = table.rows ++ fresh ↔ next = stored) ∨
      (table.insertAll? fresh = none ∧
        ∀ next : KeyedTable key, next.rows ≠ table.rows ++ fresh) := by
  cases inserted : table.insertAll? fresh with
  | none =>
      refine Or.inr ⟨rfl, ?_⟩
      intro next rows
      rw [(table.insertAll?_eq_some_iff fresh next).mpr rows] at inserted
      cases inserted
  | some stored =>
      refine Or.inl ⟨stored, rfl, ?_⟩
      intro next
      rw [← table.insertAll?_eq_some_iff, inserted, Option.some.injEq, eq_comm]

theorem insertAll?_singleton_eq_none_iff (table : KeyedTable key) (row : ρ) :
    table.insertAll? [row] = none ↔ ∃ old, table.find? (key row) = some old := by
  have free : ((table.rows ++ [row]).map key).Nodup ↔ table.find? (key row) = none := by
    rw [List.map_append, List.map_singleton, List.nodup_append', find?_eq_none_iff]
    simp [table.unique]
  rw [← Option.ne_none_iff_exists', Ne, ← free]
  unfold insertAll?
  by_cases distinct : ((table.rows ++ [row]).map key).Nodup
  · rw [dif_pos distinct]
    exact iff_of_false (Option.some_ne_none _) (not_not_intro distinct)
  · rw [dif_neg distinct]
    exact iff_of_true rfl distinct

theorem find?_of_insertAll?_singleton {table next : KeyedTable key} {row : ρ}
    (inserted : table.insertAll? [row] = some next) (wanted : κ) :
    next.find? wanted = if wanted = key row then some row else table.find? wanted := by
  have rowsEq := (table.insertAll?_eq_some_iff [row] next).mp inserted
  by_cases same : wanted = key row
  · rw [if_pos same, find?_eq_some_iff, rowsEq]
    exact ⟨List.mem_append_right _ List.mem_cons_self, same.symm⟩
  · rw [if_neg same, find?, rowsEq, List.find?_append]
    have different : ¬key row = wanted := fun equal => same equal.symm
    simp [find?, different]

/-- Overwrite the row of that key, or insert it where there is none. -/
def save (table : KeyedTable key) (row : ρ) : KeyedTable key :=
  if present : key row ∈ table.rows.map key then table.replace row
  else
    { rows := table.rows ++ [row]
      unique := by
        rw [List.map_append, List.map_singleton]
        exact List.nodup_append'.mpr
          ⟨table.unique, List.nodup_singleton _, by simpa using present⟩ }

theorem of_mem_save {table : KeyedTable key} {row other : ρ}
    (member : other ∈ (table.save row).rows) :
    other = row ∨ (other ∈ table.rows ∧ key other ≠ key row) := by
  unfold save at member
  split at member
  · rcases (table.mem_replace_iff row other).mp member with old | ⟨same, _⟩
    · exact Or.inr old
    · exact Or.inl same
  · rename_i absent
    rcases List.mem_append.mp member with old | added
    · refine Or.inr ⟨old, fun same => absent ?_⟩
      exact same ▸ List.mem_map_of_mem old
    · exact Or.inl (List.mem_singleton.mp added)

theorem save_of_mem (table : KeyedTable key) {row old : ρ} (member : old ∈ table.rows)
    (same : key old = key row) : table.save row = table.replace row :=
  dif_pos (List.mem_map.mpr ⟨old, member, same⟩)

theorem find?_restrict {table : KeyedTable key} {keep : ρ → Bool} {wanted : κ}
    (kept : ∀ row ∈ table.rows, key row = wanted → keep row = true) :
    (table.restrict keep).find? wanted = table.find? wanted := by
  ext row
  rw [find?_eq_some_iff, find?_eq_some_iff]
  change row ∈ table.rows.filter keep ∧ _ ↔ _
  rw [List.mem_filter]
  constructor
  · rintro ⟨⟨member, _⟩, same⟩
    exact ⟨member, same⟩
  · rintro ⟨member, same⟩
    exact ⟨⟨member, kept row member same⟩, same⟩

/-- The rows that are left out do not decide on an insertion whose keys they do not use. -/
theorem insertAll?_restrict {table : KeyedTable key} {keep : ρ → Bool} {fresh : List ρ}
    (kept : ∀ row ∈ fresh, keep row = true)
    (apart : ∀ row ∈ table.rows, keep row = false → ∀ new ∈ fresh, key row ≠ key new) :
    (table.restrict keep).insertAll? fresh =
      (table.insertAll? fresh).map (fun next => next.restrict keep) := by
  have sameRows : (table.rows ++ fresh).filter keep = table.rows.filter keep ++ fresh := by
    rw [List.filter_append, List.filter_eq_self.mpr kept]
  rcases table.insertAll?_cases fresh with ⟨stored, inserted, rowsIff⟩ | ⟨refused, noRows⟩
  · rw [inserted, Option.map_some, insertAll?_eq_some_iff]
    change stored.rows.filter keep = table.rows.filter keep ++ fresh
    rw [(rowsIff stored).mpr rfl, sameRows]
  · rw [refused, Option.map_none, Option.eq_none_iff_forall_ne_some]
    intro next inserted
    have rows := (insertAll?_eq_some_iff _ _ _).mp inserted
    have distinct : ((table.rows.filter keep ++ fresh).map key).Nodup := rows ▸ next.unique
    rw [List.map_append, List.nodup_append] at distinct
    obtain ⟨_, freshDistinct, disjoint⟩ := distinct
    have whole : ((table.rows ++ fresh).map key).Nodup := by
      rw [List.map_append, List.nodup_append]
      refine ⟨table.unique, freshDistinct, ?_⟩
      intro left leftMember right rightMember
      obtain ⟨row, member, rfl⟩ := List.mem_map.mp leftMember
      cases keeps : keep row with
      | true =>
          exact disjoint _ (List.mem_map_of_mem (List.mem_filter.mpr ⟨member, keeps⟩)) _ rightMember
      | false =>
          obtain ⟨new, newMember, rfl⟩ := List.mem_map.mp rightMember
          exact apart row member keeps new newMember
    exact noRows { rows := table.rows ++ fresh, unique := whole } rfl

/-- An update that moves no row across the clause acts on the rows that it selects. -/
theorem restrict_replace {table : KeyedTable key} {keep : ρ → Bool} {row : ρ}
    (stays : ∀ old ∈ table.rows, key old = key row → keep row = keep old) :
    (table.replace row).restrict keep = (table.restrict keep).replace row := by
  apply KeyedTable.ext
  change List.filter keep (List.map _ table.rows) = List.map _ (List.filter keep table.rows)
  rw [List.filter_map]
  congr 1
  apply List.filter_congr
  intro old member
  by_cases same : key old = key row
  · simp only [Function.comp_apply, if_pos same, stays old member same]
  · simp only [Function.comp_apply, if_neg same]

theorem restrict_replace_of_dropped {table : KeyedTable key} {keep : ρ → Bool} {row : ρ}
    (stays : ∀ old ∈ table.rows, key old = key row → keep row = keep old)
    (dropped : keep row = false) : (table.replace row).restrict keep = table.restrict keep := by
  rw [restrict_replace stays]
  apply KeyedTable.ext
  rw [rows_replace]
  refine (List.map_congr_left ?_).trans (List.map_id _)
  intro old member
  obtain ⟨oldMember, kept⟩ := List.mem_filter.mp member
  refine if_neg ?_
  intro same
  rw [← stays old oldMember same, dropped] at kept
  cases kept

end Lookup

end KeyedTable

end EchoProcessing
