import RoutingApi.Relational.Table

/-! Relations whose schema changes under them: columns with defaults, unique
indexes, and the statements that create, drop and rewrite them. -/
namespace RoutingApi.Relational

/-- Where an INSERT with an ON CONFLICT clause meets a row to overwrite: on its primary key, or
on any unique key. -/
inductive ConflictTarget where
  | primaryKey
  | anyKey
  deriving DecidableEq, Repr

/-- The columns that exist, the default each of them has, the unique indexes, and what the
database does on a conflict. -/
structure Schema (C : Type) where
  columns : List C
  default : C → Cell
  indexes : List (UniqueIndex C)
  conflictTarget : ConflictTarget

/-- The row that the database finds in the way of an INSERT with an ON CONFLICT clause, when the
primary key is not stored. -/
def Schema.conflict {C : Type} (s : Schema C) (rows : List (Row C)) (r : Row C) : Option (Row C) :=
  match s.conflictTarget with
  | .anyKey => conflicting s.indexes rows r
  | .primaryKey => none

theorem Schema.conflict_some {C : Type} {s : Schema C} {rows : List (Row C)} {r x : Row C}
    (h : s.conflict rows r = some x) : s.conflictTarget = .anyKey ∧ x ∈ rows ∧
      ∃ ix ∈ s.indexes, ix.clash r x = true := by
  unfold Schema.conflict at h
  split at h
  next htarget => exact ⟨htarget, conflicting_some h⟩
  next => cases h

theorem Schema.conflict_of_plain {C : Type} {s : Schema C} (h : s.indexes = [])
    (rows : List (Row C)) (r : Row C) : s.conflict rows r = none := by
  unfold Schema.conflict
  rw [h]
  split <;> rfl

def Schema.absent {C : Type} (target : ConflictTarget) : Schema C := ⟨[], fun _ => .null, [], target⟩

structure Relation {C : Type} (pk : C) where
  schema : Schema C
  table : Table pk

namespace Relation
variable {C : Type} {pk : C}

def absent (target : ConflictTarget) : Relation pk := ⟨.absent target, .empty⟩

def dropIndex (name : String) (r : Relation pk) : Relation pk :=
  { r with schema :=
    { r.schema with indexes := r.schema.indexes.filter fun ix => decide (ix.name ≠ name) } }

/-- Two different rows that the index would not let stand together. -/
def violates (ix : UniqueIndex C) (rows : List (Row C)) : Bool :=
  match rows with
  | [] => false
  | r :: rest => rest.any (ix.clash r) || violates ix rest

/-- Rewriting the rows in other columns only does not matter to the index. -/
theorem violates_map {ix : UniqueIndex C} {rows : List (Row C)} {f : Row C → Row C}
    (hf : ∀ x ∈ rows, ∀ p ∈ ix.columns, f x p.1 = x p.1) :
    violates ix (rows.map f) = violates ix rows := by
  induction rows with
  | nil => rfl
  | cons r rest ih =>
    have hr := hf r List.mem_cons_self
    have hrest : ∀ x ∈ rest, ∀ p ∈ ix.columns, f x p.1 = x p.1 :=
      fun x hx => hf x (List.mem_cons_of_mem r hx)
    have hclash : ∀ x ∈ rest, ix.clash (f r) (f x) = ix.clash r x := by
      intro x hx
      rw [Bool.eq_iff_iff]
      simp only [UniqueIndex.clash, List.all_eq_true]
      apply forall₂_congr
      intro p hp
      rw [hr p hp, hrest x hx p hp]
    have hany : (rest.map f).any (ix.clash (f r)) = rest.any (ix.clash r) := by
      rw [Bool.eq_iff_iff]
      simp only [List.any_eq_true, List.mem_map, exists_exists_and_eq_and]
      constructor
      · rintro ⟨x, hx, hc⟩
        exact ⟨x, hx, hclash x hx ▸ hc⟩
      · rintro ⟨x, hx, hc⟩
        exact ⟨x, hx, (hclash x hx).symm ▸ hc⟩
    simp only [List.map_cons, violates, hany, ih hrest]

/-- An index on more columns is violated by fewer rows. -/
theorem violates_mono {ix ix' : UniqueIndex C} (h : ix.columns ⊆ ix'.columns)
    {rows : List (Row C)} (hrows : violates ix rows = false) : violates ix' rows = false := by
  induction rows with
  | nil => rfl
  | cons r rest ih =>
    simp only [violates, Bool.or_eq_false_iff, List.any_eq_false] at hrows ⊢
    refine ⟨?_, ih hrows.2⟩
    intro x hx hclash
    apply hrows.1 x hx
    simp only [UniqueIndex.clash, List.all_eq_true] at hclash ⊢
    exact fun p hp => hclash p (h hp)

def createUniqueIndex (ix : UniqueIndex C) (r : Relation pk) : Option (Relation pk) :=
  if violates ix r.table.rows then none
  else some { r with schema := { r.schema with indexes := r.schema.indexes ++ [ix] } }

variable [DecidableEq C]

def setDefault (c : C) (v : Cell) (r : Relation pk) : Relation pk :=
  { r with schema := { r.schema with default := Function.update r.schema.default c v } }

/-- `UPDATE … SET c = v WHERE c IS NULL` on a column other than the primary key. -/
def fillNull (c : C) (v : Cell) (hc : c ≠ pk) (r : Relation pk) : Option (Relation pk) :=
  let rows := r.table.rows.map fun x => if x c = .null then Function.update x c v else x
  if r.schema.indexes.any fun ix => violates ix rows then none
  else some { r with table := ⟨rows, by
    have hpk : (rows.map fun x => x pk) = r.table.rows.map fun x => x pk := by
      simp only [rows, List.map_map]
      apply List.map_congr_left
      intro x _
      dsimp only [Function.comp_apply]
      split
      · exact Function.update_of_ne hc.symm _ _
      · rfl
    rw [hpk]
    exact r.table.nodup⟩ }

section FillNull
variable {c : C} {v : Cell} (hc : c ≠ pk) {r : Relation pk} {f : Row C → Row C}
variable (hf : f = fun x => if x c = .null then Function.update x c v else x)
include hf

theorem fillNull_none {ix : UniqueIndex C} (hix : ix ∈ r.schema.indexes)
    (h : violates ix (r.table.rows.map f) = true) : r.fillNull c v hc = none := by
  subst hf
  exact if_pos (List.any_eq_true.mpr ⟨ix, hix, h⟩)

theorem fillNull_some
    (h : ∀ ix ∈ r.schema.indexes, violates ix (r.table.rows.map f) = false) :
    ∃ r', r.fillNull c v hc = some r' ∧ r'.table.rows = r.table.rows.map f ∧
      r'.schema = r.schema := by
  subst hf
  refine ⟨_, if_neg ?_, rfl, rfl⟩
  rw [List.any_eq_true]
  rintro ⟨ix, hix, hv⟩
  rw [h ix hix] at hv
  cases hv

end FillNull

/-- `ALTER TABLE … ADD COLUMN` with a default, which also fills the existing rows.
A table that has rows has its primary key, so that column is never filled. -/
def addColumns (cs : List C) (v : C → Cell) (r : Relation pk) : Relation pk where
  schema := { r.schema with columns := r.schema.columns ++ cs }
  table := ⟨r.table.rows.map fun x c => if c ∈ cs ∧ c ≠ pk then v c else x c, by
    simpa only [List.map_map, Function.comp_def, ne_eq, not_true_eq_false, and_false,
      if_false] using r.table.nodup⟩

@[simp] theorem addColumns_empty (cs : List C) (v : C → Cell) (s : Schema C) :
    (addColumns cs v ⟨s, .empty⟩ : Relation pk) =
      ⟨{ s with columns := s.columns ++ cs }, .empty⟩ := rfl

end Relation
end RoutingApi.Relational
