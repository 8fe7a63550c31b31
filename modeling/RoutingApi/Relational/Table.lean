import Mathlib.Data.List.Nodup
import Mathlib.Tactic

/-! Tables of nullable cells with a primary key and unique indexes. Conditions
follow the SQL rule that a comparison with NULL is never true. -/
namespace RoutingApi.Relational

inductive Cell where
  | null
  | text (s : String)
  | int (n : ℤ)
  | bool (b : Bool)
  | time (t : ℤ)
  deriving DecidableEq, Repr

namespace Cell

/-- SQL `=`, which is never true on NULL. -/
def eqv (a b : Cell) : Bool := decide (a ≠ .null ∧ a = b)

/-- The part of a cell that an index with a prefix length looks at. -/
def cut : Option ℕ → Cell → Cell
  | some n, .text s => .text (String.ofList (s.toList.take n))
  | _, c => c

theorem eqv_iff {a b : Cell} : a.eqv b = true ↔ a ≠ .null ∧ a = b := by
  simp [eqv]

theorem eqv_symm {a b : Cell} (h : a.eqv b = true) : b.eqv a = true := by
  obtain ⟨hn, rfl⟩ := eqv_iff.mp h
  exact h

@[simp] theorem cut_eq_null {p : Option ℕ} {c : Cell} : cut p c = .null ↔ c = .null := by
  cases p <;> cases c <;> simp [cut]

theorem cut_eqv {a b : Cell} (p : Option ℕ) (h : a.eqv b = true) :
    (cut p a).eqv (cut p b) = true := by
  obtain ⟨hn, rfl⟩ := eqv_iff.mp h
  exact eqv_iff.mpr ⟨by simpa using hn, rfl⟩

end Cell

abbrev Row (C : Type) := C → Cell

/-- One conjunct of a WHERE clause. -/
inductive Cond (C : Type) where
  | eq (c : C) (v : Cell)
  | isNull (c : C)
  | before (c : C) (t : ℤ)
  | after (c : C) (t : ℤ)
  | isIn (c : C) (vs : List Cell)
  deriving DecidableEq, Repr

section Conditions
variable {C : Type}

def Cond.holds (r : Row C) : Cond C → Bool
  | .eq c v => (r c).eqv v
  | .isNull c => decide (r c = .null)
  | .before c t => match r c with
    | .time u => decide (u < t)
    | _ => false
  | .after c t => match r c with
    | .time u => decide (t < u)
    | _ => false
  | .isIn c vs => vs.any fun v => (r c).eqv v

/-- A conjunctive WHERE clause. -/
def holdsAll (q : List (Cond C)) (r : Row C) : Bool := q.all fun x => x.holds r

/-- A unique index: its columns, each with the prefix length it was created with. -/
structure UniqueIndex (C : Type) where
  name : String
  columns : List (C × Option ℕ)
  deriving DecidableEq, Repr

/-- Two rows violate the index when they are equal, hence not NULL, on all its columns. -/
def UniqueIndex.clash (ix : UniqueIndex C) (r r' : Row C) : Bool :=
  ix.columns.all fun p => (Cell.cut p.2 (r p.1)).eqv (Cell.cut p.2 (r' p.1))

def admits (ixs : List (UniqueIndex C)) (rows : List (Row C)) (r : Row C) : Bool :=
  ixs.all fun ix => rows.all fun r' => !ix.clash r r'

/-- The row that stands in the way of a new one, by the first index that does not admit it. -/
def conflicting (ixs : List (UniqueIndex C)) (rows : List (Row C)) (r : Row C) : Option (Row C) :=
  ixs.findSome? fun ix => rows.find? (ix.clash r)

theorem UniqueIndex.clash_congr {ix : UniqueIndex C} {r s x : Row C}
    (h : ∀ p ∈ ix.columns, r p.1 = s p.1) : ix.clash r x = ix.clash s x := by
  simp only [UniqueIndex.clash]
  rw [Bool.eq_iff_iff]
  simp only [List.all_eq_true]
  exact forall₂_congr fun p hp => by rw [h p hp]

theorem UniqueIndex.clash_symm {ix : UniqueIndex C} {r s : Row C}
    (h : ix.clash r s = true) : ix.clash s r = true := by
  simp only [UniqueIndex.clash, List.all_eq_true] at h ⊢
  exact fun p hp => Cell.eqv_symm (h p hp)

theorem admits_iff {ixs : List (UniqueIndex C)} {rows : List (Row C)} {r : Row C} :
    admits ixs rows r = true ↔ ∀ ix ∈ ixs, ∀ x ∈ rows, ix.clash r x = false := by
  simp [admits]

theorem conflicting_some {ixs : List (UniqueIndex C)} {rows : List (Row C)} {r x : Row C}
    (h : conflicting ixs rows r = some x) : x ∈ rows ∧ ∃ ix ∈ ixs, ix.clash r x = true := by
  obtain ⟨ix, hix, hfind⟩ := List.exists_of_findSome?_eq_some h
  exact ⟨List.mem_of_find?_eq_some hfind, ix, hix, List.find?_some hfind⟩

/-- Only the indexed columns matter for whether a row is admitted. -/
theorem admits_map {ixs : List (UniqueIndex C)} {rows : List (Row C)} {r r' : Row C}
    {f : Row C → Row C} (hf : ∀ ix ∈ ixs, ∀ p ∈ ix.columns, ∀ x, f x p.1 = x p.1)
    (hr : ∀ ix ∈ ixs, ∀ p ∈ ix.columns, r' p.1 = r p.1) :
    admits ixs (rows.map f) r' = admits ixs rows r := by
  rw [Bool.eq_iff_iff, admits_iff, admits_iff]
  refine forall₂_congr fun ix hix => ?_
  rw [List.forall_mem_map]
  refine forall₂_congr fun x _ => ?_
  have hclash : ix.clash r' (f x) = ix.clash r x := by
    simp only [UniqueIndex.clash]
    rw [Bool.eq_iff_iff, List.all_eq_true, List.all_eq_true]
    exact forall₂_congr fun p hp => by rw [hf ix hix p hp, hr ix hix p hp]
  rw [hclash]

/-- Equality on the indexed columns is a clash unless one of them is NULL. -/
theorem UniqueIndex.clash_of_eq {ix : UniqueIndex C} {r x : Row C}
    (h : ∀ p ∈ ix.columns, x p.1 = r p.1 ∧ r p.1 ≠ .null) : ix.clash r x = true := by
  simp only [UniqueIndex.clash, List.all_eq_true]
  intro p hp
  obtain ⟨heq, hnull⟩ := h p hp
  exact Cell.cut_eqv p.2 (Cell.eqv_iff.mpr ⟨hnull, heq.symm⟩)

end Conditions

theorem eq_singleton_of_nodup {α : Type} {l : List α} {x : α} (hl : l.Nodup)
    (h : ∀ y, y ∈ l ↔ y = x) : l = [x] := by
  apply List.perm_singleton.mp
  rw [List.perm_ext_iff_of_nodup hl (List.nodup_singleton x)]
  simpa using h

/-- Rows with pairwise different primary keys, in insertion order. -/
structure Table {C : Type} (pk : C) where
  rows : List (Row C)
  nodup : (rows.map fun r => r pk).Nodup

namespace Table
variable {C : Type} {pk : C}

theorem eq_of_rows {t t' : Table pk} (h : t.rows = t'.rows) : t = t' := by
  cases t
  cases t'
  cases h
  rfl

def empty : Table pk := ⟨[], by simp⟩

@[simp] theorem empty_rows : (empty : Table pk).rows = [] := rfl

def select (t : Table pk) (q : List (Cond C)) : List (Row C) := t.rows.filter (holdsAll q)

theorem mem_select {t : Table pk} {q : List (Cond C)} {r : Row C} :
    r ∈ t.select q ↔ r ∈ t.rows ∧ holdsAll q r = true := by
  simp [select]

theorem select_eq_singleton {t : Table pk} {q : List (Cond C)} {x : Row C}
    (h : ∀ y, y ∈ t.rows ∧ holdsAll q y = true ↔ y = x) : t.select q = [x] :=
  eq_singleton_of_nodup ((t.nodup.of_map _).filter _) fun y => by rw [← h y, ← mem_select, select]

/-- Whether a row with this primary key is stored. -/
def Stores (t : Table pk) (k : Cell) : Prop := ∃ r ∈ t.rows, r pk = k

instance (t : Table pk) (k : Cell) : Decidable (t.Stores k) :=
  inferInstanceAs (Decidable (∃ r ∈ t.rows, r pk = k))

theorem eq_of_pk {t : Table pk} {r s : Row C} (hr : r ∈ t.rows) (hs : s ∈ t.rows)
    (h : r pk = s pk) : r = s :=
  List.inj_on_of_nodup_map t.nodup hr hs h

theorem nodup_rows (t : Table pk) : t.rows.Nodup := t.nodup.of_map _

/-- INSERT, refused when the primary key is taken or a unique index is violated. -/
def insert (t : Table pk) (ixs : List (UniqueIndex C)) (r : Row C) : Option (Table pk) :=
  if h : ¬t.Stores (r pk) ∧ admits ixs t.rows r = true then
    some ⟨t.rows ++ [r], by
      rw [List.map_append, List.map_singleton, List.nodup_append]
      refine ⟨t.nodup, by simp, ?_⟩
      intro a ha b hb
      obtain ⟨x, hx, rfl⟩ := List.mem_map.mp ha
      rw [List.mem_singleton.mp hb]
      exact fun he => h.1 ⟨x, hx, he⟩⟩
  else none

theorem insert_some {t t' : Table pk} {ixs : List (UniqueIndex C)} {r : Row C}
    (h : t.insert ixs r = some t') :
    t'.rows = t.rows ++ [r] ∧ ¬t.Stores (r pk) ∧ admits ixs t.rows r = true := by
  unfold insert at h
  split at h
  next hc =>
    cases h
    exact ⟨rfl, hc.1, hc.2⟩
  next => cases h

theorem insert_isSome {t : Table pk} {ixs : List (UniqueIndex C)} {r : Row C}
    (hk : ¬t.Stores (r pk)) (ha : admits ixs t.rows r = true) :
    ∃ t', t.insert ixs r = some t' := by
  unfold insert
  rw [dif_pos ⟨hk, ha⟩]
  exact ⟨_, rfl⟩

theorem insert_map_rows (t : Table pk) (ixs : List (UniqueIndex C)) (r : Row C) :
    (t.insert ixs r).map rows =
      if ¬t.Stores (r pk) ∧ admits ixs t.rows r = true then some (t.rows ++ [r]) else none := by
  unfold insert
  split <;> rfl

private def put (pk : C) (r x : Row C) : Row C := if x pk = r pk then r else x

@[simp] private theorem put_pk (r x : Row C) : put pk r x pk = x pk := by
  unfold put
  split
  · rename_i h; exact h.symm
  · rfl

/-- UPDATE of the row with the primary key of `r`; every column is written. -/
def update (t : Table pk) (ixs : List (UniqueIndex C)) (r : Row C) : Option (Table pk) :=
  if admits ixs (t.rows.filter fun x => decide (x pk ≠ r pk)) r = true then
    some ⟨t.rows.map (put pk r), by
      simpa only [List.map_map, Function.comp_def, put_pk] using t.nodup⟩
  else none

theorem update_some {t t' : Table pk} {ixs : List (UniqueIndex C)} {r : Row C}
    (h : t.update ixs r = some t') (x : Row C) :
    x ∈ t'.rows ↔ (x ∈ t.rows ∧ x pk ≠ r pk) ∨ (x = r ∧ t.Stores (r pk)) := by
  unfold update at h
  split at h
  next =>
    cases h
    simp only [List.mem_map, put]
    constructor
    · rintro ⟨y, hy, rfl⟩
      by_cases hk : y pk = r pk
      · right; exact ⟨by simp [hk], y, hy, hk⟩
      · left; simpa [hk] using hy
    · rintro (⟨hx, hk⟩ | ⟨rfl, y, hy, hk⟩)
      · exact ⟨x, hx, by simp [hk]⟩
      · exact ⟨y, hy, by simp [hk]⟩
  next => cases h

theorem update_map_rows (t : Table pk) (ixs : List (UniqueIndex C)) (r : Row C) :
    (t.update ixs r).map rows =
      if admits ixs (t.rows.filter fun x => decide (x pk ≠ r pk)) r = true then
        some (t.rows.map fun x => if x pk = r pk then r else x)
      else none := by
  unfold update
  split <;> rfl

theorem update_isSome {t : Table pk} {ixs : List (UniqueIndex C)} {r : Row C}
    (h : ∀ ix ∈ ixs, ∀ x ∈ t.rows, x pk ≠ r pk → ix.clash r x = false) :
    ∃ t', t.update ixs r = some t' := by
  unfold update
  rw [if_pos]
  · exact ⟨_, rfl⟩
  · rw [admits_iff]
    intro ix hix x hx
    rw [List.mem_filter] at hx
    exact h ix hix x hx.1 (by simpa using hx.2)

theorem update_length {t t' : Table pk} {ixs : List (UniqueIndex C)} {r : Row C}
    (h : t.update ixs r = some t') : t'.rows.length = t.rows.length := by
  unfold update at h
  split at h
  · cases h; simp
  · cases h

/-- DELETE of the rows that satisfy a condition. -/
def remove (t : Table pk) (p : Row C → Bool) : Table pk :=
  ⟨t.rows.filter fun r => !p r, t.nodup.sublist (List.filter_sublist.map _)⟩

theorem mem_remove {t : Table pk} {p : Row C → Bool} {x : Row C} :
    x ∈ (t.remove p).rows ↔ x ∈ t.rows ∧ p x = false := by
  simp [remove]

/-- The rows pairwise respect the unique indexes. -/
def Respects (t : Table pk) (ixs : List (UniqueIndex C)) : Prop :=
  ∀ ix ∈ ixs, ∀ r ∈ t.rows, ∀ s ∈ t.rows, r ≠ s → ix.clash r s = false

theorem respects_empty (ixs : List (UniqueIndex C)) : (empty : Table pk).Respects ixs := by
  intro ix _ r hr
  cases hr

theorem Respects.insert {t t' : Table pk} {ixs : List (UniqueIndex C)} {r : Row C}
    (ht : t.Respects ixs) (h : t.insert ixs r = some t') : t'.Respects ixs := by
  obtain ⟨hrows, _, ha⟩ := insert_some h
  rw [admits_iff] at ha
  intro ix hix x hx y hy hne
  rw [hrows, List.mem_append, List.mem_singleton] at hx hy
  rcases hx with hx | rfl <;> rcases hy with hy | rfl
  · exact ht ix hix x hx y hy hne
  · by_contra hc
    have := UniqueIndex.clash_symm (eq_true_of_ne_false hc)
    rw [ha ix hix x hx] at this
    cases this
  · exact ha ix hix y hy
  · exact absurd rfl hne

theorem Respects.remove {t : Table pk} {ixs : List (UniqueIndex C)} (ht : t.Respects ixs)
    (p : Row C → Bool) : (t.remove p).Respects ixs := by
  intro ix hix x hx y hy hne
  exact ht ix hix x (mem_remove.mp hx).1 y (mem_remove.mp hy).1 hne

section Rewrite
variable {t t' : Table pk} {ixs : List (UniqueIndex C)} {r old : Row C}
variable (ht : t.Respects ixs) (hold : old ∈ t.rows) (hpk : old pk = r pk)
variable (hcols : ∀ ix ∈ ixs, ∀ p ∈ ix.columns, r p.1 = old p.1)
include ht hold hpk hcols

/-- A row with the indexed columns of the row it replaces clashes with no other row. -/
theorem Respects.no_clash (ix : UniqueIndex C) (hix : ix ∈ ixs) (x : Row C) (hx : x ∈ t.rows)
    (hk : x pk ≠ r pk) : ix.clash r x = false := by
  rw [UniqueIndex.clash_congr (hcols ix hix)]
  exact ht ix hix old hold x hx fun he => hk (he ▸ hpk)

theorem Respects.update_isSome : ∃ t', t.update ixs r = some t' :=
  Table.update_isSome (ht.no_clash hold hpk hcols)

theorem Respects.update (h : t.update ixs r = some t') : t'.Respects ixs := by
  have hr := ht.no_clash hold hpk hcols
  intro ix hix x hx y hy hne
  rw [update_some h] at hx hy
  rcases hx with ⟨hx, hxk⟩ | ⟨rfl, _⟩ <;> rcases hy with ⟨hy, hyk⟩ | ⟨rfl, _⟩
  · exact ht ix hix x hx y hy hne
  · by_contra hc
    have := UniqueIndex.clash_symm (eq_true_of_ne_false hc)
    rw [hr ix hix x hx hxk] at this
    cases this
  · exact hr ix hix y hy hyk
  · exact absurd rfl hne

end Rewrite
end Table
end RoutingApi.Relational
