import RoutingApi.Database.SqlDb

/-! What one operation of `SqlDB` does when nobody else acts: for each of them, the
ways it can end and the world it leaves. Later modules use only these lemmas. -/
namespace RoutingApi.Database
open Relational Gorm Models Process Program

section Effects
variable {E C κ : Type} {K : Kind E C κ}

/-- `w'` is `w` after the given events; the table and the journal are untouched. -/
structure World.Emits (w w' : World K) (evs : List (Event E)) : Prop where
  table : w'.table = w.table
  writes : w'.writes = w.writes
  now : w'.now = w.now
  log : w'.log = w.log ++ evs
  uuids : w.uuids ≤ w'.uuids

theorem World.Emits.refl (w : World K) : w.Emits w [] :=
  ⟨rfl, rfl, rfl, by simp, le_rfl⟩

theorem World.Emits.trans {w w' w'' : World K} {evs evs' : List (Event E)}
    (h : w.Emits w' evs) (h' : w'.Emits w'' evs') : w.Emits w'' (evs ++ evs') :=
  ⟨h'.table.trans h.table, h'.writes.trans h.writes, h'.now.trans h.now,
    by rw [h'.log, h.log, List.append_assoc], h.uuids.trans h'.uuids⟩

theorem World.Emits.then {w w' w'' : World K} {evs : List (Event E)}
    (h : w.Emits w' []) (h' : w'.Emits w'' evs) : w.Emits w'' evs := h.trans h'

theorem World.emits_called (w : World K) : w.Emits w.called [] :=
  ⟨rfl, rfl, rfl, by simp [World.called], le_rfl⟩

theorem World.emits_emitted (w : World K) (ev : Event E) :
    w.Emits (w.emitted ev) [ev] := ⟨rfl, rfl, rfl, rfl, le_rfl⟩

theorem World.emits_drawn (w : World K) : w.Emits w.drawn [] :=
  ⟨rfl, rfl, rfl, by simp [World.drawn], Nat.le_succ _⟩

/-- What an INSERT that commits does. -/
structure World.Inserts (w w' : World K) (s : Schema C) (e : E) : Prop where
  insert : w.table.insert s.indexes (K.model.insertRow s e) = some w'.table
  writes : w'.writes = w.writes ++ [.insert (K.model.insertRow s e)]
  log : w'.log = w.log
  now : w'.now = w.now
  uuids : w.uuids ≤ w'.uuids

/-- What an UPDATE that commits does. -/
structure World.Updates (w w' : World K) (s : Schema C) (e : E) : Prop where
  update : w.table.update s.indexes (K.model.toRow e) = some w'.table
  stores : w.table.Stores (.text (K.guid e))
  writes : w'.writes = w.writes ++ [.update (K.model.toRow e)]
  log : w'.log = w.log
  now : w'.now = w.now
  uuids : w.uuids ≤ w'.uuids

/-- What an INSERT that commits on a row in its way does. -/
structure World.Overwrites (w w' : World K) (s : Schema C) (e : E) (x : Row C) : Prop where
  conflict : w.conflict s e = some x
  update : w.table.update s.indexes (K.model.overwriteRow e x) = some w'.table
  writes : w'.writes = w.writes ++ [.update (K.model.overwriteRow e x)]
  log : w'.log = w.log
  now : w'.now = w.now
  uuids : w.uuids ≤ w'.uuids

theorem World.conflict_congr {w w' : World K} (h : w'.table = w.table) (s : Schema C) (e : E) :
    w'.conflict s e = w.conflict s e := by
  simp only [World.conflict, h]

theorem World.conflict_some {w : World K} {s : Schema C} {e : E} {x : Row C}
    (h : w.conflict s e = some x) : s.conflictTarget = .anyKey ∧ x ∈ w.table.rows ∧
      ∃ ix ∈ s.indexes, ix.clash (K.model.insertRow s e) x = true := Schema.conflict_some h

theorem World.Emits.inserts {w w' w'' : World K} {s : Schema C} {e : E}
    (h : w.Emits w' []) (h' : w'.Inserts w'' s e) : w.Inserts w'' s e := by
  have hlog : w'.log = w.log := by simpa using h.log
  exact ⟨h.table ▸ h'.insert, h.writes ▸ h'.writes, hlog ▸ h'.log, h.now ▸ h'.now,
    h.uuids.trans h'.uuids⟩

theorem World.Emits.updates {w w' w'' : World K} {s : Schema C} {e : E}
    (h : w.Emits w' []) (h' : w'.Updates w'' s e) : w.Updates w'' s e := by
  have hlog : w'.log = w.log := by simpa using h.log
  exact ⟨h.table ▸ h'.update, h.table ▸ h'.stores, h.writes ▸ h'.writes, hlog ▸ h'.log,
    h.now ▸ h'.now, h.uuids.trans h'.uuids⟩

theorem World.Emits.overwrites {w w' w'' : World K} {s : Schema C} {e : E} {x : Row C}
    (h : w.Emits w' []) (h' : w'.Overwrites w'' s e x) : w.Overwrites w'' s e x := by
  have hlog : w'.log = w.log := by simpa using h.log
  exact ⟨(World.conflict_congr h.table s e).symm.trans h'.conflict, h.table ▸ h'.update,
    h.writes ▸ h'.writes, hlog ▸ h'.log, h.now ▸ h'.now, h.uuids.trans h'.uuids⟩

theorem World.insert_inserts {w w' : World K} {s : Schema C} {e : E}
    (h : w.insert s e = some w') : w.Inserts w' s e := by
  unfold World.insert at h
  split at h
  next => cases h
  next t ht => cases h; exact ⟨ht, rfl, rfl, rfl, le_rfl⟩

theorem World.insert_isSome {w : World K} {s : Schema C} {e : E} {t : Table K.pk}
    (h : w.table.insert s.indexes (K.model.insertRow s e) = some t) :
    ∃ w', w.insert s e = some w' ∧ w'.calls = w.calls := by
  unfold World.insert
  split
  next ht => rw [ht] at h; cases h
  next => exact ⟨_, rfl, rfl⟩

theorem World.create_cases (w : World K) (s : Schema C) (e : E) :
    (w.create s e = (.error constraintError, w) ∧
      w.table.insert s.indexes (K.model.insertRow s e) = none) ∨
    ∃ w', w.create s e = (.ok (), w') ∧ w.Inserts w' s e := by
  unfold World.create
  cases h : w.insert s e with
  | none =>
    refine .inl ⟨rfl, ?_⟩
    cases ht : w.table.insert s.indexes (K.model.insertRow s e) with
    | none => rfl
    | some t =>
      obtain ⟨w', hw, -⟩ := World.insert_isSome ht
      rw [h] at hw
      cases hw
  | some w' => exact .inr ⟨w', rfl, World.insert_inserts h⟩

theorem World.update_cases (w : World K) (s : Schema C) (e : E)
    (hs : w.table.Stores (.text (K.guid e))) :
    (w.update s e = none ∧ w.table.update s.indexes (K.model.toRow e) = none) ∨
    ∃ w', w.update s e = some w' ∧ w.Updates w' s e := by
  unfold World.update
  split
  next ht => exact .inl ⟨rfl, ht⟩
  next t ht => exact .inr ⟨_, rfl, ht, hs, rfl, rfl, rfl, le_rfl⟩

/-- The guid of the row that a `Save` writes. -/
def World.target (s : Schema C) (e : E) (w : World K) : String :=
  if K.guid e = "" ∨ w.table.Stores (.text (K.guid e)) then K.guid e
  else match w.conflict s e with
    | some x => K.guid (K.model.ofRow x)
    | none => K.guid e

section Target
variable {w : World K} {s : Schema C} {e : E}

theorem World.target_stored (h : w.table.Stores (.text (K.guid e))) : w.target s e = K.guid e :=
  if_pos (.inr h)

theorem World.target_free (h : K.guid e ≠ "" → w.conflict s e = none) :
    w.target s e = K.guid e := by
  unfold World.target
  split
  next => rfl
  next hguid => rw [h fun hempty => hguid (.inl hempty)]

theorem World.target_conflict {x : Row C} (hguid : K.guid e ≠ "")
    (hgone : ¬w.table.Stores (.text (K.guid e))) (h : w.conflict s e = some x) :
    w.target s e = K.guid (K.model.ofRow x) := by
  rw [World.target, if_neg (not_or.mpr ⟨hguid, hgone⟩), h]

/-- The row that a `Save` writes has its guid, or is one that is stored. -/
theorem World.target_cases (s : Schema C) (e : E) (w : World K) :
    w.target s e = K.guid e ∨ ∃ y ∈ w.stored, w.target s e = K.guid y := by
  unfold World.target
  split
  next => exact .inl rfl
  next =>
    split
    next x hx =>
      exact .inr ⟨_, List.mem_map_of_mem (World.conflict_some hx).2.1, rfl⟩
    next => exact .inl rfl

end Target

theorem World.overwrite_overwrites {w w' : World K} {s : Schema C} {e : E} {x : Row C}
    (hx : w.conflict s e = some x) (h : w.overwrite s e x = some w') : w.Overwrites w' s e x := by
  unfold World.overwrite at h
  split at h
  next => cases h
  next t ht => cases h; exact ⟨hx, ht, rfl, rfl, rfl, le_rfl⟩

/-- What a `Save` that commits has done: it has updated the row of that guid or, because that
row is gone, inserted one or overwritten the one in its way. -/
inductive World.Saves (w w' : World K) (s : Schema C) (e : E) : Prop
  | updated (hguid : K.guid e ≠ "") (h : w.Updates w' s e)
  | inserted (hgone : ¬w.table.Stores (.text (K.guid e)))
      (hfree : K.guid e ≠ "" → w.conflict s e = none) (h : w.Inserts w' s e)
  | overwritten (x : Row C) (hguid : K.guid e ≠ "")
      (hgone : ¬w.table.Stores (.text (K.guid e))) (h : w.Overwrites w' s e x)

/-- `Save` is refused or commits. -/
theorem World.save_cases (w : World K) (s : Schema C) (e : E) :
    w.save s e = (.error constraintError, w) ∨
      ∃ w', w.save s e = (.ok (), w') ∧ w.Saves w' s e := by
  have hinsert {w' : World K} (h : w.insert s e = some w')
      (hfree : K.guid e ≠ "" → w.conflict s e = none) : w.Saves w' s e := by
    have hins := World.insert_inserts h
    have hgone := (Table.insert_some hins.insert).2.1
    rw [K.insertRow_pk] at hgone
    exact .inserted hgone hfree hins
  unfold World.save
  dsimp only
  split
  next w' hwritten =>
    refine .inr ⟨w', rfl, ?_⟩
    split at hwritten
    next hguid => exact hinsert hwritten fun h => absurd hguid h
    next hguid =>
      split at hwritten
      next hstores =>
        rcases w.update_cases s e hstores with ⟨hnone, -⟩ | ⟨w'', hsome, hup⟩
        · rw [hnone] at hwritten
          cases hwritten
        · rw [hsome, Option.some.injEq] at hwritten
          exact .updated hguid (hwritten ▸ hup)
      next hgone =>
        split at hwritten
        next x hx => exact .overwritten x hguid hgone (World.overwrite_overwrites hx hwritten)
        next hfree => exact hinsert hwritten fun _ => hfree
  next => exact .inl rfl

/-- A `Save` of a stored row is an UPDATE. -/
theorem World.update_of_refused {w : World K} {s : Schema C} {e : E} (hguid : K.guid e ≠ "")
    (hstored : w.table.Stores (.text (K.guid e)))
    (h : w.save s e = (.error constraintError, w)) : w.update s e = none := by
  cases hup : w.update s e with
  | none => rfl
  | some w' => simp [World.save, hguid, hstored, hup] at h

theorem World.client_cases {α : Type} (env : Env) (w : World K)
    (f : World K → Except Err α × World K) :
    (∃ msg, env.fault w.calls = some msg ∧ w.client env f = (.error (.client msg), w.called)) ∨
    (env.fault w.calls = none ∧ w.client env f = f w.called) := by
  unfold World.client
  cases env.fault w.calls with
  | none => exact .inr ⟨rfl, rfl⟩
  | some msg => exact .inl ⟨msg, rfl, rfl⟩

/-- What a DELETE that commits does. -/
structure World.Removes (w w' : World K) (p : String → Bool) : Prop where
  table : w'.table = (w.remove p).table
  writes : w'.writes = (w.remove p).writes
  log : w'.log = w.log
  now : w'.now = w.now
  uuids : w.uuids ≤ w'.uuids

theorem World.Emits.removes {w w' : World K} (h : w.Emits w' []) (p : String → Bool) :
    w.Removes (w'.remove p) p := by
  have hlog : w'.log = w.log := by simpa using h.log
  have ht := h.table
  have hw := h.writes
  refine ⟨?_, ?_, hlog, h.now, h.uuids⟩ <;> simp only [World.remove, ht, hw]

/-- The primary key picks out one row. -/
theorem World.filter_guid (w : World K) {x : Row C} (hx : x ∈ w.table.rows) :
    (w.table.rows.filter fun r =>
      decide (K.guid (K.model.ofRow r) = K.guid (K.model.ofRow x))) = [x] := by
  apply eq_singleton_of_nodup (w.table.nodup_rows.filter _)
  intro r
  rw [List.mem_filter, decide_eq_true_eq]
  constructor
  · rintro ⟨hr, hg⟩
    exact Table.eq_of_pk hr hx (by rw [(w.typed r hr).pk, (w.typed x hx).pk, hg])
  · rintro rfl
    exact ⟨hx, rfl⟩

section Stored
variable {w w' : World K} {s : Schema C} {e y : E}

theorem World.Inserts.mem_rows (h : w.Inserts w' s e) {x : Row C} :
    x ∈ w'.table.rows ↔ x ∈ w.table.rows ∨ x = K.model.insertRow s e := by
  rw [(Table.insert_some h.insert).1, List.mem_append, List.mem_singleton]

theorem World.Updates.mem_rows (h : w.Updates w' s e) {x : Row C} : x ∈ w'.table.rows ↔
    (x ∈ w.table.rows ∧ x K.pk ≠ K.model.toRow e K.pk) ∨ x = K.model.toRow e := by
  rw [Table.update_some h.update]
  exact or_congr_right ⟨And.left, fun hx => ⟨hx, K.toRow_pk e ▸ h.stores⟩⟩

theorem World.Overwrites.mem {x : Row C} (h : w.Overwrites w' s e x) : x ∈ w.table.rows :=
  (World.conflict_some h.conflict).2.1

theorem World.Overwrites.mem_rows {x : Row C} (h : w.Overwrites w' s e x) {r : Row C} :
    r ∈ w'.table.rows ↔
      (r ∈ w.table.rows ∧ r K.pk ≠ x K.pk) ∨ r = K.model.overwriteRow e x := by
  rw [Table.update_some h.update, K.overwriteRow_pk]
  exact or_congr_right ⟨And.left, fun hr => ⟨hr, x, h.mem, rfl⟩⟩

theorem World.Inserts.stores_iff (h : w.Inserts w' s e) {c : Cell} :
    w'.table.Stores c ↔ w.table.Stores c ∨ c = .text (K.guid e) := by
  constructor
  · rintro ⟨x, hx, rfl⟩
    rcases h.mem_rows.mp hx with hx | rfl
    · exact .inl ⟨x, hx, rfl⟩
    · exact .inr (K.insertRow_pk s e)
  · rintro (⟨x, hx, rfl⟩ | rfl)
    · exact ⟨x, h.mem_rows.mpr (.inl hx), rfl⟩
    · exact ⟨_, h.mem_rows.mpr (.inr rfl), K.insertRow_pk s e⟩

theorem World.Updates.stores_iff (h : w.Updates w' s e) {c : Cell} :
    w'.table.Stores c ↔ w.table.Stores c := by
  constructor
  · rintro ⟨x, hx, rfl⟩
    rcases h.mem_rows.mp hx with ⟨hx, -⟩ | rfl
    · exact ⟨x, hx, rfl⟩
    · exact K.toRow_pk e ▸ h.stores
  · rintro ⟨x, hx, rfl⟩
    by_cases hpk : x K.pk = K.model.toRow e K.pk
    · exact ⟨_, h.mem_rows.mpr (.inr rfl), hpk.symm⟩
    · exact ⟨x, h.mem_rows.mpr (.inl ⟨hx, hpk⟩), rfl⟩

theorem World.Overwrites.stores_iff {x : Row C} (h : w.Overwrites w' s e x) {c : Cell} :
    w'.table.Stores c ↔ w.table.Stores c := by
  have hpk := K.overwriteRow_pk e x
  constructor
  · rintro ⟨r, hr, rfl⟩
    rcases h.mem_rows.mp hr with ⟨hr, -⟩ | rfl
    · exact ⟨r, hr, rfl⟩
    · exact ⟨x, h.mem, hpk.symm⟩
  · rintro ⟨r, hr, rfl⟩
    by_cases hx : r K.pk = x K.pk
    · exact ⟨_, h.mem_rows.mpr (.inr rfl), hpk.trans hx.symm⟩
    · exact ⟨r, h.mem_rows.mpr (.inl ⟨hr, hx⟩), rfl⟩

theorem World.Removes.mem_rows {p : String → Bool} (h : w.Removes w' p) {x : Row C} :
    x ∈ w'.table.rows ↔ x ∈ w.table.rows ∧ p (K.guid (K.model.ofRow x)) = false := by
  rw [h.table]
  exact Table.mem_remove

theorem World.mem_stored : y ∈ w.stored ↔ ∃ x ∈ w.table.rows, K.model.ofRow x = y := List.mem_map

theorem World.stored_mono (h : ∀ x ∈ w'.table.rows, x ∈ w.table.rows) :
    ∀ y ∈ w'.stored, y ∈ w.stored := by
  intro y hy
  obtain ⟨x, hx, rfl⟩ := World.mem_stored.mp hy
  exact World.mem_stored.mpr ⟨x, h x hx, rfl⟩

theorem World.Emits.stored {evs : List (Event E)} (h : w.Emits w' evs) :
    w'.stored = w.stored := by
  rw [World.stored, h.table, World.stored]

theorem World.Inserts.stored (h : w.Inserts w' s e) :
    w'.stored = w.stored ++ [K.model.ofRow (K.model.insertRow s e)] := by
  rw [World.stored, (Table.insert_some h.insert).1, List.map_append, List.map_singleton,
    World.stored]

theorem World.Updates.mem_stored (h : w.Updates w' s e) :
    y ∈ w'.stored ↔ (y ∈ w.stored ∧ K.guid y ≠ K.guid e) ∨ y = e := by
  have hpk {x : Row C} (hx : x ∈ w.table.rows) :
      x K.pk ≠ K.model.toRow e K.pk ↔ K.guid (K.model.ofRow x) ≠ K.guid e := by
    rw [(w.typed x hx).pk, K.toRow_pk, ne_eq, Cell.text.injEq]
  simp only [World.mem_stored, h.mem_rows]
  constructor
  · rintro ⟨x, ⟨hx, hne⟩ | rfl, rfl⟩
    · exact .inl ⟨⟨x, hx, rfl⟩, (hpk hx).mp hne⟩
    · exact .inr (K.ofRow_toRow e)
  · rintro (⟨⟨x, hx, rfl⟩, hne⟩ | rfl)
    · exact ⟨x, .inl ⟨hx, (hpk hx).mpr hne⟩, rfl⟩
    · exact ⟨_, .inr rfl, K.ofRow_toRow y⟩

theorem Kind.guid_overwriteRow (e : E) (x : Row C) :
    K.guid (K.model.ofRow (K.model.overwriteRow e x)) = K.guid (K.model.ofRow x) := by
  rw [K.guid_ofRow, K.overwriteRow_pk, K.guid_ofRow]

theorem Kind.expiresAt_overwriteRow (e : E) (x : Row C) :
    K.expiresAt (K.model.ofRow (K.model.overwriteRow e x)) = K.expiresAt e := by
  rw [K.expiresAt_ofRow, K.overwriteRow_expiry]
  rfl

theorem World.Overwrites.mem_stored {x : Row C} (h : w.Overwrites w' s e x) : y ∈ w'.stored ↔
    (y ∈ w.stored ∧ K.guid y ≠ K.guid (K.model.ofRow x)) ∨
      y = K.model.ofRow (K.model.overwriteRow e x) := by
  have hpk {r : Row C} (hr : r ∈ w.table.rows) :
      r K.pk ≠ x K.pk ↔ K.guid (K.model.ofRow r) ≠ K.guid (K.model.ofRow x) := by
    rw [(w.typed r hr).pk, (w.typed x h.mem).pk, ne_eq, Cell.text.injEq]
  simp only [World.mem_stored, h.mem_rows]
  constructor
  · rintro ⟨r, ⟨hr, hne⟩ | rfl, rfl⟩
    · exact .inl ⟨⟨r, hr, rfl⟩, (hpk hr).mp hne⟩
    · exact .inr rfl
  · rintro (⟨⟨r, hr, rfl⟩, hne⟩ | rfl)
    · exact ⟨r, .inl ⟨hr, (hpk hr).mpr hne⟩, rfl⟩
    · exact ⟨_, .inr rfl, rfl⟩

theorem World.Removes.mem_stored {p : String → Bool} (h : w.Removes w' p) :
    y ∈ w'.stored ↔ y ∈ w.stored ∧ p (K.guid y) = false := by
  simp only [World.mem_stored, h.mem_rows]
  constructor
  · rintro ⟨x, ⟨hx, hp⟩, rfl⟩
    exact ⟨⟨x, hx, rfl⟩, hp⟩
  · rintro ⟨⟨x, hx, rfl⟩, hp⟩
    exact ⟨x, ⟨hx, hp⟩, rfl⟩

theorem World.Updates.length_stored (h : w.Updates w' s e) :
    w'.stored.length = w.stored.length := by
  simp only [World.stored, List.length_map]
  exact Table.update_length h.update

theorem World.Removes.length_stored {p : String → Bool} (h : w.Removes w' p) :
    w'.stored.length + (w.table.rows.filter fun r => p (K.guid (K.model.ofRow r))).length =
      w.stored.length := by
  simp only [World.stored, h.table, List.length_map]
  rw [Nat.add_comm]
  exact (List.length_eq_length_filter_add _).symm

/-- The guid is the primary key. -/
theorem World.stored_inj (he : e ∈ w.stored) (hy : y ∈ w.stored) (h : K.guid e = K.guid y) :
    e = y := by
  obtain ⟨a, ha, rfl⟩ := World.mem_stored.mp he
  obtain ⟨b, hb, rfl⟩ := World.mem_stored.mp hy
  rw [Table.eq_of_pk ha hb (by rw [(w.typed a ha).pk, (w.typed b hb).pk, h])]

end Stored

/-- The lookup of `m` finds nothing, or one row that scans to the zero struct. -/
def World.Unmatched (w : World K) (m : E) : Prop :=
  w.table.select (K.lookup m) = [] ∨
    ∃ x, w.table.select (K.lookup m) = [x] ∧ K.model.ofRow x = K.model.zero

/-- `x` is the row that the lookup of `m` finds. -/
structure World.Matched (w : World K) (m : E) (x : Row C) : Prop where
  select : w.table.select (K.lookup m) = [x]
  ne_zero : K.model.ofRow x ≠ K.model.zero

theorem World.Matched.mem {w : World K} {m : E} {x : Row C} (h : w.Matched m x) :
    x ∈ w.table.rows := (Table.mem_select.mp (h.select ▸ List.mem_singleton_self x)).1

theorem World.Matched.holds {w : World K} {m : E} {x : Row C} (h : w.Matched m x) :
    holdsAll (K.lookup m) x = true :=
  (Table.mem_select.mp (h.select ▸ List.mem_singleton_self x)).2

theorem World.Matched.key {w : World K} {m : E} {x : Row C} (h : w.Matched m x) :
    K.key (K.model.ofRow x) = K.key m := K.key_of_lookup m x h.holds

theorem World.Matched.eq {w : World K} {m : E} {x y : Row C} (hx : w.Matched m x)
    (hy : w.Matched m y) : x = y :=
  List.head_eq_of_cons_eq (hx.select.symm.trans hy.select)

theorem World.Matched.congr {w : World K} {m m' : E} {x : Row C} (hx : w.Matched m x)
    (h : K.key m' = K.key m) : w.Matched m' x :=
  ⟨K.lookup_congr m' m h ▸ hx.select, hx.ne_zero⟩

theorem World.Matched.emits {w w' : World K} {m : E} {x : Row C} {evs : List (Event E)}
    (hx : w.Matched m x) (hw : w.Emits w' evs) : w'.Matched m x :=
  ⟨by rw [hw.table, hx.select], hx.ne_zero⟩

/-- A row that is found is found again after an UPDATE that keeps its key. -/
theorem World.Matched.updates {w w' : World K} {s : Schema C} {m e : E} {x : Row C}
    (hx : w.Matched m x) (hup : w.Updates w' s e) (hguid : K.guid e = K.guid (K.model.ofRow x))
    (hkey : K.key e = K.key m) (hne : K.guid e ≠ "") : w'.Matched m (K.model.toRow e) := by
  refine ⟨Table.select_eq_singleton fun y => ⟨?_, ?_⟩, ?_⟩
  · rintro ⟨hy, hm⟩
    rcases hup.mem_rows.mp hy with ⟨hy, hpk⟩ | rfl
    · have hsel : y ∈ w.table.select (K.lookup m) := Table.mem_select.mpr ⟨hy, hm⟩
      rw [hx.select, List.mem_singleton] at hsel
      subst hsel
      exact absurd (by rw [K.toRow_pk, hguid, (w.typed y hy).pk]) hpk
    · rfl
  · rintro rfl
    exact ⟨hup.mem_rows.mpr (.inr rfl), K.lookup_toRow m e hkey⟩
  · intro hz
    rw [K.ofRow_toRow] at hz
    exact hne (hz ▸ K.guid_zero)

theorem World.Matched.not_unmatched {w : World K} {m : E} {x : Row C} (hx : w.Matched m x) :
    ¬w.Unmatched m := by
  rintro (hn | ⟨y, hy, hz⟩)
  · rw [hx.select] at hn
    cases hn
  · rw [hx.select] at hy
    cases hy
    exact hx.ne_zero hz

/-- The rows that a condition on the expiry selects, in terms of the scanned structs. -/
theorem World.select_before (w : World K) (t : ℤ) {x : Row C} :
    x ∈ w.table.select [.before K.expiry t] ↔
      x ∈ w.table.rows ∧ K.expiresAt (K.model.ofRow x) < t := by
  rw [Table.mem_select, and_congr_right_iff]
  intro hx
  simp [holdsAll, Cond.holds, (w.typed x hx).expiry]

theorem World.select_after (w : World K) (t : ℤ) {x : Row C} :
    x ∈ w.table.select [.after K.expiry t] ↔
      x ∈ w.table.rows ∧ t < K.expiresAt (K.model.ofRow x) := by
  rw [Table.mem_select, and_congr_right_iff]
  intro hx
  simp [holdsAll, Cond.holds, (w.typed x hx).expiry]

end Effects

section Runs
variable {E C κ : Type} {K : Kind E C κ} (env : Env) (s : Schema C)

@[simp] theorem run_ofExcept {W α : Type} (h : Handler (Call E C) Call.Resp W)
    (r : Except Err α) (w : W) : (ofExcept r : DB E C α).run h w = (r, w) := by
  cases r <;> rfl

theorem run_find (q : List (Cond C)) (w : World K) : (find q).run (handler env s) w =
    w.client env fun w => (.ok ((w.table.select q).map K.model.ofRow), w) :=
  run_ofExcept _ _ _

theorem run_create (e : E) (w : World K) :
    (create e).run (handler env s) w = w.client env (World.create s e) := run_ofExcept _ _ _

theorem run_save (e : E) (w : World K) :
    (save e).run (handler env s) w = w.client env (World.save s e) := run_ofExcept _ _ _

theorem run_delete (e : E) (w : World K) :
    (delete e).run (handler env s) w = w.client env (World.delete e) := run_ofExcept _ _ _

theorem run_deleteIn (gs : List String) (w : World K) : (deleteIn gs).run (handler env s) w =
    w.client env fun w => (.ok (), w.remove fun g => decide (g ∈ gs)) :=
  run_ofExcept _ _ _

theorem run_newV4 (w : World K) : (newV4 : DB E C String).run (handler env s) w =
    ((env.newV4 w.uuids).mapError .client, w.drawn) := run_ofExcept _ _ _

theorem run_timeNow (w : World K) :
    (timeNow : DB E C ℤ).run (handler env s) w = (.ok w.now, w) := rfl

theorem run_emitEvent (t : EventType) (e : E) (w : World K) :
    (emitEvent t e : DB E C Unit).run (handler env s) w =
      (.ok (), w.emitted ⟨t, e⟩) := rfl

/-- The lookup fails, finds no row, finds the row, or finds more than one. -/
theorem run_findExisting_cases (m : E) (w : World K) :
    (∃ e, (findExisting K m).run (handler env s) w = (.error e, w.called) ∧
      ((∃ msg, env.fault w.calls = some msg ∧ e = .client msg) ∨
        e = .plain K.duplicates ∧ 2 ≤ (w.table.select (K.lookup m)).length)) ∨
    (w.table.select (K.lookup m) = [] ∧
      (findExisting K m).run (handler env s) w = (.ok K.model.zero, w.called)) ∨
    ∃ x, w.table.select (K.lookup m) = [x] ∧
      (findExisting K m).run (handler env s) w = (.ok (K.model.ofRow x), w.called) := by
  unfold findExisting
  rcases w.client_cases env fun w => (.ok ((w.table.select (K.lookup m)).map K.model.ofRow), w)
    with ⟨msg, hf, hc⟩ | ⟨hf, hc⟩
  · left
    rw [run_bind_error (by rw [run_find, hc])]
    exact ⟨_, rfl, .inl ⟨msg, hf, rfl⟩⟩
  · rw [run_bind_ok (by rw [run_find, hc])]
    have hsel : w.called.table.select (K.lookup m) = w.table.select (K.lookup m) := rfl
    rw [hsel]
    match h : w.table.select (K.lookup m) with
    | [] => exact .inr (.inl ⟨rfl, rfl⟩)
    | [x] => exact .inr (.inr ⟨x, rfl, rfl⟩)
    | x :: y :: rest =>
      refine .inl ⟨.plain K.duplicates, ?_, .inr ⟨rfl, by simp⟩⟩
      simp [single]

/-- How `SaveRoute` and `SaveTcpRouteMapping` can end, and with which effect. -/
inductive Saved (m : E) (w : World K) : Except Err Unit × World K → Prop
  | failed (msg : String) (w' : World K) : w.Emits w' [] →
      ((∃ n, env.fault n = some msg) ∨ (w.Unmatched m ∧ ∃ n, env.newV4 n = .error msg)) →
      Saved m w (.error (.client msg), w')
  | duplicated (w' : World K) : w.Emits w' [] → 2 ≤ (w.table.select (K.lookup m)).length →
      Saved m w (.error (.plain K.duplicates), w')
  | panicked (w' : World K) : w.Emits w' [] →
      ((∃ x, w.Matched m x ∧ K.update w.now (K.model.ofRow x) m = none) ∨
        (w.Unmatched m ∧ ∃ g, K.withModel g w.now m = none)) →
      Saved m w (.error .nilDereference, w')
  | refused (w' : World K) : w.Emits w' [] →
      ((∃ x e, w.Matched m x ∧ K.update w.now (K.model.ofRow x) m = some e ∧
          (K.guid e ≠ "" → w.table.update s.indexes (K.model.toRow e) = none)) ∨
        (w.Unmatched m ∧ ∃ e, w.table.insert s.indexes (K.model.insertRow s e) = none)) →
      Saved m w (.error constraintError, w')
  | updated (x : Row C) (e : E) (w₁ w' : World K) :
      w.Matched m x → K.update w.now (K.model.ofRow x) m = some e →
      K.guid e ≠ "" → w.Updates w₁ s e → w₁.Emits w' [⟨.update, e⟩] → Saved m w (.ok (), w')
  | created (i j : ℕ) (g u : String) (e₀ : E) (w₁ w' : World K) : w.Unmatched m →
      w.uuids ≤ i → i < j → j < w₁.uuids → env.newV4 i = .ok g → env.newV4 j = .ok u →
      K.withModel g w.now m = some e₀ → w.Inserts w₁ s (K.setTag ⟨u, 0⟩ e₀) →
      w₁.Emits w' [⟨.create, K.setTag ⟨u, 0⟩ e₀⟩] → Saved m w (.ok (), w')

variable {env s}

theorem saved_updateExisting {m : E} {w w₁ : World K} {x : Row C} (hw : w.Emits w₁ [])
    (hx : w.Matched m x) :
    Saved env s m w ((updateExisting K (K.model.ofRow x) m).run (handler env s) w₁) := by
  unfold updateExisting
  rw [run_bind_ok (run_timeNow env s w₁), hw.now]
  cases hu : K.update w.now (K.model.ofRow x) m with
  | none => exact .panicked w₁ hw (.inl ⟨x, hx, hu⟩)
  | some e =>
    have hstored : w.table.Stores (.text (K.guid e)) :=
      ⟨x, hx.mem, by rw [(w.typed x hx.mem).pk, K.update_guid _ _ _ _ hu]⟩
    have hw₂ : w.Emits w₁.called [] := hw.then w₁.emits_called
    rw [show (deref (some e) : DB E C E) = .ret e from rfl, ret_bind]
    rcases w₁.client_cases env (World.save s e) with ⟨e', hf, hc⟩ | ⟨-, hc⟩
    · rw [run_bind_error (by rw [run_save, hc])]
      exact .failed e' _ hw₂ (.inl ⟨_, hf⟩)
    · have hst : w₁.called.table.Stores (.text (K.guid e)) := hw₂.table ▸ hstored
      rcases w₁.called.save_cases s e with hs | ⟨w₃, hs, hsaves⟩
      · rw [run_bind_error (by rw [run_save, hc, hs])]
        refine .refused _ hw₂ (.inl ⟨x, e, hx, hu, fun hg => ?_⟩)
        rcases w₁.called.update_cases s e hst with ⟨-, hn⟩ | ⟨w₃, hsome, -⟩
        · rwa [hw₂.table] at hn
        · rw [World.update_of_refused hg hst hs] at hsome
          cases hsome
      · cases hsaves with
        | updated hg hup =>
          rw [run_bind_ok (by rw [run_save, hc, hs]), run_emitEvent]
          exact .updated x e w₃ _ hx hu hg (hw₂.updates hup) (w₃.emits_emitted _)
        | inserted hgone _ _ => exact absurd hst hgone
        | overwritten _ _ hgone _ => exact absurd hst hgone

theorem saved_createNew {m : E} {w w₁ : World K} (hw : w.Emits w₁ []) (hx : w.Unmatched m) :
    Saved env s m w ((createNew K m).run (handler env s) w₁) := by
  unfold createNew newWithModel newModificationTag
  simp only [bind_assoc]
  have hw₂ : w.Emits w₁.drawn [] := hw.then w₁.emits_drawn
  cases hg : env.newV4 w₁.uuids with
  | error e =>
    rw [run_bind_error (by rw [run_newV4, hg]; rfl)]
    exact .failed e _ hw₂ (.inr ⟨hx, _, hg⟩)
  | ok g =>
    rw [run_bind_ok (by rw [run_newV4, hg]; rfl), run_bind_ok (run_timeNow env s _), hw₂.now]
    cases he : K.withModel g w.now m with
    | none => exact .panicked _ hw₂ (.inr ⟨hx, g, he⟩)
    | some e₀ =>
      rw [show (deref (some e₀) : DB E C E) = .ret e₀ from rfl, ret_bind]
      have hw₃ : w.Emits w₁.drawn.drawn [] := hw₂.then (World.emits_drawn _)
      cases hu : env.newV4 w₁.drawn.uuids with
      | error e =>
        rw [run_bind_error (by rw [run_newV4, hu]; rfl)]
        exact .failed e _ hw₃ (.inr ⟨hx, _, hu⟩)
      | ok u =>
        rw [run_bind_ok (by rw [run_newV4, hu]; rfl)]
        simp only [pure_def, ret_bind]
        set e := K.setTag ⟨u, 0⟩ e₀
        have hw₄ : w.Emits w₁.drawn.drawn.called [] := hw₃.then (World.emits_called _)
        rcases w₁.drawn.drawn.client_cases env (World.create s e) with ⟨e', hf, hc⟩ | ⟨-, hc⟩
        · rw [run_bind_error (by rw [run_create, hc])]
          exact .failed e' _ hw₄ (.inl ⟨_, hf⟩)
        · rcases w₁.drawn.drawn.called.create_cases s e with ⟨hs, hn⟩ | ⟨w₄, hs, hins⟩
          · rw [run_bind_error (by rw [run_create, hc, hs])]
            exact .refused _ hw₄ (.inr ⟨hx, e, by rwa [hw₄.table] at hn⟩)
          · rw [run_bind_ok (by rw [run_create, hc, hs]), run_emitEvent]
            have hj : w₁.drawn.uuids < w₄.uuids := hins.uuids
            exact .created _ _ g u e₀ w₄ _ hx hw.uuids (Nat.lt_succ_self _) hj hg hu he
              (hw₄.inserts hins) (w₄.emits_emitted _)

variable [DecidableEq E]

theorem run_saveEntity (m : E) (w : World K) :
    Saved env s m w ((saveEntity K m).run (handler env s) w) := by
  unfold saveEntity
  have hw : w.Emits w.called [] := w.emits_called
  rcases run_findExisting_cases env s m w with ⟨e, hr, hwhy⟩ | ⟨hx, hr⟩ | ⟨x, hx, hr⟩
  · rw [run_bind_error hr]
    rcases hwhy with ⟨msg, hf, rfl⟩ | ⟨rfl, hlen⟩
    · exact .failed msg _ hw (.inl ⟨_, hf⟩)
    · exact .duplicated _ hw hlen
  · rw [run_bind_ok hr, if_neg (by simp)]
    exact saved_createNew hw (.inl hx)
  · rw [run_bind_ok hr]
    split
    next hz => exact saved_updateExisting hw ⟨hx, hz⟩
    next hz => exact saved_createNew hw (.inr ⟨x, hx, by simpa using hz⟩)

omit [DecidableEq E] in
theorem Saved.now {m : E} {w : World K} {r : Except Err Unit × World K} (h : Saved env s m w r) :
    r.2.now = w.now := by
  cases h with
  | failed _ _ hw _ => exact hw.now
  | duplicated _ hw _ => exact hw.now
  | panicked _ hw _ => exact hw.now
  | refused _ hw _ => exact hw.now
  | updated _ _ _ _ _ _ _ hup hev => exact hev.now.trans hup.now
  | created _ _ _ _ _ _ _ _ _ _ _ _ _ _ hins hev => exact hev.now.trans hins.now

/-- A save whose lookup finds nothing succeeds if the table takes the row with the next uuids. -/
theorem run_saveEntity_fresh {m e : E} {w : World K} {g u : String} {t : Table K.pk}
    (hsel : w.table.select (K.lookup m) = []) (henv : env.Faultless)
    (hg : env.newV4 w.uuids = .ok g) (hu : env.newV4 (w.uuids + 1) = .ok u)
    (he : K.withModel g w.now m = some e)
    (hins : w.table.insert s.indexes (K.model.insertRow s (K.setTag ⟨u, 0⟩ e)) = some t) :
    ((saveEntity K m).run (handler env s) w).1 = .ok () := by
  have hclient {α : Type} (w : World K) (f : World K → Except Err α × World K) :
      w.client env f = f w.called := by
    rw [World.client, henv]
  have hfind : (findExisting K m).run (handler env s) w = (.ok K.model.zero, w.called) := by
    rw [findExisting, run_bind_ok (by rw [run_find, hclient])]
    have hnil : w.called.table.select (K.lookup m) = [] := hsel
    rw [hnil]
    rfl
  have hcreate : (create (K.setTag ⟨u, 0⟩ e)).run (handler env s) w.called.drawn.drawn =
      World.create s (K.setTag ⟨u, 0⟩ e) w.called.drawn.drawn.called := by
    rw [run_create, hclient]
  rw [saveEntity, run_bind_ok hfind, if_neg (by simp)]
  unfold createNew newWithModel newModificationTag
  simp only [bind_assoc]
  have hnow : w.called.drawn.now = w.now := rfl
  rw [run_bind_ok (by rw [run_newV4]; exact Prod.ext (congrArg (Except.mapError Err.client) hg) rfl),
    run_bind_ok (run_timeNow env s _), hnow, he]
  rw [show (deref (some e) : DB E C E) = .ret e from rfl, ret_bind,
    run_bind_ok (by rw [run_newV4]; exact Prod.ext (congrArg (Except.mapError Err.client) hu) rfl)]
  simp only [pure_def, ret_bind]
  rcases w.called.drawn.drawn.called.create_cases s (K.setTag ⟨u, 0⟩ e) with ⟨-, hn⟩ | ⟨w', hs, -⟩
  · have hn : w.table.insert s.indexes (K.model.insertRow s (K.setTag ⟨u, 0⟩ e)) = none := hn
    rw [hins] at hn
    cases hn
  · rw [run_bind_ok (hcreate.trans hs), run_emitEvent]

variable (env) in
/-- How `DeleteRoute` and `DeleteTcpRouteMapping` can end, and with which effect. -/
inductive Deleted (m : E) (w : World K) : Except Err Unit × World K → Prop
  | failed (msg : String) (w' : World K) : w.Emits w' [] → (∃ n, env.fault n = some msg) →
      Deleted m w (.error (.client msg), w')
  | duplicated (w' : World K) : w.Emits w' [] → 2 ≤ (w.table.select (K.lookup m)).length →
      Deleted m w (.error (.plain K.duplicates), w')
  | notFound (w' : World K) : w.Emits w' [] → w.Unmatched m →
      Deleted m w (.error deleteRouteError, w')
  | keyless (x : Row C) (w' : World K) : w.Emits w' [] → w.Matched m x →
      K.guid (K.model.ofRow x) = "" → Deleted m w (.error missingWhere, w')
  | deleted (x : Row C) (w₁ w' : World K) : w.Matched m x →
      K.guid (K.model.ofRow x) ≠ "" →
      w.Removes w₁ (fun g => decide (g = K.guid (K.model.ofRow x))) →
      w₁.Emits w' [⟨.delete, K.model.ofRow x⟩] → Deleted m w (.ok (), w')

theorem run_deleteEntity (m : E) (w : World K) :
    Deleted env m w ((deleteEntity K m).run (handler env s) w) := by
  unfold deleteEntity
  have hw : w.Emits w.called [] := w.emits_called
  rcases run_findExisting_cases env s m w with ⟨e, hr, hwhy⟩ | ⟨hx, hr⟩ | ⟨x, hx, hr⟩
  · rw [run_bind_error hr]
    rcases hwhy with ⟨msg, hf, rfl⟩ | ⟨rfl, hlen⟩
    · exact .failed msg _ hw ⟨_, hf⟩
    · exact .duplicated _ hw hlen
  · rw [run_bind_ok hr, if_pos rfl]
    exact .notFound _ hw (.inl hx)
  · rw [run_bind_ok hr]
    split
    next hz => exact .notFound _ hw (.inr ⟨x, hx, hz⟩)
    next hz =>
      have hm : w.Matched m x := ⟨hx, hz⟩
      have hw₂ : w.Emits w.called.called [] := hw.then (World.emits_called _)
      rcases w.called.client_cases env (World.delete (K.model.ofRow x)) with
        ⟨e', hf, hc⟩ | ⟨-, hc⟩
      · rw [run_bind_error (by rw [run_delete, hc])]
        exact .failed e' _ hw₂ ⟨_, hf⟩
      · by_cases hg : K.guid (K.model.ofRow x) = ""
        · have hd : World.delete (K.model.ofRow x) w.called.called =
              (.error missingWhere, w.called.called) := if_pos hg
          rw [run_bind_error (by rw [run_delete, hc, hd])]
          exact .keyless x _ hw₂ hm hg
        · have hd : World.delete (K.model.ofRow x) w.called.called =
              (.ok (), w.called.called.remove fun g =>
                decide (g = K.guid (K.model.ofRow x))) := if_neg hg
          rw [run_bind_ok (by rw [run_delete, hc, hd]), run_emitEvent]
          exact .deleted x _ _ hm hg (hw₂.removes _) (World.emits_emitted _ _)

omit [DecidableEq E]

section Matched
variable {m : E} {w : World K} {x : Row C} (hx : w.Matched m x) (henv : env.Faultless)
include hx henv

theorem run_findExisting_matched :
    (findExisting K m).run (handler env s) w = (.ok (K.model.ofRow x), w.called) := by
  rcases run_findExisting_cases env s m w with ⟨e, -, ⟨msg, hf, -⟩ | ⟨-, hlen⟩⟩ | ⟨hn, -⟩ | ⟨y, hy, hr⟩
  · rw [henv] at hf
    cases hf
  · rw [hx.select] at hlen
    simp at hlen
  · exact absurd (.inl hn) hx.not_unmatched
  · rw [hx.select] at hy
    cases hy
    exact hr

/-- A save whose lookup finds a row that the indexes let it rewrite succeeds. -/
theorem Saved.of_matched {e : E} (hu : K.update w.now (K.model.ofRow x) m = some e)
    (hg : K.guid e ≠ "") (hup : w.table.update s.indexes (K.model.toRow e) ≠ none)
    {r : Except Err Unit × World K} (h : Saved env s m w r) :
    ∃ w₁, r.1 = .ok () ∧ w.Updates w₁ s e ∧ w₁.Emits r.2 [⟨.update, e⟩] := by
  cases h with
  | failed e' _ _ hwhy =>
    rcases hwhy with ⟨n, hn⟩ | ⟨hun, -⟩
    · rw [henv] at hn
      cases hn
    · exact absurd hun hx.not_unmatched
  | duplicated _ _ hlen =>
    rw [hx.select] at hlen
    simp at hlen
  | panicked _ _ hwhy =>
    rcases hwhy with ⟨y, hy, hn⟩ | ⟨hun, -⟩
    · rw [← hx.eq hy, hu] at hn
      cases hn
    · exact absurd hun hx.not_unmatched
  | refused _ _ hwhy =>
    rcases hwhy with ⟨y, e', hy, hu', hn⟩ | ⟨hun, -⟩
    · rw [← hx.eq hy, hu] at hu'
      cases hu'
      exact absurd (hn hg) hup
    · exact absurd hun hx.not_unmatched
  | updated y e' w₁ _ hy hu' _ hup' hev =>
    rw [← hx.eq hy, hu] at hu'
    cases hu'
    exact ⟨w₁, rfl, hup', hev⟩
  | created _ _ _ _ _ _ _ hun => exact absurd hun hx.not_unmatched

theorem Deleted.of_matched (hg : K.guid (K.model.ofRow x) ≠ "")
    {r : Except Err Unit × World K} (h : Deleted env m w r) :
    ∃ w₁, r.1 = .ok () ∧ w.Removes w₁ (fun g => decide (g = K.guid (K.model.ofRow x))) ∧
      w₁.Emits r.2 [⟨.delete, K.model.ofRow x⟩] := by
  cases h with
  | failed e' _ _ hwhy =>
    obtain ⟨n, hn⟩ := hwhy
    rw [henv] at hn
    cases hn
  | duplicated _ _ hlen =>
    rw [hx.select] at hlen
    simp at hlen
  | notFound _ _ hun => exact absurd hun hx.not_unmatched
  | keyless y _ _ hy hz => exact absurd (hx.eq hy ▸ hz) hg
  | deleted y w₁ _ hy _ hr hev =>
    obtain rfl := hx.eq hy
    exact ⟨w₁, rfl, hr, hev⟩

end Matched

/-- A delete whose lookup finds nothing says so and changes nothing. -/
theorem Deleted.of_select_nil {m : E} {w : World K} (hsel : w.table.select (K.lookup m) = [])
    (henv : env.Faultless) {r : Except Err Unit × World K} (h : Deleted env m w r) :
    r.1 = .error deleteRouteError ∧ w.Emits r.2 [] := by
  have hmatched {x : Row C} : ¬w.Matched m x := fun hx => hx.not_unmatched (.inl hsel)
  cases h with
  | failed msg _ _ hwhy =>
    obtain ⟨n, hn⟩ := hwhy
    rw [henv] at hn
    cases hn
  | duplicated _ _ hlen =>
    rw [hsel] at hlen
    simp at hlen
  | notFound _ hw _ => exact ⟨rfl, hw⟩
  | keyless x _ _ hx _ => exact absurd hx hmatched
  | deleted x _ _ hx _ _ _ => exact absurd hx hmatched

variable (env s) in
theorem run_emitExpired (routes : List E) (w : World K) :
    ∃ w', (emitExpired routes : DB E C Unit).run (handler env s) w = (.ok (), w') ∧
      w.Emits w' (routes.map fun r => ⟨.expire, r⟩) := by
  induction routes generalizing w with
  | nil => exact ⟨w, rfl, World.Emits.refl w⟩
  | cons r rest ih =>
    obtain ⟨w', hrun, hw'⟩ := ih (w.emitted ⟨.expire, r⟩)
    refine ⟨w', ?_, (w.emits_emitted ⟨.expire, r⟩).trans hw'⟩
    unfold emitExpired
    rw [run_bind_ok (run_emitEvent env s _ r w)]
    exact hrun

variable (K) in
/-- The rows that a prune pass at this moment finds expired. -/
def expiredRows (w : World K) : List (Row C) :=
  w.table.select [.before K.expiry (w.now - second)]

/-- The guids of a pass pick out the expired rows, as long as no row has an empty guid. -/
theorem filter_prunedGuids {w : World K} (hguids : ∀ y ∈ w.stored, K.guid y ≠ "") :
    (w.table.rows.filter fun r => decide (K.guid (K.model.ofRow r) ∈
      prunedGuids K ((expiredRows K w).map K.model.ofRow))) = expiredRows K w := by
  unfold expiredRows Table.select
  apply List.filter_congr
  intro x hx
  rw [Bool.eq_iff_iff, decide_eq_true_eq]
  constructor
  · intro hmem
    have hne : K.guid (K.model.ofRow x) ≠ "" := hguids _ (World.mem_stored.mpr ⟨x, hx, rfl⟩)
    rcases List.mem_append.mp hmem with hempty | hguid
    · exact absurd (List.eq_of_mem_replicate hempty) hne
    · simp only [List.map_map, List.mem_map, List.mem_filter, Function.comp_apply] at hguid
      obtain ⟨y, ⟨hy, hexp⟩, hxy⟩ := hguid
      have heq : y = x :=
        Table.eq_of_pk hy hx (by rw [(w.typed y hy).pk, (w.typed x hx).pk, hxy])
      rwa [← heq]
  · intro hexp
    apply List.mem_append_right
    simp only [List.map_map, List.mem_map, List.mem_filter, Function.comp_apply]
    exact ⟨x, ⟨hx, hexp⟩, rfl⟩

variable (env) in
/-- How a prune pass can end when it runs alone. -/
inductive Pruned (w : World K) : Except Err Unit × World K → Prop
  | failed (msg : String) (w' : World K) : w.Emits w' [] → (∃ n, env.fault n = some msg) →
      Pruned w (.error (.client msg), w')
  | pruned (w₁ w' : World K) :
      w.Removes w₁ (fun g => decide (g ∈ prunedGuids K ((expiredRows K w).map K.model.ofRow))) →
      w₁.Emits w' (((expiredRows K w).map K.model.ofRow).map fun r => ⟨.expire, r⟩) →
      Pruned w (.ok (), w')

theorem run_pruneEntities (w : World K) :
    Pruned env w ((pruneEntities K).run (handler env s) w) := by
  unfold pruneEntities findExpiredRoutes
  rw [bind_assoc, run_bind_ok (run_timeNow env s w)]
  have hw : w.Emits w.called [] := w.emits_called
  rcases w.client_cases env fun w' : World K =>
      (.ok ((w'.table.select [.before K.expiry (w.now - second)]).map K.model.ofRow), w')
    with ⟨e, hf, hc⟩ | ⟨-, hc⟩
  · rw [run_bind_error (by rw [run_find, hc])]
    exact .failed e _ hw ⟨_, hf⟩
  · rw [run_bind_ok (by rw [run_find, hc])]
    have hsel : w.called.table.select [.before K.expiry (w.now - second)] = expiredRows K w := rfl
    rw [hsel]
    set routes := (expiredRows K w).map K.model.ofRow
    have hw₂ : w.Emits w.called.called [] := hw.then (World.emits_called _)
    rcases w.called.client_cases env fun w' : World K =>
        (.ok (), w'.remove fun g => decide (g ∈ prunedGuids K routes)) with
      ⟨e, hf, hc⟩ | ⟨-, hc⟩
    · rw [run_bind_error (by rw [run_deleteIn, hc])]
      exact .failed e _ hw₂ ⟨_, hf⟩
    · rw [run_bind_ok (by rw [run_deleteIn, hc])]
      obtain ⟨w', hrun, hw'⟩ := run_emitExpired env s routes
        (w.called.called.remove fun g => decide (g ∈ prunedGuids K routes))
      rw [hrun]
      exact .pruned _ w' (hw₂.removes _) hw'

theorem run_readEntities {w : World K} {loaded : List E}
    (h : ((readEntities K).run (handler env s) w).1 = .ok loaded) :
    loaded = (w.table.select [.after K.expiry w.now]).map K.model.ofRow ∧
      w.Emits ((readEntities K).run (handler env s) w).2 [] := by
  unfold readEntities at h ⊢
  rw [run_bind_ok (run_timeNow env s w), run_find] at h ⊢
  rcases w.client_cases env fun w' : World K =>
      (.ok ((w'.table.select [.after K.expiry w.now]).map K.model.ofRow), w') with
    ⟨e, -, hc⟩ | ⟨-, hc⟩
  · rw [hc] at h
    cases h
  · rw [hc] at h ⊢
    exact ⟨(Except.ok.inj h).symm, w.emits_called⟩

theorem readEntities_ok (henv : env.Faultless) (w : World K) :
    ∃ loaded, ((readEntities K).run (handler env s) w).1 = .ok loaded := by
  rw [readEntities, run_bind_ok (run_timeNow env s w), run_find, World.client, henv]
  exact ⟨_, rfl⟩

end Runs
end RoutingApi.Database
