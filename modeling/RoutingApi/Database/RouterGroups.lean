import Mathlib.Data.Char
import Mathlib.Data.List.Lex
import Mathlib.Data.List.MinMax
import RoutingApi.Database.SqlDb
import RoutingApi.Models.ReservablePorts
import RoutingApi.Process.Wp

/-! The router groups of `SqlDB`: the table, the backup locks, the calls on them, and the
operations with what each of them does when nobody else acts. -/
namespace RoutingApi.Groups
open Relational Gorm Models Process Program
open Database (Err Env backupError constraintError)

inductive Call where
  | isReadLocked
  | isWriteLocked
  | find
  | first (q : List (Cond RouterGroupColumn))
  | create (rg : RouterGroupDB)
  | save (rg : RouterGroupDB)
  | delete (q : List (Cond RouterGroupColumn))
  | newV4
  deriving DecidableEq, Repr

/-- `First` answers `none` for `gorm.ErrRecordNotFound`. -/
abbrev Call.Resp : Call → Type
  | .isReadLocked => Bool
  | .isWriteLocked => Bool
  | .find => Except Err (List RouterGroupDB)
  | .first _ => Except Err (Option RouterGroupDB)
  | .create _ => Except Err Unit
  | .save _ => Except Err Unit
  | .delete _ => Except Err Unit
  | .newV4 => Except Err String

/-- The table, the two flags of `rwLocker`, and how many uuids and calls have been used. -/
structure Store where
  table : Table RouterGroupColumn.guid
  typed : ∀ r ∈ table.rows, ∃ g, r .guid = .text g
  readLocked : Bool
  writeLocked : Bool
  uuids : ℕ
  calls : ℕ

namespace Store

def empty : Store := ⟨.empty, by simp, false, false, 0, 0⟩

/-- The groups that reading the whole table gives. -/
def stored (w : Store) : List RouterGroupDB := w.table.rows.map RouterGroupDB.ofRow

def called (w : Store) : Store := { w with calls := w.calls + 1 }

def drawn (w : Store) : Store := { w with uuids := w.uuids + 1 }

/-- The row with the least primary key among those that match. -/
def first (q : List (Cond RouterGroupColumn)) (w : Store) : Option RouterGroupDB :=
  ((w.table.select q).map RouterGroupDB.ofRow).argmin fun rg => rg.guid.toList

variable (s : Schema RouterGroupColumn)

theorem insertRow_eq (rg : RouterGroupDB) :
    RouterGroupDB.model.insertRow s rg = RouterGroupDB.toRow rg := by
  funext c
  apply Model.insertRow_of_ne
  cases c <;> simp [Model.omitsZero, RouterGroupDB.model, RouterGroupDB.settings]

def create (rg : RouterGroupDB) (w : Store) : Except Err Unit × Store :=
  match h : w.table.insert s.indexes (RouterGroupDB.model.insertRow s rg) with
  | none => (.error constraintError, w)
  | some t => (.ok (), { w with
      table := t
      typed := by
        intro r hr
        rw [(Table.insert_some h).1, List.mem_append, List.mem_singleton] at hr
        rcases hr with hr | rfl
        · exact w.typed r hr
        · rw [insertRow_eq]
          exact ⟨rg.guid, rfl⟩ })

/-- UPDATE of the row with the primary key of `row`. -/
def update (row : Row RouterGroupColumn) (w : Store) : Except Err Unit × Store :=
  match h : w.table.update s.indexes row with
  | none => (.error constraintError, w)
  | some t => (.ok (), { w with
      table := t
      typed := by
        intro r hr
        rw [Table.update_some h] at hr
        rcases hr with ⟨hr, -⟩ | ⟨rfl, y, hy, hpk⟩
        · exact w.typed r hr
        · exact hpk ▸ w.typed y hy })

/-- `Save` updates the row with the primary key of the struct. Without such a row it inserts one,
and on a conflict overwrites the row in the way; a zero key goes straight to `Create`. -/
def save (rg : RouterGroupDB) (w : Store) : Except Err Unit × Store :=
  if rg.guid = "" then w.create s rg
  else if w.table.Stores (.text rg.guid) then w.update s (RouterGroupDB.toRow rg)
  else match s.conflict w.table.rows (RouterGroupDB.model.insertRow s rg) with
    | some x => w.update s (RouterGroupDB.model.overwriteRow rg x)
    | none => w.create s rg

def delete (q : List (Cond RouterGroupColumn)) (w : Store) : Store :=
  { w with
    table := w.table.remove (holdsAll q)
    typed := fun r hr => w.typed r (Table.mem_remove.mp hr).1 }

/-- A `Client` call either fails and changes nothing, or has its effect. -/
def client {α : Type} (env : Env) (w : Store) (f : Store → Except Err α × Store) :
    Except Err α × Store :=
  match env.fault w.calls with
  | some msg => (.error (.client msg), w.called)
  | none => f w.called

end Store

/-- No stored guid is one that is still to be generated. -/
def Unused (env : Env) (w : Store) : Prop :=
  ∀ x ∈ w.stored, ∀ i, w.uuids ≤ i → env.newV4 i ≠ .ok x.guid

def handler (env : Env) (s : Schema RouterGroupColumn) : Handler Call Call.Resp Store
  | .isReadLocked, w => (w.readLocked, w)
  | .isWriteLocked, w => (w.writeLocked, w)
  | .find, w => w.client env fun w => (.ok w.stored, w)
  | .first q, w => w.client env fun w => (.ok (w.first q), w)
  | .create rg, w => w.client env (Store.create s rg)
  | .save rg, w => w.client env (Store.save s rg)
  | .delete q, w => w.client env fun w => (.ok (), w.delete q)
  | .newV4, w => ((env.newV4 w.uuids).mapError .client, w.drawn)

/-- The four calls on `rwLocker`. -/
inductive LockAct where
  | lockReads
  | unlockReads
  | lockWrites
  | unlockWrites
  deriving DecidableEq, Repr

def LockAct.apply : LockAct → Store → Store
  | .lockReads, w => { w with readLocked := true }
  | .unlockReads, w => { w with readLocked := false }
  | .lockWrites, w => { w with writeLocked := true }
  | .unlockWrites, w => { w with writeLocked := false }

abbrev GroupDB (α : Type) := Program Call Call.Resp Err α

/-- Go hands the error of a call back as a value. -/
def tried {α : Type} (p : GroupDB α) : GroupDB (Except Err α) := p.attempt fun _ => true

section Operations

/-- The lookup of `ReadRouterGroup` and `ReadRouterGroupByName`. -/
def readFirst (q : List (Cond RouterGroupColumn)) : GroupDB RouterGroup := do
  if ← perform Call.isReadLocked then .fail (.plain backupError)
  else
    match ← ofExcept (← perform (Call.first q)) with
    | some rg => pure rg.toRouterGroup
    | none => pure .zero

def readRouterGroup (guid : String) : GroupDB RouterGroup := readFirst [.eq .guid (.text guid)]

def readRouterGroupByName (name : String) : GroupDB RouterGroup :=
  readFirst [.eq .name (.text name)]

def readRouterGroups : GroupDB (List RouterGroup) := do
  if ← perform Call.isReadLocked then .fail (.plain backupError)
  else
    let routerGroupsDB ← ofExcept (← perform Call.find)
    pure (routerGroupsDB.map RouterGroupDB.toRouterGroup)

def newRouterGroupDB (routerGroup : RouterGroup) : RouterGroupDB where
  guid := if routerGroup.modelGuid = "" then routerGroup.guid else routerGroup.modelGuid
  name := routerGroup.name
  type := routerGroup.type
  reservablePorts := routerGroup.reservablePorts

def updateRouterGroup (existing current : RouterGroup) : RouterGroup :=
  { existing with
    type := if current.type ≠ "" then current.type else existing.type
    name := if current.name ≠ "" then current.name else existing.name
    reservablePorts := current.reservablePorts }

/-- The part of `SaveRouterGroup` after the lock was found open. -/
def writeRouterGroup (routerGroup : RouterGroup) : GroupDB Unit := do
  let existing ← readRouterGroup routerGroup.guid
  if existing.guid = routerGroup.guid then
    ofExcept (← perform (Call.save (newRouterGroupDB (updateRouterGroup existing routerGroup))))
  else ofExcept (← perform (Call.create (newRouterGroupDB routerGroup)))

def saveRouterGroup (routerGroup : RouterGroup) : GroupDB Unit := do
  if ← perform Call.isWriteLocked then .fail (.plain backupError)
  else writeRouterGroup routerGroup

def deleteRouterGroupError : Err := .db "KeyNotFound" "Delete Fails: Router Group does not exist"

/-- The part of `DeleteRouterGroup` after the lock was found open. -/
def removeRouterGroup (guid : String) : GroupDB Unit := do
  let routerGroup ← readRouterGroup guid
  if routerGroup = .zero then .fail deleteRouterGroupError
  else ofExcept (← perform (Call.delete [.eq .guid (.text guid)]))

def deleteRouterGroup (guid : String) : GroupDB Unit := do
  if ← perform Call.isWriteLocked then .fail (.plain backupError)
  else removeRouterGroup guid

end Operations

section Effects

@[simp] theorem ofRow_toRow (rg : RouterGroupDB) :
    RouterGroupDB.ofRow (RouterGroupDB.toRow rg) = rg := rfl

namespace Store
variable {w w' : Store} {s : Schema RouterGroupColumn} {rg x : RouterGroupDB}

/-- Nothing that matters to an operation has changed. -/
structure Same (w w' : Store) : Prop where
  table : w'.table = w.table
  readLocked : w'.readLocked = w.readLocked
  writeLocked : w'.writeLocked = w.writeLocked
  uuids : w'.uuids = w.uuids

theorem Same.refl (w : Store) : w.Same w := ⟨rfl, rfl, rfl, rfl⟩

theorem Same.trans {w'' : Store} (h : w.Same w') (h' : w'.Same w'') : w.Same w'' :=
  ⟨h'.table.trans h.table, h'.readLocked.trans h.readLocked, h'.writeLocked.trans h.writeLocked,
    h'.uuids.trans h.uuids⟩

theorem same_called (w : Store) : w.Same w.called := ⟨rfl, rfl, rfl, rfl⟩

theorem stored_congr (h : w'.table = w.table) : w'.stored = w.stored := by
  simp only [Store.stored, h]

theorem Same.stored (h : w.Same w') : w'.stored = w.stored := stored_congr h.table

theorem mem_stored : x ∈ w.stored ↔ ∃ r ∈ w.table.rows, RouterGroupDB.ofRow r = x := by
  simp [Store.stored]

/-- The guid of a stored row is the one its struct has. -/
theorem guid_of_row {r : Row RouterGroupColumn} (hr : r ∈ w.table.rows) :
    r .guid = .text (RouterGroupDB.ofRow r).guid := by
  obtain ⟨g, hg⟩ := w.typed r hr
  simp [RouterGroupDB.ofRow, hg, textOf]

theorem stores_iff {g : String} :
    w.table.Stores (.text g) ↔ ∃ x ∈ w.stored, x.guid = g := by
  constructor
  · rintro ⟨r, hr, hg⟩
    rw [guid_of_row hr, Cell.text.injEq] at hg
    exact ⟨_, mem_stored.mpr ⟨r, hr, rfl⟩, hg⟩
  · rintro ⟨x, hx, rfl⟩
    obtain ⟨r, hr, rfl⟩ := mem_stored.mp hx
    exact ⟨r, hr, guid_of_row hr⟩

/-- A guid identifies a stored group. -/
theorem eq_of_guid {y : RouterGroupDB} (hx : x ∈ w.stored) (hy : y ∈ w.stored)
    (h : x.guid = y.guid) : x = y := by
  obtain ⟨r, hr, rfl⟩ := mem_stored.mp hx
  obtain ⟨t, ht, rfl⟩ := mem_stored.mp hy
  rw [Table.eq_of_pk hr ht (by rw [guid_of_row hr, guid_of_row ht, h])]

theorem holds_guid {r : Row RouterGroupColumn} (hr : r ∈ w.table.rows) {g : String} :
    holdsAll [.eq .guid (.text g)] r = true ↔ (RouterGroupDB.ofRow r).guid = g := by
  simp [holdsAll, Cond.holds, Cell.eqv_iff, guid_of_row hr]

theorem holds_name {r : Row RouterGroupColumn} {n : String} (hn : n ≠ "") :
    holdsAll [.eq .name (.text n)] r = true ↔ (RouterGroupDB.ofRow r).name = n := by
  simp only [holdsAll, List.all_cons, List.all_nil, Bool.and_true, Cond.holds, Cell.eqv_iff,
    RouterGroupDB.ofRow]
  cases r .name <;> simp [textOf, hn.symm]

theorem first_some {q : List (Cond RouterGroupColumn)} (h : w.first q = some x) :
    ∃ r ∈ w.table.rows, holdsAll q r = true ∧ RouterGroupDB.ofRow r = x := by
  have hmem := List.argmin_mem (Option.mem_def.mpr h)
  obtain ⟨r, hr, hx⟩ := List.mem_map.mp hmem
  obtain ⟨hrows, hq⟩ := Table.mem_select.mp hr
  exact ⟨r, hrows, hq, hx⟩

theorem first_none {q : List (Cond RouterGroupColumn)} (h : w.first q = none) :
    ∀ r ∈ w.table.rows, holdsAll q r ≠ true := by
  intro r hr hq
  rw [first, List.argmin_eq_none, List.map_eq_nil_iff] at h
  have hmem : r ∈ w.table.select q := Table.mem_select.mpr ⟨hr, hq⟩
  simp [h] at hmem

/-- What an INSERT that commits does. -/
structure Inserts (w w' : Store) (rg : RouterGroupDB) : Prop where
  stored : w'.stored = w.stored ++ [rg]
  fresh : ∀ x ∈ w.stored, x.guid ≠ rg.guid
  uuids : w'.uuids = w.uuids

/-- What an UPDATE that commits does. -/
structure Replaces (w w' : Store) (rg : RouterGroupDB) : Prop where
  mem : ∀ x, x ∈ w'.stored ↔ (x ∈ w.stored ∧ x.guid ≠ rg.guid) ∨ x = rg
  uuids : w'.uuids = w.uuids

/-- What a DELETE by guid does. -/
structure Removes (w w' : Store) (guid : String) : Prop where
  mem : ∀ x, x ∈ w'.stored ↔ x ∈ w.stored ∧ x.guid ≠ guid
  uuids : w'.uuids = w.uuids

theorem Inserts.of_same {w₁ : Store} (h : w.Same w₁) (h' : w₁.Inserts w' rg) : w.Inserts w' rg :=
  ⟨h.stored ▸ h'.stored, h.stored ▸ h'.fresh, h'.uuids.trans h.uuids⟩

theorem Replaces.of_same {w₁ : Store} (h : w.Same w₁) (h' : w₁.Replaces w' rg) :
    w.Replaces w' rg :=
  ⟨h.stored ▸ h'.mem, h'.uuids.trans h.uuids⟩

theorem Removes.of_same {w₁ : Store} {guid : String} (h : w.Same w₁)
    (h' : w₁.Removes w' guid) : w.Removes w' guid :=
  ⟨h.stored ▸ h'.mem, h'.uuids.trans h.uuids⟩

theorem create_cases (rg : RouterGroupDB) (w : Store) :
    w.create s rg = (.error constraintError, w) ∨
      ∃ w', w.create s rg = (.ok (), w') ∧ w.Inserts w' rg := by
  unfold create
  split
  next => exact .inl rfl
  next t h =>
    obtain ⟨hrows, hnew, -⟩ := Table.insert_some h
    rw [insertRow_eq] at hrows hnew
    refine .inr ⟨_, rfl, ?_, ?_, rfl⟩
    · simp [Store.stored, hrows]
    · intro x hx hg
      exact hnew (stores_iff.mpr ⟨x, hx, hg⟩)

/-- An UPDATE of a stored row is refused or commits. -/
theorem update_cases (hstores : w.table.Stores (.text rg.guid)) :
    w.update s (RouterGroupDB.toRow rg) = (.error constraintError, w) ∨
      ∃ w', w.update s (RouterGroupDB.toRow rg) = (.ok (), w') ∧ w.Replaces w' rg := by
  unfold update
  split
  next => exact .inl rfl
  next t h =>
    refine .inr ⟨_, rfl, ?_, rfl⟩
    intro x
    simp only [mem_stored, Table.update_some h]
    constructor
    · rintro ⟨r, ⟨hr, hg⟩ | ⟨rfl, -⟩, rfl⟩
      · refine .inl ⟨⟨r, hr, rfl⟩, ?_⟩
        intro hg'
        exact hg (by rw [guid_of_row hr, hg']; rfl)
      · exact .inr rfl
    · rintro (⟨⟨r, hr, rfl⟩, hg⟩ | rfl)
      · refine ⟨r, .inl ⟨hr, ?_⟩, rfl⟩
        intro hg'
        rw [guid_of_row hr] at hg'
        exact hg (Cell.text.inj hg')
      · exact ⟨_, .inr ⟨rfl, hstores⟩, rfl⟩

/-- A `Save` whose row is not gone. -/
theorem save_cases (hkey : rg.guid = "" ∨ ∃ x ∈ w.stored, x.guid = rg.guid) :
    w.save s rg = (.error constraintError, w) ∨
      (∃ w', w.save s rg = (.ok (), w') ∧ w.Replaces w' rg ∧ ∃ x ∈ w.stored, x.guid = rg.guid) ∨
      ∃ w', w.save s rg = (.ok (), w') ∧ w.Inserts w' rg := by
  unfold save
  split
  next => exact (create_cases (s := s) rg w).imp_right .inr
  next hguid =>
    have hrow := hkey.resolve_left hguid
    have hstores := stores_iff.mpr hrow
    rw [if_pos hstores]
    rcases update_cases (s := s) hstores with h | ⟨w', h, hrep⟩
    · exact .inl h
    · exact .inr (.inl ⟨w', h, hrep, hrow⟩)

theorem delete_removes (guid : String) (w : Store) :
    w.Removes (w.delete [.eq .guid (.text guid)]) guid := by
  refine ⟨?_, rfl⟩
  intro x
  simp only [mem_stored, delete, Table.mem_remove]
  constructor
  · rintro ⟨r, ⟨hr, hq⟩, rfl⟩
    refine ⟨⟨r, hr, rfl⟩, ?_⟩
    intro hg
    rw [(holds_guid hr).mpr hg] at hq
    cases hq
  · rintro ⟨⟨r, hr, rfl⟩, hg⟩
    refine ⟨r, ⟨hr, ?_⟩, rfl⟩
    rw [← Bool.not_eq_true, holds_guid hr]
    exact hg

theorem client_cases {α : Type} (env : Env) (w : Store) (f : Store → Except Err α × Store) :
    (∃ e, w.client env f = (.error e, w.called)) ∨ w.client env f = f w.called := by
  unfold client
  cases env.fault w.calls with
  | none => exact .inr rfl
  | some msg => exact .inl ⟨_, rfl⟩

end Store
end Effects

section Guids
variable {env : Env} {w w' w'' : Store}

/-- Every group of the later table has the name and type that its guid had in the earlier
one, or a guid generated since. -/
structure Follows (env : Env) (w w' : Store) : Prop where
  uuids : w.uuids ≤ w'.uuids
  stored : ∀ y ∈ w'.stored, (∃ x ∈ w.stored, x.guid = y.guid ∧ x.name = y.name ∧ x.type = y.type) ∨
    ∃ i, w.uuids ≤ i ∧ i < w'.uuids ∧ env.newV4 i = .ok y.guid

theorem Follows.of_stored (huuids : w.uuids ≤ w'.uuids) (h : ∀ x ∈ w'.stored, x ∈ w.stored) :
    Follows env w w' :=
  ⟨huuids, fun y hy => .inl ⟨y, h y hy, rfl, rfl, rfl⟩⟩

theorem Follows.refl (w : Store) : Follows env w w := .of_stored le_rfl fun _ hx => hx

theorem Follows.trans (h : Follows env w w') (h' : Follows env w' w'') : Follows env w w'' := by
  refine ⟨h.uuids.trans h'.uuids, ?_⟩
  intro z hz
  rcases h'.stored z hz with ⟨y, hy, hguid, hname, htype⟩ | ⟨i, hle, hlt, hi⟩
  · rcases h.stored y hy with ⟨x, hx, hguid', hname', htype'⟩ | ⟨i, hle, hlt, hi⟩
    · exact .inl ⟨x, hx, hguid'.trans hguid, hname'.trans hname, htype'.trans htype⟩
    · exact .inr ⟨i, hle, hlt.trans_le h'.uuids, hguid ▸ hi⟩
  · exact .inr ⟨i, h.uuids.trans hle, hlt, hi⟩

/-- A guid generated once is not generated again. -/
theorem Unused.follows (hids : env.Uuids) (hw : Unused env w) (h : Follows env w w') :
    Unused env w' := by
  intro y hy i hi hid
  rcases h.stored y hy with ⟨x, hx, hguid, -, -⟩ | ⟨j, -, hlt, hj⟩
  · exact hw x hx i (h.uuids.trans hi) (hguid ▸ hid)
  · have hij : i = j := hids.inj i j _ hid hj
    omega

/-- A guid keeps its name and type. -/
theorem Follows.same (hw : Unused env w) (h : Follows env w w') {x y : RouterGroupDB}
    (hx : x ∈ w.stored) (hy : y ∈ w'.stored) (hguid : x.guid = y.guid) :
    y.name = x.name ∧ y.type = x.type := by
  rcases h.stored y hy with ⟨z, hz, hzguid, hname, htype⟩ | ⟨i, hle, -, hi⟩
  · have hzx : z = x := Store.eq_of_guid hz hx (hzguid.trans hguid.symm)
    subst hzx
    exact ⟨hname.symm, htype.symm⟩
  · exact absurd (hguid ▸ hi) (hw x hx i hle)

theorem lock_follows (a : LockAct) (w : Store) : Follows env w (a.apply w) := by
  cases a <;> exact .of_stored le_rfl fun _ hx => hx

end Guids

section Specifications
variable (env : Env) (s : Schema RouterGroupColumn)

/-- What a lookup of the groups with a property answers. -/
inductive Lookup (w : Store) (p : RouterGroupDB → Prop) : Except Err RouterGroup → Prop
  | failed (e : Err) : Lookup w p (.error e)
  | found (x : RouterGroupDB) (hx : x ∈ w.stored) (hp : p x) : Lookup w p (.ok x.toRouterGroup)
  | missing (h : ∀ x ∈ w.stored, ¬p x) : Lookup w p (.ok .zero)

theorem wp_readFirst {q : List (Cond RouterGroupColumn)} {p : RouterGroupDB → Prop} {w : Store}
    (hq : ∀ r ∈ w.table.rows, holdsAll q r = true ↔ p (RouterGroupDB.ofRow r)) :
    wp (handler env s) (readFirst q) w fun r w' => w.Same w' ∧ Lookup w p r := by
  simp only [readFirst, perform_bind, wp_call]
  apply wp_ite
  · intro _
    exact ⟨.refl w, .failed _⟩
  · intro _
    simp only [wp_call, handler]
    rcases w.client_cases env fun w => (.ok (w.first q), w) with ⟨e, h⟩ | h <;> rw [h]
    · exact ⟨w.same_called, .failed e⟩
    · simp only [ofExcept_ok, ret_bind]
      cases hfirst : w.called.first q with
      | none =>
        refine ⟨w.same_called, .missing ?_⟩
        intro x hx hp
        obtain ⟨r, hr, rfl⟩ := Store.mem_stored.mp hx
        exact Store.first_none hfirst r hr ((hq r hr).mpr hp)
      | some x =>
        obtain ⟨r, hr, hhold, rfl⟩ := Store.first_some hfirst
        exact ⟨w.same_called, .found _ (Store.mem_stored.mpr ⟨r, hr, rfl⟩) ((hq r hr).mp hhold)⟩

theorem wp_readRouterGroup (guid : String) (w : Store) :
    wp (handler env s) (readRouterGroup guid) w fun r w' =>
      w.Same w' ∧ Lookup w (fun x => x.guid = guid) r :=
  wp_readFirst env s fun _ hr => Store.holds_guid hr

theorem wp_readRouterGroupByName {name : String} (hname : name ≠ "") (w : Store) :
    wp (handler env s) (readRouterGroupByName name) w fun r w' =>
      w.Same w' ∧ Lookup w (fun x => x.name = name) r :=
  wp_readFirst env s fun _ _ => Store.holds_name hname

theorem wp_readRouterGroups (w : Store) :
    wp (handler env s) readRouterGroups w fun r w' =>
      w.Same w' ∧ ∀ groups, r = .ok groups → groups = w.stored.map RouterGroupDB.toRouterGroup := by
  simp only [readRouterGroups, perform_bind, wp_call]
  apply wp_ite
  · intro _
    exact ⟨.refl w, fun groups h => by cases h⟩
  · intro _
    simp only [wp_call, handler]
    rcases w.client_cases env fun w => (.ok w.stored, w) with ⟨e, h⟩ | h <;> rw [h]
    · exact ⟨w.same_called, fun groups h => by cases h⟩
    · refine ⟨w.same_called, ?_⟩
      intro groups hgroups
      cases hgroups
      rfl

/-- With reads unlocked and no failure, the groups are those stored. -/
theorem run_readRouterGroups_unlocked {w : Store} (hlock : w.readLocked = false)
    (hfault : env.fault w.calls = none) :
    readRouterGroups.run (handler env s) w =
      (.ok (w.stored.map RouterGroupDB.toRouterGroup), w.called) := by
  simp [readRouterGroups, handler, Store.client, hlock, hfault]
  rfl

theorem run_readRouterGroups_refused {w : Store}
    (h : w.readLocked = true ∨ env.fault w.calls ≠ none) :
    ∃ e, (readRouterGroups.run (handler env s) w).1 = .error e := by
  cases hlock : w.readLocked with
  | true => exact ⟨.plain backupError, by simp [readRouterGroups, handler, hlock]⟩
  | false =>
    have hfault := h.resolve_left (by simp [hlock])
    obtain ⟨msg, hmsg⟩ := Option.ne_none_iff_exists'.mp hfault
    refine ⟨.client msg, ?_⟩
    simp [readRouterGroups, handler, Store.client, hlock, hmsg]

/-- With reads unlocked and no failure, a lookup answers what it finds. -/
theorem run_readFirst_unlocked {q : List (Cond RouterGroupColumn)} {w : Store}
    (hlock : w.readLocked = false) (hfault : env.fault w.calls = none) :
    (readFirst q).run (handler env s) w =
      (.ok (((w.first q).map RouterGroupDB.toRouterGroup).getD .zero), w.called) := by
  have hfirst : w.called.first q = w.first q := rfl
  simp only [readFirst, perform_bind, run_call, handler, hlock, Bool.false_eq_true, if_false,
    Store.client, hfault, ofExcept_ok, ret_bind, hfirst]
  cases w.first q <;> rfl

/-- The ways a `SaveRouterGroup` can end. -/
inductive Saved (rg : RouterGroup) (w : Store) : Except Err Unit → Store → Prop
  | failed (e w') (h : w.Same w') : Saved rg w (.error e) w'
  | updated (x w') (hx : x ∈ w.stored) (hguid : x.guid = rg.guid) (hlock : w.writeLocked = false)
      (h : w.Replaces w' (newRouterGroupDB (updateRouterGroup x.toRouterGroup rg))) :
      Saved rg w (.ok ()) w'
  | created (row w') (hnew : ∀ x ∈ w.stored, x.guid ≠ rg.guid) (hlock : w.writeLocked = false)
      (hrow : row = newRouterGroupDB rg ∨
        rg.guid = "" ∧ row = ⟨"", rg.name, rg.type, rg.reservablePorts⟩)
      (h : w.Inserts w' row) : Saved rg w (.ok ()) w'

/-- The ways a `Save` of a row that is not gone can end. -/
inductive Wrote (row : RouterGroupDB) (w : Store) : Except Err Unit → Store → Prop
  | failed (e w') (h : w.Same w') : Wrote row w (.error e) w'
  | replaced (x w') (hx : x ∈ w.stored) (hguid : x.guid = row.guid) (h : w.Replaces w' row) :
      Wrote row w (.ok ()) w'
  | inserted (w') (h : w.Inserts w' row) : Wrote row w (.ok ()) w'

theorem wrote_save {row : RouterGroupDB} {w w₁ : Store} (hsame : w.Same w₁)
    (hkey : row.guid = "" ∨ ∃ x ∈ w.stored, x.guid = row.guid) :
    Wrote row w (handler env s (.save row) w₁).1 (handler env s (.save row) w₁).2 := by
  have hsame₂ : w.Same w₁.called := hsame.trans w₁.same_called
  simp only [handler]
  rcases w₁.client_cases env (Store.save s row) with ⟨e, h⟩ | h <;> rw [h]
  · exact .failed e _ hsame₂
  · rw [← hsame₂.stored] at hkey
    rcases Store.save_cases (s := s) hkey with
      h | ⟨w', h, hrep, x, hx, hguid⟩ | ⟨w', h, hins⟩ <;> rw [h]
    · exact .failed _ _ hsame₂
    · exact .replaced x w' (hsame₂.stored ▸ hx) hguid (hrep.of_same hsame₂)
    · exact .inserted w' (hins.of_same hsame₂)

theorem wp_saveRouterGroup (rg : RouterGroup) (w : Store) :
    wp (handler env s) (saveRouterGroup rg) w (Saved rg w) := by
  simp only [saveRouterGroup, perform_bind, wp_call]
  apply wp_ite
  · intro _
    exact .failed _ _ (.refl w)
  · intro hopen
    have hlock : w.writeLocked = false := eq_false_of_ne_true hopen
    apply wp_bind
    apply wp_mono (wp_readRouterGroup env s rg.guid w)
    rintro r w₁ ⟨hsame, hlookup⟩
    cases hlookup with
    | failed e => exact .failed e w₁ hsame
    | found x hx hguid =>
      dsimp only
      rw [if_pos (show x.toRouterGroup.guid = rg.guid from hguid), perform_bind, wp_call]
      have hrow : (newRouterGroupDB (updateRouterGroup x.toRouterGroup rg)).guid = x.guid := by
        simp [newRouterGroupDB, updateRouterGroup, RouterGroupDB.toRouterGroup]
      have hwrote := wrote_save env s hsame (.inr ⟨x, hx, hrow.symm⟩)
      generalize handler env s (.save _) w₁ = res at hwrote ⊢
      obtain ⟨r, w'⟩ := res
      cases hwrote with
      | failed e w' h => exact .failed e w' h
      | replaced _ w' _ _ h => exact .updated x w' hx hguid hlock h
      | inserted w' h => exact absurd hrow.symm (h.fresh x hx)
    | missing hnone =>
      dsimp only
      by_cases hempty : RouterGroup.zero.guid = rg.guid
      · rw [if_pos hempty, perform_bind, wp_call]
        have hrow : newRouterGroupDB (updateRouterGroup .zero rg) =
            ⟨rg.guid, rg.name, rg.type, rg.reservablePorts⟩ := by
          simp only [newRouterGroupDB, updateRouterGroup, RouterGroup.zero] at hempty ⊢
          aesop
        rw [hrow]
        have hwrote := wrote_save env s hsame
          (.inl (show (RouterGroupDB.mk rg.guid rg.name rg.type rg.reservablePorts).guid = "" from
            hempty.symm))
        generalize handler env s (.save _) w₁ = res at hwrote ⊢
        obtain ⟨r, w'⟩ := res
        cases hwrote with
        | failed e w' h => exact .failed e w' h
        | replaced x w' hx hguid _ => exact absurd hguid (hnone x hx)
        | inserted w' h =>
          refine .created _ w' hnone hlock (.inr ⟨hempty.symm, ?_⟩) h
          rw [← hempty]
          rfl
      · rw [if_neg hempty, perform_bind, wp_call]
        simp only [handler]
        have hsame₂ : w.Same w₁.called := hsame.trans w₁.same_called
        rcases w₁.client_cases env (Store.create s (newRouterGroupDB rg)) with ⟨e, h⟩ | h <;> rw [h]
        · exact .failed e _ hsame₂
        · rcases Store.create_cases (s := s) (newRouterGroupDB rg) w₁.called with h | ⟨w', h, hins⟩ <;>
            rw [h]
          · exact .failed _ _ hsame₂
          · exact .created _ w' hnone hlock (.inl rfl) (hins.of_same hsame₂)

/-- The ways a `DeleteRouterGroup` can end. -/
inductive Deleted (guid : String) (w : Store) : Except Err Unit → Store → Prop
  | failed (e w') (h : w.Same w') : Deleted guid w (.error e) w'
  | removed (w') (hlock : w.writeLocked = false) (h : w.Removes w' guid) :
      Deleted guid w (.ok ()) w'

theorem wp_deleteRouterGroup (guid : String) (w : Store) :
    wp (handler env s) (deleteRouterGroup guid) w (Deleted guid w) := by
  simp only [deleteRouterGroup, perform_bind, wp_call]
  apply wp_ite
  · intro _
    exact .failed _ _ (.refl w)
  · intro hopen
    have hlock : w.writeLocked = false := eq_false_of_ne_true hopen
    apply wp_bind
    apply wp_mono (wp_readRouterGroup env s guid w)
    rintro r w₁ ⟨hsame, -⟩
    cases r with
    | error e => exact .failed e w₁ hsame
    | ok routerGroup =>
      apply wp_ite
      · intro _
        exact .failed _ _ hsame
      · intro _
        rw [perform_bind, wp_call]
        simp only [handler]
        have hsame₂ : w.Same w₁.called := hsame.trans w₁.same_called
        rcases w₁.client_cases env fun w => (.ok (), w.delete [.eq .guid (.text guid)]) with
          ⟨e, h⟩ | h <;> rw [h]
        · exact .failed e _ hsame₂
        · exact .removed _ hlock ((w₁.called.delete_removes guid).of_same hsame₂)

end Specifications
end RoutingApi.Groups
