import RoutingApi.Models.TcpRoute
import RoutingApi.Models.RouterGroup
import RoutingApi.Process.Program

/-! The interface `SqlDB` is written against: the calls of `Client`, the event hub,
the clock and the uuid generator, with gorm's meaning of each call on a table. -/
namespace RoutingApi.Database
open Relational Gorm Models Process

inductive Err where
  | client (msg : String)
  | plain (msg : String)
  | db (type message : String)
  | nilDereference
  deriving DecidableEq, Repr

def Err.message : Err → String
  | .client msg => msg
  | .plain msg => msg
  | .db _ message => message
  | .nilDereference => "runtime error: invalid memory address or nil pointer dereference"

/-- Go returns errors, but a nil dereference panics. -/
def Err.recoverable : Err → Bool
  | .nilDereference => false
  | _ => true

inductive EventType where
  | invalid | create | delete | expire | update
  deriving DecidableEq, Repr

/-- `EventType.String`, the name under which a subscriber sees the event. -/
def EventType.string : EventType → String
  | .create => "Upsert"
  | .update => "Upsert"
  | .delete => "Delete"
  | .expire => "Delete"
  | .invalid => "Invalid"

/-- An event with the row it was made from; on the wire it is the JSON of that row. -/
structure Event (E : Type) where
  type : EventType
  value : E
  deriving DecidableEq, Repr

/-- Everything in which HTTP routes and TCP route mappings differ as far as
`SqlDB` is concerned, with the facts about it that the operations rely on. -/
structure Kind (E C κ : Type) where
  model : Model E C
  pk : C
  expiry : C
  guid : E → String
  expiresAt : E → ℤ
  tag : E → ModificationTag
  key : E → κ
  entity : E → E
  keyColumns : List C
  lookup : E → List (Cond C)
  duplicates : String
  withModel : String → ℤ → E → Option E
  setTag : ModificationTag → E → E
  update : ℤ → E → E → Option E
  ofRow_toRow : ∀ e, model.ofRow (model.toRow e) = e
  toRow_pk : ∀ e, model.toRow e pk = .text (guid e)
  toRow_expiry : ∀ e, model.toRow e expiry = .time (expiresAt e)
  primary_pk : model.isPrimary pk = true
  primary_expiry : model.isPrimary expiry = false
  omits_pk : model.omitsZero pk = false
  omits_expiry : model.omitsZero expiry = false
  guid_ofRow : ∀ x, guid (model.ofRow x) = textOf (x pk)
  expiresAt_ofRow : ∀ x, expiresAt (model.ofRow x) = timeOf (x expiry)
  key_of_lookup : ∀ m x, holdsAll (lookup m) x = true → key (model.ofRow x) = key m
  lookup_congr : ∀ m n, key m = key n → lookup m = lookup n
  holds_lookup : ∀ m x, holdsAll (lookup m) x = true ↔ ∀ c ∈ keyColumns, x c = model.toRow m c
  key_ofRow : ∀ x y, (∀ c ∈ keyColumns, x c = y c) → key (model.ofRow x) = key (model.ofRow y)
  entity_key : ∀ e, key (entity e) = key e
  entity_tag : ∀ e, tag (entity e) = tag e
  guid_zero : guid model.zero = ""
  withModel_guid : ∀ g t m e, withModel g t m = some e → guid e = g
  withModel_key : ∀ g t m e, withModel g t m = some e → key e = key m
  setTag_guid : ∀ t e, guid (setTag t e) = guid e
  setTag_key : ∀ t e, key (setTag t e) = key e
  setTag_tag : ∀ t e, tag (setTag t e) = t
  update_guid : ∀ t x m e, update t x m = some e → guid e = guid x
  update_key : ∀ t x m e, update t x m = some e → key e = key x
  update_tag : ∀ t x m e, update t x m = some e → tag e = (tag x).increment

inductive Call (E C : Type) where
  | find (q : List (Cond C))
  | create (e : E)
  | save (e : E)
  | delete (e : E)
  | deleteIn (guids : List String)
  | emit (ev : Event E)
  | newV4
  | now
  | isReadLocked
  | findRouterGroups

abbrev Call.Resp {E C : Type} : Call E C → Type
  | .find _ => Except Err (List E)
  | .create _ => Except Err Unit
  | .save _ => Except Err Unit
  | .delete _ => Except Err Unit
  | .deleteIn _ => Except Err Unit
  | .emit _ => Unit
  | .newV4 => Except Err String
  | .now => ℤ
  | .isReadLocked => Bool
  | .findRouterGroups => Except Err (List RouterGroupDB)

/-- What the world outside decides: the uuids drawn, which `Client` calls fail, and
the router groups and read lock that a call finds. -/
structure Env where
  newV4 : ℕ → Except String String
  fault : ℕ → Option String
  routerGroups : ℕ → List RouterGroupDB
  readLocked : ℕ → Bool

/-- Generated uuids are not empty and never repeat. -/
structure Env.Uuids (env : Env) : Prop where
  nonempty : ∀ i u, env.newV4 i = .ok u → u ≠ ""
  inj : ∀ i j u, env.newV4 i = .ok u → env.newV4 j = .ok u → i = j

/-- No `Client` call fails. -/
def Env.Faultless (env : Env) : Prop := ∀ n, env.fault n = none

/-- An environment to evaluate runs in: no call fails and the uuids are `u`, `uu`, and so on. -/
def Env.quiet : Env where
  newV4 i := .ok (String.ofList (List.replicate (i + 1) 'u'))
  fault _ := none
  routerGroups _ := []
  readLocked _ := false

theorem Env.quiet_faultless : Env.quiet.Faultless := fun _ => rfl

theorem Env.quiet_uuids : Env.quiet.Uuids where
  nonempty i u h := by
    cases h
    intro h
    have hlen := congrArg String.length h
    simp at hlen
  inj i j u hi hj := by
    cases hi
    have hlen := congrArg String.length (Except.ok.inj hj)
    simpa using hlen.symm

/-- A row write that committed. -/
inductive Write (C : Type) where
  | insert (r : Row C)
  | update (r : Row C)
  | remove (r : Row C)

section World
variable {E C κ : Type} (K : Kind E C κ)

/-- A struct written in full is found under its key. -/
theorem Kind.lookup_toRow (m e : E) (h : K.key e = K.key m) :
    holdsAll (K.lookup m) (K.model.toRow e) = true := by
  rw [← K.lookup_congr e m h, K.holds_lookup]
  exact fun _ _ => rfl

/-- The guid and the expiry of a stored row are never NULL. -/
def Kind.Typed (x : Row C) : Prop := (∃ g, x K.pk = .text g) ∧ ∃ t, x K.expiry = .time t

variable {K} in
theorem Kind.Typed.pk {x : Row C} (h : K.Typed x) :
    x K.pk = .text (K.guid (K.model.ofRow x)) := by
  obtain ⟨⟨g, hg⟩, -⟩ := h
  rw [K.guid_ofRow, hg]
  rfl

variable {K} in
theorem Kind.Typed.expiry {x : Row C} (h : K.Typed x) :
    x K.expiry = .time (K.expiresAt (K.model.ofRow x)) := by
  obtain ⟨-, t, ht⟩ := h
  rw [K.expiresAt_ofRow, ht]
  rfl

theorem Kind.typed_toRow (e : E) : K.Typed (K.model.toRow e) :=
  ⟨⟨_, K.toRow_pk e⟩, _, K.toRow_expiry e⟩

@[simp] theorem Kind.insertRow_pk (s : Schema C) (e : E) :
    K.model.insertRow s e K.pk = .text (K.guid e) := by
  rw [K.model.insertRow_of_ne (by simp [K.omits_pk]), K.toRow_pk]

@[simp] theorem Kind.insertRow_expiry (s : Schema C) (e : E) :
    K.model.insertRow s e K.expiry = .time (K.expiresAt e) := by
  rw [K.model.insertRow_of_ne (by simp [K.omits_expiry]), K.toRow_expiry]

theorem Kind.typed_insertRow (s : Schema C) (e : E) : K.Typed (K.model.insertRow s e) :=
  ⟨⟨_, K.insertRow_pk s e⟩, _, K.insertRow_expiry s e⟩

@[simp] theorem Kind.overwriteRow_pk (e : E) (x : Row C) :
    K.model.overwriteRow e x K.pk = x K.pk :=
  K.model.overwriteRow_primary K.primary_pk

@[simp] theorem Kind.overwriteRow_expiry (e : E) (x : Row C) :
    K.model.overwriteRow e x K.expiry = .time (K.expiresAt e) := by
  rw [K.model.overwriteRow_of_ne K.primary_expiry (by simp [K.omits_expiry]), K.toRow_expiry]

variable {K} in
theorem Kind.new_guid {g : String} {now : ℤ} {m e : E} (h : K.withModel g now m = some e)
    (t : ModificationTag) : K.guid (K.setTag t e) = g :=
  (K.setTag_guid t e).trans (K.withModel_guid g now m e h)

variable {K} in
theorem Kind.new_key {g : String} {now : ℤ} {m e : E} (h : K.withModel g now m = some e)
    (t : ModificationTag) : K.key (K.setTag t e) = K.key m :=
  (K.setTag_key t e).trans (K.withModel_key g now m e h)

/-- One table, the events emitted on its hub and the writes that committed, both
oldest first, the clock, and how many uuids and `Client` calls have been used. -/
structure World where
  table : Table K.pk
  typed : ∀ r ∈ table.rows, K.Typed r
  log : List (Event E)
  writes : List (Write C)
  now : ℤ
  uuids : ℕ
  calls : ℕ

def World.initial : World K := ⟨.empty, by simp, [], [], 0, 0, 0⟩

variable {K}

/-- The structs that reading the whole table gives. -/
def World.stored (w : World K) : List E := w.table.rows.map K.model.ofRow

def World.tick (d : ℕ) (w : World K) : World K := { w with now := w.now + d }

def World.called (w : World K) : World K := { w with calls := w.calls + 1 }

def World.drawn (w : World K) : World K := { w with uuids := w.uuids + 1 }

def World.emitted (ev : Event E) (w : World K) : World K := { w with log := w.log ++ [ev] }

/-- INSERT of the row of a struct, unless a constraint refuses it. -/
def World.insert (s : Schema C) (e : E) (w : World K) : Option (World K) :=
  match h : w.table.insert s.indexes (K.model.insertRow s e) with
  | none => none
  | some t => some { w with
      table := t
      typed := by
        intro r hr
        rw [(Table.insert_some h).1, List.mem_append, List.mem_singleton] at hr
        rcases hr with hr | rfl
        · exact w.typed r hr
        · exact K.typed_insertRow s e
      writes := w.writes ++ [.insert (K.model.insertRow s e)] }

/-- UPDATE of every column of the row with the guid of a struct. -/
def World.update (s : Schema C) (e : E) (w : World K) : Option (World K) :=
  match h : w.table.update s.indexes (K.model.toRow e) with
  | none => none
  | some t => some { w with
      table := t
      typed := by
        intro r hr
        rw [Table.update_some h] at hr
        rcases hr with ⟨hr, -⟩ | ⟨rfl, -⟩
        · exact w.typed r hr
        · exact K.typed_toRow e
      writes := w.writes ++ [.update (K.model.toRow e)] }

/-- INSERT of a struct that finds the row `x` in its way, which is overwritten instead. -/
def World.overwrite (s : Schema C) (e : E) (x : Row C) (w : World K) : Option (World K) :=
  match h : w.table.update s.indexes (K.model.overwriteRow e x) with
  | none => none
  | some t => some { w with
      table := t
      typed := by
        intro r hr
        rw [Table.update_some h, K.overwriteRow_pk] at hr
        rcases hr with ⟨hr, -⟩ | ⟨rfl, y, hy, hpk⟩
        · exact w.typed r hr
        · obtain ⟨g, hg⟩ := (w.typed y hy).1
          exact ⟨⟨g, (K.overwriteRow_pk e x).trans (hpk.symm.trans hg)⟩, _,
            K.overwriteRow_expiry e x⟩
      writes := w.writes ++ [.update (K.model.overwriteRow e x)] }

/-- DELETE of the rows that satisfy a condition on their guid. -/
def World.remove (p : String → Bool) (w : World K) : World K :=
  let q : Row C → Bool := fun r => p (K.guid (K.model.ofRow r))
  { w with
    table := w.table.remove q
    typed := fun r hr => w.typed r (Table.mem_remove.mp hr).1
    writes := w.writes ++ (w.table.rows.filter q).map .remove }

def constraintError : Err := .client "duplicate key value violates unique constraint"

/-- `gorm.ErrMissingWhereClause`. -/
def missingWhere : Err := .client "WHERE conditions required"

def World.create (s : Schema C) (e : E) (w : World K) : Except Err Unit × World K :=
  match w.insert s e with
  | some w' => (.ok (), w')
  | none => (.error constraintError, w)

/-- The row in the way of an INSERT with `OnConflict{UpdateAll: true}`. -/
def World.conflict (s : Schema C) (e : E) (w : World K) : Option (Row C) :=
  s.conflict w.table.rows (K.model.insertRow s e)

/-- `Save` updates the row with the struct's primary key. If there is no such row it inserts one,
and on a conflict overwrites the row in the way; a zero primary key goes straight to `Create`. -/
def World.save (s : Schema C) (e : E) (w : World K) : Except Err Unit × World K :=
  let written : Option (World K) :=
    if K.guid e = "" then w.insert s e
    else if w.table.Stores (.text (K.guid e)) then w.update s e
    else match w.conflict s e with
      | some x => w.overwrite s e x
      | none => w.insert s e
  match written with
  | some w' => (.ok (), w')
  | none => (.error constraintError, w)

def World.delete (e : E) (w : World K) : Except Err Unit × World K :=
  if K.guid e = "" then (.error missingWhere, w)
  else (.ok (), w.remove fun g => decide (g = K.guid e))

/-- A `Client` call either fails and changes nothing, or has its effect. -/
def World.client {α : Type} (env : Env) (w : World K)
    (f : World K → Except Err α × World K) : Except Err α × World K :=
  match env.fault w.calls with
  | some msg => (.error (.client msg), w.called)
  | none => f w.called

def handler (env : Env) (s : Schema C) : Handler (Call E C) Call.Resp (World K)
  | .find q, w => w.client env fun w => (.ok ((w.table.select q).map K.model.ofRow), w)
  | .create e, w => w.client env (World.create s e)
  | .save e, w => w.client env (World.save s e)
  | .delete e, w => w.client env (World.delete e)
  | .deleteIn guids, w => w.client env fun w => (.ok (), w.remove fun g => decide (g ∈ guids))
  | .emit ev, w => ((), w.emitted ev)
  | .newV4, w => ((env.newV4 w.uuids).mapError .client, w.drawn)
  | .now, w => (w.now, w)
  | .isReadLocked, w => (env.readLocked w.calls, w)
  | .findRouterGroups, w => w.client env fun w => (.ok (env.routerGroups w.calls), w)

end World

/-- `SqlDB` code: programs over the calls above. -/
abbrev DB (E C α : Type) := Program (Call E C) Call.Resp Err α

end RoutingApi.Database
