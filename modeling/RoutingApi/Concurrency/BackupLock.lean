import RoutingApi.Database.RouterGroups
import RoutingApi.Migration.Migrations

/-! The write lock of a backup among concurrent saves and deletes of router groups. The lock
is a flag that each call tests once, before it reads the group and writes it. -/
namespace RoutingApi.Groups
open Relational Models Process Program Migrations
open Database (Err Env)

inductive Job where
  | save (routerGroup : RouterGroup)
  | delete (guid : String)
  deriving DecidableEq, Repr

def Job.program : Job → GroupDB Unit
  | .save routerGroup => saveRouterGroup routerGroup
  | .delete guid => deleteRouterGroup guid

/-- What a call does once it has found the lock open. -/
def Job.unchecked : Job → GroupDB Unit
  | .save routerGroup => writeRouterGroup routerGroup
  | .delete guid => removeRouterGroup guid

section Statements
variable {ι : Type} [DecidableEq ι]

def calls (w : Store) (jobs : ι → Job) : Pool Call Call.Resp Err Unit Store ι :=
  ⟨w, fun i => (jobs i).program⟩

abbrev move (env : Env) (s : Schema RouterGroupColumn)
    (P : Pool Call Call.Resp Err Unit Store ι) (m : Move LockAct ι) :
    Pool Call Call.Resp Err Unit Store ι :=
  P.move (handler env s) LockAct.apply m

/-- A move made while writes are locked leaves the table as it is. -/
def Frozen (env : Env) (s : Schema RouterGroupColumn)
    (P : Pool Call Call.Resp Err Unit Store ι) (m : Move LockAct ι) : Prop :=
  P.world.writeLocked = true → (move env s P m).world.table = P.world.table

/-- A call that has not begun, or has ended. -/
def Idle (job : Job) (p : GroupDB Unit) : Prop := p = job.program ∨ p.Finished

/-- Writes are locked only at moments at which no call is under way. -/
def Drained (jobs : ι → Job) (P : Pool Call Call.Resp Err Unit Store ι) : Move LockAct ι → Prop
  | .env .lockWrites => ∀ i, Idle (jobs i) (P.threads i)
  | _ => True

end Statements

section Proofs
variable {env : Env} {s : Schema RouterGroupColumn} {w : Store}

theorem Job.program_eq (job : Job) :
    job.program = .call .isWriteLocked fun locked =>
      if locked = true then .fail (.plain Database.backupError) else job.unchecked := by
  cases job <;> rfl

theorem client_writeLocked {α : Type} {f : Store → Except Err α × Store}
    (hf : ∀ w, (f w).2.writeLocked = w.writeLocked) :
    (w.client env f).2.writeLocked = w.writeLocked := by
  rcases w.client_cases env f with ⟨e, h⟩ | h
  · rw [h]
    rfl
  · rw [h, hf]
    rfl

theorem create_writeLocked (rg : RouterGroupDB) (w : Store) :
    (w.create s rg).2.writeLocked = w.writeLocked := by
  unfold Store.create
  split <;> rfl

theorem update_writeLocked (row : Row RouterGroupColumn) (w : Store) :
    (w.update s row).2.writeLocked = w.writeLocked := by
  unfold Store.update
  split <;> rfl

theorem save_writeLocked (rg : RouterGroupDB) (w : Store) :
    (w.save s rg).2.writeLocked = w.writeLocked := by
  unfold Store.save
  split
  · exact create_writeLocked rg w
  split
  · exact update_writeLocked _ w
  split
  · exact update_writeLocked _ w
  · exact create_writeLocked rg w

/-- No database call touches the lock. -/
theorem handler_writeLocked (c : Call) (w : Store) :
    (handler env s c w).2.writeLocked = w.writeLocked := by
  cases c with
  | isReadLocked => rfl
  | isWriteLocked => rfl
  | find => exact client_writeLocked fun _ => rfl
  | first q => exact client_writeLocked fun _ => rfl
  | create rg => exact client_writeLocked (create_writeLocked rg)
  | save rg => exact client_writeLocked (save_writeLocked rg)
  | delete q => exact client_writeLocked fun _ => rfl
  | newV4 => rfl

theorem advance_writeLocked (p : GroupDB Unit) (w : Store) :
    (p.advance (handler env s) w).2.writeLocked = w.writeLocked := by
  cases p with
  | ret a => rfl
  | fail e => rfl
  | call c next => exact handler_writeLocked c w

/-- Under the lock an idle call does nothing, and it is idle afterwards. -/
theorem Idle.advance {job : Job} {p : GroupDB Unit} (hp : Idle job p)
    (hlock : w.writeLocked = true) :
    Idle job (p.advance (handler env s) w).1 ∧ (p.advance (handler env s) w).2 = w := by
  rcases hp with rfl | hp
  · rw [job.program_eq, advance_call]
    simp only [handler, hlock, if_true]
    exact ⟨.inr rfl, trivial⟩
  · cases p with
    | ret a => exact ⟨.inr hp, rfl⟩
    | fail e => exact ⟨.inr hp, rfl⟩
    | call c next => cases hp

variable {ι : Type} [DecidableEq ι] {jobs : ι → Job}

/-- While writes are locked no call is under way. -/
def Quiet (jobs : ι → Job) (P : Pool Call Call.Resp Err Unit Store ι) : Prop :=
  P.world.writeLocked = true → ∀ i, Idle (jobs i) (P.threads i)

theorem Quiet.move {P : Pool Call Call.Resp Err Unit Store ι} {m : Move LockAct ι}
    (hP : Quiet jobs P) (hm : Drained jobs P m) : Quiet jobs (move env s P m) := by
  intro hlock
  cases m with
  | env a =>
    cases a with
    | lockReads => exact hP hlock
    | unlockReads => exact hP hlock
    | lockWrites => exact hm
    | unlockWrites => cases hlock
  | step i =>
    have hbefore : P.world.writeLocked = true :=
      (advance_writeLocked (P.threads i) P.world).symm.trans hlock
    intro j
    by_cases hj : j = i
    · subst hj
      simp only [Pool.move, Function.update_self]
      exact ((hP hbefore j).advance hbefore).1
    · simp only [Pool.move, Function.update_of_ne hj]
      exact hP hbefore j

theorem Quiet.frozen {P : Pool Call Call.Resp Err Unit Store ι} (m : Move LockAct ι)
    (hP : Quiet jobs P) : Frozen env s P m := by
  intro hlock
  cases m with
  | env a => cases a <;> rfl
  | step i => exact congrArg Store.table ((hP hlock i).advance hlock).2

/-- In every run that locks writes only when no call is under way, the table does not change
while writes are locked. -/
theorem locked_table_frozen (env : Env) (s : Schema RouterGroupColumn) (jobs : ι → Job)
    (w : Store) (ms : List (Move LockAct ι))
    (h : Meets (move env s) (Drained jobs) (calls w jobs) ms) :
    Meets (move env s) (Frozen env s) (calls w jobs) ms :=
  meets_of_meets (I := Quiet jobs) (fun _ _ hP hm => hP.move hm) (fun _ m hP _ => hP.frozen m)
    (fun _ _ => .inl rfl) h

end Proofs

section Runs

def tcpGroupA : RouterGroup := ⟨"", "guid-a", "a", "tcp", "1024-1123"⟩

def tcpGroupB : RouterGroup := ⟨"", "guid-b", "b", "tcp", "2024-2123"⟩

/-- The first save ends before the lock, the second begins after it. -/
theorem locked_between_saves :
    Meets (move .quiet (routerGroupSchema .mysql)) (Frozen .quiet (routerGroupSchema .mysql))
      (calls .empty fun second : Bool => Job.save (if second then tcpGroupB else tcpGroupA))
      [.step false, .step false, .step false, .step false, .env .lockWrites, .step true,
        .step true] := by
  apply locked_table_frozen
  simp only [Meets, Drained, true_and, and_true]
  intro second
  cases second with
  | false =>
    right
    decide +kernel
  | true => exact .inl rfl

/-- The save tests the flag, writes are locked, and the save goes on to write. -/
theorem save_under_lock :
    ¬Meets (move .quiet (routerGroupSchema .mysql)) (Frozen .quiet (routerGroupSchema .mysql))
      (calls .empty fun _ : Unit => Job.save tcpGroupA)
      [.step (), .step (), .step (), .env .lockWrites, .step ()] := by
  intro h
  have htable := h.2.2.2.2.1 rfl
  have hrows := congrArg (fun t => t.rows.length) htable
  revert hrows
  decide +kernel

end Runs
end RoutingApi.Groups
