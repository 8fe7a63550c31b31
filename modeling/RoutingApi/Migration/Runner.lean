import RoutingApi.Migration.Migrations
import RoutingApi.Process.Wp

/-! `RunMigrations` call by call, for any migrations and with every call free to fail, over
any number of restarts. A journal records each `Run` and each version that got stored. -/
namespace RoutingApi.Migrations.Runner
open Process Program

section Model
variable {D : Type}

/-- The interface `Migration`. A `Run` that fails may have changed the database. -/
structure Migration (D : Type) where
  version : ℤ
  run : D → Except String Unit × D

structure MigrationData where
  currentVersion : ℤ
  targetVersion : ℤ
  deriving DecidableEq, Repr

inductive Err where
  | recordNotFound
  | failed (msg : String)
  | nilDereference
  deriving DecidableEq, Repr

/-- The calls on the client, and those on the transaction that `Begin` returned. -/
inductive Call (D : Type) where
  | autoMigrate
  | begin
  | first
  | txCreate (d : MigrationData)
  | txSave (d : MigrationData)
  | rollback
  | commit
  | run (m : Migration D)
  | save (d : MigrationData)

abbrev Call.Resp : Call D → Type
  | .begin => Unit
  | .first => Except Err MigrationData
  | _ => Except Err Unit

/-- A call that reports an error, with or without having taken effect. -/
structure Fault where
  msg : String
  applied : Bool

inductive Entry where
  | ran (version : ℤ) (succeeded : Bool)
  | stored (version : ℤ)
  deriving DecidableEq, Repr

/-- What `Begin` returned; a failed `Begin` is a client whose every call fails. -/
inductive Tx where
  | closed
  | opened (pending : Option MigrationData)
  | broken (msg : String)
  deriving DecidableEq, Repr

/-- The row of `MigrationKey`, the transaction, and everything else that is in the database. -/
structure World (D : Type) where
  row : Option MigrationData
  tx : Tx
  data : D
  log : List Entry
  calls : ℕ

namespace World

/-- A database in which no version is stored counts as being at -1. -/
def version (w : World D) : ℤ := w.row.elim (-1) MigrationData.currentVersion

def called (w : World D) : World D := { w with calls := w.calls + 1 }

/-- The row becomes `row`; the journal records the version in it. -/
def store (row : Option MigrationData) (w : World D) : World D :=
  { w with row := row, log := w.log ++ [.stored (row.elim (-1) MigrationData.currentVersion)] }

def start (row : Option MigrationData) (data : D) : World D := ⟨row, .closed, data, [], 0⟩

end World

/-- The effect of a call and its answer, or the error and perhaps the effect. -/
def faulty (fault : ℕ → Option Fault) (effect : World D → World D) (w : World D) :
    Except Err Unit × World D :=
  match fault w.calls with
  | none => (.ok (), effect w.called)
  | some f => (.error (.failed f.msg), if f.applied then effect w.called else w.called)

/-- A write in the transaction. -/
def World.write (d : MigrationData) (w : World D) : World D := { w with tx := .opened (some d) }

/-- The writes of the transaction take effect. -/
def World.committed (w : World D) : World D :=
  match w.tx with
  | .opened pending => w.store pending
  | _ => w

def World.ran (m : Migration D) (w : World D) : World D :=
  { w with data := (m.run w.data).2 }

def World.noted (v : ℤ) (succeeded : Bool) (w : World D) : World D :=
  { w with log := w.log ++ [.ran v succeeded] }

def handler (fault : ℕ → Option Fault) : Handler (Call D) Call.Resp (World D)
  | .autoMigrate, w => faulty fault id w
  | .begin, w =>
    match fault w.calls with
    | none => ((), { w.called with tx := .opened w.row })
    | some f => ((), { w.called with tx := .broken f.msg })
  | .first, w =>
    match w.tx, fault w.calls with
    | .broken msg, _ => (.error (.failed msg), w.called)
    | _, some f => (.error (.failed f.msg), w.called)
    | .opened (some d), none => (.ok d, w.called)
    | _, none => (.error .recordNotFound, w.called)
  | .txCreate d, w => faulty fault (World.write d) w
  | .txSave d, w => faulty fault (World.write d) w
  | .rollback, w => faulty fault id { w with tx := .closed }
  | .commit, w =>
    let r := faulty fault World.committed w
    (r.1, { r.2 with tx := .closed })
  | .run m, w =>
    let r := faulty fault (World.ran m) w
    match r.1, (m.run w.data).1 with
    | .ok (), .ok () => (.ok (), r.2.noted m.version true)
    | .ok (), .error msg => (.error (.failed msg), r.2.noted m.version false)
    | .error e, _ => (.error e, r.2.noted m.version false)
  | .save d, w => faulty fault (World.store (some d)) w

abbrev Prog (D α : Type) := Program (Call D) Call.Resp Err α

/-- The loop over the migrations; the copy of the row in memory changes before it is saved. -/
def iterate (existingVersion : MigrationData) : List (Option (Migration D)) → ℤ → Prog D Unit
  | [], _ => pure ()
  | none :: ms, currentVersion => iterate existingVersion ms currentVersion
  | some m :: ms, currentVersion =>
    if m.version > currentVersion then do
      ofExcept (← perform (.run m))
      let existingVersion := { existingVersion with currentVersion := m.version }
      ofExcept (← perform (.save existingVersion))
      iterate existingVersion ms m.version
    else iterate existingVersion ms currentVersion

/-- From the answer to the `Create` or `Save` in the transaction to the end. -/
def proceed (migrations : List (Option (Migration D))) (existingVersion : MigrationData) :
    Except Err Unit → Prog D Unit
  | .error err => do
    let _ ← perform Call.rollback
    .fail err
  | .ok () => do
    ofExcept (← perform .commit)
    iterate existingVersion migrations existingVersion.currentVersion

def runMigrations (migrations : List (Option (Migration D))) : Prog D Unit :=
  match migrations.getLast? with
  | none => pure ()
  | some none => .fail .nilDereference
  | some (some last) => do
    let lastMigrationVersion := last.version
    ofExcept (← perform .autoMigrate)
    perform Call.begin
    match ← perform Call.first with
    | .error .recordNotFound =>
      let existingVersion := ⟨-1, lastMigrationVersion⟩
      proceed migrations existingVersion (← perform (Call.txCreate existingVersion))
    | .error err =>
      let _ ← perform Call.rollback
      .fail err
    | .ok existingVersion =>
      if existingVersion.currentVersion ≥ lastMigrationVersion then
        ofExcept (← perform .commit)
      else
        let existingVersion := { existingVersion with targetVersion := lastMigrationVersion }
        proceed migrations existingVersion (← perform (Call.txSave existingVersion))

end Model

section Ledger
variable {D : Type}

/-- What the journal has to hold before an entry: a migration runs after all those between
the version at the outset and it, and above every version that is stored. -/
def Justified (ms : List (Migration D)) (outset : ℤ) (before : List Entry) : Entry → Prop
  | .ran v _ => outset < v ∧ (∀ u, .stored u ∈ before → u < v) ∧
      ∀ m ∈ ms, outset < m.version → m.version < v → .ran m.version true ∈ before
  | .stored v => outset ≤ v ∧ ∀ u, .stored u ∈ before → u ≤ v

/-- The stored version is the highest ever stored, and what lies below it has been run. -/
structure Ledger (ms : List (Migration D)) (outset : ℤ) (w : World D) : Prop where
  grounded : Grounded (Justified ms outset) w.log
  outset_le : outset ≤ w.version
  stored_le : ∀ u, .stored u ∈ w.log → u ≤ w.version
  run : ∀ m ∈ ms, outset < m.version → m.version ≤ w.version → .ran m.version true ∈ w.log

variable {ms : List (Migration D)} {outset : ℤ} {w w' : World D}

theorem ledger_start (row : Option MigrationData) (data : D) :
    Ledger ms (World.start row data).version (World.start row data) where
  grounded := grounded_nil
  outset_le := le_rfl
  stored_le u hu := by simp [World.start] at hu
  run m _ hlt hle := by omega

namespace Ledger

theorem congr (h : Ledger ms outset w) (hrow : w'.row = w.row) (hlog : w'.log = w.log) :
    Ledger ms outset w' := by
  have hv : w'.version = w.version := by simp only [World.version, hrow]
  exact ⟨hlog ▸ h.grounded, hv ▸ h.outset_le, hlog ▸ hv ▸ h.stored_le, hlog ▸ hv ▸ h.run⟩

/-- A run of the next migration that is not yet stored. -/
theorem noted (h : Ledger ms outset w) {v : ℤ} (hv : w.version < v)
    (hnext : ∀ m ∈ ms, m.version < v → m.version ≤ w.version) (succeeded : Bool)
    (hrow : w'.row = w.row) (hlog : w'.log = w.log ++ [.ran v succeeded]) :
    Ledger ms outset w' := by
  have hversion : w'.version = w.version := by simp only [World.version, hrow]
  have hout := h.outset_le
  refine ⟨?_, ?_, ?_, ?_⟩
  · rw [hlog]
    apply h.grounded.concat
    refine ⟨by omega, ?_, ?_⟩
    · intro u hu
      have := h.stored_le u hu
      omega
    · intro m hm hlow hlt
      exact h.run m hm hlow (hnext m hm hlt)
  · omega
  · intro u hu
    have hu : Entry.stored u ∈ w.log := by simpa [hlog] using hu
    have := h.stored_le u hu
    omega
  · intro m hm hlow hle
    rw [hlog]
    exact List.mem_append_left _ (h.run m hm hlow (by omega))

/-- A stored version below which everything has been run. -/
theorem stored (h : Ledger ms outset w) (hle : w.version ≤ w'.version)
    (hrun : ∀ m ∈ ms, w.version < m.version → m.version ≤ w'.version →
      .ran m.version true ∈ w.log)
    (hlog : w'.log = w.log ++ [.stored w'.version]) : Ledger ms outset w' := by
  have hout := h.outset_le
  refine ⟨?_, ?_, ?_, ?_⟩
  · rw [hlog]
    apply h.grounded.concat
    refine ⟨by omega, ?_⟩
    intro u hu
    have := h.stored_le u hu
    omega
  · omega
  · intro u hu
    rw [hlog, List.mem_append, List.mem_singleton, Entry.stored.injEq] at hu
    rcases hu with hu | rfl
    · have := h.stored_le u hu
      omega
    · exact le_rfl
  · intro m hm hlow hmv
    rw [hlog]
    apply List.mem_append_left
    by_cases hw : m.version ≤ w.version
    · exact h.run m hm hlow hw
    · exact hrun m hm (by omega) hmv

end Ledger
end Ledger

section Calls
variable {D : Type} {ms : List (Migration D)} {outset : ℤ} (fault : ℕ → Option Fault)

/-- The migrations that a stretch of the journal has run, with their outcome. -/
def runs (l : List Entry) : List (ℤ × Bool) := l.filterMap fun
  | .ran v succeeded => some (v, succeeded)
  | .stored _ => none

@[simp] theorem runs_nil : runs [] = [] := rfl

@[simp] theorem runs_ran (v : ℤ) (b : Bool) (l : List Entry) :
    runs (.ran v b :: l) = (v, b) :: runs l := rfl

@[simp] theorem runs_stored (v : ℤ) (l : List Entry) : runs (.stored v :: l) = runs l := rfl

/-- A call has its effect, or it reports an error and may still have had it. -/
theorem faulty_cases (effect : World D → World D) (w : World D) :
    faulty fault effect w = (.ok (), effect w.called) ∨
      ∃ msg, faulty fault effect w = (.error (.failed msg), effect w.called) ∨
        faulty fault effect w = (.error (.failed msg), w.called) := by
  unfold faulty
  cases fault w.calls with
  | none => exact .inl rfl
  | some f =>
    right
    refine ⟨f.msg, ?_⟩
    by_cases hf : f.applied = true
    · simp [hf]
    · simp [hf]

/-- A `Run` leaves the row alone and is recorded with its outcome. -/
theorem handler_run (m : Migration D) (w : World D) : ∃ r w' b,
    handler fault (.run m) w = (r, w') ∧ w'.row = w.row ∧ w'.log = w.log ++ [.ran m.version b] ∧
      (r = .ok () ∧ b = true ∨ ∃ e, r = .error e) := by
  have hkeeps : (faulty fault (World.ran m) w).2.row = w.row ∧
      (faulty fault (World.ran m) w).2.log = w.log := by
    rcases faulty_cases fault (World.ran m) w with h | ⟨msg, h | h⟩ <;> rw [h] <;> exact ⟨rfl, rfl⟩
  simp only [handler]
  split
  · exact ⟨_, _, true, rfl, hkeeps.1, by simp [World.noted, hkeeps.2], .inl ⟨rfl, rfl⟩⟩
  · exact ⟨_, _, false, rfl, hkeeps.1, by simp [World.noted, hkeeps.2], .inr ⟨_, rfl⟩⟩
  · exact ⟨_, _, false, rfl, hkeeps.1, by simp [World.noted, hkeeps.2], .inr ⟨_, rfl⟩⟩

/-- `w'` is `w` with another row stored. -/
structure World.Stores (d : MigrationData) (w w' : World D) : Prop where
  row : w'.row = some d
  log : w'.log = w.log ++ [.stored d.currentVersion]

theorem World.Stores.version {d : MigrationData} {w w' : World D} (h : w.Stores d w') :
    w'.version = d.currentVersion := by
  simp [World.version, h.row]

theorem Ledger.stores {d : MigrationData} {w w' : World D} (h : Ledger ms outset w)
    (hs : w.Stores d w') (hle : w.version ≤ d.currentVersion)
    (hrun : ∀ m ∈ ms, w.version < m.version → m.version ≤ d.currentVersion →
      .ran m.version true ∈ w.log) : Ledger ms outset w' := by
  rw [← hs.version] at hle hrun
  exact h.stored hle hrun (hs.version.symm ▸ hs.log)

/-- A write of the row, outside a transaction or by its commit, may fail either way. -/
inductive Written (d : MigrationData) (w : World D) : Except Err Unit × World D → Prop
  | stored (w') (h : w.Stores d w') : Written d w (.ok (), w')
  | applied (e w') (h : w.Stores d w') : Written d w (.error e, w')
  | failed (e w') (hrow : w'.row = w.row) (hlog : w'.log = w.log) : Written d w (.error e, w')

theorem handler_save (d : MigrationData) (w : World D) :
    Written d w (handler fault (.save d) w) := by
  simp only [handler]
  rcases faulty_cases fault (World.store (some d)) w with h | ⟨msg, h | h⟩ <;> rw [h]
  · exact .stored _ ⟨rfl, rfl⟩
  · exact .applied _ _ ⟨rfl, rfl⟩
  · exact .failed _ _ rfl rfl

theorem handler_commit (d : MigrationData) (w : World D) (hw : w.tx = .opened (some d)) :
    Written d w (handler fault .commit w) := by
  have hstores : w.Stores d w.called.committed := by
    have hcommit : w.called.committed = w.called.store (some d) := by
      simp [World.committed, World.called, hw]
    rw [hcommit]
    exact ⟨rfl, rfl⟩
  simp only [handler]
  rcases faulty_cases fault World.committed w with h | ⟨msg, h | h⟩ <;> rw [h]
  · exact .stored _ ⟨hstores.row, hstores.log⟩
  · exact .applied _ _ ⟨hstores.row, hstores.log⟩
  · exact .failed _ _ rfl rfl

theorem handler_commit_data (w : World D) : (handler fault .commit w).2.data = w.data := by
  have hcommit : w.called.committed.data = w.data := by
    unfold World.committed
    split <;> rfl
  simp only [handler]
  rcases faulty_cases fault World.committed w with h | ⟨msg, h | h⟩ <;> rw [h]
  · exact hcommit
  · exact hcommit
  · rfl

/-- What the part of a call that goes over the migrations `rest` leads to. -/
structure Advanced (ms rest : List (Migration D)) (outset : ℤ) (w : World D)
    (r : Except Err Unit) (w' : World D) : Prop where
  ledger : Ledger ms outset w'
  le : w.version ≤ w'.version
  log : ∃ new, w'.log = w.log ++ new ∧ (r = .ok () →
    runs new = (rest.filter fun m => w.version < m.version).map fun m => (m.version, true))
  reached : r = .ok () → ∀ m ∈ rest, m.version ≤ w'.version

/-- A part that failed only has to keep the ledger. -/
theorem Advanced.failed {rest : List (Migration D)} {w w' : World D} {e : Err}
    (h : Ledger ms outset w') (hle : w.version ≤ w'.version)
    (hlog : ∃ new, w'.log = w.log ++ new) : Advanced ms rest outset w (.error e) w' := by
  obtain ⟨new, hnew⟩ := hlog
  exact ⟨h, hle, ⟨new, hnew, nofun⟩, nofun⟩

section Cons
variable {m : Migration D} {rest : List (Migration D)} {w w₂ w' : World D} {r : Except Err Unit}

/-- A migration that is not above the stored version is passed over. -/
theorem Advanced.skip (hm : m.version ≤ w.version) (h : Advanced ms rest outset w r w') :
    Advanced ms (m :: rest) outset w r w' := by
  obtain ⟨new, hnew, hruns⟩ := h.log
  refine ⟨h.ledger, h.le, ⟨new, hnew, ?_⟩, ?_⟩
  · intro hr
    simp [hruns hr, hm]
  · intro hr m' hm'
    rcases List.mem_cons.mp hm' with rfl | hm'
    · exact hm.trans h.le
    · exact h.reached hr m' hm'

/-- A migration that has been run and stored, followed by the rest. -/
theorem Advanced.step (hm : w.version < m.version) (hlater : ∀ m' ∈ rest, m.version < m'.version)
    (hv : w₂.version = m.version)
    (hlog : w₂.log = w.log ++ [.ran m.version true, .stored m.version])
    (h : Advanced ms rest outset w₂ r w') : Advanced ms (m :: rest) outset w r w' := by
  obtain ⟨new, hnew, hruns⟩ := h.log
  have hle := h.le
  refine ⟨h.ledger, by omega, ⟨.ran m.version true :: .stored m.version :: new, ?_, ?_⟩, ?_⟩
  · simp [hnew, hlog]
  · intro hr
    -- nothing of the rest is at or below the version just stored
    have hfilter : (rest.filter fun m' => w.version < m'.version) =
        rest.filter fun m' => w₂.version < m'.version := by
      apply List.filter_congr
      intro m' hm'
      have := hlater m' hm'
      simp only [decide_eq_decide]
      omega
    simp [hruns hr, hm, hfilter]
  · intro hr m' hm'
    rcases List.mem_cons.mp hm' with rfl | hm'
    · omega
    · exact h.reached hr m' hm'

end Cons

/-- What running one migration and storing its version leads to. -/
structure Applied (ms : List (Migration D)) (m : Migration D) (outset : ℤ) (w : World D)
    (r : Except Err Unit) (w' : World D) : Prop where
  ledger : Ledger ms outset w'
  le : w.version ≤ w'.version
  log : ∃ new, w'.log = w.log ++ new
  ok : r = .ok () → w'.version = m.version ∧
    w'.log = w.log ++ [.ran m.version true, .stored m.version]

theorem Applied.failed {m : Migration D} {w w' : World D} {e : Err} (h : Ledger ms outset w')
    (hle : w.version ≤ w'.version) (hlog : ∃ new, w'.log = w.log ++ new) :
    Applied ms m outset w (.error e) w' :=
  ⟨h, hle, hlog, fun h => by cases h⟩

theorem wp_apply {m : Migration D} {w : World D} (hw : Ledger ms outset w)
    (hm : w.version < m.version)
    (hbelow : ∀ m' ∈ ms, m'.version < m.version → m'.version ≤ w.version)
    (existing : MigrationData) :
    wp (handler fault) (do
      ofExcept (← perform (.run m))
      ofExcept (← perform (.save { existing with currentVersion := m.version })))
      w (Applied ms m outset w) := by
  obtain ⟨r, w₁, b, hrun, hrow, hlog, hres⟩ := handler_run fault m w
  have hw₁ : Ledger ms outset w₁ := hw.noted hm hbelow b hrow hlog
  have hv₁ : w₁.version = w.version := by simp only [World.version, hrow]
  rw [perform_bind, wp_call, hrun]
  rcases hres with ⟨rfl, rfl⟩ | ⟨e, rfl⟩
  · have hrun₁ : ∀ m' ∈ ms, w₁.version < m'.version → m'.version ≤ m.version →
        .ran m'.version true ∈ w₁.log := by
      intro m' hm' hlow hhigh
      by_cases heq : m'.version = m.version
      · simp [hlog, heq]
      · have := hbelow m' hm' (by omega)
        omega
    have hle₁ : w₁.version ≤ m.version := by omega
    have hsave := handler_save fault { existing with currentVersion := m.version } w₁
    simp only [ofExcept_ok, ret_bind, perform_bind, wp_call]
    generalize handler fault (.save { existing with currentVersion := m.version }) w₁ =
      saved at hsave ⊢
    cases hsave with
    | stored w₂ h =>
      have hv₂ : w₂.version = m.version := h.version
      have hlog₂ : w₂.log = w.log ++ [.ran m.version true, .stored m.version] := by
        simp [h.log, hlog]
      simp only [ofExcept_ok, wp_ret]
      exact ⟨hw₁.stores h hle₁ hrun₁, by omega, ⟨_, hlog₂⟩, fun _ => ⟨hv₂, hlog₂⟩⟩
    | applied e w₂ h =>
      have hv₂ : w₂.version = m.version := h.version
      simp only [ofExcept_error, wp_fail]
      exact .failed (hw₁.stores h hle₁ hrun₁) (by omega) ⟨_, by
        rw [h.log, hlog, List.append_assoc]⟩
    | failed e w₂ hrow₂ hlog₂ =>
      have hv₂ : w₂.version = w₁.version := by simp only [World.version, hrow₂]
      simp only [ofExcept_error, wp_fail]
      exact .failed (hw₁.congr hrow₂ hlog₂) (by omega) ⟨_, by rw [hlog₂, hlog]⟩
  · simp only [ofExcept_error, fail_bind, wp_fail]
    exact .failed hw₁ (by omega) ⟨_, hlog⟩

theorem wp_iterate (hms : ms.Pairwise fun a b => a.version < b.version)
    {done rest : List (Migration D)} (hsplit : ms = done ++ rest) {existing : MigrationData}
    {w : World D} (hw : Ledger ms outset w) (hdone : ∀ m ∈ done, m.version ≤ w.version) :
    wp (handler fault) (iterate existing (rest.map some) w.version) w
      (Advanced ms rest outset w) := by
  induction rest generalizing done existing w with
  | nil =>
    simp only [List.map_nil, iterate, pure_def, wp_ret]
    refine ⟨hw, le_rfl, ⟨[], by simp, fun _ => rfl⟩, ?_⟩
    intro _ m hm
    cases hm
  | cons m rest ih =>
    have hsplit' : ms = (done ++ [m]) ++ rest := by simp [hsplit]
    have hdone' (v : ℤ) (hwv : w.version ≤ v) (hmv : m.version ≤ v) :
        ∀ m' ∈ done ++ [m], m'.version ≤ v := by
      intro m' hm'
      rcases List.mem_append.mp hm' with hm' | hm'
      · exact (hdone m' hm').trans hwv
      · exact List.mem_singleton.mp hm' ▸ hmv
    simp only [List.map_cons, iterate]
    by_cases hm : w.version < m.version
    · have hlater : ∀ m' ∈ rest, m.version < m'.version := by
        rw [hsplit, List.pairwise_append, List.pairwise_cons] at hms
        exact hms.2.1.1
      -- the migrations below `m` stand before it, so they are not above the stored version
      have hbelow : ∀ m' ∈ ms, m'.version < m.version → m'.version ≤ w.version := by
        intro m' hm' hlt
        rw [hsplit, List.mem_append, List.mem_cons] at hm'
        rcases hm' with hm' | rfl | hm'
        · exact hdone m' hm'
        · omega
        · have := hlater m' hm'
          omega
      rw [if_pos hm]
      simp only [← bind_assoc]
      apply wp_bind
      simp only [bind_assoc]
      apply wp_mono (wp_apply fault hw hm hbelow existing)
      intro r w₂ happlied
      cases r with
      | error e => exact .failed happlied.ledger happlied.le happlied.log
      | ok u =>
        obtain ⟨hv₂, hlog₂⟩ := happlied.ok rfl
        dsimp only
        rw [← hv₂]
        apply wp_mono (ih hsplit' happlied.ledger (hdone' _ happlied.le (by omega)))
        intro r w' hadv
        exact hadv.step hm hlater hv₂ hlog₂
    · rw [if_neg hm]
      apply wp_mono (ih hsplit' hw (hdone' _ le_rfl (by omega)))
      intro r w' hadv
      exact hadv.skip (by omega)

/-- Nothing of the database has changed. -/
structure World.Idle (w w' : World D) : Prop where
  row : w'.row = w.row
  data : w'.data = w.data
  log : w'.log = w.log

theorem World.Idle.trans {w w' w'' : World D} (h : w.Idle w') (h' : w'.Idle w'') : w.Idle w'' :=
  ⟨h'.row.trans h.row, h'.data.trans h.data, h'.log.trans h.log⟩

theorem World.Idle.version {w w' : World D} (h : w.Idle w') : w'.version = w.version := by
  simp only [World.version, h.row]

/-- What a call from start to end leads to. -/
structure Called (ms : List (Migration D)) (outset : ℤ) (w : World D) (r : Except Err Unit)
    (w' : World D) : Prop extends Advanced ms ms outset w r w' where
  latest : ∀ d, w.row = some d → (∀ m ∈ ms, m.version ≤ d.currentVersion) →
    w'.row = w.row ∧ w'.data = w.data ∧ ∃ new, w'.log = w.log ++ new ∧ runs new = []

theorem Called.idle {w w' : World D} {e : Err} (hw : Ledger ms outset w) (h : w.Idle w') :
    Called ms outset w (.error e) w' where
  toAdvanced := .failed (hw.congr h.row h.log) h.version.ge ⟨[], by simp [h.log]⟩
  latest _ _ _ := ⟨h.row, h.data, [], by simp [h.log], rfl⟩

/-- A call that does nothing before it behaves as from `w₁` on. -/
theorem Called.after {w w₁ w' : World D} {r : Except Err Unit} (h : w.Idle w₁)
    (h' : Called ms outset w₁ r w') : Called ms outset w r w' where
  ledger := h'.ledger
  le := h.version ▸ h'.le
  log := h.version ▸ h.log ▸ h'.log
  reached := h'.reached
  latest := h.row ▸ h.data ▸ h.log ▸ h'.latest

theorem handler_autoMigrate (w : World D) : ∃ r w', handler fault .autoMigrate w = (r, w') ∧
    w.Idle w' := by
  simp only [handler]
  rcases faulty_cases fault id w with h | ⟨msg, h | h⟩ <;> exact ⟨_, _, h, rfl, rfl, rfl⟩

theorem handler_rollback (w : World D) : ∃ r w', handler fault .rollback w = (r, w') ∧
    w.Idle w' := by
  simp only [handler]
  rcases faulty_cases fault id { w with tx := .closed } with h | ⟨msg, h | h⟩ <;>
    exact ⟨_, _, h, rfl, rfl, rfl⟩

theorem handler_begin (w : World D) : ∃ w', handler fault .begin w = ((), w') ∧ w.Idle w' ∧
    (w'.tx = .opened w.row ∨ ∃ msg, w'.tx = .broken msg) := by
  simp only [handler]
  cases fault w.calls with
  | none => exact ⟨_, rfl, ⟨rfl, rfl, rfl⟩, .inl rfl⟩
  | some f => exact ⟨_, rfl, ⟨rfl, rfl, rfl⟩, .inr ⟨_, rfl⟩⟩

/-- `First` fails, or finds what the transaction sees. -/
theorem handler_first (w : World D)
    (hw : w.tx = .opened w.row ∨ ∃ msg, w.tx = .broken msg) :
    ∃ r w', handler fault .first w = (r, w') ∧ w.Idle w' ∧
      ((∃ msg, r = .error (.failed msg)) ∨ (∃ d, w.row = some d ∧ r = .ok d ∧
        w'.tx = .opened (some d)) ∨ w.row = none ∧ r = .error .recordNotFound) := by
  simp only [handler]
  rcases hw with hw | ⟨msg, hw⟩
  · rw [hw]
    cases fault w.calls with
    | some f => exact ⟨_, _, rfl, ⟨rfl, rfl, rfl⟩, .inl ⟨_, rfl⟩⟩
    | none =>
      cases hrow : w.row with
      | none => exact ⟨_, _, rfl, ⟨rfl, rfl, rfl⟩, .inr (.inr ⟨rfl, rfl⟩)⟩
      | some d =>
        exact ⟨_, _, rfl, ⟨rfl, rfl, rfl⟩, .inr (.inl ⟨d, rfl, rfl, by
          simp [World.called, hw, hrow]⟩)⟩
  · rw [hw]
    exact ⟨_, _, rfl, ⟨rfl, rfl, rfl⟩, .inl ⟨_, rfl⟩⟩

/-- A write in the transaction is visible only there. -/
theorem faulty_write (d : MigrationData) (w : World D) : ∃ r w',
    faulty fault (World.write d) w = (r, w') ∧ w.Idle w' ∧
      ((∃ e, r = .error e) ∨ r = .ok () ∧ w'.tx = .opened (some d)) := by
  rcases faulty_cases fault (World.write d) w with h | ⟨msg, h | h⟩
  · exact ⟨_, _, h, ⟨rfl, rfl, rfl⟩, .inr ⟨rfl, rfl⟩⟩
  · exact ⟨_, _, h, ⟨rfl, rfl, rfl⟩, .inl ⟨_, rfl⟩⟩
  · exact ⟨_, _, h, ⟨rfl, rfl, rfl⟩, .inl ⟨_, rfl⟩⟩

/-- An error before the transaction is committed changes nothing. -/
theorem wp_rollback {w : World D} {err : Err} (hw : Ledger ms outset w) :
    wp (handler fault) (do let _ ← perform Call.rollback; .fail err : Prog D Unit) w
      (Called ms outset w) := by
  obtain ⟨r, w', h, hidle⟩ := handler_rollback fault w
  rw [perform_bind, wp_call, h]
  exact .idle hw hidle

/-- A call that finds the database at the latest version has nothing left to do. -/
theorem wp_latest {d : MigrationData} {w : World D} (hw : Ledger ms outset w)
    (hrow : w.row = some d) (htx : w.tx = .opened (some d))
    (hall : ∀ m ∈ ms, m.version ≤ d.currentVersion) :
    wp (handler fault) (do ofExcept (← perform Call.commit) : Prog D Unit) w
      (Called ms outset w) := by
  have hv : w.version = d.currentVersion := by simp [World.version, hrow]
  have hnone : ∀ m ∈ ms, w.version < m.version → m.version ≤ d.currentVersion →
      Entry.ran m.version true ∈ w.log := by
    intro m _ hlow hhigh
    omega
  have hempty : (ms.filter fun m => w.version < m.version) = [] := by
    rw [List.filter_eq_nil_iff]
    intro m hm
    have := hall m hm
    simp only [decide_eq_true_eq]
    omega
  have hcommit := handler_commit fault d w htx
  have hdata := handler_commit_data fault w
  rw [perform_bind, wp_call]
  generalize handler fault .commit w = committed at hcommit hdata ⊢
  cases hcommit with
  | stored w' h =>
    have hv' : w'.version = d.currentVersion := h.version
    simp only [ofExcept_ok, wp_ret]
    refine ⟨⟨hw.stores h hv.le hnone, by omega, ⟨_, h.log, ?_⟩, ?_⟩, ?_⟩
    · intro _
      rw [hempty]
      rfl
    · intro _ m hm
      exact hv'.symm ▸ hall m hm
    · intro _ _ _
      exact ⟨h.row.trans hrow.symm, hdata, _, h.log, rfl⟩
  | applied e w' h =>
    have hv' : w'.version = d.currentVersion := h.version
    simp only [ofExcept_error, wp_fail]
    refine ⟨.failed (hw.stores h hv.le hnone) (by omega) ⟨_, h.log⟩, ?_⟩
    intro _ _ _
    exact ⟨h.row.trans hrow.symm, hdata, _, h.log, rfl⟩
  | failed e w' hrow' hlog => exact .idle hw ⟨hrow', hdata, hlog⟩

section Proceed
variable (hms : ms.Pairwise fun a b => a.version < b.version)
include hms

/-- The rest of a call that is behind, once its write in the transaction is answered. -/
theorem wp_proceed {d : MigrationData} {w : World D} {r : Except Err Unit}
    (hw : Ledger ms outset w) (hd : d.currentVersion = w.version)
    (hr : (∃ e, r = .error e) ∨ r = .ok () ∧ w.tx = .opened (some d))
    (hbehind : ∀ d, w.row = some d → ∃ m ∈ ms, d.currentVersion < m.version) :
    wp (handler fault) (proceed (ms.map some) d r) w (Called ms outset w) := by
  rcases hr with ⟨e, rfl⟩ | ⟨rfl, htx⟩
  · exact wp_rollback fault hw
  · have hcommit := handler_commit fault d w htx
    simp only [proceed, perform_bind, wp_call]
    generalize handler fault .commit w = committed at hcommit ⊢
    have hlatest {P : Prop} : ∀ d, w.row = some d →
        (∀ m ∈ ms, m.version ≤ d.currentVersion) → P := by
      intro d hrow hall
      obtain ⟨m, hm, hlt⟩ := hbehind d hrow
      have := hall m hm
      omega
    have hnone : ∀ m ∈ ms, w.version < m.version → m.version ≤ d.currentVersion →
        Entry.ran m.version true ∈ w.log := by
      intro m _ hlow hhigh
      omega
    cases hcommit with
    | stored w' h =>
      have hv : w'.version = d.currentVersion := h.version
      simp only [ofExcept_ok, ret_bind]
      rw [← hv]
      apply wp_mono (wp_iterate fault hms (List.nil_append ms).symm (hw.stores h hd.ge hnone)
        (by simp))
      intro r w'' hadv
      obtain ⟨new, hnew, hruns⟩ := hadv.log
      have hle := hadv.le
      refine ⟨⟨hadv.ledger, by omega, ⟨.stored d.currentVersion :: new, ?_, ?_⟩, hadv.reached⟩,
        hlatest⟩
      · simp [hnew, h.log]
      · rw [runs_stored, ← hd, ← hv]
        exact hruns
    | applied e w' h =>
      have hv : w'.version = d.currentVersion := h.version
      simp only [ofExcept_error, fail_bind, wp_fail]
      exact ⟨.failed (hw.stores h hd.ge hnone) (by omega) ⟨_, h.log⟩, hlatest⟩
    | failed e w' hrow hlog =>
      have hv : w'.version = w.version := by simp only [World.version, hrow]
      exact ⟨.failed (hw.congr hrow hlog) hv.ge ⟨[], by simp [hlog]⟩, hlatest⟩

/-- A call that is behind, from its write in the transaction on. -/
theorem wp_write {d : MigrationData} {w : World D} (hw : Ledger ms outset w)
    (hd : d.currentVersion = w.version)
    (hbehind : ∀ d, w.row = some d → ∃ m ∈ ms, d.currentVersion < m.version) :
    wp (handler fault) (proceed (ms.map some) d (faulty fault (World.write d) w).1)
      (faulty fault (World.write d) w).2 (Called ms outset w) := by
  obtain ⟨r, w', h, hidle, hr⟩ := faulty_write fault d w
  rw [h]
  have hw' := hw.congr hidle.row hidle.log
  refine wp_mono (wp_proceed fault hms hw' ?_ hr ?_) fun r w'' h => h.after hidle
  · rw [hidle.version, hd]
  · rw [hidle.row]
    exact hbehind

theorem wp_runMigrations {w : World D} (hw : Ledger ms outset w) :
    wp (handler fault) (runMigrations (ms.map some)) w (Called ms outset w) := by
  rcases List.eq_nil_or_concat ms with rfl | ⟨before, last, hsplit⟩
  · simp only [List.map_nil, runMigrations, List.getLast?_nil, pure_def, wp_ret]
    exact ⟨⟨hw, le_rfl, ⟨[], by simp, fun _ => rfl⟩, by simp⟩,
      fun _ _ _ => ⟨rfl, rfl, [], by simp, rfl⟩⟩
  · rw [List.concat_eq_append] at hsplit
    have hlast : last ∈ ms := by simp [hsplit]
    have hall : ∀ m ∈ ms, m.version ≤ last.version := by
      rw [hsplit, List.pairwise_append] at hms
      intro m hm
      rw [hsplit, List.mem_append, List.mem_singleton] at hm
      rcases hm with hm | rfl
      · exact (hms.2.2 m hm last (List.mem_singleton_self _)).le
      · exact le_rfl
    have hget : (ms.map some).getLast? = some (some last) := by simp [hsplit]
    simp only [runMigrations, hget, perform_bind, wp_call]
    obtain ⟨r₁, w₁, h₁, hidle₁⟩ := handler_autoMigrate fault w
    rw [h₁]
    cases r₁ with
    | error e => exact .idle hw hidle₁
    | ok u =>
      simp only [ofExcept_ok, ret_bind, wp_call]
      obtain ⟨w₂, h₂, hidle₂, htx₂⟩ := handler_begin fault w₁
      rw [h₂]
      obtain ⟨r₃, w₃, h₃, hidle₃, hfirst⟩ := handler_first fault w₂ (hidle₂.row ▸ htx₂)
      rw [h₃]
      -- from here on the call starts from the row that `First` has looked for
      have hidle := (hidle₁.trans hidle₂).trans hidle₃
      have hw₃ : Ledger ms outset w₃ := hw.congr hidle.row hidle.log
      refine wp_mono (Q := Called ms outset w₃) ?_ fun r w' h => h.after hidle
      rcases hfirst with ⟨msg, rfl⟩ | ⟨d, hrow, rfl, htx⟩ | ⟨hrow, rfl⟩
      · exact wp_rollback fault hw₃
      · have hrow₃ : w₃.row = some d := hidle₃.row.trans hrow
        dsimp only
        split
        next hge => exact wp_latest fault hw₃ hrow₃ htx fun m hm => (hall m hm).trans hge
        next hlt =>
          rw [wp_call]
          apply wp_write fault hms hw₃
          · simp [World.version, hrow₃]
          · intro d' hrow'
            rw [hrow₃, Option.some.injEq] at hrow'
            exact ⟨last, hlast, hrow' ▸ by omega⟩
      · have hrow₃ : w₃.row = none := hidle₃.row.trans hrow
        simp only [wp_call]
        apply wp_write fault hms hw₃
        · simp [World.version, hrow₃]
        · intro d' hrow'
          rw [hrow₃] at hrow'
          cases hrow'

end Proceed

/-- The process is started again and again; each start makes one call. -/
def starts (ms : List (Migration D)) (n : ℕ) (w : World D) : World D :=
  (fun w => ((runMigrations (ms.map some)).run (handler fault) w).2)^[n] w

theorem starts_succ (n : ℕ) (w : World D) : starts fault ms (n + 1) w =
    ((runMigrations (ms.map some)).run (handler fault) (starts fault ms n w)).2 := by
  simp only [starts, Function.iterate_succ_apply']

theorem ledger_starts (hms : ms.Pairwise fun a b => a.version < b.version)
    (row : Option MigrationData) (data : D) (n : ℕ) :
    Ledger ms (World.start row data).version (starts fault ms n (World.start row data)) := by
  induction n with
  | zero => exact ledger_start row data
  | succ n ih =>
    rw [starts_succ]
    exact (wp_runMigrations fault hms ih).ledger

/-- Whatever has failed in any number of starts, the journal is in order, and the next call
does what it reports. -/
theorem migrations_over_restarts (hms : ms.Pairwise fun a b => a.version < b.version)
    (row : Option MigrationData) (data : D) (n : ℕ) :
    wp (handler fault) (runMigrations (ms.map some)) (starts fault ms n (World.start row data))
      (Called ms (World.start row data).version (starts fault ms n (World.start row data))) :=
  wp_runMigrations fault hms (ledger_starts fault hms row data n)

end Calls

section Faultless

/-- A migration of the service; what a failed one has changed is not looked at any more. -/
def ofMigration (m : Migrations.Migration) : Migration Database where
  version := m.version
  run db := match m.run db with
    | .ok db' => (.ok (), db')
    | .error .sql => (.error "statement failed", db)
    | .error (.plain msg) => (.error msg, db)

/-- With no fault the loop computes what the plain recursion over the migrations does. -/
theorem wp_iterate_faultless {ms : List Migrations.Migration} {existing : MigrationData}
    {w : World Database} {v v' : ℤ} {db : Database}
    (hrow : w.version = v) (h : Migrations.runMigrations ms v w.data = .ok (v', db)) :
    wp (handler fun _ => none) (iterate existing (ms.map fun m => some (ofMigration m)) v) w
      fun r w' => r = .ok () ∧ w'.version = v' ∧ w'.data = db := by
  induction ms generalizing existing w v with
  | nil =>
    cases h
    exact ⟨rfl, hrow, rfl⟩
  | cons m ms ih =>
    simp only [Migrations.runMigrations] at h
    simp only [List.map_cons, iterate]
    by_cases hm : m.version > v
    · rw [if_pos hm] at h
      rw [if_pos (show (ofMigration m).version > v from hm)]
      cases hrun : m.run w.data with
      | error e =>
        rw [hrun] at h
        cases h
      | ok db₁ =>
        rw [hrun] at h
        have hok : (ofMigration m).run w.data = (.ok (), db₁) := by simp [ofMigration, hrun]
        simp only [perform_bind, wp_call, handler, faulty, hok, ofExcept_ok, ret_bind]
        apply ih
        · rfl
        · change Migrations.runMigrations ms m.version ((ofMigration m).run w.data).2 = _
          rw [hok]
          exact h
    · rw [if_neg hm] at h
      rw [if_neg (show ¬(ofMigration m).version > v from hm)]
      exact ih hrow h

/-- One start without faults takes a database without a version through the migrations. -/
theorem wp_runMigrations_faultless {ms : List Migrations.Migration} (hne : ms ≠ [])
    {data db : Database} {v : ℤ} (h : Migrations.runMigrations ms (-1) data = .ok (v, db)) :
    wp (handler fun _ => none) (runMigrations (ms.map fun m => some (ofMigration m)))
      (World.start none data) fun r w => r = .ok () ∧ w.version = v ∧ w.data = db := by
  obtain ⟨before, last, rfl⟩ : ∃ before last, ms = before ++ [last] :=
    ⟨_, _, (List.dropLast_append_getLast hne).symm⟩
  have hget : ((before ++ [last]).map fun m => some (ofMigration m)).getLast? =
      some (some (ofMigration last)) := by simp
  simp only [runMigrations, hget, perform_bind, wp_call, handler, faulty, ofExcept_ok, ret_bind,
    World.start, World.called, proceed]
  apply wp_iterate_faultless
  · rfl
  · exact h

/-- A start on a fresh database leads to the schema that the other modules work with. -/
theorem start_migrates (d : Dialect) :
    wp (handler fun _ => none) (runMigrations ((initializeMigrations d).map fun m =>
      some (ofMigration m))) (World.start none (Database.fresh d)) fun r w =>
        r = .ok () ∧ migrated d = .ok (w.version, w.data) := by
  obtain ⟨db, hdb, -⟩ := migrated_fresh d
  apply wp_mono (wp_runMigrations_faultless (by simp [initializeMigrations]) hdb)
  rintro r w ⟨hr, hv, hdata⟩
  exact ⟨hr, by rw [hv, hdata, hdb]⟩

theorem initializeMigrations_increasing (d : Dialect) :
    ((initializeMigrations d).map ofMigration).Pairwise fun a b => a.version < b.version := by
  rw [List.pairwise_map]
  simp [initializeMigrations, ofMigration, v0InitMigration, v2UpdateRgMigration,
    v3UpdateTcpRouteMigration, v4AddRgUniqIdxTCPRoute, v5SniHostnameMigration, v6TCPTLSRoutes,
    v7TCPTLSRoutes, v8HostTLSPortTCPDefaultZero, v9TerminateFrontendTLS, v10SniRewriteHostname,
    v11EnableBackendMTLS]

/-- The migrations of the service on a fresh database, where the second write of a version
is lost. -/
theorem service_migrations_over_restarts :
    let ms := (initializeMigrations .mysql).map ofMigration
    let fault : ℕ → Option Fault := fun n => if n = 8 then some ⟨"connection lost", false⟩ else none
    let w := starts fault ms 1 (World.start none (Database.fresh .mysql))
    w.log = [.stored (-1), .ran 0 true, .stored 0, .ran 2 true] ∧
      wp (handler fault) (runMigrations (ms.map some)) w (Called ms (-1) w) :=
  ⟨by decide +kernel, migrations_over_restarts _ (initializeMigrations_increasing .mysql) none
    (Database.fresh .mysql) 1⟩

end Faultless
end RoutingApi.Migrations.Runner
