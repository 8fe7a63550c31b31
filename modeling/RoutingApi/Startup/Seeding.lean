import RoutingApi.Database.RouterGroups
import RoutingApi.Migration.Migrations

/-! Seeding the configured router groups when the process starts, over any number of starts.
A start reads the table, and if it looks empty saves the groups one by one. -/
namespace RoutingApi.Startup
open Relational Models Process Program Groups Migrations
open Database (Err Env)

section Seeding

/-- The loop over the configured groups, up to the first error. -/
def seedAll : List RouterGroup → GroupDB Unit
  | [] => pure ()
  | rg :: rest => do
    let guid ← ofExcept (← perform Call.newV4)
    saveRouterGroup { rg with guid := guid }
    seedAll rest

/-- The runner up to the point where it signals ready; an error ends the process. The error of
the read is not looked at. -/
def seedRouterGroups (configured : List RouterGroup) : GroupDB Unit := do
  if configured.length > 0 then
    let routerGroups := (← tried readRouterGroups).toOption.getD []
    if routerGroups.length = 0 then seedAll configured else pure ()
  else pure ()

/-- The locks are memory of the process. -/
def restart (w : Store) : Store := { w with readLocked := false, writeLocked := false }

variable (env : Env) (s : Schema RouterGroupColumn) (configured : List RouterGroup)

/-- One start of the process: whether it signals ready, and the table it leaves. -/
def startProcess (w : Store) : Except Err Unit × Store :=
  (seedRouterGroups configured).run (handler env s) (restart w)

def start (w : Store) (_ : Unit) : Store := (startProcess env s configured w).2

/-- The start signals ready. -/
def Ready (w : Store) : Prop := (startProcess env s configured w).1 = .ok ()

/-- Every configured group is stored. -/
def Seeded (w : Store) : Prop :=
  ∀ rg ∈ configured, ∃ x ∈ w.stored,
    x.name = rg.name ∧ x.type = rg.type ∧ x.reservablePorts = rg.reservablePorts

/-- A start adds nothing to a table that holds something. -/
def OnlyIntoEmpty (w : Store) (u : Unit) : Prop :=
  w.stored ≠ [] → (start env s configured w u).stored = w.stored

/-- A start that signals ready leaves all configured groups. -/
def AllIfReady (w : Store) (u : Unit) : Prop :=
  Ready env s configured w → Seeded configured (start env s configured w u)

/-- The rows of the configured groups with the uuids from the `n`th on. -/
def seedRows : ℕ → List RouterGroup → Option (List RouterGroupDB)
  | _, [] => some []
  | n, rg :: rest =>
    match env.newV4 n with
    | .error _ => none
    | .ok guid =>
      (seedRows (n + 1) rest).map (newRouterGroupDB { rg with guid := guid } :: ·)

/-- The second row can be inserted beside the first. -/
def Compatible (x y : RouterGroupDB) : Prop :=
  x.guid ≠ y.guid ∧
    ∀ ix ∈ s.indexes, ix.clash (RouterGroupDB.toRow y) (RouterGroupDB.toRow x) = false

/-- The first group is not saved: there is no uuid for it, or one of its two calls fails. The
call before them is the read. -/
def StopsAtOnce (w : Store) : Prop :=
  (env.newV4 w.uuids).toOption = none ∨ env.fault (w.calls + 1) ≠ none ∨
    env.fault (w.calls + 2) ≠ none

/-- Every group can be saved: there is a uuid for each, none of their calls fails, and their rows
can stand in the table together. -/
def RunsThrough (w : Store) : Prop :=
  (∀ i < 2 * configured.length, env.fault (w.calls + 1 + i) = none) ∧
    ∃ rows ∈ seedRows env w.uuids configured, rows.Pairwise (Compatible s)

/-- On a table that holds something the read, which is the first call, does not fail; and on an
empty one either the first group is not saved, or nothing fails. -/
def Careful (w : Store) (_ : Unit) : Prop :=
  (w.stored ≠ [] → env.fault w.calls = none) ∧
    (w.stored = [] → StopsAtOnce env w ∨ RunsThrough env s configured w)

instance (w : Store) : Decidable (Ready env s configured w) :=
  inferInstanceAs (Decidable (_ = _))

instance (w : Store) : Decidable (Seeded configured w) :=
  inferInstanceAs (Decidable (∀ rg ∈ configured, ∃ x ∈ w.stored, _ ∧ _ ∧ _))

instance (w : Store) (u : Unit) : Decidable (OnlyIntoEmpty env s configured w u) :=
  inferInstanceAs (Decidable (_ → _))

instance (w : Store) (u : Unit) : Decidable (AllIfReady env s configured w u) :=
  inferInstanceAs (Decidable (_ → _))

instance (x y : RouterGroupDB) : Decidable (Compatible s x y) :=
  inferInstanceAs (Decidable (_ ∧ ∀ ix ∈ s.indexes, _))

instance (w : Store) : Decidable (StopsAtOnce env w) := inferInstanceAs (Decidable (_ ∨ _ ∨ _))

instance (w : Store) : Decidable (RunsThrough env s configured w) :=
  inferInstanceAs (Decidable ((∀ i < 2 * configured.length, _) ∧
    ∃ rows ∈ seedRows env w.uuids configured, _))

instance (w : Store) (u : Unit) : Decidable (Careful env s configured w u) :=
  inferInstanceAs (Decidable ((_ → _) ∧ (_ → _)))

end Seeding

section Specifications
variable {env : Env} {s : Schema RouterGroupColumn} {configured : List RouterGroup} {w w' : Store}

/-- No configured guid is one that gets generated. -/
def Apart (env : Env) (configured : List RouterGroup) : Prop :=
  ∀ rg ∈ configured, ∀ i, env.newV4 i ≠ .ok rg.modelGuid

theorem unused_insert {row : RouterGroupDB} (hw : Unused env w) (h : w.Inserts w' row)
    (hrow : ∀ i, w.uuids ≤ i → env.newV4 i ≠ .ok row.guid) : Unused env w' := by
  intro x hx i hi
  rw [h.uuids] at hi
  rw [h.stored, List.mem_append, List.mem_singleton] at hx
  rcases hx with hx | rfl
  · exact hw x hx i hi
  · exact hrow i hi

/-- What a save with a guid just generated leaves: what was stored, and the group if it ends
without an error. -/
theorem saved_seed {rg : RouterGroup} {guid : String} {r : Except Err Unit} (hids : env.Uuids)
    (hapart : ∀ i, env.newV4 i ≠ .ok rg.modelGuid) (hw : Unused env w)
    (hid : env.newV4 w.uuids = .ok guid) (h : Saved { rg with guid := guid } w.drawn r w') :
    Unused env w' ∧ (∀ x ∈ w.stored, x ∈ w'.stored) ∧
      (r = .ok () → newRouterGroupDB { rg with guid := guid } ∈ w'.stored) := by
  have hdrawn : Unused env w.drawn := by
    intro x hx i hi
    exact hw x hx i (Nat.le_of_succ_le hi)
  cases h with
  | failed e _ hsame =>
    refine ⟨?_, fun x hx => hsame.stored.symm ▸ hx, fun h => by cases h⟩
    intro x hx i hi
    rw [hsame.uuids] at hi
    exact hdrawn x (hsame.stored ▸ hx) i hi
  | updated x _ hx hguid _ _ =>
    exact absurd (hid.trans (congrArg Except.ok hguid.symm)) (hw x hx w.uuids le_rfl)
  | created row _ _ _ hrow h =>
    have hrow : row = newRouterGroupDB { rg with guid := guid } := by
      rcases hrow with hrow | ⟨hempty, -⟩
      · exact hrow
      · exact absurd hempty (hids.nonempty _ _ hid)
    subst hrow
    refine ⟨unused_insert hdrawn h ?_, ?_, ?_⟩
    · intro i hi hnew
      simp only [newRouterGroupDB] at hnew
      split at hnew
      · have hi' : i = w.uuids := hids.inj i w.uuids guid hnew hid
        have hi : w.uuids + 1 ≤ i := hi
        omega
      · exact hapart i hnew
    · intro x hx
      rw [h.stored]
      exact List.mem_append_left _ hx
    · intro _
      rw [h.stored]
      simp

/-- Seeding keeps what is stored, and stores every group if it ends without an error. -/
theorem wp_seedAll (hids : env.Uuids) (hapart : Apart env configured) (hw : Unused env w) :
    wp (handler env s) (seedAll configured) w fun r w' =>
      Unused env w' ∧ (∀ x ∈ w.stored, x ∈ w'.stored) ∧ (r = .ok () → Seeded configured w') := by
  induction configured generalizing w with
  | nil => exact ⟨hw, fun _ hx => hx, fun _ rg hrg => by cases hrg⟩
  | cons rg rest ih =>
    have hrest : Apart env rest := fun g hg => hapart g (List.mem_cons_of_mem rg hg)
    simp only [seedAll, perform_bind, wp_call, handler]
    cases hid : env.newV4 w.uuids with
    | error e =>
      refine ⟨?_, fun _ hx => hx, fun h => by cases h⟩
      exact fun x hx i hi => hw x hx i (Nat.le_of_succ_le hi)
    | ok guid =>
      simp only [Except.mapError, ofExcept_ok, ret_bind]
      apply wp_bind
      apply wp_mono (wp_saveRouterGroup env s _ w.drawn)
      intro r w₁ hsaved
      obtain ⟨hunused₁, hkeep₁, hseed⟩ :=
        saved_seed hids (hapart rg List.mem_cons_self) hw hid hsaved
      cases r with
      | error e => exact ⟨hunused₁, hkeep₁, fun h => by cases h⟩
      | ok u =>
        apply wp_mono (ih hrest hunused₁)
        rintro r w₂ ⟨hunused₂, hkeep₂, hseeded⟩
        refine ⟨hunused₂, fun x hx => hkeep₂ x (hkeep₁ x hx), ?_⟩
        intro hr g hg
        rcases List.mem_cons.mp hg with rfl | hg
        · exact ⟨_, hkeep₂ _ (hseed rfl), rfl, rfl, rfl⟩
        · exact hseeded hr g hg

/-- A save of which a call fails stores nothing. -/
theorem wp_saveRouterGroup_fault (rg : RouterGroup) (hread : w.readLocked = false)
    (hfault : env.fault w.calls ≠ none ∨ env.fault (w.calls + 1) ≠ none) :
    wp (handler env s) (saveRouterGroup rg) w fun r w' =>
      r ≠ .ok () ∧ w'.stored = w.stored := by
  simp only [saveRouterGroup, perform_bind, wp_call]
  apply wp_ite
  · exact fun _ => ⟨by simp, rfl⟩
  intro _
  cases hfirst : env.fault w.calls with
  | some msg =>
    apply wp_bind
    simp only [readRouterGroup, readFirst, perform_bind, wp_call, handler, hread,
      Bool.false_eq_true, if_false, Store.client, hfirst]
    exact ⟨by simp, rfl⟩
  | none =>
    obtain ⟨msg, hmsg⟩ := Option.ne_none_iff_exists'.mp (hfault.resolve_left (not_not_intro hfirst))
    have hsecond (f : Store → Except Err Unit × Store) :
        w.called.client env f = (.error (.client msg), w.called.called) := by
      simp only [Store.client, Store.called, hmsg]
    show _ ∧ _
    rw [handler, writeRouterGroup, readRouterGroup,
      run_bind_ok (run_readFirst_unlocked env s hread hfirst)]
    split <;>
    · simp only [perform_bind, run_call, handler, hsecond]
      exact ⟨by simp, rfl⟩

/-- A start reads an empty table as such, also when the read fails. -/
theorem startProcess_empty (hw : w.stored = []) (hpos : configured.length > 0) :
    startProcess env s configured w =
      (seedAll configured).run (handler env s) (restart w).called := by
  have hread : ∃ r : Except Err (List RouterGroup), r.toOption.getD [] = [] ∧
      (tried readRouterGroups).run (handler env s) (restart w) = (.ok r, (restart w).called) := by
    cases hfault : env.fault w.calls with
    | some msg =>
      refine ⟨.error (.client msg), rfl, ?_⟩
      simp [tried, run_attempt, readRouterGroups, handler, Store.client, restart, hfault]
    | none =>
      refine ⟨.ok [], rfl, ?_⟩
      rw [tried, run_attempt, run_readRouterGroups_unlocked env s (w := restart w) rfl hfault,
        show (restart w).stored = [] from hw]
      rfl
  obtain ⟨r, hnone, hread⟩ := hread
  rw [startProcess, seedRouterGroups, if_pos hpos, run_bind_ok hread, hnone]
  rfl

/-- A start on an empty table that does not save the first group leaves it empty. -/
theorem start_stops (hw : w.stored = []) (hstops : StopsAtOnce env w) (u : Unit) :
    (start env s configured w u).stored = [] := by
  cases configured with
  | nil => exact hw
  | cons rg rest =>
    rw [start, startProcess_empty hw (by simp)]
    have hwp : wp (handler env s) (seedAll (rg :: rest)) (restart w).called fun _ w' =>
        w'.stored = [] := by
      simp only [seedAll, perform_bind, wp_call, handler]
      cases hid : env.newV4 w.uuids with
      | error e =>
        simp only [restart, Store.called, hid]
        exact hw
      | ok guid =>
        have hfault : env.fault (w.calls + 1) ≠ none ∨ env.fault (w.calls + 2) ≠ none := by
          rcases hstops with hnone | hfault
          · rw [hid] at hnone
            cases hnone
          · exact hfault
        simp only [restart, Store.called, hid, Except.mapError, ofExcept_ok, ret_bind]
        apply wp_bind
        apply wp_mono (wp_saveRouterGroup_fault _ rfl hfault)
        rintro (e | ⟨⟩) w' ⟨hfails, hstored⟩
        · exact hstored.trans hw
        · exact absurd rfl hfails
    exact hwp

theorem text_of_eqv {p : Option ℕ} {t : String} {cell : Cell}
    (h : (Cell.cut p (.text t)).eqv (Cell.cut p cell) = true) : ∃ t', cell = .text t' := by
  cases cell with
  | text t' => exact ⟨t', rfl⟩
  | _ => cases p <;> simp [Cell.cut, Cell.eqv] at h

/-- A row clashes with a stored one only if it does with the struct that is scanned from it. -/
theorem clash_ofRow {ix : UniqueIndex RouterGroupColumn} {row : RouterGroupDB}
    {r : Row RouterGroupColumn} (h : ix.clash (RouterGroupDB.toRow row) r = true) :
    ix.clash (RouterGroupDB.toRow row) (RouterGroupDB.toRow (RouterGroupDB.ofRow r)) = true := by
  simp only [UniqueIndex.clash, List.all_eq_true] at h ⊢
  rintro ⟨c, p⟩ hp
  have hcell := h (c, p) hp
  have hsame : RouterGroupDB.toRow (RouterGroupDB.ofRow r) c = r c := by
    cases c <;>
    · obtain ⟨t, ht⟩ := text_of_eqv hcell
      simp [RouterGroupDB.toRow, RouterGroupDB.ofRow, ht, textOf]
  rw [hsame]
  exact hcell

/-- What an INSERT beside compatible rows does. -/
theorem create_compatible {row : RouterGroupDB} (h : ∀ x ∈ w.stored, Compatible s x row) :
    ∃ w', w.create s row = (.ok (), w') ∧ w.Inserts w' row ∧ w'.calls = w.calls ∧
      w'.readLocked = w.readLocked ∧ w'.writeLocked = w.writeLocked := by
  have hnew : ¬w.table.Stores (RouterGroupDB.toRow row .guid) := by
    intro hstores
    obtain ⟨x, hx, hguid⟩ := Store.stores_iff.mp hstores
    exact (h x hx).1 hguid
  have hadmits : admits s.indexes w.table.rows (RouterGroupDB.toRow row) = true := by
    rw [admits_iff]
    intro ix hix r hr
    have hrow := (h _ (Store.mem_stored.mpr ⟨r, hr, rfl⟩)).2 ix hix
    by_contra hclash
    rw [clash_ofRow (eq_true_of_ne_false hclash)] at hrow
    cases hrow
  have hok : (w.create s row).1 = .ok () ∧ (w.create s row).2.calls = w.calls ∧
      (w.create s row).2.readLocked = w.readLocked ∧
      (w.create s row).2.writeLocked = w.writeLocked := by
    obtain ⟨t, ht⟩ := Table.insert_isSome hnew hadmits
    rw [← Store.insertRow_eq s row] at ht
    unfold Store.create
    split
    next hnone => simp [ht] at hnone
    next => exact ⟨rfl, rfl, rfl, rfl⟩
  rcases Store.create_cases (s := s) row w with herr | ⟨w', hcreate, hins⟩
  · rw [herr] at hok
    exact nomatch hok.1
  · rw [hcreate] at hok
    exact ⟨w', hcreate, hins, hok.2⟩

/-- A save of a group with a new guid, none of whose calls fails, inserts the row. -/
theorem wp_saveRouterGroup_new (env : Env) (s : Schema RouterGroupColumn) (w : Store)
    (rg : RouterGroup) (hread : w.readLocked = false) (hwrite : w.writeLocked = false)
    (hfirst : env.fault w.calls = none) (hsecond : env.fault (w.calls + 1) = none)
    (hguid : rg.guid ≠ "") (hnew : ∀ x ∈ w.stored, x.guid ≠ rg.guid)
    (hrow : ∀ x ∈ w.stored, Compatible s x (newRouterGroupDB rg)) :
    wp (handler env s) (saveRouterGroup rg) w fun r w' =>
      r = .ok () ∧ w.Inserts w' (newRouterGroupDB rg) ∧ w'.calls = w.calls + 2 ∧
        w'.readLocked = false ∧ w'.writeLocked = false := by
  have hnone : w.called.first [.eq .guid (.text rg.guid)] = none := by
    by_contra hsome
    obtain ⟨x, hx⟩ := Option.ne_none_iff_exists'.mp hsome
    obtain ⟨r, hr, hholds, rfl⟩ := Store.first_some hx
    exact hnew _ (Store.mem_stored.mpr ⟨r, hr, rfl⟩) ((Store.holds_guid (w := w) hr).mp hholds)
  obtain ⟨w', hcreate, hins, hcalls, hread', hwrite'⟩ :=
    create_compatible (w := w.called.called) (s := s) hrow
  have hzero : ¬RouterGroup.zero.guid = rg.guid := fun h => hguid h.symm
  have hcreated : handler env s (.create (newRouterGroupDB rg)) w.called = (.ok (), w') := by
    have hsecond' : env.fault w.called.calls = none := hsecond
    simp only [handler, Store.client, hsecond', hcreate]
  have hrun : (saveRouterGroup rg).run (handler env s) w = (.ok (), w') := by
    simp only [saveRouterGroup, perform_bind, run_call, handler, hwrite, Bool.false_eq_true,
      if_false]
    rw [writeRouterGroup, readRouterGroup, run_bind_ok (run_readFirst_unlocked env s hread hfirst),
      show w.first _ = none from hnone]
    simp only [Option.map_none, Option.getD_none, if_neg hzero, perform_bind, run_call, hcreated]
    rfl
  unfold wp
  rw [hrun]
  exact ⟨rfl, hins.of_same (w.same_called.trans w.called.same_called), hcalls,
    hread'.trans hread, hwrite'.trans hwrite⟩

/-- Seeding goes through as long as no call fails and the rows can stand together. -/
theorem wp_seedAll_through (hids : env.Uuids) (hapart : Apart env configured)
    (hw : Unused env w) (hread : w.readLocked = false) (hwrite : w.writeLocked = false)
    (hfault : ∀ i < 2 * configured.length, env.fault (w.calls + i) = none)
    {rows : List RouterGroupDB} (hrows : seedRows env w.uuids configured = some rows)
    (hstored : ∀ x ∈ w.stored, ∀ y ∈ rows, Compatible s x y) (hpairs : rows.Pairwise (Compatible s)) :
    wp (handler env s) (seedAll configured) w fun r _ => r = .ok () := by
  induction configured generalizing w rows with
  | nil => exact rfl
  | cons rg rest ih =>
    have hrest : Apart env rest := fun g hg => hapart g (List.mem_cons_of_mem rg hg)
    rw [List.length_cons] at hfault
    simp only [seedAll, perform_bind, wp_call, handler]
    cases hid : env.newV4 w.uuids with
    | error e => simp [seedRows, hid] at hrows
    | ok guid =>
      simp only [seedRows, hid, Option.map_eq_some_iff] at hrows
      obtain ⟨more, hmore, rfl⟩ := hrows
      obtain ⟨hfirst, hpairs⟩ := List.pairwise_cons.mp hpairs
      have hnew : ∀ x ∈ w.drawn.stored, x.guid ≠ guid :=
        fun x hx hguid => hw x hx w.uuids le_rfl (hguid ▸ hid)
      have hsave := wp_saveRouterGroup_new env s w.drawn { rg with guid := guid } hread hwrite
        (hfault 0 (by omega)) (hfault 1 (by omega)) (hids.nonempty _ _ hid) hnew
        fun x hx => hstored x hx _ List.mem_cons_self
      have hsaved := wp_saveRouterGroup env s { rg with guid := guid } w.drawn
      simp only [Except.mapError, ofExcept_ok, ret_bind]
      apply wp_bind
      unfold wp at hsave hsaved ⊢
      generalize (saveRouterGroup { rg with guid := guid }).run (handler env s) w.drawn = res
        at hsave hsaved ⊢
      obtain ⟨r, w₁⟩ := res
      obtain ⟨rfl, hins, hcalls, hread₁, hwrite₁⟩ := hsave
      have hunused := (saved_seed hids (hapart rg List.mem_cons_self) hw hid hsaved).1
      have hfault₁ (i : ℕ) (hi : i < 2 * rest.length) : env.fault (w₁.calls + i) = none := by
        rw [hcalls, Nat.add_assoc]
        exact hfault (2 + i) (by omega)
      have hrows₁ : seedRows env w₁.uuids rest = some more := by
        rw [hins.uuids]
        exact hmore
      have hstored₁ : ∀ x ∈ w₁.stored, ∀ y ∈ more, Compatible s x y := by
        intro x hx y hy
        rw [hins.stored, List.mem_append, List.mem_singleton] at hx
        rcases hx with hx | rfl
        · exact hstored x hx y (List.mem_cons_of_mem _ hy)
        · exact hfirst y hy
      exact ih hrest hunused hread₁ hwrite₁ hfault₁ hrows₁ hstored₁ hpairs

/-- A start on an empty table that runs through signals ready. -/
theorem ready_of_runsThrough (hids : env.Uuids) (hapart : Apart env configured)
    (hw : w.stored = []) (hruns : RunsThrough env s configured w) : Ready env s configured w := by
  obtain ⟨hfault, rows, hrows, hpairs⟩ := hruns
  cases configured with
  | nil => exact rfl
  | cons rg rest =>
    have hnone (x : RouterGroupDB) (hx : x ∈ (restart w).called.stored) : False := by
      rw [show (restart w).called.stored = [] from hw] at hx
      cases hx
    rw [Ready, startProcess_empty hw (by simp)]
    exact wp_seedAll_through hids hapart (fun x hx => (hnone x hx).elim) rfl rfl hfault hrows
      (fun x hx => (hnone x hx).elim) hpairs

/-- A start that reads a table that holds something leaves it alone. -/
theorem start_nonempty (hw : w.stored ≠ []) (hread : env.fault w.calls = none) (u : Unit) :
    Ready env s configured w ∧ (start env s configured w u).stored = w.stored := by
  unfold Ready start startProcess seedRouterGroups
  split
  · have hrun : (tried readRouterGroups).run (handler env s) (restart w) =
        (.ok (.ok (w.stored.map RouterGroupDB.toRouterGroup)), (restart w).called) := by
      rw [tried, run_attempt, run_readRouterGroups_unlocked env s (w := restart w) rfl hread]
      rfl
    rw [run_bind_ok hrun]
    have hlength : ((Except.ok (w.stored.map RouterGroupDB.toRouterGroup) :
        Except Err (List RouterGroup)).toOption.getD []).length ≠ 0 := by
      simpa [Except.toOption] using hw
    rw [if_neg hlength]
    exact ⟨rfl, rfl⟩
  · exact ⟨rfl, rfl⟩

/-- A start on an empty table saves every group, or fails. -/
theorem start_empty (hids : env.Uuids) (hapart : Apart env configured) (hw : w.stored = [])
    (hready : Ready env s configured w) (u : Unit) :
    Seeded configured (start env s configured w u) := by
  have hwp : wp (handler env s) (seedRouterGroups configured) (restart w) fun r w' =>
      r = .ok () → Seeded configured w' := by
    unfold seedRouterGroups
    apply wp_ite
    · intro _
      apply wp_attempt_bind
      apply wp_mono (wp_readRouterGroups env s (restart w))
      rintro r w₁ ⟨hsame, hgroups⟩
      have hempty : w₁.stored = [] := hsame.stored.trans hw
      have hnone : (r.toOption.getD []).length = 0 := by
        cases r with
        | error e => rfl
        | ok groups =>
          rw [hgroups groups rfl, show (restart w).stored = [] from hw]
          rfl
      have hunused : Unused env w₁ := by
        intro x hx
        rw [hempty] at hx
        cases hx
      rw [if_pos hnone]
      apply wp_mono (wp_seedAll hids hapart hunused)
      rintro r w' ⟨-, -, hseeded⟩
      exact hseeded
    · intro hlength _ rg hrg
      have hpos := List.length_pos_of_mem hrg
      omega
  exact hwp hready

end Specifications

section Runs
variable {env : Env} {s : Schema RouterGroupColumn} {configured : List RouterGroup}

/-- Nothing has been seeded yet, or everything. -/
def AllOrNothing (configured : List RouterGroup) (w : Store) : Prop :=
  w.stored = [] ∨ Seeded configured w

theorem Seeded.of_stored {w w' : Store} (h : Seeded configured w) (hstored : w'.stored = w.stored) :
    Seeded configured w' := by
  unfold Seeded
  rw [hstored]
  exact h

theorem allIfReady_of_careful (hids : env.Uuids) (hapart : Apart env configured) {w : Store}
    {u : Unit} (hw : AllOrNothing configured w) (hcareful : Careful env s configured w u) :
    AllIfReady env s configured w u := by
  intro hready
  by_cases hempty : w.stored = []
  · exact start_empty hids hapart hempty hready u
  · have hseeded : Seeded configured w := hw.resolve_left hempty
    exact hseeded.of_stored (start_nonempty hempty (hcareful.1 hempty) u).2

theorem AllOrNothing.start (hids : env.Uuids) (hapart : Apart env configured) {w : Store} {u : Unit}
    (hw : AllOrNothing configured w) (hcareful : Careful env s configured w u) :
    AllOrNothing configured (start env s configured w u) := by
  by_cases hempty : w.stored = []
  · rcases hcareful.2 hempty with hstops | hruns
    · exact .inl (start_stops hempty hstops u)
    · have hready := ready_of_runsThrough hids hapart hempty hruns
      exact .inr (allIfReady_of_careful hids hapart hw hcareful hready)
  · have hseeded : Seeded configured w := hw.resolve_left hempty
    exact .inr (hseeded.of_stored (start_nonempty hempty (hcareful.1 hempty) u).2)

/-- Over every sequence of careful starts, nothing is added to a table that holds something,
and if the table was empty at first, a start that signals ready leaves all configured groups. -/
theorem seeding_over_starts (env : Env) (s : Schema RouterGroupColumn)
    (configured : List RouterGroup) (hids : env.Uuids) (hapart : Apart env configured) (w : Store)
    (starts : List Unit)
    (h : Meets (start env s configured) (Careful env s configured) w starts) :
    Meets (start env s configured) (OnlyIntoEmpty env s configured) w starts ∧
      (w.stored = [] → Meets (start env s configured) (AllIfReady env s configured) w starts) := by
  constructor
  · apply h.mono
    intro w u hcareful hne
    exact (start_nonempty hne (hcareful.1 hne) u).2
  · intro hempty
    exact meets_of_meets (I := AllOrNothing configured) (fun _ _ hw hc => hw.start hids hapart hc)
      (fun _ _ hw hc => allIfReady_of_careful hids hapart hw hc) (.inl hempty) h

def twoGroups : List RouterGroup :=
  [⟨"", "", "a", "tcp", "1024-1123"⟩, ⟨"", "", "b", "http", ""⟩]

/-- The calls with the given numbers fail. -/
def failing (calls : List ℕ) : Env :=
  { Env.quiet with fault := fun n => if n ∈ calls then some "connection refused" else none }

theorem failing_uuids (calls : List ℕ) : (failing calls).Uuids :=
  ⟨Env.quiet_uuids.nonempty, Env.quiet_uuids.inj⟩

theorem twoGroups_apart (calls : List ℕ) : Apart (failing calls) twoGroups := by
  intro rg hrg i
  have hguid : rg.modelGuid = "" := by
    revert rg
    decide
  rw [hguid]
  exact fun h => Env.quiet_uuids.nonempty i "" h rfl

/-- The first start fails before it has saved a group, the second seeds, the third has nothing
to do. -/
theorem seeded_by_second_start :
    ¬Ready (failing [1]) (routerGroupSchema .mysql) twoGroups .empty ∧
      Ready (failing [1]) (routerGroupSchema .mysql) twoGroups
        (start (failing [1]) (routerGroupSchema .mysql) twoGroups .empty ()) ∧
      Meets (start (failing [1]) (routerGroupSchema .mysql) twoGroups)
        (AllIfReady (failing [1]) (routerGroupSchema .mysql) twoGroups) .empty [(), (), ()] := by
  refine ⟨by decide +kernel, by decide +kernel, ?_⟩
  exact (seeding_over_starts _ _ _ (failing_uuids [1]) (twoGroups_apart [1]) .empty [(), (), ()]
    (by decide +kernel)).2 rfl

/-- The first start fails after one group, and the second signals ready with that group alone.
A start whose read fails adds the groups to a table that holds one. -/
theorem seeding_in_part :
    ¬Meets (start (failing [4]) (routerGroupSchema .mysql) twoGroups)
        (AllIfReady (failing [4]) (routerGroupSchema .mysql) twoGroups) .empty [(), ()] ∧
      ¬OnlyIntoEmpty (failing [0]) (routerGroupSchema .mysql) twoGroups
        (Store.empty.create (routerGroupSchema .mysql) ⟨"guid-c", "c", "tcp", "3000"⟩).2 () := by
  decide +kernel

end Runs
end RoutingApi.Startup
