import RoutingApi.Handlers.RouterGroups
import RoutingApi.Process.Traces

/-! Which router group requests answer 404, and which 503: the ones whose group is not there
and the ones whose reads fail. -/
namespace RoutingApi.Handlers.RouterGroupsHandler
open Relational Models Process Program Groups Migrations
open Database (Err Env backupError)

section Reads

/-- A read that the backup lock refuses or that fails in the database. -/
def FailedRead : Exchange Call Call.Resp → Prop
  | ⟨.isReadLocked, locked⟩ => locked = true
  | ⟨.find, res⟩ => ∃ e, res = .error e
  | ⟨.first _, res⟩ => ∃ e, res = .error e
  | _ => False

/-- A lookup of one group that the database answers. -/
def FinishedLookup : Exchange Call Call.Resp → Prop
  | ⟨.first _, res⟩ => ∃ row, res = .ok row
  | _ => False

variable {env : Env} {s : Schema RouterGroupColumn} {w : Store}

/-- A lookup tells of its failure, with an error that no handler takes for a missing key. -/
theorem readFirst_cases (env : Env) (s : Schema RouterGroupColumn)
    (q : List (Cond RouterGroupColumn)) (w : Store) :
    (∃ e, ((readFirst q).run (handler env s) w).1 = .error e ∧ Err.isKeyNotFound e = false ∧
        Occurs FailedRead (handler env s) (readFirst q) w ∧
        ¬Occurs FinishedLookup (handler env s) (readFirst q) w) ∨
      ∃ rg, ((readFirst q).run (handler env s) w).1 = .ok rg ∧
        ¬Occurs FailedRead (handler env s) (readFirst q) w ∧
        Occurs FinishedLookup (handler env s) (readFirst q) w := by
  cases hlock : w.readLocked with
  | true => simp [readFirst, handler, hlock, FailedRead, FinishedLookup, Err.isKeyNotFound]
  | false =>
    cases hfault : env.fault w.calls with
    | some msg =>
      simp [readFirst, handler, hlock, Store.client, hfault, FailedRead, FinishedLookup,
        Err.isKeyNotFound]
    | none =>
      cases hfirst : w.called.first q <;>
        simp [readFirst, handler, hlock, Store.client, hfault, hfirst, FailedRead, FinishedLookup]

/-- A list of all groups tells of its failure. -/
theorem readRouterGroups_error
    (h : Occurs FailedRead (handler env s) readRouterGroups w) :
    ∃ e, (readRouterGroups.run (handler env s) w).1 = .error e := by
  cases hlock : w.readLocked with
  | true => simp [readRouterGroups, handler, hlock]
  | false =>
    cases hfault : env.fault w.calls with
    | some msg => simp [readRouterGroups, handler, hlock, Store.client, hfault]
    | none =>
      simp [readRouterGroups, handler, hlock, Store.client, hfault, FailedRead] at h

/-- A save tells of the failure of its lookup. -/
theorem saveRouterGroup_error {rg : RouterGroup}
    (h : Occurs FailedRead (handler env s) (saveRouterGroup rg) w) :
    ∃ e, ((saveRouterGroup rg).run (handler env s) w).1 = .error e := by
  cases hlock : w.writeLocked with
  | true => simp [saveRouterGroup, handler, hlock]
  | false =>
    simp only [saveRouterGroup, perform_bind, occurs_call, FailedRead, run_call, false_or] at h ⊢
    simp only [handler, hlock, Bool.false_eq_true, if_false] at h ⊢
    rcases readFirst_cases env s [.eq .guid (.text rg.guid)] w with
      ⟨e, hread, -, -, -⟩ | ⟨existing, hread, hnone, -⟩
    · exact ⟨e, congrArg Prod.fst (run_bind_of_error hread)⟩
    · rw [writeRouterGroup, occurs_bind] at h
      rcases h with h | ⟨rg', -, h⟩
      · exact absurd h hnone
      · split at h <;> simp [FailedRead] at h

/-- The row of a group without guid, name, type and ports. -/
def blank : RouterGroupDB := ⟨"", "", "", ""⟩

/-- A lookup by guid gives the zero group for a guid that is not there, and for the blank row. -/
theorem lookup_zero {guid : String} {rg : RouterGroup}
    (h : Lookup w (fun x => x.guid = guid) (.ok rg)) :
    rg = .zero ↔ (∀ x ∈ w.stored, x.guid ≠ guid) ∨ guid = "" ∧ blank ∈ w.stored := by
  cases h with
  | missing h => exact ⟨fun _ => .inl h, fun _ => rfl⟩
  | found x hx hguid =>
    constructor
    · intro hzero
      have hblank : x = blank := by
        simp only [RouterGroupDB.toRouterGroup, RouterGroup.zero, RouterGroup.mk.injEq] at hzero
        obtain ⟨-, hg, hn, ht, hp⟩ := hzero
        cases x
        simp_all [blank]
      subst hblank
      exact .inr ⟨hguid.symm, hx⟩
    · rintro (habsent | ⟨rfl, hblank⟩)
      · exact absurd hguid (habsent x hx)
      · rw [Store.eq_of_guid hx hblank hguid]
        rfl

/-- What a lookup by guid comes to: an error, a group, or nothing that the handlers see. -/
theorem readRouterGroup_cases (env : Env) (s : Schema RouterGroupColumn) (guid : String)
    (w : Store) :
    (∃ e, ((readRouterGroup guid).run (handler env s) w).1 = .error e ∧
        Err.isKeyNotFound e = false ∧
        ¬Occurs FinishedLookup (handler env s) (readRouterGroup guid) w) ∨
      (∃ rg, ((readRouterGroup guid).run (handler env s) w).1 = .ok rg ∧ rg ≠ .zero ∧
        ¬(guid = "" ∧ blank ∈ w.stored) ∧
        ¬Occurs FailedRead (handler env s) (readRouterGroup guid) w) ∨
      ((readRouterGroup guid).run (handler env s) w).1 = .ok .zero ∧
        ¬Occurs FailedRead (handler env s) (readRouterGroup guid) w ∧
        Occurs FinishedLookup (handler env s) (readRouterGroup guid) w ∧
        ((∀ x ∈ w.stored, x.guid ≠ guid) ∨ guid = "" ∧ blank ∈ w.stored) := by
  have hlookup := (wp_readRouterGroup env s guid w).2
  rcases readFirst_cases env s [.eq .guid (.text guid)] w with
    ⟨e, hread, hkey, -, hunfinished⟩ | ⟨rg, hread, hok, hfinished⟩
  · exact .inl ⟨e, hread, hkey, hunfinished⟩
  · rw [readRouterGroup, hread] at hlookup
    have hzero := lookup_zero hlookup
    by_cases h : rg = .zero
    · subst h
      exact .inr (.inr ⟨hread, hok, hfinished, hzero.mp rfl⟩)
    · exact .inr (.inl ⟨rg, hread, h, fun hblank => h (hzero.mpr (.inr hblank)), hok⟩)

theorem readRouterGroup_error {guid : String}
    (h : Occurs FailedRead (handler env s) (readRouterGroup guid) w) :
    ∃ e, ((readRouterGroup guid).run (handler env s) w).1 = .error e := by
  rcases readFirst_cases env s [.eq .guid (.text guid)] w with
    ⟨e, hread, -, -, -⟩ | ⟨rg, -, hok, -⟩
  · exact ⟨e, hread⟩
  · exact absurd h hok

end Reads

section Reports
variable (cfg : PortSettings) (env : Env) (s : Schema RouterGroupColumn) (w : Store)

/-- What the request asks for is not there. No request to create asks for something. -/
def Absent : Request → Prop
  | .list _ name => ∀ x ∈ w.stored, x.name ≠ name
  | .create _ _ => False
  | .update _ guid _ => ∀ x ∈ w.stored, x.guid ≠ guid
  | .delete _ guid => ∀ x ∈ w.stored, x.guid ≠ guid

/-- 404 says that the group was looked for and is not there, and a failed read gives 503. -/
structure Reports (r : Request) (a : Answer) : Prop where
  notFound : a.code = 404 →
    ¬Occurs FailedRead (handler env s) (r.handle cfg) w ∧ Absent w r
  failed : Occurs FailedRead (handler env s) (r.handle cfg) w → a.code = 503

/-- The requests that are misreported: a lookup by name that fails, and one by the empty guid
that finds the blank row. -/
inductive Misreported : Request → Prop
  | list (token name) (hname : name ≠ "")
      (h : Occurs FailedRead (handler env s) (listRouterGroups token name) w) :
      Misreported (.list token name)
  | update (token body) (hblank : blank ∈ w.stored)
      (h : Occurs FinishedLookup (handler env s) (updateRouterGroup cfg token "" body) w) :
      Misreported (.update token "" body)
  | delete (token) (hblank : blank ∈ w.stored)
      (h : Occurs FinishedLookup (handler env s) (deleteRouterGroup token "") w) :
      Misreported (.delete token "")

/-- The answer is a 503, or it is not a 404 and no read has failed. -/
def Safe (p : GroupDB Answer) (w : Store) : Prop :=
  ∃ a, (p.run (handler env s) w).1 = .ok a ∧
    (a.code = 503 ∨ a.code ≠ 404 ∧ ¬Occurs FailedRead (handler env s) p w)

end Reports

section Handlers
variable {cfg : PortSettings} {env : Env} {s : Schema RouterGroupColumn} {w : Store}

theorem safe_ret {a : Answer} (h : Nat.beq a.code 404 = false) : Safe env s (.ret a) w :=
  ⟨a, rfl, .inr ⟨Nat.ne_of_beq_eq_false h, not_occurs_ret⟩⟩

/-- An operation that tells of its failures, which are then answered 503. -/
theorem safe_tried_bind {β : Type} {p : GroupDB β} {f : Except Err β → GroupDB Answer}
    (hp : Occurs FailedRead (handler env s) p w → ∃ e, (p.run (handler env s) w).1 = .error e)
    (herror : ∀ e, f (.error e) = .ret (.failed (handleDBCommunicationError e)))
    (hok : ∀ b, (p.run (handler env s) w).1 = .ok b →
      Safe env s (f (.ok b)) (p.run (handler env s) w).2) : Safe env s (tried p >>= f) w := by
  simp only [Safe, tried, run_attempt_bind, occurs_attempt_bind]
  cases hrun : (p.run (handler env s) w).1 with
  | error e =>
    rw [herror]
    exact ⟨_, rfl, .inl rfl⟩
  | ok b =>
    have hreads : ¬Occurs FailedRead (handler env s) p w := by
      intro h
      obtain ⟨e, he⟩ := hp h
      rw [hrun] at he
      cases he
    simpa only [hreads, false_or, Safe] using hok b hrun

theorem safe_call {c : Call} {next : c.Resp → GroupDB Answer}
    (hc : ¬FailedRead ⟨c, (handler env s c w).1⟩)
    (h : Safe env s (next (handler env s c w).1) (handler env s c w).2) :
    Safe env s (.call c next) w := by
  simpa only [Safe, run_call, occurs_call, hc, false_or] using h

/-- A save at the end of a request. -/
theorem safe_save {rg : RouterGroup} {a : Answer} (ha : Nat.beq a.code 404 = false) :
    Safe env s (tried (saveRouterGroup rg) >>= fun
      | .error err => .ret (.failed (handleDBCommunicationError err))
      | .ok () => .ret a) w := by
  apply safe_tried_bind saveRouterGroup_error
  · intro e
    rfl
  · intro u _
    exact safe_ret ha

theorem Safe.reports {r : Request} (h : Safe env s (r.handle cfg) w)
    (hmis : ¬Misreported cfg env s w r) :
    ∃ a, answer cfg env s w r = .ok a ∧
      (Reports cfg env s w r a ↔ ¬Misreported cfg env s w r) := by
  obtain ⟨a, ha, hcode | ⟨hcode, hreads⟩⟩ := h
  · exact ⟨a, ha, iff_of_true ⟨fun h => by omega, fun _ => hcode⟩ hmis⟩
  · exact ⟨a, ha, iff_of_true ⟨fun h => absurd h hcode, fun h => absurd h hreads⟩ hmis⟩

theorem safe_list_all (env : Env) (s : Schema RouterGroupColumn) (w : Store) :
    Safe env s (listRouterGroups (.ok ()) "") w := by
  simp only [listRouterGroups, ne_eq, not_true_eq_false, if_false]
  apply safe_tried_bind readRouterGroups_error
  · intro e
    rfl
  · intro groups _
    exact safe_ret rfl

/-- A list by name answers 404 when the group is not there and also when its lookup fails. -/
theorem list_named {name : String} (hname : name ≠ "") (cfg : PortSettings) (env : Env)
    (s : Schema RouterGroupColumn) (w : Store) :
    ∃ a, answer cfg env s w (.list (.ok ()) name) = .ok a ∧
      (Occurs FailedRead (handler env s) (listRouterGroups (.ok ()) name) w ∧ a.code = 404 ∨
        ¬Occurs FailedRead (handler env s) (listRouterGroups (.ok ()) name) w ∧
          (a.code = 404 → ∀ x ∈ w.stored, x.name ≠ name)) := by
  have hlookup := (wp_readRouterGroupByName env s hname w).2
  simp only [answer, Request.handle, listRouterGroups, ne_eq, hname, not_false_eq_true, if_true,
    tried, run_attempt_bind, occurs_attempt_bind]
  rcases readFirst_cases env s [.eq .name (.text name)] w with
    ⟨e, hread, -, hfail, -⟩ | ⟨rg, hread, hok, -⟩
  · rw [readRouterGroupByName, hread]
    exact ⟨_, rfl, .inl ⟨.inl hfail, rfl⟩⟩
  · rw [readRouterGroupByName, hread] at hlookup ⊢
    generalize hfound : (Except.ok rg : Except Err RouterGroup).toOption.getD .zero = found
    obtain rfl : rg = found := hfound
    by_cases hzero : rg = .zero
    · rw [if_pos hzero]
      refine ⟨_, rfl, .inr ⟨by simpa using hok, fun _ => ?_⟩⟩
      cases hlookup with
      | missing h => exact h
      | found x hx hp =>
        have hempty : x.name = "" := congrArg RouterGroup.name hzero
        exact absurd (hp.symm.trans hempty) hname
    · rw [if_neg hzero]
      exact ⟨_, rfl, .inr ⟨by simpa using hok, by simp [Answer.code]⟩⟩

/-- A list is misreported exactly when it is by name and its lookup fails. -/
theorem listRouterGroups_reports (cfg : PortSettings) (env : Env) (s : Schema RouterGroupColumn)
    (w : Store) (token : Except String Unit) (name : String) :
    ∃ a, answer cfg env s w (.list token name) = .ok a ∧
      (Reports cfg env s w (.list token name) a ↔
        ¬Misreported cfg env s w (.list token name)) := by
  match token with
  | .error err =>
    apply Safe.reports (safe_ret rfl)
    intro h
    cases h with
    | list _ _ _ h => exact not_occurs_ret h
  | .ok () =>
    by_cases hname : name = ""
    · subst hname
      apply Safe.reports (safe_list_all env s w)
      intro h
      cases h with
      | list _ _ hname _ => exact hname rfl
    · obtain ⟨a, ha, ⟨hfail, hcode⟩ | ⟨hok, habsent⟩⟩ := list_named hname cfg env s w
      · refine ⟨a, ha, iff_of_false ?_ ?_⟩
        · intro h
          exact (h.notFound hcode).1 hfail
        · intro h
          exact h (.list _ _ hname hfail)
      · refine ⟨a, ha, iff_of_true ⟨fun hcode => ⟨hok, habsent hcode⟩, fun h => absurd h hok⟩ ?_⟩
        intro h
        cases h with
        | list _ _ _ h => exact hok h

theorem safe_createRouterGroup (cfg : PortSettings) (env : Env) (s : Schema RouterGroupColumn)
    (w : Store) (token : Except String Unit) (body : Except String RouterGroupJson) :
    Safe env s (createRouterGroup cfg token body) w := by
  match token, body with
  | .error err, _ => exact safe_ret rfl
  | .ok (), .error err => exact safe_ret rfl
  | .ok (), .ok rg =>
    apply safe_tried_bind readRouterGroups_error
    · intro e
      rfl
    · intro groups _
      dsimp only
      cases routerGroupExist groups rg.toRouterGroup with
      | some existing => exact safe_ret rfl
      | none =>
        dsimp only
        rw [perform_bind]
        refine safe_call (by simp [FailedRead]) ?_
        split
        next => exact safe_ret rfl
        next guid _ =>
          cases RouterGroup.validateAll cfg (groups ++ [{ rg.toRouterGroup with guid := guid }]) with
          | error err => exact safe_ret rfl
          | ok u => exact safe_save rfl

/-- The two ways in which a request for a guid can go: no 404 or a 503 unless a read fails, and
not for the blank row; or a 404 after a lookup that found nothing or the blank row. -/
inductive Keyed (env : Env) (s : Schema RouterGroupColumn) (guid : String) (p : GroupDB Answer)
    (w : Store) : Prop
  | safe (h : Safe env s p w) (hblank : Occurs FinishedLookup (handler env s) p w →
      ¬(guid = "" ∧ blank ∈ w.stored))
  | notFound (a : Answer) (ha : (p.run (handler env s) w).1 = .ok a) (hcode : a.code = 404)
      (hok : ¬Occurs FailedRead (handler env s) p w)
      (hfinished : Occurs FinishedLookup (handler env s) p w)
      (hwhy : (∀ x ∈ w.stored, x.guid ≠ guid) ∨ guid = "" ∧ blank ∈ w.stored)

theorem Keyed.reports {r : Request} {guid : String} (h : Keyed env s guid (r.handle cfg) w)
    (habsent : Absent w r ↔ ∀ x ∈ w.stored, x.guid ≠ guid)
    (hmis : Misreported cfg env s w r ↔ (guid = "" ∧ blank ∈ w.stored) ∧
      Occurs FinishedLookup (handler env s) (r.handle cfg) w) :
    ∃ a, answer cfg env s w r = .ok a ∧
      (Reports cfg env s w r a ↔ ¬Misreported cfg env s w r) := by
  cases h with
  | safe h hblank =>
    apply h.reports
    rw [hmis]
    rintro ⟨hrow, hfinished⟩
    exact hblank hfinished hrow
  | notFound a ha hcode hok hfinished hwhy =>
    refine ⟨a, ha, ?_⟩
    rcases hwhy with hnone | hrow
    · refine iff_of_true ⟨fun _ => ⟨hok, habsent.mpr hnone⟩, fun h => absurd h hok⟩ ?_
      rw [hmis]
      rintro ⟨⟨rfl, hblank⟩, -⟩
      exact hnone blank hblank rfl
    · refine iff_of_false (fun h => ?_) (not_not.mpr (hmis.mpr ⟨hrow, hfinished⟩))
      exact habsent.mp (h.notFound hcode).2 blank hrow.2 hrow.1.symm

theorem keyed_updateRouterGroup (cfg : PortSettings) (env : Env) (s : Schema RouterGroupColumn)
    (w : Store) (token : Except String Unit) (guid : String)
    (body : Except String RouterGroupJson) :
    Keyed env s guid (updateRouterGroup cfg token guid body) w := by
  match token, body with
  | .error err, body => exact .safe (safe_ret rfl) fun h => absurd h not_occurs_ret
  | .ok (), .error err => exact .safe (safe_ret rfl) fun h => absurd h not_occurs_ret
  | .ok (), .ok body =>
    rcases readRouterGroup_cases env s guid w with
      ⟨e, hread, -, hunfinished⟩ | ⟨rg, hread, hrg, hblank, -⟩ | ⟨hread, hok, hfinished, hwhy⟩
    · refine .safe (safe_tried_bind readRouterGroup_error (fun _ => rfl) ?_) ?_
      · intro rg hrg
        rw [hread] at hrg
        cases hrg
      · intro h
        simp only [updateRouterGroup, decoded, tried, occurs_attempt_bind, hread] at h
        rcases h with h | h
        · exact absurd h hunfinished
        · exact absurd h not_occurs_ret
    · refine .safe (safe_tried_bind readRouterGroup_error (fun _ => rfl) ?_) (fun _ => hblank)
      intro rg' hrg'
      rw [hread] at hrg'
      cases hrg'
      simp only [if_neg hrg]
      split
      · split
        next err _ => exact safe_ret rfl
        next => exact safe_save rfl
      · exact safe_ret rfl
    · refine .notFound (.notFound (some ("router group '" ++ guid ++ "' does not exist"))) ?_ rfl ?_ ?_
        hwhy
      · simp only [updateRouterGroup, decoded, tried, run_attempt_bind, hread]
        rfl
      · simpa [updateRouterGroup, decoded, tried, occurs_attempt_bind, hread] using hok
      · simpa [updateRouterGroup, decoded, tried, occurs_attempt_bind, hread] using hfinished

/-- How the deletion of a group ends, by what its lookup comes to. -/
theorem removeRouterGroup_cases (env : Env) (s : Schema RouterGroupColumn) (guid : String)
    (w : Store) :
    (∃ e, ((removeRouterGroup guid).run (handler env s) w).1 = .error e ∧
        Err.isKeyNotFound e = false ∧
        (Occurs FinishedLookup (handler env s) (removeRouterGroup guid) w →
          ¬(guid = "" ∧ blank ∈ w.stored))) ∨
      (((removeRouterGroup guid).run (handler env s) w).1 = .ok () ∧
        ¬Occurs FailedRead (handler env s) (removeRouterGroup guid) w ∧
        ¬(guid = "" ∧ blank ∈ w.stored)) ∨
      ((removeRouterGroup guid).run (handler env s) w).1 = .error deleteRouterGroupError ∧
        ¬Occurs FailedRead (handler env s) (removeRouterGroup guid) w ∧
        Occurs FinishedLookup (handler env s) (removeRouterGroup guid) w ∧
        ((∀ x ∈ w.stored, x.guid ≠ guid) ∨ guid = "" ∧ blank ∈ w.stored) := by
  simp only [removeRouterGroup, occurs_bind]
  rcases readRouterGroup_cases env s guid w with
    ⟨e, hread, hkey, hunfinished⟩ | ⟨rg, hread, hrg, hblank, hok⟩ | ⟨hread, hok, hfinished, hwhy⟩
  · rw [run_bind_of_error hread]
    refine .inl ⟨e, rfl, hkey, ?_⟩
    rintro (h | ⟨rg, hrg, -⟩)
    · exact absurd h hunfinished
    · rw [hread] at hrg
      cases hrg
  · rw [run_bind_of_ok hread, if_neg hrg, perform_bind, run_call]
    cases hfault : env.fault ((readRouterGroup guid).run (handler env s) w).2.calls with
    | some msg =>
      refine .inl ⟨.client msg, ?_, rfl, fun _ => hblank⟩
      simp [handler, Store.client, hfault]
    | none =>
      refine .inr (.inl ⟨?_, ?_, hblank⟩)
      · simp [handler, Store.client, hfault]
      · simp [hok, hread, hrg, FailedRead]
  · rw [run_bind_of_ok hread, if_pos rfl]
    refine .inr (.inr ⟨rfl, ?_, .inl hfinished, hwhy⟩)
    simp [hok, hread]

/-- What a deletion is answered. -/
def deleteReply : Except Err Unit → Answer
  | .error err =>
    if Err.isKeyNotFound err then .notFound none else .failed (handleDBCommunicationError err)
  | .ok () => .noContent

theorem deleteRouterGroup_eq (guid : String) :
    deleteRouterGroup (.ok ()) guid =
      tried (Groups.deleteRouterGroup guid) >>= fun r => .ret (deleteReply r) := by
  dsimp only [deleteRouterGroup]
  congr 1
  funext r
  cases r with
  | ok u => rfl
  | error e =>
    dsimp only [deleteReply]
    split <;> rfl

theorem keyed_deleteRouterGroup (env : Env) (s : Schema RouterGroupColumn) (w : Store)
    (token : Except String Unit) (guid : String) :
    Keyed env s guid (deleteRouterGroup token guid) w := by
  match token with
  | .error err => exact .safe (safe_ret rfl) fun h => absurd h not_occurs_ret
  | .ok () =>
    have hanswer : ((deleteRouterGroup (.ok ()) guid).run (handler env s) w).1 =
        .ok (deleteReply ((Groups.deleteRouterGroup guid).run (handler env s) w).1) := by
      rw [deleteRouterGroup_eq, tried, run_attempt_bind]
      rfl
    have hoccurs (φ : Exchange Call Call.Resp → Prop) :
        Occurs φ (handler env s) (deleteRouterGroup (.ok ()) guid) w ↔
          Occurs φ (handler env s) (Groups.deleteRouterGroup guid) w := by
      rw [deleteRouterGroup_eq, tried, occurs_attempt_bind, or_iff_left not_occurs_ret]
    cases hlock : w.writeLocked with
    | true =>
      have hrun : ((Groups.deleteRouterGroup guid).run (handler env s) w).1 =
          .error (.plain backupError) := by simp [Groups.deleteRouterGroup, handler, hlock]
      rw [hrun] at hanswer
      refine .safe ⟨_, hanswer, .inl rfl⟩ ?_
      simp [hoccurs, Groups.deleteRouterGroup, handler, hlock, FinishedLookup]
    | false =>
      have hremove (φ : Exchange Call Call.Resp → Prop) (hφ : ¬φ ⟨.isWriteLocked, false⟩) :
          Occurs φ (handler env s) (deleteRouterGroup (.ok ()) guid) w ↔
            Occurs φ (handler env s) (removeRouterGroup guid) w := by
        simp [hoccurs, Groups.deleteRouterGroup, handler, hlock, hφ]
      have hreads := hremove FailedRead (by simp [FailedRead])
      have hfinished := hremove FinishedLookup (by simp [FinishedLookup])
      have hrun : (Groups.deleteRouterGroup guid).run (handler env s) w =
          (removeRouterGroup guid).run (handler env s) w := by
        simp [Groups.deleteRouterGroup, handler, hlock]
      rw [hrun] at hanswer
      rcases removeRouterGroup_cases env s guid w with
        ⟨e, he, hkey, hblank⟩ | ⟨hok, hno, hblank⟩ | ⟨hnone, hno, hlooked, hwhy⟩
      · rw [he, deleteReply, hkey] at hanswer
        exact .safe ⟨_, hanswer, .inl rfl⟩ (hblank ∘ hfinished.mp)
      · rw [hok] at hanswer
        exact .safe ⟨_, hanswer, .inr ⟨by simp [deleteReply, Answer.code], hreads.not.mpr hno⟩⟩
          (fun _ => hblank)
      · rw [hnone] at hanswer
        exact .notFound (.notFound none) hanswer rfl (hreads.not.mpr hno) (hfinished.mpr hlooked)
          hwhy

/-- Of all requests only these are misreported: a list by name whose lookup fails, which is
answered 404, and a request for the empty guid that finds a row without any content. -/
theorem reports_iff_not_misreported (cfg : PortSettings) (env : Env)
    (s : Schema RouterGroupColumn) (w : Store) (r : Request) :
    ∃ a, answer cfg env s w r = .ok a ∧
      (Reports cfg env s w r a ↔ ¬Misreported cfg env s w r) := by
  cases r with
  | list token name => exact listRouterGroups_reports cfg env s w token name
  | create token body =>
    apply Safe.reports (safe_createRouterGroup cfg env s w token body)
    intro h
    cases h
  | update token guid body =>
    apply (keyed_updateRouterGroup cfg env s w token guid body).reports Iff.rfl
    constructor
    · intro h
      cases h with
      | update _ _ hblank h => exact ⟨⟨rfl, hblank⟩, h⟩
    · rintro ⟨⟨rfl, hblank⟩, h⟩
      exact .update token body hblank h
  | delete token guid =>
    apply (keyed_deleteRouterGroup env s w token guid).reports Iff.rfl
    constructor
    · intro h
      cases h with
      | delete _ hblank h => exact ⟨⟨rfl, hblank⟩, h⟩
    · rintro ⟨⟨rfl, hblank⟩, h⟩
      exact .delete token hblank h

/-- While reads are locked a group that exists is reported as not found. -/
theorem notFound_while_locked :
    answer ⟨[], false⟩ .quiet (routerGroupSchema .mysql) (LockAct.lockReads.apply oneGroup)
        (.list (.ok ()) "a") = .ok (.notFound (some "router group 'a' not found")) ∧
      (LockAct.lockReads.apply oneGroup).stored = [groupA] ∧ groupA.name = "a" := by
  decide +kernel

end Handlers
end RoutingApi.Handlers.RouterGroupsHandler
