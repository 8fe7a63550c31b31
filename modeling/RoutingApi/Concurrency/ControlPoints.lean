import RoutingApi.Database.Operations

/-! Where a call of `SaveRoute`, `DeleteRoute` or a prune pass, or of their TCP
counterparts, can stand between two of its steps, and what its next step does when
other calls act in between. -/
namespace RoutingApi.Concurrency
open Relational Gorm Models Process Program Database

/-- The calls that run concurrently. -/
inductive Job (E : Type) where
  | save (m : E)
  | delete (m : E)
  | prune
  deriving DecidableEq, Repr

/-- The step a call is about to make, with what it has learned so far. -/
inductive Point (E : Type) where
  | saving (m : E)
  | refreshing (existing m : E)
  | storing (e : E)
  | creating (m : E)
  | stamping (guid : String) (m : E)
  | tagging (e : E)
  | inserting (e : E)
  | deleting (m : E)
  | removing (existing : E)
  | pruning
  | scanning (now : ℤ)
  | clearing (routes : List E)
  | expiring (routes : List E)
  | announcing (ev : Event E)
  | done
  | failed (e : Err)
  deriving DecidableEq, Repr

section Points
variable {E C κ : Type} [DecidableEq E] (K : Kind E C κ)

def Job.start : Job E → Point E
  | .save m => .saving m
  | .delete m => .deleting m
  | .prune => .pruning

def Job.prog : Job E → DB E C Unit
  | .save m => saveEntity K m
  | .delete m => deleteEntity K m
  | .prune => pruneEntities K

/-- What is left to run at a point. -/
def Point.prog : Point E → DB E C Unit
  | .saving m => saveEntity K m
  | .refreshing existing m => updateExisting K existing m
  | .storing e => do
    save e
    emitEvent .update e
  | .creating m => createNew K m
  | .stamping guid m => do
    let now ← timeNow
    let new ← deref (K.withModel guid now m)
    let tag ← newModificationTag
    create (K.setTag tag new)
    emitEvent .create (K.setTag tag new)
  | .tagging e => do
    let tag ← newModificationTag
    create (K.setTag tag e)
    emitEvent .create (K.setTag tag e)
  | .inserting e => do
    create e
    emitEvent .create e
  | .deleting m => deleteEntity K m
  | .removing existing => do
    delete existing
    emitEvent .delete existing
  | .pruning => pruneEntities K
  | .scanning now => do
    let routes ← find [.before K.expiry (now - second)]
    deleteIn (prunedGuids K routes)
    emitExpired routes
  | .clearing routes => do
    deleteIn (prunedGuids K routes)
    emitExpired routes
  | .expiring routes => emitExpired routes
  | .announcing ev => perform (Call.emit ev)
  | .done => .ret ()
  | .failed e => .fail e

/-- The point after a call with a response that may be an error. -/
def Point.after {α : Type} (f : α → Point E) : Except Err α → Point E
  | .ok a => f a
  | .error e => .failed e

/-- What a save makes of the rows its lookup returned. -/
def Point.looked (found : E → Point E) (missing : Point E) : List E → Point E
  | [] => missing
  | [x] => if x ≠ K.model.zero then found x else missing
  | _ :: _ :: _ => .failed (.plain K.duplicates)

def Point.orNil (f : E → Point E) : Option E → Point E
  | some e => f e
  | none => .failed .nilDereference

/-- The responses of the calls, as in `handler`. -/
def Point.next (env : Env) (s : Schema C) : Point E → World K → Point E
  | .saving m, w => .after (.looked K (.refreshing · m) (.creating m))
      (handler env s (.find (K.lookup m)) w).1
  | .refreshing existing m, w => .orNil .storing (K.update w.now existing m)
  | .storing e, w => .after (fun _ => .announcing ⟨.update, e⟩) (handler env s (.save e) w).1
  | .creating m, w => .after (.stamping · m) (handler env s .newV4 w).1
  | .stamping guid m, w => .orNil .tagging (K.withModel guid w.now m)
  | .tagging e, w => .after (fun u => .inserting (K.setTag ⟨u, 0⟩ e)) (handler env s .newV4 w).1
  | .inserting e, w => .after (fun _ => .announcing ⟨.create, e⟩) (handler env s (.create e) w).1
  | .deleting m, w => .after (.looked K .removing (.failed deleteRouteError))
      (handler env s (.find (K.lookup m)) w).1
  | .removing existing, w => .after (fun _ => .announcing ⟨.delete, existing⟩)
      (handler env s (.delete existing) w).1
  | .pruning, w => .scanning w.now
  | .scanning now, w => .after .clearing
      (handler env s (.find [.before K.expiry (now - second)]) w).1
  | .clearing routes, w => .after (fun _ => .expiring routes)
      (handler env s (.deleteIn (prunedGuids K routes)) w).1
  | .expiring [], _ => .expiring []
  | .expiring (_ :: rest), _ => .expiring rest
  | .announcing _, _ => .done
  | .done, _ => .done
  | .failed e, _ => .failed e

variable {K}

/-- The rest of a lookup once its rows are there. -/
theorem prog_looked (found : E → Point E) (missing : Point E) (k : E → DB E C Unit)
    (hfound : ∀ x, x ≠ K.model.zero → k x = (found x).prog K)
    (hmissing : k K.model.zero = missing.prog K) (routes : List E) :
    (single K routes >>= k) = (Point.looked K found missing routes).prog K := by
  match routes with
  | [] => exact hmissing
  | [x] =>
    show k x = (if x ≠ K.model.zero then found x else missing).prog K
    split
    next hx => exact hfound x hx
    next hx => rw [not_not.mp hx, hmissing]
  | x :: y :: rest =>
    unfold single
    rw [if_pos (by simp)]
    rfl

theorem advance_fst (env : Env) (s : Schema C) (p : Point E) (w : World K) :
    ((p.prog K).advance (handler env s) w).1 = (p.next K env s w).prog K := by
  cases p with
  | saving m =>
    have hrest := prog_looked (K := K) (Point.refreshing · m) (.creating m)
      (fun x => if x ≠ K.model.zero then updateExisting K x m else createNew K m)
      (fun x hx => if_pos hx) (if_neg (by simp))
    cases h : (handler env s (.find (K.lookup m)) w).1 with
    | error e => simp [Point.prog, Point.next, Point.after, saveEntity, findExisting, find, h]
    | ok routes =>
      rw [Point.next, h, Point.after, ← hrest]
      simp only [Point.prog, saveEntity, findExisting, find, perform_bind, call_bind,
        advance_call, h, ofExcept_ok, ret_bind]
  | refreshing existing m =>
    cases h : K.update w.now existing m <;>
      simp [Point.prog, Point.next, Point.orNil, updateExisting, timeNow, deref, handler, h]
  | storing e =>
    cases h : (handler env s (.save e) w).1 <;>
      simp [Point.prog, Point.next, Point.after, save, emitEvent, h]
  | creating m =>
    cases h : (handler env s .newV4 w).1 <;>
      simp [Point.prog, Point.next, Point.after, createNew, newWithModel, newV4, Program.bind_assoc, h]
  | stamping guid m =>
    cases h : K.withModel guid w.now m <;>
      simp [Point.prog, Point.next, Point.orNil, timeNow, deref, handler, h]
  | tagging e =>
    cases h : (handler env s .newV4 w).1 <;>
      simp [Point.prog, Point.next, Point.after, newModificationTag, newV4, h]
  | inserting e =>
    cases h : (handler env s (.create e) w).1 <;>
      simp [Point.prog, Point.next, Point.after, create, emitEvent, h]
  | deleting m =>
    have hrest := prog_looked (K := K) .removing (.failed deleteRouteError)
      (fun x => if x = K.model.zero then .fail deleteRouteError else do
        delete x
        emitEvent .delete x)
      (fun x hx => if_neg hx) (if_pos rfl)
    cases h : (handler env s (.find (K.lookup m)) w).1 with
    | error e => simp [Point.prog, Point.next, Point.after, deleteEntity, findExisting, find, h]
    | ok routes =>
      rw [Point.next, h, Point.after, ← hrest]
      simp only [Point.prog, deleteEntity, findExisting, find, perform_bind, call_bind,
        advance_call, h, ofExcept_ok, ret_bind]
  | removing existing =>
    cases h : (handler env s (.delete existing) w).1 <;>
      simp [Point.prog, Point.next, Point.after, delete, emitEvent, h]
  | pruning => rfl
  | scanning now =>
    cases h : (handler env s (.find [.before K.expiry (now - second)]) w).1 <;>
      simp [Point.prog, Point.next, Point.after, find, h]
  | clearing routes =>
    cases h : (handler env s (.deleteIn (prunedGuids K routes)) w).1 <;>
      simp [Point.prog, Point.next, Point.after, deleteIn, h]
  | expiring routes => cases routes <;> rfl
  | announcing ev => rfl
  | done => rfl
  | failed e => rfl

/-- The points as a chart of the programs. -/
def chart (env : Env) (s : Schema C) : Chart (handler (K := K) env s) Err Unit (Point E) where
  prog := Point.prog K
  next p w := p.next K env s w
  advance_fst := advance_fst env s

/-- The points from which a call can fail. -/
def Point.fallible : Point E → Bool
  | .pruning | .expiring _ | .announcing _ | .done | .failed _ => false
  | _ => true

/-- What a step of a call does, whoever acted before it. -/
inductive Step (env : Env) (s : Schema C) (w : World K) : Point E → Point E → World K → Prop
  | failed (p : Point E) (e : Err) (w' : World K) : p.fallible = true → w.Emits w' [] →
      (e = .plain K.duplicates → ∃ m, (p = .saving m ∨ p = .deleting m) ∧
        2 ≤ (w.table.select (K.lookup m)).length) → Step env s w p (.failed e) w'
  | matched (m : E) (x : Row C) (w' : World K) : w.Emits w' [] → w.Matched m x →
      Step env s w (.saving m) (.refreshing (K.model.ofRow x) m) w'
  | unmatched (m : E) (w' : World K) : w.Emits w' [] → w.Unmatched m →
      Step env s w (.saving m) (.creating m) w'
  | refreshed (existing m e : E) : K.update w.now existing m = some e →
      Step env s w (.refreshing existing m) (.storing e) w
  | drewGuid (m : E) (g : String) : env.newV4 w.uuids = .ok g →
      Step env s w (.creating m) (.stamping g m) w.drawn
  | stamped (g : String) (m e : E) : K.withModel g w.now m = some e →
      Step env s w (.stamping g m) (.tagging e) w
  | drewTag (e : E) (u : String) : env.newV4 w.uuids = .ok u →
      Step env s w (.tagging e) (.inserting (K.setTag ⟨u, 0⟩ e)) w.drawn
  | inserted (e : E) (w' : World K) : w.Inserts w' s e →
      Step env s w (.inserting e) (.announcing ⟨.create, e⟩) w'
  | updated (e : E) (w' : World K) : K.guid e ≠ "" → w.Updates w' s e →
      Step env s w (.storing e) (.announcing ⟨.update, e⟩) w'
  | reinserted (e : E) (w' : World K) : ¬w.table.Stores (.text (K.guid e)) →
      (K.guid e ≠ "" → w.conflict s e = none) → w.Inserts w' s e →
      Step env s w (.storing e) (.announcing ⟨.update, e⟩) w'
  | overwritten (e : E) (x : Row C) (w' : World K) : K.guid e ≠ "" →
      ¬w.table.Stores (.text (K.guid e)) → w.Overwrites w' s e x →
      Step env s w (.storing e) (.announcing ⟨.update, e⟩) w'
  | located (m : E) (x : Row C) (w' : World K) : w.Emits w' [] → w.Matched m x →
      Step env s w (.deleting m) (.removing (K.model.ofRow x)) w'
  | removed (x : E) (w' : World K) : K.guid x ≠ "" →
      w.Removes w' (fun g => decide (g = K.guid x)) →
      Step env s w (.removing x) (.announcing ⟨.delete, x⟩) w'
  | looked : Step env s w .pruning (.scanning w.now) w
  | scanned (now : ℤ) (w' : World K) : w.Emits w' [] → Step env s w (.scanning now)
      (.clearing ((w.table.select [.before K.expiry (now - second)]).map K.model.ofRow)) w'
  | cleared (routes : List E) (w' : World K) :
      w.Removes w' (fun g => decide (g ∈ prunedGuids K routes)) →
      Step env s w (.clearing routes) (.expiring routes) w'
  | expired (r : E) (rest : List E) (w' : World K) : w.Emits w' [⟨.expire, r⟩] →
      Step env s w (.expiring (r :: rest)) (.expiring rest) w'
  | announced (ev : Event E) (w' : World K) : w.Emits w' [ev] →
      Step env s w (.announcing ev) .done w'
  | finished (p : Point E) : (p.prog K).Finished → Step env s w p p w

section Step
variable {env : Env} {s : Schema C} {w : World K}

theorem Step.client {p : Point E} {α : Type} {f : World K → Except Err α × World K}
    {g : α → Point E} (hp : p.fallible = true)
    (h : Step env s w p (.after g (f w.called).1) (f w.called).2) :
    Step env s w p (.after g (w.client env f).1) (w.client env f).2 := by
  rcases w.client_cases env f with ⟨msg, -, hc⟩ | ⟨-, hc⟩
  · rw [hc]
    exact .failed p _ _ hp w.emits_called (by simp)
  · rwa [hc]

/-- The lookup at the start of a save or a delete. -/
theorem Step.lookup {p : Point E} {m : E} {found : E → Point E} {missing : Point E}
    (hp : p = .saving m ∨ p = .deleting m)
    (hfound : ∀ x, w.Matched m x → Step env s w p (found (K.model.ofRow x)) w.called)
    (hmissing : w.Unmatched m → Step env s w p missing w.called) :
    Step env s w p (.looked K found missing ((w.table.select (K.lookup m)).map K.model.ofRow))
      w.called := by
  match h : w.table.select (K.lookup m) with
  | [] => exact hmissing (.inl h)
  | [x] =>
    show Step env s w p
      (if K.model.ofRow x ≠ K.model.zero then found (K.model.ofRow x) else missing) w.called
    split
    next hx => exact hfound x ⟨h, hx⟩
    next hx => exact hmissing (.inr ⟨x, h, not_not.mp hx⟩)
  | x :: y :: rest =>
    exact .failed p _ _ (by rcases hp with rfl | rfl <;> rfl) w.emits_called
      fun _ => ⟨m, hp, by simp [h]⟩

theorem step_storing (e : E) : Step env s w (.storing e)
    (.after (fun _ => .announcing ⟨.update, e⟩) (World.save s e w.called).1)
    (World.save s e w.called).2 := by
  have hw := w.emits_called
  rcases w.called.save_cases s e with hs | ⟨w₃, hs, hsaves⟩
  · rw [hs]
    exact .failed _ _ _ rfl hw (by simp [constraintError])
  · rw [hs]
    cases hsaves with
    | updated hg hup => exact .updated e w₃ hg (hw.updates hup)
    | inserted hgone hfree hins => exact .reinserted e w₃ hgone hfree (hw.inserts hins)
    | overwritten x hg hgone hover => exact .overwritten e x w₃ hg hgone (hw.overwrites hover)

theorem step_inserting (e : E) : Step env s w (.inserting e)
    (.after (fun _ => .announcing ⟨.create, e⟩) (World.create s e w.called).1)
    (World.create s e w.called).2 := by
  have hw := w.emits_called
  rcases w.called.create_cases s e with ⟨hs, -⟩ | ⟨w₃, hs, hins⟩
  · rw [hs]
    exact .failed _ _ _ rfl hw (by simp [constraintError])
  · rw [hs]
    exact .inserted e w₃ (hw.inserts hins)

theorem step_removing (x : E) : Step env s w (.removing x)
    (.after (fun _ => .announcing ⟨.delete, x⟩) (World.delete x w.called).1)
    (World.delete x w.called).2 := by
  have hw := w.emits_called
  unfold World.delete
  split
  next => exact .failed _ _ _ rfl hw (by simp [missingWhere])
  next hg => exact .removed x _ hg (hw.removes fun g => decide (g = K.guid x))

/-- Every step of a thread is one of these. -/
theorem chart_step (env : Env) (s : Schema C) (w : World K) (p : Point E) :
    Step env s w p ((chart env s).next p w) ((chart env s).step p w) := by
  cases p with
  | saving m =>
    exact .client rfl (.lookup (.inl rfl) (fun x hx => .matched m x _ w.emits_called hx)
      fun hx => .unmatched m _ w.emits_called hx)
  | refreshing existing m =>
    show Step env s w _ (.orNil .storing (K.update w.now existing m)) w
    cases h : K.update w.now existing m with
    | none => exact .failed _ _ _ rfl (.refl w) (by simp)
    | some e => exact .refreshed existing m e h
  | storing e => exact .client rfl (step_storing e)
  | creating m =>
    show Step env s w _ (.after (.stamping · m) ((env.newV4 w.uuids).mapError .client)) w.drawn
    cases h : env.newV4 w.uuids with
    | error msg => exact .failed _ _ _ rfl w.emits_drawn (by simp)
    | ok g => exact .drewGuid m g h
  | stamping guid m =>
    show Step env s w _ (.orNil .tagging (K.withModel guid w.now m)) w
    cases h : K.withModel guid w.now m with
    | none => exact .failed _ _ _ rfl (.refl w) (by simp)
    | some e => exact .stamped guid m e h
  | tagging e =>
    show Step env s w _ (.after (fun u => .inserting (K.setTag ⟨u, 0⟩ e))
      ((env.newV4 w.uuids).mapError .client)) w.drawn
    cases h : env.newV4 w.uuids with
    | error msg => exact .failed _ _ _ rfl w.emits_drawn (by simp)
    | ok u => exact .drewTag e u h
  | inserting e => exact .client rfl (step_inserting e)
  | deleting m =>
    exact .client rfl (.lookup (.inr rfl) (fun x hx => .located m x _ w.emits_called hx)
      fun _ => .failed _ _ _ rfl w.emits_called (by simp [deleteRouteError]))
  | removing existing => exact .client rfl (step_removing existing)
  | pruning => exact .looked
  | scanning now => exact .client rfl (.scanned now _ w.emits_called)
  | clearing routes =>
    exact .client rfl (.cleared routes _
      (w.emits_called.removes fun g => decide (g ∈ prunedGuids K routes)))
  | expiring routes =>
    cases routes with
    | nil => exact .finished _ rfl
    | cons r rest => exact .expired r rest _ (w.emits_emitted _)
  | announcing ev => exact .announced ev _ (w.emits_emitted ev)
  | done => exact .finished _ rfl
  | failed e => exact .finished _ rfl

/-- The call that a thread at a point is about to make. -/
def Point.call (K : Kind E C κ) : Point E → Option (Call E C)
  | .saving m => some (.find (K.lookup m))
  | .refreshing _ _ => some .now
  | .storing e => some (.save e)
  | .creating _ => some .newV4
  | .stamping _ _ => some .now
  | .tagging _ => some .newV4
  | .inserting e => some (.create e)
  | .deleting m => some (.find (K.lookup m))
  | .removing x => some (.delete x)
  | .pruning => some .now
  | .scanning now => some (.find [.before K.expiry (now - second)])
  | .clearing routes => some (.deleteIn (prunedGuids K routes))
  | .expiring (r :: _) => some (.emit ⟨.expire, r⟩)
  | .announcing ev => some (.emit ev)
  | .expiring [] | .done | .failed _ => none

theorem Step.now {p p' : Point E} {w' : World K} (h : Step env s w p p' w') : w'.now = w.now := by
  cases h with
  | failed _ _ _ _ hw _ => exact hw.now
  | matched _ _ _ hw _ => exact hw.now
  | unmatched _ _ hw _ => exact hw.now
  | inserted _ _ hins => exact hins.now
  | updated _ _ _ hup => exact hup.now
  | reinserted _ _ _ _ hins => exact hins.now
  | overwritten _ _ _ _ _ hover => exact hover.now
  | located _ _ _ hw _ => exact hw.now
  | removed _ _ _ hr => exact hr.now
  | scanned _ _ hw => exact hw.now
  | cleared _ _ hr => exact hr.now
  | expired _ _ _ hw => exact hw.now
  | announced _ _ hw => exact hw.now
  | _ => rfl

/-- The guid of the row that a call is about to write, with its expiry. -/
def written (s : Schema C) (w : World K) : Option (Call E C) → Option (String × ℤ)
  | some (.save e) => some (w.target s e, K.expiresAt e)
  | some (.create e) => some (K.guid e, K.expiresAt e)
  | _ => none

/-- A stored row was there before or is the one that the step wrote. -/
theorem Step.stored {p p' : Point E} {w' : World K} (h : Step env s w p p' w') {e : E}
    (he : e ∈ w'.stored) :
    e ∈ w.stored ∨ written s w (p.call K) = some (K.guid e, K.expiresAt e) := by
  have hnew {e₀ : E} (hins : w.Inserts w' s e₀) :
      e ∈ w.stored ∨ (K.guid e₀, K.expiresAt e₀) = (K.guid e, K.expiresAt e) := by
    rw [hins.stored, List.mem_append, List.mem_singleton] at he
    rcases he with he | rfl
    · exact .inl he
    · right
      rw [K.guid_ofRow, K.expiresAt_ofRow, K.insertRow_pk, K.insertRow_expiry]
      rfl
  cases h with
  | failed _ _ _ _ hw _ => exact .inl (hw.stored ▸ he)
  | matched _ _ _ hw _ => exact .inl (hw.stored ▸ he)
  | unmatched _ _ hw _ => exact .inl (hw.stored ▸ he)
  | inserted e₀ _ hins => exact (hnew hins).imp_right (congrArg some)
  | updated e₀ _ _ hup =>
    rcases hup.mem_stored.mp he with ⟨he, -⟩ | rfl
    · exact .inl he
    · right
      simp only [written, Point.call, World.target_stored hup.stores]
  | reinserted e₀ _ _ hfree hins =>
    refine (hnew hins).imp_right fun h => ?_
    simp only [written, Point.call, World.target_free hfree, h]
  | overwritten e₀ x _ hguid hgone hover =>
    rcases hover.mem_stored.mp he with ⟨he, -⟩ | rfl
    · exact .inl he
    · right
      simp only [written, Point.call, World.target_conflict hguid hgone hover.conflict,
        Kind.guid_overwriteRow, Kind.expiresAt_overwriteRow]
  | located _ _ _ hw _ => exact .inl (hw.stored ▸ he)
  | removed _ _ _ hr => exact .inl (hr.mem_stored.mp he).1
  | scanned _ _ hw => exact .inl (hw.stored ▸ he)
  | cleared _ _ hr => exact .inl (hr.mem_stored.mp he).1
  | expired _ _ _ hw => exact .inl (hw.stored ▸ he)
  | announced _ _ hw => exact .inl (hw.stored ▸ he)
  | _ => exact .inl he

@[simp] theorem next?_prog (p : Point E) : (p.prog K).next? = p.call K := by
  cases p with
  | expiring routes => cases routes <;> rfl
  | _ => rfl

/-- Only the failed point is a failed program. -/
theorem error?_prog {p : Point E} {e : Err} (h : (p.prog K).error? = some e) :
    p = .failed e := by
  cases p with
  | failed e' => exact congrArg Point.failed (Option.some.inj h)
  | expiring routes => cases routes <;> cases h
  | _ => cases h

end Step

section Pools
variable {ι : Type}

/-- Calls that are all about to start. -/
def calls (w : World K) (jobs : ι → Job E) : Pool (Call E C) Call.Resp Err Unit (World K) ι :=
  ⟨w, fun i => (jobs i).prog K⟩

theorem Job.prog_start (j : Job E) : j.prog K = j.start.prog K := by
  cases j <;> rfl

theorem calls_eq (env : Env) (s : Schema C) (w : World K) (jobs : ι → Job E) :
    calls w jobs = (chart env s).pool w fun i => (jobs i).start := by
  unfold calls Chart.pool
  congr 1
  funext i
  exact (jobs i).prog_start

/-- The call that a thread of a charted pool is about to make. -/
theorem next?_threads {env : Env} {s : Schema C}
    {P : Pool (Call E C) Call.Resp Err Unit (World K) ι} {pts : ι → Point E}
    (hP : P = (chart env s).pool P.world pts) (i : ι) :
    (P.threads i).next? = (pts i).call K := by
  rw [hP]
  exact next?_prog (pts i)

variable [DecidableEq ι]

omit [DecidableEq E] in
/-- What the points hold after one of them has changed. -/
theorem point_update {β : Type} (F : Point E → Option β) {pts : ι → Point E} {i a : ι}
    {p : Point E} {b : β} : F (Function.update pts i p a) = some b ↔
      (a = i ∧ F p = some b) ∨ (a ≠ i ∧ F (pts a) = some b) := by
  by_cases ha : a = i
  · subst ha
    simp
  · simp [ha]

omit [DecidableEq E] in
theorem point_update_eq {pts : ι → Point E} {i a : ι} {p q : Point E} :
    Function.update pts i p a = q ↔ (a = i ∧ p = q) ∨ (a ≠ i ∧ pts a = q) := by
  have hsome : some (Function.update pts i p a) = some q ↔
      (a = i ∧ some p = some q) ∨ (a ≠ i ∧ some (pts a) = some q) := point_update some
  simpa only [Option.some.injEq] using hsome

/-- One move of concurrent calls: the clock ticks, or a call makes its next step. -/
abbrev move (env : Env) (s : Schema C) :
    Pool (Call E C) Call.Resp Err Unit (World K) ι → Move ℕ ι →
      Pool (Call E C) Call.Resp Err Unit (World K) ι :=
  Pool.move (handler env s) World.tick

end Pools
end Points

/-- Runs of three calls name them by numerals, which need this. -/
instance neZeroThree : NeZero 3 := ⟨by decide⟩

end RoutingApi.Concurrency
