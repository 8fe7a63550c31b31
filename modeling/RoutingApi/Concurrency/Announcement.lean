import RoutingApi.Concurrency.ControlPoints
import RoutingApi.Database.Convergence
import RoutingApi.Migration.Migrations

/-! Subscribers of concurrent saves and deletes. A row is written and announced in two
steps, so the events of a key can reach a subscriber in another order than its writes. -/
namespace RoutingApi.Concurrency
open Relational Gorm Models Process Program Database Replica Migrations

section Shows
variable {E C κ : Type} {K : Kind E C κ}

/-- A subscriber's entry for a key carries exactly the tags stored under it. -/
def Shows (o : Option E) (w : World K) (k : κ) : Prop :=
  ∀ t, (∃ a, o = some a ∧ K.tag a = t) ↔ ∃ e ∈ w.stored, K.key e = k ∧ K.tag e = t

variable {w : World K} {k : κ} {a e : E}

theorem shows_none : Shows none w k ↔ ∀ e ∈ w.stored, K.key e ≠ k := by
  constructor
  · intro h e he hk
    obtain ⟨a, ha, -⟩ := (h (K.tag e)).mpr ⟨e, he, hk, rfl⟩
    cases ha
  · intro h t
    constructor
    · rintro ⟨a, ha, -⟩
      cases ha
    · rintro ⟨e, he, hk, -⟩
      exact absurd hk (h e he)

/-- When one row is stored under the key, the entry has its tag. -/
theorem shows_some (he : e ∈ w.stored) (hk : K.key e = k)
    (hone : ∀ f ∈ w.stored, K.key f = k → f = e) :
    Shows (some a) w k ↔ K.tag a = K.tag e := by
  constructor
  · intro h
    obtain ⟨b, hb, htag⟩ := (h (K.tag e)).mpr ⟨e, he, hk, rfl⟩
    cases hb
    exact htag
  · intro htag t
    constructor
    · rintro ⟨b, hb, rfl⟩
      cases hb
      exact ⟨e, he, hk, htag.symm⟩
    · rintro ⟨f, hf, hfk, rfl⟩
      exact ⟨a, rfl, htag.trans (congrArg K.tag (hone f hf hfk)).symm⟩

theorem shows_stored {o : Option E} (h : Shows o w k) (he : e ∈ w.stored) (hk : K.key e = k) :
    ∃ a, o = some a ∧ K.tag a = K.tag e := (h (K.tag e)).mpr ⟨e, he, hk, rfl⟩

theorem shows_entity {o : Option E} : Shows (o.map K.entity) w k ↔ Shows o w k := by
  refine forall_congr' fun t => ?_
  have htags : (∃ a, o.map K.entity = some a ∧ K.tag a = t) ↔ ∃ a, o = some a ∧ K.tag a = t := by
    cases o with
    | none => simp
    | some b => simp [K.entity_tag]
  rw [htags]

/-- What is stored under other keys does not matter. -/
theorem Shows.frame {w' : World K} {o : Option E} (h : Shows o w k)
    (hmem : ∀ e, K.key e = k → (e ∈ w'.stored ↔ e ∈ w.stored)) : Shows o w' k := by
  intro t
  rw [h t]
  constructor
  · rintro ⟨e, he, hk, ht⟩
    exact ⟨e, (hmem e hk).mpr he, hk, ht⟩
  · rintro ⟨e, he, hk, ht⟩
    exact ⟨e, (hmem e hk).mp he, hk, ht⟩

end Shows

section Points
variable {E : Type}

/-- The points of a prune pass. -/
def Point.prunes : Point E → Bool
  | .pruning | .scanning _ | .clearing _ | .expiring _ => true
  | _ => false

def Point.announces : Point E → Option (Event E)
  | .announcing ev => some ev
  | _ => none

end Points

section Invariant
variable {E C κ ι : Type} [DecidableEq κ] {K : Kind E C κ}

/-- The entries of a subscriber that was there from the start. -/
def replica (w : World K) : κ → Option E := replay (rules K) (fun _ => none) (changes w.log)

theorem replay_upsert (f : κ → Option E) (e : E) : replay (rules K) f [.upsert e] (K.key e) =
    applyTo (rules K) (f (K.key e)) (.upsert e) := apply_of_key _ f rfl

theorem replay_delete (f : κ → Option E) (e : E) : replay (rules K) f [.delete e] (K.key e) =
    applyTo (rules K) (f (K.key e)) (.delete e) := apply_of_key _ f rfl

/-- A key without an unannounced change is shown as it is stored, and a key with one is
shown so once that change is announced. -/
structure Consistent (w : World K) (pts : ι → Point E) : Prop where
  noPrune : ∀ i, (pts i).prunes = false
  unique : ∀ e ∈ w.stored, ∀ f ∈ w.stored, K.key e = K.key f → e = f
  single : ∀ i j ev ev', (pts i).announces = some ev → (pts j).announces = some ev' →
    K.key ev.value = K.key ev'.value → i = j
  quiet : ∀ k, (∀ i ev, (pts i).announces = some ev → K.key ev.value ≠ k) →
    Shows (replica w k) w k
  pending : ∀ i ev, (pts i).announces = some ev →
    Shows (replay (rules K) (replica w) (changes [ev]) (K.key ev.value)) w (K.key ev.value)

variable {w w' : World K} {pts : ι → Point E} [DecidableEq ι] {i : ι} {p : Point E}

theorem prunes_update (h : ∀ j, (pts j).prunes = false) (hp : p.prunes = false) (j : ι) :
    (Function.update pts i p j).prunes = false := by
  by_cases hj : j = i
  · subst hj
    simpa using hp
  · simpa [hj] using h j

namespace Consistent
variable (h : Consistent w pts)
include h

/-- A step that writes nothing and announces nothing. -/
theorem idle (hw : w.Emits w' []) (hi : (pts i).announces = none) (hp : p.announces = none)
    (hprune : p.prunes = false) : Consistent w' (Function.update pts i p) := by
  have hstored : w'.stored = w.stored := hw.stored
  have hreplica : replica w' = replica w := by rw [replica, hw.log, List.append_nil, replica]
  have hann (j : ι) (ev : Event E) : (Function.update pts i p j).announces = some ev ↔
      (pts j).announces = some ev := by
    rw [point_update, hp]
    constructor
    · rintro (⟨-, habs⟩ | ⟨-, hev⟩)
      · cases habs
      · exact hev
    · intro hev
      refine .inr ⟨?_, hev⟩
      rintro rfl
      rw [hi] at hev
      cases hev
  have hframe {o : Option E} {k : κ} (hs : Shows o w k) : Shows o w' k :=
    hs.frame fun e _ => by rw [hstored]
  refine ⟨prunes_update h.noPrune hprune, by rw [hstored]; exact h.unique, ?_, ?_, ?_⟩
  · intro a b ev ev' ha hb
    exact h.single a b ev ev' ((hann a ev).mp ha) ((hann b ev').mp hb)
  · intro k hk
    rw [hreplica]
    exact hframe (h.quiet k fun j ev hj => hk j ev ((hann j ev).mpr hj))
  · intro j ev hj
    rw [hreplica]
    exact hframe (h.pending j ev ((hann j ev).mp hj))

/-- A write of one key that has no unannounced change, about to be announced. -/
theorem write {ev : Event E} (hlog : w'.log = w.log) (hi : (pts i).announces = none)
    (hp : p.announces = some ev) (hprune : p.prunes = false)
    (hfree : ∀ j ev', (pts j).announces = some ev' → K.key ev'.value ≠ K.key ev.value)
    (hframe : ∀ e, K.key e ≠ K.key ev.value → (e ∈ w'.stored ↔ e ∈ w.stored))
    (hunique : ∀ e ∈ w'.stored, ∀ f ∈ w'.stored, K.key e = K.key ev.value →
      K.key f = K.key ev.value → e = f)
    (hshows : Shows (replay (rules K) (replica w) (changes [ev]) (K.key ev.value)) w'
      (K.key ev.value)) : Consistent w' (Function.update pts i p) := by
  have hreplica : replica w' = replica w := by rw [replica, hlog, replica]
  refine ⟨prunes_update h.noPrune hprune, ?_, ?_, ?_, ?_⟩
  · intro e he f hf hk
    by_cases hek : K.key e = K.key ev.value
    · exact hunique e he f hf hek (hk ▸ hek)
    · exact h.unique e ((hframe e hek).mp he) f ((hframe f (hk ▸ hek)).mp hf) hk
  · intro a b eva evb ha hb hk
    rcases (point_update Point.announces).mp ha with ⟨hai, ha'⟩ | ⟨-, ha'⟩ <;>
      rcases (point_update Point.announces).mp hb with ⟨hbi, hb'⟩ | ⟨-, hb'⟩
    · rw [hai, hbi]
    · cases hp.symm.trans ha'
      exact absurd hk.symm (hfree b evb hb')
    · cases hp.symm.trans hb'
      exact absurd hk (hfree a eva ha')
    · exact h.single a b eva evb ha' hb' hk
  · intro k hk
    have hne : K.key ev.value ≠ k := hk i ev ((point_update Point.announces).mpr (.inl ⟨rfl, hp⟩))
    rw [hreplica]
    refine (h.quiet k fun j ev' hj => ?_).frame fun e hek => hframe e fun heq => hne ?_
    · refine hk j ev' ((point_update Point.announces).mpr (.inr ⟨?_, hj⟩))
      rintro rfl
      rw [hi] at hj
      cases hj
    · rw [← heq, hek]
  · intro j ev' hj
    rw [hreplica]
    rcases (point_update Point.announces).mp hj with ⟨-, hj'⟩ | ⟨-, hj'⟩
    · cases hp.symm.trans hj'
      exact hshows
    · refine (h.pending j ev' hj').frame fun e hek => hframe e fun heq => ?_
      exact hfree j ev' hj' (hek.symm.trans heq)

/-- The announcement of a change that was pending. -/
theorem announce {ev : Event E} (hw : w.Emits w' [ev]) (hi : (pts i).announces = some ev) :
    Consistent w' (Function.update pts i .done) := by
  have hstored : w'.stored = w.stored := hw.stored
  have hreplica : replica w' = replay (rules K) (replica w) (changes [ev]) := by
    rw [replica, hw.log, changes_append, replay_append, replica]
  have hother {k : κ} (hk : K.key ev.value ≠ k) : replica w' k = replica w k := by
    rw [hreplica]
    apply replay_of_ne
    intro c hc
    rwa [entry_of_changes hc]
  have hframe {o : Option E} {k : κ} (hs : Shows o w k) : Shows o w' k :=
    hs.frame fun e _ => by rw [hstored]
  have hann {j : ι} {ev' : Event E}
      (hj : (Function.update pts i .done j).announces = some ev') :
      j ≠ i ∧ (pts j).announces = some ev' := by
    rcases (point_update Point.announces).mp hj with ⟨-, habs⟩ | hj'
    · cases habs
    · exact hj'
  refine ⟨prunes_update h.noPrune rfl, by rw [hstored]; exact h.unique, ?_, ?_, ?_⟩
  · intro a b eva evb ha hb
    exact h.single a b eva evb (hann ha).2 (hann hb).2
  · intro k hk
    by_cases hek : K.key ev.value = k
    · subst hek
      rw [hreplica]
      exact hframe (h.pending i ev hi)
    · rw [hother hek]
      refine hframe (h.quiet k fun j ev' hj => ?_)
      by_cases hji : j = i
      · subst hji
        cases hi.symm.trans hj
        exact hek
      · exact hk j ev' ((point_update Point.announces).mpr (.inr ⟨hji, hj⟩))
  · intro j ev' hj
    obtain ⟨hji, hj'⟩ := hann hj
    have hne : K.key ev.value ≠ K.key ev'.value := fun heq =>
      hji (h.single j i ev' ev hj' hi heq.symm)
    have hsame : replay (rules K) (replica w') (changes [ev']) (K.key ev'.value) =
        replay (rules K) (replica w) (changes [ev']) (K.key ev'.value) :=
      replay_congr _ (hother hne) _
    rw [hsame]
    exact hframe (h.pending j ev' hj')

section Writes
variable {s : Schema C} {e : E} (hi : (pts i).announces = none)
variable (hfree : ∀ j ev, (pts j).announces = some ev → K.key ev.value ≠ K.key e)
include hi hfree

theorem updated {x : E} (hup : w.Updates w' s e) (hx : x ∈ w.stored)
    (hguid : K.guid x = K.guid e) (hkey : K.key x = K.key e)
    (htag : K.tag e = (K.tag x).increment) (hindex : (K.tag x).index.toNat + 1 < 2 ^ 32) :
    Consistent w' (Function.update pts i (.announcing ⟨.update, e⟩)) := by
  have honly : ∀ f ∈ w'.stored, K.key f = K.key e → f = e := by
    intro f hf hk
    rcases hup.mem_stored.mp hf with ⟨hf, hne⟩ | rfl
    · have hfx := h.unique f hf x hx (hk.trans hkey.symm)
      exact absurd (hfx ▸ hguid) hne
    · rfl
  have he : e ∈ w'.stored := hup.mem_stored.mpr (.inr rfl)
  refine h.write hup.log hi rfl rfl hfree ?_ ?_ ?_
  · intro f hk
    rw [hup.mem_stored]
    constructor
    · rintro (⟨hf, -⟩ | rfl)
      · exact hf
      · exact absurd rfl hk
    · intro hf
      refine .inl ⟨hf, fun hg => hk ?_⟩
      rw [World.stored_inj hf hx (hg.trans hguid.symm)]
      exact hkey
  · intro f hf f' hf' hk hk'
    rw [honly f hf hk, honly f' hf' hk']
  · obtain ⟨a, ha, hatag⟩ := shows_stored (h.quiet _ hfree) hx hkey
    have hsucc : ModificationTag.succeededBy (some (K.tag a)) (K.tag e) = true := by
      rw [hatag, htag]
      exact ModificationTag.succeededBy_of_index (ModificationTag.lt_increment hindex)
    have hentry : replay (rules K) (replica w) (changes [⟨.update, e⟩]) (K.key e) = some e := by
      rw [changes_update, replay_upsert, ha]
      exact if_pos hsucc
    rw [hentry]
    exact (shows_some he rfl honly).mpr rfl

theorem inserted (hexact : K.model.Exact s) (hins : w.Inserts w' s e)
    (hnew : ∀ x ∈ w.stored, K.key x ≠ K.key e) :
    Consistent w' (Function.update pts i (.announcing ⟨.create, e⟩)) := by
  have hstored : ∀ f, f ∈ w'.stored ↔ f ∈ w.stored ∨ f = e := by
    intro f
    rw [hins.stored, K.model.insertRow_exact hexact, K.ofRow_toRow, List.mem_append,
      List.mem_singleton]
  have honly : ∀ f ∈ w'.stored, K.key f = K.key e → f = e := by
    intro f hf hk
    rcases (hstored f).mp hf with hf | rfl
    · exact absurd hk (hnew f hf)
    · rfl
  refine h.write hins.log hi rfl rfl hfree ?_ ?_ ?_
  · intro f hk
    rw [hstored]
    constructor
    · rintro (hf | rfl)
      · exact hf
      · exact absurd rfl hk
    · exact .inl
  · intro f hf f' hf' hk hk'
    rw [honly f hf hk, honly f' hf' hk']
  · have hnone : replica w (K.key e) = none := by
      cases hr : replica w (K.key e) with
      | none => rfl
      | some a =>
        have hshown := h.quiet _ hfree
        rw [hr] at hshown
        obtain ⟨f, hf, hk, -⟩ := (hshown (K.tag a)).mp ⟨a, rfl, rfl⟩
        exact absurd hk (hnew f hf)
    have hentry : replay (rules K) (replica w) (changes [⟨.create, e⟩]) (K.key e) = some e := by
      rw [changes_create, replay_upsert, hnone]
      rfl
    rw [hentry]
    exact (shows_some ((hstored e).mpr (.inr rfl)) rfl honly).mpr rfl

theorem removed {y : E} (hr : w.Removes w' fun g => decide (g = K.guid e)) (hy : y ∈ w.stored)
    (hguid : K.guid y = K.guid e) (hkey : K.key y = K.key e) (htag : K.tag y = K.tag e) :
    Consistent w' (Function.update pts i (.announcing ⟨.delete, e⟩)) := by
  have hstored : ∀ f, f ∈ w'.stored ↔ f ∈ w.stored ∧ K.guid f ≠ K.guid e := by
    intro f
    rw [hr.mem_stored, decide_eq_false_iff_not]
  have hgone : ∀ f ∈ w'.stored, K.key f ≠ K.key e := by
    intro f hf hk
    obtain ⟨hf, hne⟩ := (hstored f).mp hf
    exact hne (h.unique f hf y hy (hk.trans hkey.symm) ▸ hguid)
  refine h.write hr.log hi rfl rfl hfree ?_ ?_ ?_
  · intro f hk
    rw [hstored]
    constructor
    · exact And.left
    · intro hf
      refine ⟨hf, fun hg => hk ?_⟩
      rw [World.stored_inj hf hy (hg.trans hguid.symm)]
      exact hkey
  · intro f hf _ _ hk
    exact absurd hk (hgone f hf)
  · obtain ⟨a, ha, hatag⟩ := shows_stored (h.quiet _ hfree) hy hkey
    have hentry : replay (rules K) (replica w) (changes [⟨.delete, e⟩]) (K.key e) = none := by
      rw [changes_delete, replay_delete, ha]
      exact if_pos (.inr (hatag.trans htag))
    rw [hentry]
    exact shows_none.mpr hgone

end Writes
end Consistent
end Invariant

section Condition
variable {E C κ ι : Type} (K : Kind E C κ)

/-- The next call of a thread is not the announcement of a change of the key. -/
def EmitsOther (k : κ) : Option (Call E C) → Prop
  | some (.emit ev) => K.key ev.value ≠ k
  | _ => True

instance [DecidableEq κ] (k : κ) : (c : Option (Call E C)) → Decidable (EmitsOther K k c)
  | some (.emit ev) => inferInstanceAs (Decidable (K.key ev.value ≠ k))
  | none | some (.find _) | some (.create _) | some (.save _) | some (.delete _)
  | some (.deleteIn _) | some .newV4 | some .now | some .isReadLocked
  | some .findRouterGroups => isTrue trivial

variable {K}

/-- No change of the key is written but not yet announced. -/
def Announced (P : Pool (Call E C) Call.Resp Err Unit (World K) ι) (k : κ) : Prop :=
  ∀ j, EmitsOther K k (P.threads j).next?

/-- A write acts on the version its call has read, and on a key whose changes have all
been announced. -/
def ActsOnRead (P : Pool (Call E C) Call.Resp Err Unit (World K) ι) : Option (Call E C) → Prop
  | some (.save e) => Announced P (K.key e) ∧ ∃ x ∈ P.world.stored, K.guid x = K.guid e ∧
      K.key x = K.key e ∧ K.tag e = (K.tag x).increment ∧ (K.tag x).index.toNat + 1 < 2 ^ 32
  | some (.create e) => Announced P (K.key e) ∧ ∀ x ∈ P.world.stored, K.key x ≠ K.key e
  | some (.delete e) => Announced P (K.key e) ∧ ∃ x ∈ P.world.stored, K.guid x = K.guid e ∧
      K.key x = K.key e ∧ K.tag x = K.tag e
  | _ => True

def Undisturbed (P : Pool (Call E C) Call.Resp Err Unit (World K) ι) : Move ℕ ι → Prop
  | .env _ => True
  | .step i => ActsOnRead P (P.threads i).next?

section Decidable
variable [DecidableEq κ] [Fintype ι]

instance (P : Pool (Call E C) Call.Resp Err Unit (World K) ι) (k : κ) :
    Decidable (Announced P k) :=
  inferInstanceAs (Decidable (∀ j, EmitsOther K k (P.threads j).next?))

instance (P : Pool (Call E C) Call.Resp Err Unit (World K) ι) :
    (c : Option (Call E C)) → Decidable (ActsOnRead P c)
  | some (.save _) => inferInstanceAs (Decidable (_ ∧ ∃ x ∈ P.world.stored, _ ∧ _ ∧ _ ∧ _))
  | some (.create _) => inferInstanceAs (Decidable (_ ∧ ∀ x ∈ P.world.stored, _ ≠ _))
  | some (.delete _) => inferInstanceAs (Decidable (_ ∧ ∃ x ∈ P.world.stored, _ ∧ _ ∧ _))
  | none | some (.find _) | some (.emit _) | some (.deleteIn _) | some .newV4 | some .now
  | some .isReadLocked | some .findRouterGroups => isTrue trivial

instance (P : Pool (Call E C) Call.Resp Err Unit (World K) ι) :
    (m : Move ℕ ι) → Decidable (Undisturbed P m)
  | .env _ => isTrue trivial
  | .step i => inferInstanceAs (Decidable (ActsOnRead P (P.threads i).next?))

end Decidable
end Condition

section Runs
variable {E C κ ι : Type} [DecidableEq E] [DecidableEq κ] [DecidableEq ι] {K : Kind E C κ}
variable {env : Env} {s : Schema C} {w w' : World K} {pts : ι → Point E} {i : ι} {p : Point E}

omit [DecidableEq E] [DecidableEq κ] [DecidableEq ι] in
theorem announces_of_fallible (h : p.fallible = true) : p.announces = none := by
  cases p with
  | announcing ev => cases h
  | _ => rfl

omit [DecidableEq E] [DecidableEq κ] [DecidableEq ι] in
theorem ActsOnRead.stores {P : Pool (Call E C) Call.Resp Err Unit (World K) ι} {e : E}
    (h : ActsOnRead P (some (.save e))) : P.world.table.Stores (.text (K.guid e)) := by
  obtain ⟨-, x, hx, hguid, -⟩ := h
  obtain ⟨r, hr, rfl⟩ := World.mem_stored.mp hx
  exact ⟨r, hr, hguid ▸ (P.world.typed r hr).pk⟩

omit [DecidableEq κ] [DecidableEq ι] in
theorem Announced.free {k : κ} (h : Announced ((chart env s).pool w pts) k) {j : ι}
    {ev : Event E} (hj : (pts j).announces = some ev) : K.key ev.value ≠ k := by
  have hcall : EmitsOther K k ((pts j).call K) := next?_prog (K := K) (pts j) ▸ h j
  cases hp : pts j with
  | announcing ev' =>
    rw [hp] at hj hcall
    cases hj
    exact hcall
  | _ =>
    rw [hp] at hj
    cases hj

/-- Every step that meets the condition keeps subscribers consistent. -/
theorem Consistent.step (hexact : K.model.Exact s) (h : Consistent w pts)
    (hQ : Undisturbed ((chart env s).pool w pts) (.step i))
    (hs : Step env s w (pts i) p w') : Consistent w' (Function.update pts i p) := by
  have hacts : ActsOnRead ((chart env s).pool w pts) ((pts i).call K) := by
    rw [← next?_prog]
    exact hQ
  have hprune := h.noPrune i
  generalize hp : pts i = q at hs hacts hprune
  cases hs with
  | failed _ e _ hf hw _ => exact h.idle hw (hp ▸ announces_of_fallible hf) rfl rfl
  | matched m x _ hw _ => exact h.idle hw (hp ▸ rfl) rfl rfl
  | unmatched m _ hw _ => exact h.idle hw (hp ▸ rfl) rfl rfl
  | refreshed _ m e _ => exact h.idle (.refl w) (hp ▸ rfl) rfl rfl
  | drewGuid m g _ => exact h.idle w.emits_drawn (hp ▸ rfl) rfl rfl
  | stamped g m e _ => exact h.idle (.refl w) (hp ▸ rfl) rfl rfl
  | drewTag e u _ => exact h.idle w.emits_drawn (hp ▸ rfl) rfl rfl
  | inserted e _ hins =>
    exact h.inserted (hp ▸ rfl) (fun _ _ hj => hacts.1.free hj) hexact hins hacts.2
  | updated e _ _ hup =>
    obtain ⟨hann, x, hx, hguid, hkey, htag, hindex⟩ := hacts
    exact h.updated (hp ▸ rfl) (fun _ _ hj => hann.free hj) hup hx hguid hkey htag hindex
  -- the row that was read is still stored, so `Save` neither inserts it nor writes another
  | reinserted e _ hn _ _ => exact absurd hacts.stores hn
  | overwritten e _ _ _ hn _ => exact absurd hacts.stores hn
  | located m x _ hw _ => exact h.idle hw (hp ▸ rfl) rfl rfl
  | removed x _ _ hr =>
    obtain ⟨hann, y, hy, hguid, hkey, htag⟩ := hacts
    exact h.removed (hp ▸ rfl) (fun _ _ hj => hann.free hj) hr hy hguid hkey htag
  | looked => cases hprune
  | scanned => cases hprune
  | cleared => cases hprune
  | expired => cases hprune
  | announced ev _ hw => exact h.announce hw (hp ▸ rfl)
  | finished _ _ =>
    rw [← hp, Function.update_eq_self]
    exact h

omit [DecidableEq E] [DecidableEq ι] in
theorem consistent_start (jobs : ι → Job E) (hjobs : ∀ i, jobs i ≠ .prune) :
    Consistent (World.initial K) fun i => (jobs i).start := by
  have hstart : ∀ i, ((jobs i).start).announces = none ∧ ((jobs i).start).prunes = false := by
    intro i
    cases hj : jobs i with
    | save m => exact ⟨rfl, rfl⟩
    | delete m => exact ⟨rfl, rfl⟩
    | prune => exact absurd hj (hjobs i)
  refine ⟨fun i => (hstart i).2, (fun e he => by cases he), ?_, ?_, ?_⟩
  · intro a b ev ev' ha
    rw [(hstart a).1] at ha
    cases ha
  · intro k _
    exact shows_none.mpr fun e he => by cases he
  · intro a ev ha
    rw [(hstart a).1] at ha
    cases ha

/-- Along every run that meets the condition, subscribers stay consistent. -/
theorem consistent_play (hexact : K.model.Exact s) (jobs : ι → Job E)
    (hjobs : ∀ i, jobs i ≠ .prune) {ms : List (Move ℕ ι)}
    (hms : Meets (move env s) Undisturbed (calls (World.initial K) jobs) ms) :
    (chart env s).At Consistent (play (move env s) (calls (World.initial K) jobs) ms) := by
  refine play_of_meets (Chart.at_move ?_ ?_) ?_ hms
  · intro w pts d h _
    exact ⟨h.noPrune, h.unique, h.single, h.quiet, h.pending⟩
  · intro w pts i h hQ
    exact h.step hexact hQ (chart_step env s w (pts i))
  · rw [calls_eq env s]
    exact ⟨_, rfl, consistent_start jobs hjobs⟩

end Runs

/-- Saves and deletes of routes that run concurrently from an empty table: if every write
acts on the version its call read, while nothing about its key is unannounced, then once
all calls have finished a subscriber holds exactly the stored keys and tags. -/
theorem concurrent_saves_deletes_shown {ι : Type} [DecidableEq ι] (env : Env)
    (s : Schema RouteColumn) (jobs : ι → Job Route) (hjobs : ∀ i, jobs i ≠ .prune)
    (ms : List (Move ℕ ι))
    (hms : Meets (move env s) Undisturbed (calls (World.initial routeKind) jobs) ms) :
    let P := play (move env s) (calls (World.initial routeKind) jobs) ms
    (∀ i, (P.threads i).Finished) →
      ∀ k, Shows (subscriber routeKind [] P.world.log k) P.world k := by
  intro P hfin k
  obtain ⟨pts, hP, h⟩ := consistent_play (Route.model_exact s) jobs hjobs hms
  rw [subscriber_eq, shows_entity]
  refine h.quiet k fun i ev hi => ?_
  have hcall : (pts i).call routeKind = none := (next?_threads hP i).symm.trans (hfin i)
  cases hp : pts i with
  | announcing ev' =>
    rw [hp] at hcall
    cases hcall
  | _ =>
    rw [hp] at hi
    cases hi

/-- A route as a client registers it. -/
def exampleRoute : Route := { route := "a.example.com", port := 8080, ip := "10.0.0.1", ttl := some 60 }

/-- One call registers a route, then a second refreshes and a third unregisters it. -/
def refreshAndDelete : Fin 3 → Job Route
  | 0 => .save exampleRoute
  | 1 => .save exampleRoute
  | 2 => .delete exampleRoute

/-- The refresh and the delete both read the row; the refresh writes first and announces
last. -/
def deleteAnnouncedFirst : List (Move ℕ (Fin 3)) :=
  [.step 0, .step 0, .step 0, .step 0, .step 0, .step 0, .step 1, .step 1, .step 2, .step 1,
    .step 2, .step 2, .step 1]

/-- All calls succeed, the table is empty, and the subscriber holds the route. -/
theorem deleted_route_shown :
    let P := play (move .quiet (routeSchema .mysql))
      (calls (World.initial routeKind) refreshAndDelete) deleteAnnouncedFirst
    (∀ i, (P.threads i).Finished) ∧ P.world.stored = [] ∧
      P.world.log.map (fun ev => (ev.type, ev.value.modificationTag)) =
        [(.create, ⟨"uu", 0⟩), (.delete, ⟨"uu", 0⟩), (.update, ⟨"uu", 1⟩)] ∧
      (subscriber routeKind [] P.world.log exampleRoute.key).map (·.modificationTag) =
        some ⟨"uu", 1⟩ := by
  decide +kernel

/-- The same calls, the delete reading once the refresh is announced. -/
def deleteReadLast : List (Move ℕ (Fin 3)) :=
  [.step 0, .step 0, .step 0, .step 0, .step 0, .step 0, .env 5, .step 1, .step 1, .step 1,
    .step 1, .step 2, .step 2, .step 2]

theorem deleted_route_not_shown :
    let P := play (move .quiet (routeSchema .mysql))
      (calls (World.initial routeKind) refreshAndDelete) deleteReadLast
    (∀ i, (P.threads i).Finished) ∧
      ∀ k, Shows (subscriber routeKind [] P.world.log k) P.world k := by
  have hfin : ∀ i, ((play (move .quiet (routeSchema .mysql))
      (calls (World.initial routeKind) refreshAndDelete) deleteReadLast).threads i).Finished := by
    decide +kernel
  exact ⟨hfin, concurrent_saves_deletes_shown .quiet (routeSchema .mysql) refreshAndDelete
    (by decide) deleteReadLast (by decide +kernel) hfin⟩

end RoutingApi.Concurrency
