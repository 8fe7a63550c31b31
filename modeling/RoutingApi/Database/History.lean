import RoutingApi.Database.Runs
import RoutingApi.Replica.Replay

/-! What the events emitted so far say about the table, when operations run one after
the other: the last event of a key tells whether and how it is stored, and an earlier
upsert of a key is never newer than a later event. -/
namespace RoutingApi.Database
open Relational Gorm Models Process Program Replica

section Changes
variable {E C κ : Type} (K : Kind E C κ)

/-- The documented rules: entries are compared by their modification tags. -/
def rules : Rules E κ ModificationTag where
  key := K.key
  version := K.tag
  succeeded t u := ModificationTag.succeededBy (some t) u

/-- What an event asks a subscriber to do, by the name it has on the wire. -/
def Event.change (ev : Event E) : Option (Change E) :=
  if ev.type.string = "Upsert" then some (.upsert ev.value)
  else if ev.type.string = "Delete" then some (.delete ev.value)
  else none

def changes (log : List (Event E)) : List (Change E) := log.filterMap Event.change

@[simp] theorem changes_nil : changes ([] : List (Event E)) = [] := rfl

theorem changes_append (l l' : List (Event E)) : changes (l ++ l') = changes l ++ changes l' :=
  List.filterMap_append

@[simp] theorem changes_create (e : E) : changes [⟨.create, e⟩] = [.upsert e] := by
  simp [changes, Event.change, EventType.string]

@[simp] theorem changes_update (e : E) : changes [⟨.update, e⟩] = [.upsert e] := by
  simp [changes, Event.change, EventType.string]

@[simp] theorem changes_delete (e : E) : changes [⟨.delete, e⟩] = [.delete e] := by
  simp [changes, Event.change, EventType.string]

@[simp] theorem changes_expire (es : List E) :
    changes (es.map fun e => ⟨.expire, e⟩) = es.map .delete := by
  induction es with
  | nil => rfl
  | cons e es ih =>
    rw [List.map_cons, List.map_cons, ← ih]
    simp [changes, Event.change, EventType.string]

theorem entry_of_changes {ev : Event E} {c : Change E} (h : c ∈ changes [ev]) :
    c.entry = ev.value := by
  simp only [changes, List.filterMap_cons, List.filterMap_nil] at h
  unfold Event.change at h
  split at h
  · simp at h
  · next hc =>
    split at hc
    · cases hc
      rw [List.mem_singleton.mp h]
      rfl
    · split at hc
      · cases hc
        rw [List.mem_singleton.mp h]
        rfl
      · cases hc

theorem event_of_upsert {log : List (Event E)} {o : E} (h : .upsert o ∈ changes log) :
    ∃ ev ∈ log, ev.value = o := by
  obtain ⟨ev, hev, hc⟩ := List.mem_filterMap.mp h
  refine ⟨ev, hev, ?_⟩
  unfold Event.change at hc
  split at hc
  · simpa using hc
  · split at hc <;> simp at hc

/-- How often the row with this guid has been updated. -/
def updates (g : String) (log : List (Event E)) : ℕ :=
  log.countP fun ev => decide (ev.type = .update ∧ K.guid ev.value = g)

/-- No row has been updated 2^32 times, so no tag index has wrapped around. -/
def Unwrapped (log : List (Event E)) : Prop := ∀ g, updates K g log < 2 ^ 32

theorem updates_append (g : String) (l l' : List (Event E)) :
    updates K g (l ++ l') = updates K g l + updates K g l' := List.countP_append

theorem unwrapped_of_length {log : List (Event E)} (h : log.length < 2 ^ 32) : Unwrapped K log :=
  fun _ => List.countP_le_length.trans_lt h

variable {K} in
theorem Unwrapped.of_append {l l' : List (Event E)} (h : Unwrapped K (l ++ l')) :
    Unwrapped K l := by
  intro g
  have hg := h g
  rw [updates_append] at hg
  omega

end Changes

section History
variable {E C κ : Type} [DecidableEq κ] (K : Kind E C κ) (env : Env)

/-- The invariant of the stored structs, the log and the number of uuids drawn. -/
structure History (stored : List E) (log : List (Event E)) (uuids : ℕ) : Prop where
  settled : ∀ k e, settle (rules K) (changes log) k = some e ↔ e ∈ stored ∧ K.key e = k
  drawn : ∀ ev ∈ log, (∃ i < uuids, env.newV4 i = .ok (K.guid ev.value)) ∧
    ∃ i < uuids, env.newV4 i = .ok (K.tag ev.value).guid
  ordered : ∀ o, .upsert o ∈ changes log → ∀ e ∈ stored, (K.tag o).guid = (K.tag e).guid →
    o = e ∨ (K.tag o).index < (K.tag e).index
  counted : ∀ e ∈ stored, (K.tag e).index.toNat = updates K (K.guid e) log
  guids : ∀ e ∈ stored, ∀ f ∈ stored, K.guid e = K.guid f → e = f
  precedes : (changes log).Pairwise (Precedes (rules K))

variable {K env}
variable {stored stored' : List E} {log log' : List (Event E)} {uuids uuids' : ℕ}

namespace History

theorem initial : History K env [] [] 0 where
  settled k e := by simp
  drawn ev h := by cases h
  ordered o h := by simp at h
  counted e h := by cases h
  guids e h := by cases h
  precedes := List.Pairwise.nil

theorem mono (h : History K env stored log uuids) (hu : uuids ≤ uuids') :
    History K env stored log uuids' where
  settled := h.settled
  drawn ev hev := by
    obtain ⟨⟨i, hi, hg⟩, j, hj, ht⟩ := h.drawn ev hev
    exact ⟨⟨i, hi.trans_le hu, hg⟩, j, hj.trans_le hu, ht⟩
  ordered := h.ordered
  counted := h.counted
  guids := h.guids
  precedes := h.precedes

variable (h : History K env stored log uuids)
include h

theorem upsert_of_stored {e : E} (he : e ∈ stored) : .upsert e ∈ changes log :=
  (settle_source ((h.settled _ e).mpr ⟨he, rfl⟩)).1

theorem key_inj {e f : E} (he : e ∈ stored) (hf : f ∈ stored) (hk : K.key e = K.key f) :
    e = f := by
  have h1 := (h.settled (K.key f) e).mpr ⟨he, hk⟩
  have h2 := (h.settled (K.key f) f).mpr ⟨hf, rfl⟩
  exact Option.some.inj (h1.symm.trans h2)

/-- Different rows have different tag guids. -/
theorem tag_inj {e f : E} (he : e ∈ stored) (hf : f ∈ stored)
    (ht : (K.tag e).guid = (K.tag f).guid) : e = f := by
  rcases h.ordered e (h.upsert_of_stored he) f hf ht with heq | hlt
  · exact heq
  · rcases h.ordered f (h.upsert_of_stored hf) e he ht.symm with heq | hlt'
    · exact heq.symm
    · exact absurd hlt (UInt32.lt_asymm hlt')

theorem stored_drawn {e : E} (he : e ∈ stored) :
    (∃ i < uuids, env.newV4 i = .ok (K.guid e)) ∧ ∃ i < uuids, env.newV4 i = .ok (K.tag e).guid := by
  obtain ⟨ev, hev, rfl⟩ := event_of_upsert (h.upsert_of_stored he)
  exact h.drawn ev hev

/-- What is not newer than a stored row is not newer than an event about it. -/
theorem dominated {o x : E} {c : Change E} (hx : x ∈ stored) (ho : .upsert o ∈ changes log)
    (hguid : (K.tag c.entry).guid = (K.tag x).guid)
    (hindex : (K.tag x).index < (K.tag c.entry).index ∨ c.entry = x) :
    Dominated (rules K) o c := by
  by_cases hg : (K.tag o).guid = (K.tag c.entry).guid
  · rcases h.ordered o ho x hx (hg.trans hguid) with rfl | hlt
    · rcases hindex with hlt | heq
      · exact .inl (ModificationTag.succeededBy_of_index hlt)
      · exact .inr heq.symm
    · left
      apply ModificationTag.succeededBy_of_index
      rcases hindex with hlt' | heq
      · exact UInt32.lt_trans hlt hlt'
      · rwa [heq]
  · exact .inl (ModificationTag.succeededBy_of_guid hg)

theorem precedes_snoc {c : Change E}
    (hc : ∀ o, .upsert o ∈ changes log → K.key o = K.key c.entry → Dominated (rules K) o c) :
    (changes log ++ [c]).Pairwise (Precedes (rules K)) := by
  refine List.pairwise_append.mpr ⟨h.precedes, List.pairwise_singleton _ _, ?_⟩
  intro a ha b hb o hao hk
  rw [List.mem_singleton] at hb
  subst hb hao
  exact hc o ha hk

section Update
variable {now : ℤ} {m x e : E} (hx : x ∈ stored) (hu : K.update now x m = some e)
variable (hmem : ∀ y, y ∈ stored' ↔ (y ∈ stored ∧ K.guid y ≠ K.guid e) ∨ y = e)
include hx hu hmem

theorem settled_update (k : κ) (y : E) :
    settle (rules K) (changes log ++ [.upsert e]) k = some y ↔ y ∈ stored' ∧ K.key y = k := by
  have hguid : K.guid e = K.guid x := K.update_guid _ _ _ _ hu
  have hkey : K.key e = K.key x := K.update_key _ _ _ _ hu
  rw [settle_snoc, hmem]
  by_cases hk : k = K.key e
  · subst hk
    rw [show (rules K).key (Change.upsert e).entry = K.key e from rfl, Function.update_self]
    constructor
    · intro heq
      cases heq
      exact ⟨.inr rfl, rfl⟩
    · rintro ⟨⟨hy, hne⟩ | rfl, hky⟩
      · have hyx := h.key_inj hy hx (hky.trans hkey)
        exact absurd (hyx ▸ hguid.symm) hne
      · rfl
  · rw [Function.update_of_ne (show k ≠ (rules K).key (Change.upsert e).entry from hk), h.settled]
    constructor
    · rintro ⟨hy, rfl⟩
      refine ⟨.inl ⟨hy, fun hg => hk ?_⟩, rfl⟩
      rw [h.guids y hy x hx (hg.trans hguid), hkey]
    · rintro ⟨⟨hy, -⟩ | rfl, hky⟩
      · exact ⟨hy, hky⟩
      · exact absurd hky.symm hk

/-- An update, announced. -/
theorem update (hbound : updates K (K.guid e) log + 1 < 2 ^ 32) :
    History K env stored' (log ++ [⟨.update, e⟩]) uuids := by
  have hguid : K.guid e = K.guid x := K.update_guid _ _ _ _ hu
  have htag : K.tag e = (K.tag x).increment := K.update_tag _ _ _ _ hu
  have hindex : (K.tag x).index.toNat = updates K (K.guid e) log := by
    rw [h.counted x hx, hguid]
  have hlt : (K.tag x).index < (K.tag e).index := by
    rw [htag]
    exact ModificationTag.lt_increment (by omega)
  have htagguid : (K.tag e).guid = (K.tag x).guid := by rw [htag]; rfl
  refine ⟨?_, ?_, ?_, ?_, ?_, ?_⟩
  · rw [changes_append, changes_update]
    exact h.settled_update hx hu hmem
  · intro ev hev
    rcases List.mem_append.mp hev with hev | hev
    · exact h.drawn ev hev
    · rw [List.mem_singleton.mp hev]
      obtain ⟨hg, ht⟩ := h.stored_drawn hx
      exact ⟨hguid ▸ hg, htagguid ▸ ht⟩
  · intro o ho y hy hg
    rw [changes_append, changes_update, List.mem_append, List.mem_singleton] at ho
    rcases ho with ho | ho <;> rcases (hmem y).mp hy with ⟨hy, hne⟩ | rfl
    · exact h.ordered o ho y hy hg
    · right
      rcases h.ordered o ho x hx (hg.trans htagguid) with rfl | hlt'
      · exact hlt
      · exact UInt32.lt_trans hlt' hlt
    · cases ho
      have hyx := h.tag_inj hx hy (htagguid.symm.trans hg)
      exact absurd (hyx ▸ hguid.symm) hne
    · exact .inl (Change.upsert.inj ho)
  · intro y hy
    rw [updates_append]
    rcases (hmem y).mp hy with ⟨hy, hne⟩ | rfl
    · rw [h.counted y hy]
      simp [updates, Ne.symm hne]
    · rw [htag, ModificationTag.increment_toNat (by omega), hindex]
      simp [updates]
  · intro a ha b hb hg
    rcases (hmem a).mp ha with ⟨ha, hane⟩ | rfl <;> rcases (hmem b).mp hb with ⟨hb, hbne⟩ | rfl
    · exact h.guids a ha b hb hg
    · exact absurd hg hane
    · exact absurd hg.symm hbne
    · rfl
  · rw [changes_append, changes_update]
    exact h.precedes_snoc fun o ho _ => h.dominated hx ho htagguid (.inl hlt)

end Update

section Insert
variable {e : E} {i j : ℕ} {u : String} (hids : env.Uuids) (hi : uuids ≤ i) (hj : uuids ≤ j)
variable (hg : env.newV4 i = .ok (K.guid e)) (hu : env.newV4 j = .ok u) (htag : K.tag e = ⟨u, 0⟩)
variable (hnew : ∀ y ∈ stored, K.key y ≠ K.key e) (hmem : ∀ y, y ∈ stored' ↔ y ∈ stored ∨ y = e)

omit [DecidableEq κ] h in
include hids hi hj hg hu htag in
/-- The uuids of a new row occur nowhere in the log. -/
theorem fresh (hdrawn : ∀ ev ∈ log, (∃ i < uuids, env.newV4 i = .ok (K.guid ev.value)) ∧
    ∃ i < uuids, env.newV4 i = .ok (K.tag ev.value).guid) :
    ∀ ev ∈ log, K.guid ev.value ≠ K.guid e ∧ (K.tag ev.value).guid ≠ (K.tag e).guid := by
  intro ev hev
  obtain ⟨⟨a, ha, hag⟩, b, hb, hbt⟩ := hdrawn ev hev
  constructor
  · intro heq
    have := hids.inj a i _ hag (heq ▸ hg)
    omega
  · intro heq
    rw [heq, htag] at hbt
    have := hids.inj b j _ hbt hu
    omega

include hnew hmem in
theorem settled_insert (k : κ) (y : E) :
    settle (rules K) (changes log ++ [.upsert e]) k = some y ↔ y ∈ stored' ∧ K.key y = k := by
  rw [settle_snoc, hmem]
  by_cases hk : k = K.key e
  · subst hk
    rw [show (rules K).key (Change.upsert e).entry = K.key e from rfl, Function.update_self]
    constructor
    · intro heq
      cases heq
      exact ⟨.inr rfl, rfl⟩
    · rintro ⟨hy | rfl, hky⟩
      · exact absurd hky (hnew y hy)
      · rfl
  · rw [Function.update_of_ne (show k ≠ (rules K).key (Change.upsert e).entry from hk), h.settled]
    constructor
    · rintro ⟨hy, rfl⟩
      exact ⟨.inl hy, rfl⟩
    · rintro ⟨hy | rfl, hky⟩
      · exact ⟨hy, hky⟩
      · exact absurd hky.symm hk

include hids hi hj hg hu htag hnew hmem in
/-- A new row, announced. -/
theorem insert (hiu : i < uuids') (hju : j < uuids') :
    History K env stored' (log ++ [⟨.create, e⟩]) uuids' := by
  have hfresh := fresh hids hi hj hg hu htag h.drawn
  have hold : ∀ o, .upsert o ∈ changes log → (K.tag o).guid ≠ (K.tag e).guid := by
    intro o ho
    obtain ⟨ev, hev, rfl⟩ := event_of_upsert ho
    exact (hfresh ev hev).2
  have hstored : ∀ y ∈ stored, K.guid y ≠ K.guid e ∧ (K.tag y).guid ≠ (K.tag e).guid := by
    intro y hy
    obtain ⟨ev, hev, rfl⟩ := event_of_upsert (h.upsert_of_stored hy)
    exact hfresh ev hev
  refine ⟨?_, ?_, ?_, ?_, ?_, ?_⟩
  · rw [changes_append, changes_create]
    exact h.settled_insert hnew hmem
  · intro ev hev
    rcases List.mem_append.mp hev with hev | hev
    · exact (h.mono (hi.trans hiu.le)).drawn ev hev
    · rw [List.mem_singleton.mp hev]
      exact ⟨⟨i, hiu, hg⟩, j, hju, by rw [htag]; exact hu⟩
  · intro o ho y hy hgo
    rw [changes_append, changes_create, List.mem_append, List.mem_singleton] at ho
    rcases ho with ho | ho <;> rcases (hmem y).mp hy with hy | rfl
    · exact h.ordered o ho y hy hgo
    · exact absurd hgo (hold o ho)
    · cases ho
      exact absurd hgo.symm (hstored y hy).2
    · exact .inl (Change.upsert.inj ho)
  · intro y hy
    rw [updates_append]
    rcases (hmem y).mp hy with hy | rfl
    · rw [h.counted y hy]
      simp [updates]
    · have hnone : updates K (K.guid y) log = 0 := by
        rw [updates, List.countP_eq_zero]
        intro ev hev hc
        exact (hfresh ev hev).1 (of_decide_eq_true hc).2
      rw [hnone, htag]
      simp [updates]
  · intro a ha b hb hgab
    rcases (hmem a).mp ha with ha | rfl <;> rcases (hmem b).mp hb with hb | rfl
    · exact h.guids a ha b hb hgab
    · exact absurd hgab (hstored a ha).1
    · exact absurd hgab.symm (hstored b hb).1
    · rfl
  · rw [changes_append, changes_create]
    exact h.precedes_snoc fun o ho _ => .inl (ModificationTag.succeededBy_of_guid (hold o ho))

end Insert

section Remove
variable {es : List E} (hsub : ∀ e ∈ es, e ∈ stored)
variable (hmem : ∀ y, y ∈ stored' ↔ y ∈ stored ∧ y ∉ es)
include hsub hmem

theorem settled_remove (k : κ) (y : E) :
    settle (rules K) (changes log ++ es.map .delete) k = some y ↔ y ∈ stored' ∧ K.key y = k := by
  rw [hmem]
  rcases last_or_none (fun c => (rules K).key c.entry = k) (es.map Change.delete) with
    hnone | ⟨as, c, bs, heq, hc, hbs⟩
  · rw [settle_append_of_ne _ _ hnone, h.settled]
    constructor
    · rintro ⟨hy, rfl⟩
      exact ⟨⟨hy, fun hes => hnone _ (List.mem_map_of_mem hes) rfl⟩, rfl⟩
    · rintro ⟨⟨hy, -⟩, hk⟩
      exact ⟨hy, hk⟩
  · have hcmem : c ∈ es.map Change.delete := heq ▸ List.mem_append_right _ List.mem_cons_self
    obtain ⟨e, he, rfl⟩ := List.mem_map.mp hcmem
    rw [heq, ← List.append_assoc, settle_last _ _ hc hbs]
    constructor
    · intro habs
      cases habs
    · rintro ⟨⟨hy, hes⟩, hk⟩
      exact absurd (h.key_inj (hsub e he) hy (hc.trans hk.symm) ▸ he) hes

/-- Rows removed, each announced with the row as it was stored. -/
theorem remove {evs : List (Event E)} (hchanges : changes evs = es.map .delete)
    (hevs : ∀ ev ∈ evs, ev.type ≠ .update ∧ ev.value ∈ es) :
    History K env stored' (log ++ evs) uuids := by
  refine ⟨?_, ?_, ?_, ?_, ?_, ?_⟩
  · rw [changes_append, hchanges]
    exact h.settled_remove hsub hmem
  · intro ev hev
    rcases List.mem_append.mp hev with hev | hev
    · exact h.drawn ev hev
    · exact h.stored_drawn (hsub _ (hevs ev hev).2)
  · intro o ho y hy hg
    rw [changes_append, hchanges, List.mem_append] at ho
    rcases ho with ho | ho
    · exact h.ordered o ho y ((hmem y).mp hy).1 hg
    · simp at ho
  · intro y hy
    have hnone : updates K (K.guid y) evs = 0 := by
      rw [updates, List.countP_eq_zero]
      intro ev hev hc
      exact (hevs ev hev).1 (of_decide_eq_true hc).1
    rw [updates_append, hnone, h.counted y ((hmem y).mp hy).1, add_zero]
  · intro a ha b hb
    exact h.guids a ((hmem a).mp ha).1 b ((hmem b).mp hb).1
  · rw [changes_append, hchanges]
    refine List.pairwise_append.mpr ⟨h.precedes, ?_, ?_⟩
    · refine List.pairwise_map.mpr (List.pairwise_of_forall fun a b o hao => ?_)
      cases hao
    · intro a ha b hb o hao _
      obtain ⟨e, he, rfl⟩ := List.mem_map.mp hb
      subst hao
      exact h.dominated (hsub e he) ha rfl (.inr rfl)

end Remove

end History
end History

section Runs
variable {E C κ : Type} [DecidableEq κ] (K : Kind E C κ) (env : Env)

/-- Rows stand in the table as they were written, and the log tells which ones. -/
structure Recorded (w : World K) : Prop where
  exact : ∀ x ∈ w.table.rows, K.model.toRow (K.model.ofRow x) = x
  history : History K env w.stored w.log w.uuids

variable {K env} {s : Schema C} {w w' w₁ : World K}

theorem Recorded.initial : Recorded K env (World.initial K) :=
  ⟨(fun _ h => by cases h), History.initial⟩

theorem Recorded.emits (h : Recorded K env w) (hw : w.Emits w' []) : Recorded K env w' := by
  refine ⟨fun x hx => h.exact x (hw.table ▸ hx), ?_⟩
  rw [hw.stored, hw.log, List.append_nil]
  exact h.history.mono hw.uuids

theorem Recorded.guid_ne (h : Recorded K env w) (hids : env.Uuids) {e : E} (he : e ∈ w.stored) :
    K.guid e ≠ "" := by
  obtain ⟨⟨i, -, hi⟩, -⟩ := h.history.stored_drawn he
  exact hids.nonempty i _ hi

/-- A lookup that finds nothing means that the key is not stored. -/
theorem Recorded.unmatched (h : Recorded K env w) (hids : env.Uuids) {m : E}
    (hm : w.Unmatched m) : ∀ y ∈ w.stored, K.key y ≠ K.key m := by
  intro y hy hk
  obtain ⟨x, hx, rfl⟩ := World.mem_stored.mp hy
  have hholds := K.lookup_toRow m _ hk
  rw [h.exact x hx] at hholds
  have hsel : x ∈ w.table.select (K.lookup m) := Table.mem_select.mpr ⟨hx, hholds⟩
  rcases hm with hn | ⟨z, hz, hzero⟩
  · rw [hn] at hsel
    cases hsel
  · rw [hz, List.mem_singleton] at hsel
    subst hsel
    exact h.guid_ne hids hy (hzero ▸ K.guid_zero)

section Steps
variable (h : Recorded K env w)
include h

theorem Recorded.updated {m e : E} {x : Row C} (hx : w.Matched m x)
    (hu : K.update w.now (K.model.ofRow x) m = some e) (hup : w.Updates w₁ s e)
    (hev : w₁.Emits w' [⟨.update, e⟩]) (hbound : Unwrapped K w'.log) : Recorded K env w' := by
  refine ⟨fun y hy => ?_, ?_⟩
  · rw [hev.table, hup.mem_rows] at hy
    rcases hy with ⟨hy, -⟩ | rfl
    · exact h.exact y hy
    · rw [K.ofRow_toRow]
  · have hg := hbound (K.guid e)
    rw [hev.log, hup.log, updates_append] at hg
    rw [hev.stored, hev.log, hup.log]
    refine (h.history.update (World.mem_stored.mpr ⟨x, hx.mem, rfl⟩) hu
      (fun y => hup.mem_stored) ?_).mono (hup.uuids.trans hev.uuids)
    simpa [updates] using hg

theorem Recorded.created (hids : env.Uuids) (hexact : K.model.Exact s) {m e₀ : E} {i j : ℕ}
    {g u : String} (hm : w.Unmatched m) (hi : w.uuids ≤ i) (hij : i < j) (hj : j < w₁.uuids)
    (hg : env.newV4 i = .ok g) (hu : env.newV4 j = .ok u) (he : K.withModel g w.now m = some e₀)
    (hins : w.Inserts w₁ s (K.setTag ⟨u, 0⟩ e₀))
    (hev : w₁.Emits w' [⟨.create, K.setTag ⟨u, 0⟩ e₀⟩]) : Recorded K env w' := by
  have hrow := K.model.insertRow_exact hexact (K.setTag ⟨u, 0⟩ e₀)
  have hstored : w₁.stored = w.stored ++ [K.setTag ⟨u, 0⟩ e₀] := by
    rw [hins.stored, hrow, K.ofRow_toRow]
  refine ⟨fun y hy => ?_, ?_⟩
  · rw [hev.table, hins.mem_rows] at hy
    rcases hy with hy | rfl
    · exact h.exact y hy
    · rw [hrow, K.ofRow_toRow]
  · rw [hev.stored, hev.log, hins.log, hstored]
    refine (h.history.insert hids hi (hi.trans hij.le) ?_ hu (K.setTag_tag _ _) ?_ ?_
      (hij.trans hj) hj).mono hev.uuids
    · rw [Kind.new_guid he]
      exact hg
    · rw [Kind.new_key he]
      exact h.unmatched hids hm
    · simp

/-- Rows removed by their guid. -/
theorem Recorded.removed {p : String → Bool} {es : List E} {evs : List (Event E)}
    (hsub : ∀ e ∈ es, e ∈ w.stored) (hp : ∀ y ∈ w.stored, p (K.guid y) = false ↔ y ∉ es)
    (hchanges : changes evs = es.map .delete)
    (hevs : ∀ ev ∈ evs, ev.type ≠ .update ∧ ev.value ∈ es)
    (hr : w.Removes w₁ p) (hev : w₁.Emits w' evs) : Recorded K env w' := by
  refine ⟨fun y hy => ?_, ?_⟩
  · rw [hev.table] at hy
    exact h.exact y (hr.mem_rows.mp hy).1
  · rw [hev.stored, hev.log, hr.log]
    refine (h.history.remove hsub (fun y => ?_) hchanges hevs).mono (hr.uuids.trans hev.uuids)
    rw [hr.mem_stored]
    exact and_congr_right fun hy => hp y hy

end Steps

/-- Every effect keeps the log in step with the table. -/
theorem Recorded.effect (hids : env.Uuids) (hexact : K.model.Exact s) (h : Recorded K env w)
    (hw : Effect env s w w') (hbound : Unwrapped K w'.log) : Recorded K env w' := by
  cases hw with
  | ticked d => exact ⟨h.exact, h.history⟩
  | idle _ hw => exact h.emits hw
  | updated m x e w₁ _ hx hu _ hup hev => exact h.updated hx hu hup hev hbound
  | created m i j g u e₀ w₁ _ hm hi hij hj hg hu he hins hev =>
    exact h.created hids hexact hm hi hij hj hg hu he hins hev
  | deleted m x w₁ _ hx _ hr hev =>
    have hmem : K.model.ofRow x ∈ w.stored := World.mem_stored.mpr ⟨x, hx.mem, rfl⟩
    have hsub : ∀ e ∈ [K.model.ofRow x], e ∈ w.stored := by simpa using hmem
    refine h.removed hsub ?_ ?_ ?_ hr hev
    · intro y hy
      rw [decide_eq_false_iff_not, List.mem_singleton]
      exact not_congr ⟨World.stored_inj hy hmem, fun heq => heq ▸ rfl⟩
    · simp
    · simp
  | pruned w₁ _ hr hev =>
    have hmem : ∀ e ∈ (expiredRows K w).map K.model.ofRow, e ∈ w.stored := by
      intro e he
      obtain ⟨x, hx, rfl⟩ := List.mem_map.mp he
      exact World.mem_stored.mpr ⟨x, (Table.mem_select.mp hx).1, rfl⟩
    refine h.removed hmem ?_ (changes_expire _) ?_ hr hev
    · intro y hy
      rw [decide_eq_false_iff_not, prunedGuids, List.mem_append]
      refine not_congr ⟨?_, fun hes => .inr (List.mem_map_of_mem hes)⟩
      rintro (hempty | hes)
      · exact absurd (List.eq_of_mem_replicate hempty) (h.guid_ne hids hy)
      · obtain ⟨e, he, hg⟩ := List.mem_map.mp hes
        rwa [← World.stored_inj (hmem e he) hy hg]
    · intro ev hev
      obtain ⟨e, he, rfl⟩ := List.mem_map.mp hev
      exact ⟨by simp, he⟩

variable [DecidableEq E]

theorem runOps_recorded (hids : env.Uuids) (hexact : K.model.Exact s) (h : Recorded K env w)
    (ops : List (Op E)) (hbound : Unwrapped K (runOps env s ops w).log) :
    Recorded K env (runOps env s ops w) := by
  refine runOps_invariant (I := fun w' => Unwrapped K w'.log → Recorded K env w') ?_
    (fun _ => h) ops hbound
  intro w' w'' hrec hw hbound
  obtain ⟨evs, hevs⟩ := hw.log
  exact (hrec (hevs ▸ hbound).of_append).effect hids hexact hw hbound

end Runs
end RoutingApi.Database
