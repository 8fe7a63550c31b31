import RoutingApi.Handlers.FrontendTLS
import RoutingApi.Models.Duration
import RoutingApi.Relational.Upserts

/-! Tables of mappings up to the guids that were generated. On such tables a save is a function of
the mapping: which guids were drawn no longer matters. -/
namespace RoutingApi.Handlers
open Relational Gorm Models Process Program Database Migrations Duration

section Anonymous

/-- A row whose guid is not one of the given ones, and so was generated, without its guids. -/
def anonymous (guids : List Cell) (x : Row TcpColumn) : Row TcpColumn := fun c =>
  if x .guid ∉ guids ∧ (c = .guid ∨ c = .modificationGuid) then .null else x c

variable {guids : List Cell} {x : Row TcpColumn}

theorem anonymous_column {c : TcpColumn} (hguid : c ≠ .guid) (htag : c ≠ .modificationGuid) :
    anonymous guids x c = x c := by
  simp [anonymous, hguid, htag]

theorem anonymous_known (h : x .guid ∈ guids) : anonymous guids x = x := by
  funext c
  simp [anonymous, h]

theorem keyColumns_visible : ∀ c ∈ tcpKind.keyColumns, c ≠ .guid ∧ c ≠ .modificationGuid := by
  decide

theorem indexColumns_visible (d : Dialect) : ∀ ix ∈ (tcpSchema d).indexes, ∀ p ∈ ix.columns,
    p.1 ≠ .guid ∧ p.1 ≠ .modificationGuid := by
  intro ix hix p hp
  rw [tcpSchema_indexes, List.mem_singleton] at hix
  subst hix
  simp only [idxTcpRoute, List.cons_append, List.nil_append, List.mem_cons, List.not_mem_nil,
    or_false] at hp
  rcases hp with rfl | rfl | rfl | rfl | rfl | rfl | rfl | rfl <;>
    (constructor <;> intro h <;> cases h)

theorem admits_anonymous (d : Dialect) (rows : List (Row TcpColumn)) (r : Row TcpColumn) :
    admits (tcpSchema d).indexes (rows.map (anonymous guids)) (anonymous guids r) =
      admits (tcpSchema d).indexes rows r := by
  have hvisible (ix) (hix : ix ∈ (tcpSchema d).indexes) (p) (hp : p ∈ ix.columns)
      (x : Row TcpColumn) : anonymous guids x p.1 = x p.1 :=
    anonymous_column (indexColumns_visible d ix hix p hp).1 (indexColumns_visible d ix hix p hp).2
  exact admits_map hvisible fun ix hix p hp => hvisible ix hix p hp r

/-- The lookup reads the columns of the key only. -/
theorem lookup_congr {m : TcpRouteMapping} {x y : Row TcpColumn}
    (h : ∀ c ∈ tcpKind.keyColumns, x c = y c) :
    holdsAll (tcpLookup m) x = holdsAll (tcpLookup m) y := by
  rw [Bool.eq_iff_iff]
  refine ((tcpKind.holds_lookup m x).trans ?_).trans (tcpKind.holds_lookup m y).symm
  exact forall₂_congr fun c hc => by rw [h c hc]

theorem lookup_anonymous (m : TcpRouteMapping) (x : Row TcpColumn) :
    holdsAll (tcpLookup m) (anonymous guids x) = holdsAll (tcpLookup m) x :=
  lookup_congr fun c hc => anonymous_column (keyColumns_visible c hc).1 (keyColumns_visible c hc).2

theorem similar_anonymous (m : TcpRouteMapping) (now : ℤ) (x : Row TcpColumn) :
    holdsAll (similarTo m now) (anonymous guids x) = holdsAll (similarTo m now) x := by
  simp [holdsAll, similarTo, Cond.holds, anonymous_column]

theorem flag_anonymous (x : Row TcpColumn) :
    (TcpRouteMapping.ofRow (anonymous guids x)).terminateFrontendTLS =
      (TcpRouteMapping.ofRow x).terminateFrontendTLS := by
  simp [TcpRouteMapping.ofRow, anonymous_column]

end Anonymous

section Store

/-- A mapping that passes the checks of its own fields. -/
abbrev Passed (maxTTL : ℤ) := { m : TcpRouteMapping // validateTcpRouteMapping m true maxTTL = .ok none }

variable {maxTTL : ℤ}

theorem Passed.ttl (v : Passed maxTTL) (hmax : maxTTL ≤ 9223372036) :
    ∃ ttl, v.1.ttl = some ttl ∧ 0 < ttlDuration ttl := by
  obtain ⟨-, ⟨ttl, httl, hpos, hle⟩, -⟩ := validateTcpRouteMapping_accepts.mp v.2
  refine ⟨ttl, httl, ?_⟩
  rw [ttlDuration_exact (by omega) (hle.trans hmax), second]
  omega

variable (d : Dialect) (now : ℤ)

/-- The struct that a mapping makes of a row it finds. -/
def refreshed (m : TcpRouteMapping) (x : Row TcpColumn) : TcpRouteMapping :=
  (TcpRouteMapping.updateTcpRouteMapping now (.ofRow x) m).getD (.ofRow x)

/-- The struct of a new row, before its guids. -/
def created (m : TcpRouteMapping) : TcpRouteMapping :=
  tcpKind.setTag ⟨"", 0⟩ ((m.withModel "" now).getD m)

def renewRow (m : TcpRouteMapping) (x : Row TcpColumn) : Row TcpColumn := fun c =>
  if x .guid = .null ∧ (c = .guid ∨ c = .modificationGuid) then .null else (refreshed now m x).toRow c

def freshRow (m : TcpRouteMapping) : Row TcpColumn := fun c =>
  if c = .guid ∨ c = .modificationGuid then .null
  else TcpRouteMapping.model.insertRow (tcpSchema d) (created now m) c

theorem refreshed_key (m : TcpRouteMapping) (x : Row TcpColumn) :
    (refreshed now m x).key = (TcpRouteMapping.ofRow x).key := by
  unfold refreshed
  cases h : TcpRouteMapping.updateTcpRouteMapping now (.ofRow x) m with
  | none => rfl
  | some e => exact tcpKind.update_key _ _ _ _ h

theorem created_key (m : TcpRouteMapping) : (created now m).key = m.key := by
  unfold created
  cases h : m.withModel "" now with
  | none => rfl
  | some e => exact Kind.new_key (K := tcpKind) h _

theorem renewRow_column (m : TcpRouteMapping) (x : Row TcpColumn) {c : TcpColumn}
    (hc : c ≠ .guid ∧ c ≠ .modificationGuid) :
    renewRow now m x c = (refreshed now m x).toRow c :=
  if_neg (by simp [hc])

theorem freshRow_column (m : TcpRouteMapping) {c : TcpColumn}
    (hc : c ≠ .guid ∧ c ≠ .modificationGuid) :
    freshRow d now m c = TcpRouteMapping.model.insertRow (tcpSchema d) (created now m) c :=
  if_neg (by simp [hc])

/-- A row that is found keeps the columns it is found by. -/
theorem renewRow_key {m : TcpRouteMapping} {x : Row TcpColumn} (h : holdsAll (tcpLookup m) x = true) :
    ∀ c ∈ tcpKind.keyColumns, renewRow now m x c = x c := by
  intro c hc
  have hkey : (refreshed now m x).key = m.key :=
    (refreshed_key now m x).trans (tcpKind.key_of_lookup m x h)
  have hfound := tcpKind.lookup_toRow m (refreshed now m x) hkey
  rw [renewRow_column now m x (keyColumns_visible c hc)]
  exact ((tcpKind.holds_lookup m _).mp hfound c hc).trans ((tcpKind.holds_lookup m x).mp h c hc).symm

theorem freshRow_key (m : TcpRouteMapping) : (TcpRouteMapping.ofRow (freshRow d now m)).key = m.key := by
  have hread : TcpRouteMapping.ofRow (TcpRouteMapping.model.insertRow (tcpSchema d) (created now m)) =
      created now m := StoredAs.ofRow (.inl rfl)
  have hcolumns : (TcpRouteMapping.ofRow (freshRow d now m)).key = (TcpRouteMapping.ofRow
      (TcpRouteMapping.model.insertRow (tcpSchema d) (created now m))).key := rfl
  rw [hcolumns, hread, created_key]

/-- Tables up to generated guids, and the writes of mappings that passed their checks. A row with an
empty guid cannot be saved again. -/
def store (maxTTL : ℤ) : Upserts (Passed maxTTL) (Row TcpColumn) TcpRouteMapping.Key where
  key v := v.1.key
  hit v := holdsAll (tcpLookup v.1)
  fresh v := freshRow d now v.1
  renew v := renewRow now v.1
  inserts rows r := admits (tcpSchema d).indexes rows r
  renews rows x r := decide (x .guid ≠ .text "") && admits (tcpSchema d).indexes rows r
  hit_iff a m x h := by
    have hkey := tcpKind.key_of_lookup a.1 x h
    constructor
    · intro hm
      exact (tcpKind.key_of_lookup m.1 x hm).symm.trans hkey
    · intro hk
      have hlookup : tcpLookup m.1 = tcpLookup a.1 := tcpKind.lookup_congr m.1 a.1 hk
      rw [hlookup]
      exact h
  hit_fresh a m h := (tcpKind.key_of_lookup m.1 _ h).symm.trans (freshRow_key d now a.1)
  hit_renew a m x h := lookup_congr (renewRow_key now h)

/-- The rows that a mapping is compared with, their flag, and the flag that it wants. -/
def sees (b : Passed maxTTL) : Row TcpColumn → Bool := holdsAll (similarTo b.1 now)

def flagOf (x : Row TcpColumn) : Bool := (TcpRouteMapping.ofRow x).terminateFrontendTLS

def wanted (b : Passed maxTTL) : Bool := b.1.terminateFrontendTLS

/-- A later mapping is compared with the row of an earlier one. -/
def Clash (a b : TcpRouteMapping) : Prop :=
  a.sniHostname = some (b.sniHostname.getD "") ∧ a.externalPort = b.externalPort
  deriving Decidable

/-- The columns that the comparison reads. -/
theorem similarColumns_visible : ∀ c ∈ [TcpColumn.sniHostname, .externalPort, .expiresAt],
    (c ≠ .guid ∧ c ≠ .modificationGuid) ∧ c ≠ .hostTLSPort ∧ c ≠ .instanceId := by
  decide

theorem similar_iff {m a e : TcpRouteMapping} {x : Row TcpColumn} (hkey : e.key = a.key)
    (hx : ∀ c ∈ [TcpColumn.sniHostname, .externalPort, .expiresAt], x c = e.toRow c)
    (hlive : now < e.expiresAt) : holdsAll (similarTo m now) x = true ↔ Clash a m := by
  have hsni : x .sniHostname = textPtr a.sniHostname :=
    (hx _ (by simp)).trans (congrArg (fun k : TcpRouteMapping.Key => textPtr k.sniHostname) hkey)
  have hport : x .externalPort = .int a.externalPort.toNat :=
    (hx _ (by simp)).trans (congrArg (fun k : TcpRouteMapping.Key => Cell.int k.externalPort.toNat) hkey)
  have hexpiry : x .expiresAt = .time e.expiresAt := hx _ (by simp)
  have htext : (textPtr a.sniHostname).eqv (.text (m.sniHostname.getD "")) = true ↔
      a.sniHostname = some (m.sniHostname.getD "") := by
    cases a.sniHostname <;> simp [textPtr, Cell.eqv]
  have hnumber : (Cell.int a.externalPort.toNat).eqv (.int m.externalPort.toNat) = true ↔
      a.externalPort = m.externalPort := by
    simp [Cell.eqv, UInt16.toNat_inj]
  simp only [holdsAll, similarTo, List.all_cons, List.all_nil, Bool.and_true, Bool.and_eq_true,
    Cond.holds, hsni, hport, hexpiry, htext, hnumber, Clash]
  simp [hlive]

section Flags
variable (hmax : maxTTL ≤ 9223372036)
include hmax

theorem Passed.refreshed (v : Passed maxTTL) (x : Row TcpColumn) :
    TcpRouteMapping.updateTcpRouteMapping now (.ofRow x) v.1 = some (refreshed now v.1 x) ∧
      now < (refreshed now v.1 x).expiresAt ∧ (refreshed now v.1 x).terminateFrontendTLS =
        (TcpRouteMapping.ofRow x).terminateFrontendTLS := by
  obtain ⟨ttl, httl, hpos⟩ := v.ttl hmax
  have hupdate : ∃ e, TcpRouteMapping.updateTcpRouteMapping now (.ofRow x) v.1 = some e ∧
      e.expiresAt = now + ttlDuration ttl ∧
      e.terminateFrontendTLS = (TcpRouteMapping.ofRow x).terminateFrontendTLS := by
    rw [TcpRouteMapping.updateTcpRouteMapping, httl]
    exact ⟨_, rfl, rfl, rfl⟩
  obtain ⟨e, he, hexpiry, hflag⟩ := hupdate
  rw [Handlers.refreshed, he, Option.getD_some]
  exact ⟨rfl, by omega, hflag⟩

theorem Passed.created (v : Passed maxTTL) : now < (created now v.1).expiresAt ∧
    (created now v.1).terminateFrontendTLS = v.1.terminateFrontendTLS := by
  obtain ⟨ttl, httl, hpos⟩ := v.ttl hmax
  have hnew : ∃ e, v.1.withModel "" now = some e ∧ e.expiresAt = now + ttlDuration ttl ∧
      e.terminateFrontendTLS = v.1.terminateFrontendTLS := by
    rw [TcpRouteMapping.withModel, httl]
    exact ⟨_, rfl, rfl, rfl⟩
  obtain ⟨e, he, hexpiry, hflag⟩ := hnew
  rw [Handlers.created, he, Option.getD_some]
  have hlive : now < e.expiresAt := by omega
  exact ⟨hlive, hflag⟩

theorem store_flagged :
    (store d now maxTTL).Flagged (sees now) flagOf wanted (fun a b => Clash a.1 b.1) where
  renew_flag a x _ := by
    obtain ⟨-, -, hflag⟩ := a.refreshed now hmax x
    have hcolumn := renewRow_column now a.1 x (c := .terminateFrontendTLS) (by decide)
    exact (congrArg boolOf hcolumn).trans hflag
  fresh_flag a := by
    obtain ⟨-, hflag⟩ := a.created now hmax
    have hread : TcpRouteMapping.ofRow
        (TcpRouteMapping.model.insertRow (tcpSchema d) (created now a.1)) = created now a.1 :=
      StoredAs.ofRow (.inl rfl)
    exact (congrArg TcpRouteMapping.terminateFrontendTLS hread).trans hflag
  renew_seen a b x h := by
    obtain ⟨-, hlive, -⟩ := a.refreshed now hmax x
    have hkey : (refreshed now a.1 x).key = a.1.key :=
      (refreshed_key now a.1 x).trans (tcpKind.key_of_lookup a.1 x h)
    exact similar_iff now hkey
      (fun c hc => renewRow_column now a.1 x (similarColumns_visible c hc).1) hlive
  fresh_seen a b := by
    obtain ⟨hlive, -⟩ := a.created now hmax
    refine similar_iff now (created_key now a.1) (fun c hc => ?_) hlive
    obtain ⟨hvisible, hport, hinst⟩ := similarColumns_visible c hc
    exact (freshRow_column d now a.1 hvisible).trans (insertRow_column hport hinst)
  clash_key a a' b h := by
    have hsni : a.1.sniHostname = a'.1.sniHostname := congrArg TcpRouteMapping.Key.sniHostname h
    have hport : a.1.externalPort = a'.1.externalPort := congrArg TcpRouteMapping.Key.externalPort h
    rw [Clash, Clash, hsni, hport]
  clash_self a a' b h hclash := by
    have hsni : a.1.sniHostname = a'.1.sniHostname := congrArg TcpRouteMapping.Key.sniHostname h
    have hport : a.1.externalPort = a'.1.externalPort := congrArg TcpRouteMapping.Key.externalPort h
    refine ⟨?_, hport⟩
    rw [← hsni, hclash.1, Option.getD_some]

end Flags

end Store

section Refinement
variable {d : Dialect} {env : Env} {maxTTL now : ℤ} {guids : List Cell} {w w' : World tcpKind}
  {v : Passed maxTTL} {x : Row TcpColumn}

/-- The table up to generated guids. -/
def shape (guids : List Cell) (w : World tcpKind) : List (Row TcpColumn) :=
  w.table.rows.map (anonymous guids)

theorem shape_filter : (shape guids w).filter ((store d now maxTTL).hit v) =
    (w.table.select (tcpLookup v.1)).map (anonymous guids) := by
  have hhit : (store d now maxTTL).hit v ∘ anonymous guids = holdsAll (tcpLookup v.1) :=
    funext (lookup_anonymous v.1)
  rw [shape, List.filter_map, hhit]
  rfl

theorem Passed.nonzero (h : holdsAll (tcpLookup v.1) x = true) :
    TcpRouteMapping.ofRow x ≠ TcpRouteMapping.zero := by
  intro hzero
  have hkey := tcpKind.key_of_lookup v.1 x h
  obtain ⟨hbackend, -⟩ := validateTcpRouteMapping_accepts.mp v.2
  apply (validateBackend_accepts.mp hbackend).1
  have hgroup : (TcpRouteMapping.ofRow x).routerGroupGuid = v.1.routerGroupGuid :=
    congrArg TcpRouteMapping.Key.routerGroupGuid hkey
  rw [← hgroup, hzero]
  rfl

theorem refreshed_guid (hmax : maxTTL ≤ 9223372036) (v : Passed maxTTL) {g : String}
    (hx : x .guid = .text g) : (refreshed now v.1 x).toRow .guid = x .guid := by
  obtain ⟨hupdate, -⟩ := v.refreshed now hmax x
  have hsame : (refreshed now v.1 x).guid = textOf (x .guid) := tcpKind.update_guid _ _ _ _ hupdate
  rw [hx] at hsame ⊢
  exact congrArg Cell.text hsame

theorem Passed.select_nil (h : w.Unmatched v.1) : w.table.select (tcpLookup v.1) = [] := by
  rcases h with hnil | ⟨x, hx, hzero⟩
  · exact hnil
  · have hmem : x ∈ w.table.select (tcpLookup v.1) := by
      have hx : w.table.select (tcpLookup v.1) = [x] := hx
      rw [hx]
      exact List.mem_singleton_self x
    exact absurd hzero (v.nonzero (Table.mem_select.mp hmem).2)

theorem ofRow_anonymous (guids : List Cell) (x : Row TcpColumn) :
    TcpRouteMapping.ofRow (anonymous guids x) = { TcpRouteMapping.ofRow x with
      guid := textOf (anonymous guids x .guid)
      modificationTag := ⟨textOf (anonymous guids x .modificationGuid),
        (TcpRouteMapping.ofRow x).modificationTag.index⟩ } := by
  simp [TcpRouteMapping.ofRow, anonymous_column]

/-- Writing back the anonymous row or the row itself makes no difference up to generated guids. -/
theorem renewRow_anonymous (hmax : maxTTL ≤ 9223372036) (v : Passed maxTTL) {g : String}
    (hx : x .guid = .text g) :
    renewRow now v.1 (anonymous guids x) = anonymous guids (refreshed now v.1 x).toRow := by
  have hguid : (refreshed now v.1 x).toRow .guid = x .guid := refreshed_guid hmax v hx
  by_cases hknown : x .guid ∈ guids
  · rw [anonymous_known hknown, anonymous_known (by rwa [hguid])]
    funext c
    simp [renewRow, hx]
  · have hcolumn {c : TcpColumn} (hc : c ≠ .guid ∧ c ≠ .modificationGuid) :
        (refreshed now v.1 (anonymous guids x)).toRow c = (refreshed now v.1 x).toRow c := by
      obtain ⟨ttl, httl, -⟩ := v.ttl hmax
      rw [refreshed, refreshed, TcpRouteMapping.updateTcpRouteMapping,
        TcpRouteMapping.updateTcpRouteMapping, httl, ofRow_anonymous]
      cases c <;> first | rfl | simp at hc
    funext c
    by_cases hc : c ≠ .guid ∧ c ≠ .modificationGuid
    · rw [renewRow_column now v.1 _ hc, anonymous_column hc.1 hc.2, hcolumn hc]
    · have hhidden : c = .guid ∨ c = .modificationGuid := by tauto
      have hnull : anonymous guids x .guid = .null := by simp [anonymous, hknown]
      rw [renewRow, if_pos ⟨hnull, hhidden⟩, anonymous, if_pos ⟨by rwa [hguid], hhidden⟩]

theorem freshRow_anonymous (v : Passed maxTTL) {g u : String} {e : TcpRouteMapping}
    (he : v.1.withModel g now = some e) (hg : Cell.text g ∉ guids) :
    freshRow d now v.1 = anonymous guids
      (TcpRouteMapping.model.insertRow (tcpSchema d) (tcpKind.setTag ⟨u, 0⟩ e)) := by
  have hguid : TcpRouteMapping.model.insertRow (tcpSchema d) (tcpKind.setTag ⟨u, 0⟩ e) .guid =
      .text g :=
    (tcpKind.insertRow_pk _ _).trans (congrArg Cell.text (Kind.new_guid (K := tcpKind) he _))
  funext c
  by_cases hc : c ≠ .guid ∧ c ≠ .modificationGuid
  · rw [freshRow_column d now v.1 hc, anonymous_column hc.1 hc.2]
    have hcell : (created now v.1).toRow c = (tcpKind.setTag ⟨u, 0⟩ e).toRow c := by
      obtain ⟨ttl, httl, rfl⟩ := Option.map_eq_some_iff.mp he
      rw [created, TcpRouteMapping.withModel, httl]
      cases c <;> first | rfl | simp at hc
    have hcell' : TcpRouteMapping.model.toRow (created now v.1) c =
        TcpRouteMapping.model.toRow (tcpKind.setTag ⟨u, 0⟩ e) c := hcell
    rw [Model.insertRow, Model.insertRow, hcell']
  · have hhidden : c = .guid ∨ c = .modificationGuid := by tauto
    rw [freshRow, if_pos hhidden, anonymous, if_pos ⟨by rwa [hguid], hhidden⟩]

/-- The row that is found is the one with its guid. -/
theorem hit_iff_guid {m : TcpRouteMapping} {y : Row TcpColumn}
    (hx : w.table.select (tcpLookup m) = [x])
    (hy : y ∈ w.table.rows) : holdsAll (tcpLookup m) y = decide (y .guid = x .guid) := by
  have hmem : ∀ y, y ∈ w.table.rows ∧ holdsAll (tcpLookup m) y = true ↔ y = x := by
    intro y
    rw [← Table.mem_select, hx, List.mem_singleton]
  obtain ⟨hrow, hhit⟩ := (hmem x).mpr rfl
  rw [Bool.eq_iff_iff, decide_eq_true_eq]
  constructor
  · intro h
    rw [(hmem y).mp ⟨hy, h⟩]
  · intro h
    rw [Table.eq_of_pk hy hrow h]
    exact hhit

/-- The other rows, up to generated guids. -/
theorem shape_others (hx : w.table.select (tcpLookup v.1) = [x]) :
    (shape guids w).filter (fun y => !(store d now maxTTL).hit v y) =
      (w.table.rows.filter fun y => decide (y .guid ≠ x .guid)).map (anonymous guids) := by
  rw [shape, List.filter_map]
  refine congrArg _ (List.filter_congr fun y hy => ?_)
  show (!holdsAll (tcpLookup v.1) (anonymous guids y)) = _
  rw [lookup_anonymous, hit_iff_guid hx hy, decide_not]

/-- The table with the row that is found renewed. -/
theorem shape_renewed (hx : w.table.select (tcpLookup v.1) = [x]) {r : Row TcpColumn}
    (hrenew : renewRow now v.1 (anonymous guids x) = anonymous guids r) :
    (shape guids w).map (fun y => if (store d now maxTTL).hit v y then
        (store d now maxTTL).renew v y else y) =
      (w.table.rows.map fun y => if y .guid = x .guid then r else y).map (anonymous guids) := by
  have hrow : x ∈ w.table.rows := (Table.mem_select.mp (hx ▸ List.mem_singleton_self x)).1
  rw [shape, List.map_map, List.map_map]
  refine List.map_congr_left fun y hy => ?_
  show (if holdsAll (tcpLookup v.1) (anonymous guids y) = true then
    renewRow now v.1 (anonymous guids y) else anonymous guids y) = _
  rw [lookup_anonymous, hit_iff_guid hx hy, Function.comp_apply]
  by_cases hguid : y .guid = x .guid
  · rw [if_pos (by simpa using hguid), if_pos hguid, Table.eq_of_pk hy hrow hguid, hrenew]
  · rw [if_neg (by simpa using hguid), if_neg hguid]

/-- A save that finds a row, on the table up to generated guids. -/
theorem upsert_matched (hmax : maxTTL ≤ 9223372036) (hx : w.table.select (tcpLookup v.1) = [x]) :
    (store d w.now maxTTL).upsert v (shape guids w) =
      if anonymous guids x .guid = .text "" then none
      else ((w.table.update (tcpSchema d).indexes (refreshed w.now v.1 x).toRow).map Table.rows).map
        (List.map (anonymous guids)) := by
  have hrow : x ∈ w.table.rows := (Table.mem_select.mp (hx ▸ List.mem_singleton_self x)).1
  have hpk : x .guid = .text (TcpRouteMapping.ofRow x).guid := (w.typed x hrow).pk
  set r := (refreshed w.now v.1 x).toRow with hr
  have hguid : r .guid = x .guid := refreshed_guid hmax v hpk
  have hrenew : renewRow w.now v.1 (anonymous guids x) = anonymous guids r :=
    renewRow_anonymous hmax v hpk
  have hone : (shape guids w).filter ((store d w.now maxTTL).hit v) = [anonymous guids x] := by
    rw [shape_filter, hx, List.map_singleton]
  have hadmits : admits (tcpSchema d).indexes
      ((w.table.rows.filter fun y => decide (y .guid ≠ x .guid)).map (anonymous guids))
        (anonymous guids r) =
      admits (tcpSchema d).indexes (w.table.rows.filter fun y => decide (y .guid ≠ x .guid)) r :=
    admits_anonymous d _ r
  rw [Upserts.upsert_singleton hone, shape_others hx, shape_renewed hx hrenew]
  show (if (decide (anonymous guids x .guid ≠ .text "") && admits (tcpSchema d).indexes _
    (renewRow w.now v.1 (anonymous guids x))) = true then _ else _) = _
  have hupdate : (w.table.update (tcpSchema d).indexes r).map Table.rows =
      if admits (tcpSchema d).indexes
          (w.table.rows.filter fun y => decide (y .guid ≠ x .guid)) r then
        some (w.table.rows.map fun y => if y .guid = x .guid then r else y)
      else none := by
    rw [← hguid]
    exact Table.update_map_rows w.table (tcpSchema d).indexes r
  rw [hrenew, hadmits, hupdate]
  by_cases hempty : anonymous guids x .guid = .text ""
  · rw [if_pos hempty, if_neg (by simp [hempty])]
  · rw [if_neg hempty, decide_eq_true hempty, Bool.true_and, apply_ite (Option.map _)]
    rfl

/-- A save that finds no row, whichever guid is drawn. -/
theorem upsert_unmatched (hx : w.table.select (tcpLookup v.1) = [])
    (hknown : ∀ g ∈ guids, w.table.Stores g) {g u : String} {e : TcpRouteMapping}
    (he : v.1.withModel g w.now = some e) (hg : ¬w.table.Stores (.text g)) :
    (store d w.now maxTTL).upsert v (shape guids w) =
      ((w.table.insert (tcpSchema d).indexes (TcpRouteMapping.model.insertRow (tcpSchema d)
        (tcpKind.setTag ⟨u, 0⟩ e))).map Table.rows).map (List.map (anonymous guids)) := by
  set r := TcpRouteMapping.model.insertRow (tcpSchema d) (tcpKind.setTag ⟨u, 0⟩ e)
  have hpk : r .guid = .text g :=
    (tcpKind.insertRow_pk _ _).trans (congrArg Cell.text (Kind.new_guid (K := tcpKind) he _))
  have hfresh : freshRow d w.now v.1 = anonymous guids r :=
    freshRow_anonymous v he fun hmem => hg (hknown _ hmem)
  have hnil : (shape guids w).filter ((store d w.now maxTTL).hit v) = [] := by
    rw [shape_filter, hx, List.map_nil]
  have hinsert := Table.insert_map_rows w.table (tcpSchema d).indexes r
  have hnew : ¬w.table.Stores (r .guid) := by rwa [hpk]
  rw [Upserts.upsert_nil hnil]
  show (if admits (tcpSchema d).indexes (shape guids w) (freshRow d w.now v.1) = true then
    some (shape guids w ++ [freshRow d w.now v.1]) else none) = _
  rw [hfresh, shape, admits_anonymous, hinsert]
  by_cases hadmits : admits (tcpSchema d).indexes w.table.rows r = true
  · rw [if_pos hadmits, if_pos ⟨hnew, hadmits⟩, Option.map_some, List.map_append, List.map_singleton]
  · rw [if_neg hadmits, if_neg (fun h => hadmits h.2), Option.map_none]

/-- A save that succeeds is a write of the store. -/
theorem Saved.upserts (hmax : maxTTL ≤ 9223372036) (hknown : ∀ g ∈ guids, w.table.Stores g)
    {r : Except Err Unit × World tcpKind} (h : Saved env (tcpSchema d) v.1 w r) (hok : r.1 = .ok ()) :
    (store d w.now maxTTL).upsert v (shape guids w) = some (shape guids r.2) := by
  cases h with
  | updated x e w₁ w' hx hu hg hup hev =>
    obtain ⟨hupdate, -⟩ := v.refreshed w.now hmax x
    have he : e = refreshed w.now v.1 x := Option.some.inj (hu.symm.trans hupdate)
    have hpk : x .guid = .text e.guid := by
      have hguid : e.guid = (TcpRouteMapping.ofRow x).guid := tcpKind.update_guid _ _ _ _ hu
      rw [hguid]
      exact (w.typed x hx.mem).pk
    have hnonempty : anonymous guids x .guid ≠ .text "" := by
      unfold anonymous
      split
      next => nofun
      next =>
        rw [hpk]
        exact fun h => hg (Cell.text.inj h)
    have htable : w.table.update (tcpSchema d).indexes (refreshed w.now v.1 x).toRow = some w₁.table :=
      he ▸ hup.update
    rw [upsert_matched hmax hx.select, if_neg hnonempty, htable, shape, hev.table]
    rfl
  | created i j g u e₀ w₁ w' hx hi hij hj hg hu he hins hev =>
    have hnew : ¬w.table.Stores (.text g) := by
      have hpk := (Table.insert_some hins.insert).2.1
      rwa [tcpKind.insertRow_pk, Kind.new_guid (K := tcpKind) he] at hpk
    have htable : w.table.insert (tcpSchema d).indexes (TcpRouteMapping.model.insertRow (tcpSchema d)
        (tcpKind.setTag ⟨u, 0⟩ e₀)) = some w₁.table := hins.insert
    rw [upsert_unmatched (v.select_nil hx) hknown he hnew, htable, shape, hev.table]
    rfl
  | _ => cases hok

end Refinement

end RoutingApi.Handlers
