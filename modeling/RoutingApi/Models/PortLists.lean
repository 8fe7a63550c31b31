import RoutingApi.Models.ReservablePorts
import Mathlib.Order.CompletePartialOrder

/-! What the text of reservable ports stands for: the grammar that `Parse` accepts, the set
of ports of a range, and which texts `Validate` lets through. -/
namespace RoutingApi.Models

section Sets

/-- `{start..end}`. -/
def Range.ports (r : Range) : Set UInt16 := {port | r.has port = true}

theorem Range.max_toNat (r other : Range) :
    (r.max other).toNat = Max.max r.stop.toNat other.stop.toNat := by
  unfold Range.max
  split
  next h =>
    rw [gt_iff_lt, UInt16.lt_iff_toNat_lt] at h
    exact (Nat.max_eq_left h.le).symm
  next h =>
    rw [gt_iff_lt, UInt16.lt_iff_toNat_lt, not_lt] at h
    exact (Nat.max_eq_right h).symm

theorem Range.min_toNat (r other : Range) :
    (r.min other).toNat = Min.min r.start.toNat other.start.toNat := by
  unfold Range.min
  split
  next h =>
    rw [UInt16.lt_iff_toNat_lt] at h
    exact (Nat.min_eq_left h.le).symm
  next h =>
    rw [UInt16.lt_iff_toNat_lt, not_lt] at h
    exact (Nat.min_eq_right h).symm

/-- The comparison of lengths finds out whether two ranges share a port. -/
theorem Range.overlaps_iff {r other : Range} (hr : r.start ≤ r.stop)
    (hother : other.start ≤ other.stop) :
    r.overlaps other = true ↔ ¬Disjoint r.ports other.ports := by
  have hle : r.min other ≤ r.max other := by
    rw [UInt16.le_iff_toNat_le] at hr ⊢
    rw [Range.min_toNat, Range.max_toNat]
    omega
  have hspan : r.overlaps other = true ↔
      r.start.toNat ≤ other.stop.toNat ∧ other.start.toNat ≤ r.stop.toNat := by
    simp only [Range.overlaps, decide_eq_true_eq, UInt16.toNat_sub_of_le _ _ hle,
      UInt16.toNat_sub_of_le _ _ hr, UInt16.toNat_sub_of_le _ _ hother,
      Range.min_toNat, Range.max_toNat]
    rw [UInt16.le_iff_toNat_le] at hr hother
    omega
  rw [hspan, Set.not_disjoint_iff]
  simp only [Range.ports, Set.mem_ofPred_eq, Range.has_iff]
  rw [UInt16.le_iff_toNat_le] at hr hother
  constructor
  · intro h
    -- the later of the two starts lies in both
    rcases Nat.le_total r.start.toNat other.start.toNat with hlt | hlt
    · exact ⟨other.start, by omega⟩
    · exact ⟨r.start, by omega⟩
  · rintro ⟨port, h⟩
    omega

end Sets

namespace ReservablePorts

/-- The double loop finds nothing if no two ranges at different places overlap. -/
theorem overlapping_eq_none {ranges : List Range} :
    overlapping ranges = none ↔
      ∀ i j (hi : i < ranges.length) (hj : j < ranges.length), i ≠ j →
        ranges[i].overlaps ranges[j] = false := by
  simp only [overlapping, List.findSome?_eq_none_iff, Prod.forall, List.mem_zipIdx_iff_getElem?,
    ite_eq_right_iff, reduceCtorEq, imp_false, not_and, Bool.not_eq_true]
  constructor
  · intro h i j hi hj hij
    exact h ranges[i] i (List.getElem?_eq_getElem hi) ranges[j] j (List.getElem?_eq_getElem hj) hij
  · intro h r₁ i hr₁ r₂ j hr₂ hij
    obtain ⟨hi, rfl⟩ := List.getElem?_eq_some_iff.mp hr₁
    obtain ⟨hj, rfl⟩ := List.getElem?_eq_some_iff.mp hr₂
    exact h i j hi hj hij

/-- Ranges that were parsed do not overlap exactly if their ports are pairwise disjoint. -/
theorem overlapping_eq_none_iff {p : String} {ranges : List Range} (h : parse p = .ok ranges) :
    overlapping ranges = none ↔ ranges.Pairwise fun r other => Disjoint r.ports other.ports := by
  have hoverlaps : ∀ i j (hi : i < ranges.length) (hj : j < ranges.length),
      ranges[i].overlaps ranges[j] = false ↔ Disjoint ranges[i].ports ranges[j].ports := by
    intro i j hi hj
    rw [← Bool.not_eq_true, Range.overlaps_iff (parse_ok h _ (List.getElem_mem hi)).2
      (parse_ok h _ (List.getElem_mem hj)).2, not_not]
  rw [overlapping_eq_none, List.pairwise_iff_getElem]
  constructor
  · intro hnone i j hi hj hij
    exact (hoverlaps i j hi hj).mp (hnone i j hi hj hij.ne)
  · intro hdisjoint i j hi hj hij
    rw [hoverlaps]
    rcases Nat.lt_or_gt_of_ne hij with hlt | hlt
    · exact hdisjoint i j hi hj hlt
    · exact (hdisjoint j i hj hi hlt).symm

/-- `Validate` accepts the texts that parse to ranges with pairwise disjoint ports, none of
them reserved if conflicts are to fail. -/
theorem validate_iff (cfg : PortSettings) (p : String) :
    validate cfg p = .ok () ↔ ∃ ranges, parse p = .ok ranges ∧
      (ranges.Pairwise fun r other => Disjoint r.ports other.ports) ∧
      (cfg.failOnRouterPortConflicts = true →
        ∀ r ∈ ranges, ∀ port ∈ cfg.reservedSystemComponentPorts, port ∉ r.ports) := by
  unfold validate
  cases hparse : parse p with
  | error err => simp [bind, Except.bind]
  | ok ranges =>
    simp only [bind, Except.bind, Except.ok.injEq, exists_eq_left',
      ← overlapping_eq_none_iff hparse]
    cases hoverlap : overlapping ranges with
    | some pair => simp
    | none =>
      dsimp only
      split
      next hconflict =>
        simp only [Bool.and_eq_true, List.any_eq_true] at hconflict
        obtain ⟨hfail, r, hr, port, hport, hhas⟩ := hconflict
        refine iff_of_false (fun h => by cases h) ?_
        rintro ⟨-, hfree⟩
        exact hfree hfail r hr port hport hhas
      next hfree =>
        simp only [Bool.and_eq_true, List.any_eq_true, not_and, not_exists] at hfree
        exact iff_of_true rfl ⟨rfl, hfree⟩

end ReservablePorts

section Grammar

/-- A decimal number as it is written: one ASCII digit or more, leading zeros allowed. -/
structure Numeral where
  digits : List Char
  nonempty : digits ≠ []
  decimal : ∀ c ∈ digits, c.isDigit = true

def Numeral.value (n : Numeral) : ℕ := Nat.ofDigitChars 10 n.digits 0

/-- What stands between two commas: `n` or `n-m`. -/
inductive PortItem where
  | port (n : Numeral)
  | span (n m : Numeral)

namespace PortItem

def first : PortItem → Numeral
  | .port n => n
  | .span n _ => n

def last : PortItem → Numeral
  | .port n => n
  | .span _ m => m

def text : PortItem → List Char
  | .port n => n.digits
  | .span n m => n.digits ++ '-' :: m.digits

/-- The two numbers are ports, in order. -/
def Legal (item : PortItem) : Prop :=
  1024 ≤ item.first.value ∧ item.first.value ≤ item.last.value ∧ item.last.value ≤ 65535

/-- The range is the one that the item stands for. -/
def Denotes (item : PortItem) (r : Range) : Prop :=
  r.start.toNat = item.first.value ∧ r.stop.toNat = item.last.value

end PortItem

theorem Numeral.not_mem {n : Numeral} {c : Char} (hc : c.isDigit = false) : c ∉ n.digits := by
  intro h
  rw [n.decimal c h] at hc
  cases hc

theorem parseUint_digits {n : Numeral} {m : UInt16} :
    parseUint n.digits = some m ↔ m.toNat = n.value := by
  have hall : n.digits.all Char.isDigit = true := List.all_eq_true.mpr n.decimal
  have hlt := m.toNat_lt
  unfold parseUint
  by_cases hvalue : n.value < 2 ^ 16
  · rw [if_pos ⟨n.nonempty, hall, hvalue⟩, Option.some.injEq, ← UInt16.toNat_inj]
    change (UInt16.ofNat n.value).toNat = m.toNat ↔ _
    rw [UInt16.toNat_ofNat', Nat.mod_eq_of_lt hvalue, eq_comm]
  · rw [if_neg fun h => hvalue h.2.2]
    refine iff_of_false (by simp) ?_
    omega

theorem parseUint_some {s : List Char} {m : UInt16} (h : parseUint s = some m) :
    ∃ n : Numeral, n.digits = s := by
  unfold parseUint at h
  split at h
  next hs => exact ⟨⟨s, hs.1, List.all_eq_true.mp hs.2.1⟩, rfl⟩
  next => cases h

theorem Range.new_iff {start stop : UInt16} {r : Range} :
    Range.new start stop = .ok r ↔ r = ⟨start, stop⟩ ∧ 1024 ≤ start.toNat ∧ 1024 ≤ stop.toNat := by
  constructor
  · intro h
    obtain ⟨hr, hstart, hstop⟩ := Range.new_ok h
    exact ⟨hr, UInt16.le_iff_toNat_le.mp hstart, UInt16.le_iff_toNat_le.mp hstop⟩
  · rintro ⟨rfl, hstart, hstop⟩
    have hlow : Range.portIsInRange start = true := decide_eq_true (UInt16.le_iff_toNat_le.mpr hstart)
    have hhigh : Range.portIsInRange stop = true := decide_eq_true (UInt16.le_iff_toNat_le.mpr hstop)
    simp [Range.new, hlow, hhigh]

/-- An item that was accepted is one port or one span of ports in order. -/
theorem item_of_parseRange {s : List Char} {r : Range} (h : parseRange s = .ok r) :
    ∃ item : PortItem, item.text = s ∧ item.Legal ∧ item.Denotes r := by
  have hs : ['-'].intercalate (s.splitOn '-') = s := List.intercalate_splitOn '-'
  unfold parseRange at h
  split at h
  next n hsplit =>
    rw [hsplit, List.intercalate_singleton] at hs
    split at h
    next => cases h
    next port hn =>
      obtain ⟨m, rfl⟩ := parseUint_some hn
      rw [parseUint_digits] at hn
      obtain ⟨rfl, hlow, -⟩ := Range.new_iff.mp h
      have hlt := port.toNat_lt
      refine ⟨.port m, hs, ⟨?_, le_rfl, ?_⟩, hn, hn⟩
      all_goals simp only [PortItem.first, PortItem.last]; omega
  next first last hsplit =>
    rw [hsplit] at hs
    split at h
    next => cases h
    next => cases h
    next start stop hfirst hlast =>
      obtain ⟨n, rfl⟩ := parseUint_some hfirst
      obtain ⟨m, rfl⟩ := parseUint_some hlast
      rw [parseUint_digits] at hfirst hlast
      split at h
      next => cases h
      next hle =>
        obtain ⟨rfl, hlow, -⟩ := Range.new_iff.mp h
        rw [gt_iff_lt, UInt16.lt_iff_toNat_lt] at hle
        have hlt := stop.toNat_lt
        refine ⟨.span n m, ?_, ⟨?_, ?_, ?_⟩, hfirst, hlast⟩
        · simpa [List.intercalate, PortItem.text] using hs
        all_goals simp only [PortItem.first, PortItem.last]; omega
  next => cases h

theorem PortItem.splitOn_text (item : PortItem) :
    item.text.splitOn '-' = match item with
      | .port n => [n.digits]
      | .span n m => [n.digits, m.digits] := by
  have hdash : '-'.isDigit = false := by decide
  cases item with
  | port n => exact List.splitOn_eq_singleton (n.not_mem hdash)
  | span n m =>
    have hsplit : (['-'].intercalate [n.digits, m.digits]).splitOn '-' = [n.digits, m.digits] :=
      List.splitOn_intercalate '-' (by simp [n.not_mem hdash, m.not_mem hdash]) (by simp)
    simpa [List.intercalate, PortItem.text] using hsplit

/-- A port, or a span of ports in order, is accepted with the range it stands for. -/
theorem parseRange_text {item : PortItem} {r : Range} (hlegal : item.Legal)
    (hdenotes : item.Denotes r) : parseRange item.text = .ok r := by
  obtain ⟨hlow, hle, hhigh⟩ := hlegal
  obtain ⟨hstart, hstop⟩ := hdenotes
  unfold parseRange
  rw [item.splitOn_text]
  cases item with
  | port n =>
    simp only [PortItem.first, PortItem.last] at hlow hstart hstop
    have heq : r.stop = r.start := UInt16.toNat_inj.mp (hstop.trans hstart.symm)
    simp only [parseUint_digits.mpr hstart]
    rw [Range.new_iff, hstart]
    refine ⟨?_, hlow, hlow⟩
    nth_rewrite 2 [← heq]
    rfl
  | span n m =>
    simp only [PortItem.first, PortItem.last] at hlow hle hhigh hstart hstop
    simp only [parseUint_digits.mpr hstart, parseUint_digits.mpr hstop]
    have horder : ¬r.start > r.stop := by
      rw [gt_iff_lt, UInt16.lt_iff_toNat_lt]
      omega
    rw [if_neg horder, Range.new_iff]
    exact ⟨rfl, by omega, by omega⟩

/-- The text is the items with commas between them. -/
def Spells (s : String) (items : List PortItem) : Prop :=
  items ≠ [] ∧ s.toList = [','].intercalate (items.map PortItem.text)

theorem PortItem.comma_not_mem (item : PortItem) : ',' ∉ item.text := by
  have hcomma : ','.isDigit = false := by decide
  cases item with
  | port n => exact n.not_mem hcomma
  | span n m => simp [PortItem.text, n.not_mem hcomma, m.not_mem hcomma]

/-- Parts that are all accepted are the texts of items that denote their ranges. -/
theorem items_of_parts {parts : List (List Char)} {ranges : List Range}
    (h : List.Forall₂ (fun s r => parseRange s = .ok r) parts ranges) :
    ∃ items : List PortItem, items.map PortItem.text = parts ∧ (∀ item ∈ items, item.Legal) ∧
      List.Forall₂ PortItem.Denotes items ranges := by
  induction h with
  | nil => exact ⟨[], rfl, by simp, .nil⟩
  | cons hpart _ ih =>
    obtain ⟨item, rfl, hlegal, hdenotes⟩ := item_of_parseRange hpart
    obtain ⟨items, rfl, hlegals, hall⟩ := ih
    exact ⟨item :: items, rfl, List.forall_mem_cons.mpr ⟨hlegal, hlegals⟩, .cons hdenotes hall⟩

theorem parts_of_items {items : List PortItem} {ranges : List Range}
    (hlegal : ∀ item ∈ items, item.Legal) (h : List.Forall₂ PortItem.Denotes items ranges) :
    List.Forall₂ (fun s r => parseRange s = .ok r) (items.map PortItem.text) ranges := by
  induction h with
  | nil => exact .nil
  | cons hdenotes _ ih =>
    obtain ⟨hitem, hitems⟩ := List.forall_mem_cons.mp hlegal
    exact .cons (parseRange_text hitem hdenotes) (ih hitems)

/-- `Parse` accepts the comma-separated lists of items whose numbers are ports in order, and
gives one range an item. -/
theorem parse_iff_spells (s : String) (ranges : List Range) :
    ReservablePorts.parse s = .ok ranges ↔ ∃ items, Spells s items ∧
      (∀ item ∈ items, item.Legal) ∧ List.Forall₂ PortItem.Denotes items ranges := by
  rw [ReservablePorts.parse, Process.mapM_ok]
  constructor
  · intro h
    obtain ⟨items, hparts, hlegal, hdenotes⟩ := items_of_parts h
    refine ⟨items, ⟨?_, ?_⟩, hlegal, hdenotes⟩
    · rintro rfl
      exact List.splitOn_ne_nil _ _ hparts.symm
    · rw [hparts, List.intercalate_splitOn]
  · rintro ⟨items, ⟨hne, hs⟩, hlegal, hdenotes⟩
    have hcomma : ∀ part ∈ items.map PortItem.text, ',' ∉ part := by
      intro part hpart
      obtain ⟨item, -, rfl⟩ := List.mem_map.mp hpart
      exact item.comma_not_mem
    rw [hs, List.splitOn_intercalate ',' hcomma (by simpa using hne)]
    exact parts_of_items hlegal hdenotes

end Grammar

end RoutingApi.Models
