import RoutingApi.Models.PortLists

/-! Reservable ports in the YAML of the configuration. The integers are printed, joined with
commas and read again by `Parse`. -/
namespace RoutingApi.Models

section Model

/-- What `yaml.v3` decodes into an `interface{}`, as far as a type switch can tell. -/
inductive YamlValue where
  | null
  | bool
  | int (n : Int64)
  | uint64
  | float64
  | string (s : String)
  | seq (items : List YamlValue)
  | mapping

/-- The type that an integer of a YAML text is decoded to. -/
def YamlValue.ofInt (x : ℤ) : YamlValue :=
  if -2 ^ 63 ≤ x ∧ x < 2 ^ 63 then .int (.ofInt x)
  else if 0 ≤ x ∧ x < 2 ^ 64 then .uint64
  else .float64

/-- `strconv.Itoa`. -/
def itoa (n : Int64) : String := toString n.toInt

/-- One element of a list of ports. -/
def portText : YamlValue → Except String String
  | .int val => .ok (itoa val)
  | _ => .error "invalid type for reservable port"

/-- `UnmarshalYAML`, from what the decoder makes of the node. -/
def ReservablePorts.unmarshalYAML : Except String YamlValue → Except String String
  | .error err => .error err
  | .ok (.int t) => .ok (itoa t)
  | .ok (.string s) => .ok s
  | .ok (.seq t) => (t.mapM portText).map (",".intercalate ·)
  | .ok _ => .error "reservable port unmarshal failed"

end Model

section Integers
variable {x : ℤ} {n : ℕ} {r : Range}

/-- The integers that a Go `int` holds. -/
def IsInt (x : ℤ) : Prop := -2 ^ 63 ≤ x ∧ x < 2 ^ 63

theorem portText_ofInt {s : String} :
    portText (.ofInt x) = .ok s ↔ IsInt x ∧ s = toString x := by
  unfold YamlValue.ofInt IsInt
  split
  next h =>
    have hx : (Int64.ofInt x).toInt = x := Int64.toInt_ofInt_of_le h.1 h.2
    simp only [portText, itoa, hx, Except.ok.injEq, h, and_self, true_and]
    exact eq_comm
  next h =>
    refine iff_of_false ?_ fun hs => h hs.1
    split <;> nofun

theorem toString_toList_of_nonneg (n : ℕ) : (toString (n : ℤ)).toList = Nat.toDigits 10 n := by
  rw [← Nat.toList_repr]
  rfl

theorem toString_toList_negSucc (n : ℕ) :
    (toString (Int.negSucc n)).toList = '-' :: Nat.toDigits 10 (n + 1) := by
  have htext : toString (Int.negSucc n) = "-" ++ Nat.repr (n + 1) := rfl
  rw [htext, String.toList_append, Nat.toList_repr]
  rfl

/-- The digits of a number, as a numeral of the grammar. -/
def Numeral.ofNat (n : ℕ) : Numeral :=
  ⟨Nat.toDigits 10 n, Nat.toDigits_ne_nil, fun _ hc =>
    Nat.isDigit_of_mem_toDigits (by decide) (by decide) hc⟩

@[simp] theorem Numeral.value_ofNat (n : ℕ) : (Numeral.ofNat n).value = n :=
  Nat.ofDigitChars_toDigits (by decide) (by decide)

/-- The range of one port. -/
def Range.single (x : ℤ) : Range := ⟨.ofNat x.toNat, .ofNat x.toNat⟩

theorem Range.single_natCast {port : UInt16} (h : port.toNat = n) :
    Range.single n = ⟨port, port⟩ := by
  subst h
  simp [Range.single]

/-- A number without a sign is accepted if it is a port. -/
theorem parseRange_digits :
    parseRange (Nat.toDigits 10 n) = .ok r ↔ (1024 ≤ n ∧ n ≤ 65535) ∧ r = Range.single n := by
  constructor
  · intro h
    obtain ⟨item, htext, hlegal, hdenotes⟩ := item_of_parseRange h
    cases item with
    | port m =>
      have hvalue : m.value = n := by
        rw [Numeral.value, show m.digits = Nat.toDigits 10 n from htext]
        exact Numeral.value_ofNat n
      obtain ⟨start, stop⟩ := r
      obtain ⟨hlow, -, hhigh⟩ := hlegal
      obtain ⟨hstart, hstop⟩ := hdenotes
      simp only [PortItem.first, PortItem.last, hvalue] at hlow hhigh hstart hstop
      refine ⟨⟨hlow, hhigh⟩, ?_⟩
      rw [Range.single_natCast hstart, UInt16.toNat_inj.mp (hstart.trans hstop.symm)]
    | span m k =>
      have hdash : '-' ∈ Nat.toDigits 10 n := by
        rw [← htext]
        simp [PortItem.text]
      exact absurd hdash ((Numeral.ofNat n).not_mem (by decide))
  · rintro ⟨⟨hlow, hhigh⟩, rfl⟩
    have hport : (UInt16.ofNat n).toNat = n := by
      rw [UInt16.toNat_ofNat', Nat.mod_eq_of_lt (by omega)]
    have htext : (PortItem.port (Numeral.ofNat n)).text = Nat.toDigits 10 n := rfl
    rw [← htext]
    refine parseRange_text ⟨?_, le_rfl, ?_⟩ ⟨?_, ?_⟩
    · simpa [PortItem.first] using hlow
    · simpa [PortItem.last] using hhigh
    · simpa [PortItem.first, Range.single] using hport
    · simpa [PortItem.last, Range.single] using hport

/-- A negative number has a dash, and no port stands before it. -/
theorem parseRange_neg (digits : List Char) : parseRange ('-' :: digits) ≠ .ok r := by
  intro h
  obtain ⟨item, htext, -, -⟩ := item_of_parseRange h
  have hfirst : item.first.digits ≠ [] := item.first.nonempty
  have hdash : '-' ∉ item.first.digits := item.first.not_mem (by decide)
  obtain ⟨c, cs, hdigits⟩ := List.exists_cons_of_ne_nil hfirst
  have hhead : item.text.head? = some c := by
    cases item with
    | port n =>
      rw [PortItem.text, show n.digits = c :: cs from hdigits]
      rfl
    | span n m =>
      rw [PortItem.text, show n.digits = c :: cs from hdigits]
      rfl
  rw [htext] at hhead
  cases hhead
  exact hdash (hdigits ▸ List.mem_cons_self)

/-- An integer, printed, is accepted if it is a port, and then as the range of that port. -/
theorem parseRange_toString :
    parseRange (toString x).toList = .ok r ↔ (1024 ≤ x ∧ x ≤ 65535) ∧ r = Range.single x := by
  cases x with
  | ofNat n =>
    rw [Int.ofNat_eq_natCast, toString_toList_of_nonneg, parseRange_digits]
    norm_cast
  | negSucc n =>
    rw [toString_toList_negSucc]
    refine iff_of_false (parseRange_neg _) ?_
    rintro ⟨⟨hlow, -⟩, -⟩
    omega

theorem comma_not_mem_toString (x : ℤ) : ',' ∉ (toString x).toList := by
  have hcomma (n : ℕ) : ',' ∉ Nat.toDigits 10 n := (Numeral.ofNat n).not_mem (by decide)
  cases x with
  | ofNat n =>
    rw [Int.ofNat_eq_natCast, toString_toList_of_nonneg]
    exact hcomma n
  | negSucc n =>
    rw [toString_toList_negSucc, List.mem_cons, not_or]
    exact ⟨by decide, hcomma (n + 1)⟩

end Integers

section Lists
variable {xs : List ℤ} {p : String} {ranges : List Range}

theorem mapM_portText {texts : List String} :
    (xs.map YamlValue.ofInt).mapM portText = .ok texts ↔
      (∀ x ∈ xs, IsInt x) ∧ texts = xs.map toString := by
  have htexts : List.Forall₂ (fun (x : ℤ) text => text = toString x) xs texts ↔
      texts = xs.map toString := by
    rw [eq_comm (a := texts), ← List.forall₂_eq_eq_eq, List.forall₂_map_left_iff]
    simp only [eq_comm]
  rw [Process.mapM_ok, List.forall₂_map_left_iff]
  simp only [portText_ofInt]
  rw [List.forall₂_and_left, htexts]

/-- A list of integers is accepted if Go can hold them, as their texts with commas in between. -/
theorem unmarshalYAML_seq :
    ReservablePorts.unmarshalYAML (.ok (.seq (xs.map .ofInt))) = .ok p ↔
      (∀ x ∈ xs, IsInt x) ∧ p = ",".intercalate (xs.map toString) := by
  have hmap : ReservablePorts.unmarshalYAML (.ok (.seq (xs.map .ofInt))) =
      ((xs.map YamlValue.ofInt).mapM portText).map (",".intercalate ·) := rfl
  rw [hmap]
  cases htexts : (xs.map YamlValue.ofInt).mapM portText with
  | error err =>
    refine iff_of_false nofun ?_
    rintro ⟨hint, -⟩
    cases htexts.symm.trans (mapM_portText.mpr ⟨hint, rfl⟩)
  | ok texts =>
    obtain ⟨hint, rfl⟩ := mapM_portText.mp htexts
    simp only [Except.map, Except.ok.injEq]
    rw [eq_comm]
    exact (and_iff_right hint).symm

/-- The joined texts are split where they were joined; the empty list leaves one empty text. -/
theorem parse_intercalate :
    ReservablePorts.parse (",".intercalate (xs.map toString)) = .ok ranges ↔
      xs ≠ [] ∧ (∀ x ∈ xs, 1024 ≤ x ∧ x ≤ 65535) ∧ ranges = xs.map Range.single := by
  by_cases hempty : xs = []
  · subst hempty
    refine iff_of_false ?_ fun h => h.1 rfl
    nofun
  · have hsplit : (",".intercalate (xs.map toString)).toList.splitOn ',' =
        xs.map fun x => (toString x).toList := by
      rw [String.toList_intercalate, List.map_map]
      apply List.splitOn_intercalate
      · intro text htext
        obtain ⟨x, -, rfl⟩ := List.mem_map.mp htext
        exact comma_not_mem_toString x
      · simpa using hempty
    have hranges : List.Forall₂ (fun x r => r = Range.single x) xs ranges ↔
        ranges = xs.map Range.single := by
      rw [eq_comm (a := ranges), ← List.forall₂_eq_eq_eq, List.forall₂_map_left_iff]
      simp only [eq_comm]
    rw [ReservablePorts.parse, hsplit, Process.mapM_ok, List.forall₂_map_left_iff]
    simp only [parseRange_toString]
    rw [List.forall₂_and_left, hranges]
    exact (and_iff_right hempty).symm

theorem mem_single {x : ℤ} (hx : 1024 ≤ x ∧ x ≤ 65535) {port : UInt16} :
    port ∈ (Range.single x).ports ↔ (port.toNat : ℤ) = x := by
  have hvalue : (UInt16.ofNat x.toNat).toNat = x.toNat := by
    rw [UInt16.toNat_ofNat', Nat.mod_eq_of_lt (by omega)]
  simp only [Range.ports, Set.mem_ofPred_eq, Range.has_iff, Range.single, hvalue]
  omega

theorem disjoint_single {x y : ℤ} (hx : 1024 ≤ x ∧ x ≤ 65535) (hy : 1024 ≤ y ∧ y ≤ 65535) :
    Disjoint (Range.single x).ports (Range.single y).ports ↔ x ≠ y := by
  rw [Set.disjoint_left]
  simp only [mem_single hx, mem_single hy]
  constructor
  · rintro h rfl
    have hvalue : ((UInt16.ofNat x.toNat).toNat : ℤ) = x := by
      rw [UInt16.toNat_ofNat', Nat.mod_eq_of_lt (by omega)]
      omega
    exact h hvalue hvalue
  · rintro hne port rfl hy
    exact hne hy

theorem pairwise_single {xs : List ℤ} (hall : ∀ x ∈ xs, 1024 ≤ x ∧ x ≤ 65535) :
    ((xs.map Range.single).Pairwise fun r other => Disjoint r.ports other.ports) ↔ xs.Nodup := by
  rw [List.pairwise_map]
  exact List.Pairwise.iff_of_mem fun hx hy => disjoint_single (hall _ hx) (hall _ hy)

theorem single_free {xs : List ℤ} (hall : ∀ x ∈ xs, 1024 ≤ x ∧ x ≤ 65535) (reserved : List UInt16) :
    (∀ r ∈ xs.map Range.single, ∀ port ∈ reserved, port ∉ r.ports) ↔
      ∀ port ∈ reserved, (port.toNat : ℤ) ∉ xs := by
  constructor
  · intro h port hport hmem
    exact h _ (List.mem_map_of_mem hmem) port hport ((mem_single (hall _ hmem)).mpr rfl)
  · intro h r hr port hport hmem
    obtain ⟨x, hx, rfl⟩ := List.mem_map.mp hr
    rw [mem_single (hall x hx)] at hmem
    exact h port hport (hmem ▸ hx)

/-- A single integer stands for the list of it. -/
theorem unmarshalYAML_ofInt (x : ℤ) (p : String) :
    ReservablePorts.unmarshalYAML (.ok (.ofInt x)) = .ok p ↔
      ReservablePorts.unmarshalYAML (.ok (.seq [.ofInt x])) = .ok p := by
  have hsingle : ReservablePorts.unmarshalYAML (.ok (.seq [.ofInt x])) = .ok p ↔
      IsInt x ∧ p = toString x := by
    have h : ReservablePorts.unmarshalYAML (.ok (.seq ([x].map .ofInt))) = .ok p ↔ _ :=
      unmarshalYAML_seq
    simpa using h
  rw [hsingle, ← portText_ofInt]
  unfold YamlValue.ofInt
  split
  next => exact Iff.rfl
  next =>
    refine iff_of_false ?_ ?_ <;>
    · split <;> nofun

end Lists

/-- A list of integers is read as the ranges of its elements exactly if it is not empty and all
of them are ports; it is valid exactly if moreover they are distinct and, where conflicts fail,
none is reserved. A single integer stands for the list of it. -/
theorem yaml_ports_round_trip (cfg : PortSettings) (xs : List ℤ) :
    let read := ReservablePorts.unmarshalYAML (.ok (.seq (xs.map .ofInt)))
    ((∃ p, read = .ok p) ↔ ∀ x ∈ xs, IsInt x) ∧
    (∀ ranges, (∃ p, read = .ok p ∧ ReservablePorts.parse p = .ok ranges) ↔
      xs ≠ [] ∧ (∀ x ∈ xs, 1024 ≤ x ∧ x ≤ 65535) ∧ ranges = xs.map Range.single) ∧
    ((∃ p, read = .ok p ∧ ReservablePorts.validate cfg p = .ok ()) ↔
      xs ≠ [] ∧ (∀ x ∈ xs, 1024 ≤ x ∧ x ≤ 65535) ∧ xs.Nodup ∧
        (cfg.failOnRouterPortConflicts = true →
          ∀ port ∈ cfg.reservedSystemComponentPorts, (port.toNat : ℤ) ∉ xs)) ∧
    ∀ x p, ReservablePorts.unmarshalYAML (.ok (.ofInt x)) = .ok p ↔
      ReservablePorts.unmarshalYAML (.ok (.seq [.ofInt x])) = .ok p := by
  intro read
  have hread : ∀ p, read = .ok p ↔
      (∀ x ∈ xs, IsInt x) ∧ p = ",".intercalate (xs.map toString) := fun p => unmarshalYAML_seq
  have hports : (∀ x ∈ xs, 1024 ≤ x ∧ x ≤ 65535) → ∀ x ∈ xs, IsInt x := by
    intro h x hx
    have hport := h x hx
    constructor <;> omega
  have hparse : ∀ ranges, (∃ p, read = .ok p ∧ ReservablePorts.parse p = .ok ranges) ↔
      xs ≠ [] ∧ (∀ x ∈ xs, 1024 ≤ x ∧ x ≤ 65535) ∧ ranges = xs.map Range.single := by
    intro ranges
    simp only [hread, and_assoc, exists_and_left, exists_eq_left, parse_intercalate]
    exact and_iff_right_of_imp fun h => hports h.2.1
  refine ⟨by simp only [hread, exists_and_left, exists_eq, and_true], hparse, ?_, ?_⟩
  · have hvalid : (∃ p, read = .ok p ∧ ReservablePorts.validate cfg p = .ok ()) ↔
        ∃ ranges, (∃ p, read = .ok p ∧ ReservablePorts.parse p = .ok ranges) ∧
          (ranges.Pairwise fun r other => Disjoint r.ports other.ports) ∧
          (cfg.failOnRouterPortConflicts = true →
            ∀ r ∈ ranges, ∀ port ∈ cfg.reservedSystemComponentPorts, port ∉ r.ports) := by
      simp only [ReservablePorts.validate_iff]
      constructor
      · rintro ⟨p, hp, ranges, hranges, hrest⟩
        exact ⟨ranges, ⟨p, hp, hranges⟩, hrest⟩
      · rintro ⟨ranges, ⟨p, hp, hranges⟩, hrest⟩
        exact ⟨p, hp, ranges, hranges, hrest⟩
    rw [hvalid]
    simp only [hparse]
    constructor
    · rintro ⟨_, ⟨hne, hall, rfl⟩, hdisjoint, hfree⟩
      exact ⟨hne, hall, (pairwise_single hall).mp hdisjoint,
        fun hfail => (single_free hall _).mp (hfree hfail)⟩
    · rintro ⟨hne, hall, hnodup, hfree⟩
      exact ⟨_, ⟨hne, hall, rfl⟩, (pairwise_single hall).mpr hnodup,
        fun hfail => (single_free hall _).mpr (hfree hfail)⟩
  · exact unmarshalYAML_ofInt

end RoutingApi.Models
