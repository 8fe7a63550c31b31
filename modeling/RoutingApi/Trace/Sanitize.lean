import Mathlib.Data.List.TakeWhile
import RoutingApi.Text.Regex

/-! `Sanitize`: seven replacements one after the other. The first goes line by line, the last five
go by the quotes of the text: a property is hidden from the quote of its name to the second quote
after its colon. -/
namespace RoutingApi.Trace
open Text

/-- `PRIVATE_DATA_PLACEHOLDER()`. -/
def privateDataPlaceholder : List Char := "[PRIVATE DATA HIDDEN]".toList

def newline (c : Char) : Bool := decide (c = '\n')

/-- `\s` -/
def isSpace (c : Char) : Bool := c ∈ ['\t', '\n', Char.ofNat 12, '\r', ' ']

/-- `(?m)^Authorization: .*` -/
def authorization : Pattern Char :=
  ⟨true, 'A', syms "uthorization: ".toList ++ [.many fun c => decide (c ≠ '\n')]⟩

/-- `password=[^&]*&` -/
def passwordParameter : Pattern Char := wordUntil 'p' "assword=".toList '&'

/-- `"%s":\s*"[^"]*"` -/
def property (propertyName : List Char) : Pattern Char :=
  ⟨false, '"', syms (propertyName ++ ['"', ':']) ++
    [.many isSpace, .sym '"', .many fun c => decide (c ≠ '"'), .sym '"']⟩

def hideAuthorization (input : List Char) : List Char :=
  replaceAll newline authorization ("Authorization: ".toList ++ privateDataPlaceholder) input

def hidePassword (input : List Char) : List Char :=
  replaceAll newline passwordParameter
    ("password=".toList ++ privateDataPlaceholder ++ ['&']) input

def sanitizeJson (propertyName json : List Char) : List Char :=
  replaceAll newline (property propertyName)
    ('"' :: propertyName ++ ['"', ':', '"'] ++ privateDataPlaceholder ++ ['"']) json

/-- The properties, in the order in which they are replaced. -/
def properties : List (List Char) :=
  ["access_token".toList, "refresh_token".toList, "token".toList, "password".toList,
    "oldPassword".toList]

def sanitize (input : List Char) : List Char :=
  properties.foldl (fun json propertyName => sanitizeJson propertyName json)
    (hidePassword (hideAuthorization input))

section Lines

/-- What becomes of a line. -/
def hideLine (line : List Char) : List Char :=
  if "Authorization: ".toList <+: line then "Authorization: ".toList ++ privateDataPlaceholder
  else line

/-- The replacement from the middle of a line on. -/
def hideMidline (input : List Char) : List Char :=
  replaceFrom newline authorization ("Authorization: ".toList ++ privateDataPlaceholder) 0 false
    input

variable {line s : List Char}

theorem hideMidline_line (hline : '\n' ∉ line) (s : List Char) :
    hideMidline (line ++ s) = line ++ hideMidline s := by
  have hfree : ∀ c ∈ line, newline c = false := by
    intro c hc
    exact decide_eq_false fun h => hline (h ▸ hc)
  rw [hideMidline, replaceFrom_avoids (avoids_of_midline rfl hfree), startsLine_of_not_mem hfree]
  rfl

theorem hideMidline_newline (s : List Char) :
    hideMidline ('\n' :: s) = '\n' :: hideAuthorization s := rfl

/-- Nothing of the rest of the line is left. -/
theorem hideAuthorization_header (s : List Char) :
    hideAuthorization ("Authorization: ".toList ++ s) =
      "Authorization: ".toList ++ privateDataPlaceholder ++
        hideMidline (s.dropWhile fun c => decide (c ≠ '\n')) := by
  set p : Char → Bool := fun c => decide (c ≠ '\n') with hp
  set u := "uthorization: ".toList ++ s.takeWhile p with hu
  have hsplit : "Authorization: ".toList ++ s = 'A' :: (u ++ s.dropWhile p) := by
    rw [hu, List.append_assoc, List.takeWhile_append_dropWhile]
    rfl
  have hmatch : authorization.matchAfter true 'A' (u ++ s.dropWhile p) = some u.length := by
    have hend : matchItems ([] : List (Item Char)) = fun _ => some 0 := by
      funext t
      rfl
    rw [hu, List.append_assoc, List.takeWhile_append_dropWhile, Pattern.matchAfter,
      if_pos ⟨rfl, fun _ => rfl⟩, authorization, matchItems_syms, matchItems, hend, greedy_end,
      List.length_append, Nat.add_comm]
    rfl
  have hword : '\n' ∉ "uthorization: ".toList := by decide
  have hfree : ∀ c ∈ u, newline c = false := by
    intro c hc
    refine decide_eq_false ?_
    rintro rfl
    rcases List.mem_append.mp hc with hc | hc
    · exact hword hc
    · have hpc : p '\n' = true := List.all_eq_true.mp List.all_takeWhile _ hc
      simp [hp] at hpc
  rw [hsplit, hideAuthorization, replaceAll, replaceFrom_match hmatch,
    show newline 'A' = false from rfl, startsLine_of_not_mem hfree]
  rfl

theorem hideAuthorization_next {c : Char} (h : ¬"Authorization: ".toList <+: c :: s) :
    hideAuthorization (c :: s) =
      c :: replaceFrom newline authorization ("Authorization: ".toList ++ privateDataPlaceholder) 0
        (newline c) s := by
  refine replaceFrom_next ?_
  rw [Pattern.matchAfter]
  split
  next hc =>
    apply matchItems_syms_none
    exact fun hw => h (List.cons_prefix_cons.mpr ⟨hc.1.symm, hw⟩)
  next => rfl

/-- A line that is no such header is kept, and so is the beginning of one. -/
theorem hideAuthorization_midline {c : Char} (hline : '\n' ∉ line)
    (hother : ¬"Authorization: ".toList <+: line) (hc : c ∉ "Authorization: ".toList)
    (s : List Char) : hideAuthorization (line ++ c :: s) = line ++ hideMidline (c :: s) := by
  have hnext {u : List Char} (hu : ¬"Authorization: ".toList <+: u) :
      ¬"Authorization: ".toList <+: u ++ c :: s := fun h => hu (prefix_of_not_mem hc h)
  cases line with
  | nil =>
    have hmid : hideMidline (c :: s) = c :: replaceFrom newline authorization
        ("Authorization: ".toList ++ privateDataPlaceholder) 0 (newline c) s :=
      replaceFrom_next (if_neg fun h => Bool.false_ne_true (h.2 rfl))
    rw [List.nil_append, hideAuthorization_next (hnext hother), hmid, List.nil_append]
  | cons b line =>
    rw [List.mem_cons, not_or] at hline
    have hb : newline b = false := decide_eq_false fun h => hline.1 h.symm
    have hnext := hnext hother
    rw [List.cons_append] at hnext ⊢
    rw [hideAuthorization_next hnext, hb]
    exact congrArg (b :: ·) (hideMidline_line hline.2 (c :: s))

theorem hideAuthorization_line (hline : '\n' ∉ line) (s : List Char) :
    hideAuthorization (line ++ '\n' :: s) = hideLine line ++ '\n' :: hideAuthorization s := by
  unfold hideLine
  split
  next h =>
    obtain ⟨value, rfl⟩ := h
    have hvalue : ∀ c ∈ value, decide (c ≠ '\n') = true :=
      ne_of_not_mem fun h => hline (List.mem_append_right _ h)
    rw [List.append_assoc, hideAuthorization_header, List.dropWhile_append_of_pos hvalue,
      List.dropWhile_cons_of_neg (by simp), hideMidline_newline]
  next h => rw [hideAuthorization_midline hline h (by decide), hideMidline_newline]

/-- Whole lines. -/
def LineEnd (u : List Char) : Prop := u = [] ∨ u.getLast? = some '\n'

theorem hideAuthorization_append {u : List Char} (hu : LineEnd u) (s : List Char) :
    hideAuthorization (u ++ s) = hideAuthorization u ++ hideAuthorization s := by
  induction hn : u.length using Nat.strong_induction_on generalizing u with
  | _ n ih =>
    rcases hu with rfl | hu
    · rfl
    · obtain ⟨line, u, rfl, hline⟩ := List.eq_append_cons_of_mem (List.mem_of_getLast? hu)
      have hend : LineEnd u := by
        rcases List.eq_nil_or_concat' u with rfl | ⟨v, c, rfl⟩
        · exact .inl rfl
        · rw [← List.cons_append, ← List.append_assoc, List.getLast?_concat] at hu
          exact .inr (by rw [List.getLast?_concat, hu])
      have hlen : u.length < n := by
        rw [← hn]
        simp
        omega
      rw [List.append_assoc, List.cons_append, hideAuthorization_line hline,
        hideAuthorization_line hline, ih u.length hlen hend rfl]
      simp

theorem hideAuthorization_free (hs : ':' ∉ s) : hideAuthorization s = s := by
  apply replaceFrom_of_count ':'
  rw [List.count_eq_zero_of_not_mem hs]
  decide

end Lines

section Parameters
variable {u t : List Char}

/-- A parameter that no ampersand has ended. -/
def Opened (u : List Char) : Prop := Dangling 'p' "assword=".toList '&' u

theorem hidePassword_free (ht : '&' ∉ t) : hidePassword t = t := replaceFrom_free ht

theorem hidePassword_opened (hu : Opened u) (ht : '&' ∉ t) (s : List Char) :
    hidePassword (u ++ t ++ '&' :: s) = hidePassword (u ++ '&' :: s) :=
  replaceFrom_dangling (by decide) hu ht s

theorem hidePassword_append_free (u : List Char) (ht : '&' ∉ t) :
    hidePassword (u ++ t) = hidePassword u ++ t := replaceFrom_append_free (by decide) ht

theorem hidePassword_next {c : Char} {s : List Char} (h : ¬"password=".toList <+: c :: s) :
    hidePassword (c :: s) = c :: hidePassword s := replaceFrom_no_match h

theorem hidePassword_append {c : Char} (hu : ¬Opened u) (hc : c ∉ "password=".toList)
    (s : List Char) : hidePassword (u ++ c :: s) = hidePassword u ++ c :: hidePassword s := by
  have hnext : hidePassword (c :: s) = c :: hidePassword s := by
    apply hidePassword_next
    intro h
    obtain ⟨rfl, -⟩ := List.cons_prefix_cons.mp h
    exact absurd hc (by decide)
  rw [← hnext]
  exact replaceFrom_append (by decide) hu hc s

theorem hidePassword_parameter (ht : '&' ∉ t) (s : List Char) :
    hidePassword ("password=".toList ++ t ++ '&' :: s) =
      "password=".toList ++ privateDataPlaceholder ++ '&' :: hidePassword s := by
  rw [List.append_cons _ '&' (hidePassword s)]
  exact replaceFrom_wordUntil ht s

/-- A text without an equals sign. -/
theorem hidePassword_skip {c : Char} (hu : '=' ∉ u) (hc : c ∉ "password=".toList)
    (s : List Char) : hidePassword (u ++ c :: s) = u ++ c :: hidePassword s := by
  refine replaceFrom_word_free ?_ hc s
  intro hword
  exact hu (hword.subset (by decide))

end Parameters

section Quotes

/-- The texts between the quotes, put together again. -/
def quoted (segs : List (List Char)) : List Char := ['"'].intercalate segs

theorem quoted_cons (s t : List Char) (segs : List (List Char)) :
    quoted (s :: t :: segs) = s ++ '"' :: quoted (t :: segs) := by
  simp [quoted, List.intercalate, List.intersperse]

def isColon : List Char → Bool
  | ':' :: space => space.all isSpace
  | _ => false

/-- The replacement of a property, on the texts after a quote that can begin a match. -/
def hideProperty (name : List Char) : List (List Char) → List (List Char)
  | s₁ :: s₂ :: s₃ :: s₄ :: rest =>
    if s₁ = name ∧ isColon s₂ then
      name :: [':'] :: privateDataPlaceholder :: s₄ :: hideProperty name rest
    else s₁ :: hideProperty name (s₂ :: s₃ :: s₄ :: rest)
  | segs => segs

theorem isColon_iff {s : List Char} :
    isColon s = true ↔ ∃ space, s = ':' :: space ∧ ∀ c ∈ space, isSpace c = true := by
  unfold isColon
  split
  next space => simp
  next s hs =>
    refine iff_of_false Bool.false_ne_true ?_
    rintro ⟨space, rfl, -⟩
    exact hs space rfl

/-- The first quote divides a text in one way. -/
theorem split_unique {u v x y : List Char} (hu : '"' ∉ u) (hv : '"' ∉ v)
    (h : u ++ '"' :: x = v ++ '"' :: y) : u = v ∧ x = y := by
  induction u generalizing v with
  | nil =>
    cases v with
    | nil => exact ⟨rfl, (List.cons.inj h).2⟩
    | cons b v => exact absurd ((List.cons.inj h).1 ▸ List.mem_cons_self) hv
  | cons a u ih =>
    cases v with
    | nil => exact absurd ((List.cons.inj h).1 ▸ List.mem_cons_self) hu
    | cons b v =>
      obtain ⟨hab, h⟩ := List.cons.inj h
      rw [List.mem_cons, not_or] at hu hv
      obtain ⟨huv, hxy⟩ := ih hu.2 hv.2 h
      exact ⟨by rw [hab, huv], hxy⟩

theorem count_quoted {s₀ : List Char} {segs : List (List Char)}
    (hsegs : ∀ s ∈ s₀ :: segs, '"' ∉ s) : (quoted (s₀ :: segs)).count '"' = segs.length := by
  induction segs generalizing s₀ with
  | nil => simpa [quoted] using List.count_eq_zero_of_not_mem (hsegs s₀ List.mem_cons_self)
  | cons s segs ih =>
    obtain ⟨hs₀, hrest⟩ := List.forall_mem_cons.mp hsegs
    rw [quoted_cons, List.count_append, List.count_eq_zero_of_not_mem hs₀, List.count_cons_self,
      ih hrest, List.length_cons, Nat.zero_add]

section Property
variable {name : List Char} (hname : '"' ∉ name)

/-- A property with a colon and a string behind it. -/
theorem sanitizeJson_match {space value : List Char} (hspace : ∀ c ∈ space, isSpace c = true)
    (hvalue : '"' ∉ value) (s : List Char) :
    sanitizeJson name ('"' :: (name ++ ['"', ':'] ++ (space ++ '"' :: (value ++ '"' :: s)))) =
      '"' :: name ++ ['"', ':', '"'] ++ privateDataPlaceholder ++ ['"'] ++ sanitizeJson name s := by
  set u := name ++ ['"', ':'] ++ (space ++ '"' :: (value ++ ['"'])) with hu
  have hsplit : name ++ ['"', ':'] ++ (space ++ '"' :: (value ++ '"' :: s)) = u ++ s := by
    simp [hu]
  have hmatch : (property name).matchAfter true '"' (u ++ s) = some u.length := by
    rw [← hsplit, Pattern.matchAfter, if_pos ⟨rfl, fun _ => rfl⟩, property, matchItems_syms,
      matchItems_until (by decide) hspace, matchItems_until (by decide) (ne_of_not_mem hvalue),
      matchItems, hu]
    simp
    omega
  rw [hsplit, sanitizeJson, replaceAll, replaceFrom_match hmatch]
  exact congrArg (_ ++ ·) (replaceFrom_lineStart rfl 0 _ _ s)

theorem sanitizeJson_segment {s : List Char} (hs : '"' ∉ s) (t : List Char) :
    sanitizeJson name (s ++ t) = s ++ sanitizeJson name t := by
  rw [sanitizeJson, replaceAll, replaceFrom_avoids (avoids_of_not_mem hs true)]
  exact congrArg (s ++ ·) (replaceFrom_lineStart rfl 0 _ _ t)

include hname

/-- Other texts between quotes. -/
theorem sanitizeJson_next {s₁ s₂ : List Char} (h₁ : '"' ∉ s₁) (h₂ : '"' ∉ s₂)
    (hother : ¬(s₁ = name ∧ isColon s₂ = true)) (s : List Char) :
    sanitizeJson name ('"' :: (s₁ ++ '"' :: (s₂ ++ '"' :: s))) =
      '"' :: sanitizeJson name (s₁ ++ '"' :: (s₂ ++ '"' :: s)) := by
  have hnone : (property name).matchAfter true '"' (s₁ ++ '"' :: (s₂ ++ '"' :: s)) = none := by
    rw [Pattern.matchAfter, if_pos ⟨rfl, fun _ => rfl⟩, property]
    by_cases hword : name ++ ['"', ':'] <+: s₁ ++ '"' :: (s₂ ++ '"' :: s)
    · obtain ⟨t, ht⟩ := hword
      rw [List.append_assoc] at ht
      obtain ⟨rfl, hcolon⟩ := split_unique hname h₁ ht
      cases s₂ with
      | nil => cases hcolon
      | cons c s₂ =>
        obtain ⟨rfl, -⟩ := List.cons.inj hcolon
        have hsplit : name ++ '"' :: (':' :: s₂ ++ '"' :: s) =
            name ++ ['"', ':'] ++ (s₂ ++ '"' :: s) := by simp
        rw [hsplit, matchItems_syms, matchItems_until_none (by decide)]
        · rfl
        · -- a symbol that is no space comes before the next quote
          cases hd : s₂.dropWhile isSpace with
          | nil =>
            have hspace : ∀ c ∈ s₂, isSpace c = true := List.dropWhile_eq_nil_iff.mp hd
            exact absurd ⟨rfl, isColon_iff.mpr ⟨s₂, rfl, hspace⟩⟩ hother
          | cons c t =>
            have hc : c ∈ s₂ := (List.dropWhile_suffix isSpace).subset (hd ▸ List.mem_cons_self)
            rw [List.dropWhile_append, hd]
            rintro hquote
            cases hquote
            exact h₂ (List.mem_cons_of_mem _ hc)
    · exact matchItems_syms_none hword
  rw [sanitizeJson, replaceAll, replaceFrom_next hnone]
  exact congrArg ('"' :: ·) (replaceFrom_lineStart rfl 0 _ _ _)

theorem sanitizeJson_quoted {s₀ : List Char} {segs : List (List Char)}
    (hsegs : ∀ s ∈ s₀ :: segs, '"' ∉ s) :
    sanitizeJson name (quoted (s₀ :: segs)) = quoted (s₀ :: hideProperty name segs) := by
  fun_induction hideProperty name segs generalizing s₀ with
  | case1 s₁ s₂ s₃ s₄ rest h ih =>
    obtain ⟨rfl, hcolon⟩ := h
    obtain ⟨space, rfl, hspace⟩ := isColon_iff.mp hcolon
    simp only [List.forall_mem_cons] at hsegs
    obtain ⟨h₀, -, -, h₃, hrest⟩ := hsegs
    have hsplit : quoted (s₀ :: s₁ :: (':' :: space) :: s₃ :: s₄ :: rest) = s₀ ++ '"' ::
        (s₁ ++ ['"', ':'] ++ (space ++ '"' :: (s₃ ++ '"' :: quoted (s₄ :: rest)))) := by
      simp [quoted_cons]
    rw [hsplit, sanitizeJson_segment h₀, sanitizeJson_match hspace h₃, ih (by simpa using hrest)]
    simp [quoted_cons]
  | case2 s₁ s₂ s₃ s₄ rest h ih =>
    obtain ⟨h₀, hrest⟩ := List.forall_mem_cons.mp hsegs
    have h₁ := hrest s₁ (by simp)
    have h₂ := hrest s₂ (by simp)
    have hnext := sanitizeJson_next hname h₁ h₂ h (quoted (s₃ :: s₄ :: rest))
    rw [← quoted_cons, ← quoted_cons] at hnext
    rw [quoted_cons, sanitizeJson_segment h₀, hnext, ih hrest, quoted_cons s₀]
  | case3 segs h =>
    have hfew : segs.length < 4 := by
      rcases segs with _ | ⟨s₁, _ | ⟨s₂, _ | ⟨s₃, _ | ⟨s₄, rest⟩⟩⟩⟩
      case cons.cons.cons.cons => exact absurd rfl (h s₁ s₂ s₃ s₄ rest)
      all_goals simp
    apply replaceFrom_of_count '"'
    rw [count_quoted hsegs]
    have hcount : 4 ≤ (Item.sym (property name).first :: (property name).items).countP
        (Item.isSym '"') := by
      simp [property, syms, Item.isSym, List.countP_append]
    omega

end Property
end Quotes

end RoutingApi.Trace
