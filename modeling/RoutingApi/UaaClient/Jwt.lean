import Mathlib.Data.Rat.Floor
import Mathlib.Tactic

/-! The part of `golang-jwt` that the token validator uses: a token is split and decoded, its
signature is verified under the key that the caller supplies, and then its dates are checked. -/
namespace RoutingApi.UaaClient.Jwt

/-- A decoded JSON value; a number is the rational that its float64 is. -/
inductive Json where
  | null
  | bool (b : Bool)
  | num (n : ℚ)
  | str (s : String)
  | arr (items : List Json)
  | obj (members : List (String × Json))

abbrev MapClaims := String → Option Json

section Dates

/-- `math.Modf` rounds towards zero. -/
def truncate (f : ℚ) : ℤ := if 0 ≤ f then ⌊f⌋ else ⌈f⌉

/-- The conversion of a float that no int64 holds gives the least one. -/
def int64 (n : ℤ) : ℤ := if -2 ^ 63 ≤ n ∧ n < 2 ^ 63 then n else -2 ^ 63

/-- `time.Unix`: a time counts the seconds since the year 1 in an int64. -/
def unix (sec : ℤ) : ℤ := (sec + 62135596800).bmod (2 ^ 64)

/-- A date has a precision of one second. -/
def newNumericDateFromSeconds (f : ℚ) : ℤ :=
  let round := truncate f
  let nanos := truncate ((f - round) * 1000000000)
  unix (if nanos < 0 then int64 round - 1 else int64 round)

def verifyExp (exp : Option ℤ) (now : ℤ) (required : Bool) : Bool :=
  match exp with
  | none => !required
  | some exp => decide (now < exp)

/-- The body that `verifyIat` and `verifyNbf` share. -/
def verifySince (date : Option ℤ) (now : ℤ) (required : Bool) : Bool :=
  match date with
  | none => !required
  | some date => decide (date ≤ now)

def verifyIat : Option ℤ → ℤ → Bool → Bool := verifySince
def verifyNbf : Option ℤ → ℤ → Bool → Bool := verifySince

end Dates

section Errors

def validationErrorMalformed : UInt32 := 1
def validationErrorUnverifiable : UInt32 := 2
def validationErrorSignatureInvalid : UInt32 := 4
def validationErrorExpired : UInt32 := 16
def validationErrorIssuedAt : UInt32 := 32
def validationErrorNotValidYet : UInt32 := 128

/-- The bits of an error and its text. -/
structure ValidationError where
  errors : UInt32
  message : String
  deriving DecidableEq, Repr

end Errors

namespace MapClaims

/-- The check of a claim that holds a date. The number zero counts as no date. -/
def verifyDate (claim : String) (verify : Option ℤ → ℤ → Bool → Bool) (m : MapClaims) (cmp : ℤ)
    (req : Bool) : Bool :=
  match m claim with
  | none => !req
  | some (.num f) =>
    if f = 0 then verify none (unix cmp) req
    else verify (some (newNumericDateFromSeconds f)) (unix cmp) req
  | some _ => false

def verifyExpiresAt : MapClaims → ℤ → Bool → Bool := verifyDate "exp" verifyExp
def verifyIssuedAt : MapClaims → ℤ → Bool → Bool := verifyDate "iat" verifyIat
def verifyNotBefore : MapClaims → ℤ → Bool → Bool := verifyDate "nbf" verifyNbf

def verifyIss (iss cmp : String) (required : Bool) : Bool :=
  if iss = "" then !required else iss = cmp

def verifyIssuer (m : MapClaims) (cmp : String) (req : Bool) : Bool :=
  let iss := match m "iss" with
    | some (.str s) => s
    | _ => ""
  verifyIss iss cmp req

/-- All three dates are checked, and the last one that fails gives the text. -/
def valid (m : MapClaims) (now : ℤ) : Option ValidationError :=
  let vErr : ValidationError := ⟨0, ""⟩
  let vErr := if m.verifyExpiresAt now false then vErr
    else ⟨vErr.errors ||| validationErrorExpired, "Token is expired"⟩
  let vErr := if m.verifyIssuedAt now false then vErr
    else ⟨vErr.errors ||| validationErrorIssuedAt, "Token used before issued"⟩
  let vErr := if m.verifyNotBefore now false then vErr
    else ⟨vErr.errors ||| validationErrorNotValidYet, "Token is not valid yet"⟩
  if vErr.errors = 0 then none else some vErr

end MapClaims

/-- The signing methods that the library registers. -/
inductive SigningMethod where
  | hs256 | hs384 | hs512 | rs256 | rs384 | rs512 | ps256 | ps384 | ps512
  | es256 | es384 | es512 | edDSA | none
  deriving DecidableEq, Repr

def getSigningMethod : String → Option SigningMethod
  | "HS256" => some .hs256
  | "HS384" => some .hs384
  | "HS512" => some .hs512
  | "RS256" => some .rs256
  | "RS384" => some .rs384
  | "RS512" => some .rs512
  | "PS256" => some .ps256
  | "PS384" => some .ps384
  | "PS512" => some .ps512
  | "ES256" => some .es256
  | "ES384" => some .es384
  | "ES512" => some .es512
  | "EdDSA" => some .edDSA
  | "none" => some .none
  | _ => Option.none

structure Token where
  method : SigningMethod
  claims : MapClaims
  signingString : List Char
  signature : List Char

/-- The encodings and the cryptography that lie outside: base64 with JSON, PEM and X.509, and the
verification of signatures. -/
structure Codec (Block Key : Type) where
  decodeHeader : List Char → Except String MapClaims
  decodeClaims : List Char → Except String MapClaims
  pemDecode : String → Option Block
  parseRSAPublicKey : Block → Except String Key
  verify : SigningMethod → (signingString signature : List Char) → Key → Except String Unit
  pemDecode_empty : pemDecode "" = none

section Parser
variable {Block Key : Type} (c : Codec Block Key)

def parseRSAPublicKeyFromPEM (key : String) : Except String Key :=
  match c.pemDecode key with
  | none => .error "invalid key: Key must be a PEM encoded PKCS1 or PKCS8 key"
  | some block => c.parseRSAPublicKey block

/-- A token has exactly three parts. -/
def parseUnverified (tokenString : List Char) : Except ValidationError Token :=
  match tokenString.splitOn '.' with
  | [header, claims, signature] =>
    match c.decodeHeader header with
    | .error err => .error ⟨validationErrorMalformed, err⟩
    | .ok fields =>
      match c.decodeClaims claims with
      | .error err => .error ⟨validationErrorMalformed, err⟩
      | .ok m =>
        match fields "alg" with
        | some (.str alg) =>
          match getSigningMethod alg with
          | none =>
            .error ⟨validationErrorUnverifiable, "signing method (alg) is unavailable."⟩
          | some method => .ok ⟨method, m, header ++ '.' :: claims, signature⟩
        | _ => .error ⟨validationErrorUnverifiable, "signing method (alg) is unspecified."⟩
  | _ => .error ⟨validationErrorMalformed, "token contains an invalid number of segments"⟩

/-- `ParseWithClaims` up to the check of the claims. -/
def parseVerified (keyFunc : Token → Except String Key) (tokenString : List Char) :
    Except ValidationError Token :=
  match parseUnverified c tokenString with
  | .error err => .error err
  | .ok token =>
    match keyFunc token with
    | .error err => .error ⟨validationErrorUnverifiable, err⟩
    | .ok key =>
      match c.verify token.method token.signingString token.signature key with
      | .error err => .error ⟨validationErrorSignatureInvalid, err⟩
      | .ok () => .ok token

end Parser

section Specifications
variable {Block Key : Type} {c : Codec Block Key} {m : MapClaims} {now : ℤ}

/-- What a token has passed whose signature was verified. -/
theorem parseVerified_ok {keyFunc : Token → Except String Key} {tokenString : List Char}
    {token : Token} (h : parseVerified c keyFunc tokenString = .ok token) :
    parseUnverified c tokenString = .ok token ∧ ∃ key, keyFunc token = .ok key ∧
      c.verify token.method token.signingString token.signature key = .ok () := by
  unfold parseVerified at h
  split at h
  next => cases h
  next t hparse =>
    split at h
    next => cases h
    next key hkey =>
      split at h
      next => cases h
      next hverify =>
        cases h
        exact ⟨hparse, key, hkey, hverify⟩

/-- The claims of a token are decoded from a part of its text; otherwise the error has one of two
bits. -/
theorem parseUnverified_spec (c : Codec Block Key) (tokenString : List Char) :
    match parseUnverified c tokenString with
    | .ok token => ∃ claims, c.decodeClaims claims = .ok token.claims
    | .error e =>
      e.errors = validationErrorMalformed ∨ e.errors = validationErrorUnverifiable := by
  unfold parseUnverified
  match tokenString.splitOn '.' with
  | [] | [_] | [_, _] | _ :: _ :: _ :: _ :: _ => exact .inl rfl
  | [header, claims, signature] =>
    dsimp only
    cases c.decodeHeader header with
    | error err => exact .inl rfl
    | ok fields =>
      cases hclaims : c.decodeClaims claims with
      | error err => exact .inl rfl
      | ok m =>
        dsimp only
        match fields "alg" with
        | none | some .null | some (.bool _) | some (.num _) | some (.arr _) | some (.obj _) =>
          exact .inr rfl
        | some (.str alg) =>
          dsimp only
          cases getSigningMethod alg with
          | none => exact .inr rfl
          | some method => exact ⟨claims, hclaims⟩

/-- An error before the claims are checked has one bit. -/
theorem parseVerified_error {keyFunc : Token → Except String Key} {tokenString : List Char}
    {e : ValidationError} (h : parseVerified c keyFunc tokenString = .error e) :
    (e.errors = validationErrorMalformed ∨ e.errors = validationErrorUnverifiable) ∨
      e.errors = validationErrorSignatureInvalid := by
  have hspec := parseUnverified_spec c tokenString
  unfold parseVerified at h
  split at h
  next err hparse =>
    cases h
    rw [hparse] at hspec
    exact .inl hspec
  next =>
    split at h
    next =>
      cases h
      exact .inl (.inr rfl)
    next =>
      split at h <;> cases h
      exact .inr rfl

theorem MapClaims.verifyIssuer_required {iss : String} :
    m.verifyIssuer iss true = true ↔ iss ≠ "" ∧ m "iss" = some (.str iss) := by
  unfold MapClaims.verifyIssuer MapClaims.verifyIss
  split
  next s hs =>
    rw [hs]
    by_cases hempty : s = "" <;> aesop
  next hs =>
    simp only [if_true, Bool.not_true, Bool.false_eq_true, false_iff, not_and]
    intro _ hiss
    exact hs iss hiss

/-- The claim, if it is there, is a number with the property. -/
def MapClaims.Dated (m : MapClaims) (claim : String) (P : ℚ → Prop) : Prop :=
  ∀ v, m claim = some v → ∃ f, v = .num f ∧ P f

theorem MapClaims.dated_num {claim : String} {P : ℚ → Prop} {f : ℚ} (h : m claim = some (.num f)) :
    m.Dated claim P ↔ P f := by
  simp [Dated, h]

theorem MapClaims.dated_congr {claim : String} {P Q : ℚ → Prop} (h : ∀ f, P f ↔ Q f) :
    m.Dated claim P ↔ m.Dated claim Q := by
  simp only [Dated, h]

/-- The check lets the number zero pass, and the dates that the library reads as they should be. -/
theorem MapClaims.verifyDate_iff {claim : String} {verify : Option ℤ → ℤ → Bool → Bool}
    {P : ℤ → Prop} (hnone : verify none (unix now) false = true)
    (hsome : ∀ date, verify (some date) (unix now) false = true ↔ P date) :
    verifyDate claim verify m now false = true ↔
      m.Dated claim fun f => f = 0 ∨ P (newNumericDateFromSeconds f) := by
  unfold verifyDate
  split
  next h => simp [h, Dated]
  next f h =>
    rw [dated_num h]
    by_cases hf : f = 0
    · simp [hf, hnone]
    · simp [hf, hsome]
  next v hv h =>
    simp only [h, Dated, Option.some.injEq, Bool.false_eq_true, false_iff]
    intro hdated
    obtain ⟨f, rfl, -⟩ := hdated v rfl
    exact hv f rfl

theorem MapClaims.verifyExpiresAt_iff : m.verifyExpiresAt now false = true ↔
    m.Dated "exp" fun f => f = 0 ∨ unix now < newNumericDateFromSeconds f :=
  verifyDate_iff (P := (unix now < ·)) rfl fun _ => decide_eq_true_iff

theorem MapClaims.verifyNotBefore_iff : m.verifyNotBefore now false = true ↔
    m.Dated "nbf" fun f => f = 0 ∨ newNumericDateFromSeconds f ≤ unix now :=
  verifyDate_iff (P := (· ≤ unix now)) rfl fun _ => decide_eq_true_iff

end Specifications

section Readings
variable {now : ℤ} {f : ℚ}

/-- From this second on a `time.Time` does not hold the seconds since the year 1. -/
def lastSecond : ℤ := 2 ^ 63 - 62135596800

theorem unix_of_lt (hmin : -2 ^ 63 - 1 ≤ now) (hmax : now < lastSecond) :
    unix now = now + 62135596800 := by
  unfold lastSecond at hmax
  unfold unix
  apply Int.bmod_eq_of_le <;> omega

theorem truncate_of_nonneg (hf : 0 ≤ f) : truncate f = ⌊f⌋ := if_pos hf

/-- A number from 1970 on is cut to seconds. -/
theorem newNumericDateFromSeconds_of_nonneg (hf : 0 ≤ f) :
    newNumericDateFromSeconds f = unix (int64 ⌊f⌋) := by
  have hfract : 0 ≤ (f - ⌊f⌋) * 1000000000 := by
    have := Int.floor_le f
    linarith
  have hnanos : ¬truncate ((f - ⌊f⌋) * 1000000000) < 0 := by
    rw [truncate_of_nonneg hfract, not_lt]
    exact Int.floor_nonneg.mpr hfract
  simp only [newNumericDateFromSeconds, truncate_of_nonneg hf, if_neg hnanos]

theorem newNumericDateFromSeconds_of_neg (hf : f < 0) :
    newNumericDateFromSeconds f ≤ 62135596800 := by
  have hceil : ⌈f⌉ ≤ 0 := Int.ceil_le.mpr (by exact_mod_cast hf.le)
  have hround : -2 ^ 63 ≤ int64 ⌈f⌉ ∧ int64 ⌈f⌉ ≤ 0 := by
    unfold int64
    split <;> omega
  simp only [newNumericDateFromSeconds, truncate, if_neg (not_le.mpr hf)]
  rw [unix_of_lt]
  · split <;> omega
  · split <;> omega
  · unfold lastSecond
    split <;> omega

/-- The seconds that the library reads of a number too large for them lie before the year 1. -/
theorem unix_int64_neg {n : ℤ} (h : lastSecond ≤ n) : unix (int64 n) < 0 := by
  unfold lastSecond at h
  by_cases hn : n < 2 ^ 63
  · rw [int64, if_pos ⟨by omega, hn⟩, unix, Int.bmod_def]
    omega
  · rw [int64, if_neg fun hin => hn hin.2, unix_of_lt (by norm_num) (by norm_num [lastSecond])]
    norm_num

/-- What the library takes for later than the clock: a number beyond the running second that is
not too large. -/
theorem lt_newNumericDateFromSeconds_iff (hmin : 0 ≤ now) (hmax : now < lastSecond) :
    unix now < newNumericDateFromSeconds f ↔ (now : ℚ) + 1 ≤ f ∧ f < lastSecond := by
  have hnow : unix now = now + 62135596800 := unix_of_lt (by omega) hmax
  rcases lt_or_ge f 0 with hf | hf
  · have hread := newNumericDateFromSeconds_of_neg hf
    have hfuture : ¬(now : ℚ) + 1 ≤ f := by
      have : (0 : ℚ) ≤ now := by exact_mod_cast hmin
      linarith
    exact iff_of_false (by omega) fun h => hfuture h.1
  · have hfloor : (now : ℚ) + 1 ≤ f ↔ now + 1 ≤ ⌊f⌋ := by
      rw [Int.le_floor]
      push_cast
      exact Iff.rfl
    have hcut : f < lastSecond ↔ ⌊f⌋ < lastSecond := Int.floor_lt.symm
    have hzero : 0 ≤ ⌊f⌋ := Int.floor_nonneg.mpr hf
    rw [newNumericDateFromSeconds_of_nonneg hf, hfloor, hcut, hnow]
    rcases lt_or_ge ⌊f⌋ lastSecond with hlt | hge
    · have hin : int64 ⌊f⌋ = ⌊f⌋ := if_pos ⟨by omega, by unfold lastSecond at hlt; omega⟩
      rw [hin, unix_of_lt (by omega) hlt]
      omega
    · have hread := unix_int64_neg hge
      omega

end Readings
end RoutingApi.UaaClient.Jwt
