import PhotonCommerce.Runtime.Effects

/-!
# The utilities of the service

* `SecurityUtil` : salts, password hashes and their verification;
* `CodeGenerator`, `IdGenerator` : verification codes and version 7 UUIDs;
* `JwtUtil` : minting and verifying tokens.
-/

namespace PhotonCommerce.Utils
open Coroutine Domain

/-! ## `SecurityUtil` -/

namespace SecurityUtil
variable (L : Libs)

/-- `SecurityUtil::GenerateSalt`. -/
def generateSalt : Prog String := do
  let salt ← generateBlock 16
  return hexEncode salt.val

/-- `SecurityUtil::HashPassword`. -/
def hashPassword (rawPassword salt : String) : String := hexEncode (L.sha256 (rawPassword ++ salt))

theorem length_hashPassword (rawPassword salt : String) : (hashPassword L rawPassword salt).length = 64 := by
  unfold hashPassword
  rw [length_hexEncode, L.sha256_length]

/-- `SecurityUtil::VerifyPassword`: `VerifyBufsEqual` compares buffers of one size. -/
def verifyPassword (rawPassword salt storedHash : String) : Bool :=
  let calculatedHash := hashPassword L rawPassword salt
  if calculatedHash.utf8ByteSize ≠ storedHash.utf8ByteSize then false
  else calculatedHash = storedHash

theorem verifyPassword_iff (rawPassword salt storedHash : String) :
    verifyPassword L rawPassword salt storedHash = true ↔ hashPassword L rawPassword salt = storedHash := by
  unfold verifyPassword
  constructor
  · intro h
    dsimp only at h
    split at h
    · cases h
    · exact of_decide_eq_true h
  · intro h
    simp [h]

theorem runs_generateSalt_bind {β : Type} {f : String → Prog β} {tr : List Ev} {out : Except String β} :
    Runs (generateSalt >>= f) tr out ↔ ∃ (b : { bytes : List UInt8 // bytes.length = 16 }) (tr' : List Ev),
      tr = ⟨.generateBlock 16, b⟩ :: tr' ∧ Runs (f (hexEncode b.val)) tr' out := Iff.rfl

/-- Two passwords have the same hash exactly when they have the same digest. -/
theorem hashPassword_eq_iff (p q salt : String) :
    hashPassword L p salt = hashPassword L q salt ↔ L.sha256 (p ++ salt) = L.sha256 (q ++ salt) :=
  hexEncode_injective.eq_iff

end SecurityUtil

/-! ## `CodeGenerator` -/

/-- The loop of `CodeGenerator::Generate`, with the digits still to draw. -/
def generateDigits : Nat → String → Prog String
  | 0, code => return code
  | n + 1, code => do
      let digit ← uniformDigit
      generateDigits n (code.push (Char.ofNat (digit.val + '0'.toNat)))

/-- `CodeGenerator::Generate`. -/
def CodeGenerator.generate (length : Nat) : Prog String := generateDigits length ""

theorem runs_generateDigits {n : Nat} {code : String} {tr : List Ev} {out : Except String String}
    (h : Runs (generateDigits n code) tr out) : ∀ ev ∈ tr, ev.op = .uniformDigit := by
  induction n generalizing code tr with
  | zero =>
      obtain ⟨rfl, rfl⟩ := h
      simp
  | succ n ih =>
      obtain ⟨d, tr', rfl, hrest⟩ := runs_uniformDigit_bind.mp h
      exact List.forall_mem_cons.mpr ⟨rfl, ih hrest⟩

/-- The code that digits spell after what is there. -/
def spell (code : String) (digits : List (Fin 10)) : String :=
  digits.foldl (fun code digit => code.push (Char.ofNat (digit.val + '0'.toNat))) code

/-- **The runs of the loop**: it draws its digits and appends them. -/
theorem runs_generateDigits_iff {n : Nat} {code : String} {tr : List Ev} {out : Except String String} :
    Runs (generateDigits n code) tr out ↔ ∃ digits : List (Fin 10), digits.length = n ∧
      tr = digits.map (fun digit => ⟨.uniformDigit, digit⟩) ∧ out = .ok (spell code digits) := by
  induction n generalizing code tr with
  | zero =>
      constructor
      · rintro ⟨rfl, rfl⟩
        exact ⟨[], rfl, rfl, rfl⟩
      · rintro ⟨digits, hlen, rfl, rfl⟩
        rw [List.eq_nil_of_length_eq_zero hlen]
        exact ⟨rfl, rfl⟩
  | succ n ih =>
      constructor
      · intro h
        obtain ⟨d, tr', rfl, hrest⟩ := runs_uniformDigit_bind.mp h
        obtain ⟨digits, hlen, rfl, rfl⟩ := ih.mp hrest
        exact ⟨d :: digits, by rw [List.length_cons, hlen], rfl, rfl⟩
      · rintro ⟨_ | ⟨d, digits⟩, hlen, rfl, rfl⟩
        · cases hlen
        · exact runs_uniformDigit_bind.mpr ⟨d, _, rfl, ih.mpr ⟨digits, Nat.succ.inj hlen, rfl, rfl⟩⟩

theorem always_generateDigits {φ : List Ev → Op → Prop} {hist : List Ev} (hφ : OnWrites φ) (n : Nat) (code : String) :
    Always φ hist (generateDigits n code) := by
  refine Always.of_runs Ans.default fun tr₁ ev tr₂ out hrun => ?_
  have hop : ev.op = .uniformDigit := runs_generateDigits hrun ev (by simp)
  rw [hop]
  exact hφ _ _ rfl rfl

/-! ## `IdGenerator` -/

/-- The sixteen bytes of `GenerateUUID`: 48 bits of time, 80 random bits, then the version and the variant. -/
def uuidBytes (timestamp : Nat) (rand1 rand2 rand3 : UInt32) : List UInt8 :=
  [.ofNat (timestamp >>> 40), .ofNat (timestamp >>> 32), .ofNat (timestamp >>> 24), .ofNat (timestamp >>> 16),
    .ofNat (timestamp >>> 8), .ofNat timestamp,
    (rand1 >>> 24).toUInt8 &&& 0x0F ||| 0x70, (rand1 >>> 16).toUInt8,
    (rand1 >>> 8).toUInt8 &&& 0x3F ||| 0x80, rand1.toUInt8,
    (rand2 >>> 24).toUInt8, (rand2 >>> 16).toUInt8, (rand2 >>> 8).toUInt8, rand2.toUInt8,
    (rand3 >>> 24).toUInt8, (rand3 >>> 16).toUInt8]

/-- `IdGenerator::GenerateUUID`. -/
def IdGenerator.generateUUID : Prog String := do
  let now ← now
  let timestamp := now / 10 ^ 6
  let rand1 ← rand32
  let rand2 ← rand32
  let rand3 ← rand32
  let id : Uuid := ⟨uuidBytes timestamp rand1 rand2 rand3, rfl⟩
  return id.toString

theorem IdGenerator.runs_generateUUID_bind {β : Type} {f : String → Prog β} {tr : List Ev} {out : Except String β} :
    Runs (generateUUID >>= f) tr out ↔ ∃ (t : Nat) (r₁ r₂ r₃ : UInt32) (tr' : List Ev),
      tr = ⟨.now, t⟩ :: ⟨.rand32, r₁⟩ :: ⟨.rand32, r₂⟩ :: ⟨.rand32, r₃⟩ :: tr' ∧
        Runs (f (⟨uuidBytes (t / 10 ^ 6) r₁ r₂ r₃, rfl⟩ : Uuid).toString) tr' out := by
  constructor
  · rintro ⟨t, _, rfl, r₁, _, rfl, r₂, _, rfl, r₃, tr', rfl, h⟩
    exact ⟨t, r₁, r₂, r₃, tr', rfl, h⟩
  · rintro ⟨t, r₁, r₂, r₃, tr', rfl, h⟩
    exact ⟨t, _, rfl, r₁, _, rfl, r₂, _, rfl, r₃, tr', rfl, h⟩

/-! ## `JwtUtil` -/

/-- `JwtError`. -/
inductive JwtError where
  | tokenExpired
  | signatureInvalid
  | formatInvalid
  | internalError
  deriving DecidableEq, Repr

namespace JwtUtil
variable (L : Libs) (cfg : JwtConfig)

/-- `JwtUtil::TOKEN_TYPE`. -/
def tokenType : String := "JWS"

/-- `now + expiration_seconds_` as the token carries it, in whole seconds. -/
def expiresAt (now : Nat) : Int :=
  secondsOfTimePoint (((now : Int) + cfg.expirationSeconds.toInt * 10 ^ 9).bmod (2 ^ 64))

/-- The token for a user at a time. -/
def tokenAt (userId : String) (now : Nat) : String :=
  L.sign cfg.secretKey tokenType (tokenPayload cfg.issuer userId (secondsOfTimePoint now) (expiresAt cfg now))

/-- `JwtUtil::GenerateToken`. -/
def generateToken (userId : String) : Prog String := do
  let now ← now
  return tokenAt L cfg userId now

/-- A time claim passes `check`, or is absent. -/
def timeClaim (decoded : List (String × Json)) (claim : String) (check : Int → Bool) : Bool :=
  match decoded.lookup claim with
  | none => true
  | some c =>
      match L.asDate c with
      | none => false
      | some t => check t

/-- `verifier.verify(decoded)` at a time: false when it throws. -/
def verify (token : String) (decoded : List (String × Json)) (now : Nat) : Bool :=
  L.signatureValid cfg.secretKey token &&
    timeClaim L decoded "exp" (fun t => (now : Int) ≤ t) &&
    timeClaim L decoded "iat" (fun t => t ≤ now) &&
    timeClaim L decoded "nbf" (fun t => t ≤ now) &&
    (decoded.lookup "iss").bind Json.getString = some cfg.issuer

/-- The part of `VerifyToken` after the check of `exp`. -/
def verifyDecoded (token : String) (decoded : List (String × Json)) : Prog (Except JwtError String) := do
  let now ← now
  if verify L cfg token decoded now then
    match decoded.lookup "user_id" with
    | none => return .error .formatInvalid
    | some claim =>
        match claim.getString with
        | some userId => return .ok userId
        | none => return .error .signatureInvalid
  else return .error .signatureInvalid

/-- `JwtUtil::VerifyToken`: every exception is `SignatureInvalid`. -/
def verifyToken (token : String) : Prog (Except JwtError String) := do
  match L.decode token with
  | none => return .error .signatureInvalid
  | some decoded =>
      match decoded.lookup "exp" with
      | none => verifyDecoded L cfg token decoded
      | some claim => do
          let now ← now
          match L.asDate claim with
          | none => return .error .signatureInvalid
          | some exp =>
              if (now : Int) > exp then return .error .tokenExpired
              else verifyDecoded L cfg token decoded

theorem runs_generateToken_bind {β : Type} {f : String → Prog β} {userId : String} {tr : List Ev}
    {out : Except String β} : Runs (generateToken L cfg userId >>= f) tr out ↔
      ∃ (t : Nat) (tr' : List Ev), tr = ⟨.now, t⟩ :: tr' ∧ Runs (f (tokenAt L cfg userId t)) tr' out := Iff.rfl

variable {L cfg} {token : String} {tr : List Ev} {out : Except String (Except JwtError String)}

theorem runs_verifyDecoded {decoded : List (String × Json)} (h : Runs (verifyDecoded L cfg token decoded) tr out) :
    ∃ (t : Nat) (r : Except JwtError String), tr = [⟨.now, t⟩] ∧ out = .ok r ∧ ∀ userId, r = .ok userId →
      verify L cfg token decoded t = true ∧ (decoded.lookup "user_id").bind Json.getString = some userId := by
  obtain ⟨t, tr', rfl, hrest⟩ := runs_now_bind.mp h
  cases hverify : verify L cfg token decoded t with
  | false =>
      rw [hverify] at hrest
      obtain ⟨rfl, rfl⟩ := hrest
      exact ⟨t, _, rfl, rfl, fun userId huser => by cases huser⟩
  | true =>
      rw [hverify, if_pos rfl] at hrest
      cases hclaim : decoded.lookup "user_id" with
      | none =>
          rw [hclaim] at hrest
          obtain ⟨rfl, rfl⟩ := hrest
          exact ⟨t, _, rfl, rfl, fun userId huser => by cases huser⟩
      | some claim =>
          simp only [hclaim] at hrest
          cases hstring : claim.getString with
          | none =>
              rw [hstring] at hrest
              obtain ⟨rfl, rfl⟩ := hrest
              exact ⟨t, _, rfl, rfl, fun userId huser => by cases huser⟩
          | some name =>
              rw [hstring] at hrest
              obtain ⟨rfl, rfl⟩ := hrest
              refine ⟨t, _, rfl, rfl, fun userId huser => ⟨hverify, ?_⟩⟩
              rw [← Except.ok.inj huser]
              exact hstring

/-- **A verification** reads the clock only; a token that passes is signed, in time at every reading, and carries the
user id. -/
theorem runs_verifyToken (h : Runs (verifyToken L cfg token) tr out) :
    (∀ ev ∈ tr, ev.op = .now) ∧ ∃ r : Except JwtError String, out = .ok r ∧ ∀ userId, r = .ok userId →
      ∃ decoded, L.decode token = some decoded ∧ L.signatureValid cfg.secretKey token = true ∧
        (decoded.lookup "user_id").bind Json.getString = some userId ∧ (∃ t : Nat, (⟨.now, t⟩ : Ev) ∈ tr) ∧
        ∀ claim exp, decoded.lookup "exp" = some claim → L.asDate claim = some exp →
          ∀ t : Nat, (⟨.now, t⟩ : Ev) ∈ tr → (t : Int) ≤ exp := by
  have hexp : ∀ decoded claim exp (t : Nat), verify L cfg token decoded t = true →
      decoded.lookup "exp" = some claim → L.asDate claim = some exp → (t : Int) ≤ exp := by
    intro decoded claim exp t hverify hclaim hdate
    simp only [verify, Bool.and_eq_true, timeClaim, hclaim, hdate] at hverify
    exact of_decide_eq_true hverify.1.1.1.2
  have hsig : ∀ decoded (t : Nat), verify L cfg token decoded t = true →
      L.signatureValid cfg.secretKey token = true := by
    intro decoded t hverify
    simp only [verify, Bool.and_eq_true] at hverify
    exact hverify.1.1.1.1
  unfold verifyToken at h
  cases hdecode : L.decode token with
  | none =>
      rw [hdecode] at h
      obtain ⟨rfl, rfl⟩ := h
      exact ⟨by simp, _, rfl, fun userId huser => by cases huser⟩
  | some decoded =>
      simp only [hdecode] at h
      cases hclaim : decoded.lookup "exp" with
      | none =>
          simp only [hclaim] at h
          obtain ⟨t, r, rfl, rfl, hr⟩ := runs_verifyDecoded h
          refine ⟨by simp, r, rfl, fun userId huser => ⟨decoded, rfl, hsig _ _ (hr userId huser).1,
            (hr userId huser).2, ⟨t, List.mem_singleton_self _⟩, fun claim exp hc => ?_⟩⟩
          rw [hclaim] at hc
          cases hc
      | some claim =>
          simp only [hclaim] at h
          obtain ⟨t₀, tr', rfl, hrest⟩ := runs_now_bind.mp h
          cases hdate : L.asDate claim with
          | none =>
              simp only [hdate] at hrest
              obtain ⟨rfl, rfl⟩ := hrest
              exact ⟨by simp, _, rfl, fun userId huser => by cases huser⟩
          | some exp =>
              simp only [hdate] at hrest
              by_cases hlate : (t₀ : Int) > exp
              · rw [if_pos hlate] at hrest
                obtain ⟨rfl, rfl⟩ := hrest
                exact ⟨by simp, _, rfl, fun userId huser => by cases huser⟩
              · rw [if_neg hlate] at hrest
                obtain ⟨t, r, rfl, rfl, hr⟩ := runs_verifyDecoded hrest
                refine ⟨by simp, r, rfl, fun userId huser => ⟨decoded, rfl, hsig _ _ (hr userId huser).1,
                  (hr userId huser).2, ⟨t₀, List.mem_cons_self⟩, fun claim' exp' hc hd t' ht' => ?_⟩⟩
                rw [hclaim] at hc
                obtain rfl := Option.some.inj hc
                rw [hdate] at hd
                obtain rfl := Option.some.inj hd
                rcases List.mem_cons.mp ht' with heq | ht'
                · cases heq
                  exact Int.not_lt.mp hlate
                · cases List.mem_singleton.mp ht'
                  exact hexp _ _ _ _ (hr userId huser).1 hclaim hdate

/-- What is not after the expiry of a token is not after its time plus its lifetime, in whole seconds. -/
theorem le_of_le_expiresAt {t v : Nat} (htv : t ≤ v) (h : (v : Int) ≤ timePointOfSeconds (expiresAt cfg t)) :
    (v : Int) ≤ (t + cfg.expirationSeconds.toInt * 10 ^ 9) / 10 ^ 9 * 10 ^ 9 := by
  have hlo := Int32.le_toInt cfg.expirationSeconds
  have hhi := Int32.toInt_lt cfg.expirationSeconds
  unfold expiresAt at h
  generalize cfg.expirationSeconds.toInt = E at *
  generalize hx : (t : Int) + E * 10 ^ 9 = x at *
  have hybounds : -2 ^ 63 ≤ x.bmod (2 ^ 64) ∧ x.bmod (2 ^ 64) < 2 ^ 63 := by
    have := Int.le_bmod (x := x) (m := 2 ^ 64) (by omega)
    have := Int.bmod_lt (x := x) (m := 2 ^ 64) (by omega)
    omega
  obtain ⟨hmin, hmax⟩ := secondsOfTimePoint_bounds (x.bmod (2 ^ 64))
  rw [timePointOfSeconds, Int.bmod_eq_of_le (by omega) (by omega)] at h
  by_cases hneg : x < 0
  · -- the token was expired when it was made
    exfalso
    have hy : x.bmod (2 ^ 64) = x := Int.bmod_eq_of_le (by omega) (by omega)
    rw [hy] at h hmax
    obtain rfl : t = 0 := by omega
    have hsec : secondsOfTimePoint x = E := by
      rw [← hx, Int.natCast_zero, Int.zero_add]
      exact Int.mul_tdiv_cancel E (by decide)
    rw [hsec] at h
    omega
  · have hle : x.bmod (2 ^ 64) ≤ x := by
      simp only [Int.bmod]
      split <;> omega
    omega

/-- **A token that was minted and passes** is for the user it was minted for, and passes before its expiry only. -/
theorem runs_verifyToken_tokenAt {userId name : String} {now : Nat}
    (h : Runs (verifyToken L cfg (tokenAt L cfg name now)) tr (.ok (.ok userId))) :
    userId = name ∧ (∃ t : Nat, (⟨.now, t⟩ : Ev) ∈ tr) ∧
      ∀ t : Nat, (⟨.now, t⟩ : Ev) ∈ tr → (t : Int) ≤ timePointOfSeconds (expiresAt cfg now) := by
  obtain ⟨-, r, hr, hpass⟩ := runs_verifyToken h
  obtain rfl := Except.ok.inj hr
  obtain ⟨decoded, hdecoded, -, huser, hread, hexp⟩ := hpass userId rfl
  rw [tokenAt, L.decode_sign] at hdecoded
  obtain rfl := Option.some.inj hdecoded
  exact ⟨(Option.some.inj huser).symm, hread, hexp _ _ rfl (L.asDate_integer _)⟩

end JwtUtil

end PhotonCommerce.Utils
