import PhotonCommerce.Adapter.Endpoints
import PhotonCommerce.Runtime.Reference

/-!
# The lifetime of a token

* `Libs.Hs256` : what the program relies on of HS256 and of the text of a token;
* `JwtUtil.verifyTokenView` : the `string_view` overload of `VerifyToken`;
* `JwtUtil.deadline` : the last instant of a token, `deadline_eq` in whole seconds;
* `JwtUtil.runs_verifyToken_minted` : every run of `VerifyToken` on a minted token;
* `runs_performAuthentication_iff` : `PerformAuthentication` is `VerifyToken` of the first `authorization` value;
* `token_lifetime` : who passes until when.
-/

namespace PhotonCommerce
open Coroutine Domain Utils

/-- A signature verifies under its own key only; a token, three base64url texts joined by dots, is not mistaken for a
header value with a scheme. -/
structure Libs.Hs256 (L : Libs) : Prop where
  verifies : ∀ secret type issuer userId iat exp,
    L.signatureValid secret (L.sign secret type (tokenPayload issuer userId iat exp)) = true
  distinct : ∀ secret secret' type issuer userId iat exp, secret ≠ secret' →
    L.signatureValid secret' (L.sign secret type (tokenPayload issuer userId iat exp)) = false
  noScheme : ∀ secret type issuer userId iat exp,
    ¬ "Bearer ".toList <+: (L.sign secret type (tokenPayload issuer userId iat exp)).toList

namespace Utils.JwtUtil
variable (L : Libs) (cfg : JwtConfig)

/-- `JwtUtil::VerifyToken(std::string_view)`. -/
def verifyTokenView (token : String.Slice) : Prog (Except JwtError String) := verifyToken L cfg token.copy

theorem verifyTokenView_toSlice (token : String) : verifyTokenView L cfg token.toSlice = verifyToken L cfg token := by
  unfold verifyTokenView
  rw [String.copy_toSlice]

/-- The instant `get_expires_at` gives for a token made at a time. -/
def deadline (now : Nat) : Int := timePointOfSeconds (expiresAt cfg now)

/-- **The deadline** of a token is its time plus its lifetime, in whole seconds, while the clock can show it. -/
theorem deadline_eq {now : Nat} (hE : 0 < cfg.expirationSeconds.toInt)
    (hclock : (now : Int) + cfg.expirationSeconds.toInt * 10 ^ 9 < 2 ^ 63) :
    deadline cfg now = (now + cfg.expirationSeconds.toInt * 10 ^ 9) / 10 ^ 9 * 10 ^ 9 := by
  unfold deadline expiresAt
  generalize cfg.expirationSeconds.toInt = E at *
  rw [Int.bmod_eq_of_le (by omega) (by omega), secondsOfTimePoint, Int.tdiv_eq_ediv_of_nonneg (by omega),
    timePointOfSeconds]
  exact Int.bmod_eq_of_le (by omega) (by omega)

/-- Where the sum overflows, the deadline is before the epoch. -/
theorem deadline_of_overflow {now : Nat} (hnow : (now : Int) < 2 ^ 63)
    (hover : 2 ^ 63 ≤ (now : Int) + cfg.expirationSeconds.toInt * 10 ^ 9) : deadline cfg now ≤ 0 := by
  have hE := Int32.toInt_lt cfg.expirationSeconds
  unfold deadline expiresAt
  generalize cfg.expirationSeconds.toInt = E at *
  have hwrap : ((now : Int) + E * 10 ^ 9).bmod (2 ^ 64) = now + E * 10 ^ 9 - 2 ^ 64 := by
    rw [Int.bmod_def]
    split <;> omega
  rw [hwrap]
  obtain ⟨hmin, hmax⟩ := secondsOfTimePoint_bounds (now + E * 10 ^ 9 - 2 ^ 64)
  rw [timePointOfSeconds, Int.bmod_eq_of_le (by omega) (by omega)]
  omega

variable {L cfg} {cfg' : JwtConfig} {userId : String} {t : Nat} {tr : List Ev}
  {out : Except String (Except JwtError String)}

/-- The claims of a token made at a time. -/
def claimsAt (cfg : JwtConfig) (userId : String) (now : Nat) : List (String × Json) :=
  tokenPayload cfg.issuer userId (secondsOfTimePoint now) (expiresAt cfg now)

/-- `VerifyToken` on a minted token: two readings of the clock, the second for the verifier. -/
theorem verifyToken_tokenAt : verifyToken L cfg' (tokenAt L cfg userId t) = (do
    let s ← now
    if (s : Int) > deadline cfg t then return .error .tokenExpired
    else do
      let s' ← now
      return if verify L cfg' (tokenAt L cfg userId t) (claimsAt cfg userId t) s' then .ok userId
        else .error .signatureInvalid) := by
  have hdecode : L.decode (tokenAt L cfg userId t) = some (claimsAt cfg userId t) := L.decode_sign _ _ _ _ _ _
  have hexp : (claimsAt cfg userId t).lookup "exp" = some (.numberInteger (expiresAt cfg t)) := rfl
  have huser : (claimsAt cfg userId t).lookup "user_id" = some (.string userId) := rfl
  unfold verifyToken verifyDecoded
  simp only [hdecode, hexp, huser, L.asDate_integer, Json.getString, apply_ite (pure (f := Prog))]
  rfl

/-- **The runs of `VerifyToken` on a minted token**, under any configuration: late at the first reading of the clock,
or decided by the verifier at the second. -/
theorem runs_verifyToken_minted : Runs (verifyToken L cfg' (tokenAt L cfg userId t)) tr out ↔
    (∃ s : Nat, deadline cfg t < s ∧ tr = [⟨.now, s⟩] ∧ out = .ok (.error .tokenExpired)) ∨
    (∃ s s' : Nat, (s : Int) ≤ deadline cfg t ∧ tr = [⟨.now, s⟩, ⟨.now, s'⟩] ∧
      out = .ok (if verify L cfg' (tokenAt L cfg userId t) (claimsAt cfg userId t) s' then .ok userId
        else .error .signatureInvalid)) := by
  rw [verifyToken_tokenAt]
  constructor
  · intro h
    obtain ⟨s, tr', rfl, hrest⟩ := runs_now_bind.mp h
    by_cases hlate : (s : Int) > deadline cfg t
    · rw [if_pos hlate] at hrest
      obtain ⟨rfl, rfl⟩ := hrest
      exact .inl ⟨s, hlate, rfl, rfl⟩
    · rw [if_neg hlate] at hrest
      obtain ⟨s', tr'', rfl, rfl, rfl⟩ := runs_now_bind.mp hrest
      exact .inr ⟨s, s', Int.not_lt.mp hlate, rfl, rfl⟩
  · intro h
    rcases h with ⟨s, hlate, rfl, rfl⟩ | ⟨s, s', hin, rfl, rfl⟩
    · refine runs_now_bind.mpr ⟨s, [], rfl, ?_⟩
      rw [if_pos hlate]
      exact ⟨rfl, rfl⟩
    · refine runs_now_bind.mpr ⟨s, [⟨.now, s'⟩], rfl, ?_⟩
      rw [if_neg (Int.not_lt.mpr hin)]
      exact runs_now_bind.mpr ⟨s', [], rfl, rfl, rfl⟩

/-- The verifier of the issuer, after the time of issue, checks the deadline only. -/
theorem verify_minted (hL : L.Hs256) (hclock : (t : Int) < 2 ^ 63) {s : Nat} (hts : t ≤ s) :
    verify L cfg (tokenAt L cfg userId t) (claimsAt cfg userId t) s = decide ((s : Int) ≤ deadline cfg t) := by
  have hexp : (claimsAt cfg userId t).lookup "exp" = some (.numberInteger (expiresAt cfg t)) := rfl
  have hiat : (claimsAt cfg userId t).lookup "iat" = some (.numberInteger (secondsOfTimePoint t)) := rfl
  have hnbf : (claimsAt cfg userId t).lookup "nbf" = none := rfl
  have hiss : ((claimsAt cfg userId t).lookup "iss").bind Json.getString = some cfg.issuer := rfl
  have hsig : L.signatureValid cfg.secretKey (tokenAt L cfg userId t) = true := hL.verifies _ _ _ _ _ _
  have hissued : timePointOfSeconds (secondsOfTimePoint t) ≤ (s : Int) := by
    obtain ⟨hmin, hmax⟩ := secondsOfTimePoint_bounds t
    rw [timePointOfSeconds, Int.bmod_eq_of_le (by omega) (by omega)]
    omega
  simp only [verify, timeClaim, hexp, hiat, hnbf, hiss, hsig, L.asDate_integer, decide_eq_true hissued, deadline,
    Bool.true_and, Bool.and_true, decide_true]
  rfl

/-- The verifier of another issuer never passes. -/
theorem verify_foreign (hL : L.Hs256) (h : cfg'.secretKey ≠ cfg.secretKey ∨ cfg'.issuer ≠ cfg.issuer) (s : Nat) :
    verify L cfg' (tokenAt L cfg userId t) (claimsAt cfg userId t) s = false := by
  unfold verify
  rcases h with hsecret | hissuer
  · have hsig : L.signatureValid cfg'.secretKey (tokenAt L cfg userId t) = false :=
      hL.distinct _ _ _ _ _ _ _ (Ne.symm hsecret)
    rw [hsig]
    rfl
  · have hiss : ((claimsAt cfg userId t).lookup "iss").bind Json.getString ≠ some cfg'.issuer := by
      intro heq
      exact hissuer (Option.some.inj heq).symm
    rw [decide_eq_false hiss, Bool.and_false]

end Utils.JwtUtil

namespace Adapter
open Utils.JwtUtil

theorem stripBearer_bearer (token : String) : stripBearer ("Bearer " ++ token) = token := by
  unfold stripBearer
  rw [String.toList_append, if_pos (List.prefix_append _ _)]
  exact String.ofList_toList

/-- Bare or with its scheme, the value of the header gives the token. -/
theorem bearerToken_of_lookup {md : Metadata} {value token : String} (hmd : md.lookup "authorization" = some value)
    (hvalue : value = token ∨ value = "Bearer " ++ token) (hscheme : ¬ "Bearer ".toList <+: token.toList) :
    bearerToken md = some token := by
  unfold bearerToken
  rw [hmd, Option.map_some]
  rcases hvalue with rfl | rfl
  · rw [stripBearer, if_neg hscheme]
  · rw [stripBearer_bearer]

variable {L : Libs} {cfg : JwtConfig} {md : Metadata} {token : String} {tr : List Ev}

/-- What `PerformAuthentication` makes of the answer of `VerifyToken`. -/
def authenticated : Except JwtError String → Except GrpcStatus String
  | .error _ => .error ⟨.unauthenticated, "Invalid Token"⟩
  | .ok userId => .ok userId

/-- **`PerformAuthentication` is `VerifyToken`** of the token in the header. -/
theorem runs_performAuthentication_iff {out : Except String (Except GrpcStatus String)}
    (htoken : bearerToken md = some token) : Runs (performAuthentication L cfg md) tr out ↔
      ∃ r, Runs (verifyToken L cfg token) tr (.ok r) ∧ out = .ok (authenticated r) := by
  unfold performAuthentication
  simp only [htoken]
  constructor
  · intro h
    rcases runs_bind.mp h with ⟨v, tr₁, tr₂, rfl, hverify, hrest⟩ | ⟨e, rfl, hverify⟩
    · cases v with
      | error e =>
          obtain ⟨rfl, rfl⟩ := hrest
          exact ⟨.error e, by rwa [List.append_nil], rfl⟩
      | ok name =>
          obtain ⟨rfl, rfl⟩ := hrest
          exact ⟨.ok name, by rwa [List.append_nil], rfl⟩
    · obtain ⟨-, r, hr, -⟩ := runs_verifyToken hverify
      cases hr
  · intro h
    obtain ⟨r, hverify, rfl⟩ := h
    rw [← List.append_nil tr]
    refine Runs.bind hverify ?_
    cases r with
    | error e => exact ⟨rfl, rfl⟩
    | ok name => exact ⟨rfl, rfl⟩

section Minted
variable {userId : String} {t : Nat}

/-- There is a run at every time. -/
theorem exists_runs_at (htoken : bearerToken md = some (tokenAt L cfg userId t)) (s : Nat) :
    ∃ tr out, Runs (performAuthentication L cfg md) tr out ∧ ∀ ev ∈ tr, ev = ⟨.now, s⟩ := by
  by_cases hin : (s : Int) ≤ deadline cfg t
  · refine ⟨_, _, (runs_performAuthentication_iff htoken).mpr ⟨_, runs_verifyToken_minted.mpr
      (.inr ⟨s, s, hin, rfl, rfl⟩), rfl⟩, ?_⟩
    simp
  · refine ⟨_, _, (runs_performAuthentication_iff htoken).mpr ⟨_, runs_verifyToken_minted.mpr
      (.inl ⟨s, Int.not_le.mp hin, rfl, rfl⟩), rfl⟩, ?_⟩
    simp

/-- **The outcome** on a token of the server's own: the user within the deadline, UNAUTHENTICATED after it. -/
theorem performAuthentication_minted (hL : L.Hs256) (hclock : (t : Int) < 2 ^ 63)
    (htoken : bearerToken md = some (tokenAt L cfg userId t)) {out : Except String (Except GrpcStatus String)}
    (h : Runs (performAuthentication L cfg md) tr out) (hafter : ∀ s : Nat, (⟨.now, s⟩ : Ev) ∈ tr → t ≤ s) :
    (out = .ok (.ok userId) ∧ ∀ s : Nat, (⟨.now, s⟩ : Ev) ∈ tr → (s : Int) ≤ deadline cfg t) ∨
      (out = .ok (.error ⟨.unauthenticated, "Invalid Token"⟩) ∧
        ∃ s : Nat, (⟨.now, s⟩ : Ev) ∈ tr ∧ deadline cfg t < s) := by
  obtain ⟨r, hverify, rfl⟩ := (runs_performAuthentication_iff htoken).mp h
  rcases runs_verifyToken_minted.mp hverify with ⟨s, hs, rfl, hr⟩ | ⟨s, s', hs, rfl, hr⟩
  · cases hr
    exact .inr ⟨rfl, s, List.mem_singleton_self _, hs⟩
  · rw [verify_minted hL hclock (hafter s' (by simp))] at hr
    by_cases hs' : (s' : Int) ≤ deadline cfg t
    · rw [decide_eq_true hs', if_pos rfl] at hr
      cases hr
      refine .inl ⟨rfl, fun u hu => ?_⟩
      rcases List.mem_cons.mp hu with heq | hu
      · cases heq
        exact hs
      · cases List.mem_singleton.mp hu
        exact hs'
    · -- the deadline passed between the two readings
      rw [decide_eq_false hs'] at hr
      cases hr
      exact .inr ⟨rfl, s', by simp, Int.not_le.mp hs'⟩

/-- After the deadline the token is found expired before its signature is looked at. -/
theorem verifyToken_late {cfg' : JwtConfig} {out : Except String (Except JwtError String)}
    (h : Runs (verifyToken L cfg' (tokenAt L cfg userId t)) tr out)
    (hlate : ∀ s : Nat, (⟨.now, s⟩ : Ev) ∈ tr → deadline cfg t < s) : out = .ok (.error .tokenExpired) := by
  rcases runs_verifyToken_minted.mp h with ⟨s, -, -, hout⟩ | ⟨s, s', hs, rfl, -⟩
  · exact hout
  · exact absurd hs (Int.not_le.mpr (hlate s (by simp)))

/-- Another secret or another issuer accepts the token at no time. -/
theorem verifyToken_foreign (hL : L.Hs256) {cfg' : JwtConfig}
    (hother : cfg'.secretKey ≠ cfg.secretKey ∨ cfg'.issuer ≠ cfg.issuer) (name : String) :
    ¬ Runs (verifyToken L cfg' (tokenAt L cfg userId t)) tr (.ok (.ok name)) := by
  intro h
  rcases runs_verifyToken_minted.mp h with ⟨s, -, -, hr⟩ | ⟨s, s', -, -, hr⟩
  · cases hr
  · rw [verify_foreign hL hother] at hr
    cases hr

/-- Where the sum overflows, a token is refused as soon as it is made. -/
theorem refused_of_overflow (hnow : (t : Int) < 2 ^ 63)
    (hover : 2 ^ 63 ≤ (t : Int) + cfg.expirationSeconds.toInt * 10 ^ 9)
    (htoken : bearerToken md = some (tokenAt L cfg userId t)) : Runs (performAuthentication L cfg md) [⟨.now, t⟩]
      (.ok (.error ⟨.unauthenticated, "Invalid Token"⟩)) := by
  have hE := Int32.toInt_lt cfg.expirationSeconds
  have hdeadline := deadline_of_overflow cfg hnow hover
  refine (runs_performAuthentication_iff htoken).mpr ⟨.error .tokenExpired, ?_, rfl⟩
  exact runs_verifyToken_minted.mpr (.inl ⟨t, by omega, rfl, rfl⟩)

end Minted

/-- **The lifetime of a token.** Every reading of the clock is after the issue: `PerformAuthentication` passes the user
when all of them are within the deadline and is UNAUTHENTICATED otherwise, TokenExpired when all are after it; the
deadline is more than `E - 1` and at most `E` seconds away; no other secret or issuer accepts the token; the two
overloads agree. -/
theorem token_lifetime (hL : L.Hs256) {userId value : String} {t : Nat} (hE : 0 < cfg.expirationSeconds.toInt)
    (hclock : (t : Int) + cfg.expirationSeconds.toInt * 10 ^ 9 < 2 ^ 63)
    (hmd : md.lookup "authorization" = some value)
    (hvalue : value = tokenAt L cfg userId t ∨ value = "Bearer " ++ tokenAt L cfg userId t) :
    ∃ last : Int, last = (t + cfg.expirationSeconds.toInt * 10 ^ 9) / 10 ^ 9 * 10 ^ 9 ∧
      cfg.expirationSeconds.toInt * 10 ^ 9 - 10 ^ 9 < last - t ∧
      last - t ≤ cfg.expirationSeconds.toInt * 10 ^ 9 ∧
      (∀ s : Nat, ∃ tr out, Runs (performAuthentication L cfg md) tr out ∧ ∀ ev ∈ tr, ev = ⟨.now, s⟩) ∧
      (∀ tr out, Runs (performAuthentication L cfg md) tr out → (∀ s : Nat, (⟨.now, s⟩ : Ev) ∈ tr → t ≤ s) →
        (out = .ok (.ok userId) ∧ ∀ s : Nat, (⟨.now, s⟩ : Ev) ∈ tr → (s : Int) ≤ last) ∨
        (out = .ok (.error ⟨.unauthenticated, "Invalid Token"⟩) ∧
          ∃ s : Nat, (⟨.now, s⟩ : Ev) ∈ tr ∧ last < s)) ∧
      (∀ tr out, Runs (verifyToken L cfg (tokenAt L cfg userId t)) tr out →
        (∀ s : Nat, (⟨.now, s⟩ : Ev) ∈ tr → last < s) → out = .ok (.error .tokenExpired)) ∧
      (∀ cfg' : JwtConfig, cfg'.secretKey ≠ cfg.secretKey ∨ cfg'.issuer ≠ cfg.issuer →
        ∀ tr name, ¬ Runs (verifyToken L cfg' (tokenAt L cfg userId t)) tr (.ok (.ok name))) ∧
      (∀ (cfg' : JwtConfig) (token : String), verifyTokenView L cfg' token.toSlice = verifyToken L cfg' token) := by
  have htoken := bearerToken_of_lookup hmd hvalue (hL.noScheme _ _ _ _ _ _)
  have hdeadline := deadline_eq cfg hE hclock
  exact ⟨deadline cfg t, hdeadline, by omega, by omega, exists_runs_at htoken,
    fun tr out h hafter => performAuthentication_minted hL (by omega) htoken h hafter,
    fun tr out h hlate => verifyToken_late h hlate,
    fun cfg' hother tr name => verifyToken_foreign hL hother name,
    fun cfg' token => verifyTokenView_toSlice L cfg' token⟩

/-! ## At known texts -/

/-- The libraries with known texts satisfy what is asked of HS256. -/
theorem hs256_reference {T : Texts} (hscheme : ¬ "Bearer ".toList <+: T.token.toList) : (Libs.reference T).Hs256 := by
  have hdecode : ∀ secret type issuer userId iat exp, FieldCodec.amendDecode readToken (T.secret, T.type, T.payload)
      T.token ((Libs.reference T).sign secret type (tokenPayload issuer userId iat exp)) =
        some (secret, type, tokenPayload issuer userId iat exp) := by
    intro secret type issuer userId iat exp
    exact FieldCodec.amendDecode_amendEncode (readToken_tokenFields (flat_tokenPayload issuer userId iat exp))
      (readToken_tokenFields T.payload_flat) (encode_ne_of_plain T.token_plain _)
  refine ⟨fun secret type issuer userId iat exp => ?_, fun secret secret' type issuer userId iat exp hne => ?_,
    fun secret type issuer userId iat exp hpre => ?_⟩
  · simp only [Libs.reference] at hdecode ⊢
    simp only [hdecode, decide_true]
  · simp only [Libs.reference] at hdecode ⊢
    simp only [hdecode, decide_eq_false hne]
  · simp only [Libs.reference, FieldCodec.amendEncode] at hpre
    split at hpre
    · exact hscheme hpre
    · obtain ⟨rest, hrest⟩ := hpre
      have heq : FieldCodec.encode (tokenFields (secret, type, tokenPayload issuer userId iat exp)) =
          String.ofList ("Bearer ".toList ++ rest) := by
        rw [hrest, String.ofList_toList]
      exact FieldCodec.encode_ne (by decide) (by decide) heq

/-- The token of `Texts.alice` is not mistaken for a value with a scheme. -/
theorem noScheme_alice : ¬ "Bearer ".toList <+: Texts.alice.token.toList := by decide +kernel

/-- A token of one hour passes for its user in the last second of the hour. -/
theorem token_lifetime_hour : ∃ (md : Metadata) (t s : Nat), t = 1764151200 * 10 ^ 9 + 5 ∧ s = 1764154800 * 10 ^ 9 ∧
    md.lookup "authorization" = some ("Bearer " ++ tokenAt (Libs.reference Texts.alice) .photon "alice" t) ∧
    ∃ tr, Runs (performAuthentication (Libs.reference Texts.alice) .photon md) tr (.ok (.ok "alice")) ∧
      ∀ ev ∈ tr, ev = ⟨.now, s⟩ := by
  obtain ⟨t, ht⟩ : ∃ t : Nat, t = 1764151200 * 10 ^ 9 + 5 := ⟨_, rfl⟩
  obtain ⟨s, hs⟩ : ∃ s : Nat, s = 1764154800 * 10 ^ 9 := ⟨_, rfl⟩
  obtain ⟨md, hmd⟩ : ∃ md : Metadata, md.lookup "authorization" =
      some ("Bearer " ++ tokenAt (Libs.reference Texts.alice) .photon "alice" t) := ⟨[(_, _)], List.lookup_cons_self⟩
  have hE : JwtConfig.photon.expirationSeconds.toInt = 3600 := rfl
  obtain ⟨last, hlast, -, -, hruns, hdecided, -⟩ := token_lifetime (hs256_reference noScheme_alice)
    (show 0 < JwtConfig.photon.expirationSeconds.toInt by omega) (by omega) hmd (.inr rfl)
  obtain ⟨tr, out, hrun, hat⟩ := hruns s
  have hreading : ∀ s' : Nat, (⟨.now, s'⟩ : Ev) ∈ tr → s' = s := by
    intro s' hs'
    cases hat _ hs'
    rfl
  refine ⟨md, t, s, ht, hs, hmd, tr, ?_, hat⟩
  rcases hdecided tr out hrun (fun s' hs' => by rw [hreading s' hs']; omega) with ⟨rfl, -⟩ | ⟨-, s', hs', hlate⟩
  · exact hrun
  · rw [hlast, hreading s' hs'] at hlate
    omega

/-- At the end of the range of the clock the sum overflows, and the token is refused when it is made. -/
theorem token_lifetime_overflow : ∃ (md : Metadata) (t : Nat), t = 2 ^ 63 - 1 ∧
    md.lookup "authorization" = some (tokenAt (Libs.reference Texts.alice) .photon "alice" t) ∧
    (t : Int) ≤ (t + JwtConfig.photon.expirationSeconds.toInt * 10 ^ 9) / 10 ^ 9 * 10 ^ 9 ∧
    Runs (performAuthentication (Libs.reference Texts.alice) .photon md) [⟨.now, t⟩]
      (.ok (.error ⟨.unauthenticated, "Invalid Token"⟩)) := by
  obtain ⟨t, ht⟩ : ∃ t : Nat, t = 2 ^ 63 - 1 := ⟨_, rfl⟩
  obtain ⟨md, hmd⟩ : ∃ md : Metadata, md.lookup "authorization" =
      some (tokenAt (Libs.reference Texts.alice) .photon "alice" t) := ⟨[(_, _)], List.lookup_cons_self⟩
  have htoken : bearerToken md = some (tokenAt (Libs.reference Texts.alice) .photon "alice" t) :=
    bearerToken_of_lookup hmd (.inl rfl) ((hs256_reference noScheme_alice).noScheme _ _ _ _ _ _)
  have hE : JwtConfig.photon.expirationSeconds.toInt = 3600 := rfl
  exact ⟨md, t, ht, hmd, by omega, refused_of_overflow (by omega) (by omega) htoken⟩

end Adapter

end PhotonCommerce
