import PhotonCommerce.Persistence.UserDao
import PhotonCommerce.Storage.RedisClient

/-!
# `UserRepository`: the DAO behind a cache

* `IUserRepository` : what the services call;
* `UserRepository.getUserById` : read-through cache under `user:info:`, back-filled from the database;
* `userRepository`, `userDaoRepository` : the repository with the cache, and the DAO in its place;
* `UserRepository.runs_getUserById` : a hit, or a DAO call and its back-fill.
-/

namespace PhotonCommerce.Infrastructure
open Coroutine Domain

/-- `IUserRepository`. -/
structure IUserRepository where
  createUser : User → Prog (Except DbError Unit)
  getUserById : String → Prog (Except DbError (Option User))
  getUserByPhoneNumber : String → Prog (Except DbError (Option User))

namespace UserRepository
variable (L : Libs)

def cacheKey (id : String) : String := "user:info:" ++ id

/-- A cached text that parses to a user. -/
def decode (value : String) : Option User := (L.parse value).bind (User.fromJson L.outside)

/-- `UserRepository::GetUserById` after a miss, an error or an entry that does not parse. -/
def queryAndFill (id : String) : Prog (Except DbError (Option User)) := do
  match ← UserDao.getUserById id with
  | .error e => return .error e
  | .ok none => return .ok none
  | .ok (some user) => do
      let _ ← RedisClient.set (cacheKey id) (L.dump user.toJson) 3600
      return .ok (some user)

/-- `UserRepository::GetUserById`. -/
def getUserById (id : String) : Prog (Except DbError (Option User)) := do
  match ← RedisClient.get (cacheKey id) with
  | .ok (some value) =>
      match decode L value with
      | some user => return .ok (some user)
      | none => queryAndFill L id
  | .ok none => queryAndFill L id
  | .error _ => queryAndFill L id

end UserRepository

/-- `UserRepository`. -/
def userRepository (L : Libs) : IUserRepository where
  createUser := UserDao.createUser
  getUserById := UserRepository.getUserById L
  getUserByPhoneNumber := UserDao.getUserByPhoneNumber

/-- The DAO without a cache. -/
def userDaoRepository : IUserRepository where
  createUser := UserDao.createUser
  getUserById := UserDao.getUserById
  getUserByPhoneNumber := UserDao.getUserByPhoneNumber

/-! ## Runs -/

namespace UserRepository
variable {L : Libs} {id : String} {tr : List Ev} {out : Except String (Except DbError (Option User))}

/-- The back-fill a lookup's outcome leads to. -/
def Fills (L : Libs) (id : String) (out : Except String (Except DbError (Option User))) (tr : List Ev) : Prop :=
  match out with
  | .ok (.ok (some user)) =>
      ∃ c : Except String Unit, tr = [⟨.redisSet (cacheKey id) (L.dump user.toJson) (some 3600), c⟩]
  | _ => tr = []

theorem runs_queryAndFill (h : Runs (queryAndFill L id) tr out) :
    ∃ conn b fill, tr = UserDao.callEvents conn (.selectWhere UserDao.selectColumns .id) [id] b ++ fill ∧
      out = UserDao.selectOutcome b ∧ Fills L id out fill := by
  rcases runs_bind.mp h with ⟨v, tr₁, tr₂, rfl, hdao, hrest⟩ | ⟨e, rfl, hdao⟩
  · obtain ⟨conn, b, rfl, hb⟩ := UserDao.runs_selectUser.mp hdao
    match v, hb, hrest with
    | .error e, hb, hrest =>
        obtain ⟨rfl, rfl⟩ := hrest
        exact ⟨conn, b, [], rfl, hb, rfl⟩
    | .ok none, hb, hrest =>
        obtain ⟨rfl, rfl⟩ := hrest
        exact ⟨conn, b, [], rfl, hb, rfl⟩
    | .ok (some user), hb, hrest =>
        rcases runs_bind.mp hrest with ⟨w, tr₃, tr₄, rfl, hset, rfl, rfl⟩ | ⟨e, -, hset⟩
        · obtain ⟨c, rfl⟩ := RedisClient.runs_set hset
          exact ⟨conn, b, _, rfl, hb, c, rfl⟩
        · obtain ⟨a, tr', -, hend⟩ := runs_redisSet_bind.mp hset
          cases a <;> cases hend.2
  · obtain ⟨conn, b, rfl, hb⟩ := UserDao.runs_selectUser.mp hdao
    exact ⟨conn, b, [], by simp, hb, rfl⟩

/-- **A cached lookup.** A hit gives the decoded entry; otherwise the outcome is that of the DAO call, and a user it
found is written back. -/
theorem runs_getUserById (h : Runs (getUserById L id) tr out) :
    (∃ a value user, tr = [⟨.redisGet (cacheKey id), a⟩] ∧ answerValue a = some value ∧
      decode L value = some user ∧ out = .ok (.ok (some user))) ∨
    (∃ a conn b fill, tr = ⟨.redisGet (cacheKey id), a⟩ ::
        (UserDao.callEvents conn (.selectWhere UserDao.selectColumns .id) [id] b ++ fill) ∧
      out = UserDao.selectOutcome b ∧ Fills L id out fill) := by
  rcases runs_bind.mp h with ⟨v, tr₁, tr₂, rfl, hget, hrest⟩ | ⟨e, rfl, hget⟩
  · obtain ⟨a, rfl, hv⟩ := RedisClient.runs_get hget
    have hmiss : Runs (queryAndFill L id) tr₂ out → ∃ conn b fill,
        [(⟨.redisGet (cacheKey id), a⟩ : Ev)] ++ tr₂ = ⟨.redisGet (cacheKey id), a⟩ ::
          (UserDao.callEvents conn (.selectWhere UserDao.selectColumns .id) [id] b ++ fill) ∧
        out = UserDao.selectOutcome b ∧ Fills L id out fill := by
      intro hquery
      obtain ⟨conn, b, fill, rfl, hout, hfill⟩ := runs_queryAndFill hquery
      exact ⟨conn, b, fill, rfl, hout, hfill⟩
    match v, hv, hrest with
    | .error e, _, hrest => exact .inr ⟨a, hmiss hrest⟩
    | .ok none, _, hrest => exact .inr ⟨a, hmiss hrest⟩
    | .ok (some value), hv, hrest =>
        have hvalue : answerValue a = some value := by
          rcases hv with ⟨e, he, -⟩ | hv
          · cases he
          · exact (Except.ok.inj (Except.ok.inj hv)).symm
        cases hdec : decode L value with
        | none =>
            simp only [hdec] at hrest
            exact .inr ⟨a, hmiss hrest⟩
        | some user =>
            simp only [hdec] at hrest
            obtain ⟨rfl, rfl⟩ := hrest
            exact .inl ⟨a, value, user, rfl, hvalue, hdec, rfl⟩
  · obtain ⟨a, -, ⟨e', hv, -⟩ | hv⟩ := RedisClient.runs_get hget <;> cases hv

/-- A cached lookup awaits storage only. -/
theorem isStorage_getUserById (h : Runs (getUserById L id) tr out) : ∀ ev ∈ tr, ev.op.isStorage = true := by
  intro ev hmem
  rcases runs_getUserById h with ⟨a, value, user, rfl, -⟩ | ⟨a, conn, b, fill, rfl, -, hfill⟩
  · rw [List.mem_singleton.mp hmem]
    rfl
  · simp only [UserDao.callEvents, List.cons_append, List.nil_append, List.mem_cons] at hmem
    rcases hmem with rfl | rfl | rfl | rfl | hmem
    · rfl
    · rfl
    · rfl
    · rfl
    · unfold Fills at hfill
      split at hfill
      · obtain ⟨c, rfl⟩ := hfill
        rw [List.mem_singleton.mp hmem]
        rfl
      · rw [hfill] at hmem
        cases hmem

/-! ## Keys -/

/-- Texts that begin with different words differ. -/
theorem append_ne_append {a b : String} (hab : ¬ a.toList <+: b.toList) (hba : ¬ b.toList <+: a.toList)
    (x y : String) : a ++ x ≠ b ++ y := by
  intro h
  have hlist : a.toList ++ x.toList = b.toList ++ y.toList := by
    rw [← String.toList_append, h, String.toList_append]
  have ha : a.toList <+: b.toList ++ y.toList := hlist ▸ List.prefix_append _ _
  rcases List.prefix_or_prefix_of_prefix ha (List.prefix_append b.toList y.toList) with h' | h'
  · exact hab h'
  · exact hba h'

/-- No key of a verification code is a key of the user cache. -/
theorem codeKey_ne_cacheKey {usage : CodeUsage} {keyPrefix : String}
    (h : VerificationCodeRepository.getKeyPrefixForUsage usage = .ok keyPrefix) (target id : String) :
    keyPrefix ++ target ≠ cacheKey id := by
  cases usage with
  | other value => cases h
  | userRegister =>
      cases h
      exact append_ne_append (by decide) (by decide) _ _
  | userLogin =>
      cases h
      exact append_ne_append (by decide) (by decide) _ _
  | resetPassword =>
      cases h
      exact append_ne_append (by decide) (by decide) _ _

/-- The key of a verification code tells its usage and its target. -/
theorem codeKey_injective {usage usage' : CodeUsage} {keyPrefix keyPrefix' target target' : String}
    (h : VerificationCodeRepository.getKeyPrefixForUsage usage = .ok keyPrefix)
    (h' : VerificationCodeRepository.getKeyPrefixForUsage usage' = .ok keyPrefix')
    (heq : keyPrefix ++ target = keyPrefix' ++ target') : usage = usage' ∧ target = target' := by
  by_cases hu : usage = usage'
  · subst hu
    rw [h] at h'
    cases h'
    exact ⟨rfl, (String.append_right_inj keyPrefix).mp heq⟩
  · exfalso
    revert heq
    cases usage <;> cases usage' <;> cases h <;> cases h' <;>
      first
        | exact absurd rfl hu
        | exact append_ne_append (by decide) (by decide) _ _

/-! ## What is awaited -/

/-- The only write of a cached lookup is the back-fill of the user its DAO call found. -/
theorem always_getUserById {φ : List Ev → Op → Prop} {hist : List Ev} (hφ : OnWrites φ)
    (hfill : ∀ hist conn b user, UserDao.selectOutcome b = .ok (.ok (some user)) →
      φ (hist ++ UserDao.callEvents conn (.selectWhere UserDao.selectColumns .id) [id] b)
        (.redisSet (cacheKey id) (L.dump user.toJson) (some 3600))) :
    Always φ hist (getUserById L id) := by
  have hquery : ∀ hist, Always φ hist (queryAndFill L id) := by
    intro hist
    refine (UserDao.always_selectUser hφ).bind fun v tr hrun => ?_
    obtain ⟨conn, b, rfl, hb⟩ := UserDao.runs_selectUser.mp hrun
    match v, hb with
    | .error e, _ => exact Always.pure _
    | .ok none, _ => exact Always.pure _
    | .ok (some user), hb =>
        exact (RedisClient.always_set (hfill hist conn b user hb.symm)).bind fun v tr _ => Always.pure _
  refine (RedisClient.always_get (hφ _ _ rfl rfl)).bind fun v tr _ => ?_
  match v with
  | .error e => exact hquery _
  | .ok none => exact hquery _
  | .ok (some value) =>
      dsimp only
      cases decode L value with
      | none => exact hquery _
      | some user => exact Always.pure _

end UserRepository

end PhotonCommerce.Infrastructure
