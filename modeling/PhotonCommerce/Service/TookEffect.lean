import PhotonCommerce.Runtime.Reference
import PhotonCommerce.Service.BasicUserService

/-!
# Which result sequences are reported as success

A statement may have any finite sequence of results before its terminating null; `FetchRawResult` keeps the first.

* `TookEffect`, `FoundNothing` : the sequences of a statement that was executed, of a lookup that found no row;
* `PassesForDone`, `PassesForAbsent` : the other sequences that the DAO reports as these;
* `reported_iff` : the reports of the DAO and of `Register` are right exactly outside of them.
-/

namespace PhotonCommerce.Infrastructure

/-- The statuses of libpq that are errors. -/
def ExecStatus.reportsError (status : ExecStatus) : Bool :=
  status = .badResponse || status = .nonfatalError || status = .fatalError

/-- There is a result, and each is `COMMAND_OK` or `TUPLES_OK`. -/
def TookEffect (results : List PGresult) : Prop := results ≠ [] ∧ ∀ res ∈ results, res.status.isOk = true

/-- There is a `TUPLES_OK` without rows, and no error. -/
def FoundNothing (results : List PGresult) : Prop :=
  (∃ res ∈ results, res.status = .tuplesOk ∧ res.rows = []) ∧ ∀ res ∈ results, res.status.reportsError = false

/-- There is no result at all, or the first is not one of the errors and some result is not a success. -/
def PassesForDone (results : List PGresult) : Prop :=
  (∀ first ∈ results.head?, first.status.isError = false) ∧ (results = [] ∨ ∃ res ∈ results, res.status.isOk = false)

/-- The first result is not one of the errors and brings no rows, and no `TUPLES_OK` is empty or some result is an
error. -/
def PassesForAbsent (results : List PGresult) : Prop :=
  (∀ first ∈ results.head?, first.status.isError = false ∧ (first.status.isOk = true → first.rows = [])) ∧
    ((∀ res ∈ results, res.status = .tuplesOk → res.rows ≠ []) ∨ ∃ res ∈ results, res.status.reportsError = true)

namespace UserDao
variable (results : List PGresult)

/-- `CreateUser` succeeds unless the first result is an error. -/
theorem createOutcome_eq_ok_iff : createOutcome (.ok results) = .ok (.ok ()) ↔
    ∀ first ∈ results.head?, first.status.isError = false := by
  rw [createOutcome, execResult, fetchRawResult_eq]
  cases results.head? with
  | none => simp [mapResultToExpected]
  | some first =>
      cases herr : first.status.isError <;> cases hok : first.status.isOk <;> simp [mapResultToExpected, herr, hok]

/-- A lookup reports no user unless the first result is an error or has rows. -/
theorem selectOutcome_eq_none_iff : selectOutcome (.ok results) = .ok (.ok none) ↔
    ∀ first ∈ results.head?, first.status.isError = false ∧ (first.status.isOk = true → first.rows = []) := by
  rw [selectOutcome, execResult, fetchRawResult_eq]
  cases results.head? with
  | none => simp [mapResultToExpected, pqNtuples]
  | some first =>
      cases herr : first.status.isError with
      | true => simp [mapResultToExpected, herr]
      | false =>
          cases hok : first.status.isOk with
          | false => simp [mapResultToExpected, herr, hok, pqNtuples]
          | true =>
              have hntuples : pqNtuples (some first) = 0 ↔ first.rows = [] := List.length_eq_zero_iff
              by_cases hrows : first.rows = []
              · simp [mapResultToExpected, herr, hok, hntuples, hrows]
              · cases hmap : mapRowToUser first 0 <;> simp [mapResultToExpected, herr, hok, hntuples, hrows, hmap]

/-- A report of `CreateUser` is right exactly when the sequence does not pass for done. -/
theorem tookEffect_of_createOutcome_iff :
    (createOutcome (.ok results) = .ok (.ok ()) → TookEffect results) ↔ ¬ PassesForDone results := by
  rw [createOutcome_eq_ok_iff, PassesForDone, not_and, TookEffect, not_or]
  simp

/-- A lookup's report of no user is right exactly when the sequence does not pass for absent. -/
theorem foundNothing_of_selectOutcome_iff :
    (selectOutcome (.ok results) = .ok (.ok none) → FoundNothing results) ↔ ¬ PassesForAbsent results := by
  rw [selectOutcome_eq_none_iff, PassesForAbsent, not_and, FoundNothing, not_or]
  simp

end UserDao

end PhotonCommerce.Infrastructure

namespace PhotonCommerce.Service
open Coroutine Domain Infrastructure

namespace BasicUserService
variable {L : Libs} {req : RegisterRequest} {results : List PGresult}

/-- A registration can have its `INSERT` answered by any results. -/
theorem exists_insert (L : Libs) (req : RegisterRequest) (results : List PGresult) : ∃ tr conn params userId,
    Runs (register L (userRepository L) req) tr
      (registration userId (UserDao.createOutcome (.ok results))) ∧
    (⟨.execParams conn (.insertInto UserDao.insertColumns) params, .ok results⟩ : Ev) ∈ tr := by
  let d : Draw := ⟨0, 0, 0, 0, ⟨List.replicate 16 0, rfl⟩⟩
  have h := @Registers.inserted L req (.ok (.blobString req.code)) 0 (.ok []) d 0 (.ok results) rfl rfl
  refine ⟨_, 0, UserDao.insertParams (newUser L req d.uuid.toString d.salt), _, runs_register.mpr h, ?_⟩
  refine List.mem_append_right _ (List.mem_append_right _ ?_)
  exact List.mem_cons_of_mem _ List.mem_cons_self

/-- **Which reports are right.** For every sequence of results: `CreateUser` and `Register` report success only for
statements that took effect, and the lookups report no user only when they found none, exactly when the sequence is not
one of those that pass for it. -/
theorem reported_iff (L : Libs) (req : RegisterRequest) (user : User) (id phoneNumber : String)
    (results : List PGresult) :
    ((∀ conn, Runs (UserDao.createUser user) (UserDao.callEvents conn (.insertInto UserDao.insertColumns)
        (UserDao.insertParams user) (.ok results)) (.ok (.ok ())) → TookEffect results) ↔ ¬ PassesForDone results) ∧
    ((∀ tr response conn params, Runs (register L (userRepository L) req) tr (.ok response) →
        (⟨.execParams conn (.insertInto UserDao.insertColumns) params, .ok results⟩ : Ev) ∈ tr →
        response.status.code = .success → TookEffect results) ↔ ¬ PassesForDone results) ∧
    ((∀ conn, Runs (UserDao.getUserById id) (UserDao.callEvents conn (.selectWhere UserDao.selectColumns .id) [id]
        (.ok results)) (.ok (.ok none)) → FoundNothing results) ↔ ¬ PassesForAbsent results) ∧
    ((∀ conn, Runs (UserDao.getUserByPhoneNumber phoneNumber) (UserDao.callEvents conn
        (.selectWhere UserDao.selectColumns .phoneNumber) [phoneNumber] (.ok results)) (.ok (.ok none)) →
        FoundNothing results) ↔ ¬ PassesForAbsent results) := by
  have hcreate : ∀ conn, Runs (UserDao.createUser user) (UserDao.callEvents conn (.insertInto UserDao.insertColumns)
      (UserDao.insertParams user) (.ok results)) (.ok (.ok ())) ↔ UserDao.createOutcome (.ok results) = .ok (.ok ()) := by
    intro conn
    rw [UserDao.runs_createUser]
    constructor
    · rintro ⟨conn', a, hev, hout⟩
      cases hev
      exact hout.symm
    · exact fun hout => ⟨conn, _, rfl, hout.symm⟩
  have hselect : ∀ key param conn, Runs (UserDao.selectUser key param) (UserDao.callEvents conn
      (.selectWhere UserDao.selectColumns key) [param] (.ok results)) (.ok (.ok none)) ↔
      UserDao.selectOutcome (.ok results) = .ok (.ok none) := by
    intro key param conn
    rw [UserDao.runs_selectUser]
    constructor
    · rintro ⟨conn', a, hev, hout⟩
      cases hev
      exact hout.symm
    · exact fun hout => ⟨conn, _, rfl, hout.symm⟩
  refine ⟨?_, ?_, ?_, ?_⟩
  · rw [← UserDao.tookEffect_of_createOutcome_iff]
    simp only [hcreate, forall_const]
  · rw [← UserDao.tookEffect_of_createOutcome_iff]
    constructor
    · intro h hout
      obtain ⟨tr, conn, params, userId, hrun, hmem⟩ := exists_insert L req results
      obtain ⟨response, hreg, hsuccess⟩ := registration_success_iff.mpr hout
      rw [hreg] at hrun
      exact h tr response conn params hrun hmem hsuccess
    · intro h tr response conn params hrun hmem hsuccess
      obtain ⟨conn', params', c, userId, heq, hout⟩ := (runs_register.mp hrun).out_of_isInsert hmem rfl
      cases heq
      exact h (registration_success_iff.mp ⟨response, hout.symm, hsuccess⟩)
  · rw [← UserDao.foundNothing_of_selectOutcome_iff]
    simp only [UserDao.getUserById, hselect, forall_const]
  · rw [← UserDao.foundNothing_of_selectOutcome_iff]
    simp only [UserDao.getUserByPhoneNumber, hselect, forall_const]

/-- The results of an `INSERT` whose commit failed after its `COMMAND_OK`. -/
def commitFailed : List PGresult :=
  [⟨.commandOk, [], "", none⟩, ⟨.fatalError, [], "could not serialize access", some "40001"⟩]

/-- An `INSERT` that failed at its commit is reported as success, by the DAO and by `Register`. -/
theorem not_reported_commitFailed :
    ¬ TookEffect commitFailed ∧
    Runs (UserDao.createUser User.alice) (UserDao.callEvents 0 (.insertInto UserDao.insertColumns)
      (UserDao.insertParams User.alice) (.ok commitFailed)) (.ok (.ok ())) ∧
    ∃ tr conn params response,
      Runs (register (Libs.reference Texts.alice) (userRepository (Libs.reference Texts.alice))
        ⟨"alice", "secret", "13800000000", "000000"⟩) tr (.ok response) ∧
      (⟨.execParams conn (.insertInto UserDao.insertColumns) params, .ok commitFailed⟩ : Ev) ∈ tr ∧
      response.status.code = .success := by
  refine ⟨?_, UserDao.runs_createUser.mpr ⟨0, _, rfl, rfl⟩, ?_⟩
  · rintro ⟨-, h⟩
    exact absurd (h _ (List.mem_cons_of_mem _ List.mem_cons_self)) (by decide)
  · obtain ⟨tr, conn, params, userId, hrun, hmem⟩ := exists_insert (Libs.reference Texts.alice)
      ⟨"alice", "secret", "13800000000", "000000"⟩ commitFailed
    exact ⟨tr, conn, params, _, hrun, hmem, rfl⟩

end BasicUserService

end PhotonCommerce.Service
