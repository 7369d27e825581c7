import Mathlib

/-!
# `PQConnection`: the results of one statement

`AsyncExecParams` sends a statement, waits until the server has answered, takes every result off the connection up to
the terminating null and maps the one it kept.

* `PGresult` : a result of libpq, with the accessors the DAO uses;
* `fetchRawResult` : the loop that keeps the first result and drops the others;
* `mapResultToExpected` : which results are errors, which are values, which become a null value.

A null `PGresult*` is `none`.
-/

namespace PhotonCommerce.Infrastructure

/-- `ExecStatusType`. -/
inductive ExecStatus where
  | emptyQuery
  | commandOk
  | tuplesOk
  | copyOut
  | copyIn
  | badResponse
  | nonfatalError
  | fatalError
  | copyBoth
  | singleTuple
  | pipelineSync
  | pipelineAborted
  | tuplesChunk
  deriving DecidableEq, Repr

/-- `PGresult`: its rows hold text values, `none` for SQL null. -/
structure PGresult where
  status : ExecStatus
  rows : List (List (Option String))
  errorMessage : String
  /-- `PQresultErrorField(res, PG_DIAG_SQLSTATE)`. -/
  sqlState : Option String
  deriving DecidableEq, Repr

/-- `DbErrorType`. -/
inductive DbErrorType where
  | networkError
  | sqlExecutionError
  deriving DecidableEq, Repr

structure DbError where
  type : DbErrorType
  pgErrorMessage : String
  sqlState : String
  deriving DecidableEq, Repr

/-- `PQntuples`, which is 0 on null. -/
def pqNtuples : Option PGresult → Nat
  | none => 0
  | some res => res.rows.length

/-- The field at a row and column. -/
def PGresult.field (res : PGresult) (row col : Nat) : Option String :=
  ((res.rows[row]?).bind fun fields => fields[col]?).join

/-- `PQgetisnull`. -/
def PGresult.getIsNull (res : PGresult) (row col : Nat) : Bool := (res.field row col).isNone

/-- `PQgetvalue`: the empty string for SQL null. -/
def PGresult.getValue (res : PGresult) (row col : Nat) : String := (res.field row col).getD ""

/-- One round of the loop of `FetchRawResult`: only the first result is kept. -/
def keepFirst (finalResult : Option PGresult) (res : PGresult) : Option PGresult :=
  match finalResult with
  | none => some res
  | some kept => some kept

/-- `PQConnection::FetchRawResult` on the results that `PQgetResult` yields before its null. -/
def fetchRawResult (results : List PGresult) : Option PGresult := results.foldl keepFirst none

/-- The statuses `MapResultToExpected` reports as errors. -/
def ExecStatus.isError (status : ExecStatus) : Bool := status = .badResponse || status = .fatalError

/-- The statuses `MapResultToExpected` passes on. -/
def ExecStatus.isOk (status : ExecStatus) : Bool := status = .tuplesOk || status = .commandOk

/-- `PQConnection::MapResultToExpected`. -/
def mapResultToExpected (result : Option PGresult) : Except DbError (Option PGresult) :=
  match result with
  | none => .ok none
  | some res =>
      if res.status.isError then .error ⟨.sqlExecutionError, res.errorMessage, res.sqlState.getD ""⟩
      else if res.status.isOk then .ok (some res)
      else .ok none

/-! ## What reaches the DAO -/

theorem foldl_keepFirst (kept : PGresult) (results : List PGresult) :
    results.foldl keepFirst (some kept) = some kept := by
  induction results with
  | nil => rfl
  | cons res results ih => rw [List.foldl_cons, keepFirst, ih]

/-- The loop keeps the first result, whatever follows it. -/
theorem fetchRawResult_eq (results : List PGresult) : fetchRawResult results = results.head? := by
  cases results with
  | nil => rfl
  | cons res results =>
      rw [fetchRawResult, List.foldl_cons]
      exact foldl_keepFirst res results

theorem ExecStatus.not_isOk_of_isError {status : ExecStatus} (h : status.isError = true) : status.isOk = false := by
  cases status <;> simp_all [ExecStatus.isError, ExecStatus.isOk]

/-- The value or error of `AsyncExecParams` on a sequence of results. -/
def execResult (results : List PGresult) : Except DbError (Option PGresult) :=
  mapResultToExpected (fetchRawResult results)

theorem execResult_singleton_ok {res : PGresult} (h : res.status.isOk = true) : execResult [res] = .ok (some res) := by
  have herr : res.status.isError = false := by
    cases herr : res.status.isError with
    | false => rfl
    | true => exact absurd h (by simp [ExecStatus.not_isOk_of_isError herr])
  rw [execResult, fetchRawResult_eq]
  simp [mapResultToExpected, herr, h]

theorem execResult_singleton_error {res : PGresult} (h : res.status.isError = true) :
    execResult [res] = .error ⟨.sqlExecutionError, res.errorMessage, res.sqlState.getD ""⟩ := by
  rw [execResult, fetchRawResult_eq]
  simp [mapResultToExpected, h]

end PhotonCommerce.Infrastructure
