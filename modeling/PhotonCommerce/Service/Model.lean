import PhotonCommerce.Storage.UserRepository

/-!
# The requests and responses of the services
-/

namespace PhotonCommerce.Service
open Infrastructure

/-- `ErrorCode`. -/
inductive ErrorCode where
  | success
  | internalError
  | invalidArgument
  | unauthorized
  | userNotFound
  | userAlreadyExists
  | passwordIncorrect
  | verificationCodeExpired
  | verificationCodeMismatch
  deriving DecidableEq, Repr

/-- `static_cast<int32_t>`. -/
def ErrorCode.value : ErrorCode → Int
  | .success => 0
  | .internalError => 1000
  | .invalidArgument => 1001
  | .unauthorized => 1002
  | .userNotFound => 2001
  | .userAlreadyExists => 2002
  | .passwordIncorrect => 2003
  | .verificationCodeExpired => 3001
  | .verificationCodeMismatch => 3002

theorem ErrorCode.value_eq_zero {c : ErrorCode} : c.value = 0 ↔ c = .success := by
  cases c <;> simp [ErrorCode.value]

structure CommonStatus where
  code : ErrorCode
  message : String
  deriving DecidableEq, Repr

/-- `CommonStatus::Success`. -/
def CommonStatus.ok : CommonStatus := ⟨.success, "操作成功"⟩

structure SendCodeRequest where
  phoneNumber : String
  usage : CodeUsage
  deriving DecidableEq, Repr

structure LoginByPasswordRequest where
  userId : String
  password : String
  deriving DecidableEq, Repr

structure LoginByCodeRequest where
  phoneNumber : String
  code : String
  deriving DecidableEq, Repr

/-- `LoginResult`: token and user id default to the empty string. -/
structure LoginResult where
  status : CommonStatus
  token : String := ""
  userId : String := ""
  deriving DecidableEq, Repr

structure RegisterRequest where
  username : String
  password : String
  phoneNumber : String
  code : String
  deriving DecidableEq, Repr

structure RegisterResponse where
  status : CommonStatus
  userId : String := ""
  deriving DecidableEq, Repr

structure GetUserInfoResponse where
  status : CommonStatus
  userId : String := ""
  username : String := ""
  email : String := ""
  avatarUrl : String := ""
  phoneNumber : String := ""
  deriving DecidableEq, Repr

end PhotonCommerce.Service
