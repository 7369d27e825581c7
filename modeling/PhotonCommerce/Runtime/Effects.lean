import PhotonCommerce.Lib.Coroutine
import PhotonCommerce.Domain.User
import PhotonCommerce.Persistence.PqConnection
import PhotonCommerce.Persistence.Users

/-!
# What the service awaits, and the libraries it calls

* `Op`, `Ans` : the operations whose outcome the program does not compute itself: clocks, random sources, Redis,
  PostgreSQL, the connection pool, the hand-over of an RPC to its coroutine;
* `Prog` : a coroutine of the service; what it throws is the text of `what()`; the operations as coroutines and the
  rule of each;
* `Libs` : SHA-256, the JSON text codec, JSON web tokens, with what the program relies on.
-/

namespace PhotonCommerce
open Coroutine Domain Infrastructure

/-- A node of a Redis reply, or the error its adapter reports. -/
inductive RedisReply where
  | adapterError (diagnostic : String)
  | blobString (value : String)
  | simpleString (value : String)
  | null
  | simpleError (value : String)
  | blobError (value : String)
  | other (dataType : Nat)
  deriving DecidableEq, Repr

/-- The text a reply carries. -/
def RedisReply.value? : RedisReply → Option String
  | .blobString value => some value
  | .simpleString value => some value
  | _ => none

/-- The text a `GET` brings back. -/
def answerValue : Except String RedisReply → Option String
  | .ok reply => reply.value?
  | .error _ => none

inductive Op where
  /-- `system_clock::now()`, in nanoseconds. -/
  | now
  /-- `uniform_int_distribution<int>(0, 9)`. -/
  | uniformDigit
  /-- `uniform_int_distribution<uint32_t>(0, 0xFFFFFFFF)`. -/
  | rand32
  /-- `AutoSeededRandomPool::GenerateBlock`. -/
  | generateBlock (size : Nat)
  /-- `SET key value [EX seconds]`, answered by `ignore` or by an exception. -/
  | redisSet (key value : String) (ex : Option Int)
  /-- `GET key`. -/
  | redisGet (key : String)
  /-- `AsyncConnectionPool::GetConnection`. -/
  | getConnection
  /-- `ConnectionReleaser::operator()`. -/
  | returnConnection (conn : Nat)
  /-- The results of a statement up to the terminating null, or the exception thrown before. -/
  | execParams (conn : Nat) (stmt : Statement) (params : List String)
  /-- `co_spawn` of the business logic of an RPC with its user id. -/
  | coSpawn (userId : String)
  deriving DecidableEq

/-- The answers of each operation. -/
def Ans : Op → Type
  | .now => Nat
  | .uniformDigit => Fin 10
  | .rand32 => UInt32
  | .generateBlock size => { bytes : List UInt8 // bytes.length = size }
  | .redisSet _ _ _ => Except String Unit
  | .redisGet _ => Except String RedisReply
  | .getConnection => Nat
  | .returnConnection _ => Unit
  | .execParams _ _ _ => Except String (List PGresult)
  | .coSpawn _ => Unit

/-- The digit zero. -/
def zeroDigit : Fin 10 := 0

/-- A block of zeros. -/
def zeroBlock (size : Nat) : { bytes : List UInt8 // bytes.length = size } :=
  ⟨List.replicate size 0, List.length_replicate⟩

/-- Some answer to each operation. -/
def Ans.default : (o : Op) → Ans o
  | .now => (0 : Nat)
  | .uniformDigit => zeroDigit
  | .rand32 => (0 : UInt32)
  | .generateBlock size => zeroBlock size
  | .redisSet _ _ _ => (.ok () : Except String Unit)
  | .redisGet _ => (.ok .null : Except String RedisReply)
  | .getConnection => (0 : Nat)
  | .returnConnection _ => ()
  | .execParams _ _ _ => (.ok [] : Except String (List PGresult))
  | .coSpawn _ => ()

/-- A coroutine of the service. -/
abbrev Prog (α : Type) := Co Op Ans String α

/-- The events of a run of the service. -/
abbrev Ev := Event Op Ans

def now : Prog Nat := perform Op.now

def uniformDigit : Prog (Fin 10) := perform Op.uniformDigit

def rand32 : Prog UInt32 := perform Op.rand32

def generateBlock (size : Nat) : Prog { bytes : List UInt8 // bytes.length = size } := perform (Op.generateBlock size)

def redisSet (key value : String) (ex : Option Int) : Prog (Except String Unit) := perform (Op.redisSet key value ex)

def redisGet (key : String) : Prog (Except String RedisReply) := perform (Op.redisGet key)

def getConnection : Prog Nat := perform Op.getConnection

def execParams (conn : Nat) (stmt : Statement) (params : List String) : Prog (Except String (List PGresult)) :=
  perform (Op.execParams conn stmt params)

def coSpawn (userId : String) : Prog Unit := perform (Op.coSpawn userId)

section Rules
variable {β : Type} {tr : List Ev} {out : Except String β}

@[simp] theorem runs_now_bind {f : Nat → Prog β} :
    Runs (now >>= f) tr out ↔ ∃ (t : Nat) (tr' : List Ev), tr = ⟨.now, t⟩ :: tr' ∧ Runs (f t) tr' out := Iff.rfl

@[simp] theorem runs_uniformDigit_bind {f : Fin 10 → Prog β} : Runs (uniformDigit >>= f) tr out ↔
    ∃ (d : Fin 10) (tr' : List Ev), tr = ⟨.uniformDigit, d⟩ :: tr' ∧ Runs (f d) tr' out := Iff.rfl

@[simp] theorem runs_rand32_bind {f : UInt32 → Prog β} :
    Runs (rand32 >>= f) tr out ↔ ∃ (r : UInt32) (tr' : List Ev), tr = ⟨.rand32, r⟩ :: tr' ∧ Runs (f r) tr' out :=
  Iff.rfl

@[simp] theorem runs_generateBlock_bind {size : Nat} {f : { bytes : List UInt8 // bytes.length = size } → Prog β} :
    Runs (generateBlock size >>= f) tr out ↔ ∃ (b : { bytes : List UInt8 // bytes.length = size }) (tr' : List Ev),
      tr = ⟨.generateBlock size, b⟩ :: tr' ∧ Runs (f b) tr' out := Iff.rfl

@[simp] theorem runs_redisSet_bind {key value : String} {ex : Option Int} {f : Except String Unit → Prog β} :
    Runs (redisSet key value ex >>= f) tr out ↔ ∃ (a : Except String Unit) (tr' : List Ev),
      tr = ⟨.redisSet key value ex, a⟩ :: tr' ∧ Runs (f a) tr' out := Iff.rfl

@[simp] theorem runs_redisGet_bind {key : String} {f : Except String RedisReply → Prog β} :
    Runs (redisGet key >>= f) tr out ↔ ∃ (a : Except String RedisReply) (tr' : List Ev),
      tr = ⟨.redisGet key, a⟩ :: tr' ∧ Runs (f a) tr' out := Iff.rfl

@[simp] theorem runs_getConnection_bind {f : Nat → Prog β} : Runs (getConnection >>= f) tr out ↔
    ∃ (conn : Nat) (tr' : List Ev), tr = ⟨.getConnection, conn⟩ :: tr' ∧ Runs (f conn) tr' out := Iff.rfl

@[simp] theorem runs_execParams_bind {conn : Nat} {stmt : Statement} {params : List String}
    {f : Except String (List PGresult) → Prog β} :
    Runs (execParams conn stmt params >>= f) tr out ↔ ∃ (a : Except String (List PGresult)) (tr' : List Ev),
      tr = ⟨.execParams conn stmt params, a⟩ :: tr' ∧ Runs (f a) tr' out := Iff.rfl

@[simp] theorem runs_coSpawn_bind {userId : String} {f : Unit → Prog β} : Runs (coSpawn userId >>= f) tr out ↔
    ∃ tr' : List Ev, tr = ⟨.coSpawn userId, ()⟩ :: tr' ∧ Runs (f ()) tr' out := by
  constructor
  · rintro ⟨⟨⟩, tr', rfl, h⟩
    exact ⟨tr', rfl, h⟩
  · rintro ⟨tr', rfl, h⟩
    exact ⟨(), tr', rfl, h⟩

end Rules

/-- The operations that write to Redis. -/
def Op.isRedisSet : Op → Bool
  | .redisSet .. => true
  | _ => false

/-- The operations that write to the table. -/
def Op.isInsert : Op → Bool
  | .execParams _ (.insertInto _) _ => true
  | _ => false

/-- The operations on Redis and on the database. -/
def Op.isStorage : Op → Bool
  | .redisSet .. => true
  | .redisGet _ => true
  | .getConnection => true
  | .returnConnection _ => true
  | .execParams .. => true
  | _ => false

/-- A property of awaited operations that restricts the writes only. -/
def OnWrites (φ : List Ev → Op → Prop) : Prop :=
  ∀ hist o, o.isRedisSet = false → o.isInsert = false → φ hist o

/-! ## Libraries -/

/-- The claims `GenerateToken` puts into a token, in key order. -/
def tokenPayload (issuer userId : String) (iat exp : Int) : List (String × Json) :=
  [("exp", .numberInteger exp), ("iat", .numberInteger iat), ("iss", .string issuer), ("user_id", .string userId)]

/-- The third-party functions of the program. -/
structure Libs where
  /-- `CryptoPP::SHA256`. -/
  sha256 : String → List UInt8
  sha256_length : ∀ m, (sha256 m).length = 32
  /-- `json::dump`. -/
  dump : Json → String
  /-- `json::parse` without exceptions: `none` when the value is discarded. -/
  parse : String → Option Json
  /-- `parse` inverts `dump` on what is written to the cache. -/
  parse_dump : ∀ u : User, parse (dump u.toJson) = some u.toJson
  /-- What the compiled program makes of the conversion of a float to an integer type that does not hold it. -/
  outside : Json.Outside
  /-- `jwt::create()…sign(hs256{secret})`: the token of a type and a payload. -/
  sign : (secret type : String) → List (String × Json) → String
  /-- `jwt::decode`: the payload claims, `none` when it throws. -/
  decode : String → Option (List (String × Json))
  /-- jwt-cpp decodes what it signed. -/
  decode_sign : ∀ secret type issuer userId iat exp,
    decode (sign secret type (tokenPayload issuer userId iat exp)) = some (tokenPayload issuer userId iat exp)
  /-- The algorithm of the token is HS256 and its signature verifies under the secret. -/
  signatureValid : (secret token : String) → Bool
  /-- `claim.as_date()`, `none` when it throws. -/
  asDate : Json → Option Int
  asDate_integer : ∀ n, asDate (.numberInteger n) = some (timePointOfSeconds n)
  /-- How the database server prints a `TIMESTAMPTZ`. -/
  timestamptzOut : Int → String

/-- `JwtConfig`. -/
structure JwtConfig where
  secretKey : String
  issuer : String
  expirationSeconds : Int32

end PhotonCommerce
