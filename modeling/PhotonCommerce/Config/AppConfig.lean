import PhotonCommerce.Config.IntText

/-!
# The database section of the configuration file

* `Node` : a `YAML::Node` with `operator[]`, `as<std::string>` and `as<int>`, which reads the text of a scalar;
* `DbConfig` : the values `ParseDbConfig` lets through, `readDbConfig` : how it reads and checks them;
* `parseDbConfig` : `AppConfig::ParseDbConfig`; `DbConfig.connStr` : the connection string it builds;
* `readDbConfig_node` : every `DbConfig` is read from some file.
-/

namespace PhotonCommerce.Config

/-- What is thrown: a `YAML::Exception` or a `std::runtime_error`. -/
inductive Thrown where
  | yaml
  | runtime (what : String)
  deriving DecidableEq

/-! ## Nodes -/

/-- A node of the configuration tree. -/
inductive Node where
  | null
  | scalar (text : Bytes)
  | sequence
  | map (entries : List (String × Node))

namespace Node

/-- `node[key]`, `none` for an undefined node. -/
def at? (node : Node) (key : String) : Except Thrown (Option Node) :=
  match node with
  | .map entries => .ok (entries.lookup key)
  | .scalar _ => .error .yaml
  | _ => .ok none

/-- `if (!node[key]) throw std::runtime_error(what);`, then `node[key]`. -/
def require (node : Node) (key what : String) : Except Thrown Node := do
  match ← node.at? key with
  | some v => .ok v
  | none => .error (.runtime what)

/-- `as<std::string>()`. -/
def asString (node : Node) : Except Thrown Bytes :=
  match node with
  | .null => .ok (ascii "null")
  | .scalar text => .ok text
  | _ => .error .yaml

/-- `as<int>()`. -/
def asInt (node : Node) : Except Thrown Int :=
  match node with
  | .scalar text =>
      match readInt text with
      | some n => .ok n
      | none => .error .yaml
  | _ => .error .yaml

theorem asInt_scalar {text : Bytes} {n : Int} (h : readInt text = some n) : (scalar text).asInt = .ok n := by
  rw [asInt, h]

theorem fitsInt_of_asInt {node : Node} {n : Int} (h : node.asInt = .ok n) : FitsInt n := by
  cases node with
  | scalar text =>
      cases hread : readInt text with
      | none => simp [asInt, hread] at h
      | some m =>
          rw [asInt_scalar hread] at h
          exact Except.ok.inj h ▸ fitsInt_of_readInt hread
  | _ => cases h

end Node

/-! ## Checks -/

/-- `AppConfig::ValidateNotEmpty`. -/
def validateNotEmpty (value : Bytes) (fieldName : String) : Except Thrown (PLift (value ≠ [])) :=
  if h : value = [] then .error (.runtime ("Config Error: '" ++ fieldName ++ "' cannot be empty")) else .ok ⟨h⟩

/-- `AppConfig::ValidatePort`. -/
def validatePort (port : Int) (fieldName : String) : Except Thrown (PLift (0 < port ∧ port ≤ 65535)) :=
  if h : port ≤ 0 ∨ 65535 < port then
    .error (.runtime ("Config Error: " ++ fieldName ++ " value '" ++ toString port ++
      "' is invalid. Must be between 1 and 65535"))
  else .ok ⟨by omega⟩

/-- The check on `pool_size` in `ParseDbConfig`. -/
def validatePoolSize (poolSize : Int) : Except Thrown (PLift (0 < poolSize ∧ poolSize ≤ 1000)) :=
  if h : poolSize ≤ 0 ∨ 1000 < poolSize then
    .error (.runtime ("Config Error: Invalid DB pool_size " ++ toString poolSize))
  else .ok ⟨by omega⟩

/-! ## The database section -/

/-- The values of the `postgresql` section that pass the checks. -/
structure DbConfig where
  host : Bytes
  port : Int
  user : Bytes
  pwd : Bytes
  dbname : Bytes
  poolSize : Int
  host_ne : host ≠ []
  user_ne : user ≠ []
  dbname_ne : dbname ≠ []
  port_range : 0 < port ∧ port ≤ 65535
  poolSize_range : 0 < poolSize ∧ poolSize ≤ 1000

/-- `DbPoolConfig`. -/
structure DbPoolConfig where
  connStr : Bytes
  poolSize : Int
  deriving DecidableEq

/-- What `ParseDbConfig` does before it assigns: every key is there, then every value is read, then checked. -/
def readDbConfig (root : Node) : Except Thrown DbConfig := do
  let dbNode ← root.require "postgresql" "Missing 'postgresql' section"
  let hostNode ← dbNode.require "host" "Config Error: Missing 'postgresql.host'"
  let portNode ← dbNode.require "port" "Config Error: Missing 'postgresql.port'"
  let userNode ← dbNode.require "user" "Config Error: Missing 'postgresql.user'"
  let pwdNode ← dbNode.require "password" "Config Error: Missing 'postgresql.password'"
  let dbnameNode ← dbNode.require "dbname" "Config Error: Missing 'postgresql.dbname'"
  let poolSizeNode ← dbNode.require "pool_size" "Config Error: Missing 'postgresql.pool_size'"
  let host ← hostNode.asString
  let port ← portNode.asInt
  let user ← userNode.asString
  let pwd ← pwdNode.asString
  let dbname ← dbnameNode.asString
  let poolSize ← poolSizeNode.asInt
  let ⟨host_ne⟩ ← validateNotEmpty host "DB Host"
  let ⟨user_ne⟩ ← validateNotEmpty user "DB User"
  let ⟨dbname_ne⟩ ← validateNotEmpty dbname "DB Name"
  let ⟨port_range⟩ ← validatePort port "DB Port"
  let ⟨poolSize_range⟩ ← validatePoolSize poolSize
  return { host, port, user, pwd, dbname, poolSize, host_ne, user_ne, dbname_ne, port_range, poolSize_range }

/-- `fmt::format("postgresql://{}:{}@{}:{}/{}", user, pwd, host, port, dbname)`. -/
def DbConfig.connStr (c : DbConfig) : Bytes :=
  ascii "postgresql://" ++ (c.user ++ ascii ":" ++ c.pwd ++ ascii "@" ++ c.host ++ ascii ":" ++ portText c.port ++
    ascii "/" ++ c.dbname)

/-- `AppConfig::ParseDbConfig`: what it leaves in `db_pool_config_`. -/
def parseDbConfig (root : Node) : Except Thrown DbPoolConfig := do
  let c ← readDbConfig root
  return { connStr := c.connStr, poolSize := c.poolSize }

/-- A file with the given values. -/
def DbConfig.node (c : DbConfig) : Node :=
  .map [("postgresql", .map [
    ("host", .scalar c.host), ("port", .scalar (portText c.port)), ("user", .scalar c.user),
    ("password", .scalar c.pwd), ("dbname", .scalar c.dbname), ("pool_size", .scalar (portText c.poolSize))])]

@[simp] theorem bind_ok {α β : Type} (a : α) (f : α → Except Thrown β) : (Except.ok a >>= f) = f a := rfl

theorem validateNotEmpty_ok {value : Bytes} (h : value ≠ []) (fieldName : String) :
    validateNotEmpty value fieldName = .ok ⟨h⟩ := dif_neg h

theorem validatePort_ok {port : Int} (h : 0 < port ∧ port ≤ 65535) (fieldName : String) :
    validatePort port fieldName = .ok ⟨h⟩ := dif_neg (by omega)

theorem validatePoolSize_ok {poolSize : Int} (h : 0 < poolSize ∧ poolSize ≤ 1000) :
    validatePoolSize poolSize = .ok ⟨h⟩ := dif_neg (by omega)

theorem fitsInt_of_port {port : Int} (h : 0 < port ∧ port ≤ 65535) : FitsInt port := ⟨by omega, by omega⟩

theorem fitsInt_of_poolSize {poolSize : Int} (h : 0 < poolSize ∧ poolSize ≤ 1000) : FitsInt poolSize :=
  ⟨by omega, by omega⟩

/-- Any user, password, host and database name and any port in range can stand in the file. -/
theorem readDbConfig_node (c : DbConfig) : readDbConfig c.node = .ok c := by
  have hport : (Node.scalar (portText c.port)).asInt = .ok c.port :=
    Node.asInt_scalar (readInt_portText (fitsInt_of_port c.port_range))
  have hpoolSize : (Node.scalar (portText c.poolSize)).asInt = .ok c.poolSize :=
    Node.asInt_scalar (readInt_portText (fitsInt_of_poolSize c.poolSize_range))
  unfold readDbConfig DbConfig.node
  simp only [bind_ok, Node.require, Node.at?, List.lookup, String.reduceBEq, Node.asString, hport, hpoolSize,
    validateNotEmpty_ok c.host_ne, validateNotEmpty_ok c.user_ne, validateNotEmpty_ok c.dbname_ne,
    validatePort_ok c.port_range, validatePoolSize_ok c.poolSize_range]
  rfl

end PhotonCommerce.Config
