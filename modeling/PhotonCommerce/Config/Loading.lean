import PhotonCommerce.Config.Section

/-!
# Loading the configuration

* `serverSection`, …, `jwtSection` : what the `Parse*` functions ask for and check;
* `parseServerConfig`, …, `parseJwtConfig` : what they assign;
* `AppConfig.load` : the constructor of `AppConfig`;
* `Settings` : the contents of a configuration file that pass every check;
* `AppConfig.load_eq_ok_iff` : the files that are accepted, and what they are loaded as;
* `AppConfig.load_eq_error_iff` : what is thrown for the others.
-/

namespace PhotonCommerce.Config
open FirstError

/-! ## What is loaded -/

/-- `RegisterConfig`, its texts by their bytes. -/
structure RegisterConfig where
  serviceName : Bytes
  ip : Bytes
  port : Int
  tags : List String
  checkIntervalSeconds : Int := 10
  checkTimeoutSeconds : Int := 2
  deriving DecidableEq

/-- `ServerConfig`. -/
structure ServerConfig where
  bindIp : Bytes
  port : Int
  listenThreads : Int
  workerThreads : Int
  registerInfo : RegisterConfig
  deriving DecidableEq

/-- `RpcLimitsConfig`. -/
structure RpcLimitsConfig where
  registerNum : Int
  sendCodeNum : Int
  loginPwNum : Int
  loginCodeNum : Int
  getUserInfoNum : Int
  deriving DecidableEq

/-- `ConsulConfig`. -/
structure ConsulConfig where
  ip : Bytes
  port : Int
  deriving DecidableEq

/-- `RedisConfig`. -/
structure RedisConfig where
  host : Bytes
  port : Bytes
  poolSize : Int
  deriving DecidableEq

/-- `JwtConfig`. -/
structure JwtConfig where
  secretKey : Bytes
  issuer : Bytes
  expirationSeconds : Int
  deriving DecidableEq

/-- `AppConfig`. -/
structure AppConfig where
  serverConfig : ServerConfig
  rpcLimitsConfig : RpcLimitsConfig
  consulConfig : ConsulConfig
  redisConfig : RedisConfig
  dbPoolConfig : DbPoolConfig
  jwtConfig : JwtConfig
  deriving DecidableEq

/-- The members before the first assignment; the integers among them are not read before they are assigned. -/
def AppConfig.fresh : AppConfig where
  serverConfig := ⟨[], 0, 0, 0, { serviceName := [], ip := [], port := 0, tags := [] }⟩
  rpcLimitsConfig := ⟨0, 0, 0, 0, 0⟩
  consulConfig := ⟨[], 0⟩
  redisConfig := ⟨[], [], 0⟩
  dbPoolConfig := ⟨[], 0⟩
  jwtConfig := ⟨[], [], 0⟩

/-! ## The sections -/

/-- What `ParseServerConfig` asks for and checks. -/
def serverSection : Section where
  name := "server"
  fields := [.required "server" "name" .string, .required "server" "bind_ip" .string, .required "server" "port" .int,
    .required "server" "registry_ip" .string, .required "server" "listen_threads" .int,
    .required "server" "worker_threads" .int]
  checks v := [.notEmpty (v.string "name") "Server Name", .notEmpty (v.string "bind_ip") "Server Bind IP",
    .notEmpty (v.string "registry_ip") "Server Registry IP", .port (v.int "port") "Server Port",
    ⟨decide (0 ≤ v.int "listen_threads"),
      "Config Error: Invalid listen_threads " ++ toString (v.int "listen_threads")⟩,
    ⟨decide (0 ≤ v.int "worker_threads"),
      "Config Error: Invalid worker_threads " ++ toString (v.int "worker_threads")⟩]

/-- What `ParseConsulConfig` asks for and checks. -/
def consulSection : Section where
  name := "consul"
  fields := [.required "consul" "host" .string, .required "consul" "port" .int,
    .required "consul" "check_interval" .int, .required "consul" "check_timeout" .int]
  checks v := [.notEmpty (v.string "host") "Consul Host", .port (v.int "port") "Consul Port",
    ⟨decide (0 < v.int "check_interval"), "Config Error: check_interval must be positive"⟩,
    ⟨decide (0 < v.int "check_timeout"), "Config Error: check_timeout must be positive"⟩]

/-- What `ParseRpcLimitsConfig` asks for and checks. -/
def rpcLimitsSection : Section where
  name := "rpc_limits"
  fields := [.required "rpc_limits" "register" .int, .required "rpc_limits" "send_code" .int,
    .required "rpc_limits" "login_pw" .int, .required "rpc_limits" "login_code" .int,
    .required "rpc_limits" "get_user_info" .int]
  checks v := [⟨decide (0 < v.int "register" ∧ 0 < v.int "send_code" ∧ 0 < v.int "login_pw" ∧ 0 < v.int "login_code" ∧
    0 < v.int "get_user_info"), "Config Error: All RPC limits must be positive integers"⟩]

/-- What `ParseRedisConfig` asks for and checks. -/
def redisSection : Section where
  name := "redis"
  fields := [.required "redis" "host" .string, .required "redis" "port" .int,
    ⟨"pool_size", .int, "Config Error: Missing 'redis.pool_size'. Please update config.yaml"⟩]
  checks v := [.notEmpty (v.string "host") "Redis Host", .port (v.int "port") "Redis Port",
    ⟨decide (0 < v.int "pool_size" ∧ v.int "pool_size" ≤ 1000),
      "Config Error: Invalid Redis pool_size " ++ toString (v.int "pool_size")⟩]

/-- What `ParseDbConfig` asks for and checks. -/
def dbSection : Section where
  name := "postgresql"
  fields := [.required "postgresql" "host" .string, .required "postgresql" "port" .int,
    .required "postgresql" "user" .string, .required "postgresql" "password" .string,
    .required "postgresql" "dbname" .string, .required "postgresql" "pool_size" .int]
  checks v := [.notEmpty (v.string "host") "DB Host", .notEmpty (v.string "user") "DB User",
    .notEmpty (v.string "dbname") "DB Name", .port (v.int "port") "DB Port",
    ⟨decide (0 < v.int "pool_size" ∧ v.int "pool_size" ≤ 1000),
      "Config Error: Invalid DB pool_size " ++ toString (v.int "pool_size")⟩]

/-- What `ParseJwtConfig` asks for and checks. -/
def jwtSection : Section where
  name := "jwt"
  fields := [.required "jwt" "secret_key" .string, .required "jwt" "issuer" .string,
    .required "jwt" "expiration_seconds" .int]
  checks v := [.notEmpty (v.string "secret_key") "JWT Secret Key", .notEmpty (v.string "issuer") "JWT Issuer",
    ⟨decide (0 < v.int "expiration_seconds"), "Config Error: JWT expiration_seconds must be positive"⟩]

/-! ## What is assigned -/

/-- `auto_cpu_cores`: what `std::thread::hardware_concurrency` gives, or 2 when it gives nothing. -/
def autoCpuCores (hwConc : Nat) : Int := if hwConc > 0 then hwConc else 2

/-- `AppConfig::ParseServerConfig`, on a machine of `hwConc` hardware threads. -/
def parseServerConfig (hwConc : Nat) (root : Node) (config : AppConfig) : Except Thrown AppConfig := do
  let v ← serverSection.read root
  return { config with serverConfig := {
    bindIp := v.string "bind_ip"
    port := v.int "port"
    listenThreads := if v.int "listen_threads" = 0 then autoCpuCores hwConc else v.int "listen_threads"
    workerThreads := if v.int "worker_threads" = 0 then autoCpuCores hwConc else v.int "worker_threads"
    registerInfo := { config.serverConfig.registerInfo with
      serviceName := v.string "name"
      ip := v.string "registry_ip"
      port := v.int "port"
      tags := ["v1", "stable"] } } }

/-- `AppConfig::ParseConsulConfig`. -/
def parseConsulConfig (root : Node) (config : AppConfig) : Except Thrown AppConfig := do
  let v ← consulSection.read root
  return { config with
    consulConfig := ⟨v.string "host", v.int "port"⟩
    serverConfig := { config.serverConfig with registerInfo := { config.serverConfig.registerInfo with
      checkIntervalSeconds := v.int "check_interval"
      checkTimeoutSeconds := v.int "check_timeout" } } }

/-- `AppConfig::ParseRpcLimitsConfig`. -/
def parseRpcLimitsConfig (root : Node) (config : AppConfig) : Except Thrown AppConfig := do
  let v ← rpcLimitsSection.read root
  return { config with rpcLimitsConfig := ⟨v.int "register", v.int "send_code", v.int "login_pw", v.int "login_code",
    v.int "get_user_info"⟩ }

/-- `AppConfig::ParseRedisConfig`. -/
def parseRedisConfig (root : Node) (config : AppConfig) : Except Thrown AppConfig := do
  let v ← redisSection.read root
  return { config with redisConfig := ⟨v.string "host", portText (v.int "port"), v.int "pool_size"⟩ }

/-- `AppConfig::ParseJwtConfig`. -/
def parseJwtConfig (root : Node) (config : AppConfig) : Except Thrown AppConfig := do
  let v ← jwtSection.read root
  return { config with jwtConfig := ⟨v.string "secret_key", v.string "issuer", v.int "expiration_seconds"⟩ }

/-- The `Parse*` calls of the constructor, in its order. -/
def AppConfig.parse (hwConc : Nat) (root : Node) : Except Thrown AppConfig := do
  let config ← parseServerConfig hwConc root .fresh
  let config ← parseConsulConfig root config
  let config ← parseRpcLimitsConfig root config
  let config ← parseRedisConfig root config
  let dbPoolConfig ← parseDbConfig root
  parseJwtConfig root { config with dbPoolConfig }

/-- The two `catch` clauses: what leaves the constructor. -/
def Thrown.rethrown : Thrown → String
  | .yaml => "Configuration load failed"
  | .runtime what => what

/-- The constructor of `AppConfig`, with what `YAML::LoadFile` gives or throws. -/
def AppConfig.load (hwConc : Nat) (file : Except Thrown Node) : Except String AppConfig :=
  (file >>= AppConfig.parse hwConc).mapError Thrown.rethrown

/-! ## The contents of a file -/

/-- A `server` section that passes every check. -/
structure ServerSettings where
  name : Bytes
  bindIp : Bytes
  port : Int
  registryIp : Bytes
  listenThreads : Int
  workerThreads : Int
  name_ne : name ≠ []
  bindIp_ne : bindIp ≠ []
  registryIp_ne : registryIp ≠ []
  port_range : 0 < port ∧ port ≤ 65535
  listenThreads_nonneg : 0 ≤ listenThreads
  workerThreads_nonneg : 0 ≤ workerThreads
  listenThreads_fits : FitsInt listenThreads
  workerThreads_fits : FitsInt workerThreads

/-- A `consul` section that passes every check. -/
structure ConsulSettings where
  host : Bytes
  port : Int
  checkInterval : Int
  checkTimeout : Int
  host_ne : host ≠ []
  port_range : 0 < port ∧ port ≤ 65535
  checkInterval_pos : 0 < checkInterval
  checkTimeout_pos : 0 < checkTimeout
  checkInterval_fits : FitsInt checkInterval
  checkTimeout_fits : FitsInt checkTimeout

/-- An `rpc_limits` section that passes its check. -/
structure RpcLimitsSettings where
  limits : RpcLimitsConfig
  register_pos : 0 < limits.registerNum
  sendCode_pos : 0 < limits.sendCodeNum
  loginPw_pos : 0 < limits.loginPwNum
  loginCode_pos : 0 < limits.loginCodeNum
  getUserInfo_pos : 0 < limits.getUserInfoNum
  register_fits : FitsInt limits.registerNum
  sendCode_fits : FitsInt limits.sendCodeNum
  loginPw_fits : FitsInt limits.loginPwNum
  loginCode_fits : FitsInt limits.loginCodeNum
  getUserInfo_fits : FitsInt limits.getUserInfoNum

/-- A `redis` section that passes every check. -/
structure RedisSettings where
  host : Bytes
  port : Int
  poolSize : Int
  host_ne : host ≠ []
  port_range : 0 < port ∧ port ≤ 65535
  poolSize_range : 0 < poolSize ∧ poolSize ≤ 1000

/-- A `jwt` section that passes every check. -/
structure JwtSettings where
  secretKey : Bytes
  issuer : Bytes
  expirationSeconds : Int
  secretKey_ne : secretKey ≠ []
  issuer_ne : issuer ≠ []
  expirationSeconds_pos : 0 < expirationSeconds
  expirationSeconds_fits : FitsInt expirationSeconds

/-- **The contents of a configuration file.** -/
structure Settings where
  server : ServerSettings
  consul : ConsulSettings
  rpcLimits : RpcLimitsSettings
  redis : RedisSettings
  db : DbConfig
  jwt : JwtSettings

def ServerSettings.values (s : ServerSettings) : Values :=
  [("name", .string s.name), ("bind_ip", .string s.bindIp), ("port", .int s.port), ("registry_ip", .string s.registryIp),
    ("listen_threads", .int s.listenThreads), ("worker_threads", .int s.workerThreads)]

def ConsulSettings.values (s : ConsulSettings) : Values :=
  [("host", .string s.host), ("port", .int s.port), ("check_interval", .int s.checkInterval),
    ("check_timeout", .int s.checkTimeout)]

def RpcLimitsSettings.values (s : RpcLimitsSettings) : Values :=
  [("register", .int s.limits.registerNum), ("send_code", .int s.limits.sendCodeNum),
    ("login_pw", .int s.limits.loginPwNum), ("login_code", .int s.limits.loginCodeNum),
    ("get_user_info", .int s.limits.getUserInfoNum)]

def RedisSettings.values (s : RedisSettings) : Values :=
  [("host", .string s.host), ("port", .int s.port), ("pool_size", .int s.poolSize)]

def DbConfig.values (c : DbConfig) : Values :=
  [("host", .string c.host), ("port", .int c.port), ("user", .string c.user), ("password", .string c.pwd),
    ("dbname", .string c.dbname), ("pool_size", .int c.poolSize)]

def JwtSettings.values (s : JwtSettings) : Values :=
  [("secret_key", .string s.secretKey), ("issuer", .string s.issuer), ("expiration_seconds", .int s.expirationSeconds)]

/-- The settings by section and key. -/
def Settings.entries (s : Settings) : List (String × String × Value) :=
  s.server.values.map ("server", ·) ++ s.consul.values.map ("consul", ·) ++ s.rpcLimits.values.map ("rpc_limits", ·) ++
    s.redis.values.map ("redis", ·) ++ s.db.values.map ("postgresql", ·) ++ s.jwt.values.map ("jwt", ·)

/-- The settings stand in the file, each under its section and key; what else stands there does not matter. -/
def Settings.StandIn (s : Settings) (root : Node) : Prop := ∀ entry ∈ s.entries, root.Reads entry.1 entry.2

/-- What the settings are loaded as. -/
def Settings.config (hwConc : Nat) (s : Settings) : AppConfig where
  serverConfig := {
    bindIp := s.server.bindIp
    port := s.server.port
    listenThreads := if s.server.listenThreads = 0 then autoCpuCores hwConc else s.server.listenThreads
    workerThreads := if s.server.workerThreads = 0 then autoCpuCores hwConc else s.server.workerThreads
    registerInfo := ⟨s.server.name, s.server.registryIp, s.server.port, ["v1", "stable"], s.consul.checkInterval,
      s.consul.checkTimeout⟩ }
  rpcLimitsConfig := s.rpcLimits.limits
  consulConfig := ⟨s.consul.host, s.consul.port⟩
  redisConfig := ⟨s.redis.host, portText s.redis.port, s.redis.poolSize⟩
  dbPoolConfig := ⟨s.db.connStr, s.db.poolSize⟩
  jwtConfig := ⟨s.jwt.secretKey, s.jwt.issuer, s.jwt.expirationSeconds⟩

/-! ## What the sections admit -/

/-- The values have the keys and kinds the section asks for, their integers are of `int`, and they pass its checks. -/
def Section.Admits (sec : Section) (v : Values) : Prop :=
  v.shape = sec.fields.map (fun f => (f.key, f.kind)) ∧ (∀ entry ∈ v, entry.2.Fits) ∧
    ∀ c ∈ sec.checks v, c.passes = true

theorem shape_eq_nil {v : Values} : v.shape = [] ↔ v = [] := List.map_eq_nil_iff

theorem shape_eq_cons_string {v : Values} {key : String} {rest : List (String × Kind)} :
    v.shape = (key, .string) :: rest ↔ ∃ text, ∃ v' : Values, v = (key, .string text) :: v' ∧ v'.shape = rest := by
  cases v with
  | nil => simp [Values.shape]
  | cons entry v =>
      obtain ⟨key', value⟩ := entry
      cases value <;> simp [Values.shape, Value.kind]

theorem shape_eq_cons_int {v : Values} {key : String} {rest : List (String × Kind)} :
    v.shape = (key, .int) :: rest ↔ ∃ n, ∃ v' : Values, v = (key, .int n) :: v' ∧ v'.shape = rest := by
  cases v with
  | nil => simp [Values.shape]
  | cons entry v =>
      obtain ⟨key', value⟩ := entry
      cases value <;> simp [Values.shape, Value.kind]

section Admits
variable {v : Values}

theorem admits_server : serverSection.Admits v ↔ ∃ s : ServerSettings, v = s.values := by
  simp only [Section.Admits, serverSection, Field.required, List.map_cons, List.map_nil, shape_eq_cons_string,
    shape_eq_cons_int, shape_eq_nil]
  constructor
  · intro h
    obtain ⟨⟨name, _, rfl, bindIp, _, rfl, port, _, rfl, registryIp, _, rfl, listen, _, rfl, worker, _, rfl, rfl⟩,
      hfits, hchecks⟩ := h
    simp [Value.Fits] at hfits
    simp [Check.notEmpty, Check.port, Values.string, Values.int, List.lookup] at hchecks
    obtain ⟨-, hlistenFits, hworkerFits⟩ := hfits
    obtain ⟨hname, hbind, hregistry, hport, hlisten, hworker⟩ := hchecks
    exact ⟨⟨name, bindIp, port, registryIp, listen, worker, hname, hbind, hregistry, hport, hlisten, hworker,
      hlistenFits, hworkerFits⟩, rfl⟩
  · intro h
    obtain ⟨s, rfl⟩ := h
    refine ⟨⟨_, _, rfl, _, _, rfl, _, _, rfl, _, _, rfl, _, _, rfl, _, _, rfl, rfl⟩, ?_⟩
    simp [ServerSettings.values, Check.notEmpty, Check.port, Values.string, Values.int, List.lookup, s.name_ne,
      s.bindIp_ne, s.registryIp_ne, s.port_range, s.listenThreads_nonneg, s.workerThreads_nonneg,
      Value.Fits, fitsInt_of_port s.port_range, s.listenThreads_fits, s.workerThreads_fits]

theorem admits_consul : consulSection.Admits v ↔ ∃ s : ConsulSettings, v = s.values := by
  simp only [Section.Admits, consulSection, Field.required, List.map_cons, List.map_nil, shape_eq_cons_string,
    shape_eq_cons_int, shape_eq_nil]
  constructor
  · intro h
    obtain ⟨⟨host, _, rfl, port, _, rfl, interval, _, rfl, timeout, _, rfl, rfl⟩, hfits, hchecks⟩ := h
    simp [Value.Fits] at hfits
    simp [Check.notEmpty, Check.port, Values.string, Values.int, List.lookup] at hchecks
    obtain ⟨-, hintervalFits, htimeoutFits⟩ := hfits
    obtain ⟨hhost, hport, hinterval, htimeout⟩ := hchecks
    exact ⟨⟨host, port, interval, timeout, hhost, hport, hinterval, htimeout, hintervalFits, htimeoutFits⟩, rfl⟩
  · intro h
    obtain ⟨s, rfl⟩ := h
    refine ⟨⟨_, _, rfl, _, _, rfl, _, _, rfl, _, _, rfl, rfl⟩, ?_⟩
    simp [ConsulSettings.values, Check.notEmpty, Check.port, Values.string, Values.int, List.lookup, s.host_ne,
      s.port_range, s.checkInterval_pos, s.checkTimeout_pos, Value.Fits, fitsInt_of_port s.port_range,
      s.checkInterval_fits, s.checkTimeout_fits]

theorem admits_rpcLimits : rpcLimitsSection.Admits v ↔ ∃ s : RpcLimitsSettings, v = s.values := by
  simp only [Section.Admits, rpcLimitsSection, Field.required, List.map_cons, List.map_nil, shape_eq_cons_int,
    shape_eq_nil]
  constructor
  · intro h
    obtain ⟨⟨a, _, rfl, b, _, rfl, c, _, rfl, d, _, rfl, e, _, rfl, rfl⟩, hfits, hchecks⟩ := h
    simp [Value.Fits] at hfits
    simp [Values.int, List.lookup] at hchecks
    obtain ⟨haFits, hbFits, hcFits, hdFits, heFits⟩ := hfits
    obtain ⟨ha, hb, hc, hd, he⟩ := hchecks
    exact ⟨⟨⟨a, b, c, d, e⟩, ha, hb, hc, hd, he, haFits, hbFits, hcFits, hdFits, heFits⟩, rfl⟩
  · intro h
    obtain ⟨s, rfl⟩ := h
    refine ⟨⟨_, _, rfl, _, _, rfl, _, _, rfl, _, _, rfl, _, _, rfl, rfl⟩, ?_⟩
    simp [RpcLimitsSettings.values, Values.int, List.lookup, s.register_pos, s.sendCode_pos, s.loginPw_pos,
      s.loginCode_pos, s.getUserInfo_pos, Value.Fits, s.register_fits, s.sendCode_fits, s.loginPw_fits,
      s.loginCode_fits, s.getUserInfo_fits]

theorem admits_redis : redisSection.Admits v ↔ ∃ s : RedisSettings, v = s.values := by
  simp only [Section.Admits, redisSection, Field.required, List.map_cons, List.map_nil, shape_eq_cons_string,
    shape_eq_cons_int, shape_eq_nil]
  constructor
  · intro h
    obtain ⟨⟨host, _, rfl, port, _, rfl, poolSize, _, rfl, rfl⟩, hfits, hchecks⟩ := h
    simp [Value.Fits] at hfits
    simp [Check.notEmpty, Check.port, Values.string, Values.int, List.lookup] at hchecks
    obtain ⟨hhost, hport, hsize⟩ := hchecks
    exact ⟨⟨host, port, poolSize, hhost, hport, hsize⟩, rfl⟩
  · intro h
    obtain ⟨s, rfl⟩ := h
    refine ⟨⟨_, _, rfl, _, _, rfl, _, _, rfl, rfl⟩, ?_⟩
    simp [RedisSettings.values, Check.notEmpty, Check.port, Values.string, Values.int, List.lookup, s.host_ne,
      s.port_range, s.poolSize_range, Value.Fits, fitsInt_of_port s.port_range, fitsInt_of_poolSize s.poolSize_range]

theorem admits_db : dbSection.Admits v ↔ ∃ c : DbConfig, v = c.values := by
  simp only [Section.Admits, dbSection, Field.required, List.map_cons, List.map_nil, shape_eq_cons_string,
    shape_eq_cons_int, shape_eq_nil]
  constructor
  · intro h
    obtain ⟨⟨host, _, rfl, port, _, rfl, user, _, rfl, pwd, _, rfl, dbname, _, rfl, poolSize, _, rfl, rfl⟩,
      hfits, hchecks⟩ := h
    simp [Value.Fits] at hfits
    simp [Check.notEmpty, Check.port, Values.string, Values.int, List.lookup] at hchecks
    obtain ⟨hhost, huser, hdbname, hport, hsize⟩ := hchecks
    exact ⟨⟨host, port, user, pwd, dbname, poolSize, hhost, huser, hdbname, hport, hsize⟩, rfl⟩
  · intro h
    obtain ⟨c, rfl⟩ := h
    refine ⟨⟨_, _, rfl, _, _, rfl, _, _, rfl, _, _, rfl, _, _, rfl, _, _, rfl, rfl⟩, ?_⟩
    simp [DbConfig.values, Check.notEmpty, Check.port, Values.string, Values.int, List.lookup, c.host_ne, c.user_ne,
      c.dbname_ne, c.port_range, c.poolSize_range, Value.Fits, fitsInt_of_port c.port_range,
      fitsInt_of_poolSize c.poolSize_range]

theorem admits_jwt : jwtSection.Admits v ↔ ∃ s : JwtSettings, v = s.values := by
  simp only [Section.Admits, jwtSection, Field.required, List.map_cons, List.map_nil, shape_eq_cons_string,
    shape_eq_cons_int, shape_eq_nil]
  constructor
  · intro h
    obtain ⟨⟨secret, _, rfl, issuer, _, rfl, expire, _, rfl, rfl⟩, hfits, hchecks⟩ := h
    simp [Value.Fits] at hfits
    simp [Check.notEmpty, Values.string, Values.int, List.lookup] at hchecks
    obtain ⟨hsecret, hissuer, hexpire⟩ := hchecks
    exact ⟨⟨secret, issuer, expire, hsecret, hissuer, hexpire, hfits⟩, rfl⟩
  · intro h
    obtain ⟨s, rfl⟩ := h
    refine ⟨⟨_, _, rfl, _, _, rfl, _, _, rfl, rfl⟩, ?_⟩
    simp [JwtSettings.values, Check.notEmpty, Values.string, Values.int, List.lookup, s.secretKey_ne, s.issuer_ne,
      s.expirationSeconds_pos, Value.Fits, s.expirationSeconds_fits]

end Admits

/-! ## The database section -/

/-- What `ParseDbConfig` assigns, by the values it read. -/
def dbPoolConfigOf (v : Values) : DbPoolConfig where
  connStr := ascii "postgresql://" ++ (v.string "user" ++ ascii ":" ++ v.string "password" ++ ascii "@" ++
    v.string "host" ++ ascii ":" ++ portText (v.int "port") ++ ascii "/" ++ v.string "dbname")
  poolSize := v.int "pool_size"

theorem validateNotEmpty_bind {α : Type} {value : Bytes} {fieldName : String}
    {f : PLift (value ≠ []) → Except Thrown α} {g : Except Thrown α} (h : ∀ hne, f ⟨hne⟩ = g) :
    (validateNotEmpty value fieldName >>= f) = ((Check.notEmpty value fieldName).run >>= fun _ => g) := by
  unfold validateNotEmpty Check.run Check.notEmpty
  by_cases hv : value = []
  · simp [hv, bind, Except.bind]
  · simp [hv, bind, Except.bind, h]

theorem validatePort_bind {α : Type} {port : Int} {fieldName : String}
    {f : PLift (0 < port ∧ port ≤ 65535) → Except Thrown α} {g : Except Thrown α} (h : ∀ hp, f ⟨hp⟩ = g) :
    (validatePort port fieldName >>= f) = ((Check.port port fieldName).run >>= fun _ => g) := by
  unfold validatePort Check.run Check.port
  by_cases hp : 0 < port ∧ port ≤ 65535
  · rw [dif_neg (by omega)]
    simp [hp, bind, Except.bind, h]
  · rw [dif_pos (by omega)]
    simp [hp, bind, Except.bind]

theorem validatePoolSize_bind {α : Type} {poolSize : Int}
    {f : PLift (0 < poolSize ∧ poolSize ≤ 1000) → Except Thrown α} {g : Except Thrown α} (h : ∀ hp, f ⟨hp⟩ = g) :
    (validatePoolSize poolSize >>= f) = (Check.run ⟨decide (0 < poolSize ∧ poolSize ≤ 1000),
      "Config Error: Invalid DB pool_size " ++ toString poolSize⟩ >>= fun _ => g) := by
  unfold validatePoolSize Check.run
  by_cases hp : 0 < poolSize ∧ poolSize ≤ 1000
  · rw [dif_neg (by omega)]
    simp [hp, bind, Except.bind, h]
  · rw [dif_pos (by omega)]
    simp [hp, bind, Except.bind]

theorem map_eq_bind {α β : Type} (f : α → β) (x : Except Thrown α) : x.map f = x >>= fun a => .ok (f a) := by
  cases x <;> rfl

/-- **`ParseDbConfig` goes through the steps of a section.** -/
theorem parseDbConfig_eq (root : Node) :
    parseDbConfig root = dbSection.read root >>= fun v => .ok (dbPoolConfigOf v) := by
  simp only [parseDbConfig, readDbConfig, Section.read, dbSection, List.mapM_cons, List.mapM_nil, Field.find,
    Field.required, map_eq_bind, Field.convert, Kind.as, bind_assoc, String.reduceAppend, pure_bind, bind_ok]
  refine bind_congr fun node => bind_congr fun host => bind_congr fun port => bind_congr fun user => ?_
  refine bind_congr fun pwd => bind_congr fun dbname => bind_congr fun poolSize => ?_
  refine bind_congr fun host => bind_congr fun port => bind_congr fun user => ?_
  refine bind_congr fun pwd => bind_congr fun dbname => bind_congr fun poolSize => ?_
  -- the keys and the values agree; the checks remain
  change _ = ((Check.notEmpty host "DB Host").run >>= fun _ => (Check.notEmpty user "DB User").run >>= fun _ =>
    (Check.notEmpty dbname "DB Name").run >>= fun _ => (Check.port port "DB Port").run >>= fun _ =>
    Check.run ⟨decide (0 < poolSize ∧ poolSize ≤ 1000), "Config Error: Invalid DB pool_size " ++ toString poolSize⟩ >>=
    fun _ => .ok ()) >>= fun _ => _
  simp only [bind_assoc, bind_ok]
  refine validateNotEmpty_bind fun hhost => validateNotEmpty_bind fun huser => validateNotEmpty_bind fun hdbname => ?_
  exact validatePort_bind fun hport => validatePoolSize_bind fun hsize => rfl

/-! ## The files that are accepted -/

section Accepted
variable {hwConc : Nat} {root : Node} {sec : Section}

theorem Section.read_eq_ok_iff_admits (hne : sec.fields ≠ []) {v : Values} :
    sec.read root = .ok v ↔ sec.Admits v ∧ ∀ entry ∈ v, root.Reads sec.name entry := by
  rw [Section.read_eq_ok_iff hne, Section.Admits]
  constructor
  · intro h
    obtain ⟨hshape, hreads, hchecks⟩ := h
    refine ⟨⟨hshape, fun entry hentry => ?_, hchecks⟩, hreads⟩
    obtain ⟨node, n, -, -, has⟩ := hreads entry hentry
    exact (Kind.kind_of_as has).2
  · intro h
    obtain ⟨⟨hshape, -, hchecks⟩, hreads⟩ := h
    exact ⟨hshape, hreads, hchecks⟩

/-- What a `Parse*` function assigns, by the settings of its section. -/
theorem Section.read_bind_eq_ok_iff {S α : Type} {values : S → Values} (hne : sec.fields ≠ [])
    (hadmits : ∀ v, sec.Admits v ↔ ∃ s, v = values s) (f : Values → α) {a : α} :
    (sec.read root >>= fun v => .ok (f v)) = .ok a ↔
      ∃ s, (∀ entry ∈ values s, root.Reads sec.name entry) ∧ a = f (values s) := by
  simp only [bind_eq_ok_iff, Section.read_eq_ok_iff_admits hne, hadmits, Except.ok.injEq]
  constructor
  · intro h
    obtain ⟨_, ⟨⟨s, rfl⟩, hreads⟩, rfl⟩ := h
    exact ⟨s, hreads, rfl⟩
  · intro h
    obtain ⟨s, hreads, rfl⟩ := h
    exact ⟨_, ⟨⟨s, rfl⟩, hreads⟩, rfl⟩

theorem Settings.standIn_iff {s : Settings} : s.StandIn root ↔
    (∀ entry ∈ s.server.values, root.Reads "server" entry) ∧ (∀ entry ∈ s.consul.values, root.Reads "consul" entry) ∧
    (∀ entry ∈ s.rpcLimits.values, root.Reads "rpc_limits" entry) ∧
    (∀ entry ∈ s.redis.values, root.Reads "redis" entry) ∧ (∀ entry ∈ s.db.values, root.Reads "postgresql" entry) ∧
    ∀ entry ∈ s.jwt.values, root.Reads "jwt" entry := by
  simp only [Settings.StandIn, Settings.entries, List.forall_mem_append, List.forall_mem_map, and_assoc]

/-- A `Parse*` function that fails fails with the first problem of its section. -/
theorem Section.read_bind_eq_error_iff {α : Type} (f : Values → α) {e : Thrown} :
    (sec.read root >>= fun v => .ok (f v)) = .error e ↔ (sec.problems root).head? = some e := by
  rw [bind_eq_error_iff, Section.read_eq_error_iff]
  constructor
  · intro h
    rcases h with h | ⟨_, -, h⟩
    · exact h
    · cases h
  · exact Or.inl

theorem AppConfig.parse_eq_ok_iff {c : AppConfig} :
    AppConfig.parse hwConc root = .ok c ↔ ∃ s : Settings, s.StandIn root ∧ c = s.config hwConc := by
  simp only [AppConfig.parse, bind_eq_ok_iff (c := c)]
  constructor
  · intro h
    obtain ⟨c₁, h₁, c₂, h₂, c₃, h₃, c₄, h₄, d, h₅, h₆⟩ := h
    obtain ⟨server, hserver, rfl⟩ :=
      (Section.read_bind_eq_ok_iff (List.cons_ne_nil _ _) (fun _ => admits_server) _).mp h₁
    obtain ⟨consul, hconsul, rfl⟩ :=
      (Section.read_bind_eq_ok_iff (List.cons_ne_nil _ _) (fun _ => admits_consul) _).mp h₂
    obtain ⟨limits, hlimits, rfl⟩ :=
      (Section.read_bind_eq_ok_iff (List.cons_ne_nil _ _) (fun _ => admits_rpcLimits) _).mp h₃
    obtain ⟨redis, hredis, rfl⟩ :=
      (Section.read_bind_eq_ok_iff (List.cons_ne_nil _ _) (fun _ => admits_redis) _).mp h₄
    rw [parseDbConfig_eq] at h₅
    obtain ⟨db, hdb, rfl⟩ := (Section.read_bind_eq_ok_iff (List.cons_ne_nil _ _) (fun _ => admits_db) _).mp h₅
    obtain ⟨jwt, hjwt, rfl⟩ := (Section.read_bind_eq_ok_iff (List.cons_ne_nil _ _) (fun _ => admits_jwt) _).mp h₆
    exact ⟨⟨server, consul, limits, redis, db, jwt⟩,
      Settings.standIn_iff.mpr ⟨hserver, hconsul, hlimits, hredis, hdb, hjwt⟩, rfl⟩
  · intro h
    obtain ⟨s, hstand, rfl⟩ := h
    obtain ⟨hserver, hconsul, hlimits, hredis, hdb, hjwt⟩ := Settings.standIn_iff.mp hstand
    refine ⟨_, (Section.read_bind_eq_ok_iff (List.cons_ne_nil _ _) (fun _ => admits_server) _).mpr
      ⟨s.server, hserver, rfl⟩, ?_⟩
    refine ⟨_, (Section.read_bind_eq_ok_iff (List.cons_ne_nil _ _) (fun _ => admits_consul) _).mpr
      ⟨s.consul, hconsul, rfl⟩, ?_⟩
    refine ⟨_, (Section.read_bind_eq_ok_iff (List.cons_ne_nil _ _) (fun _ => admits_rpcLimits) _).mpr
      ⟨s.rpcLimits, hlimits, rfl⟩, ?_⟩
    refine ⟨_, (Section.read_bind_eq_ok_iff (List.cons_ne_nil _ _) (fun _ => admits_redis) _).mpr
      ⟨s.redis, hredis, rfl⟩, ?_⟩
    rw [parseDbConfig_eq]
    refine ⟨_, (Section.read_bind_eq_ok_iff (List.cons_ne_nil _ _) (fun _ => admits_db) _).mpr ⟨s.db, hdb, rfl⟩, ?_⟩
    exact (Section.read_bind_eq_ok_iff (List.cons_ne_nil _ _) (fun _ => admits_jwt) _).mpr ⟨s.jwt, hjwt, rfl⟩

/-- **The files that are accepted.** A file is accepted exactly when it has, under their sections and keys, settings
that pass every check, and it is loaded as these. -/
theorem AppConfig.load_eq_ok_iff {c : AppConfig} :
    AppConfig.load hwConc (.ok root) = .ok c ↔ ∃ s : Settings, s.StandIn root ∧ c = s.config hwConc := by
  rw [← AppConfig.parse_eq_ok_iff, AppConfig.load, bind_ok]
  cases AppConfig.parse hwConc root with
  | error e => simp [Except.mapError]
  | ok c' => simp [Except.mapError]

/-! ## The files that are not -/

/-- What is wrong with a file: the problems of the first section that has any. -/
def AppConfig.problems (root : Node) : List Thrown :=
  stage (serverSection.problems root) (stage (consulSection.problems root) (stage (rpcLimitsSection.problems root)
    (stage (redisSection.problems root) (stage (dbSection.problems root) (jwtSection.problems root)))))

theorem AppConfig.parse_eq_error_iff {e : Thrown} :
    AppConfig.parse hwConc root = .error e ↔ (AppConfig.problems root).head? = some e := by
  unfold AppConfig.parse AppConfig.problems
  refine stage_bind (fun _ => Section.read_bind_eq_error_iff _) fun _ _ => ?_
  refine stage_bind (fun _ => Section.read_bind_eq_error_iff _) fun _ _ => ?_
  refine stage_bind (fun _ => Section.read_bind_eq_error_iff _) fun _ _ => ?_
  refine stage_bind (fun _ => Section.read_bind_eq_error_iff _) fun _ _ => ?_
  rw [parseDbConfig_eq]
  exact stage_bind (fun _ => Section.read_bind_eq_error_iff _) fun _ _ => Section.read_bind_eq_error_iff _

/-- **The files that are not.** What leaves the constructor is the first problem of the first section that has any,
with one text for whatever the YAML library throws. -/
theorem AppConfig.load_eq_error_iff {what : String} : AppConfig.load hwConc (.ok root) = .error what ↔
    ∃ e, (AppConfig.problems root).head? = some e ∧ e.rethrown = what := by
  simp only [← @AppConfig.parse_eq_error_iff hwConc root, AppConfig.load, bind_ok]
  cases AppConfig.parse hwConc root with
  | error e => simp [Except.mapError]
  | ok c' => simp [Except.mapError]

end Accepted

/-! ## A file for every settings -/

/-- A scalar with the text of the value. -/
def Value.node : Value → Node
  | .string text => .scalar text
  | .int n => .scalar (portText n)

def Values.node (v : Values) : Node := .map (v.map fun entry => (entry.1, entry.2.node))

/-- A file with the settings. -/
def Settings.file (s : Settings) : Node :=
  .map [("server", s.server.values.node), ("consul", s.consul.values.node), ("rpc_limits", s.rpcLimits.values.node),
    ("redis", s.redis.values.node), ("postgresql", s.db.values.node), ("jwt", s.jwt.values.node)]

theorem Value.as_node {value : Value} (h : value.Fits) : value.kind.as value.node = .ok value := by
  cases value with
  | string text => rfl
  | int n =>
      change (Node.scalar (portText n)).asInt.map Value.int = .ok (.int n)
      rw [Node.asInt_scalar (readInt_portText h)]
      rfl

theorem lookup_of_mem {xs : List (String × Node)} (h : (xs.map Prod.fst).Nodup) {key : String} {n : Node}
    (hmem : (key, n) ∈ xs) : xs.lookup key = some n := by
  induction xs with
  | nil => exact absurd hmem List.not_mem_nil
  | cons x xs ih =>
      obtain ⟨hx, hxs⟩ := List.nodup_cons.mp h
      rcases List.mem_cons.mp hmem with rfl | hmem
      · exact List.lookup_cons_self
      · have hne : key ≠ x.1 := fun heq => hx (heq ▸ List.mem_map_of_mem (f := Prod.fst) hmem)
        rw [List.lookup_cons, beq_eq_false_iff_ne.mpr hne]
        exact ih hxs hmem

theorem Values.holds_node {v : Values} (h : (v.map Prod.fst).Nodup) (hfits : ∀ entry ∈ v, entry.2.Fits) :
    ∀ entry ∈ v, v.node.Holds entry := by
  intro entry hentry
  refine ⟨entry.2.node, ?_, Value.as_node (hfits entry hentry)⟩
  refine congrArg Except.ok ?_
  have hkeys : (v.map fun entry => (entry.1, entry.2.node)).map Prod.fst = v.map Prod.fst := by
    rw [List.map_map]
    rfl
  exact lookup_of_mem (hkeys ▸ h) (List.mem_map_of_mem hentry)

theorem Settings.standIn_file (s : Settings) : s.StandIn s.file := by
  have hholds : ∀ {name : String} {v : Values} {sec : Section}, s.file.at? name = .ok (some v.node) →
      (v.map Prod.fst).Nodup → sec.Admits v → ∀ entry ∈ v, s.file.Reads name entry :=
    fun hat hkeys hadmits entry hentry =>
      (Node.reads_iff hat).mpr (Values.holds_node hkeys hadmits.2.1 entry hentry)
  refine Settings.standIn_iff.mpr ⟨?_, ?_, ?_, ?_, ?_, ?_⟩
  · exact hholds rfl (by simp [ServerSettings.values]) (admits_server.mpr ⟨s.server, rfl⟩)
  · exact hholds rfl (by simp [ConsulSettings.values]) (admits_consul.mpr ⟨s.consul, rfl⟩)
  · exact hholds rfl (by simp [RpcLimitsSettings.values]) (admits_rpcLimits.mpr ⟨s.rpcLimits, rfl⟩)
  · exact hholds rfl (by simp [RedisSettings.values]) (admits_redis.mpr ⟨s.redis, rfl⟩)
  · exact hholds rfl (by simp [DbConfig.values]) (admits_db.mpr ⟨s.db, rfl⟩)
  · exact hholds rfl (by simp [JwtSettings.values]) (admits_jwt.mpr ⟨s.jwt, rfl⟩)

/-- **Settings, written to a file, are loaded back**: every integer from the text it was printed as. -/
theorem Settings.load_file (hwConc : Nat) (s : Settings) :
    AppConfig.load hwConc (.ok s.file) = .ok (s.config hwConc) := by
  rw [AppConfig.load, bind_ok, AppConfig.parse_eq_ok_iff.mpr ⟨s, s.standIn_file, rfl⟩]
  rfl

/-- One connection, one object and one thread of each kind. -/
def Settings.small : Settings where
  server := ⟨[117], [48], 50051, [49], 1, 1, by decide, by decide, by decide, by decide, by decide, by decide,
    by decide, by decide⟩
  consul := ⟨[49], 8500, 10, 2, by decide, by decide, by decide, by decide, by decide, by decide⟩
  rpcLimits := ⟨⟨1, 1, 1, 1, 1⟩, by decide, by decide, by decide, by decide, by decide, by decide, by decide, by decide,
    by decide, by decide⟩
  redis := ⟨[114], 6379, 1, by decide, by decide, by decide⟩
  db := ⟨[112], 5433, [108], [], [101], 1, by decide, by decide, by decide, by decide, by decide⟩
  jwt := ⟨[115], [112], 86400, by decide, by decide, by decide, by decide⟩

end PhotonCommerce.Config
