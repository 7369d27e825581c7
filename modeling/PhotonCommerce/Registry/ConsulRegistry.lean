import Mathlib
import PhotonCommerce.Domain.User
import PhotonCommerce.Lib.FieldCodec
import PhotonCommerce.Lib.Transition

/-!
# `ConsulRegistry` and the services at the agent

* `RegisterConfig`, `serviceId`, `payload` : what is registered, under which id and with which JSON;
* `ConsulApi` : the serialiser and the agent's reading of a PUT;
* `State`, `register`, `deregister` : the registry beside the services it has at the agent;
* `Tracks` : what a call should leave behind; `Safe` : the calls the registry is made for;
* `tracks_iff` : in a run all calls leave that behind exactly when all of them are such calls;
* `tracks_once` : one registration and any number of attempts to take it back;
* `overwritten_stays` : what a second registration does to the first.
-/

namespace PhotonCommerce.Registry
open Domain Transition

/-! ## Registrations -/

/-- `RegisterConfig`. -/
structure RegisterConfig where
  serviceName : String
  ip : String
  port : Int32
  tags : List String
  checkIntervalSeconds : Int32 := 10
  checkTimeoutSeconds : Int32 := 2

/-- `service_name-ip-port`. -/
def serviceId (config : RegisterConfig) : String :=
  config.serviceName ++ "-" ++ config.ip ++ "-" ++ toString config.port

/-- The payload of a registration. -/
def payload (id : String) (config : RegisterConfig) : Json :=
  .object [
    ("Address", .string config.ip),
    ("Check", .object [
      ("DeregisterCriticalServiceAfter", .string "60s"),
      ("Interval", .string (toString config.checkIntervalSeconds ++ "s")),
      ("TCP", .string (config.ip ++ ":" ++ toString config.port)),
      ("Timeout", .string (toString config.checkTimeoutSeconds ++ "s"))]),
    ("ID", .string id),
    ("Name", .string config.serviceName),
    ("Port", .numberInteger config.port.toInt),
    ("Tags", .array (config.tags.map .string))]

theorem serviceId_ne_empty (config : RegisterConfig) : serviceId config ≠ "" := by
  intro h
  have hlist := congrArg String.toList h
  simp [serviceId] at hlist

/-! ## The agent -/

/-- What the agent takes a PUT for. -/
inductive Endpoint where
  | register (id : String)
  | deregister (id : String)
  | other
  deriving DecidableEq

/-- The path of `PUT /v1/agent/service/register`. -/
def registerPath : String := "/v1/agent/service/register"

/-- The path of a deregistration, up to the id. -/
def deregisterPath : String := "/v1/agent/service/deregister/"

/-- A character that stands for itself in the path of a URL. -/
def unreserved (c : Char) : Bool := c.isAlphanum || c ∈ ['-', '.', '_', '~']

/-- The JSON library and the agent's HTTP interface. -/
structure ConsulApi where
  /-- `payload.dump()`, with what it throws for text that is not UTF-8. -/
  dump : Json → Except String String
  endpoint : (path body : String) → Endpoint
  /-- A registration is of the id in its body. -/
  endpoint_register : ∀ id config body, dump (payload id config) = .ok body →
    endpoint registerPath body = .register id
  /-- An id of unreserved characters is read from a path as it stands. -/
  endpoint_deregister : ∀ id, (∀ c ∈ id.toList, unreserved c = true) →
    endpoint (deregisterPath ++ id) "" = .deregister id

section Api
variable (api : ConsulApi)

/-- A PUT the agent accepts. -/
def ConsulApi.handle (path body : String) (registered : Finset String) : Finset String :=
  match api.endpoint path body with
  | .register id => insert id registered
  | .deregister id => registered.erase id
  | .other => registered

/-- `consul_.put(path, body)`: one that fails has no effect at the agent. -/
def ConsulApi.put (answer : Except String Unit) (path body : String) (registered : Finset String) :
    Except String Unit × Finset String :=
  match answer with
  | .ok () => (.ok (), api.handle path body registered)
  | .error what => (.error what, registered)

/-! ## The registry -/

/-- `current_service_id_`, and the services of the process at the agent. -/
structure State where
  currentServiceId : String
  registered : Finset String
  deriving DecidableEq

/-- A registry that was just made. -/
def State.fresh : State := ⟨"", ∅⟩

/-- `ConsulRegistry::Register`. -/
def register (config : RegisterConfig) (answer : Except String Unit) (s : State) : Except String Unit × State :=
  -- the id is stored before anything is sent
  let s := { s with currentServiceId := serviceId config }
  match api.dump (payload s.currentServiceId config) with
  | .error what => (.error what, s)
  | .ok body =>
      let (result, registered) := api.put answer registerPath body s.registered
      (result, { s with registered })

/-- `ConsulRegistry::Deregister`. -/
def deregister (answer : Except String Unit) (s : State) : Except String Unit × State :=
  if s.currentServiceId.isEmpty then (.ok (), s)
  else
    match api.put answer (deregisterPath ++ s.currentServiceId) "" s.registered with
    | (.ok (), registered) => (.ok (), ⟨"", registered⟩)
    | (.error _, registered) => (.ok (), { s with registered })

/-- A call with the answer to its PUT. -/
inductive Call where
  | register (config : RegisterConfig) (answer : Except String Unit)
  | deregister (answer : Except String Unit)

/-- What a call returns or throws, and the state it leaves. -/
def call (s : State) : Call → Except String Unit × State
  | .register config answer => register api config answer s
  | .deregister answer => deregister api answer s

/-- The state after a call. -/
def next (s : State) (c : Call) : State := (call api s c).2

/-! ## Tracking -/

/-- The services that `current_service_id_` stands for. -/
def State.recorded (s : State) : Finset String := if s.currentServiceId = "" then ∅ else {s.currentServiceId}

/-- The registry knows exactly what is at the agent. -/
def State.Exact (s : State) : Prop := s.registered = s.recorded

/-- What a call should leave behind. -/
structure Tracks (s : State) (c : Call) : Prop where
  exact : (next api s c).Exact
  throws : ∀ what, (call api s c).1 = .error what → (next api s c).currentServiceId = s.currentServiceId
  retries : ∀ what, c = .deregister (.error what) → (next api s c).currentServiceId = s.currentServiceId
  removes : c = .deregister (.ok ()) → (next api s c).registered = ∅

/-- The registration reaches the agent. -/
def Registers (config : RegisterConfig) (answer : Except String Unit) : Prop :=
  answer = .ok () ∧ ∃ body, api.dump (payload (serviceId config) config) = .ok body

/-- The agent reads the id from the path as it stands. -/
def ReadAsIs (id : String) : Prop := api.endpoint (deregisterPath ++ id) "" = .deregister id

/-- The calls that are tracked: a registration of what is recorded, or one that reaches the agent while nothing is;
a deregistration that fails, or whose path is read as it is meant. -/
def Safe (s : State) : Call → Prop
  | .register config answer =>
      serviceId config = s.currentServiceId ∨ (s.currentServiceId = "" ∧ Registers api config answer)
  | .deregister answer => s.currentServiceId = "" ∨ answer ≠ .ok () ∨ ReadAsIs api s.currentServiceId

section
variable {api} {s : State} {config : RegisterConfig} {answer : Except String Unit} {id : String}

theorem recorded_of_empty (h : s.currentServiceId = "") : s.recorded = ∅ := if_pos h

theorem recorded_of_ne (h : s.currentServiceId ≠ "") : s.recorded = {s.currentServiceId} := if_neg h

theorem recorded_serviceId (config : RegisterConfig) (registered : Finset String) :
    State.recorded ⟨serviceId config, registered⟩ = {serviceId config} :=
  recorded_of_ne (serviceId_ne_empty config)

/-! ### What the calls do -/

/-- A registration that reaches the agent. -/
theorem register_of_registers (h : Registers api config answer) : register api config answer s =
    (.ok (), ⟨serviceId config, insert (serviceId config) s.registered⟩) := by
  obtain ⟨rfl, body, hbody⟩ := h
  simp only [register, hbody, ConsulApi.put, ConsulApi.handle, api.endpoint_register _ _ _ hbody]

/-- One that does not leaves its id behind all the same. -/
theorem register_of_not_registers (h : ¬ Registers api config answer) :
    ∃ what, register api config answer s = (.error what, ⟨serviceId config, s.registered⟩) := by
  unfold register
  cases hbody : api.dump (payload (serviceId config) config) with
  | error what => exact ⟨what, by simp only [hbody]⟩
  | ok body =>
      cases answer with
      | error what => exact ⟨what, by simp only [hbody, ConsulApi.put]⟩
      | ok u => exact absurd ⟨rfl, body, hbody⟩ h

theorem deregister_of_empty (h : s.currentServiceId = "") : deregister api answer s = (.ok (), s) := by
  rw [deregister, h]
  rfl

theorem deregister_error (what : String) : deregister api (.error what) s = (.ok (), s) := by
  unfold deregister
  split <;> rfl

theorem deregister_ok (h : s.currentServiceId ≠ "") : deregister api (.ok ()) s =
    (.ok (), ⟨"", api.handle (deregisterPath ++ s.currentServiceId) "" s.registered⟩) := by
  rw [deregister, if_neg (by simpa using h)]
  rfl

/-- The one service that is left goes exactly when the agent reads its id. -/
theorem handle_singleton_eq_empty_iff :
    api.handle (deregisterPath ++ id) "" {id} = ∅ ↔ ReadAsIs api id := by
  unfold ConsulApi.handle ReadAsIs
  cases api.endpoint (deregisterPath ++ id) "" with
  | register other => simp
  | deregister other =>
      rw [Endpoint.deregister.injEq, Finset.erase_eq_empty_iff, Finset.singleton_inj,
        or_iff_right (Finset.singleton_ne_empty id)]
      exact eq_comm
  | other => simp

/-! ### Steps -/

/-- A call that changes nothing is tracked, unless it should have removed the service. -/
theorem tracks_of_unchanged {c : Call} (hs : s.Exact) (hnext : next api s c = s)
    (hremoves : c = .deregister (.ok ()) → s.currentServiceId = "") : Tracks api s c where
  exact := by rwa [hnext]
  throws what hwhat := by rw [hnext]
  retries what hc := by rw [hnext]
  removes hc := by rw [hnext, hs, recorded_of_empty (hremoves hc)]

/-- Recording a service that was added forgets any other one. -/
theorem exact_insert_iff (hs : s.Exact) : State.Exact ⟨serviceId config, insert (serviceId config) s.registered⟩ ↔
    serviceId config = s.currentServiceId ∨ s.currentServiceId = "" := by
  rw [State.Exact, recorded_serviceId]
  show insert (serviceId config) s.registered = {serviceId config} ↔ _
  by_cases hempty : s.currentServiceId = ""
  · rw [hs, recorded_of_empty hempty]
    exact iff_of_true rfl (.inr hempty)
  · rw [hs, recorded_of_ne hempty, or_iff_left hempty]
    constructor
    · intro h
      have hmem : s.currentServiceId ∈ insert (serviceId config) {s.currentServiceId} :=
        Finset.mem_insert_of_mem (Finset.mem_singleton_self _)
      rw [h, Finset.mem_singleton] at hmem
      exact hmem.symm
    · intro h
      rw [h]
      exact Finset.insert_eq_of_mem (Finset.mem_singleton_self _)

/-- From an exact state, a registration is tracked exactly when it is safe. -/
theorem tracks_register_iff (hs : s.Exact) :
    Tracks api s (.register config answer) ↔ Safe api s (.register config answer) := by
  by_cases hsent : Registers api config answer
  · have hcall : call api s (.register config answer) =
        (.ok (), ⟨serviceId config, insert (serviceId config) s.registered⟩) := register_of_registers hsent
    have hexact : (next api s (.register config answer)).Exact ↔
        serviceId config = s.currentServiceId ∨ s.currentServiceId = "" := by
      rw [next, hcall]
      exact exact_insert_iff hs
    constructor
    · intro h
      exact (hexact.mp h.exact).imp_right fun hempty => ⟨hempty, hsent⟩
    · intro h
      refine ⟨hexact.mpr (h.imp_right And.left), fun what hwhat => ?_, nofun, nofun⟩
      rw [hcall] at hwhat
      cases hwhat
  · obtain ⟨what, hreg⟩ := register_of_not_registers (s := s) hsent
    have hcall : call api s (.register config answer) = (.error what, ⟨serviceId config, s.registered⟩) := hreg
    constructor
    · intro h
      left
      have hthrows := h.throws what (by rw [hcall])
      rwa [next, hcall] at hthrows
    · intro h
      have hsame : serviceId config = s.currentServiceId := h.resolve_right fun hnew => hsent hnew.2
      exact tracks_of_unchanged hs (by rw [next, hcall, hsame]) nofun

/-- From an exact state, a deregistration is tracked exactly when it is safe. -/
theorem tracks_deregister_iff (hs : s.Exact) :
    Tracks api s (.deregister answer) ↔ Safe api s (.deregister answer) := by
  by_cases hempty : s.currentServiceId = ""
  · have hnext : next api s (.deregister answer) = s := by rw [next, call, deregister_of_empty hempty]
    exact iff_of_true (tracks_of_unchanged hs hnext fun _ => hempty) (.inl hempty)
  · cases answer with
    | error what =>
        have hnext : next api s (.deregister (.error what)) = s := by rw [next, call, deregister_error]
        exact iff_of_true (tracks_of_unchanged hs hnext nofun) (.inr (.inl nofun))
    | ok u =>
        have hcall : call api s (.deregister (.ok ())) =
            (.ok (), ⟨"", api.handle (deregisterPath ++ s.currentServiceId) "" s.registered⟩) := deregister_ok hempty
        have hleft : (next api s (.deregister (.ok ()))).registered = ∅ ↔ ReadAsIs api s.currentServiceId := by
          rw [next, hcall, hs, recorded_of_ne hempty]
          exact handle_singleton_eq_empty_iff
        constructor
        · intro h
          exact .inr (.inr (hleft.mp (h.removes rfl)))
        · intro h
          have hread : ReadAsIs api s.currentServiceId :=
            (h.resolve_left hempty).resolve_left fun hne => hne rfl
          have hgone := hleft.mpr hread
          refine ⟨?_, fun what hwhat => ?_, nofun, fun _ => hgone⟩
          · rw [State.Exact, hgone, recorded_of_empty (by rw [next, hcall])]
          · rw [hcall] at hwhat
            cases hwhat

/-- **One call** from an exact state. -/
theorem tracks_iff_safe {c : Call} (hs : s.Exact) : Tracks api s c ↔ Safe api s c := by
  cases c with
  | register config answer => exact tracks_register_iff hs
  | deregister answer => exact tracks_deregister_iff hs

end

theorem exact_fresh : State.fresh.Exact := rfl

/-- **The registry tracks its services** in a run exactly when every call of the run is safe: whatever is registered and
whichever PUTs fail, the agent has what `current_service_id_` says after each call, a `Register` that throws and a
`Deregister` that fails leave it as it was, and a `Deregister` that succeeds leaves nothing at the agent. -/
theorem tracks_iff (calls : List Call) : (∀ p ∈ trace (next api) .fresh calls, Tracks api p.1 p.2) ↔
    ∀ p ∈ trace (next api) .fresh calls, Safe api p.1 p.2 :=
  forall_trace_iff (I := State.Exact) (P := Tracks api) (Q := Safe api) (fun _ _ hs => tracks_iff_safe hs)
    (fun _ _ _ h => h.exact) exact_fresh calls

/-! ## Runs -/

section
variable {api} {s : State} {config : RegisterConfig}

/-- A deregistration keeps the id or clears it. -/
theorem currentServiceId_deregister (answer : Except String Unit) :
    (next api s (.deregister answer)).currentServiceId = s.currentServiceId ∨
      (next api s (.deregister answer)).currentServiceId = "" := by
  cases answer with
  | error what =>
      left
      rw [next, call, deregister_error]
  | ok u =>
      right
      by_cases hempty : s.currentServiceId = ""
      · rw [next, call, deregister_of_empty hempty, hempty]
      · rw [next, call, deregister_ok hempty]

theorem safe_deregisters (h : s.currentServiceId = "" ∨ ReadAsIs api s.currentServiceId)
    (answers : List (Except String Unit)) :
    ∀ p ∈ trace (next api) s (answers.map .deregister), Safe api p.1 p.2 := by
  induction answers generalizing s with
  | nil => simp [trace]
  | cons answer answers ih =>
      rw [List.map_cons, trace, List.forall_mem_cons]
      refine ⟨h.imp_right .inr, ih ?_⟩
      rcases @currentServiceId_deregister api s answer with hkeep | hclear
      · rwa [hkeep]
      · exact .inl hclear

/-- **One registration** that reaches the agent, under an id that is safe in a URL, is tracked through any number of
attempts to take it back. -/
theorem tracks_once (hreg : Registers api config (.ok ()))
    (hplain : ∀ c ∈ (serviceId config).toList, unreserved c = true) (answers : List (Except String Unit)) :
    ∀ p ∈ trace (next api) .fresh (.register config (.ok ()) :: answers.map .deregister), Tracks api p.1 p.2 := by
  rw [tracks_iff, trace, List.forall_mem_cons]
  refine ⟨.inr ⟨rfl, hreg⟩, safe_deregisters (.inr ?_) answers⟩
  rw [next, call, register_of_registers hreg]
  exact api.endpoint_deregister _ hplain

variable {id : String}

/-- The service is at the agent, and the registry will not ask for its removal. -/
structure Lost (api : ConsulApi) (id : String) (s : State) : Prop where
  mem : id ∈ s.registered
  ne : s.currentServiceId ≠ id
  read : s.currentServiceId = "" ∨ ReadAsIs api s.currentServiceId

theorem lost_deregister (h : Lost api id s) (hid : id ≠ "") (answer : Except String Unit) :
    Lost api id (next api s (.deregister answer)) := by
  cases answer with
  | error what => rwa [next, call, deregister_error]
  | ok u =>
      by_cases hempty : s.currentServiceId = ""
      · rwa [next, call, deregister_of_empty hempty]
      · have hhandle : api.handle (deregisterPath ++ s.currentServiceId) "" s.registered =
            s.registered.erase s.currentServiceId := by
          rw [ConsulApi.handle, h.read.resolve_left hempty]
        rw [next, call, deregister_ok hempty, hhandle]
        exact ⟨Finset.mem_erase_of_ne_of_mem h.ne.symm h.mem, hid.symm, .inl rfl⟩

/-- Registering another service, whether or not the agent is reached, loses the ones that were registered before. -/
theorem lost_register (hmem : id ∈ s.registered) (hne : serviceId config ≠ id)
    (hread : ReadAsIs api (serviceId config)) (answer : Except String Unit) :
    Lost api id (next api s (.register config answer)) := by
  by_cases hsent : Registers api config answer
  · rw [next, call, register_of_registers hsent]
    exact ⟨Finset.mem_insert_of_mem hmem, hne, .inr hread⟩
  · obtain ⟨what, hreg⟩ := register_of_not_registers (s := s) hsent
    rw [next, call, hreg]
    exact ⟨hmem, hne, .inr hread⟩

/-- No number of deregistrations removes a lost service. -/
theorem mem_registered_of_lost (h : Lost api id s) (hid : id ≠ "") (answers : List (Except String Unit)) :
    id ∈ ((answers.map .deregister).foldl (next api) s).registered := by
  induction answers generalizing s with
  | nil => exact h.mem
  | cons answer answers ih => exact ih (lost_deregister h hid answer)

/-- **An overwritten service stays at the agent**: once another one is registered over it, whether or not that PUT fails,
no number of deregistrations removes it. -/
theorem overwritten_stays (hs : s.Exact) (hne : s.currentServiceId ≠ "") (hother : serviceId config ≠ s.currentServiceId)
    (hread : ReadAsIs api (serviceId config)) (answer : Except String Unit) (answers : List (Except String Unit)) :
    s.currentServiceId ∈
      ((answers.map .deregister).foldl (next api) (next api s (.register config answer))).registered := by
  have hmem : s.currentServiceId ∈ s.registered := by
    rw [hs, recorded_of_ne hne]
    exact Finset.mem_singleton_self _
  exact mem_registered_of_lost (lost_register hmem hother hread answer) hne answers

end

end Api

/-! ## The service of `config.yaml` -/

/-- The registration of the server. -/
def RegisterConfig.photon : RegisterConfig where
  serviceName := "user-service"
  ip := "172.31.30.185"
  port := 50051
  tags := ["v1", "stable"]

/-- Its payload as text. -/
def photonText : String :=
  "\x7b" ++ ("\"Address\":\"172.31.30.185\",\"Check\":\x7b\"DeregisterCriticalServiceAfter\":\"60s\"," ++
    "\"Interval\":\"10s\",\"TCP\":\"172.31.30.185:50051\",\"Timeout\":\"2s\"\x7d," ++
    "\"ID\":\"user-service-172.31.30.185-50051\",\"Name\":\"user-service\",\"Port\":50051," ++
    "\"Tags\":[\"v1\",\"stable\"]\x7d")

/-- The id in a payload. -/
def idOf (j : Json) : Option String := (j.at? "ID").bind Json.getString

def idFields (id : String) : List String := [id]

def readId : List String → Option String
  | [id] => some id
  | _ => none

theorem encode_ne_object (fields : List String) (rest : String) : FieldCodec.encode fields ≠ "\x7b" ++ rest := by
  have htext : "\x7b" ++ rest = String.ofList ('\x7b' :: rest.toList) := by
    rw [← String.ofList_toList (s := "\x7b" ++ rest), String.toList_append]
    rfl
  rw [htext]
  exact FieldCodec.encode_ne (by decide) (by decide)

/-- An agent and a serialiser that give that text, and other texts lawfully. -/
def ConsulApi.photon : ConsulApi where
  dump j :=
    match idOf j with
    | some id => .ok (FieldCodec.amendEncode idFields (serviceId .photon) photonText id)
    | none => .error "no ID"
  endpoint path body :=
    if path = registerPath then
      match FieldCodec.amendDecode readId (serviceId .photon) photonText body with
      | some id => .register id
      | none => .other
    else if deregisterPath.toList <+: path.toList then
      .deregister (String.ofList (path.toList.drop deregisterPath.toList.length))
    else .other
  endpoint_register id config body h := by
    obtain rfl : FieldCodec.amendEncode idFields (serviceId .photon) photonText id = body := Except.ok.inj h
    have htext : FieldCodec.encode (idFields id) ≠ photonText := encode_ne_object _ _
    rw [if_pos rfl, FieldCodec.amendDecode_amendEncode rfl rfl htext]
  endpoint_deregister id _ := by
    have hne : deregisterPath ++ id ≠ registerPath := by
      intro h
      have htake := congrArg (fun path => path.toList.take 19) h
      simp only [String.toList_append] at htake
      rw [List.take_append_of_le_length (by decide +kernel)] at htake
      exact absurd htake (by decide +kernel)
    rw [if_neg hne, String.toList_append, if_pos (List.prefix_append _ _), List.drop_left, String.ofList_toList]

/-- **A registration that fails** is recorded although nothing is at the agent. -/
theorem photon_not_tracked :
    call .photon .fresh (.register .photon (.error "Couldn't connect to server")) =
      (.error "Couldn't connect to server", ⟨"user-service-172.31.30.185-50051", ∅⟩) ∧
    ¬ ∀ p ∈ trace (next .photon) .fresh [.register .photon (.error "Couldn't connect to server")],
      Tracks .photon p.1 p.2 := by
  have hcall : call .photon .fresh (.register .photon (.error "Couldn't connect to server")) =
      (.error "Couldn't connect to server", ⟨"user-service-172.31.30.185-50051", ∅⟩) := rfl
  refine ⟨hcall, fun h => ?_⟩
  have htracks := h _ (List.mem_singleton_self _)
  have hkept := htracks.throws "Couldn't connect to server" (by rw [hcall])
  rw [next, hcall] at hkept
  exact absurd hkept (by decide)

end PhotonCommerce.Registry
