import PhotonCommerce.Lib.FirstError
import PhotonCommerce.Registry.ConsulRegistry

/-!
# `ConsulRegistry::Discover`

* `index` : `j[key]` of a constant value, which is undefined for a key that an object does not have; `getInt` :
  `get<int>()`, which is undefined for a float that `int` does not hold;
* `readInstance`, `discover` : one entry of the agent's answer, and the loop over all of them in its `try` block;
* `Describes`, `UndefinedEntry` : the entries that are read, and those whose reading is undefined;
* `discover_spec` : what is returned, for every answer of the agent;
* `discover_registered` : the services that `Register` has sent are found as they were registered.
-/

namespace PhotonCommerce.Registry
open Domain FirstError

/-! ## Reading one entry -/

/-- `ServiceInstance`; `port` is an `int`. -/
structure ServiceInstance where
  id : String
  ip : String
  port : Int
  metadata : List (String × String)
  tags : List String
  deriving DecidableEq, Repr

/-- `ServiceInstance::GetAddress`. -/
def ServiceInstance.getAddress (inst : ServiceInstance) : String :=
  inst.ip ++ ":" ++ toString inst.port

/-- How a step of the loop can go wrong. -/
inductive Fault where
  /-- A `std::exception`, which `Discover` catches. -/
  | thrown
  /-- `operator[]` of a constant object for a key that it does not have, or the conversion of a float to an `int` that
  does not hold it. -/
  | undefined
  deriving DecidableEq, Repr

/-- `j[key]`; it throws for a value that is no object. -/
def index (j : Json) (key : String) : Except Fault Json :=
  match j with
  | .object members =>
      match members.lookup key with
      | some v => .ok v
      | none => .error .undefined
  | _ => .error .thrown

/-- `get<T>()` throws for a value of another type. -/
def orThrow {α : Type} : Option α → Except Fault α
  | some v => .ok v
  | none => .error .thrown

/-- `get<int>()`. -/
def getInt (j : Json) : Except Fault Int :=
  match j.convert 32 with
  | .value n => .ok n
  | .throws => .error .thrown
  | .undefined => .error .undefined

/-- `get<std::vector<std::string>>()`. -/
def getStrings : Json → Option (List String)
  | .array elements => elements.mapM Json.getString
  | _ => none

/-- `get<std::map<std::string, std::string>>()`. -/
def getStringMap : Json → Option (List (String × String))
  | .object members => members.mapM fun m => m.2.getString.map fun v => (m.1, v)
  | _ => none

/-- `if (s.contains(key) && !s[key].is_null()) field = s[key].get<T>();` for a field that is empty otherwise. -/
def optionalField {β : Type} (s : Json) (key : String) (read : Json → Option (List β)) : Option (List β) :=
  match s.at? key with
  | none => some []
  | some .null => some []
  | some v => read v

/-- The body of the loop of `Discover`. -/
def readInstance (item : Json) : Except Fault ServiceInstance := do
  let s ← index item "Service"
  let id ← orThrow (← index s "ID").getString
  let ip ← orThrow (← index s "Address").getString
  let port ← getInt (← index s "Port")
  let tags ← orThrow (optionalField s "Tags" getStrings)
  let metadata ← orThrow (optionalField s "Meta" getStringMap)
  return { id, ip, port, metadata, tags }

/-! ## The loop -/

/-- What `for (const auto& item : j)` goes over: a value that is neither null nor a container is its own only item. -/
def items : Json → List Json
  | .null => []
  | .array elements => elements
  | .object members => members.map Prod.snd
  | j => [j]

/-- The loop of `Discover`, whose `try` block is left by the first exception with what was found so far. -/
def discoverLoop : List Json → List ServiceInstance → Except Fault (List ServiceInstance)
  | [], instances => .ok instances
  | item :: rest, instances =>
      match readInstance item with
      | .ok inst => discoverLoop rest (instances ++ [inst])
      | .error .thrown => .ok instances
      | .error .undefined => .error .undefined

/-- The path of a query for the healthy instances of a service. -/
def healthPath (serviceName : String) : String := "/v1/health/service/" ++ serviceName ++ "?passing=true"

section Discover
variable (get : String → Except String String) (parse : String → Option Json) (serviceName : String)

/-- `ConsulRegistry::Discover`, with `consul_.get` and `json::parse`. -/
def discover : Except Fault (List ServiceInstance) :=
  match get (healthPath serviceName) with
  | .error _ => .ok []
  | .ok responseBody =>
      if responseBody.isEmpty then .ok []
      else
        match parse responseBody with
        | none => .ok []
        | some j => discoverLoop (items j) []

/-- The entries of the answer: none when there is no answer, or no JSON in it. -/
def answered : List Json :=
  match get (healthPath serviceName) with
  | .error _ => []
  | .ok responseBody => if responseBody.isEmpty then [] else ((parse responseBody).map items).getD []

theorem discover_eq : discover get parse serviceName = discoverLoop (answered get parse serviceName) [] := by
  unfold discover answered
  cases get (healthPath serviceName) with
  | error what => rfl
  | ok responseBody =>
      dsimp only
      split_ifs
      · rfl
      · cases parse responseBody <;> rfl

end Discover

/-! ## What is read -/

/-- The `Service` object of an entry describes an instance. -/
structure Describes (s : Json) (inst : ServiceInstance) : Prop where
  id : (s.at? "ID").bind Json.getString = some inst.id
  ip : (s.at? "Address").bind Json.getString = some inst.ip
  port : (s.at? "Port").map (Json.convert 32) = some (.value inst.port)
  tags : optionalField s "Tags" getStrings = some inst.tags
  metadata : optionalField s "Meta" getStringMap = some inst.metadata

/-- An object without a key. -/
def Lacks (j : Json) (key : String) : Prop := ∃ members, j = .object members ∧ members.lookup key = none

/-- A `Service` object lacks a key that is looked up in it, or its port is a float that `int` does not hold: what comes
before is read well. -/
inductive UndefinedField (s : Json) : Prop where
  | id (h : Lacks s "ID")
  | ip (id : String) (hid : (s.at? "ID").bind Json.getString = some id) (h : Lacks s "Address")
  | port (id ip : String) (hid : (s.at? "ID").bind Json.getString = some id)
      (hip : (s.at? "Address").bind Json.getString = some ip) (h : Lacks s "Port")
  | overflow (id ip : String) (hid : (s.at? "ID").bind Json.getString = some id)
      (hip : (s.at? "Address").bind Json.getString = some ip)
      (h : (s.at? "Port").map (Json.convert 32) = some .undefined)

/-- An entry whose reading is undefined. -/
def UndefinedEntry (item : Json) : Prop := Lacks item "Service" ∨ ∃ s, item.at? "Service" = some s ∧ UndefinedField s

section Reading
variable {item j s : Json} {key : String}

theorem index_eq_ok_iff {v : Json} : index j key = .ok v ↔ j.at? key = some v := by
  cases j with
  | object members =>
      simp only [index, Json.at?]
      cases members.lookup key <;> simp
  | _ => simp [index, Json.at?]

theorem index_eq_undefined_iff : index j key = .error .undefined ↔ Lacks j key := by
  cases j with
  | object members =>
      simp only [index, Lacks, Json.object.injEq, exists_eq_left']
      cases members.lookup key <;> simp
  | _ => simp [index, Lacks]

theorem orThrow_eq_ok_iff {α : Type} {o : Option α} {v : α} : orThrow o = .ok v ↔ o = some v := by
  cases o <;> simp [orThrow]

theorem orThrow_ne_undefined {α : Type} (o : Option α) : orThrow o ≠ .error .undefined := by
  cases o <;> simp [orThrow]

theorem getInt_eq_ok_iff {n : Int} : getInt j = .ok n ↔ j.convert 32 = .value n := by
  unfold getInt
  cases j.convert 32 <;> simp

theorem getInt_eq_undefined_iff : getInt j = .error .undefined ↔ j.convert 32 = .undefined := by
  unfold getInt
  cases j.convert 32 <;> simp

theorem readInstance_eq_ok_iff {inst : ServiceInstance} :
    readInstance item = .ok inst ↔ ∃ s, item.at? "Service" = some s ∧ Describes s inst := by
  simp only [readInstance, bind_eq_ok_iff, index_eq_ok_iff, orThrow_eq_ok_iff, getInt_eq_ok_iff]
  constructor
  · intro h
    obtain ⟨s, hs, v₁, hv₁, id, hid, v₂, hv₂, ip, hip, v₃, hv₃, port, hport, tags, htags, metadata, hmeta, hend⟩ := h
    obtain rfl := Except.ok.inj hend
    exact ⟨s, hs, by rw [hv₁]; exact hid, by rw [hv₂]; exact hip, by rw [hv₃, Option.map_some, hport], htags, hmeta⟩
  · intro h
    obtain ⟨s, hs, hid, hip, hport, htags, hmeta⟩ := h
    obtain ⟨v₁, hv₁, hid⟩ := Option.bind_eq_some_iff.mp hid
    obtain ⟨v₂, hv₂, hip⟩ := Option.bind_eq_some_iff.mp hip
    obtain ⟨v₃, hv₃, hport⟩ := Option.map_eq_some_iff.mp hport
    exact ⟨s, hs, v₁, hv₁, _, hid, v₂, hv₂, _, hip, v₃, hv₃, _, hport, _, htags, _, hmeta, rfl⟩

theorem readInstance_eq_undefined_iff : readInstance item = .error .undefined ↔ UndefinedEntry item := by
  simp only [readInstance, bind_eq_error_iff, index_eq_ok_iff, orThrow_eq_ok_iff, index_eq_undefined_iff,
    getInt_eq_ok_iff, getInt_eq_undefined_iff, orThrow_ne_undefined, false_or]
  constructor
  · intro h
    rcases h with h | ⟨s, hs, h | ⟨v₁, hv₁, id, hid, h | ⟨v₂, hv₂, ip, hip, h | ⟨v₃, hv₃, h | ⟨port, hport, tags, htags,
      metadata, hmeta, hend⟩⟩⟩⟩⟩
    · exact .inl h
    · exact .inr ⟨s, hs, .id h⟩
    · exact .inr ⟨s, hs, .ip id (by rw [hv₁]; exact hid) h⟩
    · exact .inr ⟨s, hs, .port id ip (by rw [hv₁]; exact hid) (by rw [hv₂]; exact hip) h⟩
    · refine .inr ⟨s, hs, .overflow id ip (by rw [hv₁]; exact hid) (by rw [hv₂]; exact hip) ?_⟩
      rw [hv₃, Option.map_some, h]
    · cases hend
  · intro h
    rcases h with h | ⟨s, hs, h⟩
    · exact .inl h
    · refine .inr ⟨s, hs, ?_⟩
      cases h with
      | id h => exact .inl h
      | ip id hid h =>
          obtain ⟨v₁, hv₁, hid⟩ := Option.bind_eq_some_iff.mp hid
          exact .inr ⟨v₁, hv₁, id, hid, .inl h⟩
      | port id ip hid hip h =>
          obtain ⟨v₁, hv₁, hid⟩ := Option.bind_eq_some_iff.mp hid
          obtain ⟨v₂, hv₂, hip⟩ := Option.bind_eq_some_iff.mp hip
          exact .inr ⟨v₁, hv₁, id, hid, .inr ⟨v₂, hv₂, ip, hip, .inl h⟩⟩
      | overflow id ip hid hip h =>
          obtain ⟨v₁, hv₁, hid⟩ := Option.bind_eq_some_iff.mp hid
          obtain ⟨v₂, hv₂, hip⟩ := Option.bind_eq_some_iff.mp hip
          obtain ⟨v₃, hv₃, h⟩ := Option.map_eq_some_iff.mp h
          exact .inr ⟨v₁, hv₁, id, hid, .inr ⟨v₂, hv₂, ip, hip, .inr ⟨v₃, hv₃, .inl h⟩⟩⟩

/-- The loop returns what it has collected, unless it stopped at an entry whose reading is undefined. -/
theorem discoverLoop_eq (js : List Json) (instances : List ServiceInstance) : discoverLoop js instances =
    if (collect readInstance js).2 = some .undefined then .error .undefined
    else .ok (instances ++ (collect readInstance js).1) := by
  induction js generalizing instances with
  | nil => simp [discoverLoop, collect]
  | cons item rest ih =>
      cases hitem : readInstance item with
      | ok inst => simp [discoverLoop, collect, hitem, ih]
      | error fault => cases fault <;> simp [discoverLoop, collect, hitem]

end Reading

section Discover
variable {get : String → Except String String} {parse : String → Option Json} {serviceName : String}

/-- An entry describes an instance. -/
def Entry (item : Json) (inst : ServiceInstance) : Prop :=
  ∃ s, item.at? "Service" = some s ∧ Describes s inst

theorem readInstance_eq_thrown_iff {item : Json} : readInstance item = .error .thrown ↔
    ¬ UndefinedEntry item ∧ ∀ inst, ¬ Entry item inst := by
  have hentry : ∀ inst, Entry item inst ↔ readInstance item = .ok inst :=
    fun _ => readInstance_eq_ok_iff.symm
  simp only [hentry, ← readInstance_eq_undefined_iff]
  cases hitem : readInstance item with
  | ok inst => simp
  | error fault => cases fault <;> simp

/-- What the loop collects. -/
theorem collect_readInstance {js : List Json} {found : List ServiceInstance} {stop : Option Fault} :
    collect readInstance js = (found, stop) ↔
      ∃ l r, js = l ++ r ∧ List.Forall₂ Entry l found ∧ Unread readInstance stop r := by
  have hentry : (fun item inst => readInstance item = .ok inst) = Entry := by
    funext item inst
    exact propext readInstance_eq_ok_iff
  rw [collect_eq_iff, hentry]

theorem discover_eq_ok_iff {instances : List ServiceInstance} : discover get parse serviceName = .ok instances ↔
    ∃ l r, answered get parse serviceName = l ++ r ∧ List.Forall₂ Entry l instances ∧
      (r = [] ∨ ∃ item r', r = item :: r' ∧ ¬ UndefinedEntry item ∧ ∀ inst, ¬ Entry item inst) := by
  rw [discover_eq, discoverLoop_eq, List.nil_append]
  obtain ⟨⟨found, stop⟩, hcollect⟩ : ∃ p, collect readInstance (answered get parse serviceName) = p := ⟨_, rfl⟩
  rw [hcollect]
  constructor
  · intro h
    obtain ⟨l, r, hsplit, hl, hr⟩ := collect_readInstance.mp hcollect
    match stop, hr, h with
    | none, hr, h =>
        obtain rfl : found = instances := by simpa using h
        exact ⟨l, r, hsplit, hl, .inl hr⟩
    | some .thrown, hr, h =>
        obtain rfl : found = instances := by simpa using h
        obtain ⟨item, r', hr, hitem⟩ := hr
        exact ⟨l, r, hsplit, hl, .inr ⟨item, r', hr, readInstance_eq_thrown_iff.mp hitem⟩⟩
    | some .undefined, hr, h => simp at h
  · intro h
    obtain ⟨l, r, hsplit, hl, hr⟩ := h
    rcases hr with hr | ⟨item, r', hr, hitem⟩
    · have hnone : collect readInstance (answered get parse serviceName) = (instances, none) :=
        collect_readInstance.mpr ⟨l, r, hsplit, hl, hr⟩
      obtain ⟨rfl, rfl⟩ := Prod.mk.inj (hcollect.symm.trans hnone)
      simp
    · have hsome : collect readInstance (answered get parse serviceName) = (instances, some .thrown) :=
        collect_readInstance.mpr ⟨l, r, hsplit, hl, item, r', hr, readInstance_eq_thrown_iff.mpr hitem⟩
      obtain ⟨rfl, rfl⟩ := Prod.mk.inj (hcollect.symm.trans hsome)
      simp

theorem discover_eq_undefined_iff : discover get parse serviceName = .error .undefined ↔
    ∃ l found item r, answered get parse serviceName = l ++ item :: r ∧ List.Forall₂ Entry l found ∧
      UndefinedEntry item := by
  rw [discover_eq, discoverLoop_eq]
  obtain ⟨⟨found, stop⟩, hcollect⟩ : ∃ p, collect readInstance (answered get parse serviceName) = p := ⟨_, rfl⟩
  rw [hcollect]
  constructor
  · intro h
    obtain rfl : stop = some .undefined := by
      by_contra hne
      simp [hne] at h
    obtain ⟨l, r, hsplit, hl, item, r', rfl, hitem⟩ := collect_readInstance.mp hcollect
    exact ⟨l, found, item, r', hsplit, hl, readInstance_eq_undefined_iff.mp hitem⟩
  · intro h
    obtain ⟨l, found', item, r, hsplit, hl, hitem⟩ := h
    have hsome : collect readInstance (answered get parse serviceName) = (found', some .undefined) :=
      collect_readInstance.mpr ⟨l, _, hsplit, hl, item, r, rfl, readInstance_eq_undefined_iff.mpr hitem⟩
    obtain ⟨-, rfl⟩ := Prod.mk.inj (hcollect.symm.trans hsome)
    simp

theorem discover_ne_thrown : discover get parse serviceName ≠ .error .thrown := by
  rw [discover_eq, discoverLoop_eq]
  split_ifs <;> simp

/-- **What `Discover` does**, for every answer of the agent. It never throws. It returns the instances of the entries
before the first one that does not describe an instance, whose exception is swallowed with the entries after it; only
an entry that lacks a key that is looked up in it without a check, or whose port is a float that `int` does not hold,
makes it undefined. -/
theorem discover_spec :
    (∀ instances, discover get parse serviceName = .ok instances ↔
      ∃ l r, answered get parse serviceName = l ++ r ∧ List.Forall₂ Entry l instances ∧
        (r = [] ∨ ∃ item r', r = item :: r' ∧ ¬ UndefinedEntry item ∧ ∀ inst, ¬ Entry item inst)) ∧
    (discover get parse serviceName = .error .undefined ↔
      ∃ l found item r, answered get parse serviceName = l ++ item :: r ∧ List.Forall₂ Entry l found ∧
        UndefinedEntry item) ∧
    discover get parse serviceName ≠ .error .thrown :=
  ⟨fun _ => discover_eq_ok_iff, discover_eq_undefined_iff, discover_ne_thrown⟩

/-! ## Registered and found -/

/-- The agent shows a registration: its `Service` has the members of the payload, and no metadata, since the payload
has none. -/
structure Shows (item payload : Json) (s : Json) : Prop where
  service : item.at? "Service" = some s
  id : s.at? "ID" = payload.at? "ID"
  ip : s.at? "Address" = payload.at? "Address"
  port : s.at? "Port" = payload.at? "Port"
  tags : s.at? "Tags" = payload.at? "Tags"
  metadata : s.at? "Meta" = none ∨ s.at? "Meta" = some .null ∨ s.at? "Meta" = some (.object [])

/-- What is found of a registration. -/
def RegisterConfig.found (config : RegisterConfig) : ServiceInstance :=
  ⟨serviceId config, config.ip, config.port.toInt, [], config.tags⟩

theorem getStrings_tags (tags : List String) : getStrings (.array (tags.map .string)) = some tags := by
  rw [getStrings, List.mapM_map]
  induction tags with
  | nil => rfl
  | cons tag tags ih =>
      rw [List.mapM_cons, ih]
      rfl

theorem entry_of_shows {item s : Json} {config : RegisterConfig}
    (h : Shows item (payload (serviceId config) config) s) : Entry item config.found := by
  refine ⟨s, h.service, ?_, ?_, ?_, ?_, ?_⟩
  · rw [h.id]
    rfl
  · rw [h.ip]
    rfl
  · have hlo := Int32.le_toInt config.port
    have hhi := Int32.toInt_lt config.port
    rw [h.port]
    exact congrArg (fun n => some (Json.Conversion.value n)) (Int.bmod_eq_of_le (by omega) (by omega))
  · rw [optionalField, h.tags]
    exact getStrings_tags config.tags
  · rcases h.metadata with hmeta | hmeta | hmeta
    · rw [optionalField, hmeta]
      rfl
    · rw [optionalField, hmeta]
      rfl
    · rw [optionalField, hmeta]
      rfl

/-- **Registered services are found.** When the agent shows the registrations of some services, `Discover` gives them
back in order, each with the id, the address, the port and the tags it was registered with; its `GetAddress` is the
address that the health check of the registration connects to. -/
theorem discover_registered {configs : List RegisterConfig} {body : String} {js : List Json}
    (hget : get (healthPath serviceName) = .ok body) (hbody : body ≠ "") (hparse : parse body = some (.array js))
    (hshows : List.Forall₂ (fun item config => ∃ s, Shows item (payload (serviceId config) config) s) js configs) :
    discover get parse serviceName = .ok (configs.map RegisterConfig.found) ∧
    ∀ config ∈ configs, ((payload (serviceId config) config).at? "Check").bind (Json.at? · "TCP") =
      some (.string config.found.getAddress) := by
  refine ⟨discover_eq_ok_iff.mpr ⟨js, [], ?_, ?_, .inl rfl⟩, fun config _ => rfl⟩
  · have hne : ¬ body.isEmpty = true := fun hempty => hbody (String.isEmpty_iff.mp hempty)
    rw [answered, hget]
    simp only [if_neg hne, hparse, Option.map_some, Option.getD_some, items, List.append_nil]
  · rw [List.forall₂_map_right_iff]
    refine hshows.imp fun item config h => ?_
    obtain ⟨s, hs⟩ := h
    exact entry_of_shows hs

end Discover

/-! ### The service of `config.yaml` -/

/-- The `Service` object of its entry. -/
def photonService : Json :=
  .object [
    ("Address", .string "172.31.30.185"),
    ("ID", .string "user-service-172.31.30.185-50051"),
    ("Meta", .object []),
    ("Port", .numberInteger 50051),
    ("Service", .string "user-service"),
    ("Tags", .array [.string "v1", .string "stable"])]

/-- The agent's answer as text. -/
def photonHealthText : String :=
  "[\x7b\"Service\":\x7b" ++ ("\"Address\":\"172.31.30.185\",\"ID\":\"user-service-172.31.30.185-50051\"," ++
    "\"Meta\":\x7b\x7d,\"Port\":50051,\"Service\":\"user-service\",\"Tags\":[\"v1\",\"stable\"]") ++ "\x7d\x7d]"

theorem discover_photon :
    discover (fun path => if path = healthPath "user-service" then .ok photonHealthText else .error "404")
      (fun text => if text = photonHealthText then some (.array [.object [("Service", photonService)]]) else none)
      "user-service" = .ok [⟨"user-service-172.31.30.185-50051", "172.31.30.185", 50051, [], ["v1", "stable"]⟩] := by
  have hne : photonHealthText ≠ "" := by decide
  have hshows : List.Forall₂ (fun item config => ∃ s, Shows item (payload (serviceId config) config) s)
      [.object [("Service", photonService)]] [RegisterConfig.photon] :=
    .cons ⟨photonService, rfl, rfl, rfl, rfl, rfl, .inr (.inr rfl)⟩ .nil
  exact (discover_registered (if_pos rfl) hne (if_pos rfl) hshows).1

end PhotonCommerce.Registry
