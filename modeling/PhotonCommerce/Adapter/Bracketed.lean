import PhotonCommerce.Adapter.Endpoints

/-!
# What a call awaits while it holds a connection

A `PooledConnection` is a local of a DAO function, so that a call takes a connection, awaits its statement and gives it
back before it awaits anything else.

* `Bracketed tr` : the events are those of whole DAO calls and of operations that use no connection;
* `Orderly p` : every run of the coroutine is bracketed; one rule for each combinator and one lemma for each function;
* `orderly_serve` : the RPCs are orderly;
* `holding tr` : the connections taken and not given back; `Orderly.always` : what is awaited while they are held.
-/

namespace PhotonCommerce.Adapter
open Coroutine Domain Utils Infrastructure Service

/-- The operations on a pooled connection. -/
def usesConnection : Op → Bool
  | .getConnection => true
  | .returnConnection _ => true
  | .execParams .. => true
  | _ => false

/-- Whole DAO calls, and between them operations that use no connection. -/
inductive Bracketed : List Ev → Prop where
  | nil : Bracketed []
  | other (ev : Ev) (tr : List Ev) (hev : usesConnection ev.op = false) (h : Bracketed tr) : Bracketed (ev :: tr)
  | call (conn : Nat) (stmt : Statement) (params : List String) (a : Except String (List PGresult)) (tr : List Ev)
      (h : Bracketed tr) : Bracketed (UserDao.callEvents conn stmt params a ++ tr)

theorem Bracketed.append {tr₁ tr₂ : List Ev} (h₁ : Bracketed tr₁) (h₂ : Bracketed tr₂) : Bracketed (tr₁ ++ tr₂) := by
  induction h₁ with
  | nil => exact h₂
  | other ev tr hev _ ih => exact .other ev _ hev ih
  | call conn stmt params a tr _ ih =>
      rw [List.append_assoc]
      exact .call conn stmt params a _ ih

theorem Bracketed.of_forall {tr : List Ev} (h : ∀ ev ∈ tr, usesConnection ev.op = false) : Bracketed tr := by
  induction tr with
  | nil => exact .nil
  | cons ev tr ih => exact .other ev tr (h ev List.mem_cons_self) (ih fun ev' hev' => h ev' (List.mem_cons_of_mem _ hev'))

theorem Bracketed.callEvents (conn : Nat) (stmt : Statement) (params : List String) (a : Except String (List PGresult)) :
    Bracketed (UserDao.callEvents conn stmt params a) := by
  have h := Bracketed.call conn stmt params a [] .nil
  rwa [List.append_nil] at h

/-- Every run is bracketed. -/
def Orderly {α : Type} (p : Prog α) : Prop := ∀ tr out, Runs p tr out → Bracketed tr

section Rules
variable {α β : Type}

theorem Orderly.pure (v : α) : Orderly (pure v : Prog α) := by
  rintro tr out ⟨rfl, -⟩
  exact .nil

theorem Orderly.bind {p : Prog α} {f : α → Prog β} (hp : Orderly p) (hf : ∀ v, Orderly (f v)) : Orderly (p >>= f) := by
  intro tr out h
  rcases runs_bind.mp h with ⟨v, tr₁, tr₂, rfl, h₁, h₂⟩ | ⟨e, -, h₁⟩
  · exact (hp _ _ h₁).append (hf v _ _ h₂)
  · exact hp _ _ h₁

theorem Orderly.attempt {p : Prog α} (hp : Orderly p) : Orderly (p.attempt : Prog (Except String α)) := by
  intro tr out h
  obtain ⟨r, -, hrun⟩ := runs_attempt.mp h
  exact hp _ _ hrun

theorem Orderly.perform {o : Op} (ho : usesConnection o = false) : Orderly (perform o) := by
  intro tr out h
  obtain ⟨a, rfl, -⟩ := runs_perform.mp h
  exact .other _ _ ho .nil

end Rules

/-! ## The functions of the service -/

section Functions
variable {L : Libs} {cfg : JwtConfig}

theorem orderly_createUser (user : User) : Orderly (UserDao.createUser user) := by
  intro tr out h
  obtain ⟨conn, a, rfl, -⟩ := UserDao.runs_createUser.mp h
  exact .callEvents _ _ _ _

theorem orderly_selectUser (key : Key) (param : String) : Orderly (UserDao.selectUser key param) := by
  intro tr out h
  obtain ⟨conn, a, rfl, -⟩ := UserDao.runs_selectUser.mp h
  exact .callEvents _ _ _ _

theorem orderly_set (key value : String) (expiry : Int) : Orderly (RedisClient.set key value expiry) := by
  have hset : ∀ ex, Orderly (redisSet key value ex) := fun ex => Orderly.perform rfl
  refine (hset _).bind fun a => ?_
  cases a <;> exact .pure _

theorem orderly_get (key : String) : Orderly (RedisClient.get key) := by
  have hget : Orderly (redisGet key) := Orderly.perform rfl
  refine hget.bind fun a => ?_
  cases a <;> exact .pure _

theorem orderly_saveCode (usage : CodeUsage) (target code : String) (expiry : Int) :
    Orderly (VerificationCodeRepository.saveCode usage target code expiry) := by
  unfold VerificationCodeRepository.saveCode
  split
  · exact .pure _
  · exact (orderly_set _ _ _).bind fun _ => .pure _

theorem orderly_getCode (usage : CodeUsage) (target : String) :
    Orderly (VerificationCodeRepository.getCode usage target) := by
  unfold VerificationCodeRepository.getCode
  split
  · exact .pure _
  · refine (orderly_get _).bind fun v => ?_
    cases v <;> exact .pure _

theorem orderly_getUserById (id : String) : Orderly (UserRepository.getUserById L id) := by
  have hquery : Orderly (UserRepository.queryAndFill L id) := by
    refine (orderly_selectUser _ _).bind fun v => ?_
    match v with
    | .error e => exact .pure _
    | .ok none => exact .pure _
    | .ok (some user) => exact (orderly_set _ _ _).bind fun _ => .pure _
  refine (orderly_get _).bind fun v => ?_
  match v with
  | .error e => exact hquery
  | .ok none => exact hquery
  | .ok (some value) =>
      dsimp only
      cases UserRepository.decode L value with
      | none => exact hquery
      | some user => exact .pure _

theorem orderly_generate (length : Nat) : Orderly (CodeGenerator.generate length) := by
  intro tr out h
  refine .of_forall fun ev hev => ?_
  rw [runs_generateDigits h ev hev]
  rfl

theorem orderly_generateToken (userId : String) : Orderly (JwtUtil.generateToken L cfg userId) := by
  have hnow : Orderly now := Orderly.perform rfl
  exact hnow.bind fun _ => .pure _

theorem orderly_sendCode (req : SendCodeRequest) : Orderly (AuthService.sendCode (userRepository L) req) := by
  have hstore : Orderly (AuthService.storeCode req) :=
    (orderly_generate 6).bind fun code => (orderly_saveCode _ _ _ _).bind fun _ => .pure _
  unfold AuthService.sendCode
  cases req.usage with
  | userRegister => exact hstore
  | userLogin | resetPassword =>
      refine (orderly_selectUser _ _).bind fun v => ?_
      cases v with
      | error e => exact .pure _
      | ok user =>
          cases user with
          | none => exact .pure _
          | some user => exact hstore
  | other value => exact .pure _

theorem orderly_loginByCode (req : LoginByCodeRequest) :
    Orderly (AuthService.loginByCode L cfg (userRepository L) req) := by
  refine (orderly_getCode _ _).bind fun code => ?_
  split_ifs
  · exact .pure _
  · refine (orderly_selectUser _ _).bind fun v => ?_
    match v with
    | .error e => exact .pure _
    | .ok none => exact .pure _
    | .ok (some user) => exact (orderly_generateToken _).bind fun _ => .pure _

theorem orderly_loginByPassword (req : LoginByPasswordRequest) :
    Orderly (AuthService.loginByPassword L cfg (userRepository L) req) := by
  refine (orderly_getUserById _).bind fun v => ?_
  match v with
  | .error e => exact .pure _
  | .ok none => exact .pure _
  | .ok (some user) =>
      dsimp only
      split_ifs
      · exact (orderly_generateToken _).bind fun _ => .pure _
      · exact .pure _

theorem orderly_register (req : RegisterRequest) : Orderly (BasicUserService.register L (userRepository L) req) := by
  have hnow : Orderly now := Orderly.perform rfl
  have hrand : Orderly rand32 := Orderly.perform rfl
  have hblock : Orderly (generateBlock 16) := Orderly.perform rfl
  have huuid : Orderly IdGenerator.generateUUID :=
    hnow.bind fun _ => hrand.bind fun _ => hrand.bind fun _ => hrand.bind fun _ => .pure _
  have hsalt : Orderly SecurityUtil.generateSalt := hblock.bind fun _ => .pure _
  refine (orderly_getCode _ _).bind fun code => ?_
  split_ifs
  · exact .pure _
  · refine (orderly_selectUser _ _).bind fun v => ?_
    match v with
    | .error e => exact .pure _
    | .ok (some user) => exact .pure _
    | .ok none =>
        refine huuid.bind fun userId => hsalt.bind fun salt => (orderly_createUser _).bind fun w => ?_
        cases w <;> exact .pure _

theorem orderly_getUserInfo (userId : String) : Orderly (BasicUserService.getUserInfo (userRepository L) userId) := by
  refine (orderly_getUserById _).bind fun v => ?_
  match v with
  | .error e => exact .pure _
  | .ok none => exact .pure _
  | .ok (some user) => exact .pure _

theorem orderly_callService (request : Request) (userId : String) :
    Orderly (callService L cfg (userRepository L) request userId) := by
  cases request with
  | register username password phoneNumber code => exact (orderly_register _).bind fun _ => .pure _
  | sendCode phoneNumber usage => exact (orderly_sendCode _).bind fun _ => .pure _
  | loginByPassword user password => exact (orderly_loginByPassword _).bind fun _ => .pure _
  | loginByCode phoneNumber code => exact (orderly_loginByCode _).bind fun _ => .pure _
  | getUserInfo => exact (orderly_getUserInfo _).bind fun _ => .pure _

theorem orderly_runSpecificLogic (request : Request) (userId : String) :
    Orderly (runSpecificLogic L cfg (userRepository L) request userId) :=
  (orderly_callService request userId).bind fun _ => .pure _

/-- **The RPCs are orderly.** -/
theorem orderly_serve (request : Request) (md : Metadata) : Orderly (serve L cfg (userRepository L) request md) := by
  have hspawn : ∀ userId, Orderly (coSpawn userId) := fun userId => Orderly.perform rfl
  have hrun : ∀ userId, Orderly (runLogic L cfg (userRepository L) request userId) := by
    refine fun userId => (hspawn userId).bind fun _ => (orderly_runSpecificLogic request userId).attempt.bind fun v => ?_
    cases v <;> exact .pure _
  have hauth : Orderly (performAuthentication L cfg md) := by
    intro tr out h
    refine .of_forall fun ev hev => ?_
    rw [(runs_performAuthentication h).1 ev hev]
    rfl
  unfold serve
  split_ifs
  · refine hauth.bind fun v => ?_
    cases v with
    | error status => exact .pure _
    | ok userId => exact hrun userId
  · exact hrun ""

end Functions

/-! ## Connections held -/

/-- The connections held after one more event. -/
def holdsAfter (held : List Nat) : Ev → List Nat
  | ⟨.getConnection, conn⟩ => List.concat held conn
  | ⟨.returnConnection conn, _⟩ => held.erase conn
  | _ => held

/-- The connections taken and not given back. -/
def holding (tr : List Ev) : List Nat := tr.foldl holdsAfter []

/-- What may be awaited while these connections are held. -/
def Allowed (held : List Nat) : Op → Prop
  | .execParams conn _ _ => held = [conn]
  | .returnConnection conn => held = [conn]
  | _ => held = []

theorem holding_concat (tr : List Ev) (ev : Ev) : holding (tr ++ [ev]) = holdsAfter (holding tr) ev := by
  rw [holding, List.foldl_append]
  rfl

theorem holdsAfter_of_other {held : List Nat} {ev : Ev} (h : usesConnection ev.op = false) : holdsAfter held ev = held := by
  obtain ⟨o, a⟩ := ev
  cases o <;> first | rfl | cases h

theorem allowed_nil_of_other {o : Op} (h : usesConnection o = false) : Allowed [] o := by
  cases o <;> first | rfl | cases h

/-- At each event of whole DAO calls the connections held allow it. -/
theorem Bracketed.allowed {tr : List Ev} (h : Bracketed tr) (hist : List Ev) (hhist : holding hist = [])
    {tr₁ tr₂ : List Ev} {ev : Ev} (htr : tr = tr₁ ++ ev :: tr₂) : Allowed (holding (hist ++ tr₁)) ev.op := by
  induction h generalizing hist tr₁ with
  | nil => exact absurd htr (by simp)
  | other ev' tr hev _ ih =>
      cases tr₁ with
      | nil =>
          obtain ⟨rfl, -⟩ := List.cons.inj htr
          rw [List.append_nil, hhist]
          exact allowed_nil_of_other hev
      | cons ev₁ tr₁ =>
          obtain ⟨rfl, hrest⟩ := List.cons.inj htr
          have hnext : holding (hist ++ [ev']) = [] := by rw [holding_concat, hhist, holdsAfter_of_other hev]
          have hlater := ih (hist ++ [ev']) hnext hrest
          rwa [List.append_assoc, List.singleton_append] at hlater
  | call conn stmt params a tr _ ih =>
      -- the connection is held at the statement and at its return, and at no other event
      have htaken : holding (hist ++ [⟨.getConnection, conn⟩]) = [conn] := by
        rw [holding_concat, hhist]
        rfl
      have hasked : holding (hist ++ [⟨.getConnection, conn⟩, ⟨.execParams conn stmt params, a⟩]) = [conn] := by
        rw [← List.singleton_append, ← List.append_assoc, holding_concat, htaken]
        rfl
      have hgiven : holding (hist ++ UserDao.callEvents conn stmt params a) = [] := by
        have hsplit : hist ++ UserDao.callEvents conn stmt params a =
            hist ++ [⟨.getConnection, conn⟩, ⟨.execParams conn stmt params, a⟩] ++ [⟨.returnConnection conn, ()⟩] := by
          simp [UserDao.callEvents]
        rw [hsplit, holding_concat, hasked]
        exact List.erase_cons_head conn []
      cases tr₁ with
      | nil =>
          obtain ⟨rfl, -⟩ := List.cons.inj htr
          rw [List.append_nil, hhist]
          rfl
      | cons ev₁ tr₁ =>
          obtain ⟨rfl, h₁⟩ := List.cons.inj htr
          cases tr₁ with
          | nil =>
              obtain ⟨rfl, -⟩ := List.cons.inj h₁
              exact htaken
          | cons ev₂ tr₁ =>
              obtain ⟨rfl, h₂⟩ := List.cons.inj h₁
              cases tr₁ with
              | nil =>
                  obtain ⟨rfl, -⟩ := List.cons.inj h₂
                  exact hasked
              | cons ev₃ tr₁ =>
                  obtain ⟨rfl, hrest⟩ := List.cons.inj h₂
                  have hlater := ih (hist ++ UserDao.callEvents conn stmt params a) hgiven hrest
                  rwa [List.append_assoc] at hlater

/-- After whole DAO calls nothing is held. -/
theorem Bracketed.holding_eq_nil {tr : List Ev} (h : Bracketed tr) : holding tr = [] := by
  suffices hgen : ∀ hist, holding hist = [] → holding (hist ++ tr) = [] from hgen [] rfl
  induction h with
  | nil =>
      intro hist hhist
      rwa [List.append_nil]
  | other ev tr hev _ ih =>
      intro hist hhist
      rw [← List.singleton_append, ← List.append_assoc]
      exact ih _ (by rw [holding_concat, hhist, holdsAfter_of_other hev])
  | call conn stmt params a tr _ ih =>
      intro hist hhist
      rw [← List.append_assoc]
      refine ih _ ?_
      rw [holding, List.foldl_append]
      change (UserDao.callEvents conn stmt params a).foldl holdsAfter (holding hist) = []
      rw [hhist]
      exact List.erase_cons_head conn []

/-- **No hold and wait.** An orderly coroutine awaits its statement and the return of its connection while it holds
one, and everything else while it holds none. -/
theorem Orderly.always {α : Type} {p : Prog α} (h : Orderly p) :
    Always (fun hist o => Allowed (holding hist) o) [] p :=
  Always.of_runs Ans.default fun _ _ _ _ hrun => (h _ _ hrun).allowed [] rfl rfl

end PhotonCommerce.Adapter
