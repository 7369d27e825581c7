import PhotonCommerce.Lib.ExpiringMap
import PhotonCommerce.Lib.Interleaving
import PhotonCommerce.Persistence.UserDao

/-!
# The world the service runs in

* `World` : the clock, Redis, the `users` table;
* `exec` : what each operation may answer and do, with the `Faults` allowed;
* `env` : the clock goes on, and a faulty Redis forgets keys;
* `setup` : the interleaved calls over this world, for any set of calls;
* `exec_*` : what operations leave alone; `setup_grows` : time never goes back and rows are never lost;
* `redis_written_of`, `redis_written` : a key that is set was set by an entry of the log after which every `SET` of it
  failed;
* `redis_stays` : what was stored stays until the next `SET`;
* `redis_latest` : without faults the latest `SET` of a key is what it holds.
-/

namespace PhotonCommerce
open Coroutine Interleaving Transition Domain Infrastructure ExpiringMap

/-- The clock in nanoseconds, Redis and the table. -/
structure World where
  time : Nat
  redis : Store String String
  users : UsersTable

/-- Which failures may happen: Redis commands may fail or miss and keys may vanish; a statement may be refused or not
sent; the answer to a statement that took effect may be lost. -/
structure Faults where
  redis : Bool
  dbError : Bool
  dbLost : Bool

/-- Nothing fails. -/
def Faults.never : Faults := ⟨false, false, false⟩

/-- The slot a `SET` writes. -/
def slotOf (time : Nat) (value : String) (ex : Option Int) : Slot String :=
  ⟨value, ex.map fun seconds => time + seconds.toNat * 10 ^ 9⟩

/-- `SET key value [EX seconds]`. -/
def World.set (w : World) (key value : String) (ex : Option Int) : World :=
  { w with redis := w.redis.set key (slotOf w.time value ex) }

@[simp] theorem World.set_redis_self (w : World) (key value : String) (ex : Option Int) :
    (w.set key value ex).redis key = some (slotOf w.time value ex) := Store.set_self _ _ _

theorem World.set_redis_of_ne (w : World) {key key' : String} (value : String) (ex : Option Int) (h : key' ≠ key) :
    (w.set key value ex).redis key' = w.redis key' := Store.set_of_ne _ _ h

/-- The reply to `GET key`. -/
def World.reply (w : World) (key : String) : RedisReply :=
  match w.redis.get w.time key with
  | some value => .blobString value
  | none => .null

theorem answerValue_reply (w : World) (key : String) : answerValue (.ok (w.reply key)) = w.redis.get w.time key := by
  unfold World.reply
  cases w.redis.get w.time key <;> rfl

/-- The result of a statement that took effect. -/
def resultOf : Statement → List (List (Option String)) → PGresult
  | .insertInto _, rows => ⟨.commandOk, rows, "", none⟩
  | .selectWhere _ _, rows => ⟨.tuplesOk, rows, "", none⟩

/-- What the database may answer and do. -/
inductive DbExec (L : Libs) (F : Faults) (w : World) (stmt : Statement) (params : List String) :
    Except String (List PGresult) → World → Prop where
  | done (rows) (t : UsersTable)
      (h : w.users.execute L.timestamptzOut stmt params (w.time / 1000) = .ok (rows, t)) :
      DbExec L F w stmt params (.ok [resultOf stmt rows]) { w with users := t }
  | refused (state : SqlState) (message : String)
      (h : w.users.execute L.timestamptzOut stmt params (w.time / 1000) = .error state) :
      DbExec L F w stmt params (.ok [⟨.fatalError, [], message, some state⟩]) w
  | failed (res : PGresult) (hF : F.dbError = true) (h : res.status.isError = true) :
      DbExec L F w stmt params (.ok [res]) w
  | threw (what : String) (hF : F.dbError = true) : DbExec L F w stmt params (.error what) w
  | lost (what : String) (rows) (t : UsersTable) (hF : F.dbLost = true)
      (h : w.users.execute L.timestamptzOut stmt params (w.time / 1000) = .ok (rows, t)) :
      DbExec L F w stmt params (.error what) { w with users := t }

/-- What each operation may answer and do. -/
def exec (L : Libs) (F : Faults) : (o : Op) → World → Ans o → World → Prop
  | .now, w, a, w' => a = w.time ∧ w' = w
  | .redisSet key value ex, w, a, w' =>
      (w' = w.set key value ex ∧ (a = .ok () ∨ (F.redis = true ∧ ∃ what, a = .error what))) ∨
        (w' = w ∧ F.redis = true ∧ ∃ what, a = .error what)
  | .redisGet key, w, a, w' => w' = w ∧ (a = .ok (w.reply key) ∨ (F.redis = true ∧ answerValue a = none))
  | .execParams _ stmt params, w, a, w' => DbExec L F w stmt params a w'
  | .uniformDigit, w, _, w' => w' = w
  | .rand32, w, _, w' => w' = w
  | .generateBlock _, w, _, w' => w' = w
  | .getConnection, w, _, w' => w' = w
  | .returnConnection _, w, _, w' => w' = w
  | .coSpawn _, w, _, w' => w' = w

/-- The world's own steps. -/
def env (F : Faults) (w w' : World) : Prop :=
  (∃ time, w.time ≤ time ∧ w' = { w with time := time }) ∨
    (F.redis = true ∧ ∃ key, w' = { w with redis := w.redis.evict key })

/-- Interleaved calls: any table, an empty Redis. -/
def setup {Call α : Type} (L : Libs) (F : Faults) (prog : Call → Prog α)
    (admits : State Op Ans World Call String α → Call → Prop) : Setup Op Ans World Call String α where
  init w := w.redis = Store.empty
  exec := exec L F
  env := env F
  prog := prog
  admits := admits

/-- The entries of the log. -/
abbrev LogEntry := Entry Op Ans World

/-! ## What operations do -/

section Frame
variable {L : Libs} {F : Faults} {w w' : World} {o : Op} {a : Ans o}

theorem DbExec.cases {stmt : Statement} {params : List String} {a : Except String (List PGresult)}
    (h : DbExec L F w stmt params a w') :
    w' = w ∨ ∃ rows t, w.users.execute L.timestamptzOut stmt params (w.time / 1000) = .ok (rows, t) ∧
      w' = { w with users := t } := by
  cases h with
  | done rows t h => exact .inr ⟨rows, t, h, rfl⟩
  | refused state message h => exact .inl rfl
  | failed res hF h => exact .inl rfl
  | threw what hF => exact .inl rfl
  | lost what rows t hF h => exact .inr ⟨rows, t, h, rfl⟩

/-- **Everything an operation can do to the world**: nothing, a `SET`, or a statement. -/
theorem exec_cases (h : exec L F o w a w') :
    w' = w ∨ (∃ key value ex, o = .redisSet key value ex ∧ w' = w.set key value ex) ∨
      ∃ conn stmt params rows t, o = .execParams conn stmt params ∧
        w.users.execute L.timestamptzOut stmt params (w.time / 1000) = .ok (rows, t) ∧ w' = { w with users := t } := by
  cases o with
  | redisSet key value ex =>
      rcases h with ⟨hset, -⟩ | ⟨hsame, -⟩
      · exact .inr (.inl ⟨key, value, ex, rfl, hset⟩)
      · exact .inl hsame
  | execParams conn stmt params =>
      rcases DbExec.cases h with hsame | ⟨rows, t, ht, hw⟩
      · exact .inl hsame
      · exact .inr (.inr ⟨conn, stmt, params, rows, t, rfl, ht, hw⟩)
  | now => exact .inl h.2
  | redisGet key => exact .inl h.1
  | uniformDigit => exact .inl h
  | rand32 => exact .inl h
  | generateBlock size => exact .inl h
  | getConnection => exact .inl h
  | returnConnection conn => exact .inl h
  | coSpawn userId => exact .inl h

/-- Operations take no time and lose no row. -/
theorem exec_frame (h : exec L F o w a w') : w'.time = w.time ∧ w.users.Grows w'.users := by
  rcases exec_cases h with rfl | ⟨key, value, ex, -, rfl⟩ | ⟨conn, stmt, params, rows, t, -, ht, rfl⟩
  · exact ⟨rfl, UsersTable.Grows.refl _⟩
  · exact ⟨rfl, UsersTable.Grows.refl _⟩
  · exact ⟨rfl, UsersTable.grows_execute ht⟩

theorem exec_redis (h : exec L F o w a w') (ho : o.isRedisSet = false) : w'.redis = w.redis := by
  rcases exec_cases h with rfl | ⟨key, value, ex, rfl, rfl⟩ | ⟨conn, stmt, params, rows, t, rfl, ht, rfl⟩
  · rfl
  · cases ho
  · rfl

theorem execute_select {t t' : UsersTable} {columns : List Column} {key : Key} {params : List String} {now : Int}
    {rows : List (List (Option String))}
    (h : t.execute L.timestamptzOut (.selectWhere columns key) params now = .ok (rows, t')) :
    t' = t ∧ ∃ r, t.find key (params.getD 0 "") = .ok r ∧
      rows = r.toList.map fun r => columns.map (r.field L.timestamptzOut) := by
  simp only [UsersTable.execute] at h
  cases hfind : t.find key (params.getD 0 "") with
  | error e =>
      rw [hfind] at h
      cases h
  | ok r =>
      rw [hfind] at h
      cases h
      exact ⟨rfl, r, rfl, rfl⟩

theorem exec_users (h : exec L F o w a w') (ho : o.isInsert = false) : w'.users = w.users := by
  rcases exec_cases h with rfl | ⟨key, value, ex, rfl, rfl⟩ | ⟨conn, stmt, params, rows, t, rfl, ht, rfl⟩
  · rfl
  · rfl
  · cases stmt with
    | insertInto columns => cases ho
    | selectWhere columns key => exact (execute_select ht).1

end Frame

/-! ## Along a run -/

section Runs
variable {Call α : Type} {L : Libs} {F : Faults} {prog : Call → Prog α}
  {admits : State Op Ans World Call String α → Call → Prop} {s : State Op Ans World Call String α}

/-- Time goes on and rows stay. -/
def World.Later (w w' : World) : Prop := w.time ≤ w'.time ∧ w.users.Grows w'.users

theorem World.Later.refl (w : World) : w.Later w := ⟨Nat.le_refl _, UsersTable.Grows.refl _⟩

theorem World.Later.trans {u v w : World} (h : u.Later v) (h' : v.Later w) : u.Later w :=
  ⟨Nat.le_trans h.1 h'.1, h.2.trans h'.2⟩

theorem later_of_exec {o : Op} {a : Ans o} {w w' : World} (h : exec L F o w a w') : w.Later w' :=
  ⟨Nat.le_of_eq (exec_frame h).1.symm, (exec_frame h).2⟩

theorem later_of_env {w w' : World} (h : env F w w') : w.Later w' := by
  rcases h with ⟨time, htime, rfl⟩ | ⟨-, key, rfl⟩
  · exact ⟨htime, UsersTable.Grows.refl _⟩
  · exact ⟨Nat.le_refl _, UsersTable.Grows.refl _⟩

/-- The world after an entry and before every later one, and now. -/
theorem setup_later (hs : Reachable (setup L F prog admits).system s) :
    (∀ e ∈ s.log, e.post.Later s.world) ∧ ∀ l e r, s.log = l ++ e :: r → ∀ e' ∈ l, e'.post.Later e.pre :=
  Setup.evolves World.Later.refl (fun _ _ _ h h' => h.trans h') (fun _ _ h => later_of_env h)
    (fun _ _ _ _ h => later_of_exec h) hs

/-- The world before an entry and before every later one. -/
theorem later_pre (hs : Reachable (setup L F prog admits).system s) {l r : List LogEntry} {e e' : LogEntry}
    (hlog : s.log = l ++ e :: r) (he' : e' ∈ l) : e'.pre.Later e.pre := by
  have hexec := Setup.executed hs e' (hlog ▸ List.mem_append_left _ he')
  exact (later_of_exec hexec).trans ((setup_later hs).2 l e r hlog e' he')

/-! ## Where the values in Redis come from -/

/-- A `SET` answered by an exception. -/
def setFailed : Ev → Bool
  | ⟨.redisSet _ _ _, .error _⟩ => true
  | _ => false

/-- The key is untouched by the entries: a `SET` of it failed and did nothing. -/
def Untouched (key : String) (entries : List LogEntry) : Prop :=
  ∀ e ∈ entries, ∀ value ex, e.op = .redisSet key value ex → setFailed e.toEvent = true ∧ e.post = e.pre

theorem Untouched.append {key : String} {l : List LogEntry} {e : LogEntry} (h : Untouched key l)
    (he : ∀ value ex, e.op = .redisSet key value ex → setFailed e.toEvent = true ∧ e.post = e.pre) :
    Untouched key (l ++ [e]) := by
  intro e' he'
  rcases List.mem_append.mp he' with h' | h'
  · exact h e' h'
  · rw [List.mem_singleton.mp h']
    exact he

/-- What an entry did to a key: it wrote it, or left it as it was. -/
theorem entry_redis {e : LogEntry} (h : exec L F e.op e.pre e.ans e.post) (key : String) :
    (∃ value ex, e.op = .redisSet key value ex ∧ e.post = e.pre.set key value ex) ∨
    (e.post.redis key = e.pre.redis key ∧
      ∀ value ex, e.op = .redisSet key value ex → setFailed e.toEvent = true ∧ e.post = e.pre) := by
  obtain ⟨⟨o, a⟩, tid, pre, post⟩ := e
  by_cases ho : o.isRedisSet = false
  · refine .inr ⟨congrFun (exec_redis h ho) key, ?_⟩
    rintro value ex rfl
    cases ho
  · cases o with
    | redisSet key' value ex =>
        rcases h with ⟨hset, -⟩ | ⟨hsame, -, what, hwhat⟩
        · by_cases hkey : key = key'
          · subst hkey
            exact .inl ⟨value, ex, rfl, hset⟩
          · refine .inr ⟨?_, ?_⟩
            · change post = _ at hset
              change post.redis key = pre.redis key
              rw [hset]
              exact World.set_redis_of_ne _ _ _ hkey
            · rintro value' ex' heq
              cases heq
              exact absurd rfl hkey
        · refine .inr ⟨?_, fun _ _ _ => ⟨?_, hsame⟩⟩
          · change post = pre at hsame
            change post.redis key = pre.redis key
            rw [hsame]
          · change a = _ at hwhat
            subst hwhat
            rfl
    | _ => exact absurd rfl ho

theorem setFailed_of_exec (hF : F.redis = false) {e : LogEntry} (h : exec L F e.op e.pre e.ans e.post) :
    setFailed e.toEvent = false := by
  obtain ⟨⟨o, a⟩, tid, pre, post⟩ := e
  cases o with
  | redisSet key value ex =>
      rcases h with ⟨-, ha | ⟨hredis, -⟩⟩ | ⟨-, hredis, -⟩
      · change a = .ok () at ha
        subst ha
        rfl
      · rw [hF] at hredis
        cases hredis
      · rw [hF] at hredis
        cases hredis
  | _ => rfl

/-- The slot of a key and the entry that wrote it. -/
def WrittenBy (log : List LogEntry) (key : String) (slot : Slot String) : Prop :=
  ∃ l e r value ex, log = l ++ e :: r ∧ e.op = .redisSet key value ex ∧ slot = slotOf e.pre.time value ex ∧
    Untouched key r

/-- **Provenance.** Where a key is unset at first and only operations set it, what it holds was written by an entry of
the log, and no later `SET` of the key took effect. -/
theorem redis_written_of {S : Setup Op Ans World Call String α} (hexec : S.exec = exec L F) {key : String}
    (hinit : ∀ w, S.init w → w.redis key = none)
    (henv : ∀ w w' slot, S.env w w' → w'.redis key = some slot → w.redis key = some slot)
    (hs : Reachable S.system s) :
    (∀ slot, s.world.redis key = some slot → WrittenBy s.log key slot) ∧
    ∀ l e r, s.log = l ++ e :: r → ∀ slot, e.pre.redis key = some slot → WrittenBy l key slot := by
  refine Setup.history (I := fun log w => ∀ slot, w.redis key = some slot → WrittenBy log key slot) ?_ ?_ ?_ hs
  · intro w hw slot hslot
    rw [hinit w hw] at hslot
    cases hslot
  · intro log w w' hI hw slot hslot
    exact hI slot (henv w w' slot hw hslot)
  · intro log e hI he slot hslot
    rw [hexec] at he
    rcases entry_redis he key with ⟨value, ex, hop, hpost⟩ | ⟨hsame, hfail⟩
    · refine ⟨log, e, [], value, ex, rfl, hop, ?_, fun _ h => absurd h List.not_mem_nil⟩
      rw [hpost, World.set_redis_self] at hslot
      exact (Option.some.inj hslot).symm
    · rw [hsame] at hslot
      obtain ⟨l, e₀, r, value, ex, rfl, hop, hslot, hunt⟩ := hI slot hslot
      exact ⟨l, e₀, r ++ [e], value, ex, by simp, hop, hslot, hunt.append hfail⟩

theorem redis_of_env {w w' : World} {key : String} {slot : Slot String} (h : env F w w')
    (hslot : w'.redis key = some slot) : w.redis key = some slot := by
  rcases h with ⟨time, -, rfl⟩ | ⟨-, key', rfl⟩
  · exact hslot
  · exact Store.evict_eq_some hslot

theorem redis_written (hs : Reachable (setup L F prog admits).system s) :
    (∀ key slot, s.world.redis key = some slot → WrittenBy s.log key slot) ∧
    ∀ l e r, s.log = l ++ e :: r → ∀ key slot, e.pre.redis key = some slot → WrittenBy l key slot := by
  have hkey : ∀ key, (∀ slot, s.world.redis key = some slot → WrittenBy s.log key slot) ∧
      ∀ l e r, s.log = l ++ e :: r → ∀ slot, e.pre.redis key = some slot → WrittenBy l key slot := by
    intro key
    refine redis_written_of (S := setup L F prog admits) rfl (fun w hw => ?_) (fun _ _ _ => redis_of_env) hs
    rw [show w.redis = Store.empty from hw]
    rfl
  exact ⟨fun key => (hkey key).1, fun l e r hlog key => (hkey key).2 l e r hlog⟩

/-- **What was stored stays.** Where nothing but operations changes Redis, a `SET` that took effect is what the key
holds until the next one. -/
theorem redis_stays {S : Setup Op Ans World Call String α} (hexec : S.exec = exec L F) {key value : String}
    {ex : Option Int} (henv : ∀ w w', S.env w w' → w'.redis key = w.redis key) (hs : Reachable S.system s) :
    ∀ l e r, s.log = l ++ e :: r → ∀ l' e' r', l = l' ++ e' :: r' → e'.post = e'.pre.set key value ex →
      (∀ e₀ ∈ r', ∀ value ex, e₀.op ≠ .redisSet key value ex) →
      e.pre.redis key = some (slotOf e'.pre.time value ex) := by
  refine (Setup.history (I := fun log w => ∀ l' e' r', log = l' ++ e' :: r' → e'.post = e'.pre.set key value ex →
    (∀ e₀ ∈ r', ∀ value ex, e₀.op ≠ .redisSet key value ex) →
    w.redis key = some (slotOf e'.pre.time value ex)) ?_ ?_ ?_ hs).2
  · intro w _ l' e' r' hlog
    exact absurd hlog (by simp)
  · intro log w w' hI hw l' e' r' hlog hpost hother
    rw [henv w w' hw]
    exact hI l' e' r' hlog hpost hother
  · intro log e hI he l' e' r' hlog hpost hother
    rw [hexec] at he
    rcases append_singleton_eq_append_cons hlog with ⟨rfl, rfl, rfl⟩ | ⟨r'', rfl, hl⟩
    · rw [hpost, World.set_redis_self]
    · have hlast := hI l' e' r'' hl hpost fun e₀ he₀ => hother e₀ (List.mem_append_left _ he₀)
      rcases entry_redis he key with ⟨value', ex', hop, -⟩ | ⟨hsame, -⟩
      · exact absurd hop (hother e (List.mem_append_right _ (List.mem_singleton_self _)) value' ex')
      · rw [hsame]
        exact hlast

/-- Without faults a key holds what the latest `SET` wrote. -/
theorem redis_latest (hF : F.redis = false) (hs : Reachable (setup L F prog admits).system s) :
    ∀ l e r, s.log = l ++ e :: r → ∀ l' e' r' key value ex, l = l' ++ e' :: r' → e'.op = .redisSet key value ex →
      Untouched key r' → e.pre.redis key = some (slotOf e'.pre.time value ex) := by
  refine (Setup.history (I := fun log w => ∀ l' e' r' key value ex, log = l' ++ e' :: r' →
    e'.op = .redisSet key value ex → Untouched key r' → w.redis key = some (slotOf e'.pre.time value ex)) ?_ ?_ ?_ hs).2
  · intro w _ l' e' r' key value ex hlog
    exact absurd hlog (by simp)
  · rintro log w w' hI (⟨time, -, rfl⟩ | ⟨hredis, -⟩) l' e' r' key value ex hlog hop hunt
    · exact hI l' e' r' key value ex hlog hop hunt
    · rw [hF] at hredis
      cases hredis
  · intro log e hI hexec l' e' r' key value ex hlog hop hunt
    rcases append_singleton_eq_append_cons hlog with ⟨rfl, rfl, rfl⟩ | ⟨r'', rfl, hl⟩
    · rcases entry_redis hexec key with ⟨value', ex', hop', hpost⟩ | ⟨-, hfail⟩
      · rw [hop] at hop'
        cases hop'
        rw [hpost, World.set_redis_self]
      · -- a `SET` fails only when Redis does
        exact absurd (hfail value ex hop).1 (by simp [setFailed_of_exec hF hexec])
    · have hunt' : Untouched key r'' := fun e₀ he₀ => hunt e₀ (by simp [he₀])
      have hlast := hI l' e' r'' key value ex hl hop hunt'
      rcases entry_redis hexec key with ⟨value', ex', hop', -⟩ | ⟨hsame, -⟩
      · have := hunt e (by simp) value' ex' hop'
        rw [this.2]
        exact hlast
      · rw [hsame]
        exact hlast

end Runs

end PhotonCommerce
