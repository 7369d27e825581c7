import PhotonCommerce.Lib.Execution
import PhotonCommerce.System.Server

/-!
# What decides a login by password

* `Coherent` : what the cache holds for an id is the row of that id, if it can be read at all;
* `Drifts` : whatever else happens while the table stays and the cache remains coherent;
* `LiveRow`, `Decides` : the row a text denotes, and the answer it calls for;
* `lookup_executes` : a lookup over such a world reports the table, or the text is no id;
* `loginByPassword_decides_iff` : the answer is the right one exactly when the text is an id.
-/

namespace PhotonCommerce.System
open Coroutine Interleaving Transition Domain Infrastructure Service Utils ExpiringMap

/-- Redis may fail in any way; the database answers. -/
def redisFaults : Faults := ⟨true, false, false⟩

/-- What the cache holds for an id and can be read is the row the table has for it. -/
def Coherent (L : Libs) (w : World) : Prop :=
  ∀ id value user, w.redis.get w.time (UserRepository.cacheKey id) = some value →
    UserRepository.decode L value = some user →
    ∃ row, w.users.find .id id = .ok (some row) ∧ user.view = (UserDao.userOfRow L.timestamptzOut row).view

/-- What else may happen to the world: anything but a change of the table or an entry of the cache that belies it. -/
def Drifts (L : Libs) (w w' : World) : Prop :=
  w.time ≤ w'.time ∧ w'.users = w.users ∧ (Coherent L w → Coherent L w')

/-- The row has the id that a text denotes and is not deleted. -/
def LiveRow (t : UsersTable) (userId : String) (row : Row) : Prop :=
  row ∈ t.rows ∧ row.deletedAt = none ∧ Uuid.ofString? (cStr userId) = some row.id

/-- The right answer to `LoginByPassword`, given between two times. -/
structure Decides (L : Libs) (cfg : JwtConfig) (t : UsersTable) (req : LoginByPasswordRequest) (earliest latest : Nat)
    (out : Except String LoginResult) : Prop where
  success : ∀ row, LiveRow t req.userId row →
    SecurityUtil.hashPassword L req.password row.salt.text = row.passwordHash.text →
    ∃ now, earliest ≤ now ∧ now ≤ latest ∧ out = .ok (AuthService.loggedIn L cfg row.id.toString now)
  incorrect : ∀ row, LiveRow t req.userId row →
    SecurityUtil.hashPassword L req.password row.salt.text ≠ row.passwordHash.text →
    out = .ok { status := ⟨.passwordIncorrect, "密码错误"⟩ }
  notFound : (∀ row, ¬ LiveRow t req.userId row) → out = .ok { status := ⟨.userNotFound, "ID不存在"⟩ }
  noInternalError : ∀ result, out = .ok result → result.status.code ≠ .internalError

theorem coherent_of_empty {L : Libs} {w : World} (hw : w.redis = Store.empty) : Coherent L w := by
  intro id value user hvalue
  rw [hw] at hvalue
  cases hvalue

/-- **The cache of a running server is coherent.** -/
theorem coherent_of_reachable {L : Libs} {cfg : JwtConfig} {F : Faults} {admits : ServerState → Call → Prop}
    {s : ServerState} (hs : Reachable (server L cfg F admits).system s) : Coherent L s.world := by
  intro id value user hvalue hdec
  obtain ⟨slot, hslot, -, rfl⟩ := Store.get_eq_some_iff.mp hvalue
  obtain ⟨q, hq, conn, row, -, hfind, hcached⟩ := cache_written (hosts_server L cfg F admits) hs (List.append_nil _).symm
    ((redis_written hs).1 _ slot hslot)
  rw [hdec] at hcached
  obtain rfl := Option.some.inj hcached
  have hlater := (later_of_exec (Setup.executed hs q hq)).trans ((setup_later hs).1 q hq)
  exact ⟨row, hlater.2.find hfind, view_cached_userOfRow row⟩

/-- The world's own steps drift. -/
theorem drifts_of_env {L : Libs} {F : Faults} {w w' : World} (h : env F w w') : Drifts L w w' := by
  rcases h with ⟨time, htime, rfl⟩ | ⟨-, key, rfl⟩
  · refine ⟨htime, rfl, fun hw id value user hvalue hdec => ?_⟩
    exact hw id value user (Store.get_of_le htime hvalue) hdec
  · refine ⟨Nat.le_refl _, rfl, fun hw id value user hvalue hdec => ?_⟩
    obtain ⟨slot, hslot, hlive, hval⟩ := Store.get_eq_some_iff.mp hvalue
    exact hw id value user (Store.get_eq_some_iff.mpr ⟨slot, Store.evict_eq_some hslot, hlive, hval⟩) hdec

/-! ## The row of an id -/

section
variable {t : UsersTable} {id : String} {row : Row}

theorem liveRow_iff : LiveRow t id row ↔ t.find .id id = .ok (some row) := by
  constructor
  · intro ⟨hmem, hlive, hid⟩
    have hfind : t.rows.find? (fun r => r.id = row.id ∧ r.deletedAt = none) = some row :=
      UsersTable.find?_of_unique hmem (by simp [hlive]) fun r hr hp =>
        List.inj_on_of_nodup_map t.id_unique hr hmem (of_decide_eq_true hp).1
    simp only [UsersTable.find, hid, hfind]
  · intro h
    have hid := UsersTable.ofString_of_find h
    simp only [UsersTable.find, hid] at h
    have hrow := Except.ok.inj h
    have hp := List.find?_some hrow
    exact ⟨List.mem_of_find?_eq_some hrow, (of_decide_eq_true hp).2, hid⟩

theorem not_liveRow (h : t.find .id id = .ok none) (row : Row) : ¬ LiveRow t id row := by
  intro hrow
  rw [liveRow_iff, h] at hrow
  cases hrow

/-- A lookup that is answered was of an id. -/
theorem isSome_of_find {found : Option Row} (h : t.find .id id = .ok found) : (Uuid.ofString? (cStr id)).isSome := by
  simp only [UsersTable.find] at h
  cases hid : Uuid.ofString? (cStr id) with
  | none =>
      rw [hid] at h
      cases h
  | some u => rfl

/-- The database reads a text as an id or refuses it. -/
theorem find_id_cases (t : UsersTable) (id : String) :
    (∃ row, t.find .id id = .ok row) ∨ (Uuid.ofString? (cStr id) = none ∧ ∃ state, t.find .id id = .error state) := by
  simp only [UsersTable.find]
  cases Uuid.ofString? (cStr id) with
  | none => exact .inr ⟨rfl, _, rfl⟩
  | some u => exact .inl ⟨_, rfl⟩

end

/-! ## The lookup -/

section
variable {L : Libs} {w w' : World} {id : String} {tr : List Ev}

/-- The table, the earliest time and a coherent cache: what the drift keeps. -/
structure Kept (L : Libs) (t : UsersTable) (earliest : Nat) (w : World) : Prop where
  users : w.users = t
  time : earliest ≤ w.time
  coherent : Coherent L w

variable {t : UsersTable} {earliest : Nat}

theorem Kept.drift (w w' : World) (h : Drifts L w w') (hw : Kept L t earliest w) : Kept L t earliest w' where
  users := h.2.1.trans hw.users
  time := Nat.le_trans hw.time h.1
  coherent := h.2.2 hw.coherent

theorem le_time {F : Faults} (h : Executes (exec L F) (Drifts L) w tr w') : w.time ≤ w'.time := by
  refine h.preserves (I := fun u => w.time ≤ u.time) (fun o u a u' hop hle => ?_) (fun u u' hu hle => ?_) (Nat.le_refl _)
  · rw [(exec_frame hop).1]
    exact hle
  · exact Nat.le_trans hle hu.1

/-- **A lookup** over a table that stays reports the row of the id, and an error exactly when the text is no id. -/
theorem lookup_executes {out : Except String (Except DbError (Option User))} (hw : Coherent L w)
    (hexec : Executes (exec L redisFaults) (Drifts L) w tr w') (hrun : Runs (UserRepository.getUserById L id) tr out) :
    (∃ result, out = .ok result ∧ Answers L w.users id result) ∨
      (Uuid.ofString? (cStr id) = none ∧ ∃ e, out = .ok (.error e)) := by
  have hkept : Kept L w.users w.time w := ⟨rfl, Nat.le_refl _, hw⟩
  rcases UserRepository.runs_getUserById hrun with ⟨a, value, user, rfl, ha, hdec, rfl⟩ |
      ⟨a, conn, b, fill, rfl, rfl, -⟩
  · obtain ⟨u, v, hu, hget, -⟩ := hexec.cons Kept.drift hkept
    obtain ⟨-, rfl | ⟨-, hnone⟩⟩ := hget
    · rw [answerValue_reply] at ha
      obtain ⟨row, hfind, hview⟩ := hu.coherent id value user ha hdec
      rw [hu.users] at hfind
      exact .inl ⟨_, rfl, some row, some user, hfind, rfl, congrArg some hview⟩
    · rw [hnone] at ha
      cases ha
  · obtain ⟨u, v, hu, ⟨rfl, -⟩, hexec⟩ := hexec.cons Kept.drift hkept
    obtain ⟨u, v, hu, hconn, hexec⟩ := hexec.cons Kept.drift hu
    rw [show v = u from hconn] at hexec
    obtain ⟨u, v, hu, hselect, -⟩ := hexec.cons Kept.drift hu
    rw [← hu.users]
    rcases find_id_cases u.users id with ⟨row, hfind⟩ | ⟨hid, state, hfind⟩
    · refine .inl ⟨.ok (row.map (UserDao.userOfRow L.timestamptzOut)), ?_, row, _, hfind, rfl, ?_⟩
      · have hb : b = found L .id row := select_exec_answered rfl rfl hselect hfind
        rw [hb, selectOutcome_found]
      · rw [Option.map_map]
        rfl
    · exact .inr ⟨hid, select_exec_refused rfl rfl hselect hfind⟩

end

/-! ## The answer -/

section
variable {L : Libs} {cfg : JwtConfig} {w w' : World} {req : LoginByPasswordRequest} {tr : List Ev}
  {out : Except String LoginResult}

/-- **What `LoginByPassword` answers** over a table that stays. -/
theorem loginByPassword_cases (hw : Coherent L w) (hexec : Executes (exec L redisFaults) (Drifts L) w tr w')
    (hrun : Runs (AuthService.loginByPassword L cfg (userRepository L) req) tr out) :
    (w.users.find .id req.userId = .ok none ∧ out = .ok { status := ⟨.userNotFound, "ID不存在"⟩ }) ∨
    (∃ row, w.users.find .id req.userId = .ok (some row) ∧
      ((SecurityUtil.hashPassword L req.password row.salt.text = row.passwordHash.text ∧
        ∃ now, w.time ≤ now ∧ now ≤ w'.time ∧ out = .ok (AuthService.loggedIn L cfg row.id.toString now)) ∨
      (SecurityUtil.hashPassword L req.password row.salt.text ≠ row.passwordHash.text ∧
        out = .ok { status := ⟨.passwordIncorrect, "密码错误"⟩ }))) ∨
    (Uuid.ofString? (cStr req.userId) = none ∧ out = .ok { status := ⟨.internalError, "DB Error"⟩ }) := by
  rw [AuthService.loginByPassword_eq] at hrun
  rcases runs_bind.mp hrun with ⟨found, tr₁, tr₂, rfl, hget, hanswer⟩ | ⟨what, rfl, hget⟩
  · obtain ⟨w₁, hexec₁, hexec₂⟩ := hexec.append
    rcases lookup_executes hw hexec₁ hget with ⟨result, hfound, row, user, hfind, rfl, hview⟩ | ⟨hid, e, hfound⟩
    · cases hfound
      cases row with
      | none =>
          cases user with
          | none => exact .inl ⟨hfind, hanswer.2⟩
          | some user => cases hview
      | some row =>
          cases user with
          | none => cases hview
          | some user =>
              rw [AuthService.passwordAnswer_view L cfg (Option.some.inj hview)] at hanswer
              refine .inr (.inl ⟨row, hfind, ?_⟩)
              rcases AuthService.runs_passwordAnswer.mp hanswer with ⟨hpwd, now, rfl, hout⟩ | ⟨hpwd, -, hout⟩
              · obtain ⟨u, v, hu, ⟨hnow, rfl⟩, hrest⟩ := hexec₂.cons (I := fun u => w₁.time ≤ u.time)
                  (fun u u' hdrift hle => Nat.le_trans hle hdrift.1) (Nat.le_refl _)
                have hearliest := le_time hexec₁
                have hlatest := le_time hrest
                refine .inl ⟨hpwd, now, ?_, ?_, hout⟩
                · rw [show now = v.time from hnow]
                  exact Nat.le_trans hearliest hu
                · rw [show now = v.time from hnow]
                  exact hlatest
              · exact .inr ⟨hpwd, hout⟩
    · cases hfound
      exact .inr (.inr ⟨hid, hanswer.2⟩)
  · rcases lookup_executes hw hexec hget with ⟨result, hfound, -⟩ | ⟨-, e, hfound⟩ <;> cases hfound

variable {t : UsersTable} {earliest latest : Nat}

/-- Without a row the answer is USER_NOT_FOUND. -/
theorem decides_of_none (h : t.find .id req.userId = .ok none) :
    Decides L cfg t req earliest latest (.ok { status := ⟨.userNotFound, "ID不存在"⟩ }) where
  success row hrow := absurd hrow (not_liveRow h row)
  incorrect row hrow := absurd hrow (not_liveRow h row)
  notFound _ := rfl
  noInternalError result hout := by
    cases hout
    exact nofun

/-- With a row the hashes decide. -/
theorem decides_of_some {row : Row} (h : t.find .id req.userId = .ok (some row))
    (hanswer : (SecurityUtil.hashPassword L req.password row.salt.text = row.passwordHash.text ∧
        ∃ now, earliest ≤ now ∧ now ≤ latest ∧ out = .ok (AuthService.loggedIn L cfg row.id.toString now)) ∨
      (SecurityUtil.hashPassword L req.password row.salt.text ≠ row.passwordHash.text ∧
        out = .ok { status := ⟨.passwordIncorrect, "密码错误"⟩ })) :
    Decides L cfg t req earliest latest out := by
  have honly : ∀ row', LiveRow t req.userId row' → row' = row := by
    intro row' hrow'
    rw [liveRow_iff, h] at hrow'
    exact (Option.some.inj (Except.ok.inj hrow')).symm
  have hlive : LiveRow t req.userId row := liveRow_iff.mpr h
  rcases hanswer with ⟨hpwd, now, hearliest, hlatest, rfl⟩ | ⟨hpwd, rfl⟩
  · refine ⟨fun row' hrow' _ => ?_, fun row' hrow' hne => ?_, fun hnone => absurd hlive (hnone row), ?_⟩
    · rw [honly row' hrow']
      exact ⟨now, hearliest, hlatest, rfl⟩
    · rw [honly row' hrow'] at hne
      exact absurd hpwd hne
    · intro result hout
      cases hout
      exact nofun
  · refine ⟨fun row' hrow' heq => ?_, fun _ _ _ => rfl, fun hnone => absurd hlive (hnone row), ?_⟩
    · rw [honly row' hrow'] at heq
      exact absurd heq hpwd
    · intro result hout
      cases hout
      exact nofun

theorem exists_run (p : Prog LoginResult) (w : World) :
    ∃ tr out w', Runs p tr out ∧ Executes (exec L redisFaults) (Drifts L) w tr w' :=
  exists_executes (fun o w => ⟨_, _, exec_answer L redisFaults o w⟩) p w

/-- **A login by password decides exactly by account and password** when the client's text is an id: from every
coherent state the call ends, and however Redis behaves its answer is the right one if and only if PostgreSQL reads the
text as a UUID. -/
theorem loginByPassword_decides_iff (L : Libs) (cfg : JwtConfig) (req : LoginByPasswordRequest) {w : World}
    (hw : Coherent L w) :
    (∃ tr out w', Runs (AuthService.loginByPassword L cfg (userRepository L) req) tr out ∧
      Executes (exec L redisFaults) (Drifts L) w tr w') ∧
    ∀ tr out w', Runs (AuthService.loginByPassword L cfg (userRepository L) req) tr out →
      Executes (exec L redisFaults) (Drifts L) w tr w' →
      (Decides L cfg w.users req w.time w'.time out ↔ (Uuid.ofString? (cStr req.userId)).isSome) := by
  refine ⟨exists_run _ w, fun tr out w' hrun hexec => ?_⟩
  rcases loginByPassword_cases hw hexec hrun with ⟨hfind, rfl⟩ | ⟨row, hfind, hanswer⟩ | ⟨hid, rfl⟩
  · exact iff_of_true (decides_of_none hfind) (isSome_of_find hfind)
  · exact iff_of_true (decides_of_some hfind hanswer) (isSome_of_find hfind)
  · refine iff_of_false (fun hdecides => ?_) (by simp [hid])
    exact hdecides.noInternalError _ rfl rfl

end

/-- A registered user logs in. -/
theorem loginByPassword_decides_alice : ∃ tr out w', Runs (AuthService.loginByPassword (Libs.reference Texts.alice) .photon
      (userRepository (Libs.reference Texts.alice)) ⟨"019abf9b-0900-7000-8000-000000000000", "secret"⟩) tr out ∧
    Executes (exec (Libs.reference Texts.alice) redisFaults) (Drifts (Libs.reference Texts.alice)) .alice tr w' ∧
    ∃ now, out = .ok (AuthService.loggedIn (Libs.reference Texts.alice) .photon Row.alice.id.toString now) := by
  have hlive : LiveRow World.alice.users "019abf9b-0900-7000-8000-000000000000" Row.alice :=
    ⟨List.mem_singleton_self _, rfl, by decide +kernel⟩
  have hpwd : SecurityUtil.hashPassword (Libs.reference Texts.alice) "secret" Row.alice.salt.text =
      Row.alice.passwordHash.text := by decide +kernel
  obtain ⟨⟨tr, out, w', hrun, hexec⟩, hiff⟩ := loginByPassword_decides_iff (Libs.reference Texts.alice) .photon
    ⟨"019abf9b-0900-7000-8000-000000000000", "secret"⟩ (coherent_of_empty (w := .alice) rfl)
  have hdecides := (hiff tr out w' hrun hexec).mpr (by decide +kernel)
  obtain ⟨now, -, -, hout⟩ := hdecides.success Row.alice hlive hpwd
  exact ⟨tr, out, w', hrun, hexec, now, hout⟩

/-- A text that is no id: nobody has it, but the answer is INTERNAL_ERROR and not USER_NOT_FOUND. -/
theorem loginByPassword_malformed : ∃ tr w', Runs (AuthService.loginByPassword (Libs.reference Texts.alice) .photon
      (userRepository (Libs.reference Texts.alice)) ⟨"alice", "secret"⟩) tr
      (.ok { status := ⟨.internalError, "DB Error"⟩ }) ∧
    Coherent (Libs.reference Texts.alice) .alice ∧
    Executes (exec (Libs.reference Texts.alice) redisFaults) (Drifts (Libs.reference Texts.alice)) .alice tr w' ∧
    (∀ row, ¬ LiveRow World.alice.users "alice" row) ∧
    ¬ Decides (Libs.reference Texts.alice) .photon World.alice.users ⟨"alice", "secret"⟩ World.alice.time w'.time
      (.ok { status := ⟨.internalError, "DB Error"⟩ }) := by
  have hid : Uuid.ofString? (cStr "alice") = none := by decide +kernel
  have hw : Coherent (Libs.reference Texts.alice) .alice := coherent_of_empty rfl
  obtain ⟨tr, out, w', hrun, hexec⟩ := exists_run (L := Libs.reference Texts.alice) (AuthService.loginByPassword
    (Libs.reference Texts.alice) .photon (userRepository (Libs.reference Texts.alice)) ⟨"alice", "secret"⟩) .alice
  rcases loginByPassword_cases hw hexec hrun with ⟨hfind, -⟩ | ⟨row, hfind, -⟩ | ⟨-, rfl⟩
  · exact absurd (isSome_of_find hfind) (by simp [hid])
  · exact absurd (isSome_of_find hfind) (by simp [hid])
  · refine ⟨tr, w', hrun, hw, hexec, fun row hrow => ?_, fun h => h.noInternalError _ rfl rfl⟩
    exact absurd hrow.2.2 (by rw [hid]; exact nofun)

end PhotonCommerce.System
