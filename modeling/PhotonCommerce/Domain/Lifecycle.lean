import PhotonCommerce.Domain.User
import PhotonCommerce.Lib.Erasure

/-!
# The life of a `User`

* `User.changePassword`, `User.markAsDeleted`, `User.isDeleted` : the operations beside `UpdateProfile`;
* `UserOp`, `User.apply` : the operations in any order, and a trip through the user cache at any point;
* `User.lifetime` : what no sequence of operations changes, and when a user is deleted in the end;
* `User.trips_amount_to_one` : any number of trips through the cache, wherever they are, leaves what one trip at the end
  leaves, and the other operations do not notice.
-/

namespace PhotonCommerce.Domain
open Erasure

namespace User

/-- `User::ChangePassword`, which throws `std::invalid_argument`. -/
def changePassword (u : User) (newHash newSalt : String) : Except String User :=
  if newHash.isEmpty || newSalt.isEmpty then .error "Hash and salt cannot be empty"
  else .ok { u with passwordHash := newHash, salt := newSalt }

/-- `User::MarkAsDeleted`, at the time `now`. -/
def markAsDeleted (u : User) (now : Int) : User := { u with status := .deleted, deletedAt := some now }

/-- `User::IsDeleted`. -/
def isDeleted (u : User) : Bool := u.deletedAt.isSome || u.status == .deleted

end User

/-- An operation on a user, or a trip through the cache: `ToJson`, then `FromJson`. -/
inductive UserOp where
  | changePassword (newHash newSalt : String)
  | updateProfile (username email avatarUrl : Option String)
  | markAsDeleted (now : Int)
  | throughCache
  deriving DecidableEq, Repr

/-- An operation of `User` itself. -/
def UserOp.own : UserOp → Bool
  | .throughCache => false
  | _ => true

namespace User

/-- The user after an operation, and what the operation has thrown. -/
def apply (outside : Json.Outside) (u : User) : UserOp → User × Option String
  | .changePassword newHash newSalt =>
      match u.changePassword newHash newSalt with
      | .ok v => (v, none)
      | .error what => (u, some what)
  | .updateProfile username email avatarUrl => (u.updateProfile username email avatarUrl, none)
  | .markAsDeleted now => (u.markAsDeleted now, none)
  | .throughCache =>
      match fromJson outside u.toJson with
      | some v => (v, none)
      | none => (u, some "User JSON deserialization failed")

variable {outside : Json.Outside} {u v : User}

theorem apply_throughCache (h : u.Sound) : u.apply outside .throughCache = (u.cached, none) := by
  simp only [apply, fromJson_toJson outside u h.lo h.hi]

theorem apply_changePassword (newHash newSalt : String) : u.apply outside (.changePassword newHash newSalt) =
    if newHash.isEmpty || newSalt.isEmpty then (u, some "Hash and salt cannot be empty")
    else ({ u with passwordHash := newHash, salt := newSalt }, none) := by
  simp only [apply, changePassword]
  split_ifs <;> rfl

theorem sound_cached (h : u.Sound) : u.cached.Sound := sound_of_fromJson (fromJson_toJson (fun _ _ => 0) u h.lo h.hi)

theorem sound_apply (h : u.Sound) (op : UserOp) : (u.apply outside op).1.Sound := by
  cases op with
  | changePassword newHash newSalt =>
      rw [apply_changePassword]
      split_ifs
      · exact h
      · exact ⟨h.lo, h.hi, h.deleted⟩
  | updateProfile username email avatarUrl => exact ⟨h.lo, h.hi, h.deleted⟩
  | markAsDeleted now => exact ⟨h.lo, h.hi, fun _ => rfl⟩
  | throughCache =>
      rw [apply_throughCache h]
      exact sound_cached h

/-- The status alone says whether a user is deleted, so that the cache, which drops the instant, keeps it. -/
theorem isDeleted_of_sound (h : u.Sound) : u.isDeleted = (u.status == .deleted) := by
  unfold isDeleted
  cases hdel : u.deletedAt.isSome with
  | false => rw [Bool.false_or]
  | true =>
      rw [h.deleted hdel]
      rfl

theorem isDeleted_cached (h : u.Sound) : u.cached.isDeleted = u.isDeleted := by
  rw [isDeleted_of_sound h]
  rfl

end User

/-! ## What a life can be -/

/-- An operation that deletes the user. -/
def UserOp.deletes : UserOp → Bool
  | .markAsDeleted _ => true
  | _ => false

/-- A password that an operation sets, unless it throws. -/
def UserOp.password : UserOp → Option (String × String)
  | .changePassword newHash newSalt => if newHash.isEmpty || newSalt.isEmpty then none else some (newHash, newSalt)
  | _ => none

namespace User
variable {outside : Json.Outside} {u v : User}

/-- What one operation does to the fields that the profile does not have. -/
theorem lifetime_apply (h : u.Sound) (op : UserOp) : (u.apply outside op).1.id = u.id ∧
    (u.apply outside op).1.phoneNumber = u.phoneNumber ∧
    (u.apply outside op).1.isDeleted = (u.isDeleted || op.deletes) ∧
    ((u.apply outside op).1.passwordHash, (u.apply outside op).1.salt) = op.password.getD (u.passwordHash, u.salt) := by
  cases op with
  | changePassword newHash newSalt =>
      rw [apply_changePassword, show (UserOp.changePassword newHash newSalt).password =
        if newHash.isEmpty || newSalt.isEmpty then none else some (newHash, newSalt) from rfl]
      split_ifs
      · exact ⟨rfl, rfl, (Bool.or_false _).symm, rfl⟩
      · exact ⟨rfl, rfl, (Bool.or_false _).symm, rfl⟩
  | updateProfile username email avatarUrl => exact ⟨rfl, rfl, (Bool.or_false _).symm, rfl⟩
  | markAsDeleted now => exact ⟨rfl, rfl, (Bool.or_true _).symm, rfl⟩
  | throughCache =>
      rw [apply_throughCache h]
      exact ⟨rfl, rfl, (isDeleted_cached h).trans (Bool.or_false _).symm, rfl⟩

/-- **A life.** Whatever operations a user goes through, with trips through the cache at any point: the id and the phone
number stay; the user is deleted in the end exactly if it was deleted before or one of them deleted it; the hash and the
salt are those of the last change of password that did not throw, together. -/
theorem lifetime (h : u.Sound) (ops : List UserOp) : (play (User.apply outside) u ops).1.id = u.id ∧
    (play (User.apply outside) u ops).1.phoneNumber = u.phoneNumber ∧
    (play (User.apply outside) u ops).1.isDeleted = (u.isDeleted || ops.any UserOp.deletes) ∧
    ((play (User.apply outside) u ops).1.passwordHash, (play (User.apply outside) u ops).1.salt) =
      (ops.filterMap UserOp.password).getLast?.getD (u.passwordHash, u.salt) := by
  induction ops generalizing u with
  | nil => exact ⟨rfl, rfl, (Bool.or_false _).symm, rfl⟩
  | cons op ops ih =>
      obtain ⟨hid, hphone, hdel, hpassword⟩ := lifetime_apply h op
      obtain ⟨ihid, ihphone, ihdel, ihpassword⟩ := ih (sound_apply h op)
      refine ⟨ihid.trans hid, ihphone.trans hphone, ?_, ihpassword.trans ?_⟩
      · rw [play, ihdel, hdel, List.any_cons, Bool.or_assoc]
      · rw [hpassword, List.filterMap_cons]
        cases op.password with
        | none => rfl
        | some password =>
            rw [List.getLast?_cons]
            rfl

/-! ## Trips through the cache -/

/-- What every getter but `GetDeletedAt` shows. -/
def shown (u : User) : User := { u with deletedAt := none }

/-- A second trip finds nothing more to drop. -/
theorem cached_cached (h : u.Sound) : u.cached.cached = u.cached := by
  simp only [cached, Option.getD_some, secondsOfTimePoint_timePointOfSeconds h.lo h.hi]

/-- What an operation of `User` itself throws depends on its arguments only. -/
theorem apply_snd {op : UserOp} (hop : op.own = true) : (u.apply outside op).2 = (v.apply outside op).2 := by
  cases op with
  | changePassword newHash newSalt =>
      rw [apply_changePassword, apply_changePassword]
      split_ifs <;> rfl
  | updateProfile username email avatarUrl => rfl
  | markAsDeleted now => rfl
  | throughCache => cases hop

/-- What it leaves depends on what was shown. -/
theorem shown_apply {op : UserOp} (hop : op.own = true) (h : u.shown = v.shown) :
    (u.apply outside op).1.shown = (v.apply outside op).1.shown := by
  simp only [shown, User.mk.injEq] at h
  obtain ⟨hid, hphone, hhash, hsalt, hname, hemail, havatar, hstatus, hcreated, -⟩ := h
  cases op with
  | changePassword newHash newSalt =>
      rw [apply_changePassword, apply_changePassword]
      split_ifs <;> simp only [shown, hid, hphone, hhash, hsalt, hname, hemail, havatar, hstatus, hcreated]
  | updateProfile username email avatarUrl =>
      simp only [apply, updateProfile, shown, hid, hphone, hhash, hsalt, hname, hemail, havatar, hstatus, hcreated]
  | markAsDeleted now =>
      simp only [apply, markAsDeleted, shown, hid, hphone, hhash, hsalt, hname, hemail, havatar, hcreated]
  | throughCache => cases hop

/-- A trip before an operation is a trip after it. -/
theorem apply_cached {op : UserOp} (hop : op.own = true) :
    (u.cached.apply outside op).1.shown = (u.apply outside op).1.cached := by
  have hfield : ∀ new old : Option String, (new.orElse fun _ => some (old.getD "")) =
      some ((new.orElse fun _ => old).getD "") := by
    intro new old
    cases new <;> rfl
  cases op with
  | changePassword newHash newSalt =>
      rw [apply_changePassword, apply_changePassword]
      split_ifs <;> rfl
  | updateProfile username email avatarUrl => simp only [apply, updateProfile, shown, cached, hfield]
  | markAsDeleted now => rfl
  | throughCache => cases hop

/-- The one user shows what the other shows after a trip, and is deleted if the other is. -/
structure Trailing (u v : User) : Prop where
  sound : u.Sound
  sound' : v.Sound
  shown : u.shown = v.cached
  isDeleted : u.isDeleted = v.isDeleted

theorem Trailing.own (h : Trailing u v) {op : UserOp} (hop : op.own = true) :
    Trailing (u.apply outside op).1 (v.apply outside op).1 where
  sound := sound_apply h.sound op
  sound' := sound_apply h.sound' op
  shown := (shown_apply hop (h.shown.trans rfl)).trans (apply_cached hop)
  isDeleted := by rw [(lifetime_apply h.sound op).2.2.1, (lifetime_apply h.sound' op).2.2.1, h.isDeleted]

theorem Trailing.throughCache (h : Trailing u v) : Trailing u.cached v where
  sound := sound_cached h.sound
  sound' := h.sound'
  shown := (congrArg cached h.shown).trans (cached_cached h.sound')
  isDeleted := (isDeleted_cached h.sound).trans h.isDeleted

/-- From the first trip on. -/
theorem trips_trailing (h : Trailing u v) (ops : List UserOp) :
    Trailing (play (User.apply outside) u ops).1 (play (User.apply outside) v (ops.filter UserOp.own)).1 ∧
    ((play (User.apply outside) u ops).2.filter fun p => p.1.own) =
      (play (User.apply outside) v (ops.filter UserOp.own)).2 := by
  refine @play_erase _ _ _ (User.apply outside) UserOp.own Trailing ?_ ?_ u v h ops
  · exact fun u v op hop htrail => ⟨apply_snd hop, htrail.own hop⟩
  · intro u v op hop htrail
    cases op with
    | throughCache =>
        rw [apply_throughCache htrail.sound]
        exact htrail.throughCache
    | _ => cases hop

/-- **Trips through the cache amount to one.** In any sequence of operations with any number of trips in between, every
operation throws what it throws without the trips, the user is deleted in the end if it is without them, and every
getter but `GetDeletedAt` gives what it gives after one trip at the very end. -/
theorem trips_amount_to_one (outside : Json.Outside) (h : u.Sound) (ops : List UserOp) :
    (play (User.apply outside) u ops).1.shown =
      (if ops.all UserOp.own then (play (User.apply outside) u (ops.filter UserOp.own)).1.shown
        else (play (User.apply outside) u (ops.filter UserOp.own)).1.cached) ∧
    (play (User.apply outside) u ops).1.isDeleted =
      (play (User.apply outside) u (ops.filter UserOp.own)).1.isDeleted ∧
    ((play (User.apply outside) u ops).2.filter fun p => p.1.own) =
      (play (User.apply outside) u (ops.filter UserOp.own)).2 := by
  induction ops generalizing u with
  | nil => exact ⟨rfl, rfl, rfl⟩
  | cons op ops ih =>
      by_cases hop : op.own = true
      · obtain ⟨hshown, hdel, houts⟩ := ih (sound_apply h op)
        rw [List.filter_cons_of_pos hop, List.all_cons, hop, Bool.true_and]
        refine ⟨hshown, hdel, ?_⟩
        simp only [play, List.filter_cons, hop, if_true, houts]
      · have hop' : op.own = false := by simpa using hop
        obtain rfl : op = .throughCache := by
          cases op with
          | throughCache => rfl
          | _ => cases hop'
        obtain ⟨htrail, houts⟩ := @trips_trailing outside _ _
          (Trailing.mk (sound_cached h) h rfl (isDeleted_cached h)) ops
        rw [List.filter_cons_of_neg hop, List.all_cons, hop', Bool.false_and]
        refine ⟨?_, ?_, ?_⟩
        · rw [play, apply_throughCache h]
          exact htrail.shown
        · rw [play, apply_throughCache h]
          exact htrail.isDeleted
        · simp only [play, apply_throughCache h, List.filter_cons, hop', Bool.false_eq_true, if_false]
          exact houts

/-- A user that is created, stored and marked as deleted. -/
theorem lifetime_deleted : (play (User.apply fun _ _ => 0) (User.create "id" "13800000000" "hash" "salt")
    [.throughCache, .markAsDeleted 5, .throughCache, .changePassword "" "s"]).1.isDeleted = true :=
  (lifetime (sound_create _ _ _ _) _).2.2.1

/-- The same user, as it is after one trip at the end. -/
theorem trips_amount_to_one_deleted : (play (User.apply fun _ _ => 0) (User.create "id" "13800000000" "hash" "salt")
    [.throughCache, .markAsDeleted 5, .throughCache]).1.shown =
      ((User.create "id" "13800000000" "hash" "salt").markAsDeleted 5).cached :=
  (trips_amount_to_one (fun _ _ => 0) (sound_create _ _ _ _) [.throughCache, .markAsDeleted 5, .throughCache]).1

end User

end PhotonCommerce.Domain
