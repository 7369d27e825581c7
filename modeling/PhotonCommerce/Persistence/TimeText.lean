import PhotonCommerce.Domain.Lifecycle
import PhotonCommerce.Persistence.Timestamp

/-!
# How times are printed

* `dateText` : a count of seconds as `YYYY-MM-DD HH:MM:SS`; `strptime_dateText` : it is read back;
* `fmtTime`, `userToString` : the text of a user in the log;
* `parsePostgresTimestamp_fmtTime` : every time point the text shows is read back in whole seconds;
* `toString_userOfRow` : a user that was read prints the time that PostgreSQL printed, in any zone of the session.
-/

namespace PhotonCommerce.Infrastructure
open Domain

/-- `gmtime` and `strftime` with `%Y-%m-%d %H:%M:%S`, for the years of four digits. -/
def dateText (seconds : Int) : List Char :=
  let time := (seconds % 86400).toNat
  let (year, month, day) := civilFromDays (seconds / 86400)
  pad 4 year.toNat ++ '-' :: (pad 2 month.toNat ++ '-' :: (pad 2 day.toNat ++ ' ' ::
    (pad 2 (time / 3600) ++ ':' :: (pad 2 (time / 60 % 60) ++ ':' :: pad 2 (time % 60)))))

/-- `fmt_time`. -/
def fmtTime (tp : Int) : String :=
  -- `to_time_t` cuts towards zero
  let t := secondsOfTimePoint tp
  if t = 0 then "null" else String.ofList (dateText t)

/-- The format of `User::ToString`. -/
def userText (id phone username email status createdAt deletedAt : String) : String :=
  "User \x7b id: " ++ id ++ ", phone: " ++ phone ++ ", username: " ++ username ++ ", email: " ++ email ++
    ", status: " ++ status ++ ", created_at: " ++ createdAt ++ ", deleted_at: " ++ deletedAt ++ " \x7d"

/-- `User::ToString`. -/
def userToString (u : User) : String :=
  userText u.id u.phoneNumber (u.username.getD "null") (u.email.getD "null") (toString u.status.toInt)
    (fmtTime u.createdAt) ((u.deletedAt.map fmtTime).getD "null")

theorem length_pad (n v : Nat) : (pad n v).length = n := by
  induction n with
  | zero => rfl
  | succ n ih => rw [pad, List.length_cons, ih]

theorem length_dateText (seconds : Int) : (dateText seconds).length = 19 := by
  simp [dateText, length_pad]

/-- **The text is read back**, whatever follows. -/
theorem strptime_dateText {seconds : Int} (hlo : -10 ^ 10 ≤ seconds) (hhi : seconds ≤ 10 ^ 10) (rest : List Char) :
    ∃ tm, strptime (dateText seconds ++ rest) = some tm ∧ timegm tm = seconds := by
  obtain ⟨⟨year, month, day⟩, hcivil⟩ : ∃ date, civilFromDays (seconds / 86400) = date := ⟨_, rfl⟩
  obtain ⟨hdays, hdate⟩ := daysFromCivil_civilFromDays hcivil
  have hyear₁ := hdate.year_lo
  have hyear₂ := hdate.year_hi
  have hmonth₁ := hdate.month_lo
  have hmonth₂ := hdate.month_hi
  have hday₁ := hdate.day_lo
  have hday₂ := hdate.day_hi
  have htime : (seconds % 86400).toNat < 86400 := by omega
  refine ⟨⟨year.toNat, month.toNat, day.toNat, (seconds % 86400).toNat / 3600, (seconds % 86400).toNat / 60 % 60,
    (seconds % 86400).toNat % 60⟩, ?_, ?_⟩
  · simp only [dateText, hcivil, List.append_assoc, List.cons_append]
    exact strptime_pad (by omega) (by omega) (by omega) (by omega) (by omega) (by omega) rest
  · simp only [timegm]
    rw [Int.toNat_of_nonneg (by omega), Int.toNat_of_nonneg (by omega), Int.toNat_of_nonneg (by omega), hdays]
    omega

/-- What a text that begins with a time is read as. -/
theorem parsePostgresTimestamp_dateText {seconds : Int} (hlo : -10 ^ 10 ≤ seconds) (hhi : seconds ≤ 10 ^ 10)
    (rest : List Char) :
    parsePostgresTimestamp (String.ofList (dateText seconds ++ rest)) = timePointOfSeconds seconds := by
  obtain ⟨tm, hparse, htimegm⟩ := strptime_dateText hlo hhi rest
  rw [← String.toList_ofList (l := dateText seconds ++ rest)] at hparse
  have hnonempty : ¬ (String.ofList (dateText seconds ++ rest)).isEmpty = true := by
    intro hempty
    rw [String.isEmpty_iff.mp hempty] at hparse
    cases hparse
  simp only [parsePostgresTimestamp, if_neg hnonempty, hparse, htimegm]

theorem ofList_dateText_ne_null (seconds : Int) : String.ofList (dateText seconds) ≠ "null" := by
  intro h
  have hlen := congrArg (fun text => text.toList.length) h
  simp only [String.toList_ofList, length_dateText] at hlen
  exact absurd hlen (by decide)

/-- **Every time point is shown**, in whole seconds: the text is `null` exactly for the second around the epoch, and
any other text has nineteen characters and is read back by the DAO as the time point cut to seconds. -/
theorem parsePostgresTimestamp_fmtTime {tp : Int} (hlo : -2 ^ 63 ≤ tp) (hhi : tp < 2 ^ 63) :
    (fmtTime tp = "null" ↔ tp.natAbs < 10 ^ 9) ∧
    (fmtTime tp ≠ "null" → (fmtTime tp).length = 19 ∧
      parsePostgresTimestamp (fmtTime tp) = secondsOfTimePoint tp * 10 ^ 9) := by
  obtain ⟨hmin, hmax⟩ := secondsOfTimePoint_bounds tp
  have hzero : secondsOfTimePoint tp = 0 ↔ tp.natAbs < 10 ^ 9 := by
    rw [← Int.natAbs_eq_zero, secondsOfTimePoint, Int.natAbs_tdiv]
    exact Nat.div_eq_zero_iff_lt (by decide)
  unfold fmtTime
  by_cases ht : secondsOfTimePoint tp = 0
  · rw [if_pos ht]
    exact ⟨iff_of_true rfl (hzero.mp ht), fun hne => absurd rfl hne⟩
  · rw [if_neg ht]
    refine ⟨iff_of_false (ofList_dateText_ne_null _) fun h => ht (hzero.mpr h), fun _ => ⟨?_, ?_⟩⟩
    · rw [← String.length_toList, String.toList_ofList, length_dateText]
    · have hparse := parsePostgresTimestamp_dateText (show -10 ^ 10 ≤ secondsOfTimePoint tp by omega) (by omega) []
      rw [List.append_nil] at hparse
      rw [hparse, timePointOfSeconds]
      exact Int.bmod_eq_of_le (by omega) (by omega)

theorem parsePostgresTimestamp_fmtTime_past : fmtTime (-1167609600 * 10 ^ 9) = "1933-01-01 00:00:00" ∧
    parsePostgresTimestamp (fmtTime (-1167609600 * 10 ^ 9)) = -1167609600 * 10 ^ 9 := by
  have htext : fmtTime (-1167609600 * 10 ^ 9) = "1933-01-01 00:00:00" := by decide +kernel
  have hne : fmtTime (-1167609600 * 10 ^ 9) ≠ "null" := by
    rw [htext]
    decide
  exact ⟨htext, ((parsePostgresTimestamp_fmtTime (by decide) (by decide)).2 hne).2.trans (by decide)⟩

/-! ## The log and the database -/

/-- What PostgreSQL prints after the seconds. -/
theorem timestamptzText_eq (offset t : Int) : ∃ rest, timestamptzText offset t =
    String.ofList (dateText ((t + offset * (60 * 10 ^ 6)) / 10 ^ 6) ++ rest) := by
  refine ⟨fractionText ((t + offset * (60 * 10 ^ 6)) % 10 ^ 6).toNat ++ offsetText offset, ?_⟩
  simp only [timestamptzText, dateText, List.append_assoc, List.cons_append]

/-- **The log shows what the database printed**: the text of a user that was read has the first nineteen characters of
the text of its `created_at`, whatever the zone of the session, and says `null` only when they are those of the epoch. -/
theorem toString_userOfRow {row : Row} {offset : Int} (hlo : daysFromCivil 1970 1 1 * 86400 * 10 ^ 6 ≤ row.createdAt)
    (hhi : row.createdAt < daysFromCivil 2262 1 1 * 86400 * 10 ^ 6) (hoffset : offset.natAbs < 100 * 60) :
    let shown := String.ofList ((timestamptzText offset row.createdAt).toList.take 19)
    userToString (UserDao.userOfRow (timestamptzText offset) row) =
      userText row.id.toString row.phoneNumber.text ((row.username.map Varchar.text).getD "null")
        ((row.email.map Varchar.text).getD "null") (toString row.status.toInt)
        (if shown = "1970-01-01 00:00:00" then "null" else shown) "null" := by
  intro shown
  have hbounds : 0 ≤ row.createdAt ∧ row.createdAt < 9214646400 * 10 ^ 6 := ⟨hlo, hhi⟩
  obtain ⟨rest, htext⟩ := timestamptzText_eq offset row.createdAt
  have hseconds : (row.createdAt + offset * (60 * 10 ^ 6)) / 10 ^ 6 = row.createdAt / 10 ^ 6 + offset * 60 := by omega
  have hparse := parsePostgresTimestamp_timestamptzText hlo hhi hoffset
  rw [hseconds] at htext
  generalize row.createdAt / 10 ^ 6 + offset * 60 = seconds at hparse htext hseconds
  have hrange : -10 ^ 10 ≤ seconds ∧ seconds ≤ 10 ^ 10 := by omega
  have hshown : shown = String.ofList (dateText seconds) := by
    show String.ofList ((timestamptzText offset row.createdAt).toList.take 19) = _
    rw [htext, String.toList_ofList, List.take_left' (length_dateText seconds)]
  have hcut : secondsOfTimePoint (seconds * 10 ^ 9) = seconds := Int.mul_tdiv_cancel _ (by decide)
  have hepoch : shown = "1970-01-01 00:00:00" ↔ seconds = 0 := by
    rw [hshown]
    constructor
    · intro h
      have hread := parsePostgresTimestamp_dateText hrange.1 hrange.2 []
      rw [List.append_nil, h, timePointOfSeconds, Int.bmod_eq_of_le (by omega) (by omega)] at hread
      have hzero : parsePostgresTimestamp "1970-01-01 00:00:00" = 0 := by decide +kernel
      omega
    · rintro rfl
      decide +kernel
  have hfmt : fmtTime (seconds * 10 ^ 9) = if shown = "1970-01-01 00:00:00" then "null" else shown := by
    rw [fmtTime, hcut, if_congr hepoch rfl rfl, hshown]
  have hcreated : (UserDao.userOfRow (timestamptzText offset) row).createdAt = seconds * 10 ^ 9 := hparse
  rw [userToString, hcreated, hfmt]
  rfl

/-- A user created on 2025-11-26 10:00:00 UTC, read in a session in Shanghai. -/
theorem toString_userOfRow_shanghai : userToString (UserDao.userOfRow (timestamptzText 480) Row.alice) =
    userText Row.alice.id.toString Row.alice.phoneNumber.text ((Row.alice.username.map Varchar.text).getD "null")
      ((Row.alice.email.map Varchar.text).getD "null") (toString Row.alice.status.toInt) "2025-11-26 18:00:00" "null" := by
  have hshown : String.ofList ((timestamptzText 480 Row.alice.createdAt).toList.take 19) = "2025-11-26 18:00:00" := by
    decide +kernel
  have hlo : daysFromCivil 1970 1 1 * 86400 * 10 ^ 6 ≤ Row.alice.createdAt := by decide +kernel
  have htext := @toString_userOfRow Row.alice 480 hlo (by decide +kernel) (by decide)
  rw [hshown] at htext
  exact htext

example : userToString (User.create "id" "13800000000" "hash" "salt") =
    "User \x7b id: id, phone: 13800000000, username: null, email: null, status: 0, created_at: null, deleted_at: null \x7d" := by
  decide +kernel

end PhotonCommerce.Infrastructure
