import Mathlib
import PhotonCommerce.Runtime.Reference

/-!
# How `created_at` is read

* `civilFromDays` : the date of a day of the proleptic Gregorian calendar; `daysFromCivil_civilFromDays`;
* `timestamptzText` : the ISO text PostgreSQL prints for an instant in a zone;
* `getNumber_pad`, `strptime_timestamptzText` : the parser reads the date and the time of day and stops;
* `parsePostgresTimestamp_timestamptzText` : what is read is the instant shifted by the offset of the zone;
* `createdAt_right_iff` : it is the instant itself in the zone of offset zero only.
-/

namespace PhotonCommerce.Infrastructure
open Domain

/-! ## The calendar -/

/-- The year within 400 years and the day within the year, of a day within 400 years: cycles of 100, 4 and 1 years. -/
def yearAndDay (dayOfEra : Int) : Int × Int :=
  let century := min (dayOfEra / 36524) 3
  let dayOfCentury := dayOfEra - century * 36524
  let quad := dayOfCentury / 1461
  let dayOfQuad := dayOfCentury - quad * 1461
  let year := min (dayOfQuad / 365) 3
  (century * 100 + quad * 4 + year, dayOfQuad - year * 365)

/-- The date of a day counted from 1970-01-01; the cycles and the years begin in March. -/
def civilFromDays (days : Int) : Int × Int × Int :=
  let z := days + 719468
  let year := z / 146097 * 400 + (yearAndDay (z % 146097)).1
  let dayOfYear := (yearAndDay (z % 146097)).2
  let month := (5 * dayOfYear + 2) / 153
  let day := dayOfYear - (153 * month + 2) / 5 + 1
  if month < 10 then (year, month + 3, day) else (year + 1, month - 9, day)

/-- The cycles add up. -/
theorem yearAndDay_spec {dayOfEra year dayOfYear : Int} (hlo : 0 ≤ dayOfEra) (hhi : dayOfEra < 146097)
    (h : yearAndDay dayOfEra = (year, dayOfYear)) : 0 ≤ year ∧ year < 400 ∧ 0 ≤ dayOfYear ∧ dayOfYear < 366 ∧
      year * 365 + year / 4 - year / 100 + dayOfYear = dayOfEra := by
  simp only [yearAndDay, Prod.mk.injEq] at h
  generalize hcentury : min (dayOfEra / 36524) 3 = century at h
  generalize hquad : (dayOfEra - century * 36524) / 1461 = quad at h
  generalize hyear : min ((dayOfEra - century * 36524 - quad * 1461) / 365) 3 = yearOfQuad at h
  obtain ⟨hyoe, hdoy⟩ := h
  have hc : 0 ≤ century ∧ century ≤ 3 := by omega
  have hrest : 0 ≤ dayOfEra - century * 36524 ∧ dayOfEra - century * 36524 ≤ 36524 := by omega
  have hq : 0 ≤ quad ∧ quad ≤ 24 := by omega
  have hy : 0 ≤ yearOfQuad ∧ yearOfQuad ≤ 3 := by omega
  have hleap : year / 4 = century * 25 + quad := by omega
  have hcommon : year / 100 = century := by omega
  omega

/-- Days from a date whose month, counted from March, is `month`. -/
theorem daysFromCivil_march (year day : Int) {month : Int} (hlo : 0 ≤ month) (hhi : month < 12) :
    (if month < 10 then daysFromCivil year (month + 3) day else daysFromCivil (year + 1) (month - 9) day) =
      year / 400 * 146097 + (year % 400 * 365 + year % 400 / 4 - year % 400 / 100 +
        ((153 * month + 2) / 5 + day - 1)) - 719468 := by
  unfold daysFromCivil
  split
  · have hmonth : ¬ month + 3 ≤ 2 := by omega
    simp only [if_neg hmonth]
    rw [show month + 3 + -3 = month by omega]
  · have hmonth : month - 9 ≤ 2 := by omega
    simp only [if_pos hmonth]
    rw [show month - 9 + 9 = month by omega, show year + 1 - 1 = year by omega]

/-- A year, a month and a day that a date has. -/
structure DateRange (year month day : Int) (era : Int) : Prop where
  year_lo : era * 400 ≤ year
  year_hi : year ≤ era * 400 + 400
  month_lo : 1 ≤ month
  month_hi : month ≤ 12
  day_lo : 1 ≤ day
  day_hi : day ≤ 31

/-- **The date of a day** counts back to the day. -/
theorem daysFromCivil_civilFromDays {days year month day : Int} (h : civilFromDays days = (year, month, day)) :
    daysFromCivil year month day = days ∧ DateRange year month day ((days + 719468) / 146097) := by
  simp only [civilFromDays] at h
  generalize hz : days + 719468 = z at h ⊢
  have hlo := Int.emod_nonneg z (show (146097 : Int) ≠ 0 by decide)
  have hhi := Int.emod_lt_of_pos z (show (0 : Int) < 146097 by decide)
  generalize hyd : yearAndDay (z % 146097) = yd at h
  obtain ⟨yearOfEra, dayOfYear⟩ := yd
  obtain ⟨hyear₁, hyear₂, hday₁, hday₂, hera⟩ := yearAndDay_spec hlo hhi hyd
  generalize hmonth : (5 * dayOfYear + 2) / 153 = mp at h
  have hmp : 0 ≤ mp ∧ mp < 12 := by omega
  have hdiv : (z / 146097 * 400 + yearOfEra) / 400 = z / 146097 := by omega
  have hmod : (z / 146097 * 400 + yearOfEra) % 400 = yearOfEra := by omega
  have hmarch := daysFromCivil_march (z / 146097 * 400 + yearOfEra) (dayOfYear - (153 * mp + 2) / 5 + 1) hmp.1 hmp.2
  rw [hdiv, hmod] at hmarch
  split at h
  · next hlt =>
      obtain ⟨rfl, rfl, rfl⟩ : _ ∧ _ ∧ _ := by simpa only [Prod.mk.injEq] using h
      rw [if_pos hlt] at hmarch
      refine ⟨by omega, ?_⟩
      constructor <;> omega
  · next hge =>
      obtain ⟨rfl, rfl, rfl⟩ : _ ∧ _ ∧ _ := by simpa only [Prod.mk.injEq] using h
      rw [if_neg hge] at hmarch
      refine ⟨by omega, ?_⟩
      constructor <;> omega

example : civilFromDays 19782 = (2024, 2, 29) ∧ civilFromDays (-1) = (1969, 12, 31) := by decide +kernel

/-! ## The text of an instant -/

/-- The last `n` decimal digits of a number. -/
def pad : Nat → Nat → List Char
  | 0, _ => []
  | n + 1, v => Nat.digitChar (v / 10 ^ n % 10) :: pad n v

/-- The microseconds: a point and the digits up to the last one that is not zero, or nothing. -/
def fractionText (micros : Nat) : List Char :=
  if micros = 0 then [] else '.' :: ((pad 6 micros).reverse.dropWhile (· = '0')).reverse

/-- The offset of a zone in minutes: hours, and minutes when there are any. -/
def offsetText (offset : Int) : List Char :=
  (if offset < 0 then '-' else '+') :: (pad 2 (offset.natAbs / 60) ++
    if offset.natAbs % 60 = 0 then [] else ':' :: pad 2 (offset.natAbs % 60))

/-- `YYYY-MM-DD HH:MM:SS[.ffffff]+HH[:MM]`: a `TIMESTAMPTZ`, in microseconds from 1970-01-01 UTC, as PostgreSQL prints
it in a session whose zone is `offset` minutes ahead of UTC. -/
def timestamptzText (offset t : Int) : String :=
  let clock := t + offset * (60 * 10 ^ 6)
  let seconds := clock / 10 ^ 6
  let time := (seconds % 86400).toNat
  let (year, month, day) := civilFromDays (seconds / 86400)
  String.ofList (pad 4 year.toNat ++ '-' :: (pad 2 month.toNat ++ '-' :: (pad 2 day.toNat ++ ' ' ::
    (pad 2 (time / 3600) ++ ':' :: (pad 2 (time / 60 % 60) ++ ':' :: (pad 2 (time % 60) ++
      (fractionText (clock % 10 ^ 6).toNat ++ offsetText offset)))))))

/-! ## Reading it back -/

theorem isDigit_digitChar : ∀ d < 10, (Nat.digitChar d).isDigit = true := by decide

theorem toNat_digitChar : ∀ d < 10, (Nat.digitChar d).toNat - '0'.toNat = d := by decide

theorem readDigits_pad {hi n w v : Nat} (h : w * 10 ^ n + v % 10 ^ n ≤ hi) (rest : List Char) :
    readDigits hi n w (pad n v ++ rest) = (w * 10 ^ n + v % 10 ^ n, rest) := by
  induction n generalizing w with
  | zero => simp [pad, readDigits, Nat.mod_one]
  | succ n ih =>
      have hlt : v / 10 ^ n % 10 < 10 := Nat.mod_lt _ (by decide)
      have hsplit : v % 10 ^ (n + 1) = v / 10 ^ n % 10 * 10 ^ n + v % 10 ^ n := by
        rw [Nat.pow_succ, Nat.mod_mul, Nat.mul_comm, Nat.add_comm]
      have hsum : w * 10 ^ (n + 1) + v % 10 ^ (n + 1) =
          (w * 10 + v / 10 ^ n % 10) * 10 ^ n + v % 10 ^ n := by
        rw [hsplit, Nat.pow_succ]
        ring
      have hfits : w * 10 ≤ hi := by
        have hpos : 1 ≤ 10 ^ n := Nat.one_le_pow _ _ (by decide)
        calc w * 10 ≤ w * 10 * 10 ^ n := Nat.le_mul_of_pos_right _ hpos
          _ = w * 10 ^ (n + 1) := by rw [Nat.pow_succ]; ring
          _ ≤ hi := Nat.le_trans (Nat.le_add_right _ _) h
      rw [pad, List.cons_append, readDigits, if_pos ⟨hfits, isDigit_digitChar _ hlt⟩, toNat_digitChar _ hlt, hsum]
      exact ih (hsum ▸ h)

theorem dropWhile_isSpace_pad (n v : Nat) (rest : List Char) :
    (pad (n + 1) v ++ rest).dropWhile isSpace = pad (n + 1) v ++ rest := by
  have hdigit := isDigit_digitChar (v / 10 ^ n % 10) (Nat.mod_lt _ (by decide))
  rw [pad, List.cons_append]
  refine List.dropWhile_cons_of_neg ?_
  rw [(isDigit_not_isSpace hdigit).1]
  exact Bool.false_ne_true

/-- A padded number in range is read whole. -/
theorem getNumber_pad {lo hi n v : Nat} (hv : v < 10 ^ (n + 1)) (hlo : lo ≤ v) (hhi : v ≤ hi) (rest : List Char) :
    getNumber lo hi (n + 1) (pad (n + 1) v ++ rest) = some (v, rest) := by
  have hdigit := isDigit_digitChar (v / 10 ^ n % 10) (Nat.mod_lt _ (by decide))
  have hvalue : 0 * 10 ^ (n + 1) + v % 10 ^ (n + 1) = v := by rw [Nat.mod_eq_of_lt hv, Nat.zero_mul, Nat.zero_add]
  have hread := readDigits_pad (hvalue.trans_le hhi) rest
  rw [hvalue, pad, List.cons_append] at hread
  rw [getNumber, dropWhile_isSpace_pad, pad, List.cons_append]
  simp only [hdigit, if_true, hread, hlo, hhi, and_self]

/-- **`strptime` reads the date and the time of day**, whatever follows. -/
theorem strptime_pad {year month day hour minute second : Nat} (hyear : year ≤ 9999) (hmonth : 1 ≤ month ∧ month ≤ 12)
    (hday : 1 ≤ day ∧ day ≤ 31) (hhour : hour ≤ 23) (hminute : minute ≤ 59) (hsecond : second ≤ 59)
    (rest : List Char) :
    strptime (pad 4 year ++ '-' :: (pad 2 month ++ '-' :: (pad 2 day ++ ' ' :: (pad 2 hour ++ ':' ::
      (pad 2 minute ++ ':' :: (pad 2 second ++ rest)))))) = some ⟨year, month, day, hour, minute, second⟩ := by
  have hblank : ∀ src, (' ' :: (pad 2 hour ++ src)).dropWhile isSpace = pad 2 hour ++ src := by
    intro src
    rw [List.dropWhile_cons_of_pos (by decide), dropWhile_isSpace_pad]
  simp only [strptime, matchChar, if_true, hblank, Option.bind_eq_bind, Option.bind_some, Option.pure_def,
    getNumber_pad (show year < 10 ^ 4 by omega) (Nat.zero_le _) hyear,
    getNumber_pad (show month < 10 ^ 2 by omega) hmonth.1 hmonth.2,
    getNumber_pad (show day < 10 ^ 2 by omega) hday.1 hday.2,
    getNumber_pad (show hour < 10 ^ 2 by omega) (Nat.zero_le _) hhour,
    getNumber_pad (show minute < 10 ^ 2 by omega) (Nat.zero_le _) hminute,
    getNumber_pad (show second < 10 ^ 2 by omega) (Nat.zero_le _) (show second ≤ 61 by omega)]

/-- **What is read** is the instant in whole seconds, shifted by the offset of the zone. -/
theorem parsePostgresTimestamp_timestamptzText {t offset : Int} (hlo : daysFromCivil 1970 1 1 * 86400 * 10 ^ 6 ≤ t)
    (hhi : t < daysFromCivil 2262 1 1 * 86400 * 10 ^ 6) (hoffset : offset.natAbs < 100 * 60) :
    parsePostgresTimestamp (timestamptzText offset t) = (t / 10 ^ 6 + offset * 60) * 10 ^ 9 := by
  have hbounds : 0 ≤ t ∧ t < 9214646400 * 10 ^ 6 := ⟨hlo, hhi⟩
  have hseconds : (t + offset * (60 * 10 ^ 6)) / 10 ^ 6 = t / 10 ^ 6 + offset * 60 := by omega
  generalize hs : t / 10 ^ 6 + offset * 60 = seconds at *
  have hrange : -360000 ≤ seconds ∧ seconds < 9214646400 + 360000 := by omega
  obtain ⟨⟨year, month, day⟩, hcivil⟩ : ∃ date, civilFromDays (seconds / 86400) = date := ⟨_, rfl⟩
  obtain ⟨hdays, hdate⟩ := daysFromCivil_civilFromDays hcivil
  have hyear₁ := hdate.year_lo
  have hyear₂ := hdate.year_hi
  have hmonth₁ := hdate.month_lo
  have hmonth₂ := hdate.month_hi
  have hday₁ := hdate.day_lo
  have hday₂ := hdate.day_hi
  have htime : (seconds % 86400).toNat < 86400 := by omega
  have hparse : strptime (timestamptzText offset t).toList = some ⟨year.toNat, month.toNat, day.toNat,
      (seconds % 86400).toNat / 3600, (seconds % 86400).toNat / 60 % 60, (seconds % 86400).toNat % 60⟩ := by
    simp only [timestamptzText, hseconds, hcivil, String.toList_ofList]
    exact strptime_pad (by omega) (by omega) (by omega) (by omega) (by omega) (by omega) _
  have hnonempty : ¬ (timestamptzText offset t).isEmpty = true := by
    intro hempty
    rw [String.isEmpty_iff.mp hempty] at hparse
    cases hparse
  have htimegm : timegm ⟨year.toNat, month.toNat, day.toNat, (seconds % 86400).toNat / 3600,
      (seconds % 86400).toNat / 60 % 60, (seconds % 86400).toNat % 60⟩ = seconds := by
    simp only [timegm]
    rw [Int.toNat_of_nonneg (by omega), Int.toNat_of_nonneg (by omega), Int.toNat_of_nonneg (by omega), hdays]
    omega
  simp only [parsePostgresTimestamp, if_neg hnonempty, hparse, htimegm]
  exact Int.bmod_eq_of_le (by omega) (by omega)

example : timestamptzText (-210) 1764151200120000 = "2025-11-26 06:30:00.12-03:30" := by decide +kernel

/-- **`created_at` is the right instant**, in whole seconds and through the cache, exactly when the session's zone has
offset zero. -/
theorem createdAt_right_iff {row : Row} {offset : Int} (hlo : daysFromCivil 1970 1 1 * 86400 * 10 ^ 6 ≤ row.createdAt)
    (hhi : row.createdAt < daysFromCivil 2262 1 1 * 86400 * 10 ^ 6) (hoffset : offset.natAbs < 100 * 60) :
    (parsePostgresTimestamp (timestamptzText offset row.createdAt) = row.createdAt / 10 ^ 6 * 10 ^ 9 ∧
      (UserDao.userOfRow (timestamptzText offset) row).cached.createdAt =
        (UserDao.userOfRow (timestamptzText offset) row).createdAt) ↔ offset = 0 := by
  have hbounds : 0 ≤ row.createdAt ∧ row.createdAt < 9214646400 * 10 ^ 6 := ⟨hlo, hhi⟩
  have hparse := parsePostgresTimestamp_timestamptzText hlo hhi hoffset
  have hcached : (UserDao.userOfRow (timestamptzText offset) row).cached.createdAt =
      (UserDao.userOfRow (timestamptzText offset) row).createdAt := by
    simp only [User.cached, UserDao.userOfRow]
    rw [hparse, secondsOfTimePoint, Int.mul_tdiv_cancel _ (by decide)]
    exact Int.bmod_eq_of_le (by omega) (by omega)
  rw [hparse]
  constructor
  · intro h
    have := h.1
    omega
  · intro h
    refine ⟨?_, hcached⟩
    rw [h]
    omega

/-- A user created on 2025-11-26 10:00:00 UTC, in a session in UTC. -/
theorem createdAt_right_utc : ∃ row : Row, row = Row.alice ∧ timestamptzText 0 row.createdAt = "2025-11-26 10:00:00+00" ∧
    parsePostgresTimestamp (timestamptzText 0 row.createdAt) = row.createdAt / 10 ^ 6 * 10 ^ 9 :=
  ⟨Row.alice, rfl, by decide +kernel,
    ((createdAt_right_iff (show daysFromCivil 1970 1 1 * 86400 * 10 ^ 6 ≤ Row.alice.createdAt by decide +kernel)
      (by decide +kernel) (by decide)).mpr rfl).1⟩

/-- The same user in a session in Shanghai: eight hours late. -/
theorem createdAt_wrong_shanghai : timestamptzText 480 Row.alice.createdAt = "2025-11-26 18:00:00+08" ∧
    parsePostgresTimestamp (timestamptzText 480 Row.alice.createdAt) = (1764151200 + 8 * 3600) * 10 ^ 9 ∧
    parsePostgresTimestamp (timestamptzText 480 Row.alice.createdAt) ≠ Row.alice.createdAt / 10 ^ 6 * 10 ^ 9 := by
  decide +kernel

end PhotonCommerce.Infrastructure
