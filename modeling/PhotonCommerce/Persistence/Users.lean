import PhotonCommerce.Utils.Uuid
import Mathlib

/-!
# The `users` table

* `Varchar n` : the texts a `VARCHAR(n)` column can hold;
* `Row`, `UsersTable` : the rows and the constraints of the schema, which no value of the type can break;
* `Statement` : the two shapes of statement the DAO sends, with the columns in the order of their text;
* `UsersTable.execute` : what PostgreSQL does with a statement and its text parameters, or the SQLSTATE it reports;
* `UsersTable.Grows` : rows are only added at the end; lookups that found a row find it again.

Text parameters reach the server as C strings.
-/

namespace PhotonCommerce.Infrastructure
open Utils

/-! ## Text -/

/-- What a `const char*` of the string carries: the characters before the first NUL. -/
def cStr (s : String) : String := String.ofList (s.toList.takeWhile fun c => c ≠ '\x00')

/-- No NUL in the string. -/
def NulFree (s : String) : Prop := '\x00' ∉ s.toList

instance (s : String) : Decidable (NulFree s) := inferInstanceAs (Decidable (_ ∉ _))

theorem nulFree_cStr (s : String) : NulFree (cStr s) := by
  intro h
  rw [cStr, String.toList_ofList] at h
  exact absurd (List.mem_takeWhile_imp h) (by simp)

theorem cStr_of_nulFree {s : String} (h : NulFree s) : cStr s = s := by
  rw [cStr, List.takeWhile_eq_self_iff.mpr, String.ofList_toList]
  intro c hc
  simp only [decide_eq_true_eq]
  rintro rfl
  exact h hc

theorem nulFree_toString (u : Uuid) : NulFree u.toString := by
  have hdigit : ∀ n < 16, hexLower n ≠ '\x00' := by decide
  rw [NulFree, Uuid.toString, String.toList_ofList]
  generalize u.bytes = bytes
  induction bytes with
  | nil => simp [printBytes]
  | cons b bytes ih =>
      have hb := b.toNat_lt
      have hhi := hdigit (b.toNat / 16) (by omega)
      have hlo := hdigit (b.toNat % 16) (by omega)
      have hsep : '\x00' ∉ (if bytes.length ∈ [12, 10, 8, 6] then ['-'] else []) := by split <;> simp
      rw [printBytes, List.mem_cons, List.mem_cons, List.mem_append, not_or, not_or, not_or]
      exact ⟨hhi.symm, hlo.symm, hsep, ih⟩

theorem nulFree_hexEncode (bytes : List UInt8) : NulFree (hexEncode bytes) := by
  have hdigit : ∀ n < 16, hexUpper n ≠ '\x00' := by decide
  intro h
  rw [hexEncode, String.toList_ofList, List.mem_flatMap] at h
  obtain ⟨b, -, hmem⟩ := h
  have hb := b.toNat_lt
  simp only [List.mem_cons, List.not_mem_nil, or_false] at hmem
  rcases hmem with h | h
  · exact hdigit _ (by omega) h.symm
  · exact hdigit _ (by omega) h.symm

/-- The texts of a `VARCHAR(n)` column. -/
structure Varchar (n : Nat) where
  text : String
  length_le : text.length ≤ n
  nulFree : NulFree text
  deriving DecidableEq

/-- The input of a text parameter into `VARCHAR(n)`: excess characters are an error unless they are all spaces. -/
def Varchar.ofParam (n : Nat) (p : String) : Option (Varchar n) :=
  if h : (cStr p).length ≤ n then some ⟨cStr p, h, nulFree_cStr p⟩
  else if (cStr p).toList.drop n |>.all (· = ' ') then
    some ⟨String.ofList ((cStr p).toList.take n), by rw [String.length_ofList]; exact List.length_take_le n _, fun hmem =>
      nulFree_cStr p (List.mem_of_mem_take (String.toList_ofList ▸ hmem))⟩
  else none

theorem Varchar.ofParam_of_fits {n : Nat} {p : String} (hnul : NulFree p) (hlen : p.length ≤ n) :
    Varchar.ofParam n p = some ⟨p, hlen, hnul⟩ := by
  have heq := cStr_of_nulFree hnul
  unfold Varchar.ofParam
  rw [dif_pos (heq.symm ▸ hlen)]
  simp only [heq]

/-! ## Numbers -/

/-- The whitespace of `isspace`. -/
def isSpace (c : Char) : Bool := c = ' ' || ('\t' ≤ c && c ≤ '\r')

/-- The sign of a number and the characters after it. -/
def splitSign : List Char → Bool × List Char
  | '-' :: src => (true, src)
  | '+' :: src => (false, src)
  | src => (false, src)

theorem isDigit_not_isSpace {c : Char} (h : c.isDigit = true) : isSpace c = false ∧ c ≠ '-' ∧ c ≠ '+' := by
  simp only [Char.isDigit, Bool.and_eq_true, decide_eq_true_eq, ge_iff_le] at h
  refine ⟨?_, ?_, ?_⟩
  · simp only [isSpace, Bool.or_eq_false_iff, Bool.and_eq_false_iff, decide_eq_false_iff_not]
    refine ⟨?_, .inr fun hle => ?_⟩
    · rintro rfl
      exact absurd h.1 (by decide)
    · exact absurd (UInt32.le_trans h.1 hle) (by decide)
  · rintro rfl
    exact absurd h.1 (by decide)
  · rintro rfl
    exact absurd h.1 (by decide)

/-- The digits of a natural number are read to their end. -/
theorem takeWhile_toDigits (n : Nat) : (Nat.toDigits 10 n).takeWhile Char.isDigit = Nat.toDigits 10 n :=
  List.takeWhile_eq_self_iff.mpr fun _ hc => Nat.isDigit_of_mem_toDigits (by decide) (by decide) hc

theorem splitSign_toDigits (n : Nat) :
    splitSign ((Nat.toDigits 10 n).dropWhile isSpace) = (false, Nat.toDigits 10 n) := by
  cases hd : Nat.toDigits 10 n with
  | nil => exact absurd hd Nat.toDigits_ne_nil
  | cons c ds =>
      have hc : c.isDigit = true :=
        Nat.isDigit_of_mem_toDigits (by decide) (by decide) (hd ▸ List.mem_cons_self)
      obtain ⟨hspace, hminus, hplus⟩ := isDigit_not_isSpace hc
      rw [List.dropWhile_cons_of_neg (by simp [hspace])]
      unfold splitSign
      split
      · next heq => exact absurd (List.cons.inj heq).1 hminus
      · next heq => exact absurd (List.cons.inj heq).1 hplus
      · rfl

/-- The input of a text parameter into `SMALLINT`, in decimal. -/
def smallintOfParam (p : String) : Except String Int16 :=
  let (negative, src) := splitSign ((cStr p).toList.dropWhile isSpace)
  let digits := src.takeWhile Char.isDigit
  if digits = [] ∨ ((src.dropWhile Char.isDigit).all isSpace) = false then .error "22P02"
  else
    let value : Int := Nat.ofDigitChars 10 digits 0
    let n := if negative then -value else value
    if -2 ^ 15 ≤ n ∧ n < 2 ^ 15 then .ok (.ofInt n) else .error "22003"

/-! ## Rows and tables -/

/-- A row: `created_at` and `deleted_at` are microseconds. -/
structure Row where
  id : Uuid
  phoneNumber : Varchar 20
  username : Option (Varchar 64)
  email : Option (Varchar 128)
  passwordHash : Varchar 256
  salt : Varchar 64
  avatarUrl : Option (Varchar 512)
  status : Int16
  createdAt : Int
  deletedAt : Option Int
  deriving DecidableEq

/-- The non-empty emails of the partial unique index. -/
def Row.indexedEmail (r : Row) : Option String := (r.email.map Varchar.text).filter (· ≠ "")

/-- A table the schema permits: `id` primary key, `phone_number` unique over all rows, non-empty emails unique. -/
structure UsersTable where
  rows : List Row
  id_unique : (rows.map Row.id).Nodup
  phone_unique : (rows.map fun r => r.phoneNumber.text).Nodup
  email_unique : (rows.filterMap Row.indexedEmail).Nodup

/-- The columns of `users` that a statement names. -/
inductive Column where
  | id
  | phoneNumber
  | username
  | email
  | passwordHash
  | salt
  | avatarUrl
  | status
  | createdAt
  deriving DecidableEq, Repr

/-- The columns a `SELECT` looks up by. -/
inductive Key where
  | id
  | phoneNumber
  deriving DecidableEq, Repr

/-- The statements of the DAO, with their column lists in order. -/
inductive Statement where
  /-- `INSERT INTO users (columns) VALUES ($1, …)`. -/
  | insertInto (columns : List Column)
  /-- `SELECT columns FROM users WHERE key = $1 AND deleted_at IS NULL LIMIT 1`. -/
  | selectWhere (columns : List Column) (key : Key)
  deriving DecidableEq, Repr

abbrev SqlState := String

/-- The text parameter of a column in an `INSERT`. -/
def paramOf (columns : List Column) (params : List String) (c : Column) : Option String :=
  (columns.zip params).lookup c

/-- A nullable `VARCHAR(n)` column of an inserted row. -/
def varcharOf (n : Nat) : Option String → Except SqlState (Option (Varchar n))
  | none => .ok none
  | some p =>
      match Varchar.ofParam n p with
      | some v => .ok (some v)
      | none => .error "22001"

/-- A `NOT NULL` `VARCHAR(n)` column of an inserted row. -/
def varcharNotNull (n : Nat) (p : Option String) : Except SqlState (Varchar n) := do
  match ← varcharOf n p with
  | some v => .ok v
  | none => .error "23502"

theorem varcharOf_eq_ok {n : Nat} {p : String} {v : Option (Varchar n)} (h : varcharOf n (some p) = .ok v) :
    ∃ x, v = some x ∧ Varchar.ofParam n p = some x := by
  simp only [varcharOf] at h
  cases hx : Varchar.ofParam n p with
  | none =>
      rw [hx] at h
      cases h
  | some x =>
      rw [hx] at h
      cases h
      exact ⟨x, rfl, rfl⟩

theorem varcharNotNull_eq_ok {n : Nat} {p : String} {v : Varchar n} (h : varcharNotNull n (some p) = .ok v) :
    Varchar.ofParam n p = some v := by
  unfold varcharNotNull at h
  cases hp : varcharOf n (some p) with
  | error e =>
      rw [hp] at h
      cases h
  | ok v' =>
      obtain ⟨x, rfl, hx⟩ := varcharOf_eq_ok hp
      rw [hp] at h
      cases h
      exact hx

theorem varcharOf_of_fits {n : Nat} {p : String} (hnul : NulFree p) (hlen : p.length ≤ n) :
    varcharOf n (some p) = .ok (some ⟨p, hlen, hnul⟩) := by
  simp only [varcharOf, Varchar.ofParam_of_fits hnul hlen]

theorem varcharNotNull_of_fits {n : Nat} {p : String} (hnul : NulFree p) (hlen : p.length ≤ n) :
    varcharNotNull n (some p) = .ok ⟨p, hlen, hnul⟩ := by
  simp only [varcharNotNull, varcharOf_of_fits hnul hlen]
  rfl

/-- A text that fits its column is stored as it is. -/
theorem Varchar.text_of_fits {n : Nat} {p : String} {v : Varchar n} (h : Varchar.ofParam n p = some v)
    (hnul : NulFree p) (hlen : p.length ≤ n) : v.text = p := by
  rw [Varchar.ofParam_of_fits hnul hlen] at h
  cases h
  rfl

/-- Only such a text is. -/
theorem Varchar.text_eq_iff {n : Nat} {p : String} {v : Varchar n} (h : Varchar.ofParam n p = some v) :
    v.text = p ↔ NulFree p ∧ p.length ≤ n := by
  constructor
  · rintro rfl
    exact ⟨v.nulFree, v.length_le⟩
  · rintro ⟨hnul, hlen⟩
    exact Varchar.text_of_fits h hnul hlen

/-- The `status` of an inserted row: `SMALLINT DEFAULT 0`. -/
def statusOf : Option String → Except SqlState Int16
  | none => .ok 0
  | some p => smallintOfParam p

/-- The `id` of an inserted row. -/
def uuidOf : Option String → Except SqlState Uuid
  | none => .error "23502"
  | some p =>
      match Uuid.ofString? (cStr p) with
      | some u => .ok u
      | none => .error "22P02"

/-- The row an `INSERT` builds; no statement names `created_at` or `deleted_at`, which take their defaults. -/
def Row.ofParams (columns : List Column) (params : List String) (now : Int) : Except SqlState Row := do
  let param := paramOf columns params
  return {
    id := ← uuidOf (param .id)
    phoneNumber := ← varcharNotNull 20 (param .phoneNumber)
    username := ← varcharOf 64 (param .username)
    email := ← varcharOf 128 (param .email)
    passwordHash := ← varcharNotNull 256 (param .passwordHash)
    salt := ← varcharNotNull 64 (param .salt)
    avatarUrl := ← varcharOf 512 (param .avatarUrl)
    status := ← statusOf (param .status)
    createdAt := now
    deletedAt := none }

/-- **The columns of an inserted row** come each from its own parameter. -/
theorem Row.ofParams_eq_ok {columns : List Column} {params : List String} {now : Int} {r : Row}
    (h : Row.ofParams columns params now = .ok r) :
    let param := paramOf columns params
    uuidOf (param .id) = .ok r.id ∧ varcharNotNull 20 (param .phoneNumber) = .ok r.phoneNumber ∧
      varcharOf 64 (param .username) = .ok r.username ∧ varcharOf 128 (param .email) = .ok r.email ∧
      varcharNotNull 256 (param .passwordHash) = .ok r.passwordHash ∧ varcharNotNull 64 (param .salt) = .ok r.salt ∧
      varcharOf 512 (param .avatarUrl) = .ok r.avatarUrl ∧ statusOf (param .status) = .ok r.status ∧
      r.deletedAt = none := by
  have hbind : ∀ {α β : Type} {x : Except SqlState α} {f : α → Except SqlState β} {b : β}, x >>= f = .ok b →
      ∃ a, x = .ok a ∧ f a = .ok b := by
    intro α β x f b hx
    cases x with
    | error e => cases hx
    | ok a => exact ⟨a, rfl, hx⟩
  obtain ⟨id, hid, h⟩ := hbind h
  obtain ⟨phoneNumber, hphone, h⟩ := hbind h
  obtain ⟨username, husername, h⟩ := hbind h
  obtain ⟨email, hemail, h⟩ := hbind h
  obtain ⟨passwordHash, hhash, h⟩ := hbind h
  obtain ⟨salt, hsalt, h⟩ := hbind h
  obtain ⟨avatarUrl, havatar, h⟩ := hbind h
  obtain ⟨status, hstatus, h⟩ := hbind h
  cases h
  exact ⟨hid, hphone, husername, hemail, hhash, hsalt, havatar, hstatus, rfl⟩

/-- An `INSERT` whose parameters are all read builds a row. -/
theorem Row.ofParams_of_ok {columns : List Column} {params : List String} {now : Int} {r : Row}
    (hid : uuidOf (paramOf columns params .id) = .ok r.id)
    (hphone : varcharNotNull 20 (paramOf columns params .phoneNumber) = .ok r.phoneNumber)
    (husername : varcharOf 64 (paramOf columns params .username) = .ok r.username)
    (hemail : varcharOf 128 (paramOf columns params .email) = .ok r.email)
    (hhash : varcharNotNull 256 (paramOf columns params .passwordHash) = .ok r.passwordHash)
    (hsalt : varcharNotNull 64 (paramOf columns params .salt) = .ok r.salt)
    (havatar : varcharOf 512 (paramOf columns params .avatarUrl) = .ok r.avatarUrl)
    (hstatus : statusOf (paramOf columns params .status) = .ok r.status) :
    Row.ofParams columns params now = .ok { r with createdAt := now, deletedAt := none } := by
  simp only [Row.ofParams, hid, hphone, husername, hemail, hhash, hsalt, havatar, hstatus]
  rfl

namespace UsersTable

/-- The schema has room for the row. -/
def Admits (t : UsersTable) (r : Row) : Prop :=
  (r.id ∉ t.rows.map Row.id ∧ r.phoneNumber.text ∉ t.rows.map fun r => r.phoneNumber.text) ∧
    ∀ e ∈ r.indexedEmail, e ∉ t.rows.filterMap Row.indexedEmail

instance (t : UsersTable) (r : Row) : Decidable (t.Admits r) := inferInstanceAs (Decidable (_ ∧ _))

/-- The table with the row added. -/
def add (t : UsersTable) (r : Row) (h : t.Admits r) : UsersTable where
  rows := t.rows ++ [r]
  id_unique := by
    rw [List.map_append, List.map_singleton, List.nodup_append]
    exact ⟨t.id_unique, List.nodup_singleton _, by rintro a ha b hb rfl; exact h.1.1 (List.mem_singleton.mp hb ▸ ha)⟩
  phone_unique := by
    rw [List.map_append, List.map_singleton, List.nodup_append]
    exact ⟨t.phone_unique, List.nodup_singleton _,
      by rintro a ha b hb rfl; exact h.1.2 (List.mem_singleton.mp hb ▸ ha)⟩
  email_unique := by
    rw [List.filterMap_append, List.nodup_append]
    refine ⟨t.email_unique, ?_, ?_⟩
    · cases hr : r.indexedEmail <;> simp [hr]
    · rintro a ha b hb rfl
      refine h.2 a ?_ ha
      cases hr : r.indexedEmail <;> simp_all

/-- `INSERT INTO users (columns) VALUES (params)`. -/
def insert (t : UsersTable) (columns : List Column) (params : List String) (now : Int) :
    Except SqlState UsersTable := do
  let r ← Row.ofParams columns params now
  if h : t.Admits r then .ok (t.add r h) else .error "23505"

/-- The live row with a key, as `WHERE key = $1 AND deleted_at IS NULL LIMIT 1` finds it. -/
def find (t : UsersTable) (key : Key) (p : String) : Except SqlState (Option Row) :=
  match key with
  | .id =>
      match Uuid.ofString? (cStr p) with
      | none => .error "22P02"
      | some u => .ok (t.rows.find? fun r => r.id = u ∧ r.deletedAt = none)
  | .phoneNumber => .ok (t.rows.find? fun r => r.phoneNumber.text = cStr p ∧ r.deletedAt = none)

end UsersTable

/-! ## Answers -/

/-- The text of a column in a result; how a `TIMESTAMPTZ` is printed depends on the server's settings. -/
def Row.field (timestamptzOut : Int → String) (r : Row) : Column → Option String
  | .id => some r.id.toString
  | .phoneNumber => some r.phoneNumber.text
  | .username => r.username.map Varchar.text
  | .email => r.email.map Varchar.text
  | .passwordHash => some r.passwordHash.text
  | .salt => some r.salt.text
  | .avatarUrl => r.avatarUrl.map Varchar.text
  | .status => some (toString r.status.toInt)
  | .createdAt => some (timestamptzOut r.createdAt)

/-- What a statement does: the rows of its result and the table after it, or the SQLSTATE of its error. -/
def UsersTable.execute (timestamptzOut : Int → String) (t : UsersTable) (stmt : Statement) (params : List String)
    (now : Int) : Except SqlState (List (List (Option String)) × UsersTable) :=
  match stmt with
  | .insertInto columns => (t.insert columns params now).map fun t' => ([], t')
  | .selectWhere columns key =>
      (t.find key (params.getD 0 "")).map fun r => (r.toList.map fun r => columns.map (r.field timestamptzOut), t)

/-! ## Growth -/

namespace UsersTable

/-- Every row is still there, and new rows come after it. -/
def Grows (t t' : UsersTable) : Prop := t.rows <+: t'.rows

theorem Grows.refl (t : UsersTable) : t.Grows t := List.prefix_refl _

theorem Grows.trans {t t' t'' : UsersTable} (h : t.Grows t') (h' : t'.Grows t'') : t.Grows t'' := List.IsPrefix.trans h h'

theorem grows_add (t : UsersTable) (r : Row) (h : t.Admits r) : t.Grows (t.add r h) := List.prefix_append _ _

theorem insert_of_admits {t : UsersTable} {columns : List Column} {params : List String} {now : Int} {r : Row}
    (hrow : Row.ofParams columns params now = .ok r) (hr : t.Admits r) :
    t.insert columns params now = .ok (t.add r hr) := by
  unfold insert
  rw [hrow]
  exact dif_pos hr

theorem insert_eq_ok {t t' : UsersTable} {columns : List Column} {params : List String} {now : Int}
    (h : t.insert columns params now = .ok t') :
    ∃ r, ∃ hr : t.Admits r, Row.ofParams columns params now = .ok r ∧ t' = t.add r hr := by
  unfold insert at h
  cases hrow : Row.ofParams columns params now with
  | error e =>
      rw [hrow] at h
      cases h
  | ok r =>
      rw [hrow] at h
      change (if h : t.Admits r then Except.ok (t.add r h) else Except.error "23505") = Except.ok t' at h
      split at h
      · next hr =>
          cases h
          exact ⟨r, hr, rfl, rfl⟩
      · cases h

theorem grows_execute {timestamptzOut : Int → String} {t t' : UsersTable} {stmt : Statement} {params : List String}
    {now : Int} {rows : List (List (Option String))}
    (h : t.execute timestamptzOut stmt params now = .ok (rows, t')) : t.Grows t' := by
  cases stmt with
  | insertInto columns =>
      simp only [execute] at h
      cases hins : t.insert columns params now with
      | error e =>
          rw [hins] at h
          cases h
      | ok t₁ =>
          rw [hins] at h
          cases h
          obtain ⟨r, hr, -, rfl⟩ := insert_eq_ok hins
          exact grows_add t r hr
  | selectWhere columns key =>
      simp only [execute] at h
      cases hfind : t.find key (params.getD 0 "") with
      | error e =>
          rw [hfind] at h
          cases h
      | ok r =>
          rw [hfind] at h
          cases h
          exact Grows.refl t

/-- A row once found is found again. -/
theorem Grows.find {t t' : UsersTable} (h : t.Grows t') {key : Key} {p : String} {r : Row}
    (hr : t.find key p = .ok (some r)) : t'.find key p = .ok (some r) := by
  obtain ⟨rest, hrest⟩ := h
  cases key with
  | id =>
      simp only [UsersTable.find] at hr ⊢
      cases hu : Uuid.ofString? (cStr p) with
      | none =>
          rw [hu] at hr
          cases hr
      | some u =>
          rw [hu] at hr
          have hr := Except.ok.inj hr
          simp only [← hrest, List.find?_append, hr, Option.some_or]
  | phoneNumber =>
      simp only [UsersTable.find] at hr ⊢
      have hr := Except.ok.inj hr
      simp only [← hrest, List.find?_append, hr, Option.some_or]

theorem find?_of_unique {l : List Row} {p : Row → Bool} {r : Row} (hr : r ∈ l) (hp : p r = true)
    (huniq : ∀ r' ∈ l, p r' = true → r' = r) : l.find? p = some r := by
  cases hfind : l.find? p with
  | none => exact absurd hp (List.find?_eq_none.mp hfind r hr)
  | some r' => rw [huniq r' (List.mem_of_find?_eq_some hfind) (List.find?_some hfind)]

/-- A live row is found by its id in its printed form. -/
theorem find_id {t : UsersTable} {r : Row} (hr : r ∈ t.rows) (hlive : r.deletedAt = none) :
    t.find .id r.id.toString = .ok (some r) := by
  have hfind : t.rows.find? (fun r' => r'.id = r.id ∧ r'.deletedAt = none) = some r :=
    find?_of_unique hr (by simp [hlive]) fun r' hr' hp =>
      List.inj_on_of_nodup_map t.id_unique hr' hr (of_decide_eq_true hp).1
  simp only [UsersTable.find, cStr_of_nulFree (nulFree_toString r.id), Uuid.ofString?_toString, hfind]

/-- A live row is found by its phone number. -/
theorem find_phoneNumber {t : UsersTable} {r : Row} (hr : r ∈ t.rows) (hlive : r.deletedAt = none) :
    t.find .phoneNumber r.phoneNumber.text = .ok (some r) := by
  have hfind : t.rows.find? (fun r' => r'.phoneNumber.text = r.phoneNumber.text ∧ r'.deletedAt = none) = some r :=
    find?_of_unique hr (by simp [hlive]) fun r' hr' hp =>
      List.inj_on_of_nodup_map t.phone_unique hr' hr (of_decide_eq_true hp).1
  simp only [UsersTable.find, cStr_of_nulFree r.phoneNumber.nulFree, hfind]

/-- A row found by id has that id. -/
theorem ofString_of_find {t : UsersTable} {p : String} {r : Row} (h : t.find .id p = .ok (some r)) :
    Uuid.ofString? (cStr p) = some r.id := by
  simp only [UsersTable.find] at h
  cases hu : Uuid.ofString? (cStr p) with
  | none =>
      rw [hu] at h
      cases h
  | some u =>
      rw [hu] at h
      have hp := List.find?_some (Except.ok.inj h)
      rw [(of_decide_eq_true hp).1]

/-- The phone number of the row that a phone number finds. -/
theorem phoneNumber_of_find {t : UsersTable} {p : String} {r : Row} (h : t.find .phoneNumber p = .ok (some r)) :
    r.phoneNumber.text = cStr p := by
  have hp := List.find?_some (Except.ok.inj h)
  exact (of_decide_eq_true hp).1

/-- It is the one asked for exactly when that one has no NUL. -/
theorem phoneNumber_eq_iff_of_find {t : UsersTable} {p : String} {r : Row}
    (h : t.find .phoneNumber p = .ok (some r)) : r.phoneNumber.text = p ↔ NulFree p := by
  constructor
  · rintro rfl
    exact r.phoneNumber.nulFree
  · intro hnul
    rw [phoneNumber_of_find h, cStr_of_nulFree hnul]

/-- A row found is a live row of the table. -/
theorem mem_of_find {t : UsersTable} {key : Key} {p : String} {r : Row} (h : t.find key p = .ok (some r)) :
    r ∈ t.rows ∧ r.deletedAt = none := by
  cases key with
  | id =>
      simp only [UsersTable.find] at h
      cases hu : Uuid.ofString? (cStr p) with
      | none =>
          rw [hu] at h
          cases h
      | some u =>
          rw [hu] at h
          have hfind := Except.ok.inj h
          have hp := List.find?_some hfind
          exact ⟨List.mem_of_find?_eq_some hfind, (of_decide_eq_true hp).2⟩
  | phoneNumber =>
      have hfind := Except.ok.inj h
      have hp := List.find?_some hfind
      exact ⟨List.mem_of_find?_eq_some hfind, (of_decide_eq_true hp).2⟩

end UsersTable

end PhotonCommerce.Infrastructure
