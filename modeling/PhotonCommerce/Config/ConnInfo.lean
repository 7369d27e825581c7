import Mathlib
import PhotonCommerce.Config.AppConfig
import PhotonCommerce.Lib.PercentCodec

/-!
# How libpq reads a connection URI

* `upTo`, `onFrom` : what stands in front of the first of some bytes, and the rest;
* `credentials`, `netlocs`, `path` : the three parts of a URI, `splitUri` : all of them, still encoded;
* `ConnInfo`, `storeval`, `uriParseParams` : the options, the later value of a keyword replacing the earlier;
* `uriParseOptions` : the options a URI sets;
* `weight_lt` : a URI with parameters is longer than what it sets.
-/

namespace PhotonCommerce.Config
open PercentCodec (percent decode Decodes decodes_of_decode decode_eq_self_iff)

/-! ## Delimiters -/

abbrev ampersand : UInt8 := 38
abbrev comma : UInt8 := 44
abbrev slash : UInt8 := 47
abbrev colon : UInt8 := 58
abbrev equalsSign : UInt8 := 61
abbrev question : UInt8 := 63
abbrev atSign : UInt8 := 64
abbrev openBracket : UInt8 := 91
abbrev closeBracket : UInt8 := 93

/-- What stands in front of the first of `stops`. -/
def upTo (stops src : Bytes) : Bytes := src.takeWhile fun b => b ∉ stops

/-- What begins with the first of `stops`. -/
def onFrom (stops src : Bytes) : Bytes := src.dropWhile fun b => b ∉ stops

section
variable {stops src xs ys : Bytes} {c : UInt8}

theorem upTo_eq_self_iff : upTo stops xs = xs ↔ ∀ b ∈ xs, b ∉ stops := by
  rw [upTo, List.takeWhile_eq_self_iff]
  simp only [decide_eq_true_eq]

theorem upTo_cons_of_mem (hc : c ∈ stops) (xs : Bytes) : upTo stops (c :: xs) = [] :=
  List.takeWhile_cons_of_neg (by simpa using hc)

theorem upTo_cons_of_not_mem (hc : c ∉ stops) (xs : Bytes) : upTo stops (c :: xs) = c :: upTo stops xs :=
  List.takeWhile_cons_of_pos (by simpa using hc)

theorem upTo_append_cons (hc : c ∈ stops) (xs ys : Bytes) : upTo stops (xs ++ c :: ys) = upTo stops xs := by
  unfold upTo
  rw [List.takeWhile_append, List.takeWhile_cons_of_neg (by simpa using hc), List.append_nil]
  split
  · next hlen => rw [(List.takeWhile_prefix _).eq_of_length hlen]
  · rfl

theorem upTo_of_forall (hxs : ∀ b ∈ xs, b ∉ stops) (hc : c ∈ stops) (ys : Bytes) : upTo stops (xs ++ c :: ys) = xs := by
  rw [upTo_append_cons hc, upTo_eq_self_iff.mpr hxs]

theorem onFrom_of_forall (hxs : ∀ b ∈ xs, b ∉ stops) (hc : c ∈ stops) (ys : Bytes) :
    onFrom stops (xs ++ c :: ys) = c :: ys := by
  unfold onFrom
  rw [List.dropWhile_append_of_pos (by simpa using hxs), List.dropWhile_cons_of_neg (by simpa using hc)]

theorem mem_of_onFrom {rest : Bytes} (h : onFrom stops src = c :: rest) : c ∈ stops := by
  have hhead := List.head?_dropWhile_not (fun b => decide (b ∉ stops)) src
  rw [onFrom] at h
  rw [h] at hhead
  simpa using hhead

/-- **What was cut off is missed**: a text whose front decodes to the whole text has no delimiter and no `%`. -/
theorem of_decode_upTo (h : decode (upTo stops xs) = some xs) : ∀ b ∈ xs, b ∉ stops ++ [percent] := by
  have hprefix : upTo stops xs <+: xs := List.takeWhile_prefix _
  have heq : upTo stops xs = xs := hprefix.eq_of_length_le (decodes_of_decode h).length_le
  rw [heq, decode_eq_self_iff] at h
  intro b hb
  rw [List.mem_append, List.mem_singleton, not_or]
  exact ⟨upTo_eq_self_iff.mp heq b hb, ne_of_mem_of_not_mem hb h⟩

end

/-! ## The credentials -/

/-- The look ahead: the first of `@` and `/` is an `@`. -/
abbrev HasCredentials (src : Bytes) : Prop := src.find? (fun b => b ∈ [atSign, slash]) = some atSign

/-- User and password, when an `@` comes before any `/`; then what follows them. -/
def credentials (src : Bytes) : Bytes × Bytes × Bytes :=
  if HasCredentials src then
    let user := upTo [colon, atSign] src
    let p := onFrom [colon, atSign] src
    if p.head? = some colon then (user, upTo [atSign] p.tail, (onFrom [atSign] p.tail).tail)
    else (user, [], p.tail)
  else ([], [], src)

/-! ## The hosts -/

/-- Where the loop over the `netloc[:port]` pairs stands. -/
inductive Netloc where
  | start
  | opened
  | bracket
  | closed
  | host
  | port
  deriving DecidableEq

/-- What one byte does: reject the URI, end the loop, or append to `hostbuf` and `portbuf`. -/
inductive NetlocStep where
  | reject
  | stop
  | emit (hostbuf portbuf : Bytes) (next : Netloc)

/-- The end of a host or of a port. -/
def netlocEnd (b : UInt8) : NetlocStep := if b = comma then .emit [comma] [comma] .start else .stop

def netlocStep (s : Netloc) (b : UInt8) : NetlocStep :=
  match s with
  | .start | .host =>
      if s = .start ∧ b = openBracket then .emit [] [] .opened
      else if b = colon then .emit [] [] .port
      else if b ∈ [slash, question, comma] then netlocEnd b
      else .emit [b] [] .host
  | .opened => if b = closeBracket then .reject else .emit [b] [] .bracket
  | .bracket => if b = closeBracket then .emit [] [] .closed else .emit [b] [] .bracket
  | .closed =>
      if b = colon then .emit [] [] .port
      else if b ∈ [slash, question, comma] then netlocEnd b
      else .reject
  | .port => if b ∈ [slash, question, comma] then netlocEnd b else .emit [] [b] .port

/-- `hostbuf`, `portbuf` and what follows the hosts. -/
def netlocs (s : Netloc) : Bytes → Option (Bytes × Bytes × Bytes)
  | [] => if s = .opened ∨ s = .bracket then none else some ([], [], [])
  | b :: src =>
      match netlocStep s b with
      | .reject => none
      | .stop => some ([], [], b :: src)
      | .emit hostbuf portbuf next =>
          (netlocs next src).map fun (host, port, rest) => (hostbuf ++ host, portbuf ++ port, rest)

/-! ## The database name and the parameters -/

/-- The database name and the query; nothing follows a URI that ends after the hosts. -/
def path (src : Bytes) : Bytes × Bytes :=
  match src with
  | [] => ([], [])
  | b :: src => if b = question then ([], src) else (upTo [question] src, (onFrom [question] src).tail)

/-- The parts of a URI behind its prefix, still encoded. -/
structure UriParts where
  user : Bytes
  password : Bytes
  host : Bytes
  port : Bytes
  dbname : Bytes
  query : Bytes

def splitUri (src : Bytes) : Option UriParts := do
  let (user, password, src) := credentials src
  let (host, port, src) ← netlocs .start src
  let (dbname, query) := path src
  return { user, password, host, port, dbname, query }

/-- The parameters of a query, separated by `&`. -/
def paramsOf : Bytes → List Bytes
  | [] => []
  | b :: src =>
      if b = ampersand then [] :: paramsOf src
      else
        match paramsOf src with
        | [] => [[b]]
        | p :: ps => (b :: p) :: ps

/-- Keyword and value of one parameter: exactly one `=` stands between them. -/
def uriParam (p : Bytes) : Option (Bytes × Bytes) :=
  match onFrom [equalsSign] p with
  | [] => none
  | _ :: value =>
      if equalsSign ∈ value then none
      else do
        let keyword ← decode (upTo [equalsSign] p)
        let value ← decode value
        return (keyword, value)

/-! ## The options -/

/-- The options set so far, those without a value empty; `others` holds every option but the five. -/
structure ConnInfo where
  user : Bytes
  password : Bytes
  host : Bytes
  port : Bytes
  dbname : Bytes
  others : List (Bytes × Bytes)
  deriving DecidableEq

/-- The part values, decoded. An empty part is not stored. -/
def UriParts.decode (u : UriParts) : Option ConnInfo := do
  let user ← PercentCodec.decode u.user
  let password ← PercentCodec.decode u.password
  let host ← PercentCodec.decode u.host
  let port ← PercentCodec.decode u.port
  let dbname ← PercentCodec.decode u.dbname
  return { user, password, host, port, dbname, others := [] }

section
variable (other : Bytes → Bytes → Option (Bytes × Bytes))

/-- `conninfo_storeval`; `other` says what any other keyword sets, `none` when it names no option. -/
def storeval (info : ConnInfo) (keyword value : Bytes) : Option ConnInfo :=
  if keyword = ascii "user" then some { info with user := value }
  else if keyword = ascii "password" then some { info with password := value }
  else if keyword = ascii "host" then some { info with host := value }
  else if keyword = ascii "port" then some { info with port := value }
  else if keyword = ascii "dbname" then some { info with dbname := value }
  else (other keyword value).map fun option => { info with others := info.others ++ [option] }

/-- `conninfo_uri_parse_params`. -/
def uriParseParams (info : ConnInfo) : List Bytes → Option ConnInfo
  | [] => some info
  | p :: ps => do
      let (keyword, value) ← uriParam p
      let info ← storeval other info keyword value
      uriParseParams info ps

/-- What follows `prefix`. -/
def afterPrefix (start uri : Bytes) : Option Bytes := if start <+: uri then some (uri.drop start.length) else none

/-- `conninfo_uri_parse_options`: the options a URI sets, `none` when it is malformed. -/
def uriParseOptions (uri : Bytes) : Option ConnInfo := do
  let src ← afterPrefix (ascii "postgresql://") uri <|> afterPrefix (ascii "postgres://") uri
  let parts ← splitUri src
  let info ← parts.decode
  uriParseParams other info (paramsOf parts.query)

end

example : uriParseOptions (fun _ _ => none) (ascii "postgresql://a:b%40c@[::1]:5432/d") =
    some ⟨ascii "a", ascii "b@c", ascii "::1", ascii "5432", ascii "d", []⟩ := by decide +kernel

/-! ## What the parts are made of -/

section
variable {p : UInt8 → Bool} {src : Bytes}

theorem countP_upTo_onFrom (p : UInt8 → Bool) (stops src : Bytes) :
    (upTo stops src).countP p + (onFrom stops src).countP p = src.countP p := by
  rw [← List.countP_append, upTo, onFrom, List.takeWhile_append_dropWhile]

theorem countP_tail_le (p : UInt8 → Bool) (src : Bytes) : src.tail.countP p ≤ src.countP p := (List.tail_sublist src).countP_le

theorem countP_credentials {user password rest : Bytes} (h : credentials src = (user, password, rest)) :
    user.countP p + password.countP p + rest.countP p ≤ src.countP p := by
  unfold credentials at h
  have hsrc := countP_upTo_onFrom p [colon, atSign] src
  have htail := countP_tail_le p (onFrom [colon, atSign] src)
  split at h
  · simp only at h
    split at h
    · cases h
      have hp := countP_upTo_onFrom p [atSign] (onFrom [colon, atSign] src).tail
      have hptail := countP_tail_le p (onFrom [atSign] (onFrom [colon, atSign] src).tail)
      omega
    · cases h
      rw [List.countP_nil]
      omega
  · cases h
    simp

/-- A comma is appended to both buffers. -/
theorem countP_netlocEnd (hp : p comma = false) {next : Netloc} {b : UInt8} {host port : Bytes}
    (h : netlocEnd b = .emit host port next) : host.countP p + port.countP p ≤ [b].countP p := by
  unfold netlocEnd at h
  split at h
  · cases h
    simp [hp]
  · cases h

/-- Any other byte is appended to one of them at most. -/
theorem countP_netlocStep (hp : p comma = false) {s next : Netloc} {b : UInt8} {host port : Bytes}
    (h : netlocStep s b = .emit host port next) : host.countP p + port.countP p ≤ [b].countP p := by
  have hnone : ([] : Bytes).countP p + ([] : Bytes).countP p ≤ [b].countP p := Nat.zero_le _
  have hhost : [b].countP p + ([] : Bytes).countP p ≤ [b].countP p := Nat.le_refl _
  have hport : ([] : Bytes).countP p + [b].countP p ≤ [b].countP p := (Nat.zero_add _).le
  have hend : netlocEnd b = .emit host port next → host.countP p + port.countP p ≤ [b].countP p := countP_netlocEnd hp
  unfold netlocStep at h
  split at h
  · split at h
    · cases h
      exact hnone
    · split at h
      · cases h
        exact hnone
      · split at h
        · exact hend h
        · cases h
          exact hhost
  · split at h
    · cases h
      exact hnone
    · split at h
      · cases h
        exact hnone
      · split at h
        · exact hend h
        · cases h
          exact hhost
  · split at h
    · cases h
    · cases h
      exact hhost
  · split at h
    · cases h
      exact hnone
    · cases h
      exact hhost
  · split at h
    · cases h
      exact hnone
    · split at h
      · exact hend h
      · cases h
  · split at h
    · exact hend h
    · cases h
      exact hport

theorem countP_netlocs (hp : p comma = false) {s : Netloc} {host port rest : Bytes}
    (h : netlocs s src = some (host, port, rest)) : host.countP p + port.countP p + rest.countP p ≤ src.countP p := by
  induction src generalizing s host port rest with
  | nil =>
      unfold netlocs at h
      split at h
      · cases h
      · cases h
        rfl
  | cons b src ih =>
      unfold netlocs at h
      split at h
      · cases h
      · cases h
        simp
      · next hostbuf portbuf next hstep =>
          rw [Option.map_eq_some_iff] at h
          obtain ⟨⟨host', port', rest'⟩, hnext, heq⟩ := h
          cases heq
          have hb := countP_netlocStep hp hstep
          have hsrc := ih hnext
          rw [← List.singleton_append, List.countP_append, List.countP_append, List.countP_append]
          omega

/-- The question mark in front of a query counts too. -/
theorem countP_path {dbname query : Bytes} (h : path src = (dbname, query)) :
    dbname.countP p + query.countP p ≤ src.countP p ∧
      (query ≠ [] → p question = true → dbname.countP p + query.countP p + 1 ≤ src.countP p) := by
  unfold path at h
  split at h
  · cases h
    exact ⟨Nat.le_refl _, fun hne => absurd rfl hne⟩
  · next b src =>
      split at h
      · next hb =>
          cases h
          have hcons : query.countP p ≤ (b :: query).countP p := (List.sublist_cons_self b query).countP_le
          rw [List.countP_nil]
          refine ⟨by omega, fun _ hp => ?_⟩
          rw [hb, List.countP_cons_of_pos hp]
          omega
      · cases h
        have hsrc := countP_upTo_onFrom p [question] src
        have hcons : src.countP p ≤ (b :: src).countP p := (List.sublist_cons_self b src).countP_le
        refine ⟨?_, fun hne hp => ?_⟩
        · have htail := countP_tail_le p (onFrom [question] src)
          omega
        · cases hq : onFrom [question] src with
          | nil => exact absurd (by rw [hq, List.tail_nil]) hne
          | cons c query =>
              have hc : c = question := List.mem_singleton.mp (mem_of_onFrom hq)
              rw [hq, hc, List.countP_cons_of_pos hp] at hsrc
              rw [List.tail_cons]
              omega

/-- The three parts follow one another. -/
theorem splitUri_eq_some {u : UriParts} : splitUri src = some u ↔ ∃ netloc rest,
    credentials src = (u.user, u.password, netloc) ∧ netlocs .start netloc = some (u.host, u.port, rest) ∧
      path rest = (u.dbname, u.query) := by
  unfold splitUri
  generalize credentials src = cred
  obtain ⟨user, password, netloc⟩ := cred
  simp only [Option.bind_eq_bind, Option.bind_eq_some_iff]
  constructor
  · intro h
    obtain ⟨⟨host, port, rest⟩, hnet, h⟩ := h
    cases h
    exact ⟨netloc, rest, rfl, hnet, rfl⟩
  · intro h
    obtain ⟨netloc', rest, hcred, hnet, hpath⟩ := h
    cases hcred
    refine ⟨(u.host, u.port, rest), hnet, ?_⟩
    simp only [hpath]
    rfl

/-- The parts of a URI are made of its bytes. -/
theorem countP_splitUri (hp : p comma = false) {u : UriParts} (h : splitUri src = some u) :
    u.user.countP p + u.password.countP p + u.host.countP p + u.port.countP p + u.dbname.countP p +
      u.query.countP p ≤ src.countP p ∧
    (u.query ≠ [] → p question = true → u.user.countP p + u.password.countP p + u.host.countP p + u.port.countP p +
      u.dbname.countP p + u.query.countP p + 1 ≤ src.countP p) := by
  obtain ⟨netloc, rest, hcred, hnet, hpath⟩ := splitUri_eq_some.mp h
  have hcredentials := countP_credentials (p := p) hcred
  have hnetlocs := countP_netlocs hp hnet
  have hrest := countP_path (p := p) hpath
  refine ⟨by omega, fun hne hquestion => ?_⟩
  have hquery := hrest.2 hne hquestion
  omega

end

/-! ## What a URI with parameters sets -/

/-- A byte other than the comma, which a list of hosts puts into both buffers. -/
def notComma (b : UInt8) : Bool := decide (b ≠ comma)

/-- The size of the five values. -/
def ConnInfo.weight (info : ConnInfo) : Nat :=
  info.user.countP notComma + info.password.countP notComma + info.host.countP notComma +
    info.port.countP notComma + info.dbname.countP notComma

theorem countP_decode {src bytes : Bytes} (h : decode src = some bytes) :
    bytes.countP notComma ≤ src.countP notComma :=
  (decodes_of_decode h).countP_le rfl

theorem UriParts.decode_eq_some {u : UriParts} {info : ConnInfo} : u.decode = some info ↔
    PercentCodec.decode u.user = some info.user ∧ PercentCodec.decode u.password = some info.password ∧
    PercentCodec.decode u.host = some info.host ∧ PercentCodec.decode u.port = some info.port ∧
    PercentCodec.decode u.dbname = some info.dbname ∧ info.others = [] := by
  simp only [UriParts.decode, Option.bind_eq_bind, Option.bind_eq_some_iff]
  constructor
  · intro h
    obtain ⟨user, huser, password, hpassword, host, hhost, port, hport, dbname, hdbname, h⟩ := h
    cases h
    exact ⟨huser, hpassword, hhost, hport, hdbname, rfl⟩
  · intro ⟨huser, hpassword, hhost, hport, hdbname, hothers⟩
    refine ⟨_, huser, _, hpassword, _, hhost, _, hport, _, hdbname, ?_⟩
    rw [← hothers]
    rfl

theorem weight_decode {u : UriParts} {info : ConnInfo} (h : u.decode = some info) :
    info.weight ≤ u.user.countP notComma + u.password.countP notComma + u.host.countP notComma +
      u.port.countP notComma + u.dbname.countP notComma := by
  obtain ⟨huser, hpassword, hhost, hport, hdbname, _⟩ := UriParts.decode_eq_some.mp h
  have := countP_decode huser
  have := countP_decode hpassword
  have := countP_decode hhost
  have := countP_decode hport
  have := countP_decode hdbname
  simp only [ConnInfo.weight]
  omega

variable {other : Bytes → Bytes → Option (Bytes × Bytes)}

/-- Storing under one of the five keywords, each at least four bytes long, replaces its value. -/
theorem weight_storeval {info info' : ConnInfo} {keyword value : Bytes}
    (h : storeval other info keyword value = some info') (hothers : info'.others = []) :
    info.others = [] ∧ info'.weight + 4 ≤ info.weight + keyword.countP notComma + value.countP notComma := by
  have hfour : ∀ name ∈ [ascii "user", ascii "password", ascii "host", ascii "port", ascii "dbname"],
      4 ≤ name.countP notComma := by decide +kernel
  unfold storeval at h
  split_ifs at h with huser hpassword hhost hport hdbname
  case neg =>
      rw [Option.map_eq_some_iff] at h
      obtain ⟨option, _, rfl⟩ := h
      simp at hothers
  all_goals
    have hkeyword := hfour keyword (by simp [*])
    cases h
    refine ⟨hothers, ?_⟩
    simp only [ConnInfo.weight]
    omega

theorem weight_uriParam {p keyword value : Bytes} (h : uriParam p = some (keyword, value)) :
    keyword.countP notComma + value.countP notComma + 1 ≤ p.countP notComma := by
  unfold uriParam at h
  have hp := countP_upTo_onFrom notComma [equalsSign] p
  split at h
  · cases h
  · next c rest hrest =>
      split at h
      · cases h
      · simp only [Option.bind_eq_bind, Option.bind_eq_some_iff] at h
        obtain ⟨keyword, hkeyword, value, hvalue, h⟩ := h
        cases h
        have := countP_decode hkeyword
        have := countP_decode hvalue
        rw [hrest, List.mem_singleton.mp (mem_of_onFrom hrest), List.countP_cons_of_pos rfl] at hp
        omega

/-- By induction on the parameters: each is at least five bytes longer than what it adds. -/
theorem weight_uriParseParams {info info' : ConnInfo} {ps : List Bytes}
    (h : uriParseParams other info ps = some info') (hothers : info'.others = []) :
    info'.weight + 5 * ps.length ≤ info.weight + (ps.map (·.countP notComma)).sum ∧ info.others = [] := by
  induction ps generalizing info with
  | nil =>
      cases h
      exact ⟨Nat.le_refl _, hothers⟩
  | cons p ps ih =>
      simp only [uriParseParams, Option.bind_eq_bind, Option.bind_eq_some_iff] at h
      obtain ⟨⟨keyword, value⟩, hparam, stored, hstore, h⟩ := h
      obtain ⟨hrest, hstored⟩ := ih h
      obtain ⟨hinfo, hweight⟩ := weight_storeval hstore hstored
      have hp := weight_uriParam hparam
      simp only at hweight
      refine ⟨?_, hinfo⟩
      rw [List.map_cons, List.sum_cons, List.length_cons]
      omega

theorem paramsOf_ne_nil {query : Bytes} (h : query ≠ []) : paramsOf query ≠ [] := by
  cases query with
  | nil => exact absurd rfl h
  | cons b query =>
      unfold paramsOf
      split
      · exact List.cons_ne_nil _ _
      · split <;> exact List.cons_ne_nil _ _

theorem sum_paramsOf (query : Bytes) : ((paramsOf query).map (·.countP notComma)).sum ≤ query.countP notComma := by
  induction query with
  | nil => exact Nat.le_refl _
  | cons b query ih =>
      unfold paramsOf
      split
      · rw [List.map_cons, List.sum_cons, List.countP_nil, List.countP_cons]
        omega
      · split
        · next hnil =>
            rw [hnil] at ih
            simp only [List.map_cons, List.map_nil, List.sum_cons, List.sum_nil, List.countP_cons, List.countP_nil]
            omega
        · next p ps heq =>
            rw [heq] at ih
            simp only [List.map_cons, List.sum_cons, List.countP_cons] at ih ⊢
            omega

/-- **A URI with parameters is longer than what it sets**, when it sets none but the five options. -/
theorem weight_add_lt {src : Bytes} {u : UriParts} {info info' : ConnInfo} (hsplit : splitUri src = some u)
    (hdecode : u.decode = some info) (hparams : uriParseParams other info (paramsOf u.query) = some info')
    (hothers : info'.others = []) (hquery : u.query ≠ []) : info'.weight + 5 < src.countP notComma := by
  have hsrc := (countP_splitUri (p := notComma) rfl hsplit).2 hquery rfl
  have hinfo := weight_decode hdecode
  have hweight := (weight_uriParseParams hparams hothers).1
  have hsum := sum_paramsOf u.query
  have hpos := List.length_pos_of_ne_nil (paramsOf_ne_nil hquery)
  omega

end PhotonCommerce.Config
