import PhotonCommerce.Config.ConnInfo

/-!
# The connection string and the configuration it was made from

* `portText_inj` : a port is told from its digits;
* `splitUri_body` : a configuration without delimiters is split where it was joined;
* `credentials_plain`, `netlocs_plain` : what it takes for libpq to find the credentials and the host;
* `DbConfig.Plain` : the delimiters each value must do without;
* `connStr_faithful_iff` : libpq reads the configuration back exactly then.
-/

namespace PhotonCommerce.Config
open PercentCodec (percent decode decodes_of_decode decode_eq_self_iff decode_of_not_mem)

/-! ## The port -/

theorem portText_digit {port : Int} (h : 0 < port) {b : UInt8} (hb : b ∈ portText port) : 48 ≤ b.toNat ∧ b.toNat ≤ 57 := by
  rw [portText_eq, if_pos (Int.le_of_lt h)] at hb
  obtain ⟨c, hc, rfl⟩ := List.mem_map.mp hb
  obtain ⟨heq, hrange⟩ := toNat_of_isDigit (Nat.isDigit_of_mem_toDigits (by decide) (by decide) hc)
  rwa [heq]

/-- A port holds no delimiter. -/
theorem portText_not_mem {port : Int} (h : 0 < port) {b : UInt8} (hb : b ∈ portText port) :
    b ∉ [slash, question, comma, percent, 0] := by
  have hdigit := portText_digit h hb
  intro hmem
  simp only [List.mem_cons, List.not_mem_nil, or_false] at hmem
  rcases hmem with rfl | rfl | rfl | rfl | rfl <;> exact absurd hdigit (by decide)

theorem portText_inj {p q : Int} (hp : 0 < p ∧ p ≤ 65535) (hq : 0 < q ∧ q ≤ 65535) (h : portText p = portText q) :
    p = q := by
  have hread : readInt (portText p) = readInt (portText q) := by rw [h]
  rw [readInt_portText (fitsInt_of_port hp), readInt_portText (fitsInt_of_port hq)] at hread
  exact Option.some.inj hread

/-! ## The loop over the hosts -/

section
variable {s next : Netloc} {b : UInt8} {src hostbuf portbuf host port rest xs ys : Bytes}

theorem netlocs_emit (hstep : netlocStep s b = .emit hostbuf portbuf next) : netlocs s (b :: src) =
    (netlocs next src).map fun (host, port, rest) => (hostbuf ++ host, portbuf ++ port, rest) := by
  rw [netlocs, hstep]

theorem netlocs_of_emit (hstep : netlocStep s b = .emit hostbuf portbuf next)
    (h : netlocs s (b :: src) = some (host, port, rest)) : ∃ host' port',
      netlocs next src = some (host', port', rest) ∧ hostbuf ++ host' = host ∧ portbuf ++ port' = port := by
  rw [netlocs_emit hstep, Option.map_eq_some_iff] at h
  obtain ⟨⟨host', port', rest'⟩, hnext, heq⟩ := h
  cases heq
  exact ⟨host', port', hnext, rfl, rfl⟩

theorem netlocStep_host (hb : b ∉ [colon, slash, question, comma]) : netlocStep .host b = .emit [b] [] .host := by
  simp only [List.mem_cons, not_or] at hb
  simp [netlocStep, hb]

theorem netlocStep_port (hb : b ∉ [slash, question, comma]) : netlocStep .port b = .emit [] [b] .port := if_neg hb

theorem netlocStep_port_end (hb : b ∈ [slash, question, comma]) : netlocStep .port b = netlocEnd b := if_pos hb

theorem netlocStep_closed_end (hb : b ∈ [slash, question, comma]) : netlocStep .closed b = netlocEnd b := by
  have hcolon : b ≠ colon := by
    intro heq
    rw [heq] at hb
    exact absurd hb (by decide)
  exact (if_neg hcolon).trans (if_pos hb)

theorem netlocStep_closed (hcolon : b ≠ colon) (hb : b ∉ [slash, question, comma]) : netlocStep .closed b = .reject :=
  (if_neg hcolon).trans (if_neg hb)

theorem netlocStep_host_end (hcolon : b ≠ colon) (hb : b ∈ [slash, question, comma]) :
    netlocStep .host b = netlocEnd b := by
  simp [netlocStep, hcolon, hb]

theorem netlocs_port (hxs : ∀ b ∈ xs, b ∉ [slash, question, comma]) (ys : Bytes) :
    netlocs .port (xs ++ slash :: ys) = some ([], xs, slash :: ys) := by
  induction xs with
  | nil => rfl
  | cons b xs ih =>
      rw [List.forall_mem_cons] at hxs
      rw [List.cons_append, netlocs_emit (netlocStep_port hxs.1), ih hxs.2]
      rfl

theorem netlocs_host (hxs : ∀ b ∈ xs, b ∉ [colon, slash, question, comma]) (ys : Bytes) :
    netlocs .host (xs ++ colon :: ys) = (netlocs .port ys).map fun (host, port, rest) => (xs ++ host, port, rest) := by
  induction xs with
  | nil => rfl
  | cons b xs ih =>
      rw [List.forall_mem_cons] at hxs
      rw [List.cons_append, netlocs_emit (netlocStep_host hxs.1), ih hxs.2, Option.map_map]
      rfl

/-- The loop looks for a bracket in the first byte only. -/
theorem netlocs_start (h : src.head? ≠ some openBracket) : netlocs .start src = netlocs .host src := by
  cases src with
  | nil => rfl
  | cons b src =>
      have hb : b ≠ openBracket := fun heq => h (congrArg some heq)
      have hstep : netlocStep .start b = netlocStep .host b := by simp [netlocStep, hb]
      rw [netlocs, netlocs, hstep]

/-! ## A single host -/

/-- A comma would leave its mark in the port. -/
theorem netlocs_end (hstep : netlocStep s b = netlocEnd b) (h : netlocs s (b :: src) = some (host, port, rest))
    (hcomma : comma ∉ port) : host = [] := by
  rw [netlocs, hstep, netlocEnd] at h
  by_cases hb : b = comma
  · rw [if_pos hb, Option.map_eq_some_iff] at h
    obtain ⟨⟨host', port', rest'⟩, _, heq⟩ := h
    cases heq
    exact absurd List.mem_cons_self hcomma
  · rw [if_neg hb] at h
    cases h
    rfl

theorem host_of_port (h : netlocs .port src = some (host, port, rest)) (hcomma : comma ∉ port) : host = [] := by
  induction src generalizing host port rest with
  | nil =>
      cases h
      rfl
  | cons b src ih =>
      by_cases hb : b ∈ [slash, question, comma]
      · exact netlocs_end (netlocStep_port_end hb) h hcomma
      · obtain ⟨host', port', hnext, rfl, rfl⟩ := netlocs_of_emit (netlocStep_port hb) h
        exact ih hnext fun hmem => hcomma (List.mem_cons_of_mem _ hmem)

theorem host_of_closed (h : netlocs .closed src = some (host, port, rest)) (hcomma : comma ∉ port) : host = [] := by
  cases src with
  | nil =>
      cases h
      rfl
  | cons b src =>
      by_cases hcolon : b = colon
      · rw [hcolon] at h
        obtain ⟨host', port', hnext, rfl, rfl⟩ := netlocs_of_emit rfl h
        exact host_of_port hnext hcomma
      · by_cases hb : b ∈ [slash, question, comma]
        · exact netlocs_end (netlocStep_closed_end hb) h hcomma
        · rw [netlocs, netlocStep_closed hcolon hb] at h
          cases h

/-- Without a comma the host ends at the first delimiter. -/
theorem host_of_host (h : netlocs .host src = some (host, port, rest)) (hcomma : comma ∉ port) :
    host = upTo [colon, slash, question, comma] src := by
  induction src generalizing host port rest with
  | nil =>
      cases h
      rfl
  | cons b src ih =>
      by_cases hcolon : b = colon
      · rw [hcolon] at h
        obtain ⟨host', port', hnext, rfl, rfl⟩ := netlocs_of_emit rfl h
        rw [List.nil_append, host_of_port hnext hcomma, hcolon]
        rfl
      · by_cases hb : b ∈ [slash, question, comma]
        · rw [netlocs_end (netlocStep_host_end hcolon hb) h hcomma, upTo_cons_of_mem (List.mem_cons_of_mem _ hb)]
        · have hout : b ∉ [colon, slash, question, comma] := List.not_mem_cons_of_ne_of_not_mem hcolon hb
          obtain ⟨host', port', hnext, rfl, rfl⟩ := netlocs_of_emit (netlocStep_host hout) h
          rw [ih hnext hcomma, upTo_cons_of_not_mem hout]
          rfl

/-- A bracketed host ends at the closing bracket. -/
theorem host_of_bracket (h : netlocs .bracket src = some (host, port, rest)) (hcomma : comma ∉ port) :
    host = upTo [closeBracket] src := by
  induction src generalizing host port rest with
  | nil => cases h
  | cons b src ih =>
      by_cases hb : b = closeBracket
      · rw [hb] at h
        obtain ⟨host', port', hnext, rfl, rfl⟩ := netlocs_of_emit rfl h
        rw [List.nil_append, host_of_closed hnext hcomma, hb]
        rfl
      · obtain ⟨host', port', hnext, rfl, rfl⟩ := netlocs_of_emit
          (show netlocStep .bracket b = .emit [b] [] .bracket from if_neg hb) h
        rw [ih hnext hcomma, upTo_cons_of_not_mem fun hmem => hb (List.mem_singleton.mp hmem)]
        rfl

theorem host_of_opened (h : netlocs .opened src = some (host, port, rest)) (hcomma : comma ∉ port) :
    host = upTo [closeBracket] src := by
  cases src with
  | nil => cases h
  | cons b src =>
      by_cases hb : b = closeBracket
      · rw [netlocs, show netlocStep .opened b = .reject from if_pos hb] at h
        cases h
      · have hstep : netlocStep .opened b = netlocStep .bracket b := (if_neg hb).trans (if_neg hb).symm
        rw [netlocs, hstep, ← netlocs] at h
        exact host_of_bracket h hcomma

theorem head?_append_ne (h : xs.head? ≠ some openBracket) : (xs ++ colon :: ys).head? ≠ some openBracket := by
  cases xs with
  | nil => exact fun heq => absurd (Option.some.inj heq) (by decide)
  | cons b xs => exact h

/-- **The host libpq must find**: no bracket in front, no delimiter in it. -/
theorem netlocs_plain (h : netlocs .start (xs ++ colon :: ys) = some (host, port, rest)) (hcomma : comma ∉ port)
    (hxs : decode host = some xs) :
    xs.head? ≠ some openBracket ∧ ∀ b ∈ xs, b ∉ [colon, slash, question, comma, percent] := by
  by_cases hopen : xs.head? = some openBracket
  · exfalso
    obtain ⟨tail, rfl⟩ : ∃ tail, xs = openBracket :: tail := List.head?_eq_some_iff.mp hopen
    rw [List.cons_append] at h
    obtain ⟨host', port', hnext, rfl, rfl⟩ := netlocs_of_emit rfl h
    rw [List.nil_append, host_of_opened hnext hcomma] at hxs
    -- long enough to decode to the host, the text in brackets takes in the colon, which no decoding takes out
    have hlen := (decodes_of_decode hxs).length_le
    have hcount := (decodes_of_decode hxs).le_count (b := colon) (by decide) rfl
    have hfront : tail ++ [colon] <+: upTo [closeBracket] (tail ++ colon :: ys) := by
      refine List.prefix_of_prefix_length_le ⟨ys, (List.append_cons tail colon ys).symm⟩ (List.takeWhile_prefix _) ?_
      rw [List.length_append, List.length_singleton]
      exact hlen
    have hcolon := hfront.sublist.count_le colon
    rw [List.count_append, List.count_singleton_self] at hcolon
    rw [List.count_cons_of_ne (by decide)] at hcount
    omega
  · rw [netlocs_start (head?_append_ne hopen)] at h
    rw [host_of_host h hcomma, upTo_append_cons (by decide)] at hxs
    exact ⟨hopen, of_decode_upTo hxs⟩

/-- A host and a port without delimiters are read as they stand. -/
theorem netlocs_of_plain (hopen : xs.head? ≠ some openBracket)
    (hplain : ∀ b ∈ xs, b ∉ [colon, slash, question, comma, percent])
    {port : Int} (hport : 0 < port) (ys : Bytes) :
    netlocs .start (xs ++ colon :: (portText port ++ slash :: ys)) = some (xs, portText port, slash :: ys) := by
  have hxs : ∀ b ∈ xs, b ∉ [colon, slash, question, comma] := fun b hb hmem =>
    hplain b hb (List.mem_of_mem_take (i := 4) hmem)
  have hdigits : ∀ b ∈ portText port, b ∉ [slash, question, comma] := fun b hb hmem =>
    portText_not_mem hport hb (List.mem_of_mem_take (i := 3) hmem)
  rw [netlocs_start (head?_append_ne hopen), netlocs_host hxs, netlocs_port hdigits, Option.map_some]
  simp only [List.append_nil]

/-! ## The credentials -/

theorem credentials_of_not (h : ¬ HasCredentials src) : credentials src = ([], [], src) := if_neg h

theorem fst_credentials (h : HasCredentials src) : (credentials src).1 = upTo [colon, atSign] src := by
  rw [credentials, if_pos h]
  simp only
  split <;> rfl

theorem credentials_of_user (hxs : ∀ b ∈ xs, b ∉ [colon, atSign]) (h : HasCredentials (xs ++ colon :: ys)) :
    credentials (xs ++ colon :: ys) = (xs, upTo [atSign] ys, (onFrom [atSign] ys).tail) := by
  rw [credentials, if_pos h, upTo_of_forall hxs (by decide), onFrom_of_forall hxs (by decide)]
  rfl

theorem hasCredentials_append_iff (hxs : atSign ∉ xs) (ys : Bytes) :
    HasCredentials (xs ++ atSign :: ys) ↔ slash ∉ xs := by
  unfold HasCredentials
  rw [List.find?_append]
  cases hfind : xs.find? (fun b => b ∈ [atSign, slash]) with
  | none =>
      rw [List.find?_eq_none] at hfind
      refine iff_of_true rfl fun hmem => ?_
      exact hfind slash hmem (by decide)
  | some b =>
      have hmem := List.mem_of_find?_eq_some hfind
      have hb := List.find?_some hfind
      have hat : b ≠ atSign := fun heq => hxs (heq ▸ hmem)
      have hslash : b = slash := by simpa [hat] using hb
      rw [hslash] at hmem
      exact iff_of_false (fun heq => hat (Option.some.inj heq)) fun hout => hout hmem

theorem not_mem_userinfo {U P : Bytes} {stopsU stopsP : List UInt8} (hU : ∀ b ∈ U, b ∉ stopsU)
    (hP : ∀ b ∈ P, b ∉ stopsP) (hcolon : b ≠ colon) (hbU : b ∈ stopsU) (hbP : b ∈ stopsP) : b ∉ U ++ colon :: P := by
  simp only [List.mem_append, List.mem_cons, not_or]
  exact ⟨fun hmem => hU b hmem hbU, hcolon, fun hmem => hP b hmem hbP⟩

/-- **The credentials libpq must find**: an `@` before any `/`, the first colon and the first `@` where they belong. -/
theorem credentials_plain {user password U P R : Bytes}
    (h : credentials (U ++ colon :: (P ++ atSign :: R)) = (user, password, rest)) (hne : U ≠ [])
    (huser : decode user = some U) (hpassword : decode password = some P) :
    (∀ b ∈ U, b ∉ [slash, colon, atSign, percent]) ∧ (∀ b ∈ P, b ∉ [slash, atSign, percent]) ∧ rest = R := by
  by_cases hfind : HasCredentials (U ++ colon :: (P ++ atSign :: R))
  · have hfst := fst_credentials hfind
    rw [h, upTo_append_cons (by decide)] at hfst
    rw [show user = upTo [colon, atSign] U from hfst] at huser
    have hU := of_decode_upTo huser
    have hUstop : ∀ b ∈ U, b ∉ [colon, atSign] := fun b hb hmem => hU b hb (List.mem_append_left _ hmem)
    rw [credentials_of_user hUstop hfind, Prod.mk.injEq, Prod.mk.injEq] at h
    obtain ⟨_, hfront, hrest⟩ := h
    rw [← hfront, upTo_append_cons (by decide)] at hpassword
    have hP := of_decode_upTo hpassword
    have hPstop : ∀ b ∈ P, b ∉ [atSign] := fun b hb hmem => hP b hb (List.mem_append_left _ hmem)
    rw [onFrom_of_forall hPstop (by decide)] at hrest
    have hat : atSign ∉ U ++ colon :: P := not_mem_userinfo hU hP (by decide) (by decide) (by decide)
    rw [← List.cons_append, ← List.append_assoc, hasCredentials_append_iff hat] at hfind
    simp only [List.mem_append, List.mem_cons, not_or] at hfind
    refine ⟨fun b hb => ?_, fun b hb => ?_, hrest.symm⟩
    · exact List.not_mem_cons_of_ne_of_not_mem (ne_of_mem_of_not_mem hb hfind.1) (hU b hb)
    · exact List.not_mem_cons_of_ne_of_not_mem (ne_of_mem_of_not_mem hb hfind.2.2) (hP b hb)
  · rw [credentials_of_not hfind] at h
    cases h
    exact absurd (Option.some.inj huser).symm hne

theorem credentials_of_plain {U P : Bytes} (hU : ∀ b ∈ U, b ∉ [slash, colon, atSign, percent])
    (hP : ∀ b ∈ P, b ∉ [slash, atSign, percent]) (R : Bytes) :
    credentials (U ++ colon :: (P ++ atSign :: R)) = (U, P, R) := by
  have hUstop : ∀ b ∈ U, b ∉ [colon, atSign] := fun b hb hmem =>
    hU b hb (List.mem_cons_of_mem _ (List.mem_of_mem_take (i := 2) hmem))
  have hPstop : ∀ b ∈ P, b ∉ [atSign] := fun b hb hmem =>
    hP b hb (List.mem_cons_of_mem _ (List.mem_of_mem_take (i := 1) hmem))
  have hat : atSign ∉ U ++ colon :: P := not_mem_userinfo hU hP (by decide) (by decide) (by decide)
  have hslash : slash ∉ U ++ colon :: P := not_mem_userinfo hU hP (by decide) (by decide) (by decide)
  have hfind : HasCredentials (U ++ colon :: (P ++ atSign :: R)) := by
    rwa [← List.cons_append, ← List.append_assoc, hasCredentials_append_iff hat]
  rw [credentials_of_user hUstop hfind, upTo_of_forall hPstop (by decide), onFrom_of_forall hPstop (by decide)]
  rfl

end

/-! ## The configuration read back -/

/-- `conn_str.c_str()`. -/
def cString (s : Bytes) : Bytes := upTo [0] s

namespace DbConfig

/-- The options that are exactly the configuration. -/
def connInfo (c : DbConfig) : ConnInfo :=
  { user := c.user, password := c.pwd, host := c.host, port := portText c.port, dbname := c.dbname, others := [] }

/-- The values do without the delimiters that end or escape them, and without the byte zero. -/
structure Plain (c : DbConfig) : Prop where
  user : ∀ b ∈ c.user, b ∉ [0, slash, colon, atSign, percent]
  pwd : ∀ b ∈ c.pwd, b ∉ [0, slash, atSign, percent]
  host : ∀ b ∈ c.host, b ∉ [0, colon, slash, question, comma, percent]
  host_open : c.host.head? ≠ some openBracket
  dbname : ∀ b ∈ c.dbname, b ∉ [0, question, percent]

/-- The connection string behind its prefix. -/
def body (c : DbConfig) : Bytes :=
  c.user ++ colon :: (c.pwd ++ atSign :: (c.host ++ colon :: (portText c.port ++ slash :: c.dbname)))

theorem connStr_eq (c : DbConfig) : c.connStr = ascii "postgresql://" ++ c.body := by
  have hcolon : ascii ":" = [colon] := rfl
  have hat : ascii "@" = [atSign] := rfl
  have hslash : ascii "/" = [slash] := rfl
  simp only [connStr, body, hcolon, hat, hslash, List.append_assoc, List.cons_append, List.nil_append]

end DbConfig

theorem afterPrefix_append (start src : Bytes) : afterPrefix start (start ++ src) = some src := by
  rw [afterPrefix, if_pos (List.prefix_append _ _), List.drop_left]

theorem cString_connStr (c : DbConfig) : cString c.connStr = ascii "postgresql://" ++ cString c.body := by
  have hprefix : ∀ b ∈ ascii "postgresql://", b ∉ [0] := by decide +kernel
  rw [c.connStr_eq, cString, cString, upTo, upTo, List.takeWhile_append_of_pos (by simpa using hprefix)]

section
variable {other : Bytes → Bytes → Option (Bytes × Bytes)} {c : DbConfig}

theorem uriParseOptions_eq_some {info : ConnInfo} : uriParseOptions other (cString c.connStr) = some info ↔
    ∃ u set, splitUri (cString c.body) = some u ∧ u.decode = some set ∧
      uriParseParams other set (paramsOf u.query) = some info := by
  rw [uriParseOptions, cString_connStr, afterPrefix_append]
  simp only [Option.bind_eq_bind, Option.orElse_eq_orElse, Option.orElse_some, Option.bind_some, Option.bind_eq_some_iff]
  constructor
  · intro h
    obtain ⟨u, hu, set, hset, h⟩ := h
    exact ⟨u, set, hu, hset, h⟩
  · intro h
    obtain ⟨u, set, hu, hset, h⟩ := h
    exact ⟨u, hu, set, hset, h⟩

/-- A configuration without delimiters is split where it was joined. -/
theorem splitUri_body (h : c.Plain) : splitUri c.body =
    some ⟨c.user, c.pwd, c.host, portText c.port, c.dbname, []⟩ := by
  rw [splitUri_eq_some]
  refine ⟨_, _, credentials_of_plain (fun b hb hmem => h.user b hb (List.mem_cons_of_mem _ hmem))
    (fun b hb hmem => h.pwd b hb (List.mem_cons_of_mem _ hmem)) _, netlocs_of_plain h.host_open
    (fun b hb hmem => h.host b hb (List.mem_cons_of_mem _ hmem)) c.port_range.1 _, ?_⟩
  have hdbname : ∀ b ∈ c.dbname, b ∉ [question] := by
    intro b hb hmem
    rw [List.mem_singleton] at hmem
    exact h.dbname b hb (by simp [hmem])
  have hfrom : onFrom [question] c.dbname = [] := by
    rw [onFrom, List.dropWhile_eq_nil_iff]
    simpa using hdbname
  rw [path, if_neg (by decide), upTo_eq_self_iff.mpr hdbname, hfrom]
  rfl

theorem decode_parts (h : c.Plain) : UriParts.decode ⟨c.user, c.pwd, c.host, portText c.port, c.dbname, []⟩ =
    some c.connInfo := by
  rw [UriParts.decode_eq_some]
  exact ⟨decode_of_not_mem fun hmem => h.user _ hmem (by decide),
    decode_of_not_mem fun hmem => h.pwd _ hmem (by decide),
    decode_of_not_mem fun hmem => h.host _ hmem (by decide),
    decode_of_not_mem fun hmem => portText_not_mem c.port_range.1 hmem (by decide),
    decode_of_not_mem fun hmem => h.dbname _ hmem (by decide), rfl⟩

theorem cString_body (huser : 0 ∉ c.user) (hpwd : 0 ∉ c.pwd) (hhost : 0 ∉ c.host) (hdbname : 0 ∉ c.dbname) :
    cString c.body = c.body := by
  have hport : 0 ∉ portText c.port := fun hmem => portText_not_mem c.port_range.1 hmem (by decide)
  rw [cString, upTo_eq_self_iff]
  intro b hb hmem
  rw [List.mem_singleton.mp hmem, DbConfig.body] at hb
  simp only [List.mem_append, List.mem_cons, huser, hpwd, hhost, hdbname, hport] at hb
  exact absurd hb (by decide)

/-- The string is as long as its values and the four delimiters. -/
theorem countP_body (c : DbConfig) : c.body.countP notComma = c.connInfo.weight + 4 := by
  simp only [DbConfig.body, List.countP_append, List.countP_cons, ConnInfo.weight, DbConfig.connInfo,
    show notComma colon = true from rfl, show notComma atSign = true from rfl, show notComma slash = true from rfl,
    if_true]
  omega

/-- What a part decodes to holds the byte zero only if the string did. -/
theorem zero_not_mem_of_decode {src : Bytes} {u : UriParts} (hsrc : 0 ∉ src) (hsplit : splitUri src = some u)
    {info : ConnInfo} (hdecode : u.decode = some info) :
    0 ∉ info.user ∧ 0 ∉ info.password ∧ 0 ∉ info.host ∧ 0 ∉ info.dbname := by
  have hzero {xs : Bytes} : 0 ∉ xs ↔ xs.countP (· == 0) = 0 := by
    rw [← List.count, List.count_eq_zero]
  have hcount := (countP_splitUri (p := (· == 0)) rfl hsplit).1
  rw [hzero.mp hsrc] at hcount
  obtain ⟨huser, hpassword, hhost, _, hdbname, _⟩ := UriParts.decode_eq_some.mp hdecode
  exact ⟨(decodes_of_decode huser).zero_not_mem (hzero.mpr (by omega)),
    (decodes_of_decode hpassword).zero_not_mem (hzero.mpr (by omega)),
    (decodes_of_decode hhost).zero_not_mem (hzero.mpr (by omega)),
    (decodes_of_decode hdbname).zero_not_mem (hzero.mpr (by omega))⟩

/-! ## Exactness -/

theorem uriParseOptions_of_plain (other : Bytes → Bytes → Option (Bytes × Bytes)) (h : c.Plain) :
    uriParseOptions other (cString c.connStr) = some c.connInfo := by
  have hbody : cString c.body = c.body :=
    cString_body (fun hmem => h.user _ hmem (by decide)) (fun hmem => h.pwd _ hmem (by decide))
      (fun hmem => h.host _ hmem (by decide)) (fun hmem => h.dbname _ hmem (by decide))
  rw [uriParseOptions_eq_some, hbody]
  exact ⟨_, _, splitUri_body h, decode_parts h, rfl⟩

/-- Parameters would leave too little of the string for the five values. -/
theorem query_of_parse {u : UriParts} {set : ConnInfo} (hsplit : splitUri (cString c.body) = some u)
    (hset : u.decode = some set) (hparams : uriParseParams other set (paramsOf u.query) = some c.connInfo) :
    u.query = [] := by
  by_contra hquery
  have hlt := weight_add_lt hsplit hset hparams rfl hquery
  have hle : (cString c.body).countP notComma ≤ c.body.countP notComma := (List.takeWhile_sublist _).countP_le
  have hbody := countP_body c
  omega

theorem plain_of_uriParseOptions (h : uriParseOptions other (cString c.connStr) = some c.connInfo) : c.Plain := by
  obtain ⟨u, set, hsplit, hset, hparams⟩ := uriParseOptions_eq_some.mp h
  have hquery := query_of_parse hsplit hset hparams
  rw [hquery] at hparams
  cases hparams
  -- the string ends nowhere before its end
  have hsrc : 0 ∉ cString c.body := by
    intro hmem
    have hout := List.mem_takeWhile_imp hmem
    simp at hout
  obtain ⟨huser0, hpwd0, hhost0, hdbname0⟩ := zero_not_mem_of_decode hsrc hsplit hset
  rw [cString_body huser0 hpwd0 hhost0 hdbname0] at hsplit
  -- each part decodes to its value
  obtain ⟨huser, hpwd, hhost, hport, hdbname, _⟩ := UriParts.decode_eq_some.mp hset
  obtain ⟨netloc, rest, hcred, hnet, hpath⟩ := splitUri_eq_some.mp hsplit
  obtain ⟨hU, hP, rfl⟩ := credentials_plain hcred c.user_ne huser hpwd
  have hcomma : comma ∉ u.port := by
    intro hmem
    have hdigit := (decodes_of_decode hport).mem (by decide) rfl hmem
    exact portText_not_mem c.port_range.1 hdigit (by decide)
  obtain ⟨hopen, hH⟩ := netlocs_plain hnet hcomma hhost
  rw [netlocs_of_plain hopen hH c.port_range.1] at hnet
  obtain rfl : slash :: c.dbname = rest := (Prod.mk.inj (Prod.mk.inj (Option.some.inj hnet)).2).2
  have hD : upTo [question] c.dbname = u.dbname := (Prod.mk.inj hpath).1
  rw [← hD] at hdbname
  have hD := of_decode_upTo hdbname
  exact {
    user := fun b hb => List.not_mem_cons_of_ne_of_not_mem (ne_of_mem_of_not_mem hb huser0) (hU b hb)
    pwd := fun b hb => List.not_mem_cons_of_ne_of_not_mem (ne_of_mem_of_not_mem hb hpwd0) (hP b hb)
    host := fun b hb => List.not_mem_cons_of_ne_of_not_mem (ne_of_mem_of_not_mem hb hhost0) (hH b hb)
    host_open := hopen
    dbname := fun b hb => List.not_mem_cons_of_ne_of_not_mem (ne_of_mem_of_not_mem hb hdbname0) (hD b hb) }

theorem uriParseOptions_iff : uriParseOptions other (cString c.connStr) = some c.connInfo ↔ c.Plain :=
  ⟨plain_of_uriParseOptions, uriParseOptions_of_plain other⟩

/-- What libpq reads back tells configurations apart. -/
theorem connInfo_inj {c' : DbConfig} (h : c.connInfo = c'.connInfo) :
    c.user = c'.user ∧ c.pwd = c'.pwd ∧ c.host = c'.host ∧ c.port = c'.port ∧ c.dbname = c'.dbname := by
  simp only [DbConfig.connInfo, ConnInfo.mk.injEq] at h
  exact ⟨h.1, h.2.1, h.2.2.1, portText_inj c.port_range c'.port_range h.2.2.2.1, h.2.2.2.2.1⟩

end

theorem parseDbConfig_of_read {root : Node} {c : DbConfig} (h : readDbConfig root = .ok c) :
    parseDbConfig root = .ok { connStr := c.connStr, poolSize := c.poolSize } := by
  rw [parseDbConfig, h]
  rfl

/-- **The connection string encodes its configuration** exactly when the values are plain: of whatever `ParseDbConfig`
accepts, libpq reads the five values back and nothing else if and only if no delimiter stands in them, and plain
configurations with the same string are the same. -/
theorem connStr_faithful_iff (other : Bytes → Bytes → Option (Bytes × Bytes)) {root : Node} {c : DbConfig}
    (h : readDbConfig root = .ok c) : ∃ pool, parseDbConfig root = .ok pool ∧
      (uriParseOptions other (cString pool.connStr) = some c.connInfo ↔ c.Plain) ∧
      ∀ root' c' pool', readDbConfig root' = .ok c' → parseDbConfig root' = .ok pool' → c.Plain → c'.Plain →
        pool.connStr = pool'.connStr →
        c.user = c'.user ∧ c.pwd = c'.pwd ∧ c.host = c'.host ∧ c.port = c'.port ∧ c.dbname = c'.dbname := by
  refine ⟨_, parseDbConfig_of_read h, uriParseOptions_iff, ?_⟩
  intro root' c' pool' h' hpool' hplain hplain' hstr
  rw [parseDbConfig_of_read h'] at hpool'
  cases hpool'
  have hc := uriParseOptions_of_plain other hplain
  have hc' := uriParseOptions_of_plain other hplain'
  rw [show c.connStr = c'.connStr from hstr, hc'] at hc
  exact connInfo_inj (Option.some.inj hc).symm

/-- The database section of `config.yaml` with another password and host. -/
def DbConfig.photon (pwd host : Bytes) (host_ne : host ≠ []) : DbConfig where
  host := host
  port := 5432
  user := ascii "lxy"
  pwd := pwd
  dbname := ascii "ecommerce_db"
  poolSize := 4
  host_ne := host_ne
  user_ne := by decide +kernel
  dbname_ne := by decide +kernel
  port_range := by decide
  poolSize_range := by decide

/-- A password of digits is read back. -/
theorem connStr_faithful_digits : ∃ host_ne, ∃ pool,
    parseDbConfig (DbConfig.photon (ascii "12345678") (ascii "localhost") host_ne).node = .ok pool ∧
      uriParseOptions (fun _ _ => none) (cString pool.connStr) =
        some (DbConfig.photon (ascii "12345678") (ascii "localhost") host_ne).connInfo := by
  refine ⟨by decide +kernel, ?_⟩
  obtain ⟨pool, hpool, hiff, _⟩ := connStr_faithful_iff (fun _ _ => none)
    (readDbConfig_node (DbConfig.photon (ascii "12345678") (ascii "localhost") (by decide +kernel)))
  refine ⟨pool, hpool, hiff.mpr ⟨?_, ?_, ?_, ?_, ?_⟩⟩ <;> decide +kernel

/-- A password with an `@` in it: another host is contacted with another password, as if that had been configured. -/
theorem connStr_wrong_atSign : ∃ c c' : DbConfig, readDbConfig c.node = .ok c ∧ readDbConfig c'.node = .ok c' ∧
    c.pwd = ascii "1234@5678" ∧ c.host = ascii "localhost" ∧ c'.pwd = ascii "1234" ∧ c'.host = ascii "5678@localhost" ∧
    c.connStr = c'.connStr ∧ uriParseOptions (fun _ _ => none) (cString c.connStr) ≠ some c.connInfo ∧
    uriParseOptions (fun _ _ => none) (cString c.connStr) = some c'.connInfo := by
  refine ⟨.photon (ascii "1234@5678") (ascii "localhost") (by decide +kernel),
    .photon (ascii "1234") (ascii "5678@localhost") (by decide +kernel), readDbConfig_node _, readDbConfig_node _,
    rfl, rfl, rfl, rfl, ?_, ?_, ?_⟩ <;> decide +kernel

end PhotonCommerce.Config
