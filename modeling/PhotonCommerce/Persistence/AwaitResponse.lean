import PhotonCommerce.Persistence.PqConnection

/-!
# Waiting for a response and fetching its results

The response of the server to one statement reaches the socket in chunks; `AwaitResponse` waits, consumes what has
arrived and stops when libpq is not busy, `FetchRawResult` then calls `PQgetResult` up to its null.

* `Message`, `Frame` : the messages of a response and their lengths in bytes;
* `PGconn` : libpq's input buffer and its state; `parseInput`, `consumeInput`, `isBusy`, `getResult`;
* `awaitResponse`, `fetchLoop`, `execResponse` : the two functions, with whether libpq was busy at each `PQgetResult`;
* `parse_consumeInput_parse` : it does not matter when the input is parsed;
* `fetchLoop_spec` : the results of the response, however it was split, and which calls had to wait;
* `never_blocks_iff` : none has to exactly when no chunk ends between the first result and the end of the response.
-/

namespace PhotonCommerce.Infrastructure

/-! ## Responses -/

/-- The messages of a response to `PQsendQueryParams`. -/
inductive Message where
  | parseComplete
  | bindComplete
  | noData
  | notice
  | rowDescription
  | dataRow (row : List (Option String))
  | commandComplete
  | emptyQueryResponse
  | errorResponse (message sqlState : String)
  | readyForQuery
  deriving DecidableEq, Repr

/-- `conn->asyncStatus`, with the rows read so far or the result that is ready. -/
inductive AsyncStatus where
  | busy (rows : Option (List (List (Option String))))
  | ready (res : PGresult)
  | idle
  deriving DecidableEq, Repr

/-- What libpq makes of a message while it is busy. -/
def Message.process (m : Message) (rows : Option (List (List (Option String)))) : AsyncStatus :=
  match m with
  | .rowDescription => .busy (some [])
  | .dataRow row => .busy (rows.map (· ++ [row]))
  | .commandComplete => .ready ⟨if rows.isSome then .tuplesOk else .commandOk, rows.getD [], "", none⟩
  | .emptyQueryResponse => .ready ⟨.emptyQuery, [], "", none⟩
  | .errorResponse message sqlState => .ready ⟨.fatalError, [], message, some sqlState⟩
  | .readyForQuery => .idle
  | .parseComplete => .busy rows
  | .bindComplete => .busy rows
  | .noData => .busy rows
  | .notice => .busy rows

/-- A message with its length in bytes: one for its type and four for the length are always there. -/
structure Frame where
  message : Message
  size : Nat
  size_ge : 5 ≤ size

/-- `ReadyForQuery` is the last message of a response, and only the last. -/
inductive Complete : List Frame → Prop where
  | ready (f : Frame) (h : f.message = .readyForQuery) : Complete [f]
  | more (f : Frame) (fs : List Frame) (h : f.message ≠ .readyForQuery) (rest : Complete fs) : Complete (f :: fs)

/-- The length of a response. -/
def totalBytes (response : List Frame) : Nat := (response.map Frame.size).sum

/-! ## libpq -/

/-- A connection with a statement under way: its state, the bytes in its input buffer, and the messages that begin
there. -/
structure PGconn where
  status : AsyncStatus
  received : Nat
  unread : List Frame

/-- `parseInput`: while libpq is busy, every message that has arrived whole. -/
def parseInput : AsyncStatus → Nat → List Frame → PGconn
  | .busy rows, received, f :: unread =>
      if f.size ≤ received then parseInput (f.message.process rows) (received - f.size) unread
      else ⟨.busy rows, received, f :: unread⟩
  | status, received, unread => ⟨status, received, unread⟩

namespace PGconn

def parse (c : PGconn) : PGconn := parseInput c.status c.received c.unread

/-- `PQconsumeInput`, when so many bytes have arrived. -/
def consumeInput (c : PGconn) (chunk : Nat) : PGconn := { c with received := c.received + chunk }

/-- `PQisBusy`. -/
def isBusy (c : PGconn) : Bool :=
  match c.parse.status with
  | .busy _ => true
  | _ => false

/-- `PQgetResult`: as long as libpq is busy, it waits for the next chunk. -/
def getResult (c : PGconn) (chunks : List Nat) : Option (Option PGresult × PGconn × List Nat) :=
  match c.parse.status with
  | .idle => some (none, c.parse, chunks)
  | .ready res => some (some res, { c.parse with status := .busy none }, chunks)
  | .busy _ =>
      match chunks with
      | [] => none
      | chunk :: chunks => getResult (c.parse.consumeInput chunk) chunks

end PGconn

/-! ## `AwaitResponse` and `FetchRawResult` -/

/-- `PQConnection::AwaitResponse`: the connection when it stops, and the chunks still to come. -/
def awaitResponse : List Nat → PGconn → Option (PGconn × List Nat)
  | [], _ => none
  | chunk :: chunks, c =>
      if (c.consumeInput chunk).isBusy then awaitResponse chunks (c.consumeInput chunk).parse
      else some ((c.consumeInput chunk).parse, chunks)

/-- How `FetchRawResult` ended: its result, for each `PQgetResult` whether libpq was busy, and the connection. -/
structure Fetched where
  result : Option PGresult
  busyAt : List Bool
  conn : PGconn
  chunks : List Nat

/-- The loop of `PQConnection::FetchRawResult`, for at most so many rounds. -/
def fetchLoop : Nat → Option PGresult → PGconn → List Nat → Option Fetched
  | 0, _, _, _ => none
  | fuel + 1, finalResult, c, chunks =>
      match c.getResult chunks with
      | none => none
      | some (none, c', chunks') => some ⟨finalResult, [c.isBusy], c', chunks'⟩
      | some (some res, c', chunks') =>
          (fetchLoop fuel (keepFirst finalResult res) c' chunks').map fun r => { r with busyAt := c.isBusy :: r.busyAt }

/-- `AwaitResponse` and `FetchRawResult` on a response that arrives in chunks. -/
def execResponse (fuel : Nat) (response : List Frame) (chunks : List Nat) : Option Fetched :=
  (awaitResponse chunks ⟨.busy none, 0, response⟩).bind fun (c, rest) => fetchLoop fuel none c rest

/-! ## The first result of a response -/

/-- The state at the first message that ends a result or the response. -/
def firstStatus (rows : Option (List (List (Option String)))) : List Frame → AsyncStatus
  | [] => .busy rows
  | f :: fs =>
      match f.message.process rows with
      | .busy rows => firstStatus rows fs
      | status => status

/-- The messages that end a result or the response. -/
def Message.ends : Message → Bool
  | .commandComplete => true
  | .emptyQueryResponse => true
  | .errorResponse .. => true
  | .readyForQuery => true
  | _ => false

/-- The bytes up to the end of that message. -/
def firstEnd : List Frame → Nat
  | [] => 0
  | f :: fs => if f.message.ends then f.size else f.size + firstEnd fs

/-- What comes after it. -/
def afterFirst : List Frame → List Frame
  | [] => []
  | f :: fs => if f.message.ends then fs else afterFirst fs

/-- The results of a response. -/
def resultsOf (rows : Option (List (List (Option String)))) : List Frame → List PGresult
  | [] => []
  | f :: fs =>
      match f.message.process rows with
      | .busy rows => resultsOf rows fs
      | .ready res => res :: resultsOf none fs
      | .idle => []

theorem Message.process_of_not_ends {m : Message} (h : m.ends = false) (rows) : ∃ rows', m.process rows = .busy rows' := by
  cases m with
  | commandComplete => cases h
  | emptyQueryResponse => cases h
  | errorResponse => cases h
  | readyForQuery => cases h
  | _ => exact ⟨_, rfl⟩

theorem Message.process_of_ends {m : Message} (h : m.ends = true) (rows) :
    (m.process rows = .idle ∧ m = .readyForQuery) ∨ (m ≠ .readyForQuery ∧ ∃ res, m.process rows = .ready res) := by
  cases m with
  | readyForQuery => exact .inl ⟨rfl, rfl⟩
  | commandComplete => exact .inr ⟨nofun, _, rfl⟩
  | emptyQueryResponse => exact .inr ⟨nofun, _, rfl⟩
  | errorResponse => exact .inr ⟨nofun, _, rfl⟩
  | _ => cases h

/-- **A complete response** is over with its first end, or has a result first and a complete response after it. -/
theorem Complete.first {fs : List Frame} (h : Complete fs) (rows) :
    (firstStatus rows fs = .idle ∧ firstEnd fs = totalBytes fs ∧ resultsOf rows fs = []) ∨
    (∃ res, firstStatus rows fs = .ready res ∧ Complete (afterFirst fs) ∧ firstEnd fs + totalBytes (afterFirst fs) = totalBytes fs ∧
      (afterFirst fs).length < fs.length ∧ resultsOf rows fs = res :: resultsOf none (afterFirst fs)) := by
  induction h generalizing rows with
  | ready f hf =>
      left
      simp [firstStatus, firstEnd, resultsOf, totalBytes, hf, Message.process, Message.ends]
  | more f fs hf hrest ih =>
      cases hends : f.message.ends with
      | true =>
          obtain ⟨-, hready⟩ | ⟨-, res, hres⟩ := Message.process_of_ends hends rows
          · exact absurd hready hf
          · right
            refine ⟨res, ?_, ?_⟩
            · rw [firstStatus, hres]
            · simp [afterFirst, firstEnd, resultsOf, hends, hres, hrest, totalBytes]
      | false =>
          obtain ⟨rows', hrows'⟩ := Message.process_of_not_ends hends rows
          rcases ih rows' with ⟨hstatus, hend, hresults⟩ | ⟨res, hstatus, hafter, hend, hlen, hresults⟩
          · left
            simp only [firstStatus, firstEnd, resultsOf, hends, hrows', hstatus, hend, hresults, totalBytes, List.map_cons,
              List.sum_cons, Bool.false_eq_true, if_false, and_self]
          · right
            refine ⟨res, ?_⟩
            simp only [firstStatus, firstEnd, resultsOf, afterFirst, hends, hrows', hstatus, hresults, totalBytes,
              List.map_cons, List.sum_cons, Bool.false_eq_true, if_false, List.length_cons] at hend ⊢
            refine ⟨trivial, hafter, by omega, by omega, trivial⟩

theorem Complete.firstEnd_le {fs : List Frame} (h : Complete fs) : firstEnd fs ≤ totalBytes fs := by
  rcases h.first none with ⟨-, hend, -⟩ | ⟨res, -, -, hend, -, -⟩ <;> omega

theorem Complete.firstEnd_pos {fs : List Frame} (h : Complete fs) : 0 < firstEnd fs := by
  cases h with
  | ready f hf =>
      have := f.size_ge
      rw [firstEnd]
      split <;> omega
  | more f fs hf hrest =>
      have := f.size_ge
      rw [firstEnd]
      split <;> omega

/-! ## Parsing -/

/-- Before the first end has arrived libpq is busy. -/
theorem parseInput_of_lt {rows} {received : Nat} {fs : List Frame} (h : received < firstEnd fs) :
    ∃ rows', (parseInput (.busy rows) received fs).status = .busy rows' := by
  induction fs generalizing rows received with
  | nil => exact absurd h (Nat.not_lt_zero _)
  | cons f fs ih =>
      rw [parseInput]
      split
      · next hsize =>
          rw [firstEnd] at h
          cases hends : f.message.ends with
          | true =>
              rw [if_pos hends] at h
              omega
          | false =>
              rw [if_neg (by rw [hends]; exact Bool.false_ne_true)] at h
              obtain ⟨rows', hrows'⟩ := Message.process_of_not_ends hends rows
              rw [hrows']
              exact ih (by omega)
      · exact ⟨rows, rfl⟩

theorem parseInput_of_ends {rows} {received : Nat} {f : Frame} (hends : f.message.ends = true) (h : f.size ≤ received)
    (fs : List Frame) : parseInput (.busy rows) received (f :: fs) =
      ⟨firstStatus rows (f :: fs), received - firstEnd (f :: fs), afterFirst (f :: fs)⟩ := by
  rw [parseInput, if_pos h, firstStatus, firstEnd, if_pos hends, afterFirst, if_pos hends]
  rcases Message.process_of_ends hends rows with ⟨hidle, -⟩ | ⟨-, res, hres⟩
  · rw [hidle, parseInput]
    exact nofun
  · rw [hres, parseInput]
    exact nofun

/-- When it has, libpq stands after it. -/
theorem parseInput_of_le {rows} {received : Nat} {fs : List Frame} (hc : Complete fs) (h : firstEnd fs ≤ received) :
    parseInput (.busy rows) received fs = ⟨firstStatus rows fs, received - firstEnd fs, afterFirst fs⟩ := by
  induction hc generalizing rows received with
  | ready f hf =>
      have hends : f.message.ends = true := by rw [hf]; rfl
      rw [firstEnd, if_pos hends] at h
      exact parseInput_of_ends hends h []
  | more f fs hf hrest ih =>
      cases hends : f.message.ends with
      | true =>
          rw [firstEnd, if_pos hends] at h
          exact parseInput_of_ends hends h fs
      | false =>
          obtain ⟨rows', hrows'⟩ := Message.process_of_not_ends hends rows
          simp only [firstEnd, hends, Bool.false_eq_true, if_false] at h
          rw [parseInput, if_pos (by omega), hrows', ih (by omega)]
          simp only [firstStatus, firstEnd, afterFirst, hends, hrows', Bool.false_eq_true, if_false, Nat.sub_add_eq]

/-- Parsing what is left of the input once more has arrived is parsing all of it. -/
theorem parseInput_parseInput {status : AsyncStatus} {received : Nat} {fs : List Frame} {rows} (chunk : Nat)
    (h : (parseInput status received fs).status = .busy rows) :
    parseInput (parseInput status received fs).status ((parseInput status received fs).received + chunk)
      (parseInput status received fs).unread = parseInput status (received + chunk) fs := by
  induction fs generalizing status received with
  | nil => cases status <;> rfl
  | cons f fs ih =>
      cases status with
      | ready res => rfl
      | idle => rfl
      | busy rows₀ =>
          by_cases hsize : f.size ≤ received
          · rw [parseInput, if_pos hsize] at h ⊢
            rw [ih h, parseInput, if_pos (by omega), show received + chunk - f.size = received - f.size + chunk by omega]
          · rw [parseInput, if_neg hsize]

/-- A state that is not busy is parsed already. -/
theorem parseInput_idem {status : AsyncStatus} {received : Nat} {fs : List Frame} :
    (parseInput status received fs).parse = parseInput status received fs := by
  induction fs generalizing status received with
  | nil => cases status <;> rfl
  | cons f fs ih =>
      cases status with
      | ready res => rfl
      | idle => rfl
      | busy rows₀ =>
          by_cases hsize : f.size ≤ received
          · rw [parseInput, if_pos hsize]
            exact ih
          · rw [parseInput, if_neg hsize, PGconn.parse, parseInput, if_neg hsize]

namespace PGconn
variable {c : PGconn} {rows : Option (List (List (Option String)))}

theorem parse_parse (c : PGconn) : c.parse.parse = c.parse := parseInput_idem

theorem isBusy_parse (c : PGconn) : c.parse.isBusy = c.isBusy := by
  unfold isBusy
  rw [parse_parse]

theorem isBusy_iff : c.isBusy = true ↔ ∃ rows, c.parse.status = .busy rows := by
  unfold isBusy
  cases c.parse.status <;> simp

/-- **It does not matter when the input is parsed.** -/
theorem parse_consumeInput_parse (h : c.isBusy = true) (chunk : Nat) :
    (c.parse.consumeInput chunk).parse = (c.consumeInput chunk).parse := by
  obtain ⟨rows, hrows⟩ := isBusy_iff.mp h
  exact parseInput_parseInput chunk hrows

/-- Busy is: the first end has not arrived. -/
theorem isBusy_eq (hstatus : c.status = .busy rows) (hc : Complete c.unread) :
    c.isBusy = true ↔ c.received < firstEnd c.unread := by
  rw [isBusy_iff, parse, hstatus]
  constructor
  · intro hbusy
    obtain ⟨rows', hrows'⟩ := hbusy
    refine Nat.lt_of_not_le fun hle => ?_
    rw [parseInput_of_le hc hle] at hrows'
    rcases hc.first rows with ⟨hidle, -⟩ | ⟨res, hready, -⟩
    · rw [hidle] at hrows'
      cases hrows'
    · rw [hready] at hrows'
      cases hrows'
  · exact parseInput_of_lt

theorem getResult_parse (c : PGconn) (chunks : List Nat) : c.parse.getResult chunks = c.getResult chunks := by
  rw [getResult.eq_def, getResult.eq_def c, parse_parse]

/-- `PQgetResult` waits for chunks until the first end has arrived. -/
theorem getResult_waits (hstatus : c.status = .busy rows) (hc : Complete c.unread) {chunks : List Nat}
    (henough : firstEnd c.unread ≤ c.received + chunks.sum) :
    ∃ more rest, firstEnd c.unread ≤ c.received + more ∧ more + rest.sum = chunks.sum ∧
      (firstEnd c.unread ≤ c.received → more = 0) ∧ c.getResult chunks = (c.consumeInput more).getResult rest := by
  induction chunks generalizing c with
  | nil => exact ⟨0, [], henough, rfl, fun _ => rfl, rfl⟩
  | cons chunk chunks ih =>
      by_cases hbusy : c.isBusy = true
      · obtain ⟨rows', hrows'⟩ := isBusy_iff.mp hbusy
        rw [List.sum_cons] at henough
        have hlt := (isBusy_eq hstatus hc).mp hbusy
        obtain ⟨more, rest, hend, hsum, -, hget⟩ := ih (c := c.consumeInput chunk) hstatus hc
          (by rw [consumeInput]; dsimp only; omega)
        refine ⟨chunk + more, rest, ?_, by rw [List.sum_cons]; omega, fun hle => by omega, ?_⟩
        · rw [consumeInput] at hend
          dsimp only at hend
          omega
        · rw [getResult.eq_def]
          simp only [hrows']
          rw [← getResult_parse, parse_consumeInput_parse hbusy, getResult_parse, hget]
          simp only [consumeInput, Nat.add_assoc]
      · refine ⟨0, chunk :: chunks, ?_, Nat.zero_add _, fun _ => rfl, rfl⟩
        exact Nat.le_of_not_lt fun hlt => hbusy ((isBusy_eq hstatus hc).mpr hlt)

/-- **What `PQgetResult` returns** once the first end is there. -/
theorem getResult_of_le (hstatus : c.status = .busy rows) (hc : Complete c.unread)
    (h : firstEnd c.unread ≤ c.received) (chunks : List Nat) : c.getResult chunks =
      match firstStatus rows c.unread with
      | .ready res => some (some res, ⟨.busy none, c.received - firstEnd c.unread, afterFirst c.unread⟩, chunks)
      | _ => some (none, ⟨.idle, c.received - firstEnd c.unread, afterFirst c.unread⟩, chunks) := by
  have hparse : c.parse = ⟨firstStatus rows c.unread, c.received - firstEnd c.unread, afterFirst c.unread⟩ := by
    rw [parse, hstatus, parseInput_of_le hc h]
  rw [getResult.eq_def, hparse]
  rcases hc.first rows with ⟨hidle, -⟩ | ⟨res, hready, -⟩
  · simp only [hidle]
  · simp only [hready]

end PGconn

/-! ## The two functions -/

theorem awaitResponse_parse {c : PGconn} (h : c.isBusy = true) (chunks : List Nat) :
    awaitResponse chunks c.parse = awaitResponse chunks c := by
  cases chunks with
  | nil => rfl
  | cons chunk chunks =>
      have hparse := PGconn.parse_consumeInput_parse h chunk
      rw [awaitResponse, awaitResponse, hparse, ← PGconn.isBusy_parse, hparse, PGconn.isBusy_parse]

/-- **`AwaitResponse`** stops after the first chunk with which the first end has arrived. -/
theorem awaitResponse_spec {c : PGconn} {rows} {chunks : List Nat} (hstatus : c.status = .busy rows)
    (hc : Complete c.unread) (hbefore : c.received < firstEnd c.unread)
    (henough : firstEnd c.unread ≤ c.received + chunks.sum) :
    ∃ k, awaitResponse chunks c = some ((c.consumeInput (chunks.take k).sum).parse, chunks.drop k) ∧
      firstEnd c.unread ≤ c.received + (chunks.take k).sum ∧
      ∀ j, firstEnd c.unread ≤ c.received + (chunks.take j).sum → k ≤ j := by
  induction chunks generalizing c with
  | nil =>
      rw [List.sum_nil] at henough
      omega
  | cons chunk chunks ih =>
      have hbusy := PGconn.isBusy_eq (c := c.consumeInput chunk) hstatus hc
      have hreceived : (c.consumeInput chunk).received = c.received + chunk := rfl
      have hunread : (c.consumeInput chunk).unread = c.unread := rfl
      rw [hreceived, hunread] at hbusy
      rw [List.sum_cons] at henough
      by_cases hlt : c.received + chunk < firstEnd c.unread
      · -- still busy: the loop goes on
        obtain ⟨k, hawait, hend, hleast⟩ := ih (c := c.consumeInput chunk) hstatus hc hlt
          (by rw [hreceived, hunread]; omega)
        rw [hreceived, hunread] at hend
        refine ⟨k + 1, ?_, by rw [List.take_succ_cons, List.sum_cons]; omega, fun j hj => ?_⟩
        · rw [awaitResponse, if_pos (hbusy.mpr hlt), awaitResponse_parse (hbusy.mpr hlt), hawait]
          simp only [PGconn.consumeInput, List.take_succ_cons, List.sum_cons, List.drop_succ_cons, Nat.add_assoc]
        · cases j with
          | zero =>
              rw [List.take_zero, List.sum_nil] at hj
              omega
          | succ j =>
              rw [List.take_succ_cons, List.sum_cons] at hj
              have := hleast j (by rw [hreceived, hunread]; omega)
              omega
      · refine ⟨1, ?_, by simp only [List.take_succ_cons, List.take_zero, List.sum_cons, List.sum_nil]; omega,
          fun j hj => ?_⟩
        · rw [awaitResponse, if_neg (fun h => hlt (hbusy.mp h))]
          simp only [List.take_succ_cons, List.take_zero, List.sum_cons, List.sum_nil, Nat.add_zero,
            List.drop_succ_cons, List.drop_zero]
        · cases j with
          | zero =>
              rw [List.take_zero, List.sum_nil] at hj
              omega
          | succ j => omega

theorem fetchLoop_parse (fuel : Nat) (finalResult : Option PGresult) (c : PGconn) (chunks : List Nat) :
    fetchLoop fuel finalResult c.parse chunks = fetchLoop fuel finalResult c chunks := by
  cases fuel with
  | zero => rfl
  | succ fuel => rw [fetchLoop, fetchLoop, PGconn.getResult_parse, PGconn.isBusy_parse]

/-- **`FetchRawResult`** fetches the results of the response up to the null, and never finds libpq busy exactly when
the whole response is in its buffer. -/
theorem fetchLoop_spec {fuel : Nat} {finalResult : Option PGresult} {c : PGconn} {rows} {chunks : List Nat}
    (hstatus : c.status = .busy rows) (hc : Complete c.unread)
    (henough : totalBytes c.unread ≤ c.received + chunks.sum) (hfuel : c.unread.length < fuel) :
    ∃ r, fetchLoop fuel finalResult c chunks = some r ∧ r.conn.status = .idle ∧
      r.result = (resultsOf rows c.unread).foldl keepFirst finalResult ∧
      ((∀ busy ∈ r.busyAt, busy = false) ↔ totalBytes c.unread ≤ c.received) := by
  induction fuel generalizing finalResult c rows chunks with
  | zero => exact absurd hfuel (Nat.not_lt_zero _)
  | succ fuel ih =>
      have hfirst := hc.firstEnd_le
      obtain ⟨more, rest, hend, hsum, hnow, hget⟩ := PGconn.getResult_waits hstatus hc
        (show firstEnd c.unread ≤ c.received + chunks.sum by omega)
      rw [PGconn.getResult_of_le (c := c.consumeInput more) hstatus hc hend,
        show (c.consumeInput more).unread = c.unread from rfl,
        show (c.consumeInput more).received = c.received + more from rfl] at hget
      have hbusy : c.isBusy = false ↔ firstEnd c.unread ≤ c.received := by
        rw [← Bool.not_eq_true, PGconn.isBusy_eq hstatus hc, Nat.not_lt]
      rcases hc.first rows with ⟨hidle, hall, hresults⟩ | ⟨res, hready, hafter, hall, hlen, hresults⟩
      · simp only [hidle] at hget
        refine ⟨_, by rw [fetchLoop, hget], rfl, by rw [hresults]; rfl, ?_⟩
        rw [← hall, ← hbusy]
        simp only [List.mem_singleton, forall_eq]
      · simp only [hready] at hget
        obtain ⟨r, hr, hrstatus, hrresult, hrbusy⟩ := @ih (keepFirst finalResult res)
          ⟨.busy none, c.received + more - firstEnd c.unread, afterFirst c.unread⟩ none rest rfl hafter
          (by dsimp only; omega) (by dsimp only; omega)
        dsimp only at hrbusy
        refine ⟨{ r with busyAt := c.isBusy :: r.busyAt }, ?_, hrstatus, ?_, ?_⟩
        · rw [fetchLoop, hget]
          simp only [hr, Option.map_some]
        · rw [hresults, List.foldl_cons]
          exact hrresult
        · rw [List.forall_mem_cons, hrbusy, hbusy]
          constructor
          · intro h
            have := hnow h.1
            omega
          · intro h
            omega

/-- **When no `PQgetResult` has to wait.** A response that arrives whole is fetched up to its null, whatever its chunks;
libpq is busy at none of the calls exactly when no chunk ends after the first result and before the response does. -/
theorem never_blocks_iff {response : List Frame} {chunks : List Nat} {fuel : Nat} (hc : Complete response)
    (hsum : chunks.sum = totalBytes response) (hfuel : response.length < fuel) :
    ∃ r, execResponse fuel response chunks = some r ∧ r.conn.status = .idle ∧
      r.result = fetchRawResult (resultsOf none response) ∧
      ((r.conn.status = .idle ∧ ∀ busy ∈ r.busyAt, busy = false) ↔
        ∀ k, firstEnd response ≤ (chunks.take k).sum → totalBytes response ≤ (chunks.take k).sum) := by
  have hfirst := hc.firstEnd_le
  obtain ⟨k, hawait, hend, hleast⟩ := awaitResponse_spec (c := ⟨.busy none, 0, response⟩) rfl hc hc.firstEnd_pos
    (show firstEnd response ≤ 0 + chunks.sum by omega)
  have hsplit : (chunks.take k).sum + (chunks.drop k).sum = chunks.sum := by
    rw [← List.sum_append, List.take_append_drop]
  simp only [PGconn.consumeInput, Nat.zero_add] at hawait hend hleast
  obtain ⟨r, hr, hstatus, hresult, hbusy⟩ := @fetchLoop_spec fuel none ⟨.busy none, (chunks.take k).sum, response⟩ none
    (chunks.drop k) rfl hc (by dsimp only; omega) hfuel
  refine ⟨r, ?_, hstatus, hresult, ?_⟩
  · rw [execResponse, hawait, Option.bind_some]
    dsimp only
    rw [fetchLoop_parse, hr]
  · dsimp only at hbusy
    rw [hbusy]
    constructor
    · intro h j hj
      -- a later prefix has at least the bytes of the one `AwaitResponse` stopped at
      obtain ⟨later, hlater⟩ := List.take_prefix_take_left (l := chunks) (hleast j hj)
      rw [← hlater, List.sum_append]
      exact Nat.le_trans h.2 (Nat.le_add_right _ _)
    · intro h
      exact ⟨hstatus, h k hend⟩

/-- The response to a lookup that finds one row. -/
def rowResponse : List Frame :=
  [⟨.parseComplete, 5, by decide⟩, ⟨.bindComplete, 5, by decide⟩, ⟨.rowDescription, 200, by decide⟩,
    ⟨.dataRow [some "019abf9b-0900-7000-8000-000000000000"], 51, by decide⟩, ⟨.commandComplete, 14, by decide⟩,
    ⟨.readyForQuery, 6, by decide⟩]

theorem complete_rowResponse : Complete rowResponse := by
  refine .more _ _ nofun (.more _ _ nofun (.more _ _ nofun (.more _ _ nofun (.more _ _ nofun (.ready _ rfl)))))

/-- In two chunks of which the second begins within the rows, no call has to wait. -/
theorem never_blocks_rows : ∃ r, execResponse 7 rowResponse [100, 181] = some r ∧ r.conn.status = .idle ∧
    ∀ busy ∈ r.busyAt, busy = false := by
  obtain ⟨r, hr, -, -, hiff⟩ := never_blocks_iff complete_rowResponse
    (show [100, 181].sum = totalBytes rowResponse from rfl) (show 6 < 7 by decide)
  refine ⟨r, hr, hiff.mpr fun k hk => ?_⟩
  match k with
  | 0 => exact absurd hk (by decide)
  | 1 => exact absurd hk (by decide)
  | k + 2 =>
      show totalBytes rowResponse ≤ (100 :: 181 :: List.take k []).sum
      rw [List.take_nil]
      decide

/-- When the second chunk is `ReadyForQuery`, the call for the null finds libpq busy. -/
theorem blocks_on_readyForQuery : Complete rowResponse ∧ [275, 6].sum = totalBytes rowResponse ∧
    (execResponse 7 rowResponse [275, 6]).map Fetched.busyAt = some [false, true] :=
  ⟨complete_rowResponse, by decide +kernel⟩

end PhotonCommerce.Infrastructure
