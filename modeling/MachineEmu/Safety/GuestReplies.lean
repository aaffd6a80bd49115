import MachineEmu.Api.GuestAgent
import MachineEmu.Safety.GuestStreams

/-!
# Replies of the guest agent

The result of each request is the agent's reply to it, as long as an execution launches its process
only when nothing of the reply to its shell detection is outstanding.

* `Received`, `Own`, `Belongs` — the statement.
* `Settled` — what a client relies on.
* `belongs_of_settled` — the result.
-/

namespace MachineEmu

open Lib List Option

namespace GuestAgent

open GuestExec

variable (fromSlice : List UInt8 → Option Json)

/-! ## Statements -/

/-- The bytes that arrive during a wait, up to the end of the stream. -/
def arrived (arrivals : List Nat) : Nat := (arrivals.takeWhile (· ≠ 0)).sum

/-- The reply to a request is `response`: it arrives whole during the wait, is not too large and is
a JSON text. -/
def Received (exchange : Exchange) (response : Json) : Prop :=
  ∃ text, exchange.answer = some text ∧ text.length + 1 ≤ arrived exchange.arrivals ∧
    text.length + 1 ≤ maxReplyBytes ∧ fromSlice (unprefixed (text ++ [10])) = some response

/-- The result of a request is what the reply to this request returns, and an error if that reply
is not received. -/
def Own (exchange : Exchange) : Prop :=
  ∀ value, exchange.result = some value ↔
    ∃ response, Received fromSlice exchange response ∧ value = response.field "return"

/-- The process number that a reply to `guest-exec` has. -/
def pidOf (response : Json) : Option Int :=
  ((response.field "return").bind fun launched => launched.field "pid").bind Json.asI64

def Command.isExec : Command → Bool
  | .exec .. => true
  | _ => false

/-- The agent has launched the process of the execution and its reply to that is received. -/
def Accepted (exchange : Exchange) (pid : Int) : Prop :=
  exchange.command.isExec = true ∧
    ∃ response, Received fromSlice exchange response ∧ pidOf response = some pid

/-- The reply to a request is why an execution fails with an error. -/
def Blames (exchange : Exchange) (response : Json) : ErrorCode → Prop
  | .guestExecFailed => exchange.command.isExec = true ∧ response.field "return" = none
  | .guestExecStatusFailed =>
    (∃ pid, exchange.command = .status pid) ∧ response.field "return" = none
  | .invalidAgentResponse =>
    (exchange.command.isExec = true ∧ pidOf response = none) ∨
      ∃ pid status channel, exchange.command = .status pid ∧
        response.field "return" = some status ∧ captured (some status) channel = none
  | _ => True

/-- The exit of a process as the agent reports it. -/
structure Reports (state : JobState) (status : Json) : Prop where
  exited : (status.field "exited").bind Json.asBool = some true
  exitCode : state.exitCode = (status.field "exitcode").bind Json.asI64
  signal : state.signal = (status.field "signal").bind Json.asI64
  output : ∀ channel, ∃ bytes, captured (some status) channel = some bytes ∧
    state.bytes channel = bytes.take maxOutputBytes ∧
    state.truncated channel =
      (decide (maxOutputBytes < bytes.length) || cutByAgent (some status) channel)

/-- The result of every request is the agent's reply to it; an execution is launched exactly when
the agent says so, fails only with what the agent replies, and ends with what the agent reports of
the process that it launched. -/
structure Belongs (w : World) : Prop where
  own : ∀ exchange ∈ w.exchanges, Own fromSlice exchange
  launched : ∀ pid, w.job.state.guestPid = some pid ↔
    ∃ exchange ∈ w.exchanges, Accepted fromSlice exchange pid
  failed : ∀ code, w.job.state.errorCode = some code → code ∉ abortCodes →
    ∃ exchange ∈ w.exchanges, ∃ response, Received fromSlice exchange response ∧
      Blames exchange response code
  completed : w.job.state.phase = .completed → ∃ pid exchange response status,
    w.job.state.guestPid = some pid ∧ exchange ∈ w.exchanges ∧ exchange.command = .status pid ∧
      Received fromSlice exchange response ∧ response.field "return" = some status ∧
      Reports w.job.state status

/-- A client that connects has a number that no outstanding reply returns, and an execution that
launches its process has no reply outstanding. -/
def Settled (w : World) : Op → Prop
  | .connect _ id _ _ => ∀ line ∈ (w.outstanding.splitOn 10).dropLast, ∀ response,
      fromSlice (unprefixed (line ++ [10])) = some response →
        (response.field "return").bind Json.asI64 ≠ some id
  | .command _ _ => (∃ shell, w.session = .launching shell) → w.outstanding = []
  | _ => True

/-! ## Lines -/

/-- What is outstanding consists of lines. -/
def Whole (outstanding : List UInt8) : Prop :=
  outstanding = [] ∨ outstanding.getLast? = some 10

variable {rest : List UInt8}

theorem Whole.of_suffix {outstanding : List UInt8} (h : Whole outstanding)
    (hsuffix : rest <:+ outstanding) : Whole rest := by
  obtain ⟨front, rfl⟩ := hsuffix
  rcases eq_nil_or_concat' rest with rfl | ⟨inner, last, rfl⟩
  · exact .inl rfl
  · rcases h with hnil | hlast
    · simp at hnil
    · right
      rw [← append_assoc, List.getLast?_concat] at hlast
      rw [List.getLast?_concat, hlast]

theorem Whole.append {a b : List UInt8} (ha : Whole a) (hb : Whole b) : Whole (a ++ b) := by
  rcases hb with rfl | hb
  · rwa [append_nil]
  · right
    rw [List.getLast?_append, hb]
    rfl

theorem whole_bytes (answer : Answer) : Whole answer.bytes := by
  cases answer with
  | none => exact .inl rfl
  | some text => exact .inr List.getLast?_concat

/-- The lines that bytes consist of. -/
theorem Whole.lines {outstanding : List UInt8} (h : Whole outstanding) :
    (((outstanding.splitOn 10).dropLast).map (· ++ [10])).flatten = outstanding ∧
      ∀ line ∈ (outstanding.splitOn 10).dropLast, 10 ∉ line := by
  generalize hlength : outstanding.length = k
  induction k using Nat.strongRecOn generalizing outstanding with
  | ind k ih =>
    rcases h with rfl | hlast
    · simp
    · obtain ⟨line, rest, rfl, hline⟩ :=
        eq_append_cons_of_mem (mem_of_getLast? hlast)
      have hrest : Whole rest :=
        Whole.of_suffix (.inr hlast) ⟨line ++ [10], by simp⟩
      rw [length_append, length_cons] at hlength
      obtain ⟨hflatten, hnone⟩ := ih rest.length (by omega) hrest rfl
      rw [splitOn_append_cons_self_of_not_mem hline, dropLast_cons_of_ne_nil (splitOn_ne_nil _ _)]
      constructor
      · rw [map_cons, flatten_cons, hflatten]
        simp
      · intro other hother
        rcases mem_cons.1 hother with rfl | hother
        · exact hline
        · exact hnone other hother

theorem readLine_suffix (line outstanding : List UInt8) (arrivals : List Nat) :
    (readLine line outstanding arrivals).2 <:+ outstanding := by
  induction arrivals generalizing line outstanding with
  | nil => exact suffix_rfl
  | cons n arrivals ih =>
    unfold readLine
    dsimp only
    split
    · exact suffix_rfl
    split
    · exact suffix_rfl
    split
    · exact drop_suffix _ _
    · exact (ih _ _).trans (drop_suffix _ _)

theorem idxOf?_line (hrest : 10 ∉ rest) (more : List UInt8) :
    (rest ++ 10 :: more).idxOf? 10 = some rest.length := by
  induction rest with
  | nil => rfl
  | cons b rest ih =>
    rw [mem_cons, not_or] at hrest
    rw [cons_append, List.idxOf?_cons, if_neg (by simpa using Ne.symm hrest.1), ih hrest.2]
    rfl

/-- A line is read when it arrives whole and is not too large. -/
theorem readLine_line {line : List UInt8} (hline : 10 ∉ line) (hrest : 10 ∉ rest)
    (more : List UInt8) (arrivals : List Nat) :
    (rest.length + 1 ≤ arrived arrivals ∧ line.length + rest.length + 1 ≤ maxReplyBytes →
      readLine line (rest ++ 10 :: more) arrivals = (some (line ++ rest ++ [10]), more)) ∧
    (¬(rest.length + 1 ≤ arrived arrivals ∧ line.length + rest.length + 1 ≤ maxReplyBytes) →
      (readLine line (rest ++ 10 :: more) arrivals).1 = none) := by
  induction arrivals generalizing line rest with
  | nil => exact ⟨fun h => absurd h.1 (by simp [arrived]), fun _ => rfl⟩
  | cons n arrivals ih =>
    cases n with
    | zero =>
      refine ⟨fun h => absurd h.1 (by simp [arrived]), fun _ => ?_⟩
      unfold readLine
      simp
    | succ n =>
      have harrived : arrived ((n + 1) :: arrivals) = n + 1 + arrived arrivals := by
        unfold arrived
        rw [takeWhile_cons_of_pos (by simp), sum_cons]
      have hchunk : (rest ++ 10 :: more).take (n + 1) ≠ [] := by simp
      rw [harrived]
      unfold readLine
      dsimp only
      rw [if_neg hchunk]
      by_cases hwhole : rest.length ≤ n
      · -- the end of the line arrives with this piece
        have htake : (rest ++ 10 :: more).take (n + 1) =
            rest ++ 10 :: more.take (n - rest.length) := by
          rw [take_append, take_of_length_le (by omega),
            show n + 1 - rest.length = n - rest.length + 1 by omega, take_succ_cons]
        have hread : (rest ++ 10 :: more.take (n - rest.length)).take (rest.length + 1) =
            rest ++ [10] := by
          rw [take_append, take_of_length_le (by omega), Nat.add_sub_cancel_left]
          rfl
        have hdrop : (rest ++ 10 :: more).drop (rest.length + 1) = more := by
          rw [drop_append, drop_of_length_le (by omega), Nat.add_sub_cancel_left]
          rfl
        rw [htake, idxOf?_line hrest, map_some, getD_some, hread, hdrop,
          ← append_assoc, List.getLast?_concat, if_pos rfl]
        constructor
        · rintro ⟨-, hsmall⟩
          rw [if_neg (by omega)]
        · intro hnot
          rw [if_pos (by omega)]
      · have htake : (rest ++ 10 :: more).take (n + 1) = rest.take (n + 1) :=
          take_append_of_le_length (by omega)
        have hnone : 10 ∉ rest.take (n + 1) := fun h => hrest (mem_of_mem_take h)
        have hlength : (rest.take (n + 1)).length = n + 1 := by
          rw [length_take]
          omega
        have hdrop : (rest ++ 10 :: more).drop (n + 1) = rest.drop (n + 1) ++ 10 :: more :=
          drop_append_of_le_length (by omega)
        have hnew : 10 ∉ line ++ rest.take (n + 1) := by
          rw [mem_append, not_or]
          exact ⟨hline, hnone⟩
        have hlast : (line ++ rest.take (n + 1)).getLast? ≠ some 10 :=
          fun h => hnew (mem_of_getLast? h)
        rw [htake, List.idxOf?_eq_none_iff.2 hnone, map_none, getD_none, hlength,
          take_of_length_le (by omega), hdrop, if_neg hlast]
        obtain ⟨hsome, hfails⟩ := ih hnew (fun h => hrest (mem_of_mem_drop h))
        rw [length_append, hlength, length_drop] at hsome hfails
        have hjoin : line ++ rest.take (n + 1) ++ rest.drop (n + 1) = line ++ rest := by
          rw [append_assoc, take_append_drop]
        rw [hjoin] at hsome
        constructor
        · rintro ⟨hall, hsmall⟩
          rw [if_neg (by omega)]
          exact hsome ⟨by omega, by omega⟩
        · intro hnot
          split
          · rfl
          · exact hfails (by omega)

theorem readLine_nil (line : List UInt8) (arrivals : List Nat) :
    readLine line [] arrivals = (none, []) := by
  cases arrivals with
  | nil => rfl
  | cons n arrivals =>
    unfold readLine
    simp

/-! ## Requests -/

variable {fromSlice}

/-- A reply that is read is the first line. -/
theorem reply_line {line : List UInt8} (hline : 10 ∉ line) (more : List UInt8)
    (arrivals : List Nat) {response : Json}
    (h : reply fromSlice (line ++ 10 :: more) arrivals = (some response, rest)) :
    rest = more ∧ fromSlice (unprefixed (line ++ [10])) = some response := by
  obtain ⟨hsome, hnone⟩ := readLine_line not_mem_nil hline more arrivals
  unfold reply at h
  by_cases harrives : line.length + 1 ≤ arrived arrivals ∧
      ([] : List UInt8).length + line.length + 1 ≤ maxReplyBytes
  · rw [hsome harrives] at h
    obtain ⟨hresponse, hrest⟩ := Prod.mk.inj h
    exact ⟨hrest.symm, hresponse⟩
  · have hread := hnone harrives
    split at h
    · next hpair =>
      rw [hpair] at hread
      cases hread
    · cases h

theorem reply_nil (arrivals : List Nat) : reply fromSlice [] arrivals = (none, []) := by
  unfold reply
  rw [readLine_nil]

theorem reply_suffix (outstanding : List UInt8) (arrivals : List Nat) :
    (reply fromSlice outstanding arrivals).2 <:+ outstanding := by
  have hsuffix := readLine_suffix [] outstanding arrivals
  unfold reply
  split
  · next hpair =>
    rw [hpair] at hsuffix
    exact hsuffix
  · next hpair =>
    rw [hpair] at hsuffix
    exact hsuffix

theorem notMem_of_isLine {text : List UInt8} (h : Answer.isLine (some text) = true) :
    10 ∉ text := by
  unfold Answer.isLine at h
  simpa using h

/-- With nothing outstanding, the result of a request is its own. -/
theorem own_commandArgs (command : Command) {answer : Answer} (hanswer : answer.isLine = true)
    (arrivals : List Nat) :
    Own fromSlice ⟨command, answer, arrivals, (commandArgs fromSlice [] answer arrivals).1⟩ ∧
      ((commandArgs fromSlice [] answer arrivals).1 ≠ none →
        (commandArgs fromSlice [] answer arrivals).2 = []) := by
  unfold commandArgs
  dsimp only
  rw [nil_append]
  cases answer with
  | none =>
    have hnone : reply fromSlice (Answer.bytes none) arrivals = (none, []) := reply_nil arrivals
    rw [hnone]
    refine ⟨fun value => ⟨fun h => (nomatch h), ?_⟩, fun _ => rfl⟩
    rintro ⟨response, ⟨text, htext, -⟩, -⟩
    cases htext
  | some text =>
    have hline := notMem_of_isLine hanswer
    obtain ⟨hsome, hnone⟩ := readLine_line not_mem_nil hline [] arrivals
    rw [length_nil, Nat.zero_add, nil_append] at hsome
    rw [length_nil, Nat.zero_add] at hnone
    have hbytes : Answer.bytes (some text) = text ++ [10] := rfl
    rw [hbytes]
    by_cases harrives : text.length + 1 ≤ arrived arrivals ∧ text.length + 1 ≤ maxReplyBytes
    · unfold reply
      rw [hsome harrives]
      dsimp only
      refine ⟨fun value => ⟨fun h => ?_, ?_⟩, fun _ => rfl⟩
      · obtain ⟨response, hresponse, rfl⟩ := map_eq_some_iff.1 h
        exact ⟨response, ⟨text, rfl, harrives.1, harrives.2, hresponse⟩, rfl⟩
      · rintro ⟨response, ⟨other, hother, -, -, hresponse⟩, rfl⟩
        cases hother
        dsimp only
        rw [hresponse]
        rfl
    · have hfails : (reply fromSlice (text ++ [10]) arrivals).1 = none := by
        unfold reply
        split
        · next hpair =>
          have hread := hnone harrives
          rw [hpair] at hread
          cases hread
        · rfl
      rw [hfails]
      refine ⟨fun value => ⟨fun h => (nomatch h), ?_⟩, fun h => absurd rfl h⟩
      rintro ⟨response, ⟨other, hother, harrived, hsmall, -⟩, -⟩
      cases hother
      exact absurd ⟨harrived, hsmall⟩ harrives

/-- A client has synchronized with the reply to its own request, after which nothing is
outstanding. -/
theorem synchronize_clear (id : Int) (k : Nat) {lines : List (List UInt8)}
    (hlines : ∀ line ∈ lines, 10 ∉ line)
    (hstale : ∀ line ∈ lines, ∀ response, fromSlice (unprefixed (line ++ [10])) = some response →
      (response.field "return").bind Json.asI64 ≠ some id)
    {answer : Answer} (hanswer : answer.isLine = true) (waits : List (List Nat))
    (h : synchronize fromSlice id k ((lines.map (· ++ [10])).flatten ++ answer.bytes) waits =
      (true, rest)) : rest = [] := by
  induction k generalizing lines answer waits with
  | zero => cases h
  | succ k ih =>
    unfold synchronize at h
    split at h
    · cases h
    · next response rest' hreply =>
      cases lines with
      | nil =>
        have hrest : rest' = [] := by
          cases answer with
          | none =>
            rw [show (List.map (· ++ [10]) ([] : List (List UInt8))).flatten ++
              Answer.bytes none = [] from rfl, reply_nil] at hreply
            cases hreply
          | some text =>
            exact (reply_line (notMem_of_isLine hanswer) [] _ hreply).1
        split at h
        · rw [← (Prod.mk.inj h).2, hrest]
        · rw [hrest] at h
          exact @ih [] (fun _ h => nomatch h) (fun _ h => nomatch h) none rfl waits.tail h
      | cons line lines =>
        have hbytes : (List.map (· ++ [10]) (line :: lines)).flatten ++ answer.bytes =
            line ++ 10 :: ((lines.map (· ++ [10])).flatten ++ answer.bytes) := by simp
        rw [hbytes] at hreply
        obtain ⟨hrest, hresponse⟩ := reply_line (hlines line mem_cons_self) _ _ hreply
        rw [if_neg (hstale line mem_cons_self response hresponse), hrest] at h
        exact ih (fun other hother => hlines other (mem_cons_of_mem _ hother))
          (fun other hother => hstale other (mem_cons_of_mem _ hother)) hanswer _ h

theorem synchronize_suffix (id : Int) (k : Nat) (outstanding : List UInt8)
    (waits : List (List Nat)) :
    (synchronize fromSlice id k outstanding waits).2 <:+ outstanding := by
  induction k generalizing outstanding waits with
  | zero => exact suffix_rfl
  | succ k ih =>
    have hsuffix := @reply_suffix fromSlice outstanding (waits.headD [])
    unfold synchronize
    split
    · next hreply =>
      rw [hreply] at hsuffix
      exact hsuffix
    · next hreply =>
      rw [hreply] at hsuffix
      split
      · exact hsuffix
      · exact (ih _ _).trans hsuffix

/-! ## What a run keeps -/

variable {w w' : World} {exchange : Exchange}

/-- What every reachable state satisfies. Nothing is outstanding while a client is connected, but
for an execution that failed to detect its shell. -/
structure Good (fromSlice : List UInt8 → Option Json) (w : World) : Prop where
  whole : Whole w.outstanding
  clear : w.session ≠ .idle → (∀ shell, w.session ≠ .launching shell) → w.outstanding = []
  queued : w.session = .detecting ∨ (∃ shell, w.session = .launching shell) →
    w.job.state.phase = .queued
  checking : ∀ pid, w.session = .checking pid → w.job.state.guestPid = some pid
  unlaunched : w.job.state.phase = .queued →
    w.job.state.guestPid = none ∧ ∀ exchange ∈ w.exchanges, exchange.command.isExec = false
  belongs : Belongs fromSlice w

/-- What an own result says of every reply that is received. -/
theorem Own.unique (h : Own fromSlice exchange) {response : Json} {value : Option Json}
    (hresponse : Received fromSlice exchange response) (hresult : exchange.result = some value) :
    response.field "return" = value := by
  have hsame := (h _).2 ⟨response, hresponse, rfl⟩
  rw [hresult, Option.some.injEq] at hsame
  exact hsame.symm

/-- The execution stays as it is. -/
theorem Belongs.of_eq (h : Belongs fromSlice w) (hjob : w'.job = w.job)
    (hexchanges : w'.exchanges = w.exchanges) : Belongs fromSlice w' := by
  constructor
  · rw [hexchanges]
    exact h.own
  · rw [hexchanges, hjob]
    exact h.launched
  · rw [hexchanges, hjob]
    exact h.failed
  · rw [hexchanges, hjob]
    exact h.completed

/-- A request whose reply launches no process. -/
theorem Belongs.extend (h : Belongs fromSlice w) (hown : Own fromSlice exchange)
    (hnot : ∀ pid, ¬Accepted fromSlice exchange pid) (hjob : w'.job = w.job)
    (hexchanges : w'.exchanges = w.exchanges ++ [exchange]) : Belongs fromSlice w' := by
  have hold : ∀ {e : Exchange}, e ∈ w.exchanges → e ∈ w'.exchanges := by
    intro e he
    rw [hexchanges]
    exact mem_append_left _ he
  constructor
  · intro e he
    rw [hexchanges, mem_append, mem_singleton] at he
    rcases he with he | rfl
    · exact h.own e he
    · exact hown
  · intro pid
    rw [hjob, h.launched pid]
    constructor
    · rintro ⟨e, he, haccepted⟩
      exact ⟨e, hold he, haccepted⟩
    · rintro ⟨e, he, haccepted⟩
      rw [hexchanges, mem_append, mem_singleton] at he
      rcases he with he | rfl
      · exact ⟨e, he, haccepted⟩
      · exact absurd haccepted (hnot pid)
  · intro code hcode hreply
    rw [hjob] at hcode
    obtain ⟨e, he, hblames⟩ := h.failed code hcode hreply
    exact ⟨e, hold he, hblames⟩
  · intro hphase
    rw [hjob] at hphase ⊢
    obtain ⟨pid, e, response, status, hpid, he, hrest⟩ := h.completed hphase
    exact ⟨pid, e, response, status, hpid, hold he, hrest⟩

variable {code : ErrorCode}

/-- The execution fails, with an error that does not come from a reply or for which a reply is to
blame. -/
theorem Belongs.fail (h : Belongs fromSlice w)
    (hcode : code ∈ abortCodes ∨ ∃ exchange ∈ w.exchanges, ∃ response,
      Received fromSlice exchange response ∧ Blames exchange response code) :
    Belongs fromSlice (w.fail code) where
  own := h.own
  launched := h.launched
  failed other hother hreply := by
    obtain rfl : code = other := Option.some.inj hother
    exact hcode.resolve_left hreply
  completed hphase := nomatch hphase

theorem Good.fail (h : Good fromSlice w)
    (hcode : code ∈ abortCodes ∨ ∃ exchange ∈ w.exchanges, ∃ response,
      Received fromSlice exchange response ∧ Blames exchange response code) :
    Good fromSlice (w.fail code) where
  whole := h.whole
  clear hsession := absurd rfl hsession
  queued hsession := by
    rcases hsession with hsession | ⟨shell, hsession⟩ <;> cases hsession
  checking pid hsession := nomatch hsession
  unlaunched hphase := nomatch hphase
  belongs := h.belongs.fail hcode

/-- Nothing changes but the session, and what is outstanding. -/
theorem Good.of_session (h : Good fromSlice w) (hjob : w'.job = w.job)
    (hexchanges : w'.exchanges = w.exchanges) (hwhole : Whole w'.outstanding)
    (hclear : w'.session ≠ .idle → (∀ shell, w'.session ≠ .launching shell) →
      w'.outstanding = [])
    (hqueued : w'.session = .detecting ∨ (∃ shell, w'.session = .launching shell) →
      w'.job.state.phase = .queued)
    (hchecking : ∀ pid, w'.session = .checking pid → w'.job.state.guestPid = some pid) :
    Good fromSlice w' where
  whole := hwhole
  clear := hclear
  queued := hqueued
  checking := hchecking
  unlaunched := by
    rw [hjob, hexchanges]
    exact h.unlaunched
  belongs := h.belongs.of_eq hjob hexchanges

/-! ### Connecting -/

/-- The session that a client opens. -/
theorem opened_spec {purpose : Purpose} {session : Session} (h : w.opened purpose = some session) :
    (session = .detecting ∨ (∃ shell, session = .launching shell) →
      w.job.state.phase = .queued) ∧
    ∀ pid, session = .checking pid → w.job.state.guestPid = some pid := by
  cases purpose with
  | launch =>
    obtain ⟨hphase, hsession⟩ := ite_none_right_eq_some.1 h
    obtain rfl := Option.some.inj hsession
    refine ⟨fun _ => hphase, fun pid hpid => ?_⟩
    split at hpid <;> cases hpid
  | check =>
    unfold World.opened at h
    dsimp only at h
    split at h
    · next pid hphase hpid =>
      cases h
      refine ⟨?_, fun other hother => ?_⟩
      · rintro (hsession | ⟨shell, hsession⟩) <;> cases hsession
      · cases hother
        exact hpid
    · cases h
  | inform =>
    cases h
    refine ⟨?_, fun pid hpid => nomatch hpid⟩
    rintro (hsession | ⟨shell, hsession⟩) <;> cases hsession
  | ask command =>
    cases h
    refine ⟨?_, fun pid hpid => nomatch hpid⟩
    rintro (hsession | ⟨shell, hsession⟩) <;> cases hsession

theorem Good.connect (h : Good fromSlice w) {purpose : Purpose} {id : Int} {answer : Answer}
    {waits : List (List Nat)} (hanswer : answer.isLine = true)
    (hsettled : Settled fromSlice w (.connect purpose id answer waits))
    (hstep : w.connect fromSlice purpose id answer waits = some w') : Good fromSlice w' := by
  unfold World.connect at hstep
  split at hstep
  · next session hidle hopened =>
    obtain ⟨hqueued, hchecking⟩ := opened_spec hopened
    obtain ⟨hlines, hnone⟩ := h.whole.lines
    have hsuffix := @synchronize_suffix fromSlice id 4 (w.outstanding ++ answer.bytes) waits
    generalize hsync : GuestAgent.connect fromSlice w.outstanding id answer waits = synced at hstep
    obtain ⟨synchronized, rest⟩ := synced
    have hsame : synchronize fromSlice id 4 (w.outstanding ++ answer.bytes) waits =
        (synchronized, rest) := hsync
    rw [hsame] at hsuffix
    have hwhole : Whole rest := (h.whole.append (whole_bytes answer)).of_suffix hsuffix
    have hrefused : Good fromSlice { w with outstanding := rest } := by
      refine h.of_session rfl rfl hwhole ?_ ?_ ?_
      · exact fun hsession => absurd hidle hsession
      · exact h.queued
      · exact h.checking
    cases synchronized with
    | true =>
      cases hstep
      have hclear : rest = [] := by
        rw [← hlines] at hsame
        exact synchronize_clear id 4 hnone hsettled hanswer waits hsame
      exact h.of_session rfl rfl hwhole (fun _ _ => hclear) hqueued hchecking
    | false =>
      cases hstep
      cases purpose with
      | launch => exact hrefused.fail (.inl (by decide))
      | check => exact hrefused.fail (.inl (by decide))
      | inform =>
        refine hrefused.of_session rfl rfl hwhole (fun hsession => absurd rfl hsession) ?_
          (fun pid hpid => nomatch hpid)
        rintro (hsession | ⟨shell, hsession⟩) <;> cases hsession
      | ask command =>
        refine hrefused.of_session rfl rfl hwhole (fun hsession => absurd rfl hsession) ?_
          (fun pid hpid => nomatch hpid)
        rintro (hsession | ⟨shell, hsession⟩) <;> cases hsession
  · cases hstep

/-! ### Requests -/

/-- The execution after a request has been made, before its result is used. -/
def World.made (w : World) (exchange : Exchange) (outstanding : List UInt8) : World :=
  { w with outstanding, exchanges := w.exchanges ++ [exchange] }

theorem mem_made (w : World) (exchange : Exchange) (outstanding : List UInt8) :
    exchange ∈ (w.made exchange outstanding).exchanges :=
  mem_append_right _ mem_cons_self

theorem not_accepted_of_not_exec (h : exchange.command.isExec = false) (pid : Int) :
    ¬Accepted fromSlice exchange pid := by
  rintro ⟨hexec, -⟩
  rw [h] at hexec
  cases hexec

/-- A request that launches no process leaves the execution as it is. -/
theorem Good.made (h : Good fromSlice w) (hown : Own fromSlice exchange)
    (hexec : exchange.command.isExec = false) (hwhole : Whole rest) {session : Session}
    (hclear : session ≠ .idle → (∀ shell, session ≠ .launching shell) → rest = [])
    (hqueued : session = .detecting ∨ (∃ shell, session = .launching shell) →
      w.job.state.phase = .queued)
    (hchecking : ∀ pid, session = .checking pid → w.job.state.guestPid = some pid) :
    Good fromSlice { w.made exchange rest with session } where
  whole := hwhole
  clear := hclear
  queued := hqueued
  checking := hchecking
  unlaunched hphase := by
    obtain ⟨hpid, hnone⟩ := h.unlaunched hphase
    refine ⟨hpid, fun e he => ?_⟩
    rcases mem_append.1 he with he | he
    · exact hnone e he
    · rw [mem_singleton] at he
      rw [he, hexec]
  belongs := h.belongs.extend hown (not_accepted_of_not_exec hexec) rfl rfl

/-- The execution fails after a request. -/
theorem Good.made_fail (h : Good fromSlice w) (hown : Own fromSlice exchange)
    (hnot : ∀ pid, ¬Accepted fromSlice exchange pid) (hwhole : Whole rest)
    (hcode : code ∈ abortCodes ∨ ∃ response, Received fromSlice exchange response ∧
      Blames exchange response code) : Good fromSlice ((w.made exchange rest).fail code) where
  whole := hwhole
  clear hsession := absurd rfl hsession
  queued hsession := by
    rcases hsession with hsession | ⟨shell, hsession⟩ <;> cases hsession
  checking pid hsession := nomatch hsession
  unlaunched hphase := nomatch hphase
  belongs := by
    have hextended : Belongs fromSlice (w.made exchange rest) :=
      h.belongs.extend hown hnot rfl rfl
    refine hextended.fail ?_
    exact hcode.imp_right fun hresponse => ⟨exchange, mem_made w exchange rest, hresponse⟩

theorem abort_agentUnavailable : ErrorCode.agentUnavailable ∈ abortCodes := by decide

theorem isExec_launchWith (request : StartExecution) (shell : Shell) :
    (launchWith request shell).isExec = true := by
  cases shell <;> rfl

/-- The agent has launched the process. -/
theorem Good.launched (h : Good fromSlice w) (hown : Own fromSlice exchange)
    (hexec : exchange.command.isExec = true) (hphase : w.job.state.phase = .queued)
    (hwhole : Whole rest) {value : Json} (hresult : exchange.result = some (some value)) {pid : Int}
    (hpid : (value.field "pid").bind Json.asI64 = some pid) :
    Good fromSlice { w.made exchange rest with
      job := w.job.modify (w.job.state.launched pid), session := .idle } := by
  obtain ⟨-, hnone⟩ := h.unlaunched hphase
  obtain ⟨response, hresponse, hvalue⟩ := (hown _).1 hresult
  have hof : pidOf response = some pid := by
    unfold pidOf
    rw [← hvalue]
    exact hpid
  constructor
  · exact hwhole
  · exact fun hsession => absurd rfl hsession
  · rintro (hsession | ⟨shell, hsession⟩) <;> cases hsession
  · exact fun other hsession => nomatch hsession
  · exact fun hqueued => nomatch hqueued
  · constructor
    · intro e he
      rcases mem_append.1 he with he | he
      · exact h.belongs.own e he
      · rw [mem_singleton] at he
        rw [he]
        exact hown
    · intro other
      constructor
      · intro hother
        obtain rfl : pid = other := Option.some.inj hother
        exact ⟨exchange, mem_made w exchange rest, hexec, response, hresponse, hof⟩
      · rintro ⟨e, he, hexec', response', hresponse', hof'⟩
        rcases mem_append.1 he with he | he
        · rw [hnone e he] at hexec'
          cases hexec'
        · rw [mem_singleton] at he
          rw [he] at hresponse'
          have hsame := hown.unique hresponse' hresult
          unfold pidOf at hof'
          rw [hsame] at hof'
          exact hpid.symm.trans hof'
    · intro code hcode hreply
      obtain ⟨e, he, hblames⟩ := h.belongs.failed code hcode hreply
      exact ⟨e, mem_append_left _ he, hblames⟩
    · exact fun hcompleted => nomatch hcompleted

/-- A report that cannot be decoded. -/
theorem completed_eq_error {state : JobState} {status : Json} {now : Nat}
    (h : state.completed status now = .error code) :
    code = .invalidAgentResponse ∧ ∃ channel, captured (some status) channel = none := by
  have hdecode : ∀ field, decodeOutput status field = .error code →
      code = .invalidAgentResponse ∧ ∃ encoded,
        (status.field field).bind Json.asStr = some encoded ∧ Base64.decode encoded = none := by
    intro field herror
    unfold decodeOutput at herror
    split at herror
    · cases herror
    · next encoded hfield =>
      split at herror
      · next hnone =>
        cases herror
        exact ⟨rfl, encoded, hfield, hnone⟩
      · cases herror
  unfold JobState.completed at h
  split at h
  · next code' herror =>
    cases h
    obtain ⟨hcode, encoded, hfield, hnone⟩ := hdecode "out-data" herror
    exact ⟨hcode, .stdout, by simp [captured, hfield, hnone]⟩
  · split at h
    · next code' herror =>
      cases h
      obtain ⟨hcode, encoded, hfield, hnone⟩ := hdecode "err-data" herror
      exact ⟨hcode, .stderr, by simp [captured, hfield, hnone]⟩
    · cases h

theorem completed_fields {state state' : JobState} {status : Json} {now : Nat}
    (h : state.completed status now = .ok state') :
    state'.guestPid = state.guestPid ∧ state'.errorCode = state.errorCode ∧
      state'.exitCode = (status.field "exitcode").bind Json.asI64 ∧
      state'.signal = (status.field "signal").bind Json.asI64 := by
  unfold JobState.completed at h
  split at h
  · cases h
  · split at h
    · cases h
    · cases h
      exact ⟨rfl, rfl, rfl, rfl⟩

/-- The agent reports that the process has exited. -/
theorem Good.completed (h : Good fromSlice w) (hown : Own fromSlice exchange) {pid : Int}
    (hcommand : exchange.command = .status pid) (hpid : w.job.state.guestPid = some pid)
    (hwhole : Whole rest) {status : Json} (hresult : exchange.result = some (some status))
    (hexited : (status.field "exited").bind Json.asBool = some true) {state : JobState}
    (hstate : w.job.state.completed status w.clock = .ok state) :
    Good fromSlice { w.made exchange rest with
      job := w.job.modify state, session := .idle } := by
  have hexec : exchange.command.isExec = false := by rw [hcommand]; rfl
  obtain ⟨hsamePid, hsameCode, hexit, hsignal⟩ := completed_fields hstate
  obtain ⟨-, hphase, -, houtput⟩ := completed_eq_ok hstate
  obtain ⟨response, hresponse, hvalue⟩ := (hown _).1 hresult
  have hextended : Belongs fromSlice (w.made exchange rest) :=
    h.belongs.extend hown (not_accepted_of_not_exec hexec) rfl rfl
  constructor
  · exact hwhole
  · exact fun hsession => absurd rfl hsession
  · rintro (hsession | ⟨shell, hsession⟩) <;> cases hsession
  · exact fun other hsession => nomatch hsession
  · intro hqueued
    have hcompleted : state.phase = .queued := hqueued
    rw [hphase] at hcompleted
    cases hcompleted
  · constructor
    · exact hextended.own
    · intro other
      have hold := hextended.launched other
      rw [← hold]
      exact Eq.congr_left hsamePid
    · intro code hcode hreply
      exact hextended.failed code (hsameCode.symm.trans hcode) hreply
    · intro _
      exact ⟨pid, exchange, response, status, hsamePid.trans hpid, mem_made w exchange rest,
        hcommand, hresponse, hvalue.symm, hexited, hexit, hsignal, houtput⟩

/-- What a session that is not an execution's makes of a result. -/
theorem Good.queries (h : Good fromSlice w) (hown : Own fromSlice exchange)
    (hexec : exchange.command.isExec = false) (hwhole : Whole rest)
    {session : Session} (hsession : session = .idle ∨ (rest = [] ∧ ∃ commands total,
      session = .listing commands total)) :
    Good fromSlice { w.made exchange rest with session } := by
  refine h.made hown hexec hwhole ?_ ?_ ?_
  · intro hbusy _
    rcases hsession with hidle | ⟨hclear, -⟩
    · exact absurd hidle hbusy
    · exact hclear
  · intro hother
    rcases hsession with rfl | ⟨-, commands, total, rfl⟩ <;>
      rcases hother with hother | ⟨shell, hother⟩ <;> cases hother
  · intro pid hother
    rcases hsession with rfl | ⟨-, commands, total, rfl⟩ <;> cases hother

theorem afterListing_cases (commands : List String) (total : Nat) (result : Option (Option Json)) :
    World.afterListing commands total result = .idle ∨
      (result ≠ none ∧ ∃ total', World.afterListing commands total result =
        .listing commands total') := by
  unfold World.afterListing
  split
  · exact .inl rfl
  · exact .inr ⟨nofun, total, rfl⟩
  · split
    · exact .inl rfl
    · exact .inr ⟨nofun, _, rfl⟩

/-- A request of the client that is connected. -/
theorem Good.after (h : Good fromSlice w) (hown : Own fromSlice exchange)
    (hwhole : Whole rest) (hclear : exchange.result ≠ none → rest = [])
    (hcommand : w.nextCommand = some exchange.command) :
    Good fromSlice ((w.made exchange rest).after exchange.result) := by
  have hsession : (w.made exchange rest).session = w.session := rfl
  unfold World.nextCommand at hcommand
  unfold World.after
  rw [hsession]
  cases hcase : w.session with
  | idle =>
    rw [hcase] at hcommand
    cases hcommand
  | detecting =>
    rw [hcase] at hcommand
    have hexec : exchange.command.isExec = false := by rw [← Option.some.inj hcommand]; rfl
    refine h.made hown hexec hwhole ?_ ?_ (fun pid hpid => nomatch hpid)
    · exact fun _ hnot => absurd rfl (hnot (shellOf exchange.result))
    · exact fun _ => h.queued (.inl hcase)
  | launching shell =>
    rw [hcase] at hcommand
    have hphase := h.queued (.inr ⟨shell, hcase⟩)
    have hexec : exchange.command.isExec = true := by
      rw [← Option.some.inj hcommand]
      exact isExec_launchWith w.request shell
    dsimp only
    unfold World.afterLaunch
    -- no other reply than this one launches the process
    have hnot : ∀ value, exchange.result = some value →
        (value.bind fun launched => launched.field "pid").bind Json.asI64 = none →
          ∀ pid, ¬Accepted fromSlice exchange pid := by
      rintro value hresult hnone pid ⟨-, response, hresponse, hof⟩
      unfold pidOf at hof
      rw [hown.unique hresponse hresult, hnone] at hof
      cases hof
    split
    · next hresult =>
      refine h.made_fail hown ?_ hwhole (.inl abort_agentUnavailable)
      rintro pid ⟨-, response, hresponse, -⟩
      have hsome := (hown _).2 ⟨response, hresponse, rfl⟩
      rw [hresult] at hsome
      cases hsome
    · next hresult =>
      obtain ⟨response, hresponse, hvalue⟩ := (hown _).1 hresult
      exact h.made_fail hown (hnot none hresult rfl) hwhole
        (.inr ⟨response, hresponse, hexec, hvalue.symm⟩)
    · next launched hresult =>
      obtain ⟨response, hresponse, hvalue⟩ := (hown _).1 hresult
      split
      · next hpid =>
        refine h.made_fail hown (hnot _ hresult hpid) hwhole (.inr ⟨response, hresponse, .inl ?_⟩)
        refine ⟨hexec, ?_⟩
        unfold pidOf
        rw [← hvalue]
        exact hpid
      · next pid hpid => exact h.launched hown hexec hphase hwhole hresult hpid
  | checking pid =>
    rw [hcase] at hcommand
    have hstatus : exchange.command = .status pid := (Option.some.inj hcommand).symm
    have hexec : exchange.command.isExec = false := by rw [hstatus]; rfl
    have hnot := fun other => @not_accepted_of_not_exec fromSlice exchange hexec other
    have hpid := h.checking pid hcase
    dsimp only
    unfold World.afterCheck
    split
    · exact h.made_fail hown hnot hwhole (.inl abort_agentUnavailable)
    · next hresult =>
      obtain ⟨response, hresponse, hvalue⟩ := (hown _).1 hresult
      exact h.made_fail hown hnot hwhole (.inr ⟨response, hresponse, ⟨pid, hstatus⟩, hvalue.symm⟩)
    · next status hresult =>
      split
      · next hexited =>
        split
        · next code herror =>
          obtain ⟨response, hresponse, hvalue⟩ := (hown _).1 hresult
          obtain ⟨rfl, channel, hnone⟩ := completed_eq_error herror
          exact h.made_fail hown hnot hwhole (.inr ⟨response, hresponse,
            .inr ⟨pid, status, channel, hstatus, hvalue.symm, hnone⟩⟩)
        · next state hstate =>
          exact h.completed hown hstatus hpid hwhole hresult hexited hstate
      · exact h.queries hown hexec hwhole (.inl rfl)
  | informing =>
    rw [hcase] at hcommand
    have hexec : exchange.command.isExec = false := by rw [← Option.some.inj hcommand]; rfl
    dsimp only
    split
    · next info hresult =>
      refine h.queries hown hexec hwhole (.inr ⟨hclear ?_, _, _, rfl⟩)
      rw [hresult]
      nofun
    · exact h.queries hown hexec hwhole (.inl rfl)
  | listing commands total =>
    rw [hcase] at hcommand
    cases commands with
    | nil => cases hcommand
    | cons command commands =>
      have hexec : exchange.command.isExec = false := by rw [← Option.some.inj hcommand]; rfl
      refine h.queries hown hexec hwhole ?_
      refine (afterListing_cases commands total exchange.result).imp_right ?_
      rintro ⟨hsome, total', htotal⟩
      exact ⟨hclear hsome, commands, total', htotal⟩
  | asking command =>
    rw [hcase] at hcommand
    have hexec : exchange.command.isExec = false := by rw [← Option.some.inj hcommand]; rfl
    exact h.queries hown hexec hwhole (.inl rfl)

theorem Good.command (h : Good fromSlice w) {answer : Answer} {arrivals : List Nat}
    (hanswer : answer.isLine = true) (hsettled : Settled fromSlice w (.command answer arrivals))
    (hstep : w.command fromSlice answer arrivals = some w') : Good fromSlice w' := by
  unfold World.command at hstep
  split at hstep
  · next command hcommand =>
    have houtstanding : w.outstanding = [] := by
      by_cases hlaunching : ∃ shell, w.session = .launching shell
      · exact hsettled hlaunching
      · refine h.clear ?_ (fun shell hshell => hlaunching ⟨shell, hshell⟩)
        intro hidle
        unfold World.nextCommand at hcommand
        rw [hidle] at hcommand
        cases hcommand
    obtain ⟨hown, hclear⟩ := @own_commandArgs fromSlice command answer hanswer arrivals
    have hsuffix : (commandArgs fromSlice [] answer arrivals).2 <:+ answer.bytes := by
      unfold commandArgs
      exact reply_suffix _ _
    rw [houtstanding] at hstep
    cases hstep
    exact h.after hown ((whole_bytes answer).of_suffix hsuffix) hclear hcommand
  · split at hstep
    · cases hstep
      refine h.of_session rfl rfl h.whole (fun hsession => absurd rfl hsession) ?_
        (fun pid hpid => nomatch hpid)
      rintro (hsession | ⟨shell, hsession⟩) <;> cases hsession
    · cases hstep

/-! ## The result -/

theorem good_step (h : Good fromSlice w) {op : Op} (hsettled : Settled fromSlice w op)
    (hstep : w.step fromSlice op = some w') : Good fromSlice w' := by
  cases op with
  | tick milliseconds =>
    cases hstep
    exact h.of_session rfl rfl h.whole h.clear h.queued h.checking
  | elsewhere outstanding =>
    obtain ⟨⟨hidle, hwhole⟩, hstep⟩ := ite_none_right_eq_some.1 hstep
    cases hstep
    exact h.of_session rfl rfl hwhole (fun hsession => absurd hidle hsession) h.queued h.checking
  | abort code =>
    obtain ⟨⟨-, -, hcode⟩, hstep⟩ := ite_none_right_eq_some.1 hstep
    cases hstep
    exact h.fail (.inl hcode)
  | connect purpose id answer waits =>
    obtain ⟨hanswer, hstep⟩ := ite_none_right_eq_some.1 hstep
    exact h.connect hanswer hsettled hstep
  | command answer arrivals =>
    obtain ⟨hanswer, hstep⟩ := ite_none_right_eq_some.1 hstep
    exact h.command hanswer hsettled hstep

theorem good_initial (request : StartExecution) (executionId instanceId runId : String) :
    Good fromSlice (.initial request executionId instanceId runId) where
  whole := .inl rfl
  clear hsession := absurd rfl hsession
  queued hsession := by
    rcases hsession with hsession | ⟨shell, hsession⟩ <;> cases hsession
  checking pid hsession := nomatch hsession
  unlaunched _ := ⟨rfl, fun _ h => nomatch h⟩
  belongs := by
    constructor
    · exact fun _ h => nomatch h
    · intro pid
      constructor
      · exact fun h => nomatch h
      · rintro ⟨_, h, -⟩
        cases h
    · exact fun _ h => nomatch h
    · exact fun h => nomatch h

/-- In every run in which each client that connects has a number that no outstanding reply returns,
and the execution launches its process with no reply outstanding, the replies belong to their
requests. -/
theorem belongs_of_settled (h : Reachable fromSlice (Settled fromSlice) w) :
    Belongs fromSlice w := by
  have hgood : Good fromSlice w := by
    induction h with
    | initial request executionId instanceId runId =>
      exact good_initial request executionId instanceId runId
    | step _ hsettled hstep ih => exact good_step ih hsettled hstep
  exact hgood.belongs

/-! ### Runs -/

/-- The bytes of a text in ASCII. -/
def asciiBytes (text : String) : List UInt8 := text.toList.map fun c => UInt8.ofNat c.toNat

/-- Some replies, and what they are. -/
def replies : List (String × Json) :=
  [("\x7b\"return\":7\x7d", .ofFields [("return", .num 7)]),
    ("\x7b\"return\":\x7b\"id\":\"debian\"\x7d\x7d",
      .ofFields [("return", .ofFields [("id", .str "debian")])]),
    ("\x7b\"return\":\x7b\"pid\":42\x7d\x7d", .ofFields [("return", .ofFields [("pid", .num 42)])])]

/-- Read one of the replies. -/
def readReplies (bytes : List UInt8) : Option Json :=
  (replies.find? fun reply => asciiBytes reply.1 ++ [10] == bytes).map Prod.snd

/-- The reply of the agent to `guest-sync`, `guest-get-osinfo` or `guest-exec`. -/
def replyTo (n : Nat) : Answer := (replies[n]?).map fun reply => asciiBytes reply.1

/-- What `Settled` asks for, to be evaluated. -/
def settled (w : World) : Op → Bool
  | .connect _ id _ _ => (w.outstanding.splitOn 10).dropLast.all fun line =>
      (readReplies (unprefixed (line ++ [10]))).all fun response =>
        (response.field "return").bind Json.asI64 != some id
  | .command _ _ =>
    match w.session with
    | .launching _ => w.outstanding.isEmpty
    | _ => true
  | _ => true

theorem settled_spec {w : World} {op : Op} (h : settled w op = true) : Settled readReplies w op := by
  cases op with
  | connect purpose id answer waits =>
    intro line hline response hresponse
    have hall := all_eq_true.1 h line hline
    rw [hresponse, all_some] at hall
    simpa using hall
  | command answer arrivals =>
    rintro ⟨shell, hshell⟩
    unfold settled at h
    rw [hshell] at h
    simpa using h
  | _ => trivial

/-- The reply to the shell detection arrives in two pieces, and then the one to the launch. -/
theorem belongs_of_settled_debian :
    ∃ w, Belongs readReplies w ∧ w.job.state.guestPid = some 42 := by
  have hruns : (runChecked settled (World.step readReplies)
      (.initial { command := "id" } "ge-1-1" "lab01" "run01")
      [.connect .launch 7 (replyTo 0) [[13]], .command (replyTo 1) [5, 30],
        .command (replyTo 2) [40]]).map (fun w => w.job.state.guestPid) = some (some 42) := by
    decide +kernel
  obtain ⟨w, hw, hpid⟩ := map_eq_some_iff.1 hruns
  have hreachable : Reachable readReplies (Settled readReplies) w := runChecked_induction
    (fun w op w' h hsettled hstep => h.step (settled_spec hsettled) hstep)
    (.initial { command := "id" } "ge-1-1" "lab01" "run01") hw
  exact ⟨w, belongs_of_settled hreachable, hpid⟩

/-- The reply to the shell detection arrives after the wait, and is taken for the one to the launch:
the execution fails although the agent has launched its process. -/
theorem not_belongs_of_late :
    ¬∀ fromSlice w, Reachable fromSlice (fun _ _ => True) w → Belongs fromSlice w := by
  intro h
  have hruns : (runChecked (fun _ _ => true) (World.step readReplies)
      (.initial { command := "id" } "ge-1-1" "lab01" "run01")
      [.connect .launch 7 (replyTo 0) [[13]], .command (replyTo 1) [],
        .command (replyTo 2) [100]]).bind (fun w => if w.job.state.guestPid = none then
          (w.exchanges.map fun e => (e.command, e.answer, e.arrivals)).getLast? else none) =
      some (.exec "/bin/sh" ["-c", "id"], replyTo 2, [100]) := by
    decide +kernel
  obtain ⟨w, hw, hresult⟩ := bind_eq_some_iff.1 hruns
  obtain ⟨hpid, hlast⟩ := ite_none_right_eq_some.1 hresult
  have hreachable : Reachable readReplies (fun _ _ => True) w := runChecked_induction
    (fun w op w' h _ hstep => h.step trivial hstep)
    (.initial { command := "id" } "ge-1-1" "lab01" "run01") hw
  obtain ⟨exchange, hexchange, heq⟩ := mem_map.1 (mem_of_getLast? hlast)
  obtain ⟨hcommand, hpair⟩ := Prod.mk.inj heq
  obtain ⟨hanswer, harrivals⟩ := Prod.mk.inj hpair
  have hread : ((replyTo 2).bind fun text => readReplies (unprefixed (text ++ [10]))).bind pidOf =
      some 42 := by
    decide +kernel
  have hfits : ((replyTo 2).map fun text => decide (text.length + 1 ≤ arrived [100] ∧
      text.length + 1 ≤ maxReplyBytes)) = some true := by
    decide +kernel
  obtain ⟨response, hbind, hof⟩ := bind_eq_some_iff.1 hread
  obtain ⟨text, htext, hresponse⟩ := bind_eq_some_iff.1 hbind
  rw [htext, map_some, Option.some.injEq, decide_eq_true_eq] at hfits
  have hreceived : Received readReplies exchange response := by
    refine ⟨text, hanswer.trans htext, ?_, hfits.2, hresponse⟩
    rw [harrivals]
    exact hfits.1
  have haccepted : Accepted readReplies exchange 42 := by
    refine ⟨?_, response, hreceived, hof⟩
    rw [hcommand]
    rfl
  have hlaunched := ((h readReplies w hreachable).launched 42).2 ⟨exchange, hexchange, haccepted⟩
  rw [hlaunched] at hpid
  cases hpid

end GuestAgent

end MachineEmu
