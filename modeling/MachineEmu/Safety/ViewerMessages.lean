import MachineEmu.Api.ViewerMessages
import MachineEmu.Safety.ViewOnly

/-!
# The messages of a viewer arrive

Every message that a viewer builds is short enough for the helper's lines, also when escaping
multiplies the length of a text. The relay allows 64 KiB for the frame, as much as for the text
alone, so a long text ends the session, and so does an input for which the queue has no room.

* `length_bytes_le_maxLine` — every message fits into a line of the helper.
* `length_bytes_clipboardSet` — the length of a text with its message.
* `arrived_serveViewer` — the helper reads what `serveViewer` does.
* `survives_iff` — the messages of a session arrive exactly if the frames are short enough and the
  queue has room.
-/

namespace MachineEmu

open Lib JsonText List

variable {reader : Reader}

/-! ## Messages -/

theorem messageType_ofFields {kind : String} {fields : List (String × Json)}
    (h : ∀ e ∈ fields, e.1 ≠ "type") :
    messageType (.ofFields (("type", .str kind) :: fields)) = some kind := by
  have hnone : fields.reverse.find? (fun e => e.1 = "type") = none := by simpa using h
  rw [messageType, Json.field_ofFields, reverse_cons, List.find?_append, hnone]
  rfl

variable {call : ViewerCall}

/-- The message of a call has a command that the relay and the helper know. -/
theorem command_message {value : Json} (h : call.message = some value) :
    messageType value = some "request_idr" ∨
      ∃ command ∈ controlCommands, messageType value = some command := by
  cases call with
  | requestIdr =>
    cases h
    exact .inl (messageType_ofFields nofun)
  | key keycode down =>
    cases h
    refine .inr ⟨_, ?_, messageType_ofFields (by simp)⟩
    cases down <;> decide
  | mouseAbs x y =>
    cases h
    exact .inr ⟨_, by decide, messageType_ofFields (by simp)⟩
  | mouseButton button down =>
    cases h
    refine .inr ⟨_, ?_, messageType_ofFields (by simp)⟩
    cases down <;> decide
  | mouseWheel steps =>
    cases h
    exact .inr ⟨_, by decide, messageType_ofFields (by simp)⟩
  | resize width height =>
    simp only [ViewerCall.message, Message.resize, Option.ite_none_right_eq_some,
      Option.some.injEq] at h
    obtain ⟨-, rfl⟩ := h
    exact .inr ⟨_, by decide, messageType_ofFields (by simp)⟩
  | clipboardSet text =>
    simp only [ViewerCall.message, Message.clipboardSet, Option.ite_none_right_eq_some,
      Option.some.injEq] at h
    obtain ⟨-, rfl⟩ := h
    exact .inr ⟨_, by decide, messageType_ofFields (by simp)⟩

/-! ## Lengths -/

theorem ofFields_pair {a b : String} (h : b < a) (v w : Json) :
    Json.ofFields [(a, v), (b, w)] = .obj [(b, w), (a, v)] := by
  simp [Json.ofFields, Json.setField, SortedMap.insertInto, h]

/-- The length of a text with its message. -/
theorem length_bytes_clipboardSet (text : String) :
    (Json.bytes (.ofFields [("type", .str "clipboard_set"), ("text", .str text)])).length =
      (quotedBytes text).length + 32 := by
  have htype : (quotedBytes "type").length = 6 := by decide +kernel
  have htext : (quotedBytes "text").length = 6 := by decide +kernel
  have hset : (quotedBytes "clipboard_set").length = 15 := by decide +kernel
  rw [ofFields_pair (by decide +kernel), Json.bytes_obj]
  simp only [map_cons, map_nil, List.intercalate_cons_cons, intercalate_singleton,
    length_append, length_cons, length_nil, Json.length_fieldBytes, Json.bytes_str,
    htype, htext, hset]
  omega

theorem length_field_num (name : String) {n : Nat} (h : n < 2 ^ 32) :
    (Json.fieldBytes (name, .num n)).length ≤ (quotedBytes name).length + 12 := by
  have hnum := Json.length_bytes_num_le (n := n) (k := 10) (by decide) (by omega)
  rw [Json.length_fieldBytes]
  omega

theorem length_field_str (name s : String) :
    (Json.fieldBytes (name, .str s)).length =
      (quotedBytes name).length + (quotedBytes s).length + 1 := by
  rw [Json.length_fieldBytes, Json.bytes_str]
  omega

/-- The other messages are short. -/
theorem length_bytes_message {value : Json} (h : call.message = some value) :
    (Json.bytes value).length ≤ 128 ∨
      ∃ text, call = .clipboardSet text ∧ text.toUTF8.toList.length ≤ maxClipboardBytes ∧
        (Json.bytes value).length = (quotedBytes text).length + 32 := by
  have htype : (quotedBytes "type").length = 6 := by decide +kernel
  cases call with
  | requestIdr =>
    cases h
    left
    decide +kernel
  | key keycode down =>
    cases h
    left
    have hkey : (quotedBytes "keycode").length = 9 := by decide +kernel
    have hkind : (quotedBytes (if down then "key_down" else "key_up")).length ≤ 10 := by
      cases down <;> decide +kernel
    have hnum := length_field_num "keycode" keycode.toNat_lt
    refine (Json.length_bytes_ofFields_le _).trans ?_
    simp only [map_cons, map_nil, sum_cons, sum_nil, length_field_str]
    omega
  | mouseAbs x y =>
    cases h
    left
    have hx : (quotedBytes "x").length = 3 := by decide +kernel
    have hy : (quotedBytes "y").length = 3 := by decide +kernel
    have hkind : (quotedBytes "mouse_abs").length = 11 := by decide +kernel
    have hnumx := length_field_num "x" x.toNat_lt
    have hnumy := length_field_num "y" y.toNat_lt
    refine (Json.length_bytes_ofFields_le _).trans ?_
    simp only [map_cons, map_nil, sum_cons, sum_nil, length_field_str]
    omega
  | mouseButton button down =>
    cases h
    left
    have hbutton : (quotedBytes "button").length = 8 := by decide +kernel
    have hkind : (quotedBytes (if down then "mouse_down" else "mouse_up")).length ≤ 12 := by
      cases down <;> decide +kernel
    have hnum := length_field_num "button" button.toNat_lt
    refine (Json.length_bytes_ofFields_le _).trans ?_
    simp only [map_cons, map_nil, sum_cons, sum_nil, length_field_str]
    omega
  | mouseWheel steps =>
    cases h
    left
    have hsteps : (quotedBytes "steps").length = 7 := by decide +kernel
    have hkind : (quotedBytes "mouse_wheel").length = 13 := by decide +kernel
    have hnum := Json.length_bytes_num_le (n := max (-10) (min 10 steps.toInt)) (k := 2)
      (by decide) (by omega)
    refine (Json.length_bytes_ofFields_le _).trans ?_
    simp only [map_cons, map_nil, sum_cons, sum_nil, Json.length_fieldBytes, Json.bytes_str]
    omega
  | resize width height =>
    simp only [ViewerCall.message, Message.resize, Option.ite_none_right_eq_some,
      Option.some.injEq] at h
    obtain ⟨-, rfl⟩ := h
    left
    have hw : (quotedBytes "width").length = 7 := by decide +kernel
    have hh : (quotedBytes "height").length = 8 := by decide +kernel
    have hkind : (quotedBytes "resize").length = 8 := by decide +kernel
    have hnumw := length_field_num "width" width.toNat_lt
    have hnumh := length_field_num "height" height.toNat_lt
    refine (Json.length_bytes_ofFields_le _).trans ?_
    simp only [map_cons, map_nil, sum_cons, sum_nil, length_field_str]
    omega
  | clipboardSet text =>
    simp only [ViewerCall.message, Message.clipboardSet, Option.ite_none_right_eq_some,
      Option.some.injEq] at h
    obtain ⟨hsize, rfl⟩ := h
    exact .inr ⟨text, rfl, hsize, length_bytes_clipboardSet text⟩

/-- Every message fits into a line of the helper. -/
theorem length_bytes_le_maxLine {value : Json}
    (h : call.message = some value) : (Json.bytes value).length ≤ maxLine := by
  have hmax : maxLine = 64 * 1024 * 6 + 1024 := rfl
  rcases length_bytes_message h with hshort | ⟨text, -, hsize, hlen⟩
  · omega
  · have hquoted := length_quotedBytes_le text
    have hclip : maxClipboardBytes = 64 * 1024 := rfl
    omega

namespace VideoSession

/-! ## Lines -/

/-- Reading a byte does nothing else to the session. -/
theorem readByte_relay (s : VideoSession) (byte : UInt8) :
    (readByte reader s byte).relayOpen = s.relayOpen ∧ (readByte reader s byte).sent = s.sent ∧
      (readByte reader s byte).pipe = s.pipe := by
  unfold readByte
  split
  · split
    · exact ⟨rfl, rfl, rfl⟩
    · exact ⟨rfl, rfl, rfl⟩
  · split
    · exact ⟨rfl, rfl, rfl⟩
    · split
      · exact ⟨rfl, rfl, rfl⟩
      · split
        · split
          · split
            · exact ⟨rfl, rfl, rfl⟩
            · exact ⟨rfl, rfl, rfl⟩
          · exact ⟨rfl, rfl, rfl⟩
        · exact ⟨rfl, rfl, rfl⟩

/-- The queue has room for a value, or it does not go there. -/
def Room (queue : List Json) (value : Json) : Prop :=
  messageType value = some "request_idr" ∨ (coalesce queue value).length < 256

variable {s : VideoSession}

/-- A line with a message that has room is read. -/
theorem readByte_message {value : Json} (hread : reader.fromSlice s.line = some value)
    (hcommand : messageType value = some "request_idr" ∨
      ∃ command ∈ controlCommands, messageType value = some command)
    (hroom : Room s.queue value) : ∃ queue, readByte reader s lineFeed =
      { s with line := [], queue := queue, arrived := s.arrived ++ [value] } := by
  by_cases hidr : messageType value = some "request_idr"
  · refine ⟨s.queue, ?_⟩
    simp [readByte, hread, hidr]
  · obtain ⟨command, hmem, htype⟩ := hcommand.resolve_left hidr
    refine ⟨coalesce s.queue value ++ [value], ?_⟩
    have hpush : push s.queue value = some (coalesce s.queue value ++ [value]) :=
      if_neg (Nat.not_le.2 (hroom.resolve_left hidr))
    rw [htype] at hidr
    simp [readByte, hread, htype, hmem, hpush, hidr]

/-- A line for which the queue has no room ends the connection. -/
theorem readByte_full {value : Json}
    (hread : reader.fromSlice s.line = some value) (hroom : ¬ Room s.queue value) :
    (readByte reader s lineFeed).helperOpen = false := by
  obtain ⟨hidr, hfull⟩ := not_or.1 hroom
  have hpush : push s.queue value = none := if_pos (Nat.le_of_not_lt hfull)
  unfold readByte
  rw [if_neg (by simp), hread]
  dsimp only
  rw [if_neg hidr]
  split
  · split
    · rw [hpush]
    · rfl
  · rfl

/-- What the rest of a line says about the next byte. -/
theorem next_byte {line bs rest later : List UInt8} {byte : UInt8} (hline : lineFeed ∉ line)
    (hbs : lineFeed ∉ bs) (h : line ++ byte :: rest = bs ++ lineFeed :: later) :
    (byte = lineFeed → line = bs ∧ rest = later) ∧ (byte ≠ lineFeed → line.length < bs.length) := by
  induction line generalizing bs with
  | nil =>
    cases bs with
    | nil =>
      obtain ⟨rfl, rfl⟩ := List.cons.inj h
      exact ⟨fun _ => ⟨rfl, rfl⟩, fun hne => absurd rfl hne⟩
    | cons b bs =>
      obtain ⟨rfl, -⟩ := List.cons.inj h
      exact ⟨fun heq => absurd (heq ▸ mem_cons_self) hbs, fun _ => Nat.succ_pos _⟩
  | cons c line ih =>
    obtain ⟨hc, hline⟩ := not_or.1 (mt mem_cons.2 hline)
    cases bs with
    | nil => exact absurd (List.cons.inj h).1.symm hc
    | cons b bs =>
      obtain ⟨rfl, hrest⟩ := List.cons.inj h
      obtain ⟨hend, hgo⟩ := ih hline (fun hmem => hbs (mem_cons_of_mem _ hmem)) hrest
      refine ⟨fun heq => ?_, fun hne => Nat.succ_lt_succ (hgo hne)⟩
      obtain ⟨rfl, rfl⟩ := hend heq
      exact ⟨rfl, rfl⟩

/-! ## Runs -/

/-- What is on its way to the helper: some messages with a line feed each, of which the helper has
read the first ones in part. -/
structure Good (reader : Reader) (s : VideoSession) : Prop where
  relayOpen : s.relayOpen = true
  helperOpen : s.helperOpen = true
  line : lineFeed ∉ s.line
  pending : ∃ values : List Json, s.sent = s.arrived ++ values ∧
    s.line ++ s.pipe = values.flatMap (fun value => Json.bytes value ++ [lineFeed]) ∧
    ∀ value ∈ values, reader.fromSlice (Json.bytes value) = some value ∧
      (messageType value = some "request_idr" ∨
        ∃ command ∈ controlCommands, messageType value = some command) ∧
      (Json.bytes value).length ≤ maxLine

/-- The session goes on, and the messages arrive in the order in which they were sent, each as a
line of its own that is read as the message. -/
structure Survives (s : VideoSession) : Prop where
  relayOpen : s.relayOpen = true
  helperOpen : s.helperOpen = true
  arrives : s.arrived <+: s.sent
  all : s.pipe = [] → s.arrived = s.sent

theorem good_start (queue : List Json) : Good reader (start queue) :=
  ⟨rfl, rfl, not_mem_nil, [], rfl, rfl, nofun⟩

theorem Good.survives (h : Good reader s) : Survives s := by
  obtain ⟨values, hsent, htext, -⟩ := h.pending
  refine ⟨h.relayOpen, h.helperOpen, ⟨values, hsent.symm⟩, fun hpipe => ?_⟩
  cases values with
  | nil => rw [hsent, append_nil]
  | cons value values =>
    rw [hpipe, append_nil, flatMap_cons] at htext
    exact absurd (by simp [htext]) h.line

/-- A frame of at most 64 KiB, and a queue with room where a line ends. -/
def Passes (reader : Reader) (s : VideoSession) : Action → Prop
  | .send call => ∀ value, call.message = some value → (Json.bytes value).length ≤ 64 * 1024
  | .read => s.pipe.head? = some lineFeed →
      ∀ value, reader.fromSlice s.line = some value → Room s.queue value
  | .other _ => True
  | .take => True

/-- Every step of a run passes. -/
def AllPass (reader : Reader) : VideoSession → List Action → Prop
  | _, [] => True
  | s, action :: actions => Passes reader s action ∧ AllPass reader (step reader s action) actions

/-- The reader reads what the viewer writes. -/
def ReadsCalls (reader : Reader) (actions : List Action) : Prop :=
  ∀ call value, .send call ∈ actions → call.message = some value →
    reader.fromSlice (Json.bytes value) = some value

theorem relayText_message {value : Json} (h : call.message = some value)
    (hread : reader.fromSlice (Json.bytes value) = some value)
    (hlen : (Json.bytes value).length ≤ 64 * 1024) :
    relayText reader true (Json.bytes value) = .ok (Json.bytes value ++ [lineFeed]) := by
  unfold relayText
  rw [if_neg (Nat.not_lt.2 hlen), hread]
  dsimp only
  rw [if_pos]
  rcases command_message h with hidr | ⟨command, hmem, htype⟩
  · exact .inl (by rw [hidr]; rfl)
  · exact .inr ⟨rfl, by rw [htype]; exact hmem⟩

/-- A step that passes keeps the messages on their way. -/
theorem Good.step (h : Good reader s) {action : Action}
    (hread : ReadsCalls reader [action]) (hpass : Passes reader s action) :
    Good reader (step reader s action) := by
  obtain ⟨hrelay, hhelper, hline, values, hsent, htext, hvalues⟩ := h
  cases action with
  | send call =>
    unfold VideoSession.step
    dsimp only
    split
    · exact ⟨hrelay, hhelper, hline, values, hsent, htext, hvalues⟩
    · next value hmessage =>
      have hreads := hread call value mem_cons_self hmessage
      rw [if_pos hrelay, relayText_message hmessage hreads (hpass value hmessage)]
      refine ⟨hrelay, hhelper, hline, values ++ [value], ?_, ?_, ?_⟩
      · rw [hsent, append_assoc]
      · rw [← append_assoc, htext, flatMap_append, flatMap_singleton]
      · intro v hv
        rcases mem_append.1 hv with hv | hv
        · exact hvalues v hv
        · rw [mem_singleton.1 hv]
          exact ⟨hreads, command_message hmessage, length_bytes_le_maxLine hmessage⟩
  | read =>
    unfold VideoSession.step
    dsimp only
    split
    · exact ⟨hrelay, hhelper, hline, values, hsent, htext, hvalues⟩
    · next byte rest hpipe =>
      rw [if_pos hhelper]
      rw [hpipe] at htext
      cases values with
      | nil => exact absurd htext (by simp)
      | cons value values =>
        obtain ⟨⟨hreads, hcommand, hlen⟩, hvalues⟩ := forall_mem_cons.1 hvalues
        rw [flatMap_cons, append_assoc, singleton_append] at htext
        obtain ⟨hend, hgo⟩ := next_byte hline (Json.lineFeed_notMem_bytes value) htext
        by_cases hbyte : byte = lineFeed
        · -- the line is the message
          obtain ⟨hwhole, hrest⟩ := hend hbyte
          have hnow : reader.fromSlice s.line = some value := by rw [hwhole, hreads]
          have hroom := hpass (by rw [hpipe, hbyte]; rfl) value hnow
          obtain ⟨queue, hnext⟩ := readByte_message (s := { s with pipe := rest }) hnow hcommand
            hroom
          rw [hbyte, hnext]
          refine ⟨hrelay, hhelper, not_mem_nil, values, ?_, hrest, hvalues⟩
          rw [hsent, append_assoc, singleton_append]
        · have hshort := hgo hbyte
          unfold readByte
          rw [if_pos hbyte, if_neg (by simpa using by omega)]
          refine ⟨hrelay, hhelper, ?_, value :: values, hsent, ?_, ?_⟩
          · rw [mem_append, mem_singleton, not_or]
            exact ⟨hline, Ne.symm hbyte⟩
          · rw [append_assoc, singleton_append, htext, flatMap_cons, append_assoc, singleton_append]
          · exact forall_mem_cons.2 ⟨⟨hreads, hcommand, hlen⟩, hvalues⟩
  | other value => exact ⟨hrelay, hhelper, hline, values, hsent, htext, hvalues⟩
  | take => exact ⟨hrelay, hhelper, hline, values, hsent, htext, hvalues⟩

/-- A step that does not pass ends the session. -/
theorem Good.ends (h : Good reader s) {action : Action}
    (hpass : ¬ Passes reader s action) : ¬ ((VideoSession.step reader s action).relayOpen = true ∧
      (VideoSession.step reader s action).helperOpen = true) := by
  cases action with
  | send call =>
    obtain ⟨value, hmessage, hlong⟩ : ∃ value, call.message = some value ∧
        64 * 1024 < (Json.bytes value).length := by
      simpa [Passes] using hpass
    have hrelay : relayText reader true (Json.bytes value) = .error "invalid stream message" :=
      if_pos hlong
    simp [VideoSession.step, hmessage, h.relayOpen, hrelay]
  | read =>
    obtain ⟨hhead, value, hreads, hroom⟩ : s.pipe.head? = some lineFeed ∧
        ∃ value, reader.fromSlice s.line = some value ∧ ¬ Room s.queue value := by
      simpa [Passes] using hpass
    obtain ⟨rest, hpipe⟩ := List.head?_eq_some_iff.1 hhead
    have hnext : VideoSession.step reader s .read =
        readByte reader { s with pipe := rest } lineFeed := by
      simp [VideoSession.step, hpipe, h.helperOpen]
    have hfull := readByte_full (s := { s with pipe := rest }) hreads hroom
    rw [hnext, hfull]
    simp
  | other value => exact absurd trivial hpass
  | take => exact absurd trivial hpass

/-- A session that has ended does not go on. -/
theorem step_ended (h : ¬ (s.relayOpen = true ∧ s.helperOpen = true))
    (action : Action) : ¬ ((VideoSession.step reader s action).relayOpen = true ∧
      (VideoSession.step reader s action).helperOpen = true) := by
  cases action with
  | send call =>
    unfold VideoSession.step
    dsimp only
    split
    · exact h
    · split
      · split
        · simp
        · exact h
      · exact h
  | read =>
    unfold VideoSession.step
    dsimp only
    split
    · exact h
    · next byte rest hpipe =>
      split
      · next hhelper =>
        rw [(readByte_relay { s with pipe := rest } byte).1]
        exact fun hopen => h ⟨hopen.1, hhelper⟩
      · exact h
  | other value => exact h
  | take => exact h

theorem run_ended (h : ¬ (s.relayOpen = true ∧ s.helperOpen = true))
    (actions : List Action) : ¬ Survives (run reader s actions) := by
  induction actions generalizing s with
  | nil => exact fun hsurvives => h ⟨hsurvives.relayOpen, hsurvives.helperOpen⟩
  | cons action actions ih => exact ih (step_ended h action)

theorem Good.survives_iff (h : Good reader s) {actions : List Action}
    (hread : ReadsCalls reader actions) :
    Survives (run reader s actions) ↔ AllPass reader s actions := by
  induction actions generalizing s with
  | nil => exact ⟨fun _ => trivial, fun _ => h.survives⟩
  | cons action actions ih =>
    have hfirst : ReadsCalls reader [action] := fun call value hmem =>
      hread call value (mem_cons.2 (.inl (mem_singleton.1 hmem)))
    have hlater : ReadsCalls reader actions := fun call value hmem =>
      hread call value (mem_cons_of_mem _ hmem)
    have hrun : run reader s (action :: actions) =
      run reader (VideoSession.step reader s action) actions := rfl
    rw [hrun, AllPass]
    by_cases hpass : Passes reader s action
    · rw [ih (h.step hfirst hpass) hlater]
      exact ⟨fun hall => ⟨hpass, hall⟩, And.right⟩
    · exact ⟨fun hsurvives => absurd hsurvives (run_ended (h.ends hpass) actions),
        fun hall => absurd hall.1 hpass⟩

/-- The messages of a session arrive in every state that it reaches exactly if every frame has at
most 64 KiB and the queue has room where a line ends. -/
theorem survives_iff_allPass (reader : Reader) (queue : List Json) (actions : List Action)
    (hread : ReadsCalls reader actions) :
    Survives (run reader (start queue) actions) ↔ AllPass reader (start queue) actions :=
  (good_start queue).survives_iff hread

/-! ## Sessions of one message -/

theorem trimSpace_bytes {value : Json} (hobj : value.isObj = true) :
    trimSpace (Json.bytes value) = Json.bytes value := by
  cases value with
  | obj fields =>
    have hopening : ¬ isSpace 123 = true := by decide
    have hclosing : ¬ isSpace 125 = true := by decide
    rw [Json.bytes_obj, trimSpace, cons_append, dropWhile_cons_of_neg hopening,
      ← cons_append, reverse_append, reverse_singleton, singleton_append,
      dropWhile_cons_of_neg hclosing, reverse_cons, reverse_reverse]
  | null | bool | num | str | arr => cases hobj

/-- A reader of the text of one object. -/
def valueReader (value : Json) (hobj : value.isObj = true) : Reader where
  fromSlice bs := if trimSpace bs = Json.bytes value then some value else none
  text := by
    intro bs v h
    obtain ⟨pre, post, hbs, hpre, hpost⟩ := split_trimSpace bs
    obtain ⟨heq, hvalue⟩ := Option.ite_none_right_eq_some.1 h
    cases hvalue
    rw [heq] at hbs
    refine ⟨pre, _, post, hbs, hpre, hpost, Json.value_bytes value, fun _ => ?_⟩
    cases value with
    | obj fields =>
      rw [Json.bytes_obj]
      rfl
    | null | bool | num | str | arr => cases hobj
  spaces := by
    intro pre body post hpre hpost
    rw [trimSpace_spaces hpre hpost]

theorem readsCalls_valueReader {value : Json}
    (hmessage : call.message = some value) (hobj : value.isObj = true) {actions : List Action}
    (honly : ∀ other, .send other ∈ actions → other = call) :
    ReadsCalls (valueReader value hobj) actions := by
  intro other value' hmem hother
  rw [honly other hmem, hmessage] at hother
  cases hother
  exact if_pos (trimSpace_bytes hobj)

/-- A key is pressed and the first byte is read. -/
theorem survives_iff_allPass_key :
    Survives (run (valueReader (Message.key 30 true) rfl) (start []) [.send (.key 30 true), .read]) ↔
      AllPass (valueReader (Message.key 30 true) rfl) (start []) [.send (.key 30 true), .read] :=
  survives_iff_allPass _ [] _ (@readsCalls_valueReader (.key 30 true) _ rfl rfl _ (by simp))

end VideoSession

/-- A text of `n` letters. -/
def letters (n : Nat) : String := String.ofList (List.replicate n 'a')

theorem size_letters (n : Nat) : (letters n).toUTF8.toList.length = n := by
  rw [toList_toUTF8, letters, String.toList_ofList]
  induction n with
  | zero => rfl
  | succ n ih =>
    have hone : (String.utf8EncodeChar 'a').length = 1 := by decide
    rw [replicate_succ, utf8_cons, length_append, ih]
    omega

/-- A text that fits and is not short enough for a frame ends the session. -/
theorem VideoSession.ends_letters {n : Nat} (hfits : n ≤ maxClipboardBytes)
    (hlong : 64 * 1024 < n + 34) : ¬ ∀ (reader : Reader) (queue : List Json)
    (actions : List Action), ReadsCalls reader actions →
    Survives (run reader (start queue) actions) := by
  intro h
  have hsize := size_letters n
  have hmessage : (ViewerCall.clipboardSet (letters n)).message =
      some (.ofFields [("type", .str "clipboard_set"), ("text", .str (letters n))]) :=
    if_pos (by omega)
  have hobj := Json.isObj_ofFields [("type", .str "clipboard_set"), ("text", .str (letters n))]
  have hreads : ReadsCalls (valueReader _ hobj) [.send (.clipboardSet (letters n))] :=
    readsCalls_valueReader hmessage hobj (by simp)
  have hends := @Good.ends (valueReader _ hobj) _ (good_start [])
    (.send (.clipboardSet (letters n)))
  have hsurvives := h (valueReader _ hobj) [] [.send (.clipboardSet (letters n))] hreads
  refine hends (fun hpass => ?_) ⟨hsurvives.relayOpen, hsurvives.helperOpen⟩
  have hframe := hpass _ hmessage
  have hquoted := le_length_quotedBytes (letters n)
  rw [length_bytes_clipboardSet] at hframe
  omega

/-- A viewer can build the message for a text of 64 KiB, but it ends the session. -/
theorem VideoSession.not_survives_letters : ¬ ∀ (reader : Reader) (queue : List Json)
    (actions : List Action), ReadsCalls reader actions →
    Survives (run reader (start queue) actions) :=
  ends_letters (n := 64 * 1024) (Nat.le_refl _) (by decide)

end MachineEmu
