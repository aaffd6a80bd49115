import MachineEmu.Api.VideoControl

/-!
# A viewer without control sends no input

The relay reads a whole text, the helper reads it line by line. A text that the relay lets through
is an object, so its first line is either no JSON text, which ends the connection, or the whole
object, and then the other lines are empty.

* `serveViewer_text` — what the helper makes of a text that the relay lets through.
* `video_view_only` — the result.
-/

namespace MachineEmu

open Lib JsonText List

variable {reader : Reader}

theorem isObj_of_messageType {value : Json} {command : String}
    (h : messageType value = some command) : value.isObj = true := by
  cases value with
  | obj => rfl
  | null | bool | num | str | arr => cases h

/-- What the helper does at the end of a line. -/
def endLine (reader : Reader) (line rest : List UInt8) : List ViewerMessage :=
  serveViewer reader line (lineFeed :: rest)

theorem endLine_spaces {line : List UInt8} (h : Spaces line) (rest : List UInt8) :
    endLine reader line rest = [] := by
  simp [endLine, serveViewer, reader.fromSlice_spaces h]

theorem endLine_idr {line : List UInt8} {value : Json} (h : reader.fromSlice line = some value)
    (htype : messageType value = some "request_idr") (rest : List UInt8) :
    endLine reader line rest = .requestIdr :: serveViewer reader [] rest := by
  simp [endLine, serveViewer, h, htype]

variable {bytes : List UInt8}

/-- A line is read to its end, unless it is too long. -/
theorem serveViewer_line (reader : Reader) (h : lineFeed ∉ bytes) (line rest : List UInt8) :
    serveViewer reader line (bytes ++ lineFeed :: rest) = [] ∨
      serveViewer reader line (bytes ++ lineFeed :: rest) = endLine reader (line ++ bytes) rest := by
  induction bytes generalizing line with
  | nil =>
    rw [nil_append, append_nil]
    exact .inr rfl
  | cons byte bytes ih =>
    obtain ⟨hne, hrest⟩ := not_or.1 (mt mem_cons.2 h)
    rw [cons_append, serveViewer, if_pos (Ne.symm hne)]
    split
    · exact .inl rfl
    · simpa using ih hrest (line ++ [byte])

/-- A text has no line feed, or a first line. -/
theorem first_line (text : List UInt8) : lineFeed ∉ text ∨
    ∃ front later, text = front ++ lineFeed :: later ∧ lineFeed ∉ front := by
  induction text with
  | nil => exact .inl nofun
  | cons c rest ih =>
    by_cases hc : c = lineFeed
    · exact .inr ⟨[], rest, by rw [hc]; rfl, nofun⟩
    · rcases ih with hrest | ⟨front, later, rfl, hfront⟩
      · exact .inl fun h => (mem_cons.1 h).elim (fun h => hc h.symm) hrest
      · exact .inr ⟨c :: front, later, rfl, fun h =>
          (mem_cons.1 h).elim (fun h => hc h.symm) hfront⟩

/-- Space and a line feed end the connection. -/
theorem serveViewer_spaces (h : Spaces bytes) (rest : List UInt8) :
    serveViewer reader [] (bytes ++ lineFeed :: rest) = [] := by
  have hline : ∀ {front rest : List UInt8}, Spaces front → lineFeed ∉ front →
      serveViewer reader [] (front ++ lineFeed :: rest) = [] := by
    intro front rest hspaces hfront
    rcases serveViewer_line reader hfront [] rest with hnone | hend
    · exact hnone
    · rw [hend, nil_append, endLine_spaces hspaces]
  rcases first_line bytes with hnone | ⟨front, later, rfl, hfront⟩
  · exact hline h hnone
  · rw [append_assoc, cons_append]
    exact hline (fun c hc => h c (mem_append_left _ hc)) hfront

/-- What the helper makes of a text with the command for a key frame: it ends the connection, with
or without a key frame, or goes on after one. -/
theorem serveViewer_text {text : List UInt8} {value : Json}
    (h : reader.fromSlice text = some value) (htype : messageType value = some "request_idr")
    (rest : List UInt8) :
    serveViewer reader [] (text ++ lineFeed :: rest) = [] ∨
    serveViewer reader [] (text ++ lineFeed :: rest) = [.requestIdr] ∨
    serveViewer reader [] (text ++ lineFeed :: rest) =
      .requestIdr :: serveViewer reader [] rest := by
  rcases first_line text with hnone | ⟨front, later, rfl, hfront⟩
  · refine (serveViewer_line reader hnone [] rest).imp (fun h => h) fun hend => ?_
    rw [hend, nil_append, endLine_idr h htype]
    exact .inr rfl
  · rw [append_assoc, cons_append]
    rcases serveViewer_line reader hfront [] (later ++ lineFeed :: rest) with
      hnone | hend
    · exact .inl hnone
    rw [hend, nil_append]
    cases hread : reader.fromSlice front with
    | none =>
      left
      simp [endLine, serveViewer, hread]
    | some value' =>
      obtain ⟨rfl, hspaces⟩ := reader.line (isObj_of_messageType htype) h hread
      right
      left
      rw [endLine_idr hread htype,
        serveViewer_spaces (fun c hc => hspaces c (mem_cons_of_mem _ hc))]

/-- More bytes make more messages. -/
theorem serveViewer_front {sent : List UInt8} (h : sent <+: bytes) (line : List UInt8) :
    serveViewer reader line sent <+: serveViewer reader line bytes := by
  induction sent generalizing bytes line with
  | nil => exact nil_prefix
  | cons byte sent ih =>
    obtain ⟨later, rfl⟩ := h
    have hrest : sent <+: sent ++ later := prefix_append ..
    rw [cons_append, serveViewer, serveViewer]
    split
    · split
      · exact prefix_refl _
      · exact ih hrest _
    · split
      · exact prefix_refl _
      · split
        · exact cons_prefix_cons.2 ⟨rfl, ih hrest _⟩
        · split
          · split
            · exact cons_prefix_cons.2 ⟨rfl, ih hrest _⟩
            · exact prefix_refl _
          · exact prefix_refl _

/-- Without control the relay lets through commands for key frames only. -/
theorem relayText_viewOnly {text : List UInt8} (h : relayText reader false text = .ok bytes) :
    bytes = text ++ [lineFeed] ∧ ∃ value, reader.fromSlice text = some value ∧
      messageType value = some "request_idr" := by
  unfold relayText at h
  split at h
  · cases h
  · split at h
    · cases h
    · next value hvalue =>
      simp only [Bool.false_eq_true, false_and, or_false] at h
      split at h
      · next hcommand =>
        cases h
        refine ⟨rfl, value, hvalue, ?_⟩
        cases htype : messageType value with
        | none =>
          rw [htype] at hcommand
          exact absurd hcommand (by decide)
        | some command =>
          rw [htype, Option.getD_some] at hcommand
          rw [hcommand]
      · cases h

/-- Whatever a viewer without control sends, and wherever the connection is cut, the helper reads
nothing but requests for key frames. -/
theorem video_view_only (reader : Reader) (frames : List WsFrame) (sent : List UInt8)
    (hsent : sent <+: relayVideo reader false frames) :
    ∀ message ∈ serveViewer reader [] sent, message = .requestIdr := by
  have hall : ∀ message ∈ serveViewer reader [] (relayVideo reader false frames),
      message = .requestIdr := by
    clear hsent
    induction frames with
    | nil => exact nofun
    | cons frame frames ih =>
      cases frame with
      | text text =>
        unfold relayVideo
        split
        · exact nofun
        · next bytes hbytes =>
          obtain ⟨rfl, value, hvalue, htype⟩ := relayText_viewOnly hbytes
          rw [append_assoc, singleton_append]
          intro message hmessage
          rcases serveViewer_text hvalue htype (relayVideo reader false frames) with hr | hr | hr
          · rw [hr] at hmessage
            cases hmessage
          · rw [hr] at hmessage
            exact mem_singleton.1 hmessage
          · rw [hr] at hmessage
            rcases mem_cons.1 hmessage with rfl | hmessage
            · rfl
            · exact ih message hmessage
      | binary => exact nofun
      | close => exact nofun
      | ping => exact ih
      | pong => exact ih
  intro message hmessage
  exact hall message ((serveViewer_front hsent []).subset hmessage)

/-- `{"type":"request_idr"}` -/
def requestIdr : List UInt8 :=
  [123, 34, 116, 121, 112, 101, 34, 58, 34, 114, 101, 113, 117, 101, 115, 116, 95, 105, 100, 114,
    34, 125]

/-- A text without the space around it. -/
def trimSpace (bs : List UInt8) : List UInt8 :=
  ((bs.dropWhile isSpace).reverse.dropWhile isSpace).reverse

theorem spaces_takeWhile (bs : List UInt8) : Spaces (bs.takeWhile isSpace) :=
  all_eq_true.1 all_takeWhile

theorem dropWhile_spaces {bs : List UInt8} (h : Spaces bs) (rest : List UInt8) :
    (bs ++ rest).dropWhile isSpace = rest.dropWhile isSpace :=
  dropWhile_append_of_pos h

theorem split_trimSpace (bs : List UInt8) :
    ∃ pre post, bs = pre ++ trimSpace bs ++ post ∧ Spaces pre ∧ Spaces post := by
  refine ⟨bs.takeWhile isSpace, ((bs.dropWhile isSpace).reverse.takeWhile isSpace).reverse, ?_,
    spaces_takeWhile bs, ?_⟩
  · rw [trimSpace, append_assoc, ← reverse_append, takeWhile_append_dropWhile,
      reverse_reverse, takeWhile_append_dropWhile]
  · intro c hc
    exact spaces_takeWhile _ c (mem_reverse.1 hc)

theorem trimSpace_spaces {pre body post : List UInt8} (hpre : Spaces pre) (hpost : Spaces post) :
    trimSpace (pre ++ body ++ post) = trimSpace body := by
  have hnone : post.dropWhile isSpace = [] := by simpa using dropWhile_spaces hpost []
  have hback : Spaces post.reverse := fun c hc => hpost c (mem_reverse.1 hc)
  rw [trimSpace, trimSpace, append_assoc, dropWhile_spaces hpre, dropWhile_append]
  split
  · next hempty => rw [hnone, List.isEmpty_iff.1 hempty]
  · rw [reverse_append, dropWhile_spaces hback]

theorem value_requestIdr : Value requestIdr := by
  have hcolon : isPlain 58 = true := by decide
  have htype : Chars [116, 121, 112, 101] := by
    repeat refine .plain (by decide) ?_
    exact .nil
  have hidr : Chars [114, 101, 113, 117, 101, 115, 116, 95, 105, 100, 114] := by
    repeat refine .plain (by decide) ?_
    exact .nil
  have hinner : Balanced [34, 116, 121, 112, 101, 34, 58, 34, 114, 101, 113, 117, 101, 115, 116,
      95, 105, 100, 114, 34] := .string htype (.plain hcolon (.string hidr .nil))
  exact .nested (by decide) (by decide) hinner

/-- A reader of the request for a key frame. -/
def idrReader : Reader where
  fromSlice bs :=
    if trimSpace bs = requestIdr then some (.obj [("type", .str "request_idr")]) else none
  text := by
    intro bs v h
    obtain ⟨pre, post, hbs, hpre, hpost⟩ := split_trimSpace bs
    split at h
    · next heq =>
      rw [heq] at hbs
      exact ⟨pre, requestIdr, post, hbs, hpre, hpost, value_requestIdr, fun _ => rfl⟩
    · cases h
  spaces := by
    intro pre body post hpre hpost
    rw [trimSpace_spaces hpre hpost]

/-- Two requests, the first with an empty line behind it. -/
theorem video_view_only_of_requests :
    relayVideo idrReader false [.text (requestIdr ++ [lineFeed]), .text requestIdr] =
        requestIdr ++ [lineFeed] ++ [lineFeed] ++ (requestIdr ++ [lineFeed]) ∧
      ∀ message ∈ serveViewer idrReader [] requestIdr, message = .requestIdr :=
  ⟨by decide +kernel, video_view_only idrReader
    [.text (requestIdr ++ [lineFeed]), .text requestIdr] requestIdr (by decide +kernel)⟩

end MachineEmu
