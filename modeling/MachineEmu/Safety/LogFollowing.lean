import MachineEmu.Api.Console

/-!
# What a followed log shows

The client finds what is new by comparing an answer with the one before it. That works while the
answer begins where the one before it does.

* `ShownOnce` — the client prints the first answer, and then what is appended.
* `Continues` — growths that the client recognises.
* `shownOnce` — it prints them once; `not_shownOnce` — a log with more lines than asked for.
-/

namespace MachineEmu.Console

open Lib Text

/-- The first answer and what is appended later are printed, once. -/
def ShownOnce (count : Nat) (log : List UInt8) (appended : List (List UInt8)) : Prop :=
  (followLog count log appended).printed =
    logContent log count ++ appended.flatMap Utf8.lossy

/-- A growth that the client recognises: it comes between two characters and brings no carriage
return before a line feed; and no line leaves the window, or the last line only goes on, or the new
lines are the next window and do not begin like the last one. -/
structure Continues (count : Nat) (log more : List UInt8) : Prop where
  whole : Utf8.lossy (log ++ more) = Utf8.lossy log ++ Utf8.lossy more
  plain : Plain ((Utf8.lossy log).getLast?.toList ++ Utf8.lossy more)
  window : Utf8.lossy more = [] ∨
    (pieces (Utf8.lossy (log ++ more))).length ≤ min count 100000 ∨
    (0 < count ∧ (pieces (Utf8.lossy (log ++ more))).length = (pieces (Utf8.lossy log)).length) ∨
    ((log = [] ∨ (Utf8.lossy log).getLast? = some '\n') ∧
      (pieces (Utf8.lossy more)).length = min count 100000 ∧
        ¬logContent log count <+: Utf8.lossy more)

theorem addition_append (previous more : List Char) : addition previous (previous ++ more) = more := by
  simp [addition]

section Windows

variable {text more : List Char} {count : Nat}

theorem tail_of_le (hcount : 0 < count) (h : (pieces text).length ≤ count) :
    tail text count = (pieces text).flatMap plain := by
  rw [tail_eq text hcount, Nat.sub_eq_zero_of_le h, List.drop_zero]

/-- No line leaves the window. -/
theorem tail_append_of_le (hplain : Plain (text.getLast?.toList ++ more)) (hcount : 0 < count)
    (hlength : (pieces (text ++ more)).length ≤ count) :
    tail (text ++ more) count = tail text count ++ more := by
  rw [tail_of_le hcount hlength]
  rcases List.eq_nil_or_concat' (pieces text) with heq | ⟨front, last, heq⟩
  · obtain rfl := pieces_eq_nil.1 heq
    rw [List.nil_append]
    rw [flatMap_plain (by rwa [flatten_pieces]), flatten_pieces]
    simp [tail, lines, ending, List.intercalate]
  · have hpieces := pieces_append heq more
    rw [hpieces, List.length_append] at hlength
    have hlast := (lineFeed_notMem_dropLast (show last ∈ pieces text by rw [heq]; simp)).2
    rw [getLast?_of_pieces heq] at hplain
    have hone : 0 < (pieces (last ++ more)).length := by
      rw [List.length_pos_iff, ne_eq, pieces_eq_nil]
      have := (lineFeed_notMem_dropLast (show last ∈ pieces text by rw [heq]; simp)).1
      simp [this]
    rw [hpieces, List.flatMap_append, flatMap_plain_append hlast hplain, tail_of_le hcount, heq]
    · simp
    · rw [heq, List.length_append, List.length_singleton]
      omega

/-- The last line goes on. -/
theorem tail_append_of_eq (hplain : Plain (text.getLast?.toList ++ more)) (hcount : 0 < count)
    (hlength : (pieces (text ++ more)).length = (pieces text).length) :
    tail (text ++ more) count = tail text count ++ more := by
  rcases List.eq_nil_or_concat' (pieces text) with heq | ⟨front, last, heq⟩
  · rw [heq, List.length_nil] at hlength
    have hnil := pieces_eq_nil.1 (List.length_eq_zero_iff.1 hlength)
    obtain ⟨rfl, rfl⟩ := List.append_eq_nil_iff.1 hnil
    simp
  · have hpieces := pieces_append heq more
    have hlast := (lineFeed_notMem_dropLast (show last ∈ pieces text by rw [heq]; simp)).2
    rw [getLast?_of_pieces heq] at hplain
    rw [hpieces, heq, List.length_append, List.length_append, List.length_singleton] at hlength
    obtain ⟨piece, hpiece⟩ := List.length_eq_one_iff.1 (Nat.add_left_cancel hlength)
    have hgoes := flatMap_plain_append hlast hplain
    rw [hpiece, List.flatMap_singleton] at hgoes
    have hk : (front ++ [last]).length - count ≤ front.length := by
      rw [List.length_append, List.length_singleton]
      omega
    have hsame : (front ++ [piece]).length = (front ++ [last]).length := by simp
    rw [tail_eq _ hcount, tail_eq _ hcount, hpieces, hpiece, heq, hsame,
      List.drop_append_of_le_length hk, List.drop_append_of_le_length hk, List.flatMap_append,
      List.flatMap_append, List.flatMap_singleton, List.flatMap_singleton, hgoes,
      List.append_assoc]

/-- The new lines are the next window. -/
theorem tail_append_of_full (hplain : Plain more) (hcount : 0 < count)
    (htext : text = [] ∨ text.getLast? = some '\n') (hlength : (pieces more).length = count) :
    tail (text ++ more) count = more := by
  have hpieces : pieces (text ++ more) = pieces text ++ pieces more := by
    rcases htext with rfl | htext
    · rfl
    · exact pieces_append_of_lineFeed htext more
  rw [tail_eq _ hcount, hpieces, List.length_append, hlength, Nat.add_sub_cancel,
    List.drop_left, flatMap_plain (by rwa [flatten_pieces]), flatten_pieces]

end Windows

/-! ## Runs -/

/-- What the client prints at a growth that it recognises. -/
theorem addition_of_continues {count : Nat} {log more : List UInt8}
    (h : Continues count log more) :
    addition (logContent log count) (logContent (log ++ more) count) = Utf8.lossy more := by
  unfold logContent
  have hsame : Utf8.lossy more = [] → addition (tail (Utf8.lossy log) (min count 100000))
      (tail (Utf8.lossy (log ++ more)) (min count 100000)) = Utf8.lossy more := by
    intro hnil
    rw [h.whole, hnil, List.append_nil]
    simpa using addition_append (tail (Utf8.lossy log) (min count 100000)) []
  rcases h.window with hnil | hle | ⟨hcount, heq⟩ | ⟨htext, hlength, hapart⟩
  · exact hsame hnil
  · rcases Nat.eq_zero_or_pos (min count 100000) with hzero | hpos
    · rw [hzero, Nat.le_zero, List.length_eq_zero_iff, pieces_eq_nil, h.whole] at hle
      exact hsame (List.append_eq_nil_iff.1 hle).2
    · rw [h.whole] at hle ⊢
      rw [tail_append_of_le h.plain hpos hle, addition_append]
  · rw [h.whole] at heq ⊢
    rw [tail_append_of_eq h.plain (by omega) heq, addition_append]
  · rcases Nat.eq_zero_or_pos (min count 100000) with hzero | hpos
    · rw [hzero, List.length_eq_zero_iff, pieces_eq_nil] at hlength
      exact hsame hlength
    · have hlog : Utf8.lossy log = [] ∨ (Utf8.lossy log).getLast? = some '\n' := by
        rcases htext with rfl | htext
        · exact .inl rfl
        · exact .inr htext
      have hmore : Plain (Utf8.lossy more) := fun hin =>
        h.plain (hin.trans (List.suffix_append _ _).isInfix)
      rw [h.whole, tail_append_of_full hmore hpos hlog hlength]
      unfold addition
      rw [if_neg (by simpa [logContent] using hapart)]

theorem grown_eq (log : List UInt8) (appended : List (List UInt8)) :
    grown log appended = log :: (grown log appended).tail := by
  cases appended <;> rfl

/-- Every growth is one that the client recognises. -/
def Recognised (count : Nat) : List UInt8 → List (List UInt8) → Prop
  | _, [] => True
  | log, more :: rest => Continues count log more ∧ Recognised count (log ++ more) rest

theorem printed_foldl {count : Nat} {appended : List (List UInt8)} {log : List UInt8}
    {f : Follower} (hprevious : f.previous = logContent log count)
    (h : Recognised count log appended) :
    ((grown log appended).tail.foldl (Follower.poll count) f).printed =
      f.printed ++ appended.flatMap Utf8.lossy := by
  induction appended generalizing log f with
  | nil => simp [grown]
  | cons more rest ih =>
    obtain ⟨hmore, hrest⟩ := h
    have hpoll : (f.poll count (log ++ more)).printed = f.printed ++ Utf8.lossy more := by
      simp only [Follower.poll, hprevious, addition_of_continues hmore]
    rw [grown, List.tail_cons, grown_eq, List.foldl_cons, ih rfl hrest, hpoll]
    simp

/-- In a run whose growths the client recognises, it prints them, each once. -/
theorem shownOnce (count : Nat) (log : List UInt8) (appended : List (List UInt8))
    (h : Recognised count log appended) : ShownOnce count log appended := by
  have hfirst : (Follower.poll count {} log).printed = logContent log count := rfl
  unfold ShownOnce followLog
  rw [grown_eq, List.foldl_cons, printed_foldl rfl h, hfirst]

/-- A line comes in two parts, and then two lines that fill the window. -/
theorem shownOnce_parts :
    ShownOnce 2 "a\nb".toUTF8.toList ["c\n".toUTF8.toList, "d\ne\n".toUTF8.toList] := by
  refine shownOnce _ _ _ ⟨⟨?_, ?_, .inr (.inl ?_)⟩, ⟨?_, ?_, .inr (.inr (.inr ⟨.inr ?_, ?_, ?_⟩))⟩,
    trivial⟩ <;> decide +kernel

/-- With two lines asked for, a third line moves the window, and the second one is shown again. -/
theorem not_shownOnce : ¬∀ (count : Nat) (log : List UInt8) (appended : List (List UInt8)),
    (∀ more ∈ appended, (lines (Utf8.lossy more)).length ≤ count) →
      ShownOnce count log appended := by
  intro h
  have hshown := h 2 "a\nb\n".toUTF8.toList ["c\n".toUTF8.toList] (by decide +kernel)
  unfold ShownOnce at hshown
  exact absurd hshown (by decide +kernel)

end MachineEmu.Console
