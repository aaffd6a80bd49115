import MachineEmu.Viewer.Drawing
import MachineEmu.Lib.Decimal

/-!
# The windows that have room for the toolbar

* `paints_fillRect`, `paints_drawText` — when a rectangle and a text are drawn, and where.
* `lit`, `litText` — the pixels of a glyph and of a text.
* `Roomy`, `paints_drawToolbar` — the windows that have room for the toolbar.
-/

namespace MachineEmu.Viewer

open Lib Lib.Painting List

/-! ## Rectangles -/

section Rectangles

variable {stride rows : Nat}

theorem div_of_row {row x i : Nat} (hlow : row * stride ≤ i) (hhigh : i < row * stride + x)
    (hx : x ≤ stride) : i / stride = row := by
  have hstride : 0 < stride := by omega
  rw [Nat.div_eq_iff hstride]
  constructor
  · exact hlow
  · omega

/-- A rectangle that starts right of the window is not drawn if a row of it is in the window. -/
theorem paints_fillRect (hstride : 0 < stride) (hwide : stride ≤ maxU32) (hrows : rows ≤ maxU32)
    (rect : Rect) (color : UInt32) :
    Paints (rows * stride) (rect.y < min (rect.y + rect.height) rows → rect.x ≤ stride)
      (fun i => rect.y ≤ i / stride ∧ i / stride < rect.y + rect.height)
      fun pixels => fillRect pixels stride rect color := by
  have hx1 : min (saturatingAdd rect.x rect.width) stride = min (rect.x + rect.width) stride := by
    unfold saturatingAdd
    omega
  have hy1 : min (saturatingAdd rect.y rect.height) (rows % 2 ^ 32) =
      min (rect.y + rect.height) rows := by
    unfold saturatingAdd maxU32 at *
    rw [Nat.mod_eq_of_lt (by omega)]
    omega
  have hrow : ∀ row ∈ List.range' rect.y (min (rect.y + rect.height) rows - rect.y),
      Paints (rows * stride) (rect.x ≤ stride)
        (fun i => rect.y ≤ i / stride ∧ i / stride < rect.y + rect.height)
        fun pixels => fillSpan pixels (row * stride + rect.x)
          (row * stride + min (rect.x + rect.width) stride) color := by
    intro row hmem
    obtain ⟨hlow, hhigh⟩ := mem_range'_1.1 hmem
    have hlast : (row + 1) * stride ≤ rows * stride := Nat.mul_le_mul_right stride (by omega)
    rw [Nat.add_mul] at hlast
    refine paints_fillSpan.mono (by omega) fun i hi => ?_
    have hdiv : i / stride = row :=
      div_of_row (x := min (rect.x + rect.width) stride) (by omega) hi.2 (by omega)
    omega
  have hall := Paints.foldlM hrow
  have hlist : ∀ pixels : List UInt32, pixels.length = rows * stride →
      fillRect pixels stride rect color =
        (List.range' rect.y (min (rect.y + rect.height) rows - rect.y)).foldlM
          (fun pixels row => fillSpan pixels (row * stride + rect.x)
            (row * stride + min (rect.x + rect.width) stride) color) pixels := by
    intro pixels hlength
    unfold fillRect
    dsimp only
    rw [hlength, Nat.mul_div_cancel _ hstride, hx1, hy1]
  have hok : (∀ row ∈ List.range' rect.y (min (rect.y + rect.height) rows - rect.y),
      rect.x ≤ stride) ↔ (rect.y < min (rect.y + rect.height) rows → rect.x ≤ stride) := by
    constructor
    · exact fun h hy => h rect.y (mem_range'_1.2 ⟨Nat.le_refl _, by omega⟩)
    · intro h row hmem
      obtain ⟨hlow, hhigh⟩ := mem_range'_1.1 hmem
      exact h (by omega)
  exact (hall.mono hok fun i hi => hi).congr hlist

end Rectangles

/-! ## Texts -/

/-- The pixels of a glyph. -/
def lit (x y : Nat) (character : Char) : List (Nat × Nat) :=
  (glyph character).zipIdx.flatMap fun line =>
    line.1.toList.zipIdx.filterMap fun bit =>
      if bit.1 = '1' then some (x + bit.2, y + line.2) else none

/-- The pixels of a text. -/
def litText (x y : Nat) : List Char → List (Nat × Nat)
  | [] => []
  | character :: text => lit x y character ++ litText (x + 6) y text

/-- Every glyph is seven lines of five pixels. -/
theorem glyph_size (character : Char) :
    (glyph character).length = 7 ∧ ∀ line ∈ glyph character, line.toList.length = 5 := by
  unfold glyph
  split <;> decide

theorem lit_bounds {x y : Nat} {character : Char} {p : Nat × Nat} (h : p ∈ lit x y character) :
    p.1 ≤ x + 4 ∧ y ≤ p.2 ∧ p.2 < y + 7 := by
  obtain ⟨line, hline, hp⟩ := mem_flatMap.1 h
  obtain ⟨bit, hbit, hsome⟩ := mem_filterMap.1 hp
  obtain ⟨hlines, hbits⟩ := glyph_size character
  obtain ⟨-, hrow, hmem⟩ := mem_zipIdx hline
  obtain ⟨-, hcolumn, -⟩ := mem_zipIdx hbit
  have hfive : line.1.toList.length = 5 := hbits line.1 (hmem ▸ getElem_mem _)
  split at hsome
  · cases hsome
    dsimp only
    omega
  · cases hsome

theorem litText_bounds {x y : Nat} {text : List Char} {p : Nat × Nat} (h : p ∈ litText x y text) :
    p.1 + 2 ≤ x + 6 * text.length ∧ y ≤ p.2 ∧ p.2 < y + 7 := by
  induction text generalizing x with
  | nil => exact absurd h not_mem_nil
  | cons character text ih =>
    rw [length_cons]
    rcases mem_append.1 h with hfirst | hrest
    · have := lit_bounds hfirst
      omega
    · have := ih hrest
      omega

section Texts

variable {stride rows : Nat}

/-- A pixel that is drawn if its row is in the window. -/
def Shown (stride rows : Nat) (p : Nat × Nat) : Prop := p.2 < rows → p.1 ≤ stride

/-- The lines of text from `y` on. -/
def textRegion (stride y : Nat) (i : Nat) : Prop := y ≤ i / stride ∧ i / stride < y + 7

theorem paints_drawGlyph (hstride : 0 < stride) (hwide : stride ≤ maxU32) (hrows : rows ≤ maxU32)
    (x y : Nat) (character : Char) (color : UInt32) :
    Paints (rows * stride) (∀ p ∈ lit x y character, Shown stride rows p) (textRegion stride y)
      fun pixels => drawGlyph pixels stride x y character color := by
  have hbit (line : String × Nat) (hline : line ∈ (glyph character).zipIdx) :
      ∀ bit ∈ line.1.toList.zipIdx,
      Paints (rows * stride) (bit.1 = '1' → Shown stride rows (x + bit.2, y + line.2))
        (textRegion stride y) fun pixels =>
          if bit.1 = '1' then fillRect pixels stride ⟨x + bit.2, y + line.2, 1, 1⟩ color
          else some pixels := by
    intro bit hbit
    have hline7 := (glyph_size character).1
    obtain ⟨-, hrow, -⟩ := mem_zipIdx hline
    by_cases hone : bit.1 = '1'
    · simp only [if_pos hone]
      refine (paints_fillRect hstride hwide hrows ⟨x + bit.2, y + line.2, 1, 1⟩ color).mono ?_ ?_
      · unfold Shown
        dsimp only
        constructor
        · exact fun h _ hy => h (by omega)
        · exact fun h hy => h hone (by omega)
      · intro i hi
        unfold textRegion
        dsimp only at hi
        omega
    · simp only [if_neg hone]
      exact paints_some.mono (by simp [hone]) fun i hi => hi
  refine (Paints.foldlM fun line hline => Paints.foldlM (hbit line hline)).mono ?_ fun i hi => hi
  unfold lit
  simp only [mem_flatMap, mem_filterMap, forall_exists_index, and_imp]
  constructor
  · intro h p line hline bit hbit hsome
    split at hsome
    · next hone =>
      cases hsome
      exact h line hline bit hbit hone
    · cases hsome
  · intro h line hline bit hbit hone
    exact h _ line hline bit hbit (if_pos hone)

theorem paints_drawText (hstride : 0 < stride) (hwide : stride ≤ maxU32) (hrows : rows ≤ maxU32)
    (x y : Nat) (text : List Char) (color : UInt32) :
    Paints (rows * stride) (∀ p ∈ litText x y text, Shown stride rows p) (textRegion stride y)
      fun pixels => drawText pixels stride x y text color := by
  induction text generalizing x with
  | nil => exact paints_some.mono (by simp [litText]) fun i hi => hi
  | cons character text ih =>
    have hboth := (paints_drawGlyph hstride hwide hrows x y character color).bind (ih (x + 6))
    refine hboth.mono ?_ fun i hi => hi
    simp only [litText, forall_mem_append]

end Texts

/-! ## The toolbar -/

section Toolbar

variable {stride rows : Nat}

/-- The rows of the toolbar. -/
def toolbarRegion (stride : Nat) (i : Nat) : Prop := i / stride < toolbarHeight

theorem paints_toolbarButton (hstride : 0 < stride) (hwide : stride ≤ maxU32)
    (hrows : rows ≤ maxU32) (rect : Rect) (label : String) (active : Bool)
    (hrect : rect.y + rect.height ≤ toolbarHeight) (htext : rect.y + 17 ≤ toolbarHeight) :
    Paints (rows * stride)
      ((rect.y < min (rect.y + rect.height) rows → rect.x ≤ stride) ∧
        ∀ p ∈ litText (rect.x + 8) (rect.y + 10) label.toList, Shown stride rows p)
      (toolbarRegion stride) fun pixels => toolbarButton pixels stride rect label active := by
  have hfill := paints_fillRect hstride hwide hrows rect
    (if active then 0x003b82f6 else 0x00303745)
  have hlabel := paints_drawText hstride hwide hrows (rect.x + 8) (rect.y + 10) label.toList
    0x00f3f4f6
  refine Paints.bind (hfill.mono Iff.rfl fun i hi => ?_) (hlabel.mono Iff.rfl fun i hi => ?_)
  · exact Nat.lt_of_lt_of_le hi.2 hrect
  · unfold textRegion at hi
    unfold toolbarRegion
    omega

/-- A window with room for the toolbar: it ends above the buttons, or above their texts and right of
where the last one starts, or it has all of them. One row of the text `INPUT GRAB` is a pixel shorter
than the others. -/
def Roomy (width height : Nat) (grabbed : Bool) : Prop :=
  height ≤ 5 ∨ (height ≤ 15 ∧ 406 ≤ width) ∨ (height = 16 ∧ grabbed = true ∧ 471 ≤ width) ∨
    472 ≤ width

variable {grabbed : Bool}

theorem Roomy.button (h : Roomy stride rows grabbed) {x : Nat} (hx : x ≤ 406) :
    5 < min 33 rows → x ≤ stride := by
  intro hrows
  rcases h with h | h | h | h <;> omega

/-- A text that ends left of the last pixels. -/
theorem Roomy.text (h : Roomy stride rows grabbed) {x : Nat} {text : List Char}
    (hx : x + 6 * text.length ≤ 473) : ∀ p ∈ litText x 15 text, Shown stride rows p := by
  intro p hp hrows
  have hbounds := litText_bounds hp
  rcases h with h | h | h | h <;> omega

theorem Roomy.grab (h : Roomy stride rows grabbed) :
    ∀ p ∈ litText 414 15 (grabLabel grabbed).toList, Shown stride rows p := by
  intro p hp hrows
  have hbounds := litText_bounds hp
  have hlength : (grabLabel grabbed).toList.length = 10 := by cases grabbed <;> rfl
  rcases h with h | h | ⟨hheight, hgrabbed, hwidth⟩ | h
  · omega
  · omega
  · have hshort : ∀ p ∈ litText 414 15 (grabLabel true).toList, p.2 = 15 → p.1 ≤ 471 := by
      decide +kernel
    rw [hgrabbed] at hp
    exact Nat.le_trans (hshort p hp (by omega)) hwidth
  · omega

theorem roomy_of_grab (hbutton : 5 < min 33 rows → 406 ≤ stride)
    (h : ∀ p ∈ litText 414 15 (grabLabel grabbed).toList, Shown stride rows p) :
    Roomy stride rows grabbed := by
  unfold Roomy
  cases grabbed with
  | false =>
    have hlast : (472, 15) ∈ litText 414 15 (grabLabel false).toList := by decide +kernel
    have hshown : 15 < rows → 472 ≤ stride := h _ hlast
    simp only [Bool.false_eq_true, false_and, and_false, false_or]
    omega
  | true =>
    have hfirst : (471, 15) ∈ litText 414 15 (grabLabel true).toList := by decide +kernel
    have hsecond : (472, 16) ∈ litText 414 15 (grabLabel true).toList := by decide +kernel
    have hshown : 15 < rows → 471 ≤ stride := h _ hfirst
    have hshown' : 16 < rows → 472 ≤ stride := h _ hsecond
    simp only [true_and]
    omega

theorem length_sizeLabel (screenSize : Fin screenSizes.length) :
    (sizeLabel (screenSizes.get screenSize)).toList.length ≤ 14 := by
  revert screenSize
  decide +kernel

theorem length_scaleLabel (scale : ScaleMode) : (scaleLabel scale).toList.length ≤ 17 := by
  cases scale with
  | fit => decide
  | percent value =>
    have hdigits := length_toString (n := value.toNat) (k := 10)
      (Nat.lt_trans value.toNat_lt (by decide)) (by decide)
    have hfront : "SCALE ".toList.length = 6 := rfl
    have hback : "%".toList.length = 1 := rfl
    simp only [scaleLabel, ScaleMode.label, String.toList_append, length_append]
    omega

theorem paints_drawToolbar (hstride : 0 < stride) (hwide : stride ≤ maxU32)
    (hrows : rows ≤ maxU32) (screenSize : Fin screenSizes.length) (scale : ScaleMode)
    (resizeGuest grabbed : Bool) :
    Paints (rows * stride) (Roomy stride rows grabbed) (toolbarRegion stride) fun pixels =>
      drawToolbar pixels stride screenSize scale resizeGuest grabbed := by
  have hground := paints_fillRect hstride hwide hrows ⟨0, 0, stride, toolbarHeight⟩ 0x00111827
  have hsize := paints_toolbarButton hstride hwide hrows ⟨8, 5, 152, 28⟩
    (sizeLabel (screenSizes.get screenSize)) false (by decide) (by decide)
  have hscale := paints_toolbarButton hstride hwide hrows ⟨168, 5, 118, 28⟩ (scaleLabel scale)
    (scale ≠ .fit) (by decide) (by decide)
  have hresize := paints_toolbarButton hstride hwide hrows ⟨294, 5, 104, 28⟩
    (resizeLabel resizeGuest) resizeGuest (by decide) (by decide)
  have hgrab := paints_toolbarButton hstride hwide hrows ⟨406, 5, 116, 28⟩ (grabLabel grabbed)
    grabbed (by decide) (by decide)
  have hrelease : Paints (rows * stride) True (toolbarRegion stride) fun pixels =>
      if 690 < stride then
        drawText pixels stride 538 15 "RELEASE CTRL+ALT+G".toList 0x009ca3af
      else some pixels := by
    by_cases hlong : 690 < stride
    · simp only [if_pos hlong]
      refine (paints_drawText hstride hwide hrows 538 15 _ _).mono ?_ fun i hi => ?_
      · refine iff_true_intro fun p hp _ => ?_
        have hbounds := litText_bounds hp
        have hlength : "RELEASE CTRL+ALT+G".toList.length = 18 := by decide
        omega
      · unfold textRegion at hi
        unfold toolbarRegion toolbarHeight
        omega
    · simp only [if_neg hlong]
      exact paints_some
  have hground' : Paints (rows * stride) (0 < min (0 + toolbarHeight) rows → 0 ≤ stride)
      (toolbarRegion stride) _ := hground.mono Iff.rfl fun i hi => by
    have hrow : i / stride < 0 + toolbarHeight := hi.2
    rwa [Nat.zero_add] at hrow
  refine (hground'.bind (hsize.bind (hscale.bind (hresize.bind (hgrab.bind hrelease))))).mono ?_
    fun i hi => hi
  constructor
  · rintro ⟨-, -, -, -, ⟨hbutton, htext⟩, -⟩
    exact roomy_of_grab hbutton htext
  · intro hroomy
    have hresizeLength : (resizeLabel resizeGuest).toList.length ≤ 8 := by
      cases resizeGuest <;> decide
    have hsizeLength := length_sizeLabel screenSize
    have hscaleLength := length_scaleLabel scale
    exact ⟨fun _ => Nat.zero_le _, ⟨hroomy.button (by decide), hroomy.text (x := 16) (by omega)⟩,
      ⟨hroomy.button (by decide), hroomy.text (x := 176) (by omega)⟩,
      ⟨hroomy.button (by decide), hroomy.text (x := 302) (by omega)⟩,
      ⟨hroomy.button (by decide), hroomy.grab⟩, trivial⟩

end Toolbar

end MachineEmu.Viewer
