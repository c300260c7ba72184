import Mathlib.Data.List.DropRight
import Mathlib.Data.List.TakeWhile
import Perimeter.Grid
import Perimeter.Proofs.Raster.Layouts
import Perimeter.Proofs.Raster.Safety

/-!
# Grids that are read back

A picture that was written as a grid of characters is read back as it was, also when its lines were
indented together, have blanks at their ends and stand between blank lines. Each step of reading undoes
one of these: the blank lines go first, what the remaining lines have in common is the indentation, and
a row ends with its last character, since no row holds a blank.
-/

namespace Perimeter

namespace Grid

/-- How a grid is set into a text. -/
structure Setting where
  /-- What stands in front of every row. -/
  indent : String
  /-- What stands behind a row. -/
  trailing : Nat → String
  /-- The lines above the grid. -/
  before : List String
  /-- The lines below the grid. -/
  after : List String
  padding_indent : ∀ c ∈ indent.toList, isPadding c = true
  padding_trailing : ∀ y, ∀ c ∈ (trailing y).toList, isPadding c = true
  padding_before : ∀ l ∈ before, ∀ c ∈ l.toList, isPadding c = true
  padding_after : ∀ l ∈ after, ∀ c ∈ l.toList, isPadding c = true

/-- A grid on its own, with a line feed behind every row. -/
def Setting.plain : Setting where
  indent := ""
  trailing _ := ""
  before := []
  after := [""]
  padding_indent := by simp
  padding_trailing := by simp
  padding_before := by simp
  padding_after := by simp

/-- The lines of a text with the grid of a picture. -/
def Setting.lines (s : Setting) (p : Picture) : List String :=
  s.before ++ p.rows.zipIdx.map (fun (row, y) => s.indent ++ row ++ s.trailing y) ++ s.after

/-- The text with the grid of a picture. -/
def Setting.text (s : Setting) (p : Picture) : String := "\n".intercalate (s.lines p)

/-- On its own the grid of a picture is the picture as text. -/
theorem text_plain (p : Picture) : Setting.plain.text p = p.render := by
  -- The empty line at the end stands for the line feed behind the last row.
  have hlines : Setting.plain.lines p = p.rows ++ [""] := by
    rw [Setting.lines]
    simp [Setting.plain]
  have hjoin : ∀ rows : List (List Char),
      ['\n'].intercalate (rows ++ [[]]) = rows.flatMap (· ++ ['\n']) := by
    intro rows
    induction rows with
    | nil => rfl
    | cons row rest ih =>
      rw [List.flatMap_cons, ← ih, List.cons_append,
        List.intercalate_cons_of_ne_nil (List.append_ne_nil_of_right_ne_nil rest (List.cons_ne_nil _ _))]
  rw [Setting.text, hlines, Picture.render, ← String.toList_inj, String.toList_intercalate,
    String.toList_join, List.map_append, List.flatMap_map]
  refine (hjoin _).trans ?_
  rw [List.flatMap_map]
  simp

/-! ## Lines -/

theorem isBlank_of_isPadding {c : Char} (h : isPadding c = true) : Text.isBlank c = true := by
  simp only [isPadding, Bool.or_eq_true, beq_iff_eq] at h
  rcases h with rfl | rfl <;> decide

theorem ne_newline_of_isPadding {c : Char} (h : isPadding c = true) : c ≠ '\n' := by
  rintro rfl
  cases h

theorem splitLines_eq_splitOn (s : List Char) : splitLines s = s.splitOn '\n' := by
  induction s with
  | nil => rfl
  | cons c s ih =>
    rw [splitLines, List.splitOn_cons_eq_if_modifyHead, ih]
    cases h : s.splitOn '\n' with
    | nil => exact absurd h (List.splitOn_ne_nil _ _)
    | cons l ls => rfl

/-- What fails the test stays when those behind it are dropped. -/
theorem rdropWhile_append_eq {α : Type} {q : α → Bool} {l after : List α}
    (hafter : ∀ a ∈ after, q a = true) (hl : ∀ a ∈ l, q a = false) :
    (l ++ after).rdropWhile q = l := by
  rw [List.rdropWhile, List.reverse_append, List.dropWhile_append_of_pos (by simpa using hafter),
    List.dropWhile_eq_self_iff.2 ?_, List.reverse_reverse]
  intro hpos
  rw [hl _ (List.mem_reverse.1 (List.getElem_mem hpos))]
  exact Bool.false_ne_true

/-- Blank lines around others are dropped. -/
theorem trimLines_append {before lines after : List (List Char)}
    (hbefore : ∀ l ∈ before, l.all Text.isBlank = true) (hafter : ∀ l ∈ after, l.all Text.isBlank = true)
    (hlines : ∀ l ∈ lines, l.all Text.isBlank = false) (hne : lines ≠ []) :
    trimLines (before ++ lines ++ after) = lines := by
  have hfront : (before ++ (lines ++ after)).dropWhile (fun l => l.all Text.isBlank) =
      lines ++ after := by
    rw [List.dropWhile_append_of_pos hbefore]
    obtain ⟨l, rest, rfl⟩ := List.exists_cons_of_ne_nil hne
    rw [List.cons_append, List.dropWhile_cons, hlines l List.mem_cons_self]
    rfl
  have hback : (lines ++ after).rdropWhile (fun l => l.all Text.isBlank) = lines :=
    rdropWhile_append_eq hafter hlines
  simp only [trimLines]
  rw [List.append_assoc, hfront]
  exact hback

/-! ## Rows -/

variable {p : Picture} {indent trailing row : List Char}

/-- The characters of a row of a picture. -/
def rowChars (p : Picture) (y : Nat) : List Char :=
  (List.range p.width.toNat).map fun (x : Nat) => if p.isInk x y then '#' else '.'

theorem length_rowChars (p : Picture) (y : Nat) : (rowChars p y).length = p.width.toNat := by
  rw [rowChars, List.length_map, List.length_range]

theorem rowChars_ne_nil (hw : 1 ≤ p.width) (y : Nat) : rowChars p y ≠ [] := by
  rw [← List.length_pos_iff, length_rowChars]
  omega

/-- A row holds no white space, and each of its characters takes one column. -/
theorem of_mem_rowChars {y : Nat} {c : Char} (h : c ∈ rowChars p y) :
    Text.isBlank c = false ∧ c.utf8Size = 1 := by
  obtain ⟨x, -, rfl⟩ := List.mem_map.1 h
  split <;> decide

theorem isPadding_eq_false {c : Char} (h : Text.isBlank c = false) : isPadding c = false := by
  by_contra hpadding
  rw [Bool.not_eq_false] at hpadding
  rw [isBlank_of_isPadding hpadding] at h
  cases h

/-- A line with a row is not blank. -/
theorem all_isBlank_line (hne : row ≠ []) (hrow : ∀ c ∈ row, Text.isBlank c = false) :
    (indent ++ row ++ trailing).all Text.isBlank = false := by
  obtain ⟨c, rest, rfl⟩ := List.exists_cons_of_ne_nil hne
  simp [hrow c List.mem_cons_self]

/-- The indentation of a line ends where its row begins. -/
theorem indentOf?_line (hindent : ∀ c ∈ indent, isPadding c = true) (hne : row ≠ [])
    (hrow : ∀ c ∈ row, Text.isBlank c = false) :
    indentOf? (indent ++ row ++ trailing) = some indent.length := by
  obtain ⟨c, rest, rfl⟩ := List.exists_cons_of_ne_nil hne
  have hc := isPadding_eq_false (hrow c List.mem_cons_self)
  have hall : (indent ++ (c :: rest ++ trailing)).all isPadding = false := by simp [hc]
  have hfront : (indent ++ (c :: rest ++ trailing)).takeWhile isPadding = indent := by
    rw [List.takeWhile_append_of_pos hindent, List.cons_append, List.takeWhile_cons, hc]
    simp
  rw [List.append_assoc, indentOf?, hall, hfront]
  rfl

/-- Cutting a line off its indentation and the blanks at its end leaves the row. -/
theorem body_line (htrailing : ∀ c ∈ trailing, isPadding c = true)
    (hrow : ∀ c ∈ row, Text.isBlank c = false) :
    body indent.length (indent ++ row ++ trailing) = row := by
  have hcut : (row ++ trailing).rdropWhile isPadding = row :=
    rdropWhile_append_eq htrailing fun c hc => isPadding_eq_false (hrow c hc)
  rw [body, List.append_assoc, List.drop_left]
  exact hcut

/-- The characters of the lines of a text with a grid. -/
theorem map_toList_lines (s : Setting) (p : Picture) :
    (s.lines p).map String.toList =
      s.before.map String.toList ++
        (List.range p.height.toNat).map
          (fun y => s.indent.toList ++ rowChars p y ++ (s.trailing y).toList) ++
        s.after.map String.toList := by
  rw [Setting.lines, List.map_append, List.map_append, List.map_map]
  congr 2
  refine List.ext_getElem (by simp [Picture.rows]) fun y hy hy' => ?_
  simp [Picture.rows, rowChars]

/-- A text with a grid has the lines that were put into it. -/
theorem splitLines_text (s : Setting) (hh : 1 ≤ p.height) :
    splitLines (s.text p).toList = (s.lines p).map String.toList := by
  have hsep : "\n".toList = ['\n'] := rfl
  have hpadding : ∀ l : List Char, (∀ c ∈ l, isPadding c = true) → '\n' ∉ l :=
    fun l hl hmem => ne_newline_of_isPadding (hl _ hmem) rfl
  rw [splitLines_eq_splitOn, Setting.text, String.toList_intercalate, hsep, map_toList_lines]
  refine List.splitOn_intercalate _ ?_ ?_
  · intro l hl
    simp only [List.mem_append, List.mem_map] at hl
    rcases hl with (⟨b, hb, rfl⟩ | ⟨y, -, rfl⟩) | ⟨a, ha, rfl⟩
    · exact hpadding _ (s.padding_before b hb)
    · simp only [List.mem_append, not_or]
      refine ⟨⟨hpadding _ s.padding_indent, fun hmem => ?_⟩, hpadding _ (s.padding_trailing y)⟩
      have hblank := (of_mem_rowChars hmem).1
      revert hblank
      decide
    · exact hpadding _ (s.padding_after a ha)
  · have hpos : (List.range p.height.toNat) ≠ [] := by
      rw [← List.length_pos_iff, List.length_range]
      omega
    simp [hpos]

/-- What is left of a text with a grid are the rows. -/
theorem bodies_text (s : Setting) (hw : 1 ≤ p.width) (hh : 1 ≤ p.height) :
    bodies (s.text p) = (List.range p.height.toNat).map (rowChars p) := by
  have hpos : 0 < p.height.toNat := by omega
  have hblank : ∀ l : List Char, (∀ c ∈ l, isPadding c = true) → l.all Text.isBlank = true :=
    fun l hl => List.all_eq_true.2 fun c hc => isBlank_of_isPadding (hl c hc)
  have hrow : ∀ y, ∀ c ∈ rowChars p y, Text.isBlank c = false := fun y c hc => (of_mem_rowChars hc).1
  have htrim : trimLines (splitLines (s.text p).toList) =
      (List.range p.height.toNat).map
        fun y => s.indent.toList ++ rowChars p y ++ (s.trailing y).toList := by
    rw [splitLines_text s hh, map_toList_lines]
    refine trimLines_append ?_ ?_ ?_ ?_
    · exact List.forall_mem_map.2 fun b hb => hblank _ (s.padding_before b hb)
    · exact List.forall_mem_map.2 fun a ha => hblank _ (s.padding_after a ha)
    · exact List.forall_mem_map.2 fun y _ => all_isBlank_line (rowChars_ne_nil hw y) (hrow y)
    · simpa using hpos.ne'
  -- All rows are indented alike, so what they have in common is all of the indentation.
  have hindent : indent ((List.range p.height.toNat).map
      fun y => s.indent.toList ++ rowChars p y ++ (s.trailing y).toList) = s.indent.toList.length := by
    rw [indent, List.filterMap_map]
    simp only [Function.comp_def, indentOf?_line s.padding_indent (rowChars_ne_nil hw _) (hrow _)]
    have hsame : (List.range p.height.toNat).filterMap (fun _ => some s.indent.toList.length) =
        List.replicate p.height.toNat s.indent.toList.length := by
      rw [← Function.comp_def some, List.filterMap_eq_map, List.map_const', List.length_range]
    rw [hsame, List.min?_replicate_of_pos hpos, Option.getD_some]
  simp only [bodies, htrim, hindent, List.map_map]
  refine List.map_congr_left fun y _ => ?_
  exact body_line (s.padding_trailing y) (hrow y)

/-! ## Columns -/

theorem columns_eq_length {l : List Char} (h : ∀ c ∈ l, c.utf8Size = 1) : columns l = l.length := by
  induction l with
  | nil => rfl
  | cons c l ih =>
    have hrest := ih fun d hd => h d (List.mem_cons_of_mem _ hd)
    rw [columns] at hrest ⊢
    rw [List.foldr_cons, hrest, h c List.mem_cons_self, List.length_cons, Nat.add_comm]

theorem inkColumns_eq_map {l : List Char} (h : ∀ c ∈ l, c.utf8Size = 1) :
    inkColumns l = l.map isInkChar := by
  induction l with
  | nil => rfl
  | cons c l ih =>
    have hrest := ih fun d hd => h d (List.mem_cons_of_mem _ hd)
    rw [inkColumns] at hrest ⊢
    rw [List.flatMap_cons, hrest, h c List.mem_cons_self]
    rfl

theorem inkColumns_rowChars (p : Picture) (y : Nat) :
    inkColumns (rowChars p y) = (List.range p.width.toNat).map fun (x : Nat) => p.isInk x y := by
  rw [inkColumns_eq_map fun c hc => (of_mem_rowChars hc).2, rowChars, List.map_map]
  refine List.map_congr_left fun x _ => ?_
  simp only [Function.comp_apply]
  cases p.isInk x y <;> rfl

/-- A raster is drawn by what its pixels are. -/
theorem ofInk_congr {w h : Int} {ink ink' : Int → Int → Bool}
    (hink : ∀ x < w.toNat, ∀ y < h.toNat, ink x y = ink' x y) :
    Raster.ofInk w h ink = .ofInk w h ink' := by
  have hpixel : ∀ k : Fin (w.toNat * h.toNat), ink (k.val % w.toNat : Nat) (k.val / w.toNat : Nat) =
      ink' (k.val % w.toNat : Nat) (k.val / w.toNat : Nat) := by
    intro k
    have hpos : 0 < w.toNat := Nat.pos_of_mul_pos_right (Nat.zero_lt_of_lt k.isLt)
    exact hink _ (Nat.mod_lt _ hpos) _ (Nat.div_lt_of_lt_mul k.isLt)
  simp only [Raster.ofInk, hpixel]

/-- The raster that is read from a text with a grid is drawn from the picture. -/
theorem parse_text_eq (s : Setting) (hw : 1 ≤ p.width) (hh : 1 ≤ p.height) :
    parse (s.text p) = .ofInk p.width p.height p.isInk := by
  have hcolumns : ((List.range p.height.toNat).map (columns ∘ rowChars p)).max?.getD 0 =
      p.width.toNat := by
    have hsame : columns ∘ rowChars p = fun _ => p.width.toNat := by
      funext y
      rw [Function.comp_apply, columns_eq_length fun c hc => (of_mem_rowChars hc).2, length_rowChars]
    have hpos : p.height.toNat ≠ 0 := by omega
    rw [hsame, List.map_const', List.length_range, List.max?_replicate, if_neg hpos, Option.getD_some]
  have hwidth : ((p.width.toNat : Nat) : Int) = p.width := Int.toNat_of_nonneg (by omega)
  have hheight : ((p.height.toNat : Nat) : Int) = p.height := Int.toNat_of_nonneg (by omega)
  simp only [parse, bodies_text s hw hh, List.map_map, hcolumns, List.length_map, List.length_range,
    hwidth, hheight]
  refine ofInk_congr fun x hx y hy => ?_
  simp [inkColumns_rowChars, hx, hy]

/-- A raster that was written as a grid is read back with its size and its pixels, whatever the grid was
set into: an indentation, blanks at the ends of the lines, blank lines above and below. On its own a
grid is what the raster renders as. -/
theorem parse_text {r : Raster} (hr : r.Covered) (hw : 1 ≤ r.width) (hh : 1 ≤ r.height) (s : Setting) :
    let read := parse (s.text r.picture)
    read.width = r.width ∧ read.height = r.height ∧
      (∀ x y, ∃ ink, r.get x y = .ok ink ∧ read.get x y = .ok ink) ∧
      Setting.plain.text r.picture = r.picture.render := by
  have hread : parse (s.text r.picture) = .ofInk r.width r.height r.picture.isInk :=
    parse_text_eq s hw hh
  -- Reading makes a new raster of one byte a pixel, whatever the layout of the one that was written.
  have hshows : (Raster.ofInk r.width r.height r.picture.isInk).Shows
      ⟨r.width, r.height, r.picture.isInk⟩ :=
    Raster.shows_ofInk (p := ⟨r.width, r.height, r.picture.isInk⟩) (by dsimp only; omega)
      (by dsimp only; omega) (hr.fits (by omega) hh)
  rw [hread]
  refine ⟨hshows.width, hshows.height, fun x y => ?_, text_plain r.picture⟩
  obtain ⟨ink, hink⟩ := Raster.exists_get_iff.2 hr.holds_index
  refine ⟨ink, hink, ?_⟩
  rw [hshows.get_eq, ← Raster.isInk_picture hink]
  exact congrArg Except.ok (Bool.and_self_left (decide (r.picture.Contains x y)) (r.picture.ink x y))

/-- Packed bits with ink in the padding, behind a tab and a blank, with blanks at the ends of the
lines. -/
theorem parse_text_indented :
    let r : Raster := ⟨.bits, #[253, 245], 9, 3, 2⟩
    let s : Setting :=
      { indent := "\t "
        trailing := fun _ => " \t"
        before := ["", " "]
        after := ["\t", ""]
        padding_indent := by simp [isPadding]
        padding_trailing := by simp [isPadding]
        padding_before := by simp [isPadding]
        padding_after := by simp [isPadding] }
    (r.Covered ∧ 1 ≤ r.width ∧ 1 ≤ r.height ∧
      s.text r.picture = "\n \n\t #.# \t\n\t .#. \t\n\t\n") ∧
      (parse (s.text r.picture)).width = 3 ∧ (parse (s.text r.picture)).height = 2 ∧
      ∀ x y, ∃ ink, r.get x y = .ok ink ∧ (parse (s.text r.picture)).get x y = .ok ink := by
  intro r s
  have hr : r.Covered := by decide
  obtain ⟨hwidth, hheight, hget, -⟩ := parse_text hr (by decide) (by decide) s
  exact ⟨⟨hr, by decide, by decide, by decide +kernel⟩, hwidth, hheight, hget⟩

end Grid

end Perimeter
