import Mathlib.Data.Int.CardIntervalMod
import Perimeter.Proofs.Blob.Find
import Perimeter.Proofs.Raster.Layouts
import Perimeter.Proofs.Region.Lines
import Perimeter.Shape

/-!
# Checkerboards

On a checkerboard of at least two columns and two rows diagonal steps lead from the first pixel to all of
the ink, so the board is one component. A board of a single column or row has no diagonals: every ink
pixel is a component of its own.
-/

namespace Perimeter.Shape

variable {p : Picture} {w h : Int} {b c : Point}

/-- The picture is a checkerboard of this size. -/
structure IsCheckerboard (p : Picture) (w h : Int) : Prop where
  columns : 1 ≤ w
  rows : 1 ≤ h
  width : p.width = w
  height : p.height = h
  ink : ∀ b, p.inkAt b = true ↔ p.Contains b.x b.y ∧ (b.x + b.y) % 2 = 0

namespace IsCheckerboard

theorem contains_iff (hp : IsCheckerboard p w h) :
    p.Contains b.x b.y ↔ 0 ≤ b.x ∧ 0 ≤ b.y ∧ b.x < w ∧ b.y < h := by
  rw [Picture.Contains, hp.width, hp.height]

/-! ## Boards with diagonals -/

/-- A diagonal step inside the board from ink to ink. -/
theorem linked (hp : IsCheckerboard p w h) (hb : p.Contains b.x b.y) (hc : p.Contains c.x c.y)
    (heven : (b.x + b.y) % 2 = 0) (hdx : (c.x - b.x).natAbs = 1) (hdy : (c.y - b.y).natAbs = 1) :
    p.Linked b c := by
  have hshade : p.Shade true b := ⟨hb, (hp.ink b).2 ⟨hb, heven⟩⟩
  have hshade' : p.Shade true c := ⟨hc, (hp.ink c).2 ⟨hc, by omega⟩⟩
  refine hshade.linked hshade' ?_
  simp only [Point.Touches, if_true]
  omega

/-- Diagonal steps lead from the first pixel to all of the ink. Along the first row and the first column
they go by the second one. -/
theorem joined_corner (hp : IsCheckerboard p w h) (hw : 2 ≤ w) (hh : 2 ≤ h) (x y : Nat) (hx : x < w)
    (hy : y < h) (heven : (x + y) % 2 = 0) : p.Joined ⟨0, 0⟩ ⟨x, y⟩ := by
  have hstep : ∀ b c : Point, (0 ≤ b.x ∧ 0 ≤ b.y ∧ b.x < w ∧ b.y < h) →
      (0 ≤ c.x ∧ 0 ≤ c.y ∧ c.x < w ∧ c.y < h) → (b.x + b.y) % 2 = 0 → (c.x - b.x).natAbs = 1 →
      (c.y - b.y).natAbs = 1 → p.Joined b c :=
    fun b c hb hc h₁ h₂ h₃ => .single (hp.linked (hp.contains_iff.2 hb) (hp.contains_iff.2 hc) h₁ h₂ h₃)
  -- The induction is on the sum of column and row, and each case comes from one less by two.
  match x, y with
  | 0, 0 => exact .refl
  | 1, 0 => omega
  | 0, 1 => omega
  | x + 1, y + 1 =>
    refine (hp.joined_corner hw hh x y (by omega) (by omega) (by omega)).trans (hstep _ _ ?_ ?_ ?_ ?_ ?_)
    all_goals dsimp only; omega
  | x + 2, 0 =>
    refine (hp.joined_corner hw hh x 0 (by omega) (by omega) (by omega)).trans
      ((hstep _ ⟨(x + 1 : Nat), 1⟩ ?_ ?_ ?_ ?_ ?_).trans (hstep _ _ ?_ ?_ ?_ ?_ ?_))
    all_goals dsimp only; omega
  | 0, y + 2 =>
    refine (hp.joined_corner hw hh 0 y (by omega) (by omega) (by omega)).trans
      ((hstep _ ⟨1, (y + 1 : Nat)⟩ ?_ ?_ ?_ ?_ ?_).trans (hstep _ _ ?_ ?_ ?_ ?_ ?_))
    all_goals dsimp only; omega
termination_by x + y

/-- The first pixel is ink, and no pixel comes before it. -/
theorem isFirst_corner (hp : IsCheckerboard p w h) : p.IsFirst ⟨0, 0⟩ := by
  have hcols := hp.columns
  have hrows := hp.rows
  have hcorner : p.Contains 0 0 := hp.contains_iff (b := ⟨0, 0⟩) |>.2 (by dsimp only; omega)
  refine ⟨hcorner, fun b hb => ?_⟩
  have hin := hp.contains_iff.1 (Picture.Joined.contains hb hcorner)
  obtain ⟨x, y⟩ := b
  simp only [Point.Before, Point.mk.injEq] at hin ⊢
  omega

theorem firsts_of_diagonals (hp : IsCheckerboard p w h) (hw : 2 ≤ w) (hh : 2 ≤ h) :
    p.firsts true = [⟨0, 0⟩] := by
  refine Picture.firsts_eq (List.pairwise_singleton _ _) ?_ ?_
  · rw [List.forall_mem_singleton]
    exact ⟨(hp.ink _).2 ⟨hp.isFirst_corner.contains, rfl⟩, hp.isFirst_corner⟩
  · intro b hb hink
    refine ⟨_, List.mem_singleton_self _, ?_⟩
    obtain ⟨hx, hy, hxw, hyh⟩ := hp.contains_iff.1 hb
    have heven := ((hp.ink b).1 hink).2
    obtain ⟨x, y⟩ := b
    lift x to Nat using hx
    lift y to Nat using hy
    dsimp only at heven
    exact hp.joined_corner hw hh x y hxw hyh (by omega)

/-! ## Boards without -/

/-- Without diagonals no two pixels of ink touch. -/
theorem region_of_thin (hp : IsCheckerboard p w h) (hthin : w = 1 ∨ h = 1) (hink : p.inkAt b = true) :
    p.region b = {b} := by
  refine Picture.region_eq rfl (fun c hc => hc ▸ .refl) ?_
  rintro _ rfl c hlink
  have htouches := hlink.touches
  rw [hink] at htouches
  obtain ⟨hb, heven⟩ := (hp.ink _).1 hink
  obtain ⟨hc, heven'⟩ := (hp.ink c).1 (hlink.colour.trans hink)
  rw [hp.contains_iff] at hb hc
  rename_i b
  obtain ⟨x, y⟩ := b
  obtain ⟨x', y'⟩ := c
  simp only [Point.Touches, if_true, Set.mem_singleton_iff, Point.mk.injEq] at *
  omega

theorem firsts_of_thin (hp : IsCheckerboard p w h) (hthin : w = 1 ∨ h = 1) :
    p.firsts true = p.pixels.filter p.inkAt := by
  refine Picture.firsts_eq (p.pairwise_before_pixels.sublist List.filter_sublist) ?_ ?_
  · intro b hb
    have hink := (List.mem_filter.1 hb).2
    refine ⟨hink, Picture.contains_of_inkAt hink, fun c hc => .inl ?_⟩
    have hmem : c ∈ ({b} : Set Point) := hp.region_of_thin hthin hink ▸ hc
    exact hmem
  · intro b hb hink
    exact ⟨b, List.mem_filter.2 ⟨Picture.mem_pixels.2 hb, hink⟩, .refl⟩

/-- On a single column or row the ink is every other pixel. -/
theorem inkAt_pixel_of_thin (hp : IsCheckerboard p w h) (hthin : w = 1 ∨ h = 1) {k : Nat}
    (hk : k < p.size) : p.inkAt (p.pixel k) = true ↔ k ≡ 0 [MOD 2] := by
  have hsize := hk
  rw [Picture.size, hp.width, hp.height] at hsize
  rw [hp.ink, and_iff_right (Picture.contains_pixel hk), Picture.pixel, hp.width, Nat.ModEq]
  rcases hthin with rfl | rfl
  · rw [Int.toNat_one, Nat.mod_one, Nat.div_one]
    dsimp only
    omega
  · rw [Int.toNat_one, Nat.mul_one] at hsize
    rw [Nat.mod_eq_of_lt hsize, Nat.div_eq_of_lt hsize]
    dsimp only
    omega

theorem size_of_thin (hp : IsCheckerboard p w h) (hthin : w = 1 ∨ h = 1) : (p.size : Int) = max w h := by
  have hcols := hp.columns
  have hrows := hp.rows
  rw [Picture.size, hp.width, hp.height]
  rcases hthin with rfl | rfl
  · rw [Int.toNat_one, Nat.one_mul]
    omega
  · rw [Int.toNat_one, Nat.mul_one]
    omega

/-- The number of components of a board. -/
theorem length_firsts (hp : IsCheckerboard p w h) :
    ((p.firsts true).length : Int) = if 2 ≤ w ∧ 2 ≤ h then 1 else (max w h + 1) / 2 := by
  by_cases hdiagonals : 2 ≤ w ∧ 2 ≤ h
  · rw [if_pos hdiagonals, hp.firsts_of_diagonals hdiagonals.1 hdiagonals.2]
    rfl
  · have hcols := hp.columns
    have hrows := hp.rows
    have hthin : w = 1 ∨ h = 1 := by omega
    -- Without diagonals all of the ink are first pixels, every other one in raster order.
    have hcount : (p.pixels.filter p.inkAt).length = Nat.count (· ≡ 0 [MOD 2]) p.size := by
      rw [Picture.pixels_eq, ← List.countP_eq_length_filter, List.countP_map, Nat.count]
      refine List.countP_congr fun k hk => ?_
      rw [Function.comp_apply, decide_eq_true_eq]
      exact hp.inkAt_pixel_of_thin hthin (List.mem_range.1 hk)
    rw [if_neg hdiagonals, hp.firsts_of_thin hthin, hcount, Nat.count_modEq_card _ (by decide),
      ← hp.size_of_thin hthin]
    split <;> omega

end IsCheckerboard

/-- The checkerboard that is drawn is one, as long as its pixels can be counted by a word. -/
theorem isCheckerboard_checkerboard (hw : 1 ≤ w) (hh : 1 ≤ h) (hfits : FitsWord (w * h)) :
    IsCheckerboard (checkerboard w h).picture w h := by
  let drawn : Picture := ⟨w, h, fun x y => (x + y) % 2 == 0⟩
  have hshows : (checkerboard w h).Shows drawn :=
    Raster.shows_ofInk (p := drawn) (by show 0 ≤ w; omega) (by show 0 ≤ h; omega) hfits
  have hwidth : (checkerboard w h).picture.width = w := hshows.width
  have hheight : (checkerboard w h).picture.height = h := hshows.height
  refine ⟨hw, hh, hwidth, hheight, fun b => ?_⟩
  have hink : (checkerboard w h).picture.inkAt b = drawn.inkAt b :=
    Raster.isInk_picture (hshows.get_eq b.x b.y)
  have hcontains : (checkerboard w h).picture.Contains b.x b.y ↔ drawn.Contains b.x b.y := by
    rw [Picture.Contains, hwidth, hheight, Picture.Contains]
  rw [hink, hcontains, Picture.inkAt, Picture.isInk, Bool.and_eq_true, decide_eq_true_eq, beq_iff_eq]

/-- A checkerboard is one component if it has two columns and two rows; if not, each of its ink pixels
is a component. -/
theorem find_checkerboard {cfg : Blob.Config} (hw : 1 ≤ w) (hh : 1 ≤ h) (hfits : FitsWord (w * h))
    (hholes : cfg.holes = false) (hmin : cfg.minPixels = 1) (hmax : 0 ≤ cfg.maxLength)
    (htolerance : ¬cfg.tolerance < 0) :
    ∃ res, Blob.find (checkerboard w h).picture cfg = .ok res ∧
      res.components = (if 2 ≤ w ∧ 2 ≤ h then 1 else (max w h + 1) / 2) ∧
      res.contourList.length = res.components ∧ ∀ c ∈ res.contourList, c.polarity = .outer := by
  have hp := isCheckerboard_checkerboard hw hh hfits
  refine ⟨_, Blob.find_eq ?_ ?_ hmax htolerance, ?_, ?_, ?_⟩
  · rw [hp.width]
    omega
  · rw [hp.height]
    omega
  · rw [hmin, Picture.blobs_eq_firsts (Int.le_refl 1)]
    exact hp.length_firsts
  · rw [Blob.contourList_nonempty?, Blob.Config.contours, hholes]
    simp
  · rw [Blob.contourList_nonempty?, Blob.Config.contours, hholes]
    simp [Blob.Config.outerContour, Blob.Config.describe]

/-- The board of six columns and four rows is one component. -/
theorem find_checkerboard_wide :
    (1 ≤ (6 : Int) ∧ 1 ≤ (4 : Int) ∧ FitsWord (6 * 4) ∧ ¬(0 : Float) < 0) ∧
    ∃ res, Blob.find (checkerboard 6 4).picture { holes := false } = .ok res ∧ res.components = 1 ∧
      res.contourList.length = res.components ∧ ∀ c ∈ res.contourList, c.polarity = .outer :=
  ⟨by decide, find_checkerboard (w := 6) (h := 4) (by decide) (by decide) (by decide) rfl rfl (by decide)
    (by decide)⟩

/-- A column of three pixels falls into two components. -/
theorem find_checkerboard_column :
    (∃ res, Blob.find (checkerboard 1 3).picture { holes := false } = .ok res ∧ res.components = 2) ∧
    ¬∃ res, Blob.find (checkerboard 1 3).picture { holes := false } = .ok res ∧ res.components = 1 := by
  have hp := isCheckerboard_checkerboard (w := 1) (h := 3) (by decide) (by decide) (by decide)
  have hfind : Blob.find (checkerboard 1 3).picture { holes := false } = _ :=
    Blob.find_eq (by rw [hp.width]; decide) (by rw [hp.height]; decide) (by decide) (by decide)
  rw [Picture.blobs_eq_firsts (Int.le_refl 1), hp.length_firsts] at hfind
  refine ⟨⟨_, hfind, rfl⟩, ?_⟩
  rintro ⟨res, hres, hone⟩
  rw [hfind] at hres
  obtain rfl := Except.ok.inj hres
  exact absurd hone (by decide)

end Perimeter.Shape
