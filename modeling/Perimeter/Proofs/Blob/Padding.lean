import Perimeter.Proofs.Blob.Contours
import Perimeter.Proofs.Blob.Partition
import Perimeter.Proofs.Walk.Padding

/-!
# Blobs between margins

The image border is like a frame of background. An enclosed background region is one that stays inside,
so margins move components and holes and change nothing about them; the walks around them, their points
and their records are moved, and so is all that finding blobs gives.
-/

namespace Perimeter

/-- The first place of an item is kept by a map that tells all items apart. -/
theorem idxOf_map_of_injective {α β : Type} [BEq α] [LawfulBEq α] [BEq β] [LawfulBEq β] {f : α → β}
    (hf : Function.Injective f) (a : α) (l : List α) : (l.map f).idxOf (f a) = l.idxOf a := by
  rw [List.idxOf, List.findIdx_map, List.idxOf]
  refine congrArg (List.findIdx · l) (funext fun b => ?_)
  rw [Function.comp_apply, Bool.eq_iff_iff, beq_iff_eq, beq_iff_eq, hf.eq_iff]

namespace Picture

variable {p : Picture} {m : Margins} {a b : Point}

theorem pos_padded (hw : 0 < p.width) (hh : 0 < p.height) :
    0 < (p.padded m).width ∧ 0 < (p.padded m).height := by
  simp only [padded]
  omega

theorem size_le_padded (hw : 0 ≤ p.width) (hh : 0 ≤ p.height) :
    p.width ≤ (p.padded m).width ∧ p.height ≤ (p.padded m).height ∧
      p.width * p.height ≤ (p.padded m).width * (p.padded m).height := by
  have hwidth : p.width ≤ (p.padded m).width := by
    simp only [padded]
    omega
  have hheight : p.height ≤ (p.padded m).height := by
    simp only [padded]
    omega
  exact ⟨hwidth, hheight, mul_le_mul hwidth hheight hh (hw.trans hwidth)⟩

/-- A picture fits a machine word if it does with margins. -/
theorem Fits.of_padded (hfit : (p.padded m).Fits) (hw : 0 ≤ p.width) (hh : 0 ≤ p.height) : p.Fits := by
  have hsize := size_le_padded (m := m) hw hh
  have hpos := mul_nonneg hw hh
  simp only [Fits, FitsWord] at hfit ⊢
  omega

/-- If the larger size fits a machine word, margins raise the upper limit. -/
theorem upperLimit_le_padded (hw : 0 ≤ p.width) (hh : 0 ≤ p.height) (hfit : (p.padded m).Fits) :
    upperLimit p.width p.height ≤ upperLimit (p.padded m).width (p.padded m).height := by
  have hsize := size_le_padded (m := m) hw hh
  rw [hfit.upperLimit_eq, (hfit.of_padded hw hh).upperLimit_eq]
  omega

/-- A background region is enclosed when all there is of it in the plane lies inside the image. -/
theorem enclosed_iff_staysInside (hink : p.inkAt a = false) (hin : p.Contains a.x a.y) :
    p.Enclosed a ↔ p.StaysInside a := by
  constructor
  · intro h b hb
    exact (h.joined_of_connected hin hink hb).contains hin
  · intro h c hc hborder
    obtain ⟨d, hd, htouch⟩ := hborder.exists_outside
    have hcink := (Joined.inkAt_eq hc).trans hink
    have hadjoins : p.Adjoins c d := by
      refine ⟨(isInk_eq_false_of_not_contains hd).trans hcink.symm, ?_⟩
      rw [hcink]
      exact htouch
    exact hd (h d ((Joined.connected hc).tail hadjoins))

/-- A component keeps its number. -/
theorem rank_padded (p : Picture) (m : Margins) (h : p.inkAt a = true) :
    (p.padded m).rank (m.place a) = p.rank a := by
  rw [rank, rank, firsts_padded, firstOf_padded m h,
    idxOf_map_of_injective (Point.shift_injective m.left m.top)]

/-- The components that are large enough are moved. -/
theorem blobs_padded (p : Picture) (m : Margins) (minPixels : Int) :
    (p.padded m).blobs minPixels = (p.blobs minPixels).map m.place := by
  rw [blobs, firsts_padded, List.filter_map, blobs]
  refine congrArg _ (List.filter_congr fun a ha => ?_)
  have hinside := staysInside_of_inkAt (mem_firsts.1 ha).1
  simp only [Function.comp_apply, hinside.ncard_region_padded m]

theorem mem_holes_padded (minPixels : Int) :
    m.place a ∈ (p.padded m).holes minPixels ↔ a ∈ p.holes minPixels := by
  have henclosed : m.place a ∈ (p.padded m).firsts false ∧ (p.padded m).Enclosed (m.place a) ↔
      a ∈ p.firsts false ∧ p.Enclosed a := by
    rw [mem_firsts, mem_firsts, inkAt_padded]
    constructor
    · rintro ⟨⟨hink, hfirst⟩, h⟩
      have hinside := staysInside_padded.1
        ((enclosed_iff_staysInside ((inkAt_padded p m a).trans hink) hfirst.contains).1 h)
      exact ⟨⟨hink, (hinside.isFirst_padded m).1 hfirst⟩,
        (enclosed_iff_staysInside hink hinside.contains).2 hinside⟩
    · rintro ⟨⟨hink, hfirst⟩, h⟩
      have hinside := (enclosed_iff_staysInside hink hfirst.contains).1 h
      have hinside' := staysInside_padded (m := m).2 hinside
      exact ⟨⟨hink, (hinside.isFirst_padded m).2 hfirst⟩,
        (enclosed_iff_staysInside ((inkAt_padded p m a).trans hink) hinside'.contains).2 hinside'⟩
  rw [mem_holes, mem_holes, ← and_assoc, ← and_assoc, henclosed]
  refine and_congr_right fun ⟨hfirst, h⟩ => ?_
  rw [Point.above_shift, (staysInside_of_inkAt (h.inkAt_above hfirst)).ncard_region_padded m]

/-- The holes are moved. -/
theorem holes_padded (p : Picture) (m : Margins) (minPixels : Int) :
    (p.padded m).holes minPixels = (p.holes minPixels).map m.place :=
  Point.eq_map_shift ((p.pairwise_before_firsts false).sublist List.filter_sublist)
    (((p.padded m).pairwise_before_firsts false).sublist List.filter_sublist)
    fun _ => mem_holes_padded minPixels

theorem holesByOwner_padded (p : Picture) (m : Margins) (minPixels : Int) :
    Blob.holesByOwner (p.padded m) minPixels = (Blob.holesByOwner p minPixels).map m.place := by
  rw [Blob.holesByOwner, holes_padded, Blob.holesByOwner]
  refine (List.map_mergeSort fun b hb c hc => ?_).symm
  have hink : ∀ d ∈ p.holes minPixels, p.inkAt d.above = true := by
    intro d hd
    obtain ⟨hmem, henclosed, -⟩ := mem_holes.1 hd
    exact henclosed.inkAt_above hmem
  rw [Point.above_shift, Point.above_shift, rank_padded p m (hink b hb), rank_padded p m (hink c hc)]

end Picture

/-! ## Contours -/

namespace Blob

/-- The contour with its start, its points and its bounds moved. -/
def Contour.shift (c : Contour) (dx dy : Int) : Contour :=
  { c with
    start := ⟨c.start.x + dx, c.start.y + dy, c.start.course⟩
    points := c.points.map fun l => l.map fun a => a.shift dx dy
    bounds := ⟨c.bounds.minX + dx, c.bounds.minY + dy, c.bounds.maxX + dx, c.bounds.maxY + dy⟩ }

/-- What is found in a picture, as it stands in the picture with margins. -/
def Result.padded (r : Result) (m : Margins) : Result :=
  { r with
    width := m.left + r.width + m.right
    height := m.top + r.height + m.bottom
    contours := r.contours.map fun cs => cs.map fun c => c.shift m.left m.top }

theorem nonempty?_map {α β : Type} (f : α → β) (l : List α) :
    nonempty? (l.map f) = (nonempty? l).map (List.map f) := by
  cases l <;> rfl

variable {p : Picture} {m : Margins} {cfg : Config} {dx dy : Int}

theorem Config.compress_map_shift (cfg : Config) (l : List Point) :
    cfg.compress (l.map fun a => a.shift dx dy) =
      ((cfg.compress l).1.map fun a => a.shift dx dy, (cfg.compress l).2) := by
  cases hchain : cfg.chain with
  | true => simp only [compress, hchain, if_true, Chain.simplify_map_shift]
  | false => simp only [compress, hchain, Bool.false_eq_true, if_false]

/-- A moved walk and the record of the moved pixels give the moved contour, unless its hull is asked
for. -/
theorem Config.describe_shift (hhull : cfg.hull = false) (out : Walk.Outcome) (label : Int)
    (polarity : Polarity) {r r' : Region} (hr : r.Moved dx dy r') :
    cfg.describe (out.shift dx dy) label polarity r' =
      (cfg.describe out label polarity r).shift dx dy := by
  have hpoints : (out.shift dx dy).points.toList = out.points.toList.map fun a => a.shift dx dy :=
    Array.toList_map
  have hthinned : ∀ l : List Point,
      nonempty? (if 0 < cfg.tolerance then
          Polyline.simplify (l.map fun a => a.shift dx dy) cfg.tolerance
        else l.map fun a => a.shift dx dy) =
      (nonempty? (if 0 < cfg.tolerance then Polyline.simplify l cfg.tolerance else l)).map
        (List.map fun a => a.shift dx dy) := by
    intro l
    rw [← nonempty?_map, Polyline.simplify_map_shift, apply_ite (List.map _)]
  rw [describe, hpoints, compress_map_shift]
  simp only [describe, Contour.shift, hhull, hthinned, polygonArea_map_shift, hr.count, hr.minX, hr.minY,
    hr.maxX, hr.maxY]
  rfl

/-- The margins move a walk if the same cap applies with them and without. -/
theorem Config.walkFrom_padded (hborder : cfg.suppressBorder = false) (hmax : 0 < cfg.maxLength)
    (hle : cfg.maxLength ≤ Picture.upperLimit p.width p.height)
    (hle' : cfg.maxLength ≤ Picture.upperLimit (p.padded m).width (p.padded m).height) (e : Edge) :
    cfg.walkFrom (p.padded m) (e.shift m.left m.top) = (cfg.walkFrom p e).shift m.left m.top := by
  rw [walkFrom, walkFrom, Trace.effectiveLimit_of_pos hmax hle', Trace.effectiveLimit_of_pos hmax hle,
    ← Walk.Plan.run_padded p m hborder]
  rfl

theorem outerEdge_shift (o : Orientation) (a : Point) :
    outerEdge o (a.shift dx dy) = (outerEdge o a).shift dx dy := rfl

theorem holeEdge_shift (o : Orientation) (b : Point) :
    holeEdge o (b.shift dx dy) = (holeEdge o b).shift dx dy := by
  simp only [holeEdge, Edge.shift, Point.shift, Edge.mk.injEq, and_true, true_and]
  omega

/-- The margins move all contours and keep their order. -/
theorem Config.contours_padded (hborder : cfg.suppressBorder = false) (hhull : cfg.hull = false)
    (hmax : 0 < cfg.maxLength) (hle : cfg.maxLength ≤ Picture.upperLimit p.width p.height)
    (hle' : cfg.maxLength ≤ Picture.upperLimit (p.padded m).width (p.padded m).height) :
    cfg.contours (p.padded m) = (cfg.contours p).map fun c => c.shift m.left m.top := by
  have houter : ((p.padded m).blobs cfg.minPixels).map (cfg.outerContour (p.padded m)) =
      ((p.blobs cfg.minPixels).map (cfg.outerContour p)).map fun c => c.shift m.left m.top := by
    rw [Picture.blobs_padded, List.map_map, List.map_map]
    refine List.map_congr_left fun a ha => ?_
    have hink := (Picture.mem_firsts.1 (List.mem_of_mem_filter ha)).1
    rw [Function.comp_apply, Function.comp_apply, outerContour, outerContour, outerEdge_shift,
      walkFrom_padded hborder hmax hle hle', Picture.rank_padded p m hink]
    exact describe_shift hhull _ _ _ ((Picture.staysInside_of_inkAt hink).moved_record m)
  have hholes : (holesByOwner (p.padded m) cfg.minPixels).map (cfg.holeContour (p.padded m)) =
      ((holesByOwner p cfg.minPixels).map (cfg.holeContour p)).map fun c => c.shift m.left m.top := by
    rw [Picture.holesByOwner_padded, List.map_map, List.map_map]
    refine List.map_congr_left fun b hb => ?_
    obtain ⟨hmem, henclosed, -⟩ := mem_holesByOwner.1 hb
    obtain ⟨hink, hfirst⟩ := Picture.mem_firsts.1 hmem
    have hinside := (Picture.enclosed_iff_staysInside hink hfirst.contains).1 henclosed
    rw [Function.comp_apply, Function.comp_apply, holeContour, holeContour, holeEdge_shift,
      walkFrom_padded hborder hmax hle hle', Point.above_shift,
      Picture.rank_padded p m (henclosed.inkAt_above hmem)]
    exact describe_shift hhull _ _ _ (hinside.moved_record m)
  rw [contours, contours, houter, List.map_append]
  cases cfg.holes with
  | true => rw [if_pos rfl, if_pos rfl, hholes]
  | false => rfl

/-- Margins move what is found and change nothing else, if the cap on the walks is the same with them and
without. -/
theorem find_padded_eq (hw : 0 < p.width) (hh : 0 < p.height)
    (hborder : cfg.suppressBorder = false) (hhull : cfg.hull = false) (hmax : 0 < cfg.maxLength)
    (hle : cfg.maxLength ≤ Picture.upperLimit p.width p.height)
    (hle' : cfg.maxLength ≤ Picture.upperLimit (p.padded m).width (p.padded m).height) :
    find (p.padded m) cfg = (find p cfg).map fun r => r.padded m := by
  obtain ⟨hw', hh'⟩ := Picture.pos_padded (m := m) hw hh
  by_cases htolerance : cfg.tolerance < 0
  · -- Both are refused for the tolerance, which is looked at last.
    have hrefused : ∀ q : Picture, 0 < q.width → 0 < q.height →
        find q cfg = .error (.fault (.negativeTolerance (Decimal.general.text cfg.tolerance))) := by
      intro q hqw hqh
      have hcheck : check q cfg =
          .error (.negativeTolerance (Decimal.general.text cfg.tolerance)) := by
        rw [check, if_neg (by omega), if_neg (by omega), if_pos htolerance]
      rw [find, hcheck]
      rfl
    rw [hrefused _ hw' hh', hrefused p hw hh]
    rfl
  · rw [find_eq hw' hh' hmax.le htolerance, find_eq hw hh hmax.le htolerance,
      Config.contours_padded hborder hhull hmax hle hle', Picture.blobs_padded, List.length_map,
      nonempty?_map]
    rfl

/-- The image border is like a frame of background: margins that keep the size within a machine word move
what is found and change nothing else, with any pool. Labels in words give the same where there are few
regions. -/
theorem find_padded (p : Picture) (m : Margins) (cfg : Config) (hw : 1 ≤ p.width) (hh : 1 ≤ p.height)
    (hborder : cfg.suppressBorder = false) (hhull : cfg.hull = false) (hmax : 0 < cfg.maxLength)
    (hle : cfg.maxLength ≤ Picture.upperLimit p.width p.height) (hfit : (p.padded m).Fits) :
    ∃ answer : Except Failure Result,
      (∀ pool choice,
        Prod.fst <$> findPooled pool choice p cfg = .ok answer ∧
        Prod.fst <$> findPooled pool choice (p.padded m) cfg =
          .ok (answer.map fun r => r.padded m)) ∧
      (p.FewRegions → (p.padded m).FewRegions → ∀ pool choice,
        Prod.fst <$> findInWords pool choice p cfg = .ok answer ∧
        Prod.fst <$> findInWords pool choice (p.padded m) cfg =
          .ok (answer.map fun r => r.padded m)) := by
  obtain ⟨hw', hh'⟩ := Picture.pos_padded (m := m) hw hh
  have hcount := (hfit.of_padded (by omega) (by omega)).fitsWord_pixels hw hh
  have hcount' := hfit.fitsWord_pixels hw' hh'
  have hlimit := Picture.upperLimit_le_padded (by omega) (by omega) hfit
  have heq := find_padded_eq hw hh hborder hhull hmax hle (hle.trans hlimit)
  refine ⟨find p cfg, fun pool choice => ⟨findPooled_eq_find hcount, ?_⟩,
    fun hfew hfew' pool choice => ⟨findInWords_eq_find hcount hfew, ?_⟩⟩
  · rw [findPooled_eq_find hcount', heq]
  · rw [findInWords_eq_find hcount' hfew', heq]

/-- A ring around one background pixel, moved by one column and two rows and walked for five steps. -/
theorem find_padded_ring :
    let p : Picture := ⟨3, 3, fun x y => x != 1 || y != 1⟩
    let m : Margins := ⟨1, 2, 0, 4⟩
    let cfg : Config := { chain := true, maxLength := 5 }
    (0 < cfg.maxLength ∧ cfg.maxLength ≤ Picture.upperLimit p.width p.height ∧ (p.padded m).Fits ∧
      p.FewRegions ∧ (p.padded m).FewRegions) ∧
    ∃ answer : Except Failure Result, ∀ pool choice,
      Prod.fst <$> findInWords pool choice p cfg = .ok answer ∧
      Prod.fst <$> findInWords pool choice (p.padded m) cfg = .ok (answer.map fun r => r.padded m) := by
  intro p m cfg
  have hle : cfg.maxLength ≤ Picture.upperLimit p.width p.height := by decide
  have hfit : (p.padded m).Fits := by decide
  have hfew : p.FewRegions := Picture.fewRegions_of_size (by decide)
  have hfew' : (p.padded m).FewRegions := Picture.fewRegions_of_size (by decide)
  obtain ⟨answer, -, hwords⟩ :=
    find_padded p m cfg (by decide) (by decide) rfl rfl (by decide) hle hfit
  exact ⟨⟨by decide, hle, hfit, hfew, hfew'⟩, answer, hwords hfew hfew'⟩

/-- An image without pixels is refused, and with a margin it is not. One pixel is found, and not where
the pixels that the margins make of it cannot be counted in a word. -/
theorem find_padded_fails :
    (let p : Picture := ⟨0, 1, fun _ _ => false⟩
      let m : Margins := ⟨1, 0, 0, 0⟩
      let cfg : Config := { maxLength := 1 }
      cfg.maxLength ≤ Picture.upperLimit p.width p.height ∧
        ∀ pool choice, Prod.fst <$> findInWords pool choice (p.padded m) cfg ≠
          (Prod.fst <$> findInWords pool choice p cfg).map fun answer =>
            answer.map fun r => r.padded m) ∧
    (let p : Picture := ⟨1, 1, fun _ _ => true⟩
      let m : Margins := ⟨0, 0, 2, 2 ^ 62 - 1⟩
      let cfg : Config := { maxLength := 3 }
      cfg.maxLength ≤ Picture.upperLimit p.width p.height ∧
        ∀ pool choice, (∃ r, Prod.fst <$> findInWords pool choice p cfg = .ok (.ok r)) ∧
          ∃ misuse, Prod.fst <$> findInWords pool choice (p.padded m) cfg = .error misuse) := by
  constructor
  · intro p m cfg
    refine ⟨by decide, fun pool choice heq => ?_⟩
    rw [findInWords_eq_find (by decide) (Picture.fewRegions_of_size (by decide)),
      findInWords_eq_find (by decide) (Picture.fewRegions_of_size (by decide)),
      find_eq (by decide) (by decide) (by decide) (by decide)] at heq
    cases Except.ok.inj heq
  · intro p m cfg
    refine ⟨by decide, fun pool choice => ⟨?_, ?_⟩⟩
    · rw [findInWords_eq_find (by decide) (Picture.fewRegions_of_size (by decide)),
        find_eq (by decide) (by decide) (by decide) (by decide)]
      exact ⟨_, rfl⟩
    · exact (findKeeping_fails_iff (by decide)).2 (by decide)

end Blob

end Perimeter
