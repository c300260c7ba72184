import Perimeter.Blob.Find
import Perimeter.Proofs.Region.Labels
import Perimeter.Proofs.Trace.Closing

/-!
# What finding blobs gives

The first pixel of a component has background above it, and the pixel above the first one of an
enclosed background region is ink. So each of them starts a walk and none of the walks fails. Finding
blobs gives the contours that are described by these walks and by the records of their regions.
-/

namespace Perimeter

/-! ## Lists -/

/-- A traversal in which nothing fails. -/
theorem mapM_eq_ok_map {ε α β : Type} {f : α → Except ε β} {g : α → β} {l : List α}
    (h : ∀ a ∈ l, f a = .ok (g a)) : l.mapM f = .ok (l.map g) := by
  induction l with
  | nil => rfl
  | cons a l ih =>
    rw [List.mapM_cons, h a List.mem_cons_self, ih fun b hb => h b (List.mem_cons_of_mem _ hb)]
    rfl

theorem mapM_bind_eq {ε α β γ : Type} {f : α → Except ε β} {g : α → β} {k : List β → Except ε γ}
    {l : List α} (h : ∀ a ∈ l, f a = .ok (g a)) : l.mapM f >>= k = k (l.map g) := by
  rw [mapM_eq_ok_map h]
  rfl

theorem zipIdx_eq_map_idxOf {α : Type} [DecidableEq α] {l : List α} (h : l.Nodup) :
    l.zipIdx = l.map fun a => (a, l.idxOf a) := by
  refine List.ext_getElem (by simp) fun i hi hi' => ?_
  rw [List.getElem_zipIdx, List.getElem_map, h.idxOf_getElem, Nat.zero_add]

/-- The members that have a value, with the values. -/
theorem filterMap_eq_map_filter {α β : Type} {f : α → Option β} {g : α → β} {q : α → Prop}
    [DecidablePred q] {l : List α} (h : ∀ a ∈ l, f a = if q a then some (g a) else none) :
    l.filterMap f = (l.filter q).map g := by
  induction l with
  | nil => rfl
  | cons a l ih =>
    have hrest := ih fun a ha => h a (List.mem_cons_of_mem _ ha)
    rw [List.filterMap_cons, h a List.mem_cons_self, List.filter_cons]
    by_cases hq : q a
    · simp [hq, hrest]
    · simp [hq, hrest]

/-! ## Components and holes -/

namespace Picture

variable {p : Picture} {a b : Point}

/-- The number of the component of a pixel, counted from 1 in raster order of the first pixels. -/
noncomputable def rank (p : Picture) (b : Point) : Nat := (p.firsts true).idxOf (p.firstOf b) + 1

/-- No pixel of the region lies at the border of the image. -/
def Enclosed (p : Picture) (b : Point) : Prop :=
  ∀ c ∈ p.region b, ¬c.OnBorder p.width p.height

/-- The first pixels of the components with at least so many pixels, in raster order. -/
noncomputable def blobs (p : Picture) (minPixels : Int) : List Point :=
  (p.firsts true).filter fun a => minPixels ≤ (p.region a).ncard

/-- No component is too small for a bound of one pixel. -/
theorem blobs_eq_firsts {minPixels : Int} (h : minPixels ≤ 1) : p.blobs minPixels = p.firsts true := by
  refine List.filter_eq_self.2 fun a ha => decide_eq_true ?_
  have hpos := one_le_ncard_region (mem_firsts.1 ha).2.contains
  omega

open Classical in
/-- The first pixels of the enclosed background regions, in raster order, whose owner has at least so
many pixels: the component of the pixel above. -/
noncomputable def holes (p : Picture) (minPixels : Int) : List Point :=
  (p.firsts false).filter fun b => p.Enclosed b ∧ minPixels ≤ (p.region b.above).ncard

theorem Enclosed.row_ne_zero (h : p.Enclosed b) : b.y ≠ 0 := by
  intro hy
  exact h b .refl (.inr (.inl hy))

/-- Above an enclosed background region there is ink. -/
theorem Enclosed.inkAt_above (h : p.Enclosed b) (hb : b ∈ p.firsts false) :
    p.inkAt b.above = true := by
  obtain ⟨hink, hfirst⟩ := mem_firsts.1 hb
  exact hfirst.inkAt_above_eq_true hink h.row_ne_zero

theorem mem_holes {minPixels : Int} :
    b ∈ p.holes minPixels ↔
      b ∈ p.firsts false ∧ p.Enclosed b ∧ minPixels ≤ (p.region b.above).ncard := by
  simp only [holes, List.mem_filter, decide_eq_true_eq]

end Picture

namespace Blob

variable {p : Picture} {cfg : Config} {a b : Point}

/-! ## Walks from first pixels -/

/-- The edge on which the outer walk around a component starts. -/
def outerEdge (o : Orientation) (a : Point) : Edge := ⟨a.x, a.y, outerHeading o⟩

/-- The edge on which the walk around a hole starts. -/
def holeEdge (o : Orientation) (b : Point) : Edge := ⟨b.x, b.y - 1, holeHeading o⟩

theorem turnLeft_outerHeading (o : Orientation) : (outerHeading o).turnLeft o = .up := by
  cases o <;> rfl

theorem turnLeft_holeHeading (o : Orientation) : (holeHeading o).turnLeft o = .down := by
  cases o <;> rfl

theorem leftPoint_outerEdge (o : Orientation) (a : Point) : (outerEdge o a).leftPoint o = a.above := by
  rw [Edge.leftPoint, outerEdge, turnLeft_outerHeading]
  simp [Heading.dx, Heading.dy, Point.above, Int.sub_eq_add_neg]

theorem leftPoint_holeEdge (o : Orientation) (b : Point) : (holeEdge o b).leftPoint o = b := by
  rw [Edge.leftPoint, holeEdge, turnLeft_holeHeading]
  simp [Heading.dx, Heading.dy]

/-- The first pixel of a component has the background above it on the bordering side. -/
theorem isBoundary_outerEdge (o : Orientation) (ha : a ∈ p.firsts true) :
    p.IsBoundary o (outerEdge o a) := by
  obtain ⟨hink, hfirst⟩ := Picture.mem_firsts.1 ha
  refine ⟨hink, ?_⟩
  rw [Picture.inkLeft, leftPoint_outerEdge]
  exact hfirst.inkAt_above_eq_false hink

/-- The pixel above a hole has the hole on the bordering side. -/
theorem isBoundary_holeEdge (o : Orientation) (hb : b ∈ p.firsts false) (henclosed : p.Enclosed b) :
    p.IsBoundary o (holeEdge o b) := by
  have habove := henclosed.inkAt_above hb
  obtain ⟨hink, hfirst⟩ := Picture.mem_firsts.1 hb
  refine ⟨habove, ?_⟩
  rw [Picture.inkLeft, leftPoint_holeEdge]
  exact hink

/-! ## Contours of walks -/

/-- The walk from an edge. -/
def Config.walkFrom (cfg : Config) (p : Picture) (e : Edge) : Walk.Outcome :=
  (Trace.freePlan cfg.traceOptions e (Trace.effectiveLimit p cfg.maxLength)).run p

/-- The points that are reported of a walk, and whether the first of them lies inside a straight run. -/
def Config.compress (cfg : Config) (points : List Point) : List Point × Bool :=
  if cfg.chain then Chain.simplify points false else (points, false)

/-- The contour of a walk around a region. -/
def Config.describe (cfg : Config) (out : Walk.Outcome) (label : Int) (polarity : Polarity)
    (r : Region) : Contour :=
  let (points, redundant) := cfg.compress out.points.toList
  let hull := if cfg.hull then convexHull points else []
  { label
    polarity
    start := .ofEdge out.result.start
    points := nonempty? (if 0 < cfg.tolerance then Polyline.simplify points cfg.tolerance else points)
    startRedundant := redundant
    length := out.result.length
    turns := out.result.turns
    closed := out.result.complete
    pixels := r.count
    bounds := ⟨r.minX, r.minY, r.maxX, r.maxY⟩
    area := polygonArea points
    hull
    minRect := minAreaRect hull }

theorem run_eq_walkFrom {e : Edge} (hmax : 0 ≤ cfg.maxLength) (he : p.IsBoundary cfg.orientation e) :
    Trace.run p e.seed cfg.traceOptions = .ok (cfg.walkFrom p e) :=
  Trace.run_eq (Trace.plan_eq cfg.traceOptions hmax rfl he.check_seed he.start_seed)

/-- A walk from a boundary edge does not fail. -/
theorem contourAt_eq {e : Edge} (hmax : 0 ≤ cfg.maxLength) (he : p.IsBoundary cfg.orientation e)
    (label : Int) (polarity : Polarity) (r : Region) :
    contourAt p cfg e.x e.y e.heading label polarity r =
      .ok (cfg.describe (cfg.walkFrom p e) label polarity r) := by
  simp only [contourAt, traceSeed]
  rw [← Edge.seed, run_eq_walkFrom hmax he, Config.describe, Config.compress]
  cases cfg.chain <;> rfl

/-! ## Outer contours -/

theorem keeps_record (hfirst : p.IsFirst a) :
    cfg.keeps (p.record a) = decide (cfg.minPixels ≤ (p.region a).ncard) := by
  rw [Config.keeps, Picture.count_record hfirst.contains]

/-- The contour around the component with a first pixel. -/
noncomputable def Config.outerContour (cfg : Config) (p : Picture) (a : Point) : Contour :=
  cfg.describe (cfg.walkFrom p (outerEdge cfg.orientation a)) (p.rank a) .outer (p.record a)

/-- The outer contours are those of the components that are large enough, in raster order. -/
theorem outerContours_eq (hmax : 0 ≤ cfg.maxLength) (withBackground : Bool) :
    outerContours p cfg (.of p withBackground) =
      .ok ((p.blobs cfg.minPixels).map (cfg.outerContour p)) := by
  have hkept : ((p.firsts true).filter fun a => cfg.keeps (p.record a)) = p.blobs cfg.minPixels :=
    List.filter_congr fun a ha => keeps_record (Picture.mem_firsts.1 ha).2
  -- The records are listed in the order of the first pixels, so the numbers of both are the same.
  rw [outerContours, Labeling.components_of, List.zipIdx_map,
    zipIdx_eq_map_idxOf (p.nodup_firsts true), List.map_map, List.filter_map, List.mapM_map,
    ← hkept]
  refine mapM_eq_ok_map fun a ha => ?_
  have hmem := List.mem_of_mem_filter ha
  have hrank : p.rank a = (p.firsts true).idxOf a + 1 := by
    rw [Picture.rank, (Picture.mem_firsts.1 hmem).2.firstOf_eq]
  have hcontour := contourAt_eq hmax (isBoundary_outerEdge cfg.orientation hmem) (p.rank a) .outer
    (p.record a)
  simp only [Function.comp_apply, Prod.map_apply, id_eq, Picture.first_record, ← hrank]
  rw [outerEdge] at hcontour
  rw [hcontour]
  rfl

/-! ## Holes -/

/-- A background region has an owner when it is enclosed and the component above is large enough. -/
theorem owner?_of (hb : b ∈ p.firsts false) [Decidable (p.Enclosed b)] (withBackground : Bool) :
    owner? cfg (.of p withBackground) (p.record b) =
      if p.Enclosed b ∧ cfg.minPixels ≤ (p.region b.above).ncard then some (p.rank b.above : Int)
      else none := by
  obtain ⟨hink, hfirst⟩ := Picture.mem_firsts.1 hb
  by_cases henclosed : p.Enclosed b
  · have hborder : (p.record b).touchesBorder = false := by
      rw [← Bool.not_eq_true, Picture.touchesBorder_record hfirst.contains]
      rintro ⟨c, hc, hon⟩
      exact henclosed c hc hon
    have habove := henclosed.inkAt_above hb
    obtain ⟨howner, hjoined⟩ := Picture.firstOf_spec (Picture.contains_of_inkAt habove)
    have hmem : p.firstOf b.above ∈ p.firsts true :=
      Picture.mem_firsts.2 ⟨by rw [← hjoined.inkAt_eq, habove], howner⟩
    have hlabel : (Labeling.of p withBackground).labelAt b.x (b.y - 1) = (p.rank b.above : Int) :=
      Labeling.labelAt_of withBackground hmem hjoined
    -- The record of the owner is found under its number.
    have hrecord : (Labeling.of p withBackground).components[p.rank b.above - 1]? =
        some (p.record (p.firstOf b.above)) := by
      rw [← Array.getElem?_toList, Labeling.components_of, List.getElem?_map, Picture.rank,
        Nat.add_sub_cancel, List.getElem?_idxOf hmem]
      rfl
    have hpos : (0 : Int) < p.rank b.above := by
      rw [Picture.rank]
      omega
    have hrow : (b.y == 0) = false := by simpa using henclosed.row_ne_zero
    simp only [owner?, hborder, Picture.first_record, hrow, Bool.or_false, Bool.false_eq_true,
      if_false, hlabel, hpos, if_true, Int.toNat_natCast, hrecord, keeps_record howner,
      hjoined.region_eq, henclosed, true_and, decide_eq_true_eq]
  · have hborder : (p.record b).touchesBorder = true := by
      rw [Picture.touchesBorder_record hfirst.contains]
      simpa [Picture.Enclosed] using henclosed
    simp only [owner?, hborder, Bool.true_or, if_true, henclosed, false_and, if_false]

open Classical in
/-- The regions with an owner are the holes, each with its number and its owner. -/
theorem owned_eq :
    ((Labeling.of p true).backgrounds.toList.zipIdx.filterMap fun (r, i) =>
      (owner? cfg (.of p true) r).map fun label => (r, i, label)) =
    (p.holes cfg.minPixels).map fun b =>
      (p.record b, (p.firsts false).idxOf b, (p.rank b.above : Int)) := by
  rw [Labeling.backgrounds_of, List.zipIdx_map, zipIdx_eq_map_idxOf (p.nodup_firsts false),
    List.map_map, List.filterMap_map]
  refine filterMap_eq_map_filter fun b hb => ?_
  simp only [Function.comp_apply, Prod.map_apply, id_eq, owner?_of hb]
  split_ifs <;> rfl

/-- The holes in the order in which they are reported: by owner, and by raster order. -/
noncomputable def holesByOwner (p : Picture) (minPixels : Int) : List Point :=
  (p.holes minPixels).mergeSort fun b c => decide ((p.rank b.above : Int) ≤ p.rank c.above)

theorem holesByOwner_perm (p : Picture) (minPixels : Int) :
    (holesByOwner p minPixels).Perm (p.holes minPixels) :=
  List.mergeSort_perm _ _

theorem mem_holesByOwner {minPixels : Int} :
    b ∈ holesByOwner p minPixels ↔
      b ∈ p.firsts false ∧ p.Enclosed b ∧ minPixels ≤ (p.region b.above).ncard := by
  rw [(holesByOwner_perm p _).mem_iff, Picture.mem_holes]

/-- The contour around the hole with a first pixel. -/
noncomputable def Config.holeContour (cfg : Config) (p : Picture) (b : Point) : Contour :=
  cfg.describe (cfg.walkFrom p (holeEdge cfg.orientation b)) (p.rank b.above) .hole (p.record b)

/-- The hole contours are those of the holes, by owner and in raster order. -/
theorem holeContours_eq (hmax : 0 ≤ cfg.maxLength) :
    holeContours p cfg (.of p true) =
      .ok ((holesByOwner p cfg.minPixels).map (cfg.holeContour p)) := by
  rw [holeContours, owned_eq, List.mapM_map]
  refine (mapM_bind_eq (g := cfg.holeContour p) fun b hb => ?_).trans ?_
  · obtain ⟨hmem, henclosed, -⟩ := Picture.mem_holes.1 hb
    have hcontour := contourAt_eq hmax (isBoundary_holeEdge cfg.orientation hmem henclosed)
      (p.rank b.above) .hole (p.record b)
    simp only [Function.comp_apply, Picture.first_record]
    rw [holeEdge] at hcontour
    rw [hcontour]
    rfl
  · -- The label of a contour is the number by which its hole is sorted.
    have hsort := List.map_mergeSort (f := cfg.holeContour p) (l := p.holes cfg.minPixels)
      (r := fun b c => decide ((p.rank b.above : Int) ≤ p.rank c.above))
      (s := fun c d => decide (c.label ≤ d.label)) fun _ _ _ _ => rfl
    rw [holesByOwner, hsort]
    rfl

/-! ## All contours -/

theorem check_eq_ok (hw : 0 < p.width) (hh : 0 < p.height) (hmax : 0 ≤ cfg.maxLength)
    (htolerance : ¬cfg.tolerance < 0) : check p cfg = .ok () := by
  have hsize : ¬(p.width ≤ 0 ∨ p.height ≤ 0) := by omega
  have hcap : ¬cfg.maxLength < 0 := by omega
  rw [check, if_neg hsize, if_neg hcap, if_neg htolerance]

/-- All contours that are found, the outer ones first. -/
noncomputable def Config.contours (cfg : Config) (p : Picture) : List Contour :=
  (p.blobs cfg.minPixels).map (cfg.outerContour p) ++
    (if cfg.holes then holesByOwner p cfg.minPixels else []).map (cfg.holeContour p)

/-- What finding blobs gives. -/
theorem find_eq (hw : 0 < p.width) (hh : 0 < p.height) (hmax : 0 ≤ cfg.maxLength)
    (htolerance : ¬cfg.tolerance < 0) :
    find p cfg = .ok
      { width := p.width
        height := p.height
        components := (p.blobs cfg.minPixels).length
        contours := nonempty? (cfg.contours p)
        duration := 0 } := by
  rw [find, check_eq_ok hw hh hmax htolerance, Config.contours]
  simp only [liftFault, findLabelled, outerContours_eq hmax]
  cases cfg.holes with
  | false =>
    simp only [bind, Except.bind, pure, Except.pure, List.length_map]
    rfl
  | true =>
    simp only [holeContours_eq hmax, bind, Except.bind, pure, Except.pure, List.length_map, if_true]

end Blob

end Perimeter
