import Perimeter.Proofs.Blob.Find
import Perimeter.Proofs.Chain.Runs
import Perimeter.Proofs.Walk.Suppression

/-!
# Compressed contours

The points of a walk are pixels of the picture, so all words are exact on them. Compressing the points
of a contour then changes neither its area nor its hull, and nothing else is read off the points.
Finding blobs with compression is finding them without, and compressing each contour afterwards.
-/

namespace Perimeter

open List (Forall₂)

/-! ## Points of walks -/

theorem Walk.Plan.contains_of_mem_run {p : Picture} {plan : Walk.Plan} (hsize : p.WordSized)
    (hstart : p.IsBoundary plan.orientation plan.start) {q : Point}
    (hq : q ∈ (plan.run p).points.toList) : p.Contains q.x q.y := by
  obtain ⟨n, -, hrun⟩ := plan.exists_runsTo hstart
  have hafter : ∀ q ∈ (plan.after p (n + 1)).points.toList, p.Contains q.x q.y := by
    intro q hq
    rw [plan.points_after hsize hstart, Walk.Plan.shown] at hq
    obtain ⟨e, he, rfl⟩ := List.mem_map.1 hq
    obtain ⟨i, -, rfl⟩ := List.mem_map.1 (List.mem_of_mem_filter he)
    exact (hstart.iterate i).contains
  rw [hrun.run_eq hstart, Walk.Plan.finish] at hq
  simp only at hq
  split_ifs at hq
  · rw [Array.toList_push, List.mem_append, List.mem_singleton] at hq
    obtain hq | rfl := hq
    · exact hafter q hq
    · exact hstart.contains
  · exact hafter q hq

theorem Trace.small_of_mem_run {p : Picture} {s : Seed} {opts : Trace.Options} {out : Walk.Outcome}
    (hw : p.width < 1073741824) (hh : p.height < 1073741824) (h : Trace.run p s opts = .ok out) :
    ∀ q ∈ out.points.toList, q.Small := by
  obtain ⟨plan, hplan, rfl⟩ := Trace.run_eq_ok.1 h
  obtain ⟨horientation, hstart⟩ := Trace.isBoundary_of_plan hplan
  rw [← horientation] at hstart
  have hin := hstart.contains
  have hsize : p.WordSized := by
    simp only [Picture.Contains] at hin
    simp only [Picture.WordSized, FitsWord]
    omega
  intro q hq
  have hcontains := Walk.Plan.contains_of_mem_run hsize hstart hq
  simp only [Picture.Contains] at hcontains
  simp only [Point.Small]
  omega

namespace Blob

variable {p : Picture} {cfg : Config}

/-! ## Compressing what was found -/

theorem nonempty?_getD {α : Type} (l : List α) : (nonempty? l).getD [] = l := by
  cases l <;> rfl

/-- A contour with its points compressed. -/
def Contour.compressed (c : Contour) : Contour :=
  { c with
    points := nonempty? (Chain.simplify c.pointList false).1
    startRedundant := (Chain.simplify c.pointList false).2 }

/-- All contours of a result compressed. -/
def Result.compressed (r : Result) : Result :=
  { r with contours := nonempty? (r.contourList.map Contour.compressed) }

theorem Result.compressed_mk (w h n d : Int) (cs : List Contour) :
    Result.compressed ⟨w, h, n, nonempty? cs, d⟩ =
      ⟨w, h, n, nonempty? (cs.map Contour.compressed), d⟩ := by
  rw [Result.compressed, contourList_nonempty?]

/-- A configuration with compression on or off. -/
def Config.chaining (cfg : Config) (on : Bool) : Config := { cfg with chain := on }

/-- Nothing but the points is read off a walk with compression, and the area and the hull of its points
are those without. -/
theorem Config.describe_chaining (htolerance : ¬0 < cfg.tolerance) {out : Walk.Outcome}
    (hsmall : ∀ q ∈ out.points.toList, q.Small) (label : Int) (polarity : Polarity) (r : Region) :
    (cfg.chaining true).describe out label polarity r =
      ((cfg.chaining false).describe out label polarity r).compressed := by
  simp only [describe, compress, chaining, htolerance, if_true, Bool.false_eq_true, if_false,
    Contour.compressed, Contour.pointList, nonempty?_getD, Chain.polygonArea_simplify hsmall,
    Chain.convexHull_simplify hsmall]

section

variable (hw : p.width < 1073741824) (hh : p.height < 1073741824) (hmax : 0 ≤ cfg.maxLength)
  (htolerance : ¬0 < cfg.tolerance)
include hw hh hmax htolerance

theorem Config.contours_chaining :
    (cfg.chaining true).contours p = ((cfg.chaining false).contours p).map Contour.compressed := by
  have hdescribe : ∀ e, p.IsBoundary cfg.orientation e → ∀ label polarity r,
      (cfg.chaining true).describe (cfg.walkFrom p e) label polarity r =
        ((cfg.chaining false).describe (cfg.walkFrom p e) label polarity r).compressed := by
    intro e he
    exact describe_chaining htolerance (Trace.small_of_mem_run hw hh (run_eq_walkFrom hmax he))
  rw [contours, contours, List.map_append, List.map_map, List.map_map]
  refine congrArg₂ _ (List.map_congr_left fun a ha => ?_) (List.map_congr_left fun b hb => ?_)
  · exact hdescribe _ (isBoundary_outerEdge _ (List.mem_of_mem_filter ha)) _ _ _
  · change b ∈ if cfg.holes then holesByOwner p cfg.minPixels else [] at hb
    split_ifs at hb
    · obtain ⟨hmem, henclosed, -⟩ := mem_holesByOwner.1 hb
      exact hdescribe _ (isBoundary_holeEdge _ hmem henclosed) _ _ _
    · cases hb

/-- Finding blobs with compression is finding them without, and compressing each contour afterwards. -/
theorem find_chaining (hw' : 0 < p.width) (hh' : 0 < p.height) (hvalid : ¬cfg.tolerance < 0) :
    find p (cfg.chaining true) = (find p (cfg.chaining false)).map Result.compressed := by
  have hfind : ∀ on, find p (cfg.chaining on) = .ok
      ⟨p.width, p.height, (p.blobs cfg.minPixels).length, nonempty? ((cfg.chaining on).contours p), 0⟩ :=
    fun _ => find_eq hw' hh' hmax hvalid
  rw [hfind, hfind, Config.contours_chaining hw hh hmax htolerance, Except.map, Result.compressed_mk]

end

theorem Contour.TracedFrom.small {c : Contour} {e : Edge} {label : Int} {polarity : Polarity}
    {r : Region} (hw : p.width < 1073741824) (hh : p.height < 1073741824)
    (htolerance : ¬0 < cfg.tolerance)
    (h : c.TracedFrom p (cfg.chaining false) e label polarity r) : ∀ q ∈ c.pointList, q.Small := by
  obtain ⟨out, hrun, hpoints⟩ := h.points
  have hoff : (cfg.chaining false).outline out.points.toList = nonempty? out.points.toList := by
    simp [Config.outline, Config.chaining, htolerance]
  rw [Contour.pointList, hpoints, hoff, nonempty?_getD]
  exact Trace.small_of_mem_run hw hh hrun

/-- Compression changes nothing about a contour but its points and the mark on the first one. In a
picture of less than `2 ^ 30` rows and columns, and with outlines that are not thinned, finding blobs
without and with compression gives the same contours in the same order. The points of the second one of
each pair are the compressed points of the first one and enclose the same area. -/
theorem find_compresses (hw : 1 ≤ p.width) (hh : 1 ≤ p.height) (hw' : p.width < 2 ^ 30)
    (hh' : p.height < 2 ^ 30) (hmax : 0 ≤ cfg.maxLength)
    (htolerance : ¬cfg.tolerance < 0 ∧ ¬0 < cfg.tolerance) :
    ∃ res res', find p { cfg with chain := false } = .ok res ∧
      find p { cfg with chain := true } = .ok res' ∧ res'.components = res.components ∧
      Forall₂ (fun c c' =>
        c' = { c with
          points := nonempty? (Chain.simplify c.pointList false).1
          startRedundant := (Chain.simplify c.pointList false).2 } ∧
        shoelace c'.pointList = shoelace c.pointList) res.contourList res'.contourList := by
  obtain ⟨res, hres, hlist, houter, hholes⟩ :=
    find_eq_ok hw hh (show 0 ≤ (cfg.chaining false).maxLength from hmax) htolerance.1
  have hres' := find_chaining hw' hh' hmax htolerance.2 hw hh htolerance.1
  rw [hres] at hres'
  refine ⟨res, res.compressed, hres, hres', rfl, ?_⟩
  rw [Result.compressed, contourList_nonempty?, List.forall₂_map_right_iff, List.forall₂_same]
  intro c hc
  have hsmall : ∀ q ∈ c.pointList, q.Small := by
    rw [hlist, List.mem_append] at hc
    obtain hc | hc := hc
    · obtain ⟨_, -, htraced⟩ := forall_right_of_forall₂ houter c hc
      exact htraced.small hw' hh' htolerance.2
    · obtain ⟨_, -, htraced⟩ := forall_right_of_forall₂ hholes c hc
      exact htraced.small hw' hh' htolerance.2
  refine ⟨rfl, ?_⟩
  rw [Contour.compressed, Contour.pointList, nonempty?_getD]
  exact Chain.shoelace_simplify hsmall

/-- A capped walk around a square, whose last point is inside a side. -/
theorem find_compresses_square :
    let p : Picture := ⟨4, 4, fun _ _ => true⟩
    let cfg : Config := { maxLength := 8, hull := true }
    (1 ≤ p.width ∧ 1 ≤ p.height ∧ p.width < 2 ^ 30 ∧ p.height < 2 ^ 30 ∧ 0 ≤ cfg.maxLength ∧
      ¬cfg.tolerance < 0 ∧ ¬0 < cfg.tolerance) ∧
    ∃ res res', find p { cfg with chain := false } = .ok res ∧
      find p { cfg with chain := true } = .ok res' ∧ res'.components = res.components ∧
      Forall₂ (fun c c' =>
        c' = { c with
          points := nonempty? (Chain.simplify c.pointList false).1
          startRedundant := (Chain.simplify c.pointList false).2 } ∧
        shoelace c'.pointList = shoelace c.pointList) res.contourList res'.contourList :=
  ⟨by decide, find_compresses (by decide) (by decide) (by decide) (by decide) (by decide) (by decide)⟩

end Blob

end Perimeter
