import Perimeter.Proofs.Blob.Turning
import Perimeter.Proofs.Walk.Suppression

/-!
# Holes and their walks

A walk separates the component of its start from the region on its bordering side. Around a hole these
are the owner of the hole and the hole itself, whose pixels all lie inside the image. So the image
border does not come in, and border suppression leaves the contours of holes alone.
-/

namespace Perimeter.Blob

open List (Forall₂)

variable {p : Picture} {cfg : Config} {b : Point}

/-- The contour was walked from the edge. -/
structure Contour.WalkedFrom (c : Contour) (p : Picture) (cfg : Config) (e : Edge) : Prop where
  walk : c.walk p cfg = .ok
    (Trace.freePlan cfg.traceOptions e (Trace.effectiveLimit p cfg.maxLength))
  points : c.points = cfg.outline
    ((Trace.freePlan cfg.traceOptions e (Trace.effectiveLimit p cfg.maxLength)).run p).points.toList

theorem Contour.TracedFrom.walkedFrom {c : Contour} {e : Edge} {label : Int} {polarity : Polarity}
    {r : Region} (h : c.TracedFrom p cfg e label polarity r) (hmax : 0 ≤ cfg.maxLength)
    (he : p.IsBoundary cfg.orientation e) : c.WalkedFrom p cfg e :=
  ⟨h.walk_eq hmax he, h.points_eq (h.walk_eq hmax he)⟩

/-- The contour lines the hole from inside its owner: its walk has the owner's pixels on the one hand and
the hole's on the other. -/
structure Contour.Lines (c : Contour) (p : Picture) (cfg : Config) (b : Point) : Prop where
  reports : c.Reports p b (p.rank b.above)
  separates : ∃ plan, c.walk p cfg = .ok plan ∧
    c.points = cfg.outline (plan.run p).points.toList ∧
    ∀ e, plan.StandsOn p e →
      e.point ∈ p.region b.above ∧ e.leftPoint cfg.orientation ∈ p.region b

theorem Contour.TracedFrom.lines {c : Contour}
    (h : c.TracedFrom p cfg (holeEdge cfg.orientation b) (p.rank b.above) .hole (p.record b))
    (hmax : 0 ≤ cfg.maxLength) (hb : b ∈ p.firsts false) (henclosed : p.Enclosed b) :
    c.Lines p cfg b := by
  have hedge := isBoundary_holeEdge cfg.orientation hb henclosed
  have hfrom := h.walkedFrom hmax hedge
  refine ⟨h.reports (Picture.mem_firsts.1 hb).2.contains, _, hfrom.walk, hfrom.points, ?_⟩
  intro e he
  obtain ⟨n, rfl⟩ := he.exists_iterate hedge
  exact ⟨hedge.joined_iterate n, joined_leftPoint_holeEdge cfg.orientation hb henclosed n⟩

/-- A walk around a hole sees no image border. -/
theorem entersInside_holeEdge (hsize : p.WordSized) (o : Orientation) (hb : b ∈ p.firsts false)
    (henclosed : p.Enclosed b) (n : Nat) :
    p.entersInside o ((p.nextEdge o)^[n] (holeEdge o b)) = true := by
  have hedge := (isBoundary_holeEdge o hb henclosed).iterate n
  have hside := joined_leftPoint_holeEdge o hb henclosed n
  exact Picture.entersInside_of_leftIsBorder_eq_false
    (hedge.leftIsBorder_eq_false hsize (hside.contains (Picture.mem_firsts.1 hb).2.contains))

/-- The points of a hole are those of its walk without border suppression. -/
theorem Contour.TracedFrom.points_hole {c : Contour}
    (h : c.TracedFrom p cfg (holeEdge cfg.orientation b) (p.rank b.above) .hole (p.record b))
    (hsize : p.WordSized) (hmax : 0 ≤ cfg.maxLength) (hb : b ∈ p.firsts false)
    (henclosed : p.Enclosed b) :
    cfg.outline (((Trace.freePlan cfg.traceOptions (holeEdge cfg.orientation b)
      (Trace.effectiveLimit p cfg.maxLength)).suppressing false).run p).points.toList = c.points := by
  have hedge := isBoundary_holeEdge cfg.orientation hb henclosed
  rw [(h.walkedFrom hmax hedge).points, Walk.Plan.run_suppressing_eq hsize hedge]
  exact entersInside_holeEdge hsize cfg.orientation hb henclosed

theorem exists_find (p : Picture) (cfg : Config) (hw : 0 < p.width) (hh : 0 < p.height)
    (hmax : 0 ≤ cfg.maxLength) (htolerance : ¬cfg.tolerance < 0) : ∃ res, find p cfg = .ok res :=
  ⟨_, find_eq hw hh hmax htolerance⟩

theorem valid_of_find {res : Result} (h : find p cfg = .ok res) :
    0 < p.width ∧ 0 < p.height ∧ 0 ≤ cfg.maxLength ∧ ¬cfg.tolerance < 0 := by
  have hcheck : check p cfg = .ok () := by
    rw [find] at h
    cases hc : check p cfg with
    | error f => rw [hc] at h; cases h
    | ok u => rfl
  simp only [check] at hcheck
  split_ifs at hcheck with hsize hmax htolerance
  exact ⟨by omega, by omega, by omega, htolerance⟩

theorem traced_of_find {res : Result} (h : find p cfg = .ok res) :
    Forall₂ (fun b c => (b ∈ p.firsts false ∧ p.Enclosed b) ∧
        c.TracedFrom p cfg (holeEdge cfg.orientation b) (p.rank b.above) .hole (p.record b))
      (if cfg.holes then holesByOwner p cfg.minPixels else []) res.holes := by
  obtain ⟨hw, hh, hmax, htolerance⟩ := valid_of_find h
  obtain ⟨res', hres', -, -, hholes⟩ := find_eq_ok (p := p) hw hh hmax htolerance
  rw [h, Except.ok.injEq] at hres'
  subst hres'
  refine (List.forall₂_and_left _ _).2 ⟨?_, hholes⟩
  intro b hb
  split_ifs at hb
  · obtain ⟨hfirst, henclosed, -⟩ := mem_holesByOwner.1 hb
    exact ⟨hfirst, henclosed⟩
  · cases hb

/-- The points of the hole contours do not depend on border suppression. -/
theorem points_of_find (hsize : p.WordSized) {res : Result} (h : find p cfg = .ok res) :
    (if cfg.holes then holesByOwner p cfg.minPixels else []).map (fun b =>
      cfg.outline (((Trace.freePlan cfg.traceOptions (holeEdge cfg.orientation b)
        (Trace.effectiveLimit p cfg.maxLength)).suppressing false).run p).points.toList) =
      res.holes.map (·.points) := by
  have hmax := (valid_of_find h).2.2.1
  rw [← List.forall₂_eq_eq_eq, List.forall₂_map_left_iff, List.forall₂_map_right_iff]
  refine (traced_of_find h).imp ?_
  rintro b c ⟨⟨hfirst, henclosed⟩, htraced⟩
  exact htraced.points_hole hsize hmax hfirst henclosed

/-- Every walk separates what its start separates, and keeps to one component and one region of the
plane with all of its edges. So the walk of a hole keeps to the hole and its owner, and turning on border
suppression does not change the points of a hole. -/
theorem walks_separate (p : Picture) :
    (∀ (s : Seed) (opts : Trace.Options) (out : Walk.Outcome), Trace.run p s opts = .ok out →
      ∃ plan, Trace.plan p s opts = .ok plan ∧ plan.run p = out ∧
        ∀ e, plan.StandsOn p e → p.Separates opts.orientation out.result.start e) ∧
    ∀ (cfg : Config) (res : Result), find p cfg = .ok res →
      Forall₂ (fun b c => c.Lines p cfg b)
        (if cfg.holes then holesByOwner p cfg.minPixels else []) res.holes ∧
      (p.WordSized → ∃ res', find p { cfg with suppressBorder := true } = .ok res' ∧
        res'.holes.map (·.points) = res.holes.map (·.points)) := by
  constructor
  · intro s opts out hout
    obtain ⟨plan, hplan, hrun⟩ := Trace.run_eq_ok.1 hout
    obtain ⟨horientation, hstart⟩ := Trace.isBoundary_of_plan hplan
    rw [← horientation] at hstart ⊢
    refine ⟨plan, hplan, hrun, fun e he => ?_⟩
    rw [← hrun]
    exact he.separates hstart
  · intro cfg res hres
    obtain ⟨hw, hh, hmax, htolerance⟩ := valid_of_find hres
    constructor
    · refine (traced_of_find hres).imp ?_
      rintro b c ⟨⟨hfirst, henclosed⟩, htraced⟩
      exact htraced.lines hmax hfirst henclosed
    · intro hsize
      obtain ⟨res', hres'⟩ := exists_find p { cfg with suppressBorder := true } hw hh hmax htolerance
      have hon := points_of_find hsize hres'
      have hoff := points_of_find hsize hres
      exact ⟨res', hres', hon.symm.trans hoff⟩

/-- A ring around one background pixel: the walk outside, cut after three steps, and the hole. -/
theorem walks_separate_ring :
    let p : Picture := ⟨3, 3, fun x y => x != 1 || y != 1⟩
    let s : Seed := ⟨0, 0, .auto⟩
    let opts : Trace.Options := { maxLength := 3 }
    (∃ out, Trace.run p s opts = .ok out ∧ ∃ plan, Trace.plan p s opts = .ok plan ∧
      plan.run p = out ∧ ∀ e, plan.StandsOn p e → p.Separates opts.orientation out.result.start e) ∧
    ∃ res, find p {} = .ok res ∧
      Forall₂ (fun b c => c.Lines p {} b) (holesByOwner p 1) res.holes ∧
      ∃ res', find p { suppressBorder := true } = .ok res' ∧
        res'.holes.map (·.points) = res.holes.map (·.points) := by
  intro p s opts
  obtain ⟨res, hres⟩ := exists_find p {} (by decide) (by decide) (by decide) (by decide)
  obtain ⟨hlines, hpoints⟩ := (walks_separate p).2 {} res hres
  exact ⟨⟨_, rfl, (walks_separate p).1 s opts _ rfl⟩, res, hres, hlines, hpoints (by decide)⟩

end Perimeter.Blob
