import Perimeter.Proofs.Blob.Find
import Perimeter.Proofs.Trace.Closing
import Perimeter.Proofs.Walk.Separation

/-!
# Outer contours turn right, holes turn left

The outer walk around a component stays on the component, and the walk around a hole keeps the hole
beside it. So neither of them comes to a side above the first pixel of its region, where it started,
and what lies above that side tells which way around the walk goes.
-/

namespace Perimeter

open Function

/-- The bordering side lies between the pixel and the bordering pixel. -/
theorem Edge.middle_eq_leftPoint (o : Orientation) (e : Edge) :
    e.middle o = (2 * (e.leftPoint o).x + (e.heading.turnLeft o).reverse.dx,
      2 * (e.leftPoint o).y + (e.heading.turnLeft o).reverse.dy) := by
  simp only [middle, leftPoint, Heading.dx_reverse, Heading.dy_reverse, Prod.mk.injEq]
  omega

namespace Picture

variable {p : Picture} {o : Orientation} {e : Edge} {a b c : Point}

/-! ## Where a contour stays -/

/-- Background next to a pixel of an enclosed background region belongs to the region. -/
theorem Enclosed.joined_of_touches (h : p.Enclosed a) (hb : p.Joined a b) (ha : p.Contains a.x a.y)
    (hink : p.inkAt a = false) (hc : p.inkAt c = false) (htouch : b.Touches false c) :
    p.Joined a c := by
  obtain ⟨hx, hy, hw, hh⟩ := hb.contains ha
  have hinside := h b hb
  have hbink := hb.inkAt_eq.trans hink
  have hin : p.Contains c.x c.y := by
    simp only [Point.OnBorder, Point.Touches, Bool.false_eq_true, if_false] at hinside htouch
    simp only [Contains]
    omega
  refine hb.tail ⟨hb.contains ha, hin, hc.trans hbink.symm, ?_⟩
  rw [hbink]
  exact htouch

/-- An enclosed background region is all there is of it in the plane. -/
theorem Enclosed.joined_of_connected (h : p.Enclosed a) (ha : p.Contains a.x a.y)
    (hink : p.inkAt a = false) (hb : p.Connected a b) : p.Joined a b := by
  induction hb with
  | refl => exact .refl
  | tail hb hl ih =>
    have hbink := (Connected.inkAt_eq hb).trans hink
    have htouch := hl.touches
    rw [hbink] at htouch
    exact h.joined_of_touches ih ha hink (hl.colour.trans hbink) htouch

/-- The whole walk keeps the same enclosed background region on the bordering side. -/
theorem Enclosed.joined_leftPoint_iterate (h : p.Enclosed a) (ha : p.Contains a.x a.y)
    (hink : p.inkAt a = false) (he : p.IsBoundary o e) (hleft : p.Joined a (e.leftPoint o)) (n : Nat) :
    p.Joined a (((p.nextEdge o)^[n] e).leftPoint o) :=
  h.joined_of_connected ha hink (hleft.connected.trans (he.connected_leftPoint_iterate n))

/-! ## The side above a first pixel -/

/-- A contour all of whose sides are sides of one region, and which passes above the first pixel of
that region, has its top edge there. -/
theorem IsBoundary.isTop_of_isFirst (h : p.IsBoundary o e) (hfirst : p.IsFirst a)
    (hmiddle : e.middle o = (2 * a.x, 2 * a.y - 1))
    (hsides : ∀ i, ∃ b : Point, ∃ d : Heading, p.Joined a b ∧
      ((p.nextEdge o)^[i] e).middle o = (2 * b.x + d.dx, 2 * b.y + d.dy)) :
    p.IsTop o e := by
  intro i hpos hi
  obtain ⟨b, d, hjoined, hside⟩ := hsides i
  have hne : ((p.nextEdge o)^[i] e).middle o ≠ e.middle o := by
    intro heq
    exact iterate_ne_self hpos hi ((h.iterate i).eq_of_middle_eq h heq)
  rw [path, path, iterate_zero_apply, hside, hmiddle]
  rw [hside, hmiddle, Ne, Prod.mk.injEq] at hne
  have hafter : b = a ∨ a.Before b := hfirst.before b hjoined
  -- Only the upper side of a pixel lies higher than the pixel itself.
  have hrow : a.y < b.y ∨ a.y = b.y ∧ a.x ≤ b.x := by
    rcases hafter with rfl | hbefore
    · omega
    · simp only [Point.Before] at hbefore
      omega
  have hup : d.dy = -1 ∧ d.dx = 0 ∨ 0 ≤ d.dy := by
    cases d <;> decide
  simp only
  omega

end Picture

namespace Blob

variable {p : Picture} {cfg : Config} {a b : Point}

theorem middle_outerEdge (o : Orientation) (a : Point) :
    (outerEdge o a).middle o = (2 * a.x, 2 * a.y - 1) := by
  rw [Edge.middle, outerEdge, turnLeft_outerHeading]
  simp only [Heading.dx, Heading.dy, Prod.mk.injEq]
  omega

theorem middle_holeEdge (o : Orientation) (b : Point) :
    (holeEdge o b).middle o = (2 * b.x, 2 * b.y - 1) := by
  rw [Edge.middle, holeEdge, turnLeft_holeHeading]
  simp only [Heading.dx, Heading.dy, Prod.mk.injEq]
  omega

/-- One round around a component makes four quarter turns to the right. -/
theorem turnsIn_outerEdge (o : Orientation) (ha : a ∈ p.firsts true) :
    p.turnsIn o (outerEdge o a) (p.round o (outerEdge o a)) = 4 := by
  have hedge := isBoundary_outerEdge o ha
  have htop := hedge.isTop_of_isFirst (Picture.mem_firsts.1 ha).2 (middle_outerEdge o a)
    fun i => ⟨_, _, hedge.joined_iterate i, rfl⟩
  rw [(hedge.turnsIn_of_isTop htop).2, outerEdge, if_pos (turnLeft_outerHeading o)]

/-- The walk around a hole has the hole on its bordering side. -/
theorem joined_leftPoint_holeEdge (o : Orientation) (hb : b ∈ p.firsts false)
    (henclosed : p.Enclosed b) (n : Nat) :
    p.Joined b (((p.nextEdge o)^[n] (holeEdge o b)).leftPoint o) := by
  obtain ⟨hink, hfirst⟩ := Picture.mem_firsts.1 hb
  have hleft : p.Joined b ((holeEdge o b).leftPoint o) := by
    rw [leftPoint_holeEdge]
    exact .refl
  exact henclosed.joined_leftPoint_iterate hfirst.contains hink
    (isBoundary_holeEdge o hb henclosed) hleft n

/-- One round around a hole makes four quarter turns to the left. -/
theorem turnsIn_holeEdge (o : Orientation) (hb : b ∈ p.firsts false) (henclosed : p.Enclosed b) :
    p.turnsIn o (holeEdge o b) (p.round o (holeEdge o b)) = -4 := by
  have hedge := isBoundary_holeEdge o hb henclosed
  have htop := hedge.isTop_of_isFirst (Picture.mem_firsts.1 hb).2 (middle_holeEdge o b)
    fun i => ⟨_, _, joined_leftPoint_holeEdge o hb henclosed i, Edge.middle_eq_leftPoint o _⟩
  have hdown : (holeEdge o b).heading.turnLeft o ≠ .up := by
    rw [holeEdge, turnLeft_holeHeading]
    decide
  rw [(hedge.turnsIn_of_isTop htop).2, if_neg hdown]

/-- The turns of a contour without a cap are those of one round. -/
theorem Contour.TracedFrom.turns_eq {c : Contour} {e : Edge} {label : Int} {polarity : Polarity}
    {r : Region} (h : c.TracedFrom p cfg e label polarity r) (hfit : p.Fits)
    (hmax : cfg.maxLength = 0) (he : p.IsBoundary cfg.orientation e) :
    c.turns = p.turnsIn cfg.orientation e (p.round cfg.orientation e) := by
  obtain ⟨out, hout, hturns⟩ := h.turns
  have hseed : e.seed.resolve p cfg.traceOptions.orientation = .ok e :=
    Seed.resolve_eq_ok.2 ⟨he.check_seed, he.start_seed⟩
  obtain ⟨-, hrun⟩ := Trace.run_eq_roundTrip hfit cfg.traceOptions hmax rfl hseed
  rw [hrun, Except.ok.injEq] at hout
  rw [hturns, ← hout, Trace.roundTrip_result]
  rfl

/-- A closed walk turns once around: to the right around a component, and to the left around a hole. -/
theorem closed_turns (hfit : p.Fits) :
    (∀ (s : Seed) (opts : Trace.Options) (start : Edge), opts.maxLength = 0 → opts.stopAt = none →
      s.resolve p opts.orientation = .ok start →
      ∃ out, Trace.run p s opts = .ok out ∧ (out.result.turns = 4 ∨ out.result.turns = -4)) ∧
    (∀ cfg : Config, 1 ≤ p.width → 1 ≤ p.height → cfg.maxLength = 0 → ¬cfg.tolerance < 0 →
      ∃ res, find p cfg = .ok res ∧ ∀ c ∈ res.contourList,
        (c.polarity = .outer ∧ c.turns = 4) ∨ (c.polarity = .hole ∧ c.turns = -4)) := by
  constructor
  · intro s opts start hmax hstop hseed
    obtain ⟨hstart, hrun⟩ := Trace.run_eq_roundTrip hfit opts hmax hstop hseed
    refine ⟨_, hrun, ?_⟩
    rw [Trace.roundTrip_result]
    exact hstart.turnsIn_round
  · intro cfg hw hh hmax htolerance
    obtain ⟨res, hres, hlist, houter, hholes⟩ := find_eq_ok hw hh (by omega) htolerance
    refine ⟨res, hres, ?_⟩
    intro c hc
    rw [hlist, List.mem_append] at hc
    rcases hc with hc | hc
    · obtain ⟨a, ha, htraced⟩ := forall_right_of_forall₂ houter c hc
      have hmem := List.mem_of_mem_filter ha
      refine .inl ⟨htraced.polarity, ?_⟩
      rw [htraced.turns_eq hfit hmax (isBoundary_outerEdge _ hmem), turnsIn_outerEdge _ hmem]
    · obtain ⟨b, hb, htraced⟩ := forall_right_of_forall₂ hholes c hc
      split_ifs at hb
      · obtain ⟨hmem, henclosed, -⟩ := mem_holesByOwner.1 hb
        refine .inr ⟨htraced.polarity, ?_⟩
        rw [htraced.turns_eq hfit hmax (isBoundary_holeEdge _ hmem henclosed),
          turnsIn_holeEdge _ hmem henclosed]
      · cases hb

/-- A ring around one background pixel, with its hole. -/
theorem closed_turns_ring :
    let p : Picture := ⟨3, 3, fun x y => x != 1 || y != 1⟩
    p.Fits ∧ Seed.resolve p .counterclockwise ⟨0, 0, .auto⟩ = .ok ⟨0, 0, .down⟩ ∧
    (∃ out, Trace.run p ⟨0, 0, .auto⟩ {} = .ok out ∧
      (out.result.turns = 4 ∨ out.result.turns = -4)) ∧
    (∃ res, find p {} = .ok res ∧ ∀ c ∈ res.contourList,
      (c.polarity = .outer ∧ c.turns = 4) ∨ (c.polarity = .hole ∧ c.turns = -4)) :=
  ⟨by decide, rfl, (closed_turns (by decide)).1 ⟨0, 0, .auto⟩ {} ⟨0, 0, .down⟩ rfl rfl rfl,
    (closed_turns (by decide)).2 {} (by decide) (by decide) rfl (by decide)⟩

end Blob

end Perimeter
