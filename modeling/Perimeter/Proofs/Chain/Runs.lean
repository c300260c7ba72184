import Perimeter.Proofs.Chain.Legs
import Perimeter.Proofs.Geometry.Straighten

/-!
# Chains straighten contours

A chain leaves a point out only inside a run, where it is between its neighbours. So the area and the
hull of a compressed contour are those of the contour.
-/

namespace Perimeter

theorem Point.Small.wide {p : Point} (h : p.Small) : p.Wide := by
  simp only [Point.Small] at h
  simp only [Point.Wide]
  omega

namespace Chain

variable {l rest : List Point} {a : Leg} {d : Int} {p q r : Point}

theorem Leads.between (h : Leads d r p) (h' : Leads d p q) (hd : d ≠ 0) : Between r p q := by
  have hne := ((h.trans h' hd).straight hd).ne
  obtain ⟨m, n, u, v, hm, hn, -, -, rfl, rfl⟩ := h.exists_shift_shift h' hd
  refine ⟨hne, m, n, by omega, by omega, ?_, ?_⟩ <;>
  · simp only [Point.shift, Nat.cast_add]
    ring

/-- The points that a chain keeps on a path are the path with points between their neighbours left out. -/
theorem straightens_legs (ha : a.Reaches p) (hl : ∀ q ∈ p :: rest, q.Wide) :
    Straightens (a.point :: p :: rest)
      (a.point :: ((legs a.code p rest).map Leg.point ++ [rest.getLastD p])) := by
  -- Along the path, after the start of the leg under way.
  induction rest generalizing a p with
  | nil => exact .refl
  | cons q rest ih =>
    obtain ⟨hp, hwide⟩ := List.forall_mem_cons.1 hl
    have hq : q.Wide := hwide q List.mem_cons_self
    rw [legs, List.getLastD_cons]
    split_ifs with hcode
    · exact (ih (a := ⟨p, stepCode p q⟩) (Leg.reaches_step hp hq) hwide).cons a.point
    · -- The run goes on, and `p` is between its start and `q`.
      obtain ⟨hne, hstep⟩ := leads_of_continues hp hq hcode
      exact .head (Straighter.drop [] rest ((ha.leads hne).between hstep hne))
        (ih (ha.step hp hq hcode) hwide)

/-- Going once around a contour that starts at `p` and going around its compressed form. -/
theorem straightens_simplify (hl : ∀ q ∈ p :: rest, q.Wide) :
    Straightens (p :: rest ++ [p]) ((simplify (p :: rest) false).1 ++ [p]) := by
  rw [simplify_false]
  cases rest with
  | nil => simpa [tour, legs] using .refl
  | cons q rest =>
    obtain ⟨hfirst, hround⟩ := reaches_first hl
    have hlegs := straightens_legs hfirst hround
    rw [List.getLastD_concat] at hlegs
    rw [tour_cons_cons]
    exact hlegs

/-- A compressed contour starts where the contour does. -/
theorem exists_simplify_eq_cons (p : Point) (rest : List Point) :
    ∃ rest', (simplify (p :: rest) false).1 = p :: rest' := by
  rw [simplify_false]
  exact List.head?_eq_some_iff.1 (head?_tour (p :: rest))

theorem shoelace_simplify (hl : ∀ q ∈ l, q.Small) : shoelace (simplify l false).1 = shoelace l := by
  cases l with
  | nil => rfl
  | cons p rest =>
    have hsweep := (straightens_simplify fun q hq => (hl q hq).wide).sweep_eq
    obtain ⟨rest', hkept⟩ := exists_simplify_eq_cons p rest
    rw [hkept] at hsweep ⊢
    rw [shoelace_eq_sweep, shoelace_eq_sweep, hsweep]

theorem polygonArea_simplify (hl : ∀ q ∈ l, q.Small) :
    polygonArea (simplify l false).1 = polygonArea l := by
  rw [polygonArea_eq_abs, polygonArea_eq_abs, shoelace_simplify hl]

theorem convexHull_simplify (hl : ∀ q ∈ l, q.Small) :
    convexHull (simplify l false).1 = convexHull l := by
  cases l with
  | nil => rfl
  | cons p rest =>
    obtain ⟨rest', hkept⟩ := exists_simplify_eq_cons p rest
    have hstraightens := straightens_simplify fun q hq => (hl q hq).wide
    rw [hkept] at hstraightens ⊢
    -- Coming back to the first point adds no point, neither to the contour nor to its compressed form.
    have hback : ∀ (k : List Point) (v : Point), v ∈ p :: k ++ [p] ↔ v ∈ p :: k := by
      intro k v
      simp only [List.mem_append, List.mem_cons, List.not_mem_nil, or_false]
      tauto
    have hround : ∀ q ∈ p :: rest ++ [p], q.Small := fun q hq => hl q ((hback rest q).1 hq)
    have hround' : ∀ q ∈ p :: rest' ++ [p], q.Small := fun q hq => hround q (hstraightens.subset q hq)
    calc convexHull (p :: rest')
      _ = convexHull (p :: rest' ++ [p]) := (convexHull_congr hround' (hback rest')).symm
      _ = convexHull (p :: rest ++ [p]) := hstraightens.convexHull_eq hround
      _ = convexHull (p :: rest) := convexHull_congr hround (hback rest)

end Chain

end Perimeter
