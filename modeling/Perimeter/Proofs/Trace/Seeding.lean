import Perimeter.Proofs.Trace.Request
import Perimeter.Proofs.Walk.Separation

/-!
# Seeds and the boundary beside them

Resolving a seed is sound: the edge that comes out is a boundary edge, on the seed or one step ahead of
it, and stands for itself when it is a seed again. It is complete, too: an automatic choice of the
heading finds a boundary beside every ink pixel that has background, or the outside, somewhere around
it.
-/

namespace Perimeter

namespace Heading

variable {f : Heading → Bool} {h : Heading}

theorem forall_iff {P : Heading → Prop} : (∀ h, P h) ↔ P up ∧ P right ∧ P down ∧ P left := by
  constructor
  · intro h
    exact ⟨h up, h right, h down, h left⟩
  · rintro ⟨hup, hright, hdown, hleft⟩ (_ | _ | _ | _) <;> assumption

/-- Of the headings that pass a test, the first one has the least number. -/
theorem find?_all_eq_some :
    all.find? f = some h ↔ f h = true ∧ ∀ h', f h' = true → h.code ≤ h'.code := by
  simp only [forall_iff, all]
  cases hu : f up <;> cases hr : f right <;> cases hd : f down <;> cases hl : f left <;>
    cases h <;> simp [List.find?, hu, hr, hd, hl, code]

theorem find?_all_eq_none : all.find? f = none ↔ ∀ h, f h = false := by
  simp [mem_all]

end Heading

namespace Picture

variable {p : Picture} {o : Orientation} {x y : Int}

theorem inkLeft_apply_ahead (p : Picture) (o : Orientation) (e : Edge) :
    p.inkLeft o (e.apply o .ahead) = p.inkDiagonal o e := rfl

theorem inkLeft_apply_turn (p : Picture) (o : Orientation) (e : Edge) :
    p.inkLeft o (e.apply o .turn) = p.inkAhead e := by
  rw [inkLeft, e.leftPoint_apply_turn, inkAhead]

/-- Around an ink pixel there is background exactly if there is some on the bordering side, or diagonally
ahead, for one of the headings. -/
theorem exists_background_iff (hink : p.isInk x y = true) (o : Orientation) :
    (∃ q, q ≠ ⟨x, y⟩ ∧ Point.Touches true ⟨x, y⟩ q ∧ p.inkAt q = false) ↔
      ∃ h, p.inkLeft o ⟨x, y, h⟩ = false ∨ p.inkDiagonal o ⟨x, y, h⟩ = false := by
  constructor
  · rintro ⟨q, hne, htouches, hq⟩
    obtain ⟨h, rfl | rfl⟩ := htouches.exists_heading hne.symm o
    · -- What lies ahead is on the bordering side after a turn.
      exact ⟨h.turnRight o, .inl ((p.inkLeft_apply_turn o ⟨x, y, h⟩).trans hq)⟩
    · exact ⟨h, .inr hq⟩
  · have hne : ∀ q, p.inkAt q = false → q ≠ ⟨x, y⟩ := by
      rintro q hq rfl
      exact Bool.false_ne_true (hq.symm.trans hink)
    rintro ⟨h, hleft | hdiagonal⟩
    · exact ⟨_, hne _ hleft, Edge.touches_leftPoint o ⟨x, y, h⟩ true, hleft⟩
    · exact ⟨_, hne _ hdiagonal, Edge.touches_diagonalPoint o ⟨x, y, h⟩, hdiagonal⟩

end Picture

namespace Seed

variable {p : Picture} {o : Orientation} {x y : Int} {h : Heading} {e : Edge} {s : Seed}

/-! ## Explicit headings -/

/-- An explicit heading leads to the side of the seed, or around the corner in front of it to the side of
the pixel ahead. -/
theorem edgeToward_eq_ok :
    edgeToward p o x y h = .ok e ↔
      (p.inkLeft o ⟨x, y, h⟩ = false ∧ e = ⟨x, y, h⟩) ∨
      (p.inkLeft o ⟨x, y, h⟩ = true ∧ p.inkAhead ⟨x, y, h⟩ = true ∧
        p.inkDiagonal o ⟨x, y, h⟩ = false ∧ e = Edge.apply o ⟨x, y, h⟩ .ahead) := by
  simp only [edgeToward]
  cases hleft : p.inkLeft o ⟨x, y, h⟩ with
  | false => simp [hleft, eq_comm (a := e)]
  | true =>
    cases hahead : p.inkAhead ⟨x, y, h⟩ with
    | false => simp [hleft]
    | true =>
      simp only [Bool.and_self, if_true, p.inkLeft_apply_ahead]
      cases p.inkDiagonal o ⟨x, y, h⟩ <;> simp [eq_comm (a := e)]

/-- An ink seed is resolved to its start edge. -/
theorem resolve_eq_start {c : Course} (hink : p.isInk x y = true) (hcourse : ∀ n, c ≠ .unknown n) :
    resolve p o ⟨x, y, c⟩ = start p o ⟨x, y, c⟩ := by
  obtain ⟨hx, hy, hw, hh⟩ := Picture.contains_of_inkAt (q := ⟨x, y⟩) hink
  simp only at hx hy hw hh
  rw [resolve, check_eq_ok.2 ⟨hcourse, by omega, by omega, hink⟩]
  rfl

theorem exists_resolve_toward_iff (hink : p.isInk x y = true) :
    (∃ e, resolve p o ⟨x, y, .toward h⟩ = .ok e) ↔
      p.inkLeft o ⟨x, y, h⟩ = false ∨
      p.inkLeft o ⟨x, y, h⟩ = true ∧ p.inkAhead ⟨x, y, h⟩ = true ∧
        p.inkDiagonal o ⟨x, y, h⟩ = false := by
  rw [resolve_eq_start (c := .toward h) hink fun _ => nofun]
  simp only [start, edgeToward_eq_ok, exists_or, exists_and_left, exists_eq, and_true]

/-! ## Automatic headings -/

/-- A heading with background on the bordering side is picked before all others, the one with the least
number first. -/
theorem resolve_auto_of_inkLeft (hink : p.isInk x y = true)
    (hleft : ∃ h, p.inkLeft o ⟨x, y, h⟩ = false) :
    ∃ h, resolve p o ⟨x, y, .auto⟩ = .ok ⟨x, y, h⟩ ∧ p.inkLeft o ⟨x, y, h⟩ = false ∧
      ∀ h', p.inkLeft o ⟨x, y, h'⟩ = false → h.code ≤ h'.code := by
  cases hfind : Heading.all.find? fun h => !p.inkLeft o ⟨x, y, h⟩ with
  | none =>
    obtain ⟨h, hleft⟩ := hleft
    have hnone := Heading.find?_all_eq_none.1 hfind h
    rw [hleft] at hnone
    cases hnone
  | some h =>
    obtain ⟨hh, hleast⟩ := Heading.find?_all_eq_some.1 hfind
    simp only [Bool.not_eq_true'] at hh hleast
    refine ⟨h, ?_, hh, hleast⟩
    rw [resolve_eq_start (c := .auto) hink (fun _ => nofun), start, pickHeading, hfind]
    exact edgeToward_eq_ok.2 (.inl ⟨hh, rfl⟩)

/-- Without one, the corners of the pixel are tried in the same order. -/
theorem exists_resolve_auto_of_inkLeft (hink : p.isInk x y = true)
    (hleft : ∀ h, p.inkLeft o ⟨x, y, h⟩ = true) :
    (∃ e, resolve p o ⟨x, y, .auto⟩ = .ok e) ↔ ∃ h, p.inkDiagonal o ⟨x, y, h⟩ = false := by
  have hside : Heading.all.find? (fun h => !p.inkLeft o ⟨x, y, h⟩) = none :=
    Heading.find?_all_eq_none.2 fun h => by rw [hleft h]; rfl
  rw [resolve_eq_start (c := .auto) hink fun _ => nofun]
  simp only [start, pickHeading, hside]
  cases hfind : Heading.all.find? fun h => !p.inkDiagonal o ⟨x, y, h⟩ with
  | none =>
    have hnone : ∀ h, p.inkDiagonal o ⟨x, y, h⟩ = true := fun h => by
      simpa using Heading.find?_all_eq_none.1 hfind h
    simp [hnone]
  | some h =>
    have hdiagonal : p.inkDiagonal o ⟨x, y, h⟩ = false := by
      simpa using (Heading.find?_all_eq_some.1 hfind).1
    -- What lies ahead is ink, because it is on the bordering side after a turn.
    have hahead : p.inkAhead ⟨x, y, h⟩ = true :=
      (p.inkLeft_apply_turn o ⟨x, y, h⟩).symm.trans (hleft (h.turnRight o))
    exact iff_of_true ⟨_, edgeToward_eq_ok.2 (.inr ⟨hleft h, hahead, hdiagonal, rfl⟩)⟩ ⟨h, hdiagonal⟩

theorem exists_resolve_auto_iff (hink : p.isInk x y = true) :
    (∃ e, resolve p o ⟨x, y, .auto⟩ = .ok e) ↔
      ∃ q, q ≠ ⟨x, y⟩ ∧ Point.Touches true ⟨x, y⟩ q ∧ p.inkAt q = false := by
  rw [Picture.exists_background_iff hink o, exists_or]
  by_cases hleft : ∃ h, p.inkLeft o ⟨x, y, h⟩ = false
  · obtain ⟨h, hok, -⟩ := resolve_auto_of_inkLeft hink hleft
    exact iff_of_true ⟨_, hok⟩ (.inl hleft)
  · rw [or_iff_right hleft]
    exact exists_resolve_auto_of_inkLeft hink fun h => by simpa using not_exists.1 hleft h

/-! ## Edges -/

/-- The edge of a seed is on the pixel of the seed or on the one ahead of it. -/
theorem point_of_start (hok : s.start p o = .ok e) :
    (∀ h, s.course = .toward h → e.heading = h) ∧
      (e.point = ⟨s.x, s.y⟩ ∨ e.point = Edge.aheadPoint ⟨s.x, s.y, e.heading⟩) := by
  have htoward : ∀ h, edgeToward p o s.x s.y h = .ok e → e.heading = h ∧
      (e.point = ⟨s.x, s.y⟩ ∨ e.point = Edge.aheadPoint ⟨s.x, s.y, e.heading⟩) := by
    intro h htoward
    obtain ⟨-, rfl⟩ | ⟨-, -, -, rfl⟩ := edgeToward_eq_ok.1 htoward
    · exact ⟨rfl, .inl rfl⟩
    · exact ⟨rfl, .inr rfl⟩
  simp only [start] at hok
  split at hok
  case h_1 h hcourse =>
    obtain ⟨hheading, hpoint⟩ := htoward h hok
    exact ⟨fun h' hh' => by rw [hcourse, Course.toward.injEq] at hh'; rw [← hh', hheading], hpoint⟩
  case h_2 hcourse =>
    refine ⟨fun h hh => absurd hh (hcourse h), ?_⟩
    split at hok
    · exact (htoward _ hok).2
    · cases hok

/-- Resolving a seed is sound and complete. What comes out is a boundary edge on the seed or one step
ahead of it, and as a seed it stands for itself. From ink an automatic choice finds an edge exactly if
one of the eight pixels around it is background, first of all on the side that has the least number,
and an explicit heading does exactly if the boundary passes there, beside the seed or around the corner
in front of it. -/
theorem resolve_finds_boundary (p : Picture) (o : Orientation) :
    (∀ (s : Seed) (e : Edge), s.resolve p o = .ok e →
      p.IsBoundary o e ∧ (e.point = ⟨s.x, s.y⟩ ∨ e.point = Edge.aheadPoint ⟨s.x, s.y, e.heading⟩) ∧
        (∀ h, s.course = .toward h → e.heading = h) ∧ e.seed.resolve p o = .ok e) ∧
    ∀ x y, p.isInk x y = true →
      ((∃ e, resolve p o ⟨x, y, .auto⟩ = .ok e) ↔
        ∃ q, q ≠ ⟨x, y⟩ ∧ Point.Touches true ⟨x, y⟩ q ∧ p.inkAt q = false) ∧
      ((∃ h, p.inkLeft o ⟨x, y, h⟩ = false) →
        ∃ h, resolve p o ⟨x, y, .auto⟩ = .ok ⟨x, y, h⟩ ∧ p.inkLeft o ⟨x, y, h⟩ = false ∧
          ∀ h', p.inkLeft o ⟨x, y, h'⟩ = false → h.code ≤ h'.code) ∧
      ∀ h, (∃ e, resolve p o ⟨x, y, .toward h⟩ = .ok e) ↔
        p.inkLeft o ⟨x, y, h⟩ = false ∨
        p.inkLeft o ⟨x, y, h⟩ = true ∧ p.inkAhead ⟨x, y, h⟩ = true ∧
          p.inkDiagonal o ⟨x, y, h⟩ = false := by
  constructor
  · intro s e hok
    obtain ⟨hcheck, hstart⟩ := resolve_eq_ok.1 hok
    have hboundary := isBoundary_start (check_eq_ok.1 hcheck).2.2.2 hstart
    obtain ⟨hheading, hpoint⟩ := point_of_start hstart
    exact ⟨hboundary, hpoint, hheading, resolve_eq_ok.2 ⟨hboundary.check_seed, hboundary.start_seed⟩⟩
  · intro x y hink
    exact ⟨exists_resolve_auto_iff hink, resolve_auto_of_inkLeft hink,
      fun h => exists_resolve_toward_iff hink⟩

/-- A square of nine pixels that lacks a corner: from its middle the boundary is around that corner, and
beside the pixel below the corner it is on two sides. -/
theorem resolve_finds_boundary_corner :
    let p : Picture := ⟨3, 3, fun x y => x + y != 0⟩
    let e : Edge := ⟨1, 0, .up⟩
    resolve p .clockwise ⟨1, 1, .auto⟩ = .ok e ∧ p.IsBoundary .clockwise e ∧
      (e.point = ⟨1, 1⟩ ∨ e.point = Edge.aheadPoint ⟨1, 1, e.heading⟩) ∧
      e.seed.resolve p .clockwise = .ok e ∧
    p.isInk 1 1 = true ∧
      ((∃ e, resolve p .clockwise ⟨1, 1, .auto⟩ = .ok e) ↔
        ∃ q, q ≠ ⟨1, 1⟩ ∧ Point.Touches true ⟨1, 1⟩ q ∧ p.inkAt q = false) ∧
    p.isInk 0 1 = true ∧ (∃ h, p.inkLeft .clockwise ⟨0, 1, h⟩ = false) ∧
      ∃ h, resolve p .clockwise ⟨0, 1, .auto⟩ = .ok ⟨0, 1, h⟩ ∧
        p.inkLeft .clockwise ⟨0, 1, h⟩ = false ∧
        ∀ h', p.inkLeft .clockwise ⟨0, 1, h'⟩ = false → h.code ≤ h'.code := by
  intro p e
  have hleft : ∃ h, p.inkLeft .clockwise ⟨0, 1, h⟩ = false := ⟨.up, by decide⟩
  obtain ⟨hsound, hcomplete⟩ := resolve_finds_boundary p .clockwise
  obtain ⟨hboundary, hpoint, -, hagain⟩ := hsound ⟨1, 1, .auto⟩ e rfl
  exact ⟨rfl, hboundary, hpoint, hagain, by decide, (hcomplete 1 1 (by decide)).1, by decide, hleft,
    (hcomplete 0 1 (by decide)).2.1 hleft⟩

end Seed

end Perimeter
