import Perimeter.Proofs.Trace.Closing
import Perimeter.Proofs.Trace.Resume
import Perimeter.Proofs.Trace.Visits
import Perimeter.Proofs.Walk.Separation

/-!
# Walks cut in two

A closed walk can be cut on any of its edges: one walk from its start to the cut, and one from the cut
back to the start. Both halves count and emit what the whole does on the same edges, so together they
are the whole, also where the cut falls between two turns on one pixel. The exception is an isolated
pixel. The whole walk around it makes no step and still counts as one, but neither half of it ends where
it began, so neither of them counts the pixel.
-/

namespace Perimeter

open Function

/-! ## Isolated pixels -/

theorem Edge.point_apply_ne (o : Orientation) (e : Edge) {m : Move} (h : m ≠ .turn) :
    (e.apply o m).point ≠ e.point := by
  intro heq
  have hstep := e.distance_apply o h
  rw [heq, Point.distance_self] at hstep
  cases hstep

namespace Picture

variable {p : Picture} {o : Orientation} {e : Edge}

/-- Whoever only turns on the spot comes to face every heading. -/
theorem exists_iterate_heading (h : ∀ i, p.moveAt o e i = .turn) (d : Heading) :
    ∃ i, (p.nextEdge o)^[i] e = ⟨e.x, e.y, d⟩ := by
  have hturned : ∀ i, (p.nextEdge o)^[i] e = ⟨e.x, e.y, (Heading.turnRight o)^[i] e.heading⟩ := by
    intro i
    induction i with
    | zero => rfl
    | succ i ih =>
      have hmove := h i
      rw [moveAt, ih] at hmove
      rw [iterate_succ_apply', ih, nextEdge, hmove, iterate_succ_apply']
      rfl
  have hheading : ∃ i ∈ List.range 4, (Heading.turnRight o)^[i] e.heading = d := by
    cases o <;> cases e.heading <;> cases d <;> decide
  obtain ⟨i, -, hi⟩ := hheading
  exact ⟨i, by rw [hturned, hi]⟩

theorem IsBoundary.region_eq_singleton (he : p.IsBoundary o e) (h : ∀ i, p.moveAt o e i = .turn) :
    p.region e.point = {e.point} := by
  have hink : p.inkAt e.point = true := he.1
  have halone : ∀ b, p.Linked e.point b → b = e.point := by
    intro b hb
    by_contra hne
    have htouches := hb.touches
    rw [hink] at htouches
    have hink' : p.inkAt b = true := hb.colour.trans hink
    obtain ⟨d, hd⟩ := htouches.exists_heading (Ne.symm hne) o
    obtain ⟨i, hi⟩ := exists_iterate_heading h d
    have hmove := h i
    rw [moveAt, hi] at hmove
    obtain ⟨hm, -⟩ | ⟨hm, -⟩ | ⟨-, hdiagonal, hahead⟩ := p.move_cases o ⟨e.x, e.y, d⟩
    · rw [hm] at hmove
      cases hmove
    · rw [hm] at hmove
      cases hmove
    -- The pixel lies where the turn has found background.
    · rcases hd with rfl | rfl
      · cases hahead.symm.trans hink'
      · cases hdiagonal.symm.trans hink'
  refine Set.ext fun b => ⟨fun hb => ?_, ?_⟩
  · induction hb with
    | refl => rfl
    | tail _ hlinked ih =>
      rw [Set.mem_singleton_iff] at ih
      exact halone _ (ih ▸ hlinked)
  · rintro rfl
    exact .refl

/-- One round makes no step exactly around an isolated pixel. -/
theorem IsBoundary.stepsIn_round_eq_zero (he : p.IsBoundary o e) :
    p.stepsIn o e (p.round o e) = 0 ↔ p.region e.point = {e.point} := by
  rw [stepsIn_eq_zero]
  constructor
  · intro hturns
    refine he.region_eq_singleton fun i => ?_
    have hlap := hturns (i % p.round o e) (Nat.mod_lt i he.round_pos)
    rwa [moveAt, IsPeriodicPt.iterate_mod_apply (p.iterate_round o e)] at hlap
  · intro hregion i _
    -- A step would lead to another pixel of the component.
    have hpixel : ∀ n, ((p.nextEdge o)^[n] e).point = e.point := by
      intro n
      have hmem : ((p.nextEdge o)^[n] e).point ∈ p.region e.point := he.joined_iterate n
      rw [hregion] at hmem
      exact hmem
    have hstay := (hpixel (i + 1)).trans (hpixel i).symm
    rw [iterate_succ_apply', Picture.nextEdge] at hstay
    by_contra hstep
    exact Edge.point_apply_ne o _ hstep hstay

end Picture

/-! ## The two halves -/

namespace Walk

variable {p : Picture} {whole : Plan} {j m : Nat}

/-- The same walk with an extra edge to stop on. -/
def Plan.stoppingOn (plan : Plan) (e : Edge) : Plan := { plan with stop := some e }

theorem Plan.after_stoppingOn (plan : Plan) (e : Edge) (n : Nat) :
    (plan.stoppingOn e).after p n = plan.after p n := rfl

/-- Up to the cut the first half goes on as the whole does. -/
theorem Plan.Closes.runsTo_stoppingOn (h : whole.Closes p (j + 1 + m)) :
    (whole.stoppingOn ((p.nextEdge whole.orientation)^[j + 1] whole.start)).RunsTo p j := by
  have hround := h.succ_eq_round
  constructor
  · intro i hi hend
    rcases endsWith_iff.1 hend with hedge | hlimit
    · rcases endsOn_iff.1 hedge with hstart | hstop
      · exact Picture.iterate_ne_self (o := whole.orientation) (e := whole.start) (by omega) (by omega)
          hstart
      · have hsame := Picture.iterate_inj (o := whole.orientation) (e := whole.start) (by omega)
          (by omega) (Option.some.inj hstop)
        omega
    · exact h.runsTo.goesOn i (by omega) (endsWith_iff.2 (.inr hlimit))
  · exact endsWith_iff.2 (.inl (endsOn_iff.2 (.inr rfl)))

/-- From the cut on the second half goes on as the whole does. -/
theorem Plan.Closes.runsTo_chunk (h : whole.Closes p (j + 1 + m)) :
    (whole.chunk p (j + 1) whole.limit).RunsTo p m := by
  have hround := h.succ_eq_round
  have hedge : ∀ i, (p.nextEdge whole.orientation)^[i + 1]
      ((p.nextEdge whole.orientation)^[j + 1] whole.start) =
        (p.nextEdge whole.orientation)^[j + 1 + i + 1] whole.start := by
    intro i
    rw [← iterate_add_apply, show i + 1 + (j + 1) = j + 1 + i + 1 by omega]
  constructor
  · intro i hi hend
    rw [endsWith_iff, endsOn_iff, chunk_moveAt] at hend
    simp only [chunk, Nat.succ_ne_zero, if_false, Option.some.injEq, hedge] at hend
    rcases hend with (hown | hstart) | ⟨hmove, hlimit⟩
    · have hsame := Picture.iterate_inj (by omega) (by omega) hown
      omega
    · exact Picture.iterate_ne_self (by omega) (by omega) hstart.symm
    · refine h.runsTo.goesOn (j + 1 + i) (by omega) (endsWith_iff.2 (.inr ⟨hmove, ?_⟩))
      have hbefore := Picture.stepsIn_nonneg (p := p) (o := whole.orientation) (e := whole.start) (j + 1)
      rw [Nat.add_assoc, Picture.stepsIn_add]
      omega
  · rw [endsWith_iff, endsOn_iff]
    simp only [chunk, Nat.succ_ne_zero, if_false, hedge, h.back, or_true, true_or]

/-- The first half ends on the cut and reports what the whole walk has done so far. -/
theorem Plan.Closes.run_stoppingOn (h : whole.Closes p (j + 1 + m)) :
    (whole.stoppingOn ((p.nextEdge whole.orientation)^[j + 1] whole.start)).run p =
      { result :=
          { start := whole.start
            stop := (p.nextEdge whole.orientation)^[j + 1] whole.start
            length := p.stepsIn whole.orientation whole.start (j + 1)
            turns := p.turnsIn whole.orientation whole.start (j + 1)
            complete := true }
        points := (whole.after p (j + 1)).points } := by
  have hround := h.succ_eq_round
  have hne := Picture.iterate_ne_self (p := p) (o := whole.orientation) (e := whole.start)
    (Nat.succ_pos j) (by omega)
  rw [h.runsTo_stoppingOn.run_eq h.start, after_stoppingOn, finish_of_ne (by rwa [after_edge])]
  simp [stoppingOn, endsOn]

/-- The second half ends on the start of the whole and reports what the whole walk does from the cut. -/
theorem Plan.Closes.run_chunk (h : whole.Closes p (j + 1 + m)) :
    (whole.chunk p (j + 1) whole.limit).run p =
      { result :=
          { start := (p.nextEdge whole.orientation)^[j + 1] whole.start
            stop := whole.start
            length := p.stepsIn whole.orientation
              ((p.nextEdge whole.orientation)^[j + 1] whole.start) (m + 1)
            turns := p.turnsIn whole.orientation
              ((p.nextEdge whole.orientation)^[j + 1] whole.start) (m + 1)
            complete := true }
        points := ((whole.chunk p (j + 1) whole.limit).after p (m + 1)).points } := by
  have hround := h.succ_eq_round
  have hne := Picture.iterate_ne_self (p := p) (o := whole.orientation) (e := whole.start)
    (Nat.succ_pos j) (by omega)
  have hback : ((whole.chunk p (j + 1) whole.limit).after p (m + 1)).edge = whole.start := by
    rw [← chunk_edge, after_edge]
    exact h.back
  rw [h.runsTo_chunk.run_eq (h.start.iterate (j + 1)), finish_of_ne (by rw [hback]; exact hne.symm),
    hback]
  simp [chunk, endsOn]

theorem Plan.Closes.turns_eq (h : whole.Closes p (j + 1 + m)) :
    (whole.run p).result.turns = p.turnsIn whole.orientation whole.start (j + 1) +
      p.turnsIn whole.orientation ((p.nextEdge whole.orientation)^[j + 1] whole.start) (m + 1) := by
  rw [h.runsTo.run_eq h.start, ← Picture.turnsIn_add, ← Nat.add_assoc]
  simp [finish]

theorem Plan.Closes.stepsIn_eq (h : whole.Closes p (j + 1 + m)) :
    p.stepsIn whole.orientation whole.start (p.round whole.orientation whole.start) =
      p.stepsIn whole.orientation whole.start (j + 1) +
        p.stepsIn whole.orientation ((p.nextEdge whole.orientation)^[j + 1] whole.start) (m + 1) := by
  rw [← h.succ_eq_round, ← Picture.stepsIn_add, Nat.add_assoc]

theorem Plan.Closes.points_eq (h : whole.Closes p (j + 1 + m)) (hsize : p.WordSized) :
    (whole.after p (p.round whole.orientation whole.start)).points =
      (whole.after p (j + 1)).points ++
        ((whole.chunk p (j + 1) whole.limit).after p (m + 1)).points := by
  rw [← h.succ_eq_round, Nat.add_assoc]
  exact (after_chunk (whole.visible_after hsize h.start (j + 1)) whole.limit (m + 1)).2

theorem Plan.Closes.run_of_step {n : Nat} (h : whole.Closes p n)
    (hsteps : p.stepsIn whole.orientation whole.start (p.round whole.orientation whole.start) ≠ 0) :
    (whole.run p).result.length =
        p.stepsIn whole.orientation whole.start (p.round whole.orientation whole.start) ∧
      (whole.run p).points = (whole.after p (p.round whole.orientation whole.start)).points := by
  rw [h.runsTo.run_eq h.start, h.succ_eq_round]
  simp [finish, hsteps]

/-- A closed walk without a step counts as one, and makes no points by moving. -/
theorem Plan.Closes.run_of_isolated {n : Nat} (h : whole.Closes p n) (hsize : p.WordSized)
    (hsteps : p.stepsIn whole.orientation whole.start (p.round whole.orientation whole.start) = 0) :
    (whole.run p).result.length = 1 ∧
      (whole.after p (p.round whole.orientation whole.start)).points = #[] := by
  rw [← h.succ_eq_round] at hsteps ⊢
  constructor
  · rw [h.runsTo.run_eq h.start]
    simp [finish, hsteps, h.back]
  · have hpoints := whole.points_after hsize h.start (n + 1)
    rw [← h.runsTo.edges_eq h.start, shown_eq_nil whole (h.stepsIn_eq_zero_iff.1 hsteps),
      Array.toList_eq_nil_iff] at hpoints
    exact hpoints

/-- The outcomes of a closed walk from `s` and of its halves, cut on `t`. Together the halves are the
whole, but around an isolated pixel they lose the one step that the whole counts, and its point. -/
structure CutOn (p : Picture) (s t : Edge) (whole first second : Outcome) : Prop where
  cut : first.result.stop = t
  closed : second.result.stop = s
  turns : first.result.turns + second.result.turns = whole.result.turns
  connected : p.region s.point ≠ {s.point} →
    first.points ++ second.points = whole.points ∧
    first.result.length + second.result.length = whole.result.length
  isolated : p.region s.point = {s.point} →
    first.points = #[] ∧ second.points = #[] ∧
    first.result.length = 0 ∧ second.result.length = 0 ∧ whole.result.length = 1

/-- A closed walk can be cut on every edge but its start. -/
theorem Plan.Closes.cutOn (h : whole.Closes p (j + 1 + m)) (hsize : p.WordSized) :
    CutOn p whole.start ((p.nextEdge whole.orientation)^[j + 1] whole.start) (whole.run p)
      ((whole.stoppingOn ((p.nextEdge whole.orientation)^[j + 1] whole.start)).run p)
      ((whole.chunk p (j + 1) whole.limit).run p) := by
  have hsteps := h.stepsIn_eq
  have hpoints := h.points_eq hsize
  rw [h.run_stoppingOn, h.run_chunk]
  refine ⟨rfl, rfl, h.turns_eq.symm, ?_, ?_⟩
  · intro hregion
    rw [Ne, ← h.start.stepsIn_round_eq_zero] at hregion
    obtain ⟨hlength, hall⟩ := h.run_of_step hregion
    exact ⟨(hall.trans hpoints).symm, (hlength.trans hsteps).symm⟩
  · intro hregion
    rw [← h.start.stepsIn_round_eq_zero] at hregion
    obtain ⟨hlength, hnone⟩ := h.run_of_isolated hsize hregion
    rw [hnone, eq_comm, Array.append_eq_empty_iff] at hpoints
    have hbefore := Picture.stepsIn_nonneg (p := p) (o := whole.orientation) (e := whole.start) (j + 1)
    have hafter := Picture.stepsIn_nonneg (p := p) (o := whole.orientation)
      (e := (p.nextEdge whole.orientation)^[j + 1] whole.start) (m + 1)
    exact ⟨hpoints.1, hpoints.2, by simp only; omega, by simp only; omega, hlength⟩

end Walk

namespace Trace

variable {p : Picture} {opts : Options} {s t : Edge} {whole : Walk.Outcome} {pl : Walk.Plan}

theorem run_stopAt (hmax : 0 ≤ opts.maxLength) (hs : p.IsBoundary opts.orientation s)
    (ht : p.IsBoundary opts.orientation t) :
    run p s.seed { opts with stopAt := some (.ofEdge t) } =
      .ok (((freePlan opts s (effectiveLimit p opts.maxLength)).stoppingOn t).run p) :=
  run_eq (plan_eq_stop { opts with stopAt := some (.ofEdge t) } hmax rfl ht hs.check_seed hs.start_seed)

/-- Cut on any of its other edges, a closed walk without a cap is carried out in two halves. The first
one stops on the cut and the second one, from there, on the start. -/
theorem run_cut (hsize : p.WordSized) (hmax : opts.maxLength = 0) (hstop : opts.stopAt = none)
    (hs : p.IsBoundary opts.orientation s) (hplan : plan p s.seed opts = .ok pl)
    (hwhole : run p s.seed opts = .ok whole) (hclosed : whole.result.stop = s)
    (ht : t ∈ pl.edges p) (hne : t ≠ s) :
    ∃ first second,
      run p s.seed { opts with stopAt := some (.ofEdge t) } = .ok first ∧
      run p first.result.stop.seed { opts with stopAt := some (.ofEdge s) } = .ok second ∧
      Walk.CutOn p s t whole first second := by
  obtain rfl : pl = freePlan opts s (effectiveLimit p opts.maxLength) := by
    have hpl := plan_seed opts hmax.ge hstop hs
    rw [hplan, Except.ok.injEq] at hpl
    exact hpl
  rw [run_eq hplan, Except.ok.injEq] at hwhole
  subst hwhole
  obtain ⟨n, hcloses⟩ := Walk.Plan.exists_closes hs hclosed
  -- The cut comes after at least one move and before the one that closes the walk.
  obtain ⟨k, hk, rfl⟩ := hcloses.mem_edges.1 ht
  obtain ⟨j, rfl⟩ : ∃ j, k = j + 1 := Nat.exists_eq_succ_of_ne_zero fun h0 => hne (by rw [h0]; rfl)
  obtain ⟨m, rfl⟩ : ∃ m, n = j + 1 + m := Nat.exists_eq_add_of_le (by omega)
  have hcut := hcloses.cutOn hsize
  refine ⟨_, _, run_stopAt hmax.ge hs (hs.iterate (j + 1)), ?_, hcut⟩
  rw [hcut.cut]
  exact run_stopAt hmax.ge (hs.iterate (j + 1)) hs

/-- A row of two pixels, cut between two turns on the second one. -/
theorem run_cut_pair :
    let p : Picture := ⟨2, 1, fun _ _ => true⟩
    let s : Edge := ⟨0, 0, .right⟩
    let t : Edge := ⟨1, 0, .up⟩
    (p.WordSized ∧ p.IsBoundary .counterclockwise s ∧ t ≠ s) ∧
    ∃ pl whole first second,
      plan p s.seed {} = .ok pl ∧ run p s.seed {} = .ok whole ∧ whole.result.stop = s ∧
      t ∈ pl.edges p ∧
      run p s.seed { stopAt := some (.ofEdge t) } = .ok first ∧
      run p first.result.stop.seed { stopAt := some (.ofEdge s) } = .ok second ∧
      Walk.CutOn p s t whole first second := by
  intro p s t
  obtain ⟨first, second, hfirst, hsecond, hcut⟩ := @run_cut p {} s t _ _ (by decide) rfl rfl
    (by decide) rfl rfl (by decide) (by decide) (by decide)
  exact ⟨by decide, _, _, first, second, rfl, rfl, by decide, by decide, hfirst, hsecond, hcut⟩

/-- The walk around a single pixel reports the pixel, and the two halves of it do not. -/
theorem run_cut_pixel :
    let p : Picture := ⟨1, 1, fun _ _ => true⟩
    let s : Edge := ⟨0, 0, .up⟩
    let t : Edge := ⟨0, 0, .right⟩
    let opts : Options := { orientation := .clockwise }
    ∃ pl whole first second,
      plan p s.seed opts = .ok pl ∧ run p s.seed opts = .ok whole ∧ whole.result.stop = s ∧
      t ∈ pl.edges p ∧
      run p s.seed { opts with stopAt := some (.ofEdge t) } = .ok first ∧
      run p first.result.stop.seed { opts with stopAt := some (.ofEdge s) } = .ok second ∧
      whole.points = #[⟨0, 0⟩] ∧ first.points ++ second.points = #[] ∧
      whole.result.length = 1 ∧ first.result.length + second.result.length = 0 :=
  ⟨_, _, _, _, rfl, rfl, by decide, by decide, rfl, rfl, by decide, by decide, by decide, by decide⟩

end Trace

end Perimeter
