import Perimeter.Proofs.Walk.Visibility

/-!
# Walks in chunks

A `Tracer` cuts one walk into chunks: every chunk is a request of its own, from the edge where the
chunk before it stopped. Here a chunk is compared with the walk it is a part of. As long as the whole
walk goes on, a chunk goes through the same edges, counts the same steps and turns and emits the same
points; and what a chunk cannot see, its start edge and the visibility of the visit it starts in, it
reads off the picture. So the chunks together are the walk.
-/

namespace Perimeter

open Function

namespace Walk

variable {p : Picture} {whole part : Plan} {i n : Nat}

/-- The whole walk can be interrupted after `i` moves: it goes on until there, and what it remembers
can be restored from the edge it stands on. -/
structure Plan.Paused (whole : Plan) (p : Picture) (i : Nat) : Prop where
  start : p.IsBoundary whole.orientation whole.start
  stop : whole.stop = none
  goesOn : ∀ j < i, ¬whole.EndsWith p j
  stepped : i ≠ 0 → 0 < p.stepsIn whole.orientation whole.start i
  visible : (whole.after p i).visible =
    whole.shows p ((p.nextEdge whole.orientation)^[i] whole.start)

/-- The plan of the next chunk of a walk that was interrupted after `i` moves. -/
def Plan.chunk (whole : Plan) (p : Picture) (i : Nat) (limit : Int) : Plan where
  orientation := whole.orientation
  suppressBorder := whole.suppressBorder
  start := (p.nextEdge whole.orientation)^[i] whole.start
  stop := if i = 0 then none else some whole.start
  limit := limit

theorem Plan.chunk_edge (whole : Plan) (p : Picture) (i : Nat) (b : Int) (n : Nat) :
    (whole.after p (i + n)).edge = ((whole.chunk p i b).after p n).edge := by
  rw [after_edge, after_edge, Nat.add_comm i n, iterate_add_apply]
  rfl

/-- A chunk sees what the whole walk sees, and adds its points to those before. -/
theorem Plan.after_chunk
    (hvisible : (whole.after p i).visible =
      whole.shows p ((p.nextEdge whole.orientation)^[i] whole.start)) (b : Int) (n : Nat) :
    ((whole.chunk p i b).after p n).visible = (whole.after p (i + n)).visible ∧
    (whole.after p (i + n)).points =
      (whole.after p i).points ++ ((whole.chunk p i b).after p n).points := by
  induction n with
  | zero => exact ⟨hvisible.symm, by simp [initial]⟩
  | succ n ih =>
    obtain ⟨hvis, hpts⟩ := ih
    have hedge := whole.chunk_edge p i b n
    rw [← Nat.add_assoc, after_succ, after_succ]
    refine ⟨?_, ?_⟩
    · rw [step_visible, step_visible, hedge, hvis]
      rfl
    · rw [step_points, step_points, hedge, hvis, hpts, Array.append_assoc]
      rfl

theorem Plan.chunk_moveAt (b : Int) (n : Nat) :
    p.moveAt (whole.chunk p i b).orientation (whole.chunk p i b).start n =
      p.moveAt whole.orientation whole.start (i + n) :=
  Picture.moveAt_iterate i n

/-- From the second chunk on, a chunk does not come back to its own start edge before the walk ends. -/
theorem Plan.Paused.ne_chunk_start (h : whole.Paused p i) (hi : i ≠ 0)
    (hgo : ∀ j < i + n, ¬whole.EndsWith p j) :
    (p.nextEdge whole.orientation)^[i + n + 1] whole.start ≠
      (p.nextEdge whole.orientation)^[i] whole.start := by
  intro hown
  -- Back on the edge it started from, the chunk would have passed the start of the walk.
  have hround := h.start.iterate_cancel (i := i) (n := n + 1) hown
  exact hgo n (by omega) (endsWith_iff.2 (.inl (endsOn_iff.2 (.inl hround))))

/-- While the whole walk goes on, a chunk ends on the start of the walk and on no other edge. -/
theorem Plan.Paused.chunk_endsOn (h : whole.Paused p i) (b : Int)
    (hgo : ∀ j < i + n, ¬whole.EndsWith p j) :
    (whole.chunk p i b).endsOn ((p.nextEdge whole.orientation)^[i + n + 1] whole.start) = true ↔
      (p.nextEdge whole.orientation)^[i + n + 1] whole.start = whole.start := by
  rw [endsOn_iff]
  by_cases hi : i = 0
  · simp [chunk, hi]
  · constructor
    · rintro (hown | hstop)
      · exact absurd hown (h.ne_chunk_start hi hgo)
      · simp only [chunk, hi, if_false, Option.some.injEq] at hstop
        exact hstop.symm
    · intro heq
      exact .inr (by simp [chunk, hi, heq])

/-- A chunk does not outlast the walk it is a part of. -/
theorem Plan.Paused.chunk_endsWith (h : whole.Paused p i) {b : Int}
    (hb : b ≤ whole.limit - p.stepsIn whole.orientation whole.start i)
    (hgo : ∀ j < i + n, ¬whole.EndsWith p j) (hend : whole.EndsWith p (i + n)) :
    (whole.chunk p i b).EndsWith p n := by
  rw [endsWith_iff] at hend
  rw [endsWith_iff, chunk_moveAt]
  rcases hend with hstart | ⟨hmove, hlimit⟩
  · rw [endsOn_iff, h.stop] at hstart
    left
    have hedge := (h.chunk_endsOn b hgo).2 (hstart.resolve_right (by simp))
    rwa [Nat.add_assoc, Nat.add_comm i, iterate_add_apply] at hedge
  · right
    refine ⟨hmove, ?_⟩
    rw [Nat.add_assoc, Picture.stepsIn_add] at hlimit
    change b ≤ p.stepsIn whole.orientation ((p.nextEdge whole.orientation)^[i] whole.start) (n + 1)
    omega

/-- The whole walk goes on as long as a chunk of it does. -/
theorem Plan.Paused.goesOn_of_chunk (h : whole.Paused p i) {b : Int}
    (hb : b ≤ whole.limit - p.stepsIn whole.orientation whole.start i)
    (hrun : ∀ k < n, ¬(whole.chunk p i b).EndsWith p k) :
    ∀ j < i + n, ¬whole.EndsWith p j := by
  induction n with
  | zero => exact h.goesOn
  | succ n ih =>
    have hgo := ih fun k hk => hrun k (by omega)
    intro j hj
    rcases Nat.lt_or_ge j (i + n) with hlt | hge
    · exact hgo j hlt
    · obtain rfl : j = i + n := by omega
      exact fun hend => hrun n (by omega) (h.chunk_endsWith hb hgo hend)

/-- A walk that is not the visit of an isolated pixel reports its counters as they are. -/
theorem Plan.finish_of_not_isolated {s : State} (h : s.length = 0 → s.edge ≠ whole.start) :
    whole.finish s = ⟨⟨whole.start, s.edge, s.length, s.turns, whole.endsOn s.edge⟩, s.points⟩ := by
  by_cases hzero : s.length = 0
  · simp [finish, h hzero]
  · simp [finish, hzero]

theorem Plan.finish_of_ne {s : State} (h : s.edge ≠ whole.start) :
    whole.finish s = ⟨⟨whole.start, s.edge, s.length, s.turns, whole.endsOn s.edge⟩, s.points⟩ :=
  finish_of_not_isolated fun _ => h

theorem Plan.length_le_finish (plan : Plan) (s : State) : s.length ≤ (plan.finish s).result.length := by
  simp only [finish]
  split
  · simp_all
  · exact Int.le_refl _

theorem Plan.finish_stop (plan : Plan) (s : State) : (plan.finish s).result.stop = s.edge := rfl

/-- Two ways to end in the same place give results that differ by what one of them did before. -/
theorem Plan.finish_add {s t : State} {length turns : Int} {points : Array Point}
    (hstop : whole.stop = none) (hedge : s.edge = t.edge) (hvis : s.visible = t.visible)
    (hlen : s.length = length + t.length) (hturns : s.turns = turns + t.turns)
    (hpts : s.points = points ++ t.points)
    (hiso : (length = 0 ∧ part.start = whole.start) ∨ (s.length ≠ 0 ∧ t.edge ≠ part.start)) :
    whole.finish s =
      { result :=
          { start := whole.start
            stop := (part.finish t).result.stop
            length := length + (part.finish t).result.length
            turns := turns + (part.finish t).result.turns
            complete := (part.finish t).result.stop == whole.start }
        points := points ++ (part.finish t).points } := by
  have hcomplete : ∀ e, whole.endsOn e = (e == whole.start) := by
    simp [endsOn, hstop]
  rcases hiso with ⟨hzero, hstart⟩ | ⟨hsteps, hown⟩
  · -- Nothing came before, so both are visits of an isolated pixel, or neither is.
    have hsame : s.length = t.length := by omega
    by_cases hi : t.length = 0 ∧ t.edge = whole.start
    · simp [finish, hcomplete, hstart, hi, hsame, hzero, hturns, hpts, hedge, hvis]
      split <;> simp
    · simp [finish, hcomplete, hstart, hi, hsame, hzero, hturns, hpts, hedge]
  · have hsteps' : length + t.length ≠ 0 := hlen ▸ hsteps
    simp [finish, hcomplete, hown, hsteps', hlen, hturns, hpts, hedge]

/-- What a chunk reports, added to what came before it, is what the whole walk would report there. -/
theorem Plan.Paused.finish_chunk (h : whole.Paused p i) (b : Int)
    (hgo : ∀ j < i + n, ¬whole.EndsWith p j) :
    let out := (whole.chunk p i b).finish ((whole.chunk p i b).after p (n + 1))
    whole.finish (whole.after p (i + n + 1)) =
      { result :=
          { start := whole.start
            stop := out.result.stop
            length := p.stepsIn whole.orientation whole.start i + out.result.length
            turns := p.turnsIn whole.orientation whole.start i + out.result.turns
            complete := out.result.stop == whole.start }
        points := (whole.after p i).points ++ out.points } := by
  obtain ⟨hvis, hpts⟩ := after_chunk h.visible b (n + 1)
  refine finish_add h.stop (whole.chunk_edge p i b (n + 1)) hvis.symm ?_ ?_ hpts ?_
  · rw [after_length, after_length, Nat.add_assoc, Picture.stepsIn_add]
    rfl
  · rw [after_turns, after_turns, Nat.add_assoc, Picture.turnsIn_add]
    rfl
  · by_cases hi : i = 0
    · subst hi
      exact .inl ⟨rfl, rfl⟩
    · refine .inr ⟨?_, ?_⟩
      · have hpos := h.stepped hi
        have hmono := Picture.stepsIn_mono (p := p) (o := whole.orientation) (e := whole.start)
          (show i ≤ i + n + 1 by omega)
        rw [after_length]
        omega
      · rw [← whole.chunk_edge p i b (n + 1), after_edge]
        exact h.ne_chunk_start hi hgo

theorem Plan.not_endsOn_of_not_endsWith (hend : ¬whole.EndsWith p n) :
    (p.nextEdge whole.orientation)^[n + 1] whole.start ≠ whole.start :=
  fun heq => hend (endsWith_iff.2 (.inl (endsOn_iff.2 (.inl heq))))

/-- A chunk that does not end the whole walk ends with a step, where the walk can be interrupted. -/
theorem Plan.Paused.after_next (hword : p.WordSized) (h : whole.Paused p i) {b : Int} (hpos : 1 ≤ b)
    (hgo : ∀ j < i + n, ¬whole.EndsWith p j) (hpart : (whole.chunk p i b).EndsWith p n)
    (hend : ¬whole.EndsWith p (i + n)) :
    whole.Paused p (i + n + 1) ∧
      p.stepsIn whole.orientation whole.start i <
        p.stepsIn whole.orientation whole.start (i + n + 1) := by
  rw [endsWith_iff, chunk_moveAt] at hpart
  have hne := not_endsOn_of_not_endsWith hend
  obtain ⟨hmove, hsteps⟩ : p.moveAt whole.orientation whole.start (i + n) ≠ .turn ∧
      b ≤ p.stepsIn whole.orientation ((p.nextEdge whole.orientation)^[i] whole.start) (n + 1) := by
    -- A chunk that came to an edge to end on would be back on the start of the walk.
    refine hpart.resolve_left fun hown => hne ?_
    refine (h.chunk_endsOn b hgo).1 ?_
    rwa [Nat.add_assoc, Nat.add_comm i, iterate_add_apply]
  have hmore : p.stepsIn whole.orientation whole.start i <
      p.stepsIn whole.orientation whole.start (i + n + 1) := by
    rw [Nat.add_assoc, Picture.stepsIn_add]
    omega
  have hnonneg := Picture.stepsIn_nonneg (p := p) (o := whole.orientation) (e := whole.start) i
  refine ⟨⟨h.start, h.stop, ?_, fun _ => by omega, ?_⟩, hmore⟩
  · intro j hj
    rcases Nat.lt_or_ge j (i + n) with hlt | hge
    · exact hgo j hlt
    · obtain rfl : j = i + n := by omega
      exact hend
  · exact whole.visible_after hword h.start _

end Walk

/-! ## Tracers -/

namespace Tracer

variable {p : Picture} {t : Tracer} {size : Int}

/-- The plan of the next chunk. -/
def chunkPlan (t : Tracer) (size : Int) : Walk.Plan where
  orientation := t.orientation
  suppressBorder := t.suppressBorder
  start := t.position
  stop := if t.begun then some t.start else none
  limit := t.budget size

/-- A chunk of positive size between two boundary edges passes its checks. -/
theorem run_chunkOptions (t : Tracer) (size : Int) (hstart : p.IsBoundary t.orientation t.start)
    (hposition : p.IsBoundary t.orientation t.position) (hpos : 0 < t.budget size)
    (hle : t.budget size ≤ Picture.upperLimit p.width p.height) :
    Trace.run p t.position.seed (t.chunkOptions size) = .ok ((t.chunkPlan size).run p) := by
  have hlimit := Trace.effectiveLimit_of_pos hpos hle
  apply Trace.run_eq
  cases hb : t.begun with
  | false =>
    have hplan := Trace.plan_eq (t.chunkOptions size) hpos.le (by simp [chunkOptions, hb])
      hposition.check_seed hposition.start_seed
    simpa [chunkPlan, chunkOptions, hb, hlimit] using hplan
  | true =>
    have hplan := Trace.plan_eq_stop (t.chunkOptions size) hpos.le
      (by simp [chunkOptions, hb]) hstart hposition.check_seed hposition.start_seed
    simpa [chunkPlan, chunkOptions, hb, hlimit] using hplan

/-- The tracer after a chunk with this outcome. -/
def advance (t : Tracer) (out : Walk.Outcome) : Tracer :=
  { t with
    position := out.result.stop
    length := t.length + out.result.length
    turns := t.turns + out.result.turns
    begun := true
    done := out.result.stop == t.start || decide (t.limit ≤ t.length + out.result.length) }

theorem next_eq {out : Walk.Outcome} (hdone : t.done = false)
    (hrun : Trace.run p t.position.seed (t.chunkOptions size) = .ok out) :
    t.next p size = .ok (out, t.advance out) := by
  rw [Edge.seed] at hrun
  simp [next, hdone, hrun, advance, bind, Except.bind, pure, Except.pure]

/-- The tracer of a walk that was interrupted after `i` moves. -/
def pausedAt (whole : Walk.Plan) (p : Picture) (i : Nat) : Tracer where
  orientation := whole.orientation
  suppressBorder := whole.suppressBorder
  start := whole.start
  position := (p.nextEdge whole.orientation)^[i] whole.start
  limit := whole.limit
  length := p.stepsIn whole.orientation whole.start i
  turns := p.turnsIn whole.orientation whole.start i
  begun := decide (i ≠ 0)
  done := false

theorem chunkPlan_pausedAt (whole : Walk.Plan) (i : Nat) :
    (pausedAt whole p i).chunkPlan size =
      whole.chunk p i ((pausedAt whole p i).budget size) := by
  by_cases hi : i = 0 <;> simp [chunkPlan, pausedAt, Walk.Plan.chunk, hi]

theorem budget_pausedAt {whole : Walk.Plan} {i : Nat} (size : Int)
    (hlt : p.stepsIn whole.orientation whole.start i < whole.limit) :
    1 ≤ (pausedAt whole p i).budget size ∧
      (pausedAt whole p i).budget size ≤
        whole.limit - p.stepsIn whole.orientation whole.start i := by
  simp only [budget, pausedAt]
  split_ifs <;> omega

/-- The next chunk of an interrupted walk. Either the whole walk ends with it, and the chunk completes
what the walk reports; or the walk is interrupted again, after at least one more step. -/
theorem next_pausedAt {whole : Walk.Plan} {i : Nat} (hword : p.WordSized)
    (hlimit : 1 ≤ whole.limit ∧ whole.limit ≤ Picture.upperLimit p.width p.height)
    (h : whole.Paused p i) (size : Int) :
    ∃ out, (pausedAt whole p i).next p size = .ok (out, (pausedAt whole p i).advance out) ∧
      ((((pausedAt whole p i).advance out).done = true ∧
        whole.run p =
          { result :=
              { start := whole.start
                stop := out.result.stop
                length := (pausedAt whole p i).length + out.result.length
                turns := (pausedAt whole p i).turns + out.result.turns
                complete := out.result.stop == whole.start }
            points := (whole.after p i).points ++ out.points }) ∨
      (∃ j, (pausedAt whole p i).advance out = pausedAt whole p j ∧ whole.Paused p j ∧
        (whole.after p j).points = (whole.after p i).points ++ out.points ∧
        (pausedAt whole p i).length < (pausedAt whole p j).length)) := by
  have hlt := Walk.Plan.stepsIn_lt_limit hlimit.1 h.goesOn
  obtain ⟨hpos, hle⟩ := budget_pausedAt size hlt
  have hnonneg := Picture.stepsIn_nonneg (p := p) (o := whole.orientation) (e := whole.start) i
  have hrun := (pausedAt whole p i).run_chunkOptions size h.start
    (h.start.iterate i) (by omega) (by omega)
  rw [chunkPlan_pausedAt] at hrun
  generalize (pausedAt whole p i).budget size = b at hpos hle hrun
  obtain ⟨n, -, hpart⟩ := (whole.chunk p i b).exists_runsTo (h.start.iterate i)
  have hgo := h.goesOn_of_chunk hle hpart.goesOn
  have hfin := h.finish_chunk b hgo
  rw [← hpart.run_eq (h.start.iterate i)] at hfin
  refine ⟨_, next_eq rfl hrun, ?_⟩
  generalize (whole.chunk p i b).run p = out at hfin
  -- The whole walk may end with the last move of the chunk, or go on from there.
  by_cases hend : whole.EndsWith p (i + n)
  · left
    refine ⟨?_, ?_⟩
    · -- The walk ends on its start or at its limit, and the tracer looks at the same two.
      have hlen := whole.length_le_finish (whole.after p (i + n + 1))
      have hstop := whole.finish_stop (whole.after p (i + n + 1))
      rw [hfin, Walk.Plan.after_length] at hlen
      rw [hfin, Walk.Plan.after_edge] at hstop
      rw [Walk.Plan.endsWith_iff, Walk.Plan.endsOn_iff, h.stop] at hend
      simp only [advance, Bool.or_eq_true, beq_iff_eq, decide_eq_true_eq]
      rcases hend with (hstart | hnone) | ⟨-, hsteps⟩
      · exact .inl (hstop.trans hstart)
      · cases hnone
      · exact .inr (hsteps.trans hlen)
    · rw [Walk.Plan.RunsTo.run_eq ⟨hgo, hend⟩ h.start, hfin]
      rfl
  · right
    obtain ⟨hpaused, hmore⟩ := h.after_next hword hpos hgo hpart.ends hend
    have hne := Walk.Plan.not_endsOn_of_not_endsWith hend
    have hlt' := Walk.Plan.stepsIn_lt_limit hlimit.1 hpaused.goesOn
    rw [Walk.Plan.finish_of_ne (by rwa [Walk.Plan.after_edge])] at hfin
    simp only [Walk.Outcome.mk.injEq, Walk.Result.mk.injEq, Walk.Plan.after_edge,
      Walk.Plan.after_length, Walk.Plan.after_turns, true_and] at hfin
    obtain ⟨⟨hstop, hlen, hturns, -⟩, hpts⟩ := hfin
    refine ⟨i + n + 1, ?_, hpaused, hpts, hmore⟩
    rw [hstop] at hne
    have hopen : decide (whole.limit ≤ p.stepsIn whole.orientation whole.start (i + n + 1)) = false :=
      decide_eq_false (by omega)
    simp only [advance, pausedAt, hstop, ← hlen, ← hturns, beq_eq_false_iff_ne.2 hne, hopen]
    simp

/-! ## All chunks together -/

/-- Walks chunks of the given sizes, one after the other, until the walk is done. -/
def drain (p : Picture) : List Int → Tracer → Except Fault (List Walk.Outcome × Tracer)
  | [], t => .ok ([], t)
  | size :: sizes, t =>
    if t.done then .ok ([], t)
    else do
      let (out, t) ← t.next p size
      let (outs, t) ← drain p sizes t
      pure (out :: outs, t)

/-- What the chunks of a walk amount to: their points in a row, their counters summed up, and the
tracer's word on where the walk ended. -/
def gather (t : Tracer) (outs : List Walk.Outcome) : Walk.Outcome where
  result :=
    { start := t.start
      stop := t.position
      length := (outs.map (·.result.length)).sum
      turns := (outs.map (·.result.turns)).sum
      complete := t.closed }
  points := outs.foldr (fun out points => out.points ++ points) #[]

theorem drain_of_done (hdone : t.done = true) (sizes : List Int) :
    drain p sizes t = .ok ([], t) := by
  cases sizes <;> simp [drain, hdone]

theorem drain_cons {out : Walk.Outcome} {outs : List Walk.Outcome} {t' t'' : Tracer}
    {sizes : List Int} (hopen : t.done = false) (hnext : t.next p size = .ok (out, t'))
    (hdrain : drain p sizes t' = .ok (outs, t'')) :
    drain p (size :: sizes) t = .ok (out :: outs, t'') := by
  simp [drain, hopen, hnext, hdrain, bind, Except.bind, pure, Except.pure]

/-- The chunks of an interrupted walk, whatever their sizes, complete what the walk reports. -/
theorem drain_pausedAt {whole : Walk.Plan} (hfit : p.Fits)
    (hlimit : 1 ≤ whole.limit ∧ whole.limit ≤ Picture.upperLimit p.width p.height)
    (sizes : List Int) :
    ∀ {i : Nat}, whole.Paused p i →
      ∃ outs t, drain p sizes (pausedAt whole p i) = .ok (outs, t) ∧
        t.length = (pausedAt whole p i).length + (t.gather outs).result.length ∧
        t.turns = (pausedAt whole p i).turns + (t.gather outs).result.turns ∧
        (whole.limit - (pausedAt whole p i).length ≤ sizes.length → t.done = true) ∧
        (t.done = true →
          whole.run p =
            { result :=
                { start := t.start
                  stop := t.position
                  length := t.length
                  turns := t.turns
                  complete := t.closed }
              points := (whole.after p i).points ++ (t.gather outs).points }) := by
  induction sizes with
  | nil =>
    intro i h
    have hlt := Walk.Plan.stepsIn_lt_limit hlimit.1 h.goesOn
    refine ⟨[], _, rfl, by simp [gather], by simp [gather], ?_, fun hdone => by cases hdone⟩
    intro hle
    simp only [pausedAt, List.length_nil] at hle
    omega
  | cons size sizes ih =>
    intro i h
    obtain ⟨out, hnext, ⟨hdone, hrun⟩ | ⟨j, hadv, hpaused, hpts, hmore⟩⟩ :=
      next_pausedAt (h.start.wordSized hfit) hlimit h size
    · refine ⟨[out], _, drain_cons rfl hnext (drain_of_done hdone sizes), ?_, ?_, fun _ => hdone,
        fun _ => ?_⟩
      · simp [gather, advance]
      · simp [gather, advance]
      · have hclosed : ((pausedAt whole p i).advance out).closed = (out.result.stop == whole.start) := by
          rw [closed, hdone, Bool.true_and]
          rfl
        rw [hrun, hclosed]
        simp [gather, advance, pausedAt]
    · obtain ⟨outs, t, hdrain, hlen, hturns, hbound, hfinal⟩ := ih hpaused
      rw [← hadv] at hdrain
      refine ⟨out :: outs, t, drain_cons rfl hnext hdrain, ?_, ?_, ?_, ?_⟩
      · rw [hlen, ← hadv]
        simp [gather, advance, Int.add_assoc]
      · rw [hturns, ← hadv]
        simp [gather, advance, Int.add_assoc]
      · intro hle
        refine hbound ?_
        simp only [List.length_cons] at hle
        omega
      · intro hdone
        rw [hfinal hdone, hpts]
        simp [gather]

/-- A tracer is made for the walk that its request asks for, before the first move. -/
theorem create_eq_ok {s : Seed} {opts : Trace.Options} (h : create p s opts = .ok t) :
    opts.stopAt = none ∧ 0 ≤ opts.maxLength ∧ s.check p = .ok () ∧
      ∃ e, s.start p opts.orientation = .ok e ∧
        t = pausedAt ⟨opts.orientation, opts.suppressBorder, e, none,
          Trace.effectiveLimit p opts.maxLength⟩ p 0 := by
  cases hstop : opts.stopAt with
  | some stop => simp [create, hstop, bind, Except.bind, throw, throwThe, MonadExceptOf.throw] at h
  | none =>
    simp only [create, hstop, Option.isSome_none, Bool.false_eq_true, if_false, bind_eq_ok] at h
    obtain ⟨stop, hcheck, e, hstart, ht⟩ := h
    obtain ⟨hmax, hseed, -⟩ := (Trace.check_eq_ok hstop).1 hcheck
    cases ht
    exact ⟨rfl, hmax, hseed, e, hstart, rfl⟩

/-- Chunks of any sizes, walked until the walk is done, amount to the uninterrupted trace. No chunk
fails, and as many chunks as the walk may make steps suffice. -/
theorem run_eq_gather_drain {s : Seed} {opts : Trace.Options} (hfit : p.Fits)
    (hcreate : create p s opts = .ok t) (sizes : List Int) :
    ∃ outs t', t.drain p sizes = .ok (outs, t') ∧
      (t.limit ≤ sizes.length → t'.done = true) ∧
      (t'.done = true →
        Trace.run p s opts = .ok (t'.gather outs) ∧
        t'.length = (t'.gather outs).result.length ∧
        t'.turns = (t'.gather outs).result.turns) := by
  obtain ⟨hstop, hmax, hcheck, e, hstart, rfl⟩ := create_eq_ok hcreate
  obtain ⟨-, hw, hh, hink⟩ := Seed.check_eq_ok.1 hcheck
  have hlimit := Trace.one_le_effectiveLimit (n := opts.maxLength) (hfit.one_le_upperLimit hw hh)
  have hplan := Trace.plan_eq opts hmax hstop hcheck hstart
  generalize hwhole : (⟨opts.orientation, opts.suppressBorder, e, none,
    Trace.effectiveLimit p opts.maxLength⟩ : Walk.Plan) = whole at hplan ⊢
  have hpaused : whole.Paused p 0 := by
    subst hwhole
    exact ⟨Seed.isBoundary_start hink hstart, rfl, by simp, by simp, rfl⟩
  obtain ⟨outs, t', hdrain, hlen, hturns, hbound, hfinal⟩ := drain_pausedAt hfit
    (by subst hwhole; exact ⟨hlimit, Trace.effectiveLimit_le⟩) sizes hpaused
  have hlen' : t'.length = (t'.gather outs).result.length := by simpa [pausedAt] using hlen
  have hturns' : t'.turns = (t'.gather outs).result.turns := by simpa [pausedAt] using hturns
  refine ⟨outs, t', hdrain, ?_, fun hdone => ⟨?_, hlen', hturns'⟩⟩
  · intro hle
    refine hbound ?_
    simpa [pausedAt] using hle
  · rw [Trace.run_eq hplan, hfinal hdone, hlen', hturns']
    simp [gather, Walk.Plan.initial]

/-- An arch of five pixels, walked by one step, by two and to the end. -/
theorem run_eq_gather_drain_arch :
    let p : Picture := ⟨3, 2, fun x y => x != 1 || y != 1⟩
    let t : Tracer := ⟨.counterclockwise, true, ⟨0, 0, .down⟩, ⟨0, 0, .down⟩, 11, 0, 0, false, false⟩
    p.Fits ∧ create p ⟨0, 0, .auto⟩ { suppressBorder := true } = .ok t ∧
    ∃ outs t', t.drain p [1, 2, 0, 0, 0, 0, 0, 0, 0, 0, 0] = .ok (outs, t') ∧
      (t.limit ≤ 11 → t'.done = true) ∧
      (t'.done = true →
        Trace.run p ⟨0, 0, .auto⟩ { suppressBorder := true } = .ok (t'.gather outs) ∧
        t'.length = (t'.gather outs).result.length ∧
        t'.turns = (t'.gather outs).result.turns) :=
  ⟨by decide, rfl, run_eq_gather_drain (by decide) rfl [1, 2, 0, 0, 0, 0, 0, 0, 0, 0, 0]⟩

end Tracer

end Perimeter
