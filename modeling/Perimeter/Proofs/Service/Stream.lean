import Perimeter.Proofs.Trace.Session
import Perimeter.Service.Stream

/-!
# What a stream tells

A stream answers a request with one error, or with the chunks of a walk and a message that it is done.
Every chunk starts from a boundary edge of the same picture, so once the first chunk is out none of the
later ones fails, and all of them together tell what an uninterrupted trace tells.
-/

namespace Perimeter.Service.Stream

open List (IsChain)

variable {p : Picture} {t : Tracer} {size : Int}

/-- What a chunk message tells. -/
structure Part where
  points : List Point
  stop : Edge
  length : Int
  turns : Int

def Part.message (c : Part) : Message := .chunk c.points c.stop c.length c.turns

/-- What is told of a chunk with this outcome, after which the tracer stands at `t`. -/
def Part.ofChunk (out : Walk.Outcome) (t : Tracer) : Part where
  points := out.points.toList
  stop := out.result.stop
  length := t.length
  turns := t.turns

/-- The message that ends the stream of a walk with this result. -/
def doneMessage (r : Walk.Result) : Message := .done r.start r.stop r.length r.turns r.complete

/-- The parts complete a walk of which `points` and `length` were told before: their points follow on
those, their lengths grow by at most `size` from one to the next, and the last one tells where the walk
ended. -/
structure Completes (parts : List Part) (out : Walk.Outcome) (size : Int) (points : List Point)
    (length : Int) : Prop where
  points : points ++ parts.flatMap Part.points = out.points.toList
  lengths : IsChain (fun a b => a ≤ b ∧ b ≤ a + size) (length :: parts.map Part.length)
  last : ∃ c ∈ parts.getLast?, c.stop = out.result.stop ∧ c.length = out.result.length ∧
    c.turns = out.result.turns

/-- The last part on its own. -/
theorem completes_singleton {c : Part} {out : Walk.Outcome} {points : List Point} {length : Int}
    (hpoints : points ++ c.points = out.points.toList)
    (hlength : length ≤ c.length ∧ c.length ≤ length + size)
    (hlast : c.stop = out.result.stop ∧ c.length = out.result.length ∧ c.turns = out.result.turns) :
    Completes [c] out size points length :=
  ⟨by simpa using hpoints, by simpa using hlength, c, rfl, hlast⟩

/-- One more part in front. -/
theorem Completes.cons {c : Part} {parts : List Part} {out : Walk.Outcome} {points points' : List Point}
    {length : Int} (h : Completes parts out size points' c.length)
    (hpoints : points' = points ++ c.points)
    (hlength : length ≤ c.length ∧ c.length ≤ length + size) :
    Completes (c :: parts) out size points length := by
  obtain ⟨last, hmem, hlast⟩ := h.last
  refine ⟨?_, ?_, last, ?_, hlast⟩
  · rw [← h.points, hpoints, List.flatMap_cons, List.append_assoc]
  · exact List.isChain_cons_cons.2 ⟨hlength, h.lengths⟩
  · cases parts with
    | nil => simp at hmem
    | cons d parts => simpa using hmem

/-! ## The chunks of a walk -/

theorem rest_of_done (hdone : t.done = true) (n : Nat) :
    rest p size (n + 1) t = [.done t.start t.position t.length t.turns t.closed] := by
  simp [rest, hdone]

theorem rest_of_next {out : Walk.Outcome} {t' : Tracer} (hnext : t.next p size = .ok (out, t'))
    (n : Nat) :
    rest p size (n + 1) t = (Part.ofChunk out t').message :: rest p size n t' := by
  have hopen := (Tracer.next_eq_ok.1 hnext).1
  simp [rest, hopen, hnext, Part.message, Part.ofChunk]

/-- An interrupted walk is told to its end. -/
theorem rest_pausedAt {whole : Walk.Plan} (hword : p.WordSized)
    (hlimit : 1 ≤ whole.limit ∧ whole.limit ≤ Picture.upperLimit p.width p.height)
    (hsize : 0 < size) (n : Nat) :
    ∀ {i : Nat}, whole.Paused p i → whole.limit - (Tracer.pausedAt whole p i).length < n →
      ∃ parts, rest p size n (Tracer.pausedAt whole p i) =
          parts.map Part.message ++ [doneMessage (whole.run p).result] ∧
        Completes parts (whole.run p) size (whole.after p i).points.toList
          (Tracer.pausedAt whole p i).length := by
  induction n with
  | zero =>
    intro i h hfuel
    have hlt : (Tracer.pausedAt whole p i).length < whole.limit :=
      Walk.Plan.stepsIn_lt_limit hlimit.1 h.goesOn
    simp only [Nat.cast_zero] at hfuel
    omega
  | succ n ih =>
    intro i h hfuel
    have hlt : (Tracer.pausedAt whole p i).length < whole.limit :=
      Walk.Plan.stepsIn_lt_limit hlimit.1 h.goesOn
    obtain ⟨out, hnext, hcases⟩ := Tracer.next_pausedAt hword hlimit h size
    obtain ⟨-, -, hgrows, hbound, -⟩ := (Tracer.sound_pausedAt hlimit.2 hlt).next hnext
    have hlength := And.intro hgrows (hbound hsize)
    rw [rest_of_next hnext]
    rcases hcases with ⟨hdone, hrun⟩ | ⟨j, hadv, hpaused, hpts, hmore⟩
    · -- The walk ends with this chunk, and there is room for the last message.
      obtain ⟨k, rfl⟩ : ∃ k, n = k + 1 := Nat.exists_eq_add_one.2 (by omega)
      refine ⟨[.ofChunk out ((Tracer.pausedAt whole p i).advance out)], ?_,
        completes_singleton ?_ hlength ?_⟩
      · rw [rest_of_done hdone, Tracer.closed, hdone, hrun]
        rfl
      · rw [hrun, Array.toList_append]
        rfl
      · rw [hrun]
        exact ⟨rfl, rfl, rfl⟩
    · rw [hadv] at hlength ⊢
      obtain ⟨parts, hrest, hcompletes⟩ := ih hpaused (by push_cast at hfuel; omega)
      refine ⟨.ofChunk out (Tracer.pausedAt whole p j) :: parts, ?_,
        Completes.cons (c := .ofChunk out (Tracer.pausedAt whole p j)) hcompletes ?_ hlength⟩
      · rw [hrest]
        rfl
      · rw [hpts, Array.toList_append]
        rfl

/-- In a picture whose upper limit is zero the first chunk is the whole walk. -/
theorem next_of_limit_eq_zero {whole : Walk.Plan} (size : Int)
    (hstart : p.IsBoundary whole.orientation whole.start) (hstop : whole.stop = none)
    (hlimit : whole.limit = 0)
    (hupper : Picture.upperLimit p.width p.height = 0) :
    (Tracer.pausedAt whole p 0).next p size =
      .ok (whole.run p, (Tracer.pausedAt whole p 0).advance (whole.run p)) := by
  have hbudget : (Tracer.pausedAt whole p 0).budget size = 0 := by
    simp only [Tracer.budget, Tracer.pausedAt, Picture.stepsIn_zero, hlimit]
    split_ifs <;> omega
  refine Tracer.next_eq rfl (Trace.run_eq ?_)
  have hplan := Trace.plan_eq ((Tracer.pausedAt whole p 0).chunkOptions size) hbudget.ge rfl
    hstart.check_seed hstart.start_seed
  have hcap : Trace.effectiveLimit p ((Tracer.pausedAt whole p 0).budget size) = whole.limit := by
    rw [hbudget, hlimit, Trace.effectiveLimit, hupper]
    rfl
  simp only [Tracer.chunkOptions, hcap, ← hstop] at hplan
  exact hplan

theorem messages_of_limit_eq_zero {whole : Walk.Plan}
    (hstart : p.IsBoundary whole.orientation whole.start) (hstop : whole.stop = none)
    (hlimit : whole.limit = 0) (hupper : Picture.upperLimit p.width p.height = 0) (hsize : 0 < size) :
    ∃ parts, messages p size (Tracer.pausedAt whole p 0) =
        parts.map Part.message ++ [doneMessage (whole.run p).result] ∧
      Completes parts (whole.run p) size [] 0 := by
  have hnext := next_of_limit_eq_zero size hstart hstop hlimit hupper
  have hle := Walk.Plan.length_run_le hstart
  have hnonneg := Walk.Plan.length_run_nonneg hstart
  have hdone : ((Tracer.pausedAt whole p 0).advance (whole.run p)).done = true := by
    have hused : whole.limit ≤ (whole.run p).result.length := by omega
    simp [Tracer.advance, Tracer.pausedAt, hused]
  have hclosed : (whole.run p).result.complete = ((whole.run p).result.stop == whole.start) := by
    simp [Walk.Plan.run, Walk.Plan.finish, Walk.Plan.endsOn, hstop]
  refine ⟨[.ofChunk (whole.run p) ((Tracer.pausedAt whole p 0).advance (whole.run p))], ?_,
    completes_singleton rfl ?_ ?_⟩
  · rw [messages, rest_of_next hnext, rest_of_done hdone, Tracer.closed, hdone, doneMessage, hclosed]
    simp [Tracer.advance, Tracer.pausedAt]
    rfl
  · simp only [Part.ofChunk, Tracer.advance, Tracer.pausedAt, Picture.stepsIn_zero]
    omega
  · simp [Part.ofChunk, Tracer.advance, Tracer.pausedAt]

/-- A picture whose upper limit wrapped around to below zero is not walked in chunks. -/
theorem messages_of_limit_neg {whole : Walk.Plan} (hlimit : whole.limit < 0) :
    ∃ f, messages p size (Tracer.pausedAt whole p 0) = [.ofFailure (.fault f)] := by
  have hbudget : (Tracer.pausedAt whole p 0).budget size < 0 := by
    simp only [Tracer.budget, Tracer.pausedAt, Picture.stepsIn_zero]
    split_ifs <;> omega
  have hnext : (Tracer.pausedAt whole p 0).next p size =
      .error (.negativeMaxLength .tracing ((Tracer.pausedAt whole p 0).budget size)) := by
    have hopen : (Tracer.pausedAt whole p 0).done = false := rfl
    simp [Tracer.next, hopen, Trace.run, Trace.plan, Trace.check, Tracer.chunkOptions, hbudget, bind,
      Except.bind, throw, throwThe, MonadExceptOf.throw]
  exact ⟨_, by rw [messages, rest, hnext]; rfl⟩

/-- A walk in chunks is told as the uninterrupted trace, unless its cap is below zero. -/
theorem messages_create {seed : Seed} {opts : Trace.Options} (hword : p.WordSized) (hsize : 0 < size)
    (hcreate : Tracer.create p seed opts = .ok t) :
    (Picture.upperLimit p.width p.height < 0 ∧ ∃ f, messages p size t = [.ofFailure (.fault f)]) ∨
    ∃ out, Trace.run p seed opts = .ok out ∧
      ∃ parts, messages p size t = parts.map Part.message ++ [doneMessage out.result] ∧
        Completes parts out size [] 0 := by
  obtain ⟨hstop, hmax, hcheck, e, hstart, rfl⟩ := Tracer.create_eq_ok hcreate
  have hboundary := Seed.isBoundary_start (Seed.check_eq_ok.1 hcheck).2.2.2 hstart
  have hplan := Trace.plan_eq opts hmax hstop hcheck hstart
  rcases lt_trichotomy (Trace.effectiveLimit p opts.maxLength) 0 with hneg | hzero | hpos
  · refine .inl ⟨?_, messages_of_limit_neg hneg⟩
    simp only [Trace.effectiveLimit] at hneg
    split_ifs at hneg <;> omega
  · refine .inr ⟨_, Trace.run_eq hplan, messages_of_limit_eq_zero hboundary rfl hzero ?_ hsize⟩
    simp only [Trace.effectiveLimit] at hzero
    split_ifs at hzero <;> omega
  · refine .inr ⟨_, Trace.run_eq hplan, ?_⟩
    generalize hwhole : (⟨opts.orientation, opts.suppressBorder, e, none,
      Trace.effectiveLimit p opts.maxLength⟩ : Walk.Plan) = whole
    have hlimit : whole.limit = Trace.effectiveLimit p opts.maxLength := by rw [← hwhole]
    refine rest_pausedAt hword ⟨by omega, hlimit ▸ Trace.effectiveLimit_le⟩ hsize _ (i := 0) ?_ ?_
    · subst hwhole
      exact ⟨hboundary, rfl, by simp, by simp, rfl⟩
    · simp only [Tracer.pausedAt, Picture.stepsIn_zero]
      omega

/-! ## Requests -/

/-- The options of the walk that a request asks for. -/
def Request.traceOptions (r : Request) : Trace.Options where
  orientation := .ofClockwise r.clockwise
  suppressBorder := r.suppressBorder
  maxLength := r.maxLength

/-- The message is about a failure. -/
def Message.IsError (m : Message) : Prop := ∃ text kind, m = .error text kind

theorem isError_ofFailure (e : Failure) : (Message.ofFailure e).IsError := by
  simp only [Message.ofFailure]
  split
  · exact ⟨_, _, rfl⟩
  · exact ⟨_, _, rfl⟩

theorem bind_eq_error {ε α β : Type} {x : Except ε α} {f : α → Except ε β} {e : ε} :
    x >>= f = .error e ↔ x = .error e ∨ ∃ a, x = .ok a ∧ f a = .error e := by
  cases x <;> simp [bind, Except.bind]

theorem isError_orMessage {α : Type} {x : Except Failure α} {m : Message}
    (h : orMessage x = .error m) : m.IsError := by
  cases x with
  | ok a => cases h
  | error e =>
    cases h
    exact isError_ofFailure e

theorem orMessage_eq_ok {α : Type} {x : Except Failure α} {a : α} :
    orMessage x = .ok a ↔ x = .ok a := by
  cases x <;> simp [orMessage]

theorem liftFault_eq_ok {α : Type} {x : Except Fault α} {a : α} :
    liftFault x = .ok a ↔ x = .ok a := by
  cases x <;> simp [liftFault]

theorem isError_binarizeOptions {s : Service} {r : Request} {m : Message}
    (h : binarizeOptions s r = .error m) : m.IsError := by
  simp only [binarizeOptions] at h
  split at h
  · cases h
  · split_ifs at h
    cases h
    exact ⟨_, _, rfl⟩

/-- A picture has the size of the image it was made from. -/
theorem size_of_binarize {i : Image} {opts : BinarizeOptions} {ink : Raster}
    (h : Image.binarize (some i) opts = .ok ink) :
    ink.picture.width = i.width ∧ ink.picture.height = i.height := by
  simp only [Image.binarize] at h
  split_ifs at h
  · cases h
    exact ⟨rfl, rfl⟩
  · cases h
    exact ⟨rfl, rfl⟩

theorem picture_of_image {s : Service} {r : Request} {i : Image} (h : r.image = some (.image i)) :
    picture s r = (do
      let opts ← binarizeOptions s r
      let ink ← orMessage (Image.binarize (some i.reloaded) opts)
      pure ink.picture) := by
  rw [picture, h]
  rfl

theorem isError_of_no_image {s : Service} {r : Request} (h : ∀ i, r.image ≠ some (.image i)) :
    ∃ m, picture s r = .error m ∧ m.IsError := by
  cases himage : r.image with
  | none => exact ⟨_, by rw [picture, himage]; rfl, _, _, rfl⟩
  | some content =>
    cases content with
    | text _ => exact ⟨_, by rw [picture, himage]; rfl, _, _, rfl⟩
    | image i => exact absurd himage (h i)

/-- A request whose picture cannot be had is answered with an error. -/
theorem isError_picture {s : Service} {r : Request} {m : Message} (h : picture s r = .error m) :
    m.IsError := by
  by_cases himage : ∃ i, r.image = some (.image i)
  · obtain ⟨i, himage⟩ := himage
    simp only [picture_of_image himage, bind_eq_error] at h
    obtain hopts | ⟨opts, -, hink | ⟨ink, -, hok⟩⟩ := h
    · exact isError_binarizeOptions hopts
    · exact isError_orMessage hink
    · cases hok
  · obtain ⟨m', hm', herror⟩ := isError_of_no_image (s := s) (not_exists.1 himage)
    rw [h, Except.error.injEq] at hm'
    rwa [hm']

/-- The picture of a request has the size of the image that the request holds. -/
theorem size_of_picture {s : Service} {r : Request} (h : picture s r = .ok p) :
    ∃ i, r.image = some (.image i) ∧ p.width = i.width ∧ p.height = i.height := by
  by_cases himage : ∃ i, r.image = some (.image i)
  · obtain ⟨i, himage⟩ := himage
    simp only [picture_of_image himage, bind_eq_ok, orMessage_eq_ok] at h
    obtain ⟨opts, -, ink, hink, hp⟩ := h
    cases hp
    have hsize := size_of_binarize hink
    exact ⟨i, himage, hsize⟩
  · obtain ⟨m, hm, -⟩ := isError_of_no_image (s := s) (not_exists.1 himage)
    rw [hm] at h
    cases h

theorem isError_tracer {r : Request} {m : Message} (h : tracer p r = .error m) : m.IsError := by
  simp only [tracer, bind_eq_error] at h
  obtain hcourse | ⟨course, -, hcreate⟩ := h
  · exact isError_orMessage hcourse
  · exact isError_orMessage hcreate

theorem tracer_eq_ok {r : Request} :
    tracer p r = .ok t ↔ ∃ course, Course.ofText r.direction = .ok course ∧
      Tracer.create p ⟨r.x, r.y, course⟩ r.traceOptions = .ok t := by
  simp only [tracer, bind_eq_ok, orMessage_eq_ok, liftFault_eq_ok]
  rfl

/-! ## Streams -/

theorem stream_of_picture_error {s : Service} {r : Request} {m : Message}
    (h : picture s r = .error m) : s.stream r = [m] := by
  simp [stream, h, bind, Except.bind]

theorem stream_of_tracer_error {s : Service} {r : Request} {m : Message} (hp : picture s r = .ok p)
    (h : tracer p r = .error m) : s.stream r = [m] := by
  simp [stream, hp, h, bind, Except.bind]

theorem stream_of_tracer {s : Service} {r : Request} (hp : picture s r = .ok p)
    (h : tracer p r = .ok t) : s.stream r = messages p (chunkFor s r) t := by
  simp [stream, hp, h, bind, Except.bind, pure, Except.pure]

theorem chunkFor_pos (s : Service) (r : Request) : 0 < chunkFor s r := by
  have hpos := s.chunkSize_pos
  simp only [chunkFor]
  split_ifs <;> omega

/-- Either a picture or a tracer cannot be had and the stream is one error, or the stream is the messages
of a tracer. -/
theorem stream_cases (s : Service) (r : Request) :
    (∃ m, s.stream r = [m] ∧ m.IsError ∧ ∀ p, picture s r = .ok p → ∀ t, tracer p r ≠ .ok t) ∨
    ∃ p t, picture s r = .ok p ∧ tracer p r = .ok t ∧
      s.stream r = messages p (chunkFor s r) t := by
  cases hp : picture s r with
  | error m =>
    refine .inl ⟨m, stream_of_picture_error hp, isError_picture hp, ?_⟩
    intro p hok
    cases hok
  | ok p =>
    cases ht : tracer p r with
    | error m =>
      refine .inl ⟨m, stream_of_tracer_error hp ht, isError_tracer ht, ?_⟩
      intro p' hok t htracer
      cases hok
      rw [ht] at htracer
      cases htracer
    | ok t => exact .inr ⟨p, t, rfl, ht, stream_of_tracer hp ht⟩

/-- A stream is one error and nothing else, or the chunks of a walk and one message that it is done. The
chunks and that message tell what an uninterrupted trace of the same request tells, and each chunk at
most as many steps as the stream sends at a time. A request whose trace succeeds is not answered with an
error. -/
theorem stream_protocol (s : Service) (r : Request)
    (hword : ∀ i, r.image = some (.image i) → FitsWord i.width ∧ FitsWord i.height) :
    ((∃ text kind, s.stream r = [.error text kind]) ∨
      ∃ p course out, picture s r = .ok p ∧ Course.ofText r.direction = .ok course ∧
        Trace.run p ⟨r.x, r.y, course⟩ r.traceOptions = .ok out ∧
        ∃ parts : List Part,
          s.stream r = parts.map Part.message ++ [.done out.result.start out.result.stop
            out.result.length out.result.turns out.result.complete] ∧
          parts.flatMap Part.points = out.points.toList ∧
          IsChain (fun a b => a ≤ b ∧ b ≤ a + chunkFor s r) (0 :: parts.map Part.length) ∧
          ∃ c ∈ parts.getLast?, c.stop = out.result.stop ∧ c.length = out.result.length ∧
            c.turns = out.result.turns) ∧
    ∀ p course out, picture s r = .ok p → p.Fits → Course.ofText r.direction = .ok course →
      Trace.run p ⟨r.x, r.y, course⟩ r.traceOptions = .ok out →
      ∀ text kind, s.stream r ≠ [.error text kind] := by
  rcases stream_cases s r with ⟨m, hstream, ⟨text, kind, rfl⟩, hnone⟩ | ⟨p, t, hp, ht, hstream⟩
  · refine ⟨.inl ⟨text, kind, hstream⟩, ?_⟩
    intro p course out hp _ hcourse hrun
    obtain ⟨t, hcreate⟩ := Tracer.exists_create rfl hrun
    exact absurd (tracer_eq_ok.2 ⟨course, hcourse, hcreate⟩) (hnone p hp t)
  · obtain ⟨course, hcourse, hcreate⟩ := tracer_eq_ok.1 ht
    obtain ⟨i, himage, hwidth, hheight⟩ := size_of_picture hp
    have hsized : p.WordSized := by
      rw [Picture.WordSized, hwidth, hheight]
      exact hword i himage
    rcases messages_create hsized (chunkFor_pos s r) hcreate with
      ⟨hneg, f, hmessages⟩ | ⟨out, hrun, parts, hmessages, hcompletes⟩
    · obtain ⟨text, kind, herror⟩ := isError_ofFailure (.fault f)
      refine ⟨.inl ⟨text, kind, by rw [hstream, hmessages, herror]⟩, ?_⟩
      intro p' course' out' hp' hfit
      rw [hp, Except.ok.injEq] at hp'
      subst hp'
      obtain ⟨-, -, hcheck, -⟩ := Tracer.create_eq_ok hcreate
      obtain ⟨-, hw, hh, -⟩ := Seed.check_eq_ok.1 hcheck
      have hpos := hfit.one_le_upperLimit hw hh
      omega
    · refine ⟨.inr ⟨p, course, out, hp, hcourse, hrun, parts, ?_, hcompletes.points,
        hcompletes.lengths, hcompletes.last⟩, ?_⟩
      · rw [hstream, hmessages, doneMessage]
      · intro _ _ _ _ _ _ _ text kind herror
        rw [hstream, hmessages, List.append_eq_singleton_iff] at herror
        simp [doneMessage] at herror

/-- A pair of pixels, one step at a time: three chunks, and then the message that the walk is done. -/
theorem stream_protocol_pair :
    let s : Service := ⟨"localhost:8080", "*", 52428800, 30, 256, by decide, {}, {}, {}⟩
    let r : Request := { image := some (.image ⟨2, 1, #[.gray 0, .gray 0]⟩), chunk := 1 }
    (∀ i, r.image = some (.image i) → FitsWord i.width ∧ FitsWord i.height) ∧
    s.stream r =
      [.chunk [⟨0, 0⟩] ⟨1, 0, .right⟩ 1 0, .chunk [⟨1, 0⟩] ⟨0, 0, .left⟩ 2 2,
        .chunk [] ⟨0, 0, .right⟩ 2 4, .done ⟨0, 0, .right⟩ ⟨0, 0, .right⟩ 2 4 true] ∧
    ∃ p course out, picture s r = .ok p ∧ Course.ofText "" = .ok course ∧
      Trace.run p ⟨0, 0, course⟩ {} = .ok out ∧
      ∃ parts : List Part,
        s.stream r = parts.map Part.message ++ [.done out.result.start out.result.stop
          out.result.length out.result.turns out.result.complete] ∧
        parts.flatMap Part.points = out.points.toList ∧
        IsChain (fun a b => a ≤ b ∧ b ≤ a + chunkFor s r) (0 :: parts.map Part.length) ∧
        ∃ c ∈ parts.getLast?, c.stop = out.result.stop ∧ c.length = out.result.length ∧
          c.turns = out.result.turns := by
  intro s r
  have hword : ∀ i, r.image = some (.image i) → FitsWord i.width ∧ FitsWord i.height := by
    rintro i ⟨⟩
    decide
  have hstream : s.stream r =
      [.chunk [⟨0, 0⟩] ⟨1, 0, .right⟩ 1 0, .chunk [⟨1, 0⟩] ⟨0, 0, .left⟩ 2 2,
        .chunk [] ⟨0, 0, .right⟩ 2 4, .done ⟨0, 0, .right⟩ ⟨0, 0, .right⟩ 2 4 true] := by
    decide +kernel
  refine ⟨hword, hstream, ?_⟩
  obtain ⟨⟨text, kind, herror⟩ | hdone, -⟩ := stream_protocol s r hword
  · rw [hstream] at herror
    cases herror
  · exact hdone

end Perimeter.Service.Stream
