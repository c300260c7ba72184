import Mathlib.Algebra.BigOperators.Group.Multiset.Basic
import Mathlib.Algebra.Order.Group.Multiset
import Mathlib.Tactic.Abel
import Perimeter.Crew.Steps
import Perimeter.Proofs.Blob.Contours
import Perimeter.Proofs.Crew.Report

/-!
# Every order of moves gives the same report

While a run is not called off, each picture is in exactly one place: not yet in the queue of jobs, in
that queue, with a worker, in the queue of results, or collected. No move changes what is there
altogether, and at the end all of it is collected. Every move uses up some of what remains to be done,
and as long as there is no answer some move is possible, so every run comes to an answer.
-/

namespace Perimeter.Crew

variable {pictures : List Picture} {cfg : Blob.Config} {total : Nat} {s s' : State}

/-! ## What remains to be done -/

/-- What replacing one worker does to a sum over all of them. -/
theorem sum_map_set {α M : Type} [AddCommMonoid M] {l : List α} {i : Nat} {a : α}
    (h : l[i]? = some a) (f : α → M) (b : α) :
    ((l.set i b).map f).sum + f a = (l.map f).sum + f b := by
  induction l generalizing i with
  | nil => simp at h
  | cons c l ih =>
    cases i with
    | zero =>
      obtain rfl : c = a := by simpa using h
      simp only [List.set_cons_zero, List.map_cons, List.sum_cons]
      abel
    | succ i =>
      have hrest := ih (i := i) (by simpa using h)
      simp only [List.set_cons_succ, List.map_cons, List.sum_cons, add_assoc, hrest]

/-- What comes out of a job. -/
def Job.finish (cfg : Blob.Config) (j : Job) : Finished := ⟨j.index, Blob.find j.picture cfg⟩

/-- What a worker adds to the moves that remain. It is yet to leave, and an outcome that it holds is yet
to be handed over and collected. -/
def Worker.load : Worker → Nat
  | idle => 1
  | holding _ => 3
  | gone => 0

/-- A bound on the number of moves that a run can still make. A job weighs less in each place on its way
through the run. -/
def State.remaining (s : State) : Nat :=
  4 * s.feed.length + s.feeding.toNat + 3 * s.jobs.length + (s.workers.map Worker.load).sum +
    s.results.length + (!s.cancelled).toNat + s.answer.isNone.toNat

theorem Step.remaining_lt (h : Step cfg total s s') : s'.remaining < s.remaining := by
  cases h with
  | cancel open_ going => simp [State.remaining, going]
  | feed feeding next room =>
    simp only [State.remaining, next, List.length_append, List.length_cons, List.length_nil]
    omega
  | feedEnd feeding empty => simp [State.remaining, feeding]
  | feedStop feeding cancelled => simp [State.remaining, feeding]
  | @take j rest i idle next =>
    have hload := sum_map_set idle Worker.load (.holding (j.finish cfg))
    simp only [Worker.load, Job.finish] at hload
    simp only [State.remaining, next, List.length_cons]
    omega
  | leave i idle empty closed =>
    have hload := sum_map_set idle Worker.load .gone
    simp only [Worker.load] at hload
    simp only [State.remaining]
    omega
  | quit i idle cancelled =>
    have hload := sum_map_set idle Worker.load .gone
    simp only [Worker.load] at hload
    simp only [State.remaining]
    omega
  | deliver i holds room =>
    have hload := sum_map_set holds Worker.load .idle
    simp only [Worker.load] at hload
    simp only [State.remaining, List.length_append, List.length_cons, List.length_nil]
    omega
  | drop i holds cancelled =>
    have hload := sum_map_set holds Worker.load .gone
    simp only [Worker.load] at hload
    simp only [State.remaining]
    omega
  | collect open_ next => simp [State.remaining, next]
  | answer open_ empty left => simp [State.remaining, open_]

/-- Nothing stands in the way of a run without an answer. -/
theorem exists_step (cfg : Blob.Config) (htotal : 0 < total) (hopen : s.answer = none) :
    ∃ s', Step cfg total s s' ∧ s'.cancelled = s.cancelled := by
  cases hresults : s.results with
  | cons r rest => exact ⟨_, .collect hopen hresults, rfl⟩
  | nil =>
    have hroom : s.results.length < total := by simpa [hresults] using htotal
    -- Without results to collect, either all workers have left or one of them can make a move.
    by_cases hleft : ∀ w ∈ s.workers, w = .gone
    · exact ⟨_, .answer hopen hresults hleft, rfl⟩
    · push Not at hleft
      obtain ⟨w, hmem, hw⟩ := hleft
      obtain ⟨i, hi⟩ := List.mem_iff_getElem?.1 hmem
      cases w with
      | gone => exact absurd rfl hw
      | holding r => exact ⟨_, .deliver i hi hroom, rfl⟩
      | idle =>
        cases hjobs : s.jobs with
        | cons j rest => exact ⟨_, .take i hi hjobs, rfl⟩
        | nil =>
          cases hfeeding : s.feeding with
          | false => exact ⟨_, .leave i hi hjobs hfeeding, rfl⟩
          | true =>
            cases hfeed : s.feed with
            | nil => exact ⟨_, .feedEnd hfeeding hfeed, rfl⟩
            | cons j rest =>
              exact ⟨_, .feed hfeeding hfeed (by simpa [hjobs] using htotal), rfl⟩

/-! ## Where the pictures are -/

/-- What a worker has to hand over. -/
def Worker.held : Worker → Multiset Finished
  | idle => 0
  | holding r => {r}
  | gone => 0

/-- All pictures of a run with their outcomes, wherever they are. -/
def State.account (cfg : Blob.Config) (s : State) : Multiset Finished :=
  ((s.feed ++ s.jobs).map (Job.finish cfg) : List Finished) + (s.workers.map Worker.held).sum +
    s.results + s.collected

theorem State.account_start (cfg : Blob.Config) (pictures : List Picture) (workers : Nat) :
    (State.start pictures workers).account cfg = (outcomes pictures cfg : Multiset Finished) := by
  simp [State.account, State.start, outcomes, Worker.held, Job.finish, Function.comp_def]

/-- As long as a run is not called off, no move loses a picture or brings in another one. -/
theorem Step.account_eq (h : Step cfg total s s') (hgoing : s'.cancelled = false) :
    s'.account cfg = s.account cfg := by
  cases h with
  | cancel open_ going => cases hgoing
  | feed feeding next room =>
    simp only [State.account, next, List.map_append, List.map_cons, List.map_nil, List.cons_append,
      ← Multiset.coe_add, ← Multiset.cons_coe, ← Multiset.singleton_add, Multiset.coe_nil]
    abel
  | feedEnd feeding empty => rfl
  | feedStop feeding cancelled => rfl
  | @take j rest i idle next =>
    have hheld := sum_map_set idle Worker.held (.holding (j.finish cfg))
    simp only [Worker.held, Job.finish, add_zero] at hheld
    simp only [State.account, next, hheld, List.map_append, List.map_cons, Job.finish,
      ← Multiset.coe_add, ← Multiset.cons_coe, ← Multiset.singleton_add]
    abel
  | leave i idle empty closed =>
    have hheld := sum_map_set idle Worker.held .gone
    simp only [Worker.held, add_zero] at hheld
    simp only [State.account, hheld]
  | quit i idle cancelled =>
    rw [hgoing] at cancelled
    cases cancelled
  | deliver i holds room =>
    have hheld := sum_map_set holds Worker.held .idle
    simp only [Worker.held, add_zero] at hheld
    simp only [State.account, ← hheld, ← Multiset.coe_add, Multiset.coe_singleton]
    abel
  | drop i holds cancelled =>
    rw [hgoing] at cancelled
    cases cancelled
  | collect open_ next =>
    simp only [State.account, next, ← Multiset.coe_add, ← Multiset.cons_coe,
      ← Multiset.singleton_add, Multiset.coe_nil]
    abel
  | answer open_ empty left => rfl

/-! ## What holds at every moment of a run -/

/-- What is known of a run over a list of pictures, whatever moves have led to it. -/
structure State.Sound (pictures : List Picture) (cfg : Blob.Config) (s : State) : Prop where
  manned : s.workers ≠ []
  counted : s.progress = countUp s.collected pictures.length
  fed : s.cancelled = false → s.feeding = false → s.feed = []
  /-- Workers leave when there is nothing left to do. -/
  dismissed : s.cancelled = false → .gone ∈ s.workers → s.feeding = false ∧ s.jobs = []
  kept : s.cancelled = false → s.account cfg = (outcomes pictures cfg : Multiset Finished)
  answered : ∀ report, s.answer = some report →
    report = s.conclude pictures.length ∧
      (s.cancelled = false → s.collected.Perm (outcomes pictures cfg))

theorem State.sound_start {workers : Nat} (h : 0 < workers) :
    (State.start pictures workers).Sound pictures cfg where
  manned := by simpa [State.start] using h.ne'
  counted := rfl
  fed := by simp [State.start]
  dismissed := by simp [State.start]
  kept := fun _ => State.account_start cfg pictures workers
  answered := by simp [State.start]

theorem Step.going (h : Step cfg total s s') (hgoing : s'.cancelled = false) :
    s.cancelled = false := by
  cases h <;> first | exact hgoing | cases hgoing

theorem Step.length_workers (h : Step cfg total s s') : s'.workers.length = s.workers.length := by
  cases h <;> simp

/-- When all workers have left and all outcomes are taken, every picture has been collected. -/
theorem State.Sound.collected_perm (hs : s.Sound pictures cfg) (hgoing : s.cancelled = false)
    (hresults : s.results = []) (hleft : ∀ w ∈ s.workers, w = .gone) :
    s.collected.Perm (outcomes pictures cfg) := by
  have hgone : Worker.gone ∈ s.workers := by
    obtain ⟨w, hw⟩ := List.exists_mem_of_ne_nil _ hs.manned
    rwa [hleft w hw] at hw
  obtain ⟨hfeeding, hjobs⟩ := hs.dismissed hgoing hgone
  have hfeed := hs.fed hgoing hfeeding
  have hheld : (s.workers.map Worker.held).sum = 0 := by
    refine List.sum_eq_zero fun x hx => ?_
    obtain ⟨w, hw, rfl⟩ := List.mem_map.1 hx
    rw [hleft w hw, Worker.held]
  have hkept := hs.kept hgoing
  simp only [State.account, hfeed, hjobs, hheld, hresults, List.append_nil, List.map_nil,
    Multiset.coe_nil, add_zero, zero_add] at hkept
  exact Multiset.coe_eq_coe.1 hkept

theorem State.Sound.fed_step (hs : s.Sound pictures cfg) (h : Step cfg total s s')
    (hgoing : s'.cancelled = false) (hclosed : s'.feeding = false) : s'.feed = [] := by
  cases h with
  | cancel open_ going => cases hgoing
  | feed feeding next room =>
    rw [feeding] at hclosed
    cases hclosed
  | feedEnd feeding empty => exact empty
  | feedStop feeding cancelled =>
    rw [hgoing] at cancelled
    cases cancelled
  | _ => exact hs.fed hgoing hclosed

theorem State.Sound.dismissed_step (hs : s.Sound pictures cfg) (h : Step cfg total s s')
    (hgoing : s'.cancelled = false) (hgone : .gone ∈ s'.workers) :
    s'.feeding = false ∧ s'.jobs = [] := by
  -- A worker that stays is not the first one to leave.
  have hbefore : ∀ {i w}, .gone ∈ s.workers.set i w → w ≠ .gone → .gone ∈ s.workers :=
    fun hmem hw => (List.mem_or_eq_of_mem_set hmem).resolve_right fun heq => hw heq.symm
  cases h with
  | cancel open_ going => cases hgoing
  | feed feeding next room =>
    have hclosed := (hs.dismissed hgoing hgone).1
    rw [feeding] at hclosed
    cases hclosed
  | feedEnd feeding empty => exact ⟨rfl, (hs.dismissed hgoing hgone).2⟩
  | feedStop feeding cancelled => exact ⟨rfl, (hs.dismissed hgoing hgone).2⟩
  | take i idle next =>
    have hempty := (hs.dismissed hgoing (hbefore hgone nofun)).2
    rw [next] at hempty
    cases hempty
  | leave i idle empty closed => exact ⟨closed, empty⟩
  | quit i idle cancelled =>
    rw [hgoing] at cancelled
    cases cancelled
  | deliver i holds room => exact hs.dismissed hgoing (hbefore hgone nofun)
  | drop i holds cancelled =>
    rw [hgoing] at cancelled
    cases cancelled
  | _ => exact hs.dismissed hgoing hgone

theorem State.Sound.answered_step (hs : s.Sound pictures cfg)
    (h : Step cfg pictures.length s s') {report : Report} (hreport : s'.answer = some report) :
    report = s'.conclude pictures.length ∧
      (s'.cancelled = false → s'.collected.Perm (outcomes pictures cfg)) := by
  cases h with
  | cancel open_ going =>
    rw [open_] at hreport
    cases hreport
  | collect open_ next =>
    rw [open_] at hreport
    cases hreport
  | answer open_ empty left =>
    cases hreport
    exact ⟨rfl, fun hgoing => hs.collected_perm hgoing empty left⟩
  | _ => exact hs.answered report hreport

theorem State.Sound.counted_step (hs : s.Sound pictures cfg) (h : Step cfg pictures.length s s') :
    s'.progress = countUp s'.collected pictures.length := by
  cases h with
  | collect open_ next =>
    simp only [hs.counted, countUp, List.length_append, List.length_singleton, List.range_succ,
      List.map_append, List.map_cons, List.map_nil]
  | _ => exact hs.counted

theorem State.Sound.step (hs : s.Sound pictures cfg) (h : Step cfg pictures.length s s') :
    s'.Sound pictures cfg where
  manned := by
    have hlength := h.length_workers
    have hpos := List.length_pos_of_ne_nil hs.manned
    exact List.ne_nil_of_length_pos (by omega)
  counted := hs.counted_step h
  fed := hs.fed_step h
  dismissed := hs.dismissed_step h
  kept := fun hgoing => (h.account_eq hgoing).trans (hs.kept (h.going hgoing))
  answered := fun _ hreport => hs.answered_step h hreport

theorem State.Sound.run (hs : s.Sound pictures cfg) (h : Run cfg pictures.length s s') :
    s'.Sound pictures cfg := by
  induction h with
  | refl => exact hs
  | tail run step ih => exact ih.step step

/-! ## Every run -/

/-- No run goes on for ever. -/
theorem exists_not_step (cfg : Blob.Config) (total : Nat) (states : Nat → State) :
    ∃ n, ¬ Step cfg total (states n) (states (n + 1)) := by
  by_contra hsteps
  push Not at hsteps
  -- What remains drops with each move, and it cannot drop more often than it says at the start.
  have hdrop : ∀ n, (states n).remaining + n ≤ (states 0).remaining := by
    intro n
    induction n with
    | zero => rfl
    | succ n ih =>
      have hlt := (hsteps n).remaining_lt
      omega
  have hlast := hdrop ((states 0).remaining + 1)
  omega

theorem size_pos {available n : Nat} (requested : Int) (havailable : 0 < available) (hn : 0 < n) :
    0 < size requested available n := by
  rw [size]
  split <;> omega

/-- However many workers share out a list of pictures and in whatever order they do it, the run comes
to an answer. A run that was not called off reports the outcome of every picture at its place, counts
up to the number of pictures, lists the failures by ascending place and fails with the first of them.
A run that was called off before it answered reports no results and that it was called off. -/
theorem run_reports (hpictures : pictures ≠ []) (cfg : Blob.Config) (requested : Int) {available : Nat}
    (havailable : 0 < available) :
    (∀ states : Nat → State,
      states 0 = State.start pictures (size requested available pictures.length) →
        ∃ n, ¬ Step cfg pictures.length (states n) (states (n + 1))) ∧
    ∀ s, Run cfg pictures.length (State.start pictures (size requested available pictures.length)) s →
      (s.answer = none → ∃ s', Step cfg pictures.length s s' ∧ s'.cancelled = s.cancelled) ∧
      ∀ report, s.answer = some report →
        (s.cancelled = false →
          report = findAll pictures cfg false ∧
          report.results = some (pictures.map fun p => (Blob.find p cfg).toOption) ∧
          report.progress = (List.range pictures.length).map (fun k => (k + 1, pictures.length)) ∧
          report.failed = failuresOf pictures cfg ∧
          report.failure = firstFailure (failuresOf pictures cfg)) ∧
        (s.cancelled = true →
          report.results = none ∧ report.failed = [] ∧ report.failure = some calledOff) := by
  have hpos := List.length_pos_of_ne_nil hpictures
  refine ⟨fun states _ => exists_not_step cfg _ states, fun s hrun => ?_⟩
  have hstart : State.Sound pictures cfg _ :=
    State.sound_start (size_pos requested havailable hpos)
  have hs := hstart.run hrun
  refine ⟨exists_step cfg hpos, fun report hreport => ?_⟩
  obtain ⟨hconclude, hperm⟩ := hs.answered report hreport
  refine ⟨fun hgoing => ?_, fun hcancelled => ?_⟩
  · have hfull : report = conclude pictures.length s.collected := by
      rw [hconclude, State.conclude, hgoing, hs.counted]
      rfl
    have hall : report = findAll pictures cfg false := by
      rw [hfull, conclude_of_perm (hperm hgoing), findAll, if_neg (by simpa using hpictures),
        if_neg (by simp), conclude_of_perm (List.Perm.refl _)]
    rw [conclude_of_perm (hperm hgoing)] at hfull
    exact ⟨hall, by rw [hfull], by rw [hfull], by rw [hfull], by rw [hfull]⟩
  · rw [hconclude, State.conclude, hcancelled]
    exact ⟨rfl, rfl, rfl⟩

/-- An image without pixels and one of a single pixel, with two workers. The worker with the second one
hands it over first; then comes the failure of the first one. -/
theorem run_reports_pair :
    let bare : Picture := ⟨0, 1, fun _ _ => false⟩
    let dot : Picture := ⟨1, 1, fun _ _ => true⟩
    ∃ s report e r, Run {} 2 (State.start [bare, dot] (size 2 1 2)) s ∧
      s.collected.map Finished.index = [1, 0] ∧ s.answer = some report ∧
      Blob.find bare {} = .error e ∧ Blob.find dot {} = .ok r ∧
      report = findAll [bare, dot] {} false ∧ report.results = some [none, some r] ∧
      report.progress = [(1, 2), (2, 2)] ∧ report.failed = [(0, e)] ∧
      report.failure = some (.during "image 0" e) := by
  intro bare dot
  let e : Failure := .fault (.emptyImage .extraction 0 1)
  have hbare : Blob.find bare {} = .error e := rfl
  obtain ⟨r, hdot⟩ : ∃ r, Blob.find dot {} = .ok r :=
    ⟨_, Blob.find_eq (by decide) (by decide) (by decide) (by decide)⟩
  let first : Finished := ⟨0, Blob.find bare {}⟩
  let second : Finished := ⟨1, Blob.find dot {}⟩
  have fed : Run {} 2 (.start [bare, dot] 2)
      ⟨[], true, [⟨0, bare⟩, ⟨1, dot⟩], [.idle, .idle], [], [], [], false, none⟩ :=
    .tail (.tail (.refl _) (.feed rfl rfl (by decide))) (.feed rfl rfl (by decide))
  have closed : Run {} 2 (.start [bare, dot] 2)
      ⟨[], false, [⟨0, bare⟩, ⟨1, dot⟩], [.idle, .idle], [], [], [], false, none⟩ :=
    .tail fed (.feedEnd rfl rfl)
  have taken : Run {} 2 (.start [bare, dot] 2)
      ⟨[], false, [], [.holding first, .holding second], [], [], [], false, none⟩ :=
    .tail (.tail closed (.take (j := ⟨0, bare⟩) 0 rfl rfl)) (.take (j := ⟨1, dot⟩) 1 rfl rfl)
  have delivered : Run {} 2 (.start [bare, dot] 2)
      ⟨[], false, [], [.idle, .idle], [second, first], [], [], false, none⟩ :=
    .tail (.tail taken (.deliver 1 rfl (by decide))) (.deliver 0 rfl (by decide))
  have left : Run {} 2 (.start [bare, dot] 2)
      ⟨[], false, [], [.gone, .gone], [second, first], [], [], false, none⟩ :=
    .tail (.tail delivered (.leave 0 rfl rfl rfl)) (.leave 1 rfl rfl rfl)
  have collected : Run {} 2 (.start [bare, dot] 2)
      ⟨[], false, [], [.gone, .gone], [], [second, first], [(1, 2), (2, 2)], false, none⟩ :=
    .tail (.tail left (.collect rfl rfl)) (.collect rfl rfl)
  have answered := collected.tail (.answer rfl rfl (by simp))
  have hreports := (run_reports (List.cons_ne_nil bare [dot]) {} 2 Nat.one_pos).2 _ answered
  obtain ⟨hall, hresults, hprogress, hfailed, hfailure⟩ := (hreports.2 _ rfl).1 rfl
  have hlist : failuresOf [bare, dot] {} = [(0, e)] := by
    simp [failuresOf, failure?, hbare, hdot]
  rw [hlist] at hfailed hfailure
  refine ⟨_, _, e, r, answered, rfl, rfl, hbare, hdot, hall, ?_, hprogress, hfailed, hfailure⟩
  rw [hresults]
  simp [hbare, hdot, Except.toOption]

end Perimeter.Crew
