import Mathlib.Algebra.Order.Ring.Int
import Perimeter.Blob.Find
import Perimeter.Proofs.Region.Words

/-!
# Buffers that are used again

A request whose class is a word never fails, and its buffer is clean whatever was given back before,
and whichever buffer the pool picks. A buffer on a shelf is at most as large as the class of the shelf,
so what is handed out has exactly the size of its class. The labels of a picture are written into such
a buffer, so blobs are found alike with any pool. As long as the pixels can be counted in a word, and
the regions numbered in the words that keep the labels, they are those of `Blob.find`.
-/

namespace Perimeter

variable {α : Type}

/-! ## Buffers -/

namespace Buffer

/-- A cleaned buffer holds what it was cleaned with, and nothing else. -/
theorem content_fill (b : Buffer α) (x : α) : (b.fill x).content = Array.replicate b.length x := by
  have hle := b.length_le
  refine Array.ext (by simp [content, fill, hle]) fun i hi hi' => ?_
  have hlt : i < b.length := by simpa using hi'
  simp [content, fill, hlt]

theorem capacity_fill (b : Buffer α) (x : α) : (b.fill x).capacity = b.capacity := by
  simp [capacity, fill]

theorem size_content (b : Buffer α) : b.content.size = b.length := by
  have hle := b.length_le
  simp [content, hle]

theorem slice_eq_ok {cells : Array α} {n : Nat} (h : n ≤ cells.size) :
    slice cells n = .ok ⟨cells, n, h⟩ := by
  have hrange : 0 ≤ (n : Int) ∧ (n : Int) ≤ cells.size := by omega
  rw [slice, dif_pos hrange]
  rfl

end Buffer

namespace Pool

variable {p rest : Pool α} {zero : α} {b : Buffer α} {found : Option (Buffer α)} {choice : Option Nat}
  {cls n : Int}

/-! ## Size classes -/

/-- As long as the rounding stays within a word, the class in words is the class. -/
theorem wordClass_eq (hn : 0 ≤ n) (hfits : FitsWord (n + 1023)) : wordClass n = sizeClass n.toNat := by
  have hround : FitsWord ((n + 1023) / 1024 * 1024) := by
    simp only [FitsWord] at hfits ⊢
    omega
  rw [wordClass, sizeClass, wrap64_eq_self hfits, Int.tdiv_eq_ediv_of_nonneg (by omega),
    wrap64_eq_self hround]
  split <;> split <;> omega

/-- Beyond that the rounding wraps, and the class is negative. -/
theorem wordClass_neg (hn : FitsWord n) (hfits : ¬FitsWord (n + 1023)) : wordClass n < 0 := by
  have hwrap : wrap64 (n + 1023) = n + 1023 - wordModulus := by
    rw [wrap64, if_neg hfits]
    simp only [FitsWord, wordModulus, Int.bmod] at hn hfits ⊢
    omega
  simp only [FitsWord] at hn hfits
  have hdiv : (n + 1023 - wordModulus).tdiv 1024 = -((wordModulus - (n + 1023)) / 1024) := by
    rw [← Int.tdiv_eq_ediv_of_nonneg (by simp only [wordModulus]; omega), ← Int.neg_tdiv, Int.neg_sub]
  simp only [wordModulus] at hwrap hdiv
  rw [wordClass, if_neg (by omega), hwrap, hdiv, wrap64_eq_self (by simp only [FitsWord]; omega)]
  omega

/-! ## What a pool picks -/

/-- A pool may hand out nothing, or any buffer on a shelf of the class, which is off the shelf then. -/
inductive Hands (cls : Int) : Pool α → Option (Buffer α) → Pool α → Prop where
  | nothing (p : Pool α) : Hands cls p none p
  | shelved (before after : List (Nat × Buffer α)) (shelf : Nat) (b : Buffer α) (h : shelf = cls) :
    Hands cls ⟨before ++ (shelf, b) :: after⟩ (some b) ⟨before ++ after⟩

/-- The choices of a pool are all that it may do. -/
theorem exists_pick_iff : (∃ choice, p.pick cls choice = (found, rest)) ↔ Hands cls p found rest := by
  constructor
  · rintro ⟨choice, hpick⟩
    rw [pick] at hpick
    split at hpick
    next shelf b place hchoice =>
      obtain ⟨rfl, rfl⟩ := Prod.mk.inj hpick
      obtain ⟨k, -, hk⟩ := Option.bind_eq_some_iff.1 hchoice
      obtain ⟨hmem, hshelf⟩ := List.mem_filter.1 (List.mem_of_getElem? hk)
      have hplace : p.shelved[place]? = some (shelf, b) := List.mem_zipIdx_iff_getElem?.1 hmem
      obtain ⟨hlt, hget⟩ := List.getElem?_eq_some_iff.1 hplace
      have hsplit : p.shelved = p.shelved.take place ++ (shelf, b) :: p.shelved.drop (place + 1) := by
        rw [← hget, List.getElem_cons_drop, List.take_append_drop]
      have hhands := Hands.shelved (p.shelved.take place) (p.shelved.drop (place + 1)) shelf b
        (beq_iff_eq.1 hshelf)
      rwa [← hsplit, ← List.eraseIdx_eq_take_drop_succ] at hhands
    next =>
      obtain ⟨rfl, rfl⟩ := Prod.mk.inj hpick
      exact .nothing p
  · intro hhands
    cases hhands with
    | nothing => exact ⟨none, rfl⟩
    | shelved before after shelf b h =>
      have hmem : ((shelf, b), before.length) ∈
          (before ++ (shelf, b) :: after).zipIdx.filter fun e => (e.1.1 : Int) == cls := by
        rw [List.mem_filter, List.mem_zipIdx_iff_getElem?]
        exact ⟨by simp, beq_iff_eq.2 h⟩
      obtain ⟨k, hk⟩ := List.getElem?_of_mem hmem
      refine ⟨some k, ?_⟩
      simp only [pick, Option.bind_some, hk]
      rw [List.eraseIdx_append_of_length_le (Nat.le_refl _), Nat.sub_self, List.eraseIdx_cons_zero]

theorem hands_pick (p : Pool α) (cls : Int) (choice : Option Nat) :
    Hands cls p (p.pick cls choice).1 (p.pick cls choice).2 :=
  exists_pick_iff.1 ⟨choice, rfl⟩

/-- There is no shelf for a negative class. -/
theorem pick_of_neg (hneg : cls < 0) : p.pick cls choice = (none, p) := by
  have hhands := hands_pick p cls choice
  generalize hpick : p.pick cls choice = picked at hhands
  obtain ⟨found, rest⟩ := picked
  cases hhands with
  | nothing => rfl
  | shelved before after shelf b h => omega

/-! ## What a request gives -/

theorem newCells_eq_ok (zero : α) (k : Nat) : newCells zero k = .ok (Array.replicate k zero) := by
  rw [newCells, if_neg (by omega), Int.toNat_natCast]

theorem fill_fresh (zero : α) (k : Nat) : (fresh zero k).fill zero = fresh zero k := by
  simp only [Buffer.fill, fresh, Buffer.mk.injEq, and_true]
  exact Array.ext (by simp) fun i hi hi' => by simp

/-- A request whose class is a word does not fail. -/
theorem request_eq_take (hfits : FitsWord (n + 1023)) :
    p.request zero n choice = .ok (p.take zero n.toNat choice) := by
  have hlength : max n 0 = n.toNat := by omega
  have hclass : wordClass n.toNat = sizeClass n.toNat := by
    rw [wordClass_eq (Int.natCast_nonneg _) (by simp only [FitsWord] at hfits ⊢; omega),
      Int.toNat_natCast]
  have hle := le_sizeClass n.toNat
  have hfresh : Buffer.slice (Array.replicate (sizeClass n.toNat) zero) n.toNat =
      .ok (fresh zero n.toNat) := Buffer.slice_eq_ok (by simpa using hle)
  simp only [request, take, hlength, hclass, newCells_eq_ok]
  rcases p.pick (sizeClass n.toNat) choice with ⟨_ | b, rest⟩
  · simp only [bind, Except.bind, hfresh, fill_fresh]
  · by_cases hsmall : b.cells.size < sizeClass n.toNat
    · have hdropped : ¬sizeClass n.toNat ≤ b.cells.size := by omega
      simp only [Int.ofNat_lt, if_pos hsmall, bind, Except.bind, hfresh, fill_fresh, reuse,
        dif_neg hdropped]
    · have hlarge : sizeClass n.toNat ≤ b.cells.size := by omega
      simp only [Int.ofNat_lt, if_neg hsmall, bind, Except.bind,
        Buffer.slice_eq_ok (Nat.le_trans hle hlarge), reuse, dif_pos hlarge]

/-- A request that rounds beyond a word fails, with any pool. -/
theorem request_eq_error (hn : FitsWord n) (hfits : ¬FitsWord (n + 1023)) :
    p.request zero n choice = .error (.impossibleCapacity (wordClass n)) := by
  have hneg := wordClass_neg hn hfits
  have hpos : max n 0 = n := by
    simp only [FitsWord] at hn hfits
    omega
  simp only [request, hpos, pick_of_neg hneg, newCells, if_pos hneg]
  rfl

/-- What is taken is clean, whatever is on the shelves. -/
theorem content_take (p : Pool α) (zero : α) (k : Nat) (choice : Option Nat) :
    (p.take zero k choice).1.content = Array.replicate k zero := by
  have hfresh : (fresh zero k).content = Array.replicate k zero := by
    rw [← fill_fresh, Buffer.content_fill]
    rfl
  rw [take]
  split
  next b rest _ =>
    simp only [reuse]
    split
    · rw [Buffer.content_fill]
    · exact hfresh
  next => exact hfresh

/-! ## Shelves -/

/-- Every buffer is on the shelf of its own class. -/
def Filed (p : Pool α) : Prop := ∀ e ∈ p.shelved, e.1 = sizeClass e.2.capacity

theorem filed_empty : Filed ({} : Pool α) := fun _ he => absurd he List.not_mem_nil

theorem Filed.give (h : p.Filed) (b : Option (Buffer α)) : (p.give b).Filed := by
  cases b with
  | none => exact h
  | some b =>
    intro e he
    rcases List.mem_cons.1 he with rfl | he
    · rfl
    · exact h e he

theorem Filed.hands (h : p.Filed) (hhands : Hands cls p found rest) :
    rest.Filed ∧ ∀ b, found = some b → sizeClass b.capacity = cls := by
  cases hhands with
  | nothing => exact ⟨h, fun _ hb => nomatch hb⟩
  | shelved before after shelf b hshelf =>
    refine ⟨fun e he => h e ?_, fun b' hb => ?_⟩
    · rw [List.mem_append, List.mem_cons]
      exact (List.mem_append.1 he).imp_right .inr
    · cases hb
      rw [← hshelf, ← h (shelf, b) (List.mem_append_right _ List.mem_cons_self)]

/-- What is taken has exactly the size of its class. -/
theorem Filed.take (h : p.Filed) (zero : α) (k : Nat) (choice : Option Nat) :
    (p.take zero k choice).1.capacity = sizeClass k ∧ (p.take zero k choice).2.Filed := by
  have hfresh : (fresh zero k).capacity = sizeClass k := Array.size_replicate
  obtain ⟨hrest, hfound⟩ := h.hands (hands_pick p (sizeClass k) choice)
  rw [Pool.take]
  split
  next b rest hpick =>
    rw [hpick] at hrest hfound
    refine ⟨?_, hrest⟩
    simp only [reuse]
    split
    next hle =>
      have hclass := hfound b rfl
      have hcapacity := le_sizeClass b.capacity
      rw [Buffer.capacity_fill]
      simp only [Buffer.capacity] at hclass hcapacity ⊢
      omega
    next => exact hfresh
  next rest hpick =>
    rw [hpick] at hrest
    exact ⟨hfresh, hrest⟩

/-! ## Any number of calls -/

/-- A call to a pool: a request with what the pool chooses, or a buffer that is given back. -/
inductive Call (α : Type) where
  | take (n : Int) (choice : Option Nat)
  | give (b : Option (Buffer α))

/-- The class of a request is a word. -/
def Call.Fits : Call α → Prop
  | .take n _ => FitsWord (n + 1023)
  | .give _ => True

/-- The pool after a call. -/
def call (zero : α) (p : Pool α) : Call α → Except Misuse (Pool α)
  | .take n choice => Prod.snd <$> p.request zero n choice
  | .give b => .ok (p.give b)

/-- The pool after some calls, which was empty before. -/
def after (zero : α) (calls : List (Call α)) : Except Misuse (Pool α) := calls.foldlM (call zero) {}

theorem Filed.call (h : p.Filed) (zero : α) {c : Call α} (hc : c.Fits) :
    ∃ p', p.call zero c = .ok p' ∧ p'.Filed := by
  cases c with
  | take n choice =>
    refine ⟨_, ?_, (h.take zero n.toNat choice).2⟩
    rw [Pool.call, request_eq_take hc]
    rfl
  | give b => exact ⟨_, rfl, h.give b⟩

/-- No call fails. -/
theorem exists_after (zero : α) {calls : List (Call α)} (hcalls : ∀ c ∈ calls, c.Fits) :
    ∃ p, after zero calls = .ok p ∧ p.Filed := by
  have hrun : ∀ p : Pool α, p.Filed → ∃ p', calls.foldlM (call zero) p = .ok p' ∧ p'.Filed := by
    induction calls with
    | nil => exact fun p h => ⟨p, rfl, h⟩
    | cons c calls ih =>
      intro p h
      obtain ⟨next, hcall, hnext⟩ := h.call zero (hcalls c List.mem_cons_self)
      obtain ⟨p', hall, hp'⟩ := ih (fun c hc => hcalls c (List.mem_cons_of_mem _ hc)) next hnext
      refine ⟨p', ?_, hp'⟩
      rw [List.foldlM_cons, hcall]
      exact hall
  exact hrun {} filed_empty

end Pool

namespace Blob

variable {keep : Int → Int} {pool : Pool Int} {choice : Option Nat} {p : Picture} {cfg : Config}

/-! ## Blobs -/

/-- What is found depends on the pool only through the clean labels that it is asked for. -/
theorem findKeeping_eq (hcheck : check p cfg = .ok ())
    (hfits : FitsWord (wrap64 (p.width * p.height) + 1023)) :
    Prod.fst <$> findKeeping keep pool choice p cfg =
      let n := (wrap64 (p.width * p.height)).toNat
      if (n : Int) < p.width * p.height then .error (.outsideBuffer n)
      else .ok (findLabelled p cfg (.into keep p cfg.holes (Array.replicate n 0))) := by
  have hcontent := Pool.content_take pool 0 (wrap64 (p.width * p.height)).toNat choice
  simp only [findKeeping, hcheck, Pool.request_eq_take hfits]
  generalize pool.take 0 (wrap64 (p.width * p.height)).toNat choice = taken at hcontent
  obtain ⟨b, rest⟩ := taken
  have hlength : b.length = (wrap64 (p.width * p.height)).toNat := by
    rw [← b.size_content, hcontent, Array.size_replicate]
  simp only [bind, Except.bind, hlength, hcontent]
  split <;> rfl

/-- Blobs are found alike with any two pools. -/
theorem findKeeping_congr (keep : Int → Int) (pool pool' : Pool Int) (choice choice' : Option Nat)
    (p : Picture) (cfg : Config) :
    Prod.fst <$> findKeeping keep pool choice p cfg =
      Prod.fst <$> findKeeping keep pool' choice' p cfg := by
  cases hcheck : check p cfg with
  | error f => simp only [findKeeping, hcheck, Except.map_ok]
  | ok _ =>
    by_cases hfits : FitsWord (wrap64 (p.width * p.height) + 1023)
    · rw [findKeeping_eq hcheck hfits, findKeeping_eq hcheck hfits]
    · simp only [findKeeping, hcheck, Pool.request_eq_error (fitsWord_wrap64 _) hfits]

theorem pos_of_check (hcheck : check p cfg = .ok ()) : 0 < p.width ∧ 0 < p.height := by
  rw [check] at hcheck
  split at hcheck
  · cases hcheck
  · omega

/-- Pixels that can be counted have room for their labels. -/
theorem findKeeping_eq_ok (hcheck : check p cfg = .ok ()) (hfits : FitsWord (p.width * p.height + 1023)) :
    Prod.fst <$> findKeeping keep pool choice p cfg = .ok (findLabelled p cfg
      (.into keep p cfg.holes (Array.replicate (p.width.toNat * p.height.toNat) 0))) := by
  obtain ⟨hw, hh⟩ := pos_of_check hcheck
  have hsize : 0 ≤ p.width * p.height := Int.mul_nonneg hw.le hh.le
  have hwrap : wrap64 (p.width * p.height) = p.width * p.height :=
    wrap64_eq_self (by simp only [FitsWord] at hfits ⊢; omega)
  have hroom : ¬((p.width * p.height).toNat : Int) < p.width * p.height := by omega
  rw [findKeeping_eq hcheck (by rwa [hwrap]), hwrap, ← Int.toNat_mul hw.le hh.le]
  exact if_neg hroom

/-- A valid request fails exactly when the pixels cannot be counted: its buffer is too small then, or
there is none. -/
theorem findKeeping_fails_iff (hcheck : check p cfg = .ok ()) :
    (∃ m, Prod.fst <$> findKeeping keep pool choice p cfg = .error m) ↔
      ¬FitsWord (p.width * p.height + 1023) := by
  by_cases hfits : FitsWord (p.width * p.height + 1023)
  · rw [findKeeping_eq_ok hcheck hfits]
    exact iff_of_false (fun ⟨_, hm⟩ => nomatch hm) (not_not.2 hfits)
  · refine iff_of_true ?_ hfits
    have hword := fitsWord_wrap64 (p.width * p.height)
    by_cases hround : FitsWord (wrap64 (p.width * p.height) + 1023)
    · -- The number of pixels is no word, so it is more than any word.
      have hcount : ¬FitsWord (p.width * p.height) := fun hcount => by
        rw [wrap64_eq_self hcount] at hround
        exact hfits hround
      obtain ⟨hw, hh⟩ := pos_of_check hcheck
      have hsize : 0 ≤ p.width * p.height := Int.mul_nonneg hw.le hh.le
      have hsmall : ((wrap64 (p.width * p.height)).toNat : Int) < p.width * p.height := by
        simp only [FitsWord] at hcount hword
        omega
      rw [findKeeping_eq hcheck hround]
      exact ⟨_, if_pos hsmall⟩
    · simp only [findKeeping, hcheck, Pool.request_eq_error hword hround]
      exact ⟨_, rfl⟩

/-- As long as the pixels can be counted and the labels are kept, blobs are found as without a pool. -/
theorem findKeeping_eq_find
    (hkeep : ∀ ink i, i < (p.firsts ink).length → keep (Labeling.code ink i) = Labeling.code ink i)
    (hfits : FitsWord (p.width * p.height + 1023)) :
    Prod.fst <$> findKeeping keep pool choice p cfg = .ok (find p cfg) := by
  cases hcheck : check p cfg with
  | error f =>
    simp only [findKeeping, find, hcheck, liftFault]
    rfl
  | ok _ =>
    rw [findKeeping_eq_ok hcheck hfits, Labeling.into_eq_of cfg.holes hkeep, find, hcheck]
    rfl

theorem findPooled_eq_find (hfits : FitsWord (p.width * p.height + 1023)) :
    Prod.fst <$> findPooled pool choice p cfg = .ok (find p cfg) :=
  findKeeping_eq_find (fun _ _ _ => rfl) hfits

/-- Labels in words make no difference as long as there are few regions. -/
theorem findInWords_eq_find (hfits : FitsWord (p.width * p.height + 1023)) (hfew : p.FewRegions) :
    Prod.fst <$> findInWords pool choice p cfg = .ok (find p cfg) :=
  findKeeping_eq_find (fun _ _ hi => Labeling.wrap32_code hfew hi) hfits

/-- A pool hands out clean buffers after any calls, with any choices: requests that round within a word
do not fail, and each gives as many zeros as were asked for in a buffer of exactly their class,
whatever the buffers held that were given back. So the blobs of a picture are the same after any calls,
and, as long as the pixels can be counted, they are those found without a pool. -/
theorem find_ignores_pool :
    (∀ {α : Type} (zero : α) (calls : List (Pool.Call α)), (∀ c ∈ calls, c.Fits) →
      ∃ pool, Pool.after zero calls = .ok pool ∧ ∀ n choice, FitsWord (n + 1023) →
        ∃ b rest, pool.request zero n choice = .ok (b, rest) ∧
          b.content = Array.replicate n.toNat zero ∧ b.capacity = sizeClass n.toNat) ∧
    ∀ p cfg, ∃ answer, (FitsWord (p.width * p.height + 1023) → answer = .ok (find p cfg)) ∧
      ∀ calls pool, Pool.after 0 calls = .ok pool → ∀ choice,
        Prod.fst <$> findPooled pool choice p cfg = answer := by
  refine ⟨fun zero calls hcalls => ?_, fun p cfg => ?_⟩
  · obtain ⟨pool, hafter, hfiled⟩ := Pool.exists_after zero hcalls
    refine ⟨pool, hafter, fun n choice hfits => ?_⟩
    exact ⟨_, _, Pool.request_eq_take hfits, pool.content_take zero _ choice,
      (hfiled.take zero _ choice).1⟩
  · exact ⟨Prod.fst <$> findPooled {} none p cfg, findPooled_eq_find,
      fun _ pool _ choice => findKeeping_congr id pool {} choice none p cfg⟩

/-- After buffers with other values were given back, one of them too short for its class. -/
theorem find_ignores_pool_dirty :
    let dirty : Buffer Int := ⟨Array.replicate 1024 7, 3, by simp⟩
    let short : Buffer Int := ⟨Array.replicate 1500 9, 1500, by simp⟩
    let calls :=
      [.give (some dirty), .give none, .give (some short), .take 2000 (some 0), .take (-5) none]
    let p : Picture := ⟨3, 3, fun x y => decide (x ≠ 1 ∨ y ≠ 1)⟩
    (∀ c ∈ calls, c.Fits) ∧ FitsWord (1000 + 1023) ∧ FitsWord (p.width * p.height + 1023) ∧
      ∃ pool, Pool.after 0 calls = .ok pool ∧
        (∃ b rest, pool.request 0 1000 (some 0) = .ok (b, rest) ∧
          b.content = Array.replicate 1000 0 ∧ b.capacity = 1024) ∧
        ∀ choice, Prod.fst <$> findPooled pool choice p {} = .ok (find p {}) := by
  intro dirty short calls p
  have hcalls : ∀ c ∈ calls, c.Fits := by simp [calls, Pool.Call.Fits, FitsWord]
  obtain ⟨hclean, hfind⟩ := find_ignores_pool
  obtain ⟨pool, hafter, hrequest⟩ := hclean 0 calls hcalls
  obtain ⟨answer, hanswer, hsame⟩ := hfind p {}
  refine ⟨hcalls, by decide, by decide, pool, hafter, hrequest 1000 (some 0) (by decide),
    fun choice => ?_⟩
  exact (hsame calls pool hafter choice).trans (hanswer (by decide))

end Blob

end Perimeter
