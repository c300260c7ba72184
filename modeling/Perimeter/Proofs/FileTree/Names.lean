import Mathlib.Data.String.Basic
import Mathlib.Data.List.TakeWhile
import Perimeter.FileTree.Path

/-!
# Paths and their names

A path is a list of names between slashes. A file in a folder is reached by a path that leads along the
names of the folder to the name of the file, and of the files in one folder only this last name differs.
-/

namespace Perimeter.Path

open String (ofList utf8Len)

/-- Splitting at slashes, with `l` behind the last name, `m` of the next name read and `r` to come. -/
theorem splitOnAux_slash (l m r : List Char) (acc : List String) :
    String.splitOnAux (ofList (l ++ m ++ r)) "/" ⟨utf8Len l⟩ ⟨utf8Len l + utf8Len m⟩ 0 acc =
      acc.reverse ++ (List.splitOnPPrepend (· == '/') r m.reverse).map ofList := by
  induction r generalizing l m acc with
  | nil =>
    have hatEnd := (String.atEnd_of_valid (l ++ m) []).2 rfl
    rw [String.utf8Len_append] at hatEnd
    unfold String.splitOnAux
    rw [if_pos hatEnd, String.extract_of_valid l m []]
    simp
  | cons c r ih =>
    have hatEnd := (String.atEnd_of_valid (l ++ m) (c :: r)).not.2 (List.cons_ne_nil c r)
    have hget := String.get_of_valid (l ++ m) (c :: r)
    have hnext := String.next_of_valid (l ++ m) c r
    rw [String.utf8Len_append] at hatEnd hget hnext
    have hslash : String.Pos.Raw.get "/" 0 = '/' := by decide
    unfold String.splitOnAux
    rw [if_neg hatEnd, hget, hslash, List.headD_cons]
    by_cases hc : c = '/'
    · -- The name ends here, and the next one begins behind the slash.
      subst hc
      have hsize : Char.utf8Size '/' = 1 := by decide
      have hstep : String.Pos.Raw.next "/" 0 = ⟨1⟩ := by decide
      have hend : String.Pos.Raw.atEnd "/" ⟨1⟩ = true := by decide
      have hback : (⟨utf8Len l + utf8Len m + 1⟩ : String.Pos.Raw).unoffsetBy ⟨1⟩ =
          ⟨utf8Len l + utf8Len m⟩ := rfl
      have hrest := ih (l ++ m ++ ['/']) [] (ofList m :: acc)
      rw [if_pos (beq_self_eq_true _), List.splitOnPPrepend_cons_pos (by decide)]
      simp only [hnext, hstep, hend, hsize, hback, if_true, String.extract_of_valid l m]
      simpa [hsize, ← Nat.add_assoc] using hrest
    · have hbeq : ¬(c == '/') = true := by rwa [beq_iff_eq]
      have hback : (⟨utf8Len l + utf8Len m⟩ : String.Pos.Raw).unoffsetBy 0 =
          ⟨utf8Len l + utf8Len m⟩ := rfl
      have hrest := ih l (m ++ [c]) acc
      rw [if_neg hbeq, hback, hnext, List.splitOnPPrepend_cons_neg (Bool.not_eq_true _ ▸ hbeq)]
      simpa [Nat.add_assoc] using hrest

/-- The names of a path as lists of characters. -/
theorem names_eq (p : String) : names p = (p.toList.splitOn '/').map ofList := by
  have haux := splitOnAux_slash [] [] p.toList []
  rw [names, String.splitOn, if_neg (by decide)]
  simpa [List.splitOn_eq_splitOnP] using haux

/-- Without slashes a path is one name. -/
theorem names_of_not_mem {n : String} (h : '/' ∉ n.toList) : names n = [n] := by
  rw [names_eq, List.splitOn_eq_singleton h]
  simp

theorem names_append_slash (p q : String) : names (p ++ "/" ++ q) = names p ++ names q := by
  have hchars : (p ++ "/" ++ q).toList = p.toList ++ '/' :: q.toList := by simp
  rw [names_eq, names_eq, names_eq, hchars, List.splitOn_append_cons_self, List.map_append]

theorem not_mem_of_mem_splitOn {α : Type} [BEq α] [LawfulBEq α] {a : α} (xs : List α) :
    ∀ m ∈ xs.splitOn a, a ∉ m := by
  induction xs with
  | nil => simp
  | cons x xs ih =>
    rw [List.splitOn_cons_eq_if_modifyHead]
    obtain ⟨m, rest, hsplit⟩ := List.exists_cons_of_ne_nil (List.splitOn_ne_nil a xs)
    rw [hsplit] at ih ⊢
    by_cases hx : x = a
    · simpa [hx] using ih
    · have hbeq : ¬(x == a) = true := by rwa [beq_iff_eq]
      rw [if_neg hbeq, List.modifyHead_cons]
      simpa [Ne.symm hx] using ih

/-- Names have no slashes. -/
theorem not_mem_of_mem_names {p n : String} (h : n ∈ names p) : '/' ∉ n.toList := by
  rw [names_eq, List.mem_map] at h
  obtain ⟨l, hl, rfl⟩ := h
  rw [String.toList_ofList]
  exact not_mem_of_mem_splitOn _ l hl

/-- Names that are joined by slashes are read back. -/
theorem names_intercalate {l : List String} (hne : l ≠ []) (h : ∀ n ∈ l, '/' ∉ n.toList) :
    names ("/".intercalate l) = l := by
  have hnames : ∀ m ∈ l.map String.toList, '/' ∉ m := by simpa using h
  have hslash : "/".toList = ['/'] := rfl
  rw [names_eq, String.toList_intercalate, hslash,
    List.splitOn_intercalate _ hnames (by simpa using hne)]
  simp

/-- A path is its names joined by slashes. -/
theorem intercalate_names (p : String) : "/".intercalate (names p) = p := by
  have hslash : "/".toList = ['/'] := rfl
  rw [← String.toList_inj, String.toList_intercalate, names_eq, hslash, List.map_map]
  simp [Function.comp_def, List.intercalate_splitOn]

/-- A path whose first name is not empty does not start at the root. -/
theorem isRooted_eq_false {p n : String} {rest : List String} (h : names p = n :: rest) (hn : n ≠ "") :
    isRooted p = false := by
  rw [isRooted, beq_eq_false_iff_ne]
  intro hhead
  obtain ⟨l, hl⟩ := List.head?_eq_some_iff.1 hhead
  rw [names_eq, hl, List.splitOn_cons_eq_if_modifyHead, if_pos (by decide), List.map_cons] at h
  exact hn (List.cons.inj h).1.symm

/-! ## The last name -/

theorem not_mem_afterSlash (p : String) : '/' ∉ (afterSlash p).toList := by
  rw [afterSlash, String.toList_ofList, List.mem_reverse]
  intro hmem
  exact absurd (List.mem_takeWhile_imp hmem) (by decide)

/-- The text behind the last slash is the last name. -/
theorem afterSlash_eq {p n : String} {way : List String} (h : names p = way ++ [n]) :
    afterSlash p = n := by
  have hmem : '/' ∉ n.toList := not_mem_of_mem_names (h ▸ List.mem_append_right _ List.mem_cons_self)
  have hname : ∀ c ∈ n.toList.reverse, (c != '/') = true := by
    intro c hc
    rw [bne_iff_ne]
    rintro rfl
    exact hmem (List.mem_reverse.1 hc)
  have hp := intercalate_names p
  rw [h] at hp
  cases way with
  | nil =>
    rw [← hp, List.nil_append, String.intercalate_singleton, afterSlash,
      List.takeWhile_eq_self_iff.2 hname]
    simp
  | cons m rest =>
    rw [String.intercalate_append_of_ne_nil (by simp) (by simp), String.intercalate_singleton] at hp
    rw [← hp, afterSlash, String.toList_append, List.reverse_append, List.takeWhile_append_of_pos hname]
    simp

theorem dropSlashes_eq {p : String} (h : afterSlash p ≠ "") : dropSlashes p = p := by
  cases hp : p.toList.reverse with
  | nil => exact absurd (by rw [afterSlash, hp]; rfl) h
  | cons c l =>
    have hc : ¬(c == '/') = true := by
      rw [beq_iff_eq]
      rintro rfl
      exact h (by rw [afterSlash, hp]; rfl)
    rw [dropSlashes, hp, List.dropWhile_cons_of_neg (p := (· == '/')) hc, ← hp, List.reverse_reverse,
      String.ofList_toList]

theorem base_eq {p : String} (h : afterSlash p ≠ "") : base p = afterSlash p := by
  have hne : ¬p.isEmpty = true := by
    intro hempty
    rw [String.isEmpty_iff] at hempty
    subst hempty
    exact h rfl
  rw [base, if_neg hne, dropSlashes_eq h]
  simp [h]

/-- Only a name has an ending. -/
theorem afterSlash_ne_empty {p : String} (h : extension p ≠ "") : afterSlash p ≠ "" := by
  intro hempty
  rw [extension, hempty] at h
  exact h rfl

theorem mem_of_mem_dropEnding {s ending : String} {c : Char} (h : c ∈ (dropEnding s ending).toList) :
    c ∈ s.toList := by
  rw [dropEnding] at h
  split at h
  · rw [String.toList_ofList] at h
    exact List.mem_of_mem_take h
  · exact h

/-- The text is the name of a file or folder, and of no other place. -/
structure Proper (n : String) : Prop where
  ne_empty : n ≠ ""
  ne_here : n ≠ "."
  ne_back : n ≠ ".."
  not_mem : '/' ∉ n.toList

/-- The path leads along some names to a proper one, from the root or from where one is. -/
structure Leads (p : String) (rooted : Bool) (way : List String) (n : String) : Prop where
  isRooted_eq : isRooted p = rooted
  names_eq : names p = way ++ [n]
  proper : Proper n

/-- What is known of every path whose last name is a proper one. -/
theorem leads_of_proper {p : String} (h : Proper (afterSlash p)) :
    Leads p (isRooted p) (names p).dropLast (afterSlash p) := by
  refine ⟨rfl, ?_, h⟩
  have hne : names p ≠ [] := by
    rw [Path.names_eq]
    simp
  have hlast := (List.dropLast_concat_getLast hne).symm
  rwa [← afterSlash_eq hlast] at hlast

theorem Leads.ne_empty {p n : String} {rooted : Bool} {way : List String} (h : Leads p rooted way n) :
    p ≠ "" := by
  rintro rfl
  exact h.proper.ne_empty (afterSlash_eq h.names_eq).symm

/-! ## Files in a folder -/

/-- The names that stay of a path when it is made short. -/
def steps (folder : String) : List String := ((names folder).foldl (push (isRooted folder)) []).reverse

theorem mem_push {rooted : Bool} {acc : List String} {name m : String} (h : m ∈ push rooted acc name) :
    m ∈ acc ∨ m = ".." ∨ m = name ∧ name ≠ "" := by
  unfold push at h
  split at h
  · exact .inl h
  · rename_i hskip
    split at h
    · split at h
      · split at h
        · exact absurd h List.not_mem_nil
        · exact .inr (.inl (List.mem_singleton.1 h))
      · split at h
        · exact (List.mem_cons.1 h).symm.imp id .inl
        · exact .inl (List.mem_cons_of_mem _ h)
    · rcases List.mem_cons.1 h with rfl | hm
      · exact .inr (.inr ⟨rfl, fun hempty => hskip (by simp [hempty])⟩)
      · exact .inl hm

theorem mem_foldl_push {rooted : Bool} {l acc : List String} {m : String}
    (h : m ∈ l.foldl (push rooted) acc) : m ∈ acc ∨ m = ".." ∨ m ∈ l ∧ m ≠ "" := by
  induction l generalizing acc with
  | nil => exact .inl h
  | cons name l ih =>
    rcases ih h with hm | hm | ⟨hm, hne⟩
    · rcases mem_push hm with hm | hm | ⟨rfl, hne⟩
      · exact .inl hm
      · exact .inr (.inl hm)
      · exact .inr (.inr ⟨List.mem_cons_self, hne⟩)
    · exact .inr (.inl hm)
    · exact .inr (.inr ⟨List.mem_cons_of_mem _ hm, hne⟩)

/-- The names that stay are not empty and have no slashes. -/
theorem of_mem_steps {folder m : String} (h : m ∈ steps folder) : m ≠ "" ∧ '/' ∉ m.toList := by
  rw [steps, List.mem_reverse] at h
  rcases mem_foldl_push h with hm | rfl | ⟨hm, hne⟩
  · exact absurd hm List.not_mem_nil
  · exact ⟨by decide, by decide⟩
  · exact ⟨hne, not_mem_of_mem_names hm⟩

theorem Proper.push_eq {n : String} (hn : Proper n) (rooted : Bool) (acc : List String) :
    push rooted acc n = n :: acc := by
  unfold push
  rw [if_neg (by simp [hn.ne_empty, hn.ne_here]), if_neg (by simp [hn.ne_back])]

theorem isRooted_append {p : String} (h : p ≠ "") (q : String) : isRooted (p ++ q) = isRooted p := by
  obtain ⟨c, l, hp⟩ := List.exists_cons_of_ne_nil (fun hnil => h (String.toList_eq_nil_iff.1 hnil))
  rw [isRooted, isRooted, String.toList_append, hp]
  rfl

section

variable {n : String} (folder : String) (hn : Proper n)
include hn

theorem names_steps : names ("/".intercalate (steps folder ++ [n])) = steps folder ++ [n] := by
  refine names_intercalate (by simp) fun m hm => ?_
  rcases List.mem_append.1 hm with hm | hm
  · exact (of_mem_steps hm).2
  · obtain rfl := List.mem_singleton.1 hm
    exact hn.not_mem

theorem isRooted_steps : isRooted ("/".intercalate (steps folder ++ [n])) = false := by
  have hnames := names_steps folder hn
  cases hsteps : steps folder with
  | nil =>
    rw [hsteps] at hnames
    exact isRooted_eq_false hnames hn.ne_empty
  | cons m rest =>
    rw [hsteps] at hnames
    exact isRooted_eq_false hnames (of_mem_steps (hsteps ▸ List.mem_cons_self)).1

variable {folder}

/-- The path of a file in a folder. -/
theorem join_eq (hf : folder ≠ "") :
    join [folder, n] =
      (if isRooted folder then "/" else "") ++ "/".intercalate (steps folder ++ [n]) := by
  have hparts : [folder, n].filter (!·.isEmpty) = [folder, n] := by
    simp [hf, hn.ne_empty]
  have htext : "/".intercalate [folder, n] = folder ++ "/" ++ n := by simp
  have hsteps : ((names folder ++ names n).foldl (push (isRooted folder)) []).reverse =
      steps folder ++ [n] := by
    rw [names_of_not_mem hn.not_mem, List.foldl_append, List.foldl_cons, List.foldl_nil, hn.push_eq,
      List.reverse_cons, steps]
  -- A folder that has a name decides where the whole path starts.
  have hrooted : isRooted (folder ++ "/" ++ n) = isRooted folder := by
    rw [String.append_assoc, isRooted_append hf]
  have hne : "/".intercalate (steps folder ++ [n]) ≠ "" := by
    intro hempty
    have hlast := afterSlash_eq (names_steps folder hn)
    rw [hempty] at hlast
    exact hn.ne_empty hlast.symm
  rw [join, hparts, if_neg (by simp), htext, clean, names_append_slash, hrooted, hsteps]
  cases isRooted folder with
  | true => rfl
  | false => simp [hne]

/-- The path of a file in a folder leads along the names of the folder, whatever the name of the file. -/
theorem leads_join (hf : folder ≠ "") :
    Leads (join [folder, n]) (isRooted folder)
      ((if isRooted folder then [""] else []) ++ steps folder) n := by
  have hnames := names_steps folder hn
  rw [join_eq hn hf]
  cases hrooted : isRooted folder with
  | true =>
    -- From the root the names of a path begin with an empty one, before the first slash.
    have hroot := names_append_slash "" ("/".intercalate (steps folder ++ [n]))
    rw [names_of_not_mem (n := "") (by simp), hnames, String.empty_append] at hroot
    refine ⟨?_, hroot, hn⟩
    rw [if_pos rfl, isRooted_append (by decide)]
    decide
  | false =>
    simp only [Bool.false_eq_true, if_false, String.empty_append, List.nil_append]
    exact ⟨isRooted_steps folder hn, hnames, hn⟩

end

end Perimeter.Path
