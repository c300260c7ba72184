import Mathlib.Data.List.Basic
import Perimeter.FileTree.Basic
import Perimeter.Proofs.FileTree.Names

/-!
# Writing files

What a write changes of a tree: the file at the end of its path, and nothing else. Folders stay where
they are, so paths lead where they led before.
-/

namespace Perimeter.FileTree

variable {t t' : FileTree} {place q : List String} {e x : Entry}

/-! ## Entries -/

theorem lookup_map_put (l : List (List String × Entry)) (place q : List String) (e : Entry) :
    (l.map fun (p, old) => if p == place then (p, e) else (p, old)).lookup q =
      if q = place then (l.lookup q).map fun _ => e else l.lookup q := by
  induction l with
  | nil => simp
  | cons z l ih =>
    obtain ⟨p, old⟩ := z
    rw [List.map_cons]
    by_cases hq : q = p
    · subst hq
      by_cases hplace : q = place <;> simp [hplace]
    · have hother : ∀ (x : Entry) (m : List (List String × Entry)),
          ((p, x) :: m).lookup q = m.lookup q := by
        intro x m
        rw [List.lookup_cons, beq_eq_false_iff_ne.2 hq]
      have hhead : (if p == place then (p, e) else (p, old)) = (p, if p == place then e else old) := by
        split <;> rfl
      dsimp only
      rw [hhead, hother, hother, ih]

theorem lookup_put (t : FileTree) (place q : List String) (e : Entry) :
    (t.put place e).entries.lookup q = if q = place then some e else t.entries.lookup q := by
  rw [put]
  split_ifs with hthere hq hq
  · subst hq
    obtain ⟨old, hold⟩ := Option.isSome_iff_exists.1 hthere
    rw [lookup_map_put, if_pos rfl, hold]
    rfl
  · rw [lookup_map_put, if_neg hq]
  · subst hq
    rw [List.lookup_append, Option.not_isSome_iff_eq_none.1 hthere]
    simp
  · rw [List.lookup_append]
    simp [List.lookup_cons, beq_eq_false_iff_ne.2 hq]

theorem entry_put (t : FileTree) (r : List String) (n : String) (e : Entry) (q : List String) :
    entry? (t.put (r ++ [n]) e) q = if q = r ++ [n] then some e else t.entry? q := by
  unfold entry?
  rw [lookup_put]
  cases q with
  | nil => simp
  | cons m q => rfl

/-- The tree has grown: folders are where they were, and what was there is there, though files may have
changed. -/
structure Grows (t t' : FileTree) : Prop where
  cwd : t'.cwd = t.cwd
  folder : ∀ q, t.entry? q = some .folder → entry? t' q = some .folder
  present : ∀ q x, t.entry? q = some x → ∃ y, entry? t' q = some y

/-- A file may be put where no folder is, a folder anywhere. -/
theorem grows_put {r : List String} {n : String} (h : t.entry? (r ++ [n]) = some .folder → e = .folder) :
    Grows t (t.put (r ++ [n]) e) := by
  refine ⟨?_, fun q hq => ?_, fun q x hx => ?_⟩
  · rw [put]
    split <;> rfl
  · rw [entry_put]
    split_ifs with heq
    · rw [h (heq ▸ hq)]
    · exact hq
  · rw [entry_put]
    split_ifs
    · exact ⟨e, rfl⟩
    · exact ⟨x, hx⟩

/-! ## Following names -/

/-- A name is followed from a folder only, and a proper one has to be there. -/
theorem follow_cons_eq_ok {name : String} {rest : List String} :
    t.follow place (name :: rest) = .ok q ↔ t.entry? place = some .folder ∧
      if name = "" ∨ name = "." then t.follow place rest = .ok q
      else if name = ".." then t.follow place.dropLast rest = .ok q
      else (∃ x, t.entry? (place ++ [name]) = some x) ∧ t.follow (place ++ [name]) rest = .ok q := by
  rw [follow]
  cases hentry : t.entry? place with
  | none => simp
  | some x =>
    cases x with
    | text s => simp
    | image i => simp
    | folder =>
      simp only [true_and, Bool.or_eq_true, String.isEmpty_iff, beq_iff_eq]
      split_ifs
      · rfl
      · rfl
      · cases t.entry? (place ++ [name]) <;> simp

theorem follow_append_eq_ok {l m : List String} :
    t.follow place (l ++ m) = .ok q ↔ ∃ r, t.follow place l = .ok r ∧ t.follow r m = .ok q := by
  induction l generalizing place with
  | nil => simp [follow]
  | cons name l ih =>
    simp only [List.cons_append, follow_cons_eq_ok, ih]
    split_ifs <;> simp [and_assoc]

theorem Grows.follow_eq_ok (h : Grows t t') {l : List String} (hq : t.follow place l = .ok q) :
    t'.follow place l = .ok q := by
  induction l generalizing place with
  | nil => exact hq
  | cons name l ih =>
    rw [follow_cons_eq_ok] at hq ⊢
    refine ⟨h.folder _ hq.1, ?_⟩
    have hrest := hq.2
    split_ifs at hrest ⊢
    · exact ih hrest
    · exact ih hrest
    · obtain ⟨⟨x, hx⟩, hrest⟩ := hrest
      exact ⟨h.present _ x hx, ih hrest⟩

/-- The names lead to a folder, from the root or from the folder where relative paths start. -/
structure Reaches (t : FileTree) (rooted : Bool) (way : List String) (place : List String) : Prop where
  follow : t.follow (if rooted then [] else t.cwd) way = .ok place
  folder : t.entry? place = some .folder

variable {rooted : Bool} {way : List String} {p p' n n' : String}

theorem Reaches.unique (h : t.Reaches rooted way place) (h' : t.Reaches rooted way q) : place = q :=
  Except.ok.inj (h.follow.symm.trans h'.follow)

theorem Reaches.grow (h : t.Reaches rooted way place) (hg : Grows t t') : t'.Reaches rooted way place :=
  ⟨hg.cwd ▸ hg.follow_eq_ok h.follow, hg.folder _ h.folder⟩

theorem exists_locate_of_find (h : t.find p = .ok x) :
    ∃ q, t.locate p = .ok q ∧ t.entry? q = some x := by
  rw [find] at h
  cases hplace : t.locate p with
  | error e =>
    rw [hplace] at h
    cases h
  | ok q =>
    rw [hplace] at h
    simp only [bind, Except.bind] at h
    split at h
    · rename_i hx
      exact ⟨q, rfl, hx.trans (congrArg some (Except.ok.inj h))⟩
    · cases h

section

variable (hp : Path.Leads p rooted way n)
include hp

theorem locate_eq_ok :
    t.locate p = .ok q ↔
      ∃ r, t.Reaches rooted way r ∧ (∃ x, t.entry? (r ++ [n]) = some x) ∧ q = r ++ [n] := by
  have hstart : t.origin p = if rooted then [] else t.cwd := by rw [origin, hp.isRooted_eq]
  have hfollow : ∀ r, t.follow r [n] = .ok q ↔
      t.entry? r = some .folder ∧ (∃ x, t.entry? (r ++ [n]) = some x) ∧ q = r ++ [n] := by
    intro r
    have hname : ¬(n = "" ∨ n = ".") := not_or.2 ⟨hp.proper.ne_empty, hp.proper.ne_here⟩
    rw [follow_cons_eq_ok, if_neg hname, if_neg hp.proper.ne_back, follow, Except.ok.injEq,
      eq_comm (a := q)]
  rw [locate, if_neg (by simpa using hp.ne_empty), hp.names_eq, hstart, follow_append_eq_ok]
  simp only [hfollow]
  exact exists_congr fun r => ⟨fun h => ⟨⟨h.1, h.2.1⟩, h.2.2⟩, fun h => ⟨h.1.follow, h.1.folder, h.2⟩⟩

theorem find_eq_ok :
    t.find p = .ok x ↔ ∃ r, t.Reaches rooted way r ∧ t.entry? (r ++ [n]) = some x := by
  constructor
  · intro h
    obtain ⟨q, hplace, hx⟩ := exists_locate_of_find h
    obtain ⟨r, hr, -, rfl⟩ := (locate_eq_ok hp).1 hplace
    exact ⟨r, hr, hx⟩
  · rintro ⟨r, hr, hx⟩
    have hplace : t.locate p = .ok (r ++ [n]) := (locate_eq_ok hp).2 ⟨r, hr, ⟨x, hx⟩, rfl⟩
    rw [find, hplace]
    simp only [bind, Except.bind, hx]
    rfl

end

/-! ## Writing -/

/-- The place for a new file is in a folder that is there. -/
theorem exists_of_placeFor (h : t.placeFor p = .ok q) :
    ∃ r, t.Reaches (Path.isRooted p) (Path.names p).dropLast r ∧ q = r ++ [Path.afterSlash p] := by
  have hne : ¬p.isEmpty = true := by
    intro hempty
    rw [placeFor, if_pos hempty] at h
    cases h
  rw [placeFor, if_neg hne] at h
  dsimp only at h
  cases hfollow : t.follow (t.origin p) (Path.names p).dropLast with
  | error e =>
    rw [hfollow] at h
    cases h
  | ok r =>
    rw [hfollow] at h
    simp only [pure, Except.pure, bind, Except.bind] at h
    split at h
    · rename_i hfolder
      exact ⟨r, ⟨hfollow, hfolder⟩, (Except.ok.inj h).symm⟩
    · cases h
    · cases h

section

variable (hp : Path.Leads p rooted way n)
include hp

/-- A write puts a file where no folder is. -/
theorem exists_of_write (h : t.write p e = .ok t') :
    ∃ r, t.Reaches rooted way r ∧ t.entry? (r ++ [n]) ≠ some .folder ∧ t' = t.put (r ++ [n]) e := by
  have hname := Path.afterSlash_eq hp.names_eq
  rw [write, Path.dropSlashes_eq (hname ▸ hp.proper.ne_empty), hname] at h
  -- A file that is there is replaced in its place, and a new one gets a place in its folder.
  cases hfind : t.find p with
  | ok x =>
    obtain ⟨r, hr, hx⟩ := (find_eq_ok hp).1 hfind
    have hlocate : t.locate p = .ok (r ++ [n]) := (locate_eq_ok hp).2 ⟨r, hr, ⟨x, hx⟩, rfl⟩
    rw [hfind, hlocate] at h
    cases x with
    | folder => cases h
    | text s => exact ⟨r, hr, by rw [hx]; simp, (Except.ok.inj h).symm⟩
    | image i => exact ⟨r, hr, by rw [hx]; simp, (Except.ok.inj h).symm⟩
  | error trouble =>
    rw [hfind] at h
    cases hplace : t.placeFor p with
    | error trouble' =>
      rw [hplace] at h
      cases h
    | ok q =>
      obtain ⟨r, hr, rfl⟩ := exists_of_placeFor hplace
      rw [hp.isRooted_eq, hp.names_eq, List.dropLast_concat] at hr
      rw [hplace, hname] at h
      simp only [bind, Except.bind, beq_iff_eq, if_neg hp.proper.ne_empty, pure, Except.pure,
        Except.ok.injEq] at h
      refine ⟨r, hr, fun hfolder => ?_, h.symm⟩
      rw [(find_eq_ok hp).2 ⟨r, hr, hfolder⟩] at hfind
      cases hfind

/-- What was written is found. -/
theorem find_of_write (h : t.write p e = .ok t') : t'.find p = .ok e := by
  obtain ⟨r, hr, hfolder, rfl⟩ := exists_of_write hp h
  refine (find_eq_ok hp).2 ⟨r, hr.grow (grows_put fun h => absurd h hfolder), ?_⟩
  rw [entry_put, if_pos rfl]

/-- Other files in the folder are found as before. -/
theorem find_of_write_of_ne (hp' : Path.Leads p' rooted way n') (hne : n' ≠ n) (h : t.write p e = .ok t')
    (hfind : t.find p' = .ok x) : t'.find p' = .ok x := by
  obtain ⟨r, hr, hfolder, rfl⟩ := exists_of_write hp h
  obtain ⟨r', hr', hx⟩ := (find_eq_ok hp').1 hfind
  obtain rfl := hr'.unique hr
  refine (find_eq_ok hp').2 ⟨r', hr.grow (grows_put fun h => absurd h hfolder), ?_⟩
  rw [entry_put, if_neg (by simpa using hne), hx]

/-- Folders are made where nothing was, so that files are found as before. -/
theorem find_of_makeFolders {folder : String} (h : t.makeFolders folder = .ok t')
    (hfind : t.find p = .ok x) : t'.find p = .ok x := by
  rw [makeFolders] at h
  -- The induction is on the folders to make, and the tree of each step is the start of the next.
  generalize wayTo folder = l at h
  induction l generalizing t with
  | nil =>
    cases h
    exact hfind
  | cons made l ih =>
    rw [List.foldlM_cons] at h
    cases hmade : t.find made with
    | ok y =>
      simp only [hmade] at h
      cases y with
      | folder => exact ih hfind h
      | text s => cases h
      | image i => cases h
    | error trouble =>
      simp only [hmade] at h
      cases trouble with
      | notFolder => cases h
      | isFolder => cases h
      | missing =>
        cases hplace : t.placeFor made with
        | error trouble =>
          rw [hplace] at h
          cases h
        | ok q =>
          rw [hplace] at h
          refine ih ?_ h
          obtain ⟨r, hr, rfl⟩ := exists_of_placeFor hplace
          obtain ⟨r', hr', hx⟩ := (find_eq_ok hp).1 hfind
          refine (find_eq_ok hp).2 ⟨r', hr'.grow (grows_put fun _ => rfl), ?_⟩
          rw [entry_put, if_neg, hx]
          -- A folder in the place of the file would have been found.
          intro hsame
          obtain ⟨rfl, hlast⟩ := List.append_inj' hsame rfl
          obtain rfl := List.singleton_inj.1 hlast
          rw [(find_eq_ok (Path.leads_of_proper hp.proper)).2 ⟨r', hr, hx⟩] at hmade
          cases hmade

end

end Perimeter.FileTree
