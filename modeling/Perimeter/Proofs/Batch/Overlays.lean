import Perimeter.Proofs.Batch.Run
import Perimeter.Proofs.FileTree.Write

/-!
# The overlays of a batch

An overlay is named after its file without folder and ending. Files that agree in this have one overlay
between them, that of the last one; the overlay of every other file is there in the end, or the batch has
told that it could not be written.
-/

namespace Perimeter

/-! ## Saving images -/

namespace Image

variable {t t' : FileTree} {i : Image} {p p' n n' : String} {rooted : Bool} {way : List String}
  {x : FileTree.Entry}

/-- An image is saved by making folders and a write. -/
theorem exists_of_save (h : save t i p = .ok t') :
    ∃ t₁, t.makeFolders (Path.parent p) = .ok t₁ ∧ t₁.write p (.image i) = .ok t' := by
  rw [save] at h
  cases hmade : t.makeFolders (Path.parent p) with
  | error e =>
    rw [hmade] at h
    cases h
  | ok t₁ =>
    simp only [hmade] at h
    split at h
    · cases h
    · refine ⟨t₁, rfl, ?_⟩
      split at h
      · rename_i hwrite
        rw [hwrite, Except.ok.inj h]
      · cases h

theorem find_of_save (hp : Path.Leads p rooted way n) (h : save t i p = .ok t') :
    t'.find p = .ok (.image i) := by
  obtain ⟨t₁, -, hwrite⟩ := exists_of_save h
  exact FileTree.find_of_write hp hwrite

theorem find_of_save_of_ne (hp : Path.Leads p rooted way n) (hp' : Path.Leads p' rooted way n')
    (hne : n' ≠ n) (h : save t i p = .ok t') (hfind : t.find p' = .ok x) : t'.find p' = .ok x := by
  obtain ⟨t₁, hmade, hwrite⟩ := exists_of_save h
  exact FileTree.find_of_write_of_ne hp hp' hne hwrite (FileTree.find_of_makeFolders hp' hmade hfind)

end Image

namespace Batch

variable {o : Options} {t t' : FileTree} {folder file f g : String} {l : Loaded} {r : Blob.Result}
  {e : Failure} {x : FileTree.Entry}

/-! ## Names of overlays -/

/-- The name of a file without its ending. -/
def stem (file : String) : String := Path.dropEnding (Path.base file) (Path.extension (Path.base file))

theorem isSupported_of_load {opts : BinarizeOptions} (h : load t opts file = .ok l) :
    Image.isSupported file = true := by
  by_contra hnot
  rw [load, Image.load] at h
  split_ifs at h with hempty hsupported
  · cases h
  · cases h
  · exact hsupported (by simpa using hnot)

/-- The path of an overlay, by the name of its file. -/
theorem overlayPath_eq (folder file : String) :
    overlayPath folder file = Path.join [folder, stem file ++ "_overlay.png"] := rfl

/-- A file that can be loaded has an ending, and so a name. -/
theorem not_mem_base_of_load {opts : BinarizeOptions} (h : load t opts file = .ok l) :
    '/' ∉ (Path.base file).toList := by
  have hsupported := isSupported_of_load h
  have hname : Path.afterSlash file ≠ "" := by
    refine Path.afterSlash_ne_empty fun hnone => ?_
    rw [Image.isSupported, hnone] at hsupported
    exact absurd hsupported (by decide +kernel)
  rw [Path.base_eq hname]
  exact Path.not_mem_afterSlash file

theorem proper_stem (h : '/' ∉ (Path.base file).toList) : Path.Proper (stem file ++ "_overlay.png") := by
  have hlength : 12 ≤ (stem file ++ "_overlay.png").length := by
    rw [String.length_append]
    exact Nat.le_add_left 12 _
  refine ⟨?_, ?_, ?_, ?_⟩
  · intro heq
    rw [heq] at hlength
    exact absurd hlength (by decide)
  · intro heq
    rw [heq] at hlength
    exact absurd hlength (by decide)
  · intro heq
    rw [heq] at hlength
    exact absurd hlength (by decide)
  · rw [String.toList_append, List.mem_append, not_or]
    exact ⟨fun hmem => h (Path.mem_of_mem_dropEnding hmem), by decide⟩

/-- The overlays of all files are in one folder. -/
theorem leads_overlayPath (hfolder : folder ≠ "") (h : '/' ∉ (Path.base file).toList) :
    Path.Leads (overlayPath folder file) (Path.isRooted folder)
      ((if Path.isRooted folder then [""] else []) ++ Path.steps folder) (stem file ++ "_overlay.png") :=
  Path.leads_join (proper_stem h) hfolder

/-- Files have the same overlay if they agree but for their folders and endings. -/
theorem overlayPath_eq_iff (hfolder : folder ≠ "") (hf : '/' ∉ (Path.base f).toList)
    (hg : '/' ∉ (Path.base g).toList) :
    overlayPath folder f = overlayPath folder g ↔ stem f = stem g := by
  refine ⟨fun heq => ?_, fun heq => ?_⟩
  · have hname := Path.afterSlash_eq (leads_overlayPath hfolder hf).names_eq
    rw [heq, Path.afterSlash_eq (leads_overlayPath hfolder hg).names_eq] at hname
    exact (String.append_left_inj _).1 hname.symm
  · rw [overlayPath_eq, heq, overlayPath_eq]

/-! ## Writing overlays -/

/-- The overlay of a file. -/
def overlayOf (o : Options) (l : Loaded) (r : Blob.Result) : Image :=
  (Overlay.draw (some l.image) l.ink r.contourList o.overlay).image

theorem writeOverlay_eq (hfolder : o.overlayFolder ≠ "") :
    writeOverlay o t file l (some r) =
      Image.save t (overlayOf o l r) (overlayPath o.overlayFolder file) := by
  rw [writeOverlay, if_neg (by simpa using hfolder)]
  rfl

/-- What is told of an overlay that could not be written. -/
def unwritten (file : String) (e : Failure) : Notice :=
  .record (fileRecord "failed to write overlay" file e)

/-- What is done about one loaded image, by what was found in it. -/
def settleOne (o : Options) (t : FileTree) : Nat × String × Loaded → FileTree × List Notice
  | (i, file, l) =>
    match Blob.find l.ink o.blob with
    | .error e => (t, [.event (.failed (i : Nat) e.message)])
    | .ok r =>
      match writeOverlay o t file l (some r) with
      | .ok t => (t, [])
      | .error e => (t, [unwritten file e])

/-- What is done about the loaded images, one after the other. -/
def settle (o : Options) : FileTree → List (Nat × String × Loaded) → FileTree × List Notice
  | t, [] => (t, [])
  | t, z :: rest =>
    let (t, notices) := settleOne o t z
    let (t, others) := settle o t rest
    (t, notices ++ others)

theorem wrapUp_eq {report : Crew.Report} (t : FileTree) (before : List Picture)
    (images : List (Nat × String × Loaded))
    (hresults : report.results = some ((before ++ images.map fun z => z.2.2.ink).map fun p =>
      (Blob.find p o.blob).toOption))
    (hfailed : report.failed = Crew.failuresOf (before ++ images.map fun z => z.2.2.ink) o.blob) :
    wrapUp o report t before.length images = settle o t images := by
  -- The report counts all images, so the induction carries those that were settled before.
  induction images generalizing t before with
  | nil => rfl
  | cons z rest ih =>
    obtain ⟨i, file, l⟩ := z
    have hplace :
        (before ++ ((i, file, l) :: rest).map fun z => z.2.2.ink)[before.length]? = some l.ink := by
      simp
    have hrest : ∀ t, wrapUp o report t (before.length + 1) rest = settle o t rest := by
      intro t
      have hafter := ih t (before ++ [l.ink]) (by simpa using hresults) (by simpa using hfailed)
      rwa [List.length_append, List.length_singleton] at hafter
    have hlookup : report.failed.lookup before.length = Crew.failure? (Blob.find l.ink o.blob) := by
      rw [hfailed, lookup_failuresOf, hplace]
      rfl
    have hresult : ((report.results.getD [])[before.length]?).join =
        (Blob.find l.ink o.blob).toOption := by
      rw [hresults, Option.getD_some, List.getElem?_map, hplace]
      rfl
    rw [wrapUp, settle, settleOne, hlookup, hresult]
    simp only [hrest]
    cases Blob.find l.ink o.blob with
    | error e => rfl
    | ok r =>
      simp only [Crew.failure?, Except.toOption]
      cases writeOverlay o t file l (some r) <;> rfl

theorem settle_append (t : FileTree) (images images' : List (Nat × String × Loaded)) :
    settle o t (images ++ images') =
      ((settle o (settle o t images).1 images').1,
        (settle o t images).2 ++ (settle o (settle o t images).1 images').2) := by
  induction images generalizing t with
  | nil => rfl
  | cons z rest ih => simp only [List.cons_append, settle, ih, List.append_assoc]

/-- An overlay stays when the overlay of a file with another name is written. -/
theorem find_settleOne_of_ne {z : Nat × String × Loaded} (hfolder : o.overlayFolder ≠ "")
    (hfile : '/' ∉ (Path.base file).toList) (hname : '/' ∉ (Path.base z.2.1).toList)
    (hother : (∃ r, Blob.find z.2.2.ink o.blob = .ok r) → stem z.2.1 ≠ stem file)
    (hfind : t.find (overlayPath o.overlayFolder file) = .ok x) :
    (settleOne o t z).1.find (overlayPath o.overlayFolder file) = .ok x := by
  obtain ⟨i, f, l⟩ := z
  rw [settleOne]
  cases hblobs : Blob.find l.ink o.blob with
  | error e => exact hfind
  | ok r =>
    dsimp only
    rw [writeOverlay_eq hfolder]
    cases hsave : Image.save t (overlayOf o l r) (overlayPath o.overlayFolder f) with
    | error e => exact hfind
    | ok t' =>
      refine Image.find_of_save_of_ne (leads_overlayPath hfolder hname) (leads_overlayPath hfolder hfile)
        (fun heq => ?_) hsave hfind
      exact hother ⟨r, hblobs⟩ ((String.append_left_inj _).1 heq).symm

theorem find_settle_of_ne {images : List (Nat × String × Loaded)} (hfolder : o.overlayFolder ≠ "")
    (hfile : '/' ∉ (Path.base file).toList) (hnames : ∀ z ∈ images, '/' ∉ (Path.base z.2.1).toList)
    (hother : ∀ z ∈ images, (∃ r, Blob.find z.2.2.ink o.blob = .ok r) → stem z.2.1 ≠ stem file)
    (hfind : t.find (overlayPath o.overlayFolder file) = .ok x) :
    (settle o t images).1.find (overlayPath o.overlayFolder file) = .ok x := by
  induction images generalizing t with
  | nil => exact hfind
  | cons z rest ih =>
    rw [List.forall_mem_cons] at hnames hother
    exact ih hnames.2 hother.2 (find_settleOne_of_ne hfolder hfile hnames.1 hother.1 hfind)

/-- The overlay of a file that no later one takes away is there in the end, or the batch has told that it
could not be written. -/
theorem find_settle {i : Nat} {before after : List (Nat × String × Loaded)}
    (hfolder : o.overlayFolder ≠ "") (hfile : '/' ∉ (Path.base file).toList)
    (hnames : ∀ z ∈ after, '/' ∉ (Path.base z.2.1).toList)
    (hblobs : Blob.find l.ink o.blob = .ok r)
    (hother : ∀ z ∈ after, (∃ r, Blob.find z.2.2.ink o.blob = .ok r) → stem z.2.1 ≠ stem file) :
    (settle o t (before ++ (i, file, l) :: after)).1.find (overlayPath o.overlayFolder file) =
        .ok (.image (overlayOf o l r)) ∨
      ∃ e, unwritten file e ∈ (settle o t (before ++ (i, file, l) :: after)).2 := by
  rw [settle_append, settle, settleOne, hblobs]
  dsimp only
  rw [writeOverlay_eq hfolder]
  -- The overlay is written over what the files before left, and the files after leave it alone.
  cases hsave : Image.save (settle o t before).1 (overlayOf o l r)
    (overlayPath o.overlayFolder file) with
  | error e => exact .inr ⟨e, List.mem_append_right _ (List.mem_append_left _ List.mem_cons_self)⟩
  | ok t' =>
    exact .inl (find_settle_of_ne hfolder hfile hnames hother
      (Image.find_of_save (leads_overlayPath hfolder hfile) hsave))

/-! ## Overlays of a run -/

section

variable {load : String → Except Failure Loaded} {files before after : List String}

/-- The loaded images of files, when the first one has the place `k`. -/
def loadedFrom (load : String → Except Failure Loaded) (k : Nat) (files : List String) :
    List (Nat × String × Loaded) :=
  ((attemptsOf load files).zipIdx k).filterMap fun (a, i) => a.loaded?.map fun l => (i, a.file, l)

theorem load_of_mem_loadedFrom {k : Nat} {z : Nat × String × Loaded} (hz : z ∈ loadedFrom load k files) :
    z.2.1 ∈ files ∧ load z.2.1 = .ok z.2.2 := by
  obtain ⟨⟨a, i⟩, hmem, hz⟩ := List.mem_filterMap.1 hz
  obtain ⟨f, hf, rfl⟩ := List.mem_map.1 (List.fst_mem_of_mem_zipIdx hmem)
  simp only [Attempt.loaded?, Option.map_eq_some_iff] at hz
  obtain ⟨l, hl, rfl⟩ := hz
  split at hl
  · rename_i hload
    exact ⟨hf, hload.trans (congrArg _ (Option.some_inj.1 hl))⟩
  · cases hl

theorem loadedFrom_append_cons {k : Nat} (hload : load file = .ok l) :
    loadedFrom load k (before ++ file :: after) =
      loadedFrom load k before ++
        (k + before.length, file, l) :: loadedFrom load (k + before.length + 1) after := by
  have hloaded : (Attempt.mk file (load file)).loaded? = some l := by rw [Attempt.loaded?, hload]
  simp only [loadedFrom, attemptsOf, List.map_append, List.map_cons, List.zipIdx_append,
    List.zipIdx_cons, List.filterMap_append, List.filterMap_cons, List.length_map, hloaded,
    Option.map_some]

end

section

variable {paths files : List String} {cancelled : Bool} {out : Outcome}

/-- A batch that was called off comes to its end only if there was nothing to extract. -/
theorem extract_eq_of_not_fatal {attempts : List Attempt}
    (h : fatal? o (extract o attempts cancelled) = none) :
    extract o attempts cancelled = extract o attempts false := by
  cases cancelled with
  | false => rfl
  | true =>
    cases hloaded : loadedImages attempts with
    | nil => simp only [extract, hloaded]
    | cons z rest =>
      simp [extract, hloaded, Crew.findAll, Crew.Report.broken, fatal?] at h

theorem wrapUp_extract (t : FileTree) (o : Options) (load : String → Except Failure Loaded)
    (files : List String) :
    wrapUp o (extract o (attemptsOf load files) false) t 0 (loadedImages (attemptsOf load files)) =
      settle o t (loadedFrom load 0 files) := by
  refine wrapUp_eq t [] (loadedFrom load 0 files) ?_ ?_
  · rw [extract_eq, ← map_ink_loadedImages]
    rfl
  · rw [extract_eq, ← map_ink_loadedImages]
    rfl

theorem finish_eq_settle {load : String → Except Failure Loaded} {before : List Notice}
    (hout : (finish t o (attemptsOf load files) (extract o (attemptsOf load files) cancelled)
      before).outcome = .ok out) :
    let r := finish t o (attemptsOf load files) (extract o (attemptsOf load files) cancelled) before
    out.documents = files.map (fun f => documentOf f (fileOutcome load o.blob f)) ∧
      r.tree = (settle o t (loadedFrom load 0 files)).1 ∧
      ∀ n ∈ (settle o t (loadedFrom load 0 files)).2, n ∈ r.history := by
  cases hfatal : fatal? o (extract o (attemptsOf load files) cancelled) with
  | some e =>
    simp only [finish, hfatal] at hout
    cases hout
  | none =>
    simp only [finish, hfatal] at hout ⊢
    rw [extract_eq_of_not_fatal hfatal, Except.ok.injEq] at hout
    rw [extract_eq_of_not_fatal hfatal, wrapUp_extract, ← hout]
    refine ⟨documents_outcomeOf load files o, rfl, fun n hn => ?_⟩
    simp [hn]

/-- A batch that comes to its end has settled all loaded images, and told what there was to tell. -/
theorem run_eq_settle (hfiles : discover t paths o.filter = .ok files)
    (hout : (run t paths o cancelled).outcome = .ok out) :
    out.documents = files.map (fun f => documentOf f (fileOutcome (load t o.binarize) o.blob f)) ∧
      (run t paths o cancelled).tree = (settle o t (loadedFrom (load t o.binarize) 0 files)).1 ∧
      ∀ n ∈ (settle o t (loadedFrom (load t o.binarize) 0 files)).2,
        n ∈ (run t paths o cancelled).history := by
  rw [run, hfiles] at hout ⊢
  cases files with
  | nil => cases hout
  | cons f rest =>
    dsimp only at hout ⊢
    rw [runFiles] at hout ⊢
    dsimp only at hout ⊢
    split at hout
    · cases hout
    · exact finish_eq_settle hout

/-- A file of the batch was processed: it was loaded, and blobs were found in it. -/
def Processed (t : FileTree) (o : Options) (file : String) (l : Loaded) (r : Blob.Result) : Prop :=
  load t o.binarize file = .ok l ∧ Blob.find l.ink o.blob = .ok r

theorem Processed.fileOutcome_eq (h : Processed t o file l r) :
    fileOutcome (load t o.binarize) o.blob file = .ok r := by
  rw [fileOutcome, h.1]
  exact h.2

/-- The overlays of a batch. The documents of processed files have their results. Two processed files
have the same overlay exactly if their names agree but for the endings. In the end the overlay of every
processed file is there that no later one takes the name of, unless the batch has told that it could
not be written. -/
theorem run_writes_overlays (hfiles : discover t paths o.filter = .ok files)
    (hfolder : o.overlayFolder ≠ "") (hout : (run t paths o cancelled).outcome = .ok out) :
    (∀ f ∈ files, ∀ l r, Processed t o f l r →
      ({ file := f, result := some r } : Document) ∈ out.documents) ∧
    (∀ f l r g l' r', Processed t o f l r → Processed t o g l' r' →
      (overlayPath o.overlayFolder f = overlayPath o.overlayFolder g ↔ stem f = stem g)) ∧
    ∀ before f after l r, files = before ++ f :: after → Processed t o f l r →
      (∀ g ∈ after, ∀ l r, Processed t o g l r → stem g ≠ stem f) →
      (run t paths o cancelled).tree.find (overlayPath o.overlayFolder f) =
          .ok (.image (overlayOf o l r)) ∨
        ∃ e, unwritten f e ∈ (run t paths o cancelled).history := by
  obtain ⟨hdocuments, htree, htold⟩ := run_eq_settle hfiles hout
  refine ⟨?_, ?_, ?_⟩
  · intro f hf l r h
    rw [hdocuments]
    exact List.mem_map.2 ⟨f, hf, by rw [h.fileOutcome_eq]; rfl⟩
  · rintro f l r g l' r' ⟨hf, -⟩ ⟨hg, -⟩
    exact overlayPath_eq_iff hfolder (not_mem_base_of_load hf) (not_mem_base_of_load hg)
  · rintro before f after l r rfl ⟨hload, hblobs⟩ hlast
    rw [loadedFrom_append_cons hload] at htree htold
    rw [htree]
    have hafter : ∀ z ∈ loadedFrom (load t o.binarize) (0 + before.length + 1) after,
        z.2.1 ∈ after ∧ load t o.binarize z.2.1 = .ok z.2.2 := fun z hz => load_of_mem_loadedFrom hz
    refine (find_settle hfolder (not_mem_base_of_load hload)
      (fun z hz => not_mem_base_of_load (hafter z hz).2) hblobs fun z hz => ?_).imp id ?_
    · rintro ⟨r', hr'⟩
      exact hlast _ (hafter z hz).1 _ _ ⟨(hafter z hz).2, hr'⟩
    · rintro ⟨e, he⟩
      exact ⟨e, htold _ he⟩

theorem eraseDups_eq_self {l : List String} (h : l.Nodup) : l.eraseDups = l := by
  induction l with
  | nil => rfl
  | cons a l ih =>
    obtain ⟨ha, hl⟩ := List.nodup_cons.1 h
    have hrest : l.filter (fun b => !b == a) = l := by
      refine List.filter_eq_self.2 fun b hb => ?_
      have hne : b ≠ a := fun heq => ha (heq ▸ hb)
      simpa using hne
    rw [List.eraseDups_cons, hrest, ih hl]

/-- Paths to image files that are taken stand for themselves. -/
theorem discover_files (hnodup : files.Nodup)
    (hall : ∀ f ∈ files, (∃ i, t.find f = .ok (.image i)) ∧ o.filter.takes f = true) :
    discover t files o.filter = .ok files := by
  have hexpand : ∀ f ∈ files, o.filter.expand t f = .ok [f] := by
    intro f hf
    obtain ⟨⟨i, hi⟩, htakes⟩ := hall f hf
    obtain ⟨q, hq, himage⟩ := FileTree.exists_locate_of_find hi
    exact expand_file hq (by rw [himage]; simp) htakes
  rw [discover, mapM_bind_eq hexpand, ← List.flatMap_def, List.flatMap_singleton',
    eraseDups_eq_self hnodup]
  rfl

/-- An image with pixels is processed. -/
theorem exists_processed {i : Image} (hfile : file ≠ "") (hsupported : Image.isSupported file = true)
    (hfind : t.find file = .ok (.image i)) (hw : i.width ≠ 0) (hh : i.height ≠ 0)
    (hmax : 0 ≤ o.blob.maxLength) (htolerance : ¬o.blob.tolerance < 0) :
    ∃ l r, Processed t o file l r := by
  have himage : Image.load t file = .ok i.reloaded := by
    rw [Image.load, if_neg (by simpa using hfile), if_neg (by simp [hsupported]), hfind]
  have hpixels : ¬(i.reloaded.width == 0 || i.reloaded.height == 0) = true := by
    simpa [Image.reloaded] using And.intro hw hh
  have hink : ∃ ink, Image.binarize (some i.reloaded) o.binarize = .ok ink ∧
      ink.picture.width = i.width ∧ ink.picture.height = i.height := by
    simp only [Image.binarize, if_neg hpixels]
    split <;> exact ⟨_, rfl, rfl, rfl⟩
  obtain ⟨ink, hink, hwidth, hheight⟩ := hink
  refine ⟨⟨i.reloaded, ink.picture⟩, _, ?_, Blob.find_eq ?_ ?_ hmax htolerance⟩
  · rw [load, himage]
    simp only [Failure.within, hink, bind, Except.bind]
    rfl
  · show 0 < ink.picture.width
    omega
  · show 0 < ink.picture.height
    omega

/-- A batch over processed files comes to its end. -/
theorem exists_outcome (hfiles : discover t paths o.filter = .ok files) (hne : files ≠ [])
    (hall : ∀ f ∈ files, ∃ l r, Processed t o f l r) :
    ∃ out, (run t paths o false).outcome = .ok out := by
  have hrun : run t paths o false = runFiles (load t o.binarize) t files o false := by
    rw [run, hfiles]
    cases files with
    | nil => exact absurd rfl hne
    | cons f rest => rfl
  have hgo : ∀ f ∈ files, ∃ r, fileOutcome (load t o.binarize) o.blob f = .ok r := by
    intro f hf
    obtain ⟨l, r, h⟩ := hall f hf
    exact ⟨r, h.fileOutcome_eq⟩
  obtain ⟨hfinish, houtcome⟩ := finishes t (.inr hgo)
  rw [hrun, hfinish]
  exact ⟨_, houtcome⟩

end

/-- Two images in one folder have overlays of their own. -/
theorem run_writes_overlays_pair :
    let dot : Image := ⟨1, 1, #[.gray 0]⟩
    let t : FileTree := ⟨[], [(["x.png"], .image dot), (["y.png"], .image dot)]⟩
    let o : Options := { overlayFolder := "ov" }
    discover t ["x.png", "y.png"] o.filter = .ok ["x.png", "y.png"] ∧
      overlayPath o.overlayFolder "x.png" ≠ overlayPath o.overlayFolder "y.png" ∧
      ∃ l r, Processed t o "x.png" l r ∧
        ((run t ["x.png", "y.png"] o false).tree.find (overlayPath o.overlayFolder "x.png") =
            .ok (.image (overlayOf o l r)) ∨
          ∃ e, unwritten "x.png" e ∈ (run t ["x.png", "y.png"] o false).history) := by
  intro dot t o
  have hfind : ∀ f ∈ ["x.png", "y.png"], t.find f = .ok (.image dot) := by
    simp only [List.forall_mem_cons, FileTree.find, FileTree.locate, Path.names_eq]
    decide +kernel
  have hfiles : discover t ["x.png", "y.png"] o.filter = .ok ["x.png", "y.png"] :=
    discover_files (by decide) fun f hf => ⟨⟨dot, hfind f hf⟩, by revert f; decide +kernel⟩
  have hall : ∀ f ∈ ["x.png", "y.png"], ∃ l r, Processed t o f l r := fun f hf =>
    exists_processed (by revert f; decide) (by revert f; decide +kernel) (hfind f hf) (by decide)
      (by decide) (by decide) (by decide)
  obtain ⟨out, hout⟩ := exists_outcome hfiles (List.cons_ne_nil _ _) hall
  obtain ⟨l, r, hx⟩ := hall "x.png" (by decide)
  obtain ⟨l', r', hy⟩ := hall "y.png" (by decide)
  have hstem : stem "x.png" ≠ stem "y.png" := by decide +kernel
  obtain ⟨-, hpaths, hthere⟩ := run_writes_overlays hfiles (by decide) hout
  refine ⟨hfiles, fun heq => hstem ((hpaths _ _ _ _ _ _ hx hy).1 heq), l, r, hx, ?_⟩
  refine hthere [] "x.png" ["y.png"] l r rfl hx fun g hg _ _ _ => ?_
  obtain rfl := List.mem_singleton.1 hg
  exact hstem.symm

/-- Two images with one name in different folders have one overlay between them. -/
theorem run_overwrites_overlay :
    let dot : Image := ⟨1, 1, #[.gray 0]⟩
    let t : FileTree := ⟨[], [(["a"], .folder), (["a", "x.png"], .image dot), (["b"], .folder),
      (["b", "x.png"], .image dot)]⟩
    let o : Options := { overlayFolder := "ov" }
    discover t ["a/x.png", "b/x.png"] o.filter = .ok ["a/x.png", "b/x.png"] ∧
      (∃ out, (run t ["a/x.png", "b/x.png"] o false).outcome = .ok out) ∧
      (∀ f ∈ ["a/x.png", "b/x.png"], ∃ l r, Processed t o f l r) ∧
      overlayPath o.overlayFolder "a/x.png" = overlayPath o.overlayFolder "b/x.png" := by
  intro dot t o
  have hfind : ∀ f ∈ ["a/x.png", "b/x.png"], t.find f = .ok (.image dot) := by
    simp only [List.forall_mem_cons, FileTree.find, FileTree.locate, Path.names_eq]
    decide +kernel
  have hfiles : discover t ["a/x.png", "b/x.png"] o.filter = .ok ["a/x.png", "b/x.png"] :=
    discover_files (by decide) fun f hf => ⟨⟨dot, hfind f hf⟩, by revert f; decide +kernel⟩
  have hall : ∀ f ∈ ["a/x.png", "b/x.png"], ∃ l r, Processed t o f l r := fun f hf =>
    exists_processed (by revert f; decide) (by revert f; decide +kernel) (hfind f hf) (by decide)
      (by decide) (by decide) (by decide)
  have hstem : stem "a/x.png" = stem "b/x.png" := by decide +kernel
  refine ⟨hfiles, exists_outcome hfiles (List.cons_ne_nil _ _) hall, hall, ?_⟩
  rw [overlayPath_eq, hstem, overlayPath_eq]

end Batch

end Perimeter
