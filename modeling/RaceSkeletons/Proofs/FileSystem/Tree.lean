import RaceSkeletons.Proofs.FileSystem.Walk

/-!
# Trees without links

Below a root without links every path of a walk is the root's with names behind
it, and leads to the location with the same names (`IsTree.target?_entered`). So the
files of a walk are told by their names: they are the regular files in the
directories that the walk enters and can list (`IsTree.mem_walk_iff`).
-/

namespace RaceSkeletons

open RaceSkeletons.Path (IsEntryName)

/-- The path that leads down from `p` by names. -/
def Path.below (p : Path) (names : List String) : Path :=
  names.foldl Path.join p

@[simp] theorem Path.below_nil (p : Path) : p.below [] = p := rfl

@[simp] theorem Path.below_singleton (p : Path) (name : String) :
    p.below [name] = p.join name := rfl

@[simp] theorem Path.below_concat (p : Path) (names : List String) (name : String) :
    p.below (names ++ [name]) = (p.below names).join name :=
  List.foldl_concat _ _ _ _

namespace FileSystem

variable {fs fs' : FileSystem} {root p dir : Path} {top location : Location} {names : List String}
  {name : String} {node : Node} {trail : List Location} {order : EntryOrder}

/-! ## Entries by their paths -/

/-- What the path of an entry leads to is what stands in its directory. -/
theorem Opens.target?_join (h : fs.Opens dir location) (hname : IsEntryName name)
    (hfits : Fits (dir.join name))
    (hlink : ∀ target, fs.nodeAt? (location ++ [name]) ≠ some (.link target)) :
    fs.target? (dir.join name) =
      match fs.nodeAt? (location ++ [name]) with
      | none => .error .notFound
      | some node => .ok (location ++ [name], node) := by
  rw [target?, h.locate_join hname hfits hlink]
  cases fs.nodeAt? (location ++ [name]) <;> rfl

/-! ## Trees without links -/

/-- A root that is a directory, with no link below it. -/
structure IsTree (fs : FileSystem) (root : Path) (top : Location) : Prop where
  wellFormed : fs.WellFormed
  root : fs.target? root = .ok (top, .dir)
  noLink : ∀ names target, fs.nodeAt? (top ++ names) ≠ some (.link target)

/-- The entries tell whether there are links. -/
theorem isTree_of_entries (hwf : fs.WellFormed) (hroot : fs.target? root = .ok (top, .dir))
    (h : ∀ entry ∈ fs.entries, top <+: entry.location → entry.node.isLink = false) :
    IsTree fs root top where
  wellFormed := hwf
  root := hroot
  noLink := by
    intro names target hlink
    by_cases hne : top ++ names = []
    · rw [hne, nodeAt?_nil] at hlink
      cases hlink
    · obtain ⟨entry, hentry, hlocation, hnode⟩ := exists_entry_of_nodeAt? hne hlink
      have hno := h entry hentry (hlocation ▸ List.prefix_append top names)
      rw [hnode] at hno
      cases hno

/-- The directories that a walk enters, by the names that lead to them. -/
inductive Entered (fs : FileSystem) (root : Path) (top : Location) : List String → Prop where
  | root : Entered fs root top []
  | child {names : List String} {name : String} (around : Entered fs root top names)
      (listed : fs.IsListed (top ++ names)) (isName : IsEntryName name)
      (fits : Fits ((root.below names).join name))
      (isDir : fs.isDirAt (top ++ names ++ [name]) = true) :
      Entered fs root top (names ++ [name])

/-- A regular file that a walk meets, and that its path leads to, by its directory and
its name. -/
structure HasFile (fs : FileSystem) (root : Path) (top : Location) (names : List String)
    (name : String) : Prop where
  entered : Entered fs root top names
  listed : fs.IsListed (top ++ names)
  isName : IsEntryName name
  fits : Fits ((root.below names).join name)
  isRegular : ∃ node, fs.nodeAt? (top ++ names ++ [name]) = some node ∧ node.isRegular = true

theorem Entered.mono (h : Entered fs root top names) (hterms : fs'.toTerms = fs.toTerms)
    (hdirs : ∀ location, fs.isDirAt location = true → fs'.isDirAt location = true) :
    Entered fs' root top names := by
  induction h with
  | root => exact .root
  | child _ listed isName fits isDir ih =>
      exact ih.child ((isListed_congr hterms).mpr listed) isName fits (hdirs _ isDir)

/-- Where the directories are the same, the same ones are entered. -/
theorem entered_congr (hterms : fs'.toTerms = fs.toTerms)
    (hdirs : ∀ location, fs'.isDirAt location = fs.isDirAt location) :
    Entered fs' root top names ↔ Entered fs root top names :=
  ⟨fun hnames => hnames.mono hterms.symm fun location hdir => (hdirs location).symm.trans hdir,
    fun hnames => hnames.mono hterms fun location hdir => (hdirs location).trans hdir⟩

theorem Entered.components_below (h : Entered fs root top names) :
    (root.below names).components = root.components ++ names.map .normal := by
  induction h with
  | root => exact (List.append_nil _).symm
  | child _ _ isName _ _ ih =>
      rw [Path.below_concat, Path.components_join _ isName, ih, List.map_append,
        List.append_assoc]
      rfl

namespace IsTree

variable (h : IsTree fs root top)

include h

theorem noLink_child (names : List String) (name : String) (target : Path) :
    fs.nodeAt? (top ++ names ++ [name]) ≠ some (.link target) := by
  rw [List.append_assoc]
  exact h.noLink _ target

theorem target?_entered (hnames : Entered fs root top names) :
    fs.target? (root.below names) = .ok (top ++ names, .dir) := by
  induction hnames with
  | root =>
      rw [List.append_nil]
      exact h.root
  | @child names name around listed isName fits isDir ih =>
      rw [Path.below_concat, (opens_of_target? ih).target?_join isName fits
        (h.noLink_child names name), beq_iff_eq.mp isDir, List.append_assoc]

theorem opens (hnames : Entered fs root top names) :
    fs.Opens (root.below names) (top ++ names) :=
  opens_of_target? (h.target?_entered hnames)

theorem target?_join (hnames : Entered fs root top names) (hname : IsEntryName name)
    (hfits : Fits ((root.below names).join name)) :
    fs.target? ((root.below names).join name) =
      match fs.nodeAt? (top ++ names ++ [name]) with
      | none => .error .notFound
      | some node => .ok (top ++ names ++ [name], node) :=
  (h.opens hnames).target?_join hname hfits (h.noLink_child names name)

theorem target?_file (hfile : HasFile fs root top names name) :
    ∃ node, fs.target? ((root.below names).join name) = .ok (top ++ names ++ [name], node) := by
  obtain ⟨node, hnode, -⟩ := hfile.isRegular
  exact ⟨node, by rw [h.target?_join hfile.entered hfile.isName hfile.fits, hnode]⟩

theorem isDir_join_iff (hnames : Entered fs root top names) (hname : IsEntryName name) :
    fs.isDir ((root.below names).join name) = true ↔
      Fits ((root.below names).join name) ∧ fs.isDirAt (top ++ names ++ [name]) = true := by
  by_cases hfits : Fits ((root.below names).join name)
  · rw [isDir, h.target?_join hnames hname hfits, FileSystem.isDirAt]
    cases hnode : fs.nodeAt? (top ++ names ++ [name]) with
    | none => simp [hfits]
    | some node => cases node <;> simp [hfits]
  · obtain ⟨e, htarget⟩ := IsOverlong.target? ⟨_, _, rfl, hname, hfits⟩ fs
    rw [isDir, htarget]
    simp [hfits]

theorem isFile_join_iff (hnames : Entered fs root top names) (hname : IsEntryName name) :
    fs.isFile ((root.below names).join name) = true ↔
      Fits ((root.below names).join name) ∧
        ∃ node, fs.nodeAt? (top ++ names ++ [name]) = some node ∧ node.isRegular = true := by
  by_cases hfits : Fits ((root.below names).join name)
  · rw [isFile, h.target?_join hnames hname hfits]
    cases hnode : fs.nodeAt? (top ++ names ++ [name]) <;> simp [hfits]
  · obtain ⟨e, htarget⟩ := IsOverlong.target? ⟨_, _, rfl, hname, hfits⟩ fs
    rw [isFile, htarget]
    simp [hfits]

/-! ## The files of a walk -/

theorem listDir_entered (hnames : Entered fs root top names)
    (hlisted : fs.IsListed (top ++ names)) :
    fs.listDir (root.below names) = .ok (top ++ names) :=
  listDir_eq_ok_iff.mpr ⟨h.target?_entered hnames, hlisted⟩

/-- A directory that a walk lists is one that it enters. -/
theorem entered_of_liesUnder (hunder : LiesUnder fs root trail dir node)
    (hlist : fs.listDir dir = .ok location) :
    ∃ names, dir = root.below names ∧ location = top ++ names ∧ Entered fs root top names := by
  have htarget := (listDir_eq_ok_iff.mp hlist).1
  induction hunder generalizing location with
  | root =>
      rw [h.root] at htarget
      obtain ⟨rfl, -⟩ := Prod.mk.inj (Except.ok.inj htarget)
      exact ⟨[], rfl, (List.append_nil _).symm, .root⟩
  | @entry _ _ _ _ _ name _ listed _ there ih =>
      obtain ⟨names, rfl, rfl, hnames⟩ := ih listed (listDir_eq_ok_iff.mp listed).1
      have hname := h.wellFormed.isEntryName there
      obtain ⟨hfits, hdir⟩ :=
        (h.isDir_join_iff hnames hname).mp (isDir_iff.mpr ⟨location, htarget⟩)
      have hentered := hnames.child (listDir_eq_ok_iff.mp listed).2 hname hfits hdir
      refine ⟨names ++ [name], (Path.below_concat _ _ _).symm, ?_, hentered⟩
      rw [← Path.below_concat, h.target?_entered hentered] at htarget
      exact (Prod.mk.inj (Except.ok.inj htarget)).1.symm

/-- A directory that a walk enters lies under its root. -/
theorem liesUnder_entered (hnames : Entered fs root top names) :
    ∃ trail node, LiesUnder fs root trail (root.below names) node ∧
      (node.isLink = true → trail = []) := by
  induction hnames with
  | root =>
      obtain ⟨hp, hleads⟩ := target?_eq_ok_iff.mp h.root
      obtain ⟨⟨place, found⟩, hfirst, hplace⟩ := hleads.notFollowing
      have hlocate := locate_eq_ok_iff.mpr ⟨hp, hfirst⟩
      rcases hplace with heq | ⟨target, rfl⟩
      · cases heq
        exact ⟨[], .dir, .root hlocate, fun _ => rfl⟩
      · exact ⟨[], .link target, .root hlocate, fun _ => rfl⟩
  | @child names name around listed _ _ isDir ih =>
      obtain ⟨trail, node, hunder, hnode⟩ := ih
      refine ⟨(top ++ names) :: trail, .dir, ?_, nofun⟩
      rw [Path.below_concat]
      refine .entry hunder (h.listDir_entered around listed) (fun hlink => ?_) (beq_iff_eq.mp isDir)
      rw [hnode hlink]
      exact List.not_mem_nil

/-- The files of a walk that their paths lead to are the regular files in the directories
that it enters. -/
theorem mem_walk_iff : .file p ∈ fs.walk order root ∧ fs.isFile p = true ↔
    ∃ names name, p = (root.below names).join name ∧ HasFile fs root top names name := by
  rw [h.wellFormed.mem_walk_iff]
  constructor
  · rintro ⟨⟨trail, node, hunder, -⟩, hfile⟩
    cases hunder with
    | root =>
        rw [isFile, h.root] at hfile
        cases hfile
    | @entry _ _ _ _ _ name around listed _ there =>
        obtain ⟨names, rfl, rfl, hnames⟩ := h.entered_of_liesUnder around listed
        have hname := h.wellFormed.isEntryName there
        obtain ⟨hfits, hregular⟩ := (h.isFile_join_iff hnames hname).mp hfile
        exact ⟨names, name, rfl, hnames, (listDir_eq_ok_iff.mp listed).2, hname, hfits, hregular⟩
  · rintro ⟨names, name, rfl, hnames, hlisted, hname, hfits, hregular⟩
    have hfile := (h.isFile_join_iff hnames hname).mpr ⟨hfits, hregular⟩
    obtain ⟨trail, outer, hunder, houter⟩ := h.liesUnder_entered hnames
    obtain ⟨node, hnode, hregular⟩ := hregular
    refine ⟨⟨_, node, .entry hunder (h.listDir_entered hnames hlisted) (fun hlink => ?_) hnode,
      .inl hregular⟩, hfile⟩
    rw [houter hlink]
    exact List.not_mem_nil

end IsTree

end FileSystem

end RaceSkeletons
