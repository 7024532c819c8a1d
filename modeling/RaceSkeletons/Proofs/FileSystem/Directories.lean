import RaceSkeletons.Proofs.FileSystem.Change
import RaceSkeletons.Proofs.Path.Steps

/-!
# Directories on the way

A path to an entry leads through the directory around it
(`FileSystem.Leads.split`), and a path to a directory can be prolonged by the
name of an entry (`FileSystem.Leads.walkNames_append`). So what a change does
to the entries of a directory can be told from where the directory is,
however its path goes (`FileSystem.Opens`).

A path to a directory survives a change that keeps all directories and all
links to directories (`FileSystem.Leads.keepDir`). Links that lead to no
directory do not matter to it: no step on its way follows one.
-/

namespace RaceSkeletons

open RaceSkeletons.Path (IsEntryName IsAround)

namespace FileSystem

variable {fs fs' : FileSystem} {followLast : Bool} {links links' : Nat}
  {current location : Location} {names rest : List String} {place place' : Place} {node : Node}
  {p dir around : Path} {name : String}

/-! ## One answer -/

theorem Leads.mono (h : Leads fs followLast links current names place) (hle : links ≤ links') :
    Leads fs followLast links' current names place := by
  induction h generalizing links' with
  | here => exact .here
  | stay isDir _ ih => exact .stay isDir (ih hle)
  | up isDir _ ih => exact .up isDir (ih hle)
  | missing looks node => exact .missing looks node
  | unfollowed looks node keep => exact .unfollowed looks node keep
  | follow looks node goesOn _ ih =>
      obtain ⟨more, rfl⟩ := Nat.exists_eq_add_of_le' (Nat.zero_lt_of_lt hle)
      exact .follow looks node goesOn (ih (Nat.le_of_succ_le_succ hle))
  | enter looks node noLink _ ih => exact .enter looks node noLink (ih hle)

/-- Names lead to one place, however many links may be followed. -/
theorem Leads.unique (h : Leads fs followLast links current names place)
    (h' : Leads fs followLast links' current names place') : place = place' := by
  have hwalk := walkNames_of_leads (h.mono (Nat.le_max_left links links'))
  rw [walkNames_of_leads (h'.mono (Nat.le_max_right links links'))] at hwalk
  exact (Except.ok.inj hwalk).symm

theorem Leads.isDirAt_of_cons (h : Leads fs followLast links current (name :: rest) place) :
    fs.isDirAt current = true := by
  cases h with
  | stay isDir _ => exact isDir
  | up isDir _ => exact isDir
  | missing looks _ => exact looks.isDir
  | unfollowed looks _ _ => exact looks.isDir
  | follow looks _ _ _ => exact looks.isDir
  | enter looks _ _ _ => exact looks.isDir

/-- A way to a directory starts at a directory. -/
theorem Leads.isDirAt_of_dir (h : Leads fs followLast links current names place)
    (hdir : place.node = some .dir) : fs.isDirAt current = true := by
  cases names with
  | nil =>
      cases h
      exact beq_iff_eq.mpr hdir
  | cons name rest => exact h.isDirAt_of_cons

theorem Leads.isDirAt_location (h : Leads fs followLast links current names place)
    (hdir : place.node = some .dir) : fs.isDirAt place.location = true :=
  beq_iff_eq.mpr (h.node_eq.symm.trans hdir)

/-! ## The last step -/

/-- Where nothing is left to follow, following changes nothing. -/
theorem Leads.following (h : Leads fs false links current names place)
    (hlink : ∀ target, place.node ≠ some (.link target)) :
    Leads fs true links current names place := by
  induction h with
  | here => exact .here
  | stay isDir _ ih => exact .stay isDir (ih hlink)
  | up isDir _ ih => exact .up isDir (ih hlink)
  | missing looks node => exact .missing looks node
  | unfollowed _ _ _ => exact absurd rfl (hlink _)
  | follow looks node _ _ ih => exact .follow looks node nofun (ih hlink)
  | enter looks node noLink _ ih => exact .enter looks node noLink (ih hlink)

/-- A way that follows the last link meets either that link or its own end. -/
theorem Leads.notFollowing (h : Leads fs true links current names place) :
    ∃ place', Leads fs false links current names place' ∧
      (place' = place ∨ ∃ target, place'.node = some (.link target)) := by
  induction h with
  | here => exact ⟨_, .here, .inl rfl⟩
  | stay isDir _ ih =>
      obtain ⟨place', hleads, hplace⟩ := ih
      exact ⟨place', .stay isDir hleads, hplace⟩
  | up isDir _ ih =>
      obtain ⟨place', hleads, hplace⟩ := ih
      exact ⟨place', .up isDir hleads, hplace⟩
  | missing looks node => exact ⟨_, .missing looks node, .inl rfl⟩
  | unfollowed _ _ keep => cases keep
  | @follow _ _ _ rest target _ looks node _ _ ih =>
      by_cases hrest : rest = []
      · subst hrest
        exact ⟨_, .unfollowed looks node rfl, .inr ⟨target, rfl⟩⟩
      · obtain ⟨place', hleads, hplace⟩ := ih
        exact ⟨place', .follow looks node (fun h => hrest h.1) hleads, hplace⟩
  | enter looks node noLink _ ih =>
      obtain ⟨place', hleads, hplace⟩ := ih
      exact ⟨place', .enter looks node noLink hleads, hplace⟩

/-- A last link that is not followed stands in the directory before it. -/
theorem Leads.location_of_last (h : Leads fs false links current [name] place)
    (hname : IsEntryName name) : Looks fs current name ∧ place.location = current ++ [name] := by
  cases h with
  | stay _ _ => exact absurd rfl hname.notCurrent
  | up _ _ => exact absurd rfl hname.notParent
  | missing looks _ => exact ⟨looks, rfl⟩
  | unfollowed looks _ _ => exact ⟨looks, rfl⟩
  | follow _ _ goesOn _ => exact absurd ⟨rfl, rfl⟩ goesOn
  | enter looks _ _ more =>
      cases more
      exact ⟨looks, rfl⟩

/-! ## Ways in two parts -/

/-- From a directory that names lead to, a walk goes on as if it started
there, with the links that are left. -/
theorem Leads.walkNames_append (h : Leads fs true links current names ⟨location, some .dir⟩) :
    ∃ left ≤ links, ∀ rest, rest ≠ [] → ∀ followLast,
      fs.walkNames followLast links current (names ++ rest) =
        fs.walkNames followLast left location rest := by
  generalize hplace : (⟨location, some .dir⟩ : Place) = place at h
  induction h with
  | here =>
      obtain rfl := congrArg Place.location hplace
      exact ⟨_, Nat.le_refl _, fun _ _ _ => rfl⟩
  | stay isDir _ ih =>
      obtain ⟨left, hleft, hwalk⟩ := ih hplace
      refine ⟨left, hleft, fun rest hrest followLast => ?_⟩
      rw [List.cons_append, walkNames, if_pos isDir, hwalk rest hrest]
  | up isDir _ ih =>
      obtain ⟨left, hleft, hwalk⟩ := ih hplace
      refine ⟨left, hleft, fun rest hrest followLast => ?_⟩
      rw [List.cons_append, walkNames, if_pos isDir, hwalk rest hrest]
  | missing _ _ => cases hplace
  | unfollowed _ _ keep => cases keep
  | @follow _ _ _ names _ _ looks node _ _ ih =>
      obtain ⟨left, hleft, hwalk⟩ := ih hplace
      refine ⟨left, Nat.le_succ_of_le hleft, fun rest hrest followLast => ?_⟩
      have hmore : names ++ rest ≠ [] := List.append_ne_nil_of_right_ne_nil names hrest
      rw [List.cons_append, walkNames_of_looks looks, node, ← hwalk rest hrest, List.append_assoc]
      exact if_neg fun hlast => hmore hlast.1
  | @enter _ _ _ _ found _ looks node noLink _ ih =>
      obtain ⟨left, hleft, hwalk⟩ := ih hplace
      refine ⟨left, hleft, fun rest hrest followLast => ?_⟩
      rw [List.cons_append, walkNames_of_looks looks, node, ← hwalk rest hrest]
      cases found with
      | link target => exact absurd rfl (noLink target)
      | _ => rfl

/-- A way in two parts passes a directory between them. -/
theorem Leads.split (h : Leads fs followLast links current (names ++ rest) place)
    (hrest : rest ≠ []) :
    ∃ left ≤ links, ∃ between, Leads fs true links current names ⟨between, some .dir⟩ ∧
      Leads fs followLast left between rest place := by
  generalize hall : names ++ rest = all at h
  have hnone : ∀ {links current names place},
      Leads fs followLast links current names place → names = rest →
      ∃ left ≤ links, ∃ between, Leads fs true links current [] ⟨between, some .dir⟩ ∧
        Leads fs followLast left between rest place := by
    rintro links current names place hleads rfl
    obtain ⟨first, more, rfl⟩ := List.exists_cons_of_ne_nil hrest
    refine ⟨links, Nat.le_refl _, current, ?_, hleads⟩
    rw [← beq_iff_eq.mp hleads.isDirAt_of_cons]
    exact .here
  induction h generalizing names with
  | here => exact absurd (List.append_eq_nil_iff.mp hall).2 hrest
  | stay isDir more ih =>
      cases names with
      | nil => exact hnone (.stay isDir more) hall.symm
      | cons first later =>
          obtain ⟨rfl, hlater⟩ := List.cons.inj hall
          obtain ⟨left, hleft, between, hfirst, hlast⟩ := ih hlater
          exact ⟨left, hleft, between, .stay isDir hfirst, hlast⟩
  | up isDir more ih =>
      cases names with
      | nil => exact hnone (.up isDir more) hall.symm
      | cons first later =>
          obtain ⟨rfl, hlater⟩ := List.cons.inj hall
          obtain ⟨left, hleft, between, hfirst, hlast⟩ := ih hlater
          exact ⟨left, hleft, between, .up isDir hfirst, hlast⟩
  | missing looks node =>
      cases names with
      | nil => exact hnone (.missing looks node) hall.symm
      | cons first later => exact absurd (List.append_eq_nil_iff.mp (List.cons.inj hall).2).2 hrest
  | unfollowed looks node keep =>
      cases names with
      | nil => exact hnone (.unfollowed looks node keep) hall.symm
      | cons first later => exact absurd (List.append_eq_nil_iff.mp (List.cons.inj hall).2).2 hrest
  | follow looks node goesOn more ih =>
      cases names with
      | nil => exact hnone (.follow looks node goesOn more) hall.symm
      | cons first later =>
          obtain ⟨rfl, rfl⟩ := List.cons.inj hall
          obtain ⟨left, hleft, between, hfirst, hlast⟩ := ih (List.append_assoc _ _ _)
          exact ⟨left, Nat.le_succ_of_le hleft, between, .follow looks node nofun hfirst, hlast⟩
  | enter looks node noLink more ih =>
      cases names with
      | nil => exact hnone (.enter looks node noLink more) hall.symm
      | cons first later =>
          obtain ⟨rfl, hlater⟩ := List.cons.inj hall
          obtain ⟨left, hleft, between, hfirst, hlast⟩ := ih hlater
          exact ⟨left, hleft, between, .enter looks node noLink hfirst, hlast⟩

theorem Leads.of_dots (h : Leads fs followLast links current names place)
    (hdots : ∀ name ∈ names, name = ".") : place.location = current := by
  have hfirst : ∀ {name : String} {rest : List String}, (∀ other ∈ name :: rest, other = ".") →
      name = "." := fun hall => hall _ List.mem_cons_self
  induction h with
  | here => rfl
  | stay _ _ ih => exact ih fun name hmem => hdots name (List.mem_cons_of_mem _ hmem)
  | up _ _ _ => exact absurd (hfirst hdots) (by decide)
  | missing looks _ => exact absurd (hfirst hdots) looks.notCurrent
  | unfollowed looks _ _ => exact absurd (hfirst hdots) looks.notCurrent
  | follow looks _ _ _ _ => exact absurd (hfirst hdots) looks.notCurrent
  | enter looks _ _ _ _ => exact absurd (hfirst hdots) looks.notCurrent

/-- Dots at the end of a way to a directory do not matter. -/
theorem Leads.withoutDots {n : Nat}
    (h : Leads fs true links current (names ++ List.replicate n ".") ⟨location, some .dir⟩) :
    Leads fs true links current names ⟨location, some .dir⟩ := by
  cases n with
  | zero =>
      rw [List.replicate_zero, List.append_nil] at h
      exact h
  | succ n =>
      obtain ⟨left, -, between, hnames, hdots⟩ := h.split (List.cons_ne_nil _ _)
      obtain rfl : location = between :=
        hdots.of_dots fun name hmem => List.eq_of_mem_replicate hmem
      exact hnames

/-! ## Directories by their paths -/

/-- The names of a path lead to the directory at a location. -/
def Opens (fs : FileSystem) (p : Path) (location : Location) : Prop :=
  Leads fs true maxLinks (fs.startOf p) p.names ⟨location, some .dir⟩

theorem target?_eq_ok_iff :
    fs.target? p = .ok (location, node) ↔
      IsPassable p ∧ Leads fs true maxLinks (fs.startOf p) p.steps ⟨location, some node⟩ := by
  rw [← locate_eq_ok_iff, target?]
  constructor
  · intro h
    split at h
    · cases h
    · cases h
    · next hlocate =>
        cases h
        exact hlocate
  · intro h
    rw [h]

/-- What is no link is where its path leads. -/
theorem target?_of_locate (h : fs.locate false p = .ok ⟨location, some node⟩)
    (hlink : ∀ target, node ≠ .link target) : fs.target? p = .ok (location, node) := by
  obtain ⟨hp, hleads⟩ := locate_eq_ok_iff.mp h
  exact target?_eq_ok_iff.mpr
    ⟨hp, hleads.following fun target heq => hlink target (Option.some.inj heq)⟩

theorem isDir_iff : fs.isDir p = true ↔ ∃ location, fs.target? p = .ok (location, .dir) := by
  rw [isDir]
  constructor
  · intro h
    split at h
    · next location htarget => exact ⟨location, htarget⟩
    · cases h
  · rintro ⟨location, h⟩
    rw [h]

theorem isFile_iff :
    fs.isFile p = true ↔ ∃ location node, fs.target? p = .ok (location, node) ∧
      node.isRegular = true := by
  rw [isFile]
  constructor
  · intro h
    split at h
    · next location node htarget => exact ⟨location, node, htarget, h⟩
    · cases h
  · rintro ⟨location, node, htarget, hregular⟩
    rw [htarget]
    exact hregular

/-- A directory at this location can be listed. -/
def IsListed (fs : FileSystem) (location : Location) : Prop :=
  fs.unlisted.lookup location = none

instance (fs : FileSystem) (location : Location) : Decidable (fs.IsListed location) :=
  inferInstanceAs (Decidable (_ = none))

theorem isListed_congr (h : fs'.toTerms = fs.toTerms) :
    fs'.IsListed location ↔ fs.IsListed location := by
  rw [IsListed, IsListed, h]

theorem listDir_eq_ok_iff :
    fs.listDir p = .ok location ↔
      fs.target? p = .ok (location, .dir) ∧ fs.IsListed location := by
  rw [listDir, IsListed]
  constructor
  · intro h
    split at h
    · cases h
    · next htarget =>
        split at h
        · cases h
        · next hlisted =>
            cases h
            exact ⟨htarget, hlisted⟩
    · cases h
  · rintro ⟨htarget, hlisted⟩
    rw [htarget]
    simp only [hlisted]

/-- The path leads to a directory that can be listed. -/
def Listable (fs : FileSystem) (p : Path) : Prop :=
  ∃ location, fs.listDir p = .ok location

theorem Listable.isDir (h : fs.Listable p) : fs.isDir p = true := by
  obtain ⟨location, hlist⟩ := h
  exact isDir_iff.mpr ⟨location, (listDir_eq_ok_iff.mp hlist).1⟩

theorem Listable.isListed (h : fs.Listable p) (htarget : fs.target? p = .ok (location, .dir)) :
    fs.IsListed location := by
  obtain ⟨location', hlist⟩ := h
  obtain ⟨htarget', hlisted⟩ := listDir_eq_ok_iff.mp hlist
  rw [htarget] at htarget'
  obtain ⟨rfl, -⟩ := Prod.mk.inj (Except.ok.inj htarget')
  exact hlisted

theorem canonical_eq_ok_iff :
    fs.canonical p = .ok location ↔ ∃ node, fs.target? p = .ok (location, node) := by
  rw [canonical]
  cases fs.target? p with
  | error e => exact ⟨nofun, fun ⟨_, h⟩ => nomatch h⟩
  | ok found =>
      refine ⟨fun h => ⟨found.2, ?_⟩, fun ⟨node, h⟩ => ?_⟩
      · rw [← Except.ok.inj h]
      · rw [Except.ok.inj h]
        rfl

/-- A directory cannot be opened for writing. -/
theorem createFile_of_isDir (h : fs.isDir p = true) : fs.createFile p = .error .isDirectory := by
  obtain ⟨location, htarget⟩ := isDir_iff.mp h
  rw [createFile, locate_eq_ok_iff.mpr (target?_eq_ok_iff.mp htarget)]

theorem opens_of_target? (h : fs.target? p = .ok (location, .dir)) : fs.Opens p location := by
  obtain ⟨-, hleads⟩ := target?_eq_ok_iff.mp h
  rcases p.steps_eq with hsteps | hsteps
  · rw [hsteps] at hleads
    exact hleads
  · rw [hsteps] at hleads
    exact Leads.withoutDots (n := 1) hleads

theorem Opens.isDirAt (h : fs.Opens p location) : fs.isDirAt location = true :=
  Leads.isDirAt_location h rfl

theorem Opens.unique {other : Location} (h : fs.Opens p location) (h' : fs.Opens p other) :
    location = other :=
  congrArg Place.location (Leads.unique h h')

theorem startOf_congr (fs : FileSystem) {q : Path} (h : p.isAbsolute = q.isAbsolute) :
    fs.startOf p = fs.startOf q := by
  rw [startOf, startOf, h]

theorem Opens.of_isAround (h : fs.Opens dir location) (haround : IsAround around dir) :
    fs.Opens around location := by
  obtain ⟨n, hnames⟩ := haround.names
  rw [Opens, hnames] at h
  rw [Opens, fs.startOf_congr haround.isAbsolute]
  exact h.withoutDots

/-- A path that may be looked up, if the directories on its way allow it. -/
def Fits (p : Path) : Prop :=
  IsPassable p ∧ ¬ maxNameBytes < byteLength p.fileName

instance (p : Path) : Decidable (Fits p) :=
  inferInstanceAs (Decidable (_ ∧ _))

/-- Where the path of an entry leads can be told from its directory. -/
theorem Opens.locate_join (h : fs.Opens dir location) (hname : IsEntryName name)
    (hfits : Fits (dir.join name))
    (hlink : ∀ target, fs.nodeAt? (location ++ [name]) ≠ some (.link target)) :
    fs.locate followLast (dir.join name) =
      .ok ⟨location ++ [name], fs.nodeAt? (location ++ [name])⟩ := by
  obtain ⟨left, -, hwalk⟩ := Leads.walkNames_append h
  refine locate_eq_ok_iff.mpr ⟨hfits.1, ?_⟩
  have hshort := hfits.2
  rw [Path.fileName_join dir hname] at hshort
  have looks : Looks fs location name :=
    ⟨h.isDirAt, hname.notCurrent, hname.notParent, hshort⟩
  rw [Path.steps_join dir hname.nonempty hname.noSlash,
    fs.startOf_congr (Path.isAbsolute_join dir hname.noSlash),
    ← walkNames_eq_ok_iff, hwalk _ (List.cons_ne_nil name []), walkNames_eq_ok_iff]
  cases hnode : fs.nodeAt? (location ++ [name]) with
  | none => exact .missing looks hnode
  | some found =>
      have hlast : fs.nodeAt? (location ++ [name]) = some found := hnode
      rw [← hlast]
      exact .enter looks hnode (fun target heq => hlink target (heq ▸ hnode)) .here

/-- A path of two parts leads through the directory between them. -/
theorem opens_of_locate_step (hne : name ≠ "") (hslash : '/' ∉ name.toList)
    (h : fs.locate followLast (dir.join name) = .ok place) :
    ∃ location, fs.Opens dir location ∧
      ∃ left ≤ maxLinks, Leads fs followLast left location [name] place := by
  obtain ⟨-, hleads⟩ := locate_eq_ok_iff.mp h
  rw [Path.steps_join dir hne hslash, fs.startOf_congr (Path.isAbsolute_join dir hslash)] at hleads
  obtain ⟨left, hleft, between, hopens, hlast⟩ := hleads.split (List.cons_ne_nil name [])
  exact ⟨between, hopens, left, hleft, hlast⟩

/-- The path of an entry leads through its directory. -/
theorem opens_of_locate_join (hname : IsEntryName name)
    (h : fs.locate followLast (dir.join name) = .ok place) :
    Fits (dir.join name) ∧ ∃ location, fs.Opens dir location ∧ Looks fs location name ∧
      ∃ left ≤ maxLinks, Leads fs followLast left location [name] place := by
  obtain ⟨location, hopens, left, hleft, hlast⟩ :=
    opens_of_locate_step hname.nonempty hname.noSlash h
  have looks : Looks fs location name := by
    cases hlast with
    | stay _ _ => exact absurd rfl hname.notCurrent
    | up _ _ => exact absurd rfl hname.notParent
    | missing looks _ => exact looks
    | unfollowed looks _ _ => exact looks
    | follow looks _ _ _ => exact looks
    | enter looks _ _ _ => exact looks
  refine ⟨⟨(locate_eq_ok_iff.mp h).1, ?_⟩, location, hopens, looks, left, hleft, hlast⟩
  rw [Path.fileName_join dir hname]
  exact looks.short

theorem locate_join_of_not_fits (fs : FileSystem) (followLast : Bool) (hname : IsEntryName name)
    (h : ¬ Fits (dir.join name)) :
    ∃ e, fs.locate followLast (dir.join name) = .error e := by
  cases hlocate : fs.locate followLast (dir.join name) with
  | error e => exact ⟨e, rfl⟩
  | ok place => exact absurd (opens_of_locate_join hname hlocate).1 h

/-- The path of an entry leads to the entry itself, if that is not followed. -/
theorem Opens.locate_entry (h : fs.Opens dir location) (hname : IsEntryName name)
    (hfits : Fits (dir.join name)) :
    fs.locate false (dir.join name) =
      .ok ⟨location ++ [name], fs.nodeAt? (location ++ [name])⟩ := by
  by_cases hlink : ∃ target, fs.nodeAt? (location ++ [name]) = some (.link target)
  · obtain ⟨target, hlink⟩ := hlink
    obtain ⟨left, -, hwalk⟩ := Leads.walkNames_append h
    have hshort := hfits.2
    rw [Path.fileName_join dir hname] at hshort
    refine locate_eq_ok_iff.mpr ⟨hfits.1, ?_⟩
    rw [Path.steps_join dir hname.nonempty hname.noSlash,
      fs.startOf_congr (Path.isAbsolute_join dir hname.noSlash),
      ← walkNames_eq_ok_iff, hwalk _ (List.cons_ne_nil name []), walkNames_eq_ok_iff, hlink]
    exact .unfollowed ⟨h.isDirAt, hname.notCurrent, hname.notParent, hshort⟩ hlink rfl
  · exact h.locate_join hname hfits fun target heq => hlink ⟨target, heq⟩

/-- An entry leads to itself, or is a link. -/
theorem location_of_entry {around : Location} (hopens : fs.Opens dir around)
    (hname : IsEntryName name) (h : fs.target? (dir.join name) = .ok (location, node)) :
    location = around ++ [name] ∨ ∃ target,
      fs.locate false (dir.join name) = .ok ⟨around ++ [name], some (.link target)⟩ := by
  obtain ⟨hp, hleads⟩ := target?_eq_ok_iff.mp h
  obtain ⟨⟨place, found⟩, hfirst, hplace⟩ := hleads.notFollowing
  have hlocate := locate_eq_ok_iff.mpr ⟨hp, hfirst⟩
  obtain ⟨-, around', hopens', -, left, -, hlast⟩ := opens_of_locate_join hname hlocate
  obtain rfl := hopens.unique hopens'
  obtain ⟨-, rfl⟩ := hlast.location_of_last hname
  rcases hplace with heq | ⟨target, rfl⟩
  · exact .inl (congrArg Place.location heq).symm
  · exact .inr ⟨target, hlocate⟩

/-- A path of an entry that is too long to be looked up, or ends in a name that is. -/
def IsOverlong (p : Path) : Prop :=
  ∃ dir name, p = Path.join dir name ∧ IsEntryName name ∧ ¬ Fits p

theorem IsOverlong.locate (h : IsOverlong p) (fs : FileSystem) (followLast : Bool) :
    ∃ e, fs.locate followLast p = .error e := by
  obtain ⟨dir, name, rfl, hname, hlong⟩ := h
  exact locate_join_of_not_fits fs followLast hname hlong

theorem IsOverlong.target? (h : IsOverlong p) (fs : FileSystem) :
    ∃ e, fs.target? p = .error e := by
  obtain ⟨e, hlocate⟩ := h.locate fs true
  exact ⟨e, by rw [FileSystem.target?, hlocate]⟩

/-! ## Ways that survive a change -/

/-- A link at an entry of a directory leads to a directory, however many links
it takes. -/
def PointsToDir (fs : FileSystem) (current : Location) (target : Path) : Prop :=
  ∃ links location, Leads fs true links (if target.isAbsolute then [] else current) target.steps
    ⟨location, some .dir⟩

theorem pointsToDir_of_append {target : Path}
    (h : Leads fs true links (if target.isAbsolute then [] else current) (target.steps ++ rest)
      place) (hdir : place.node = some .dir) : PointsToDir fs current target := by
  by_cases hrest : rest = []
  · subst hrest
    rw [List.append_nil] at h
    obtain ⟨location, node⟩ := place
    obtain rfl : node = some .dir := hdir
    exact ⟨links, location, h⟩
  · obtain ⟨_, -, between, hfirst, -⟩ := h.split hrest
    exact ⟨links, between, hfirst⟩

/-- A way to a directory stays when directories stay, and every link that leads
to a directory, before and after. -/
theorem Leads.keepDir (h : Leads fs true links current names place)
    (hdir : place.node = some .dir)
    (hdirs : ∀ location, fs.isDirAt location = true → fs'.isDirAt location = true)
    (hlinks : ∀ current name target, fs.nodeAt? (current ++ [name]) = some (.link target) →
      fs'.nodeAt? (current ++ [name]) = some (.link target) ∨
        ¬ PointsToDir fs current target ∨ ¬ PointsToDir fs' current target) :
    Leads fs' true links current names place := by
  have hlooks : ∀ {current name}, Looks fs current name → Looks fs' current name :=
    fun looks => ⟨hdirs _ looks.isDir, looks.notCurrent, looks.notParent, looks.short⟩
  induction h with
  | @here _ current =>
      have hcurrent : fs.nodeAt? current = some .dir := hdir
      have hstays : fs'.nodeAt? current = some .dir :=
        beq_iff_eq.mp (hdirs current (beq_iff_eq.mpr hcurrent))
      rw [hcurrent, ← hstays]
      exact .here
  | stay isDir _ ih => exact .stay (hdirs _ isDir) (ih hdir)
  | up isDir _ ih => exact .up (hdirs _ isDir) (ih hdir)
  | missing _ _ => cases hdir
  | unfollowed _ _ keep => cases keep
  | @follow _ current name rest target place looks node goesOn more ih =>
      have hmore := ih hdir
      rcases hlinks current name target node with hsame | hbefore | hafter
      · exact .follow (hlooks looks) hsame goesOn hmore
      · exact absurd (pointsToDir_of_append more hdir) hbefore
      · exact absurd (pointsToDir_of_append hmore hdir) hafter
  | @enter _ current name _ found _ looks node noLink more ih =>
      have hnext : fs.isDirAt (current ++ [name]) = true := more.isDirAt_of_dir hdir
      have hstays : fs'.nodeAt? (current ++ [name]) = some .dir := beq_iff_eq.mp (hdirs _ hnext)
      exact .enter (hlooks looks) hstays nofun (ih hdir)

/-- The same for the path of a directory. -/
theorem target?_keep (h : fs.target? p = .ok (location, .dir))
    (hworkingDir : fs'.workingDir = fs.workingDir)
    (hdirs : ∀ location, fs.isDirAt location = true → fs'.isDirAt location = true)
    (hlinks : ∀ current name target, fs.nodeAt? (current ++ [name]) = some (.link target) →
      fs'.nodeAt? (current ++ [name]) = some (.link target) ∨
        ¬ PointsToDir fs current target ∨ ¬ PointsToDir fs' current target) :
    fs'.target? p = .ok (location, .dir) := by
  obtain ⟨hp, hleads⟩ := target?_eq_ok_iff.mp h
  have hstart : fs'.startOf p = fs.startOf p := by
    rw [startOf, startOf, hworkingDir]
  refine target?_eq_ok_iff.mpr ⟨hp, ?_⟩
  rw [hstart]
  exact hleads.keepDir rfl hdirs hlinks

end FileSystem

end RaceSkeletons
