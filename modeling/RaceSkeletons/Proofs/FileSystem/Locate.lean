import RaceSkeletons.FileSystem.Basic
import RaceSkeletons.Proofs.Path.Join

/-!
# Where paths lead

The ways a path can be resolved, as a relation with one rule for each kind
of step (`FileSystem.Leads`). It holds exactly of what `walkNames` answers
(`FileSystem.walkNames_eq_ok_iff`), so facts about resolved paths are proved
by induction on the steps.

A file system is well-formed (`FileSystem.WellFormed`) when no location
stands for two entries and all names are names that an entry can have.
-/

namespace RaceSkeletons

open RaceSkeletons.Path (IsEntryName)

/-! ## Names on the way -/

/-- A name to walk through: not empty and without a slash. Dots are allowed. -/
structure IsStep (name : String) : Prop where
  nonempty : name ≠ ""
  noSlash : '/' ∉ name.toList

theorem IsStep.isEntryName {name : String} (h : IsStep name) (hdot : name ≠ ".")
    (hdots : name ≠ "..") : IsEntryName name :=
  ⟨h.nonempty, hdot, hdots, h.noSlash⟩

theorem Path.isStep_of_mem_steps {p : Path} {name : String} (h : name ∈ p.steps) :
    IsStep name := by
  have hfilter : name ∈ p.segments.filter (· ≠ "") → IsStep name := by
    intro hmem
    obtain ⟨hsegment, hne⟩ := List.mem_filter.mp hmem
    exact ⟨of_decide_eq_true hne, Path.no_slash_of_mem_segments hsegment⟩
  simp only [Path.steps] at h
  split at h
  · rcases List.mem_append.mp h with hmem | hlast
    · exact hfilter hmem
    · rw [List.mem_singleton.mp hlast]
      exact ⟨by decide, by decide⟩
  · exact hfilter h

namespace FileSystem

variable {fs fs' : FileSystem} {followLast : Bool} {links : Nat} {current location : Location}
  {names rest : List String} {place : Place} {node : Node}

/-! ## The steps of a walk -/

/-- What is needed to look for an entry: a directory, and a name that is no
dot and not too long. -/
structure Looks (fs : FileSystem) (current : Location) (name : String) : Prop where
  isDir : fs.isDirAt current = true
  notCurrent : name ≠ "."
  notParent : name ≠ ".."
  short : ¬ maxNameBytes < byteLength name

/-- Names that lead from a directory to a place, with a number of links that
may be followed. -/
inductive Leads (fs : FileSystem) (followLast : Bool) :
    Nat → Location → List String → Place → Prop where
  | here {links : Nat} {current : Location} :
      Leads fs followLast links current [] ⟨current, fs.nodeAt? current⟩
  | stay {links : Nat} {current : Location} {rest : List String} {place : Place}
      (isDir : fs.isDirAt current = true)
      (more : Leads fs followLast links current rest place) :
      Leads fs followLast links current ("." :: rest) place
  | up {links : Nat} {current : Location} {rest : List String} {place : Place}
      (isDir : fs.isDirAt current = true)
      (more : Leads fs followLast links current.dropLast rest place) :
      Leads fs followLast links current (".." :: rest) place
  /-- The last name may be missing. -/
  | missing {links : Nat} {current : Location} {name : String}
      (looks : Looks fs current name) (node : fs.nodeAt? (current ++ [name]) = none) :
      Leads fs followLast links current [name] ⟨current ++ [name], none⟩
  /-- The last name may be a link that is not followed. -/
  | unfollowed {links : Nat} {current : Location} {name : String} {target : Path}
      (looks : Looks fs current name) (node : fs.nodeAt? (current ++ [name]) = some (.link target))
      (keep : followLast = false) :
      Leads fs followLast links current [name] ⟨current ++ [name], some (.link target)⟩
  | follow {links : Nat} {current : Location} {name : String} {rest : List String}
      {target : Path} {place : Place} (looks : Looks fs current name)
      (node : fs.nodeAt? (current ++ [name]) = some (.link target))
      (goesOn : ¬ (rest = [] ∧ followLast = false))
      (more : Leads fs followLast links (if target.isAbsolute then [] else current)
        (target.steps ++ rest) place) :
      Leads fs followLast (links + 1) current (name :: rest) place
  | enter {links : Nat} {current : Location} {name : String} {rest : List String}
      {found : Node} {place : Place} (looks : Looks fs current name)
      (node : fs.nodeAt? (current ++ [name]) = some found) (noLink : ∀ target, found ≠ .link target)
      (more : Leads fs followLast links (current ++ [name]) rest place) :
      Leads fs followLast links current (name :: rest) place

theorem walkNames_of_looks {name : String} (h : Looks fs current name) :
    fs.walkNames followLast links current (name :: rest) =
      match fs.nodeAt? (current ++ [name]) with
      | none =>
        if rest = [] then .ok ⟨current ++ [name], none⟩ else .error .notFound
      | some (.link target) =>
        if rest = [] ∧ followLast = false then .ok ⟨current ++ [name], some (.link target)⟩
        else
          match links with
          | 0 => .error .tooManyLinks
          | links + 1 =>
            fs.walkNames followLast links (if target.isAbsolute then [] else current)
              (target.steps ++ rest)
      | some _ => fs.walkNames followLast links (current ++ [name]) rest := by
  rw [walkNames.eq_4 fs followLast links current name rest h.notCurrent h.notParent, h.isDir,
    if_neg h.short]
  rfl

theorem walkNames_of_leads (h : Leads fs followLast links current names place) :
    fs.walkNames followLast links current names = .ok place := by
  induction h with
  | here => rw [walkNames]
  | stay isDir _ ih => rw [walkNames, if_pos isDir, ih]
  | up isDir _ ih => rw [walkNames, if_pos isDir, ih]
  | missing looks node =>
      rw [walkNames_of_looks looks, node]
      rfl
  | unfollowed looks node keep =>
      rw [walkNames_of_looks looks, node]
      exact if_pos ⟨rfl, keep⟩
  | follow looks node goesOn _ ih =>
      rw [walkNames_of_looks looks, node]
      exact (if_neg goesOn).trans ih
  | @enter _ current name rest found place looks node noLink _ ih =>
      rw [walkNames_of_looks looks, node]
      cases found with
      | link target => exact absurd rfl (noLink target)
      | _ => exact ih

theorem leads_of_walkNames (h : fs.walkNames followLast links current names = .ok place) :
    Leads fs followLast links current names place := by
  fun_induction walkNames fs followLast links current names with
  | case1 links current =>
      cases h
      exact .here
  | case2 links current rest isDir ih => exact .stay isDir (ih h)
  | case4 links current rest isDir ih => exact .up isDir (ih h)
  | case8 links current name notCurrent notParent isDir short next node =>
      cases h
      exact .missing ⟨by simpa using isDir, notCurrent, notParent, short⟩ node
  | case10 links current name rest notCurrent notParent isDir short next target node last =>
      cases h
      obtain ⟨rfl, keep⟩ := last
      exact .unfollowed ⟨by simpa using isDir, notCurrent, notParent, short⟩ node keep
  | case12 current name rest notCurrent notParent isDir short next target node goesOn links ih =>
      exact .follow ⟨by simpa using isDir, notCurrent, notParent, short⟩ node goesOn (ih h)
  | case13 links current name rest notCurrent notParent isDir short next found noLink node ih =>
      exact .enter ⟨by simpa using isDir, notCurrent, notParent, short⟩ node noLink (ih h)
  | _ => cases h

/-- The relation holds exactly of the places that names lead to. -/
theorem walkNames_eq_ok_iff :
    fs.walkNames followLast links current names = .ok place ↔
      Leads fs followLast links current names place :=
  ⟨leads_of_walkNames, walkNames_of_leads⟩

/-- A path that can be given to the system: it has no NUL character, is not
empty and not too long. -/
def IsPassable (p : Path) : Prop :=
  p.text.toList.contains '\x00' = false ∧ p.text ≠ "" ∧ ¬ maxPathBytes < byteLength p.text

instance (p : Path) : Decidable (IsPassable p) :=
  inferInstanceAs (Decidable (_ ∧ _ ∧ _))

/-- Where a path starts. -/
def startOf (fs : FileSystem) (p : Path) : Location :=
  if p.isAbsolute then [] else fs.workingDir

theorem locate_eq_ok_iff {p : Path} :
    fs.locate followLast p = .ok place ↔
      IsPassable p ∧ Leads fs followLast maxLinks (fs.startOf p) p.steps place := by
  rw [← walkNames_eq_ok_iff, locate, startOf, IsPassable]
  constructor
  · intro h
    split at h
    · cases h
    · split at h
      · cases h
      · split at h
        · cases h
        · exact ⟨⟨by simp_all, ‹_›, ‹_›⟩, h⟩
  · rintro ⟨⟨hnul, htext, hshort⟩, hwalk⟩
    rw [hnul, if_neg htext, if_neg hshort]
    exact hwalk

theorem Leads.node_eq (h : Leads fs followLast links current names place) :
    place.node = fs.nodeAt? place.location := by
  induction h with
  | here => rfl
  | stay _ _ ih => exact ih
  | up _ _ ih => exact ih
  | missing _ node => exact node.symm
  | unfollowed _ node _ => exact node.symm
  | follow _ _ _ _ ih => exact ih
  | enter _ _ _ _ ih => exact ih

/-! ## Well-formed file systems -/

/-- What holds of every tree that a system keeps: no location stands for two
entries, and every name can be the name of an entry. -/
structure WellFormed (fs : FileSystem) : Prop where
  distinct : (fs.entries.map (·.location)).Nodup
  entryNames : ∀ entry ∈ fs.entries, ∀ name ∈ entry.location, IsEntryName name
  workingDirNames : ∀ name ∈ fs.workingDir, IsEntryName name

/-- Names lead only to locations with names of entries. -/
theorem Leads.entryNames (h : Leads fs followLast links current names place)
    (hcurrent : ∀ name ∈ current, IsEntryName name) (hnames : ∀ name ∈ names, IsStep name) :
    ∀ name ∈ place.location, IsEntryName name := by
  have hnext : ∀ {current : Location} {name : String}, Looks fs current name → IsStep name →
      (∀ name ∈ current, IsEntryName name) → ∀ other ∈ current ++ [name], IsEntryName other := by
    intro current name looks hstep hcurrent other hmem
    rcases List.mem_append.mp hmem with hmem | hlast
    · exact hcurrent other hmem
    · rw [List.mem_singleton.mp hlast]
      exact hstep.isEntryName looks.notCurrent looks.notParent
  induction h with
  | here => exact hcurrent
  | stay _ _ ih => exact ih hcurrent fun name hmem => hnames name (List.mem_cons_of_mem _ hmem)
  | up _ _ ih =>
      exact ih (fun name hmem => hcurrent name (List.dropLast_subset _ hmem))
        fun name hmem => hnames name (List.mem_cons_of_mem _ hmem)
  | missing looks _ => exact hnext looks (hnames _ List.mem_cons_self) hcurrent
  | unfollowed looks _ _ => exact hnext looks (hnames _ List.mem_cons_self) hcurrent
  | follow looks _ _ _ ih =>
      refine ih ?_ ?_
      · split
        · exact fun name hmem => absurd hmem List.not_mem_nil
        · exact hcurrent
      · intro name hmem
        rcases List.mem_append.mp hmem with htarget | hrest
        · exact Path.isStep_of_mem_steps htarget
        · exact hnames name (List.mem_cons_of_mem _ hrest)
  | enter looks _ _ _ ih =>
      exact ih (hnext looks (hnames _ List.mem_cons_self) hcurrent)
        fun name hmem => hnames name (List.mem_cons_of_mem _ hmem)

theorem WellFormed.entryNames_of_locate (hwf : fs.WellFormed) {p : Path}
    (h : fs.locate followLast p = .ok place) : ∀ name ∈ place.location, IsEntryName name := by
  obtain ⟨-, hleads⟩ := locate_eq_ok_iff.mp h
  refine hleads.entryNames ?_ fun name hmem => Path.isStep_of_mem_steps hmem
  rw [startOf]
  split
  · exact fun name hmem => absurd hmem List.not_mem_nil
  · exact hwf.workingDirNames

theorem node_eq_of_locate {p : Path} (h : fs.locate followLast p = .ok place) :
    place.node = fs.nodeAt? place.location :=
  (locate_eq_ok_iff.mp h).2.node_eq

/-! ## Entries of a directory -/

theorem childName?_eq_some_iff {location : Location} {e : Entry} {name : String} :
    childName? location e = some name ↔ e.location = location ++ [name] := by
  rw [childName?]
  constructor
  · intro h
    split at h
    · cases h
    · split at h
      · next heq =>
          cases h
          exact heq
      · cases h
  · intro h
    rw [h, List.getLast?_concat]
    exact if_pos rfl

theorem WellFormed.nodup_children (hwf : fs.WellFormed) (location : Location) :
    ((fs.children location).map (·.1)).Nodup := by
  rw [children, List.Nodup, List.pairwise_map, List.pairwise_filterMap]
  refine (List.pairwise_map.mp hwf.distinct).imp fun {a b} hne => ?_
  rintro ⟨name, node⟩ ha ⟨name', node'⟩ hb rfl
  obtain ⟨_, hname, heq⟩ := Option.map_eq_some_iff.mp ha
  obtain ⟨_, hname', heq'⟩ := Option.map_eq_some_iff.mp hb
  obtain rfl := congrArg Prod.fst heq
  obtain rfl := congrArg Prod.fst heq'
  exact hne ((childName?_eq_some_iff.mp hname).trans (childName?_eq_some_iff.mp hname').symm)

theorem WellFormed.isEntryName_of_children (hwf : fs.WellFormed) {location : Location}
    {child : String × Node} (h : child ∈ fs.children location) : IsEntryName child.1 := by
  obtain ⟨entry, hentry, hchild⟩ := List.mem_filterMap.mp h
  obtain ⟨name, hname, rfl⟩ := Option.map_eq_some_iff.mp hchild
  refine hwf.entryNames entry hentry name ?_
  rw [childName?_eq_some_iff.mp hname]
  exact List.mem_append_right location (List.mem_singleton_self name)

/-! ## Paths without detours -/

/-- Whether names lead down from a directory: through directories, past no
link, and by no dot. The last name may be missing. -/
def goesDown (fs : FileSystem) : Location → List String → Bool
  | _, [] => true
  | current, name :: rest =>
    fs.isDirAt current && name ≠ "." && name ≠ ".." && byteLength name ≤ maxNameBytes &&
      match fs.nodeAt? (current ++ [name]) with
      | none => rest.isEmpty
      | some (.link _) => false
      | some _ => goesDown fs (current ++ [name]) rest

/-- Names that go down lead to where they say. -/
theorem leads_of_goesDown (h : fs.goesDown current names = true) :
    Leads fs followLast links current names
      ⟨current ++ names, fs.nodeAt? (current ++ names)⟩ := by
  induction names generalizing current with
  | nil =>
      rw [List.append_nil]
      exact .here
  | cons name rest ih =>
      simp only [goesDown, Bool.and_eq_true, decide_eq_true_eq] at h
      obtain ⟨⟨⟨⟨isDir, notCurrent⟩, notParent⟩, short⟩, more⟩ := h
      have looks : Looks fs current name := ⟨isDir, notCurrent, notParent, Nat.not_lt.mpr short⟩
      cases hnode : fs.nodeAt? (current ++ [name]) with
      | none =>
          rw [hnode] at more
          obtain rfl := List.isEmpty_iff.mp more
          rw [hnode]
          exact .missing looks hnode
      | some found =>
          rw [hnode] at more
          rw [List.append_cons]
          cases found with
          | link target => cases more
          | _ => exact .enter looks hnode nofun (ih more)

theorem locate_of_goesDown {p : Path} (hp : IsPassable p)
    (hdown : fs.goesDown (fs.startOf p) p.steps = true)
    (hlocation : fs.startOf p ++ p.steps = location) :
    fs.locate followLast p = .ok ⟨location, fs.nodeAt? location⟩ := by
  subst hlocation
  exact locate_eq_ok_iff.mpr ⟨hp, leads_of_goesDown hdown⟩

theorem target?_of_goesDown {p : Path}
    (h : IsPassable p ∧ fs.goesDown (fs.startOf p) p.steps = true ∧
      fs.startOf p ++ p.steps = location ∧ fs.nodeAt? location = some node) :
    fs.target? p = .ok (location, node) := by
  obtain ⟨hp, hdown, hlocation, hnode⟩ := h
  rw [target?, locate_of_goesDown hp hdown hlocation, hnode]

end FileSystem

end RaceSkeletons
