import RaceSkeletons.Proofs.Corpus.Under

/-!
# The order of a walk

Two files that a walk meets have ways that part in some directory, at two of its
entries (`FileSystem.Parts`), and the order in which that directory lists its entries
decides which file comes first (`FileSystem.WellFormed.pairwise_files_walk`). It sees
a link to a directory as no directory, although the walk goes on below it.
-/

namespace RaceSkeletons

open RaceSkeletons.Path (IsEntryName)

/-! ## Names on the way -/

/-- The names that lead from a path down to another one. -/
def Path.namesTo (root p : Path) : List String :=
  (p.components.drop root.components.length).map Path.Component.nameText

theorem Path.below_append (p : Path) (names more : List String) :
    p.below (names ++ more) = (p.below names).below more :=
  List.foldl_append

theorem Path.components_below (p : Path) {names : List String}
    (h : ∀ name ∈ names, IsEntryName name) :
    (p.below names).components = p.components ++ names.map .normal := by
  induction names generalizing p with
  | nil => exact (List.append_nil _).symm
  | cons name names ih =>
      obtain ⟨hname, hnames⟩ := List.forall_mem_cons.mp h
      have hbelow : p.below (name :: names) = (p.join name).below names := rfl
      rw [hbelow, ih (p.join name) hnames, Path.components_join p hname, List.append_assoc]
      rfl

theorem Path.namesTo_below (p : Path) {names : List String}
    (h : ∀ name ∈ names, IsEntryName name) : p.namesTo (p.below names) = names := by
  rw [namesTo, Path.components_below p h, List.drop_left, List.map_map]
  exact List.map_id names

namespace FileSystem

variable {fs fs' : FileSystem} {root dir p q : Path} {location : Location} {node : Node}
  {order : EntryOrder} {x y : String} {names below below' : List String}

/-! ## Where two ways part -/

/-- Whether a link stands at a location. -/
def isLinkAt (fs : FileSystem) (location : Location) : Bool :=
  (fs.nodeAt? location).any Node.isLink

/-- A way to a file goes on behind an entry: below a directory or a link, by the names
`below`. The way may end at the entry, if that is no directory. -/
structure LeadsOn (fs : FileSystem) (location : Location) (name : String) (below : List String) :
    Prop where
  isEntry : fs.nodeAt? (location ++ [name]) ≠ none
  ofDir : fs.isDirAt (location ++ [name]) = true → below ≠ []
  ofBelow : below ≠ [] → fs.isDirAt (location ++ [name]) = true ∨
    fs.isLinkAt (location ++ [name]) = true

/-- The ways down from a root to two files part in the directory at `location`: one goes
on by its entry `x`, the other one by its entry `y`. -/
structure Parts (fs : FileSystem) (root p q : Path) (location : Location) (x y : String)
    (below below' : List String) : Prop where
  around : ∃ common, fs.target? (root.below common) = .ok (location, .dir) ∧
    root.namesTo p = common ++ x :: below ∧ root.namesTo q = common ++ y :: below'
  left : fs.LeadsOn location x below
  right : fs.LeadsOn location y below'
  ne : x ≠ y

/-- Two entries in the order of `filesFirst`, which sees a link as no directory. -/
def ListsFirst (fs : FileSystem) (location : Location) (x y : String) : Prop :=
  if fs.isDirAt (location ++ [x]) = fs.isDirAt (location ++ [y]) then x < y
  else fs.isDirAt (location ++ [y]) = true

/-- A file comes before another one by the entries at which their ways part. -/
def ListedBefore (fs : FileSystem) (root p q : Path) : Prop :=
  ∃ location x y below below', fs.Parts root p q location x y below below' ∧
    fs.ListsFirst location x y

theorem filesFirst_eq (a b : String × Node) :
    filesFirst a b = if (a.2 == .dir) = (b.2 == .dir) then byName a b else b.2 == .dir := by
  simp only [filesFirst]
  cases a.2 == .dir <;> cases b.2 == .dir <;> rfl

theorem byName_iff {a b : String × Node} : byName a b = true ↔ a.1 ≤ b.1 :=
  Std.LawfulBCmp.isLE_iff_le

theorem filesFirst_trans (a b c : String × Node) (hab : filesFirst a b = true)
    (hbc : filesFirst b c = true) : filesFirst a c = true := by
  have htrans : byName a b = true → byName b c = true → byName a c = true := by
    simp only [byName_iff]
    exact le_trans
  rw [filesFirst_eq] at hab hbc ⊢
  revert hab hbc
  cases a.2 == .dir <;> cases b.2 == .dir <;> cases c.2 == .dir <;> simp_all

theorem filesFirst_total (a b : String × Node) : (filesFirst a b || filesFirst b a) = true := by
  rw [filesFirst_eq, filesFirst_eq]
  have htotal : byName a b = true ∨ byName b a = true := by
    simp only [byName_iff]
    exact le_total a.1 b.1
  cases a.2 == .dir <;> cases b.2 == .dir <;> simp_all

/-- Two entries that are told apart by their names are listed in order. -/
theorem listsFirst_of_filesFirst {a b : String × Node}
    (ha : fs.nodeAt? (location ++ [a.1]) = some a.2)
    (hb : fs.nodeAt? (location ++ [b.1]) = some b.2) (hne : a.1 ≠ b.1)
    (h : filesFirst a b = true) : fs.ListsFirst location a.1 b.1 := by
  have hname : byName a b = true → a.1 < b.1 := fun hle =>
    lt_of_le_of_ne (byName_iff.mp hle) hne
  have hdir : ∀ node : Node, (some node == some Node.dir) = (node == .dir) := fun node => rfl
  rw [filesFirst_eq] at h
  simp only [ListsFirst, isDirAt, ha, hb, hdir]
  cases hx : a.2 == .dir <;> cases hy : b.2 == .dir <;> simp_all

/-! ## The order of a walk -/

theorem isDirOrLink_of_visitNode {ways : List (Path × Location)}
    (h : fs.visitNode ways p node = .ok .dir) : node = .dir ∨ node.isLink = true := by
  cases hlink : node.isLink with
  | true => exact .inr rfl
  | false =>
      rw [visitNode_of_not_isLink hlink] at h
      exact .inl (Except.ok.inj h)

/-- A walk meets files below its start, or the start itself. -/
theorem WellFormed.exists_below_of_walkWithin (hwf : fs.WellFormed) {depth : Nat}
    {ways : List (Path × Location)} (hfile : .file p ∈ fs.walkWithin order depth ways dir node) :
    ∃ names, (∀ name ∈ names, IsEntryName name) ∧ p = dir.below names ∧
      (names = [] → fs.ShowsFile dir node) ∧
      (names ≠ [] → node = .dir ∨ node.isLink = true) := by
  -- at every path on the way, the names that lead there
  let IsBelow : List (Path × Location) → Path → Node → Prop := fun _ q there =>
    ∃ names, (∀ name ∈ names, IsEntryName name) ∧ q = dir.below names ∧
      (names = [] → there = node) ∧ (names ≠ [] → node = .dir ∨ node.isLink = true)
  have hentry : ∀ ways q outer location name there, IsBelow ways q outer →
      fs.visitNode ways q outer = .ok .dir → fs.listDir q = .ok location →
        fs.nodeAt? (location ++ [name]) = some there →
          IsBelow ((q, location) :: ways) (q.join name) there := by
    rintro ways q outer location name there ⟨names, hnames, rfl, hstart, hgoesOn⟩ hvisit _ hnode
    refine ⟨names ++ [name], ?_, (Path.below_concat dir names name).symm, fun hnil => ?_,
      fun _ => ?_⟩
    · exact List.forall_mem_append.mpr ⟨hnames, List.forall_mem_singleton.mpr
        (hwf.isEntryName hnode)⟩
    · exact absurd hnil (List.concat_ne_nil _ _)
    · by_cases hnil : names = []
      · exact hstart hnil ▸ isDirOrLink_of_visitNode hvisit
      · exact hgoesOn hnil
  have hstart : IsBelow ways dir node :=
    ⟨[], List.forall_mem_nil _, rfl, fun _ => rfl, fun hne => absurd rfl hne⟩
  obtain ⟨-, there, ⟨names, hnames, rfl, hsame, hgoesOn⟩, hshows⟩ :=
    hwf.walkWithin_induction hentry hstart hfile
  refine ⟨names, hnames, rfl, ?_, hgoesOn⟩
  rintro rfl
  exact hsame rfl ▸ hshows

/-- The way to a file that is met below an entry goes on behind the entry. -/
theorem WellFormed.leadsOn_of_walkWithin (hwf : fs.WellFormed) {depth : Nat}
    {ways : List (Path × Location)} (hentry : fs.nodeAt? (location ++ [x]) = some node)
    (hfile : .file p ∈ fs.walkWithin order depth ways (dir.join x) node) :
    ∃ below, (∀ name ∈ below, IsEntryName name) ∧ p = (dir.join x).below below ∧
      fs.LeadsOn location x below := by
  obtain ⟨below, hnames, hp, hend, hgoesOn⟩ := hwf.exists_below_of_walkWithin hfile
  refine ⟨below, hnames, hp, hentry ▸ Option.some_ne_none node, fun hisDir hnil => ?_,
    fun hne => ?_⟩
  · obtain rfl : node = .dir := Option.some.inj (hentry.symm.trans (beq_iff_eq.mp hisDir))
    rcases hend hnil with hregular | ⟨hlink, -⟩
    · cases hregular
    · cases hlink
  · rcases hgoesOn hne with rfl | hlink
    · exact .inl (beq_iff_eq.mpr hentry)
    · exact .inr (by rwa [isLinkAt, hentry])

/-- The names that lead to a file that is met below an entry. -/
theorem WellFormed.exists_namesTo_of_entry (hwf : fs.WellFormed) {depth : Nat}
    {ways : List (Path × Location)} {common : List String} {child : String × Node}
    (hcommon : ∀ name ∈ common, IsEntryName name)
    (hchild : child ∈ fs.children location)
    (hfile : .file p ∈ fs.walkWithin order depth ways ((root.below common).join child.1)
      child.2) :
    ∃ below, root.namesTo p = common ++ child.1 :: below ∧ fs.LeadsOn location child.1 below := by
  obtain ⟨below, hbelow, rfl, hleads⟩ :=
    hwf.leadsOn_of_walkWithin (hwf.mem_children.mp hchild) hfile
  have hname := hwf.isEntryName_of_children hchild
  refine ⟨below, ?_, hleads⟩
  rw [← Path.below_concat, ← Path.below_append, List.append_assoc]
  exact Path.namesTo_below root (List.forall_mem_append.mpr
    ⟨hcommon, List.forall_mem_cons.mpr ⟨hname, hbelow⟩⟩)

/-- A directory lists its entries in order, each of them once. -/
theorem WellFormed.pairwise_children (hwf : fs.WellFormed) (location : Location) :
    ((fs.children location).mergeSort filesFirst).Pairwise fun a b =>
      a.1 ≠ b.1 ∧ fs.ListsFirst location a.1 b.1 := by
  have hsorted : ((fs.children location).mergeSort filesFirst).Pairwise
      fun a b => filesFirst a b = true :=
    List.pairwise_mergeSort filesFirst_trans filesFirst_total _
  have hnames : (((fs.children location).mergeSort filesFirst).map (·.1)).Nodup :=
    ((List.mergeSort_perm _ _).map _).nodup_iff.mpr (hwf.nodup_children location)
  refine (hsorted.and (List.pairwise_map.mp hnames)).imp_of_mem fun {a b} ha hb hpair => ?_
  obtain ⟨hab, hne⟩ := hpair
  exact ⟨hne, listsFirst_of_filesFirst (hwf.mem_children.mp (List.mem_mergeSort.mp ha))
    (hwf.mem_children.mp (List.mem_mergeSort.mp hb)) hne hab⟩

/-- Files come in the order in which the directory where their ways part lists its
entries. -/
theorem WellFormed.pairwise_walkWithin (hwf : fs.WellFormed) (root : Path) (depth : Nat)
    (ways : List (Path × Location)) {common : List String}
    (hcommon : ∀ name ∈ common, IsEntryName name) (node : Node) :
    ((fs.walkWithin filesFirst depth ways (root.below common) node).filterMap
      Visit.file?).Pairwise (fs.ListedBefore root) := by
  induction depth generalizing ways common node with
  | zero => exact List.Pairwise.nil
  | succ depth ih =>
      rw [walkWithin]
      split
      · exact List.Pairwise.nil
      · split
        · exact List.Pairwise.nil
        · next location hlist =>
            have hdir := (listDir_eq_ok_iff.mp hlist).1
            rw [List.filterMap_cons_none rfl, List.filterMap_flatMap, List.pairwise_flatMap]
            constructor
            · intro child hchild
              rw [← Path.below_concat]
              refine ih _ (List.forall_mem_append.mpr
                ⟨hcommon, List.forall_mem_singleton.mpr ?_⟩) _
              exact hwf.isEntryName_of_children (List.mem_mergeSort.mp hchild)
            · refine (hwf.pairwise_children location).imp_of_mem
                fun {a b} ha hb hpair p hp q hq => ?_
              obtain ⟨hne, hlists⟩ := hpair
              obtain ⟨below, hnames, hleft⟩ := hwf.exists_namesTo_of_entry hcommon
                (List.mem_mergeSort.mp ha) (mem_files_iff.mp hp)
              obtain ⟨below', hnames', hright⟩ := hwf.exists_namesTo_of_entry hcommon
                (List.mem_mergeSort.mp hb) (mem_files_iff.mp hq)
              exact ⟨location, a.1, b.1, below, below',
                ⟨⟨common, hdir, hnames, hnames'⟩, hleft, hright, hne⟩, hlists⟩
      · split
        · exact List.pairwise_singleton _ _
        · exact List.Pairwise.nil

/-- Two files of a walk come in the order of the entries at which their ways part. -/
theorem WellFormed.pairwise_files_walk (hwf : fs.WellFormed) (root : Path) :
    ((fs.walk filesFirst root).filterMap Visit.file?).Pairwise (fs.ListedBefore root) := by
  have hnone : ∀ name ∈ ([] : List String), IsEntryName name := List.forall_mem_nil _
  rw [walk]
  split
  · exact List.Pairwise.nil
  · exact List.Pairwise.nil
  · exact hwf.pairwise_walkWithin root fs.walkDepth [] hnone _

end FileSystem

end RaceSkeletons
