import RaceSkeletons.Proofs.Corpus.Blocks
import RaceSkeletons.Proofs.FileSystem.WalkOrder

/-!
# The order of the blocks

In the documented order the fragments of a directory come first, by name, and then what
lies in its subdirectories, by name (`comesFirst`). That order is told by the names on
the way to a fragment alone, so a link to a directory counts as a directory in it. The
walk, however, sees a link as no directory when it sorts a directory: what lies below
the link comes among the fragments, and before all plain directories
(`FileSystem.ListedBefore`).

The blocks are therefore in the documented order exactly if no link to a directory
stands before a fragment beside it or behind a plain directory beside it
(`FileSystem.LinksStandAside`).
-/

namespace RaceSkeletons

open FileSystem

/-! ## The documented order -/

/-- The documented order of two fragments, by the names that lead to them: where their
ways part, a fragment comes before a directory, and otherwise the names decide. -/
def comesFirst : List String → List String → Bool
  | x :: xs, y :: ys =>
    if x = y then comesFirst xs ys
    else if xs.isEmpty = ys.isEmpty then x < y
    else xs.isEmpty
  | _, _ => false

variable {xs ys common common' below below' : List String} {x y x' y' : String}

theorem comesFirst_append (hne : x ≠ y) :
    comesFirst (common ++ x :: below) (common ++ y :: below') =
      if below.isEmpty = below'.isEmpty then decide (x < y) else below.isEmpty := by
  induction common with
  | nil => simp [comesFirst, hne]
  | cons name common ih => simpa [comesFirst] using ih

/-- Of two fragments only one can come first. -/
theorem comesFirst_asymm (h : comesFirst xs ys = true) : comesFirst ys xs = false := by
  fun_induction comesFirst xs ys with
  | case1 x xs ys ih => simpa [comesFirst] using ih h
  | case2 x xs y ys hne hsame =>
      have hlt : ¬ y < x := lt_asymm (of_decide_eq_true h)
      simp [comesFirst, Ne.symm hne, hsame, hlt]
  | case3 x xs y ys hne hother =>
      have hys : ys.isEmpty = false := by simpa [h] using Ne.symm hother
      simp [comesFirst, Ne.symm hne, h, hys]
  | case4 => cases h

/-- Two ways part only once. -/
theorem parting_unique (hne : x ≠ y) (hne' : x' ≠ y')
    (hx : common ++ x :: below = common' ++ x' :: xs)
    (hy : common ++ y :: below' = common' ++ y' :: ys) :
    common = common' ∧ x = x' ∧ y = y' ∧ below = xs ∧ below' = ys := by
  induction common generalizing common' with
  | nil =>
      cases common' with
      | nil => simp_all
      | cons name common' =>
          obtain ⟨rfl, -⟩ := List.cons.inj hx
          exact absurd (List.cons.inj hy).1.symm hne
  | cons name common ih =>
      cases common' with
      | nil =>
          obtain ⟨rfl, -⟩ := List.cons.inj hx
          exact absurd (List.cons.inj hy).1 hne'
      | cons name' common' =>
          obtain ⟨rfl, htail⟩ := List.cons.inj hx
          obtain ⟨rfl, rest⟩ := ih htail (List.cons.inj hy).2
          exact ⟨rfl, rest⟩

/-- The documented order of fragments below a root. -/
def Path.ComesFirst (root p q : Path) : Prop :=
  comesFirst (root.namesTo p) (root.namesTo q) = true

instance (root p q : Path) : Decidable (root.ComesFirst p q) :=
  inferInstanceAs (Decidable (_ = true))

/-- Blocks in the documented order are told by which they are. -/
theorem Path.eq_of_comesFirst {root : Path} {blocks others : List Path}
    (h : blocks.Pairwise root.ComesFirst) (h' : others.Pairwise root.ComesFirst)
    (hmem : ∀ p, p ∈ blocks ↔ p ∈ others) : blocks = others := by
  have hasymm : ∀ p q, root.ComesFirst p q → ¬ root.ComesFirst q p := fun p q hpq hqp => by
    rw [Path.ComesFirst, comesFirst_asymm hpq] at hqp
    cases hqp
  have : Std.Irrefl root.ComesFirst := ⟨fun p hp => hasymm p p hp hp⟩
  have : Std.Antisymm root.ComesFirst := ⟨fun p q hpq hqp => absurd hqp (hasymm p q hpq)⟩
  exact h.eq_of_mem_iff h' hmem

namespace FileSystem

variable {fs fs' opened written : FileSystem} {root output p q : Path}
  {location location' : Location} {extension : String} {blocks : List Path}

/-! ## Links among directories and fragments -/

/-- Whether no link to a directory, with a block below it, stands before a block of a
fragment beside it, or behind a plain directory beside it that has a block below it. -/
def LinksStandAside (fs : FileSystem) (root : Path) (blocks : List Path) : Prop :=
  ∀ p ∈ blocks, ∀ q ∈ blocks, ∀ location link name below below',
    fs.Parts root p q location link name below below' →
    fs.isLinkAt (location ++ [link]) = true → below ≠ [] →
      (below' = [] → name < link) ∧ (fs.isDirAt (location ++ [name]) = true → link < name)

theorem not_isDirAt_of_isLinkAt (h : fs.isLinkAt location = true) :
    fs.isDirAt location = false := by
  rw [isLinkAt, Option.any_eq_true] at h
  obtain ⟨node, hnode, hlink⟩ := h
  rw [isDirAt, hnode]
  cases node <;> first | rfl | cases hlink

namespace Parts

variable (h : fs.Parts root p q location x y below below')

include h

theorem unique (h' : fs.Parts root p q location' x' y' xs ys) :
    location = location' ∧ x = x' ∧ y = y' ∧ below = xs ∧ below' = ys := by
  obtain ⟨common, hdir, hp, hq⟩ := h.around
  obtain ⟨common', hdir', hp', hq'⟩ := h'.around
  obtain ⟨rfl, rest⟩ := parting_unique h.ne h'.ne (hp.symm.trans hp') (hq.symm.trans hq')
  rw [hdir] at hdir'
  exact ⟨congrArg Prod.fst (Except.ok.inj hdir'), rest⟩

theorem symm : fs.Parts root q p location y x below' below := by
  obtain ⟨common, hdir, hp, hq⟩ := h.around
  exact ⟨⟨common, hdir, hq, hp⟩, h.right, h.left, h.ne.symm⟩

theorem comesFirst_iff : root.ComesFirst p q ↔
    if below.isEmpty = below'.isEmpty then x < y else below.isEmpty = true := by
  obtain ⟨common, -, hp, hq⟩ := h.around
  rw [Path.ComesFirst, hp, hq, comesFirst_append h.ne]
  split <;> simp

/-- What is listed first comes first in the documented order, unless it lies below a link
that stands before a fragment or behind a plain directory. -/
theorem comesFirst_iff_of_listsFirst (hlist : fs.ListsFirst location x y) :
    root.ComesFirst p q ↔ (fs.isLinkAt (location ++ [x]) = true → below ≠ [] →
      (below' = [] → y < x) ∧ (fs.isDirAt (location ++ [y]) = true → x < y)) := by
  have hasymm : x < y → ¬ y < x := lt_asymm
  have htotal : ¬ x < y → y < x := fun hlt => lt_of_le_of_ne (not_lt.mp hlt) h.ne.symm
  have hlinked := @not_isDirAt_of_isLinkAt fs (location ++ [x])
  have hdirX := h.left.ofDir
  have hbelowX := h.left.ofBelow
  have hdirY := h.right.ofDir
  rw [ListsFirst] at hlist
  rw [h.comesFirst_iff]
  cases below <;> cases below' <;> grind

end Parts

/-- Blocks that are listed as the walk lists them are in the documented order exactly if
the links stand aside. -/
theorem pairwise_comesFirst_iff (h : blocks.Pairwise (fs.ListedBefore root)) :
    blocks.Pairwise root.ComesFirst ↔ fs.LinksStandAside root blocks := by
  constructor
  · intro hdocumented p hp q hq location link name below below' hparts hlink hne
    have hpq : p ≠ q := by
      rintro rfl
      obtain ⟨common, -, hleft, hright⟩ := hparts.around
      have hsame := List.append_cancel_left (hleft.symm.trans hright)
      exact hparts.ne (List.cons.inj hsame).1
    -- one of the two comes first, both in the list and in the documented order
    have hboth : blocks.Pairwise fun a b => (fs.ListedBefore root a b ∧ root.ComesFirst a b) ∨
        fs.ListedBefore root b a ∧ root.ComesFirst b a :=
      (h.and hdocumented).imp fun hab => .inl hab
    have : Std.Symm fun a b => (fs.ListedBefore root a b ∧ root.ComesFirst a b) ∨
        fs.ListedBefore root b a ∧ root.ComesFirst b a := ⟨fun _ _ => Or.symm⟩
    rcases hboth.forall hp hq hpq with ⟨⟨_, _, _, _, _, hparts', hlist⟩, hfirst⟩ |
      ⟨⟨_, _, _, _, _, hparts', hlist⟩, -⟩
    · obtain ⟨rfl, rfl, rfl, -, -⟩ := hparts.unique hparts'
      exact (hparts.comesFirst_iff_of_listsFirst hlist).mp hfirst hlink hne
    · obtain ⟨rfl, rfl, rfl, -, -⟩ := hparts.symm.unique hparts'
      rw [ListsFirst, not_isDirAt_of_isLinkAt hlink] at hlist
      split at hlist
      · next hdir =>
          refine ⟨fun _ => hlist, fun hdir' => ?_⟩
          rw [hdir'] at hdir
          cases hdir
      · cases hlist
  · intro haside
    refine h.imp_of_mem fun {p q} hp hq hlisted => ?_
    obtain ⟨location, x, y, below, below', hparts, hlist⟩ := hlisted
    exact (hparts.comesFirst_iff_of_listsFirst hlist).mpr
      (haside p hp q hq location x y below below' hparts)

/-! ## The combined file -/

/-- What a file contains does not matter to the order. -/
theorem IsOverwrite.listedBefore {data : Bytes} {mode : FileMode}
    (h : IsOverwrite fs fs' location data mode) (hlisted : fs.ListedBefore root p q) :
    fs'.ListedBefore root p q := by
  obtain ⟨dir, x, y, below, below', ⟨⟨common, hdir, hp, hq⟩, hleft, hright, hne⟩, hlist⟩ := hlisted
  have hlink : ∀ other, fs.isLinkAt other = true → fs'.isLinkAt other = true := by
    intro other hother
    rw [isLinkAt, Option.any_eq_true] at hother ⊢
    obtain ⟨node, hnode, hisLink⟩ := hother
    refine ⟨node, h.nodeAt?_eq hnode fun bytes mode heq => ?_, hisLink⟩
    cases heq
    cases hisLink
  have hleads : ∀ name below, fs.LeadsOn dir name below → fs'.LeadsOn dir name below := by
    intro name below hon
    refine ⟨fun hnone => hon.isEntry ?_, fun hisDir => hon.ofDir ?_, fun hbelow => ?_⟩
    · rw [h.nodeAt?] at hnone
      split at hnone
      · cases hnone
      · exact hnone
    · rwa [h.isDirAt] at hisDir
    · rw [h.isDirAt]
      exact (hon.ofBelow hbelow).imp_right (hlink _)
  obtain ⟨node, hnode, hdir'⟩ := h.grows.target? hdir
  obtain rfl := hnode.eq fun _ _ heq => by cases heq
  refine ⟨dir, x, y, below, below',
    ⟨⟨common, hdir', hp, hq⟩, hleads x below hleft, hleads y below' hright, hne⟩, ?_⟩
  rwa [ListsFirst, h.isDirAt, h.isDirAt]

/-- A tree is written to a combined file that has the given blocks. -/
def Combines (fs : FileSystem) (root output : Path) (extension : String) (written : FileSystem)
    (blocks : List Path) : Prop :=
  ∃ combined notices paths,
    writeCombined fs root output extension = (written, ⟨.ok combined, notices⟩) ∧
    combined.IsOf written root output extension paths ∧ blocks = paths.filter written.isReadable

/-- The blocks are listed as the walk lists their files. -/
theorem exists_combines (hwf : fs.WellFormed) (hfaults : fs.faults = [])
    (hout : fs.Writable output) (root : Path) (extension : String) :
    ∃ written blocks, fs.Combines root output extension written blocks ∧
      blocks.Pairwise (written.ListedBefore root) := by
  obtain ⟨-, opened, location, bytes, mode, hopens, hfile⟩ := hout
  have hopened := hopens.wellFormed hwf
  obtain rfl := hopens.eq_nil hfile
  have hover : IsOverwrite opened _ location (combinedData opened root location extension)
      mode := ⟨⟨[], hfile⟩, rfl⟩
  refine ⟨_, _, ⟨_, _, _, writeCombined_of_opened hopens hfaults hopened hfile root extension,
    isOf_of_overwrite hopened hopens.canonical hover, rfl⟩, ?_⟩
  exact (((hopened.pairwise_files_walk root).filter _).filter _).imp hover.listedBefore

/-! ## A case beside a fragment -/

theorem isReadable_iff : fs.isReadable p = true ↔
    ∃ location content mode, fs.target? p = .ok (location, .file content mode) := by
  rw [isReadable]
  constructor
  · intro hok
    cases hread : fs.readBytes p with
    | error e =>
        rw [hread] at hok
        cases hok
    | ok content =>
        obtain ⟨location, mode, htarget⟩ := readBytes_eq_ok_iff.mp hread
        exact ⟨location, content, mode, htarget⟩
  · rintro ⟨location, content, mode, htarget⟩
    rw [readBytes_eq_ok_iff.mpr ⟨location, mode, htarget⟩]
    rfl

/-- Where the output is a new file, the blocks are those of the fragments that the walk
meets and that can be read. -/
theorem Combines.of_missing (h : fs.Combines root output extension written blocks)
    (hwf : fs.WellFormed) (hparents : fs.makeParents output = (fs, .ok ()))
    (hlocate : fs.locate true output = .ok ⟨location, none⟩) (hfresh : fs.fresh.refusal? = none)
    (hfault : fs.fault? = none) :
    (∃ data, IsWrite fs written location (.file data fs.fresh)) ∧ blocks.Nodup ∧
      ∀ p, p ∈ blocks ↔ .file p ∈ fs.walk filesFirst root ∧
        p.hasExtension extension = true ∧ fs.isReadable p = true := by
  obtain ⟨combined, notices, paths, hwritten, hisOf, rfl⟩ := h
  obtain ⟨written', _, _, data, hwritten', hwrite⟩ :=
    writeCombined_of_missing hparents hlocate hfresh hfault root extension
  obtain rfl : written = written' := congrArg Prod.fst (hwritten.symm.trans hwritten')
  have hnone : fs.nodeAt? location = none := (node_eq_of_locate hlocate).symm
  have hgrows : Grows fs written := .of_write hwrite (.inl hnone)
  have hwf' : written.WellFormed := by
    obtain ⟨opened, place, hput⟩ := writeCombined_eq_ok (congrArg (·.2.result) hwritten)
    have hfirst : (writeCombined fs root output extension).1 = written :=
      congrArg Prod.fst hwritten
    rw [← hfirst, ← hput.written_eq]
    exact (hput.opens.wellFormed hwf).fill place _
  have hout : written.canonical output = .ok location := by
    rw [canonical, target?, locate_of_write hlocate hwrite (by simp)]
    rfl
  refine ⟨⟨data, hwrite⟩, hisOf.nodup.filter _, fun p => ?_⟩
  rw [List.mem_filter, hisOf.mem_iff, hout, hwf.mem_walk_iff, isReadable_iff, isReadable_iff]
  constructor
  · rintro ⟨⟨hfragment, hother⟩, place, content, mode, htarget⟩
    have hne : place ≠ location := by
      rintro rfl
      rw [canonical, htarget] at hother
      exact hother rfl
    rcases hfragment.before hwf' hwrite hother with hbefore | hlong
    · exact ⟨hbefore.under, hbefore.hasExtension, place, content, mode,
        hwrite.target?_before htarget hne⟩
    · obtain ⟨e, herror⟩ := hlong.target? written
      rw [herror] at htarget
      cases htarget
  · rintro ⟨hunder, hextension, place, content, mode, htarget⟩
    have hfragment : fs.IsFragmentUnder root extension p := ⟨hunder, hextension⟩
    have hne : place ≠ location := by
      rintro rfl
      rw [nodeAt?_of_target? htarget] at hnone
      cases hnone
    obtain ⟨node, -, htarget'⟩ := hgrows.target? htarget
    have hsame := nodeAt?_of_target? htarget'
    rw [hwrite.nodeAt?_of_ne hne, nodeAt?_of_target? htarget] at hsame
    obtain rfl := Option.some.inj hsame
    refine ⟨⟨hfragment.grows hgrows, ?_⟩, place, content, mode, htarget'⟩
    rw [canonical, htarget']
    exact fun heq => hne (Except.ok.inj heq)

/-- A corpus below `/r`: a fragment, and a link to a directory with another fragment. -/
def linkedCase (name : String) : FileSystem where
  entries := [⟨["r"], .dir⟩, ⟨["r", "b.go"], .file [] .plain⟩, ⟨["r", name], .link ⟨"/t"⟩⟩,
    ⟨["t"], .dir⟩, ⟨["t", "x.go"], .file [] .plain⟩]
  workingDir := []

/-- The same with a directory in place of the link. -/
def plainCase : FileSystem where
  entries := [⟨["r"], .dir⟩, ⟨["r", "b.go"], .file [] .plain⟩, ⟨["r", "d"], .dir⟩,
    ⟨["r", "d", "x.go"], .file [] .plain⟩]
  workingDir := []

/-- The fragment beside the case, and the one in it. -/
def caseFragments (name : String) : List Path :=
  [⟨"/r/b.go"⟩, ((Path.mk "/r").join name).join "x.go"]

/-- The walk of such a corpus meets both fragments, and both can be read. -/
theorem files_of_case {name : String} {inside : Location} {node : Node}
    (hname : name ∈ ["a", "d"]) (hroot : fs.listDir ⟨"/r"⟩ = .ok ["r"])
    (hchildren : fs.children ["r"] = [("b.go", .file [] .plain), (name, node)])
    (hvisit : fs.visitNode [(⟨"/r"⟩, ["r"])] ((Path.mk "/r").join name) node = .ok .dir)
    (hcase : fs.listDir ((Path.mk "/r").join name) = .ok inside)
    (hinside : fs.children inside = [("x.go", .file [] .plain)])
    (hfiles : ∀ p ∈ caseFragments name, fs.isReadable p = true) (p : Path) :
    p ∈ caseFragments name ↔ .file p ∈ fs.walk filesFirst ⟨"/r"⟩ ∧ p.hasExtension "go" = true ∧
      fs.isReadable p = true := by
  obtain ⟨depth, hdepth⟩ : ∃ depth, fs.walkDepth - 1 = depth + 1 + 1 := by
    have hsquare : 2 * 2 ≤ fs.walkDepth :=
      Nat.mul_le_mul (Nat.le_add_left 2 _) (Nat.le_add_left 2 _)
    exact ⟨fs.walkDepth - 3, by omega⟩
  have hpaths : ∀ name ∈ ["a", "d"], (Path.mk "/r").join "b.go" = ⟨"/r/b.go"⟩ ∧
      ∀ p ∈ caseFragments name, p.hasExtension "go" = true := by
    decide
  obtain ⟨hjoin, hextension⟩ := hpaths name hname
  have hmem : .file p ∈ fs.walk filesFirst ⟨"/r"⟩ ↔ p ∈ caseFragments name := by
    rw [walk_of_listDir hroot, hdepth, hchildren]
    simp only [List.mem_cons, List.mem_flatMap, List.mem_mergeSort, reduceCtorEq, false_or,
      List.not_mem_nil, or_false, exists_eq_or_imp, exists_eq_left, caseFragments]
    rw [walkWithin_of_showsFile (.inl rfl), walkWithin_of_listDir hvisit hcase, hinside,
      List.mergeSort_singleton, List.flatMap_singleton, walkWithin_of_showsFile (.inl rfl), hjoin]
    simp
  rw [hmem]
  exact ⟨fun hp => ⟨hp, hextension p hp, hfiles p hp⟩, fun hp => hp.1⟩

/-- Behind the link is what is in the directory. -/
theorem target?_linkedCase {name : String} {rest : List String} (hname : name ∈ ["a", "d"])
    (hp : IsPassable p ∧ (linkedCase name).startOf p = [] ∧ p.steps = "r" :: name :: rest ∧
      (linkedCase name).goesDown [] ("t" :: rest) = true ∧
      (linkedCase name).nodeAt? ("t" :: rest) = some node) :
    (linkedCase name).target? p = .ok ("t" :: rest, node) := by
  have hnodes : ∀ name ∈ ["a", "d"], (linkedCase name).isDirAt [] = true ∧
      (linkedCase name).nodeAt? ["r"] = some .dir ∧ (linkedCase name).isDirAt ["r"] = true ∧
      name ≠ "." ∧ name ≠ ".." ∧ ¬ maxNameBytes < byteLength name ∧
      (linkedCase name).nodeAt? ["r", name] = some (.link ⟨"/t"⟩) := by
    decide
  obtain ⟨htop, hnode', hdir, hcurrent, hparent, hshort, hlink⟩ := hnodes name hname
  obtain ⟨hpassable, hstart, hsteps, hdown, hnode⟩ := hp
  refine target?_eq_ok_iff.mpr ⟨hpassable, ?_⟩
  rw [hstart, hsteps, ← hnode]
  refine .enter ⟨htop, by decide, by decide, by decide⟩ hnode' nofun ?_
  exact .follow ⟨hdir, hcurrent, hparent, hshort⟩ hlink (by simp) (leads_of_goesDown hdown)

/-- The root and the fragment beside the link. -/
theorem root_linkedCase {name : String} (hname : name ∈ ["a", "d"]) :
    (linkedCase name).target? ⟨"/r"⟩ = .ok (["r"], .dir) ∧
      (linkedCase name).target? ⟨"/r/b.go"⟩ = .ok (["r", "b.go"], .file [] .plain) := by
  have hdown : ∀ name ∈ ["a", "d"], ∀ found ∈ [(Path.mk "/r", ["r"], Node.dir),
      (⟨"/r/b.go"⟩, ["r", "b.go"], .file [] .plain)], IsPassable found.1 ∧
      (linkedCase name).goesDown ((linkedCase name).startOf found.1) found.1.steps = true ∧
      (linkedCase name).startOf found.1 ++ found.1.steps = found.2.1 ∧
      (linkedCase name).nodeAt? found.2.1 = some found.2.2 := by
    decide
  exact ⟨target?_of_goesDown (hdown name hname _ (.head _)),
    target?_of_goesDown (hdown name hname _ (.tail _ (.head _)))⟩

theorem files_linkedCase {name : String} (hname : name ∈ ["a", "d"]) (p : Path) :
    p ∈ caseFragments name ↔ .file p ∈ (linkedCase name).walk filesFirst ⟨"/r"⟩ ∧
      p.hasExtension "go" = true ∧ (linkedCase name).isReadable p = true := by
  have hbehind : ∀ name ∈ ["a", "d"], ∀ found ∈ [((Path.mk "/r").join name, [], Node.dir),
      (((Path.mk "/r").join name).join "x.go", ["x.go"], .file [] .plain)], IsPassable found.1 ∧
      (linkedCase name).startOf found.1 = [] ∧ found.1.steps = "r" :: name :: found.2.1 ∧
      (linkedCase name).goesDown [] ("t" :: found.2.1) = true ∧
      (linkedCase name).nodeAt? ("t" :: found.2.1) = some found.2.2 := by
    decide
  have hchildren : ∀ name ∈ ["a", "d"], (linkedCase name).children ["r"] =
        [("b.go", .file [] .plain), (name, .link ⟨"/t"⟩)] ∧
      (linkedCase name).children ["t"] = [("x.go", .file [] .plain)] := by
    decide
  obtain ⟨hroot, hfile⟩ := root_linkedCase hname
  have hcase := target?_linkedCase hname (hbehind name hname _ (.head _))
  have hbelow := target?_linkedCase hname (hbehind name hname _ (.tail _ (.head _)))
  have hvisit : (linkedCase name).visitNode [(⟨"/r"⟩, ["r"])] ((Path.mk "/r").join name)
      (.link ⟨"/t"⟩) = .ok .dir := by
    rw [visitNode, hcase]
    rfl
  refine files_of_case hname (listDir_eq_ok_iff.mpr ⟨hroot, rfl⟩) (hchildren name hname).1 hvisit
    (listDir_eq_ok_iff.mpr ⟨hcase, rfl⟩) (hchildren name hname).2 (fun p hp => ?_) p
  rcases List.mem_pair.mp hp with rfl | rfl
  · exact isReadable_iff.mpr ⟨_, _, _, hfile⟩
  · exact isReadable_iff.mpr ⟨_, _, _, hbelow⟩

theorem files_plainCase (p : Path) :
    p ∈ caseFragments "d" ↔ .file p ∈ plainCase.walk filesFirst ⟨"/r"⟩ ∧
      p.hasExtension "go" = true ∧ plainCase.isReadable p = true := by
  have htarget : ∀ found ∈ [(Path.mk "/r", ["r"], Node.dir), (⟨"/r/d"⟩, ["r", "d"], .dir),
      (⟨"/r/b.go"⟩, ["r", "b.go"], .file [] .plain),
      (⟨"/r/d/x.go"⟩, ["r", "d", "x.go"], .file [] .plain)],
      plainCase.target? found.1 = .ok found.2 := by
    have hdown : ∀ found ∈ [(Path.mk "/r", ["r"], Node.dir), (⟨"/r/d"⟩, ["r", "d"], .dir),
        (⟨"/r/b.go"⟩, ["r", "b.go"], .file [] .plain),
        (⟨"/r/d/x.go"⟩, ["r", "d", "x.go"], .file [] .plain)], IsPassable found.1 ∧
        plainCase.goesDown (plainCase.startOf found.1) found.1.steps = true ∧
        plainCase.startOf found.1 ++ found.1.steps = found.2.1 ∧
        plainCase.nodeAt? found.2.1 = some found.2.2 := by
      decide
    exact fun found hfound => target?_of_goesDown (hdown found hfound)
  have hjoin : (Path.mk "/r").join "d" = ⟨"/r/d"⟩ ∧
      caseFragments "d" = [⟨"/r/b.go"⟩, ⟨"/r/d/x.go"⟩] := by
    decide
  have hroot := htarget _ (.head _)
  have hcase := htarget _ (.tail _ (.head _))
  have hchildren : plainCase.children ["r"] = [("b.go", .file [] .plain), ("d", .dir)] := by
    decide
  refine files_of_case (by decide) (listDir_eq_ok_iff.mpr ⟨hroot, rfl⟩) hchildren rfl
    (listDir_eq_ok_iff.mpr ⟨hjoin.1 ▸ hcase, rfl⟩) (by decide) (fun p hp => ?_) p
  rw [hjoin.2] at hp
  rcases List.mem_pair.mp hp with rfl | rfl
  · exact isReadable_iff.mpr ⟨_, _, _, htarget _ (.tail _ (.tail _ (.head _)))⟩
  · exact isReadable_iff.mpr ⟨_, _, _, htarget _ (.tail _ (.tail _ (.tail _ (.head _))))⟩

/-- The link stands aside where its name comes behind that of the fragment. -/
theorem linksStandAside_linkedCase {name : String} {data : Bytes} {mode : FileMode}
    (hname : name ∈ ["a", "d"])
    (hwrite : IsWrite (linkedCase name) written ["c"] (.file data mode))
    (hblocks : ∀ p, p ∈ blocks ↔ p ∈ caseFragments name) :
    written.LinksStandAside ⟨"/r"⟩ blocks ↔ name = "d" := by
  have hnodes : ∀ name ∈ ["a", "d"], (linkedCase name).nodeAt? ["r", "b.go"] =
        some (.file [] .plain) ∧
      (linkedCase name).nodeAt? ["r", name] = some (.link ⟨"/t"⟩) ∧
      (Path.mk "/r").namesTo ⟨"/r/b.go"⟩ = ["b.go"] ∧
      (Path.mk "/r").namesTo (((Path.mk "/r").join name).join "x.go") = [name, "x.go"] ∧
      ("b.go" < name ↔ name = "d") ∧ name ≠ "b.go" := by
    decide
  obtain ⟨hfile, hlink, hfirst, hsecond, horder, hother⟩ := hnodes name hname
  have hnone : (linkedCase name).nodeAt? ["c"] = none := by
    rcases List.mem_pair.mp hname with rfl | rfl <;> decide
  have hroot : written.target? ⟨"/r"⟩ = .ok (["r"], .dir) := by
    have hgrows : Grows (linkedCase name) written := .of_write hwrite (.inl hnone)
    obtain ⟨node, hnode, htarget⟩ := hgrows.target? (root_linkedCase hname).1
    rwa [hnode.eq nofun] at htarget
  rw [← hwrite.nodeAt?_of_ne (by simp)] at hfile hlink
  have hplain : written.isDirAt ["r", "b.go"] = false := by
    rw [isDirAt, hfile]
    rfl
  have hisLink : written.isLinkAt ["r", name] = true := by
    rw [isLinkAt, hlink]
    rfl
  rw [← horder]
  constructor
  · intro haside
    have hparts : written.Parts ⟨"/r"⟩ (((Path.mk "/r").join name).join "x.go") ⟨"/r/b.go"⟩
        ["r"] name "b.go" ["x.go"] [] := by
      refine ⟨⟨[], hroot, hsecond, hfirst⟩,
        ⟨?_, fun _ => List.cons_ne_nil _ _, fun _ => .inr hisLink⟩,
        ⟨?_, fun hdir => ?_, fun hne => absurd rfl hne⟩, hother⟩
      · rw [List.singleton_append, hlink]
        exact Option.some_ne_none _
      · rw [List.singleton_append, hfile]
        exact Option.some_ne_none _
      · rw [List.singleton_append, hplain] at hdir
        cases hdir
    exact (haside _ ((hblocks _).mpr (.tail _ (.head _))) _ ((hblocks _).mpr (.head _)) _ _ _ _ _
      hparts hisLink (List.cons_ne_nil _ _)).1 rfl
  · intro hlt p hp q hq location link other below below' hparts _ hbelow
    obtain ⟨common, hdir, hleft, hright⟩ := hparts.around
    -- what lies below a link is the fragment behind the one link
    obtain ⟨rfl, rfl⟩ : common = [] ∧ link = name := by
      rcases List.mem_pair.mp ((hblocks p).mp hp) with rfl | rfl
      · rw [hfirst] at hleft
        rcases common with _ | ⟨head, _ | _⟩ <;> simp_all
      · rw [hsecond] at hleft
        rcases common with _ | ⟨head, _ | ⟨_, _ | _⟩⟩ <;> simp_all
    obtain rfl : location = ["r"] :=
      (congrArg Prod.fst (Except.ok.inj (hroot.symm.trans hdir))).symm
    rcases List.mem_pair.mp ((hblocks q).mp hq) with rfl | rfl
    · rw [hfirst] at hright
      obtain ⟨rfl, rfl⟩ := List.cons.inj hright
      refine ⟨fun _ => hlt, fun hisDir => ?_⟩
      rw [List.singleton_append, hplain] at hisDir
      cases hisDir
    · rw [hsecond] at hright
      exact absurd (List.cons.inj hright).1 hparts.ne

/-- No link stands in a tree with the directory itself. -/
theorem linksStandAside_plainCase {data : Bytes} {mode : FileMode}
    (hwrite : IsWrite plainCase written ["c"] (.file data mode)) (root : Path)
    (blocks : List Path) : written.LinksStandAside root blocks := by
  intro p _ q _ location link name below below' _ hlink
  rw [isLinkAt, Option.any_eq_true, hwrite.nodeAt?] at hlink
  obtain ⟨node, hnode, hlink⟩ := hlink
  split at hnode
  · obtain rfl := Option.some.inj hnode
    cases hlink
  · obtain ⟨entry, hentry, -, rfl⟩ := exists_entry_of_nodeAt? (by simp) hnode
    have hnone : ∀ entry ∈ plainCase.entries, entry.node.isLink = false := by decide
    rw [hnone entry hentry] at hlink
    cases hlink

end FileSystem

/-- **The order of the combined file.** The blocks come in the order in which the
directories list their entries, where a link is no directory. That is the documented
order, in which links count as what they lead to, exactly if no link to a directory
stands before a fragment beside it or behind a plain directory beside it.

Where that is so in two trees with the same fragments, the blocks of both are in the same
order, whichever of the directories are links. -/
theorem writeCombined_order {fs : FileSystem} {output : Path} (hwf : fs.WellFormed)
    (hfaults : fs.faults = []) (hout : fs.Writable output) (root : Path) (extension : String) :
    ∃ written blocks, fs.Combines root output extension written blocks ∧
      blocks.Pairwise (written.ListedBefore root) ∧
      (blocks.Pairwise root.ComesFirst ↔ written.LinksStandAside root blocks) ∧
      ∀ (fs' : FileSystem) (output' : Path), fs'.WellFormed → fs'.faults = [] →
        fs'.Writable output' →
        ∃ written' blocks', fs'.Combines root output' extension written' blocks' ∧
          (written.LinksStandAside root blocks → written'.LinksStandAside root blocks' →
            (∀ p, p ∈ blocks ↔ p ∈ blocks') → blocks = blocks') := by
  obtain ⟨written, blocks, hcombines, hlisted⟩ := exists_combines hwf hfaults hout root extension
  have hiff := pairwise_comesFirst_iff hlisted
  refine ⟨written, blocks, hcombines, hlisted, hiff, fun fs' output' hwf' hfaults' hout' => ?_⟩
  obtain ⟨written', blocks', hcombines', hlisted'⟩ :=
    exists_combines hwf' hfaults' hout' root extension
  exact ⟨written', blocks', hcombines', fun haside haside' hmem =>
    Path.eq_of_comesFirst (hiff.mpr haside) ((pairwise_comesFirst_iff hlisted').mpr haside') hmem⟩

/-- A link behind the fragment stands aside, and the blocks are those of the tree with a
directory in its place, in the same order. A link before the fragment does not, and the
block below it comes first. -/
theorem writeCombined_order_sample :
    (∀ name ∈ ["a", "d"], (linkedCase name).WellFormed ∧ (linkedCase name).Writable ⟨"c"⟩) ∧
      plainCase.WellFormed ∧ plainCase.Writable ⟨"c"⟩ ∧
      (∃ written written',
        (linkedCase "d").Combines ⟨"/r"⟩ ⟨"c"⟩ "go" written [⟨"/r/b.go"⟩, ⟨"/r/d/x.go"⟩] ∧
        written.LinksStandAside ⟨"/r"⟩ [⟨"/r/b.go"⟩, ⟨"/r/d/x.go"⟩] ∧
        plainCase.Combines ⟨"/r"⟩ ⟨"c"⟩ "go" written' [⟨"/r/b.go"⟩, ⟨"/r/d/x.go"⟩] ∧
        [Path.mk "/r/b.go", ⟨"/r/d/x.go"⟩].Pairwise (Path.ComesFirst ⟨"/r"⟩)) ∧
      ∃ written,
        (linkedCase "a").Combines ⟨"/r"⟩ ⟨"c"⟩ "go" written [⟨"/r/a/x.go"⟩, ⟨"/r/b.go"⟩] ∧
        ¬ written.LinksStandAside ⟨"/r"⟩ [⟨"/r/a/x.go"⟩, ⟨"/r/b.go"⟩] := by
  have hlinked : ∀ name ∈ ["a", "d"], (linkedCase name).WellFormed ∧
      (linkedCase name).makeParents ⟨"c"⟩ = (linkedCase name, .ok ()) ∧
      (linkedCase name).locate true ⟨"c"⟩ = .ok ⟨["c"], none⟩ := by
    intro name hname
    rcases List.mem_pair.mp hname with rfl | rfl
    · exact ⟨⟨by decide, by decide, nofun⟩,
        missing_output_sample (.head _) rfl (by decide)⟩
    · exact ⟨⟨by decide, by decide, nofun⟩,
        missing_output_sample (.head _) rfl (by decide)⟩
  have hwritable : ∀ name ∈ ["a", "d"], (linkedCase name).Writable ⟨"c"⟩ := fun name hname =>
    writable_of_missing (hlinked name hname).2.1 (hlinked name hname).2.2 rfl rfl
  have hwf : plainCase.WellFormed := ⟨by decide, by decide, nofun⟩
  obtain ⟨hparents, hlocate⟩ : plainCase.makeParents ⟨"c"⟩ = (plainCase, .ok ()) ∧
      plainCase.locate true ⟨"c"⟩ = .ok ⟨["c"], none⟩ :=
    missing_output_sample (.head _) rfl (by decide)
  have hout : plainCase.Writable ⟨"c"⟩ := writable_of_missing hparents hlocate rfl rfl
  refine ⟨fun name hname => ⟨(hlinked name hname).1, hwritable name hname⟩, hwf, hout, ?_, ?_⟩
  · have hd : "d" ∈ ["a", "d"] := by decide
    have hfragments : caseFragments "d" = [⟨"/r/b.go"⟩, ⟨"/r/d/x.go"⟩] := by decide
    have hordered : (caseFragments "d").Pairwise (Path.ComesFirst ⟨"/r"⟩) := by decide
    obtain ⟨written, blocks, hcombines, -, hiff, hsame⟩ :=
      writeCombined_order (hlinked "d" hd).1 rfl (hwritable "d" hd) ⟨"/r"⟩ "go"
    obtain ⟨written', blocks', hcombines', heq⟩ := hsame plainCase ⟨"c"⟩ hwf rfl hout
    obtain ⟨⟨data, hwrite⟩, -, hmem⟩ :=
      hcombines.of_missing (hlinked "d" hd).1 (hlinked "d" hd).2.1 (hlinked "d" hd).2.2 rfl rfl
    obtain ⟨⟨data', hwrite'⟩, -, hmem'⟩ := hcombines'.of_missing hwf hparents hlocate rfl rfl
    have hblocks : ∀ p, p ∈ blocks ↔ p ∈ caseFragments "d" := fun p =>
      (hmem p).trans (files_linkedCase hd p).symm
    have hblocks' : ∀ p, p ∈ blocks' ↔ p ∈ caseFragments "d" := fun p =>
      (hmem' p).trans (files_plainCase p).symm
    have haside := (linksStandAside_linkedCase hd hwrite hblocks).mpr rfl
    obtain rfl := heq haside (linksStandAside_plainCase hwrite' _ _)
      fun p => (hblocks p).trans (hblocks' p).symm
    obtain rfl : blocks = caseFragments "d" :=
      Path.eq_of_comesFirst (hiff.mpr haside) hordered hblocks
    rw [hfragments] at hcombines hcombines' haside hordered
    exact ⟨written, written', hcombines, haside, hcombines', hordered⟩
  · have ha : "a" ∈ ["a", "d"] := by decide
    have hfragments : caseFragments "a" = [⟨"/r/b.go"⟩, ⟨"/r/a/x.go"⟩] := by decide
    have hordered : (caseFragments "a").Pairwise (Path.ComesFirst ⟨"/r"⟩) := by decide
    obtain ⟨written, blocks, hcombines, -, hiff, -⟩ :=
      writeCombined_order (hlinked "a" ha).1 rfl (hwritable "a" ha) ⟨"/r"⟩ "go"
    obtain ⟨⟨data, hwrite⟩, hnodup, hmem⟩ :=
      hcombines.of_missing (hlinked "a" ha).1 (hlinked "a" ha).2.1 (hlinked "a" ha).2.2 rfl rfl
    have hblocks : ∀ p, p ∈ blocks ↔ p ∈ caseFragments "a" := fun p =>
      (hmem p).trans (files_linkedCase ha p).symm
    have haside : ¬ written.LinksStandAside ⟨"/r"⟩ blocks := fun haside =>
      absurd ((linksStandAside_linkedCase ha hwrite hblocks).mp haside) (by decide)
    -- of the two orders it is not the documented one
    have hperm : blocks ∈ (caseFragments "a").permutations' :=
      List.mem_permutations'.mpr
        ((List.perm_ext_iff_of_nodup hnodup (by decide)).mpr hblocks)
    rw [hfragments] at hperm hordered
    rcases List.mem_pair.mp hperm with rfl | rfl
    · exact absurd (hiff.mp hordered) haside
    · exact ⟨written, hcombines, haside⟩

end RaceSkeletons
