import RaceSkeletons.Proofs.Corpus.Rearrange

/-!
# Renames among links

The rename pass moves files, and links to files, without regard to the links that
lead to them. A link whose target is moved leads nowhere afterwards; and a link
that leads nowhere is replaced if it stands where a file is to go. So links are safe
if they get by without the entries that may get other names
(`FileSystem.misnamed`): whatever leads somewhere past those leads to the same node
after the pass.

If that is so of the links that a rename could replace (`FileSystem.LinksHold`),
the pass keeps every entry, and every link that needs no moved file leads where it
led (`renameFiles_respects_links`).
-/

namespace RaceSkeletons

open FileSystem

variable {fs fs' before : FileSystem} {root p : Path} {name extension : String}
  {location : Location} {node : Node} {moved : Location → Location} {gone : List Location}

/-! ## Links that hold -/

namespace FileSystem

/-- The file system without the entries at some locations. -/
def without (fs : FileSystem) (gone : List Location) : FileSystem :=
  { fs with entries := fs.entries.filter fun e => e.location ∉ gone }

/-- Whether the links hold that the rename pass could replace. What can come to stand
where a file is to go, if it is a link, leads to something there, and needs none of the
entries for it that may get other names. -/
def LinksHold (fs : FileSystem) (root : Path) (extension : String) : Prop :=
  ∀ p around found, .file p ∈ fs.walk byName root →
    normalName p.fileName extension ≠ p.fileName →
    fs.locate false p = .ok ⟨around ++ [p.fileName], found⟩ →
    ∀ other target, fs.nodeAt? (around ++ [other]) = some (.link target) →
      other = normalName p.fileName extension ∨ around ++ [other] ∈ fs.misnamed root extension ∧
        normalName other extension = normalName p.fileName extension →
      ((fs.without (fs.misnamed root extension)).add
        (around ++ [normalName p.fileName extension]) (.link target)).pathExists
          (normalPath extension p) = true

theorem nodeAt?_add_cases {other : Location} {found : Node}
    (h : (fs.add location node).nodeAt? other = some found) :
    fs.nodeAt? other = some found ∨ other = location ∧ found = node := by
  by_cases hne : other = []
  · subst hne
    rw [nodeAt?_nil] at h ⊢
    exact .inl h
  · rw [nodeAt?_of_ne_nil _ hne, add, List.find?_append] at h
    rw [nodeAt?_of_ne_nil fs hne]
    cases hfind : fs.entries.find? fun e => e.location = other with
    | some entry =>
        rw [hfind] at h
        exact .inl h
    | none =>
        rw [hfind, Option.none_or, List.find?_singleton] at h
        split at h
        · next heq => exact .inr ⟨(of_decide_eq_true heq).symm, (Option.some.inj h).symm⟩
        · cases h

theorem Grows.pathExists (h : Grows fs fs') (hexists : fs.pathExists p = true) :
    fs'.pathExists p = true := by
  rw [FileSystem.pathExists] at hexists ⊢
  split at hexists
  · next found htarget =>
    obtain ⟨node', -, htarget'⟩ := h.target? htarget
    rw [htarget']
  · cases hexists

namespace IsRearranged

variable (h : IsRearranged extension gone before fs moved)

include h

/-- What is not to go stays. -/
theorem nodeAt?_of_without (hnode : (before.without gone).nodeAt? location = some node) :
    fs.nodeAt? location = some node := by
  by_cases hne : location = []
  · subst hne
    rwa [nodeAt?_nil] at hnode ⊢
  · obtain ⟨entry, hentry, rfl, rfl⟩ := exists_entry_of_nodeAt? hne hnode
    obtain ⟨hentry, hkept⟩ := List.mem_filter.mp hentry
    rcases h.moves entry hentry with hstays | ⟨hgone, -⟩
    · have hthere := h.nodeAt?_moved hentry (by rwa [hstays])
      rwa [hstays] at hthere
    · exact absurd hgone (of_decide_eq_true hkept)

theorem grows_without : Grows (before.without gone) fs where
  keeps _ node hnode := ⟨node, h.nodeAt?_of_without hnode, .inl rfl⟩
  terms := h.isRenamed.terms

/-- A way past all that may move leads to the same node. -/
theorem leads_of_without {followLast : Bool} {links : Nat} {current : Location}
    {names : List String}
    (hleads : Leads (before.without gone) followLast links current names ⟨location, some node⟩) :
    Leads fs followLast links current names ⟨location, some node⟩ := by
  obtain ⟨node', -, hleads'⟩ := h.grows_without.leads hleads rfl
  have hnode := h.nodeAt?_of_without hleads.node_eq.symm
  rwa [← hleads'.node_eq.trans hnode]

end IsRearranged

theorem LinksHold.seesTarget (hhold : fs.LinksHold root extension) (hwf : fs.WellFormed)
    (hslash : '/' ∉ extension.toList) (hp : .file p ∈ fs.walk byName root)
    (hvisited : fs.IsVisited p)
    (h : IsRearranged extension (fs.misnamed root extension) fs fs' moved) :
    SeesTarget extension fs' p := by
  intro hname goal node hlocate
  by_cases hlink : ∃ target, node = .link target
  · obtain ⟨target, rfl⟩ := hlink
    obtain ⟨around, found, other, hlisted, rfl, hbefore, hother⟩ :=
      h.link_of_goal hwf hslash hvisited hlocate
    have hexists := hhold p around _ hp hname hlisted other target hbefore hother
    -- nothing that the way needs has moved, and the link stands where it is to go
    have hgrows : Grows ((fs.without (fs.misnamed root extension)).add
        (around ++ [normalName p.fileName extension]) (.link target)) fs' := by
      refine ⟨fun location node hnode => ⟨node, ?_, .inl rfl⟩, h.isRenamed.terms⟩
      rcases nodeAt?_add_cases hnode with hkept | ⟨rfl, rfl⟩
      · exact h.nodeAt?_of_without hkept
      · exact (node_eq_of_locate hlocate).symm
    exact hgrows.pathExists hexists
  · exact pathExists_of_locate hlocate fun target heq => hlink ⟨target, heq⟩

end FileSystem

/-- Where the links hold that it could replace, the rename pass respects links. Every
entry is kept, with what it holds, so every directory holds what it held. A link stays in
its directory and names its old target, and what that led to, past all files that may
get other names, it leads to afterwards. -/
theorem renameFiles_respects_links (hwf : fs.WellFormed) (hclosed : fs.Closed)
    (hext : Settings.isBareExtension extension = true) (hroot : fs.isDir root = true)
    (hhold : fs.LinksHold root extension) :
    ∃ moved : Location → Location,
      (renameFiles fs root extension).1.entries =
          fs.entries.map (fun e => { e with location := moved e.location }) ∧
        ((renameFiles fs root extension).1.entries.map (·.location)).Nodup ∧
        (∀ location, (renameFiles fs root extension).1.isDirAt location = fs.isDirAt location ∧
          ((renameFiles fs root extension).1.children location).map (·.2) =
            (fs.children location).map (·.2)) ∧
        ∀ around name target, fs.nodeAt? (around ++ [name]) = some (.link target) →
          ∃ name', (name' = name ∨ name' = normalName name extension) ∧
            moved (around ++ [name]) = around ++ [name'] ∧
            (renameFiles fs root extension).1.nodeAt? (around ++ [name']) =
              some (.link target) ∧
            ∀ links location node,
              Leads (fs.without (fs.misnamed root extension)) true links
                  (if target.isAbsolute then [] else around) target.steps
                  ⟨location, some node⟩ →
                Leads (renameFiles fs root extension).1 true links
                  (if target.isAbsolute then [] else around) target.steps
                  ⟨location, some node⟩ := by
  have hslash := noSlash_of_isBareExtension hext
  obtain ⟨moved, h, -⟩ := hwf.isRearranged_renameFiles hclosed hslash hroot
    fun p fs' moved hp hvisited => hhold.seesTarget hwf hslash hp hvisited
  refine ⟨moved, h.entries, h.wellFormed.distinct, fun location =>
    ⟨h.isRenamed.isDirAt location, h.children_nodes location⟩, fun around name target hlink => ?_⟩
  obtain ⟨entry, hentry, hlocation, hnode⟩ :=
    exists_entry_of_nodeAt? (List.append_ne_nil_of_right_ne_nil _ (List.cons_ne_nil _ _)) hlink
  obtain ⟨name', hname', hmoved⟩ : ∃ name', (name' = name ∨ name' = normalName name extension) ∧
      moved (around ++ [name]) = around ++ [name'] := by
    rcases h.moves entry hentry with hstays | ⟨-, around', other, heq, hgoes⟩
    · exact ⟨name, .inl rfl, by rwa [hlocation] at hstays⟩
    · rw [hlocation] at heq hgoes
      obtain ⟨rfl, hnames⟩ := List.append_inj' heq rfl
      obtain rfl := List.singleton_inj.mp hnames
      exact ⟨_, .inr rfl, hgoes⟩
  refine ⟨name', hname', hmoved, ?_, fun links location node => h.leads_of_without⟩
  have hthere := h.nodeAt?_moved hentry (by simp [hlocation, hmoved])
  rwa [hlocation, hmoved, hnode] at hthere

/-- A corpus below `/r` whose one file is a link to a file beside it. -/
def borrowedFiles : FileSystem where
  entries := [⟨["f"], .file [1] .plain⟩, ⟨["r"], .dir⟩, ⟨["r", "L"], .link ⟨"../f"⟩⟩]
  workingDir := []

/-- The link leads to the file beside the corpus, whatever its name is. -/
theorem target?_borrowed (name : String)
    (hpath : IsPassable p ∧ p.steps = ["r", name] ∧ fs.startOf p = [])
    (hlooks : Looks fs [] "r" ∧ Looks fs ["r"] name)
    (hnodes : fs.nodeAt? ["r"] = some .dir ∧ fs.nodeAt? ["r", name] = some (.link ⟨"../f"⟩))
    (hfile : Leads fs true 39 [] ["f"] ⟨["f"], some (.file [1] .plain)⟩) :
    fs.target? p = .ok (["f"], .file [1] .plain) := by
  obtain ⟨hp, hsteps, hstart⟩ := hpath
  refine target?_eq_ok_iff.mpr ⟨hp, ?_⟩
  rw [hsteps, hstart]
  refine .enter hlooks.1 hnodes.1 (by simp) (.follow hlooks.2 hnodes.2 (by simp) ?_)
  exact .up hlooks.2.isDir hfile

theorem files_borrowed : borrowedFiles.locate false ⟨"/r/L"⟩ =
      .ok ⟨["r", "L"], some (.link ⟨"../f"⟩)⟩ ∧
    (borrowedFiles.walk byName ⟨"/r"⟩).filterMap Visit.file? = [⟨"/r/L"⟩] := by
  have hpath : IsPassable ⟨"/r/L"⟩ ∧ (Path.mk "/r/L").steps = ["r", "L"] ∧
      borrowedFiles.startOf ⟨"/r/L"⟩ = [] := by decide
  have hlooks : Looks borrowedFiles [] "r" ∧ Looks borrowedFiles ["r"] "L" :=
    ⟨⟨by decide, by decide, by decide, by decide⟩,
      ⟨by decide, by decide, by decide, by decide⟩⟩
  have hnodes : borrowedFiles.nodeAt? ["r"] = some .dir ∧
      borrowedFiles.nodeAt? ["r", "L"] = some (.link ⟨"../f"⟩) := by decide
  have htarget := target?_borrowed "L" hpath hlooks hnodes
    (leads_of_goesDown (by decide))
  obtain ⟨hp, hsteps, hstart⟩ := hpath
  have hlocate : borrowedFiles.locate false ⟨"/r/L"⟩ =
      .ok ⟨["r", "L"], some (.link ⟨"../f"⟩)⟩ := by
    refine locate_eq_ok_iff.mpr ⟨hp, ?_⟩
    rw [hsteps, hstart]
    exact .enter hlooks.1 hnodes.1 (by simp) (.unfollowed hlooks.2 hnodes.2 rfl)
  have hshows : borrowedFiles.ShowsFile ⟨"/r/L"⟩ (.link ⟨"../f"⟩) :=
    .inr ⟨rfl, isFile_iff.mpr ⟨_, _, htarget, rfl⟩⟩
  have hroot : borrowedFiles.listDir ⟨"/r"⟩ = .ok ["r"] :=
    listDir_eq_ok_iff.mpr ⟨target?_of_goesDown (by decide), rfl⟩
  have hjoin : (Path.mk "/r").join "L" = ⟨"/r/L"⟩ := by decide
  have hchildren : borrowedFiles.children ["r"] = [("L", .link ⟨"../f"⟩)] := by decide
  refine ⟨hlocate, ?_⟩
  rw [← hjoin] at hshows ⊢
  exact files_walk_of_one hroot hchildren hshows

theorem linksHold_borrowed : borrowedFiles.misnamed ⟨"/r"⟩ "go" = [["r", "L"]] ∧
    borrowedFiles.LinksHold ⟨"/r"⟩ "go" := by
  obtain ⟨hlocate, hfiles⟩ := files_borrowed
  have hnames : (Path.mk "/r/L").fileName = "L" ∧ normalName "L" "go" = "l.go" ∧
      normalPath "go" ⟨"/r/L"⟩ = ⟨"/r/l.go"⟩ := by decide
  have hgone : borrowedFiles.misnamed ⟨"/r"⟩ "go" = [["r", "L"]] := by
    simp [misnamed, hfiles, hnames.1, hnames.2.1, hlocate]
  refine ⟨hgone, fun p around found hp _ hlisted other target hlink _ => ?_⟩
  rw [← mem_files_walk, hfiles, List.mem_singleton] at hp
  subst hp
  rw [hlocate, hnames.1] at hlisted
  obtain rfl : ["r"] = around :=
    (List.append_inj' (congrArg Place.location (Except.ok.inj hlisted)) rfl).1
  obtain rfl : target = ⟨"../f"⟩ := by
    obtain ⟨entry, hentry, -, hnode⟩ := exists_entry_of_nodeAt? (by simp) hlink
    simp only [borrowedFiles, List.mem_cons, List.not_mem_nil, or_false] at hentry
    rcases hentry with rfl | rfl | rfl
    · cases hnode
    · cases hnode
    · exact (Node.link.inj hnode).symm
  rw [hgone, hnames.1, hnames.2.1, hnames.2.2, pathExists,
    target?_borrowed "l.go" (by decide)
    ⟨⟨by decide, by decide, by decide, by decide⟩,
      ⟨by decide, by decide, by decide, by decide⟩⟩
    (by decide) (leads_of_goesDown (by decide))]

theorem renameFiles_respects_links_borrowed :
    borrowedFiles.WellFormed ∧ borrowedFiles.Closed ∧ Settings.isBareExtension "go" = true ∧
      borrowedFiles.isDir ⟨"/r"⟩ = true ∧ borrowedFiles.LinksHold ⟨"/r"⟩ "go" ∧
      ∃ name, (renameFiles borrowedFiles ⟨"/r"⟩ "go").1.nodeAt? ["r", name] =
          some (.link ⟨"../f"⟩) ∧
        Leads (renameFiles borrowedFiles ⟨"/r"⟩ "go").1 true 0 ["r"] ["..", "f"]
          ⟨["f"], some (.file [1] .plain)⟩ := by
  have hwf : borrowedFiles.WellFormed := ⟨by decide, by decide, nofun⟩
  have hclosed : borrowedFiles.Closed := by decide
  have hext : Settings.isBareExtension "go" = true := by decide
  have hroot : borrowedFiles.isDir ⟨"/r"⟩ = true :=
    isDir_iff.mpr ⟨["r"], target?_of_goesDown (by decide)⟩
  obtain ⟨hgone, hhold⟩ := linksHold_borrowed
  refine ⟨hwf, hclosed, hext, hroot, hhold, ?_⟩
  obtain ⟨moved, -, -, -, hlinks⟩ := renameFiles_respects_links hwf hclosed hext hroot hhold
  obtain ⟨name, -, -, hnode, hleads⟩ := hlinks ["r"] "L" ⟨"../f"⟩ (by decide)
  refine ⟨name, hnode, hleads 0 ["f"] _ ?_⟩
  rw [hgone]
  exact .up (by decide) (leads_of_goesDown (by decide))

end RaceSkeletons
