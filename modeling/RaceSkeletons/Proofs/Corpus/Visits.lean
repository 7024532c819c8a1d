import RaceSkeletons.Proofs.Corpus.Frame
import RaceSkeletons.Proofs.Corpus.Partition

/-!
# Fragments that a walk meets

Discovery looks right below the directories right below the root. A walk goes
everywhere, through links too, but not back into a directory that it is in. So
it does not enter a link to the root, which discovery takes for a case of the
root's own files. Those are met under their own paths: the file of every fragment
that discovery finds is met by the walk (`FileSystem.WellFormed.visited_of_found`),
though perhaps under another name.

Where only the contents of files change, discovery goes to the same directories and
finds the same fragments in them (`FileSystem.IsRewrite.perm_entriesWith`).
-/

namespace RaceSkeletons

open RaceSkeletons.Path (IsEntryName)

/-! ## Paths of three parts -/

/-- A name stands in a path behind the path of its directory, with a slash between
them or not. -/
theorem Path.text_join (p : Path) :
    ∃ slash : String, ∀ name : String, '/' ∉ name.toList →
      (p.join name).text = p.text ++ slash ++ name := by
  have hhead : ∀ {name : String}, '/' ∉ name.toList → name.toList.head? ≠ some '/' :=
    fun hslash hhead => hslash (List.mem_of_head? hhead)
  by_cases hempty : p.text = ""
  · refine ⟨"", fun name hslash => ?_⟩
    rw [join, if_pos (.inr hempty), hempty]
    rfl
  · by_cases hlast : p.text.toList.getLast? = some '/'
    · refine ⟨"", fun name hslash => ?_⟩
      rw [join, if_neg (not_or.mpr ⟨hhead hslash, hempty⟩), if_pos hlast, String.append_empty]
    · refine ⟨"/", fun name hslash => ?_⟩
      rw [join, if_neg (not_or.mpr ⟨hhead hslash, hempty⟩), if_neg hlast]

namespace FileSystem

variable {fs fs' : FileSystem} {root dir p : Path} {top location : Location} {node : Node}
  {entry name extension : String} {order : EntryOrder} {keep keep' : Path → Bool}

/-- A path stays passable when a name in its midst is left out. -/
theorem IsPassable.of_join_join (hentry : IsEntryName entry) (hname : IsEntryName name)
    (h : IsPassable ((root.join entry).join name)) : IsPassable (root.join name) := by
  obtain ⟨slash, htext⟩ := root.text_join
  obtain ⟨slash', htext'⟩ := (root.join entry).text_join
  obtain ⟨hnul, -, hshort⟩ := h
  rw [htext' name hname.noSlash, htext entry hentry.noSlash] at hnul hshort
  refine ⟨?_, Path.join_ne_empty root hname, ?_⟩
  · rw [htext name hname.noSlash]
    simp_all [String.toList_append]
  · rw [htext name hname.noSlash]
    simp only [byteLength, String.utf8ByteSize_append] at hshort ⊢
    omega

/-- Behind a link to the directory that it stands in, there is what is in that
directory. -/
theorem target?_join_of_loop (hentry : IsEntryName entry) (hname : IsEntryName name)
    (hroot : fs.Opens root top) (hloop : fs.Opens (root.join entry) top)
    (h : fs.target? ((root.join entry).join name) = .ok (location, node)) :
    fs.target? (root.join name) = .ok (location, node) := by
  obtain ⟨hp, hleads⟩ := target?_eq_ok_iff.mp h
  refine target?_eq_ok_iff.mpr ⟨hp.of_join_join hentry hname, ?_⟩
  have hstart : ∀ name, IsEntryName name → fs.startOf (root.join name) = fs.startOf root :=
    fun name hname => fs.startOf_congr (Path.isAbsolute_join root hname.noSlash)
  rw [Path.steps_join _ hname.nonempty hname.noSlash,
    Path.names_join root hentry.nonempty hentry.noSlash, List.append_assoc,
    fs.startOf_congr (Path.isAbsolute_join _ hname.noSlash), hstart entry hentry] at hleads
  rw [Opens, Path.names_join root hentry.nonempty hentry.noSlash, hstart entry hentry] at hloop
  rw [Path.steps_join root hname.nonempty hname.noSlash, hstart name hname]
  -- the way through the link has no more links left than the way past it
  obtain ⟨left, -, hwalk⟩ := Leads.walkNames_append hroot
  have hlast := List.cons_ne_nil name []
  rw [← walkNames_eq_ok_iff, hwalk _ (List.append_ne_nil_of_right_ne_nil _ hlast),
    walkNames_eq_ok_iff] at hleads
  rw [← walkNames_eq_ok_iff, hwalk _ (List.cons_ne_nil entry []), walkNames_eq_ok_iff] at hloop
  obtain ⟨left', hleft, between, hbetween, hbehind⟩ := hleads.split hlast
  obtain rfl : between = top := congrArg Place.location (hbetween.unique hloop)
  rw [← walkNames_eq_ok_iff, hwalk _ hlast, walkNames_eq_ok_iff]
  exact hbehind.mono hleft

/-! ## Entries -/

theorem WellFormed.mem_entriesWith_iff (hwf : fs.WellFormed) :
    p ∈ fs.entriesWith keep dir ↔ ∃ location name node, fs.listDir dir = .ok location ∧
      fs.nodeAt? (location ++ [name]) = some node ∧ p = dir.join name ∧ keep p = true := by
  rw [FileSystem.entriesWith]
  constructor
  · intro h
    split at h
    · next paths hpaths =>
        obtain ⟨hmem, hkeep⟩ := List.mem_filter.mp h
        obtain ⟨location, hlist, rfl⟩ := entryPaths_eq_ok_iff.mp hpaths
        obtain ⟨⟨name, node⟩, hchild, rfl⟩ := List.mem_map.mp hmem
        exact ⟨location, name, node, hlist, hwf.mem_children.mp hchild, rfl, hkeep⟩
    · exact absurd h List.not_mem_nil
  · rintro ⟨location, name, node, hlist, hnode, rfl, hkeep⟩
    rw [entryPaths_eq_ok_iff.mpr ⟨location, hlist, rfl⟩]
    exact List.mem_filter.mpr
      ⟨List.mem_map.mpr ⟨(name, node), hwf.mem_children.mpr hnode, rfl⟩, hkeep⟩

theorem IsRewrite.mem_entriesWith (h : IsRewrite fs fs') (hwf : fs.WellFormed)
    (hwf' : fs'.WellFormed) (hkeep : ∀ p, keep' p = keep p)
    (hp : p ∈ fs.entriesWith keep dir) : p ∈ fs'.entriesWith keep' dir := by
  obtain ⟨location, name, node, hlist, hnode, rfl, hkept⟩ := hwf.mem_entriesWith_iff.mp hp
  obtain ⟨node', hnode', -⟩ := h.grows.keeps _ _ hnode
  exact hwf'.mem_entriesWith_iff.mpr
    ⟨location, name, node', h.grows.listDir hlist, hnode', rfl, (hkeep _).trans hkept⟩

/-- Other contents make no other entries. -/
theorem IsRewrite.perm_entriesWith (h : IsRewrite fs fs') (hwf : fs.WellFormed)
    (hwf' : fs'.WellFormed) (hkeep : ∀ p, keep' p = keep p) (dir : Path) :
    (fs'.entriesWith keep' dir).Perm (fs.entriesWith keep dir) :=
  (List.perm_ext_iff_of_nodup (hwf'.entriesWith keep' dir).2.of_map
    (hwf.entriesWith keep dir).2.of_map).mpr fun _ =>
      ⟨h.symm.mem_entriesWith hwf' hwf fun p => (hkeep p).symm, h.mem_entriesWith hwf hwf' hkeep⟩

namespace IsRewrite

variable (h : IsRewrite fs fs') (hwf : fs.WellFormed) (hwf' : fs'.WellFormed)
include h hwf hwf'

theorem perm_directoriesIn (root : Path) : (fs'.directoriesIn root).Perm (fs.directoriesIn root) :=
  h.perm_entriesWith hwf hwf'
    (fun _ => Bool.eq_iff_iff.mpr ⟨h.symm.grows.isDir, h.grows.isDir⟩) root

theorem perm_fragmentsIn (extension : String) (dir : Path) :
    (fs'.fragmentsIn extension dir).Perm (fs.fragmentsIn extension dir) :=
  h.perm_entriesWith hwf hwf' (fun p => congrArg (· && p.hasExtension extension)
    (Bool.eq_iff_iff.mpr ⟨h.symm.grows.isFile, h.grows.isFile⟩)) dir

end IsRewrite

/-! ## What discovery finds -/

/-- The file of every fragment in a directory below the root is one of those that
are normalized. -/
theorem WellFormed.visited_of_found (hwf : fs.WellFormed) (hdir : dir ∈ fs.directoriesIn root)
    (hp : p ∈ fs.fragmentsIn extension dir) :
    ∃ q ∈ fragmentsBelow fs root extension, ∃ location node,
      fs.target? p = .ok (location, node) ∧ fs.target? q = .ok (location, node) := by
  obtain ⟨top, entry, outer, hroot, hthere, rfl, -⟩ := hwf.mem_entriesWith_iff.mp hdir
  obtain ⟨around, name, inner, hlist, hthere', rfl, hkept⟩ := hwf.mem_entriesWith_iff.mp hp
  have hentry := hwf.isEntryName hthere
  have hname := hwf.isEntryName hthere'
  have htop := (listDir_eq_ok_iff.mp hroot).1
  obtain ⟨hfile, hhas⟩ := (Bool.and_eq_true _ _).mp hkept
  obtain ⟨location, node, htarget, hregular⟩ := isFile_iff.mp hfile
  obtain ⟨place, start, hstart⟩ := exists_locate_of_target? htop
  have hunder : LiesUnder fs root [] root start := .root hstart
  by_cases hloop : around = top
  · subst hloop
    have hown := target?_join_of_loop hentry hname (opens_of_target? htop)
      (opens_of_target? (listDir_eq_ok_iff.mp hlist).1) htarget
    refine ⟨root.join name, mem_fragmentsBelow.mpr ⟨?_, ?_⟩, location, node, htarget, hown⟩
    · have hbelow := hunder.entry hroot (fun _ => List.not_mem_nil) hthere'
      exact hwf.mem_walk_iff.mpr ⟨_, inner, hbelow,
        hbelow.showsFile hwf (isFile_iff.mpr ⟨location, node, hown, hregular⟩)⟩
    · rw [Path.hasExtension_join _ hname] at hhas ⊢
      exact hhas
  · have hbelow := (hunder.entry hroot (fun _ => List.not_mem_nil) hthere).entry hlist
      (fun _ => List.mem_singleton.not.mpr hloop) hthere'
    refine ⟨_, mem_fragmentsBelow.mpr ⟨?_, hhas⟩, location, node, htarget, htarget⟩
    exact hwf.mem_walk_iff.mpr ⟨_, inner, hbelow, hbelow.showsFile hwf hfile⟩

end FileSystem

end RaceSkeletons
