import RaceSkeletons.Proofs.FileSystem.Moves

/-!
# File systems that grow

Writing a file, and making the directories around it, adds entries and changes
contents; nothing is moved or taken away (`FileSystem.Grows`). So a path that
led to something leads to the same place ever after (`FileSystem.Grows.target?`),
and what was made once need not be made again: directories are found
(`FileSystem.makeParents_again`) and files are opened (`FileSystem.createFile_again`).

If the files that are written lie elsewhere, a part of the tree is spared, except
that directories may come (`FileSystem.Spares`). Both are kept by putting a file
at a path with the directories around it (`FileSystem.IsPut.growsOutside`), and
what was put once can be put again (`FileSystem.IsPut.again`).
-/

namespace RaceSkeletons

open RaceSkeletons.Path (IsEntryName)

/-- A node with, perhaps, other contents. -/
def Node.IsRewriteOf (node' node : Node) : Prop :=
  node' = node ∨ ∃ bytes bytes' mode, node = .file bytes mode ∧
    node' = .file bytes' mode

theorem Node.IsRewriteOf.trans {node node' node'' : Node} (h : node'.IsRewriteOf node)
    (h' : node''.IsRewriteOf node') : node''.IsRewriteOf node := by
  rcases h' with rfl | ⟨_, bytes'', mode', rfl, rfl⟩
  · exact h
  · rcases h with rfl | ⟨bytes, _, mode, rfl, hfile⟩
    · exact .inr ⟨_, _, _, rfl, rfl⟩
    · obtain ⟨-, rfl⟩ := Node.file.inj hfile
      exact .inr ⟨bytes, bytes'', mode', rfl, rfl⟩

theorem Node.IsRewriteOf.eq {node node' : Node} (h : node'.IsRewriteOf node)
    (hnode : ∀ bytes mode, node ≠ .file bytes mode) : node' = node := by
  rcases h with heq | ⟨bytes, _, mode, hfile, -⟩
  · exact heq
  · exact absurd hfile (hnode bytes mode)

theorem Node.IsRewriteOf.isRegular {node node' : Node} (h : node'.IsRewriteOf node) :
    node'.isRegular = node.isRegular := by
  rcases h with rfl | ⟨_, _, _, rfl, rfl⟩ <;> rfl

theorem Node.IsRewriteOf.ne {node node' other : Node} (h : node'.IsRewriteOf node)
    (hne : node ≠ other) (hother : ∀ bytes mode, other ≠ .file bytes mode) :
    node' ≠ other := by
  rcases h with rfl | ⟨_, bytes', mode, -, rfl⟩
  · exact hne
  · exact (hother bytes' mode).symm

namespace FileSystem

variable {fs fs' fs'' around opened written later : FileSystem} {followLast : Bool} {links : Nat}
  {current location top : Location} {names : List String} {node : Node} {p q : Path}
  {bytes data : Bytes} {mode : FileMode}

/-! ## Growth -/

/-- `fs'` has everything that `fs` has, with other contents of some files. -/
structure Grows (fs fs' : FileSystem) : Prop where
  keeps : ∀ location node, fs.nodeAt? location = some node →
    ∃ node', fs'.nodeAt? location = some node' ∧ node'.IsRewriteOf node
  terms : fs'.toTerms = fs.toTerms

/-- Below `top`, `fs'` is `fs` with directories added. -/
def Spares (top : Location) (fs fs' : FileSystem) : Prop :=
  ∀ names, fs'.nodeAt? (top ++ names) = fs.nodeAt? (top ++ names) ∨
    fs.nodeAt? (top ++ names) = none ∧ fs'.nodeAt? (top ++ names) = some .dir

namespace Grows

theorem refl (fs : FileSystem) : Grows fs fs :=
  ⟨fun _ node hnode => ⟨node, hnode, .inl rfl⟩, rfl⟩

theorem trans (h : Grows fs fs') (h' : Grows fs' fs'') : Grows fs fs'' where
  keeps location node hnode := by
    obtain ⟨node', hnode', hrewrite⟩ := h.keeps location node hnode
    obtain ⟨node'', hnode'', hrewrite'⟩ := h'.keeps location node' hnode'
    exact ⟨node'', hnode'', hrewrite.trans hrewrite'⟩
  terms := h'.terms.trans h.terms

theorem workingDir (h : Grows fs fs') : fs'.workingDir = fs.workingDir :=
  congrArg Terms.workingDir h.terms

theorem nodeAt?_eq (h : Grows fs fs') (hnode : fs.nodeAt? location = some node)
    (hfile : ∀ bytes mode, node ≠ .file bytes mode) :
    fs'.nodeAt? location = some node := by
  obtain ⟨node', hnode', hrewrite⟩ := h.keeps location node hnode
  rw [hnode', hrewrite.eq hfile]

theorem isDirAt (h : Grows fs fs') (hdir : fs.isDirAt location = true) :
    fs'.isDirAt location = true :=
  beq_iff_eq.mpr (h.nodeAt?_eq (beq_iff_eq.mp hdir) nofun)

theorem looks (h : Grows fs fs') {name : String} (looks : Looks fs current name) :
    Looks fs' current name :=
  ⟨h.isDirAt looks.isDir, looks.notCurrent, looks.notParent, looks.short⟩

theorem of_write (hwrite : IsWrite fs fs' location (.file data mode))
    (h : fs.nodeAt? location = none ∨
      ∃ bytes, fs.nodeAt? location = some (.file bytes mode)) : Grows fs fs' where
  keeps other found hfound := by
    by_cases heq : other = location
    · subst heq
      rcases h with hnone | ⟨bytes, hfile⟩
      · rw [hnone] at hfound
        cases hfound
      · rw [hfile] at hfound
        obtain rfl := Option.some.inj hfound
        exact ⟨_, hwrite.nodeAt?_self, .inr ⟨bytes, data, mode, rfl, rfl⟩⟩
    · exact ⟨found, (hwrite.nodeAt?_of_ne heq).trans hfound, .inl rfl⟩
  terms := hwrite.terms

theorem of_add (h : fs.nodeAt? location = none) (node : Node) :
    Grows fs (fs.add location node) where
  keeps other found hfound := by
    refine ⟨found, ?_, .inl rfl⟩
    rw [nodeAt?_add h, if_neg, hfound]
    rintro rfl
    rw [h] at hfound
    cases hfound
  terms := rfl

/-- A way to something that is there leads there ever after. -/
theorem leads (h : Grows fs fs') {place : Place}
    (hleads : Leads fs followLast links current names place) (hnode : place.node = some node) :
    ∃ node', node'.IsRewriteOf node ∧
      Leads fs' followLast links current names ⟨place.location, some node'⟩ := by
  induction hleads with
  | here =>
      obtain ⟨node', hnode', hrewrite⟩ := h.keeps _ node hnode
      refine ⟨node', hrewrite, ?_⟩
      rw [← hnode']
      exact .here
  | stay isDir _ ih =>
      obtain ⟨node', hrewrite, hleads⟩ := ih hnode
      exact ⟨node', hrewrite, .stay (h.isDirAt isDir) hleads⟩
  | up isDir _ ih =>
      obtain ⟨node', hrewrite, hleads⟩ := ih hnode
      exact ⟨node', hrewrite, .up (h.isDirAt isDir) hleads⟩
  | missing _ _ => cases hnode
  | unfollowed looks hlink keep =>
      obtain rfl := Option.some.inj hnode
      exact ⟨_, .inl rfl, .unfollowed (h.looks looks) (h.nodeAt?_eq hlink nofun) keep⟩
  | follow looks hlink goesOn _ ih =>
      obtain ⟨node', hrewrite, hleads⟩ := ih hnode
      exact ⟨node', hrewrite,
        .follow (h.looks looks) (h.nodeAt?_eq hlink nofun) goesOn hleads⟩
  | enter looks hfound noLink _ ih =>
      obtain ⟨node', hrewrite, hleads⟩ := ih hnode
      obtain ⟨found', hfound', hrewrite'⟩ := h.keeps _ _ hfound
      exact ⟨node', hrewrite, .enter (h.looks looks) hfound'
        (fun target => hrewrite'.ne (noLink target) nofun) hleads⟩

theorem locate (h : Grows fs fs') (hlocate : fs.locate followLast p = .ok ⟨location, some node⟩) :
    ∃ node', node'.IsRewriteOf node ∧ fs'.locate followLast p = .ok ⟨location, some node'⟩ := by
  obtain ⟨hp, hleads⟩ := locate_eq_ok_iff.mp hlocate
  obtain ⟨node', hrewrite, hleads'⟩ := h.leads hleads rfl
  refine ⟨node', hrewrite, locate_eq_ok_iff.mpr ⟨hp, ?_⟩⟩
  rw [startOf, h.workingDir]
  exact hleads'

theorem target? (h : Grows fs fs') (htarget : fs.target? p = .ok (location, node)) :
    ∃ node', node'.IsRewriteOf node ∧ fs'.target? p = .ok (location, node') := by
  obtain ⟨node', hrewrite, hlocate⟩ :=
    h.locate (locate_eq_ok_iff.mpr (target?_eq_ok_iff.mp htarget))
  exact ⟨node', hrewrite, target?_eq_ok_iff.mpr (locate_eq_ok_iff.mp hlocate)⟩

theorem isDir (h : Grows fs fs') (hdir : fs.isDir p = true) : fs'.isDir p = true := by
  obtain ⟨location, htarget⟩ := isDir_iff.mp hdir
  obtain ⟨node', hrewrite, htarget'⟩ := h.target? htarget
  rw [hrewrite.eq nofun] at htarget'
  exact isDir_iff.mpr ⟨location, htarget'⟩

theorem isFile (h : Grows fs fs') (hfile : fs.isFile p = true) : fs'.isFile p = true := by
  obtain ⟨location, node, htarget, hregular⟩ := isFile_iff.mp hfile
  obtain ⟨node', hrewrite, htarget'⟩ := h.target? htarget
  exact isFile_iff.mpr ⟨location, node', htarget', hrewrite.isRegular.trans hregular⟩

theorem listDir (h : Grows fs fs') (hlist : fs.listDir p = .ok location) :
    fs'.listDir p = .ok location := by
  obtain ⟨htarget, hlisted⟩ := listDir_eq_ok_iff.mp hlist
  obtain ⟨node, hrewrite, htarget'⟩ := h.target? htarget
  obtain rfl := hrewrite.eq nofun
  exact listDir_eq_ok_iff.mpr ⟨htarget', (isListed_congr h.terms).mpr hlisted⟩

end Grows

namespace Spares

theorem refl (top : Location) (fs : FileSystem) : Spares top fs fs :=
  fun _ => .inl rfl

theorem trans (h : Spares top fs fs') (h' : Spares top fs' fs'') : Spares top fs fs'' := by
  intro names
  rcases h' names with hsame | ⟨hnone, hdir⟩
  · rw [hsame]
    exact h names
  · rcases h names with hsame | ⟨-, hdir'⟩
    · exact .inr ⟨hsame ▸ hnone, hdir⟩
    · rw [hnone] at hdir'
      cases hdir'

theorem of_write (hwrite : IsWrite fs fs' location node) (hout : ¬ top <+: location) :
    Spares top fs fs' := fun names =>
  .inl (hwrite.nodeAt?_of_ne fun heq => hout (heq ▸ List.prefix_append top names))

theorem of_addDir (h : fs.nodeAt? location = none) : Spares top fs (fs.add location .dir) := by
  intro names
  rw [nodeAt?_add h]
  split
  · next heq => exact .inr ⟨heq ▸ h, rfl⟩
  · exact .inl rfl

end Spares

/-! ## Directories that are made -/

theorem makeDir_eq_ok (h : fs.makeDir p = .ok fs') :
    ∃ location, fs.locate false (withoutFinalSlashes p) = .ok ⟨location, none⟩ ∧
      fs' = fs.add location .dir := by
  rw [makeDir] at h
  split at h
  · cases h
  · cases h
  · next location hlocate =>
      cases h
      exact ⟨location, hlocate, rfl⟩

/-- `fs'` is `fs` with directories added, one after the other. -/
inductive MakesDirs (fs : FileSystem) : FileSystem → Prop where
  | none : MakesDirs fs fs
  | one {fs' fs'' : FileSystem} {p : Path} (before : MakesDirs fs fs')
      (last : fs'.makeDir p = .ok fs'') : MakesDirs fs fs''

theorem makesDirs_makeDirsWithin (fs : FileSystem) (depth : Nat) (p : Path) :
    MakesDirs fs (fs.makeDirsWithin depth p).1 := by
  induction depth generalizing p with
  | zero =>
      rw [makeDirsWithin.eq_def]
      split
      · exact .none
      · split
        · next hmade => exact .one .none hmade
        · split <;> exact .none
  | succ depth ih =>
      rw [makeDirsWithin.eq_def]
      split
      · exact .none
      · split
        · next hmade => exact .one .none hmade
        · split
          · exact .none
          · split
            · next parent hdepth hparent =>
                obtain rfl := Nat.succ.inj hdepth
                have haround := ih parent
                split
                · next hmade =>
                    rw [hmade] at haround
                    exact haround
                · next hmade =>
                    rw [hmade] at haround
                    split
                    · next hlast => exact .one haround hlast
                    · exact haround
            · exact .none

theorem makesDirs_makeParents (fs : FileSystem) (p : Path) :
    MakesDirs fs (fs.makeParents p).1 := by
  rw [makeParents]
  split
  · exact .none
  · exact makesDirs_makeDirsWithin fs _ _

theorem MakesDirs.grows (h : MakesDirs fs fs') : Grows fs fs' := by
  induction h with
  | none => exact .refl fs
  | one _ last ih =>
      obtain ⟨location, hlocate, rfl⟩ := makeDir_eq_ok last
      exact ih.trans (.of_add (node_eq_of_locate hlocate).symm .dir)

theorem MakesDirs.spares (h : MakesDirs fs fs') (top : Location) : Spares top fs fs' := by
  induction h with
  | none => exact .refl top fs
  | one _ last ih =>
      obtain ⟨location, hlocate, rfl⟩ := makeDir_eq_ok last
      exact ih.trans (.of_addDir (node_eq_of_locate hlocate).symm)

theorem MakesDirs.faults (h : MakesDirs fs fs') : fs'.faults = fs.faults := by
  induction h with
  | none => rfl
  | one _ last ih =>
      obtain ⟨location, -, rfl⟩ := makeDir_eq_ok last
      exact ih

theorem MakesDirs.wellFormed (h : MakesDirs fs fs') (hwf : fs.WellFormed) : fs'.WellFormed := by
  induction h with
  | none => exact hwf
  | one _ last ih =>
      obtain ⟨location, hlocate, rfl⟩ := makeDir_eq_ok last
      exact ih.add (node_eq_of_locate hlocate).symm (ih.entryNames_of_locate hlocate) .dir

/-! ## Making directories again -/

/-- A path with no slash at its end, if it is not all slashes. -/
theorem withoutFinalSlashes_of_getLast? (h : p.text.toList.getLast? ≠ some '/') :
    withoutFinalSlashes p = p := by
  have hkept : p.text.toList.reverse.dropWhile (· == '/') = p.text.toList.reverse := by
    cases hreverse : p.text.toList.reverse with
    | nil => rfl
    | cons c rest =>
        refine List.dropWhile_cons_of_neg fun hc => h ?_
        rw [List.getLast?_eq_head?_reverse, hreverse, List.head?_cons, beq_iff_eq.mp hc]
  rw [withoutFinalSlashes, hkept, List.reverse_reverse]
  split
  · rfl
  · rw [String.ofList_toList]

theorem withoutFinalSlashes_of_parent? (h : p.parent? = some q) : withoutFinalSlashes q = q := by
  rcases Path.parent?_cases h with rfl | hlast
  · rfl
  · exact withoutFinalSlashes_of_getLast? hlast

theorem locate_of_isDir (h : fs.isDir p = true) :
    ∃ location node, fs.locate false p = .ok ⟨location, some node⟩ := by
  obtain ⟨location, htarget⟩ := isDir_iff.mp h
  obtain ⟨hp, hleads⟩ := target?_eq_ok_iff.mp htarget
  obtain ⟨⟨place, found⟩, hfirst, heq | ⟨target, heq⟩⟩ := hleads.notFollowing
  · obtain ⟨rfl, rfl⟩ := Place.mk.inj heq
    exact ⟨_, _, locate_eq_ok_iff.mpr ⟨hp, hfirst⟩⟩
  · obtain rfl : found = some (.link target) := heq
    exact ⟨_, _, locate_eq_ok_iff.mpr ⟨hp, hfirst⟩⟩

theorem isDir_of_makeDir (hq : withoutFinalSlashes q = q) (h : fs.makeDir q = .ok fs') :
    fs'.isDir q = true := by
  obtain ⟨location, hlocate, rfl⟩ := makeDir_eq_ok h
  rw [hq] at hlocate
  have hwrite := isWrite_add (node_eq_of_locate hlocate).symm .dir
  obtain ⟨hp, hleads⟩ := locate_eq_ok_iff.mp (locate_of_write hlocate hwrite nofun)
  exact isDir_iff.mpr ⟨location, target?_eq_ok_iff.mpr ⟨hp, hleads.following nofun⟩⟩

/-- Directories that were made are there. -/
theorem isDir_of_makeDirs (hq : withoutFinalSlashes q = q) (h : fs.makeDirs q = (around, .ok ())) :
    q.text = "" ∨ around.isDir q = true := by
  rw [makeDirs, makeDirsWithin.eq_def] at h
  split at h
  · next htext => exact .inl htext
  · right
    split at h
    · next hmade =>
        obtain ⟨rfl, -⟩ := Prod.mk.inj h
        exact isDir_of_makeDir hq hmade
    · split at h
      · obtain ⟨rfl, hresult⟩ := Prod.mk.inj h
        split at hresult
        · assumption
        · cases hresult
      · split at h
        · split at h
          · cases h
          · split at h
            · next hmade =>
                obtain ⟨rfl, -⟩ := Prod.mk.inj h
                exact isDir_of_makeDir hq hmade
            · obtain ⟨rfl, hresult⟩ := Prod.mk.inj h
              split at hresult
              · assumption
              · cases hresult
        · cases h

theorem makeDirs_of_isDir (hq : withoutFinalSlashes q = q)
    (h : q.text = "" ∨ fs.isDir q = true) : fs.makeDirs q = (fs, .ok ()) := by
  rw [makeDirs, makeDirsWithin.eq_def]
  split
  · rfl
  · next htext =>
      have hdir := h.resolve_left htext
      obtain ⟨location, node, hlocate⟩ := locate_of_isDir hdir
      have hmade : fs.makeDir q = .error .alreadyExists := by rw [makeDir, hq, hlocate]
      simp only [hmade, hdir]
      rfl

/-- One missing directory is made around a path. -/
theorem makeParents_of_missing (hparent : p.parent? = some q) (hq : withoutFinalSlashes q = q)
    (htext : q.text ≠ "") (hlocate : fs.locate false q = .ok ⟨location, none⟩) :
    fs.makeParents p = (fs.add location .dir, .ok ()) := by
  have hmade : fs.makeDir q = .ok (fs.add location .dir) := by rw [makeDir, hq, hlocate]
  rw [makeParents, hparent]
  simp only [makeDirs, makeDirsWithin.eq_def, htext, hmade, if_false]

/-- Directories that were made need not be made again. -/
theorem makeParents_again (h : fs.makeParents p = (around, .ok ())) (hgrows : Grows around later) :
    later.makeParents p = (later, .ok ()) := by
  rw [makeParents] at h ⊢
  split at h
  · rfl
  · next parent hparent =>
      have hq := withoutFinalSlashes_of_parent? hparent
      exact makeDirs_of_isDir hq ((isDir_of_makeDirs hq h).imp_right hgrows.isDir)

/-! ## Files that are opened and filled -/

/-- An opened file is where its path leads, and could be opened. -/
theorem target?_of_createFile (h : fs.createFile p = .ok (opened, location)) :
    ∃ node, node ≠ .dir ∧ (∀ bytes mode, node = .file bytes mode → mode.refusal? = none) ∧
      opened.target? p = .ok (location, node) := by
  obtain ⟨found, hlocate, ⟨rfl, hopens, rfl⟩ | ⟨bytes, mode, rfl, hopens, rfl⟩ |
    ⟨rfl, hsome, hdir, hfile⟩⟩ := createFile_eq_ok h
  · have hwrite := isWrite_add (node_eq_of_locate hlocate).symm (.file [] fs.fresh)
    have hlater := locate_of_write hlocate hwrite (by simp)
    refine ⟨.file [] fs.fresh, by simp, fun bytes mode heq => ?_, by rw [target?, hlater]⟩
    rwa [← (Node.file.inj heq).2]
  · have hwrite := isWrite_replaceAt (node_eq_of_locate hlocate).symm (.file [] mode)
    have hlater := locate_of_write hlocate hwrite (by simp)
    refine ⟨.file [] mode, by simp, fun bytes mode' heq => ?_, by rw [target?, hlater]⟩
    rwa [← (Node.file.inj heq).2]
  · obtain ⟨node, rfl⟩ := Option.ne_none_iff_exists'.mp hsome
    exact ⟨node, fun heq => hdir (congrArg some heq),
      fun bytes mode heq => absurd (congrArg some heq) (hfile bytes mode), by rw [target?, hlocate]⟩

theorem grows_createFile (h : fs.createFile p = .ok (opened, location)) : Grows fs opened := by
  rcases isWrite_of_createFile h with rfl | ⟨_, hwrite, hbefore⟩
  · exact .refl opened
  · exact .of_write hwrite hbefore

theorem spares_createFile (h : fs.createFile p = .ok (opened, location))
    (hout : ¬ top <+: location) : Spares top fs opened := by
  rcases isWrite_of_createFile h with rfl | ⟨_, hwrite, -⟩
  · exact .refl top opened
  · exact .of_write hwrite hout

theorem grows_fill (fs : FileSystem) (location : Location) (data : Bytes) :
    Grows fs (fs.fill location data).1 := by
  rcases fill_cases fs location data with hsame | ⟨bytes, mode, _, hnode, -, hreplaced⟩
  · rw [hsame]
    exact .refl fs
  · rw [hreplaced]
    exact .of_write (isWrite_overwrite hnode) (.inr ⟨bytes, hnode⟩)

theorem spares_fill (fs : FileSystem) (data : Bytes) (hout : ¬ top <+: location) :
    Spares top fs (fs.fill location data).1 := by
  rcases fill_cases fs location data with hsame | ⟨_, _, _, hnode, -, hreplaced⟩
  · rw [hsame]
    exact .refl top fs
  · rw [hreplaced]
    exact .of_write (isWrite_overwrite hnode) hout

/-- What was opened once can be opened again, and if it was a file it is one. -/
theorem createFile_again (h : fs.createFile p = .ok (opened, location))
    (hgrows : Grows opened later) :
    ∃ opened', later.createFile p = .ok (opened', location) ∧
      ∀ bytes mode, opened.nodeAt? location = some (.file bytes mode) →
        ∃ bytes', opened'.nodeAt? location = some (.file bytes' mode) := by
  obtain ⟨node, hdir, hopens, htarget⟩ := target?_of_createFile h
  obtain ⟨node', hrewrite, htarget'⟩ := hgrows.target? htarget
  obtain ⟨hp, hleads⟩ := target?_eq_ok_iff.mp htarget'
  have hlocate : later.locate true p = .ok ⟨location, some node'⟩ :=
    locate_eq_ok_iff.mpr ⟨hp, hleads⟩
  have hlater : later.nodeAt? location = some node' := hleads.node_eq.symm
  have hnode : opened.nodeAt? location = some node :=
    (target?_eq_ok_iff.mp htarget).2.node_eq.symm
  cases node with
  | dir => exact absurd rfl hdir
  | file bytes mode =>
      obtain ⟨bytes', rfl⟩ : ∃ bytes', node' = .file bytes' mode := by
        rcases hrewrite with rfl | ⟨_, bytes', _, hold, rfl⟩
        · exact ⟨bytes, rfl⟩
        · exact ⟨bytes', congrArg _ (Node.file.inj hold).2.symm⟩
      refine ⟨later.replaceAt location (.file [] mode), ?_, fun bytes'' mode'' hfile => ?_⟩
      · simp only [createFile, hlocate, hopens bytes mode rfl]
      · cases hnode.symm.trans hfile
        exact ⟨[], (isWrite_replaceAt hlater _).nodeAt?_self⟩
  | _ =>
      obtain rfl := hrewrite.eq (by simp)
      refine ⟨later, by simp only [createFile, hlocate], fun bytes mode hfile => ?_⟩
      cases hnode.symm.trans hfile

/-! ## Files that are put elsewhere -/

/-- `fs'` is `fs` with directories added, and files written that do not lie
below `top`. -/
structure GrowsOutside (top : Location) (fs fs' : FileSystem) : Prop where
  grows : Grows fs fs'
  spares : Spares top fs fs'
  wellFormed : fs.WellFormed → fs'.WellFormed

namespace GrowsOutside

theorem refl (top : Location) (fs : FileSystem) : GrowsOutside top fs fs :=
  ⟨.refl fs, .refl top fs, id⟩

theorem trans (h : GrowsOutside top fs fs') (h' : GrowsOutside top fs' fs'') :
    GrowsOutside top fs fs'' :=
  ⟨h.grows.trans h'.grows, h.spares.trans h'.spares, h'.wellFormed ∘ h.wellFormed⟩

end GrowsOutside

/-- The directories around a path are made, and the file at `location` is
opened. -/
def IsOpened (fs opened : FileSystem) (p : Path) (location : Location) : Prop :=
  ∃ around, fs.makeParents p = (around, .ok ()) ∧ around.createFile p = .ok (opened, location)

theorem IsOpened.makesDirs (h : IsOpened fs opened p location) :
    ∃ around, MakesDirs fs around ∧ around.createFile p = .ok (opened, location) := by
  obtain ⟨around, hparents, hcreate⟩ := h
  have hmade := makesDirs_makeParents fs p
  rw [hparents] at hmade
  exact ⟨around, hmade, hcreate⟩

theorem not_isOpened_of_isDir (hparents : fs.makeParents p = (around, .ok ()))
    (hdir : around.isDir p = true) : ¬ IsOpened fs opened p location := by
  rintro ⟨around', hparents', hcreate⟩
  obtain ⟨rfl, -⟩ := Prod.mk.inj (hparents.symm.trans hparents')
  rw [createFile_of_isDir hdir] at hcreate
  cases hcreate

theorem IsOpened.grows (h : IsOpened fs opened p location) : Grows fs opened := by
  obtain ⟨around, hmade, hcreate⟩ := h.makesDirs
  exact hmade.grows.trans (grows_createFile hcreate)

theorem IsOpened.wellFormed (h : IsOpened fs opened p location) (hwf : fs.WellFormed) :
    opened.WellFormed := by
  obtain ⟨around, hmade, hcreate⟩ := h.makesDirs
  exact (hmade.wellFormed hwf).createFile hcreate

theorem IsOpened.canonical (h : IsOpened fs opened p location) :
    opened.canonical p = .ok location := by
  obtain ⟨around, -, hcreate⟩ := h
  obtain ⟨node, -, -, htarget⟩ := target?_of_createFile hcreate
  rw [FileSystem.canonical, htarget]
  rfl

theorem IsOpened.growsOutside (h : IsOpened fs opened p location) (hout : ¬ top <+: location) :
    GrowsOutside top fs opened := by
  obtain ⟨around, hmade, hcreate⟩ := h.makesDirs
  exact ⟨h.grows, (hmade.spares top).trans (spares_createFile hcreate hout), h.wellFormed⟩

theorem IsOpened.faults (h : IsOpened fs opened p location) : opened.faults = fs.faults := by
  obtain ⟨around, hmade, hcreate⟩ := h.makesDirs
  exact (faults_createFile hcreate).trans hmade.faults

theorem IsOpened.location_eq (h : IsOpened fs opened p location) {place : Place}
    (hparents : fs.makeParents p = (fs, .ok ())) (hlocate : fs.locate true p = .ok place) :
    location = place.location := by
  obtain ⟨around, haround, hcreate⟩ := h
  rw [hparents] at haround
  obtain ⟨rfl, -⟩ := Prod.mk.inj haround
  obtain ⟨found, hfound, -⟩ := createFile_eq_ok hcreate
  rw [hlocate] at hfound
  rw [Except.ok.inj hfound]

/-- A file is put at a path: it is opened, and filled. -/
structure IsPut (fs opened written : FileSystem) (p : Path) (location : Location)
    (data : Bytes) : Prop where
  opens : IsOpened fs opened p location
  fills : opened.fill location data = (written, .ok ())

namespace IsPut

variable (h : IsPut fs opened written p location data)

include h

theorem written_eq : (opened.fill location data).1 = written :=
  congrArg Prod.fst h.fills

theorem grows : Grows opened written :=
  h.written_eq ▸ grows_fill opened location data

theorem growsOutside (hout : ¬ top <+: location) : GrowsOutside top fs written :=
  (h.opens.growsOutside hout).trans
    ⟨h.grows, h.written_eq ▸ spares_fill opened data hout,
      fun hwf => h.written_eq ▸ hwf.fill location data⟩

theorem faults : written.faults <:+ fs.faults := by
  rw [← h.opens.faults, ← h.written_eq]
  exact faults_fill opened location data

/-- The path leads to the file ever after. -/
theorem canonical (hgrows : Grows written later) : later.canonical p = .ok location := by
  obtain ⟨around, -, hcreate⟩ := h.opens
  obtain ⟨node, -, -, htarget⟩ := target?_of_createFile hcreate
  obtain ⟨node', -, htarget'⟩ := (h.grows.trans hgrows).target? htarget
  rw [FileSystem.canonical, htarget']
  rfl

/-- What was put once can be put again: the file can be opened, and it takes
any data if it took some, unless the write fails. -/
theorem again (hgrows : Grows written later) (hfault : later.fault? = none) :
    ∃ opened', IsOpened later opened' p location ∧
      ∀ data', (data = [] → data' = []) →
        ∃ written', IsPut later opened' written' p location data' := by
  obtain ⟨around, hparents, hcreate⟩ := h.opens
  have hopened := h.grows.trans hgrows
  obtain ⟨opened', hcreate', hfile⟩ := createFile_again hcreate hopened
  have hopens : IsOpened later opened' p location :=
    ⟨later, makeParents_again hparents ((grows_createFile hcreate).trans hopened), hcreate'⟩
  refine ⟨opened', hopens, fun data' hempty => ?_⟩
  by_cases hdata : data = []
  · exact ⟨opened', hopens, by rw [fill, if_pos (hempty hdata)]⟩
  · obtain ⟨bytes, mode, hnode, -⟩ := fill_eq_ok hdata h.fills
    obtain ⟨bytes', hnode'⟩ := hfile bytes mode hnode
    have hfault' := (fault?_congr (faults_createFile hcreate')).trans hfault
    exact ⟨_, hopens, fill_of_file hnode' hfault' data'⟩

end IsPut

end FileSystem

end RaceSkeletons
