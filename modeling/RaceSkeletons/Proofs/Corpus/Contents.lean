import Mathlib
import RaceSkeletons.Proofs.Corpus.Comments
import RaceSkeletons.Proofs.Corpus.Normalize
import RaceSkeletons.Proofs.FileSystem.Directories
import RaceSkeletons.Proofs.Text.Utf8

/-!
# What normalization writes

Normalizing a fragment is two rewritings of one file, and each of them may
fail (`FileSystem.Rewrites`): because the file holds no text, because the system
refuses to open it for writing, or halfway. Whatever happens, nothing changes
but what that file contains (`normalizeFragment_cases`); and if nothing fails, it
has the normal text (`readText_normalizeFragment`). So the pass over all
fragments changes nothing but the contents of files (`FileSystem.IsRewrite`): no
entry comes, goes or moves.
-/

namespace RaceSkeletons

variable {fs fs' fs'' : FileSystem} {location : Location} {node : Node} {p : Path}
  {bytes data : Bytes} {mode : FileMode} {text : String}

namespace FileSystem

/-! ## Reading and writing a file that is there -/

theorem readBytes_eq_ok_iff :
    fs.readBytes p = .ok bytes ↔ ∃ location mode,
      fs.target? p = .ok (location, .file bytes mode) := by
  rw [readBytes]
  constructor
  · intro h
    split at h
    · cases h
    · next location content mode htarget =>
        cases h
        exact ⟨location, mode, htarget⟩
    · cases h
    · cases h
  · rintro ⟨location, mode, htarget⟩
    rw [htarget]

theorem readText_eq_ok_iff :
    fs.readText p = .ok text ↔ ∃ location bytes mode,
      fs.target? p = .ok (location, .file bytes mode) ∧ Utf8.decode? bytes = some text := by
  rw [readText]
  constructor
  · intro h
    split at h
    · cases h
    · next bytes hread =>
        obtain ⟨location, mode, htarget⟩ := readBytes_eq_ok_iff.mp hread
        split at h
        · cases h
        · next hdecode =>
            cases h
            exact ⟨location, bytes, mode, htarget, hdecode⟩
  · rintro ⟨location, bytes, mode, htarget, hdecode⟩
    simp only [readBytes_eq_ok_iff.mpr ⟨location, mode, htarget⟩, hdecode]

theorem nodeAt?_of_target? (h : fs.target? p = .ok (location, node)) :
    fs.nodeAt? location = some node :=
  (target?_eq_ok_iff.mp h).2.node_eq.symm

theorem target?_of_write (h : fs.target? p = .ok (location, node)) {node' : Node}
    (hwrite : IsWrite fs fs' location node') (hnode : ∀ target, node' ≠ .link target) :
    fs'.target? p = .ok (location, node') := by
  obtain ⟨hp, hleads⟩ := target?_eq_ok_iff.mp h
  rw [target?, locate_of_write (locate_eq_ok_iff.mpr ⟨hp, hleads⟩) hwrite hnode]

/-- A file that is there is not written because the system refuses, or it holds the
data afterwards, or, if the write fails, a part of it. -/
theorem writeFile_cases (h : fs.target? p = .ok (location, .file bytes mode)) (data : Bytes) :
    (∃ e, mode.refusal? = some e ∧ fs.writeFile p data = (fs, .error e)) ∨
      ∃ written, mode.refusal? = none ∧
        ((data = [] ∨ fs.fault? = none) ∧ fs.writeFile p data = (written, .ok ()) ∧
            IsWrite fs written location (.file data mode) ∨
          ∃ fault, fs.fault? = some fault ∧ fs.writeFile p data = (written, .error fault.error) ∧
            IsWrite fs written location (.file (data.take fault.taken) mode)) := by
  have hnode := nodeAt?_of_target? h
  obtain ⟨hp, hleads⟩ := target?_eq_ok_iff.mp h
  have hlocate : fs.locate true p = .ok ⟨location, some (.file bytes mode)⟩ :=
    locate_eq_ok_iff.mpr ⟨hp, hleads⟩
  have hemptied := isWrite_replaceAt hnode (.file [] mode)
  cases hmode : mode.refusal? with
  | some e => exact .inl ⟨e, rfl, by simp only [writeFile, createFile, hlocate, hmode]⟩
  | none =>
      have hopened : fs.writeFile p data =
          (fs.replaceAt location (.file [] mode)).fill location data := by
        simp only [writeFile, createFile, hlocate, hmode]
      rw [hopened, fill]
      by_cases hdata : data = []
      · subst hdata
        exact .inr ⟨_, rfl, .inl ⟨.inl rfl, if_pos rfl, hemptied⟩⟩
      · have hfilled : ∀ content, IsWrite fs
            ((fs.replaceAt location (.file [] mode)).overwrite location content mode) location
            (.file content mode) := fun content =>
          hemptied.trans (isWrite_overwrite hemptied.nodeAt?_self)
        have hsame : (fs.replaceAt location (.file [] mode)).fault? = fs.fault? := rfl
        simp only [if_neg hdata, hemptied.nodeAt?_self, hsame]
        cases hfault : fs.fault? with
        | none => exact .inr ⟨_, trivial, .inl ⟨.inr rfl, rfl, hfilled data⟩⟩
        | some fault => exact .inr ⟨_, trivial, .inr ⟨fault, rfl, rfl, hfilled _⟩⟩

theorem writeFile_of_file (h : fs.target? p = .ok (location, .file bytes mode))
    (hopens : mode.refusal? = none) (hfault : fs.fault? = none) (data : Bytes) :
    ∃ written, fs.writeFile p data = (written, .ok ()) ∧
      IsWrite fs written location (.file data mode) := by
  rcases writeFile_cases h data with
    ⟨e, hrefused, -⟩ | ⟨written, -, ⟨-, hwritten⟩ | ⟨fault, hfails, -⟩⟩
  · rw [hopens] at hrefused
    cases hrefused
  · exact ⟨written, hwritten⟩
  · rw [hfault] at hfails
    cases hfails

theorem writeFile_of_fault {fault : WriteFault}
    (h : fs.target? p = .ok (location, .file bytes mode)) (hopens : mode.refusal? = none)
    (hfault : fs.fault? = some fault) (hdata : data ≠ []) :
    ∃ written, fs.writeFile p data = (written, .error fault.error) ∧
      IsWrite fs written location (.file (data.take fault.taken) mode) := by
  rcases writeFile_cases h data with
    ⟨e, hrefused, -⟩ | ⟨written, -, ⟨hwell, -⟩ | ⟨fault', hfails, hwritten⟩⟩
  · rw [hopens] at hrefused
    cases hrefused
  · rw [hfault] at hwell
    exact absurd hwell (not_or.mpr ⟨hdata, nofun⟩)
  · rw [hfault] at hfails
    obtain rfl := Option.some.inj hfails
    exact ⟨written, hwritten⟩

/-! ## Other contents -/

/-- `fs'` differs from `fs` at most in what files contain. -/
structure IsRewrite (fs fs' : FileSystem) : Prop where
  nodeAt? : ∀ location, fs'.nodeAt? location = fs.nodeAt? location ∨
    ∃ bytes bytes' mode, fs.nodeAt? location = some (.file bytes mode) ∧
      fs'.nodeAt? location = some (.file bytes' mode)
  terms : fs'.toTerms = fs.toTerms

namespace IsRewrite

theorem workingDir (h : IsRewrite fs fs') : fs'.workingDir = fs.workingDir :=
  congrArg Terms.workingDir h.terms

theorem refl (fs : FileSystem) : IsRewrite fs fs :=
  ⟨fun _ => .inl rfl, rfl⟩

theorem symm (h : IsRewrite fs fs') : IsRewrite fs' fs where
  nodeAt? location := by
    rcases h.nodeAt? location with hsame | ⟨bytes, bytes', mode, hfirst, hlast⟩
    · exact .inl hsame.symm
    · exact .inr ⟨bytes', bytes, mode, hlast, hfirst⟩
  terms := h.terms.symm

theorem trans (h : IsRewrite fs fs') (h' : IsRewrite fs' fs'') : IsRewrite fs fs'' where
  nodeAt? location := by
    rcases h'.nodeAt? location with hlast | ⟨bytes, bytes', mode, hbetween, hlast⟩
    · rw [hlast]
      exact h.nodeAt? location
    · rcases h.nodeAt? location with hfirst | ⟨before, _, mode', hfirst, hsame⟩
      · rw [hfirst] at hbetween
        exact .inr ⟨bytes, bytes', mode, hbetween, hlast⟩
      · rw [hbetween] at hsame
        obtain ⟨rfl, rfl⟩ := Node.file.inj (Option.some.inj hsame)
        exact .inr ⟨before, bytes', mode, hfirst, hlast⟩
  terms := h'.terms.trans h.terms

theorem of_write (hwrite : IsWrite fs fs' location (.file data mode))
    (h : fs.nodeAt? location = some (.file bytes mode)) : IsRewrite fs fs' where
  nodeAt? other := by
    by_cases heq : other = location
    · subst heq
      exact .inr ⟨bytes, data, mode, h, hwrite.nodeAt?_self⟩
    · exact .inl (hwrite.nodeAt?_of_ne heq)
  terms := hwrite.terms

/-- Whatever is no file is as it was. -/
theorem nodeAt?_eq_some_iff (h : IsRewrite fs fs')
    (hnode : ∀ bytes mode, node ≠ .file bytes mode) :
    fs'.nodeAt? location = some node ↔ fs.nodeAt? location = some node := by
  rcases h.nodeAt? location with hsame | ⟨bytes, bytes', mode, hfirst, hlast⟩
  · rw [hsame]
  · rw [hfirst, hlast]
    exact ⟨fun heq => absurd (Option.some.inj heq).symm (hnode _ _),
      fun heq => absurd (Option.some.inj heq).symm (hnode _ _)⟩

theorem link_iff (h : IsRewrite fs fs') {target : Path} :
    fs'.nodeAt? location = some (.link target) ↔ fs.nodeAt? location = some (.link target) :=
  h.nodeAt?_eq_some_iff nofun

theorem nodeAt?_eq_none_iff (h : IsRewrite fs fs') :
    fs'.nodeAt? location = none ↔ fs.nodeAt? location = none := by
  rcases h.nodeAt? location with hsame | ⟨bytes, bytes', mode, hfirst, hlast⟩
  · rw [hsame]
  · rw [hfirst, hlast]
    exact ⟨nofun, nofun⟩

theorem isDirAt (h : IsRewrite fs fs') : fs'.isDirAt location = fs.isDirAt location := by
  rw [Bool.eq_iff_iff, FileSystem.isDirAt, FileSystem.isDirAt, beq_iff_eq, beq_iff_eq]
  exact h.nodeAt?_eq_some_iff (by simp)

theorem isRegular (h : IsRewrite fs fs') :
    (fs'.nodeAt? location).map Node.isRegular = (fs.nodeAt? location).map Node.isRegular := by
  rcases h.nodeAt? location with hsame | ⟨bytes, bytes', mode, hfirst, hlast⟩
  · rw [hsame]
  · rw [hfirst, hlast]
    rfl

end IsRewrite

/-! ## Files that are given another text -/

/-- A path leads to a file with a text that is no fixed point. -/
structure IsChanged (f : String → String) (fs : FileSystem) (p : Path) (location : Location)
    (mode : FileMode) (text : String) : Prop where
  file : ∃ bytes, fs.target? p = .ok (location, .file bytes mode) ∧ Utf8.decode? bytes = some text
  ne : f text ≠ text

/-- The file that a path leads to can be opened for writing. -/
def IsRewritable (fs : FileSystem) (p : Path) : Prop :=
  ∃ location bytes mode, fs.target? p = .ok (location, .file bytes mode) ∧ mode.refusal? = none

/-- How the text of the file at a path is replaced: what is left, and what is answered. -/
inductive Rewrites (f : String → String) (p : Path) (fs : FileSystem) :
    FileSystem → Except FileError Bool → Prop where
  /-- What holds no text is left alone. -/
  | unread {e : FileError} (unread : fs.readText p = .error e) : Rewrites f p fs fs (.error e)
  | same {text : String} (read : fs.readText p = .ok text) (same : f text = text) :
      Rewrites f p fs fs (.ok false)
  | written {location : Location} {mode : FileMode} {text : String} {fs' : FileSystem}
      (changed : IsChanged f fs p location mode text) (opens : mode.refusal? = none)
      (write : IsWrite fs fs' location (.file (Utf8.encode (f text)) mode)) :
      Rewrites f p fs fs' (.ok true)
  /-- The file cannot be opened for writing. -/
  | refused {location : Location} {mode : FileMode} {text : String} {e : FileError}
      (changed : IsChanged f fs p location mode text) (refused : mode.refusal? = some e) :
      Rewrites f p fs fs (.error e)
  /-- The file takes only some of the new text. -/
  | cut {location : Location} {mode : FileMode} {text : String} {fs' : FileSystem}
      {fault : WriteFault} (changed : IsChanged f fs p location mode text)
      (opens : mode.refusal? = none) (fails : fs.fault? = some fault)
      (write : IsWrite fs fs' location
        (.file ((Utf8.encode (f text)).take fault.taken) mode)) :
      Rewrites f p fs fs' (.error fault.error)

namespace Rewrites

variable {f : String → String} {result : Except FileError Bool} {changed : Bool}

/-- A text that is written to its file. -/
theorem of_writeFile (hread : fs.readText p = .ok text) (hne : f text ≠ text) :
    Rewrites f p fs (fs.writeFile p (Utf8.encode (f text))).1
      ((fs.writeFile p (Utf8.encode (f text))).2.map fun _ => true) := by
  obtain ⟨location, bytes, mode, htarget, hdecode⟩ := readText_eq_ok_iff.mp hread
  have hchanged : IsChanged f fs p location mode text := ⟨⟨bytes, htarget, hdecode⟩, hne⟩
  rcases writeFile_cases htarget (Utf8.encode (f text)) with
    ⟨e, hrefused, hsame⟩ | ⟨written, hopens, ⟨-, hwritten, hwrite⟩ | ⟨fault, hfails, hcut, hwrite⟩⟩
  · rw [hsame]
    exact .refused hchanged hrefused
  · rw [hwritten]
    exact .written hchanged hopens hwrite
  · rw [hcut]
    exact .cut hchanged hopens hfails hwrite

theorem isRewrite (h : Rewrites f p fs fs' result) : IsRewrite fs fs' := by
  cases h with
  | unread | same | refused => exact .refl fs
  | written changed _ write | cut changed _ _ write =>
      obtain ⟨bytes, htarget, -⟩ := changed.file
      exact .of_write write (nodeAt?_of_target? htarget)

/-- At most the file that the path leads to is changed. -/
theorem eq_or_isWrite (h : Rewrites f p fs fs' result) : fs' = fs ∨
    ∃ location bytes content mode, fs.target? p = .ok (location, .file bytes mode) ∧
      IsWrite fs fs' location (.file content mode) := by
  cases h with
  | unread | same | refused => exact .inl rfl
  | written changed _ write | cut changed _ _ write =>
      obtain ⟨bytes, htarget, -⟩ := changed.file
      exact .inr ⟨_, bytes, _, _, htarget, write⟩

/-- A rewriting that did not fail leaves the new text, and answers whether it is new. -/
theorem readText (h : Rewrites f p fs fs' (.ok changed)) :
    ∃ text, fs.readText p = .ok text ∧ fs'.readText p = .ok (f text) ∧
      (changed = true ↔ f text ≠ text) := by
  cases h with
  | same hread hsame =>
      exact ⟨_, hread, hsame.symm ▸ hread, iff_of_false Bool.false_ne_true (not_not_intro hsame)⟩
  | written hchanged _ hwrite =>
      obtain ⟨bytes, htarget, hdecode⟩ := hchanged.file
      exact ⟨_, readText_eq_ok_iff.mpr ⟨_, bytes, _, htarget, hdecode⟩,
        readText_eq_ok_iff.mpr ⟨_, _, _, target?_of_write htarget hwrite nofun,
          Utf8.decode?_encode _⟩, iff_of_true rfl hchanged.ne⟩

theorem isRewritable (h : Rewrites f p fs fs' result) (hp : fs.IsRewritable p) :
    fs'.IsRewritable p := by
  obtain ⟨location, bytes, mode, htarget, hopens⟩ := hp
  rcases h.eq_or_isWrite with rfl | ⟨_, _, content, mode', htarget', hwrite⟩
  · exact ⟨location, bytes, mode, htarget, hopens⟩
  · obtain ⟨rfl, hnode⟩ := Prod.mk.inj (Except.ok.inj (htarget.symm.trans htarget'))
    obtain ⟨-, rfl⟩ := Node.file.inj hnode
    exact ⟨location, content, mode, target?_of_write htarget hwrite nofun, hopens⟩

/-- A rewriting of a text fails only if the file cannot be written. -/
theorem isOk (h : Rewrites f p fs fs' result) (hread : fs.readText p = .ok text)
    (hp : fs.IsRewritable p) (hfault : fs.fault? = none) : ∃ changed, result = .ok changed := by
  cases h with
  | unread hunread =>
      rw [hread] at hunread
      cases hunread
  | same => exact ⟨_, rfl⟩
  | written => exact ⟨_, rfl⟩
  | refused hchanged hrefused =>
      obtain ⟨_, htarget, -⟩ := hchanged.file
      obtain ⟨_, _, _, htarget', hopens⟩ := hp
      obtain ⟨-, hnode⟩ := Prod.mk.inj (Except.ok.inj (htarget.symm.trans htarget'))
      obtain ⟨-, rfl⟩ := Node.file.inj hnode
      rw [hopens] at hrefused
      cases hrefused
  | cut _ _ hfails =>
      rw [hfault] at hfails
      cases hfails

end Rewrites

/-! ## Files that are left alone -/

/-- What stands at a location is left alone by normalization: if it is a text, it is clean or
cannot be opened for writing. -/
def IsLeftAlone (fs : FileSystem) (location : Location) : Prop :=
  ∀ bytes mode text, fs.nodeAt? location = some (.file bytes mode) →
    Utf8.decode? bytes = some text → IsClean text ∨ mode.refusal? ≠ none

theorem Rewrites.eq_of_isLeftAlone {f : String → String} {result : Except FileError Bool}
    (h : Rewrites f p fs fs' result) (hf : ∀ text, IsClean text → f text = text)
    (halone : ∀ location node, fs.target? p = .ok (location, node) → fs.IsLeftAlone location) :
    fs' = fs ∧ result ≠ .ok true := by
  have hnone : ∀ {location mode text}, IsChanged f fs p location mode text →
      mode.refusal? ≠ none := by
    intro location mode text hchanged
    obtain ⟨bytes, htarget, hdecode⟩ := hchanged.file
    exact (halone location _ htarget bytes mode text (nodeAt?_of_target? htarget)
      hdecode).resolve_left fun hclean => hchanged.ne (hf text hclean)
  cases h with
  | unread | same | refused => exact ⟨rfl, nofun⟩
  | written changed opens | cut changed opens => exact absurd opens (hnone changed)

end FileSystem

/-! ## One fragment -/

open FileSystem

theorem insertHeader_eq_iff : insertHeader text = text ↔ hasHeader text = true := by
  refine ⟨fun h => ?_, fun h => if_pos h⟩
  rw [← h]
  exact hasHeader_insertHeader text

theorem rewrites_ensureHeader (fs : FileSystem) (p : Path) :
    Rewrites insertHeader p fs (ensureHeader fs p).1 (ensureHeader fs p).2 := by
  rw [ensureHeader]
  split
  · next hread => exact .unread hread
  · next text hread =>
      split
      · next hheader => exact .same hread (insertHeader_eq_iff.mpr hheader)
      · next hnone =>
          have hrewrites := Rewrites.of_writeFile hread (mt insertHeader_eq_iff.mp hnone)
          rw [show insertHeader text = defaultHeader ++ text from if_neg hnone] at hrewrites
          split
          all_goals
            next hwritten =>
              rw [hwritten] at hrewrites
              exact hrewrites

theorem rewrites_stripFile (fs : FileSystem) (p : Path) :
    Rewrites stripComments p fs (stripFile fs p).1 (stripFile fs p).2 := by
  rw [stripFile]
  split
  · next hread => exact .unread hread
  · next text hread =>
      split
      · next hsame => exact .same hread hsame
      · next hne =>
          have hrewrites := Rewrites.of_writeFile hread hne
          split
          all_goals
            next hwritten =>
              rw [hwritten] at hrewrites
              exact hrewrites

/-- Normalizing a fragment is two rewritings, one after the other. -/
theorem rewrites_normalizeFragment (host : Host) (checker : SyntaxChecker) (fs : FileSystem)
    (p : Path) : ∃ headed,
      Rewrites insertHeader p fs headed (normalizeFragment host checker fs p).2.header ∧
        Rewrites stripComments p headed (normalizeFragment host checker fs p).1
          (normalizeFragment host checker fs p).2.strip :=
  ⟨_, rewrites_ensureHeader fs p, rewrites_stripFile _ p⟩

/-- At most the file that the path leads to is changed. -/
theorem normalizeFragment_cases (host : Host) (checker : SyntaxChecker) (fs : FileSystem)
    (p : Path) : (normalizeFragment host checker fs p).1 = fs ∨
      ∃ location bytes content mode, fs.target? p = .ok (location, .file bytes mode) ∧
        IsWrite fs (normalizeFragment host checker fs p).1 location (.file content mode) := by
  obtain ⟨headed, hheader, hstrip⟩ := rewrites_normalizeFragment host checker fs p
  rcases hheader.eq_or_isWrite with rfl | ⟨location, bytes, content, mode, htarget, hwrite⟩
  · exact hstrip.eq_or_isWrite
  · refine .inr ⟨location, bytes, ?_⟩
    have hlater := target?_of_write htarget hwrite nofun
    rcases hstrip.eq_or_isWrite with hsame | ⟨_, _, content', _, htarget', hwrite'⟩
    · rw [hsame]
      exact ⟨content, mode, htarget, hwrite⟩
    · obtain ⟨rfl, hnode⟩ := Prod.mk.inj (Except.ok.inj (hlater.symm.trans htarget'))
      obtain ⟨-, rfl⟩ := Node.file.inj hnode
      exact ⟨content', mode, htarget, hwrite.trans hwrite'⟩

/-- Neither rewriting of the fragment failed. -/
def FragmentReport.IsRewritten (r : FragmentReport) : Prop :=
  ∃ headed stripped, r.header = .ok headed ∧ r.strip = .ok stripped

/-- If neither rewriting failed, the fragment has the normal text. -/
theorem readText_normalizeFragment {host : Host} {checker : SyntaxChecker}
    (h : (normalizeFragment host checker fs p).2.IsRewritten) :
    ∃ text, fs.readText p = .ok text ∧
      (normalizeFragment host checker fs p).1.readText p = .ok (normalText text) := by
  obtain ⟨headed, stripped, hheader, hstrip⟩ := h
  obtain ⟨between, hfirst, hsecond⟩ := rewrites_normalizeFragment host checker fs p
  rw [hheader] at hfirst
  rw [hstrip] at hsecond
  obtain ⟨text, hread, hbetween, -⟩ := hfirst.readText
  obtain ⟨text', hread', hafter, -⟩ := hsecond.readText
  obtain rfl := Except.ok.inj (hbetween.symm.trans hread')
  exact ⟨text, hread, hafter⟩

/-- Neither rewriting of a text fails if its file can be written. -/
theorem isRewritten_normalizeFragment (host : Host) (checker : SyntaxChecker)
    (hread : fs.readText p = .ok text) (hp : fs.IsRewritable p) (hfaults : fs.faults = []) :
    (normalizeFragment host checker fs p).2.IsRewritten := by
  have hheader := rewrites_ensureHeader fs p
  obtain ⟨headed, hheaded⟩ := hheader.isOk hread hp (fault?_of_nil hfaults)
  obtain ⟨_, -, hbetween, -⟩ := (hheaded ▸ hheader).readText
  have hnone : (ensureHeader fs p).1.faults = [] :=
    List.suffix_nil.mp (hfaults ▸ faults_ensureHeader fs p)
  obtain ⟨stripped, hstripped⟩ := (rewrites_stripFile _ p).isOk hbetween
    (hheader.isRewritable hp) (fault?_of_nil hnone)
  exact ⟨headed, stripped, hheaded, hstripped⟩

/-! ## All fragments -/

theorem isRewrite_normalizeFragment (host : Host) (checker : SyntaxChecker) (fs : FileSystem)
    (p : Path) : IsRewrite fs (normalizeFragment host checker fs p).1 := by
  obtain ⟨headed, hheader, hstrip⟩ := rewrites_normalizeFragment host checker fs p
  exact hheader.isRewrite.trans hstrip.isRewrite

theorem isRewrite_normalizeEach (host : Host) (checker : SyntaxChecker) (fs : FileSystem)
    (files : List Path) : IsRewrite fs (normalizeEach host checker fs files).1 := by
  induction files generalizing fs with
  | nil => exact .refl fs
  | cons p rest ih => exact (isRewrite_normalizeFragment host checker fs p).trans (ih _)

end RaceSkeletons
